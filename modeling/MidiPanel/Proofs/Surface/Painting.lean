import MidiPanel.Proofs.Surface.Framed

/-!
# What painting lights

Painting a rectangle gives the pixels that it shares with a buffer their colours and leaves all
other pixels alone. On a pixel panel a filled rectangle lights the pixels that it covers, both
corners included; behind a run of such calls a pixel is lit if it was before or if one of them
covers it.

Results:
* `get?_set`, `get?_paint`: every pixel behind one change, and behind a painted rectangle.
* `isLit_run_of_isFill`: every pixel behind a run of filled rectangles.
-/

namespace MidiPanel

/-- The point lies in the rectangle. -/
def Rect.Contains (area : Rect) (x y : Int) : Prop :=
  (area.left ≤ x ∧ x < area.left + area.width) ∧ (area.top ≤ y ∧ y < area.top + area.height)

instance Rect.decidableContains (area : Rect) (x y : Int) : Decidable (area.Contains x y) :=
  inferInstanceAs (Decidable ((_ ∧ _) ∧ (_ ∧ _)))

namespace FrameBuffer

/-! ## One pixel -/

/-- Pixels of different places are stored in different places. -/
theorem index_inj {width x y x' y' : Nat} (hx : x < width) (hx' : x' < width)
    (h : y * width + x = y' * width + x') : x = x' ∧ y = y' := by
  have hcolumn := congrArg (· % width) h
  have hrow := congrArg (· / width) h
  have hpos : 0 < width := Nat.lt_of_le_of_lt (Nat.zero_le x) hx
  simp only [Nat.mul_add_mod_self_right, Nat.mod_eq_of_lt hx, Nat.mod_eq_of_lt hx'] at hcolumn
  simp only [Nat.add_comm _ x, Nat.add_comm _ x', Nat.add_mul_div_right _ _ hpos,
    Nat.div_eq_of_lt hx, Nat.div_eq_of_lt hx', Nat.zero_add] at hrow
  exact ⟨hcolumn, hrow⟩

theorem get?_eq_none_iff {fb : FrameBuffer} {x y : Nat} :
    fb.get? x y = none ↔ ¬(x < fb.width ∧ y < fb.height) := by
  unfold get?
  split <;> simp_all

theorem exists_get?_eq {fb : FrameBuffer} {x y : Nat} (h : x < fb.width ∧ y < fb.height) :
    ∃ on, fb.get? x y = some on :=
  ⟨_, dif_pos h⟩

theorem get?_set (fb : FrameBuffer) (x y : Nat) (on : Bool) (x' y' : Nat) :
    (fb.set x y on).get? x' y' =
      if x' = x ∧ y' = y then (fb.get? x' y').map fun _ => on else fb.get? x' y' := by
  by_cases hin : x < fb.width ∧ y < fb.height
  · have hset : fb.set x y on =
        ⟨fb.width, fb.height, fb.pixels.set (y * fb.width + x) on (index_lt hin.1 hin.2)⟩ :=
      dif_pos hin
    rw [hset]
    unfold get?
    dsimp only
    by_cases hin' : x' < fb.width ∧ y' < fb.height
    · rw [dif_pos hin', dif_pos hin', Vector.getElem_set]
      by_cases hsame : x' = x ∧ y' = y
      · obtain ⟨rfl, rfl⟩ := hsame
        rw [if_pos rfl, if_pos ⟨rfl, rfl⟩]
        rfl
      · have hindex : y * fb.width + x ≠ y' * fb.width + x' := by
          intro h
          obtain ⟨hx, hy⟩ := index_inj hin.1 hin'.1 h
          exact hsame ⟨hx.symm, hy.symm⟩
        rw [if_neg hindex, if_neg hsame]
    · rw [dif_neg hin', dif_neg hin']
      exact (ite_self none).symm
  · have hset : fb.set x y on = fb := dif_neg hin
    rw [hset]
    split
    next hsame =>
      obtain ⟨rfl, rfl⟩ := hsame
      rw [get?_eq_none_iff.mpr hin]
      rfl
    next => rfl

theorem isLit_filled_false (width height x y : Nat) :
    (filled width height false).isLit x y = false := by
  unfold isLit get? filled
  split
  · simp
  · rfl

/-! ## Rectangles -/

theorem get?_foldl_set (fb : FrameBuffer) (xs : List Nat) (y : Nat) (color : Nat → Bool)
    (x' y' : Nat) :
    (xs.foldl (fun fb x => fb.set x y (color x)) fb).get? x' y' =
      if x' ∈ xs ∧ y' = y then (fb.get? x' y').map fun _ => color x' else fb.get? x' y' := by
  induction xs generalizing fb with
  | nil => simp
  | cons x xs ih =>
    rw [List.foldl_cons, ih, get?_set]
    by_cases hx : x' = x
    · subst hx
      by_cases hy : y' = y <;> simp [hy, Function.comp_def]
    · simp [hx]

theorem get?_foldl_rows (fb : FrameBuffer) (ys columns : List Nat) (color : Nat → Nat → Bool)
    (x' y' : Nat) :
    (ys.foldl (fun fb y => columns.foldl (fun fb x => fb.set x y (color x y)) fb) fb).get? x' y' =
      if x' ∈ columns ∧ y' ∈ ys then (fb.get? x' y').map fun _ => color x' y'
      else fb.get? x' y' := by
  induction ys generalizing fb with
  | nil => simp
  | cons y ys ih =>
    rw [List.foldl_cons, ih, get?_foldl_set fb columns y (color · y)]
    by_cases hy : y' = y
    · subst hy
      by_cases hx : x' ∈ columns <;> simp [hx, Function.comp_def]
    · simp [hy]

theorem mem_clipped {start : Int} {length bound n : Nat} :
    n ∈ clipped start length bound ↔ (start ≤ n ∧ (n : Int) < start + length) ∧ n < bound := by
  unfold clipped
  rw [List.mem_range'_1]
  omega

/-- Painting changes the pixels of the rectangle, each to its colour, and no other pixel. -/
theorem get?_paint (fb : FrameBuffer) (area : Rect) (color : Nat → Nat → Bool) (x y : Nat) :
    (fb.paint area color).get? x y =
      if area.Contains x y then
        (fb.get? x y).map fun _ => color (x - area.left).toNat (y - area.top).toNat
      else fb.get? x y := by
  have hvisited : x ∈ clipped area.left area.width fb.width ∧
      y ∈ clipped area.top area.height fb.height ↔
        area.Contains x y ∧ x < fb.width ∧ y < fb.height := by
    rw [mem_clipped, mem_clipped]
    unfold Rect.Contains
    omega
  unfold paint
  dsimp only
  rw [get?_foldl_rows fb _ _ fun x y => color (x - area.left).toNat (y - area.top).toNat]
  by_cases hin : x < fb.width ∧ y < fb.height
  · by_cases harea : area.Contains x y
    · rw [if_pos (hvisited.mpr ⟨harea, hin⟩), if_pos harea]
    · rw [if_neg fun h => harea (hvisited.mp h).1, if_neg harea]
  · rw [get?_eq_none_iff.mpr hin, Option.map_none, ite_self, ite_self]

theorem isLit_fill (fb : FrameBuffer) (area : Rect) (x y : Nat) :
    (fb.fill area true).isLit x y = true ↔
      fb.isLit x y = true ∨ (area.Contains x y ∧ x < fb.width ∧ y < fb.height) := by
  unfold isLit fill
  rw [get?_paint]
  by_cases hin : x < fb.width ∧ y < fb.height
  · obtain ⟨on, hon⟩ := exists_get?_eq hin
    rw [hon]
    by_cases harea : area.Contains x y <;> simp [harea, hin]
  · rw [get?_eq_none_iff.mpr hin]
    simp [hin]

end FrameBuffer

/-! ## Filled rectangles -/

/-- Whether a call fills a rectangle. -/
def Call.isFill : Call → Bool
  | .fillRect _ _ _ _ => true
  | _ => false

/-- The rectangle of a call covers the pixel. -/
def Call.Covers (x y : Nat) : Call → Prop
  | .fillRect x₁ y₁ x₂ y₂ =>
    (min x₁ x₂ ≤ x ∧ x ≤ max x₁ x₂) ∧ (min y₁ y₂ ≤ y ∧ y ≤ max y₁ y₂)
  | _ => False

namespace PixelPanel

theorem isLit_perform_of_isFill {lcd lcd' : PixelPanel} {call : Call} (hfill : call.isFill = true)
    (h : Surface.perform lcd call = .ok lcd') (x y : Nat) :
    lcd'.frame.isLit x y = true ↔ lcd.frame.isLit x y = true ∨ call.Covers x y := by
  cases call with
  | fillRect x₁ y₁ x₂ y₂ =>
    replace h : lcd.perform (.fillRect x₁ y₁ x₂ y₂) = .ok lcd' := h
    simp only [perform] at h
    split at h
    next => cases h
    next hin =>
      cases h
      rw [FrameBuffer.isLit_fill]
      refine or_congr_right ?_
      unfold Rect.Contains Call.Covers
      dsimp only
      omega
  | print | drawImage | setBacklight | clear | flush => cases hfill

/-- Behind filled rectangles a pixel is lit that was lit before or that one of them covers. -/
theorem isLit_run_of_isFill {lcd : PixelPanel} {calls : List Call}
    (hfill : ∀ call ∈ calls, call.isFill = true) (h : (Surface.run lcd calls).2 = none)
    (x y : Nat) :
    (Surface.run lcd calls).1.frame.isLit x y = true ↔
      lcd.frame.isLit x y = true ∨ ∃ call ∈ calls, call.Covers x y := by
  induction calls generalizing lcd with
  | nil => simp [Surface.run]
  | cons call calls ih =>
    unfold Surface.run at h ⊢
    cases hcall : Surface.perform lcd call with
    | error fault =>
      rw [hcall] at h
      cases h
    | ok lcd' =>
      rw [hcall] at h
      dsimp only at h ⊢
      rw [ih (fun later hlater => hfill later (List.mem_cons_of_mem call hlater)) h,
        isLit_perform_of_isFill (hfill call List.mem_cons_self) hcall, or_assoc]
      simp only [List.mem_cons, exists_eq_or_imp]

end PixelPanel
end MidiPanel
