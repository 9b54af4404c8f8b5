import MidiPanel.Proofs.Surface.Backlight

/-!
# What surfaces show

What a surface shows is its frame. What it is, whatever it shows, is its fixture: kind and size, and
the images that it knows. On a framed surface the fixture stays and settles which calls are refused,
drawing depends on nothing but the fixture and the frame, and blanking forgets what was shown. The
panels of this library are framed.

Results:
* `run_congr`: calls that draw the same on the same frame go on to do so.
* `blanked_congr`: what is shown behind blanking does not depend on what was shown before it.
-/

namespace MidiPanel

/-- Surfaces with a frame that is drawn by calls, on a fixture that no call changes. -/
class Framed (σ : Type) [Surface σ] where
  /-- What a surface is, whatever it shows. -/
  Fixture : Type
  /-- What a surface shows. -/
  Frame : Type
  fixture : σ → Fixture
  frame : σ → Frame
  geometry_congr {s t : σ} (h : fixture s = fixture t) :
    Surface.kind s = Surface.kind t ∧ Surface.width s = Surface.width t ∧
      Surface.height s = Surface.height t
  fixture_of_ok {s s' : σ} {call : Call} (h : Surface.perform s call = .ok s') :
    fixture s' = fixture s
  fixture_of_error {s : σ} {call : Call} {fault : Fault}
    (h : Surface.perform s call = .error fault) :
    fixture (Surface.afterFault s call) = fixture s
  error_congr {s t : σ} {call : Call} {fault : Fault} (h : fixture s = fixture t)
    (hs : Surface.perform s call = .error fault) : Surface.perform t call = .error fault
  frame_congr {s s' t t' : σ} {call : Call} (h : fixture s = fixture t)
    (hframe : frame s = frame t ∨ call = .clear) (hs : Surface.perform s call = .ok s')
    (ht : Surface.perform t call = .ok t') : frame s' = frame t'
  frame_of_setBacklight {s s' : σ} {on : Bool}
    (h : Surface.perform s (.setBacklight on) = .ok s') : frame s' = frame s

namespace Framed

variable {σ : Type} [Surface σ] [Framed σ]

theorem ok_congr {s s' t : σ} {call : Call} (h : fixture s = fixture t)
    (hs : Surface.perform s call = .ok s') : ∃ t', Surface.perform t call = .ok t' := by
  cases ht : Surface.perform t call with
  | ok t' => exact ⟨t', rfl⟩
  | error fault => cases hs.symm.trans (error_congr h.symm ht)

theorem fixture_run (s : σ) (calls : List Call) :
    fixture (Surface.run s calls).1 = fixture s := by
  induction calls generalizing s with
  | nil => rfl
  | cons call calls ih =>
    unfold Surface.run
    cases hcall : Surface.perform s call with
    | ok s' => exact (ih s').trans (fixture_of_ok hcall)
    | error fault => exact fixture_of_error hcall

theorem fixture_of_run {s s' : σ} {calls : List Call} {fault : Option Fault}
    (h : Surface.run s calls = (s', fault)) : fixture s' = fixture s := by
  have hfixture := fixture_run s calls
  rw [h] at hfixture
  exact hfixture

/-- The same calls on the same fixture meet the same fault, and leave equal frames equal. -/
theorem run_congr {s t : σ} (h : fixture s = fixture t) (calls : List Call) :
    (Surface.run t calls).2 = (Surface.run s calls).2 ∧
      ((Surface.run s calls).2 = none → frame s = frame t →
        frame (Surface.run s calls).1 = frame (Surface.run t calls).1) := by
  induction calls generalizing s t with
  | nil => exact ⟨rfl, fun _ hframe => hframe⟩
  | cons call calls ih =>
    unfold Surface.run
    cases hs : Surface.perform s call with
    | ok s' =>
      obtain ⟨t', ht⟩ := ok_congr h hs
      rw [ht]
      obtain ⟨hfault, hrest⟩ := ih ((fixture_of_ok hs).trans (h.trans (fixture_of_ok ht).symm))
      exact ⟨hfault, fun hnone hframe => hrest hnone (frame_congr h (.inl hframe) hs ht)⟩
    | error fault =>
      rw [error_congr h hs]
      exact ⟨rfl, fun hnone => absurd hnone (Option.some_ne_none fault)⟩

/-- Calls that would be performed one by one are performed one after the other. -/
theorem run_of_performs {s : σ} {calls : List Call}
    (h : ∀ call ∈ calls, ∃ s', Surface.perform s call = .ok s') :
    (Surface.run s calls).2 = none := by
  induction calls generalizing s with
  | nil => rfl
  | cons call calls ih =>
    obtain ⟨s', hcall⟩ := h call List.mem_cons_self
    unfold Surface.run
    rw [hcall]
    refine ih fun later hlater => ?_
    obtain ⟨t, ht⟩ := h later (List.mem_cons_of_mem call hlater)
    exact ok_congr (fixture_of_ok hcall).symm ht

theorem frame_run_of_isBacklight {s : σ} {calls : List Call}
    (h : ∀ call ∈ calls, call.isBacklight = true) (hs : (Surface.run s calls).2 = none) :
    frame (Surface.run s calls).1 = frame s := by
  induction calls generalizing s with
  | nil => rfl
  | cons call calls ih =>
    unfold Surface.run at hs ⊢
    have hcall : call.isBacklight = true := h call List.mem_cons_self
    cases call with
    | setBacklight on =>
      cases hperform : Surface.perform s (.setBacklight on) with
      | ok s' =>
        rw [hperform] at hs
        exact (ih (fun call hmem => h call (List.mem_cons_of_mem _ hmem)) hs).trans
          (frame_of_setBacklight hperform)
      | error fault =>
        rw [hperform] at hs
        exact absurd hs (Option.some_ne_none fault)
    | _ => cases hcall

/-- Blanking forgets what was shown, and switching the light shows nothing. -/
theorem blanked_congr {s t s' t' : σ} {lights lights' : List Call} (h : fixture s = fixture t)
    (hlights : ∀ call ∈ lights, call.isBacklight = true)
    (hlights' : ∀ call ∈ lights', call.isBacklight = true)
    (hs : Surface.run s (.clear :: lights) = (s', none))
    (ht : Surface.run t (.clear :: lights') = (t', none)) : frame s' = frame t' := by
  unfold Surface.run at hs ht
  cases hblank : Surface.perform s .clear with
  | error fault =>
    rw [hblank] at hs
    cases hs
  | ok blank =>
    cases hblank' : Surface.perform t .clear with
    | error fault =>
      rw [hblank'] at ht
      cases ht
    | ok blank' =>
      rw [hblank] at hs
      rw [hblank'] at ht
      have hlit := frame_run_of_isBacklight hlights (congrArg Prod.snd hs)
      have hlit' := frame_run_of_isBacklight hlights' (congrArg Prod.snd ht)
      calc frame s' = frame (Surface.run blank lights).1 := (congrArg (frame ·.1) hs).symm
        _ = frame blank := hlit
        _ = frame blank' := frame_congr h (.inr rfl) hblank hblank'
        _ = frame (Surface.run blank' lights').1 := hlit'.symm
        _ = frame t' := congrArg (frame ·.1) ht

end Framed

/-! ## Pixels -/

namespace FrameBuffer

/-- The two buffers have the same size. -/
def SameSize (fb fb' : FrameBuffer) : Prop := fb'.width = fb.width ∧ fb'.height = fb.height

theorem SameSize.trans {fb fb' fb'' : FrameBuffer} (h : SameSize fb fb') (h' : SameSize fb' fb'') :
    SameSize fb fb'' := ⟨h'.1.trans h.1, h'.2.trans h.2⟩

theorem sameSize_set (fb : FrameBuffer) (x y : Nat) (on : Bool) : SameSize fb (fb.set x y on) := by
  unfold set
  split <;> exact ⟨rfl, rfl⟩

theorem sameSize_foldl {α : Type} {f : FrameBuffer → α → FrameBuffer}
    (h : ∀ fb x, SameSize fb (f fb x)) (fb : FrameBuffer) (xs : List α) :
    SameSize fb (xs.foldl f fb) := by
  induction xs generalizing fb with
  | nil => exact ⟨rfl, rfl⟩
  | cons x xs ih => exact (h fb x).trans (ih (f fb x))

theorem sameSize_paint (fb : FrameBuffer) (area : Rect) (color : Nat → Nat → Bool) :
    SameSize fb (fb.paint area color) := by
  unfold paint
  exact sameSize_foldl (fun fb _ => sameSize_foldl (fun fb _ => sameSize_set fb _ _ _) fb _) fb _

end FrameBuffer

namespace PixelPanel

open FrameBuffer

theorem sameSize_drawLine (frame : FrameBuffer) (left top : Int) (line : List Char) :
    SameSize frame (drawLine frame left top line) := by
  induction line generalizing frame left with
  | nil => exact ⟨rfl, rfl⟩
  | cons c line ih => exact (sameSize_paint frame _ _).trans (ih _ _)

theorem sameSize_drawLines (frame : FrameBuffer) (left top : Int) (lines : List (List Char)) :
    SameSize frame (drawLines frame left top lines) := by
  induction lines generalizing frame top with
  | nil => exact ⟨rfl, rfl⟩
  | cons line lines ih => exact (sameSize_drawLine frame left top _).trans (ih _ _)

theorem sameSize_printText (frame : FrameBuffer) (text : String) (column row : Nat)
    (clearRest : Bool) : SameSize frame (printText frame text column row clearRest) := by
  unfold printText
  dsimp only
  refine SameSize.trans ?_ (sameSize_drawLines _ _ _ _)
  split
  · exact sameSize_paint _ _ _
  · exact ⟨rfl, rfl⟩

/-- A call that is performed keeps size and images of a panel. -/
theorem fixture_perform {p p' : PixelPanel} {call : Call} (h : p.perform call = .ok p') :
    SameSize p.frame p'.frame ∧ p'.images = p.images := by
  cases call with
  | print text column row clearRest =>
    cases h
    exact ⟨sameSize_printText _ _ _ _ _, rfl⟩
  | fillRect x₁ y₁ x₂ y₂ =>
    simp only [perform] at h
    split at h
    · cases h
    · cases h
      exact ⟨sameSize_paint _ _ _, rfl⟩
  | drawImage id =>
    simp only [perform] at h
    split at h
    · cases h
      exact ⟨sameSize_paint _ _ _, rfl⟩
    · cases h
  | setBacklight | clear | flush =>
    cases h
    exact ⟨⟨rfl, rfl⟩, rfl⟩

instance framed : Framed PixelPanel where
  Fixture := (Nat × Nat) × List (ImageId × Bitmap)
  Frame := FrameBuffer
  fixture p := ((p.frame.width, p.frame.height), p.images)
  frame := PixelPanel.frame
  geometry_congr := by
    intro p q h
    obtain ⟨hsize, -⟩ := Prod.mk.inj h
    obtain ⟨hwidth, hheight⟩ := Prod.mk.inj hsize
    exact ⟨rfl, hwidth, hheight⟩
  fixture_of_ok := by
    intro p p' call h
    obtain ⟨⟨hwidth, hheight⟩, himages⟩ := fixture_perform h
    rw [hwidth, hheight, himages]
  fixture_of_error := by
    intro p call fault h
    rfl
  error_congr := by
    intro p q call fault h hp
    obtain ⟨hsize, himages⟩ := Prod.mk.inj h
    obtain ⟨hwidth, hheight⟩ := Prod.mk.inj hsize
    replace hp : p.perform call = .error fault := hp
    show q.perform call = .error fault
    cases call with
    | fillRect x₁ y₁ x₂ y₂ =>
      simp only [perform] at hp ⊢
      rw [hwidth, hheight] at hp
      split at hp
      next hout => rw [if_pos hout, ← hp]
      next => cases hp
    | drawImage id =>
      simp only [perform] at hp ⊢
      rw [himages] at hp
      split at hp
      next => cases hp
      next => exact hp
    | print | setBacklight | clear | flush => cases hp
  frame_congr := by
    intro p p' q q' call h hframe hp hq
    obtain ⟨hsize, himages⟩ := Prod.mk.inj h
    obtain ⟨hwidth, hheight⟩ := Prod.mk.inj hsize
    replace hp : p.perform call = .ok p' := hp
    replace hq : q.perform call = .ok q' := hq
    cases call with
    | clear =>
      cases hp
      cases hq
      show FrameBuffer.filled _ _ _ = FrameBuffer.filled _ _ _
      rw [hwidth, hheight]
    | fillRect x₁ y₁ x₂ y₂ =>
      have hsame : p.frame = q.frame := hframe.resolve_right Call.noConfusion
      simp only [perform] at hp hq
      rw [hsame] at hp
      split at hp
      next => cases hp
      next hin =>
        rw [if_neg hin] at hq
        cases hp
        cases hq
        rfl
    | drawImage id =>
      have hsame : p.frame = q.frame := hframe.resolve_right Call.noConfusion
      simp only [perform] at hp hq
      rw [himages, hsame] at hp
      split at hp
      next bitmap hbitmap =>
        rw [hbitmap] at hq
        cases hp
        cases hq
        rfl
      next => cases hp
    | print text column row clearRest =>
      have hsame : p.frame = q.frame := hframe.resolve_right Call.noConfusion
      cases hp
      cases hq
      show printText p.frame text column row clearRest = printText q.frame text column row clearRest
      rw [hsame]
    | setBacklight | flush =>
      have hsame : p.frame = q.frame := hframe.resolve_right Call.noConfusion
      cases hp
      cases hq
      exact hsame
  frame_of_setBacklight := by
    intro p p' on h
    replace h : p.perform (.setBacklight on) = .ok p' := h
    cases h
    rfl

/-- A new panel of pixels is dark. -/
theorem eq_of_new {width height : Nat} {lcd : PixelPanel}
    (h : PixelPanel.new width height = .ok lcd) :
    0 < height ∧ lcd = ⟨.filled width height false, [], true, 0⟩ := by
  unfold PixelPanel.new at h
  split at h
  next => cases h
  next hsize =>
    cases h
    exact ⟨by omega, rfl⟩

end PixelPanel

/-! ## Cells -/

namespace CellPanel

instance framed : Framed CellPanel where
  Fixture := Nat × Nat
  Frame := (columns : Nat) × (rows : Nat) × Vector (Vector UInt8 columns) rows
  fixture p := (p.columns, p.rows)
  frame p := ⟨p.columns, p.rows, p.cells⟩
  geometry_congr := by
    intro p q h
    obtain ⟨hcolumns, hrows⟩ := Prod.mk.inj h
    exact ⟨rfl, hcolumns, hrows⟩
  fixture_of_ok := by
    intro p p' call h
    replace h : p.perform call = .ok p' := h
    cases call with
    | print text column row clearRest =>
      simp only [perform] at h
      split at h
      · cases h
        rfl
      · cases h
    | fillRect | drawImage => cases h
    | setBacklight | clear | flush =>
      cases h
      rfl
  fixture_of_error := by
    intro p call fault h
    rfl
  error_congr := by
    intro p q call fault h hp
    obtain ⟨hcolumns, hrows⟩ := Prod.mk.inj h
    replace hp : p.perform call = .error fault := hp
    show q.perform call = .error fault
    cases call with
    | print text column row clearRest =>
      simp only [perform] at hp ⊢
      split at hp
      next => cases hp
      next hout =>
        rw [hrows, hcolumns] at hout
        rw [dif_neg hout, ← hp]
    | fillRect | drawImage => exact hp
    | setBacklight | clear | flush => cases hp
  frame_congr := by
    intro p p' q q' call h hframe hp hq
    obtain ⟨columns, rows, cells, light⟩ := p
    obtain ⟨columns', rows', cells', light'⟩ := q
    obtain ⟨rfl, rfl⟩ := Prod.mk.inj h
    replace hp : perform ⟨columns, rows, cells, light⟩ call = .ok p' := hp
    replace hq : perform ⟨columns, rows, cells', light'⟩ call = .ok q' := hq
    have hsame : cells = cells' ∨ call = .clear := by simpa using hframe
    cases call with
    | clear =>
      cases hp
      cases hq
      rfl
    | print text column row clearRest =>
      obtain rfl : cells = cells' := hsame.resolve_right Call.noConfusion
      simp only [perform] at hp hq
      split at hp
      next hin =>
        rw [dif_pos hin] at hq
        cases hp
        cases hq
        rfl
      next => cases hp
    | fillRect | drawImage => cases hp
    | setBacklight | flush =>
      obtain rfl : cells = cells' := hsame.resolve_right Call.noConfusion
      cases hp
      cases hq
      rfl
  frame_of_setBacklight := by
    intro p p' on h
    replace h : p.perform (.setBacklight on) = .ok p' := h
    cases h
    rfl

/-- A new panel of characters is blank. -/
theorem eq_of_new {columns rows : Nat} {lcd : CellPanel}
    (h : CellPanel.new columns rows = .ok lcd) :
    (0 < columns ∧ 0 < rows) ∧
      lcd = ⟨columns, rows, .replicate rows (.replicate columns space), true⟩ := by
  unfold CellPanel.new at h
  split at h
  next => cases h
  next hsize =>
    split at h
    next => cases h
    next =>
      cases h
      exact ⟨⟨by omega, by omega⟩, rfl⟩

end CellPanel
end MidiPanel
