import MidiPanel.Monitor.Basic
import MidiPanel.Proofs.Monitor.Envelope

/-!
# The loudest voice

A note contributes its envelope, weighted with its velocity and with volume and expression of its
channel. All three factors are shares, so a contribution is one too. The loudness of a channel is
the greatest of its 128 contributions: notes that have not sounded are passed over, which makes no
difference because they contribute nothing.

Results:
* `isShare_contribution`: contributions lie between zero and one.
* `contribution_eq_zero_iff`: when a contribution is zero.
* `isLoudest_loudest`: the loudness is the greatest contribution, and zero if none is above zero.
-/

namespace MidiPanel

open Single

/-- The level is the greatest of the voices, and zero if none of them is above zero. -/
structure IsLoudest (level : Single) (voices : DataByte → Single) : Prop where
  upper : ∀ note, voices note ≤ level
  attained : (∃ note, 0 < voices note) → ∃ note, voices note = level
  silent : (∀ note, ¬ 0 < voices note) → level = 0

namespace ChannelState

/-! ## Contributions -/

theorem share_eq (b : DataByte) : share b = Single.ofNat b.val / 127 := by
  simp [share, shares]

theorem within_share (b : DataByte) {low : Nat} (hl : Fits low)
    (h : low * 127 ≤ b.val * unitsPerOne) : Within false low unitsPerOne (share b) := by
  have h127 : (127 : Single) = .finite false (127 * unitsPerOne) (fits_whole (by decide)) :=
    ofNat_eq (n := 127) (by decide)
  have hb : b.val < 2 ^ 24 := lt_trans b.isLt (by decide)
  rw [share_eq, h127]
  refine (within_ofNat (fits_whole hb) (fits_whole hb) le_rfl le_rfl).div
    (Nat.mul_pos (by decide) unitsPerOne_pos) hl fits_one ?_ ?_
  · rw [← mul_assoc]
    exact Nat.mul_le_mul_right _ h
  · have hle : b.val ≤ 127 := by omega
    calc b.val * unitsPerOne * unitsPerOne ≤ 127 * unitsPerOne * unitsPerOne :=
          Nat.mul_le_mul_right _ (Nat.mul_le_mul_right _ hle)
      _ = unitsPerOne * (127 * unitsPerOne) := by ring

theorem isShare_share (b : DataByte) : IsShare (share b) :=
  within_share b fits_zero (by omega)

theorem isShare_gain (c : ChannelState) : IsShare c.gain :=
  (isShare_share c.volume).mul (isShare_share c.expression)

theorem isShare_contribution {gain envelope : Single} (hg : IsShare gain) (he : IsShare envelope)
    (note : NoteState) : IsShare (contribution gain envelope note) :=
  (he.mul (isShare_share note.velocity)).mul hg

theorem contribution_zero {gain : Single} (hg : IsShare gain) (note : NoteState) :
    contribution gain 0 note = 0 := by
  unfold contribution
  rw [(isShare_share note.velocity).zero_mul, hg.zero_mul]

theorem share_zero : share 0 = 0 := by
  have h : Within false 0 0 (Single.ofNat 0 / 127) := by
    rw [show (127 : Single) = _ from ofNat_eq (n := 127) (by decide)]
    exact within_zero.div (Nat.mul_pos (by decide) unitsPerOne_pos) fits_zero fits_zero (by simp)
      (by simp)
  rw [share_eq, show (0 : DataByte).val = 0 from rfl, h.eq_finite fits_zero, zero_eq]

/-- A share that is not zero is at least `2 ^ -7`. -/
theorem within_share_of_ne_zero {b : DataByte} (h : b ≠ 0) :
    Within false (2 ^ 142) unitsPerOne (share b) := by
  have hb : 1 ≤ b.val := Nat.one_le_iff_ne_zero.mpr fun hval => h (Fin.ext hval)
  refine within_share b (fits_two_pow (by decide)) ?_
  calc 2 ^ 142 * 127 ≤ 1 * unitsPerOne := by decide
    _ ≤ b.val * unitsPerOne := Nat.mul_le_mul_right _ hb

/-- No product underflows: a contribution is only zero if a factor is. -/
theorem contribution_eq_zero_iff {c : ChannelState} {envelope : Single} {note : NoteState}
    (he : envelope = 0 ∨ Within false (2 ^ 129) unitsPerOne envelope) (hv : note.velocity ≠ 0) :
    contribution c.gain envelope note = 0 ↔ envelope = 0 ∨ c.volume = 0 ∨ c.expression = 0 := by
  have hshare : IsShare envelope := by
    rcases he with rfl | he
    · exact isShare_zero
    · exact he.mono (Nat.zero_le _) le_rfl
  constructor
  · intro hzero
    by_contra hne
    obtain ⟨hne, hvolume, hexpression⟩ : envelope ≠ 0 ∧ c.volume ≠ 0 ∧ c.expression ≠ 0 := by
      simpa only [not_or] using hne
    have hgain : Within false (2 ^ 135) unitsPerOne c.gain :=
      (within_share_of_ne_zero hvolume).mul (within_share_of_ne_zero hexpression)
        (fits_two_pow (by decide)) fits_one (by decide) le_rfl
    have hvoice : Within false (2 ^ 122) unitsPerOne (envelope * share note.velocity) :=
      (he.resolve_left hne).mul (within_share_of_ne_zero hv) (fits_two_pow (by decide)) fits_one
        (by decide) le_rfl
    have hall : Within false (2 ^ 108) unitsPerOne (contribution c.gain envelope note) :=
      hvoice.mul hgain (fits_two_pow (by decide)) fits_one (by decide) le_rfl
    exact hall.ne_zero (by decide) hzero
  · have hvoice : IsShare (envelope * share note.velocity) := hshare.mul (isShare_share _)
    rintro (rfl | h | h)
    · exact contribution_zero (isShare_gain c) note
    · unfold contribution gain
      rw [h, share_zero, (isShare_share c.expression).zero_mul, hvoice.mul_zero]
    · unfold contribution gain
      rw [h, share_zero, (isShare_share c.volume).mul_zero, hvoice.mul_zero]

/-! ## The greatest of them -/

/-- The invariant of a fold with `maximum`: a share, above everything met so far, and met. -/
theorem foldl_maximum {xs : List Single} (hxs : ∀ x ∈ xs, IsShare x) {start : Single}
    (hs : IsShare start) :
    IsShare (xs.foldl maximum start) ∧ start ≤ xs.foldl maximum start ∧
      (∀ x ∈ xs, x ≤ xs.foldl maximum start) ∧
      (xs.foldl maximum start = start ∨ xs.foldl maximum start ∈ xs) := by
  induction xs generalizing start with
  | nil => exact ⟨hs, hs.le_refl, fun _ h => absurd h List.not_mem_nil, .inl rfl⟩
  | cons x xs ih =>
    have hx : IsShare x := hxs x List.mem_cons_self
    have hmax : IsShare (start.maximum x) := hs.maximum hx
    obtain ⟨h₁, h₂, h₃, h₄⟩ := ih (fun y hy => hxs y (List.mem_cons_of_mem x hy)) hmax
    rw [List.foldl_cons]
    refine ⟨h₁, hs.trans hmax h₁ (hs.le_maximum_left hx) h₂, ?_, ?_⟩
    · intro y hy
      rcases List.mem_cons.mp hy with rfl | hy
      · exact hx.trans hmax h₁ (hs.le_maximum_right hx) h₂
      · exact h₃ y hy
    · rcases h₄ with h | h
      · rcases hs.maximum_choice hx with hc | hc
        · exact .inl (h.trans hc)
        · exact .inr (by rw [h, hc]; exact List.mem_cons_self)
      · exact .inr (List.mem_cons_of_mem x h)

section Voices

variable {c : ChannelState} {envelope : NoteState → Single}

/-- Notes that have not sounded contribute nothing, so that passing them over makes no difference.
-/
theorem foldl_sounded (he : ∀ note, IsShare (envelope note))
    (hs : ∀ note : NoteState, note.hasSounded = false → envelope note = 0)
    (notes : List NoteState) {start : Single} (hstart : IsShare start) :
    notes.foldl (fun loudest note =>
        if note.hasSounded then loudest.maximum (contribution c.gain (envelope note) note)
        else loudest) start =
      (notes.map fun note => contribution c.gain (envelope note) note).foldl maximum start := by
  induction notes generalizing start with
  | nil => rfl
  | cons note notes ih =>
    have hc : IsShare (contribution c.gain (envelope note) note) :=
      isShare_contribution (isShare_gain c) (he note) note
    rw [List.map_cons, List.foldl_cons, List.foldl_cons, ← ih (hstart.maximum hc)]
    cases h : note.hasSounded with
    | true => rfl
    | false =>
      rw [hs note h, contribution_zero (isShare_gain c), hstart.maximum_zero]
      rfl

theorem loudest_eq_foldl (he : ∀ note, IsShare (envelope note))
    (hs : ∀ note : NoteState, note.hasSounded = false → envelope note = 0) :
    c.loudest envelope =
      (c.notes.toList.map fun note =>
        contribution c.gain (envelope note) note).foldl maximum 0 := by
  unfold loudest
  rw [← Vector.foldl_toList]
  exact foldl_sounded he hs _ isShare_zero

theorem isLoudest_foldl {xs : List Single} {voices : DataByte → Single}
    (hshare : ∀ note, IsShare (voices note)) (hmem : ∀ x, x ∈ xs ↔ ∃ note, voices note = x) :
    IsShare (xs.foldl maximum 0) ∧ IsLoudest (xs.foldl maximum 0) voices := by
  have hxs : ∀ x ∈ xs, IsShare x := by
    intro x hx
    obtain ⟨note, rfl⟩ := (hmem x).mp hx
    exact hshare note
  obtain ⟨h₁, -, h₃, h₄⟩ := foldl_maximum hxs isShare_zero
  have hupper (note : DataByte) : voices note ≤ xs.foldl maximum 0 :=
    h₃ _ ((hmem _).mpr ⟨note, rfl⟩)
  refine ⟨h₁, hupper, ?_, ?_⟩
  · rintro ⟨note, hpos⟩
    rcases h₄ with h | h
    · -- something above zero does not lie below a zero
      have hle := hupper note
      rw [h] at hle
      exact absurd hle (((hshare note).not_le isShare_zero).mpr hpos)
    · exact (hmem _).mp h
  · intro hnone
    rcases h₄ with h | h
    · exact h
    · obtain ⟨note, hnote⟩ := (hmem _).mp h
      rw [← hnote]
      exact (hshare note).eq_zero_of_not_pos (hnone note)

theorem isLoudest_loudest (he : ∀ note, IsShare (envelope note))
    (hs : ∀ note : NoteState, note.hasSounded = false → envelope note = 0) :
    IsShare (c.loudest envelope) ∧ IsLoudest (c.loudest envelope)
      fun note => contribution c.gain (envelope (c.notes.get note)) (c.notes.get note) := by
  rw [loudest_eq_foldl he hs]
  refine isLoudest_foldl (fun note => isShare_contribution (isShare_gain c) (he _) _) fun x => ?_
  simp only [List.mem_map, Vector.mem_toList_iff, Vector.mem_iff_getElem]
  constructor
  · rintro ⟨_, ⟨i, hi, rfl⟩, rfl⟩
    exact ⟨⟨i, hi⟩, rfl⟩
  · rintro ⟨note, rfl⟩
    exact ⟨_, ⟨note.val, note.isLt, rfl⟩, rfl⟩

end Voices

end ChannelState
end MidiPanel
