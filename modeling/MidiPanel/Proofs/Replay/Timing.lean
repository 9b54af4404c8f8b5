import MidiPanel.Proofs.Script.Playable
import MidiPanel.Replay

/-!
# Which frame an event falls into

An event falls into the first frame that is at or past its time. As long as the times of frames do
not wrap, an event is due at a frame exactly if it falls into that frame or an earlier one. In a
script that can be played events do not fall back in time, so that those that fall into one frame
stand together, and none of them is later than the end of the script.

Results:
* `le_frameTime_iff`: when a time is due.
* `pendingIn_split`: the events of a frame, and those behind it.
* `flatMap_dueIn`: the events of all frames one after the other are those of the script.
-/

namespace MidiPanel

/-! ## Lists -/

/-- What goes on while a condition holds is all that the condition holds of, if it never comes
back. -/
theorem takeWhile_eq_filter {α : Type} {p : α → Bool} {xs : List α}
    (h : xs.Pairwise fun x y => p y = true → p x = true) :
    xs.takeWhile p = xs.filter p ∧ xs.dropWhile p = xs.filter (!p ·) := by
  induction xs with
  | nil => exact ⟨rfl, rfl⟩
  | cons x xs ih =>
    obtain ⟨hx, hxs⟩ := List.pairwise_cons.mp h
    obtain ⟨htake, hdrop⟩ := ih hxs
    cases hp : p x with
    | true => simp [hp, htake, hdrop]
    | false =>
      have hnone : ∀ y ∈ xs, p y = false := by
        intro y hy
        rw [Bool.eq_false_iff]
        intro hpy
        exact absurd ((hx y hy hpy).symm.trans hp) (by decide)
      have hfilter : xs.filter p = [] := by
        rw [List.filter_eq_nil_iff]
        intro y hy
        simp [hnone y hy]
      have hrest : xs.filter (!p ·) = xs := by
        rw [List.filter_eq_self]
        intro y hy
        simp [hnone y hy]
      simp [hp, hfilter, hrest]

/-! ## Frame rates -/

theorem Settings.fpsInEffect_pos {s : Settings} (h : s.violation? = none) :
    0 < s.displayInEffect.fpsInEffect := by
  unfold displayInEffect
  cases hdisplay : s.display with
  | none => decide
  | some d =>
    have hnone : displayViolation? d = none := by
      unfold violation? at h
      rw [hdisplay] at h
      cases hd : displayViolation? d with
      | none => rfl
      | some violation => simp [hd] at h
    cases hfps : d.fps with
    | none =>
      show 0 < d.fps.getD 30
      rw [hfps]
      decide
    | some fps =>
      show 0 < d.fps.getD 30
      rw [hfps, Option.getD_some, Nat.pos_iff_ne_zero]
      rintro rfl
      unfold displayViolation? isSetTo at hnone
      rw [hfps] at hnone
      split at hnone
      · cases hnone
      · split at hnone
        · cases hnone
        · simp at hnone

namespace Replay

/-! ## Frames -/

theorem toNat_frameTime {fps frame : Nat} (h : frame * 1000 / fps < UInt32.size) :
    (frameTime fps frame).toNat = frame * 1000 / fps := by
  unfold frameTime
  rw [UInt32.toNat_ofNat']
  exact Nat.mod_eq_of_lt h

/-- A frame whose time is a word belongs to the first turn. -/
theorem lt_turn {fps frame : Nat} (hfps : 0 < fps) (h : frame * 1000 / fps < UInt32.size) :
    frame < turn fps := by
  rw [Nat.div_lt_iff_lt_mul hfps] at h
  unfold turn
  omega

/-- A time is due at a frame exactly if its own frame has come. -/
theorem le_frameTime_iff {fps frame : Nat} (hfps : 0 < fps) (h : frame * 1000 / fps < UInt32.size)
    (millis : UInt32) : millis ≤ frameTime fps frame ↔ lastFrame fps millis ≤ frame := by
  rw [UInt32.le_iff_toNat_le, toNat_frameTime h, Nat.le_div_iff_mul_le hfps]
  unfold lastFrame
  omega

theorem lastFrame_mono {fps : Nat} {millis later : UInt32} (h : millis ≤ later) :
    lastFrame fps millis ≤ lastFrame fps later := by
  have hmul : millis.toNat * fps ≤ later.toNat * fps :=
    Nat.mul_le_mul_right fps (UInt32.le_iff_toNat_le.mp h)
  unfold lastFrame
  omega

/-- The frame that an event falls into. -/
def frameOf (fps : Nat) (e : ScriptEvent) : Nat := lastFrame fps e.atMs

/-- The events that fall into a frame. -/
def dueIn (fps : Nat) (events : List ScriptEvent) (frame : Nat) : List ScriptEvent :=
  events.filter fun e => frameOf fps e = frame

/-- The events that fall into a frame or a later one. -/
def pendingIn (fps : Nat) (events : List ScriptEvent) (frame : Nat) : List ScriptEvent :=
  events.filter fun e => frame ≤ frameOf fps e

/-- Nothing falls behind the end. -/
theorem pendingIn_eq_nil {fps : Nat} {events : List ScriptEvent} {durationMs : UInt32}
    (h : ∀ e ∈ events, e.atMs ≤ durationMs) :
    pendingIn fps events (lastFrame fps durationMs + 1) = [] := by
  unfold pendingIn
  rw [List.filter_eq_nil_iff]
  intro e he
  have hmono : frameOf fps e ≤ lastFrame fps durationMs := lastFrame_mono (h e he)
  rw [decide_eq_true_iff]
  omega

section

variable (fps : Nat) {events : List ScriptEvent} (h : events.Pairwise (·.atMs ≤ ·.atMs))

include h

/-- The events of a frame stand together, before those of later frames. -/
theorem pendingIn_split (frame : Nat) :
    (pendingIn fps events frame).takeWhile (fun e => frameOf fps e ≤ frame) =
        dueIn fps events frame ∧
      (pendingIn fps events frame).dropWhile (fun e => frameOf fps e ≤ frame) =
        pendingIn fps events (frame + 1) := by
  have hsorted : (pendingIn fps events frame).Pairwise fun e e' =>
      decide (frameOf fps e' ≤ frame) = true → decide (frameOf fps e ≤ frame) = true := by
    refine (List.Pairwise.filter _ h).imp ?_
    intro e e' hle he'
    have hmono : frameOf fps e ≤ frameOf fps e' := lastFrame_mono hle
    rw [decide_eq_true_iff] at he' ⊢
    exact Nat.le_trans hmono he'
  obtain ⟨htake, hdrop⟩ := takeWhile_eq_filter hsorted
  rw [htake, hdrop]
  unfold pendingIn dueIn
  constructor
  · rw [List.filter_filter]
    refine List.filter_congr fun e _ => ?_
    rw [← Bool.decide_and, decide_eq_decide]
    omega
  · rw [List.filter_filter]
    refine List.filter_congr fun e _ => ?_
    rw [← decide_not, ← Bool.decide_and, decide_eq_decide]
    omega

/-- The events of the frames so far and those pending are all events, in their order. -/
theorem flatMap_dueIn (frame : Nat) :
    (List.range frame).flatMap (dueIn fps events) ++ pendingIn fps events frame = events := by
  induction frame with
  | zero =>
    have hall : pendingIn fps events 0 = events := by
      unfold pendingIn
      rw [List.filter_eq_self]
      simp
    rw [List.range_zero, List.flatMap_nil, List.nil_append, hall]
  | succ frame ih =>
    obtain ⟨hdue, hlater⟩ := pendingIn_split fps h frame
    have hsplit : dueIn fps events frame ++ pendingIn fps events (frame + 1) =
        pendingIn fps events frame := by
      rw [← hdue, ← hlater]
      exact List.takeWhile_append_dropWhile
    rw [List.range_succ, List.flatMap_append, List.flatMap_singleton, List.append_assoc, hsplit, ih]

end

end Replay
end MidiPanel
