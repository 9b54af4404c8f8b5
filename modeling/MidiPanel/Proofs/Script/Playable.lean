import MidiPanel.Script.Reading
import Mathlib.Data.List.Basic

/-!
# Scripts that can be played

A script can be played if its events do not fall back in time, each of them does something, and
every message begins with a status byte. Then no event is later than the end of the script.

Results:
* `firstDefect_eq_none_iff`, `check_eq_ok_iff`: scripts without a defect.
* `pairwise_atMs`, `atMs_le_durationMs`: the times of a script that can be played.
-/

namespace MidiPanel

theorem eq_ok_of_toOption {ε α : Type} {read : Except ε α} {x : α} (h : read.toOption = some x) :
    read = .ok x := by
  cases read with
  | error cause => cases h
  | ok y =>
    cases h
    rfl

namespace Script

theorem defect_eq_none_iff {previous : UInt32} {e : ScriptEvent} :
    defect? previous e = none ↔
      previous ≤ e.atMs ∧ e.isEmpty = false ∧ e.badStatus? = none := by
  unfold defect?
  by_cases hearly : e.atMs < previous
  · simp [hearly, UInt32.not_le.mpr hearly]
  · cases e.isEmpty <;> simp [hearly, UInt32.not_lt.mp hearly]

/-- Nothing is wrong with events behind `previous` if their times go on from it, each of them does
something, and their messages begin with status bytes. -/
theorem firstDefect_eq_none_iff {index : Nat} {previous : UInt32} {events : List ScriptEvent} :
    firstDefect? index previous events = none ↔
      (∀ e ∈ events, previous ≤ e.atMs) ∧ events.Pairwise (·.atMs ≤ ·.atMs) ∧
        ∀ e ∈ events, e.isEmpty = false ∧ e.badStatus? = none := by
  induction events generalizing index previous with
  | nil => simp [firstDefect?]
  | cons e events ih =>
    have hstep : firstDefect? index previous (e :: events) = none ↔
        defect? previous e = none ∧ firstDefect? (index + 1) e.atMs events = none := by
      rw [firstDefect?]
      cases defect? previous e <;> simp
    rw [hstep, defect_eq_none_iff, ih, List.pairwise_cons, List.forall_mem_cons,
      List.forall_mem_cons]
    constructor
    · rintro ⟨⟨hle, hgood⟩, hlater, hsorted, hothers⟩
      exact ⟨⟨hle, fun e' he' => UInt32.le_trans hle (hlater e' he')⟩, ⟨hlater, hsorted⟩, hgood,
        hothers⟩
    · rintro ⟨⟨hle, -⟩, ⟨hlater, hsorted⟩, hgood, hothers⟩
      exact ⟨⟨hle, hgood⟩, hlater, hsorted, hothers⟩

theorem check_eq_ok_iff {s s' : Script} :
    s.check = .ok s' ↔ s = s' ∧ s.firstDefectOf? = none := by
  unfold check
  cases s.firstDefectOf? <;> simp

theorem firstDefectOf_of_parse {text : String} {s : Script} (h : parse text = .ok s) :
    s.firstDefectOf? = none := by
  unfold parse at h
  split at h
  next s' _ =>
    obtain ⟨rfl, hnone⟩ := check_eq_ok_iff.mp h
    exact hnone
  next => cases h

variable {s : Script} (h : s.firstDefectOf? = none)

include h

/-- No event falls back in time. -/
theorem pairwise_atMs : s.events.Pairwise (·.atMs ≤ ·.atMs) := (firstDefect_eq_none_iff.mp h).2.1

/-- No event is later than the end of the script. -/
theorem atMs_le_durationMs {e : ScriptEvent} (he : e ∈ s.events) : e.atMs ≤ s.durationMs := by
  have hsorted := pairwise_atMs h
  obtain hnil | ⟨before, last, hevents⟩ := List.eq_nil_or_concat s.events
  · rw [hnil] at he
    cases he
  rw [List.concat_eq_append] at hevents
  rw [hevents] at he hsorted
  have hle : e.atMs.toNat ≤ last.atMs.toNat := by
    rw [← UInt32.le_iff_toNat_le]
    rcases List.mem_append.mp he with hbefore | hlast
    · exact (List.pairwise_append.mp hsorted).2.2 e hbefore last (List.mem_singleton.mpr rfl)
    · rw [List.mem_singleton.mp hlast]
      exact UInt32.le_refl _
  have hlast : (s.events.getLast?.map ScriptEvent.atMs).getD 0 = last.atMs := by
    rw [hevents, List.getLast?_concat]
    rfl
  have hlt : last.atMs.toNat < 2 ^ 32 := last.atMs.toNat_lt
  unfold durationMs
  rw [hlast, UInt32.le_iff_toNat_le, UInt32.toNat_ofNat']
  unfold UInt32.size
  omega

end Script
end MidiPanel
