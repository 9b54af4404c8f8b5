import MidiPanel.Proofs.Overlay.Honoured
import MidiPanel.Proofs.Overlay.MessageText

/-!
# The pace of a spinner

A spinner turns at the first update at which the time of its frame is over. The next frame counts
from that update, not from the end of the time, so that the spinner may fall behind but never runs
ahead: by any time it has turned no more often than frame times have passed. The frame shown, the
glyph in the message and the timer tell the same count of turns, and the text in front of the glyph
stays that of the moment at which the message was shown.

Results:
* `Turned.update`: one update.
* `Turned.behind`: a run of updates.
* `spinner_paced`: the pace of a spinner, from any state that can be reached.
-/

namespace MidiPanel.Status

/-- The frame that a spinner shows when it has turned so many times. -/
def frameAfter (turns : Nat) : Fin 14 := ⟨turns % 14, Nat.mod_lt turns (by decide)⟩

/-- The state behind the last of several updates. -/
def behind (s : Status) (run : List (Nat × Status)) : Status := (run.getLast?.map Prod.snd).getD s

/-- The spinner of this text that was shown at `start` has turned so many times, the last time at
`last`, or it has not turned and `last` is the start. -/
structure Turned (text : String) (start last turns : Nat) (s : Status) : Prop where
  overlay : s.overlay = .spinner (frameAfter turns) (Tick.reading last)
  since : s.since = Tick.reading start
  message : s.message = .setSpinnerText text (spinnerGlyphs.get (frameAfter turns))
  pace : start + turns * s.frameTicks.toNat ≤ last

theorem frameAfter_succ (turns : Nat) : frameAfter (turns + 1) = frameAfter turns + 1 := by
  apply Fin.ext
  simp [frameAfter, Fin.val_add]

variable {s : Status} {run before rest : List (Nat × Status)} {text : String}
  {start last turns time : Nat}

/-! ## One update -/

/-- What an update makes of a spinner whose display time is not over. -/
theorem state_update_of_spinner {frame : Fin 14} {frameTick now : Tick}
    (hs : s.overlay = .spinner frame frameTick) (hnot : s.timedOut now = false) {σ : Type}
    [Surface σ] (surface : σ) :
    (s.update surface now).state =
      if s.frameTicks ≤ Tick.elapsed now frameTick then
        { s with
          overlay := .spinner (frame + 1) now
          message := s.message.setGlyph (spinnerGlyphs.get (frame + 1)) }
      else s := by
  have hdark : s.goesDark now = false := by
    unfold goesDark
    rw [hnot, Bool.and_false]
  rw [state_update_of_not_goesDark hdark]
  unfold afterTimers
  rw [hs, hnot]
  rfl

theorem Turned.update (h : Turned text start last turns s) (hle : last ≤ time)
    (hbefore : time < start + s.displayTicks.toNat) {σ : Type} [Surface σ] (surface : σ) :
    (last + s.frameTicks.toNat ≤ time ∧
      Turned text start time (turns + 1) (s.update surface (Tick.reading time)).state) ∨
    (time < last + s.frameTicks.toNat ∧ (s.update surface (Tick.reading time)).state = s) := by
  have hstart : start ≤ last := Nat.le_trans (Nat.le_add_right _ _) h.pace
  have hticks : s.displayTicks.toNat < 2 ^ 32 := s.displayTicks.toNat_lt
  have hnot : s.timedOut (Tick.reading time) = false := by
    rw [timedOut_reading h.since (Nat.le_trans hstart hle) (by omega)]
    exact decide_eq_false (by omega)
  have hover : s.frameTicks ≤ Tick.elapsed (.reading time) (.reading last) ↔
      last + s.frameTicks.toNat ≤ time := Tick.le_elapsed_reading_iff hle (by omega)
  rw [state_update_of_spinner h.overlay hnot]
  by_cases hturn : last + s.frameTicks.toNat ≤ time
  · rw [if_pos (hover.mpr hturn)]
    refine .inl ⟨hturn, ?_, h.since, ?_, ?_⟩
    · rw [frameAfter_succ]
    · rw [frameAfter_succ, h.message, MessageBuffer.setGlyph_setSpinnerText]
    · have hpace := h.pace
      dsimp only
      rw [Nat.succ_mul]
      omega
  · rw [if_neg (mt hover.mp hturn)]
    exact .inr ⟨Nat.not_le.mp hturn, rfl⟩

/-! ## Runs of updates -/

theorem behind_cons (s : Status) (step : Nat × Status) (run : List (Nat × Status)) :
    s.behind (step :: run) = step.2.behind run := by
  unfold behind
  rw [List.getLast?_cons]
  cases run.getLast? <;> rfl

/-- A spinner turns at updates only. -/
theorem turns_sublist (s : Status) (run : List (Nat × Status)) :
    (s.turns run).Sublist (run.map Prod.fst) := by
  induction run generalizing s with
  | nil => exact .slnil
  | cons step run ih =>
    obtain ⟨time, s'⟩ := step
    rw [Status.turns, List.map_cons]
    split
    · exact (ih s').cons_cons time
    · exact (ih s').cons time

/-- The last turn of a spinner, or the time at which it was shown. -/
theorem lastTurn_mem (s : Status) (start : Nat) (run : List (Nat × Status)) :
    (s.turns run).getLast?.getD start ∈ start :: run.map Prod.fst := by
  cases hlast : (s.turns run).getLast? with
  | none => exact List.mem_cons_self
  | some time =>
    exact List.mem_cons_of_mem start ((turns_sublist s run).subset (List.mem_of_getLast? hlast))

/-- What is known of a spinner behind a first part of a run, and what is left of the run. -/
theorem Turned.behind (h : Turned text start last turns s) (hrun : Updates s (before ++ rest))
    (hordered : (last :: before.map Prod.fst).Pairwise (· ≤ ·))
    (hup : ∀ step ∈ before, step.1 < start + s.displayTicks.toNat) :
    let turned := s.turns before
    Turned text start (turned.getLast?.getD last) (turns + turned.length) (s.behind before) ∧
      Updates (s.behind before) rest ∧
      (s.behind before).displayTicks = s.displayTicks ∧
      (s.behind before).frameTicks = s.frameTicks := by
  induction before generalizing s last turns with
  | nil => exact ⟨h, hrun, rfl, rfl⟩
  | cons step before ih =>
    obtain ⟨time, s'⟩ := step
    rw [List.map_cons] at hordered
    obtain ⟨hlast, hlater⟩ := List.pairwise_cons.mp hordered
    obtain ⟨hbefore, hafter⟩ := List.forall_mem_cons.mp hup
    cases hrun with
    | cons _ surface _ hrest =>
      have hticks : (s.update surface (Tick.reading time)).state.displayTicks = s.displayTicks ∧
          (s.update surface (Tick.reading time)).state.frameTicks = s.frameTicks :=
        ticks_answer s surface (.update (Tick.reading time))
      rw [behind_cons]
      obtain ⟨-, hturned⟩ | ⟨-, hsame⟩ :=
        h.update (hlast time List.mem_cons_self) hbefore surface
      · obtain ⟨hbehind, hrun, hdisplay, hframe⟩ :=
          ih hturned hrest hlater (by rwa [hticks.1])
        rw [turns_cons_of_spinner _ _ h.overlay (frameAfter_succ turns ▸ hturned.overlay)]
        dsimp only
        rw [List.getLast?_cons, Option.getD_some, List.length_cons, Nat.add_comm _ 1,
          ← Nat.add_assoc]
        exact ⟨hbehind, hrun, hdisplay.trans hticks.1, hframe.trans hticks.2⟩
      · have hskipped := hordered.sublist ((List.sublist_cons_self time _).cons_cons last)
        rw [hsame] at hrest ⊢
        rw [turns_cons_self]
        exact ih h hrest hskipped hafter

/-! ## The pace -/

/-- A spinner that is shown has not turned yet. -/
theorem turned_raise (s : Status) (text : String) (start : Nat) :
    Turned text start start 0 (s.raise (Tick.reading start) (.message text true)) :=
  ⟨rfl, rfl, rfl, by rw [Nat.zero_mul]; exact Nat.le_refl start⟩

/-- From the moment at which a spinner is shown until its display time is over, each update turns it
by one frame if the time of a frame has passed since it was shown or has turned last, and leaves it
alone otherwise. It has never turned more often than times of a frame have passed, the frame and the
glyph tell how often, and the other cells are those of the moment at which it was shown. -/
theorem spinner_paced {timings : OverlayTimings} {shown : String} {s : Status}
    (h : Reached timings shown s) (text : String) (start : Nat) {run : List (Nat × Status)} :
    let frameTicks := (Tick.ofMillis timings.frameMs).toNat
    let raised := s.raise (Tick.reading start) (.message text true)
    let count := (raised.turns run).length
    Updates raised run → (start :: run.map Prod.fst).Pairwise (· ≤ ·) →
    (∀ step ∈ run, step.1 < start + (Tick.ofMillis timings.displayMs).toNat) →
    (∀ before time after rest, run = before ++ (time, after) :: rest →
      let last := (raised.turns before).getLast?.getD start
      ∃ frame, (raised.behind before).spinnerFrame? = some frame ∧
        after.spinnerFrame? = some (if last + frameTicks ≤ time then frame + 1 else frame)) ∧
    (∀ now, start ≤ now → (∀ step ∈ run, step.1 ≤ now) → count * frameTicks ≤ now - start) ∧
    (raised.behind run).spinnerFrame? = some (frameAfter count) ∧
    (raised.behind run).message.cells =
      raised.message.cells.take 19 ++ [spinnerGlyphs.get (frameAfter count)] ∧
    raised.message.cells.length = 20 := by
  intro frameTicks raised count hrun hordered hup
  have hdisplay : raised.displayTicks = Tick.ofMillis timings.displayMs := by
    rw [displayTicks_raise, h.ticks.1]
  have hframe : raised.frameTicks = Tick.ofMillis timings.frameMs := by
    rw [frameTicks_raise, h.ticks.2]
  rw [← hdisplay] at hup
  have hraised : Turned text start start 0 raised := turned_raise s text start
  obtain ⟨hend, -, -, hticksEnd⟩ :=
    hraised.behind (by rwa [List.append_nil] : Updates raised (run ++ [])) hordered hup
  rw [Nat.zero_add] at hend
  refine ⟨?steps, ?pace, spinnerFrame?_of_spinner hend.overlay, ?cells,
    MessageBuffer.length_setSpinnerText _ _⟩
  case steps =>
    rintro before time after rest rfl last
    rw [List.map_append, ← List.cons_append, List.pairwise_append] at hordered
    obtain ⟨hbefore, -, hcross⟩ := hordered
    obtain ⟨hturned, hrest, hsame, hticks⟩ :=
      hraised.behind hrun hbefore fun step hmem => hup step (List.mem_append_left _ hmem)
    have hlast : last ≤ time :=
      hcross _ (lastTurn_mem raised start before) _ List.mem_cons_self
    cases hrest with
    | cons _ surface _ hrest =>
      refine ⟨_, spinnerFrame?_of_spinner hturned.overlay, ?_⟩
      obtain ⟨hturn, hnext⟩ | ⟨hnot, hstay⟩ := hturned.update hlast
        (by rw [hsame]; exact hup _ (List.mem_append_right _ List.mem_cons_self)) surface
      · rw [hticks, hframe] at hturn
        rw [if_pos hturn, ← frameAfter_succ]
        exact spinnerFrame?_of_spinner hnext.overlay
      · rw [hticks, hframe] at hnot
        rw [if_neg (Nat.not_le.mpr hnot), hstay]
        exact spinnerFrame?_of_spinner hturned.overlay
  case pace =>
    intro now hstart hnow
    have hpace := hend.pace
    rw [hticksEnd, hframe] at hpace
    have hlast : (raised.turns run).getLast?.getD start ≤ now := by
      obtain heq | hmem := List.mem_cons.mp (lastTurn_mem raised start run)
      · rwa [heq]
      · obtain ⟨step, hstep, heq⟩ := List.mem_map.mp hmem
        rw [← heq]
        exact hnow step hstep
    exact Nat.le_sub_of_add_le' (Nat.le_trans hpace hlast)
  case cells =>
    rw [hend.message]
    exact MessageBuffer.cells_setSpinnerText _ _ _

/-- Three updates: too early, late, and, behind the wrap of the counter, a frame after the late
one. -/
theorem spinner_paced_across_wrap :
    let start := 4294900000
    let recorder : Recorder := ⟨.graphical, 128, 32, [], #[]⟩
    let raised := (new .standard).raise (Tick.reading start) (.message "Loading" true)
    let early := (raised.update recorder (Tick.reading (start + 20000))).state
    let late := (early.update recorder (Tick.reading (start + 150000))).state
    let next := (late.update recorder (Tick.reading (start + 182000))).state
    let run := [(start + 20000, early), (start + 150000, late), (start + 182000, next)]
    Updates raised run ∧ raised.turns run = [start + 150000, start + 182000] ∧
      (raised.behind run).spinnerFrame? = some (frameAfter 2) ∧
      next.message.text = "Loading            _" := by
  intro start recorder raised early late next run
  have hrun : Updates raised run := .cons _ _ _ (.cons _ _ _ (.cons _ _ _ (.nil _)))
  have hturns : raised.turns run = [start + 150000, start + 182000] := by decide +kernel
  obtain ⟨-, -, hframe, -, -⟩ := spinner_paced (.new) "Loading" start hrun
    (by decide +kernel) (by decide +kernel)
  rw [hturns] at hframe
  exact ⟨hrun, hturns, hframe, by decide +kernel⟩

end MidiPanel.Status
