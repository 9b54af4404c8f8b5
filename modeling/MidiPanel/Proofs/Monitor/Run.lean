import MidiPanel.Monitor.Basic

/-!
# Runs of the monitor

A history is a list of inputs, each of them a packed message or a query at a tick. The monitor
behind a history is the fold of its steps; the readings are what its queries tell. No input changes
the timings, a message changes no peak, and a query changes nothing but peaks.

Results:
* `after_invariant`: what one step preserves, a whole history preserves.
* `query_level`, `query_reading_peak`, `query_peak`: what a query tells and what it stores.
* `readings_append`: the readings of two histories in a row.
-/

namespace MidiPanel

theorem get_eq_getElem {α : Type} {n : Nat} (xs : Vector α n) (i : Fin n) :
    xs.get i = xs[i.val] := rfl

namespace Monitor

/-- What reaches a monitor. -/
inductive Input where
  | message (packed : UInt32) (now : Tick)
  | query (now : Tick)
  deriving DecidableEq

/-- The monitor behind one input. -/
def next (m : Monitor) : Input → Monitor
  | .message packed now => m.receive packed now
  | .query now => (m.query now).2

/-- The monitor behind a history. -/
def after (m : Monitor) (history : List Input) : Monitor := history.foldl next m

/-- What the queries of a history tell, with their ticks. -/
def readings (m : Monitor) : List Input → List (Tick × Vector Reading 16)
  | [] => []
  | .message packed now :: rest => (m.receive packed now).readings rest
  | .query now :: rest => (now, (m.query now).1) :: (m.query now).2.readings rest

@[simp] theorem after_nil (m : Monitor) : m.after [] = m := rfl

@[simp] theorem after_cons (m : Monitor) (input : Input) (rest : List Input) :
    m.after (input :: rest) = (m.next input).after rest := rfl

theorem after_append (m : Monitor) (before rest : List Input) :
    m.after (before ++ rest) = (m.after before).after rest :=
  List.foldl_append

theorem readings_append (m : Monitor) (before rest : List Input) :
    m.readings (before ++ rest) = m.readings before ++ (m.after before).readings rest := by
  induction before generalizing m with
  | nil => rfl
  | cons input before ih =>
    cases input with
    | message packed now => exact ih _
    | query now => exact congrArg _ (ih _)

theorem after_invariant {P : Monitor → Prop} {history : List Input}
    (step : ∀ input ∈ history, ∀ m, P m → P (m.next input)) {m : Monitor} (hm : P m) :
    P (m.after history) := by
  induction history generalizing m with
  | nil => exact hm
  | cons input rest ih =>
    refine ih (fun later hlater => step later (List.mem_cons_of_mem input hlater)) ?_
    exact step input List.mem_cons_self m hm

/-! ## Steps -/

@[simp] theorem handle_peaks (m : Monitor) (event : Event) (now : Tick) :
    (m.handle event now).peaks = m.peaks := by
  cases event <;> rfl

@[simp] theorem handle_timings (m : Monitor) (event : Event) (now : Tick) :
    (m.handle event now).timings = m.timings := by
  cases event <;> rfl

@[simp] theorem receive_peaks (m : Monitor) (packed : UInt32) (now : Tick) :
    (m.receive packed now).peaks = m.peaks := handle_peaks _ _ _

@[simp] theorem receive_timings (m : Monitor) (packed : UInt32) (now : Tick) :
    (m.receive packed now).timings = m.timings := handle_timings _ _ _

@[simp] theorem query_channels (m : Monitor) (now : Tick) : (m.query now).2.channels = m.channels :=
  rfl

@[simp] theorem query_timings (m : Monitor) (now : Tick) :
    (m.query now).2.timings = m.timings := rfl

theorem query_reading (m : Monitor) (now : Tick) (channel : Channel) :
    (m.query now).1.get channel =
      ((m.peaks.get channel).meet m.timings (m.loudness channel now) now).1 := by
  simp [query, get_eq_getElem]

@[simp] theorem query_level (m : Monitor) (now : Tick) (channel : Channel) :
    ((m.query now).1.get channel).level = m.loudness channel now := by
  rw [query_reading]
  unfold Peak.meet
  dsimp only
  split <;> rfl

theorem query_reading_peak (m : Monitor) (now : Tick) (channel : Channel) :
    ((m.query now).1.get channel).peak =
      if (m.peaks.get channel).fallen m.timings now ≤ m.loudness channel now then
        m.loudness channel now
      else (m.peaks.get channel).fallen m.timings now := by
  rw [query_reading]
  unfold Peak.meet
  dsimp only
  split <;> rfl

theorem query_peak (m : Monitor) (now : Tick) (channel : Channel) :
    (m.query now).2.peaks.get channel =
      if (m.peaks.get channel).fallen m.timings now ≤ m.loudness channel now then
        ⟨m.loudness channel now, now⟩
      else m.peaks.get channel := by
  have h : (m.query now).2.peaks.get channel =
      ((m.peaks.get channel).meet m.timings (m.loudness channel now) now).2 := by
    simp [query, get_eq_getElem]
  rw [h]
  unfold Peak.meet
  dsimp only
  split <;> rfl

@[simp] theorem next_timings (m : Monitor) (input : Input) :
    (m.next input).timings = m.timings := by
  cases input with
  | message packed now => exact receive_timings m packed now
  | query now => exact query_timings m now

@[simp] theorem after_timings (m : Monitor) (history : List Input) :
    (m.after history).timings = m.timings :=
  after_invariant (P := fun m' => m'.timings = m.timings)
    (fun input _ m' h => (next_timings m' input).trans h) rfl

end Monitor
end MidiPanel
