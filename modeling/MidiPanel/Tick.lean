import MidiPanel.Single.Arithmetic

/-!
# Ticks

A tick is a reading of a free-running microsecond counter of 32 bits, or a span between two
readings. The counter wraps after about 71 minutes, so readings are compared through their
difference: a span is right as long as less than one turn lies between the readings, an order as
long as less than half a turn does.
-/

namespace MidiPanel

/-- A reading of the microsecond counter, or a span between two readings, modulo `2 ^ 32`. -/
abbrev Tick := UInt32

namespace Tick

/-- Milliseconds in ticks, wrapping. -/
def ofMillis (millis : UInt32) : Tick := millis * 1000

/-- A span in milliseconds, as a single. -/
def toMillis (span : Tick) : Single := Single.ofNat span.toNat / 1000

/-- The span from `since` to `now`, across a wrap of the counter too. -/
def elapsed (now since : Tick) : Tick := now - since

/-- `tick` lies less than half a turn of the counter behind `reference`. -/
def isBefore (tick reference : Tick) : Bool := UInt32.size / 2 ≤ (tick - reference).toNat

end Tick
end MidiPanel
