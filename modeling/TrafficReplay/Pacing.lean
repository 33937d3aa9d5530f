/-
# Pacing

Between two records of a capture time has passed, and a replay waits in front of a request as long
as it took to come then, divided by the speed factor. Waits are whole nanoseconds in 64 bits; the
division is done in floating point. A wait depends on the record right before and on nothing
earlier.
-/
import TrafficReplay.Decimal.Signed
import TrafficReplay.Record.Kind

namespace TrafficReplay

/-- How waits are found: the speed factor, and the time of the record before, if there is one. -/
structure Pacing where
  speed : Float
  last : Option Int

namespace Pacing

/-- Pacing at the start of a replay. -/
def new (speed : Float) : Pacing :=
  ⟨speed, none⟩

/-- Forgets the record before, so that the next one is not waited for. -/
def reset (pacing : Pacing) : Pacing :=
  { pacing with last := none }

/-- The nanoseconds from one time to a later one, at most as many as a timestamp can say. -/
def gap (before now : Int) : Nat :=
  (min (now - before) Decimal.maxTimestamp).toNat

/-- A number of nanoseconds divided by the speed factor, without its fraction and within 64 bits. -/
def atSpeed (speed : Float) (nanoseconds : Nat) : Nat :=
  let captured := nanoseconds.toUInt64.toFloat
  let replayed := if speed == 1.0 then captured else captured / speed
  replayed.toUInt64.toNat

def waitBetween (speed : Float) (before now : Int) : Option Nat :=
  if now ≤ before then none
  else
    let wait := atSpeed speed (gap before now)
    if wait = 0 then none else some wait

/-- The wait in front of a record. Only requests are waited for. -/
def wait? (pacing : Pacing) (kind : Kind) (timestamp : Int) : Option Nat :=
  match kind, pacing.last with
  | .request, some before => waitBetween pacing.speed before timestamp
  | _, _ => none

/-- Pacing after a record: its time is the one that the next wait is counted from. -/
def next (pacing : Pacing) (timestamp : Int) : Pacing :=
  { pacing with last := some timestamp }

end Pacing

end TrafficReplay
