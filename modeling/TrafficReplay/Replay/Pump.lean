/-
# The pump

The pump takes one record after the other from its sources, in the order of the merge, waits as the
pacing asks, and holds each record until somebody reads it. When the sources are at their end it is
done, or it opens the captures anew. Each function below is one move of the pump: what it does of
its own accord (`Pump.step`, `Pump.wake`), and what it does when the record it holds is read
(`Pump.handOver`), when its error is read (`Pump.fail`) and when a stop is requested
(`Pump.cancel`).
-/
import TrafficReplay.Merge
import TrafficReplay.Pacing
import TrafficReplay.Resolve
import TrafficReplay.Settings

namespace TrafficReplay

/-- The pump's own state: what it replays and how, and what it has done. -/
structure Pump where
  pattern : String
  looping : Bool
  sources : List Source
  pacing : Pacing
  emitted : Nat
  restarts : Nat

/-- A record on its way to the reader: the source that it came from, and the wait in front of it. -/
structure Offer where
  index : Nat
  record : Record
  wait : Option Nat

/-- What the pump is about. -/
inductive Phase
  /-- About to take the next record. -/
  | ready
  /-- Waiting in front of a record. -/
  | waiting (offer : Offer)
  /-- Holding a record until it is read. -/
  | holding (offer : Offer)
  /-- Holding an error until it is read. -/
  | failing (error : ReplayError)
  /-- Done. -/
  | ended (reason : StopReason)

/-- What a replay has done. -/
structure Summary where
  /-- How many records were read. -/
  emitted : Nat
  /-- How often the captures were opened anew. -/
  restarts : Nat
  reason : StopReason
  /-- How many sources are still open. -/
  openSources : Nat
  deriving Repr, DecidableEq

namespace Pump

/-- The pump with all its sources closed. -/
def closeAll (pump : Pump) : Pump :=
  { pump with sources := pump.sources.map Source.close }

def closingNotices (pump : Pump) : StopReason → List Event
  | .exhausted => [.finished pump.pattern pump.emitted]
  | .cancelled => [.stopped pump.pattern pump.emitted .cancelled]
  | .disconnected => [.stopped pump.pattern pump.emitted .disconnected]
  | .failed _ => []

/-- Ends the replay. -/
def finish (pump : Pump) (reason : StopReason) : Logged (Pump × Phase) :=
  ⟨(pump.closeAll, .ended reason), pump.closingNotices reason⟩

/-- Gives up because of an error, which is held for the reader. -/
def abort (pump : Pump) (error : ReplayError) : Logged (Pump × Phase) :=
  ⟨(pump, .failing error), [.aborted pump.pattern error]⟩

/-- Ends the replay when the error was read, or nobody wants it any more. -/
def fail (pump : Pump) (error : ReplayError) : Logged (Pump × Phase) :=
  pump.finish (.failed error.message)

def cancel (pump : Pump) : Logged (Pump × Phase) :=
  pump.finish .cancelled

def disconnect (pump : Pump) : Logged (Pump × Phase) :=
  pump.finish .disconnected

/-- The pump that goes on with other sources: the pacing starts afresh. -/
def renew (pump : Pump) (sources : List Source) : Pump :=
  { pump with sources, pacing := pump.pacing.reset, restarts := pump.restarts + 1 }

/-- Opens the captures anew. -/
def restart (tree : FileTree) (pump : Pump) : Logged (Pump × Phase) := do
  match ← resolveSources tree pump.pattern with
  | .error e => pump.closeAll.abort e
  | .ok sources =>
    let pump := pump.renew sources
    Logged.report [.restarted pump.pattern pump.restarts sources.length]
    if (Merge.select sources).isSome then return (pump, .ready)
    else
      Logged.report [.gaveUp pump.pattern]
      pump.finish .exhausted

/-- The phase in which a record is on its way: waiting comes first, if there is anything to wait
for. -/
def phaseOf (offer : Offer) : Phase :=
  match offer.wait with
  | some _ => .waiting offer
  | none => .holding offer

/-- Takes the record that the source at `index` has in hand, if it has one. -/
def take (pump : Pump) (index : Nat) : Pump × Phase :=
  match pump.sources[index]? with
  | none => (pump, .ready)
  | some source =>
    match source.take with
    | (none, _) => (pump, .ready)
    | (some record, source) =>
      let wait := pump.pacing.wait? record.kind record.timestamp
      ({ pump with
          sources := pump.sources.set index source
          pacing := pump.pacing.next record.timestamp },
        phaseOf ⟨index, record, wait⟩)

/-- Goes on from one record to the next, or to the end. -/
def step (tree : FileTree) (pump : Pump) : Logged (Pump × Phase) :=
  match Merge.select pump.sources with
  | some index => pure (pump.take index)
  | none => if pump.looping then pump.restart tree else pump.finish .exhausted

def wake (offer : Offer) : Phase :=
  .holding offer

/-- The record that the pump holds was read: its source advances at once. -/
def handOver (pump : Pump) (offer : Offer) : Logged (Pump × Phase) :=
  let pump := { pump with emitted := pump.emitted + 1 }
  match pump.sources[offer.index]? with
  | none => pure (pump, .ready)
  | some source => do
    let (result, source) ← source.advance
    let pump := { pump with sources := pump.sources.set offer.index source }
    match result with
    | .ok () => return (pump, .ready)
    | .error e => pump.abort e

def summary (pump : Pump) (reason : StopReason) : Summary :=
  { emitted := pump.emitted
    restarts := pump.restarts
    reason
    openSources := (pump.sources.filter Source.isOpen).length }

/-- The pump of a new replay, unless its settings are refused or its captures cannot be opened. -/
def start (tree : FileTree) (pattern : String) (settings : Settings) :
    Logged (Except ReplayError Pump) :=
  match settings.validate with
  | .error e => pure (.error e)
  | .ok () => do
    match ← resolveSources tree pattern with
    | .error e => return .error e
    | .ok sources =>
      Logged.report [.started pattern sources.length settings.speed settings.looping]
      return .ok {
        pattern
        looping := settings.looping
        sources
        pacing := .new settings.speed
        emitted := 0
        restarts := 0 }

end Pump

end TrafficReplay
