/-
# Log events

What a replay reports while it runs. An event holds data and no text; `Event.line` writes it the way
readers of the library see it. `Logged` is a value together with the events on the way to it, in
order.
-/
import TrafficReplay.Error
import TrafficReplay.StopReason

namespace TrafficReplay

/-- How much an event matters, from the least to the most. -/
inductive Level
  | trace
  | debug
  | info
  | warn
  | error
  deriving Repr, DecidableEq

namespace Level

def name : Level → String
  | trace => "TRACE"
  | debug => "DEBUG"
  | info => "INFO"
  | warn => "WARN"
  | error => "ERROR"

/-- The place of a level among the others, most important first. -/
def verbosity : Level → Nat
  | error => 1
  | warn => 2
  | info => 3
  | debug => 4
  | trace => 5

end Level

/-- What is worth reporting. -/
inductive Event
  /-- A timestamp field that is no number; zero is used. -/
  | malformedTimestamp (field : String)
  /-- Metadata without a timestamp field; zero is used. -/
  | missingTimestamp (id : String)
  /-- Bytes behind the last separator that no record holds. -/
  | discardedTail (bytes : Nat)
  /-- A capture was opened and its first record was looked for. -/
  | opened (path : String) (hasRecord : Bool)
  /-- A capture has no more records. -/
  | exhausted (path : String)
  /-- The pattern matches a directory, which is no capture. -/
  | skippedDirectory (path : String)
  /-- A replay begins. -/
  | started (pattern : String) (sources : Nat) (speed : Float) (looping : Bool)
  /-- All captures were replayed and opened anew. -/
  | restarted (pattern : String) (restart sources : Nat)
  /-- The captures that were opened anew hold no record. -/
  | gaveUp (pattern : String)
  /-- All captures were replayed. -/
  | finished (pattern : String) (emitted : Nat)
  /-- A stop was requested, or nobody is left to read. -/
  | stopped (pattern : String) (emitted : Nat) (reason : StopReason)
  /-- The replay failed. -/
  | aborted (pattern : String) (error : ReplayError)
  /-- The program says what it replays. -/
  | announced (pattern : String)

namespace Event

def level : Event → Level
  | malformedTimestamp _ | missingTimestamp _ | gaveUp _ => .warn
  | discardedTail _ | opened _ _ | exhausted _ | skippedDirectory _ => .debug
  | started _ _ _ _ | restarted _ _ _ | finished _ _ | stopped _ _ _ | announced _ => .info
  | aborted _ _ => .error

/-- The part of the program that the event comes from, as log filters name it. -/
def origin : Event → String
  | malformedTimestamp _ | missingTimestamp _ | discardedTail _ => "capture_replay::record"
  | opened _ _ | exhausted _ => "capture_replay::source"
  | skippedDirectory _ | started _ _ _ _ | restarted _ _ _ | gaveUp _ | finished _ _ | stopped _ _ _
  | aborted _ _ => "capture_replay::engine"
  | announced _ => "capture_replay"

def announcement (pattern : String) : String :=
  "File input: " ++ pattern

def headline : Event → String
  | malformedTimestamp _ => "malformed record timestamp, using 0"
  | missingTimestamp _ => "record metadata has no timestamp field, using 0"
  | discardedTail _ => "discarding unterminated record at end of stream"
  | opened _ _ => "opened capture source"
  | exhausted _ => "capture source exhausted"
  | skippedDirectory _ => "skipping directory matched by source pattern"
  | started _ _ _ _ => "starting capture replay"
  | restarted _ _ _ => "looping capture input"
  | gaveUp _ => "no records after restarting capture input, giving up"
  | finished _ _ => "end of capture input"
  | stopped _ _ _ => "capture replay stopped"
  | aborted _ _ => "capture replay aborted"
  | announced pattern => announcement pattern

def truth (b : Bool) : String :=
  if b then "true" else "false"

/-- The fields of an event, in order, each with its text; `number` writes floating-point numbers. -/
def fields (number : Float → String) : Event → List (String × String)
  | malformedTimestamp field => [("field", field)]
  | missingTimestamp id => [("id", id)]
  | discardedTail bytes => [("bytes", toString bytes)]
  | opened path hasRecord => [("path", Text.quoted path), ("has_record", truth hasRecord)]
  | exhausted path | skippedDirectory path => [("path", Text.quoted path)]
  | started pattern sources speed looping =>
    [("pattern", pattern), ("sources", toString sources), ("speed_factor", number speed),
      ("looping", truth looping)]
  | restarted pattern restart sources =>
    [("pattern", pattern), ("restart", toString restart), ("sources", toString sources)]
  | gaveUp pattern => [("pattern", pattern)]
  | finished pattern emitted => [("pattern", pattern), ("emitted", toString emitted)]
  | stopped pattern emitted reason =>
    [("pattern", pattern), ("emitted", toString emitted), ("reason", reason.name)]
  | aborted pattern error => [("pattern", pattern), ("error", error.message)]
  | announced _ => []

def fieldText (number : Float → String) (event : Event) : String :=
  String.join ((event.fields number).map fun field => " " ++ field.1 ++ "=" ++ field.2)

/-- Whether the event has a field of that name. What it says counts as one. -/
def hasField (event : Event) (name : String) : Bool :=
  name = "message" || (event.fields Decimal.plain).any (·.1 = name)

/-- The event with its level, as readers of the library see it. -/
def line (event : Event) : String :=
  event.level.name ++ " " ++ event.headline ++ event.fieldText Decimal.plain

end Event

/-- A value, and the events on the way to it. -/
structure Logged (α : Type) where
  value : α
  log : List Event

namespace Logged

instance : Monad Logged where
  pure a := ⟨a, []⟩
  bind x f := ⟨(f x.value).value, x.log ++ (f x.value).log⟩

def report (events : List Event) : Logged Unit :=
  ⟨(), events⟩

@[simp] theorem value_pure {α : Type} (a : α) : (pure a : Logged α).value = a := rfl

@[simp] theorem log_pure {α : Type} (a : α) : (pure a : Logged α).log = [] := rfl

@[simp] theorem value_bind {α β : Type} (x : Logged α) (f : α → Logged β) :
    (x >>= f).value = (f x.value).value := rfl

@[simp] theorem log_bind {α β : Type} (x : Logged α) (f : α → Logged β) :
    (x >>= f).log = x.log ++ (f x.value).log := rfl

@[simp] theorem value_map {α β : Type} (f : α → β) (x : Logged α) :
    (f <$> x).value = f x.value := rfl

@[simp] theorem log_map {α β : Type} (f : α → β) (x : Logged α) : (f <$> x).log = x.log :=
  List.append_nil _

@[simp] theorem log_report (events : List Event) : (report events).log = events := rfl

end Logged

end TrafficReplay
