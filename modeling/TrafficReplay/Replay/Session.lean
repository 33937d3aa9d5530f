/-
# Sessions

A session is a replay as its reader sees it, one call after the other. Between two calls the pump
has moved as far as it can by itself: it holds a record or an error, or it is done. Files are looked
at in that moment only, so each call is given the file tree as it is then.
-/
import TrafficReplay.Replay.Pump

namespace TrafficReplay

/-- A replay between two calls. -/
structure Session where
  pump : Pump
  phase : Phase
  /-- Whether the summary was asked for already. -/
  collected : Bool

/-- What a read comes to: a record, nothing once the replay is over, or the error that ends it. -/
abbrev ReadResult := Except ReplayError (Option Record)

namespace Session

def elapse : Phase → Phase
  | .waiting offer => Pump.wake offer
  | phase => phase

/-- Moves the pump until it holds something or is done. A step after which it is ready again has
opened captures that hold a record, so a second step is enough. -/
def settle (tree : FileTree) : Pump × Phase → Logged (Pump × Phase)
  | (pump, .ready) => do
    match ← pump.step tree with
    | (pump, .ready) =>
      let (pump, phase) ← pump.step tree
      return (pump, elapse phase)
    | (pump, phase) => return (pump, elapse phase)
  | (pump, phase) => pure (pump, elapse phase)

def moved (session : Session) (state : Pump × Phase) : Session :=
  { session with pump := state.1, phase := state.2 }

def prepare (tree : FileTree) (pattern : String) (settings : Settings) :
    Logged (Except ReplayError Session) := do
  match ← Pump.start tree pattern settings with
  | .error e => return .error e
  | .ok pump => return .ok ⟨pump, .ready, false⟩

/-- The session with its pump moved until it holds something or is done. -/
def proceed (tree : FileTree) (session : Session) : Logged Session := do
  return session.moved (← settle tree (session.pump, session.phase))

/-- Starts a replay. -/
def start (tree : FileTree) (pattern : String) (settings : Settings) :
    Logged (Except ReplayError Session) := do
  match ← prepare tree pattern settings with
  | .error e => return .error e
  | .ok session => return .ok (← session.proceed tree)

/-- Reads the next record. -/
def read (tree : FileTree) (session : Session) : Logged (ReadResult × Session) :=
  match session.phase with
  | .holding offer | .waiting offer => do
    let state ← session.pump.handOver offer
    let state ← settle tree state
    return (.ok (some offer.record), session.moved state)
  | .failing error => do
    let state ← session.pump.fail error
    return (.error error, session.moved state)
  | .ready | .ended _ => pure (.ok none, session)

/-- The buffer with the first bytes of a record in front; what does not fit is dropped. -/
def fill (buffer : Bytes) (bytes : Bytes) : Bytes :=
  bytes.take buffer.length ++ buffer.drop bytes.length

/-- Reads the next record into a buffer, and tells the length of the whole record. -/
def readInto (tree : FileTree) (buffer : Bytes) (session : Session) :
    Logged ((Except ReplayError (Option Nat) × Bytes) × Session) := do
  let (result, session) ← session.read tree
  match result with
  | .error e => return ((.error e, buffer), session)
  | .ok none => return ((.ok none, buffer), session)
  | .ok (some record) =>
    return ((.ok (some record.bytes.length), fill buffer record.bytes), session)

/-- The next item of an iteration over the records: a record, or the error that ends the replay. -/
def nextRecord (tree : FileTree) (session : Session) :
    Logged (Option (Except ReplayError Record) × Session) := do
  let (result, session) ← session.read tree
  match result with
  | .error e => return (some (.error e), session)
  | .ok none => return (none, session)
  | .ok (some record) => return (some (.ok record), session)

/-- Requests a stop. Whatever the pump waits for, it is done then; an error that it holds stays the
reason. -/
def stop (session : Session) : Logged Session :=
  match session.phase with
  | .holding _ | .waiting _ | .ready => do return session.moved (← session.pump.cancel)
  | .failing error => do return session.moved (← session.pump.fail error)
  | .ended _ => pure session

/-- The summary of a replay that is over, once. -/
def wait (session : Session) : Option Summary × Session :=
  match session.phase with
  | .ended reason =>
    if session.collected then (none, session)
    else (some (session.pump.summary reason), { session with collected := true })
  | _ => (none, session)

/-- What a session is called. -/
def title (session : Session) : String :=
  Event.announcement session.pump.pattern

end Session

end TrafficReplay
