/-
# Playbacks

A program that replays captures and writes the records, framed as in a capture, to its standard
output or to a file. The output is opened, and emptied, before the captures are. Records are written
when the replay is over, also when an error has ended it; a fault of the output is told rather than
that error. Nobody interrupts the program. Here it writes in one go, which is one of the ways in
which reading and writing can take turns.
-/
import TrafficReplay.CommandLine.TerminalLine
import TrafficReplay.CommandLine.Outcome
import TrafficReplay.Decimal.Reading
import TrafficReplay.Replay.Session

namespace TrafficReplay.CommandLine

/-- What the program is asked to do. -/
structure PlaybackArguments where
  /-- The pattern of the captures. -/
  input : String
  settings : Settings
  /-- Where the records go, if not to the standard output. -/
  out : Option String

/-- The records of a replay up to its end or to an error, and the replay as it is then. -/
structure Playback where
  records : List Record
  error : Option ReplayError
  session : Session

namespace PlaybackArguments

def command : Command where
  name := "capture_replay"
  purpose := "Replay recorded request/response captures in original order and timing"
  choices := [
    { name := "input"
      letter := some 'i'
      takesValue := true
      accepts := fun _ => true
      standIn := some "REPLAY_INPUT"
      purpose := "Capture file or glob pattern (e.g. \"captures/requests_*.log.gz\")" },
    { name := "speed"
      letter := none
      takesValue := true
      accepts := fun value => (Decimal.float? value).isSome
      standIn := some "REPLAY_SPEED"
      purpose := "Replay speed: 2.0 halves captured gaps, 0.5 doubles them" },
    { name := "loop"
      letter := none
      takesValue := false
      accepts := fun value => value = isGiven ∨ value = isNotGiven
      standIn := some "REPLAY_LOOP"
      purpose := "Start over from the pattern once every capture is exhausted" },
    { name := "out"
      letter := none
      takesValue := true
      accepts := fun value => value ≠ ""
      standIn := some "REPLAY_OUT"
      purpose := "Output file for replayed records; defaults to stdout" }]
  version := some "0.1.0"

def settingsOf (given : Given) : Settings :=
  { speed := ((given.get? "speed").bind Decimal.float?).getD ({} : Settings).speed
    looping := given.get? "loop" = some isGiven }

def ofGiven (given : Given) : Except UsageError PlaybackArguments :=
  match given.get? "input" with
  | some input => .ok ⟨input, settingsOf given, given.get? "out"⟩
  | none => .error (.missingOption "input")

end PlaybackArguments

namespace Playback

def addRecord (record : Record) (later : Playback) : Playback :=
  { later with records := record :: later.records }

/-- Reads a session to its end, in at most the given number of reads. -/
def readTimes (tree : FileTree) : Nat → Session → Logged (Option Playback)
  | 0, _ => pure none
  | n + 1, session => do
    let (result, session) ← session.read tree
    match result with
    | .ok (some record) => return (← readTimes tree n session).map (addRecord record)
    | .ok none => return some ⟨[], none, session⟩
    | .error e => return some ⟨[], some e, session⟩

/-- How many reads end a session that does not start over: each record in the hand of a source or of
the pump needs one, each of those still in a stream takes bytes from it, and an error and the end
need two more. -/
def readsLeft (session : Session) : Nat :=
  session.pump.sources.foldl
    (fun total source => total + source.stream.elim 0 Delivery.remaining + 1) 3

/-- Reads a session to its end. There is no end where captures with records are replayed over and
over. -/
def ofSession (tree : FileTree) (session : Session) : Logged (Option Playback) :=
  readTimes tree (readsLeft session) session

def written (playback : Playback) : Bytes :=
  playback.records.flatMap fun record => Framing.frame record.bytes

/-- The failure of a program whose output cannot be opened. -/
def openFailure (path : String) (fault : Fault) : Failure :=
  .ofFault ("open output " ++ Text.quoted path) fault

/-- Opens the output; the directories above a file are created where they are missing. -/
def openOutput (tree : FileTree) : Option String → Except Failure (FileTree.Sink × FileTree)
  | none => .ok (.device .standardOutput, tree)
  | some path =>
    let tree := tree.makeDirectories (tree.startOf path) (FileTree.plainNames path).dropLast
    match tree.openForWriting path with
    | .ok opened => .ok opened
    | .error fault => .error (openFailure path fault)

/-- What writing to an output adds to the standard output, to the standard error and to the files,
unless it fails. -/
def deliver (tree : FileTree) (bytes : Bytes) :
    FileTree.Sink → Except Fault (Bytes × Bytes × FileTree)
  | .device .standardOutput => .ok (bytes, [], tree)
  | .device .standardError => .ok ([], bytes, tree)
  | .device .full => if bytes = [] then .ok ([], [], tree) else .error .noSpace
  | .device .null => .ok ([], [], tree)
  | .file names => .ok ([], [], FileTree.Sink.append (.file names) bytes tree)

def closing (writtenRecords : Nat) (summary : Summary) : String :=
  "Replayed " ++ toString summary.emitted ++ " records (" ++
    toString writtenRecords ++ " written, " ++
    toString summary.restarts ++ " restarts, stop reason: " ++ summary.reason.name ++ ").\n"

/-- The failure of a program whose replay does not start. -/
def startFailure (e : ReplayError) : Failure :=
  .ofError "start capture replay" e

/-- The failure of a program whose output has a fault. -/
def writeFailure (fault : Fault) : Failure :=
  .ofFault "write replayed records" fault

/-- The failure of a program whose replay ends with an error. -/
def replayFailure (e : ReplayError) : Failure :=
  .ofError "capture replay failed" e

/-- Writes the records and says how the replay went; `log` is what was reported before. -/
def conclude (tree : FileTree) (sink : FileTree.Sink) (log : String) (playback : Playback) :
    Outcome :=
  match deliver tree playback.written sink with
  | .error fault => .failed [] (Utf8.encode log) (writeFailure fault) tree
  | .ok (output, diagnostics, tree) =>
    let said := Utf8.encode log ++ diagnostics
    match playback.error, playback.session.wait.1 with
    | some e, _ => .failed output said (replayFailure e) tree
    | none, some summary =>
      .done output (said ++ Utf8.encode (closing playback.records.length summary)) tree
    | none, none => .done output said tree

/-- What becomes of a replay without an end: it goes on for ever, unless its output takes nothing.
-/
def concludeEndless (tree : FileTree) (log : String) : FileTree.Sink → Option Outcome
  | .device .full => some (.failed [] (Utf8.encode log) (writeFailure .noSpace) tree)
  | _ => none

/-- Replays the captures; `none` if the replay never ends. -/
def perform (tree : FileTree) (filter : LogFilter) (time : String) (arguments : PlaybackArguments) :
    Option Outcome :=
  match openOutput tree arguments.out with
  | .error failure => some (.failed [] [] failure tree)
  | .ok (sink, tree) =>
    let lines := TerminalLine.ofLog filter time
    let prepared := Session.prepare tree arguments.input arguments.settings
    match prepared.value with
    | .error e => some (.failed [] (Utf8.encode (lines prepared.log)) (startFailure e) tree)
    | .ok session =>
      let played : Logged (Option Playback) := do
        Logged.report [.announced arguments.input]
        ofSession tree (← session.proceed tree)
      let log := lines (prepared.log ++ played.log)
      match played.value with
      | some playback => some (conclude tree sink log playback)
      | none => concludeEndless tree log sink

/-- Runs the program; `time` stands in front of what it reports. -/
def run (tree : FileTree) (environment : Variables) (time : String) (words : List String) :
    Option Outcome :=
  let environment := EnvironmentFile.load tree environment
  let filter := LogFilter.ofVariable (environment.get? LogFilter.variableName)
  let command := PlaybackArguments.command
  match command.read environment words with
  | .error e => some (.refused e tree)
  | .ok .help => some (.told command.help tree)
  | .ok .version => some (.told command.versionLine tree)
  | .ok (.run given) =>
    match PlaybackArguments.ofGiven given with
    | .error e => some (.refused e tree)
    | .ok arguments => perform tree filter time arguments

end Playback

end TrafficReplay.CommandLine
