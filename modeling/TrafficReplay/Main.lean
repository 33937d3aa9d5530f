/-
# The programs

Playback and inspection on the files of the machine. What a program can see of them is taken into a
file tree first: the names below the directory where its pattern begins, and then the contents of
what matches. A replay takes a new tree whenever its pump is about to open the captures anew, waits
as long as the pump waits, and writes each record when it is due. The word `inspect` in front of the
others asks for an inspection.
-/
import Std.Time.DateTime.Timestamp
import TrafficReplay.CommandLine.Inspection
import TrafficReplay.CommandLine.Playback

namespace TrafficReplay.CommandLine

/-- What stands in front of a log line: the time of day. -/
def timeOfDay : IO String := do
  return TimeLibrary.gregorian.timeText (← Std.Time.Timestamp.now).toNanosecondsSinceUnixEpoch.val

def faultOf (e : IO.Error) : Fault :=
  match e with
  | .noFileOrDirectory .. => .notFound
  | .permissionDenied _ code _ => if code = 13 then .permissionDenied else .other (toString e)
  | .hardwareFault code _ => if code = 5 then .inputOutput else .other (toString e)
  | .inappropriateType _ code _ =>
    if code = 20 then .notDirectory else if code = 21 then .isDirectory else .other (toString e)
  | .invalidArgument _ code _ => if code = 36 then .nameTooLong else .other (toString e)
  | .resourceExhausted _ code _ => if code = 28 then .noSpace else .other (toString e)
  | e => .other (toString e)

/-- The names below a directory; files are taken in without their contents. -/
partial def namesBelow (directory : String) : IO Node := do
  try
    let entries ← (← IO.FS.realPath directory).readDir
    let nodes ← entries.mapM fun entry => do
      return (entry.fileName, ← namesBelow (directory ++ "/" ++ entry.fileName))
    return .directory nodes.toList
  catch e =>
    match faultOf e with
    | .notDirectory | .notFound => return .file []
    | fault => return .unlisted [] fault

/-- The directory in front of the first wildcard of a pattern. -/
def scopeOf (pattern : String) : String :=
  let literal := pattern.toList.takeWhile fun c => c ≠ '*' && c ≠ '?' && c ≠ '['
  String.ofList ((literal.reverse.dropWhile (· ≠ '/')).reverse ++ ['.'])

/-- The tree that holds the working directory and nothing in it. -/
def bareTree : IO FileTree := do
  let home := FileTree.plainNames (← IO.currentDir).toString
  return { root := Node.insert (.directory []) home (.directory []), home }

/-- A file as far as it can be read; `read` is what was read before. -/
partial def readOn (handle : IO.FS.Handle) (read : ByteArray) : IO Node := do
  try
    let portion ← handle.read 65536
    if portion.isEmpty then return .file read.toList else readOn handle (read ++ portion)
  catch e => return .damaged read.toList (faultOf e) 0

/-- What stands at a path, if there is anything. -/
def nodeAt (path : String) : IO (Option Node) := do
  try
    match ← readOn (← IO.FS.Handle.mk path .read) .empty with
    | .damaged _ .isDirectory _ => return some (.directory [])
    | node => return some node
  catch e =>
    match faultOf e with
    | .notFound | .notDirectory => return none
    | fault => return some (.locked fault)

/-- The tree with the file at a path, if there is one. -/
def takeIn (tree : FileTree) (path : String) : IO FileTree := do
  if tree.isDirectory path then return tree
  match ← nodeAt path, tree.locate path with
  | none, _ => return tree
  | some node, .ok names => return tree.place names node
  | some node, .error _ => return tree.place (tree.startOf path ++ FileTree.plainNames path) node

def takeInFinding (tree : FileTree) : Glob.Finding → IO FileTree
  | .path path => takeIn tree path
  | .unlisted _ _ => return tree

def treeFor (pattern : String) : IO FileTree := do
  let bare ← bareTree
  try
    let scope ← IO.FS.realPath (scopeOf pattern)
    let tree := bare.place (FileTree.plainNames scope.toString) (← namesBelow scope.toString)
    match Glob.search tree pattern with
    | .ok findings => findings.foldlM takeInFinding tree
    | .error _ => return tree
  catch _ => return bare

/-- The words of a text that can be names of variables. -/
def wordsIn (text : List Char) : List String :=
  (runs (fun c => !EnvironmentFile.continuesName c) text).map String.ofList

/-- The variables of the environment that the programs or the file of variables can name. -/
def readEnvironment (file : Bytes) : IO Variables := do
  let names := LogFilter.variableName :: PlaybackArguments.command.choices.filterMap (·.standIn)
  let known ← (names ++ wordsIn (Utf8.decodeLossy file).toList).filterMapM fun name => do
    return (← IO.getEnv name).map fun value => (name, value)
  return known

/-- Says something to the person in front of the terminal. -/
def say (text : String) : IO Unit := do
  (← IO.getStderr).putStr text

/-- Says that a program fails, and gives its exit code. -/
def giveUp (failure : Failure) : IO UInt32 := do
  say failure.report
  return 1

def display (filter : LogFilter) (log : List Event) : IO Unit := do
  say (TerminalLine.ofLog filter (← timeOfDay) log)

/-- The result of moves of the pump; what they report is shown. -/
def shown {α : Type} (filter : LogFilter) (moves : Logged α) : IO α := do
  display filter moves.log
  return moves.value

/-- The tree that the next step of the pump needs: a new one if it opens the captures anew. -/
def treeForStep (pump : Pump) : IO FileTree :=
  if (Merge.select pump.sources).isNone && pump.looping then treeFor pump.pattern else bareTree

def openSink : Option String → IO IO.FS.Stream
  | none => IO.getStdout
  | some path => do
    let directories := (pieces (· = '/') path.toList).dropLast
    if directories.any (· ≠ []) then
      try IO.FS.createDirAll (String.ofList (List.intercalate ['/'] directories)) catch _ => pure ()
    return IO.FS.Stream.ofHandle (← IO.FS.Handle.mk path .write)

/-- Drives the pump to its end; `written` counts the records so far. -/
partial def drive (filter : LogFilter) (sink : IO.FS.Stream) (pump : Pump) (written : Nat) :
    Phase → IO UInt32
  | .ready => do
    let tree ← treeForStep pump
    let (pump, phase) ← shown filter (pump.step tree)
    drive filter sink pump written phase
  | .waiting offer => do
    IO.sleep ((offer.wait.getD 0) / 1000000).toUInt32
    drive filter sink pump written (Pump.wake offer)
  | .holding offer => do
    sink.write ⟨(Framing.frame offer.record.bytes).toArray⟩
    let (pump, phase) ← shown filter (pump.handOver offer)
    drive filter sink pump (written + 1) phase
  | .failing error => do
    discard <| shown filter (pump.fail error)
    sink.flush
    giveUp (Playback.replayFailure error)
  | .ended reason => do
    sink.flush
    say (Playback.closing written (pump.summary reason))
    return 0

/-- Replays the captures of a pattern. -/
def replay (filter : LogFilter) (arguments : PlaybackArguments) : IO UInt32 := do
  let sink : Except Fault IO.FS.Stream ←
    try pure (.ok (← openSink arguments.out)) catch e => pure (.error (faultOf e))
  match sink with
  | .error fault => giveUp (Playback.openFailure (arguments.out.getD "") fault)
  | .ok sink =>
    match ← shown filter
      (Pump.start (← treeFor arguments.input) arguments.input arguments.settings) with
    | .error e => giveUp (Playback.startFailure e)
    | .ok pump =>
      display filter [.announced arguments.input]
      try drive filter sink pump 0 .ready
      catch e => giveUp (Playback.writeFailure (faultOf e))

def leave (outcome : Outcome) : IO UInt32 := do
  (← IO.getStdout).write ⟨outcome.output.toArray⟩
  (← IO.getStderr).write ⟨outcome.diagnostics.toArray⟩
  return outcome.code.toUInt32

def playbackMain (words : List String) : IO UInt32 := do
  let tree ← takeIn (← bareTree) EnvironmentFile.fileName
  let file := (tree.contents? EnvironmentFile.fileName).getD []
  let environment := EnvironmentFile.load tree (← readEnvironment file)
  let filter := LogFilter.ofVariable (environment.get? LogFilter.variableName)
  match PlaybackArguments.command.read environment words with
  | .ok (.run given) =>
    match PlaybackArguments.ofGiven given with
    | .ok arguments => replay filter arguments
    | .error e => leave (.refused e tree)
  | .ok .help => leave (.told PlaybackArguments.command.help tree)
  | .ok .version => leave (.told PlaybackArguments.command.versionLine tree)
  | .error e => leave (.refused e tree)

def inspectionMain (words : List String) : IO UInt32 := do
  let environment ← readEnvironment []
  let tree ← match InspectionArguments.command.read environment words with
    | .ok (.run given) => takeIn (← bareTree) ((given.get? "input").getD "")
    | _ => bareTree
  leave (Inspection.run tree environment (← timeOfDay) words)

end TrafficReplay.CommandLine

open TrafficReplay.CommandLine in
def main (words : List String) : IO UInt32 :=
  match words with
  | "inspect" :: words => inspectionMain words
  | words => playbackMain words
