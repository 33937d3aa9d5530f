/-
# Inspections

A program that lists the records of one capture in the order of the file: number, kind, id, time,
length and check of each, and on request its bytes. At the end it says how many records are older
than the one right before them, for a replay expects a capture to have none of these.
-/
import TrafficReplay.Calendar
import TrafficReplay.Checksum
import TrafficReplay.CommandLine.TerminalLine
import TrafficReplay.CommandLine.Outcome
import TrafficReplay.Source

namespace TrafficReplay.CommandLine

/-- What the program is asked to do. -/
structure InspectionArguments where
  /-- The capture to read. -/
  input : String
  /-- Whether the bytes of each record are shown. -/
  dump : Bool
  deriving Repr, DecidableEq

/-- The records of a capture up to its end or to a fault. -/
structure Inspection where
  records : List Record
  fault : Option Fault
  deriving Repr, DecidableEq

namespace InspectionArguments

def command : Command where
  name := "inspect"
  purpose := "List the records of a capture file with their metadata"
  choices := [
    { name := "input"
      letter := some 'i'
      takesValue := true
      accepts := fun value => value ≠ ""
      standIn := none
      purpose := "Capture file to read (plain or .gz)" },
    { name := "dump"
      letter := none
      takesValue := false
      accepts := fun value => value = isGiven ∨ value = isNotGiven
      standIn := none
      purpose := "Print each record's payload after its metadata line" }]
  version := none

def ofGiven (given : Given) : Except UsageError InspectionArguments :=
  match given.get? "input" with
  | some input => .ok ⟨input, given.get? "dump" = some isGiven⟩
  | none => .error (.missingOption "input")

end InspectionArguments

namespace Inspection

/-- What one more reading in front adds; what comes after the end or a fault does not matter. -/
def addReading (reading : RecordReading) (later : Logged Inspection) : Logged Inspection :=
  match reading with
  | .record raw => do
    let record ← Record.parse raw
    let later ← later
    return { later with records := record :: later.records }
  | .ended _ => do
    Logged.report reading.notices
    return ⟨[], none⟩
  | .fault fault => return ⟨[], some fault⟩

def ofStream (deliveries : List Delivery) : Logged Inspection :=
  (Framing.readings deliveries).foldr addReading (pure ⟨[], none⟩)

def hexOf (check : UInt32) : String :=
  let digits := Nat.toDigits 16 check.toNat
  "0x" ++ String.ofList (List.replicate (8 - digits.length) '0' ++ digits)

def describe (library : TimeLibrary) (number : Nat) (record : Record) : String :=
  "#" ++ toString number ++ " type=" ++ record.kind.name ++ " id=" ++ record.metadata.id ++
    " ts=" ++ library.timeText record.timestamp ++ " len=" ++ toString record.bytes.length ++
    " crc=" ++ hexOf (Checksum.crc32 record.bytes) ++ "\n"

/-- What is printed of a record: the line about it, and its bytes if they are asked for. -/
def entry (library : TimeLibrary) (dump : Bool) (number : Nat) (record : Record) : String :=
  describe library number record ++
    if dump then Utf8.decodeLossy record.bytes ++ "\n---\n" else ""

/-- How many records are older than the one right before them. -/
def disorder (records : List Record) : Nat :=
  (records.zip records.tail).countP fun pair => pair.2.timestamp < pair.1.timestamp

def listing (library : TimeLibrary) (dump : Bool) (inspection : Inspection) : String :=
  String.join (inspection.records.mapIdx (entry library dump))

def closing (inspection : Inspection) : String :=
  "Read " ++ toString inspection.records.length ++ " records, " ++
    toString (disorder inspection.records) ++
    " with a timestamp older than their predecessor.\n"

/-- The failure of a program that has met a fault behind the records it has listed. -/
def failure (path : String) (inspection : Inspection) (fault : Fault) : Failure :=
  .ofFault
    ("read record " ++ toString inspection.records.length ++ " of " ++ Text.quoted path) fault

/-- Lists a capture. -/
def list (library : TimeLibrary) (tree : FileTree) (filter : LogFilter) (time : String)
    (arguments : InspectionArguments) : Outcome :=
  match Source.openStream tree arguments.input with
  | .error e => .failed [] [] (.ofError ("open " ++ Text.quoted arguments.input) e) tree
  | .ok deliveries =>
    let inspected := ofStream deliveries
    let inspection := inspected.value
    let output := Utf8.encode (inspection.listing library arguments.dump)
    let log := TerminalLine.ofLog filter time inspected.log
    match inspection.fault with
    | some fault => .failed output (Utf8.encode log) (inspection.failure arguments.input fault) tree
    | none => .done output (Utf8.encode (log ++ inspection.closing)) tree

/-- Runs the program; `time` stands in front of what it reports. -/
def run (tree : FileTree) (environment : Variables) (time : String) (words : List String) :
    Outcome :=
  let filter := LogFilter.ofVariable (environment.get? LogFilter.variableName)
  let command := InspectionArguments.command
  match command.read environment words with
  | .error e => .refused e tree
  | .ok .help => .told command.help tree
  | .ok .version => .told command.versionLine tree
  | .ok (.run given) =>
    match InspectionArguments.ofGiven given with
    | .error e => .refused e tree
    | .ok arguments => list .gregorian tree filter time arguments

end Inspection

end TrafficReplay.CommandLine
