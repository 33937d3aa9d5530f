/-
# Sources

A source is an opened capture with the next of its records in hand. Opening reads the first record;
taking it leaves the hand empty until the source advances to the next one. At the end of its
records, and after a fault, a source is closed and stays empty. A source keeps reading the contents
that the file had when it was opened.
-/
import TrafficReplay.FileTree
import TrafficReplay.Gzip.Archive
import TrafficReplay.Record.Framing
import TrafficReplay.Record.Metadata

namespace TrafficReplay

/-- An opened capture: its path, what is still to be read of it while it is open, and the record in
hand. -/
structure Source where
  path : String
  stream : Option (List Delivery)
  lookahead : Option Record
  deriving Repr, DecidableEq

namespace Source

def compressedEnding : Bytes :=
  [0x2E, 0x67, 0x7A]

/-- Whether a path, given by its bytes, names a compressed capture. -/
def isCompressed (path : Bytes) : Bool :=
  compressedEnding.isSuffixOf path

/-- What reading the node to its end gives. -/
def deliveriesOf : Node → List Delivery
  | .file contents => [.portion contents]
  | .damaged contents fault _ => [.portion contents, .failed fault]
  | .directory _ | .unlisted _ _ => [.failed .isDirectory]
  | .locked fault => [.failed fault]
  | .device _ => []

/-- What the node holds unpacked, unless it does not start like a compressed capture. -/
def unpackNode? : Node → Option Gzip.Unpacked
  | .file contents => Gzip.unpack? contents
  | .damaged contents fault withheld =>
    (Gzip.unpack? contents).map fun unpacked => unpacked.interruptedBy fault withheld
  | _ => none

/-- What reading the capture gives, decompressed where its name says that it is compressed. -/
def openStream (tree : FileTree) (path : String) : Except ReplayError (List Delivery) :=
  match tree.lookup path with
  | .error fault | .ok (.locked fault) => .error (.cannotOpen path fault)
  | .ok node =>
    if isCompressed (Utf8.encode path) then
      match unpackNode? node with
      | some unpacked => .ok unpacked.deliveries
      | none => .error (.cannotDecompress path .missingHeader)
    else .ok (deliveriesOf node)

/-- Whether there is more to be read. -/
def isOpen (source : Source) : Bool :=
  source.stream.isSome

/-- Whether a record is in hand. -/
def hasLookahead (source : Source) : Bool :=
  source.lookahead.isSome

/-- Gives up the stream and the record in hand. -/
def close (source : Source) : Source :=
  { source with stream := none, lookahead := none }

/-- Takes the record in hand. -/
def take (source : Source) : Option Record × Source :=
  (source.lookahead, { source with lookahead := none })

/-- Goes on to the next record. The end of the records closes the source, and so does a fault, which
is returned. -/
def advance (source : Source) : Logged (Except ReplayError Unit × Source) :=
  match source.stream with
  | none => pure (.ok (), source.close)
  | some deliveries => do
    let (reading, rest) := Framing.readRecord deliveries
    Logged.report reading.notices
    match reading with
    | .record raw =>
      let record ← Record.parse raw
      return (.ok (), { source with stream := some rest, lookahead := some record })
    | .ended _ =>
      Logged.report [.exhausted source.path]
      return (.ok (), source.close)
    | .fault fault => return (.error (.cannotRead source.path fault), source.close)

/-- A source on a stream, with the first of its records in hand. -/
def onStream (path : String) (deliveries : List Delivery) : Logged (Except ReplayError Source) := do
  let (result, source) ← advance ⟨path, some deliveries, none⟩
  match result with
  | .error e => return .error e
  | .ok () =>
    Logged.report [.opened path source.hasLookahead]
    return .ok source

/-- Opens a capture and reads its first record. -/
def openAt (tree : FileTree) (path : String) : Logged (Except ReplayError Source) :=
  match openStream tree path with
  | .error e => pure (.error e)
  | .ok deliveries => onStream path deliveries

end Source

end TrafficReplay
