/-
# Records and their metadata

The first line of a record holds fields between blanks: a tag, an id that pairs a response with its
request, and the time of capture in nanoseconds. Whatever the line holds, it has a reading; a
timestamp that is missing or no number counts as zero, and `Record.notices` says so.
-/
import TrafficReplay.Decimal.Signed
import TrafficReplay.Delivery
import TrafficReplay.Log
import TrafficReplay.Record.Kind
import TrafficReplay.Text.Pieces

namespace TrafficReplay

/-- What the first line of a record says. -/
structure Metadata where
  kind : Kind
  id : String
  timestamp : Int
  deriving Repr, DecidableEq

/-- The byte that may precede a line break and does not belong to the line. -/
def carriageReturn : UInt8 := 0x0D

def blank : UInt8 := 0x20

namespace Metadata

/-- The bytes in front of the first line break, without a carriage return at their end. -/
def line (raw : Bytes) : Bytes :=
  let line := raw.takeWhile (· ≠ newline)
  if line.getLast? = some carriageReturn then line.dropLast else line

/-- The fields of the first line: its longest runs of bytes other than blanks. -/
def fields (raw : Bytes) : List Bytes :=
  runs (· = blank) (line raw)

/-- The kind that the first field tells by its first byte. -/
def kindOf (fields : List Bytes) : Kind :=
  match fields.head?.bind List.head? with
  | some tag => Kind.ofTag tag
  | none => .other 0

def idOf (fields : List Bytes) : String :=
  (fields[1]?.map Utf8.decodeLossy).getD ""

def timestampOf? (fields : List Bytes) : Option Int :=
  fields[2]?.bind Decimal.timestamp?

/-- Reads the first line of a record. -/
def ofBytes (raw : Bytes) : Metadata :=
  let fields := fields raw
  { kind := kindOf fields
    id := idOf fields
    timestamp := (timestampOf? fields).getD 0 }

/-- What is to be reported about the first line of a record: why its timestamp had to be taken as
zero. -/
def notices (raw : Bytes) : List Event :=
  let fields := fields raw
  match fields[2]?, timestampOf? fields with
  | _, some _ => []
  | some field, none => [.malformedTimestamp (Utf8.decodeLossy field)]
  | none, none => [.missingTimestamp (idOf fields)]

end Metadata

/-- One piece of captured traffic: its bytes, metadata line included, and what that line says. -/
structure Record where
  metadata : Metadata
  bytes : Bytes
  deriving Repr, DecidableEq

namespace Record

/-- The record with the given bytes. -/
def ofBytes (raw : Bytes) : Record :=
  ⟨Metadata.ofBytes raw, raw⟩

/-- The kind of the record. -/
def kind (record : Record) : Kind :=
  record.metadata.kind

/-- The time of capture. -/
def timestamp (record : Record) : Int :=
  record.metadata.timestamp

/-- Reads a record and reports what is wrong with its metadata. -/
def parse (raw : Bytes) : Logged Record :=
  ⟨ofBytes raw, Metadata.notices raw⟩

end Record

end TrafficReplay
