/-
# Decompressed data

The data that decoding has given so far. Copies look back into them; in front of the first byte they
find zeros. Decoding works in strides: a stride ends where a portion of the file is used up, and
where the window that copies look into comes round. What a stride has given is handed on when it
ends, so data that were decoded in the stride in which the file turns out to be corrupt are never
handed on.
-/
import TrafficReplay.Gzip.Decoder

namespace TrafficReplay.Gzip

/-- Decompressed data, and how many of them there were when each portion of the file was used up,
the latest first. -/
structure Output where
  bytes : Array UInt8
  marks : List Nat
  deriving Repr, DecidableEq

namespace Output

/-- The size of the portions in which data are handed on. -/
def handOnSize : Nat := 8192

def windowSize : Nat := 32768

def empty : Output := ⟨#[], []⟩

/-- Marks the portions that are used up when `offset` bytes were begun. -/
def reach (output : Output) (offset : Nat) : Output :=
  let used := (offset - 1) / Cursor.portionSize
  { output with
    marks := List.replicate (used - output.marks.length) output.bytes.size ++ output.marks }

def push (output : Output) (byte : UInt8) : Output :=
  { output with bytes := output.bytes.push byte }

def lookBack (output : Output) (distance : Nat) : UInt8 :=
  if output.bytes.size < distance then 0 else output.bytes.getD (output.bytes.size - distance) 0

/-- Adds a copy of bytes that came before; the copy may reach into itself. -/
def copy (output : Output) (distance : Nat) : Nat → Output
  | 0 => output
  | n + 1 => (output.push (output.lookBack distance)).copy distance n

def toBytes (output : Output) : Bytes :=
  output.bytes.toList

/-- Where the window comes round between two amounts of data. -/
def turns (start stop : Nat) : List Nat :=
  (List.range ((stop - 1) / windowSize - start / windowSize)).map fun i =>
    (start / windowSize + i + 1) * windowSize

/-- How much was handed on at the end of a stride that stops where the window comes round:
everything, once a portion is full. -/
def handOnAtTurn (handedOn turn : Nat) : Nat :=
  if handOnSize ≤ turn - handedOn then turn else handedOn

/-- How much was handed on before the stride in which decoding stopped; `ends` lists how much there
was whenever a portion of the file was used up. -/
def handedOnBefore (stop : Nat) : (handedOn : Nat) → (ends : List Nat) → Nat
  | handedOn, [] => (turns handedOn stop).foldl handOnAtTurn handedOn
  | _, amount :: ends => handedOnBefore stop amount ends

/-- The data that were handed on if the file is corrupt behind them. -/
def handedOn (output : Output) : Bytes :=
  output.toBytes.take (handedOnBefore output.bytes.size 0 output.marks.reverse)

end Output

end TrafficReplay.Gzip
