/-
# Cyclic redundancy checks

The 32-bit check that compressed files carry and that reports on records show: the remainder of a
polynomial division over bits, taken byte by byte with the help of a table.
-/
import TrafficReplay.Text.Utf8

namespace TrafficReplay.Checksum

def polynomial : UInt32 := 0xEDB88320

/-- One step of the division. -/
def step (remainder : UInt32) : UInt32 :=
  if remainder &&& 1 = 1 then (remainder >>> 1) ^^^ polynomial else remainder >>> 1

def ofByte (b : UInt32) : UInt32 :=
  (List.range 8).foldl (fun remainder _ => step remainder) b

def table : Array UInt32 :=
  ((List.range 256).map fun n => ofByte n.toUInt32).toArray

/-- The remainder with one more byte behind it. -/
def next (remainder : UInt32) (b : UInt8) : UInt32 :=
  table.getD ((remainder ^^^ b.toUInt32) &&& 0xFF).toNat 0 ^^^ (remainder >>> 8)

/-- The check of a row of bytes. -/
def crc32 (bytes : Bytes) : UInt32 :=
  bytes.foldl next 0xFFFFFFFF ^^^ 0xFFFFFFFF

end TrafficReplay.Checksum
