/-
# Signed decimal numbers in captures

A record's timestamp is a whole number of nanoseconds: an optional sign, one or more digits, and a
value that 64 bits with a sign can hold. Leading zeros are allowed, blanks are not.
-/
import TrafficReplay.Text.Utf8

namespace TrafficReplay.Decimal

def isDigit (b : UInt8) : Bool :=
  0x30 ≤ b && b ≤ 0x39

def valueOf (digits : Bytes) : Nat :=
  digits.foldl (fun value b => 10 * value + (b.toNat - 0x30)) 0

def natural? (text : Bytes) : Option Nat :=
  if text ≠ [] ∧ text.all isDigit then some (valueOf text) else none

def integer? : Bytes → Option Int
  | 0x2B :: digits => (natural? digits).map Int.ofNat
  | 0x2D :: digits => (natural? digits).map fun n => -Int.ofNat n
  | digits => (natural? digits).map Int.ofNat

def minTimestamp : Int := -0x8000000000000000

def maxTimestamp : Int := 0x7FFFFFFFFFFFFFFF

def timestamp? (text : Bytes) : Option Int :=
  (integer? text).filter fun n => minTimestamp ≤ n ∧ n ≤ maxTimestamp

end TrafficReplay.Decimal
