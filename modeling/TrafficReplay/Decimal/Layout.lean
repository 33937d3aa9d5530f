/-
# Numbers in messages

Messages write a speed factor with its shortest digits and never with an exponent; log lines on a
terminal keep one digit after the point and turn to an exponent for very large and very small
numbers.
-/
import TrafficReplay.Decimal.Shortest

namespace TrafficReplay.Decimal

def digitsOf (n : Nat) : List Char :=
  Nat.toDigits 10 n

/-- All digits with the point at its place and no exponent. -/
def Scaled.positional (s : Scaled) : List Char :=
  let digits := digitsOf s.digits
  if 0 ≤ s.exponent then digits ++ List.replicate s.exponent.toNat '0'
  else
    let places := (-s.exponent).toNat
    let padded := List.replicate (places + 1 - digits.length) '0' ++ digits
    padded.take (padded.length - places) ++ '.' :: padded.drop (padded.length - places)

def Scaled.magnitude (s : Scaled) : Int :=
  s.exponent + (digitsOf s.digits).length - 1

/-- One digit, the others after a point, and the exponent. -/
def Scaled.scientific (s : Scaled) : List Char :=
  let exponent := 'e' :: (toString s.magnitude).toList
  match digitsOf s.digits with
  | [] => exponent
  | [digit] => digit :: exponent
  | digit :: more => digit :: '.' :: more ++ exponent

def signBit : Nat := 1 <<< 63

/-- The text of a number: sign, special values and zero as given, all others by `write`. -/
def layout (zero : List Char) (write : Scaled → List Char) (x : Float) : String :=
  let bits := x.toBits.toNat
  let unsigned := bits % signBit
  if x.isNaN then "NaN"
  else
    let text :=
      if x.isInf then "inf".toList
      else if unsigned = 0 then zero
      else write (Binary.ofBits unsigned).shortest
    String.ofList (if signBit ≤ bits then '-' :: text else text)

/-- The number as messages write it: no exponent, no point after a whole number. -/
def plain (x : Float) : String :=
  layout ['0'] Scaled.positional x

/-- One digit after the point at least; an exponent below `10 ^ -4` and from `10 ^ 16` on. -/
def Scaled.pointed (s : Scaled) : List Char :=
  if s.magnitude < -4 ∨ 16 ≤ s.magnitude then s.scientific
  else if 0 ≤ s.exponent then s.positional ++ ['.', '0']
  else s.positional

/-- The number as log lines on a terminal write it. -/
def pointed (x : Float) : String :=
  layout ['0', '.', '0'] Scaled.pointed x

end TrafficReplay.Decimal
