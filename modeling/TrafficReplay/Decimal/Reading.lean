/-
# Reading decimal numbers

The speed factor of a command line: an optional sign, then digits with at most one point among them
and an optional exponent, or one of the words for infinity and for "not a number". The number is the
nearest one that 64 bits can hold; what is too large becomes infinite and what is too small becomes
zero.
-/
namespace TrafficReplay.Decimal

/-- The number `digits · 10 ^ exponent`, rounded. Beyond 400 places from the point the answer is
infinite or zero, whatever the digits. -/
def magnitudeOf (digits : Nat) (exponent : Int) : Float :=
  let top := exponent + (Nat.toDigits 10 digits).length
  if digits = 0 ∨ top < -400 then 0.0
  else if 400 < top then 1.0 / 0.0
  else Float.ofScientific digits (exponent < 0) exponent.natAbs

def valueOfDigits (digits : List Char) : Nat :=
  digits.foldl (fun value c => 10 * value + (c.toNat - '0'.toNat)) 0

/-- Reads an optional sign and one or more digits to the end. -/
def exponent? (text : List Char) : Option Int :=
  let (negative, digits) :=
    match text with
    | '-' :: digits => (true, digits)
    | '+' :: digits => (false, digits)
    | digits => (false, digits)
  if digits ≠ [] ∧ digits.all Char.isDigit then
    some (if negative then -(valueOfDigits digits : Int) else (valueOfDigits digits : Int))
  else none

/-- What follows the digits before a point: the digits after it, and the rest. -/
def fractionPart : List Char → List Char × List Char
  | '.' :: text => text.span Char.isDigit
  | text => ([], text)

def unsigned? (text : List Char) : Option Float :=
  let (whole, rest) := text.span Char.isDigit
  let (fraction, rest) := fractionPart rest
  let digits := whole ++ fraction
  let value (exponent : Int) := magnitudeOf (valueOfDigits digits) (exponent - fraction.length)
  if digits = [] then none
  else match rest with
    | [] => some (value 0)
    | mark :: rest => if mark = 'e' ∨ mark = 'E' then (exponent? rest).map value else none

/-- The words for numbers without digits, in any case. -/
def word? (text : List Char) : Option Float :=
  let lower := text.map Char.toLower
  if lower = "nan".toList then some (0.0 / 0.0)
  else if lower = "inf".toList ∨ lower = "infinity".toList then some (1.0 / 0.0)
  else none

def magnitude? (text : List Char) : Option Float :=
  (unsigned? text).or (word? text)

/-- Reads a floating-point number. -/
def float? (text : String) : Option Float :=
  match text.toList with
  | '-' :: rest => (magnitude? rest).map Float.neg
  | '+' :: rest => magnitude? rest
  | rest => magnitude? rest

end TrafficReplay.Decimal
