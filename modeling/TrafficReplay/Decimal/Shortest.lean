/-
# The shortest decimal of a floating-point number

A floating-point number is written with the fewest digits that read back as the same number.
`Decimal.shortest` looks for the coarsest decimal grid (tens, units, tenths, …) with a point in the
interval of real numbers that round to the given one, and takes the point nearer to it. All
arithmetic is on natural numbers, so nothing is rounded on the way.
-/
namespace TrafficReplay.Decimal

/-- A positive number in binary: `mantissa · 2 ^ exponent`; `lowerGap` tells that the next smaller
number is only half a step away. -/
structure Binary where
  mantissa : Nat
  exponent : Int
  lowerGap : Bool

/-- A positive number in decimal: `digits · 10 ^ exponent`. -/
structure Scaled where
  digits : Nat
  exponent : Int
  deriving Repr, DecidableEq

/-- The least mantissa of a normal number: a one and 52 bits of fraction. -/
def Binary.leadingBit : Nat := 1 <<< 52

/-- The parts of a positive finite number, from its bits without the sign. -/
def Binary.ofBits (bits : Nat) : Binary :=
  let fraction := bits % leadingBit
  let biased : Nat := bits / leadingBit
  if biased = 0 then ⟨fraction, -1074, false⟩
  else ⟨leadingBit + fraction, Int.ofNat biased - 1075, fraction = 0 ∧ 1 < biased⟩

/-- Four times the mantissa and the ends of the interval of numbers that round to `b`, and the
length of a step of the grid of multiples of `10 ^ k`, all in one unit. -/
structure Grid where
  value : Nat
  low : Nat
  high : Nat
  step : Nat

/-- The interval of `b` beside the grid of multiples of `10 ^ k`. -/
def Binary.grid (b : Binary) (k : Int) : Grid :=
  let quarter := b.exponent - 2
  let unit := Nat.pow 2 quarter.toNat * Nat.pow 10 (-k).toNat
  { value := 4 * b.mantissa * unit
    low := (4 * b.mantissa - if b.lowerGap then 1 else 2) * unit
    high := (4 * b.mantissa + 2) * unit
    step := Nat.pow 2 (-quarter).toNat * Nat.pow 10 k.toNat }

/-- Whether the grid point reads back as the number: the ends of the interval do so for even
mantissas only. -/
def Grid.reads (g : Grid) (even : Bool) (point : Nat) : Bool :=
  if even then g.low ≤ point * g.step && point * g.step ≤ g.high
  else g.low < point * g.step && point * g.step < g.high

/-- The grid point that reads back as the number, of two the nearer one, of two equally near the
even one. -/
def Grid.point? (g : Grid) (even : Bool) : Option Nat :=
  let below := g.value / g.step
  match g.reads even below, g.reads even (below + 1) with
  | false, false => none
  | true, false => some below
  | false, true => some (below + 1)
  | true, true =>
    match compare (2 * g.value) ((2 * below + 1) * g.step) with
    | .lt => some below
    | .gt => some (below + 1)
    | .eq => some (if below % 2 = 0 then below else below + 1)

/-- The exponents of the decimal grids from the coarsest that a double can need to the finest. -/
def gridExponents : List Int :=
  (List.range 634).map fun i => 309 - Int.ofNat i

/-- The decimal with the fewest digits that reads back as the number. -/
def Binary.shortest (b : Binary) : Scaled :=
  let found := gridExponents.findSome? fun k =>
    ((b.grid k).point? (b.mantissa % 2 = 0)).map fun point => (⟨point, k⟩ : Scaled)
  found.getD ⟨b.mantissa, 0⟩

end TrafficReplay.Decimal
