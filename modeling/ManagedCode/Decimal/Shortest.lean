import ManagedCode.Decimal.Binary

namespace ManagedCode.Decimal

/-! The fewest decimal digits that read back as a given number of a binary format. -/

/-- The fractions that round to a number reach half way to its neighbours. Below a power of two the
neighbour is half as far. All three values are in quarters of the number's last bit. -/
structure Interval where
  low : Nat
  value : Nat
  high : Nat
  closed : Bool

def Format.interval (format : Format) (mantissa : Nat) (exponent : Int) : Interval :=
  let narrow := mantissa = Nat.pow 2 (format.precision - 1) ∧ format.minExponent < exponent
  { low := if narrow then 4 * mantissa - 1 else 4 * mantissa - 2
    value := 4 * mantissa
    high := 4 * mantissa + 2
    closed := mantissa % 2 = 0 }

def Interval.holds (i : Interval) (num den : Nat) : Bool :=
  if i.closed then i.low * den ≤ num && num ≤ i.high * den
  else i.low * den < num && num < i.high * den

/-- The number of places before the point of a positive fraction, found upwards from a guess that is
too small by at most `fuel`. -/
def pointAbove (num den : Nat) (guess : Int) : Nat → Int
  | 0 => guess
  | fuel + 1 =>
    let (n, d) := scale 10 (-guess) num den
    if n < d then guess else pointAbove num den (guess + 1) fuel

/-- A bound from below by the length in bits: a decimal place is worth less than four bits and more
than three. -/
def decimalPoint (num den : Nat) : Int :=
  let bits := floorLog2 num den
  let guess := if 0 ≤ bits then bits / 4 else bits / 3 - 1
  pointAbove num den guess (bits.natAbs + 8)

/-- Of the two neighbours of the value on a decimal grid, the nearer one inside the interval. A tie
goes up. -/
def Interval.onGrid? (i : Interval) (exponent place : Int) : Option Nat :=
  -- The value on the grid of `place`: i.value * 2 ^ (exponent - 2) / 10 ^ place.
  let onGrid (quarters : Nat) : Nat × Nat :=
    let (n, d) := scale 2 (exponent - 2) quarters 1
    scale 10 (-place) n d
  let (n, d) := onGrid i.value
  let below := n / d
  let holds (digits : Nat) : Bool :=
    -- The grid point in quarters: digits * 10 ^ place / 2 ^ (exponent - 2).
    let (a, b) := scale 10 place digits 1
    let (a, b) := scale 2 (2 - exponent) a b
    i.holds a b
  let above := below + 1
  let lowFits := holds below
  let highFits := holds above
  if lowFits && (!highFits || 2 * (n % d) < d) then some below
  else if highFits then some above
  else none

/-- Digits and the exponent of the last of them, with the fewest digits first. -/
def Interval.search (i : Interval) (exponent point : Int) (count : Nat) : Nat → Nat × Int
  | 0 => (0, 0)
  | fuel + 1 =>
    let place := point - count
    match i.onGrid? exponent place with
    | some digits => (digits, place)
    | none => i.search exponent point (count + 1) fuel

/-- A positive mantissa has at most seventeen digits to show. -/
def Format.shortest (format : Format) (mantissa : Nat) (exponent : Int) : Nat × Int :=
  let (n, d) := scale 2 exponent mantissa 1
  (format.interval mantissa exponent).search exponent (decimalPoint n d) 1 20

end ManagedCode.Decimal
