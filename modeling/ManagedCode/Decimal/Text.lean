import ManagedCode.Decimal.Shortest
import ManagedCode.Text.Scan

namespace ManagedCode.Decimal

/-! The decimal text of numbers: reading with rounding, writing without an exponent. -/

open Text

/-- The text of a whole number times a power of ten. -/
def positional (digits : Nat) (place : Int) : String :=
  if digits = 0 then "0"
  else if 0 ≤ place then toString digits ++ String.ofList (List.replicate place.toNat '0')
  else
    let places := (-place).toNat
    let whole := digits / Nat.pow 10 places
    let fraction := digits % Nat.pow 10 places
    if fraction = 0 then toString whole
    else
      let shown := (toString fraction).toList
      let padded := List.replicate (places - shown.length) '0' ++ shown
      let trimmed := (padded.reverse.dropWhile (· == '0')).reverse
      toString whole ++ "." ++ String.ofList trimmed

def sign (negative : Bool) : String :=
  if negative then "-" else ""

/-- The fewest digits that read back in the format. -/
def Format.write (format : Format) : Binary → String
  | .finite negative 0 _ => sign negative ++ "0"
  | .finite negative mantissa exponent =>
    let (digits, place) := format.shortest mantissa exponent
    sign negative ++ positional digits place
  | .infinite negative => sign negative ++ "inf"
  | .nan => "NaN"

/-- An optional sign, which is false for plus. -/
def readSign : List Char → Bool × List Char
  | '-' :: cs => (true, cs)
  | '+' :: cs => (false, cs)
  | cs => (false, cs)

/-- Every digit a text opens with, and the rest. -/
def takeDigits (cs : List Char) : List Char × List Char :=
  (cs.takeWhile Char.isDigit, cs.dropWhile Char.isDigit)

/-- The exponent part, which may be missing. -/
def readExponent? : List Char → Option Int
  | [] => some 0
  | c :: cs =>
    if c = 'e' ∨ c = 'E' then
      let (negative, digits) := readSign cs
      (readNat? digits).map fun n => if negative then -(n : Int) else n
    else none

/-- Digits with at most one point among them, and at least one digit. The exponent counts the digits
after the point away. -/
def readDecimal? (cs : List Char) : Option (Nat × Int) :=
  let (whole, rest) := takeDigits cs
  let (fraction, rest) :=
    match rest with
    | '.' :: rest => takeDigits rest
    | rest => ([], rest)
  match readNat? (whole ++ fraction), readExponent? rest with
  | some digits, some exponent => some (digits, exponent - fraction.length)
  | _, _ => none

/-- Beyond these powers of ten every number of every format is infinite or zero. -/
def Format.roundDecimal (format : Format) (negative : Bool) (digits : Nat) (place : Int) :
    Binary :=
  let magnitude := place + (toString digits).length
  if digits = 0 ∨ magnitude < -400 then format.round negative 0 1
  else if 400 < magnitude then .infinite negative
  else
    let (n, d) := scale 10 place digits 1
    format.round negative n d

def Format.read? (format : Format) (text : String) : Option Binary :=
  let (negative, cs) := readSign text.toList
  let word := String.ofList (cs.map Char.toLower)
  if word = "inf" ∨ word = "infinity" then some (.infinite negative)
  else if word = "nan" then some .nan
  else (readDecimal? cs).map fun (digits, place) => format.roundDecimal negative digits place

end ManagedCode.Decimal
