namespace ManagedCode.Decimal

/-! Numbers of the binary floating-point formats, and rounding to them. -/

structure Format where
  /-- Significant bits. -/
  precision : Nat
  /-- The exponent of the last bit of the smallest numbers. -/
  minExponent : Int
  /-- The exponent of the last bit of the largest numbers. -/
  maxExponent : Int

def Format.single : Format := ⟨24, -149, 104⟩

def Format.double : Format := ⟨53, -1074, 971⟩

/-- A finite number is a mantissa times a power of two. -/
inductive Binary where
  | finite (negative : Bool) (mantissa : Nat) (exponent : Int)
  | infinite (negative : Bool)
  | nan
  deriving DecidableEq

def Binary.zero : Binary := .finite false 0 0

/-- A fraction of natural numbers, multiplied by a power of the base. -/
def scale (base : Nat) (exponent : Int) (num den : Nat) : Nat × Nat :=
  if 0 ≤ exponent then (num * Nat.pow base exponent.toNat, den)
  else (num, den * Nat.pow base (-exponent).toNat)

/-- The nearest whole number, a half going to the even neighbour. -/
def roundHalfEven (num den : Nat) : Nat :=
  let q := num / den
  let twice := 2 * (num % den)
  if twice < den then q
  else if den < twice then q + 1
  else if q % 2 = 0 then q
  else q + 1

/-- The largest power of two that is at most a positive fraction. -/
def floorLog2 (num den : Nat) : Int :=
  let guess : Int := (num.log2 : Int) - (den.log2 : Int)
  let (n, d) := scale 2 (-guess) num den
  if d ≤ n then guess else guess - 1

/-- The number of the format that is nearest to a fraction. -/
def Format.round (format : Format) (negative : Bool) (num den : Nat) : Binary :=
  if num = 0 then .finite negative 0 format.minExponent
  else
    let exponent := max format.minExponent (floorLog2 num den - (format.precision - 1 : Nat))
    let (n, d) := scale 2 (-exponent) num den
    let mantissa := roundHalfEven n d
    let carried := mantissa = Nat.pow 2 format.precision
    let mantissa := if carried then Nat.pow 2 (format.precision - 1) else mantissa
    let exponent := if carried then exponent + 1 else exponent
    if format.maxExponent < exponent then .infinite negative
    else .finite negative mantissa exponent

end ManagedCode.Decimal
