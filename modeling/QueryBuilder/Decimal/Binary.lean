/-! Binary floating-point numbers.

A number of a format is `m · 2^q`, where `m` has at most `precision` bits and `q` is
no less than `minExponent`. A quotient of natural numbers is rounded to the nearest
such number, a tie going to an even `m`. The arithmetic is exact throughout. -/
namespace QueryBuilder.Decimal

/-- The shape of a binary format. -/
structure BinaryFormat where
  /-- The bits of `m`. -/
  precision : Nat
  /-- The least `q`. -/
  minExponent : Int
  /-- The greatest `q`. -/
  maxExponent : Int
deriving DecidableEq, Repr

/-- Single precision. -/
def binary32 : BinaryFormat := ⟨24, -149, 104⟩

/-- Double precision. -/
def binary64 : BinaryFormat := ⟨53, -1074, 971⟩

/-- A floating-point number; `finite` stands for `± m · 2^q`. -/
inductive Binary where
  | finite (negative : Bool) (m : Nat) (q : Int)
  | infinite (negative : Bool)
  | nan
deriving DecidableEq, Repr

/-- The quotient rounded to the nearest integer, a tie to the even one. -/
def roundQuotient (num den : Nat) : Nat :=
  let quotient := num / den
  let twice := 2 * (num % den)
  if twice < den then quotient
  else if twice = den then quotient + quotient % 2
  else quotient + 1

/-- The numerator and denominator of `num / den · base^e`. -/
def scaled (num den base : Nat) (e : Int) : Nat × Nat :=
  if 0 ≤ e then (num * base.pow e.toNat, den) else (num, den * base.pow (-e).toNat)

/-- The greatest `e` with `2^e ≤ num / den`, for a positive quotient. -/
def floorLog (num den : Nat) : Int :=
  let estimate : Int := (num.log2 : Int) - (den.log2 : Int)
  let (n, d) := scaled num den 2 (-estimate)
  if d ≤ n then estimate else estimate - 1

/-- The number of the format nearest to `num / den`. -/
def Binary.ofQuotient (format : BinaryFormat) (negative : Bool) (num den : Nat) : Binary :=
  if num = 0 then .finite negative 0 format.minExponent
  else
    let q := max (floorLog num den - (format.precision - 1 : Nat)) format.minExponent
    let (n, d) := scaled num den 2 (-q)
    let m := roundQuotient n d
    -- Rounding up may have carried into one bit more than the format has.
    let (m, q) := if m = Nat.pow 2 format.precision then (m / 2, q + 1) else (m, q)
    if q ≤ format.maxExponent then .finite negative m q else .infinite negative

namespace Binary

def isZero : Binary → Bool
  | finite _ m _ => m = 0
  | _ => false

def isFinite : Binary → Bool
  | finite .. => true
  | _ => false

def negate : Binary → Binary
  | finite negative m q => finite (!negative) m q
  | infinite negative => infinite (!negative)
  | nan => nan

/-- The rounded product of two finite numbers without sign; other operands give `nan`. -/
def multiply (format : BinaryFormat) : Binary → Binary → Binary
  | finite _ m q, finite _ m' q' =>
    let (n, d) := scaled (m * m') 1 2 (q + q')
    ofQuotient format false n d
  | _, _ => nan

/-- The rounded quotient of two finite numbers without sign, the divisor not zero;
other operands give `nan`. -/
def divide (format : BinaryFormat) : Binary → Binary → Binary
  | finite _ m q, finite _ m' q' =>
    if m' = 0 then nan
    else
      let (n, d) := scaled m m' 2 (q - q')
      ofQuotient format false n d
  | _, _ => nan

end Binary

end QueryBuilder.Decimal
