import QueryBuilder.Decimal.Shortest

/-! Writing numbers.

A notation says which numbers are written positionally and which with an exponent,
whether a whole number keeps its point, and how a tie between two shortest decimals
is decided. -/
namespace QueryBuilder.Decimal

structure DecimalNotation where
  /-- The least exponent of a leading digit that is written positionally. -/
  leastPositional : Option Int
  /-- The greatest one. -/
  greatestPositional : Option Int
  /-- Whole numbers are written with `.0` behind them. -/
  keepsPoint : Bool
  tie : Tie
deriving DecidableEq, Repr

/-- Always positional, and whole numbers without a point. -/
def plain : DecimalNotation := ⟨none, none, false, .up⟩

/-- Positional from `0.00001` to below `10^16`, and whole numbers with a point. -/
def pointed : DecimalNotation := ⟨some (-5), some 15, true, .even⟩

/-- A block of zeros. -/
def zeros (n : Nat) : List Char := List.replicate n '0'

/-- `digits · 10^exponent` without an exponent. -/
def positional (keepsPoint : Bool) (digits : List Char) (exponent : Int) : List Char :=
  if 0 ≤ exponent then
    digits ++ zeros exponent.toNat ++ (if keepsPoint then ['.', '0'] else [])
  else
    let fraction := (-exponent).toNat
    if fraction < digits.length then
      digits.take (digits.length - fraction) ++ '.' :: digits.drop (digits.length - fraction)
    else '0' :: '.' :: (zeros (fraction - digits.length) ++ digits)

/-- The leading digit, the others behind a point, and the exponent with its sign. -/
def scientific (digits : List Char) (leading : Int) : List Char :=
  let mantissa := match digits with
    | first :: second :: rest => first :: '.' :: second :: rest
    | digits => digits
  let sign := if leading < 0 then '-' else '+'
  mantissa ++ 'e' :: sign :: Nat.toDigits 10 leading.natAbs

namespace DecimalNotation

/-- A leading digit with this exponent is written positionally. -/
def isPositional (style : DecimalNotation) (leading : Int) : Bool :=
  style.leastPositional.all (· ≤ leading) && style.greatestPositional.all (leading ≤ ·)

/-- A decimal without sign. -/
def magnitude (style : DecimalNotation) (d : DecimalNumber) : List Char :=
  let digits := Nat.toDigits 10 d.digits
  let leading := d.exponent + (digits.length - 1 : Nat)
  if style.isPositional leading then positional style.keepsPoint digits d.exponent
  else scientific digits leading

/-- The text of a number, in the fewest digits that read back. -/
def write (style : DecimalNotation) (format : BinaryFormat) : Binary → String
  | .nan => "NaN"
  | .infinite negative => if negative then "-inf" else "inf"
  | .finite negative m q =>
    let d := if m = 0 then ⟨0, 0⟩ else shortest format style.tie m q
    String.ofList ((if negative then ['-'] else []) ++ style.magnitude d)

end DecimalNotation

end QueryBuilder.Decimal
