import QueryBuilder.Decimal.Reading

/-! JSON numbers.

An integer that fits in 64 bits, signed or unsigned, is kept as it is. Every other
number becomes a double: its leading digits, as many as fit in 64 bits, are rounded
to a double and scaled by a power of ten that is itself rounded, with one rounding
more. The result may differ from the nearest double in its last digit. Zero with a
minus sign is a double, the only one with a sign. -/
namespace QueryBuilder.Json
open Decimal

inductive Number where
  | integer (n : Int)
  | real (x : Binary)
deriving DecidableEq, Repr

/-- Leading digits and the power of ten that they are scaled by. -/
structure Significand where
  digits : Nat := 0
  exponent : Int := 0

/-- Appends a digit if there is room for it. -/
def Significand.push? (s : Significand) (c : Char) : Option Significand :=
  let digits := 10 * s.digits + digitValue c
  if digits < UInt64.size then some { s with digits } else none

/-- Takes digits before the point: from the first one without room on, they only scale. -/
def takeWhole (s : Significand) : List Char → Significand
  | [] => s
  | c :: rest =>
    match s.push? c with
    | some s => takeWhole s rest
    | none => { s with exponent := s.exponent + (rest.length + 1) }

/-- Takes digits behind the point: from the first one without room on, they are dropped. -/
def takeFraction (s : Significand) : List Char → Significand
  | [] => s
  | c :: rest =>
    match s.push? c with
    | some s => takeFraction { s with exponent := s.exponent - 1 } rest
    | none => s

/-- The greatest power of ten that a number is scaled by in one step. -/
def greatestPower : Nat := 308

def double (n : Nat) : Binary := .ofQuotient binary64 false n 1

/-- A power of ten in steps of no more than the greatest one. -/
def powerSteps (power : Nat) : List Nat :=
  let full := (power - 1) / greatestPower
  List.replicate full greatestPower ++ [power - full * greatestPower]

/-- Divides by a power of ten, with a rounding at every step. -/
def scaleDown (f : Binary) (power : Nat) : Binary :=
  (powerSteps power).foldl (fun f step => f.divide binary64 (double (Nat.pow 10 step))) f

/-- The double of a significand, or nothing when it is too great. -/
def Significand.toDouble? (s : Significand) : Option Binary :=
  let f := double s.digits
  if s.exponent < 0 then some (scaleDown f (-s.exponent).toNat)
  else if s.exponent.toNat ≤ greatestPower then
    let x := f.multiply binary64 (double (Nat.pow 10 s.exponent.toNat))
    if x.isFinite then some x else none
  else if f.isZero then some f
  else none

/-- The digits of a whole part: a single zero, or no zero in front. -/
def isWholePart : List Char → Bool
  | [] => false
  | '0' :: rest => rest.isEmpty
  | _ => true

/-- Powers of ten beyond this count as this far: whatever has as many digits as there is
room for, they take it out of every double. -/
def exponentReach : Int := 1000

/-- The number that a JSON text writes, without blanks around it. -/
def Number.read (cs : List Char) : Option Number :=
  let (negative, cs) := match cs with
    | '-' :: rest => (true, rest)
    | cs => (false, cs)
  let whole := cs.takeWhile Char.isDigit
  let rest := cs.dropWhile Char.isDigit
  if !isWholePart whole then none
  else
    let s := takeWhole {} whole
    let signed (x : Binary) : Binary := if negative then x.negate else x
    if rest.isEmpty && s.exponent = 0 then
      if !negative then some (.integer s.digits)
      else if 0 < s.digits && s.digits ≤ UInt64.size / 2 then some (.integer (-(s.digits : Int)))
      else some (.real (signed (double s.digits)))
    else
      let fraction? := match rest with
        | '.' :: rest => some (rest.takeWhile Char.isDigit)
        | _ => none
      let rest := match rest with
        | '.' :: rest => rest.dropWhile Char.isDigit
        | rest => rest
      if fraction? = some [] then none
      else
        match readExponent rest with
        | none => none
        | some e =>
          let s := takeFraction s (fraction?.getD [])
          let e := max (-exponentReach) (min exponentReach (s.exponent + e))
          ({ s with exponent := e }.toDouble?).map fun x => .real (signed x)

end QueryBuilder.Json
