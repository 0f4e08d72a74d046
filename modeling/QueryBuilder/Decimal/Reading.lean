import QueryBuilder.Decimal.Binary

/-! Reading decimal text.

The text of a number has an optional sign, digits with at most one point among them,
and an optional exponent; `inf`, `infinity` and `nan` are read as well, in letters of
either case. It is read as the nearest number of a binary format; a number beyond the
greatest one is read as infinity. -/
namespace QueryBuilder.Decimal

/-- The value of a digit. -/
def digitValue (c : Char) : Nat := c.toNat - '0'.toNat

/-- The number that digits write. -/
def natOfDigits (digits : List Char) : Nat :=
  digits.foldl (fun n c => 10 * n + digitValue c) 0

/-- Powers of ten beyond this lie outside of every format here. -/
def reach : Int := 1000

/-- `± digits · 10^exponent`, rounded. -/
def Binary.ofDecimal (format : BinaryFormat) (negative : Bool) (digits : Nat) (exponent : Int) :
    Binary :=
  let magnitude : Int := exponent + (Nat.toDigits 10 digits).length
  if digits = 0 || magnitude < -reach then .ofQuotient format negative 0 1
  else if reach < magnitude then .infinite negative
  else
    let (n, d) := scaled digits 1 10 exponent
    .ofQuotient format negative n d

/-- Splits off a sign. -/
def splitSign : List Char → Bool × List Char
  | '-' :: rest => (true, rest)
  | '+' :: rest => (false, rest)
  | cs => (false, cs)

/-- An exponent with its mark, or nothing. -/
def readExponent : List Char → Option Int
  | [] => some 0
  | c :: rest =>
    let (negative, digits) := splitSign rest
    if c.toLower = 'e' && !digits.isEmpty && digits.all Char.isDigit then
      let n : Int := natOfDigits digits
      some (if negative then -n else n)
    else none

/-- Digits, point and exponent. -/
def readMagnitude (format : BinaryFormat) (negative : Bool) (cs : List Char) : Option Binary :=
  let whole := cs.takeWhile Char.isDigit
  let rest := cs.dropWhile Char.isDigit
  let (fraction, rest) := match rest with
    | '.' :: rest => (rest.takeWhile Char.isDigit, rest.dropWhile Char.isDigit)
    | rest => ([], rest)
  if whole.isEmpty && fraction.isEmpty then none
  else (readExponent rest).map fun e =>
    .ofDecimal format negative (natOfDigits (whole ++ fraction)) (e - fraction.length)

/-- The number that a text writes. -/
def Binary.read (format : BinaryFormat) (text : String) : Option Binary :=
  let (negative, rest) := splitSign text.toList
  match String.ofList (rest.map Char.toLower) with
  | "inf" | "infinity" => some (.infinite negative)
  | "nan" => some .nan
  | _ => readMagnitude format negative rest

end QueryBuilder.Decimal
