import QueryBuilder.Calendar
import QueryBuilder.Decimal.Reading
import QueryBuilder.Text.Hexadecimal
import QueryBuilder.Toml.Value

/-! Numbers, dates and truth values in TOML.

They are written without blanks inside, so that each is one word; only between a date
and a time there may be a space. In numbers an underscore may stand between two
digits. Integers have 64 bits with sign; a float that is too great is refused, while
one that is too small becomes negative infinity. -/
namespace QueryBuilder.Toml
open Decimal Text

/-! ### Numbers -/

/-- Digits without the underscores between them. -/
def ungrouped (isDigit : Char → Bool) : List Char → Option (List Char)
  | [] => none
  | [c] => if isDigit c then some [c] else none
  | c :: '_' :: rest =>
    if isDigit c then (ungrouped isDigit rest).map (c :: ·) else none
  | c :: rest => if isDigit c then (ungrouped isDigit rest).map (c :: ·) else none

/-- The digits of a decimal integer, which starts with a zero only if it is zero. -/
def decimalDigits (cs : List Char) : Option (List Char) :=
  match cs with
  | '0' :: _ :: _ => none
  | cs => ungrouped Char.isDigit cs

/-- Integers have 64 bits, one of them the sign. -/
def int64 (n : Int) : Option Int :=
  if Int64.minValue.toInt ≤ n ∧ n ≤ Int64.maxValue.toInt then some n else none

def decimalInteger (word : List Char) : Option Int := do
  let (negative, rest) := splitSign word
  let n : Int := natOfDigits (← decimalDigits rest)
  int64 (if negative then -n else n)

/-- An integer in a base up to sixteen. -/
def inBase (base : Nat) (cs : List Char) : Option Int := do
  let isDigit (c : Char) : Bool := (hexValue? c).any (· < base)
  let digits ← ungrouped isDigit cs
  int64 (digits.foldl (fun n c => base * n + (hexValue? c).getD 0) 0 : Nat)

def integerOfWord : List Char → Option Int
  | '0' :: 'x' :: rest => inBase 16 rest
  | '0' :: 'o' :: rest => inBase 8 rest
  | '0' :: 'b' :: rest => inBase 2 rest
  | word => decimalInteger word

/-- A fraction with its point, or nothing. -/
def fractionDigits : List Char → Option (List Char)
  | [] => some []
  | '.' :: rest => ungrouped Char.isDigit rest
  | _ => none

/-- An exponent with its mark, or nothing. -/
def exponentValue : List Char → Option Int
  | [] => some 0
  | _ :: rest => do
    let (negative, rest) := splitSign rest
    let n : Int := natOfDigits (← ungrouped Char.isDigit rest)
    return if negative then -n else n

def isExponentMark (c : Char) : Bool := c = 'e' || c = 'E'

def floatOfWord (word : List Char) : Option Binary :=
  let (negative, rest) := splitSign word
  if rest = ['i', 'n', 'f'] then some (.infinite negative)
  else if rest = ['n', 'a', 'n'] then some .nan
  else do
    let whole := rest.takeWhile fun c => !(c = '.' || isExponentMark c)
    let behind := rest.drop whole.length
    guard !behind.isEmpty
    let fraction := behind.takeWhile fun c => !isExponentMark c
    let wholeDigits ← decimalDigits whole
    let fractionalDigits ← fractionDigits fraction
    let exponent ← exponentValue (behind.drop fraction.length)
    let x := Binary.ofDecimal binary64 negative (natOfDigits (wholeDigits ++ fractionalDigits))
      (exponent - fractionalDigits.length)
    if x = .infinite false then none else some x

/-! ### Dates and times -/

/-- A number of so many digits, and what stands behind it. -/
def fixedDigits (count : Nat) (cs : List Char) : Option (Nat × List Char) :=
  let digits := cs.take count
  if digits.length = count && digits.all Char.isDigit then
    some (natOfDigits digits, cs.drop count)
  else none

/-- A character that has to be there. -/
def expect (c : Char) : List Char → Option (List Char)
  | [] => none
  | d :: rest => if d = c then some rest else none

/-- A date of the calendar, and what stands behind it. -/
def readDate (cs : List Char) : Option (List Char) := do
  let (year, cs) ← fixedDigits 4 cs
  let (month, cs) ← fixedDigits 2 (← expect '-' cs)
  let (day, cs) ← fixedDigits 2 (← expect '-' cs)
  let _ ← Calendar.Date.ofFields? year month day
  return cs

/-- A time with seconds and perhaps a fraction of them. The sixtieth second is allowed
in every minute. -/
def readTime (cs : List Char) : Option (List Char) := do
  let (hour, cs) ← fixedDigits 2 cs
  let (minute, cs) ← fixedDigits 2 (← expect ':' cs)
  let (second, cs) ← fixedDigits 2 (← expect ':' cs)
  if hour < 24 && minute < 60 && second ≤ 60 then
    match cs with
    | '.' :: rest =>
      if (rest.takeWhile Char.isDigit).isEmpty then none else some (rest.dropWhile Char.isDigit)
    | cs => some cs
  else none

/-- Nothing, `Z`, or a sign with hours and minutes. -/
def isOffset : List Char → Bool
  | [] => true
  | [c] => c = 'Z' || c = 'z'
  | c :: rest =>
    (c = '+' || c = '-') &&
    match fixedDigits 2 rest with
    | some (hour, ':' :: rest) =>
      match fixedDigits 2 rest with
      | some (minute, []) => hour < 24 && minute < 60
      | _ => false
    | _ => false

/-- What separates a date from a time. -/
def isDateTimeMark (c : Char) : Bool := c = 'T' || c = 't' || c = ' '

/-- A date, a time, or both with perhaps an offset. -/
def isDateTime (word : List Char) : Bool :=
  match readDate word with
  | some [] => true
  | some (c :: rest) =>
    isDateTimeMark c &&
    match readTime rest with
    | some offset => isOffset offset
    | none => false
  | none => readTime word == some []

/-! ### Words -/

/-- The value that a word writes. -/
def Value.ofWord (word : List Char) : Option Value :=
  if word = "true".toList then some (.boolean true)
  else if word = "false".toList then some (.boolean false)
  else if isDateTime word then some (.dateTime (String.ofList word))
  else match integerOfWord word with
    | some n => some (.integer n)
    | none => (floatOfWord word).map .float

end QueryBuilder.Toml
