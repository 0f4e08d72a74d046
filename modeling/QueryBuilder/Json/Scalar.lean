import QueryBuilder.Json.Number
import QueryBuilder.Text.Hexadecimal

/-! JSON values, as far as they can be literals.

Texts and numbers are read in full; of arrays and objects only the kind is told, since
they have no literal form. -/
namespace QueryBuilder.Json
open Text

inductive Scalar where
  | null
  | bool (b : Bool)
  | number (n : Number)
  | text (s : String)
  | array
  | object
deriving Repr

def isBlank (c : Char) : Bool := c = ' ' || c = '\t' || c = '\n' || c = '\r'

/-- What an escaped letter stands for. -/
def simpleEscape? : Char → Option Char
  | '\x22' => some '\x22'
  | '\\' => some '\\'
  | '/' => some '/'
  | 'b' => some '\x08'
  | 'f' => some '\x0c'
  | 'n' => some '\n'
  | 'r' => some '\r'
  | 't' => some '\t'
  | _ => none

/-- The number of the character that two surrogates stand for. -/
def pairedNumber? (high low : Nat) : Option Nat :=
  if 0xD800 ≤ high && high < 0xDC00 && 0xDC00 ≤ low && low < 0xE000 then
    some (0x10000 + (high - 0xD800) * 0x400 + (low - 0xDC00))
  else none

/-- The inside of a text, to the quote at its end. -/
def readText : List Char → Option (List Char)
  | ['\x22'] => some []
  | '\\' :: 'u' :: a :: b :: c :: d :: rest =>
    match natOfHex? [a, b, c, d] with
    | none => none
    | some n =>
      match charOfNumber? n, rest with
      | some ch, rest => (readText rest).map (ch :: ·)
      | none, '\\' :: 'u' :: a' :: b' :: c' :: d' :: rest =>
        match ((natOfHex? [a', b', c', d']).bind (pairedNumber? n)).bind charOfNumber? with
        | some ch => (readText rest).map (ch :: ·)
        | none => none
      | none, _ => none
  | '\\' :: c :: rest =>
    match simpleEscape? c with
    | some ch => (readText rest).map (ch :: ·)
    | none => none
  | c :: rest => if c = '\x22' || c < ' ' then none else (readText rest).map (c :: ·)
  | [] => none

/-- The value that a JSON text writes. -/
def Scalar.read (text : String) : Option Scalar :=
  let trimmed := ((text.toList.dropWhile isBlank).reverse.dropWhile isBlank).reverse
  match trimmed with
  | '\x22' :: rest => (readText rest).map fun s => .text (String.ofList s)
  | '[' :: _ => some .array
  | '\x7b' :: _ => some .object
  | cs =>
    if cs = "null".toList then some .null
    else if cs = "true".toList then some (.bool true)
    else if cs = "false".toList then some (.bool false)
    else (Number.read cs).map .number

end QueryBuilder.Json
