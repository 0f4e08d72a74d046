import QueryBuilder.Calendar
import QueryBuilder.Decimal.Notation
import QueryBuilder.Error
import QueryBuilder.Expr
import QueryBuilder.Json.Scalar

/-! Literals.

How values are written in SQL: texts, dates and times between single quotes, numbers
as they are. A value without a literal form is refused with the name of its type. -/
namespace QueryBuilder.Literal
open Decimal
variable {σ : Type}

def text (s : String) : Expr σ := .text s

def integer (n : Int) : Expr σ := .raw (toString n)

/-- The name of a binary format in messages. -/
def formatName (format : BinaryFormat) : String := if format = binary32 then "f32" else "f64"

/-- A floating-point number in plain notation; infinities and `NaN` are refused. -/
def float (format : BinaryFormat) (x : Binary) : Except Error (Expr σ) :=
  let written := plain.write format x
  if x.isFinite then .ok (.raw written)
  else .error (.unsupportedLiteral ("non-finite " ++ formatName format ++ " " ++ written))

def date (d : Calendar.Date) : Expr σ := .text d.text

def dateTime (t : Calendar.DateTime) : Expr σ := .text t.text

/-- A local time and how many seconds its clock is ahead of that of the prime
meridian. -/
def instant (t : Calendar.DateTime) (offset : Int) : Expr σ := .text (t.instantText offset)

def jsonNumber : Json.Number → String
  | .integer n => toString n
  | .real x => pointed.write binary64 x

/-- A JSON value; only texts and numbers have a literal form. -/
def json : Json.Scalar → Except Error (Expr σ)
  | .text s => .ok (.text s)
  | .number n => .ok (.raw (jsonNumber n))
  | .null => .error (.unsupportedLiteral "null")
  | .bool _ => .error (.unsupportedLiteral "bool")
  | .array => .error (.unsupportedLiteral "array")
  | .object => .error (.unsupportedLiteral "object")

end QueryBuilder.Literal
