import QueryBuilder.Text.Hexadecimal

/-! Texts in TOML.

A basic text stands between double quotes and has escapes, a literal text stands
between single quotes and has none. Between three quotes of either kind a text may
go over several lines: a line break right behind the opening quotes is dropped, every
other one is read as a line feed, and up to two quotes may stand at the end of the
text. In a basic text a backslash at the end of a line drops the blanks and line
breaks that follow. -/
namespace QueryBuilder.Toml
open Text

def isBlank (c : Char) : Bool := c = ' ' || c = '\t'

/-- A character that may stand in a text or comment: a tab, or no control character. -/
def isPlain (c : Char) : Bool := c = '\t' || (' ' ≤ c && c ≠ '\x7f')

/-- The character whose number the digits write. -/
def charOfHex? (digits : List Char) : Option Char := (natOfHex? digits).bind charOfNumber?

/-- What an escaped letter stands for. -/
def escaped? : Char → Option Char
  | 'b' => some '\x08'
  | 't' => some '\t'
  | 'n' => some '\n'
  | 'f' => some '\x0c'
  | 'r' => some '\r'
  | '\x22' => some '\x22'
  | '\\' => some '\\'
  | _ => none

/-- A text and what stands behind it. -/
abbrev TextRest := List Char × List Char

def TextRest.cons (c : Char) (t : TextRest) : TextRest := (c :: t.1, t.2)

/-- The inside of a basic text. -/
def basicText : List Char → Option TextRest
  | '\x22' :: rest => some ([], rest)
  | '\\' :: 'u' :: a :: b :: c :: d :: rest =>
    match charOfHex? [a, b, c, d] with
    | some ch => (basicText rest).map (.cons ch)
    | none => none
  | '\\' :: 'U' :: a :: b :: c :: d :: e :: f :: g :: h :: rest =>
    match charOfHex? [a, b, c, d, e, f, g, h] with
    | some ch => (basicText rest).map (.cons ch)
    | none => none
  | '\\' :: c :: rest =>
    match escaped? c with
    | some ch => (basicText rest).map (.cons ch)
    | none => none
  | c :: rest => if c ≠ '\\' && isPlain c then (basicText rest).map (.cons c) else none
  | [] => none

/-- The inside of a literal text. -/
def literalText : List Char → Option TextRest
  | '\x27' :: rest => some ([], rest)
  | c :: rest => if isPlain c then (literalText rest).map (.cons c) else none
  | [] => none

/-- Nothing but blanks stands before the next line break. -/
def lineEnds (cs : List Char) : Bool :=
  match cs.dropWhile isBlank with
  | '\n' :: _ => true
  | '\r' :: '\n' :: _ => true
  | _ => false

/-- The inside of a basic text over several lines; `dropping` is true behind a backslash
at the end of a line. -/
def basicLines (dropping : Bool) : List Char → Option TextRest
  | '\x22' :: '\x22' :: '\x22' :: '\x22' :: '\x22' :: rest => some (['\x22', '\x22'], rest)
  | '\x22' :: '\x22' :: '\x22' :: '\x22' :: rest => some (['\x22'], rest)
  | '\x22' :: '\x22' :: '\x22' :: rest => some ([], rest)
  | '\r' :: '\n' :: rest =>
    if dropping then basicLines true rest else (basicLines false rest).map (.cons '\n')
  | '\\' :: 'u' :: a :: b :: c :: d :: rest =>
    match charOfHex? [a, b, c, d] with
    | some ch => (basicLines false rest).map (.cons ch)
    | none => none
  | '\\' :: 'U' :: a :: b :: c :: d :: e :: f :: g :: h :: rest =>
    match charOfHex? [a, b, c, d, e, f, g, h] with
    | some ch => (basicLines false rest).map (.cons ch)
    | none => none
  | '\\' :: c :: rest =>
    match escaped? c with
    | some ch => (basicLines false rest).map (.cons ch)
    | none => if lineEnds (c :: rest) then basicLines true (c :: rest) else none
  | c :: rest =>
    if dropping && (isBlank c || c = '\n') then basicLines true rest
    else if c ≠ '\\' && (isPlain c || c = '\n') then (basicLines false rest).map (.cons c)
    else none
  | [] => none

/-- The inside of a literal text over several lines. -/
def literalLines : List Char → Option TextRest
  | '\x27' :: '\x27' :: '\x27' :: '\x27' :: '\x27' :: rest => some (['\x27', '\x27'], rest)
  | '\x27' :: '\x27' :: '\x27' :: '\x27' :: rest => some (['\x27'], rest)
  | '\x27' :: '\x27' :: '\x27' :: rest => some ([], rest)
  | '\r' :: '\n' :: rest => (literalLines rest).map (.cons '\n')
  | c :: rest => if isPlain c || c = '\n' then (literalLines rest).map (.cons c) else none
  | [] => none

/-- Drops a line break at the front. -/
def dropLineBreak : List Char → List Char
  | '\n' :: rest => rest
  | '\r' :: '\n' :: rest => rest
  | cs => cs

/-- A text on one line, as in a key. -/
def readLineText : List Char → Option TextRest
  | '\x22' :: rest => basicText rest
  | '\x27' :: rest => literalText rest
  | _ => none

/-- A text of any kind. -/
def readText : List Char → Option TextRest
  | '\x22' :: '\x22' :: '\x22' :: rest => basicLines false (dropLineBreak rest)
  | '\x27' :: '\x27' :: '\x27' :: rest => literalLines (dropLineBreak rest)
  | cs => readLineText cs

end QueryBuilder.Toml
