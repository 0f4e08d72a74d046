import QueryBuilder.Toml.Scalar
import QueryBuilder.Toml.Text

/-! The statements of a TOML text.

A text is a list of lines, each of which assigns a value to a key, opens a table, or
opens a further table of an array. Keys are paths. Values nest through arrays, which
may go over several lines, and inline tables, which may not; they nest to a bounded
depth, and so do keys. -/
namespace QueryBuilder.Toml

/-- Keys, outermost first. -/
abbrev Path := List String

/-- Values nest less deep than this, and paths are shorter. -/
def maxDepth : Nat := 80

/-- A value as it is written: the entries of an inline table still have paths. -/
inductive Written where
  | value (v : Value)
  | array (items : List Written)
  | inlineTable (entries : List (Path × Written))

inductive Statement where
  | assign (path : Path) (value : Written)
  | openTable (path : Path)
  | openElement (path : Path)

/-! ### Blanks -/

def dropBlanks (cs : List Char) : List Char := cs.dropWhile isBlank

/-- Drops blanks, line breaks and comments; `inComment` is true inside a comment. -/
def dropLines (inComment : Bool) : List Char → Option (List Char)
  | [] => some []
  | '\n' :: rest => dropLines false rest
  | '\r' :: '\n' :: rest => dropLines false rest
  | c :: rest =>
    if inComment then if isPlain c then dropLines true rest else none
    else if isBlank c then dropLines false rest
    else if c = '#' then dropLines true rest
    else some (c :: rest)

/-- Drops what may stand behind a statement, to the end of its line. -/
def dropLineEnd (cs : List Char) : Option (List Char) :=
  let atEnd : List Char → Option (List Char)
    | [] => some []
    | '\n' :: rest => some rest
    | '\r' :: '\n' :: rest => some rest
    | _ => none
  match dropBlanks cs with
  | '#' :: rest => atEnd (rest.dropWhile isPlain)
  | rest => atEnd rest

/-! ### Keys -/

/-- A character of a key without quotes. -/
def isBare (c : Char) : Bool := c.isAlphanum || c = '-' || c = '_'

/-- A single key with the blanks around it. -/
def readKeyPart (cs : List Char) : Option (String × List Char) :=
  let cs := dropBlanks cs
  let part := match cs with
    | '\x22' :: _ => readLineText cs
    | '\x27' :: _ => readLineText cs
    | cs =>
      let bare := cs.takeWhile isBare
      if bare.isEmpty then none else some (bare, cs.drop bare.length)
  part.map fun (key, rest) => (String.ofList key, dropBlanks rest)

/-- Keys with points between them, at most `parts` many. -/
def readKeyParts : (parts : Nat) → List Char → Option (Path × List Char)
  | 0, _ => none
  | parts + 1, cs =>
    match readKeyPart cs with
    | none => none
    | some (key, '.' :: rest) => (readKeyParts parts rest).map fun (keys, rest) => (key :: keys, rest)
    | some (key, rest) => some ([key], rest)

def readPath (cs : List Char) : Option (Path × List Char) := readKeyParts (maxDepth - 1) cs

/-! ### Values -/

/-- A character that ends a word. -/
def endsWord (c : Char) : Bool :=
  isBlank c || c = '\n' || c = '\r' || c = '#' || c = ',' || c = ']' || c = '\x7d'

/-- The word in front. A date goes on behind a space when a digit follows. -/
def splitWord (cs : List Char) : List Char × List Char :=
  let word := cs.takeWhile (!endsWord ·)
  let rest := cs.drop word.length
  match rest with
  | ' ' :: c :: _ =>
    if c.isDigit && readDate word == some [] then
      let time := (rest.drop 1).takeWhile (!endsWord ·)
      (word ++ ' ' :: time, rest.drop (1 + time.length))
    else (word, rest)
  | rest => (word, rest)

/-- How the values inside a collection are read. -/
abbrev ValueReader := List Char → Option (Written × List Char)

/-- The elements of an array, to the bracket at its end; each one takes a character, so
there are at most `steps`. -/
def readElements (read : ValueReader) : (steps : Nat) → List Char → Option (List Written × List Char)
  | 0, _ => none
  | steps + 1, cs =>
    match dropLines false cs with
    | some (']' :: rest) => some ([], rest)
    | some cs =>
      match read cs with
      | none => none
      | some (v, rest) =>
        match dropLines false rest with
        | some (',' :: rest) => (readElements read steps rest).map fun (vs, rest) => (v :: vs, rest)
        | some (']' :: rest) => some ([v], rest)
        | _ => none
    | none => none

/-- One entry of an inline table. -/
def readEntry (read : ValueReader) (cs : List Char) : Option ((Path × Written) × List Char) :=
  match readPath cs with
  | some (path, '=' :: rest) =>
    (read (dropBlanks rest)).map fun (v, rest) => ((path, v), dropBlanks rest)
  | _ => none

/-- The entries of an inline table that has any, to the brace at its end. -/
def readEntries (read : ValueReader) :
    (steps : Nat) → List Char → Option (List (Path × Written) × List Char)
  | 0, _ => none
  | steps + 1, cs =>
    match readEntry read cs with
    | some (entry, ',' :: rest) =>
      (readEntries read steps rest).map fun (entries, rest) => (entry :: entries, rest)
    | some (entry, '\x7d' :: rest) => some ([entry], rest)
    | _ => none

/-- A value in which collections nest to the given depth. -/
def readValue : (depth : Nat) → ValueReader
  | _, '\x22' :: rest => ofText ('\x22' :: rest)
  | _, '\x27' :: rest => ofText ('\x27' :: rest)
  | depth, '[' :: rest =>
    match depth with
    | 0 => none
    | depth + 1 =>
      (readElements (readValue depth) (rest.length + 1) rest).map fun (vs, rest) => (.array vs, rest)
  | depth, '\x7b' :: rest =>
    match depth with
    | 0 => none
    | depth + 1 =>
      match dropBlanks rest with
      | '\x7d' :: rest => some (.inlineTable [], rest)
      | rest =>
        (readEntries (readValue depth) (rest.length + 1) rest).map fun (entries, rest) =>
          (.inlineTable entries, rest)
  | _, cs =>
    let (word, rest) := splitWord cs
    (Value.ofWord word).map fun v => (.value v, rest)
where
  /-- A text as a value. -/
  ofText (cs : List Char) : Option (Written × List Char) :=
    (readText cs).map fun (s, rest) => (.value (.text (String.ofList s)), rest)

/-! ### Lines -/

/-- The path of a header, to the brackets that close it. -/
def readHeader (closing : List Char) (cs : List Char) : Option (Path × List Char) :=
  match readPath cs with
  | none => none
  | some (path, rest) =>
    if closing.isPrefixOf rest then some (path, rest.drop closing.length) else none

/-- The statement in front, with its line. -/
def readStatement (cs : List Char) : Option (Statement × List Char) := do
  match cs with
  | '[' :: '[' :: rest =>
    let (path, rest) ← readHeader [']', ']'] rest
    return (.openElement path, ← dropLineEnd rest)
  | '[' :: rest =>
    let (path, rest) ← readHeader [']'] rest
    return (.openTable path, ← dropLineEnd rest)
  | cs =>
    match ← readPath cs with
    | (path, '=' :: rest) =>
      let (v, rest) ← readValue (maxDepth - 1) (dropBlanks rest)
      return (.assign path v, ← dropLineEnd rest)
    | _ => none

/-- All statements; each one takes a character, so there are at most `steps`. -/
def readStatements : (steps : Nat) → List Char → Option (List Statement)
  | 0, _ => none
  | steps + 1, cs =>
    match dropLines false cs with
    | none => none
    | some [] => some []
    | some cs =>
      match readStatement cs with
      | none => none
      | some (s, rest) => (readStatements steps rest).map (s :: ·)

/-- The statements of a text, which may begin with a byte order mark. -/
def Statement.readAll (text : String) : Option (List Statement) :=
  let cs := match text.toList with
    | '\uFEFF' :: rest => rest
    | cs => cs
  readStatements (cs.length + 1) cs

end QueryBuilder.Toml
