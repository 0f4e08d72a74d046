import QueryBuilder.Toml.Statement

/-! The document that statements describe.

A key is assigned once. A table is opened once by its header, but it may have come
into being before, when a table inside it was opened. Tables that arise from dotted
keys can be extended by dotted keys of the same table only, and inline tables and
arrays not at all. A path that leads through an array of tables means its last
element. -/
namespace QueryBuilder.Toml

mutual

/-- A table under construction. It is `implicit` while no header has opened it, and
`dotted` when it arose from a dotted key. -/
structure Node where
  entries : List (String × Item) := []
  implicit : Bool := false
  dotted : Bool := false

inductive Item where
  | value (v : Value)
  | table (node : Node)
  /-- An array of tables: its last element behind the others in reverse. -/
  | tables (last : Node) (before : List Node)

end

namespace Node

def find? (n : Node) (key : String) : Option Item := n.entries.lookup key

/-- Replaces or adds an entry. -/
def put (n : Node) (key : String) (item : Item) : Node :=
  if (n.find? key).isSome then
    { n with entries := n.entries.map fun (k, old) => if k = key then (k, item) else (k, old) }
  else { n with entries := n.entries ++ [(key, item)] }

/-- Adds an entry whose key is new. -/
def add? (n : Node) (key : String) (item : Item) : Option Node :=
  match n.find? key with
  | none => some (n.put key item)
  | some _ => none

/-- Changes the table at the end of a path. Tables that are missing on the way come into
being; dotted keys do not lead into a table that has a header of its own. -/
def update (dotted : Bool) (change : Node → Option Node) : Path → Node → Option Node
  | [], n => change n
  | key :: path, n =>
    match n.find? key with
    | none =>
      (update dotted change path { implicit := true, dotted }).map fun t => n.put key (.table t)
    | some (.value _) => none
    | some (.tables last before) =>
      (update dotted change path last).map fun t => n.put key (.tables t before)
    | some (.table t) =>
      if dotted && !t.implicit then none
      else (update dotted change path t).map fun t => n.put key (.table t)

/-- Assigns a value to a path relative to the table. A table that did not arise from
dotted keys is not extended through them. -/
def assign (path : Path) (v : Value) (n : Node) : Option Node :=
  match path.getLast? with
  | none => none
  | some key =>
    let outer := path.dropLast
    n.update true (fun t => if t.dotted = outer.isEmpty then none else t.add? key (.value v)) outer

end Node

mutual

def Node.toValue : Node → Value
  | { entries, .. } => .table (entriesToValues entries)

def entriesToValues : List (String × Item) → List (String × Value)
  | [] => []
  | (key, item) :: rest => (key, item.toValue) :: entriesToValues rest

def Item.toValue : Item → Value
  | .value v => v
  | .table node => node.toValue
  | .tables last before => .array ((last.toValue :: nodesToValues before).reverse)

def nodesToValues : List Node → List Value
  | [] => []
  | node :: rest => node.toValue :: nodesToValues rest

end

mutual

/-- The value of a written one, unless an inline table assigns a key twice. -/
def Written.toValue? : Written → Option Value
  | .value v => some v
  | .array items => (toValues? items).map .array
  | .inlineTable entries => (assignAll? {} entries).map Node.toValue

def toValues? : List Written → Option (List Value)
  | [] => some []
  | item :: rest =>
    match item.toValue?, toValues? rest with
    | some v, some vs => some (v :: vs)
    | _, _ => none

/-- Assigns the entries of an inline table in turn. -/
def assignAll? (n : Node) : List (Path × Written) → Option Node
  | [] => some n
  | (path, written) :: rest =>
    match written.toValue? with
    | none => none
    | some v =>
      match n.assign path v with
      | none => none
      | some n => assignAll? n rest

end

/-- A document as far as its statements have been read, and the path of the table that
is open. -/
structure Document where
  root : Node := {}
  current : Path := []

namespace Document

/-- Opens a table: a new one, or one that so far has no header. -/
def openTable (d : Document) (path : Path) : Option Document :=
  match path.getLast? with
  | none => none
  | some key =>
    let change (parent : Node) : Option Node :=
      match parent.find? key with
      | none => some (parent.put key (.table {}))
      | some (.table t) =>
        if t.implicit && !t.dotted then some (parent.put key (.table { t with implicit := false }))
        else none
      | some _ => none
    (d.root.update false change path.dropLast).map fun root => ⟨root, path⟩

/-- Opens a further table of an array of tables. -/
def openElement (d : Document) (path : Path) : Option Document :=
  match path.getLast? with
  | none => none
  | some key =>
    let change (parent : Node) : Option Node :=
      match parent.find? key with
      | none => some (parent.put key (.tables {} []))
      | some (.tables last before) => some (parent.put key (.tables {} (last :: before)))
      | some _ => none
    (d.root.update false change path.dropLast).map fun root => ⟨root, path⟩

/-- Assigns a value inside the open table. -/
def assign (d : Document) (path : Path) (v : Value) : Option Document :=
  (d.root.update false (·.assign path v) d.current).map fun root => { d with root }

def perform (d : Document) : Statement → Option Document
  | .openTable path => d.openTable path
  | .openElement path => d.openElement path
  | .assign path written => written.toValue?.bind (d.assign path)

end Document

/-- The value that a TOML text describes, always a table. -/
def Value.read (text : String) : Option Value := do
  let statements ← Statement.readAll text
  let document ← statements.foldlM Document.perform {}
  return document.root.toValue

end QueryBuilder.Toml
