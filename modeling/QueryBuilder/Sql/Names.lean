import QueryBuilder.Query.Evaluation
import QueryBuilder.Sql.Tree
import Std.Data.TreeSet

/-! The names of a statement.

While a statement is compiled, every source of every level claims a display alias
that no other source has. A nested source becomes an entry of that name; since a name
in a `FROM` clause means the entry if there is one, an entry takes no name of a table
that the statement is known to read. A table that turns up later than an entry of its
name is refused. -/
namespace QueryBuilder.Sql

/-- What has been named so far. -/
structure Names where
  /-- The display aliases of all levels. -/
  used : Std.TreeSet String := ∅
  /-- The tables that the statement reads. -/
  tables : Std.TreeSet String := ∅
  /-- The names of entries. -/
  entryNames : Std.TreeSet String := ∅
  /-- The entries that no statement has taken yet, in the order of their dependence. -/
  pending : List Entry := []

namespace Names

/-- Nothing but these aliases is in use. -/
def reserving (aliases : List String) : Names := { used := Std.TreeSet.ofList aliases }

/-- Records tables that the statement reads. -/
def readTables (n : Names) (tables : List String) : Names :=
  { n with tables := n.tables.insertMany tables }

/-- A display alias made from the name of a source, not used and for an entry not the
name of a table. -/
def freshAlias (n : Names) (source : String) (isEntry : Bool) : Except Error String :=
  Alias.fresh source fun candidate =>
    n.used.contains candidate || (isEntry && n.tables.contains candidate)

/-- The names after an alias has been claimed. -/
def withAlias (n : Names) (label : String) (isEntry : Bool) : Names :=
  { n with
    used := n.used.insert label
    entryNames := if isEntry then n.entryNames.insert label else n.entryNames }

/-- Adds an entry behind the others. -/
def withEntry (n : Names) (entry : Entry) : Names := { n with pending := n.pending ++ [entry] }

end Names

/-- Compilation, where callbacks are evaluated in `m`: names are claimed on the way. -/
abbrev NamingIn (m : Type → Type) := StateT Names m

/-- Compilation by the program, which may end with a fault. -/
abbrev Naming := NamingIn (Except Fault)

/-- A computation that claims no name. -/
def checked {m : Type → Type} [Monad m] {α : Type} (result : m α) : NamingIn m α :=
  fun n => (·, n) <$> result

section
variable {m : Type → Type} [Evaluating m]

/-- A display alias for a source. -/
def claim (source : String) (isEntry : Bool) : NamingIn m String := fun n =>
  match n.freshAlias source isEntry with
  | .ok label => noting [label] (.ok (label, n.withAlias label isEntry))
  | .error e => settled (.error (.error e))

/-- Records that a table is read, unless an entry has its name. -/
def readTable (name : String) : NamingIn m Unit := fun n =>
  if n.entryNames.contains name then settled (.error (.error (.aliasAlreadyUsed name)))
  else noting [name] (.ok ((), n.readTables [name]))

/-- Records that tables may be read. -/
def reserve (tables : List String) : NamingIn m Unit := fun n =>
  noting tables (.ok ((), n.readTables tables))

end

@[simp]
theorem reserve_eq (tables : List String) :
    (reserve tables : Naming Unit) = modify (·.readTables tables) := rfl

theorem not_used_of_freshAlias {n : Names} {source label : String} {isEntry : Bool}
    (h : n.freshAlias source isEntry = .ok label) : label ∉ n.used := by
  have free := Alias.not_taken_of_fresh h
  rw [Bool.or_eq_false_iff] at free
  simpa [← Std.TreeSet.contains_iff_mem] using free.1

theorem claim_eq_ok_iff {source label : String} {isEntry : Bool} {n n' : Names} :
    claim source isEntry n = .ok (label, n') ↔
      n.freshAlias source isEntry = .ok label ∧ n' = n.withAlias label isEntry := by
  unfold claim
  cases n.freshAlias source isEntry <;> simp [eq_comm]
  rintro rfl
  simp

end QueryBuilder.Sql
