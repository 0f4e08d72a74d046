import QueryBuilder.Sql.Compilation

/-! Running queries.

Compiled text is handed to an executor, which answers with rows or with an error of
its own; what it answers is passed on untouched. A query that does not compile is not
handed over. -/
namespace QueryBuilder

/-- What a statement does. -/
inductive StatementKind where
  | read
  | write
deriving DecidableEq, Repr

/-- Runs SQL text in the effects `m`; its rows are of type `ρ`. -/
structure Executor (m : Type → Type) (ρ : Type) where
  execute : String → StatementKind → m (Except Error (List ρ))

/-- Compiles a query and runs it as a statement that reads. Included queries are not
run. -/
def Query.get {m : Type → Type} [Monad m] {ρ : Type} (q : Query) (executor : Executor m ρ) :
    m (Except Fault (List ρ)) :=
  match q.toSql with
  | .error fault => pure (.error fault)
  | .ok sql => do return (← executor.execute sql .read).mapError .error

end QueryBuilder
