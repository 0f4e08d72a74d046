import QueryBuilder.Query.Basic

/-! Building queries.

Every operation gives a new query and leaves the one it is applied to as it was. -/
namespace QueryBuilder

/-- The data source of a registered relation. -/
def DataSource.ofRelation (relation : RelationRef) : DataSource :=
  .table relation.name (some relation)

namespace Query

/-- A query over one source. -/
def ofSource (label : String) (data : DataSource) : Query where
  name := none
  sources := [⟨label, data⟩]
  filters := []
  sorting := none
  projections := []
  joins := []
  includes := []
  context := none
  baseSource := label
  defaultSource := label
  limit := none

/-! ### Filters, sorting, names -/

/-- The name under which the query is joined by default. -/
def named (q : Query) (name : String) : Query := { q with name := some name }

def take (q : Query) (count : Nat) : Query := { q with limit := some count }

/-- Adds a condition; all conditions have to hold. -/
def filter (q : Query) (condition : Predicate) : Query :=
  { q with filters := q.filters ++ [condition] }

/-- Replaces the sorting. -/
def sortBy (q : Query) (sorting : Sorting) : Query := { q with sorting := some sorting }

/-- Records a query to be fetched alongside this one. -/
def including (q related : Query) : Query := { q with includes := q.includes ++ [related] }

/-- The query as built inside a callback with this scope. -/
def withContext (q : Query) (scope : Scope) : Query := { q with context := some scope }

/-! ### Projections -/

/-- Drops every projection, so that all columns are selected. -/
def selectNone (q : Query) : Query := { q with projections := [] }

/-- Replaces the projections. -/
def select (q : Query) (projection : Projection) : Query := { q with projections := [projection] }

/-- The projection that stands for an empty list of projections. -/
def everything : Projection := ⟨[.item (.value (.raw "*")) none], []⟩

/-- Adds a projection behind the others, or behind `*` when there are none. -/
def andSelect (q : Query) (projection : Projection) : Query :=
  match q.projections with
  | [] => { q with projections := [everything, projection] }
  | projections => { q with projections := projections ++ [projection] }

/-- Adds a source, and the clause that joins it. -/
def attach (q : Query) (source : Source) (join : JoinClause) : Query :=
  { q with sources := q.sources ++ [source], joins := q.joins ++ [join] }

theorem hasSource_attach (q : Query) (source : Source) (join : JoinClause) (label : String) :
    (q.attach source join).hasSource label = (q.hasSource label || source.label = label) := by
  simp [hasSource, source?, attach, List.find?_append]
  cases q.sources.find? (·.label = label) <;> simp
  by_cases h : source.label = label <;> simp [h]

end Query

namespace SelectionTerm

/-- A column of the current row's default source, under its own name or another. -/
def column (name : String) (label : Option String := none) : SelectionTerm :=
  .item (.column (.up 0) none name) label

/-- A column of a source of the current row. -/
def columnOf (source name : String) : SelectionTerm :=
  .item (.column (.up 0) (some source) name) none

end SelectionTerm

namespace Query

/-- A query over a table that no schema knows, aliased by its name unless an alias is
given. The listed columns are projected, or all of them when none is listed. -/
def ofTable (table : String) (label : Option String := none) (columns : List String := []) :
    Query :=
  let label := label.getD table
  let q := ofSource label (.table table none)
  if columns.isEmpty then q
  else q.select ⟨columns.map (SelectionTerm.columnOf label), []⟩

/-- A query over a registered relation, aliased by its name unless an alias is given. -/
def ofRelation (relation : RelationRef) (label : Option String := none) : Query :=
  ofSource (label.getD relation.name) (.ofRelation relation)

end Query

end QueryBuilder
