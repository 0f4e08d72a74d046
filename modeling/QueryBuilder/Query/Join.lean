import QueryBuilder.Query.Row

/-! Joining.

A query is joined to an association of its default source, a table, a relation or
another query. Without a condition of its own the join takes that of the association
which leads to the target.

A joined query over a single table that neither sorts, limits nor joins is flattened:
its table is joined directly, and its filters and projections are called on the rows
of the joining query, under the alias the table has there. With an outer join this is
done only when there are no filters, since these would otherwise drop the rows that
the outer join keeps. Any other query is kept as a nested source. -/
namespace QueryBuilder

/-- What is joined. -/
inductive JoinTarget where
  | association (name : String)
  | table (name : String)
  | relation (relation : RelationRef)
  | query (query : Query)

structure JoinOptions where
  kind : JoinKind := .inner
  label : Option String := none
  on : Option Predicate := none

namespace Query

/-- The alias is a source of the query or bound in its context. -/
def isTaken (q : Query) (label : String) : Bool :=
  q.hasSource label || (q.context.map (·.isBound label)).getD false

/-- The aliases of the query's sources, and what is bound in its context. -/
def takenNames (q : Query) : List String :=
  q.sources.map (·.label) ++ (q.context.map Scope.boundNames).getD []

theorem mem_takenNames {q : Query} {x : String} : x ∈ q.takenNames ↔ q.isTaken x := by
  rw [takenNames, isTaken, List.mem_append, Bool.or_eq_true, hasSource_iff, List.mem_map]
  refine or_congr Iff.rfl ?_
  cases q.context with
  | none => simp
  | some scope => exact Scope.mem_boundNames

/-- The alias for a new source: the requested one unless it is taken, or a fresh one. -/
def claimAlias (q : Query) (fallback : String) : Option String → Except Error String
  | some label => if q.isTaken label then .error (.aliasAlreadyUsed label) else .ok label
  | none => Alias.fresh fallback q.isTaken

/-- A claimed alias was not taken before. -/
theorem not_taken_of_claimAlias {q : Query} {fallback label : String} {requested : Option String}
    (h : q.claimAlias fallback requested = .ok label) : q.isTaken label = false := by
  unfold claimAlias at h
  split at h
  · split at h
    · simp at h
    · rename_i free
      obtain rfl := Except.ok.inj h
      simpa using free
  · exact Alias.not_taken_of_fresh h

/-- The condition of the association from the default source to `target`. -/
def derivedCondition (q : Query) (target : Option RelationRef) (targetName label : String) :
    Except Error Predicate :=
  let association := do (← q.defaultRelation).associationTo (← target)
  match association with
  | some a => .ok (a.predicate q.defaultSource label)
  | none => .error (.missingJoinCondition targetName)

/-- Joins along an association of the default source. -/
def joinAssociation (q : Query) (name : String) (options : JoinOptions) : Except Error Query :=
  match q.defaultRelation with
  | none => .error (.unknownAssociation q.defaultSource name)
  | some relation => do
    let association ← relation.association name
    let target ← relation.sibling association.target
    let label ← q.claimAlias name options.label
    let on := options.on.getD (association.predicate q.defaultSource label)
    .ok (q.attach ⟨label, .ofRelation target⟩ ⟨label, options.kind, on⟩)

/-- Joins a table that no schema knows; a condition has to be given. -/
def joinTable (q : Query) (table : String) (options : JoinOptions) : Except Error Query := do
  let label ← q.claimAlias table options.label
  match options.on with
  | none => .error (.missingJoinCondition table)
  | some on => .ok (q.attach ⟨label, .table table none⟩ ⟨label, options.kind, on⟩)

def joinRelation (q : Query) (relation : RelationRef) (options : JoinOptions) :
    Except Error Query := do
  let label ← q.claimAlias relation.name options.label
  let on ← match options.on with
    | some on => pure on
    | none => q.derivedCondition (some relation) relation.name label
  .ok (q.attach ⟨label, .ofRelation relation⟩ ⟨label, options.kind, on⟩)

/-! ### Flattening -/

/-- The single table of a query that may be merged into one that joins it. -/
def mergeableTable (q : Query) (kind : JoinKind) : Option DataSource :=
  match q.sources with
  | [⟨_, .table name relation⟩] =>
    if (kind = .inner || q.filters.isEmpty) && q.joins.isEmpty && q.sorting.isNone
        && q.limit.isNone then
      some (.table name relation)
    else none
  | _ => none

/-- The current row as the callbacks of `target` expect it, where the base source of
`target` has become `label`. -/
def mergedRow (target : Query) (label : String) : RowTerm :=
  .substitute (.rebase (.up 0) target.defaultSource) (Std.TreeMap.ofList [(target.baseSource, label)])

/-- The filters of `target` as filters of a query that joins it under `label`. -/
def mergedFilters (target : Query) (label : String) : List Predicate :=
  target.filters.map fun p => ⟨.call p (target.mergedRow label), []⟩

/-- The projections of `target` as projections of a query that joins it under `label`.
A query that projects everything adds all columns of its table. -/
def mergedProjections (target : Query) (label : String) : List Projection :=
  match target.projections with
  | [] => [⟨[.item (.star (.up 0) (some label)) none], []⟩]
  | projections =>
    projections.map fun p => ⟨[.callUnder label p (target.mergedRow label)], []⟩

/-- Merges `target` into the query, to which its table has been joined under `label`. A
query that projects everything goes on to do so. -/
def absorb (q target : Query) (label : String) : Query :=
  { q with
    includes := q.includes ++ target.includes
    filters := q.filters ++ target.mergedFilters label
    projections :=
      if q.projections.isEmpty then [] else q.projections ++ target.mergedProjections label }

/-- Joins a query, flattened if it can be. -/
def joinQuery (q target : Query) (options : JoinOptions) : Except Error Query := do
  let base := target.name.getD target.defaultSource
  let label ← q.claimAlias base options.label
  let on ← match options.on with
    | some on => pure on
    | none => q.derivedCondition target.defaultRelation base label
  let clause : JoinClause := ⟨label, options.kind, on⟩
  match target.mergeableTable options.kind with
  | some table => .ok ((q.attach ⟨label, table⟩ clause).absorb target label)
  | none => .ok (q.attach ⟨label, .nested target⟩ clause)

def join (q : Query) (target : JoinTarget) (options : JoinOptions := {}) : Except Error Query :=
  match target with
  | .association name => q.joinAssociation name options
  | .table name => q.joinTable name options
  | .relation relation => q.joinRelation relation options
  | .query query => q.joinQuery query options

end Query

namespace Selection

/-- The selection named under an alias: `label.name` for a name of its own or for a
plain column. -/
def under (label : String) (s : Selection) : Selection :=
  match s.label, s.expr with
  | some name, _ => { s with label := some (label ++ "." ++ name) }
  | none, .column _ name => { s with label := some (label ++ "." ++ name) }
  | none, _ => s

@[simp]
theorem expr_under (label : String) (s : Selection) : (s.under label).expr = s.expr := by
  unfold under
  split <;> rfl

end Selection

end QueryBuilder
