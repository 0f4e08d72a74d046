import QueryBuilder.Query.Builder
import QueryBuilder.Alias

/-! Rows.

A row gives the columns of its query's sources, and follows associations. A name
that a row is asked for passes through the row's substitutions first, so that a
callback written against one query can be called for another in which its sources
have other aliases.

Following an association from a row starts a query over the other relation, in the
scope of the row and restricted by the association's condition. From a fetched row
the association is joined into that same query instead. -/
namespace QueryBuilder

/-- The scope of a query outside of any compilation: every source under its own name,
inside the query's context. -/
def Query.ownScope (q : Query) : Scope :=
  q.sources.foldl (fun scope s => scope.bind s.label ⟨s.label, s.data.relation⟩)
    (Scope.child q.context)

namespace Row

/-- A row of a query whose sources are visible in `scope`. -/
def bound (q : Query) (scope : Scope) : Row where
  query := q
  substitutions := []
  defaultSource := q.defaultSource
  scope := scope
  fetched := false

/-- A row of a query outside of any compilation. -/
def ofQuery (q : Query) : Row := bound q q.ownScope

/-- Puts a substitution in front of the others. -/
def substituting (r : Row) (names : Substitution) : Row :=
  { r with substitutions := names :: r.substitutions }

def rebase (r : Row) (source : String) : Row := { r with defaultSource := source }

/-- Narrows the query of the row. -/
def filter (r : Row) (condition : Predicate) : Row :=
  { r with query := r.query.filter condition }

/-- The name that a source stands for after every substitution. -/
def substitute (r : Row) (source : String) : String :=
  r.substitutions.foldl (fun name names => names.getD name name) source

@[simp]
theorem substitute_nil {r : Row} (h : r.substitutions = []) (source : String) :
    r.substitute source = source := by
  simp [substitute, h]

/-- A new substitution is applied before all others. -/
theorem substitute_substituting (r : Row) (names : Substitution) (source : String) :
    (r.substituting names).substitute source = r.substitute (names.getD source source) := rfl

/-! ### Columns -/

def columnOf (r : Row) (source name : String) : Expr Query := .column (r.substitute source) name

def column (r : Row) (name : String) : Expr Query := r.columnOf r.defaultSource name

def starOf (r : Row) (source : String) : Expr Query := .star (r.substitute source)

def star (r : Row) : Expr Query := r.starOf r.defaultSource

end Row

/-! ### Conditions of associations -/

namespace Association

/-- The aliases of the master and of the slave, where the declaring side has the alias
`owner` and the other side the alias `target`. -/
def sides (a : Association) (owner target : String) : String × String :=
  match a.direction with
  | .hasMany => (owner, target)
  | .belongsTo => (target, owner)

/-- The condition that ties the two sides together: every pair of keys is equal. -/
def condition (a : Association) (row : Row) (owner target : String) : Expr Query :=
  let (master, slave) := a.sides owner target
  let equalities := a.keyPairs.map fun (masterKey, slaveKey) =>
    (row.columnOf master masterKey).apply .eq (row.columnOf slave slaveKey)
  match equalities with
  | [] => .raw "TRUE"
  | first :: rest => rest.foldl (Expr.apply .and) first

/-- The condition as a callback. -/
def predicate (a : Association) (owner target : String) : Predicate :=
  ⟨.condition a owner target (.up 0), []⟩

/-- The clause that joins the other side under the alias `target`. -/
def joinClause (a : Association) (owner target : String) (kind : JoinKind) : JoinClause :=
  ⟨target, kind, a.predicate owner target⟩

end Association

namespace Row

/-! ### Following associations -/

/-- The relation behind a source of the row's query, or else behind a source in
scope. -/
def relationOf (r : Row) (source : String) : Except Error (Option RelationRef) :=
  match r.query.source? source with
  | some data => .ok data.relation
  | none =>
    match r.scope.lookup source with
    | some binding => .ok binding.relation
    | none => .error (.unresolvedSource source)

/-- The alias is a source of the row's query or bound in its scope. -/
def isVisible (r : Row) (label : String) : Bool := r.query.hasSource label || r.scope.isBound label

/-- The aliases of the sources of the row's query, and what is bound in its scope. -/
def visibleNames (r : Row) : List String := r.query.sources.map (·.label) ++ r.scope.boundNames

theorem mem_visibleNames {r : Row} {x : String} : x ∈ r.visibleNames ↔ r.isVisible x := by
  rw [visibleNames, isVisible, List.mem_append, Bool.or_eq_true, Query.hasSource_iff, List.mem_map,
    Scope.mem_boundNames]

/-- The alias for a fetched relation: the requested one unless it is visible, or a
fresh one made from the association's name. -/
def claimAlias (r : Row) (association : String) : Option String → Except Error String
  | some label => if r.isVisible label then .error (.aliasAlreadyUsed label) else .ok label
  | none => Alias.fresh association r.isVisible

/-- A claimed alias was not visible before. -/
theorem not_visible_of_claimAlias {r : Row} {association label : String}
    {requested : Option String} (h : r.claimAlias association requested = .ok label) :
    r.isVisible label = false := by
  unfold claimAlias at h
  split at h
  · split at h
    · simp at h
    · rename_i free
      obtain rfl := Except.ok.inj h
      simpa using free
  · exact Alias.not_taken_of_fresh h

/-- Follows the association `name` of `source`. -/
def fetchFrom (r : Row) (source name : String) (label : Option String := none) :
    Except Error Row := do
  let owner := r.substitute source
  match ← r.relationOf owner with
  | none => .error (.unknownAssociation owner name)
  | some relation =>
    let association ← relation.association name
    let target ← relation.sibling association.target
    let label ← r.claimAlias name label
    if r.fetched then
      let joined := r.query.attach ⟨label, .ofRelation target⟩
        (association.joinClause owner label .inner)
      .ok { r with query := joined, defaultSource := label }
    else
      let correlated := ((Query.ofRelation target label).withContext r.scope).filter
        (association.predicate owner label)
      .ok
        { query := correlated
          substitutions := []
          defaultSource := label
          scope := r.scope
          fetched := true }

/-- Follows an association of the default source. -/
def fetch (r : Row) (name : String) (label : Option String := none) : Except Error Row :=
  r.fetchFrom r.defaultSource name label

/-! ### Subqueries over the row's query -/

/-- The value of an aggregate function over a column of the row's query. -/
def aggregate (r : Row) (function : Aggregate) (column : String) : Expr Query :=
  let argument := Expr.unary (function.function ++ "(") (r.column column) ")"
  .subquery (r.query.select ⟨[.item (.value argument) function.label], []⟩)

/-- Whether the row's query has any rows. -/
def existsRow (r : Row) : Expr Query :=
  .unary "EXISTS " (.subquery (r.query.select ⟨[.item (.value (.raw "1")) none], []⟩)) ""

end Row

end QueryBuilder
