import QueryBuilder.Proofs.FetchChains

/-! Tables that callbacks can reach.

A callback has no tables of its own. It reaches others from the rows that it is called with: an
association leads from a relation to a relation of the same schema, and what a row can see are the
sources of its query and of the scopes around it. If all of these are known together with their
schemas, so is everything that the callback embeds, however far it follows associations and however
often it narrows what it has reached by callbacks of the same kind.

For this the callback may take the queries of no other rows, build no queries and ask for no aliases
of its own. Reading a column embeds nothing, so columns may be those of any row. -/
namespace QueryBuilder

/-! ### Outcomes without a refused alias -/

variable {α β : Type}

/-- The outcome is a value with the property, or a fault other than that an alias is in use. -/
inductive Accepted (x : Except Fault α) (post : α → Prop) : Prop
  | ok {a} : x = .ok a → post a → Accepted x post
  | error {fault} : x = .error fault → (∀ label, fault ≠ .error (.aliasAlreadyUsed label)) →
      Accepted x post

namespace Accepted
variable {x : Except Fault α} {p q : α → Prop} {r : β → Prop}

theorem ne_aliasAlreadyUsed (h : Accepted x p) (label : String) :
    x ≠ .error (.error (.aliasAlreadyUsed label)) := by
  cases h with
  | ok hx => simp [hx]
  | error hx hfault => simpa [hx] using hfault label

theorem imp (h : Accepted x p) (hpq : ∀ a, p a → q a) : Accepted x q := by
  cases h with
  | ok hx ha => exact .ok hx (hpq _ ha)
  | error hx hfault => exact .error hx hfault

theorem pure {a : α} (h : p a) : Accepted (Pure.pure a) p := .ok rfl h

theorem lift {x : Except Error α} (hok : ∀ a, x = .ok a → p a)
    (herror : ∀ label, x ≠ .error (.aliasAlreadyUsed label)) : Accepted (liftM x) p := by
  cases x with
  | ok a => exact .ok rfl (hok a rfl)
  | error e => exact .error rfl (by simpa using herror)

theorem bind {f : α → Except Fault β} (hx : Accepted x p) (hf : ∀ a, p a → Accepted (f a) r) :
    Accepted (x >>= f) r := by
  cases hx with
  | ok hx ha =>
    subst hx
    exact hf _ ha
  | error hx hfault =>
    subst hx
    exact .error rfl hfault

theorem mapM {f : α → Except Fault β} {xs : List α} (h : ∀ a ∈ xs, Accepted (f a) r) :
    Accepted (xs.mapM f) fun ys => ∀ y ∈ ys, r y := by
  induction xs with
  | nil => exact .pure (by simp)
  | cons a xs ih =>
    rw [List.mapM_cons]
    refine (h a (List.mem_cons_self ..)).bind fun y hy => ?_
    refine (ih fun a ha => h a (List.mem_cons_of_mem _ ha)).bind fun ys hys => .pure ?_
    exact List.forall_mem_cons.mpr ⟨hy, hys⟩

end Accepted

theorem Alias.fresh_ne_aliasAlreadyUsed (base : String) (taken : String → Bool) (label : String) :
    fresh base taken ≠ .error (.aliasAlreadyUsed label) := by
  unfold fresh
  split
  · split <;> simp
  · simp

/-- An association that is followed without asking for an alias finds one, or there is none
left. -/
theorem Row.fetchFrom_ne_aliasAlreadyUsed (r : Row) (source name label : String) :
    r.fetchFrom source name ≠ .error (.aliasAlreadyUsed label) := by
  intro h
  simp only [fetchFrom, except_bind_eq_error_iff] at h
  rcases h with h | ⟨found, -, h⟩
  · unfold relationOf at h
    split at h
    · cases h
    · split at h <;> cases h
  · cases found with
    | none => cases h
    | some relation =>
      simp only [except_bind_eq_error_iff] at h
      rcases h with h | ⟨association, -, h | ⟨target, -, h | ⟨fresh, -, h⟩⟩⟩
      · unfold RelationRef.association Relation.association at h
        split at h <;> cases h
      · unfold RelationRef.sibling FrozenSchema.reference at h
        split at h <;> simp at h
      · exact Alias.fresh_ne_aliasAlreadyUsed name r.isVisible label h
      · split at h <;> cases h

/-! ### Callbacks that reach what their rows lead to -/

/-- What a row is there for: to read its columns, or to embed its query. -/
inductive Access where
  | reading
  | embedding

mutual

/-- Terms for rows, in so many callbacks inside one another. The rows that are embedded are those
of these callbacks, and what they lead to by associations. -/
inductive RowTerm.Traverses : Access → Nat → RowTerm → Prop
  | up {access n level} : level < n → RowTerm.Traverses access n (.up level)
  | outer {n level} : RowTerm.Traverses .reading n (.up level)
  | value {n row} : RowTerm.Traverses .reading n (.value row)
  | fetch {access n row source association} : RowTerm.Traverses .embedding n row →
      RowTerm.Traverses access n (.fetch row source association none)
  | filter {access n row condition} : RowTerm.Traverses .embedding n row →
      ExprTerm.Traverses (n + 1) condition → RowTerm.Traverses access n (.filter row condition)
  | substitute {access n row names} : RowTerm.Traverses access n row →
      RowTerm.Traverses access n (.substitute row names)
  | rebase {access n row source} : RowTerm.Traverses access n row →
      RowTerm.Traverses access n (.rebase row source)
  | fail {access n fault} : (∀ label, fault ≠ .error (.aliasAlreadyUsed label)) →
      RowTerm.Traverses access n (.fail fault)

inductive ExprTerm.Traverses : Nat → ExprTerm → Prop
  | value {n} {e : Expr Query} : e.subqueries = [] → ExprTerm.Traverses n (.value e)
  | column {n row source name} : RowTerm.Traverses .reading n row →
      ExprTerm.Traverses n (.column row source name)
  | star {n row source} : RowTerm.Traverses .reading n row →
      ExprTerm.Traverses n (.star row source)
  | unary {n before operand after} : ExprTerm.Traverses n operand →
      ExprTerm.Traverses n (.unary before operand after)
  | binary {n fragments left right} : ExprTerm.Traverses n left → ExprTerm.Traverses n right →
      ExprTerm.Traverses n (.binary fragments left right)
  | apply {n op left right} : ExprTerm.Traverses n left → ExprTerm.Traverses n right →
      ExprTerm.Traverses n (.apply op left right)
  | applyRightFirst {n op right left} : ExprTerm.Traverses n right → ExprTerm.Traverses n left →
      ExprTerm.Traverses n (.applyRightFirst op right left)
  | aggregate {n function column row} : RowTerm.Traverses .embedding n row →
      ExprTerm.Traverses n (.aggregate function column row)
  | existsRow {n row} : RowTerm.Traverses .embedding n row →
      ExprTerm.Traverses n (.existsRow row)
  | subquery {n query} : QueryTerm.Traverses n query → ExprTerm.Traverses n (.subquery query)
  | condition {n association owner target row} : RowTerm.Traverses .reading n row →
      ExprTerm.Traverses n (.condition association owner target row)
  | call {n row} {p : Predicate} : ExprTerm.Traverses 1 p.body →
      RowTerm.Traverses .embedding n row → ExprTerm.Traverses n (.call p row)
  | callFilter {n query index row} : QueryTerm.Traverses n query →
      RowTerm.Traverses .embedding n row → ExprTerm.Traverses n (.callFilter query index row)
  | callJoin {n query index row} : QueryTerm.Traverses n query →
      RowTerm.Traverses .embedding n row → ExprTerm.Traverses n (.callJoin query index row)
  | fail {n fault} : (∀ label, fault ≠ .error (.aliasAlreadyUsed label)) →
      ExprTerm.Traverses n (.fail fault)

inductive SelectionTerm.Traverses : Nat → SelectionTerm → Prop
  | item {n expr label} : ExprTerm.Traverses n expr → SelectionTerm.Traverses n (.item expr label)
  | call {n row} {p : Projection} : (∀ t ∈ p.body, SelectionTerm.Traverses 1 t) →
      RowTerm.Traverses .embedding n row → SelectionTerm.Traverses n (.call p row)
  | callUnder {n label row} {p : Projection} : (∀ t ∈ p.body, SelectionTerm.Traverses 1 t) →
      RowTerm.Traverses .embedding n row → SelectionTerm.Traverses n (.callUnder label p row)
  | callProjection {n query index row} : QueryTerm.Traverses n query →
      RowTerm.Traverses .embedding n row →
      SelectionTerm.Traverses n (.callProjection query index row)

/-- The query of a row, which may be narrowed, sorted, limited and selected from. -/
inductive QueryTerm.Traverses : Nat → QueryTerm → Prop
  | ofRow {n row} : RowTerm.Traverses .embedding n row → QueryTerm.Traverses n (.ofRow row)
  | named {n query name} : QueryTerm.Traverses n query →
      QueryTerm.Traverses n (.named query name)
  | limit {n query count} : QueryTerm.Traverses n query →
      QueryTerm.Traverses n (.limit query count)
  | selectNone {n query} : QueryTerm.Traverses n query → QueryTerm.Traverses n (.selectNone query)
  | filter {n query condition} : QueryTerm.Traverses n query →
      ExprTerm.Traverses (n + 1) condition → QueryTerm.Traverses n (.filter query condition)
  | sortBy {n query} {keys : List SortTerm} : QueryTerm.Traverses n query →
      (∀ k ∈ keys, ExprTerm.Traverses (n + 1) k.expr) → QueryTerm.Traverses n (.sortBy query keys)
  | select {n query} {items : List SelectionTerm} : QueryTerm.Traverses n query →
      (∀ t ∈ items, SelectionTerm.Traverses (n + 1) t) →
      QueryTerm.Traverses n (.select query items)
  | andSelect {n query} {items : List SelectionTerm} : QueryTerm.Traverses n query →
      (∀ t ∈ items, SelectionTerm.Traverses (n + 1) t) →
      QueryTerm.Traverses n (.andSelect query items)

end

/-! ### What is confined to some tables -/

/-- All tables of the relation's schema are among these. -/
def RelationRef.Confined (tables : List String) (r : RelationRef) : Prop :=
  ∀ other ∈ r.home.schema.relations, other.name ∈ tables

/-- The relations behind the names of the scope are. -/
def Scope.Confined (tables : List String) (scope : Scope) : Prop :=
  ∀ label binding relation, scope.lookup label = some binding → binding.relation = some relation →
    relation.Confined tables

mutual

inductive DataSource.Confined (tables : List String) : DataSource → Prop
  | table {name relation} : name ∈ tables →
      (∀ r, relation = some r → RelationRef.Confined tables r) →
      DataSource.Confined tables (.table name relation)
  | nested {query} : Query.Confined tables query → DataSource.Confined tables (.nested query)

/-- Compiling the query reads no other tables: its sources are among them, and its callbacks have
only confined rows within reach. -/
inductive Query.Confined (tables : List String) : Query → Prop
  | mk {q : Query} : (∀ s ∈ q.sources, DataSource.Confined tables s.data) →
      (∀ scope, q.context = some scope → scope.Confined tables) →
      (∀ p ∈ q.filters, Predicate.Confined tables p) →
      (∀ s, q.sorting = some s → Sorting.Confined tables s) →
      (∀ p ∈ q.projections, Projection.Confined tables p) →
      (∀ j ∈ q.joins, Predicate.Confined tables j.on) → Query.Confined tables q

inductive Row.Confined (tables : List String) : Row → Prop
  | mk {r : Row} : Query.Confined tables r.query → r.scope.Confined tables →
      Row.Confined tables r

inductive Predicate.Confined (tables : List String) : Predicate → Prop
  | mk {p : Predicate} (n : Nat) : p.body.Traverses (n + 1) →
      (∀ r ∈ p.captured.take n, Row.Confined tables r) → Predicate.Confined tables p

inductive Projection.Confined (tables : List String) : Projection → Prop
  | mk {p : Projection} (n : Nat) : (∀ t ∈ p.body, t.Traverses (n + 1)) →
      (∀ r ∈ p.captured.take n, Row.Confined tables r) → Projection.Confined tables p

inductive Sorting.Confined (tables : List String) : Sorting → Prop
  | mk {s : Sorting} (n : Nat) : (∀ k ∈ s.body, k.expr.Traverses (n + 1)) →
      (∀ r ∈ s.captured.take n, Row.Confined tables r) → Sorting.Confined tables s

end

/-- Every query in the expression is confined. -/
def Expr.Confined (tables : List String) (e : Expr Query) : Prop :=
  ∀ q ∈ e.subqueries, q.Confined tables

section
variable {tables : List String}

/-! ### Scopes -/

theorem Scope.confined_child {parent : Option Scope}
    (h : ∀ scope, parent = some scope → scope.Confined tables) :
    (Scope.child parent).Confined tables := by
  cases parent with
  | none => simp [Scope.Confined]
  | some scope =>
    intro label binding relation hlookup
    rw [lookup_child_some] at hlookup
    exact h scope rfl label binding relation hlookup

theorem Scope.Confined.bind {scope : Scope} (h : scope.Confined tables) {source : String}
    {binding : Binding} (hbinding : ∀ r, binding.relation = some r → r.Confined tables) :
    (scope.bind source binding).Confined tables := by
  intro label binding' relation hlookup hrelation
  rw [lookup_bind] at hlookup
  split at hlookup
  · cases hlookup
    exact hbinding relation hrelation
  · exact h label binding' relation hlookup hrelation

/-! ### Queries and their rows -/

theorem RelationRef.Confined.name_mem {r : RelationRef} (h : r.Confined tables) :
    r.name ∈ tables :=
  h r.relation (List.getElem_mem _)

/-- Associations lead to relations of the same schema. -/
theorem RelationRef.Confined.sibling {r target : RelationRef} (h : r.Confined tables) {id : Nat}
    (htarget : r.sibling id = .ok target) : target.Confined tables := by
  unfold RelationRef.sibling FrozenSchema.reference at htarget
  split at htarget
  · cases htarget
    exact h
  · cases htarget

theorem DataSource.confined_ofRelation {r : RelationRef} (h : r.Confined tables) :
    (DataSource.ofRelation r).Confined tables :=
  .table h.name_mem fun _ hr => Option.some.inj hr ▸ h

theorem Association.predicate_confined (a : Association) (owner target : String) :
    (a.predicate owner target).Confined tables :=
  .mk 0 (.condition .outer) (by simp)

namespace Query.Confined
variable {q : Query}

theorem source (h : q.Confined tables) {s : Source} (hs : s ∈ q.sources) :
    s.data.Confined tables := by
  cases h with
  | mk hsources => exact hsources s hs

theorem source? (h : q.Confined tables) {label : String} {data : DataSource}
    (hs : q.source? label = some data) : data.Confined tables := by
  obtain ⟨s, hfind, rfl⟩ := Option.map_eq_some_iff.mp hs
  exact h.source (List.mem_of_find?_eq_some hfind)

theorem filter_mem (h : q.Confined tables) {p : Predicate} (hp : p ∈ q.filters) :
    p.Confined tables := by
  cases h with
  | mk _ _ hfilters => exact hfilters p hp

theorem sorting_mem (h : q.Confined tables) {s : Sorting} (hs : q.sorting = some s) :
    s.Confined tables := by
  cases h with
  | mk _ _ _ hsorting => exact hsorting s hs

theorem projection_mem (h : q.Confined tables) {p : Projection} (hp : p ∈ q.projections) :
    p.Confined tables := by
  cases h with
  | mk _ _ _ _ hprojections => exact hprojections p hp

theorem join_mem (h : q.Confined tables) {j : JoinClause} (hj : j ∈ q.joins) :
    j.on.Confined tables := by
  cases h with
  | mk _ _ _ _ _ hjoins => exact hjoins j hj

theorem context_mem (h : q.Confined tables) {scope : Scope} (hscope : q.context = some scope) :
    scope.Confined tables := by
  cases h with
  | mk _ hcontext => exact hcontext scope hscope

theorem filter (h : q.Confined tables) {p : Predicate} (hp : p.Confined tables) :
    (q.filter p).Confined tables := by
  cases h with
  | mk hs hc hf ho hprojections hj =>
    exact .mk hs hc (List.forall_mem_append.mpr ⟨hf, by simpa using hp⟩) ho hprojections hj

theorem sortBy (h : q.Confined tables) {s : Sorting} (hsorting : s.Confined tables) :
    (q.sortBy s).Confined tables := by
  cases h with
  | mk hs hc hf _ hp hj => exact .mk hs hc hf (fun _ hs' => Option.some.inj hs' ▸ hsorting) hp hj

theorem withProjections (h : q.Confined tables) {projections : List Projection}
    (hp : ∀ p ∈ projections, p.Confined tables) :
    ({ q with projections } : Query).Confined tables := by
  cases h with
  | mk hs hc hf ho _ hj => exact .mk hs hc hf ho hp hj

theorem attach (h : q.Confined tables) {source : Source} {join : JoinClause}
    (hsource : source.data.Confined tables) (hon : join.on.Confined tables) :
    (q.attach source join).Confined tables := by
  cases h with
  | mk hs hc hf ho hp hj =>
    exact .mk (List.forall_mem_append.mpr ⟨hs, by simpa using hsource⟩) hc hf ho hp
      (List.forall_mem_append.mpr ⟨hj, by simpa using hon⟩)

/-- Names and limits have no part in compiling. -/
theorem of_eq {q' : Query} (h : q.Confined tables) (hs : q'.sources = q.sources)
    (hc : q'.context = q.context) (hf : q'.filters = q.filters) (ho : q'.sorting = q.sorting)
    (hp : q'.projections = q.projections) (hj : q'.joins = q.joins) : q'.Confined tables := by
  cases h with
  | mk h₁ h₂ h₃ h₄ h₅ h₆ =>
    exact .mk (hs ▸ h₁) (hc ▸ h₂) (hf ▸ h₃) (ho ▸ h₄) (hp ▸ h₅) (hj ▸ h₆)

theorem select (h : q.Confined tables) {p : Projection} (hp : p.Confined tables) :
    (q.select p).Confined tables :=
  h.withProjections (by simpa using hp)

theorem andSelect (h : q.Confined tables) {p : Projection} (hp : p.Confined tables) :
    (q.andSelect p).Confined tables := by
  have heverything : everything.Confined tables :=
    .mk 0 (by simpa [everything] using SelectionTerm.Traverses.item (.value rfl)) (by simp [everything])
  unfold Query.andSelect
  split
  · exact h.withProjections (by simpa using ⟨heverything, hp⟩)
  · cases h with
    | mk hs hc hf ho hprojections hj =>
      exact .mk hs hc hf ho (List.forall_mem_append.mpr ⟨hprojections, by simpa using hp⟩) hj

end Query.Confined

theorem Query.sizeOf_source_lt {q : Query} {s : Source} (hs : s ∈ q.sources) :
    sizeOf s.data < sizeOf (DataSource.nested q) := by
  have hlt := List.sizeOf_lt_of_mem hs
  cases q
  cases s
  simp only [Source.mk.sizeOf_spec] at hlt
  simp only [DataSource.nested.sizeOf_spec, Query.mk.sizeOf_spec]
  omega

/-- What is behind a confined source is confined, also where it is the source of a nested query. -/
theorem DataSource.Confined.relation {data : DataSource} (h : data.Confined tables)
    {r : RelationRef} (hr : data.relation = some r) : r.Confined tables := by
  cases h with
  | table _ h => exact h r hr
  | nested hquery =>
    rw [DataSource.relation, Query.defaultRelation_eq] at hr
    obtain ⟨data, hdata, hr⟩ := Option.bind_eq_some_iff.mp hr
    obtain ⟨s, hfind, rfl⟩ := Option.map_eq_some_iff.mp hdata
    have hs := List.mem_of_find?_eq_some hfind
    exact (hquery.source hs).relation hr
termination_by sizeOf data
decreasing_by
  subst_vars
  exact Query.sizeOf_source_lt hs

namespace Row.Confined
variable {r r' : Row}

theorem query (h : r.Confined tables) : r.query.Confined tables := by
  cases h
  assumption

theorem scope (h : r.Confined tables) : r.scope.Confined tables := by
  cases h
  assumption

theorem relationOf (h : r.Confined tables) {source : String} {relation : RelationRef}
    (hr : r.relationOf source = .ok (some relation)) : relation.Confined tables := by
  unfold Row.relationOf at hr
  split at hr
  next data hdata => exact (h.query.source? hdata).relation (Except.ok.inj hr)
  next =>
    split at hr
    next binding hlookup => exact h.scope _ _ _ hlookup (Except.ok.inj hr)
    next => cases hr

/-- **Associations do not lead out of the schemas.** -/
theorem fetchFrom (h : r.Confined tables) {source name : String} {requested : Option String}
    (hfetch : r.fetchFrom source name requested = .ok r') : r'.Confined tables := by
  obtain ⟨relation, link, hrelation, -, htarget, -, rfl⟩ := fetchFrom_run hfetch
  have hlink := DataSource.confined_ofRelation ((h.relationOf hrelation).sibling htarget)
  split
  · exact .mk (h.query.attach hlink (link.association.predicate_confined _ _)) h.scope
  · have hcondition : (link.association.predicate (r.substitute source) link.label).Confined tables :=
      link.association.predicate_confined _ _
    refine .mk (.mk ?_ ?_ ?_ ?_ ?_ ?_) h.scope
    · simpa [Query.chain, FetchLink.source] using hlink
    · rintro scope ⟨⟩
      exact h.scope
    · simpa [Query.chain] using hcondition
    · simp [Query.chain]
    · simp [Query.chain]
    · simp [Query.chain, joinClauses]

end Row.Confined

/-! ### What callbacks embed -/

/-- How callbacks are called: confined ones give what is confined. -/
structure Calls.Confined (tables : List String) (calls : Calls) : Prop where
  predicate : ∀ p row, Predicate.Confined tables p → Row.Confined tables row →
    Accepted (calls.predicate p row) fun e => e.Confined tables
  projection : ∀ p row, Projection.Confined tables p → Row.Confined tables row →
    Accepted (calls.projection p row) fun selections => ∀ s ∈ selections, s.expr.Confined tables

theorem accepted_elementAt {xs : List α} {p : α → Prop} {index : Nat}
    (h : ∀ x, xs[index]? = some x → p x) : Accepted (elementAt xs index) p := by
  unfold elementAt
  split
  next x hx => exact .ok rfl (h x hx)
  next => exact .error rfl (by simp)

/-- The innermost rows, as many as a term may embed, are confined. -/
def ConfinedRows (tables : List String) (n : Nat) (rows : List Row) : Prop :=
  ∀ r ∈ rows.take n, r.Confined tables

theorem ConfinedRows.cons {n : Nat} {rows : List Row} (h : ConfinedRows tables n rows) {row : Row}
    (hrow : row.Confined tables) : ConfinedRows tables (n + 1) (row :: rows) := by
  unfold ConfinedRows
  rw [List.take_succ_cons]
  exact List.forall_mem_cons.mpr ⟨hrow, h⟩

theorem Row.Confined.select_value {r : Row} (h : r.Confined tables) {e : Expr Query}
    (he : e.subqueries = []) (label : Option String) :
    (r.query.select ⟨[.item (.value e) label], []⟩).Confined tables :=
  h.query.select (.mk 0 (by simpa using SelectionTerm.Traverses.item (.value he)) (by simp))

theorem Expr.Confined.append {left right e : Expr Query} (hl : left.Confined tables)
    (hr : right.Confined tables) (he : e.subqueries = left.subqueries ++ right.subqueries) :
    e.Confined tables := fun q hq => by
  rw [he] at hq
  rcases List.mem_append.mp hq with hq | hq
  · exact hl q hq
  · exact hr q hq

section
variable {calls : Calls}

theorem RowTerm.Traverses.accepted {access : Access} {n : Nat} {t : RowTerm} :
    t.Traverses access n → ∀ {rows}, ConfinedRows tables n rows →
      Accepted (t.evaluate calls rows) fun r => access = .embedding → r.Confined tables
  | .up hlevel, rows, hrows => accepted_elementAt fun r hr _ => hrows r (by
      rw [← List.getElem?_take_of_lt hlevel] at hr
      exact List.mem_of_getElem? hr)
  | .outer, rows, hrows => accepted_elementAt (by simp)
  | .value, rows, hrows => .pure (by simp)
  | .fetch h, rows, hrows => (h.accepted hrows).bind fun r hr =>
      .lift (fun r' hr' _ => (hr rfl).fetchFrom hr') (r.fetchFrom_ne_aliasAlreadyUsed _ _)
  | .filter h hcondition, rows, hrows => (h.accepted hrows).bind fun r hr =>
      .pure fun _ => .mk ((hr rfl).query.filter (.mk n hcondition hrows)) (hr rfl).scope
  | .substitute h, rows, hrows => (h.accepted hrows).bind fun r hr =>
      .pure fun haccess => .mk (hr haccess).query (hr haccess).scope
  | .rebase h, rows, hrows => (h.accepted hrows).bind fun r hr =>
      .pure fun haccess => .mk (hr haccess).query (hr haccess).scope
  | .fail hfault, rows, hrows => .error rfl hfault

/-- So does the query of such a row, and what it is narrowed to. -/
theorem QueryTerm.Traverses.accepted {n : Nat} {t : QueryTerm} :
    t.Traverses n → ∀ {rows}, ConfinedRows tables n rows →
      Accepted (t.evaluate calls rows) fun q => q.Confined tables
  | .ofRow h, rows, hrows => (h.accepted hrows).bind fun r hr => .pure (hr rfl).query
  | .named h, rows, hrows => (h.accepted hrows).bind fun q hq =>
      .pure (hq.of_eq rfl rfl rfl rfl rfl rfl)
  | .limit h, rows, hrows => (h.accepted hrows).bind fun q hq =>
      .pure (hq.of_eq rfl rfl rfl rfl rfl rfl)
  | .selectNone h, rows, hrows => (h.accepted hrows).bind fun q hq =>
      .pure (hq.withProjections (by simp))
  | .filter h hcondition, rows, hrows => (h.accepted hrows).bind fun q hq =>
      .pure (hq.filter (.mk n hcondition hrows))
  | .sortBy h hkeys, rows, hrows => (h.accepted hrows).bind fun q hq =>
      .pure (hq.sortBy (.mk n hkeys hrows))
  | .select h hitems, rows, hrows => (h.accepted hrows).bind fun q hq =>
      .pure (hq.select (.mk n hitems hrows))
  | .andSelect h hitems, rows, hrows => (h.accepted hrows).bind fun q hq =>
      .pure (hq.andSelect (.mk n hitems hrows))

variable (hcalls : calls.Confined tables)
include hcalls

theorem ExprTerm.Traverses.accepted {n : Nat} {t : ExprTerm} :
    t.Traverses n → ∀ {rows}, ConfinedRows tables n rows →
      Accepted (t.evaluate calls rows) fun e => e.Confined tables
  | .value he, rows, hrows => .pure (by simp [Expr.Confined, he])
  | .column h, rows, hrows => (h.accepted hrows).bind fun r _ => .pure (by
      simp [Expr.Confined, Expr.subqueries, Row.columnOf])
  | .star h, rows, hrows => (h.accepted hrows).bind fun r _ => .pure (by
      simp [Expr.Confined, Expr.subqueries, Row.starOf])
  | .unary h, rows, hrows => (h.accepted hrows).bind fun e he => .pure he
  | .binary hl hr, rows, hrows => (hl.accepted hrows).bind fun l hl =>
      (hr.accepted hrows).bind fun r hr => by
        split
        · exact .pure (hl.append hr rfl)
        · exact .error rfl (by simp)
  | .apply hl hr, rows, hrows => (hl.accepted hrows).bind fun l hl =>
      (hr.accepted hrows).bind fun r hr => .pure (hl.append hr (Expr.subqueries_apply ..))
  | .applyRightFirst hr hl, rows, hrows => (hr.accepted hrows).bind fun r hr =>
      (hl.accepted hrows).bind fun l hl => .pure (hl.append hr (Expr.subqueries_apply ..))
  | .aggregate h, rows, hrows => (h.accepted hrows).bind fun r hr => .pure fun q hq => by
      obtain rfl := List.mem_singleton.mp hq
      exact (hr rfl).select_value (by simp [Expr.subqueries, Row.column, Row.columnOf]) _
  | .existsRow h, rows, hrows => (h.accepted hrows).bind fun r hr => .pure fun q hq => by
      obtain rfl := List.mem_singleton.mp hq
      exact (hr rfl).select_value rfl _
  | .subquery h, rows, hrows => (h.accepted hrows).bind fun q hq => .pure fun q' hq' => by
      obtain rfl := List.mem_singleton.mp hq'
      exact hq
  | .condition h, rows, hrows => (h.accepted hrows).bind fun r _ => .pure (by
      simp [Expr.Confined, Expr.subqueries_condition])
  | .call hp h, rows, hrows => (h.accepted hrows).bind fun r hr =>
      hcalls.predicate _ r (.mk 0 hp (by simp)) (hr rfl)
  | .callFilter hq h, rows, hrows => (hq.accepted hrows).bind fun q hq =>
      (h.accepted hrows).bind fun r hr =>
        (accepted_elementAt fun p hp => hq.filter_mem (List.mem_of_getElem? hp)).bind fun p hp =>
          hcalls.predicate p r hp (hr rfl)
  | .callJoin hq h, rows, hrows => (hq.accepted hrows).bind fun q hq =>
      (h.accepted hrows).bind fun r hr =>
        (accepted_elementAt fun j hj => hq.join_mem (List.mem_of_getElem? hj)).bind fun j hj =>
          hcalls.predicate j.on r hj (hr rfl)
  | .fail hfault, rows, hrows => .error rfl hfault

theorem SelectionTerm.Traverses.accepted {n : Nat} {t : SelectionTerm} :
    t.Traverses n → ∀ {rows}, ConfinedRows tables n rows →
      Accepted (t.evaluate calls rows) fun selections => ∀ s ∈ selections, s.expr.Confined tables
  | .item h, rows, hrows => (h.accepted hcalls hrows).bind fun e he => .pure (by simpa using he)
  | .call hp h, rows, hrows => (h.accepted hrows).bind fun r hr =>
      hcalls.projection _ r (.mk 0 hp (by simp)) (hr rfl)
  | .callUnder hp h, rows, hrows => (h.accepted hrows).bind fun r hr =>
      (hcalls.projection _ r (.mk 0 hp (by simp)) (hr rfl)).bind fun selections hselections =>
        .pure (by simpa using hselections)
  | .callProjection hq h, rows, hrows => (hq.accepted hrows).bind fun q hq =>
      (h.accepted hrows).bind fun r hr =>
        (accepted_elementAt fun p hp => hq.projection_mem (List.mem_of_getElem? hp)).bind
          fun p hp => hcalls.projection p r hp (hr rfl)

theorem Predicate.Confined.apply {p : Predicate} (hp : p.Confined tables) {row : Row}
    (hrow : row.Confined tables) : Accepted (p.apply calls row) fun e => e.Confined tables := by
  cases hp with
  | mk n hbody hcaptured => exact hbody.accepted hcalls (ConfinedRows.cons hcaptured hrow)

theorem Projection.Confined.apply {p : Projection} (hp : p.Confined tables) {row : Row}
    (hrow : row.Confined tables) :
    Accepted (p.apply calls row) fun selections => ∀ s ∈ selections, s.expr.Confined tables := by
  cases hp with
  | mk n hbody hcaptured =>
    refine (Accepted.mapM fun t ht =>
      (hbody t ht).accepted hcalls (ConfinedRows.cons hcaptured hrow)).bind
        fun found hfound => .pure fun s hs => ?_
    obtain ⟨selections, hselections, hs⟩ := List.mem_flatten.mp hs
    exact hfound selections hselections s hs

theorem Sorting.Confined.apply {s : Sorting} (hs : s.Confined tables) {row : Row}
    (hrow : row.Confined tables) :
    Accepted (s.apply calls row) fun keys => ∀ k ∈ keys, k.expr.Confined tables := by
  cases hs with
  | mk n hbody hcaptured =>
    exact Accepted.mapM fun k hk =>
      ((hbody k hk).accepted hcalls (ConfinedRows.cons hcaptured hrow)).bind fun e he => .pure he

end

/-- Callbacks that call callbacks stay confined, however deep. -/
theorem Calls.confined_within (depth : Nat) : (within depth).Confined tables := by
  induction depth with
  | zero => exact ⟨fun _ _ _ _ => .error rfl (by simp), fun _ _ _ _ => .error rfl (by simp)⟩
  | succ depth ih =>
    exact ⟨fun p row hp hrow => hp.apply ih hrow, fun p row hp hrow => hp.apply ih hrow⟩

end

end QueryBuilder
