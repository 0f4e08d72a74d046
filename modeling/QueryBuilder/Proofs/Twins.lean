import QueryBuilder.Proofs.Callbacks
import QueryBuilder.Proofs.Regular

/-! Twins.

A table and the filters on it can be joined in two ways. A query over the table is merged:
its filters are called with rows on which its source is substituted by the alias that the
table has in the joining query. Or the table is joined, and filters are added that are
written for the joining query, and say the alias where the others say the source.

The two queries are twins. So is whatever callbacks make of them alike: queries that nest
or narrow them, rows of such queries, and callbacks that have captured such rows. -/
namespace QueryBuilder

/-- How the filters of a joined query are read in the joining query: their source `base` is
`label` there. `spared` are the filters so read; no callback is to call one of them by hand
for a fetched row. -/
structure Reading where
  base : String
  label : String
  spared : Predicate → Bool

namespace Reading

/-- What a source that such a filter asks its row for is called, by default its own one. -/
def name (R : Reading) (source : Option String) : String :=
  if source.getD R.base = R.base then R.label else source.getD R.base

def names (R : Reading) : Substitution := Std.TreeMap.ofList [(R.base, R.label)]

/-- The row that such a filter is called with in place of a row of the joining query. -/
def merge (R : Reading) (r : Row) : Row := (r.rebase R.base).substituting R.names

/-- The term of that row, in a callback with the row of the joining query. -/
def mergedRow (R : Reading) : RowTerm := .substitute (.rebase (.up 0) R.base) R.names

theorem names_getD (R : Reading) (source : Option String) :
    R.names.getD (source.getD R.base) (source.getD R.base) = R.name source := by
  unfold names name
  by_cases h : source.getD R.base = R.base
  · simp [h, Std.TreeMap.ofList_singleton]
  · have h' : R.base ≠ source.getD R.base := fun e => h e.symm
    simp [h, h', Std.TreeMap.ofList_singleton, Std.TreeMap.getD_insert]

end Reading

/-- The level of a row under one more callback, whose row comes first. -/
def deeper (own : Option Nat) : Option Nat := own.map (· + 1)

/-- Two queries are alike but for their callbacks, and for the queries that they hold. -/
structure Query.SameFrame (q q' : Query) : Prop where
  name_eq : q'.name = q.name
  shape_eq : q'.shape = q.shape
  tables_eq : q'.tables = q.tables
  filters_length : q'.filters.length = q.filters.length
  sorting_isSome : q'.sorting.isSome = q.sorting.isSome
  projections_length : q'.projections.length = q.projections.length
  joins_eq : q'.joins.map (fun j => (j.label, j.kind)) = q.joins.map fun j => (j.label, j.kind)
  includes_length : q'.includes.length = q.includes.length
  context_eq : q'.context = q.context
  base_eq : q'.baseSource = q.baseSource
  default_eq : q'.defaultSource = q.defaultSource
  limit_eq : q'.limit = q.limit

/-! ### The relation

In a body, `own` is the level of the row that the filter itself was called with, if there
is one around. On the merged side it is a merged row; a body may read columns and follow
associations from it, and the other side asks for the source by its alias. -/

mutual

inductive DataSource.Twin (R : Reading) : DataSource → DataSource → Prop
  | refl {d} : DataSource.Twin R d d
  | nested {q q'} : Query.Twin R q q' → DataSource.Twin R (.nested q) (.nested q')

inductive Query.Twin (R : Reading) : Query → Query → Prop
  | refl {q} : Query.Twin R q q
  | mk {q q' : Query} : q.SameFrame q' →
      (∀ s s', (s, s') ∈ q.sources.zip q'.sources → DataSource.Twin R s.data s'.data) →
      (∀ p p', (p, p') ∈ q.filters.zip q'.filters → Predicate.Twin R p p') →
      (∀ s s', q.sorting = some s → q'.sorting = some s' → Sorting.Twin R s s') →
      (∀ p p', (p, p') ∈ q.projections.zip q'.projections → Projection.Twin R p p') →
      (∀ j j', (j, j') ∈ q.joins.zip q'.joins → Predicate.Twin R j.on j'.on) →
      (∀ i i', (i, i') ∈ q.includes.zip q'.includes → Query.Twin R i i') → Query.Twin R q q'

inductive Row.Twin (R : Reading) : Row → Row → Prop
  | mk {r r' : Row} : Query.Twin R r.query r'.query → r'.substitutions = r.substitutions →
      r'.defaultSource = r.defaultSource → r'.scope = r.scope → r'.fetched = r.fetched →
      Row.Twin R r r'

/-- The rows that twin callbacks have captured. -/
inductive Captured (R : Reading) : Option Nat → List Row → List Row → Prop
  | nil {own} : Captured R own [] []
  | cons {own r r' rows rows'} : Row.Twin R r r' → Captured R own rows rows' →
      Captured R (deeper own) (r :: rows) (r' :: rows')
  | own {r r' rows rows'} : Row.Twin R r r' → r.fetched = false → Captured R none rows rows' →
      Captured R (some 0) (R.merge r :: rows) (r' :: rows')

inductive Predicate.Twin (R : Reading) : Predicate → Predicate → Prop
  | refl {p} : Predicate.Twin R p p
  | closure {own body body' captured captured'} : ExprTerm.ReadsAs R (deeper own) body body' →
      Captured R own captured captured' → Predicate.Twin R ⟨body, captured⟩ ⟨body', captured'⟩
  /-- The filter `p`, merged, and the filter that is written for the joining query. -/
  | merged {p p' : Predicate} : ExprTerm.ReadsAs R (some 0) p.body p'.body →
      Captured R none p.captured p'.captured → R.spared p' = true →
      Predicate.Twin R ⟨.call p R.mergedRow, []⟩ p'

inductive Projection.Twin (R : Reading) : Projection → Projection → Prop
  | refl {p} : Projection.Twin R p p
  | closure {own} {body body' : List SelectionTerm} {captured captured'} :
      body'.length = body.length →
      (∀ t t', (t, t') ∈ body.zip body' → SelectionTerm.ReadsAs R (deeper own) t t') →
      Captured R own captured captured' → Projection.Twin R ⟨body, captured⟩ ⟨body', captured'⟩

inductive Sorting.Twin (R : Reading) : Sorting → Sorting → Prop
  | refl {s} : Sorting.Twin R s s
  | closure {own} {body body' : List SortTerm} {captured captured'} :
      body'.map (·.direction) = body.map (·.direction) →
      (∀ t t', (t, t') ∈ body.zip body' → ExprTerm.ReadsAs R (deeper own) t.expr t'.expr) →
      Captured R own captured captured' → Sorting.Twin R ⟨body, captured⟩ ⟨body', captured'⟩

inductive RowTerm.ReadsAs (R : Reading) : Option Nat → RowTerm → RowTerm → Prop
  | up {own level} : own ≠ some level → RowTerm.ReadsAs R own (.up level) (.up level)
  | value {own row} : RowTerm.ReadsAs R own (.value row) (.value row)
  | ofQuery {own query query'} : QueryTerm.ReadsAs R own query query' →
      RowTerm.ReadsAs R own (.ofQuery query) (.ofQuery query')
  | fetch {own row row' source association label} : RowTerm.ReadsAs R own row row' →
      RowTerm.ReadsAs R own (.fetch row source association label)
        (.fetch row' source association label)
  | fetchOwn {level source association label} :
      RowTerm.ReadsAs R (some level) (.fetch (.up level) source association label)
        (.fetch (.up level) (some (R.name source)) association label)
  | filter {own row row' condition condition'} : RowTerm.ReadsAs R own row row' →
      ExprTerm.ReadsAs R (deeper own) condition condition' →
      RowTerm.ReadsAs R own (.filter row condition) (.filter row' condition')
  | substitute {own row row' names} : RowTerm.ReadsAs R own row row' →
      RowTerm.ReadsAs R own (.substitute row names) (.substitute row' names)
  | rebase {own row row' source} : RowTerm.ReadsAs R own row row' →
      RowTerm.ReadsAs R own (.rebase row source) (.rebase row' source)
  | fail {own fault} : RowTerm.ReadsAs R own (.fail fault) (.fail fault)

inductive ExprTerm.ReadsAs (R : Reading) : Option Nat → ExprTerm → ExprTerm → Prop
  | value {own e} : ExprTerm.ReadsAs R own (.value e) (.value e)
  | column {own row row' source name} : RowTerm.ReadsAs R own row row' →
      ExprTerm.ReadsAs R own (.column row source name) (.column row' source name)
  | columnOwn {level source name} :
      ExprTerm.ReadsAs R (some level) (.column (.up level) source name)
        (.column (.up level) (some (R.name source)) name)
  | star {own row row' source} : RowTerm.ReadsAs R own row row' →
      ExprTerm.ReadsAs R own (.star row source) (.star row' source)
  | starOwn {level source} :
      ExprTerm.ReadsAs R (some level) (.star (.up level) source)
        (.star (.up level) (some (R.name source)))
  | unary {own before after operand operand'} : ExprTerm.ReadsAs R own operand operand' →
      ExprTerm.ReadsAs R own (.unary before operand after) (.unary before operand' after)
  | binary {own fragments left left' right right'} : ExprTerm.ReadsAs R own left left' →
      ExprTerm.ReadsAs R own right right' →
      ExprTerm.ReadsAs R own (.binary fragments left right) (.binary fragments left' right')
  | apply {own op left left' right right'} : ExprTerm.ReadsAs R own left left' →
      ExprTerm.ReadsAs R own right right' →
      ExprTerm.ReadsAs R own (.apply op left right) (.apply op left' right')
  | applyRightFirst {own op left left' right right'} : ExprTerm.ReadsAs R own right right' →
      ExprTerm.ReadsAs R own left left' →
      ExprTerm.ReadsAs R own (.applyRightFirst op right left) (.applyRightFirst op right' left')
  | aggregate {own function column row row'} : RowTerm.ReadsAs R own row row' →
      ExprTerm.ReadsAs R own (.aggregate function column row) (.aggregate function column row')
  | existsRow {own row row'} : RowTerm.ReadsAs R own row row' →
      ExprTerm.ReadsAs R own (.existsRow row) (.existsRow row')
  | subquery {own query query'} : QueryTerm.ReadsAs R own query query' →
      ExprTerm.ReadsAs R own (.subquery query) (.subquery query')
  | condition {own a owner target row row'} : RowTerm.ReadsAs R own row row' →
      ExprTerm.ReadsAs R own (.condition a owner target row) (.condition a owner target row')
  | conditionOwn {level a owner target} :
      ExprTerm.ReadsAs R (some level) (.condition a owner target (.up level))
        (.condition a (R.name (some owner)) (R.name (some target)) (.up level))
  | call {own p p' row row'} : Predicate.Twin R p p' → RowTerm.ReadsAs R own row row' →
      ExprTerm.ReadsAs R own (.call p row) (.call p' row')
  | callFilter {own query query' index row row'} : QueryTerm.ReadsAs R own query query' →
      RowTerm.ReadsAs R own row row' →
      ExprTerm.ReadsAs R own (.callFilter query index row) (.callFilter query' index row')
  | callJoin {own query query' index row row'} : QueryTerm.ReadsAs R own query query' →
      RowTerm.ReadsAs R own row row' →
      ExprTerm.ReadsAs R own (.callJoin query index row) (.callJoin query' index row')
  | fail {own fault} : ExprTerm.ReadsAs R own (.fail fault) (.fail fault)

inductive SelectionTerm.ReadsAs (R : Reading) : Option Nat → SelectionTerm → SelectionTerm → Prop
  | item {own e e' label} : ExprTerm.ReadsAs R own e e' →
      SelectionTerm.ReadsAs R own (.item e label) (.item e' label)
  | call {own p p' row row'} : Projection.Twin R p p' → RowTerm.ReadsAs R own row row' →
      SelectionTerm.ReadsAs R own (.call p row) (.call p' row')
  | callUnder {own label p p' row row'} : Projection.Twin R p p' → RowTerm.ReadsAs R own row row' →
      SelectionTerm.ReadsAs R own (.callUnder label p row) (.callUnder label p' row')
  | callProjection {own query query' index row row'} : QueryTerm.ReadsAs R own query query' →
      RowTerm.ReadsAs R own row row' →
      SelectionTerm.ReadsAs R own (.callProjection query index row)
        (.callProjection query' index row')

inductive QueryTerm.ReadsAs (R : Reading) : Option Nat → QueryTerm → QueryTerm → Prop
  | value {own query} : QueryTerm.ReadsAs R own (.value query) (.value query)
  | ofRow {own row row'} : RowTerm.ReadsAs R own row row' →
      QueryTerm.ReadsAs R own (.ofRow row) (.ofRow row')
  | included {own query query' index} : QueryTerm.ReadsAs R own query query' →
      QueryTerm.ReadsAs R own (.included query index) (.included query' index)
  | nestedAt {own query query' label} : QueryTerm.ReadsAs R own query query' →
      QueryTerm.ReadsAs R own (.nestedAt query label) (.nestedAt query' label)
  | named {own query query' name} : QueryTerm.ReadsAs R own query query' →
      QueryTerm.ReadsAs R own (.named query name) (.named query' name)
  | limit {own query query' count} : QueryTerm.ReadsAs R own query query' →
      QueryTerm.ReadsAs R own (.limit query count) (.limit query' count)
  | selectNone {own query query'} : QueryTerm.ReadsAs R own query query' →
      QueryTerm.ReadsAs R own (.selectNone query) (.selectNone query')
  | including {own query query' related related'} : QueryTerm.ReadsAs R own query query' →
      QueryTerm.ReadsAs R own related related' →
      QueryTerm.ReadsAs R own (.including query related) (.including query' related')
  | filter {own query query' condition condition'} : QueryTerm.ReadsAs R own query query' →
      ExprTerm.ReadsAs R (deeper own) condition condition' →
      QueryTerm.ReadsAs R own (.filter query condition) (.filter query' condition')
  | sortBy {own query query'} {keys keys' : List SortTerm} : QueryTerm.ReadsAs R own query query' →
      keys'.map (·.direction) = keys.map (·.direction) →
      (∀ t t', (t, t') ∈ keys.zip keys' → ExprTerm.ReadsAs R (deeper own) t.expr t'.expr) →
      QueryTerm.ReadsAs R own (.sortBy query keys) (.sortBy query' keys')
  | select {own query query'} {items items' : List SelectionTerm} :
      QueryTerm.ReadsAs R own query query' → items'.length = items.length →
      (∀ t t', (t, t') ∈ items.zip items' → SelectionTerm.ReadsAs R (deeper own) t t') →
      QueryTerm.ReadsAs R own (.select query items) (.select query' items')
  | andSelect {own query query'} {items items' : List SelectionTerm} :
      QueryTerm.ReadsAs R own query query' → items'.length = items.length →
      (∀ t t', (t, t') ∈ items.zip items' → SelectionTerm.ReadsAs R (deeper own) t t') →
      QueryTerm.ReadsAs R own (.andSelect query items) (.andSelect query' items')
  | join {own query query' target target' kind label} {on on' : Option ExprTerm} :
      QueryTerm.ReadsAs R own query query' → TargetTerm.ReadsAs R own target target' →
      on'.isSome = on.isSome →
      (∀ t t', on = some t → on' = some t' → ExprTerm.ReadsAs R (deeper own) t t') →
      QueryTerm.ReadsAs R own (.join query target kind label on)
        (.join query' target' kind label on')
  | fail {own fault} : QueryTerm.ReadsAs R own (.fail fault) (.fail fault)

inductive TargetTerm.ReadsAs (R : Reading) : Option Nat → TargetTerm → TargetTerm → Prop
  | association {own name} : TargetTerm.ReadsAs R own (.association name) (.association name)
  | table {own name} : TargetTerm.ReadsAs R own (.table name) (.table name)
  | relation {own relation} : TargetTerm.ReadsAs R own (.relation relation) (.relation relation)
  | query {own query query'} : QueryTerm.ReadsAs R own query query' →
      TargetTerm.ReadsAs R own (.query query) (.query query')
  | fail {own fault} : TargetTerm.ReadsAs R own (.fail fault) (.fail fault)

end

variable {R : Reading}

theorem mem_zip_self {α : Type} {xs : List α} {x y : α} (h : (x, y) ∈ xs.zip xs) :
    y = x ∧ x ∈ xs := by
  induction xs with
  | nil => simp at h
  | cons z zs ih =>
    rcases List.mem_cons.mp h with h | h
    · obtain ⟨rfl, rfl⟩ := Prod.mk.inj h
      exact ⟨rfl, List.mem_cons_self ..⟩
    · obtain ⟨rfl, hmem⟩ := ih h
      exact ⟨rfl, List.mem_cons_of_mem _ hmem⟩

/-! ### Terms without an own row read as themselves -/

mutual

theorem RowTerm.readsAs_refl (R : Reading) : (t : RowTerm) → RowTerm.ReadsAs R none t t
  | .up _ => .up (by simp)
  | .value _ => .value
  | .ofQuery query => .ofQuery (query.readsAs_refl R)
  | .fetch row _ _ _ => .fetch (row.readsAs_refl R)
  | .filter row condition => .filter (row.readsAs_refl R) (condition.readsAs_refl R)
  | .substitute row _ => .substitute (row.readsAs_refl R)
  | .rebase row _ => .rebase (row.readsAs_refl R)
  | .fail _ => .fail

theorem ExprTerm.readsAs_refl (R : Reading) : (t : ExprTerm) → ExprTerm.ReadsAs R none t t
  | .value _ => .value
  | .column row _ _ => .column (row.readsAs_refl R)
  | .star row _ => .star (row.readsAs_refl R)
  | .unary _ operand _ => .unary (operand.readsAs_refl R)
  | .binary _ left right => .binary (left.readsAs_refl R) (right.readsAs_refl R)
  | .apply _ left right => .apply (left.readsAs_refl R) (right.readsAs_refl R)
  | .applyRightFirst _ right left => .applyRightFirst (right.readsAs_refl R) (left.readsAs_refl R)
  | .aggregate _ _ row => .aggregate (row.readsAs_refl R)
  | .existsRow row => .existsRow (row.readsAs_refl R)
  | .subquery query => .subquery (query.readsAs_refl R)
  | .condition _ _ _ row => .condition (row.readsAs_refl R)
  | .call _ row => .call .refl (row.readsAs_refl R)
  | .callFilter query _ row => .callFilter (query.readsAs_refl R) (row.readsAs_refl R)
  | .callJoin query _ row => .callJoin (query.readsAs_refl R) (row.readsAs_refl R)
  | .fail _ => .fail

theorem SelectionTerm.readsAs_refl (R : Reading) :
    (t : SelectionTerm) → SelectionTerm.ReadsAs R none t t
  | .item expr _ => .item (expr.readsAs_refl R)
  | .call _ row => .call .refl (row.readsAs_refl R)
  | .callUnder _ _ row => .callUnder .refl (row.readsAs_refl R)
  | .callProjection query _ row => .callProjection (query.readsAs_refl R) (row.readsAs_refl R)

theorem SortTerm.readsAs_refl (R : Reading) :
    (t : SortTerm) → ExprTerm.ReadsAs R none t.expr t.expr
  | ⟨expr, _⟩ => expr.readsAs_refl R

theorem selections_readsAs_refl (R : Reading) :
    (ts : List SelectionTerm) → ∀ t ∈ ts, SelectionTerm.ReadsAs R none t t
  | [], _, h => absurd h List.not_mem_nil
  | t :: ts, _, h => by
    rcases List.mem_cons.mp h with h | h
    · exact h ▸ t.readsAs_refl R
    · exact selections_readsAs_refl R ts _ h

theorem sortTerms_readsAs_refl (R : Reading) :
    (ts : List SortTerm) → ∀ t ∈ ts, ExprTerm.ReadsAs R none t.expr t.expr
  | [], _, h => absurd h List.not_mem_nil
  | t :: ts, _, h => by
    rcases List.mem_cons.mp h with h | h
    · exact h ▸ t.readsAs_refl R
    · exact sortTerms_readsAs_refl R ts _ h

theorem condition_readsAs_refl (R : Reading) :
    (t : Option ExprTerm) → ∀ t', t = some t' → ExprTerm.ReadsAs R none t' t'
  | none, _, h => by simp at h
  | some t, _, h => Option.some.inj h ▸ t.readsAs_refl R

theorem QueryTerm.readsAs_refl (R : Reading) : (t : QueryTerm) → QueryTerm.ReadsAs R none t t
  | .value _ => .value
  | .ofRow row => .ofRow (row.readsAs_refl R)
  | .included query _ => .included (query.readsAs_refl R)
  | .nestedAt query _ => .nestedAt (query.readsAs_refl R)
  | .named query _ => .named (query.readsAs_refl R)
  | .limit query _ => .limit (query.readsAs_refl R)
  | .selectNone query => .selectNone (query.readsAs_refl R)
  | .including query related => .including (query.readsAs_refl R) (related.readsAs_refl R)
  | .filter query condition => .filter (query.readsAs_refl R) (condition.readsAs_refl R)
  | .sortBy query keys => by
    refine .sortBy (query.readsAs_refl R) rfl fun t t' h => ?_
    obtain ⟨rfl, hmem⟩ := mem_zip_self h
    exact sortTerms_readsAs_refl R keys _ hmem
  | .select query items => by
    refine .select (query.readsAs_refl R) rfl fun t t' h => ?_
    obtain ⟨rfl, hmem⟩ := mem_zip_self h
    exact selections_readsAs_refl R items _ hmem
  | .andSelect query items => by
    refine .andSelect (query.readsAs_refl R) rfl fun t t' h => ?_
    obtain ⟨rfl, hmem⟩ := mem_zip_self h
    exact selections_readsAs_refl R items _ hmem
  | .join query target _ _ on => by
    refine .join (query.readsAs_refl R) (target.readsAs_refl R) rfl fun t t' h h' => ?_
    obtain rfl := Option.some.inj (h.symm.trans h')
    exact condition_readsAs_refl R on _ h
  | .fail _ => .fail

theorem TargetTerm.readsAs_refl (R : Reading) : (t : TargetTerm) → TargetTerm.ReadsAs R none t t
  | .association _ => .association
  | .table _ => .table
  | .relation _ => .relation
  | .query query => .query (query.readsAs_refl R)
  | .fail _ => .fail

end

/-! ### Parts of twins -/

structure Source.Twin (R : Reading) (s s' : Source) : Prop where
  label_eq : s'.label = s.label
  data : s.data.Twin R s'.data

structure JoinClause.Twin (R : Reading) (j j' : JoinClause) : Prop where
  label_eq : j'.label = j.label
  kind_eq : j'.kind = j.kind
  on : j.on.Twin R j'.on

/-- Queries whose parts are twins. -/
structure Query.TwinParts (R : Reading) (q q' : Query) : Prop where
  name_eq : q'.name = q.name
  sources : List.Forall₂ (Source.Twin R) q.sources q'.sources
  filters : List.Forall₂ (Predicate.Twin R) q.filters q'.filters
  sorting : Option.Rel (Sorting.Twin R) q.sorting q'.sorting
  projections : List.Forall₂ (Projection.Twin R) q.projections q'.projections
  joins : List.Forall₂ (JoinClause.Twin R) q.joins q'.joins
  includes : List.Forall₂ (Query.Twin R) q.includes q'.includes
  context_eq : q'.context = q.context
  base_eq : q'.baseSource = q.baseSource
  default_eq : q'.defaultSource = q.defaultSource
  limit_eq : q'.limit = q.limit

theorem forall₂_zip {α β : Type} {S : α → β → Prop} {xs : List α} {ys : List β}
    (hlength : ys.length = xs.length) (h : ∀ x y, (x, y) ∈ xs.zip ys → S x y) :
    List.Forall₂ S xs ys :=
  List.forall₂_iff_zip.mpr ⟨hlength.symm, fun hmem => h _ _ hmem⟩

theorem zip_of_forall₂ {α β : Type} {S : α → β → Prop} {xs : List α} {ys : List β}
    (h : List.Forall₂ S xs ys) : ys.length = xs.length ∧ ∀ x y, (x, y) ∈ xs.zip ys → S x y :=
  ⟨h.length_eq.symm, fun _ _ hmem => (List.forall₂_iff_zip.mp h).2 hmem⟩

/-- Lists of equal images and related members. -/
theorem forall₂_zip_of_map {α γ : Type} {S : α → α → Prop} {f : α → γ} {xs ys : List α}
    (hmap : ys.map f = xs.map f) (h : ∀ x y, (x, y) ∈ xs.zip ys → S x y) :
    List.Forall₂ (fun x y => f y = f x ∧ S x y) xs ys := by
  induction xs generalizing ys with
  | nil =>
    obtain rfl := List.map_eq_nil_iff.mp hmap
    exact .nil
  | cons x xs ih =>
    cases ys with
    | nil => simp at hmap
    | cons y ys =>
      obtain ⟨hfirst, hrest⟩ := List.cons.inj hmap
      exact .cons ⟨hfirst, h x y (List.mem_cons_self ..)⟩
        (ih hrest fun x' y' hmem => h x' y' (List.mem_cons_of_mem _ hmem))

theorem map_eq_of_forall₂ {α γ : Type} {S : α → α → Prop} {f : α → γ} {xs ys : List α}
    (h : List.Forall₂ S xs ys) (hf : ∀ x y, S x y → f y = f x) : ys.map f = xs.map f := by
  induction h with
  | nil => rfl
  | cons hxy _ ih => rw [List.map_cons, List.map_cons, hf _ _ hxy, ih]

namespace Query.SameFrame
variable {q q' : Query}

theorem refl (q : Query) : q.SameFrame q :=
  ⟨rfl, rfl, rfl, rfl, rfl, rfl, rfl, rfl, rfl, rfl, rfl, rfl⟩

theorem defaultRelation_eq (h : q.SameFrame q') : q'.defaultRelation = q.defaultRelation :=
  defaultRelation_of_shape h.shape_eq h.default_eq

end Query.SameFrame

theorem Query.Twin.frame {q q' : Query} (h : q.Twin R q') : q.SameFrame q' := by
  cases h with
  | refl => exact .refl q
  | mk hframe => exact hframe

namespace DataSource.Twin
variable {d d' : DataSource}

theorem relation_eq (h : d.Twin R d') : d'.relation = d.relation := by
  cases h with
  | refl => rfl
  | nested hq =>
    simp only [DataSource.relation]
    exact hq.frame.defaultRelation_eq

theorem tables_eq (h : d.Twin R d') : d'.tables = d.tables := by
  cases h with
  | refl => rfl
  | nested hq =>
    simp only [DataSource.tables]
    exact hq.frame.tables_eq

end DataSource.Twin

theorem Source.Twin.refl (s : Source) : s.Twin R s := ⟨rfl, .refl⟩

theorem JoinClause.Twin.refl (j : JoinClause) : j.Twin R j := ⟨rfl, rfl, .refl⟩

theorem twins_refl {α : Type} {S : α → α → Prop} (h : ∀ x, S x x) (xs : List α) :
    List.Forall₂ S xs xs := List.forall₂_same.mpr fun x _ => h x

namespace Query
variable {q q' : Query}

theorem Twin.parts (h : q.Twin R q') : q.TwinParts R q' := by
  cases h with
  | refl =>
    refine ⟨rfl, twins_refl Source.Twin.refl _, twins_refl (fun _ => .refl) _, ?_,
      twins_refl (fun _ => .refl) _, twins_refl JoinClause.Twin.refl _,
      twins_refl (fun _ => .refl) _, rfl, rfl, rfl, rfl⟩
    cases q.sorting with
    | none => exact .none
    | some s => exact .some .refl
  | mk hframe hsources hfilters hsorting hprojections hjoins hincludes =>
    refine ⟨hframe.name_eq, ?_, forall₂_zip hframe.filters_length hfilters, ?_,
      forall₂_zip hframe.projections_length hprojections, ?_,
      forall₂_zip hframe.includes_length hincludes, hframe.context_eq, hframe.base_eq,
      hframe.default_eq, hframe.limit_eq⟩
    · refine (forall₂_zip_of_map hframe.shape_eq hsources).imp fun s s' h => ?_
      exact ⟨(Prod.mk.inj h.1).1, h.2⟩
    · have hsome := hframe.sorting_isSome
      cases hs : q.sorting with
      | none =>
        rw [hs, Option.isSome_none, Option.isSome_eq_false_iff, Option.isNone_iff_eq_none] at hsome
        rw [hsome]
        exact .none
      | some s =>
        rw [hs, Option.isSome_some, Option.isSome_iff_exists] at hsome
        obtain ⟨s', hs'⟩ := hsome
        rw [hs']
        exact .some (hsorting s s' hs hs')
    · refine (forall₂_zip_of_map hframe.joins_eq hjoins).imp fun j j' h => ?_
      obtain ⟨hlabel, hkind⟩ := Prod.mk.inj h.1
      exact ⟨hlabel, hkind, h.2⟩

namespace TwinParts

theorem shape_eq (h : q.TwinParts R q') : q'.shape = q.shape :=
  map_eq_of_forall₂ h.sources fun s s' hs => by rw [hs.label_eq, hs.data.relation_eq]

theorem tables_eq (h : q.TwinParts R q') : q'.tables = q.tables := by
  rw [Query.tables_eq, Query.tables_eq, List.flatMap_def, List.flatMap_def,
    map_eq_of_forall₂ h.sources fun s s' hs => hs.data.tables_eq]

theorem frame (h : q.TwinParts R q') : q.SameFrame q' where
  name_eq := h.name_eq
  shape_eq := h.shape_eq
  tables_eq := h.tables_eq
  filters_length := h.filters.length_eq.symm
  sorting_isSome := by
    have hsorting := h.sorting
    generalize q.sorting = o, q'.sorting = o' at hsorting
    cases hsorting <;> rfl
  projections_length := h.projections.length_eq.symm
  joins_eq := map_eq_of_forall₂ h.joins fun j j' hj => by rw [hj.label_eq, hj.kind_eq]
  includes_length := h.includes.length_eq.symm
  context_eq := h.context_eq
  base_eq := h.base_eq
  default_eq := h.default_eq
  limit_eq := h.limit_eq

theorem twin (h : q.TwinParts R q') : q.Twin R q' := by
  refine .mk h.frame ?_ (zip_of_forall₂ h.filters).2 ?_ (zip_of_forall₂ h.projections).2 ?_
    (zip_of_forall₂ h.includes).2
  · exact fun s s' hs => ((zip_of_forall₂ h.sources).2 s s' hs).data
  · intro s s' hs hs'
    have hsorting := h.sorting
    rw [hs, hs'] at hsorting
    cases hsorting with
    | some hs => exact hs
  · exact fun j j' hj => ((zip_of_forall₂ h.joins).2 j j' hj).on

end TwinParts

theorem Twin.source? (h : q.Twin R q') (label : String) :
    Option.Rel (DataSource.Twin R) (q.source? label) (q'.source? label) := by
  unfold Query.source?
  have hsources := h.parts.sources
  generalize q.sources = sources, q'.sources = sources' at hsources
  induction hsources with
  | nil => exact .none
  | @cons s s' _ _ hs _ ih =>
    by_cases hlabel : s.label = label
    · have hlabel' : s'.label = label := hs.label_eq.trans hlabel
      simp only [List.find?_cons_of_pos, hlabel, hlabel', decide_true, Option.map_some]
      exact .some hs.data
    · have hlabel' : ¬ s'.label = label := fun he => hlabel (hs.label_eq.symm.trans he)
      simpa only [List.find?_cons_of_neg, hlabel, hlabel', decide_false, Bool.false_eq_true,
        not_false_eq_true] using ih

theorem Twin.hasSource_eq (h : q.Twin R q') : q'.hasSource = q.hasSource :=
  hasSource_of_shape h.frame.shape_eq

theorem Twin.ownScope_eq (h : q.Twin R q') : q'.ownScope = q.ownScope :=
  ownScope_of_shape h.frame.shape_eq h.frame.context_eq

/-! ### Building twins -/

theorem Twin.named (h : q.Twin R q') (name : String) : (q.named name).Twin R (q'.named name) :=
  ({ h.parts with name_eq := rfl } : TwinParts R (q.named name) (q'.named name)).twin

theorem Twin.take (h : q.Twin R q') (count : Nat) : (q.take count).Twin R (q'.take count) :=
  ({ h.parts with limit_eq := rfl } : TwinParts R (q.take count) (q'.take count)).twin

theorem Twin.filter (h : q.Twin R q') {p p' : Predicate} (hp : p.Twin R p') :
    (q.filter p).Twin R (q'.filter p') :=
  ({ h.parts with filters := List.rel_append h.parts.filters (.cons hp .nil) } :
    TwinParts R (q.filter p) (q'.filter p')).twin

theorem Twin.sortBy (h : q.Twin R q') {s s' : Sorting} (hs : s.Twin R s') :
    (q.sortBy s).Twin R (q'.sortBy s') :=
  ({ h.parts with sorting := .some hs } : TwinParts R (q.sortBy s) (q'.sortBy s')).twin

theorem Twin.including (h : q.Twin R q') {related related' : Query}
    (hrelated : related.Twin R related') :
    (q.including related).Twin R (q'.including related') :=
  ({ h.parts with includes := List.rel_append h.parts.includes (.cons hrelated .nil) } :
    TwinParts R (q.including related) (q'.including related')).twin

theorem Twin.withProjections (h : q.Twin R q') {projections projections' : List Projection}
    (hp : List.Forall₂ (Projection.Twin R) projections projections') :
    ({ q with projections } : Query).Twin R { q' with projections := projections' } :=
  ({ h.parts with projections := hp } :
    TwinParts R { q with projections } { q' with projections := projections' }).twin

theorem Twin.selectNone (h : q.Twin R q') : q.selectNone.Twin R q'.selectNone :=
  h.withProjections .nil

theorem Twin.select (h : q.Twin R q') {p p' : Projection} (hp : p.Twin R p') :
    (q.select p).Twin R (q'.select p') :=
  h.withProjections (.cons hp .nil)

theorem Twin.andSelect (h : q.Twin R q') {p p' : Projection} (hp : p.Twin R p') :
    (q.andSelect p).Twin R (q'.andSelect p') := by
  have hprojections := h.parts.projections
  unfold Query.andSelect
  generalize q.projections = ps, q'.projections = ps' at hprojections
  cases hprojections with
  | nil => exact h.withProjections (.cons .refl (.cons hp .nil))
  | cons hfirst hrest =>
    exact h.withProjections (List.rel_append (.cons hfirst hrest) (.cons hp .nil))

theorem Twin.attach (h : q.Twin R q') {s s' : Source} (hs : s.Twin R s') {j j' : JoinClause}
    (hj : j.Twin R j') : (q.attach s j).Twin R (q'.attach s' j') :=
  ({ h.parts with
      sources := List.rel_append h.parts.sources (.cons hs .nil)
      joins := List.rel_append h.parts.joins (.cons hj .nil) } :
    TwinParts R (q.attach s j) (q'.attach s' j')).twin

end Query

end QueryBuilder
