import QueryBuilder.Proofs.Levels

/-! What the filters of a merged query refer to.

A filter of a merged query is called with a row of the joining query, in which its own source
is substituted by the alias that the table has there. The substitution belongs to that row.
A callback that the filter opens on a row it has fetched is called with a row of its own, and
its references pass through no substitution: they are looked up in the level of the fetched
query, and then in that of the joining query. -/
namespace QueryBuilder

/-! ### Merging -/

/-- `flat` is `parent` with `target` merged into it under `label`. -/
structure Query.Merges (parent target : Query) (label : String) (flat : Query) : Prop where
  labels_eq : flat.sources.map (·.label) = parent.sources.map (·.label) ++ [label]
  context_eq : flat.context = parent.context
  filters_eq : flat.filters = parent.filters ++ target.mergedFilters label

namespace Query
variable {parent target flat : Query} {options : JoinOptions}

theorem merges_of_joinQuery (hmerge : (target.mergeableTable options.kind).isSome)
    (h : parent.joinQuery target options = .ok flat) :
    ∃ label, parent.claimAlias (target.name.getD target.defaultSource) options.label = .ok label ∧
      parent.Merges target label flat := by
  obtain ⟨label, on, hclaim, -, ⟨table, -, rfl⟩ | ⟨hnone, -⟩⟩ := joinQuery_cases h
  · refine ⟨label, hclaim, ?_, rfl, rfl⟩
    exact List.map_append
  · rw [hnone] at hmerge
    simp at hmerge

variable {label : String}

/-- The merged filters come behind those of the joining query. -/
theorem Merges.filter (h : parent.Merges target label flat) {i : Nat} {p : Predicate}
    (hp : target.filters[i]? = some p) :
    flat.filters[parent.filters.length + i]? = some ⟨.call p (target.mergedRow label), []⟩ := by
  rw [h.filters_eq, List.getElem?_append_right (Nat.le_add_right ..), Nat.add_sub_cancel_left]
  unfold mergedFilters
  rw [List.getElem?_map, hp]
  rfl

/-- The row that a merged filter passes on. -/
def atMerged (target : Query) (label : String) (row : Row) : Row :=
  (row.rebase target.defaultSource).substituting (Std.TreeMap.ofList [(target.baseSource, label)])

/-- A merged filter gives what the filter gives for that row, with one call less to make. -/
theorem apply_merged {p : Predicate} {row : Row} {depth : Nat} {e : Expr Query}
    (h : Predicate.apply (.within (depth + 1)) ⟨.call p (target.mergedRow label), []⟩ row = .ok e) :
    p.apply (.within depth) (target.atMerged label row) = .ok e := h

/-- A join adds a source whose alias was not taken. The filters stay, others may come behind
them. -/
structure Extends (q q' : Query) : Prop where
  context_eq : q'.context = q.context
  sources_eq : ∃ s, q.isTaken s.label = false ∧ q'.sources = q.sources ++ [s]
  filters : q.filters ⊆ q'.filters

theorem extends_attach {q : Query} {fallback label : String} {requested : Option String}
    (h : q.claimAlias fallback requested = .ok label) (data : DataSource) (clause : JoinClause) :
    q.Extends (q.attach ⟨label, data⟩ clause) :=
  ⟨rfl, ⟨_, not_taken_of_claimAlias h, rfl⟩, fun _ => id⟩

theorem extends_of_join {q q' : Query} {what : JoinTarget} {options : JoinOptions}
    (h : q.join what options = .ok q') : q.Extends q' := by
  obtain ⟨fallback, label, data, on, hclaim, rfl | ⟨target, rfl⟩⟩ := join_cases h
  · exact extends_attach hclaim data _
  · obtain ⟨hcontext, hsources, hfilters⟩ := extends_attach hclaim data ⟨label, options.kind, on⟩
    exact ⟨hcontext, hsources, List.Subset.trans hfilters (List.subset_append_left _ _)⟩

end Query

/-! ### Narrowing what has been fetched -/

/-- Terms for rows that are fetched from the callback's own row. -/
inductive RowTerm.FetchesOwn : RowTerm → Prop
  | fetch {source association label} : FetchesOwn (.fetch (.up 0) source association label)
  | further {row source association label} : FetchesOwn row →
      FetchesOwn (.fetch row source association label)
  | filter {row condition} : FetchesOwn row → FetchesOwn (.filter row condition)

/-- Among these, terms that narrow the fetched rows by `condition`. -/
inductive RowTerm.Narrows : RowTerm → ExprTerm → Prop
  | filter {row condition} : row.FetchesOwn → Narrows (.filter row condition) condition
  | further {row condition source association label} : Narrows row condition →
      Narrows (.fetch row source association label) condition
  | narrower {row condition other} : Narrows row condition → Narrows (.filter row other) condition

/-- Terms for queries over rows narrowed by `condition`, whatever is added to them. -/
inductive QueryTerm.Narrows : QueryTerm → ExprTerm → Prop
  | ofRow {row condition} : row.Narrows condition → Narrows (.ofRow row) condition
  | named {query name condition} : Narrows query condition → Narrows (.named query name) condition
  | limit {query count condition} : Narrows query condition → Narrows (.limit query count) condition
  | selectNone {query condition} : Narrows query condition → Narrows (.selectNone query) condition
  | including {query related condition} : Narrows query condition →
      Narrows (.including query related) condition
  | filter {query other condition} : Narrows query condition →
      Narrows (.filter query other) condition
  | sortBy {query keys condition} : Narrows query condition → Narrows (.sortBy query keys) condition
  | select {query items condition} : Narrows query condition →
      Narrows (.select query items) condition
  | andSelect {query items condition} : Narrows query condition →
      Narrows (.andSelect query items) condition
  | join {query target kind label on condition} : Narrows query condition →
      Narrows (.join query target kind label on) condition

/-- The first term is an operand of the other one. -/
inductive ExprTerm.Operand : ExprTerm → ExprTerm → Prop
  | unary {before after t} : Operand t (.unary before t after)
  | left {fragments t right} : Operand t (.binary fragments t right)
  | right {fragments left t} : Operand t (.binary fragments left t)
  | applyLeft {op t right} : Operand t (.apply op t right)
  | applyRight {op left t} : Operand t (.apply op left t)
  | rightFirstLeft {op right t} : Operand t (.applyRightFirst op right t)
  | rightFirstRight {op t left} : Operand t (.applyRightFirst op t left)

/-- Terms for conditions that ask for rows narrowed by `condition`: for an aggregate of them,
for whether there are any, or for the subquery of them. -/
inductive ExprTerm.Narrows : ExprTerm → ExprTerm → Prop
  | aggregate {function column row condition} : row.Narrows condition →
      Narrows (.aggregate function column row) condition
  | existsRow {row condition} : row.Narrows condition → Narrows (.existsRow row) condition
  | subquery {query condition} : query.Narrows condition → Narrows (.subquery query) condition
  | operand {t t' condition} : Operand t t' → Narrows t condition → Narrows t' condition

/-- The condition names this source, in a column or a star of its own row. -/
inductive ExprTerm.Names : ExprTerm → String → Prop
  | column {source name} : Names (.column (.up 0) (some source) name) source
  | star {source} : Names (.star (.up 0) (some source)) source
  | operand {t t' source} : Operand t t' → Names t source → Names t' source

/-- A query over rows that have been fetched from `own`: it is in the scope of that row, and
none of its sources is bound there. -/
structure Query.FetchedFrom (q : Query) (own : Row) : Prop where
  context_eq : q.context = some own.scope
  unbound : ∀ s ∈ q.sources, own.scope.isBound s.label = false

theorem Query.FetchedFrom.of_eq {own : Row} {q q' : Query} (h : q.FetchedFrom own)
    (hcontext : q'.context = q.context) (hsources : q'.sources = q.sources) :
    q'.FetchedFrom own :=
  ⟨hcontext.trans h.context_eq, hsources ▸ h.unbound⟩

theorem Query.FetchedFrom.extends {own : Row} {q q' : Query} (h : q.FetchedFrom own)
    (hextends : q.Extends q') : q'.FetchedFrom own := by
  obtain ⟨source, hfree, hsources⟩ := hextends.sources_eq
  refine ⟨hextends.context_eq.trans h.context_eq, ?_⟩
  rw [hsources]
  intro s hs
  rcases List.mem_append.mp hs with hs | hs
  · exact h.unbound s hs
  · obtain rfl := List.mem_singleton.mp hs
    exact isBound_of_isTaken hfree h.context_eq

/-- A row that has been fetched from `own`. -/
structure Row.FetchedFrom (r own : Row) : Prop where
  fetched : r.fetched = true
  scope_eq : r.scope = own.scope
  query : r.query.FetchedFrom own

theorem Row.FetchedFrom.filter {r own : Row} (h : r.FetchedFrom own) (p : Predicate) :
    (r.filter p).FetchedFrom own := ⟨h.fetched, h.scope_eq, h.query.of_eq rfl rfl⟩

theorem Row.FetchedFrom.fetchFrom {r r' own : Row} (h : r.FetchedFrom own) {source name : String}
    {label : Option String} (hfetch : r.fetchFrom source name label = .ok r') :
    r'.FetchedFrom own ∧ r'.query.filters = r.query.filters := by
  obtain ⟨a, t, label', hvisible, ⟨-, rfl⟩ | ⟨hfetched, -⟩⟩ := Row.fetchFrom_cases hfetch
  · refine ⟨⟨h.fetched, h.scope_eq, h.query.context_eq, ?_⟩, rfl⟩
    intro s hs
    rcases List.mem_append.mp hs with hs | hs
    · exact h.query.unbound s hs
    · obtain rfl := List.mem_singleton.mp hs
      rw [← h.scope_eq]
      exact (Row.not_visible_iff.mp hvisible).2
  · rw [h.fetched] at hfetched
    simp at hfetched

section
variable {calls : Calls} {own : Row} {captured : List Row} {condition : ExprTerm}

theorem RowTerm.FetchesOwn.evaluate (hown : own.fetched = false) {t : RowTerm} (h : t.FetchesOwn)
    {r : Row} (hr : t.evaluate calls (own :: captured) = .ok r) : r.FetchedFrom own := by
  induction h generalizing r with
  | fetch =>
    simp only [RowTerm.evaluate, noting_except, except_bind_eq_ok_iff, liftError_eq_ok_iff] at hr
    obtain ⟨_, hown', hfetch⟩ := hr
    obtain rfl := Except.ok.inj hown'
    obtain ⟨a, t, label, hvisible, ⟨hfetched, -⟩ | ⟨-, rfl⟩⟩ := Row.fetchFrom_cases hfetch
    · rw [hown] at hfetched
      simp at hfetched
    · refine ⟨rfl, rfl, rfl, ?_⟩
      intro s hs
      obtain rfl := List.mem_singleton.mp hs
      exact (Row.not_visible_iff.mp hvisible).2
  | further _ ih =>
    simp only [RowTerm.evaluate, noting_except, except_bind_eq_ok_iff, liftError_eq_ok_iff] at hr
    obtain ⟨r', hr', hfetch⟩ := hr
    exact ((ih hr').fetchFrom hfetch).1
  | filter _ ih =>
    simp only [RowTerm.evaluate, except_bind_eq_ok_iff, except_pure_eq_ok_iff] at hr
    obtain ⟨r', hr', rfl⟩ := hr
    exact (ih hr').filter _

theorem RowTerm.Narrows.evaluate (hown : own.fetched = false) {t : RowTerm}
    (h : t.Narrows condition) {r : Row} (hr : t.evaluate calls (own :: captured) = .ok r) :
    r.FetchedFrom own ∧ ⟨condition, own :: captured⟩ ∈ r.query.filters := by
  induction h generalizing r with
  | filter hrow =>
    simp only [RowTerm.evaluate, except_bind_eq_ok_iff, except_pure_eq_ok_iff] at hr
    obtain ⟨r', hr', rfl⟩ := hr
    exact ⟨(hrow.evaluate hown hr').filter _, List.mem_append_right _ (List.mem_singleton_self _)⟩
  | further _ ih =>
    simp only [RowTerm.evaluate, noting_except, except_bind_eq_ok_iff, liftError_eq_ok_iff] at hr
    obtain ⟨r', hr', hfetch⟩ := hr
    obtain ⟨hfetched, hmem⟩ := ih hr'
    obtain ⟨hfetched', hfilters⟩ := hfetched.fetchFrom hfetch
    exact ⟨hfetched', hfilters ▸ hmem⟩
  | narrower _ ih =>
    simp only [RowTerm.evaluate, except_bind_eq_ok_iff, except_pure_eq_ok_iff] at hr
    obtain ⟨r', hr', rfl⟩ := hr
    obtain ⟨hfetched, hmem⟩ := ih hr'
    exact ⟨hfetched.filter _, List.mem_append_left _ hmem⟩

/-- What an operand gives is a part of the whole. -/
theorem ExprTerm.Operand.evaluate {rows : List Row} {t t' : ExprTerm} (h : t.Operand t')
    {e' : Expr Query} (he : t'.evaluate calls rows = .ok e') :
    ∃ e, t.evaluate calls rows = .ok e ∧ e.subqueries ⊆ e'.subqueries ∧
      e.qualifiers ⊆ e'.qualifiers := by
  cases h with
  | unary =>
    simp only [ExprTerm.evaluate, except_bind_eq_ok_iff, except_pure_eq_ok_iff] at he
    obtain ⟨e, he, rfl⟩ := he
    exact ⟨e, he, fun _ => id, fun _ => id⟩
  | left =>
    simp only [ExprTerm.evaluate, except_bind_eq_ok_iff] at he
    obtain ⟨l, hl, r, -, he⟩ := he
    split at he
    · obtain rfl := except_pure_eq_ok_iff.mp he
      exact ⟨l, hl, List.subset_append_left _ _, List.subset_append_left _ _⟩
    · simp at he
  | right =>
    simp only [ExprTerm.evaluate, except_bind_eq_ok_iff] at he
    obtain ⟨l, -, r, hr, he⟩ := he
    split at he
    · obtain rfl := except_pure_eq_ok_iff.mp he
      exact ⟨r, hr, List.subset_append_right _ _, List.subset_append_right _ _⟩
    · simp at he
  | applyLeft =>
    simp only [ExprTerm.evaluate, except_bind_eq_ok_iff, except_pure_eq_ok_iff] at he
    obtain ⟨l, hl, r, -, rfl⟩ := he
    rw [Expr.subqueries_apply, Expr.qualifiers_apply]
    exact ⟨l, hl, List.subset_append_left _ _, List.subset_append_left _ _⟩
  | applyRight =>
    simp only [ExprTerm.evaluate, except_bind_eq_ok_iff, except_pure_eq_ok_iff] at he
    obtain ⟨l, -, r, hr, rfl⟩ := he
    rw [Expr.subqueries_apply, Expr.qualifiers_apply]
    exact ⟨r, hr, List.subset_append_right _ _, List.subset_append_right _ _⟩
  | rightFirstLeft =>
    simp only [ExprTerm.evaluate, except_bind_eq_ok_iff, except_pure_eq_ok_iff] at he
    obtain ⟨r, -, l, hl, rfl⟩ := he
    rw [Expr.subqueries_apply, Expr.qualifiers_apply]
    exact ⟨l, hl, List.subset_append_left _ _, List.subset_append_left _ _⟩
  | rightFirstRight =>
    simp only [ExprTerm.evaluate, except_bind_eq_ok_iff, except_pure_eq_ok_iff] at he
    obtain ⟨r, hr, l, -, rfl⟩ := he
    rw [Expr.subqueries_apply, Expr.qualifiers_apply]
    exact ⟨r, hr, List.subset_append_right _ _, List.subset_append_right _ _⟩

theorem QueryTerm.Narrows.evaluate (hown : own.fetched = false) {t : QueryTerm}
    (h : t.Narrows condition) {q : Query} (hq : t.evaluate calls (own :: captured) = .ok q) :
    q.FetchedFrom own ∧ ⟨condition, own :: captured⟩ ∈ q.filters := by
  induction h generalizing q with
  | ofRow hrow =>
    simp only [QueryTerm.evaluate, except_bind_eq_ok_iff, except_pure_eq_ok_iff] at hq
    obtain ⟨r, hr, rfl⟩ := hq
    obtain ⟨hfetched, hmem⟩ := hrow.evaluate hown hr
    exact ⟨hfetched.query, hmem⟩
  | named _ ih | limit _ ih | selectNone _ ih | sortBy _ ih | select _ ih =>
    simp only [QueryTerm.evaluate, except_bind_eq_ok_iff, except_pure_eq_ok_iff] at hq
    obtain ⟨q', hq', rfl⟩ := hq
    obtain ⟨hfetched, hmem⟩ := ih hq'
    exact ⟨hfetched.of_eq rfl rfl, hmem⟩
  | including _ ih =>
    simp only [QueryTerm.evaluate, except_bind_eq_ok_iff, except_pure_eq_ok_iff] at hq
    obtain ⟨q', hq', _, -, rfl⟩ := hq
    obtain ⟨hfetched, hmem⟩ := ih hq'
    exact ⟨hfetched.of_eq rfl rfl, hmem⟩
  | filter _ ih =>
    simp only [QueryTerm.evaluate, except_bind_eq_ok_iff, except_pure_eq_ok_iff] at hq
    obtain ⟨q', hq', rfl⟩ := hq
    obtain ⟨hfetched, hmem⟩ := ih hq'
    exact ⟨hfetched.of_eq rfl rfl, List.mem_append_left _ hmem⟩
  | andSelect _ ih =>
    simp only [QueryTerm.evaluate, except_bind_eq_ok_iff, except_pure_eq_ok_iff] at hq
    obtain ⟨q', hq', rfl⟩ := hq
    obtain ⟨hfetched, hmem⟩ := ih hq'
    unfold Query.andSelect
    split <;> exact ⟨hfetched.of_eq rfl rfl, hmem⟩
  | join _ ih =>
    simp only [QueryTerm.evaluate, noting_except, except_bind_eq_ok_iff, liftError_eq_ok_iff] at hq
    obtain ⟨q', hq', _, -, hjoin⟩ := hq
    obtain ⟨hfetched, hmem⟩ := ih hq'
    have hextends := Query.extends_of_join hjoin
    exact ⟨hfetched.extends hextends, hextends.filters hmem⟩

/-- The query that is narrowed by `condition` stands as a subquery in what the callback gives. -/
theorem ExprTerm.Narrows.evaluate (hown : own.fetched = false) {t : ExprTerm}
    (h : t.Narrows condition) {e : Expr Query}
    (he : t.evaluate calls (own :: captured) = .ok e) :
    ∃ q ∈ e.subqueries, q.FetchedFrom own ∧ ⟨condition, own :: captured⟩ ∈ q.filters := by
  induction h generalizing e with
  | aggregate hrow | existsRow hrow =>
    simp only [ExprTerm.evaluate, except_bind_eq_ok_iff, except_pure_eq_ok_iff] at he
    obtain ⟨r, hr, rfl⟩ := he
    obtain ⟨hfetched, hmem⟩ := hrow.evaluate hown hr
    exact ⟨_, List.mem_singleton_self _, hfetched.query.of_eq rfl rfl, hmem⟩
  | subquery hquery =>
    simp only [ExprTerm.evaluate, except_bind_eq_ok_iff, except_pure_eq_ok_iff] at he
    obtain ⟨q, hq, rfl⟩ := he
    exact ⟨q, List.mem_singleton_self _, hquery.evaluate hown hq⟩
  | operand hoperand _ ih =>
    obtain ⟨e', he', hsubqueries, -⟩ := hoperand.evaluate he
    obtain ⟨q, hq, hfacts⟩ := ih he'
    exact ⟨q, hsubqueries hq, hfacts⟩

/-- A row that substitutes nothing is asked for the source that is named. -/
theorem ExprTerm.Names.evaluate (hown : own.substitutions = []) {t : ExprTerm} {source : String}
    (h : t.Names source) {e : Expr Query} (he : t.evaluate calls (own :: captured) = .ok e) :
    source ∈ e.qualifiers := by
  induction h generalizing e with
  | column | star =>
    simp only [ExprTerm.evaluate, except_bind_eq_ok_iff, except_pure_eq_ok_iff] at he
    obtain ⟨_, hrow, rfl⟩ := he
    obtain rfl := Except.ok.inj hrow
    refine List.mem_singleton.mpr ?_
    exact (Row.substitute_nil hown _).symm
  | operand hoperand _ ih =>
    obtain ⟨e', he', -, hqualifiers⟩ := hoperand.evaluate he
    exact hqualifiers (ih he')

end

/-! ### References to the merged source -/

namespace Sql
variable {placement : EntryPlacement} {calls : Calls}

/-- A condition of `inner` that a callback with this body gives, where `inner` is a subquery in
the condition of `outer` in place `i`. -/
structure CompiledLevel.Narrowing (outer : CompiledLevel placement calls) (i : Nat)
    (body : ExprTerm) (inner : CompiledLevel placement calls) (e : Expr Query)
    (r : Expr Statement) : Prop where
  embedded : ∃ e' r' statement, outer.Condition i e' r' ∧ statement ∈ r'.subqueries ∧
    outer.Embeds inner statement
  condition : ∃ k rows, inner.query.filters[k]? = some ⟨body, rows⟩ ∧ inner.Condition k e r

/-- A narrowing callback of a merged filter is called for a row of its own. -/
theorem CompiledLevel.exists_narrowing {depth : Nat} (hcalls : calls = .within (depth + 1))
    {top : CompiledLevel placement calls} {parent target : Query} {label : String}
    (hmerges : parent.Merges target label top.query) {i : Nat} {p : Predicate}
    (hp : target.filters[i]? = some p) {condition : ExprTerm} (hbody : p.body.Narrows condition) :
    ∃ inner e r statement, top.Narrowing (parent.filters.length + i) condition inner e r ∧
      top.Embeds inner statement ∧ inner.query.FetchedFrom top.row ∧
      ∀ b, condition.Names b → b ∈ e.qualifiers := by
  subst hcalls
  obtain ⟨e, r, hcondition, happly, -, -⟩ := top.exists_condition (hmerges.filter hp)
  obtain ⟨q, hq, hfetched, hmem⟩ := hbody.evaluate rfl (Query.apply_merged happly)
  obtain ⟨inner, statement, rfl, hstatement, hembeds⟩ := hcondition.becomes.embeds hq
  obtain ⟨k, hk⟩ := List.mem_iff_getElem?.mp hmem
  obtain ⟨e', r', hcondition', happly', -, -⟩ := inner.exists_condition hk
  exact ⟨inner, e', r', statement, ⟨⟨e, r, statement, hcondition, hstatement, hembeds⟩,
    _, _, hk, hcondition'⟩, hembeds, ⟨hfetched.context_eq, hfetched.unbound⟩,
    fun b hb => hb.evaluate rfl happly'⟩

/-- **A name in a narrowing callback reaches the merged source if it is the alias of the join,
and only then.** The name that a merged filter has for its own source is not translated there:
under another alias the reference is to something else that goes by the old name, or the query
has no text. -/
theorem narrowing_reaches_merged_iff {q : Query} {text : String} (hsql : q.toSql = .ok text) :
    ∃ (s : Statement) (root : CompiledLevel .hoisted .deep), q.statement = .ok s ∧ s.print = text ∧
      root.query = q ∧ root.Opens s ∧
      ∀ top around, root.Inside top around →
        ∀ (parent target : Query) (options : JoinOptions),
          (target.mergeableTable options.kind).isSome →
          parent.joinQuery target options = .ok top.query →
          ∃ label display,
            parent.claimAlias (target.name.getD target.defaultSource) options.label = .ok label ∧
            top.scope.resolve label = .ok display ∧
            ∀ i p condition, target.filters[i]? = some p → p.body.Narrows condition →
              ∃ inner e r, top.Narrowing (parent.filters.length + i) condition inner e r ∧
                (∀ b, condition.Names b → b ∈ e.qualifiers) ∧
                ∀ (j : Nat) (x : String), e.qualifiers[j]? = some x →
                  ∃ d, r.qualifiers[j]? = some d ∧
                    (inner.query.hasSource x ∨ top.scope.isBound x) ∧
                    (d = display ↔ x = label) := by
  obtain ⟨s, root, hs, htext, hquery, hopens⟩ := CompiledLevel.exists_opens hsql
  refine ⟨s, root, hs, htext, hquery, hopens, ?_⟩
  intro top around hinside parent target options hmerge hflat
  obtain ⟨label, hclaim, hmerges⟩ := Query.merges_of_joinQuery hmerge hflat
  have hlabel : label ∈ top.query.sources.map (·.label) := by simp [hmerges.labels_eq]
  obtain ⟨display, hdisplay, -, -⟩ := top.binds.own label hlabel
  refine ⟨label, display, hclaim, hdisplay, ?_⟩
  intro i p condition hp hbody
  obtain ⟨depth, hdepth⟩ : ∃ depth, Calls.deep = .within (depth + 1) := ⟨999999, rfl⟩
  obtain ⟨inner, e, r, statement, hnarrowing, hembeds, hfetched, hnames⟩ :=
    CompiledLevel.exists_narrowing hdepth hmerges hp hbody
  refine ⟨inner, e, r, hnarrowing, hnames, ?_⟩
  intro j x hx
  obtain ⟨-, ⟨k, rows, -, hcondition⟩⟩ := hnarrowing
  obtain ⟨d, hd, hresolve⟩ := hcondition.becomes.qualifier hx
  exact ⟨d, hd, hembeds.bound_of_resolve hfetched.context_eq hresolve,
    hembeds.resolve_own_iff (hinside.surrounded hopens).covered hfetched.context_eq
      hfetched.unbound hlabel hdisplay hresolve⟩

/-! ### Trips whose stops name the trip -/

/-- Asks for the day of the trip. -/
def onLateDay : ExprTerm := .apply .gt (.column (.up 0) (some "trip") "day") (.value (.raw "5"))

/-- Trips with some stop, where the callback on the stops is about the trip. -/
def stoppedTrips : Query :=
  (Query.ofRelation ⟨journeys, 0, journeys_inhabited⟩).filter
    ⟨.existsRow (.filter (.fetch (.up 0) none "stop" none) onLateDay), []⟩

/-- The condition of a join to every row. -/
def everyRow : ExprTerm := .value (.raw "TRUE")

/-- Joins every row, under this alias or else under a name of the target. -/
def everywhere (label : Option String) : JoinOptions where
  label := label
  on := some ⟨everyRow, []⟩

/-- Joined under their own name, the trips are what the callback is about. -/
theorem narrowing_reaches_stoppedTrips :
    ∃ flat text s display, (Query.ofTable "route").joinQuery stoppedTrips (everywhere none) =
        .ok flat ∧ flat.toSql = .ok text ∧ flat.statement = .ok s ∧ s.print = text ∧
      ∃ top : CompiledLevel .hoisted .deep, top.query = flat ∧ s.body = top.select ∧
        top.scope.resolve "trip" = .ok display ∧
        ∃ inner e r, top.Narrowing 0 onLateDay inner e r ∧
          ∃ j : Nat, e.qualifiers[j]? = some "trip" ∧ r.qualifiers[j]? = some display := by
  have hsql : ((Query.ofTable "route").joinQuery stoppedTrips (everywhere none)).map
      (·.toSql.isOk) = .ok true := by decide +kernel
  have hlabel : (Query.ofTable "route").claimAlias "trip" none = .ok "trip" := by decide +kernel
  obtain ⟨flat, hflat, hsql⟩ := except_map_eq_ok_iff.mp hsql
  obtain ⟨text, htext⟩ := except_isOk_iff.mp hsql
  obtain ⟨s, root, hs, hprint, rfl, hopens, hreaches⟩ := narrowing_reaches_merged_iff htext
  obtain ⟨label, display, hclaim, hdisplay, hnarrowing⟩ := hreaches root [] .root _ _ _ rfl hflat
  obtain rfl := Except.ok.inj (hlabel.symm.trans hclaim)
  obtain ⟨inner, e, r, hinner, hnames, hqualifiers⟩ := hnarrowing 0 _ onLateDay rfl
    (.existsRow (.filter .fetch))
  obtain ⟨j, hj⟩ := List.mem_iff_getElem?.mp (hnames "trip" (.operand .applyLeft .column))
  obtain ⟨d, hd, -, heq⟩ := hqualifiers j "trip" hj
  obtain rfl := heq.mpr rfl
  exact ⟨_, text, s, _, hflat, htext, hs, hprint, root, rfl, hopens.body_eq, hdisplay,
    inner, e, r, hinner, j, hj, hd⟩

/-- Under another alias the callback finds nothing that is called `trip`. And next to a table of
that name it is about this table. -/
theorem narrowing_misses_merged :
    (∃ flat, (Query.ofTable "route").joinQuery stoppedTrips (everywhere (some "late")) = .ok flat ∧
      flat.toSql = .error (.error (.unresolvedSource "trip"))) ∧
    ∃ flat, (Query.ofTable "trip").joinQuery stoppedTrips (everywhere (some "late")) = .ok flat ∧
      flat.toSql = .ok
        ("SELECT *\nFROM \"trip\" AS \"trip\"\n    INNER JOIN \"trip\" AS \"late\" ON TRUE\n" ++
        "WHERE EXISTS (SELECT 1\n    FROM \"stop\" AS \"stop\"\n" ++
        "    WHERE (\"late\".\"id\" = (\"stop\".\"tripId\"))\n" ++
        "        AND (\"trip\".\"day\" > (5)))") := by
  refine ⟨except_map_eq_ok_iff.mp ?_, except_map_eq_ok_iff.mp ?_⟩
  · decide +kernel
  · decide +kernel

end Sql

end QueryBuilder
