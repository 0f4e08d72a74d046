import QueryBuilder.Proofs.HoistedEntries
import QueryBuilder.Proofs.RowHandles

/-! Associations followed one after the other.

The first association that is followed from a row starts a query in the scope of the row, the next
ones are joined to it, each to the source of the one before. Names are claimed against this query
and the scope of the row, so none of the sources is called like anything that the row can see. When
the query is compiled as a subquery, the name that the first condition has for the row's own source
is therefore looked up in the scope of the row, whatever stands around.

This settles which alias each name is written as, but not that the aliases differ. An alias that the
subquery claims is none of those in use, and what the scope of a row has for the row's source is in
use wherever the row comes from a level that is still being compiled. A row that was made outside
of any compilation comes from no level. -/
namespace QueryBuilder

/-! ### Chains -/

/-- A step of a chain: the association, the relation it leads to, and the alias of this one. -/
structure FetchLink where
  association : Association
  target : RelationRef
  label : String

/-- The source that the step adds. -/
def FetchLink.source (link : FetchLink) : Source := ⟨link.label, .ofRelation link.target⟩

/-- The clauses that join the links one to the next, and the first of them to `owner`. -/
def joinClauses (owner : String) : List FetchLink → List JoinClause
  | [] => []
  | link :: rest =>
    link.association.joinClause owner link.label .inner :: joinClauses link.label rest

/-- A chain that starts at the source `owner` of the scope: its first link under the condition
that ties it to this source, and the others joined to it. -/
def Query.chain (scope : Scope) (owner : String) (first : FetchLink) (rest : List FetchLink) :
    Query where
  name := none
  sources := (first :: rest).map FetchLink.source
  filters := [first.association.predicate owner first.label]
  sorting := none
  projections := []
  joins := joinClauses first.label rest
  includes := []
  context := some scope
  baseSource := first.label
  defaultSource := first.label
  limit := none

/-- The associations have these names, the first of them in the relation and each of the others in
the one that the association before it leads to. -/
inductive Follows : RelationRef → List String → List FetchLink → Prop
  | nil {relation} : Follows relation [] []
  | cons {relation : RelationRef} {name : String} {names : List String} {link : FetchLink}
      {rest : List FetchLink} : relation.association name = .ok link.association →
      relation.sibling link.association.target = .ok link.target →
      Follows link.target names rest → Follows relation (name :: names) (link :: rest)

theorem Follows.length_eq {relation : RelationRef} {names : List String} {links : List FetchLink}
    (h : Follows relation names links) : names.length = links.length := by
  induction h with
  | nil => rfl
  | cons _ _ _ ih => rw [List.length_cons, List.length_cons, ih]

/-- The name that the row has for its own source. -/
def Row.origin (r : Row) : String := r.substitute r.defaultSource

/-- Follows the associations one after the other. -/
def Row.fetchAll (r : Row) : List String → Except Error Row
  | [] => .ok r
  | name :: names => do (← r.fetch name).fetchAll names

theorem joinClauses_concat (first : FetchLink) (rest : List FetchLink) (link : FetchLink) :
    joinClauses first.label (rest ++ [link]) = joinClauses first.label rest ++
      [link.association.joinClause (rest.getLastD first).label link.label .inner] := by
  induction rest generalizing first with
  | nil => rfl
  | cons next rest ih =>
    rw [List.getLastD_cons, List.cons_append, joinClauses, joinClauses, ih, List.cons_append]

/-- A further link is a further source, joined to the last one. -/
theorem Query.chain_concat (scope : Scope) (owner : String) (first : FetchLink)
    (rest : List FetchLink) (link : FetchLink) :
    (chain scope owner first rest).attach link.source
        (link.association.joinClause (rest.getLastD first).label link.label .inner) =
      chain scope owner first (rest ++ [link]) := by
  simp [chain, attach, joinClauses_concat]

/-! ### Rows that have been fetched -/

/-- The row stands for the last link of a chain, whose aliases are distinct and free in the
scope. -/
structure Row.AtEnd (f : Row) (scope : Scope) (owner : String) (first : FetchLink)
    (rest : List FetchLink) : Prop where
  row_eq : f = ⟨.chain scope owner first rest, [], (rest.getLastD first).label, scope, true⟩
  relation : f.relationOf f.defaultSource = .ok (some (rest.getLastD first).target)
  nodup : ((first :: rest).map (·.label)).Nodup
  free : ∀ link ∈ first :: rest, scope.isBound link.label = false

/-- What a fetch that succeeds has found, and what it gives. -/
theorem Row.fetchFrom_run {r r' : Row} {source name : String} {requested : Option String}
    (h : r.fetchFrom source name requested = .ok r') :
    ∃ (relation : RelationRef) (link : FetchLink),
      r.relationOf (r.substitute source) = .ok (some relation) ∧
      relation.association name = .ok link.association ∧
      relation.sibling link.association.target = .ok link.target ∧
      r.isVisible link.label = false ∧
      r' = if r.fetched then
        { r with
          query := r.query.attach link.source
            (link.association.joinClause (r.substitute source) link.label .inner)
          defaultSource := link.label }
      else ⟨.chain r.scope (r.substitute source) link [], [], link.label, r.scope, true⟩ := by
  simp only [fetchFrom, except_bind_eq_ok_iff] at h
  obtain ⟨found, hfound, h⟩ := h
  cases found with
  | none => cases h
  | some relation =>
    simp only [except_bind_eq_ok_iff] at h
    obtain ⟨association, hassociation, target, htarget, label, hlabel, h⟩ := h
    refine ⟨relation, ⟨association, target, label⟩, hfound, hassociation, htarget,
      not_visible_of_claimAlias hlabel, ?_⟩
    cases hfetched : r.fetched with
    | true | false =>
      rw [hfetched] at h
      exact (Except.ok.inj h).symm

theorem Row.fetch_run {r r' : Row} {name : String} {requested : Option String}
    (h : r.fetch name requested = .ok r') :
    ∃ (relation : RelationRef) (link : FetchLink),
      r.relationOf r.origin = .ok (some relation) ∧
      relation.association name = .ok link.association ∧
      relation.sibling link.association.target = .ok link.target ∧
      r.isVisible link.label = false ∧
      r' = if r.fetched then
        { r with
          query := r.query.attach link.source
            (link.association.joinClause r.origin link.label .inner)
          defaultSource := link.label }
      else ⟨.chain r.scope r.origin link [], [], link.label, r.scope, true⟩ :=
  fetchFrom_run h

/-- The step: what is followed from the end of a chain is joined there. -/
theorem Row.AtEnd.fetch {f f' : Row} {scope : Scope} {owner : String} {first : FetchLink}
    {rest : List FetchLink} (h : f.AtEnd scope owner first rest) {name : String}
    (hfetch : f.fetch name = .ok f') :
    ∃ link, (rest.getLastD first).target.association name = .ok link.association ∧
      (rest.getLastD first).target.sibling link.association.target = .ok link.target ∧
      f'.AtEnd scope owner first (rest ++ [link]) := by
  obtain ⟨relation, link, hrelation, hassociation, htarget, hvisible, hf'⟩ := fetch_run hfetch
  obtain ⟨hnew, hunbound⟩ := not_visible_iff.mp hvisible
  obtain ⟨hrow, hfound, hnodup, hfree⟩ := h
  subst hrow
  rw [origin, substitute_nil rfl, hfound] at hrelation
  obtain rfl := Option.some.inj (Except.ok.inj hrelation)
  have hlabels : link.label ∉ (first :: rest).map (·.label) := by
    simpa [Query.chain, FetchLink.source] using hnew
  have hrow : f' = ⟨.chain scope owner first (rest ++ [link]), [], link.label, scope, true⟩ := by
    rw [hf', if_pos rfl, origin, substitute_nil rfl, ← Query.chain_concat]
  have hsource : f'.query.source? link.label = some (.ofRelation link.target) := by
    have hnone : (Query.chain scope owner first rest).source? link.label = none := by
      have hsource := Query.hasSource_eq_false_iff.mpr hnew
      simpa [Query.hasSource] using hsource
    rw [hf', if_pos rfl]
    simp [Query.source?_attach, hnone, FetchLink.source]
  refine ⟨link, hassociation, htarget, ?_, ?_, ?_, ?_⟩
  · rw [hrow, List.getLastD_concat]
  · rw [List.getLastD_concat]
    subst hrow
    simp [relationOf, hsource, DataSource.relation, DataSource.ofRelation]
  · rw [← List.cons_append, List.map_append]
    exact hnodup.append (List.nodup_singleton _) (List.disjoint_singleton.mpr hlabels)
  · rw [← List.cons_append]
    exact List.forall_mem_append.mpr ⟨hfree, by simpa using hunbound⟩

/-- The start: what is followed from a row that has not been fetched begins a chain. -/
theorem Row.atEnd_of_fetch {r f : Row} (hr : r.fetched = false) {name : String}
    (hfetch : r.fetch name = .ok f) :
    ∃ relation first, r.relationOf r.origin = .ok (some relation) ∧
      relation.association name = .ok first.association ∧
      relation.sibling first.association.target = .ok first.target ∧
      f.AtEnd r.scope r.origin first [] := by
  obtain ⟨relation, first, hrelation, hassociation, htarget, hvisible, hf⟩ := fetch_run hfetch
  rw [hr] at hf
  subst hf
  refine ⟨relation, first, hrelation, hassociation, htarget, rfl, ?_, by simp, ?_⟩
  · simp [relationOf, Query.source?, Query.chain, FetchLink.source, DataSource.relation,
      DataSource.ofRelation]
  · simpa using (not_visible_iff.mp hvisible).2

/-- The run: whatever is followed from the end of a chain prolongs it. -/
theorem Row.AtEnd.fetchAll {f f' : Row} {scope : Scope} {owner : String} {first : FetchLink}
    {rest : List FetchLink} (h : f.AtEnd scope owner first rest) {names : List String}
    (hfetch : f.fetchAll names = .ok f') :
    ∃ more, Follows (rest.getLastD first).target names more ∧
      f'.AtEnd scope owner first (rest ++ more) := by
  induction names generalizing f rest with
  | nil =>
    obtain rfl := Except.ok.inj hfetch
    exact ⟨[], .nil, by simpa using h⟩
  | cons name names ih =>
    obtain ⟨next, hnext, hrest⟩ := except_bind_eq_ok_iff.mp hfetch
    obtain ⟨link, hassociation, htarget, hend⟩ := h.fetch hnext
    obtain ⟨more, hfollows, hend'⟩ := ih hend hrest
    rw [List.getLastD_concat] at hfollows
    refine ⟨link :: more, .cons hassociation htarget hfollows, ?_⟩
    rwa [List.append_assoc] at hend'

theorem Row.fetchAll_run {r f : Row} (hr : r.fetched = false) {names : List String}
    (hnames : names ≠ []) (hfetch : r.fetchAll names = .ok f) :
    ∃ relation first rest, r.relationOf r.origin = .ok (some relation) ∧
      Follows relation names (first :: rest) ∧
      f.AtEnd r.scope r.origin first rest := by
  cases names with
  | nil => exact absurd rfl hnames
  | cons name names =>
    obtain ⟨start, hstart, hrest⟩ := except_bind_eq_ok_iff.mp hfetch
    obtain ⟨relation, first, hrelation, hassociation, htarget, hend⟩ := atEnd_of_fetch hr hstart
    obtain ⟨more, hfollows, hend'⟩ := hend.fetchAll hrest
    exact ⟨relation, first, more, hrelation, .cons hassociation htarget hfollows, hend'⟩

/-! ### Compiled chains -/

/-- A scope as a function that gives every source its alias. -/
theorem Scope.exists_shown (scope : Scope) :
    ∃ shown : String → String, ∀ x d, scope.resolve x = .ok d → shown x = d :=
  ⟨fun x => (scope.resolve x).toOption.getD "", fun x d hd => by simp [hd, Except.toOption]⟩

/-- The equation of the columns that the association joins, between these aliases. -/
def Association.equation {σ : Type} (a : Association) (owner target : String) : Expr σ :=
  (Expr.column (a.sides owner target).1 a.targetKey).apply .eq
    (.column (a.sides owner target).2 a.foreignKey)

/-- The condition of an association is the equation of what its two aliases stand for. -/
theorem Association.condition_eq_equation (a : Association) (row : Row) (owner target : String) :
    a.condition row owner target = a.equation (row.substitute owner) (row.substitute target) := by
  unfold condition keyPairs equation sides Row.columnOf
  cases a.direction <;> rfl

/-- In a row that calls every source by its own name, it is that of the aliases themselves. -/
theorem Association.condition_eq (a : Association) {row : Row} (hrow : row.substitutions = [])
    (owner target : String) : a.condition row owner target = a.equation owner target := by
  rw [condition_eq_equation, Row.substitute_nil hrow, Row.substitute_nil hrow]

namespace Sql
variable {placement : EntryPlacement} {calls : Calls}

/-- The joins of a chain whose aliases are written as `shown` has it. -/
def joinsAlong (shown : String → String) (owner : String) : List FetchLink → List Join
  | [] => []
  | link :: rest =>
    ⟨.inner, ⟨.table link.target.name, shown link.label⟩,
      link.association.equation (shown owner) (shown link.label)⟩ ::
      joinsAlong shown link.label rest

/-- The select of a chain: each link is joined to the one before, and the condition of the first
one ties it to the source that the chain starts from. -/
def selectAlong (items : List SelectItem) (shown : String → String) (owner : String)
    (first : FetchLink) (rest : List FetchLink) : Select where
  items := items
  base := ⟨.table first.target.name, shown first.label⟩
  joins := joinsAlong shown first.label rest
  conditions := [first.association.equation (shown owner) (shown first.label)]
  sorting := []
  limit := none

section
variable {subquery : Query → Scope → Naming Statement} {l : LevelScope} {shown : String → String}
  {n n' : Names}

/-- An equation is resolved side by side. -/
theorem resolve_equation (hshown : ∀ x d, l.scope.resolve x = .ok d → shown x = d)
    {a : Association} {owner target : String} {r : Expr Statement}
    (h : resolve subquery l.scope (a.equation owner target) n = .ok (r, n')) :
    l.scope.resolve owner = .ok (shown owner) ∧ l.scope.resolve target = .ok (shown target) ∧
      r = a.equation (shown owner) (shown target) ∧ n' = n := by
  replace h := resolves_of_run h
  simp only [Association.equation] at h ⊢
  cases h with
  | binary hl hr =>
    cases hl with
    | column hleft =>
      cases hr with
      | column hright =>
        obtain rfl := hshown _ _ hleft
        obtain rfl := hshown _ _ hright
        cases hdirection : a.direction with
        | hasMany | belongsTo =>
          simp only [Association.sides, hdirection] at hleft hright
          simp [Association.sides, hdirection, hleft, hright, Expr.apply, Expr.isAtomic]

/-- The condition of an association, given and resolved. -/
theorem resolve_predicate (hshown : ∀ x d, l.scope.resolve x = .ok d → shown x = d) {row : Row}
    (hrow : row.substitutions = []) {a : Association} {owner target : String} {e : Expr Query}
    {r : Expr Statement} (happly : (a.predicate owner target).apply calls row = .ok e)
    (h : resolve subquery l.scope e n = .ok (r, n')) :
    l.scope.resolve owner = .ok (shown owner) ∧ l.scope.resolve target = .ok (shown target) ∧
      r = a.equation (shown owner) (shown target) ∧ n' = n := by
  obtain rfl : a.equation owner target = e := by
    rw [← a.condition_eq hrow]
    exact Except.ok.inj happly
  exact resolve_equation hshown h

/-- The only filter of a chain, resolved. -/
theorem filtered_along (hshown : ∀ x d, l.scope.resolve x = .ok d → shown x = d) {row : Row}
    (hrow : row.substitutions = []) {a : Association} {owner target : String}
    {conditions : List (Expr Statement)}
    (h : filtered calls (resolve subquery l.scope) row [a.predicate owner target] n =
      .ok (conditions, n')) :
    l.scope.resolve owner = .ok (shown owner) ∧
      conditions = [a.equation (shown owner) (shown target)] := by
  obtain ⟨es, happly, hresolves⟩ := filtered_run h
  cases happly with
  | cons hfirst hnil =>
    cases hnil
    cases hresolves with
    | cons he hnone =>
      cases hnone
      obtain ⟨howner, -, rfl, -⟩ := resolve_predicate hshown hrow hfirst he
      exact ⟨howner, rfl⟩

theorem item_eq_shown (hshown : ∀ x d, l.scope.resolve x = .ok d → shown x = d)
    {item : TableItem} {label : String} {table : TableRef} (hitem : l.item label = .ok item)
    (htable : item.table = table) : item = ⟨table, shown label⟩ := by
  have hlabel := hshown _ _ (LevelScope.resolve_of_item hitem)
  rw [hlabel, ← htable]

/-- The joins of a chain, resolved one after the other. -/
theorem joined_along (hshown : ∀ x d, l.scope.resolve x = .ok d → shown x = d) {row : Row}
    (hrow : row.substitutions = []) {owner : String} {links : List FetchLink} {js : List Join}
    (htables : ∀ link ∈ links, ∀ item, l.item link.label = .ok item →
      item.table = .table link.target.name)
    (h : (joinClauses owner links).mapM (joined calls (resolve subquery l.scope) row l) n =
      .ok (js, n')) : js = joinsAlong shown owner links ∧ n' = n := by
  induction links generalizing owner js n with
  | nil =>
    rw [joinClauses, List.mapM_nil, pure_eq_ok_iff] at h
    exact h
  | cons link rest ih =>
    simp only [joinClauses, List.mapM_cons, bind_eq_ok_iff, pure_eq_ok_iff] at h
    obtain ⟨j, m, hj, js', m', hrest, rfl, rfl⟩ := h
    obtain ⟨e, happly, hr, hitem, hkind⟩ := joined_run hj
    obtain ⟨-, -, hcondition, rfl⟩ := resolve_predicate hshown hrow happly hr
    obtain ⟨rfl, rfl⟩ := ih (fun link' hmem => htables link' (List.mem_cons_of_mem _ hmem)) hrest
    have hitem' := item_eq_shown hshown hitem (htables link (List.mem_cons_self ..) _ hitem)
    obtain ⟨kind, item, condition⟩ := j
    dsimp only at hitem' hkind hcondition
    subst hitem' hkind hcondition
    exact ⟨rfl, rfl⟩

end

/-- What a table is read as is that table. -/
theorem table_of_item {level : Query → Option Scope → Naming Select} {sources : List Source}
    (hnodup : (sources.map (·.label)).Nodup) {l l' : LevelScope} {n n' : Names}
    (h : sources.foldlM (visit level) l n = .ok (l', n')) {s : Source} (hs : s ∈ sources)
    {name : String} {relation : Option RelationRef} (hdata : s.data = .table name relation)
    {item : TableItem} (hitem : l'.item s.label = .ok item) : item.table = .table name := by
  obtain ⟨items, hitems, hreads⟩ := visits_read hnodup h
  obtain ⟨i, hi, rfl⟩ := List.getElem_of_mem hs
  have hi' := hitems.length_eq ▸ hi
  obtain rfl := Except.ok.inj (hitem.symm.trans (hitems.get hi hi'))
  have hread := hreads.get hi hi'
  rw [List.get_eq_getElem, hdata] at hread
  generalize (items.get ⟨i, hi'⟩).table = table at hread ⊢
  cases hread
  rfl

/-- The sources of a level are written under aliases that all differ and were not in use. -/
theorem BindsSources.written {parent : Option Scope} {before after : Names} {labels : List String}
    {scope : Scope} (h : BindsSources parent before labels scope after) (hnodup : labels.Nodup)
    {shown : String → String} (hshown : ∀ x d, scope.resolve x = .ok d → shown x = d) :
    (labels.map shown).Nodup ∧ ∀ d ∈ labels.map shown, d ∉ before.used := by
  have hown : ∀ x ∈ labels, scope.resolve x = .ok (shown x) ∧ shown x ∉ before.used := by
    intro x hx
    obtain ⟨d, hd, hnew, -⟩ := h.own x hx
    obtain rfl := hshown x d hd
    exact ⟨hd, hnew⟩
  refine ⟨hnodup.map_on fun x hx y hy hsame => h.apart x hx y hy ?_, ?_⟩
  · rw [(hown x hx).1, (hown y hy).1, hsame]
  · exact List.forall_mem_map.mpr fun x hx => (hown x hx).2

/-- A chain in its scope, whatever is selected from it: the source that it starts from is written as
in the scope, and its own ones under aliases that all differ and were not in use. -/
theorem compileLevel_chain {depth : Nat} {scope : Scope} {owner : String} {first : FetchLink}
    {rest : List FetchLink} {projections : List Projection} {s : Select} {n n' : Names}
    (hnodup : ((first :: rest).map (·.label)).Nodup)
    (howner : owner ∉ (first :: rest).map (·.label))
    (h : compileLevel placement calls depth
      { Query.chain scope owner first rest with projections } (some scope) n = .ok (s, n')) :
    ∃ shown : String → String, scope.resolve owner = .ok (shown owner) ∧
      s = selectAlong s.items shown owner first rest ∧
      (((first :: rest).map (·.label)).map shown).Nodup ∧
      ∀ d ∈ ((first :: rest).map (·.label)).map shown, d ∉ n.used := by
  cases depth with
  | zero => simp [compileLevel, checked_eq_ok_iff] at h
  | succ depth =>
    simp only [compileLevel, levelOf, bind_eq_ok_iff, pure_eq_ok_iff, checked_eq_ok_iff,
      noting_except, liftError_eq_ok_iff] at h
    obtain ⟨l, m, hvisit, items, m₁, hitems, base, m₂, ⟨hbase, rfl⟩, joins, m₃, hjoins, conditions,
      m₄, hconditions, sorting, m₅, hsorting, rfl, rfl⟩ := h
    have hlabels : (Query.chain scope owner first rest).sources.map (·.label) =
        (first :: rest).map (·.label) := by simp [Query.chain, FetchLink.source]
    have hbinds := visits_binds (compileLevel_grows placement calls depth) hvisit
    rw [hlabels] at hbinds
    obtain ⟨shown, hshown⟩ := l.scope.exists_shown
    have htables : ∀ link ∈ first :: rest, ∀ item, l.item link.label = .ok item →
        item.table = .table link.target.name := by
      intro link hlink item hitem
      exact table_of_item (hlabels ▸ hnodup) hvisit (List.mem_map_of_mem hlink) rfl hitem
    have hrow : (Row.bound { Query.chain scope owner first rest with projections }
      l.scope).substitutions = [] := rfl
    -- The base, the joins and the condition, in this order.
    obtain rfl := item_eq_shown hshown hbase (htables first (List.mem_cons_self ..) _ hbase)
    obtain ⟨rfl, rfl⟩ := joined_along hshown hrow
      (fun link hlink => htables link (List.mem_cons_of_mem _ hlink)) hjoins
    obtain ⟨howner', rfl⟩ := filtered_along hshown hrow hconditions
    obtain ⟨rfl, rfl⟩ := pure_eq_ok_iff.mp hsorting
    refine ⟨shown, ?_, rfl, hbinds.written hnodup hshown⟩
    rw [← howner']
    unfold Scope.resolve
    rw [hbinds.around owner howner, Scope.lookup_child_some]

/-- A query of an expression is compiled as a subquery with more names in use. -/
theorem exists_compiled_subquery {depth : Nat} {scope : Scope} {e : Expr Query} {r : Expr Statement}
    {n n' : Names}
    (h : resolve (subqueryOf placement (compileLevel placement calls depth)) scope e n =
      .ok (r, n')) {q : Query} (hq : q ∈ e.subqueries) :
    ∃ m m' statement, (∀ d ∈ n.used, d ∈ m.used) ∧ statement ∈ r.subqueries ∧
      compileLevel placement calls depth q (some (q.context.getD scope)) m =
        .ok (statement.body, m') := by
  obtain ⟨m, m', statement, hm, -, hmem, hs⟩ :=
    exists_subquery_run (compileLevel_grows placement calls depth) h hq
  rcases subqueryOf_run hs with ⟨-, s, hrun, rfl⟩ | ⟨-, s, k, hrun, rfl, -⟩
  · refine ⟨_, _, ⟨[], s⟩, ?_, hmem, hrun⟩
    exact hm.used
  · refine ⟨_, _, ⟨k.pending, s⟩, ?_, hmem, hrun⟩
    exact hm.used

theorem CompiledLevel.Becomes.compiles {outer : CompiledLevel placement calls} {e : Expr Query}
    {r : Expr Statement} (h : outer.Becomes e r) {q : Query} (hq : q ∈ e.subqueries) :
    ∃ n n' statement, (∀ d ∈ outer.visited.used, d ∈ n.used) ∧ statement ∈ r.subqueries ∧
      compileLevel placement calls outer.depth q (some (q.context.getD outer.scope)) n =
        .ok (statement.body, n') := by
  obtain ⟨m, m', hm, -, h⟩ := h
  obtain ⟨n, n', statement, hn, hmem, hrun⟩ := exists_compiled_subquery h hq
  exact ⟨n, n', statement, fun d hd => hn d (hm.used d hd), hmem, hrun⟩

end Sql

/-! ### Rows that chains start from -/

/-- The rows that callbacks are called with, and those of queries outside of any compilation. -/
inductive Row.Handed : Row → Prop
  | made (q : Query) : Handed (.ofQuery q)
  | received {placement calls} {level : Sql.CompiledLevel placement calls} {r : Row} :
      level.Receives r → Handed r

theorem Row.Handed.not_fetched {r : Row} (h : r.Handed) : r.fetched = false := by
  cases h with
  | made => rfl
  | received h => cases h <;> rfl

/-- Outside of any compilation every source is bound. -/
theorem Query.isBound_ownScope {q : Query} {label : String} (h : q.hasSource label) :
    q.ownScope.isBound label := by
  obtain ⟨s, hs, rfl⟩ := hasSource_iff.mp h
  have hfold : ∀ (sources : List Source) (scope : Scope),
      scope.isBound s.label ∨ s ∈ sources →
      (sources.foldl (fun scope s => scope.bind s.label ⟨s.label, s.data.relation⟩)
        scope).isBound s.label := by
    intro sources
    induction sources with
    | nil =>
      intro scope h
      simpa using h
    | cons first rest ih =>
      intro scope h
      refine ih _ ?_
      unfold Scope.isBound at h ⊢
      rw [Scope.lookup_bind]
      by_cases heq : s.label = first.label
      · simp [heq]
      · rw [if_neg heq]
        rcases h with h | h
        · exact .inl h
        · exact .inr ((List.mem_cons.mp h).resolve_left fun he => heq (by rw [he]))
  exact hfold _ _ (.inr hs)

/-- Whatever source such a row has, its scope has too. -/
theorem Row.Handed.isVisible_eq {r : Row} (h : r.Handed) (label : String) :
    r.isVisible label = r.scope.isBound label := by
  have hbound : r.query.hasSource label → r.scope.isBound label := by
    intro hsource
    cases h with
    | made q => exact Query.isBound_ownScope hsource
    | @received _ _ level _ h =>
      have hlevel : level.query.hasSource label → level.scope.isBound label := by
        intro hsource
        obtain ⟨d, hd, -⟩ := level.exists_alias hsource
        exact Scope.isBound_of_resolve hd
      cases h <;> exact hlevel hsource
  cases hsource : r.query.hasSource label with
  | true => simp [isVisible, hsource, hbound hsource]
  | false => simp [isVisible, hsource]

namespace Sql

/-- **Associations that are followed in a chain give one subquery, tied to the row.** Its sources
are the links of the chain; each is joined to the one before, and the condition of the first one
ties it to the row's own source. In a statement this source is written as the scope of the row has
it, and the links under the aliases of the subquery's own items. None of these is the alias of the
row's source if that one is in use where the subquery is compiled, and so in every callback, of the
row's level or below, that a row of a level is used in. -/
theorem fetched_chain_correlated {r f : Row} (hr : r.Handed) {names : List String}
    (hnames : names ≠ []) (hfetch : r.fetchAll names = .ok f) :
    ∃ (relation : RelationRef) (first : FetchLink) (rest : List FetchLink),
      r.relationOf r.origin = .ok (some relation) ∧ Follows relation names (first :: rest) ∧
      f.query = .chain r.scope r.origin first rest ∧ f.query.sources.length = names.length ∧
      f.defaultSource = (rest.getLastD first).label ∧
      ((first :: rest).map (·.label)).Nodup ∧
      (∀ link ∈ first :: rest, r.isVisible link.label = false) ∧
      ∀ (placement : EntryPlacement) (calls : Calls) (outer : CompiledLevel placement calls)
        (e : Expr Query) (e' : Expr Statement) (projections : List Projection),
        outer.Becomes e e' → { f.query with projections } ∈ e.subqueries →
        ∃ statement ∈ e'.subqueries, ∃ shown : String → String,
          r.scope.resolve r.origin = .ok (shown r.origin) ∧
          statement.body = selectAlong statement.body.items shown r.origin first rest ∧
          (((first :: rest).map (·.label)).map shown).Nodup ∧
          (shown r.origin ∈ outer.visited.used →
            shown r.origin ∉ ((first :: rest).map (·.label)).map shown) ∧
          ∀ top : CompiledLevel placement calls, outer = top ∨ top.Below outer →
            top.query.Regular → top.Receives r →
            shown r.origin ∉ ((first :: rest).map (·.label)).map shown := by
  obtain ⟨relation, first, rest, hrelation, hfollows, hend⟩ :=
    Row.fetchAll_run hr.not_fetched hnames hfetch
  obtain ⟨rfl, -, hnodup, hfree⟩ := hend
  have hvisible : ∀ link ∈ first :: rest, r.isVisible link.label = false := by
    intro link hlink
    rw [hr.isVisible_eq]
    exact hfree link hlink
  have horigin : r.origin ∉ (first :: rest).map (·.label) := by
    intro hmem
    obtain ⟨link, hlink, hlabel⟩ := List.mem_map.mp hmem
    have hfirst := Row.isVisible_of_relationOf hrelation
    rw [← hlabel, hvisible link hlink] at hfirst
    cases hfirst
  refine ⟨relation, first, rest, hrelation, hfollows, rfl, ?_, rfl, hnodup, hvisible, ?_⟩
  · rw [hfollows.length_eq]
    exact List.length_map _
  · intro placement calls outer e e' projections hbecomes hq
    obtain ⟨n, n', statement, hgrows, hmem, hrun⟩ := hbecomes.compiles hq
    obtain ⟨shown, hresolve, hselect, hnodup', hnew⟩ := compileLevel_chain hnodup horigin hrun
    have hapart : shown r.origin ∈ outer.visited.used →
        shown r.origin ∉ ((first :: rest).map (·.label)).map shown :=
      fun hused hmem => hnew _ hmem (hgrows _ hused)
    refine ⟨statement, hmem, shown, hresolve, hselect, hnodup', hapart, ?_⟩
    intro top hbelow hregular hreceives
    refine hapart ?_
    have hsource := hreceives.hasSource hregular
    have hscope : r.scope = top.scope := by cases hreceives <;> rfl
    have hused := (CompiledLevel.used_of_resolve hsource (hscope ▸ hresolve)).2
    rcases hbelow with rfl | hbelow
    · exact hused
    · exact outer.before_subset_visited _ (hbelow.subset _ hused)

/-! ### Trips and their stops -/

/-- Trips that have stops, each of which belongs to a trip. -/
def timetable : FrozenSchema where
  stamp := 0
  schema := ⟨[
    ⟨"trip", some "id", (∅ : Std.TreeMap String Association).insert "stop"
      ⟨.hasMany, 0, 1, "tripId", "id"⟩⟩,
    ⟨"stop", some "id", (∅ : Std.TreeMap String Association).insert "trip"
      ⟨.belongsTo, 0, 1, "tripId", "id"⟩⟩]⟩

def timetableTrip : RelationRef := ⟨timetable, 0, by decide⟩

/-- Trips with a stop that has a trip. -/
def tripsOfStops : Query :=
  (Query.ofRelation timetableTrip).filter ⟨.unary "EXISTS " (.subquery (.ofRow
    (.fetch (.fetch (.up 0) none "stop" none) none "trip" none))) "", []⟩

theorem regular_tripsOfStops : tripsOfStops.Regular :=
  (Query.regular_ofSource "trip" "trip" (some timetableTrip)).of_eq rfl rfl rfl rfl rfl

/-- The stops and their trips are joined in one subquery, which refers to the trip around it. -/
theorem tripsOfStops_correlated : ∃ (s : Statement) (root : CompiledLevel .hoisted .deep) (f : Row)
    (first second : FetchLink) (c : Expr Statement) (statement : Statement)
    (shown : String → String), tripsOfStops.statement = .ok s ∧ root.query = tripsOfStops ∧
    root.Opens s ∧ root.row.fetchAll ["stop", "trip"] = .ok f ∧
    f.query = .chain root.scope "trip" first [second] ∧ f.defaultSource = second.label ∧
    c ∈ s.body.conditions ∧ statement ∈ c.subqueries ∧
    statement.body = selectAlong statement.body.items shown "trip" first [second] ∧
    root.scope.resolve "trip" = .ok (shown "trip") ∧
    [shown "trip", shown first.label, shown second.label].Nodup := by
  obtain ⟨text, htext⟩ := except_isOk_iff.mp (by decide +kernel : tripsOfStops.toSql.isOk)
  obtain ⟨s, root, hs, -, hquery, hopens⟩ := CompiledLevel.exists_opens htext
  have hfilters : root.query.filters = tripsOfStops.filters := by rw [hquery]
  obtain ⟨e, c, hcondition, he, -, -⟩ := root.exists_condition (i := 0) (by rw [hfilters]; rfl)
  obtain ⟨q, hq, hsubqueries⟩ := subquery_of_existing he
  simp only [QueryTerm.evaluate, RowTerm.evaluate, noting_except, except_bind_eq_ok_iff,
    except_pure_eq_ok_iff, liftError_eq_ok_iff, Option.getD_none] at hq
  obtain ⟨f, ⟨stops, ⟨row, hrow, hstops⟩, htrips⟩, rfl⟩ := hq
  obtain rfl := Except.ok.inj hrow
  have hfetch : root.row.fetchAll ["stop", "trip"] = .ok f :=
    except_bind_eq_ok_iff.mpr ⟨stops, hstops, except_bind_eq_ok_iff.mpr ⟨f, htrips, rfl⟩⟩
  have horigin : root.row.origin = "trip" := by
    show root.query.defaultSource = "trip"
    rw [hquery]
    rfl
  obtain ⟨relation, first, rest, -, hfollows, hf, -, hdefault, -, -, hcompiled⟩ :=
    fetched_chain_correlated (.received .own) (by simp) hfetch
  rw [horigin] at hf hcompiled
  cases hfollows with
  | cons _ _ hrest =>
    cases hrest with
    | @cons _ _ _ second _ _ _ hnil =>
      cases hnil
      obtain ⟨statement, hstatement, shown, hresolve, hselect, hnodup, -, hapart⟩ :=
        hcompiled .hoisted .deep root e c [] hcondition.becomes
          (hsubqueries ▸ List.mem_singleton.mpr (by rw [hf]; rfl))
      refine ⟨s, root, f, first, second, c, statement, shown, hs, hquery, hopens, hfetch, hf,
        hdefault, ?_, hstatement, hselect, hresolve, ?_⟩
      · rw [hopens.body_eq]
        exact List.mem_of_getElem? hcondition.condition
      · exact List.nodup_cons.mpr
          ⟨hapart root (.inl rfl) (hquery ▸ regular_tripsOfStops) .own, hnodup⟩

/-- A trip under an alias of its own, outside of any compilation. -/
def foreignTrip : Row := .ofQuery (.ofRelation timetableTrip (some "stop_0"))

/-- Stops, restricted by the stops of that trip. -/
def stopsBesideTrip : Query :=
  (Query.ofTable "stop").filter ⟨.unary "EXISTS " (.subquery (.ofRow
    (.fetch (.value foreignTrip) none "stop" none))) "", []⟩

/-- Where nothing keeps the alias of the row's source from being claimed, the subquery hides it. -/
theorem foreignTrip_hidden : foreignTrip.Handed ∧ (foreignTrip.fetchAll ["stop"]).isOk ∧
    foreignTrip.scope.resolve foreignTrip.origin = .ok "stop_0" ∧
    (stopsBesideTrip.statement.map fun s => s.body.conditions.flatMap fun c =>
      c.subqueries.map (·.body.base.label)) = .ok ["stop_0"] ∧
    stopsBesideTrip.toSql = .ok
      ("SELECT *\nFROM \"stop\" AS \"stop\"\nWHERE EXISTS (SELECT *\n" ++
      "    FROM \"stop\" AS \"stop_0\"\n    WHERE \"stop_0\".\"id\" = (\"stop_0\".\"tripId\"))") :=
  ⟨.made _, by decide +kernel, by decide +kernel, by decide +kernel, by decide +kernel⟩

end Sql

end QueryBuilder
