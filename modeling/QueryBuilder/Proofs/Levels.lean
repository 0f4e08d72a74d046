import QueryBuilder.Proofs.Scoping

/-! Levels inside levels.

Compiling a statement runs through levels: that of the query itself, those of the subqueries
that callbacks embed, and those of nested sources. A run of a level is taken here as data,
together with what lies around it. Names only grow from one run to the next, so a display
alias that a level claims is none of those in use before; this is what tells the sources of
a level from everything that is bound around it. -/
namespace QueryBuilder.Sql

/-! ### Names only grow -/

/-- The later names have whatever the earlier ones have. -/
structure Names.Grows (n n' : Names) : Prop where
  used : ∀ d ∈ n.used, d ∈ n'.used
  pending : ∀ entry ∈ n.pending, entry ∈ n'.pending

namespace Names.Grows
variable {n m n' : Names}

theorem refl (n : Names) : n.Grows n := ⟨fun _ h => h, fun _ h => h⟩

theorem trans (h : n.Grows m) (h' : m.Grows n') : n.Grows n' :=
  ⟨fun d hd => h'.used d (h.used d hd), fun e he => h'.pending e (h.pending e he)⟩

theorem withAlias (n : Names) (label : String) (isEntry : Bool) :
    n.Grows (n.withAlias label isEntry) :=
  ⟨fun _ hd => Std.TreeSet.mem_insert.mpr (.inr hd), fun _ h => h⟩

theorem readTables (n : Names) (tables : List String) : n.Grows (n.readTables tables) :=
  ⟨fun _ h => h, fun _ h => h⟩

theorem withEntry (n : Names) (entry : Entry) : n.Grows (n.withEntry entry) :=
  ⟨fun _ h => h, fun _ h => List.mem_append_left _ h⟩

end Names.Grows

theorem mem_used_withAlias (n : Names) (label : String) (isEntry : Bool) :
    label ∈ (n.withAlias label isEntry).used :=
  Std.TreeSet.mem_insert.mpr (.inl (by simp))

/-- How a level is compiled when it takes no name back. -/
def LevelGrows (level : Query → Option Scope → Naming Select) : Prop :=
  ∀ q parent n s n', level q parent n = .ok (s, n') → n.Grows n'

section
variable {placement : EntryPlacement} {level : Query → Option Scope → Naming Select}
  {n n' : Names}

theorem subqueryOf_grows (hlevel : LevelGrows level) {q : Query} {outer : Scope}
    {statement : Statement} (h : subqueryOf placement level q outer n = .ok (statement, n')) :
    n.Grows n' := by
  rcases subqueryOf_run h with ⟨-, s, hs, -⟩ | ⟨-, s, m, hs, -, rfl⟩
  · exact (Names.Grows.readTables n _).trans (hlevel _ _ _ _ _ hs)
  · exact ⟨fun d hd => (hlevel _ _ _ _ _ hs).used d hd, fun _ h => h⟩

theorem Resolves.grows (hlevel : LevelGrows level) {scope : Scope} {e : Expr Query}
    {r : Expr Statement} (h : Resolves (subqueryOf placement level) scope e n r n') :
    n.Grows n' := by
  induction h with
  | column | star | raw | text => exact .refl _
  | unary _ ih => exact ih
  | binary _ _ ihl ihr => exact ihl.trans ihr
  | subquery hs => exact subqueryOf_grows hlevel hs

theorem resolvesAll_grows (hlevel : LevelGrows level) {scope : Scope} {es : List (Expr Query)}
    {rs : List (Expr Statement)}
    (h : ResolvesAll (resolve (subqueryOf placement level) scope) es n rs n') : n.Grows n' := by
  induction h with
  | nil => exact .refl _
  | cons he _ ih => exact ((resolves_of_run he).grows hlevel).trans ih

/-- A visited source gets a display alias that was not in use. -/
theorem visit_claims (hlevel : LevelGrows level) {source : Source} {l l' : LevelScope}
    (h : visit level l source n = .ok (l', n')) :
    ∃ label table, l' = l.bind source label table ∧ label ∉ n.used ∧ label ∈ n'.used ∧
      n.Grows n' := by
  cases hdata : source.data with
  | table name relation =>
    obtain ⟨label, hfresh, -, rfl, rfl⟩ := visit_table_run hdata h
    refine ⟨label, _, rfl, not_used_of_freshAlias hfresh, mem_used_withAlias n label false, ?_⟩
    exact (Names.Grows.withAlias n label false).trans (.readTables _ _)
  | nested inner =>
    obtain ⟨label, body, m, hfresh, hbody, rfl, rfl⟩ := visit_nested_run hdata h
    have hinner := hlevel _ _ _ _ _ hbody
    refine ⟨label, _, rfl, not_used_of_freshAlias hfresh,
      hinner.used _ (mem_used_withAlias _ _ _), ?_⟩
    exact ((Names.Grows.withAlias n label true).trans hinner).trans (.withEntry _ _)

end

/-! ### The scope of a level -/

/-- Every display alias of the scope is in use. -/
def Names.Covers (n : Names) (scope : Scope) : Prop := ∀ d ∈ scope.displayAliases, d ∈ n.used

theorem Names.Covers.mono {n n' : Names} {scope : Scope} (h : n.Covers scope)
    (hn : ∀ d ∈ n.used, d ∈ n'.used) : n'.Covers scope := fun d hd => hn d (h d hd)

theorem Names.Covers.resolve {n : Names} {scope : Scope} (h : n.Covers scope)
    {source display : String} (hresolve : scope.resolve source = .ok display) :
    display ∈ n.used := by
  exact h _ (Scope.mem_displayAliases_of_resolve hresolve)

/-- The scope of a level after some of its sources have been visited: these are written under
aliases of their own that were not in use before, and what they do not hide is as around. -/
structure BindsSources (parent : Option Scope) (before : Names) (labels : List String)
    (scope : Scope) (after : Names) : Prop where
  grows : before.Grows after
  own : ∀ x ∈ labels, ∃ d, scope.resolve x = .ok d ∧ d ∉ before.used ∧ d ∈ after.used
  apart : ∀ x ∈ labels, ∀ y ∈ labels, scope.resolve x = scope.resolve y → x = y
  around : ∀ x, x ∉ labels → scope.lookup x = (Scope.child parent).lookup x
  covers : (∀ outer, parent = some outer → before.Covers outer) → after.Covers scope

theorem BindsSources.bind {parent : Option Scope} {before : Names} {labels : List String}
    {l : LevelScope} {n n' : Names} (h : BindsSources parent before labels l.scope n)
    {source : Source} {label : String} {table : TableRef} (hfresh : label ∉ n.used)
    (hused : label ∈ n'.used) (hgrows : n.Grows n') :
    BindsSources parent before (labels ++ [source.label]) (l.bind source label table).scope n' := by
  have hbefore : label ∉ before.used := fun hmem => hfresh (h.grows.used label hmem)
  have hother : ∀ x ∈ labels, x ≠ source.label → l.scope.resolve x ≠ .ok label := by
    intro x hx _ hsame
    obtain ⟨d, hd, -, hdused⟩ := h.own x hx
    obtain rfl := Except.ok.inj (hd.symm.trans hsame)
    exact hfresh hdused
  have hmem : ∀ x ∈ labels ++ [source.label], x ≠ source.label → x ∈ labels := by
    intro x hx hne
    exact (List.mem_append.mp hx).resolve_right fun hx => hne (List.mem_singleton.mp hx)
  refine ⟨h.grows.trans hgrows, ?_, ?_, ?_, ?_⟩
  · intro x hx
    rw [resolve_bind]
    split
    · exact ⟨label, rfl, hbefore, hused⟩
    · rename_i hne
      obtain ⟨d, hd, hnew, hdused⟩ := h.own x (hmem x hx hne)
      exact ⟨d, hd, hnew, hgrows.used d hdused⟩
  · intro x hx y hy hsame
    rw [resolve_bind, resolve_bind] at hsame
    split at hsame <;> split at hsame
    · rename_i hx' hy'
      exact hx'.trans hy'.symm
    · rename_i hx' hne
      exact absurd hsame.symm (hother y (hmem y hy hne) hne)
    · rename_i hne hy'
      exact absurd hsame (hother x (hmem x hx hne) hne)
    · rename_i hnx hny
      exact h.apart x (hmem x hx hnx) y (hmem y hy hny) hsame
  · intro x hx
    rw [List.mem_append, not_or] at hx
    have hne : x ≠ source.label := fun he => hx.2 (List.mem_singleton.mpr he)
    simp only [LevelScope.bind, Scope.lookup_bind, hne, if_false]
    exact h.around x hx.1
  · intro hparent d hd
    rcases displayAliases_bind hd with rfl | hd
    · exact hused
    · exact hgrows.used d (h.covers hparent d hd)

theorem visits_binds {level : Query → Option Scope → Naming Select} (hlevel : LevelGrows level)
    {sources : List Source} {parent : Option Scope} {l : LevelScope} {n n' : Names}
    (h : sources.foldlM (visit level) { scope := Scope.child parent } n = .ok (l, n')) :
    BindsSources parent n (sources.map (·.label)) l.scope n' := by
  refine visits_invariant
    (I := fun visited l m => BindsSources parent n (visited.map (·.label)) l.scope m) [] ?_ ?_ h
  · intro source _ visited l l' m m' hbefore hvisit
    obtain ⟨label, table, rfl, hfresh, hused, hgrows⟩ := visit_claims hlevel hvisit
    rw [List.map_append]
    exact hbefore.bind hfresh hused hgrows
  · refine ⟨.refl n, by simp, by simp, fun _ _ => rfl, fun hparent d hd => ?_⟩
    cases parent with
    | none => simp [Scope.child, Scope.displayAliases, Scope.levels] at hd
    | some outer =>
      refine hparent outer rfl d ?_
      simpa [Scope.child, Scope.displayAliases, Scope.levels] using hd

/-- A data source is read as the table it is, or as an entry. -/
inductive ReadAs : DataSource → TableRef → Prop
  | table {name relation} : ReadAs (.table name relation) (.table name)
  | nested {query name} : ReadAs (.nested query) (.entry name)

/-- Visiting gives each source an item that reads it. -/
theorem visits_read {level : Query → Option Scope → Naming Select} {sources : List Source}
    (hnodup : (sources.map (·.label)).Nodup) {l l' : LevelScope} {n n' : Names}
    (h : sources.foldlM (visit level) l n = .ok (l', n')) :
    ∃ items, ItemsFor l' sources items ∧
      List.Forall₂ (fun (s : Source) (item : TableItem) => ReadAs s.data item.table) sources items := by
  refine visits_items (I := fun visited items _ _ => List.Forall₂
    (fun (s : Source) (item : TableItem) => ReadAs s.data item.table) visited items) ?_ hnodup .nil h
  intro source _ visited items l l' m m' hvisited hvisit
  cases hdata : source.data with
  | table name relation =>
    obtain ⟨label, -, -, -, hl⟩ := visit_table_run hdata hvisit
    exact ⟨label, _, hl, List.rel_append hvisited (.cons (hdata ▸ .table) .nil)⟩
  | nested inner =>
    obtain ⟨label, _, _, -, -, -, hl⟩ := visit_nested_run hdata hvisit
    exact ⟨label, _, hl, List.rel_append hvisited (.cons (hdata ▸ .nested) .nil)⟩

/-- Compiling a level takes no name back. -/
theorem compileLevel_grows (placement : EntryPlacement) (calls : Calls) (depth : Nat) :
    LevelGrows (compileLevel placement calls depth) := by
  induction depth with
  | zero =>
    intro q parent n s n' h
    simp [compileLevel, checked_eq_ok_iff] at h
  | succ depth ih =>
    intro q parent n s n' h
    obtain ⟨l, m, es, run⟩ := compileLevel_run h
    exact (visits_binds ih run.visits).grows.trans (resolvesAll_grows ih run.resolves)

/-- The queries of an expression are compiled while it is resolved. -/
theorem exists_subquery_run {placement : EntryPlacement} {level : Query → Option Scope → Naming Select}
    (hlevel : LevelGrows level) {scope : Scope} {e : Expr Query} {r : Expr Statement} {n n' : Names}
    (h : resolve (subqueryOf placement level) scope e n = .ok (r, n')) {q : Query}
    (hq : q ∈ e.subqueries) :
    ∃ m m' statement, n.Grows m ∧ m'.Grows n' ∧ statement ∈ r.subqueries ∧
      subqueryOf placement level q scope m = .ok (statement, m') := by
  replace h := resolves_of_run h
  induction h with
  | column | star | raw | text => simp [Expr.subqueries] at hq
  | unary _ ih => exact ih hq
  | binary hl hr ihl ihr =>
    rcases List.mem_append.mp hq with hq | hq
    · obtain ⟨m, m', statement, hm, hm', hmem, hs⟩ := ihl hq
      exact ⟨m, m', statement, hm, hm'.trans (hr.grows hlevel), List.mem_append_left _ hmem, hs⟩
    · obtain ⟨m, m', statement, hm, hm', hmem, hs⟩ := ihr hq
      exact ⟨m, m', statement, (hl.grows hlevel).trans hm, hm', List.mem_append_right _ hmem, hs⟩
  | subquery hs =>
    obtain rfl := List.mem_singleton.mp hq
    exact ⟨_, _, _, .refl _, .refl _, List.mem_singleton_self _, hs⟩

/-! ### Runs of levels -/

/-- A level of a query as it has been compiled somewhere: the scope around it and the names
before and after, the select it gave, the scope of its own sources with the names once these
were visited, and the expressions that its callbacks gave. -/
structure CompiledLevel (placement : EntryPlacement) (calls : Calls) where
  depth : Nat
  query : Query
  parent : Option Scope
  before : Names
  select : Select
  after : Names
  own : LevelScope
  visited : Names
  exprs : List (Expr Query)
  run : LevelRun placement calls depth query parent before select after own visited exprs

namespace CompiledLevel
variable {placement : EntryPlacement} {calls : Calls}

/-- The row that the callbacks of the level are called with. -/
def row (level : CompiledLevel placement calls) : Row := .bound level.query level.own.scope

/-- The scope that the expressions of the level are resolved in. -/
def scope (level : CompiledLevel placement calls) : Scope := level.own.scope

/-- The expression is resolved in the course of the level, to this one. -/
def Becomes (level : CompiledLevel placement calls) (e : Expr Query) (r : Expr Statement) : Prop :=
  ∃ n n', level.visited.Grows n ∧ n'.Grows level.after ∧
    resolve (subqueryOf placement (compileLevel placement calls level.depth)) level.scope e n =
      .ok (r, n')

/-- The filter in this place gives `e`, and the condition in this place is what `e` resolves
to. -/
structure Condition (level : CompiledLevel placement calls) (i : Nat) (e : Expr Query)
    (r : Expr Statement) : Prop where
  given : ∃ p, level.query.filters[i]? = some p ∧ p.apply calls level.row = .ok e
  condition : level.select.conditions[i]? = some r
  becomes : level.Becomes e r

/-- The query is compiled as a subquery of an expression of the level, which becomes the given
statement. Its scope is inside its own context, or else inside that of the level. -/
structure Embeds (outer inner : CompiledLevel placement calls) (statement : Statement) : Prop where
  parent_eq : inner.parent = some (inner.query.context.getD outer.scope)
  grows : ∀ d ∈ outer.visited.used, d ∈ inner.before.used
  body_eq : statement.body = inner.select
  hoists : placement = .hoisted → ∀ entry ∈ inner.after.pending, entry ∈ outer.after.pending
  keeps : placement = .inline → statement.entries = inner.after.pending

/-- The nested source of the level is compiled, in its own context, to an entry. -/
structure Nests (outer inner : CompiledLevel placement calls) (name : String) : Prop where
  parent_eq : inner.parent = inner.query.context
  grows : ∀ d ∈ outer.before.used, d ∈ inner.before.used
  entry : (⟨name, inner.select⟩ : Entry) ∈ outer.after.pending
  hoists : ∀ entry ∈ inner.after.pending, entry ∈ outer.after.pending

theorem exists_of_run {depth : Nat} {q : Query} {parent : Option Scope} {n n' : Names} {s : Select}
    (h : compileLevel placement calls depth q parent n = .ok (s, n')) :
    ∃ level : CompiledLevel placement calls, level.query = q ∧ level.parent = parent ∧
      level.before = n ∧ level.select = s ∧ level.after = n' := by
  cases depth with
  | zero => simp [compileLevel, checked_eq_ok_iff] at h
  | succ depth =>
    obtain ⟨l, m, es, run⟩ := compileLevel_run h
    exact ⟨⟨depth, q, parent, n, s, n', l, m, es, run⟩, rfl, rfl, rfl, rfl, rfl⟩

section
variable (level : CompiledLevel placement calls)

theorem binds : BindsSources level.parent level.before (level.query.sources.map (·.label))
    level.scope level.visited :=
  visits_binds (compileLevel_grows placement calls level.depth) level.run.visits

theorem visited_grows : level.visited.Grows level.after :=
  resolvesAll_grows (compileLevel_grows placement calls level.depth) level.run.resolves

/-- Every expression that the level's callbacks give is resolved. -/
theorem becomes_each {es : List (Expr Query)} {rs : List (Expr Statement)} {n n' : Names}
    (hn : level.visited.Grows n) (hn' : n'.Grows level.after)
    (h : ResolvesAll (resolve (subqueryOf placement (compileLevel placement calls level.depth))
      level.scope) es n rs n') : List.Forall₂ level.Becomes es rs := by
  have hlevel := compileLevel_grows placement calls level.depth
  induction h with
  | nil => exact .nil
  | cons he hrest ih =>
    refine .cons ⟨_, _, hn, (resolvesAll_grows hlevel hrest).trans hn', he⟩ ?_
    exact ih (hn.trans ((resolves_of_run he).grows hlevel)) hn'

theorem becomes_exprs : List.Forall₂ level.Becomes level.exprs level.select.exprs :=
  level.becomes_each (.refl _) (.refl _) level.run.resolves

/-- The filters of a level give its conditions, in their order. -/
theorem exists_given : ∃ given,
    List.Forall₂ (fun p e => p.apply calls level.row = .ok e) level.query.filters given ∧
      List.Forall₂ level.Becomes given level.select.conditions ∧ ∀ e ∈ given, e ∈ level.exprs := by
  have hlevel := compileLevel_grows placement calls level.depth
  obtain ⟨front, given, back, _, _, _, _, hes, hgiven, hfront, hconditions, hback⟩ :=
    level.run.filters
  refine ⟨given, hgiven, level.becomes_each (resolvesAll_grows hlevel hfront)
    (resolvesAll_grows hlevel hback) hconditions, fun e he => ?_⟩
  rw [hes]
  exact List.mem_append_right _ (List.mem_append_left _ he)

/-- Every filter gives a condition, in the same place. -/
theorem exists_condition {i : Nat} {p : Predicate} (hp : level.query.filters[i]? = some p) :
    ∃ e r, level.Condition i e r ∧ p.apply calls level.row = .ok e ∧ e ∈ level.exprs ∧
      r ∈ level.select.exprs := by
  obtain ⟨given, hgiven, hbecomes, hexprs⟩ := level.exists_given
  obtain ⟨hi, rfl⟩ := List.getElem?_eq_some_iff.mp hp
  have hi' : i < given.length := hgiven.length_eq ▸ hi
  have hi'' : i < level.select.conditions.length := hbecomes.length_eq ▸ hi'
  have happly := hgiven.get hi hi'
  refine ⟨given[i], level.select.conditions[i], ?_, happly, hexprs _ (List.getElem_mem hi'), ?_⟩
  · exact ⟨⟨_, hp, happly⟩, List.getElem?_eq_getElem hi'', hbecomes.get hi' hi''⟩
  · exact List.mem_append_right _ (List.mem_append_right _
      (List.mem_append_left _ (List.getElem_mem hi'')))

end

section
variable {level outer : CompiledLevel placement calls} {e : Expr Query} {r : Expr Statement}

/-- The sources of an expression become their display aliases, one by one. -/
theorem Becomes.qualifiers (h : level.Becomes e r) :
    List.Forall₂ (fun x d => level.scope.resolve x = .ok d) e.qualifiers r.qualifiers := by
  obtain ⟨n, n', -, -, h⟩ := h
  replace h := resolves_of_run h
  induction h with
  | column hdisplay | star hdisplay => exact .cons hdisplay .nil
  | raw | text | subquery => exact .nil
  | unary _ ih => exact ih
  | binary _ _ ihl ihr => exact List.rel_append ihl ihr

/-- The source in this place of an expression becomes the display alias in this place. -/
theorem Becomes.qualifier (h : level.Becomes e r) {j : Nat} {x : String}
    (hx : e.qualifiers[j]? = some x) :
    ∃ d, r.qualifiers[j]? = some d ∧ level.scope.resolve x = .ok d := by
  obtain ⟨hj, rfl⟩ := List.getElem?_eq_some_iff.mp hx
  have hj' : j < r.qualifiers.length := h.qualifiers.length_eq ▸ hj
  exact ⟨_, List.getElem?_eq_getElem hj', h.qualifiers.get hj hj'⟩

/-- The queries of an expression are compiled in the course of the level. -/
theorem Becomes.subquery_run (h : outer.Becomes e r) {q : Query} (hq : q ∈ e.subqueries) :
    ∃ n n' statement, outer.visited.Grows n ∧ n'.Grows outer.after ∧ statement ∈ r.subqueries ∧
      subqueryOf placement (compileLevel placement calls outer.depth) q outer.scope n =
        .ok (statement, n') := by
  obtain ⟨n, n', hn, hn', h⟩ := h
  obtain ⟨m, m', statement, hm, hm', hmem, hs⟩ :=
    exists_subquery_run (compileLevel_grows placement calls outer.depth) h hq
  exact ⟨m, m', statement, hn.trans hm, hm'.trans hn', hmem, hs⟩

/-- As subqueries they have levels of their own. -/
theorem Becomes.embeds (h : outer.Becomes e r) {q : Query} (hq : q ∈ e.subqueries) :
    ∃ inner statement, inner.query = q ∧ statement ∈ r.subqueries ∧
      outer.Embeds inner statement := by
  obtain ⟨n, n', statement, hn, hn', hmem, hs⟩ := h.subquery_run hq
  rcases subqueryOf_run hs with ⟨hplacement, s, hrun, rfl⟩ | ⟨hplacement, s, m, hrun, rfl, rfl⟩
  · obtain ⟨inner, rfl, hparent, hbefore, hselect, hafter⟩ := exists_of_run hrun
    refine ⟨inner, _, rfl, hmem, hparent, ?_, hselect.symm, ?_, ?_⟩
    · rw [hbefore]
      exact hn.used
    · intro _
      rw [hafter]
      exact hn'.pending
    · simp [hplacement]
  · obtain ⟨inner, rfl, hparent, hbefore, hselect, hafter⟩ := exists_of_run hrun
    refine ⟨inner, _, rfl, hmem, hparent, ?_, hselect.symm, ?_, ?_⟩
    · rw [hbefore]
      exact hn.used
    · simp [hplacement]
    · rw [hafter]
      exact fun _ => rfl

/-- A nested source of a level is compiled at some point; what its entry brings is never taken
back. -/
theorem exists_nested_run (outer : CompiledLevel placement calls) {label : String} {q : Query}
    (hsource : ⟨label, .nested q⟩ ∈ outer.query.sources) :
    ∃ name m body m', outer.before.Grows m ∧
      compileLevel placement calls outer.depth q q.context m = .ok (body, m') ∧
      (⟨name, body⟩ : Entry) ∈ outer.after.pending ∧
      ∀ entry ∈ m'.pending, entry ∈ outer.after.pending := by
  have hlevel := compileLevel_grows placement calls outer.depth
  have key : ∃ name m body m', outer.before.Grows m ∧
      compileLevel placement calls outer.depth q q.context m = .ok (body, m') ∧
      (⟨name, body⟩ : Entry) ∈ outer.visited.pending ∧
      ∀ entry ∈ m'.pending, entry ∈ outer.visited.pending := by
    refine (visits_invariant (I := fun visited _ k => outer.before.Grows k ∧
      (⟨label, .nested q⟩ ∈ visited → ∃ name m body m', outer.before.Grows m ∧
        compileLevel placement calls outer.depth q q.context m = .ok (body, m') ∧
        (⟨name, body⟩ : Entry) ∈ k.pending ∧ ∀ entry ∈ m'.pending, entry ∈ k.pending)) [] ?_
      ⟨.refl _, by simp⟩ outer.run.visits).2 hsource
    intro s _ visited l l' k k' hbefore hvisit
    obtain ⟨hk, hbefore⟩ := hbefore
    obtain ⟨-, -, -, -, -, hgrows⟩ := visit_claims hlevel hvisit
    refine ⟨hk.trans hgrows, fun hmem => ?_⟩
    rcases List.mem_append.mp hmem with hmem | hmem
    · obtain ⟨name, m, body, m', hm, hrun, hentry, hpending⟩ := hbefore hmem
      exact ⟨name, m, body, m', hm, hrun, hgrows.pending _ hentry,
        fun entry he => hgrows.pending _ (hpending entry he)⟩
    · obtain rfl := List.mem_singleton.mp hmem
      obtain ⟨name, body, m', -, hrun, rfl, -⟩ := visit_nested_run rfl hvisit
      exact ⟨name, _, body, m', hk.trans (.withAlias k name true), hrun,
        List.mem_append_right _ (List.mem_singleton_self _),
        fun _ he => List.mem_append_left _ he⟩
  obtain ⟨name, m, body, m', hm, hrun, hentry, hpending⟩ := key
  exact ⟨name, m, body, m', hm, hrun, outer.visited_grows.pending _ hentry,
    fun entry he => outer.visited_grows.pending _ (hpending entry he)⟩

/-- It is a level of its own, and becomes an entry. -/
theorem exists_nests (outer : CompiledLevel placement calls) {label : String} {q : Query}
    (hsource : ⟨label, .nested q⟩ ∈ outer.query.sources) :
    ∃ inner name, inner.query = q ∧ outer.Nests inner name := by
  obtain ⟨name, m, body, m', hm, hrun, hentry, hpending⟩ := outer.exists_nested_run hsource
  obtain ⟨inner, rfl, hparent, rfl, rfl, rfl⟩ := exists_of_run hrun
  exact ⟨inner, name, rfl, hparent, hm.used, hentry, hpending⟩

end

/-! ### Levels of a statement -/

/-- The outermost level of a statement. -/
structure Opens (root : CompiledLevel .hoisted calls) (s : Statement) : Prop where
  parent_eq : root.parent = root.query.context
  before_eq : root.before = initialNames root.query
  body_eq : s.body = root.select
  entries_eq : s.entries = root.after.pending

theorem exists_opens_within {depth : Nat} {q : Query} {s : Statement}
    (h : statementWithin depth q = .ok s) :
    ∃ root : CompiledLevel .hoisted (.within depth), root.query = q ∧ root.Opens s := by
  obtain ⟨names, hrun, hentries⟩ := statementWithin_run h
  obtain ⟨root, rfl, hparent, hbefore, hselect, rfl⟩ := exists_of_run hrun
  exact ⟨root, rfl, hparent, hbefore, hselect.symm, hentries.symm⟩

theorem exists_opens {q : Query} {text : String} (h : q.toSql = .ok text) :
    ∃ (s : Statement) (root : CompiledLevel .hoisted .deep), q.statement = .ok s ∧ s.print = text ∧
      root.query = q ∧ root.Opens s := by
  obtain ⟨s, hs, htext⟩ := except_map_eq_ok_iff.mp h
  obtain ⟨root, hquery, hopens⟩ := exists_opens_within hs
  exact ⟨s, root, hs, htext, hquery, hopens⟩

/-- A level in the course of a statement, with the levels whose scopes its rows may be in. A
query on the way carries no context, or the scope of one of these levels, or the scope that
the whole statement is in; a nested source is compiled before its level has a scope. -/
inductive Inside (root : CompiledLevel .hoisted calls) :
    CompiledLevel .hoisted calls → List (CompiledLevel .hoisted calls) → Prop
  | root : Inside root root []
  | embeds {outer inner around statement} : Inside root outer around →
      outer.Embeds inner statement →
      (∀ scope, inner.query.context = some scope →
        root.parent = some scope ∨ ∃ level ∈ outer :: around, scope = level.scope) →
      Inside root inner (outer :: around)
  | nests {outer inner around name} : Inside root outer around → outer.Nests inner name →
      (∀ scope, inner.query.context = some scope →
        root.parent = some scope ∨ ∃ level ∈ around, scope = level.scope) →
      Inside root inner around

/-- Everything around the level is in use before it is compiled. -/
def Covered (level : CompiledLevel placement calls) : Prop :=
  ∀ scope, level.parent = some scope → level.before.Covers scope

theorem Covered.scope {level : CompiledLevel placement calls} (h : level.Covered) :
    level.visited.Covers level.scope := level.binds.covers h

/-- A name that no source of the level has means what it means around. -/
theorem resolve_around {level : CompiledLevel placement calls} {x : String}
    (hx : x ∉ level.query.sources.map (·.label)) {outer : Scope}
    (houter : level.parent = some outer) : level.scope.resolve x = outer.resolve x := by
  have hlookup := level.binds.around x hx
  rw [houter, Scope.lookup_child_some] at hlookup
  unfold Scope.resolve
  rw [hlookup]

/-- A name is written like a source of the level only if it is that of the source. -/
theorem Covered.resolve_own_iff {level : CompiledLevel placement calls} (h : level.Covered)
    {label display : String} (hlabel : label ∈ level.query.sources.map (·.label))
    (hdisplay : level.scope.resolve label = .ok display) {x d : String}
    (hx : level.scope.resolve x = .ok d) : d = display ↔ x = label := by
  constructor
  · intro hd
    subst hd
    by_cases hown : x ∈ level.query.sources.map (·.label)
    · exact level.binds.apart x hown label hlabel (hx.trans hdisplay.symm)
    · -- Whatever is around was in use before the level, and its own aliases were not.
      obtain ⟨d', hd', hfresh, -⟩ := level.binds.own label hlabel
      obtain rfl := Except.ok.inj (hdisplay.symm.trans hd')
      cases hparent : level.parent with
      | none =>
        have hlookup := level.binds.around x hown
        rw [hparent, Scope.lookup_child_none] at hlookup
        unfold Scope.resolve at hx
        simp [hlookup] at hx
      | some outer =>
        rw [resolve_around hown hparent] at hx
        exact absurd ((h outer hparent).resolve hx) hfresh
  · intro heq
    subst heq
    exact Except.ok.inj (hx.symm.trans hdisplay)

/-- A query with a context is compiled in that context. -/
theorem Embeds.parent_of_context {outer inner : CompiledLevel placement calls}
    {statement : Statement} (h : outer.Embeds inner statement) {scope : Scope}
    (hcontext : inner.query.context = some scope) : inner.parent = some scope := by
  rw [h.parent_eq, hcontext]
  rfl

/-- What is written in a subquery in the scope of the level is a source of the one or bound in the
other. -/
theorem Embeds.bound_of_resolve {outer inner : CompiledLevel placement calls}
    {statement : Statement} (h : outer.Embeds inner statement)
    (hcontext : inner.query.context = some outer.scope) {x d : String}
    (hx : inner.scope.resolve x = .ok d) : inner.query.hasSource x ∨ outer.scope.isBound x := by
  have hparent := h.parent_of_context hcontext
  by_cases hown : x ∈ inner.query.sources.map (·.label)
  · exact .inl (Query.hasSource_iff.mpr (List.mem_map.mp hown))
  · rw [resolve_around hown hparent] at hx
    exact .inr (Scope.isBound_of_resolve hx)

/-- The same for a name in a subquery that is in the scope of the level and hides none of its
names. -/
theorem Embeds.resolve_own_iff {outer inner : CompiledLevel placement calls}
    {statement : Statement} (h : outer.Embeds inner statement) (houter : outer.Covered)
    (hcontext : inner.query.context = some outer.scope)
    (hunbound : ∀ s ∈ inner.query.sources, outer.scope.isBound s.label = false)
    {label display : String} (hlabel : label ∈ outer.query.sources.map (·.label))
    (hdisplay : outer.scope.resolve label = .ok display) {x d : String}
    (hx : inner.scope.resolve x = .ok d) : d = display ↔ x = label := by
  have hparent := h.parent_of_context hcontext
  by_cases hown : x ∈ inner.query.sources.map (·.label)
  · obtain ⟨d', hd', hfresh, -⟩ := inner.binds.own x hown
    obtain rfl := Except.ok.inj (hx.symm.trans hd')
    obtain ⟨display', hdisplay', -, hused⟩ := outer.binds.own label hlabel
    obtain rfl := Except.ok.inj (hdisplay.symm.trans hdisplay')
    refine iff_of_false (fun hd => hfresh (hd ▸ h.grows _ hused)) ?_
    intro heq
    subst heq
    obtain ⟨s, hs, rfl⟩ := List.mem_map.mp hown
    exact absurd (Scope.isBound_of_resolve hdisplay) (by simp [hunbound s hs])
  · rw [resolve_around hown hparent] at hx
    exact houter.resolve_own_iff hlabel hdisplay hx

theorem before_subset_visited (level : CompiledLevel placement calls) :
    ∀ d ∈ level.before.used, d ∈ level.visited.used := level.binds.grows.used

theorem Opens.covered {root : CompiledLevel .hoisted calls} {s : Statement} (h : root.Opens s) :
    root.Covered := by
  intro scope hscope d hd
  rw [h.parent_eq] at hscope
  rw [h.before_eq]
  unfold initialNames
  rw [hscope]
  exact (Names.Grows.readTables _ _).used d (mem_reserving.mpr hd)

/-- What a level in a statement can rely on: its surroundings are in use, and its entries get to
the head of the statement. -/
structure Surrounded (s : Statement) (root level : CompiledLevel .hoisted calls)
    (around : List (CompiledLevel .hoisted calls)) : Prop where
  covered : level.Covered
  root_subset : ∀ d ∈ root.before.used, d ∈ level.before.used
  around_covered : ∀ outer ∈ around, outer.Covered
  around_subset : ∀ outer ∈ around, ∀ d ∈ outer.visited.used, d ∈ level.before.used
  hoists : ∀ entry ∈ level.after.pending, entry ∈ s.entries

theorem Inside.surrounded {root level : CompiledLevel .hoisted calls} {s : Statement}
    (hroot : root.Opens s) {around : List (CompiledLevel .hoisted calls)}
    (h : Inside root level around) : Surrounded s root level around := by
  induction h with
  | root =>
    refine ⟨hroot.covered, fun _ hd => hd, by simp, by simp, ?_⟩
    rw [hroot.entries_eq]
    exact fun _ he => he
  | @embeds outer inner around statement _ hembeds hcontext ih =>
    have hbefore : ∀ d ∈ outer.before.used, d ∈ inner.before.used :=
      fun d hd => hembeds.grows d (outer.before_subset_visited d hd)
    have hcovered : ∀ level ∈ outer :: around, level.Covered ∧
        ∀ d ∈ level.visited.used, d ∈ inner.before.used := by
      intro level hlevel
      rcases List.mem_cons.mp hlevel with rfl | hlevel
      · exact ⟨ih.covered, hembeds.grows⟩
      · exact ⟨ih.around_covered level hlevel,
          fun d hd => hbefore d (ih.around_subset level hlevel d hd)⟩
    refine ⟨?_, fun d hd => hbefore d (ih.root_subset d hd),
      fun level hlevel => (hcovered level hlevel).1, fun level hlevel => (hcovered level hlevel).2,
      fun entry he => ih.hoists _ (hembeds.hoists rfl _ he)⟩
    intro scope hscope
    rw [hembeds.parent_eq] at hscope
    obtain rfl := Option.some.inj hscope
    cases hquery : inner.query.context with
    | none => exact ih.covered.scope.mono hembeds.grows
    | some scope =>
      rcases hcontext scope hquery with hparent | ⟨level, hlevel, rfl⟩
      · exact (hroot.covered scope hparent).mono fun d hd => hbefore d (ih.root_subset d hd)
      · exact (hcovered level hlevel).1.scope.mono (hcovered level hlevel).2
  | @nests outer inner around name _ hnests hcontext ih =>
    have hroot_subset := fun d hd => hnests.grows d (ih.root_subset d hd)
    have haround := fun level hlevel d hd => hnests.grows d (ih.around_subset level hlevel d hd)
    refine ⟨?_, hroot_subset, ih.around_covered, haround,
      fun entry he => ih.hoists _ (hnests.hoists _ he)⟩
    intro scope hscope
    rw [hnests.parent_eq] at hscope
    rcases hcontext scope hscope with hparent | ⟨level, hlevel, rfl⟩
    · exact (hroot.covered scope hparent).mono hroot_subset
    · exact (ih.around_covered level hlevel).scope.mono (haround level hlevel)

end CompiledLevel

end QueryBuilder.Sql
