import QueryBuilder.Proofs.Results
import QueryBuilder.Query.Evaluation

/-! Callbacks that do not look into their query.

A callback is called with a row, and the row knows its query. Most callbacks read columns
and follow associations. For these only the names matter under which the sources of the
query are visible, and the relations behind them: rows that agree in this get the same
expression. A callback that takes the query of its row, as an aggregate over all of its
rows does, may tell the two apart; over a fetched row it may not. -/
namespace QueryBuilder

/-! ### Shapes -/

namespace Query
variable {q q' : Query}

/-- The names of the sources, and the relations behind them. -/
def shape (q : Query) : List (String × Option RelationRef) :=
  q.sources.map fun s => (s.label, s.data.relation)

theorem relation_of_source? (q : Query) (label : String) :
    (q.source? label).map DataSource.relation =
      (q.shape.find? (·.1 = label)).map (·.2) := by
  unfold source? shape
  rw [List.find?_map, Option.map_map, Option.map_map]
  rfl

theorem hasSource_of_shape (h : q'.shape = q.shape) : q'.hasSource = q.hasSource := by
  funext label
  have hrelation : (q'.source? label).map DataSource.relation =
      (q.source? label).map DataSource.relation := by
    rw [relation_of_source?, relation_of_source?, h]
  have hsome := congrArg Option.isSome hrelation
  rwa [Option.isSome_map, Option.isSome_map] at hsome

/-- The relation of a query depends on its shape and its default source. -/
theorem defaultRelation_of_shape (h : q'.shape = q.shape)
    (hdefault : q'.defaultSource = q.defaultSource) : q'.defaultRelation = q.defaultRelation := by
  have hjoin : ∀ o : Option DataSource,
      o.bind DataSource.relation = (o.map DataSource.relation).join := by
    intro o
    cases o <;> rfl
  rw [defaultRelation_eq, defaultRelation_eq, hjoin, hjoin, relation_of_source?,
    relation_of_source?, h, hdefault]

theorem ownScope_eq (q : Query) : q.ownScope =
    q.shape.foldl (fun scope p => scope.bind p.1 ⟨p.1, p.2⟩) (Scope.child q.context) := by
  unfold ownScope shape
  rw [List.foldl_map]

theorem ownScope_of_shape (h : q'.shape = q.shape) (hcontext : q'.context = q.context) :
    q'.ownScope = q.ownScope := by
  rw [ownScope_eq, ownScope_eq, h, hcontext]

theorem shape_attach (q : Query) (source : Source) (join : JoinClause) :
    (q.attach source join).shape = q.shape ++ [(source.label, source.data.relation)] := by
  unfold shape attach
  rw [List.map_append]
  rfl

end Query

/-! ### Rows that agree -/

/-- What is behind a source depends on the shape of the query and on what the scope holds. -/
theorem Row.relationOf_of_shape {r r' : Row} (hshape : r'.query.shape = r.query.shape)
    (hscope : r'.scope.lookup = r.scope.lookup) : r'.relationOf = r.relationOf := by
  funext source
  have hrelation : (r'.query.source? source).map DataSource.relation =
      (r.query.source? source).map DataSource.relation := by
    rw [Query.relation_of_source?, Query.relation_of_source?, hshape]
  unfold Row.relationOf
  rw [hscope]
  cases hr : r.query.source? source with
  | none =>
    rw [hr, Option.map_none, Option.map_eq_none_iff] at hrelation
    rw [hrelation]
  | some data =>
    rw [hr, Option.map_some, Option.map_eq_some_iff] at hrelation
    obtain ⟨data', hr', hdata⟩ := hrelation
    rw [hr']
    exact congrArg Except.ok hdata

/-- So does the alias of a fetched relation. -/
theorem Row.claimAlias_of_shape {r r' : Row} (hshape : r'.query.shape = r.query.shape)
    (hscope : r'.scope.lookup = r.scope.lookup) : r'.claimAlias = r.claimAlias := by
  have hvisible : r'.isVisible = r.isVisible := by
    funext label
    unfold isVisible Scope.isBound
    rw [Query.hasSource_of_shape hshape, hscope]
  funext association requested
  unfold Row.claimAlias
  rw [hvisible]

/-- The rows differ at most in what their query is beyond its shape. A fetched row differs
in nothing. -/
structure Row.Alike (r r' : Row) : Prop where
  shape_eq : r'.query.shape = r.query.shape
  substitutions_eq : r'.substitutions = r.substitutions
  default_eq : r'.defaultSource = r.defaultSource
  scope_eq : r'.scope = r.scope
  fetched_eq : r'.fetched = r.fetched
  query_eq : r.fetched = true → r'.query = r.query

namespace Row.Alike
variable {r r' : Row} {rows rows' : List Row}

theorem refl (r : Row) : r.Alike r := ⟨rfl, rfl, rfl, rfl, rfl, fun _ => rfl⟩

theorem refl_all (rows : List Row) : List.Forall₂ Row.Alike rows rows :=
  List.forall₂_same.mpr fun row _ => refl row

/-- Rows of queries of one shape, outside of any compilation. -/
theorem ofQuery {q q' : Query} (h : q'.shape = q.shape) (hcontext : q'.context = q.context)
    (hdefault : q'.defaultSource = q.defaultSource) : (Row.ofQuery q).Alike (Row.ofQuery q') where
  shape_eq := h
  substitutions_eq := rfl
  default_eq := hdefault
  scope_eq := Query.ownScope_of_shape h hcontext
  fetched_eq := rfl
  query_eq := by simp [Row.ofQuery, bound]

theorem eq_of_fetched (h : r.Alike r') (hfetched : r.fetched = true) : r' = r := by
  cases r
  cases r'
  simp only [Row.mk.injEq]
  exact ⟨h.query_eq hfetched, h.substitutions_eq, h.default_eq, h.scope_eq, h.fetched_eq⟩

theorem rebase (h : r.Alike r') (source : String) : (r.rebase source).Alike (r'.rebase source) :=
  { h with default_eq := rfl }

theorem substituting (h : r.Alike r') (names : Substitution) :
    (r.substituting names).Alike (r'.substituting names) :=
  { h with substitutions_eq := congrArg (names :: ·) h.substitutions_eq }

theorem substitute_eq (h : r.Alike r') : r'.substitute = r.substitute := by
  funext source
  unfold Row.substitute
  rw [h.substitutions_eq]

theorem columnOf_eq (h : r.Alike r') : r'.columnOf = r.columnOf := by
  funext source name
  unfold Row.columnOf
  rw [h.substitute_eq]

theorem condition_eq (h : r.Alike r') (a : Association) (owner target : String) :
    a.condition r' owner target = a.condition r owner target := by
  unfold Association.condition
  rw [h.columnOf_eq]

theorem relationOf_eq (h : r.Alike r') : r'.relationOf = r.relationOf :=
  relationOf_of_shape h.shape_eq (congrArg Scope.lookup h.scope_eq)

theorem claimAlias_eq (h : r.Alike r') : r'.claimAlias = r.claimAlias :=
  claimAlias_of_shape h.shape_eq (congrArg Scope.lookup h.scope_eq)

/-- Both lead to the same fetched row. -/
theorem fetchFrom_eq (h : r.Alike r') (source name : String) (label : Option String) :
    r'.fetchFrom source name label = r.fetchFrom source name label := by
  cases hfetched : r.fetched with
  | true => rw [h.eq_of_fetched hfetched]
  | false =>
    unfold Row.fetchFrom
    rw [h.substitute_eq, h.relationOf_eq, h.claimAlias_eq, h.fetched_eq, hfetched, h.scope_eq]
    simp only [Bool.false_eq_true, if_false]

theorem elementAt (h : List.Forall₂ Row.Alike rows rows') {level : Nat}
    (hr : QueryBuilder.elementAt rows level = .ok r) :
    ∃ r', QueryBuilder.elementAt rows' level = .ok r' ∧ r.Alike r' := by
  induction h generalizing level with
  | nil => simp [QueryBuilder.elementAt] at hr
  | cons hhead _ ih =>
    cases level with
    | zero =>
      obtain rfl := Except.ok.inj hr
      exact ⟨_, rfl, hhead⟩
    | succ level => exact ih hr

end Row.Alike

/-! ### Plain callbacks -/

/-- Terms for rows that pass the row of a callback on. -/
inductive RowTerm.Plain : RowTerm → Prop
  | up (level : Nat) : Plain (.up level)
  | value (row : Row) : Plain (.value row)
  | fetch {row : RowTerm} {source : Option String} {association : String}
      {label : Option String} : Plain row → Plain (.fetch row source association label)
  | rebase {row : RowTerm} {source : String} : Plain row → Plain (.rebase row source)
  | substitute {row : RowTerm} {names : Substitution} : Plain row → Plain (.substitute row names)

/-- Terms for rows that have been fetched in the callback. -/
inductive RowTerm.Fetched : RowTerm → Prop
  | fetch {row : RowTerm} {source : Option String} {association : String}
      {label : Option String} : row.Plain → Fetched (.fetch row source association label)
  | rebase {row : RowTerm} {source : String} : Fetched row → Fetched (.rebase row source)
  | substitute {row : RowTerm} {names : Substitution} : Fetched row →
      Fetched (.substitute row names)

/-- Terms that take no row's query but that of a fetched one. -/
inductive ExprTerm.Plain : ExprTerm → Prop
  | value (e : Expr Query) : Plain (.value e)
  | column {row : RowTerm} {source : Option String} {name : String} : row.Plain →
      Plain (.column row source name)
  | star {row : RowTerm} {source : Option String} : row.Plain → Plain (.star row source)
  | unary {before after : String} {operand : ExprTerm} : Plain operand →
      Plain (.unary before operand after)
  | binary {fragments : List String} {left right : ExprTerm} : Plain left → Plain right →
      Plain (.binary fragments left right)
  | apply {op : Operator} {left right : ExprTerm} : Plain left → Plain right →
      Plain (.apply op left right)
  | applyRightFirst {op : Operator} {right left : ExprTerm} : Plain right → Plain left →
      Plain (.applyRightFirst op right left)
  | aggregate {function : Aggregate} {column : String} {row : RowTerm} : row.Fetched →
      Plain (.aggregate function column row)
  | existsRow {row : RowTerm} : row.Fetched → Plain (.existsRow row)
  | condition {a : Association} {owner target : String} {row : RowTerm} : row.Plain →
      Plain (.condition a owner target row)
  | call {p : Predicate} {row : RowTerm} : Plain p.body → row.Plain → Plain (.call p row)

section
variable {calls : Calls} {rows rows' : List Row} (hrows : List.Forall₂ Row.Alike rows rows')
include hrows

theorem RowTerm.Plain.evaluate {t : RowTerm} (h : t.Plain) {r : Row}
    (hr : t.evaluate calls rows = .ok r) : ∃ r', t.evaluate calls rows' = .ok r' ∧ r.Alike r' := by
  induction h generalizing r with
  | up level => exact Row.Alike.elementAt hrows hr
  | value row =>
    obtain rfl := Except.ok.inj hr
    exact ⟨row, rfl, .refl row⟩
  | fetch _ ih =>
    simp only [RowTerm.evaluate, except_bind_eq_ok_iff] at hr ⊢
    obtain ⟨row, hrow, hfetch⟩ := hr
    obtain ⟨row', hrow', halike⟩ := ih hrow
    rw [← halike.default_eq, ← halike.fetchFrom_eq] at hfetch
    exact ⟨r, ⟨row', hrow', hfetch⟩, .refl r⟩
  | rebase _ ih =>
    simp only [RowTerm.evaluate, except_bind_eq_ok_iff, except_pure_eq_ok_iff] at hr ⊢
    obtain ⟨row, hrow, rfl⟩ := hr
    obtain ⟨row', hrow', halike⟩ := ih hrow
    exact ⟨_, ⟨row', hrow', rfl⟩, halike.rebase _⟩
  | substitute _ ih =>
    simp only [RowTerm.evaluate, except_bind_eq_ok_iff, except_pure_eq_ok_iff] at hr ⊢
    obtain ⟨row, hrow, rfl⟩ := hr
    obtain ⟨row', hrow', halike⟩ := ih hrow
    exact ⟨_, ⟨row', hrow', rfl⟩, halike.substituting _⟩

theorem RowTerm.Fetched.evaluate {t : RowTerm} (h : t.Fetched) {r : Row}
    (hr : t.evaluate calls rows = .ok r) : t.evaluate calls rows' = .ok r := by
  induction h generalizing r with
  | fetch hrow =>
    simp only [RowTerm.evaluate, except_bind_eq_ok_iff] at hr ⊢
    obtain ⟨row, hrow', hfetch⟩ := hr
    obtain ⟨row', hrow'', halike⟩ := hrow.evaluate hrows hrow'
    rw [← halike.default_eq, ← halike.fetchFrom_eq] at hfetch
    exact ⟨row', hrow'', hfetch⟩
  | rebase _ ih =>
    simp only [RowTerm.evaluate, except_bind_eq_ok_iff, except_pure_eq_ok_iff] at hr ⊢
    obtain ⟨row, hrow, rfl⟩ := hr
    exact ⟨row, ih hrow, rfl⟩
  | substitute _ ih =>
    simp only [RowTerm.evaluate, except_bind_eq_ok_iff, except_pure_eq_ok_iff] at hr ⊢
    obtain ⟨row, hrow, rfl⟩ := hr
    exact ⟨row, ih hrow, rfl⟩

end

/-- A plain callback gives the same expression for rows that agree. -/
theorem ExprTerm.Plain.evaluate {t : ExprTerm} (h : t.Plain) {depth : Nat} {rows rows' : List Row}
    (hrows : List.Forall₂ Row.Alike rows rows') {e : Expr Query}
    (he : t.evaluate (.within depth) rows = .ok e) : t.evaluate (.within depth) rows' = .ok e := by
  induction h generalizing depth rows rows' e with
  | value => exact he
  | column hrow =>
    simp only [ExprTerm.evaluate, except_bind_eq_ok_iff, except_pure_eq_ok_iff] at he ⊢
    obtain ⟨r, hr, rfl⟩ := he
    obtain ⟨r', hr', halike⟩ := hrow.evaluate hrows hr
    refine ⟨r', hr', ?_⟩
    rw [halike.columnOf_eq, halike.default_eq]
  | star hrow =>
    simp only [ExprTerm.evaluate, except_bind_eq_ok_iff, except_pure_eq_ok_iff] at he ⊢
    obtain ⟨r, hr, rfl⟩ := he
    obtain ⟨r', hr', halike⟩ := hrow.evaluate hrows hr
    refine ⟨r', hr', ?_⟩
    unfold Row.starOf
    rw [halike.substitute_eq, halike.default_eq]
  | unary _ ih =>
    simp only [ExprTerm.evaluate, except_bind_eq_ok_iff, except_pure_eq_ok_iff] at he ⊢
    obtain ⟨operand, hoperand, rfl⟩ := he
    exact ⟨operand, ih hrows hoperand, rfl⟩
  | binary _ _ ihl ihr =>
    simp only [ExprTerm.evaluate, except_bind_eq_ok_iff] at he ⊢
    obtain ⟨left, hleft, right, hright, he⟩ := he
    exact ⟨left, ihl hrows hleft, right, ihr hrows hright, he⟩
  | apply _ _ ihl ihr =>
    simp only [ExprTerm.evaluate, except_bind_eq_ok_iff] at he ⊢
    obtain ⟨left, hleft, right, hright, he⟩ := he
    exact ⟨left, ihl hrows hleft, right, ihr hrows hright, he⟩
  | applyRightFirst _ _ ihr ihl =>
    simp only [ExprTerm.evaluate, except_bind_eq_ok_iff] at he ⊢
    obtain ⟨right, hright, left, hleft, he⟩ := he
    exact ⟨right, ihr hrows hright, left, ihl hrows hleft, he⟩
  | aggregate hrow | existsRow hrow =>
    simp only [ExprTerm.evaluate, except_bind_eq_ok_iff] at he ⊢
    obtain ⟨r, hr, he⟩ := he
    exact ⟨r, hrow.evaluate hrows hr, he⟩
  | condition hrow =>
    simp only [ExprTerm.evaluate, except_bind_eq_ok_iff, except_pure_eq_ok_iff] at he ⊢
    obtain ⟨r, hr, rfl⟩ := he
    obtain ⟨r', hr', halike⟩ := hrow.evaluate hrows hr
    exact ⟨r', hr', (halike.condition_eq _ _ _).symm⟩
  | call _ hrow ih =>
    simp only [ExprTerm.evaluate, except_bind_eq_ok_iff] at he ⊢
    obtain ⟨r, hr, he⟩ := he
    obtain ⟨r', hr', halike⟩ := hrow.evaluate hrows hr
    refine ⟨r', hr', ?_⟩
    cases depth with
    | zero => cases he
    | succ depth => exact ih (.cons halike (Row.Alike.refl_all _)) he

theorem Predicate.apply_of_alike {p : Predicate} (h : p.body.Plain) {depth : Nat} {r r' : Row}
    (hr : r.Alike r') {e : Expr Query} (he : p.apply (.within depth) r = .ok e) :
    p.apply (.within depth) r' = .ok e :=
  h.evaluate (.cons hr (Row.Alike.refl_all _)) he

end QueryBuilder
