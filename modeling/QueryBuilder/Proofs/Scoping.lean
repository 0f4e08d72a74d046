import QueryBuilder.Proofs.Aliases

/-! Scoping of statements.

An expression of a select may name the aliases of that select and of the selects that
it stands inside of. The body of an entry stands at the head of the statement and
inside of no select, whichever level reads it.

What a level may name is decided by the scope that its expressions are resolved in, and
this scope is that of the text around it as long as the queries in it carry no foreign
context: a nested source none at all, and a query that a callback embeds at most that of
the row it is called with, or of a row that it gets at from there. -/
namespace QueryBuilder

/-! ### Rows within reach -/

/-- The rows that a callback gets at from the one that it is called with. -/
inductive Row.Reaches (r : Row) : Row → Prop
  | refl : Reaches r r
  | fetch {r' r'' : Row} {source association : String} {label : Option String} : Reaches r r' →
      r'.fetchFrom source association label = .ok r'' → Reaches r r''
  | filter {r' : Row} {p : Predicate} : Reaches r r' → Reaches r (r'.filter p)
  | substitute {r' : Row} {names : Substitution} : Reaches r r' → Reaches r (r'.substituting names)
  | rebase {r' : Row} {source : String} : Reaches r r' → Reaches r (r'.rebase source)

/-- A row within reach is in the same scope, and its query is either in that scope or in
the context that the first row's query is in. -/
theorem Row.Reaches.context {r r' : Row} (h : r.Reaches r') :
    r'.scope = r.scope ∧
      (r'.query.context = r.query.context ∨ r'.query.context = some r.scope) := by
  induction h with
  | refl => exact ⟨rfl, .inl rfl⟩
  | fetch _ hfetch ih =>
    obtain ⟨hscope, hcontext⟩ := ih
    obtain ⟨_, _, _, _, ⟨_, rfl⟩ | ⟨_, rfl⟩⟩ := fetchFrom_cases hfetch
    · exact ⟨hscope, hcontext⟩
    · exact ⟨hscope, .inr (by rw [← hscope]; rfl)⟩
  | filter _ ih | substitute _ ih | rebase _ ih => exact ih

/-- The sources that qualify columns and stars in an expression, without its subqueries. -/
def Expr.qualifiers {σ : Type} : Expr σ → List String
  | .column source _ => [source]
  | .star source => [source]
  | .raw .. | .text .. | .subquery .. => []
  | .unary _ operand _ => operand.qualifiers
  | .binary _ _ _ left right => left.qualifiers ++ right.qualifiers

theorem Expr.qualifiers_apply {σ : Type} (op : Operator) (left right : Expr σ) :
    (left.apply op right).qualifiers = left.qualifiers ++ right.qualifiers := by
  unfold Expr.apply
  split <;> rfl

/-- The condition of an association is about its two sides. -/
theorem Expr.qualifiers_condition (a : Association) (row : Row) (owner target : String) :
    (a.condition row owner target).qualifiers =
      [row.substitute (a.sides owner target).1, row.substitute (a.sides owner target).2] := by
  simp [Association.condition, Association.keyPairs, qualifiers_apply, qualifiers, Row.columnOf]

end QueryBuilder

namespace QueryBuilder.Sql

/-- The aliases that the select introduces. -/
def Select.labels (s : Select) : List String := s.tables.map (·.label)

/-- The expressions of the select name its own aliases, those around it and no others. In
its subqueries its own aliases are visible too, in entries no alias from outside. -/
inductive ScopedSelect : List String → Select → Prop
  | intro {visible} {s : Select} :
      (∀ e ∈ s.exprs, ∀ label ∈ e.qualifiers, label ∈ s.labels ++ visible) →
      (∀ e ∈ s.exprs, ∀ statement ∈ e.subqueries,
        ScopedSelect (s.labels ++ visible) statement.body) →
      (∀ e ∈ s.exprs, ∀ statement ∈ e.subqueries, ∀ entry ∈ statement.entries,
        ScopedSelect [] entry.body) →
      ScopedSelect visible s

/-- No entry names an alias from outside of it. -/
def EntriesClosed (entries : List Entry) : Prop := ∀ entry ∈ entries, ScopedSelect [] entry.body

/-- The expression, with its subqueries, names only these aliases. -/
structure ScopedExpr (visible : List String) (e : Expr Statement) : Prop where
  qualifiers : ∀ label ∈ e.qualifiers, label ∈ visible
  subqueries : ∀ statement ∈ e.subqueries, ScopedSelect visible statement.body
  entries : ∀ statement ∈ e.subqueries, EntriesClosed statement.entries

theorem ScopedExpr.binary {visible : List String} {left right : Expr Statement}
    (hl : ScopedExpr visible left) (hr : ScopedExpr visible right) (before between after : String) :
    ScopedExpr visible (.binary before between after left right) where
  qualifiers label hlabel := by
    rcases List.mem_append.mp hlabel with hlabel | hlabel
    · exact hl.qualifiers label hlabel
    · exact hr.qualifiers label hlabel
  subqueries statement hstatement := by
    rcases List.mem_append.mp hstatement with hstatement | hstatement
    · exact hl.subqueries statement hstatement
    · exact hr.subqueries statement hstatement
  entries statement hstatement := by
    rcases List.mem_append.mp hstatement with hstatement | hstatement
    · exact hl.entries statement hstatement
    · exact hr.entries statement hstatement

theorem ScopedExpr.subquery {visible : List String} {statement : Statement}
    (hbody : ScopedSelect visible statement.body) (hentries : EntriesClosed statement.entries) :
    ScopedExpr visible (.subquery statement) where
  qualifiers := by simp [Expr.qualifiers]
  subqueries := by simpa [Expr.subqueries] using hbody
  entries := by simpa [Expr.subqueries] using hentries

/-- The display aliases of the scope are among these. -/
def ScopeWithin (visible : List String) (scope : Scope) : Prop :=
  ∀ d ∈ scope.displayAliases, d ∈ visible

theorem ScopeWithin.mono {visible visible' : List String} {scope : Scope}
    (h : ScopeWithin visible scope) (hsub : visible ⊆ visible') : ScopeWithin visible' scope :=
  fun d hd => hsub (h d hd)

theorem ScopeWithin.resolve {visible : List String} {scope : Scope} (h : ScopeWithin visible scope)
    {source display : String} (hresolve : scope.resolve source = .ok display) :
    display ∈ visible := by
  exact h _ (Scope.mem_displayAliases_of_resolve hresolve)

/-- Binding a source adds its alias at most. -/
theorem displayAliases_bind {scope : Scope} {source d : String} {b : Binding}
    (h : d ∈ (scope.bind source b).displayAliases) : d = b.display ∨ d ∈ scope.displayAliases := by
  simp only [Scope.displayAliases, Scope.levels, Scope.bind, List.flatMap_cons, List.mem_append,
    List.mem_map] at h ⊢
  rcases h with ⟨⟨name, b'⟩, hmem, rfl⟩ | h
  · rw [Std.TreeMap.mem_toList_iff_getElem?_eq_some, Std.TreeMap.getElem?_insert] at hmem
    split at hmem
    · obtain rfl := Option.some.inj hmem
      exact .inl rfl
    · exact .inr (.inl ⟨⟨name, b'⟩, Std.TreeMap.mem_toList_iff_getElem?_eq_some.mpr hmem, rfl⟩)
  · exact .inr (.inr h)

/-! ### Compiling keeps to the scope -/

/-- The query may be embedded where these aliases are visible. -/
structure Embeddable (Q : Query → Prop) (visible : List String) (q : Query) : Prop where
  wellFormed : q.WellFormed
  confined : Q q
  context : ∀ scope, q.context = some scope → ScopeWithin visible scope

section
variable {Q : Query → Prop} {placement : EntryPlacement}
  {level : Query → Option Scope → Naming Select} {n n' : Names} {visible : List String}

end

/-- The select is the first one, or stands in a subquery of it. -/
inductive Select.Holds : Select → Select → Prop
  | self {s : Select} : s.Holds s
  | body {s t : Select} {e statement} : e ∈ s.exprs → statement ∈ e.subqueries →
      statement.body.Holds t → s.Holds t
  | entry {s t : Select} {e statement entry} : e ∈ s.exprs → statement ∈ e.subqueries →
      entry ∈ statement.entries → entry.body.Holds t → s.Holds t

/-- The select stands somewhere in the statement. -/
def Statement.Holds (s : Statement) (t : Select) : Prop :=
  s.body.Holds t ∨ ∃ entry ∈ s.entries, entry.body.Holds t

/-- Trips that have stops. -/
def journeys : FrozenSchema where
  stamp := 0
  schema := ⟨[⟨"trip", some "id", (∅ : Std.TreeMap String Association).insert "stop"
    ⟨.hasMany, 0, 1, "tripId", "id"⟩⟩, ⟨"stop", some "id", ∅⟩]⟩

theorem journeys_inhabited : 0 < journeys.schema.relations.length := by decide

/-- The first trip of a table under its own alias. -/
def firstTrip : Query := (Query.ofTable "archive").take 1

end QueryBuilder.Sql
