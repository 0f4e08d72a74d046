import QueryBuilder.Proofs.Layout
import QueryBuilder.Proofs.Naming

/-! Quoted text in compiled statements.

The texts of literals and the names of identifiers go into a statement as they are
given, each as one quoted token. What is read back from such a token is the text with
its line breaks indented once for every subquery and entry around the token. A token
outside of all brackets therefore reads as what was given, and so does any token
without a line break; a line break inside brackets does not survive. -/
namespace QueryBuilder.Sql
open Text

/-! ### What a statement spells

A statement spells a query when it has the literals, the raw text, the names of
columns and tables and the names of selections of the query, at their places. Only
the aliases of sources are its own: they are the ones that the sources are visible
under. -/

/-- The item reads the source, under an alias made from the label of the source. -/
structure Reads (source : Source) (item : TableItem) : Prop where
  alias_fresh : ∃ taken, Alias.fresh source.label taken = .ok item.label
  table : item.table =
    match source.data with
    | .table name _ => .table name
    | .nested _ => .entry item.label

mutual

/-- An expression and what it is resolved to in a scope. -/
inductive SpellsExpr (calls : Calls) : Scope → Expr Query → Expr Statement → Prop
  | column {scope source display name} : scope.resolve source = .ok display →
      SpellsExpr calls scope (.column source name) (.column display name)
  | star {scope source display} : scope.resolve source = .ok display →
      SpellsExpr calls scope (.star source) (.star display)
  | raw {scope sql} : SpellsExpr calls scope (.raw sql) (.raw sql)
  | text {scope value} : SpellsExpr calls scope (.text value) (.text value)
  | unary {scope before e r after} : SpellsExpr calls scope e r →
      SpellsExpr calls scope (.unary before e after) (.unary before r after)
  | binary {scope before between after e e' r r'} : SpellsExpr calls scope e r →
      SpellsExpr calls scope e' r' →
      SpellsExpr calls scope (.binary before between after e e') (.binary before between after r r')
  | subquery {scope} {query : Query} {statement : Statement} : Spells calls query statement.body →
      (∀ entry ∈ statement.entries, SpellsSome calls entry.body) →
      SpellsExpr calls scope (.subquery query) (.subquery statement)

/-- A query and the select of its level. The level's expressions `es` are those that
its callbacks give for a row of the query. -/
inductive Spells (calls : Calls) : Query → Select → Prop
  | level {q : Query} {s : Select} {scope : Scope} {es : List (Expr Query)}
      {selections : List (List Selection)} :
      (∀ e ∈ es, Gives calls q (Row.bound q scope) e) →
      es.length = s.exprs.length → (∀ p ∈ es.zip s.exprs, SpellsExpr calls scope p.1 p.2) →
      List.Forall₂ (fun p ss => p.apply calls (Row.bound q scope) = .ok ss) q.projections
        selections →
      s.items.map (·.label) = selections.flatten.map (·.label) →
      (∃ source ∈ q.sources, source.label = q.baseSource ∧ Reads source s.base) →
      List.Forall₂ (fun clause j => ∃ source ∈ q.sources, source.label = clause.label ∧
        Reads source j.item) q.joins s.joins →
      Spells calls q s

/-- The select of the level of some query, as that of an entry is. -/
inductive SpellsSome (calls : Calls) : Select → Prop
  | of {q : Query} {s : Select} : Spells calls q s → SpellsSome calls s

end

def SpellsEntries (calls : Calls) (entries : List Entry) : Prop :=
  ∀ entry ∈ entries, SpellsSome calls entry.body

/-! ### Compiling spells -/

/-- How a level is compiled when what it gives spells the query, and so do the entries
that arise. -/
def LevelSpells (calls : Calls) (level : Query → Option Scope → Naming Select) : Prop :=
  ∀ q parent n s n', level q parent n = .ok (s, n') → SpellsEntries calls n.pending →
    Spells calls q s ∧ SpellsEntries calls n'.pending

section
variable {calls : Calls} {placement : EntryPlacement}
  {level : Query → Option Scope → Naming Select} {n n' : Names}

theorem subqueryOf_spells (hlevel : LevelSpells calls level) {q : Query} {outer : Scope}
    {statement : Statement} (h : subqueryOf placement level q outer n = .ok (statement, n'))
    (hn : SpellsEntries calls n.pending) :
    Spells calls q statement.body ∧ SpellsEntries calls statement.entries ∧
      SpellsEntries calls n'.pending := by
  rcases subqueryOf_run h with ⟨_, s, hs, rfl⟩ | ⟨_, s, m, hs, rfl, rfl⟩
  · obtain ⟨hbody, hpending⟩ := hlevel _ _ _ _ _ hs hn
    exact ⟨hbody, by simp [SpellsEntries], hpending⟩
  · obtain ⟨hbody, hpending⟩ := hlevel _ _ _ _ _ hs (by simp [SpellsEntries])
    exact ⟨hbody, hpending, hn⟩

theorem resolve_spells (hlevel : LevelSpells calls level) {scope : Scope} {e : Expr Query}
    {r : Expr Statement} (h : resolve (subqueryOf placement level) scope e n = .ok (r, n'))
    (hn : SpellsEntries calls n.pending) :
    SpellsExpr calls scope e r ∧ SpellsEntries calls n'.pending := by
  replace h := resolves_of_run h
  induction h with
  | column hdisplay => exact ⟨.column hdisplay, hn⟩
  | star hdisplay => exact ⟨.star hdisplay, hn⟩
  | raw => exact ⟨.raw, hn⟩
  | text => exact ⟨.text, hn⟩
  | unary _ ih =>
    obtain ⟨hspells, hpending⟩ := ih hn
    exact ⟨.unary hspells, hpending⟩
  | binary _ _ ihl ihr =>
    obtain ⟨hleft, hpending⟩ := ihl hn
    obtain ⟨hright, hpending'⟩ := ihr hpending
    exact ⟨.binary hleft hright, hpending'⟩
  | subquery hs =>
    obtain ⟨hbody, hentries, hpending⟩ := subqueryOf_spells hlevel hs hn
    exact ⟨.subquery hbody hentries, hpending⟩

theorem resolvesAll_spells (hlevel : LevelSpells calls level) {scope : Scope}
    {es : List (Expr Query)} {rs : List (Expr Statement)}
    (h : ResolvesAll (resolve (subqueryOf placement level) scope) es n rs n')
    (hn : SpellsEntries calls n.pending) :
    (∀ p ∈ es.zip rs, SpellsExpr calls scope p.1 p.2) ∧ SpellsEntries calls n'.pending := by
  induction h with
  | nil => exact ⟨by simp, hn⟩
  | cons he _ ih =>
    obtain ⟨hspells, hpending⟩ := resolve_spells hlevel he hn
    obtain ⟨hrest, hpending'⟩ := ih hpending
    refine ⟨?_, hpending'⟩
    intro p hp
    rw [List.zip_cons_cons] at hp
    rcases List.mem_cons.mp hp with rfl | hp
    · exact hspells
    · exact hrest p hp

/-- Whatever a level reads is one of the sources it has visited, and the entries it has
made spell nested queries. -/
theorem visits_spell (hlevel : LevelSpells calls level) {sources : List Source}
    {l l' : LevelScope} (h : sources.foldlM (visit level) l n = .ok (l', n'))
    (hl : ∀ label item, l.item label ≠ .ok item) (hn : SpellsEntries calls n.pending) :
    (∀ label item, l'.item label = .ok item →
      ∃ source ∈ sources, source.label = label ∧ Reads source item) ∧
      SpellsEntries calls n'.pending := by
  have start : (∀ label item, l.item label = .ok item →
      ∃ source ∈ ([] : List Source), source.label = label ∧ Reads source item) ∧
      SpellsEntries calls n.pending := ⟨fun label item h => absurd h (hl label item), hn⟩
  refine visits_invariant (I := fun visited l n => (∀ label item, l.item label = .ok item →
    ∃ source ∈ visited, source.label = label ∧ Reads source item) ∧ SpellsEntries calls n.pending)
    [] ?_ start h
  intro source _ visited l l' m m' ⟨hitems, hpending⟩ hvisit
  -- Whichever kind of source it is, one more item is read and the others stay.
  have extend : ∀ {label table}, Reads source ⟨table, label⟩ → ∀ name item,
      (l.bind source label table).item name = .ok item →
      ∃ s ∈ visited ++ [source], s.label = name ∧ Reads s item := by
    intro label table hreads name item hitem
    rw [item_bind] at hitem
    split at hitem
    next hname =>
      obtain rfl := Except.ok.inj hitem
      exact ⟨source, by simp, hname.symm, hreads⟩
    next =>
      obtain ⟨s, hs, hlabel, hr⟩ := hitems name item hitem
      exact ⟨s, List.mem_append_left _ hs, hlabel, hr⟩
  cases hdata : source.data with
  | table name relation =>
    obtain ⟨label, hfresh, _, rfl, rfl⟩ := visit_table_run hdata hvisit
    exact ⟨extend ⟨⟨_, hfresh⟩, by rw [hdata]⟩, hpending⟩
  | nested inner =>
    obtain ⟨label, body, k, hfresh, hbody, rfl, rfl⟩ := visit_nested_run hdata hvisit
    obtain ⟨hspells, hpending'⟩ := hlevel _ _ _ _ _ hbody hpending
    refine ⟨extend ⟨⟨_, hfresh⟩, by rw [hdata]⟩, ?_⟩
    intro entry hentry
    rcases List.mem_append.mp hentry with hentry | hentry
    · exact hpending' entry hentry
    · obtain rfl := List.mem_singleton.mp hentry
      exact .of hspells

end

theorem compileLevel_spells (placement : EntryPlacement) (calls : Calls) (depth : Nat) :
    LevelSpells calls (compileLevel placement calls depth) := by
  induction depth with
  | zero =>
    intro q parent n s n' h
    simp [compileLevel, checked_eq_ok_iff] at h
  | succ depth ih =>
    intro q parent n s n' h hn
    obtain ⟨l, m, es, run⟩ := compileLevel_run h
    have hempty : ∀ label item,
        ({ scope := Scope.child parent } : LevelScope).item label ≠ .ok item := by
      intro label item
      simp [LevelScope.item]
    obtain ⟨hitems, hm⟩ := visits_spell ih run.visits hempty hn
    obtain ⟨hexprs, hn'⟩ := resolvesAll_spells ih run.resolves hm
    obtain ⟨selections, happlies, hlabels⟩ := run.labels
    refine ⟨.level run.gives run.resolves.length_eq hexprs happlies hlabels (hitems _ _ run.base) ?_,
      hn'⟩
    exact run.joins.imp fun clause j h => hitems _ _ h.1

/-! ### Reading tokens back -/

/-- The quote of a token, and the text it has been made from. -/
def Content.token : Content → Option (Char × String)
  | plain _ => none
  | identifier name => some (Quoted.identifierQuote, name)
  | literal value => some (Quoted.literalQuote, value)

theorem Content.text_of_token {c : Content} {quote : Char} {value : String}
    (h : c.token = some (quote, value)) :
    c.text = Quoted.quoted quote value ∧ quote ≠ '\n' ∧ quote ≠ ' ' := by
  cases c with
  | plain text => simp [token] at h
  | identifier name =>
    obtain ⟨rfl, rfl⟩ : Quoted.identifierQuote = quote ∧ name = value := by simpa [token] using h
    exact ⟨rfl, by decide, by decide⟩
  | literal text =>
    obtain ⟨rfl, rfl⟩ : Quoted.literalQuote = quote ∧ text = value := by simpa [token] using h
    exact ⟨rfl, by decide, by decide⟩

/-- A token reads as its text, indented for every pair of brackets around it. -/
theorem Piece.read_text (p : Piece) {quote : Char} {value : String}
    (h : p.content.token = some (quote, value)) :
    Quoted.read quote p.text = some (indentedBy p.depth value, "") := by
  obtain ⟨htext, hn, hb⟩ := Content.text_of_token h
  rw [Piece.text, htext, indentedBy_quoted hn hb]
  exact Quoted.read_quoted quote _

/-- A text that is a row of pieces, and how its tokens read: as what they have been made
from exactly when they stand outside of all brackets or have no line break. -/
structure ReadsBack (text : String) (pieces : List Piece) : Prop where
  text_eq : text = Piece.join pieces
  reads : ∀ p ∈ pieces, ∀ quote value, p.content.token = some (quote, value) →
    Quoted.read quote p.text = some (indentedBy p.depth value, "")
  reads_given : ∀ p ∈ pieces, ∀ quote value, p.content.token = some (quote, value) →
    (Quoted.read quote p.text = some (value, "") ↔ p.depth = 0 ∨ '\n' ∉ value.toList)

theorem readsBack_of_join {text : String} {pieces : List Piece} (h : text = Piece.join pieces) :
    ReadsBack text pieces where
  text_eq := h
  reads p _ quote value hp := p.read_text hp
  reads_given p _ quote value hp := by
    rw [p.read_text hp, ← indentedBy_eq_self_iff]
    simp

theorem statementWithin_spells {depth : Nat} {q : Query} {s : Statement}
    (h : statementWithin depth q = .ok s) :
    Spells (Calls.within depth) q s.body ∧ SpellsEntries (Calls.within depth) s.entries := by
  obtain ⟨names, hrun, hentries⟩ := statementWithin_run h
  rw [← hentries]
  exact compileLevel_spells .hoisted _ _ _ _ _ _ _ hrun (by
    simp [SpellsEntries, initialNames, Names.reserving, Names.readTables])

theorem resolvedWithin_spells {depth : Nat} {e : Expr Query} {scope : Scope} {r : Expr Statement}
    (h : resolvedWithin depth e scope = .ok r) : SpellsExpr (Calls.within depth) scope e r := by
  unfold resolvedWithin at h
  obtain ⟨⟨r', names⟩, hrun, rfl⟩ := except_map_eq_ok_iff.mp h
  exact (resolve_spells (compileLevel_spells .inline _ _) hrun (by
    simp [SpellsEntries, Names.reserving])).1

/-- **The quoted tokens of a compiled text read as what the caller gave, outside of all
brackets or without a line break, and in no other case.** -/
theorem quoted_text_survives_iff (q : Query) (e : Expr Query) (scope : Scope) :
    (∀ text, q.toSql = .ok text → ∃ s, q.statement = .ok s ∧
      Spells Calls.deep q s.body ∧ SpellsEntries Calls.deep s.entries ∧
      ReadsBack text (s.pieces 0)) ∧
    (∀ text, e.toSql scope = .ok text → ∃ r, e.resolved scope = .ok r ∧
      SpellsExpr Calls.deep scope e r ∧ ReadsBack text (exprPieces 0 r)) := by
  constructor
  · intro text h
    obtain ⟨s, hs, rfl⟩ := except_map_eq_ok_iff.mp h
    obtain ⟨hbody, hentries⟩ := statementWithin_spells hs
    refine ⟨s, hs, hbody, hentries, readsBack_of_join ?_⟩
    rw [join_statement, indentedBy_zero]
  · intro text h
    obtain ⟨r, hr, rfl⟩ := except_map_eq_ok_iff.mp h
    refine ⟨r, hr, resolvedWithin_spells hr, readsBack_of_join ?_⟩
    rw [join_exprPieces, indentedBy_zero]

/-- A condition on a column of a one-table query, inside a subquery of another query. -/
def bracketedComparison (value : String) : Query :=
  let inner := (Query.ofTable "u").filter
    ⟨.apply .eq (.column (.up 0) none "x") (.value (.text value)), []⟩
  (Query.ofTable "t").filter ⟨.apply .eq (.subquery (.value inner)) (.value (.raw "1")), []⟩

/-- A literal without a line break is read back from inside the brackets, and one with a
line break from outside of them. -/
theorem quoted_text_survives_without_line_break :
    (∃ text s, (bracketedComparison "it's").toSql = .ok text ∧
      (bracketedComparison "it's").statement = .ok s ∧ ReadsBack text (s.pieces 0) ∧
      ∃ p ∈ s.pieces 0, p.depth = 1 ∧ p.content = .literal "it's" ∧
        Quoted.read Quoted.literalQuote p.text = some ("it's", "")) ∧
    (Expr.text "a\nb").toSql .empty = .ok "'a\nb'" ∧
    ∃ r, (Expr.text "a\nb").resolved .empty = .ok r ∧ ReadsBack "'a\nb'" (exprPieces 0 r) := by
  have hsql : (bracketedComparison "it's").toSql = .ok ("SELECT *\nFROM \x22t\x22 AS \x22t\x22\n" ++
      "WHERE (SELECT *\n    FROM \x22u\x22 AS \x22u\x22\n    " ++
      "WHERE \x22u\x22.\x22x\x22 = ('it''s')) = (1)") := by decide +kernel
  have hpiece : ((bracketedComparison "it's").statement.map fun s =>
      decide (⟨1, .literal "it's"⟩ ∈ s.pieces 0)) = .ok true := by decide +kernel
  have hexpr : (Expr.text "a\nb").toSql .empty = .ok "'a\nb'" := by decide +kernel
  obtain ⟨hquery, hresolved⟩ :=
    quoted_text_survives_iff (bracketedComparison "it's") (.text "a\nb") .empty
  obtain ⟨s, hs, _, _, hreads⟩ := hquery _ hsql
  obtain ⟨r, hr, _, hreads'⟩ := hresolved _ hexpr
  rw [hs] at hpiece
  have hmem : ⟨1, .literal "it's"⟩ ∈ s.pieces 0 := by simpa [Except.map] using hpiece
  refine ⟨⟨_, s, hsql, hs, hreads, _, hmem, rfl, rfl, ?_⟩, hexpr, r, hr, hreads'⟩
  exact (hreads.reads_given _ hmem _ _ rfl).mpr (.inr (by decide))

/-- A literal with a line break is not: the line break is indented with the brackets. -/
theorem line_break_lost_inside_brackets :
    (bracketedComparison "a\nb").toSql = .ok ("SELECT *\nFROM \x22t\x22 AS \x22t\x22\n" ++
      "WHERE (SELECT *\n    FROM \x22u\x22 AS \x22u\x22\n    " ++
      "WHERE \x22u\x22.\x22x\x22 = ('a\n    b')) = (1)") ∧
    ¬ ∀ (q : Query) s, q.statement = .ok s → ∀ p ∈ s.pieces 0, ∀ quote value,
      p.content.token = some (quote, value) → Quoted.read quote p.text = some (value, "") := by
  have hpiece : ((bracketedComparison "a\nb").statement.map fun s =>
      decide (⟨1, .literal "a\nb"⟩ ∈ s.pieces 0)) = .ok true := by decide +kernel
  refine ⟨by decide +kernel, ?_⟩
  intro h
  cases hs : (bracketedComparison "a\nb").statement with
  | error fault => simp [hs, Except.map] at hpiece
  | ok s =>
    rw [hs] at hpiece
    have hmem : ⟨1, .literal "a\nb"⟩ ∈ s.pieces 0 := by simpa [Except.map] using hpiece
    have hgiven := h _ s hs _ hmem _ _ rfl
    rw [Piece.read_text _ rfl] at hgiven
    exact absurd hgiven (by decide)

end QueryBuilder.Sql
