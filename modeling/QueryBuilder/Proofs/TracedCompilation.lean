import QueryBuilder.Proofs.Aliases
import QueryBuilder.Proofs.Trails

/-! Compilation that leaves a trail.

Compilation with callbacks that are evaluated in traced computations notes which display aliases are
claimed and which tables are read or reserved. A claim looks at the aliases and the tables that are
known by then, two sets that grow until the end; all of them have been noted when it does
(`Names.Noted`). So the trail accounts for the failure of a claim as it does for that of a join or a
fetch in a callback. -/
namespace QueryBuilder.Sql

variable {α β : Type}

/-! ### What has been noted -/

/-- The display aliases and the tables that are known have all been noted. -/
structure Names.Noted (n : Names) (t : Trail) : Prop where
  used : ∀ x ∈ n.used, x ∈ t.names
  tables : ∀ x ∈ n.tables, x ∈ t.names

namespace Names.Noted
variable {n : Names} {t : Trail}

theorem mono (h : n.Noted t) {t' : Trail} (hnames : t.names ⊆ t'.names) : n.Noted t' where
  used x hx := hnames (h.used x hx)
  tables x hx := hnames (h.tables x hx)

theorem more (h : n.Noted t) (names : List String) :
    n.Noted { t with names := names ++ t.names } := h.mono (List.subset_append_right ..)

theorem withAlias (h : n.Noted t) {label : String} (hlabel : label ∈ t.names) (isEntry : Bool) :
    (n.withAlias label isEntry).Noted t where
  used x hx := by
    rcases mem_insert_iff.mp hx with rfl | hx
    · exact hlabel
    · exact h.used x hx
  tables := h.tables

theorem readTables (h : n.Noted t) {tables : List String} (htables : tables ⊆ t.names) :
    (n.readTables tables).Noted t where
  used := h.used
  tables x hx := by
    rcases mem_readTables.mp hx with hx | hx
    · exact h.tables x hx
    · exact htables hx

/-- A claim that fails has found every candidate among the names that have been noted. -/
theorem candidates_subset (h : n.Noted t) {source : String} {isEntry : Bool} {e : Error}
    (hfresh : n.freshAlias source isEntry = .error e) : Alias.candidates source ⊆ t.names := by
  refine Alias.candidates_subset_of_fresh (fun c hc => ?_) hfresh
  rw [Bool.or_eq_true, Bool.and_eq_true] at hc
  rcases hc with hused | ⟨-, htable⟩
  · exact h.used c (Std.TreeSet.contains_iff_mem.mp hused)
  · exact h.tables c (Std.TreeSet.contains_iff_mem.mp htable)

end Names.Noted

/-! ### The two compilations -/

/-- The traced computation ends as the plain one does and accounts for how it ends, provided that
the names it starts with have been noted; so are then those it ends with. -/
def Tracks (y : NamingIn Traced α) (x : Naming α) : Prop :=
  ∀ n (t : Trail), n.Noted t → t.Leads (fun p t' => p.2.Noted t') (x n) (y n t)

namespace Tracks
variable {y : NamingIn Traced α} {x : Naming α}

theorem pure (a : α) : Tracks (pure a) (Pure.pure a) :=
  fun _ _ hn => .ok (List.Subset.refl _) hn

theorem bind {g : α → NamingIn Traced β} {f : α → Naming β} (hx : Tracks y x)
    (hf : ∀ a, Tracks (g a) (f a)) : Tracks (y >>= g) (x >>= f) :=
  fun n t hn => (hx n t hn).bind fun p t' hp => hf p.1 p.2 t' hp

theorem checked {y : Traced α} {x : Except Fault α} (h : Traces y x) :
    Tracks (Sql.checked y) (checked x) := by
  intro n t hn
  have hy := h t
  have hrun : Sql.checked y n t =
      ExceptT.bindCont (fun a => (Pure.pure (a, n) : Traced _)) (y t).1 (y t).2 := rfl
  rw [hrun]
  generalize y t = result at hy
  cases hy with
  | ok hnames _ => exact .ok hnames (hn.mono hnames)
  | error haccounts => exact .error haccounts

theorem claim (source : String) (isEntry : Bool) :
    Tracks (Sql.claim source isEntry) (claim source isEntry) := by
  intro n t hn
  unfold Sql.claim
  cases hfresh : n.freshAlias source isEntry with
  | ok label =>
    have hnoted := (hn.more [label]).withAlias (List.mem_cons_self ..) isEntry
    exact .ok (List.subset_append_right ..) hnoted
  | error e =>
    refine .error fun base attempts he => .inl ?_
    obtain rfl := Fault.error.inj he
    obtain ⟨-, he⟩ := Alias.fresh_fails_iff.mp hfresh
    cases he
    exact hn.candidates_subset hfresh

theorem readTable (name : String) : Tracks (Sql.readTable name) (readTable name) := by
  intro n t hn
  unfold Sql.readTable
  split
  · exact .error fun base attempts he => nomatch he
  · have hnoted := (hn.more [name]).readTables (List.subset_append_left ..)
    exact .ok (List.subset_append_right ..) hnoted

theorem reserve (tables : List String) :
    Tracks (Sql.reserve tables) (reserve tables) := fun _ _ hn =>
  .ok (List.subset_append_right ..) ((hn.more tables).readTables (List.subset_append_left ..))

theorem get : Tracks get get := fun _ _ hn => .ok (List.Subset.refl _) hn

theorem modify {f : Names → Names} (h : ∀ n t, n.Noted t → (f n).Noted t) :
    Tracks (modify f) (modify f) := fun n t hn => .ok (List.Subset.refl _) (h n t hn)

theorem mapM {g : α → NamingIn Traced β} {f : α → Naming β} (h : ∀ a, Tracks (g a) (f a))
    (xs : List α) : Tracks (xs.mapM g) (xs.mapM f) := by
  induction xs with
  | nil => exact .pure []
  | cons a xs ih =>
    rw [List.mapM_cons, List.mapM_cons]
    exact (h a).bind fun b => ih.bind fun bs => .pure (b :: bs)

theorem foldlM {g : β → α → NamingIn Traced β} {f : β → α → Naming β}
    (h : ∀ b a, Tracks (g b a) (f b a)) (xs : List α) (b : β) :
    Tracks (xs.foldlM g b) (xs.foldlM f b) := by
  induction xs generalizing b with
  | nil => exact .pure b
  | cons a xs ih =>
    rw [List.foldlM_cons, List.foldlM_cons]
    exact (h b a).bind fun b' => ih b'

end Tracks

/-! ### Levels -/

theorem traces_resolve (scope : Scope) (source : String) :
    Traces (settled (liftM (scope.resolve source))) (liftM (scope.resolve source)) :=
  .searched fun _ _ h => by simp [Scope.resolve_eq_error_iff] at h

theorem traces_item (l : LevelScope) (source : String) :
    Traces (settled (liftM (l.item source))) (liftM (l.item source)) := by
  refine .searched fun _ _ h => ?_
  unfold LevelScope.item at h
  split at h
  · rcases except_bind_eq_error_iff.mp h with h | ⟨_, -, h⟩
    · simp [Scope.resolve_eq_error_iff] at h
    · cases h
  · cases h

section
variable {level' : Query → Option Scope → NamingIn Traced Select}
  {level : Query → Option Scope → Naming Select}
  (hlevel : ∀ q parent, Tracks (level' q parent) (level q parent))
include hlevel

theorem visit_tracks (l : LevelScope) (source : Source) :
    Tracks (visit level' l source) (visit level l source) := by
  unfold visit
  cases source.data with
  | table name relation =>
    exact (Tracks.claim _ _).bind fun _ => (Tracks.readTable _).bind fun _ => .pure _
  | nested inner =>
    refine (Tracks.claim _ _).bind fun label => (hlevel _ _).bind fun body => ?_
    have hentry : Tracks (modify (·.withEntry ⟨label, body⟩))
        (modify (·.withEntry ⟨label, body⟩)) := .modify fun _ _ hn => ⟨hn.used, hn.tables⟩
    exact hentry.bind fun _ => .pure _

theorem subqueryOf_tracks (placement : EntryPlacement) (q : Query) (outer : Scope) :
    Tracks (subqueryOf placement level' q outer)
      (subqueryOf placement level q outer) := by
  unfold subqueryOf
  refine (Tracks.reserve q.tables).bind fun _ => ?_
  have hbody := hlevel q (some (q.context.getD outer))
  cases placement with
  | hoisted => exact hbody.bind fun _ => .pure _
  | inline =>
    have pending (entries : List Entry) :
        Tracks (modify fun n => { n with pending := entries })
          (modify fun n => { n with pending := entries }) :=
      .modify fun _ _ hn => ⟨hn.used, hn.tables⟩
    have taking : Tracks (takingEntries (level' q (some (q.context.getD outer))))
        (takingEntries (level q (some (q.context.getD outer)))) :=
      Tracks.get.bind fun before => (pending []).bind fun _ => hbody.bind fun _ =>
        Tracks.get.bind fun _ => (pending before.pending).bind fun _ => .pure _
    exact taking.bind fun _ => .pure _

theorem resolve_tracks (placement : EntryPlacement) (scope : Scope) (e : Expr Query) :
    Tracks (resolve (subqueryOf placement level') scope e)
      (resolve (subqueryOf placement level) scope e) := by
  induction e with
  | column source name => exact (Tracks.checked (traces_resolve scope source)).bind fun _ => .pure _
  | star source => exact (Tracks.checked (traces_resolve scope source)).bind fun _ => .pure _
  | raw sql => exact .pure _
  | text value => exact .pure _
  | unary before operand after ih => exact ih.bind fun _ => .pure _
  | binary before between after left right ihl ihr =>
    exact ihl.bind fun _ => ihr.bind fun _ => .pure _
  | subquery q => exact (subqueryOf_tracks hlevel placement q scope).bind fun _ => .pure _

end

section
variable {traced : Calls Traced} {calls : Calls} (hcalls : traced.Trace calls)
  {resolveHere' : Expr Query → NamingIn Traced (Expr Statement)}
  {resolveHere : Expr Query → Naming (Expr Statement)}
  (hresolve : ∀ e, Tracks (resolveHere' e) (resolveHere e)) (row : Row)
include hcalls hresolve

theorem projected_tracks (p : Projection) :
    Tracks (projected traced resolveHere' row p) (projected calls resolveHere row p) :=
  (Tracks.checked (p.traces hcalls row)).bind fun selections =>
    .mapM (fun s => (hresolve s.expr).bind fun _ => .pure _) selections

theorem joined_tracks (l : LevelScope) (j : JoinClause) :
    Tracks (joined traced resolveHere' row l j) (joined calls resolveHere row l j) :=
  (Tracks.checked (j.on.traces hcalls row)).bind fun e => (hresolve e).bind fun _ =>
    (Tracks.checked (traces_item l j.label)).bind fun _ => .pure _

theorem filtered_tracks (filters : List Predicate) :
    Tracks (filtered traced resolveHere' row filters)
      (filtered calls resolveHere row filters) :=
  (Tracks.mapM (fun p => .checked (p.traces hcalls row)) filters).bind fun conditions =>
    .mapM hresolve conditions

theorem sorted_tracks (sorting : Option Sorting) :
    Tracks (sorted traced resolveHere' row sorting)
      (sorted calls resolveHere row sorting) := by
  cases sorting with
  | none => exact .pure []
  | some s =>
    exact (Tracks.checked (s.traces hcalls row)).bind fun keys =>
      .mapM (fun key => (hresolve key.expr).bind fun _ => .pure _) keys

end

/-- However deep it goes, a traced level ends as the plain one does. -/
theorem compileLevel_tracks (placement : EntryPlacement) {traced : Calls Traced} {calls : Calls}
    (hcalls : traced.Trace calls) (depth : Nat) (q : Query) (parent : Option Scope) :
    Tracks (compileLevel placement traced depth q parent)
      (compileLevel placement calls depth q parent) := by
  induction depth generalizing q parent with
  | zero => exact .checked (.settled nofun)
  | succ depth ih =>
    refine (Tracks.foldlM (visit_tracks ih) q.sources _).bind fun l => ?_
    have hresolve := resolve_tracks ih placement l.scope
    refine (Tracks.mapM (projected_tracks hcalls hresolve _) q.projections).bind fun _ => ?_
    refine (Tracks.checked (traces_item l q.baseSource)).bind fun _ => ?_
    refine (Tracks.mapM (joined_tracks hcalls hresolve _ l) q.joins).bind fun _ => ?_
    refine (filtered_tracks hcalls hresolve _ q.filters).bind fun _ => ?_
    exact (sorted_tracks hcalls hresolve _ q.sorting).bind fun _ => .pure _

/-! ### Statements and expressions -/

/-- The statement of a query and the trail of its compilation. The aliases of the context and the
tables of the query are reserved from the start. -/
def tracedStatement (depth : Nat) (q : Query) : Except Fault Statement × Trail :=
  let statement : Traced Statement := statementWith (.within depth) depth q
  statement { names := (q.context.map Scope.displayAliases).getD [] ++ q.tables }

/-- An expression resolved in a scope, and the trail. The aliases of the scope are reserved from the
start. -/
def tracedExpression (depth : Nat) (e : Expr Query) (scope : Scope) :
    Except Fault (Expr Statement) × Trail :=
  let resolved : Traced (Expr Statement) := resolvedWith (.within depth) depth e scope
  resolved { names := scope.displayAliases }

theorem tracedStatement_leads (depth : Nat) (q : Query) :
    ∃ t : Trail, t.Leads (fun _ _ => True) (statementWithin depth q) (tracedStatement depth q) := by
  have hnoted : (initialNames q).Noted
      { names := (q.context.map Scope.displayAliases).getD [] ++ q.tables } :=
    { used := fun x hx => List.mem_append_left _ (mem_reserving.mp hx)
      tables := fun x hx => by
        rcases mem_readTables.mp hx with hx | hx
        · simp [Names.reserving] at hx
        · exact List.mem_append_right _ hx }
  have hlevel := compileLevel_tracks .hoisted (Calls.trace_within depth) depth q q.context
  exact ⟨_, (hlevel _ _ hnoted).map _⟩

theorem tracedExpression_leads (depth : Nat) (e : Expr Query) (scope : Scope) :
    ∃ t : Trail, t.Leads (fun _ _ => True) (resolvedWithin depth e scope)
      (tracedExpression depth e scope) := by
  have hnoted : (Names.reserving scope.displayAliases).Noted { names := scope.displayAliases } :=
    { used := fun x hx => mem_reserving.mp hx
      tables := fun x hx => by simp [Names.reserving] at hx }
  have hlevel := compileLevel_tracks .inline (Calls.trace_within depth) depth
  have hresolve := resolve_tracks hlevel .inline scope e
  exact ⟨_, (hresolve _ _ hnoted).map _⟩

theorem tracedStatement_fst (depth : Nat) (q : Query) :
    (tracedStatement depth q).1 = statementWithin depth q := by
  obtain ⟨t, h⟩ := tracedStatement_leads depth q
  exact h.outcome_eq

theorem tracedExpression_fst (depth : Nat) (e : Expr Query) (scope : Scope) :
    (tracedExpression depth e scope).1 = resolvedWithin depth e scope := by
  obtain ⟨t, h⟩ := tracedExpression_leads depth e scope
  exact h.outcome_eq

theorem statementWithin_ne_exhausted {depth : Nat} {q : Query}
    (hroomy : (tracedStatement depth q).2.Roomy) (base : String) (attempts : Nat) :
    statementWithin depth q ≠ .error (.error (.aliasSpaceExhausted base attempts)) := by
  obtain ⟨t, h⟩ := tracedStatement_leads depth q
  exact h.ne_exhausted hroomy base attempts

theorem resolvedWithin_ne_exhausted {depth : Nat} {e : Expr Query} {scope : Scope}
    (hroomy : (tracedExpression depth e scope).2.Roomy) (base : String) (attempts : Nat) :
    resolvedWithin depth e scope ≠ .error (.error (.aliasSpaceExhausted base attempts)) := by
  obtain ⟨t, h⟩ := tracedExpression_leads depth e scope
  exact h.ne_exhausted hroomy base attempts

end QueryBuilder.Sql
