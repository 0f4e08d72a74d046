import QueryBuilder.Proofs.Naming

/-! Pending entries.

Compiling adds entries behind those that are pending, and does not look at these. An inline
subquery starts without any and restores the list afterwards; it might as well be compiled on the
list as it is, and the entries that have arisen be cut off behind the length from before. -/
namespace QueryBuilder.Sql
variable {α β : Type}

/-- The names with some entries in front of the pending ones. -/
def Names.behind (n : Names) (front : List Entry) : Names := { n with pending := front ++ n.pending }

/-- The computation goes the same way whatever is pending in front. -/
def Framed (x : Naming α) : Prop :=
  ∀ n front, x (n.behind front) = (x n).map fun p => (p.1, p.2.behind front)

namespace Framed
variable {x : Naming α}

theorem pure (a : α) : Framed (pure a) := fun _ _ => rfl

theorem bind (hx : Framed x) {f : α → Naming β} (hf : ∀ a, Framed (f a)) : Framed (x >>= f) := by
  intro n front
  show Except.bind (x (n.behind front)) (fun p => f p.1 p.2) =
    (Except.bind (x n) fun p => f p.1 p.2).map _
  rw [hx n front]
  cases x n with
  | error e => rfl
  | ok p => exact hf p.1 p.2 front

theorem checked (result : Except Fault α) : Framed (checked result) := by
  intro n front
  cases result <;> rfl

theorem claim (source : String) (isEntry : Bool) : Framed (claim source isEntry) := by
  intro n front
  have hfresh : (n.behind front).freshAlias source isEntry = n.freshAlias source isEntry := rfl
  unfold Sql.claim
  rw [hfresh]
  cases n.freshAlias source isEntry <;> rfl

theorem readTable (name : String) : Framed (readTable name) := by
  intro n front
  unfold Sql.readTable
  by_cases h : n.entryNames.contains name <;> simp [Names.behind, h, Except.map, Names.readTables]

theorem readTables (tables : List String) : Framed (modify (·.readTables tables)) := fun _ _ => rfl

theorem withEntry (entry : Entry) : Framed (modify (·.withEntry entry)) := by
  intro n front
  show Except.ok (_, (n.behind front).withEntry entry) = .ok (_, (n.withEntry entry).behind front)
  simp [Names.behind, Names.withEntry]

theorem mapM {f : α → Naming β} (hf : ∀ a, Framed (f a)) (xs : List α) : Framed (xs.mapM f) := by
  induction xs with
  | nil => exact .pure _
  | cons a xs ih =>
    rw [List.mapM_cons]
    exact (hf a).bind fun b => ih.bind fun bs => .pure _

theorem foldlM {f : β → α → Naming β} (hf : ∀ b a, Framed (f b a)) (xs : List α) (b : β) :
    Framed (xs.foldlM f b) := by
  induction xs generalizing b with
  | nil => exact .pure _
  | cons a xs ih =>
    rw [List.foldlM_cons]
    exact (hf b a).bind ih

/-- So it can be started without pending entries, and these be put back in front. -/
theorem eq_behind (h : Framed x) (n : Names) :
    x n = (x { n with pending := [] }).map fun p => (p.1, p.2.behind n.pending) := by
  have hn : Names.behind { n with pending := [] } n.pending = n := by simp [Names.behind]
  rw [← h, hn]

/-- What starts without pending entries and restores them does not see them. -/
theorem takingEntries (x : Naming α) : Framed (takingEntries x) := by
  intro n front
  show Except.bind (x { n with pending := [] }) (fun p => _) =
    (Except.bind (x { n with pending := [] }) fun p => _).map _
  cases x { n with pending := [] } <;> rfl

end Framed

/-! ### Compiling is framed -/

section
variable {subquery : Query → Scope → Naming Statement} {level : Query → Option Scope → Naming Select}

theorem resolve_framed (hsubquery : ∀ q scope, Framed (subquery q scope)) (scope : Scope)
    (e : Expr Query) : Framed (resolve subquery scope e) := by
  induction e with
  | column source name | star source => exact (Framed.checked _).bind fun _ => .pure _
  | raw sql | text value => exact .pure _
  | unary before operand after ih => exact ih.bind fun _ => .pure _
  | binary before between after left right ihl ihr =>
    exact ihl.bind fun _ => ihr.bind fun _ => .pure _
  | subquery query => exact (hsubquery query scope).bind fun _ => .pure _

theorem visit_framed (hlevel : ∀ q parent, Framed (level q parent)) (l : LevelScope)
    (source : Source) : Framed (visit level l source) := by
  unfold visit
  split
  · exact (Framed.claim _ _).bind fun _ => (Framed.readTable _).bind fun _ => .pure _
  · exact (Framed.claim _ _).bind fun _ => (hlevel _ _).bind fun _ =>
      (Framed.withEntry _).bind fun _ => .pure _

theorem subqueryOf_framed (placement : EntryPlacement)
    (hlevel : ∀ q parent, Framed (level q parent)) (q : Query) (outer : Scope) :
    Framed (subqueryOf placement level q outer) := by
  refine (Framed.readTables _).bind fun _ => ?_
  cases placement with
  | hoisted => exact (hlevel _ _).bind fun _ => .pure _
  | inline => exact (Framed.takingEntries _).bind fun _ => .pure _

end

section
variable {calls : Calls} {resolveHere : Expr Query → Naming (Expr Statement)} {row : Row}

theorem projected_framed (h : ∀ e, Framed (resolveHere e)) (projection : Projection) :
    Framed (projected calls resolveHere row projection) :=
  (Framed.checked _).bind fun selections =>
    .mapM (fun s => (h s.expr).bind fun _ => .pure _) selections

theorem joined_framed (h : ∀ e, Framed (resolveHere e)) (l : LevelScope) (join : JoinClause) :
    Framed (joined calls resolveHere row l join) :=
  (Framed.checked _).bind fun e => (h e).bind fun _ => (Framed.checked _).bind fun _ => .pure _

theorem filtered_framed (h : ∀ e, Framed (resolveHere e)) (filters : List Predicate) :
    Framed (filtered calls resolveHere row filters) :=
  (Framed.mapM (fun _ => .checked _) filters).bind fun conditions => .mapM h conditions

theorem sorted_framed (h : ∀ e, Framed (resolveHere e)) (sorting : Option Sorting) :
    Framed (sorted calls resolveHere row sorting) := by
  cases sorting with
  | none => exact .pure _
  | some sorting =>
    exact (Framed.checked _).bind fun keys =>
      .mapM (fun key => (h key.expr).bind fun _ => .pure _) keys

end

/-- Compiling a level adds entries behind the pending ones and leaves these alone. -/
theorem compileLevel_framed (placement : EntryPlacement) (calls : Calls) (depth : Nat) (q : Query)
    (parent : Option Scope) : Framed (compileLevel placement calls depth q parent) := by
  induction depth generalizing q parent with
  | zero => exact .checked _
  | succ depth ih =>
    have hresolve := resolve_framed (subqueryOf_framed placement ih)
    refine (Framed.foldlM (visit_framed ih) _ _).bind fun l => ?_
    refine (Framed.mapM (projected_framed (hresolve _)) _).bind fun items => ?_
    refine (Framed.checked _).bind fun base => ?_
    refine (Framed.mapM (joined_framed (hresolve _) l) _).bind fun joins => ?_
    refine (filtered_framed (hresolve _) _).bind fun conditions => ?_
    exact (sorted_framed (hresolve _) _).bind fun sorting => .pure _

end QueryBuilder.Sql
