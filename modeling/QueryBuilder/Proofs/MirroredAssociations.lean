import QueryBuilder.Proofs.FetchChains
import QueryBuilder.Proofs.SchemaHistories

/-! Associations declared on both sides.

A slave that declares what its master declares gets the association of its master, only
the other way round. Which of the two aliases is the master's is asked again when the
condition is made, and a slave puts its own alias behind the other one. The two turns
cancel out: the two conditions are one equation between the same columns, with the
master's column on the left, in every row, and they are written alike wherever the two
aliases are. -/
namespace QueryBuilder

/-! ### Declarations on both sides -/

namespace Schema

/-- The relation has the association under this name. -/
def Has (s : Schema) (id : Nat) (name : String) (a : Association) : Prop :=
  ∃ r, s.relations[id]? = some r ∧ r.associations[name]? = some a

/-- A master declares what joins it to a slave, and the slave what joins it to the master,
with the same keys. -/
structure Mirrored (s : Schema) (master slave : Nat) (m t : Relation)
    (many one : AssociationOptions) : Prop where
  master : s.relations[master]? = some m
  slave : s.relations[slave]? = some t
  foreignKey : many.foreignKey = one.foreignKey
  targetKey : many.targetKey = one.targetKey

/-- The names of the two declarations are free, and differ where both are given to one
relation. -/
structure NamesFree (master slave : Nat) (m t : Relation) (many one : AssociationOptions) :
    Prop where
  ofMaster : m.associations[many.name t]? = none
  ofSlave : t.associations[one.name m]? = none
  apart : master = slave → many.name t ≠ one.name m

variable {s : Schema} {direction : Direction} {owner target : Nat}
  {options options' : AssociationOptions} {o o' t t' : Relation} {key key' : String}

theorem declare_eq_ok (ho : s.relations[owner]? = some o') (ht : s.relations[target]? = some t')
    (hokeeps : o.Keeps o') (htkeeps : t.Keeps t')
    (hkey : (options.targetKey <|> (direction.master o t).primaryKey) = some key)
    (hfree : o'.associations[options.name t]? = none) :
    s.declare direction owner target options =
      .ok ⟨s.relations.set owner (o'.extended (options.name t)
        ⟨direction, direction.master owner target, direction.slave owner target,
          options.foreignKey.getD ((direction.master o t).name ++ "Id"), key⟩)⟩ := by
  have hmaster : (direction.master o t).Keeps (direction.master o' t') := by
    cases direction
    · exact hokeeps
    · exact htkeeps
  have hname : options.name t' = options.name t := by
    rw [AssociationOptions.name, htkeeps.name_eq]
    rfl
  have hunused : ¬ o'.associations.contains (options.name t) := by
    rw [Std.TreeMap.contains_eq_isSome_getElem?, hfree]
    simp
  rw [declare_known ho ht, hmaster.key_eq, hmaster.name_eq, hkey, hname]
  exact if_neg hunused

/-- Two relations declare each other, one after the other. -/
theorem declare_declare (direction direction' : Direction)
    (ho : s.relations[owner]? = some o) (ht : s.relations[target]? = some t)
    (hkey : (options.targetKey <|> (direction.master o t).primaryKey) = some key)
    (hkey' : (options'.targetKey <|> (direction'.master t o).primaryKey) = some key')
    (hfree : o.associations[options.name t]? = none)
    (hfree' : t.associations[options'.name o]? = none)
    (hapart : owner = target → options.name t ≠ options'.name o) :
    ∃ s₁ s₂, s.declare direction owner target options = .ok s₁ ∧
      s₁.declare direction' target owner options' = .ok s₂ ∧
      s₂.Has owner (options.name t) ⟨direction, direction.master owner target,
        direction.slave owner target,
        options.foreignKey.getD ((direction.master o t).name ++ "Id"), key⟩ ∧
      s₂.Has target (options'.name o) ⟨direction', direction'.master target owner,
        direction'.slave target owner,
        options'.foreignKey.getD ((direction'.master t o).name ++ "Id"), key'⟩ := by
  have hfirst := declare_eq_ok ho ht (.refl o) (.refl t) hkey hfree
  generalize (⟨direction, _, _, _, key⟩ : Association) = a at hfirst ⊢
  have hlt : owner < s.relations.length := (List.getElem?_eq_some_iff.mp ho).1
  have hlt' : target < s.relations.length := (List.getElem?_eq_some_iff.mp ht).1
  have hextended : (s.relations.set owner (o.extended (options.name t) a))[owner]? =
      some (o.extended (options.name t) a) := List.getElem?_set_self hlt
  have hgrown : o.Keeps (o.extended (options.name t) a) := o.keeps_extended a hfree
  have hadded : (o.extended (options.name t) a).associations[options.name t]? = some a := by
    rw [Relation.getElem?_extended, if_pos rfl]
  by_cases hsame : owner = target
  · -- The second declaration extends what the first one has extended.
    subst hsame
    obtain rfl := Option.some.inj (ho.symm.trans ht)
    have hunused : (o.extended (options.name o) a).associations[options'.name o]? = none := by
      rw [Relation.getElem?_extended, if_neg (hapart rfl), hfree']
    refine ⟨_, _, hfirst, declare_eq_ok hextended hextended hgrown hgrown hkey' hunused, ?_, ?_⟩
    · refine ⟨_, List.getElem?_set_self (by simpa using hlt), ?_⟩
      exact (Relation.keeps_extended _ hunused).association _ _ hadded
    · refine ⟨_, List.getElem?_set_self (by simpa using hlt), ?_⟩
      rw [Relation.getElem?_extended, if_pos rfl]
  · have hother : (s.relations.set owner (o.extended (options.name t) a))[target]? = some t :=
      (List.getElem?_set_ne hsame).trans ht
    refine ⟨_, _, hfirst, declare_eq_ok hother hextended (.refl t) hgrown hkey' hfree', ?_, ?_⟩
    · exact ⟨_, (List.getElem?_set_ne (Ne.symm hsame)).trans hextended, hadded⟩
    · refine ⟨_, List.getElem?_set_self (by simpa using hlt'), ?_⟩
      rw [Relation.getElem?_extended, if_pos rfl]

end Schema

/-! ### Where a condition is written -/

namespace Sql
variable {a : Association} {p : Predicate} {row : Row} {scope : Scope} {c : Expr Statement}

/-- Called for the row, the condition gives what becomes `c` in the scope, in some place of a
compilation. -/
def EmittedAs (p : Predicate) (row : Row) (scope : Scope) (c : Expr Statement) : Prop :=
  ∃ (calls : Calls) (e : Expr Query) (subquery : Query → Scope → Naming Statement) (n n' : Names),
    p.apply calls row = .ok e ∧ resolve subquery scope e n = .ok (c, n')

/-- The condition of an association is written as the equation of the aliases that its two sides
have in the scope. -/
theorem EmittedAs.equation {owner target : String}
    (h : EmittedAs (a.predicate owner target) row scope c) :
    ∃ d d', scope.resolve (row.substitute owner) = .ok d ∧
      scope.resolve (row.substitute target) = .ok d' ∧ c = a.equation d d' := by
  obtain ⟨calls, e, subquery, n, n', happly, hresolve⟩ := h
  obtain rfl : a.equation (row.substitute owner) (row.substitute target) = e := by
    rw [← a.condition_eq_equation]
    exact Except.ok.inj happly
  obtain ⟨shown, hshown⟩ := scope.exists_shown
  obtain ⟨howner, htarget, rfl, -⟩ := resolve_equation (l := ⟨scope, ∅⟩) hshown hresolve
  exact ⟨_, _, howner, htarget, rfl⟩

/-- A filter that is called for a row calls the condition for another one: it is the condition, or
it has come with a merged query. -/
inductive CallsFor : Predicate → Row → Predicate → Row → Prop
  | own {p : Predicate} {row : Row} : CallsFor p row p row
  | merged {p p' : Predicate} {row row' : Row} {target : Query} {label : String} :
    CallsFor p (target.atMerged label row) p' row' →
      CallsFor ⟨.call p (target.mergedRow label), []⟩ row p' row'

theorem CallsFor.apply {p p' : Predicate} {row row' : Row} (h : CallsFor p row p' row') {depth : Nat}
    {e : Expr Query} (happly : p.apply (.within depth) row = .ok e) :
    ∃ depth', p'.apply (.within depth') row' = .ok e := by
  induction h generalizing depth with
  | own => exact ⟨depth, happly⟩
  | merged _ ih =>
    cases depth with
    | zero => cases happly
    | succ depth => exact ih (Query.apply_merged happly)

/-- The query is compiled to the select, with its sources visible in the scope. -/
inductive CompilesIn (placement : EntryPlacement) (q : Query) (s : Select) (scope : Scope) : Prop
  | intro {calls depth : Nat} {parent : Option Scope} {n m n' : Names} {l : LevelScope} :
    q.sources.foldlM (visit (compileLevel placement (.within calls) depth))
      { scope := .child parent } n = .ok (l, m) →
    compileLevel placement (.within calls) (depth + 1) q parent n = .ok (s, n') →
    l.scope = scope → CompilesIn placement q s scope

/-- The condition is called for the row by a filter of the query or in a join of it, and what it
gives there is written as `c`. -/
inductive WrittenAs (q : Query) (s : Select) (scope : Scope) (p : Predicate) (row : Row)
    (c : Expr Statement) : Prop
  | filter {i : Nat} {p' : Predicate} : q.filters[i]? = some p' → s.conditions[i]? = some c →
    CallsFor p' (.bound q scope) p row → WrittenAs q s scope p row c
  | join {i : Nat} {clause : JoinClause} {j : Join} : q.joins[i]? = some clause →
    s.joins[i]? = some j → j.condition = c → CallsFor clause.on (.bound q scope) p row →
    WrittenAs q s scope p row c

section
variable {resolveHere : Expr Query → Naming (Expr Statement)} {n n' : Names}

theorem joined_each {calls : Calls} {l : LevelScope} {joins : List JoinClause} {js : List Join}
    (h : joins.mapM (joined calls resolveHere row l) n = .ok (js, n')) :
    List.Forall₂ (fun clause j => ∃ m m', joined calls resolveHere row l clause m = .ok (j, m'))
      joins js := by
  induction joins generalizing n js with
  | nil =>
    rw [List.mapM_nil, pure_eq_ok_iff] at h
    exact h.1 ▸ .nil
  | cons clause joins ih =>
    simp only [List.mapM_cons, bind_eq_ok_iff, pure_eq_ok_iff] at h
    obtain ⟨j, m, hj, js, m', hrest, rfl, rfl⟩ := h
    exact .cons ⟨n, m, hj⟩ (ih hrest)

end

variable {placement : EntryPlacement} {q : Query} {s : Select}

/-- Whatever a level compiles to, its sources are visible in some scope. -/
theorem exists_compilesIn {calls depth : Nat} {parent : Option Scope} {n n' : Names}
    (h : compileLevel placement (.within calls) depth q parent n = .ok (s, n')) :
    ∃ scope, CompilesIn placement q s scope := by
  cases depth with
  | zero => simp [compileLevel, checked_eq_ok_iff] at h
  | succ depth =>
    obtain ⟨l, m, _, run⟩ := compileLevel_run h
    exact ⟨l.scope, .intro run.visits h rfl⟩

/-- The base and the joined sources are shown under the aliases that they have in the scope. -/
theorem CompilesIn.shown (h : CompilesIn placement q s scope) :
    scope.resolve q.baseSource = .ok s.base.label ∧
      List.Forall₂ (fun clause j => scope.resolve clause.label = .ok j.item.label) q.joins
        s.joins := by
  obtain ⟨hvisits, hrun, rfl⟩ := h
  obtain ⟨l', m', _, run⟩ := compileLevel_run hrun
  obtain ⟨rfl, rfl⟩ := Prod.mk.inj (Except.ok.inj (hvisits.symm.trans run.visits))
  exact ⟨LevelScope.resolve_of_item run.base,
    run.joins.imp fun clause j hj => LevelScope.resolve_of_item hj.1⟩

/-- What is written for a condition is what it becomes in the scope of the level. -/
theorem CompilesIn.emitted (h : CompilesIn placement q s scope)
    (hwritten : WrittenAs q s scope p row c) : EmittedAs p row scope c := by
  obtain @⟨calls, depth, parent, n, m, n', l, hvisits, hrun, rfl⟩ := h
  simp only [compileLevel, levelOf, bind_eq_ok_iff, pure_eq_ok_iff] at hrun
  obtain ⟨l', m', hvisits', items, _, -, base, _, -, joins, _, hjoins, conditions, _, hfiltered,
    sorting, _, -, rfl, -⟩ := hrun
  obtain ⟨rfl, rfl⟩ := Prod.mk.inj (Except.ok.inj (hvisits.symm.trans hvisits'))
  cases hwritten with
  | filter hp hc hcalls =>
    obtain ⟨es, happly, hresolves⟩ := filtered_run hfiltered
    obtain ⟨e, he, m₁, m₂, hresolve⟩ := forall₂_getElem? (forall₂_comp happly hresolves.each) hp hc
    obtain ⟨depth', he'⟩ := hcalls.apply he
    exact ⟨_, e, _, m₁, m₂, he', hresolve⟩
  | join hclause hj hc hcalls =>
    obtain ⟨m₁, m₂, hjoined⟩ := forall₂_getElem? (joined_each hjoins) hclause hj
    obtain ⟨e, he, hresolve, -, -⟩ := joined_run hjoined
    obtain ⟨depth', he'⟩ := hcalls.apply he
    exact ⟨_, e, _, m₁, m₂, he', hc ▸ hresolve⟩

end Sql

/-! ### Following an association -/

theorem Query.attach_of_joinAssociation {q q' : Query} {name : String} {options : JoinOptions}
    (h : q.join (.association name) options = .ok q') :
    ∃ source clause, q' = q.attach source clause := by
  unfold join joinAssociation at h
  simp only at h
  split at h
  · cases h
  · simp only [except_bind_eq_ok_iff] at h
    obtain ⟨_, -, _, -, _, -, h⟩ := h
    exact ⟨_, _, (Except.ok.inj h).symm⟩

/-- A fetch along a known association is a link of that association. -/
theorem Row.fetchFrom_along {r r' : Row} {source name : String} {label : Option String}
    {o : RelationRef} {a : Association}
    (hrelation : r.relationOf (r.substitute source) = .ok (some o))
    (hassociation : o.association name = .ok a) (h : r.fetchFrom source name label = .ok r') :
    ∃ link : FetchLink, link.association = a ∧
      r' = if r.fetched then
        { r with
          query := r.query.attach link.source
            (a.joinClause (r.substitute source) link.label .inner)
          defaultSource := link.label }
      else ⟨.chain r.scope (r.substitute source) link [], [], link.label, r.scope, true⟩ := by
  obtain ⟨o', link, hrelation', hassociation', -, -, hr'⟩ := fetchFrom_run h
  obtain rfl := Option.some.inj (Except.ok.inj (hrelation.symm.trans hrelation'))
  obtain rfl := Except.ok.inj (hassociation.symm.trans hassociation')
  exact ⟨link, rfl, hr'⟩

namespace RelationRef
variable {o : RelationRef} {name : String}

/-- Following the association of `o`, which stands behind the source `owner`, ties the alias
`target` to it by this condition. A query gets it as that of a join, and so does a row that has
been fetched; from any other row it is the filter that a query begins with. -/
inductive Ties (o : RelationRef) (name : String) : (owner target : String) → Predicate → Prop
  | joined {q q' : Query} {options : JoinOptions} {clause : JoinClause}
    (relation : q.defaultRelation = some o) (derived : options.on = none)
    (join : q.join (.association name) options = .ok q') (added : q'.joins = q.joins ++ [clause]) :
    Ties o name q.defaultSource clause.label clause.on
  | fetched {r r' : Row} {source : String} {label : Option String} {clause : JoinClause}
    (relation : r.relationOf (r.substitute source) = .ok (some o))
    (fetch : r.fetchFrom source name label = .ok r')
    (added : r'.query.joins = r.query.joins ++ [clause]) :
    Ties o name (r.substitute source) clause.label clause.on
  | begun {r r' : Row} {source : String} {label : Option String} {p : Predicate}
    (relation : r.relationOf (r.substitute source) = .ok (some o))
    (fetch : r.fetchFrom source name label = .ok r') (own : r.fetched = false)
    (only : r'.query.filters = [p]) : Ties o name (r.substitute source) r'.defaultSource p

theorem Ties.predicate_eq {owner target : String} {p : Predicate} {a : Association}
    (h : o.Ties name owner target p) (ha : o.relation.associations[name]? = some a) :
    p = a.predicate owner target := by
  have hassociation := association_eq_ok_iff.mpr ha
  cases h with
  | joined hrelation hderived hjoin hadded =>
    simp only [Query.join, Query.joinAssociation, hrelation, hassociation, except_bind_eq_ok_iff,
      hderived, Option.getD_none] at hjoin
    obtain ⟨b, hb, t, -, label, -, h⟩ := hjoin
    obtain rfl := Except.ok.inj hb
    obtain rfl := Except.ok.inj h
    obtain rfl := List.singleton_inj.mp (List.append_cancel_left hadded)
    rfl
  | @fetched r r' source label clause hrelation hfetch hadded =>
    obtain ⟨link, rfl, rfl⟩ := Row.fetchFrom_along hrelation hassociation hfetch
    cases hfetched : r.fetched with
    | true =>
      rw [hfetched] at hadded
      obtain rfl := List.singleton_inj.mp (List.append_cancel_left hadded)
      rfl
    | false =>
      rw [hfetched] at hadded
      simp [Query.chain, joinClauses] at hadded
  | begun hrelation hfetch hown honly =>
    obtain ⟨link, rfl, rfl⟩ := Row.fetchFrom_along hrelation hassociation hfetch
    rw [hown] at honly ⊢
    exact (List.singleton_inj.mp honly).symm

end RelationRef

namespace Sql

/-- Somewhere a query is compiled in which the association of `o` has been followed, with the two
sides shown as `d` and `d'`, and its condition is written as `c`. -/
inductive FollowedAs (o : RelationRef) (name d d' : String) (c : Expr Statement) : Prop
  | intro {owner target : String} {p : Predicate} {placement : EntryPlacement} {q : Query}
    {s : Select} {scope : Scope} {row : Row} (ties : o.Ties name owner target p)
    (compiles : CompilesIn placement q s scope) (written : WrittenAs q s scope p row c)
    (owner_shown : scope.resolve (row.substitute owner) = .ok d)
    (target_shown : scope.resolve (row.substitute target) = .ok d') : FollowedAs o name d d' c

theorem FollowedAs.equation {o : RelationRef} {name d d' : String} {c : Expr Statement}
    {a : Association} (h : FollowedAs o name d d' c) (ha : o.relation.associations[name]? = some a) :
    c = a.equation d d' := by
  obtain ⟨hties, hcompiles, hwritten, howner, htarget⟩ := h
  obtain rfl := hties.predicate_eq ha
  obtain ⟨x, x', hx, hx', rfl⟩ := (hcompiles.emitted hwritten).equation
  obtain rfl := Except.ok.inj (howner.symm.trans hx)
  obtain rfl := Except.ok.inj (htarget.symm.trans hx')
  rfl

/-- A join along an association is written behind the joins that were there, between what the base
and the joined source are shown as. -/
theorem followedAs_of_join {o : RelationRef} {name : String} {q q' : Query} {options : JoinOptions}
    (hregular : q.Regular) (howner : q.defaultRelation = some o) (hon : options.on = none)
    (hjoin : q.join (.association name) options = .ok q') {s : Statement}
    (hs : q'.statement = .ok s) :
    ∃ j, s.body.joins[q.joins.length]? = some j ∧
      FollowedAs o name s.body.base.label j.item.label j.condition := by
  obtain ⟨source, clause, rfl⟩ := q.attach_of_joinAssociation hjoin
  obtain ⟨names, hrun, -⟩ := statementWithin_run hs
  obtain ⟨scope, hcompiles⟩ := exists_compilesIn hrun
  obtain ⟨hbase, hjoins⟩ := hcompiles.shown
  have hclause : (q.attach source clause).joins[q.joins.length]? = some clause := by
    simp [Query.attach]
  obtain ⟨hi, -⟩ := List.getElem?_eq_some_iff.mp hclause
  rw [hjoins.length_eq] at hi
  have hj := List.getElem?_eq_getElem hi
  refine ⟨_, hj, .intro (.joined howner hon hjoin rfl) hcompiles (.join hclause hj rfl .own) ?_ ?_⟩
  · rw [Row.substitute_nil rfl, hregular.default_eq]
    exact hbase
  · rw [Row.substitute_nil rfl]
    exact forall₂_getElem? hjoins hclause hj

/-- A fetch is written as the only filter of the subquery that it begins, between what the source is
shown as around and what the base of the subquery is. -/
theorem followedAs_of_fetch {o : RelationRef} {name source : String} {r r' : Row}
    {label : Option String} (hown : r.fetched = false)
    (hrelation : r.relationOf (r.substitute source) = .ok (some o))
    (hfetch : r.fetchFrom source name label = .ok r') {calls depth : Nat} {n n' : Names}
    (hrun : compileLevel placement (.within calls) depth r'.query r'.query.context n = .ok (s, n')) :
    ∃ d c, r.scope.resolve (r.substitute source) = .ok d ∧ s.conditions = [c] ∧
      FollowedAs o name d s.base.label c := by
  cases depth with
  | zero => simp [compileLevel, checked_eq_ok_iff] at hrun
  | succ depth =>
    obtain ⟨-, link, -, -, -, hvisible, hr'⟩ := Row.fetchFrom_run hfetch
    rw [if_neg (by simp [hown])] at hr'
    have hties := RelationRef.Ties.begun hrelation hfetch hown (by rw [hr']; rfl)
    subst hr'
    replace hrun : compileLevel placement (.within calls) (depth + 1)
      (.chain r.scope (r.substitute source) link []) (some r.scope) n = .ok (s, n') := hrun
    obtain ⟨l, m, _, run⟩ := compileLevel_run hrun
    have hcompiles := CompilesIn.intro run.visits hrun rfl
    obtain ⟨_, conditions, _, _, _, _, _, -, happly, -, hresolves, -⟩ := run.filters
    obtain ⟨c, hc⟩ : ∃ c, s.conditions = [c] :=
      List.length_eq_one_iff.mp (hresolves.length_eq.symm.trans happly.length_eq.symm)
    have hfirst : s.conditions[0]? = some c := by rw [hc]; rfl
    have hwritten : WrittenAs (.chain r.scope (r.substitute source) link []) s l.scope
        (link.association.predicate (r.substitute source) link.label) (.bound _ l.scope) c :=
      .filter rfl hfirst .own
    obtain ⟨d, d', hd, -, -⟩ := (hcompiles.emitted hwritten).equation
    -- The source is not one of the subquery, so it is shown as around.
    have hne : r.substitute source ≠ link.label := by
      intro heq
      have hseen := Row.isVisible_of_relationOf hrelation
      rw [heq, hvisible] at hseen
      cases hseen
    have hbinds := visits_binds (compileLevel_grows placement _ depth) run.visits
    have haround : l.scope.resolve (r.substitute source) = r.scope.resolve (r.substitute source) := by
      unfold Scope.resolve
      rw [hbinds.around _ (by simpa [Query.chain, FetchLink.source] using hne),
        Scope.lookup_child_some]
    rw [Row.substitute_nil rfl] at hd
    refine ⟨d, c, haround.symm.trans hd, hc, .intro hties hcompiles hwritten ?_ ?_⟩
    · rw [Row.substitute_nil rfl]
      exact hd
    · rw [Row.substitute_nil rfl]
      exact hcompiles.shown.1

end Sql

namespace Schema

/-- **An association is the same from both sides.** A master `m` declares its slaves `t`, and a slave
its master, with the same keys. If the master has no key to point at, both declarations fail for
that. Otherwise both are accepted under free names, whichever comes first, and describe the same
sides and keys. In every row, whatever names stand for in it, the two conditions are the same
equation, with the master's column on the left; and in whatever queries the association has been
followed from one side and from the other, its condition is written alike where the two sides are
shown under the same aliases. -/
theorem mirrored_associations {s : Schema} {master slave : Nat} {m t : Relation}
    {many one : AssociationOptions} (h : s.Mirrored master slave m t many one) :
    ((many.targetKey <|> m.primaryKey) = none →
      s.hasMany master slave many = .error (.missingTargetKey m.name) ∧
      s.belongsTo slave master one = .error (.missingTargetKey m.name)) ∧
    ∀ key, (many.targetKey <|> m.primaryKey) = some key → NamesFree master slave m t many one →
      let foreignKey := many.foreignKey.getD (m.name ++ "Id")
      let a : Association := ⟨.hasMany, master, slave, foreignKey, key⟩
      let a' : Association := ⟨.belongsTo, master, slave, foreignKey, key⟩
      (∃ s₁ s₂, s.hasMany master slave many = .ok s₁ ∧ s₁.belongsTo slave master one = .ok s₂ ∧
        s₂.Has master (many.name t) a ∧ s₂.Has slave (one.name m) a') ∧
      (∃ s₁ s₂, s.belongsTo slave master one = .ok s₁ ∧ s₁.hasMany master slave many = .ok s₂ ∧
        s₂.Has master (many.name t) a ∧ s₂.Has slave (one.name m) a') ∧
      (∀ (row : Row) (x y : String),
        a.condition row x y = (row.columnOf x key).apply .eq (row.columnOf y foreignKey) ∧
        a'.condition row y x = (row.columnOf x key).apply .eq (row.columnOf y foreignKey)) ∧
      ∀ o o' : RelationRef, o.relation.associations[many.name t]? = some a →
        o'.relation.associations[one.name m]? = some a' →
        ∀ (d d' : String) (c c' : Expr Sql.Statement),
          Sql.FollowedAs o (many.name t) d d' c → Sql.FollowedAs o' (one.name m) d' d c' →
          c = (Expr.column d key).apply .eq (.column d' foreignKey) ∧ c' = c := by
  have hkeys : (one.targetKey <|> m.primaryKey) = (many.targetKey <|> m.primaryKey) := by
    rw [h.targetKey]
  refine ⟨fun hkeyless => ⟨?_, ?_⟩, fun key hkey hfree => ?_⟩
  · rw [hasMany, declare_known h.master h.slave]
    simp only [Direction.master, hkeyless]
  · rw [belongsTo, declare_known h.slave h.master]
    simp only [Direction.master, hkeys, hkeyless]
  · intro foreignKey a a'
    obtain ⟨s₁, s₂, hfirst, hsecond, hmany, hone⟩ := declare_declare .hasMany .belongsTo h.master
      h.slave hkey (hkeys.trans hkey) hfree.ofMaster hfree.ofSlave hfree.apart
    obtain ⟨s₁', s₂', hfirst', hsecond', hone', hmany'⟩ := declare_declare .belongsTo .hasMany
      h.slave h.master (hkeys.trans hkey) hkey hfree.ofSlave hfree.ofMaster
      fun hsame => (hfree.apart hsame.symm).symm
    rw [← h.foreignKey] at hone hone'
    refine ⟨⟨s₁, s₂, hfirst, hsecond, hmany, hone⟩, ⟨s₁', s₂', hfirst', hsecond', hmany', hone'⟩,
      ?_, ?_⟩
    · intro row x y
      exact ⟨a.condition_eq_equation row x y, a'.condition_eq_equation row y x⟩
    · intro o o' ha ha' d d' c c' hc hc'
      exact ⟨hc.equation ha, (hc'.equation ha').trans (hc.equation ha).symm⟩

/-- A trip is followed by others, and follows one. -/
def nextTrips : AssociationOptions := { label := some "next", foreignKey := some "previousId" }

def previousTrip : AssociationOptions :=
  { label := some "previous", foreignKey := some "previousId" }

def trips : Schema := after [.addTable "trip"]

def chainedTrips : FrozenSchema :=
  ⟨0, after [.addTable "trip", .declare .hasMany 0 0 nextTrips, .declare .belongsTo 0 0 previousTrip]⟩

def chainedTrip : RelationRef := ⟨chainedTrips, 0, by decide +kernel⟩

/-- The trips `b` that follow a trip `a` are joined, and the trip `a` that a trip `b` follows is
fetched. -/
theorem mirrored_associations_trips :
    ∃ (next : Query) (previous : Row) (s s' : Sql.Statement) (j : Sql.Join) (c : Expr Sql.Statement),
      (Query.ofRelation chainedTrip (some "a")).join (.association "next")
        { label := some "b" } = .ok next ∧
      (Row.ofQuery (.ofRelation chainedTrip (some "b"))).fetchFrom "b" "previous" (some "a") =
        .ok previous ∧
      next.statement = .ok s ∧ previous.query.statement = .ok s' ∧
      s.body.joins = [j] ∧ s'.body.conditions = [c] ∧ c = j.condition ∧
      j.condition = (Expr.column "a" "id").apply .eq (.column "b" "previousId") := by
  have hmirrored : trips.Mirrored 0 0 ⟨"trip", some "id", ∅⟩ ⟨"trip", some "id", ∅⟩ nextTrips
      previousTrip := ⟨rfl, rfl, rfl, rfl⟩
  obtain ⟨-, -, -, hsame⟩ := (mirrored_associations hmirrored).2 "id" rfl
    ⟨by decide +kernel, by decide +kernel, fun _ => by decide +kernel⟩
  have hnext : ((Query.ofRelation chainedTrip (some "a")).join (.association "next")
      { label := some "b" }).map (fun q => q.statement.map fun s =>
        (s.body.base.label, s.body.joins.map (·.item.label))) = .ok (.ok ("a", ["b"])) := by
    decide +kernel
  have hprevious : ((Row.ofQuery (.ofRelation chainedTrip (some "b"))).fetchFrom "b" "previous"
      (some "a")).map (fun r => r.query.statement.map (·.body.base.label)) = .ok (.ok "a") := by
    decide +kernel
  obtain ⟨next, hnext, hs⟩ := except_map_eq_ok_iff.mp hnext
  obtain ⟨previous, hprevious, hs'⟩ := except_map_eq_ok_iff.mp hprevious
  obtain ⟨s, hs, hlabels⟩ := except_map_eq_ok_iff.mp hs
  obtain ⟨s', hs', hbase'⟩ := except_map_eq_ok_iff.mp hs'
  obtain ⟨hbase, hjoins⟩ := Prod.mk.inj hlabels
  obtain ⟨j, hjs, hlabel⟩ := List.map_eq_singleton_iff.mp hjoins
  obtain ⟨k, hk, hc⟩ := Sql.followedAs_of_join
    (Query.regular_ofSource "a" "trip" (some chainedTrip)) (o := chainedTrip) rfl rfl hnext hs
  rw [hjs] at hk
  obtain rfl : j = k := Option.some.inj hk
  obtain ⟨_, hrun, -⟩ := Sql.statementWithin_run hs'
  obtain ⟨d, c, hd, hcs, hc'⟩ := Sql.followedAs_of_fetch (o := chainedTrip) rfl rfl hprevious hrun
  obtain rfl : "b" = d := Except.ok.inj (Eq.trans (by rfl) hd)
  rw [hbase, hlabel] at hc
  rw [hbase'] at hc'
  obtain ⟨hcondition, heq⟩ := hsame chainedTrip chainedTrip (by decide +kernel) (by decide +kernel)
    "a" "b" j.condition c hc hc'
  exact ⟨next, previous, s, s', j, c, hnext, hprevious, hs, hs', hjs, hcs, heq, hcondition⟩

end Schema

end QueryBuilder
