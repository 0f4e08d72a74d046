import QueryBuilder.Proofs.Tame

/-! Programs whose queries come to an end.

A program is a term for a query. Its callbacks may take columns of rows, follow associations, narrow
rows, embed queries that have been built before or are built on the spot, and embed the query of a
row as an aggregate or as a test for any rows. The last is where compilation could lead back to the
query that is compiled. It does not where the row has been fetched, since the query of a fetched row
has been started by the callback itself; and it does not where the row is the one that a projection
is called with, since the embedded query has lost the projection. A program that embeds the queries
of no other rows is disciplined; every query that it builds is orderly. -/
namespace QueryBuilder

/-- A row that has been fetched, and may have been narrowed since. -/
inductive RowTerm.FromFetch : RowTerm → Prop
  | fetch {row source association label} : RowTerm.FromFetch (.fetch row source association label)
  | filter {row condition} : RowTerm.FromFetch row → RowTerm.FromFetch (.filter row condition)

/-- The row that the innermost callback is called with, which may have been narrowed. -/
inductive RowTerm.FromOwn : RowTerm → Prop
  | up : RowTerm.FromOwn (.up 0)
  | filter {row condition} : RowTerm.FromOwn row → RowTerm.FromOwn (.filter row condition)

/-- What a callback is there for: to select, or for a condition or a sort key. -/
inductive Purpose where
  | selecting
  | restricting
deriving DecidableEq

/-- The rows whose query a callback may embed. -/
def RowTerm.Embeddable (purpose : Purpose) (row : RowTerm) : Prop :=
  row.FromFetch ∨ purpose = .selecting ∧ row.FromOwn

mutual

/-- Terms in so many callbacks inside one another. -/
inductive RowTerm.Disciplined : Nat → RowTerm → Prop
  | up {n level} : level < n → RowTerm.Disciplined n (.up level)
  | ofQuery {n query} : QueryTerm.Disciplined n query → RowTerm.Disciplined n (.ofQuery query)
  | fetch {n row source association label} : RowTerm.Disciplined n row →
      RowTerm.Disciplined n (.fetch row source association label)
  | filter {n row condition} : RowTerm.Disciplined n row →
      ExprTerm.Disciplined .restricting (n + 1) condition →
      RowTerm.Disciplined n (.filter row condition)
  | fail {n e} : RowTerm.Disciplined n (.fail (.error e))

inductive ExprTerm.Disciplined : Purpose → Nat → ExprTerm → Prop
  | value {purpose n} {e : Expr Query} :
      (∀ q ∈ e.subqueries, QueryTerm.Disciplined 0 (.value q)) →
      ExprTerm.Disciplined purpose n (.value e)
  | column {purpose n row source name} : RowTerm.Disciplined n row →
      ExprTerm.Disciplined purpose n (.column row source name)
  | star {purpose n row source} : RowTerm.Disciplined n row →
      ExprTerm.Disciplined purpose n (.star row source)
  | unary {purpose n before operand after} : ExprTerm.Disciplined purpose n operand →
      ExprTerm.Disciplined purpose n (.unary before operand after)
  | binary {purpose n fragments left right} : ExprTerm.Disciplined purpose n left →
      ExprTerm.Disciplined purpose n right →
      ExprTerm.Disciplined purpose n (.binary fragments left right)
  | apply {purpose n op left right} : ExprTerm.Disciplined purpose n left →
      ExprTerm.Disciplined purpose n right → ExprTerm.Disciplined purpose n (.apply op left right)
  | applyRightFirst {purpose n op right left} : ExprTerm.Disciplined purpose n right →
      ExprTerm.Disciplined purpose n left →
      ExprTerm.Disciplined purpose n (.applyRightFirst op right left)
  | aggregate {purpose n function column row} : RowTerm.Disciplined n row →
      row.Embeddable purpose → ExprTerm.Disciplined purpose n (.aggregate function column row)
  | existsRow {purpose n row} : RowTerm.Disciplined n row → row.Embeddable purpose →
      ExprTerm.Disciplined purpose n (.existsRow row)
  | subquery {purpose n query} : QueryTerm.Disciplined n query →
      ExprTerm.Disciplined purpose n (.subquery query)
  | fail {purpose n e} : ExprTerm.Disciplined purpose n (.fail (.error e))

inductive QueryTerm.Disciplined : Nat → QueryTerm → Prop
  | ofTable {n table label columns} :
      QueryTerm.Disciplined n (.value (.ofTable table label columns))
  | ofRelation {n relation label} : QueryTerm.Disciplined n (.value (.ofRelation relation label))
  /-- A query that another program has built before. -/
  | built {n program calls q} : QueryTerm.Disciplined 0 program →
      program.evaluate calls [] = .ok q → QueryTerm.Disciplined n (.value q)
  | named {n query name} : QueryTerm.Disciplined n query →
      QueryTerm.Disciplined n (.named query name)
  | limit {n query count} : QueryTerm.Disciplined n query →
      QueryTerm.Disciplined n (.limit query count)
  | selectNone {n query} : QueryTerm.Disciplined n query →
      QueryTerm.Disciplined n (.selectNone query)
  | including {n query related} : QueryTerm.Disciplined n query →
      QueryTerm.Disciplined n related → QueryTerm.Disciplined n (.including query related)
  | filter {n query condition} : QueryTerm.Disciplined n query →
      ExprTerm.Disciplined .restricting (n + 1) condition →
      QueryTerm.Disciplined n (.filter query condition)
  | sortBy {n query} {keys : List SortTerm} : QueryTerm.Disciplined n query →
      (∀ k ∈ keys, ExprTerm.Disciplined .restricting (n + 1) k.expr) →
      QueryTerm.Disciplined n (.sortBy query keys)
  | select {n query} {items : List SelectionTerm} : QueryTerm.Disciplined n query →
      (∀ t ∈ items, SelectionTerm.Disciplined (n + 1) t) →
      QueryTerm.Disciplined n (.select query items)
  | andSelect {n query} {items : List SelectionTerm} : QueryTerm.Disciplined n query →
      (∀ t ∈ items, SelectionTerm.Disciplined (n + 1) t) →
      QueryTerm.Disciplined n (.andSelect query items)
  | join {n query target kind label} {on : Option ExprTerm} : QueryTerm.Disciplined n query →
      TargetTerm.Disciplined n target →
      (∀ t, on = some t → ExprTerm.Disciplined .restricting (n + 1) t) →
      QueryTerm.Disciplined n (.join query target kind label on)
  | fail {n e} : QueryTerm.Disciplined n (.fail (.error e))

inductive SelectionTerm.Disciplined : Nat → SelectionTerm → Prop
  | item {n expr label} : ExprTerm.Disciplined .selecting n expr →
      SelectionTerm.Disciplined n (.item expr label)

inductive TargetTerm.Disciplined : Nat → TargetTerm → Prop
  | association {n name} : TargetTerm.Disciplined n (.association name)
  | table {n name} : TargetTerm.Disciplined n (.table name)
  | relation {n relation} : TargetTerm.Disciplined n (.relation relation)
  | query {n query} : QueryTerm.Disciplined n query → TargetTerm.Disciplined n (.query query)
  | fail {n e} : TargetTerm.Disciplined n (.fail (.error e))

end

/-! ### Evaluating disciplined terms -/

/-- The rows of so many callbacks inside one another. None of them has been fetched. -/
structure CallbackRows (n : Nat) (rows : List Row) : Prop where
  length_eq : rows.length = n
  unfetched : ∀ r ∈ rows, r.fetched = false

theorem CallbackRows.nil : CallbackRows 0 [] := ⟨rfl, by simp⟩

theorem CallbackRows.cons {n : Nat} {rows : List Row} (h : CallbackRows n rows) {row : Row}
    (hrow : row.fetched = false) : CallbackRows (n + 1) (row :: rows) where
  length_eq := congrArg (· + 1) h.length_eq
  unfetched := List.forall_mem_cons.mpr ⟨hrow, h.unfetched⟩

/-- What a disciplined term for a row gives. -/
structure RowTerm.Yields (rows : List Row) (t : RowTerm) (r : Row) : Prop where
  tame : r.fetched = true → r.query.Tame
  fetched : t.FromFetch → r.fetched = true
  own : t.FromOwn → (∀ row ∈ rows.head?, row.query.Tame) → r.query.Tame

/-- The query of a fetched row has no callbacks but the conditions of associations, and those by
which the row has been narrowed. -/
theorem Row.fetchFrom_tame {r r' : Row} (h : r.fetched = true → r.query.Tame) {source name : String}
    {requested : Option String} (hfetch : r.fetchFrom source name requested = .ok r') :
    r'.fetched = true ∧ r'.query.Tame := by
  obtain ⟨association, target, label, -, ⟨hr, rfl⟩ | ⟨-, rfl⟩⟩ := fetchFrom_cases hfetch
  · exact ⟨hr, (h hr).attach (by simp [DataSource.ofRelation]) (association.predicate_tame _ _)⟩
  · refine ⟨rfl, Query.Tame.filter ?_ (association.predicate_tame _ _)⟩
    have hbase := (Query.orderly_ofRelation target (some label)).tame
    exact ⟨hbase.nested, hbase.filters, hbase.joins, hbase.sorting⟩

theorem ends_up {n level : Nat} {rows : List Row} (hrows : CallbackRows n rows) (h : level < n) :
    Ends ⊤ (fun calls => (RowTerm.up level).evaluate calls rows)
      ((RowTerm.up level).Yields rows) := by
  have hlevel : level < rows.length := hrows.length_eq ▸ h
  have hrow := hrows.unfetched _ (List.getElem_mem hlevel)
  refine .ok (a := rows[level]) ⟨fun hr => ?_, (nomatch ·), fun hup hhead => ?_⟩
    (.of_forall fun _ => by simp [RowTerm.evaluate, elementAt, hlevel])
  · simp [hrow] at hr
  · cases hup
    exact hhead _ (by simp [List.head?_eq_getElem?, hlevel])

/-- The row that an aggregate is about has a tame query, if it may be embedded. -/
theorem RowTerm.Yields.embeddable {rows : List Row} {t : RowTerm} {r : Row} (h : t.Yields rows r)
    {purpose : Purpose} (ht : t.Embeddable purpose)
    (hown : purpose = .selecting → ∀ row ∈ rows.head?, row.query.Tame) : r.query.Tame := by
  rcases ht with ht | ⟨hpurpose, ht⟩
  · exact h.tame (h.fetched ht)
  · exact h.own ht (hown hpurpose)

theorem Row.Tame.aggregate_halts {r : Row} (h : r.query.Tame) (function : Aggregate)
    (column : String) : (r.aggregate function column).Halts := fun q hq => by
  obtain rfl := List.mem_singleton.mp hq
  exact h.select_value_halts (by simp [Expr.subqueries, Row.column, Row.columnOf]) _

theorem Row.Tame.existsRow_halts {r : Row} (h : r.query.Tame) : r.existsRow.Halts := fun q hq => by
  obtain rfl := List.mem_singleton.mp hq
  exact h.select_value_halts (by simp [Expr.subqueries]) _

theorem Expr.Halts.apply {left right : Expr Query} (hl : left.Halts) (hr : right.Halts)
    (op : Operator) : (Expr.apply op left right).Halts := fun q hq => by
  rw [subqueries_apply] at hq
  rcases List.mem_append.mp hq with hq | hq
  · exact hl q hq
  · exact hr q hq

theorem Expr.Halts.binary {left right : Expr Query} (hl : left.Halts) (hr : right.Halts)
    {before between after : String} : (Expr.binary before between after left right).Halts :=
  fun q hq => by
    rcases List.mem_append.mp hq with hq | hq
    · exact hl q hq
    · exact hr q hq

/-- How callbacks are called makes no difference to a callback that calls none. -/
theorem Predicate.tame_of_body {body : ExprTerm} {captured : List Row}
    (h : ∀ row : Row, row.fetched = false →
      Ends ⊤ (fun calls => body.evaluate calls (row :: captured)) Expr.Halts) :
    Predicate.Tame ⟨body, captured⟩ := fun row hrow => (h row hrow).comp Filter.tendsto_top

theorem Sorting.tame_of_body {body : List SortTerm} {captured : List Row}
    (h : ∀ k ∈ body, ∀ row : Row, row.fetched = false →
      Ends ⊤ (fun calls => k.expr.evaluate calls (row :: captured)) Expr.Halts) :
    Sorting.Tame ⟨body, captured⟩ := fun row hrow => by
  have keys := Ends.mapM (l := ⊤) (f := fun calls (k : SortTerm) => k.evaluate calls (row :: captured))
    (r := fun k : SortKey => k.expr.Halts) fun k hk => (h k hk row hrow).bind fun e he => .pure he
  exact keys.comp Filter.tendsto_top

mutual

theorem RowTerm.Disciplined.ends {n : Nat} {t : RowTerm} :
    t.Disciplined n → ∀ {rows}, CallbackRows n rows →
      Ends ⊤ (fun calls => t.evaluate calls rows) (t.Yields rows)
  | .up hlevel, rows, hrows => ends_up hrows hlevel
  | .ofQuery h, rows, hrows => (h.ends hrows).bind fun q _ => .pure
    { tame := fun hr => absurd hr (by simp [Row.ofQuery, Row.bound])
      fetched := (nomatch ·)
      own := (nomatch ·) }
  | .fetch h, rows, hrows => (h.ends hrows).bind fun r hr => .lift fun r' hr' =>
    have htame := Row.fetchFrom_tame hr.tame hr'
    { tame := fun _ => htame.2
      fetched := fun _ => htame.1
      own := (nomatch ·) }
  | .filter h hcondition, rows, hrows => (h.ends hrows).bind fun r hr =>
    have hp := Predicate.tame_of_body fun row hrow => hcondition.ends (hrows.cons hrow) (by simp)
    .pure
      { tame := fun hfetched => (hr.tame hfetched).filter hp
        fetched := fun hrow => by
          cases hrow with
          | filter hrow => exact hr.fetched hrow
        own := fun hrow hhead => by
          cases hrow with
          | filter hrow => exact (hr.own hrow hhead).filter hp }
  | .fail, rows, hrows => .fail _

theorem ExprTerm.Disciplined.ends {purpose : Purpose} {n : Nat} {t : ExprTerm} :
    t.Disciplined purpose n → ∀ {rows}, CallbackRows n rows →
      (purpose = .selecting → ∀ row ∈ rows.head?, row.query.Tame) →
      Ends ⊤ (fun calls => t.evaluate calls rows) Expr.Halts
  | .value h, rows, hrows, hown => .pure fun q hq =>
    have orderly := ((h q hq).ends .nil).of_eq Calls.deep rfl
    orderly.halts
  | .column h, rows, hrows, _ => (h.ends hrows).bind fun r _ => .pure (by
    simp [Expr.Halts, Expr.subqueries, Row.columnOf])
  | .star h, rows, hrows, _ => (h.ends hrows).bind fun r _ => .pure (by
    simp [Expr.Halts, Expr.subqueries, Row.starOf])
  | .unary h, rows, hrows, hown => (h.ends hrows hown).bind fun e he => .pure he
  | .binary hl hr, rows, hrows, hown =>
    (hl.ends hrows hown).bind fun l hl => (hr.ends hrows hown).bind fun r hr => by
      split
      · exact .pure (Expr.Halts.binary hl hr)
      · exact .fail _
  | .apply hl hr, rows, hrows, hown =>
    (hl.ends hrows hown).bind fun l hl => (hr.ends hrows hown).bind fun r hr => .pure (hl.apply hr _)
  | .applyRightFirst hr hl, rows, hrows, hown =>
    (hr.ends hrows hown).bind fun r hr => (hl.ends hrows hown).bind fun l hl => .pure (hl.apply hr _)
  | .aggregate h hrow, rows, hrows, hown => (h.ends hrows).bind fun r hr =>
    .pure (Row.Tame.aggregate_halts (hr.embeddable hrow hown) _ _)
  | .existsRow h hrow, rows, hrows, hown => (h.ends hrows).bind fun r hr =>
    .pure (Row.Tame.existsRow_halts (hr.embeddable hrow hown))
  | .subquery h, rows, hrows, _ => (h.ends hrows).bind fun q hq => .pure fun q' hq' => by
    obtain rfl := List.mem_singleton.mp hq'
    exact hq.halts
  | .fail, rows, hrows, _ => .fail _

theorem QueryTerm.Disciplined.ends {n : Nat} {t : QueryTerm} :
    t.Disciplined n → ∀ {rows}, CallbackRows n rows →
      Ends ⊤ (fun calls => t.evaluate calls rows) Query.Orderly
  | .ofTable, rows, hrows => .pure (Query.orderly_ofTable _ _ _)
  | .ofRelation, rows, hrows => .pure (Query.orderly_ofRelation _ _)
  | .built h hq, rows, hrows => .pure ((h.ends .nil).of_eq _ hq)
  | .named h, rows, hrows => (h.ends hrows).bind fun q hq => .pure (hq.of_eq rfl rfl rfl rfl rfl)
  | .limit h, rows, hrows => (h.ends hrows).bind fun q hq => .pure (hq.of_eq rfl rfl rfl rfl rfl)
  | .selectNone h, rows, hrows => (h.ends hrows).bind fun q hq =>
    .pure (hq.withProjections (by simp))
  | .including h hrelated, rows, hrows => (h.ends hrows).bind fun q hq =>
    (hrelated.ends hrows).bind fun _ _ => .pure (hq.of_eq rfl rfl rfl rfl rfl)
  | .filter h hcondition, rows, hrows => (h.ends hrows).bind fun q hq =>
    .pure (hq.filter (Predicate.tame_of_body fun row hrow =>
      hcondition.ends (hrows.cons hrow) (by simp)))
  | .sortBy h hkeys, rows, hrows => (h.ends hrows).bind fun q hq =>
    .pure (hq.sortBy (Sorting.tame_of_body fun k hk row hrow =>
      (hkeys k hk).ends (hrows.cons hrow) (by simp)))
  | .select h hitems, rows, hrows => (h.ends hrows).bind fun q hq =>
    .pure (hq.select (Projection.tame_of_body fun t ht row hrow hquery =>
      ((hitems t ht).ends (hrows.cons hrow) (by simpa using hquery)).comp Filter.tendsto_top))
  | .andSelect h hitems, rows, hrows => (h.ends hrows).bind fun q hq =>
    .pure (hq.andSelect (Projection.tame_of_body fun t ht row hrow hquery =>
      ((hitems t ht).ends (hrows.cons hrow) (by simpa using hquery)).comp Filter.tendsto_top))
  | .join h htarget hon, rows, hrows => (h.ends hrows).bind fun q hq =>
    (htarget.ends hrows).bind fun what hwhat => .lift fun q' hjoin => by
      refine hq.join hwhat (fun p hp => ?_) hjoin
      obtain ⟨condition, hcondition, rfl⟩ := Option.map_eq_some_iff.mp hp
      exact Predicate.tame_of_body fun row hrow =>
        (hon condition hcondition).ends (hrows.cons hrow) (by simp)
  | .fail, rows, hrows => .fail _

theorem SelectionTerm.Disciplined.ends {n : Nat} {t : SelectionTerm} :
    t.Disciplined n → ∀ {rows}, CallbackRows n rows → (∀ row ∈ rows.head?, row.query.Tame) →
      Ends ⊤ (fun calls => t.evaluate calls rows) fun selections =>
        ∀ s ∈ selections, s.expr.Halts
  | .item h, rows, hrows, hown => (h.ends hrows fun _ => hown).bind fun e he => .pure fun s hs => by
    obtain rfl := List.mem_singleton.mp hs
    exact he

theorem TargetTerm.Disciplined.ends {n : Nat} {t : TargetTerm} :
    t.Disciplined n → ∀ {rows}, CallbackRows n rows →
      Ends ⊤ (fun calls => t.evaluate calls rows) fun what =>
        ∀ target, what = .query target → target.Orderly
  | .association, rows, hrows => .pure (by simp)
  | .table, rows, hrows => .pure (by simp)
  | .relation, rows, hrows => .pure (by simp)
  | .query h, rows, hrows => (h.ends hrows).bind fun q hq => .pure fun target htarget => by
    cases htarget
    exact hq
  | .fail, rows, hrows => .fail _

end

/-- What a disciplined program builds is orderly. -/
theorem QueryTerm.Disciplined.orderly {program : QueryTerm} (h : program.Disciplined 0)
    {calls : Calls} {q : Query} (hq : program.evaluate calls [] = .ok q) : q.Orderly :=
  (h.ends .nil).of_eq calls hq

namespace Sql

/-- Beyond some depth, the statement of a query that comes to an end does not depend on it. -/
theorem exists_outcome {q : Query} (h : q.Halts) :
    ∃ (limit : Nat) (outcome : Except Error Statement),
      ∀ depth ≥ limit, statementWithin depth q = outcome.mapError .error := by
  obtain ⟨outcome, hlevel⟩ := (h .hoisted q.context (initialNames q)).exists_outcome
  obtain ⟨limit, hlimit⟩ := Filter.eventually_atTop.mp hlevel
  refine ⟨max limit.1 limit.2, outcome.map fun p => ⟨p.2.pending, p.1⟩, fun depth hdepth => ?_⟩
  have hrun : compileLevel .hoisted (Calls.within depth) depth q q.context (initialNames q) =
      outcome.mapError .error := hlimit (depth, depth) (Prod.mk_le_mk.mpr (max_le_iff.mp hdepth))
  rw [statementWithin_eq, hrun]
  cases outcome <;> rfl

/-- **Compilation comes to an end.** For every query that a disciplined program builds there is a
depth below which no level and no call lies: with this depth or any greater one, compiling the query
gives the same statement or the same error. The text of the query is made of it, as long as
compilation is allowed this depth. -/
theorem compilation_ends {program : QueryTerm} (h : program.Disciplined 0) {calls : Calls}
    {q : Query} (hq : program.evaluate calls [] = .ok q) :
    ∃ (limit : Nat) (outcome : Except Error Statement),
      (∀ depth ≥ limit, statementWithin depth q = outcome.mapError .error) ∧
      (limit ≤ Calls.maxDepth →
        q.toSql = (outcome.map Statement.print).mapError .error) := by
  obtain ⟨limit, outcome, houtcome⟩ := exists_outcome (h.orderly hq).halts
  refine ⟨limit, outcome, houtcome, fun hlimit => ?_⟩
  rw [Query.toSql, Query.statement, houtcome Calls.maxDepth hlimit]
  cases outcome <;> rfl

/-- Trips with any stops, with the number of those that have a name. The number is embedded by the
projection itself, and so are the conditions of the query. -/
def countedTrips : QueryTerm :=
  let named := ExprTerm.apply .ne (.column (.up 0) none "name") (.value (.text ""))
  let trips := QueryTerm.value (.ofRelation ⟨journeys, 0, journeys_inhabited⟩)
  .select (.filter trips (.existsRow (.fetch (.up 0) none "stop" none)))
    [.item (.aggregate .count "id" (.filter (.up 0) named)) (some "named")]

theorem countedTrips_disciplined : countedTrips.Disciplined 0 := by
  refine .select (.filter .ofRelation (.existsRow (.fetch (.up (by decide))) (.inl .fetch))) ?_
  intro t ht
  obtain rfl := List.mem_singleton.mp ht
  refine .item (.aggregate (.filter (.up (by decide)) ?_) (.inr ⟨rfl, .filter .up⟩))
  exact .apply (.column (.up (by decide))) (.value (by simp [Expr.subqueries]))

/-- Compiling these comes to an end. -/
theorem compilation_ends_countedTrips :
    countedTrips.Disciplined 0 ∧
    ∃ q, countedTrips.evaluate .deep [] = .ok q ∧
      ∃ (limit : Nat) (outcome : Except Error Statement),
        ∀ depth ≥ limit, statementWithin depth q = outcome.mapError .error := by
  have hq : countedTrips.evaluate .deep [] = .ok _ := rfl
  obtain ⟨limit, outcome, houtcome, -⟩ := compilation_ends countedTrips_disciplined hq
  exact ⟨countedTrips_disciplined, _, hq, limit, outcome, houtcome⟩

end Sql

end QueryBuilder
