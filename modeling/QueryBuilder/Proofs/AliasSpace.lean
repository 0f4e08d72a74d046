import QueryBuilder.Proofs.Building
import QueryBuilder.Proofs.ReservedTables
import QueryBuilder.Proofs.TracedCompilation

/-! Whether there is an alias left.

A name can always be numbered, up to the bound of the search. The bound is met when a thousand and
one names are taken, and these have to be the candidates for one name; a join, a fetch or a
compilation with fewer names does not fail for want of an alias. Only a callback can still return
this error of its own accord, and a compilation passes it on whatever names there are. -/
namespace QueryBuilder.Sql

/-- **A thousand names leave an alias.** The candidates for a name are distinct. A search returns
the first of them that is not taken, and fails where all are taken, so it succeeds where no more than
a thousand names are. A join and a fetch do not fail for want of an alias where their query and row
see no more names than that; nor does the compilation of a query or of an expression in which there
are no more names, unless a callback returns this error. The trails from which the last is told
belong to runs that end as the plain ones do. -/
theorem thousand_names_suffice :
    (∀ base taken, (Alias.candidates base).Nodup ∧
      (∀ label, Alias.fresh base taken = .ok label ↔ taken label = false ∧
        ∃ before after, Alias.candidates base = before ++ label :: after ∧
          ∀ c ∈ before, taken c) ∧
      (∀ e, Alias.fresh base taken = .error e ↔
        (∀ c ∈ Alias.candidates base, taken c) ∧ e = .aliasSpaceExhausted base 1000) ∧
      ∀ names : List String, (∀ c, taken c → c ∈ names) → names.dedup.length ≤ 1000 →
        ∃ label, Alias.fresh base taken = .ok label) ∧
    (∀ base attempts,
      (∀ (q : Query) target options, q.takenNames.dedup.length ≤ 1000 →
        q.join target options ≠ .error (.aliasSpaceExhausted base attempts)) ∧
      (∀ (r : Row) source name label, r.visibleNames.dedup.length ≤ 1000 →
        r.fetchFrom source name label ≠ .error (.aliasSpaceExhausted base attempts)) ∧
      (∀ depth q, (tracedStatement depth q).2.Roomy →
        statementWithin depth q ≠ .error (.error (.aliasSpaceExhausted base attempts))) ∧
      (∀ q : Query, (tracedStatement Calls.maxDepth q).2.Roomy →
        q.toSql ≠ .error (.error (.aliasSpaceExhausted base attempts))) ∧
      (∀ depth e scope, (tracedExpression depth e scope).2.Roomy →
        resolvedWithin depth e scope ≠ .error (.error (.aliasSpaceExhausted base attempts))) ∧
      ∀ (e : Expr Query) scope, (tracedExpression Calls.maxDepth e scope).2.Roomy →
        e.toSql scope ≠ .error (.error (.aliasSpaceExhausted base attempts))) ∧
    (∀ depth q, (tracedStatement depth q).1 = statementWithin depth q) ∧
    ∀ depth e scope, (tracedExpression depth e scope).1 = resolvedWithin depth e scope := by
  have hsql (base : String) (attempts : Nat) (q : Query)
      (hroomy : (tracedStatement Calls.maxDepth q).2.Roomy) :
      q.toSql ≠ .error (.error (.aliasSpaceExhausted base attempts)) := by
    rw [Query.toSql, ne_eq, except_map_eq_error_iff]
    exact statementWithin_ne_exhausted hroomy base attempts
  have hexpression (base : String) (attempts : Nat) (e : Expr Query) (scope : Scope)
      (hroomy : (tracedExpression Calls.maxDepth e scope).2.Roomy) :
      e.toSql scope ≠ .error (.error (.aliasSpaceExhausted base attempts)) := by
    rw [Expr.toSql, ne_eq, except_map_eq_error_iff]
    exact resolvedWithin_ne_exhausted hroomy base attempts
  refine ⟨fun base taken => ?_, fun base attempts => ?_, tracedStatement_fst, tracedExpression_fst⟩
  · exact ⟨Alias.nodup_candidates base, fun _ => Alias.fresh_finds_iff,
      fun _ => Alias.fresh_fails_iff, fun _ => Alias.exists_fresh⟩
  · exact ⟨fun q target options hfew => q.join_ne_exhausted hfew target options base attempts,
      fun r source name label hfew => r.fetchFrom_ne_exhausted hfew source name label base attempts,
      fun _ _ hroomy => statementWithin_ne_exhausted hroomy base attempts, hsql base attempts,
      fun _ _ _ hroomy => resolvedWithin_ne_exhausted hroomy base attempts,
      hexpression base attempts⟩

/-- The stop of a scope, in an expression that reads the table of the stops once more. -/
def stopInScope : Scope := Scope.empty.bind "stop" ⟨"stop", none⟩

def anyStops : Expr Query := .subquery (.ofTable "stop")

/-- A search that goes past what is taken, a table joined to itself, a fetch into a scope where its
name is in use, a statement with a fetch and an entry of one name, and an expression in a scope that
has its source already. -/
theorem thousand_names_suffice_for_stops :
    (∃ label, Alias.fresh "stop" ["stop", "stop_0"].contains = .ok label) ∧
    Alias.fresh "stop" ["stop", "stop_0"].contains = .ok "stop_1" ∧
    (∀ base attempts, (Query.ofTable "stop").join (.table "stop") { on := some always } ≠
      .error (.aliasSpaceExhausted base attempts)) ∧
    (∀ base attempts, tripAmongStops.fetchFrom "trip" "stop" ≠
      .error (.aliasSpaceExhausted base attempts)) ∧
    (tracedStatement Calls.maxDepth lateTripsWithArchive).2.Roomy ∧
    (∀ base attempts, lateTripsWithArchive.toSql ≠
      .error (.error (.aliasSpaceExhausted base attempts))) ∧
    (∀ base attempts, statementWithin Calls.maxDepth lateTripsWithArchive ≠
      .error (.error (.aliasSpaceExhausted base attempts))) ∧
    (∀ base attempts, anyStops.toSql stopInScope ≠
      .error (.error (.aliasSpaceExhausted base attempts))) ∧
    ∀ base attempts, resolvedWithin Calls.maxDepth anyStops stopInScope ≠
      .error (.error (.aliasSpaceExhausted base attempts)) := by
  obtain ⟨hsearch, hfaults, -, -⟩ := thousand_names_suffice
  have hlate : (tracedStatement Calls.maxDepth lateTripsWithArchive).2.Roomy := by
    have hreturned : (tracedStatement Calls.maxDepth lateTripsWithArchive).2.returned = [] := by
      decide +kernel
    exact ⟨by decide +kernel, by simp [hreturned]⟩
  have hany : (tracedExpression Calls.maxDepth anyStops stopInScope).2.Roomy := by
    have hreturned : (tracedExpression Calls.maxDepth anyStops stopInScope).2.returned = [] := by
      decide +kernel
    exact ⟨by decide +kernel, by simp [hreturned]⟩
  obtain ⟨-, -, -, hsucceeds⟩ := hsearch "stop" ["stop", "stop_0"].contains
  refine ⟨hsucceeds ["stop", "stop_0"] (by simp) (by decide +kernel), by decide +kernel,
    fun base attempts => ?_, fun base attempts => ?_, hlate, fun base attempts => ?_,
    fun base attempts => ?_, fun base attempts => ?_, fun base attempts => ?_⟩
  all_goals obtain ⟨hjoin, hfetch, hwithin, hsql, hresolved, hexpression⟩ := hfaults base attempts
  · exact hjoin _ _ _ (by decide +kernel)
  · exact hfetch _ _ _ _ (by decide +kernel)
  · exact hsql _ hlate
  · exact hwithin _ _ hlate
  · exact hexpression _ _ hany
  · exact hresolved _ _ _ hany

/-- A query whose only filter returns that no alias is left. -/
def refusingTrips : Query :=
  (Query.ofTable "trip").filter ⟨.fail (.error (.aliasSpaceExhausted "trip" 1000)), []⟩

/-- The error of a callback is passed on as it is: the compilation fails with it, though there are
hardly any names. -/
theorem exhausted_by_callback :
    (tracedStatement Calls.maxDepth refusingTrips).2.names.dedup.length ≤ 1000 ∧
    refusingTrips.toSql = .error (.error (.aliasSpaceExhausted "trip" 1000)) :=
  ⟨by decide +kernel, by decide +kernel⟩

end QueryBuilder.Sql
