import QueryBuilder.Proofs.ClosedText
import QueryBuilder.Proofs.Levels

/-! What a WHERE clause says.

With several conditions the WHERE clause of a select puts those that are not atomic between
brackets, and an AND between every two of them. What stands between brackets is one operand, and so
are columns, text literals and subqueries as they are written. A raw text is written without
brackets as well: if it has an OR or an AND of its own in sight, its parts become operands of the
clause. -/
namespace QueryBuilder.Sql
open Condition

/-- A condition as it is written next to others. -/
def conditionText (c : Expr Statement) : String := grouped true c.isAtomic (printExpr c)

theorem conditionText_raw (sql : String) : conditionText (.raw sql) = sql := rfl

/-- The condition of a WHERE clause. -/
def Select.condition (s : Select) : String :=
  String.intercalate (newLine ++ "AND ") (s.conditions.map conditionText)

/-- What stands in front of the WHERE clause of a select. -/
def Select.opening (s : Select) : String :=
  "SELECT " ++ selectedText (printItems s.items) ++ "\nFROM " ++ s.base.print ++
    String.join (printJoins s.joins)

/-- What stands behind it. -/
def Select.ending (s : Select) : String :=
  clauseText "\nORDER BY " ", " (printSorting s.sorting) ++
    (s.limit.map fun n => "\nLIMIT " ++ toString n).getD ""

theorem Select.print_several {s : Select} (h : 2 ≤ s.conditions.length) :
    s.print = s.opening ++ "\nWHERE " ++ s.condition ++ s.ending := by
  obtain ⟨items, base, joins, conditions, sorting, limit⟩ := s
  obtain ⟨c, d, rest, rfl⟩ : ∃ c d rest, conditions = c :: d :: rest := by
    match conditions, h with
    | c :: d :: rest, _ => exact ⟨c, d, rest, rfl⟩
  have hseveral : decide ((c :: d :: rest).length > 1) = true := decide_eq_true h
  have hconditions : printConditions true (c :: d :: rest) = (c :: d :: rest).map conditionText :=
    printConditions_eq true _
  rw [Select.print_eq, hseveral, hconditions, List.map_cons]
  simp only [clauseText, Select.opening, Select.ending, Select.condition, List.map_cons,
    String.append_assoc]

/-- The body of a statement is what the statement ends with. -/
theorem Statement.exists_print (s : Statement) : ∃ entries, s.print = entries ++ s.body.print := by
  obtain ⟨_ | ⟨entry, rest⟩, body⟩ := s
  · exact ⟨"", by rw [Statement.print, String.empty_append]⟩
  · exact ⟨_, rfl⟩

/-- A condition that is no raw text is written as one operand. -/
theorem read_conditionText {c : Expr Statement} (h : Closes c) (hraw : ∀ sql, c ≠ .raw sql) :
    read (conditionText c) = some [[⟨0, conditionText c⟩]] := by
  refine Firm.read ?_
  have hfirm : c.isAtomic = false → Firm (conditionText c) := by
    intro hatomic
    rw [conditionText, hatomic]
    exact Firm.bracketed h.closed
  cases h with
  | column =>
    have hdot : Firm "." := ⟨⟨_, rfl, by decide⟩, ⟨'.', rfl, rfl⟩, ⟨'.', rfl, rfl⟩⟩
    exact ((Firm.quoted .identifier _).append hdot).append (Firm.quoted .identifier _)
  | star =>
    have hstar : Firm ".*" := ⟨⟨_, rfl, by decide⟩, ⟨'.', rfl, rfl⟩, ⟨'*', rfl, rfl⟩⟩
    exact (Firm.quoted .identifier _).append hstar
  | raw => exact absurd rfl (hraw _)
  | text => exact Firm.quoted .literal _
  | unary => exact hfirm rfl
  | binary => exact hfirm rfl
  | subquery hentries hbody =>
    have hclosed := closed_statement (fun entry hentry e he => (hentries entry hentry e he).closed)
      fun e he => (hbody e he).closed
    exact Firm.bracketed hclosed.indented

/-! ### Conditions and what they read as -/

section
variable {conditions : List (Expr Statement)} {readings : List (List (List Operand))}

/-- Each condition reads as something if every raw text does. -/
theorem exists_readings (hcloses : ∀ c ∈ conditions, Closes c)
    (hraw : ∀ sql, .raw sql ∈ conditions → (read sql).isSome) :
    ∃ readings, List.Forall₂ (fun c as => read (conditionText c) = some as ∧
      ((∀ sql, c ≠ .raw sql) → as = [[⟨0, conditionText c⟩]])) conditions readings := by
  refine exists_forall₂ fun c hc => ?_
  by_cases h : ∃ sql, c = .raw sql
  · obtain ⟨sql, rfl⟩ := h
    obtain ⟨as, has⟩ := Option.isSome_iff_exists.mp (hraw sql hc)
    exact ⟨as, (conditionText_raw sql).symm ▸ has, fun hno => absurd rfl (hno sql)⟩
  · rw [not_exists] at h
    exact ⟨_, read_conditionText (hcloses c hc) h, fun _ => rfl⟩

/-- What holds of single operands holds of all conditions if it holds of the raw ones. -/
theorem forall_reading_iff {α : Type} {shape : α → List (List Operand)}
    (hshape : ∀ text, ∃ a, [[⟨0, text⟩]] = shape a) (hcloses : ∀ c ∈ conditions, Closes c) :
    (∀ c ∈ conditions, ∃ a, read (conditionText c) = some (shape a)) ↔
      ∀ sql, .raw sql ∈ conditions → ∃ a, read sql = some (shape a) := by
  constructor
  · intro h sql hsql
    have hshown := h (.raw sql) hsql
    rwa [conditionText_raw] at hshown
  · intro h c hc
    by_cases hraw : ∃ sql, c = .raw sql
    · obtain ⟨sql, rfl⟩ := hraw
      rw [conditionText_raw]
      exact h sql hc
    · rw [not_exists] at hraw
      obtain ⟨a, ha⟩ := hshape (conditionText c)
      exact ⟨a, ha ▸ read_conditionText (hcloses c hc) hraw⟩

theorem readings_eq {α : Type} {shape : α → List (List Operand)} {as : List α}
    (h : List.Forall₂ (fun c r => read (conditionText c) = some r) conditions readings)
    (h' : List.Forall₂ (fun c a => read (conditionText c) = some (shape a)) conditions as) :
    readings = as.map shape := by
  induction h generalizing as with
  | nil =>
    cases h'
    rfl
  | cons hfirst _ ih =>
    cases h' with
    | cons hfirst' hrest' =>
      rw [List.map_cons, ih hrest', Option.some.inj (hfirst.symm.trans hfirst')]

variable (h : List.Forall₂ (fun c r => read (conditionText c) = some r) conditions readings)
include h

theorem conjunction_readings_iff (hne : conditions ≠ []) {os : List Operand} :
    conjunction readings = [os] ↔
      ∃ groups : List (List Operand), readings = groups.map ([·]) ∧ os = groups.flatten := by
  refine conjunction_eq_singleton_iff ?_ fun as has => ?_
  · rintro rfl
    exact hne (List.forall₂_nil_right_iff.mp h)
  · obtain ⟨c, -, hread⟩ := exists_of_forall₂ h has
    exact ne_nil_of_read hread

/-- There is a single alternative exactly if every condition has a single one. -/
theorem single_alternative_iff (hne : conditions ≠ []) :
    (∃ os, conjunction readings = [os]) ↔
      ∀ c ∈ conditions, ∃ os, read (conditionText c) = some [os] := by
  simp only [conjunction_readings_iff h hne]
  constructor
  · rintro ⟨_, groups, rfl, -⟩ c hc
    rw [List.forall₂_map_right_iff] at h
    obtain ⟨os, -, hread⟩ := exists_of_forall₂ h.flip hc
    exact ⟨os, hread⟩
  · intro hsingle
    obtain ⟨groups, hgroups⟩ := exists_forall₂ hsingle
    exact ⟨_, groups, readings_eq h hgroups, rfl⟩

/-- The conditions are the operands of a single alternative exactly if each is a single operand. -/
theorem single_operands_iff (hne : conditions ≠ []) :
    (∃ os, conjunction readings = [os] ∧
        List.Forall₂ (fun c o => read (conditionText c) = some [[o]]) conditions os) ↔
      ∀ c ∈ conditions, ∃ o, read (conditionText c) = some [[o]] := by
  constructor
  · rintro ⟨os, -, hos⟩ c hc
    obtain ⟨o, -, hread⟩ := exists_of_forall₂ hos.flip hc
    exact ⟨o, hread⟩
  · intro hsingle
    obtain ⟨os, hos⟩ := exists_forall₂ hsingle
    refine ⟨os, (conjunction_readings_iff h hne).mpr ⟨os.map ([·]), ?_, ?_⟩, hos⟩
    · rw [readings_eq h hos, List.map_map]
      rfl
    · rw [← List.flatMap_def, List.flatMap_singleton']

end

/-- A condition of several is read as what its conditions read as, together. -/
theorem read_condition {s : Select} {readings : List (List (List Operand))}
    (hne : s.conditions ≠ [])
    (h : List.Forall₂ (fun c r => read (conditionText c) = some r) s.conditions readings) :
    read s.condition = some (conjunction readings) := by
  have hblank : ∀ c ∈ newLine.toList, c.isWhitespace :=
    List.all_eq_true.mp (by decide : newLine.toList.all Char.isWhitespace = true)
  have hread := read_intercalate hblank (by decide) (mt List.map_eq_nil_iff.mp hne)
    (List.forall₂_map_left_iff.mpr h)
  rwa [String.ofList_toList] at hread

/-- **With several filters the WHERE clause asks for all of them, each as one operand, exactly if
every raw text among them reads as one operand.** The clause is made of what the filters give, in
their order, and stands as a whole between the joins and the ordering of the select. Read with NOT
before AND and AND before OR, it asks for what every condition reads as together, where a condition
that is no raw text is one operand as it is written. So it has a single alternative exactly if no
raw text has several of its own. -/
theorem where_reads_as_conjunction_iff {placement : EntryPlacement} {calls : Calls}
    (level : CompiledLevel placement calls) (hseveral : 2 ≤ level.query.filters.length)
    (hcloses : ∀ c ∈ level.select.conditions, Closes c)
    (hraw : ∀ sql, .raw sql ∈ level.select.conditions → (read sql).isSome) :
    ∃ (given : List (Expr Query)) (readings : List (List (List Operand))),
      List.Forall₂ (fun p e => p.apply calls level.row = .ok e) level.query.filters given ∧
      List.Forall₂ level.Becomes given level.select.conditions ∧
      level.select.print = level.select.opening ++ "\nWHERE " ++ level.select.condition ++
        level.select.ending ∧
      (∀ s : Statement, s.body = level.select →
        ∃ entries, s.print = entries ++ level.select.print) ∧
      List.Forall₂ (fun c as => read (conditionText c) = some as ∧
          ((∀ sql, c ≠ .raw sql) → as = [[⟨0, conditionText c⟩]]))
        level.select.conditions readings ∧
      read level.select.condition = some (conjunction readings) ∧
      ((∃ os, read level.select.condition = some [os]) ↔
        ∀ sql, .raw sql ∈ level.select.conditions → ∃ os, read sql = some [os]) ∧
      ((∃ os, read level.select.condition = some [os] ∧
          List.Forall₂ (fun c o => read (conditionText c) = some [[o]])
            level.select.conditions os) ↔
        ∀ sql, .raw sql ∈ level.select.conditions → ∃ o, read sql = some [[o]]) := by
  obtain ⟨given, hgiven, hbecomes, -⟩ := level.exists_given
  have hlength : 2 ≤ level.select.conditions.length := by
    rwa [← hbecomes.length_eq, ← hgiven.length_eq]
  have hne : level.select.conditions ≠ [] := List.ne_nil_of_length_pos (by omega)
  obtain ⟨readings, hreadings⟩ := exists_readings hcloses hraw
  have hread := hreadings.imp fun _ _ h => h.1
  have hcondition := read_condition hne hread
  refine ⟨given, readings, hgiven, hbecomes, Select.print_several hlength, fun s hs =>
    hs ▸ s.exists_print, hreadings, hcondition, ?_, ?_⟩
  · simp only [hcondition, Option.some.injEq]
    exact (single_alternative_iff hread hne).trans
      (forall_reading_iff (fun text => ⟨[⟨0, text⟩], rfl⟩) hcloses)
  · simp only [hcondition, Option.some.injEq]
    exact (single_operands_iff hread hne).trans
      (forall_reading_iff (fun text => ⟨⟨0, text⟩, rfl⟩) hcloses)

/-! ### Trips of a line -/

/-- The trips of the first line for which the text holds. -/
def firstLineTrips (sql : String) : Query :=
  let ofFirstLine := (Query.ofTable "trips").filter
    ⟨.apply .eq (.column (.up 0) none "line") (.value (.raw "1")), []⟩
  ofFirstLine.filter ⟨.value (.raw sql), []⟩

theorem conditions_firstLineTrips {placement : EntryPlacement} {calls : Calls}
    {level : CompiledLevel placement calls} {sql : String}
    (hquery : level.query = firstLineTrips sql) :
    ∃ label, level.select.conditions =
      [(Expr.column label "line").apply .eq (.raw "1"), .raw sql] := by
  obtain ⟨given, hgiven, hbecomes, -⟩ := level.exists_given
  rw [hquery] at hgiven
  cases hgiven with
  | cons he hgiven =>
  cases hgiven with
  | cons he' hgiven =>
  cases hgiven
  obtain rfl := Except.ok.inj he
  obtain rfl := Except.ok.inj he'
  obtain ⟨c, _, ⟨_, _, -, -, hc⟩, hrest, hconditions⟩ := List.forall₂_cons_left_iff.mp hbecomes
  obtain ⟨c', _, ⟨_, _, -, -, hc'⟩, hend, rfl⟩ := List.forall₂_cons_left_iff.mp hrest
  obtain rfl := List.forall₂_nil_left_iff.mp hend
  rw [hconditions]
  cases resolves_of_run hc with
  | binary hleft hright =>
    cases hleft with
    | column =>
      cases hright with
      | raw =>
        cases resolves_of_run hc' with
        | raw => exact ⟨_, rfl⟩

/-- A text that reads as one operand is asked for next to the line. -/
theorem firstLineTrips_asked_for_together : ∃ (s : Statement)
    (level : CompiledLevel .hoisted .deep) (os : List Operand),
    (firstLineTrips "NOT late").statement = .ok s ∧ level.query = firstLineTrips "NOT late" ∧
    level.select = s.body ∧ read s.body.condition = some [os] ∧
    List.Forall₂ (fun c o => read (conditionText c) = some [[o]]) s.body.conditions os := by
  obtain ⟨text, htext⟩ :=
    except_isOk_iff.mp (by decide +kernel : (firstLineTrips "NOT late").toSql.isOk)
  obtain ⟨s, level, hs, -, hquery, hopens⟩ := CompiledLevel.exists_opens htext
  obtain ⟨label, hconditions⟩ := conditions_firstLineTrips hquery
  have hcloses : ∀ c ∈ level.select.conditions, Closes c := by
    rw [hconditions]
    intro c hc
    rcases List.mem_cons.mp hc with rfl | hc
    · exact Closes.apply .column (.raw (by decide)) _
    · rw [List.mem_singleton.mp hc]
      exact .raw (by decide)
  have hraw : ∀ sql, .raw sql ∈ level.select.conditions → sql = "NOT late" := by
    rw [hconditions]
    intro sql hsql
    rcases List.mem_cons.mp hsql with h | h
    · cases h
    · exact Expr.raw.inj (List.mem_singleton.mp h)
  obtain ⟨given, readings, -, -, -, -, -, -, -, hoperands⟩ :=
    where_reads_as_conjunction_iff level (by rw [hquery]; decide) hcloses fun sql hsql => by
      rw [hraw sql hsql]
      decide +kernel
  obtain ⟨os, hread, hos⟩ := hoperands.mpr fun sql hsql => by
    rw [hraw sql hsql]
    exact ⟨⟨1, "late"⟩, by decide +kernel⟩
  rw [← hopens.body_eq] at hread hos
  exact ⟨s, level, os, hs, hquery, hopens.body_eq.symm, hread, hos⟩

/-- A text with an OR of its own is not: what stands behind the OR is asked for on every line. -/
theorem firstLineTrips_asked_for_apart :
    read "late OR cancelled" = some [[⟨0, "late"⟩], [⟨0, "cancelled"⟩]] ∧
    (firstLineTrips "late OR cancelled").toSql = .ok ("SELECT *\nFROM \"trips\" AS \"trips\"" ++
      "\nWHERE (\"trips\".\"line\" = (1))\n    AND late OR cancelled") ∧
    read "(\"trips\".\"line\" = (1))\n    AND late OR cancelled" =
      some [[⟨0, "(\"trips\".\"line\" = (1))"⟩, ⟨0, "late"⟩], [⟨0, "cancelled"⟩]] := by
  decide +kernel

end QueryBuilder.Sql
