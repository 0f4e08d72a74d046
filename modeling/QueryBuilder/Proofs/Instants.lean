import Mathlib.Data.List.Forall2
import Mathlib.Order.Basic
import QueryBuilder.Literal
import QueryBuilder.Text.Quoted
import QueryBuilder.Sql.Compilation

/-! Instants and their literals.

Days are counted one after the other, across months, leap days and years (`dayNumber_next`,
`dayNumber_previous`). A local time and the offset of its clock stand for an instant, which is a
number of nanoseconds.

Moving a time to the prime meridian keeps its instant, and there an instant is one date and time.
So its literal does not depend on the zone that it was given in. Numbers that are written in a row,
each padded to a width of its own, are ordered as texts as the numbers are, the first ones first
(`not_inRow_lt`). Those of a date and time, from the year down to the thousandths, are ordered as
the instants are, as long as the year has four digits. -/
namespace QueryBuilder

namespace Calendar

/-! ### Counting days -/

/-- The days from the beginning of the year 0 to that of `year`: a leap day for every fourth year,
not for every hundredth, and again for every four hundredth. -/
def daysBeforeYear (year : Int) : Int :=
  365 * year + (year + 3) / 4 - (year + 99) / 100 + (year + 399) / 400

def daysInYear (year : Int) : Int := if isLeap year then 366 else 365

/-- The days of a year before the month with this number. -/
def daysBeforeMonth (year : Int) : Nat → Nat
  | 0 | 1 => 0
  | m + 2 => daysBeforeMonth year (m + 1) + daysInMonth year (m + 1)

theorem daysBeforeYear_succ (year : Int) :
    daysBeforeYear (year + 1) = daysBeforeYear year + daysInYear year := by
  simp only [daysBeforeYear, daysInYear, isLeap, Bool.and_eq_true, decide_eq_true_eq,
    Bool.or_eq_true, ne_eq]
  split <;> omega

theorem daysBeforeYear_mono {year year' : Int} (h : year < year') :
    daysBeforeYear year + daysInYear year ≤ daysBeforeYear year' := by
  rw [← daysBeforeYear_succ]
  unfold daysBeforeYear
  omega

theorem daysBeforeMonth_succ (year : Int) {month : Nat} (h : 1 ≤ month) :
    daysBeforeMonth year (month + 1) = daysBeforeMonth year month + daysInMonth year month := by
  obtain ⟨m, rfl⟩ := Nat.exists_eq_succ_of_ne_zero (Nat.one_le_iff_ne_zero.mp h)
  rfl

theorem daysBeforeMonth_mono (year : Int) {month month' : Nat} (h : 1 ≤ month)
    (hlt : month < month') :
    daysBeforeMonth year month + daysInMonth year month ≤ daysBeforeMonth year month' := by
  rw [← daysBeforeMonth_succ year h]
  induction hlt with
  | refl => exact Nat.le_refl _
  | step hle ih =>
    have hstep := daysBeforeMonth_succ year (Nat.le_trans h (Nat.le_of_succ_le hle))
    exact Nat.le_trans ih (hstep ▸ Nat.le_add_right _ _)

theorem daysInMonth_le (year : Int) (month : Nat) : daysInMonth year month ≤ 31 := by
  unfold daysInMonth
  split
  · split <;> decide
  · split <;> decide

@[simp]
theorem daysInMonth_december (year : Int) : daysInMonth year 12 = 31 := rfl

/-- The year ends with December. -/
theorem daysBeforeMonth_december (year : Int) :
    (daysBeforeMonth year 12 : Int) + 31 = daysInYear year := by
  simp only [daysBeforeMonth, daysInMonth, daysInYear]
  cases isLeap year <;> rfl

namespace Date

/-- The number of a day, counted from the beginning of the year 0. -/
def dayNumber (d : Date) : Int :=
  daysBeforeYear d.year + daysBeforeMonth d.year d.month + d.day

theorem dayOfYear_le (d : Date) :
    (daysBeforeMonth d.year d.month + d.day : Int) ≤ daysInYear d.year := by
  have hyear := daysBeforeMonth_december d.year
  have hday := d.day_valid.2
  rcases Nat.lt_or_eq_of_le d.month_valid.2 with hmonth | hmonth
  · have hbefore := daysBeforeMonth_mono d.year d.month_valid.1 hmonth
    omega
  · rw [hmonth, daysInMonth_december] at hday
    rw [hmonth]
    omega

theorem dayNumber_next (d : Date) : d.next.dayNumber = d.dayNumber + 1 := by
  have hday := d.day_valid.2
  unfold next
  split
  · simp only [dayNumber]
    omega
  · rename_i hlast
    split
    · have hmonth := daysBeforeMonth_succ d.year d.month_valid.1
      simp only [dayNumber, hmonth]
      omega
    · have hmonth : d.month = 12 := by
        have := d.month_valid.2
        omega
      have hyear := daysBeforeMonth_december d.year
      rw [hmonth, daysInMonth_december] at hday hlast
      simp only [dayNumber, hmonth, daysBeforeYear_succ, daysBeforeMonth.eq_2]
      omega

theorem dayNumber_previous (d : Date) : d.previous.dayNumber = d.dayNumber - 1 := by
  have hday := d.day_valid.1
  unfold previous
  split
  · simp only [dayNumber]
    omega
  · split
    · have hmonth := daysBeforeMonth_succ d.year (Nat.le_sub_one_of_lt ‹1 < d.month›)
      rw [Nat.sub_add_cancel d.month_valid.1] at hmonth
      simp only [dayNumber, hmonth]
      omega
    · have hmonth : d.month = 1 := by
        have := d.month_valid.1
        omega
      have hdecember := daysBeforeMonth_december (d.year - 1)
      have hyear := daysBeforeYear_succ (d.year - 1)
      rw [Int.sub_add_cancel] at hyear
      simp only [dayNumber, hmonth, hyear, daysInMonth_december, daysBeforeMonth.eq_2]
      omega

/-- The order of dates is that of years, then months, then days. -/
theorem dayNumber_lt {d e : Date} (h : d.year < e.year ∨ d.year = e.year ∧
    (d.month < e.month ∨ d.month = e.month ∧ d.day < e.day)) : d.dayNumber < e.dayNumber := by
  rcases h with hyear | ⟨hyear, hmonth | ⟨hmonth, hday⟩⟩
  · have hbefore := daysBeforeYear_mono hyear
    have hwithin := d.dayOfYear_le
    have hfirst := e.day_valid.1
    simp only [dayNumber]
    omega
  · have hbefore := daysBeforeMonth_mono d.year d.month_valid.1 hmonth
    have hwithin := d.day_valid.2
    have hfirst := e.day_valid.1
    simp only [dayNumber, ← hyear]
    omega
  · simp only [dayNumber, ← hyear, ← hmonth]
    omega

theorem dayNumber_injective {d e : Date} (h : d.dayNumber = e.dayNumber) : d = e := by
  have hforward := mt (dayNumber_lt (d := d) (e := e)) (by omega)
  have hback := mt (dayNumber_lt (d := e) (e := d)) (by omega)
  have hyear : d.year = e.year := by omega
  have hmonth : d.month = e.month := by omega
  have hday : d.day = e.day := by omega
  cases d
  cases e
  simp_all

end Date

/-! ### Instants -/

namespace DateTime

/-- Outside of leap seconds. -/
def Ordinary (t : DateTime) : Prop := t.time.nanos < 1000000000

instance (t : DateTime) : Decidable t.Ordinary :=
  inferInstanceAs (Decidable (t.time.nanos < 1000000000))

/-- The nanoseconds from the beginning of the year 0 at the prime meridian to the local time `t` of
a clock that is `offset` seconds ahead. -/
def instant (t : DateTime) (offset : Int) : Int :=
  (t.date.dayNumber * 86400 + t.time.second - offset) * 1000000000 + t.time.nanos

/-- Clocks are less than a day ahead or behind. -/
def IsOffset (offset : Int) : Prop := -86400 < offset ∧ offset < 86400

instance (offset : Int) : Decidable (IsOffset offset) :=
  inferInstanceAs (Decidable (-86400 < offset ∧ offset < 86400))

/-- Moving to the zone of the prime meridian keeps the instant. -/
theorem instant_toUtc (t : DateTime) {offset : Int} (h : IsOffset offset) :
    (t.toUtc offset).instant 0 = t.instant offset := by
  obtain ⟨hbehind, hahead⟩ := h
  have hsecond := t.time.second_valid
  have hnext := t.date.dayNumber_next
  have hprevious := t.date.dayNumber_previous
  simp only [toUtc, instant]
  split
  · omega
  · split <;> omega

theorem Ordinary.toUtc {t : DateTime} (h : t.Ordinary) (offset : Int) :
    (t.toUtc offset).Ordinary := h

/-- At the prime meridian an instant outside of leap seconds is one date and time. -/
theorem instant_injective {t u : DateTime} (ht : t.Ordinary) (hu : u.Ordinary)
    (h : t.instant 0 = u.instant 0) : t = u := by
  have hsecond := t.time.second_valid
  have hsecond' := u.time.second_valid
  simp only [Ordinary, instant] at ht hu h
  have hdate : t.date = u.date := Date.dayNumber_injective (by omega)
  have htime : t.time.second = u.time.second ∧ t.time.nanos = u.time.nanos := by
    rw [hdate] at h
    omega
  obtain ⟨date, second, nanos⟩ := t
  obtain ⟨date', second', nanos'⟩ := u
  simp_all

/-- Equal instants are equal times at the prime meridian, whatever the zones they come from. -/
theorem toUtc_eq_of_instant {t u : DateTime} (ht : t.Ordinary) (hu : u.Ordinary) {o p : Int}
    (ho : IsOffset o) (hp : IsOffset p) (h : t.instant o = u.instant p) :
    t.toUtc o = u.toUtc p := by
  refine instant_injective (ht.toUtc o) (hu.toUtc p) ?_
  rw [instant_toUtc t ho, instant_toUtc u hp, h]

end DateTime

/-! ### Numbers of a fixed width -/

theorem padded_one {n : Nat} (h : n < 10) : padded 1 n = [Nat.digitChar n] := by
  simp [padded, Nat.toDigits_of_lt_base h]

/-- The last digit of a padded number is its remainder, the digits before are its tenth. -/
theorem padded_succ (width n : Nat) (h : 1 ≤ width) :
    padded (width + 1) n = padded width (n / 10) ++ [Nat.digitChar (n % 10)] := by
  obtain ⟨w, rfl⟩ := Nat.exists_eq_succ_of_ne_zero (Nat.one_le_iff_ne_zero.mp h)
  rcases Nat.lt_or_ge n 10 with hn | hn
  · have hzero : Nat.toDigits 10 0 = ['0'] := Nat.toDigits_of_lt_base (by decide)
    simp [padded, Nat.toDigits_of_lt_base hn, Nat.div_eq_of_lt hn, Nat.mod_eq_of_lt hn, hzero,
      List.replicate_succ']
  · simp [padded, Nat.toDigits_of_base_le (by decide) hn]

/-- The number has at most so many digits. -/
def Fits (width n : Nat) : Prop := 1 ≤ width ∧ n < Nat.pow 10 width

theorem Fits.length_padded {width n : Nat} (h : Fits width n) :
    (padded width n).length = width := by
  have hdigits : (Nat.toDigits 10 n).length ≤ width :=
    (Nat.length_toDigits_le_iff (by decide) h.1).mpr h.2
  simp only [padded, List.length_append, List.length_replicate]
  omega

theorem Fits.tenth {width n : Nat} (h : Fits (width + 1) n) (hwidth : 1 ≤ width) :
    Fits width (n / 10) :=
  ⟨hwidth, Nat.div_lt_of_lt_mul (Nat.mul_comm .. ▸ h.2)⟩

/-- Of two texts of one length the first difference decides, whatever stands behind them. -/
theorem append_lt_append {a b : List Char} (hlength : a.length = b.length) (h : a < b)
    (x y : List Char) : a ++ x < b ++ y := by
  induction a generalizing b with
  | nil =>
    obtain rfl := List.length_eq_zero_iff.mp hlength.symm
    exact absurd h (List.lt_irrefl _)
  | cons c a ih =>
    cases b with
    | nil => cases hlength
    | cons d b =>
      rw [List.cons_append, List.cons_append, List.cons_lt_cons_iff]
      rcases List.cons_lt_cons_iff.mp h with hlt | ⟨rfl, hlt⟩
      · exact .inl hlt
      · exact .inr ⟨rfl, ih (Nat.succ.inj hlength) hlt⟩

theorem digitChar_lt {n m : Nat} (h : n < m) (hm : m < 10) : Nat.digitChar n < Nat.digitChar m := by
  revert n
  revert m
  decide

/-- Padded to one width, greater numbers are greater texts. -/
theorem padded_lt {width n m : Nat} (hn : Fits width n) (hm : Fits width m) (h : n < m) :
    padded width n < padded width m := by
  induction width generalizing n m with
  | zero => exact absurd hn.1 (by decide)
  | succ width ih =>
    rcases Nat.eq_zero_or_pos width with rfl | hwidth
    · have hm' : m < 10 := hm.2
      rw [padded_one (Nat.lt_trans h hm'), padded_one hm', List.cons_lt_cons_iff]
      exact .inl (digitChar_lt h hm')
    · rw [padded_succ width n hwidth, padded_succ width m hwidth]
      have hle : n / 10 ≤ m / 10 := Nat.div_le_div_right (Nat.le_of_lt h)
      rcases Nat.lt_or_eq_of_le hle with htenth | htenth
      · have hlength := (hn.tenth hwidth).length_padded.trans (hm.tenth hwidth).length_padded.symm
        exact append_lt_append hlength (ih (hn.tenth hwidth) (hm.tenth hwidth) htenth) _ _
      · rw [htenth]
        refine List.append_left_lt (List.cons_lt_cons_iff.mpr (.inl ?_))
        exact digitChar_lt (by omega) (Nat.mod_lt _ (by decide))

/-- Numbers in a row, each padded to its width and followed by the characters that divide it from
the next. -/
def inRow : List (Nat × List Char) → List Nat → List Char
  | (width, behind) :: fields, n :: ns => padded width n ++ (behind ++ inRow fields ns)
  | _, _ => []

/-- What stands in front of both texts does not matter. -/
theorem not_append_lt {a b : List Char} (h : ¬ b < a) (front : List Char) :
    ¬ front ++ b < front ++ a := by
  induction front with
  | nil => exact h
  | cons c front ih =>
    rw [List.cons_append, List.cons_append, List.cons_lt_cons_iff]
    rintro (hlt | ⟨-, hlt⟩)
    · exact absurd hlt (Char.lt_irrefl c)
    · exact ih hlt

/-- Rows of numbers that fit their widths are ordered as texts as the numbers are, the first ones
first. -/
theorem not_inRow_lt {fields : List (Nat × List Char)} {ns ms : List Nat}
    (hn : List.Forall₂ (fun field n => Fits field.1 n) fields ns)
    (hm : List.Forall₂ (fun field m => Fits field.1 m) fields ms) (h : ¬ ms < ns) :
    ¬ inRow fields ms < inRow fields ns := by
  induction hn generalizing ms with
  | nil =>
    cases hm
    exact List.lt_irrefl _
  | @cons field n fields ns hfit _ ih =>
    cases hm with
    | @cons _ m _ ms hfit' hm =>
      rw [List.cons_lt_cons_iff, not_or, not_and] at h
      obtain ⟨hfirst, hrest⟩ := h
      rcases Nat.lt_or_eq_of_le (Nat.le_of_not_lt hfirst) with hlt | rfl
      · have hlength := hfit.length_padded.trans hfit'.length_padded.symm
        exact List.lt_asymm (append_lt_append hlength (padded_lt hfit hfit' hlt) _ _)
      · exact not_append_lt (not_append_lt (ih hm (hrest rfl)) field.2) (padded field.1 n)

theorem notMem_inRow {c : Char} (hc : c.isDigit = false) {fields : List (Nat × List Char)}
    (h : ∀ field ∈ fields, c ∉ field.2) (ns : List Nat) : c ∉ inRow fields ns := by
  induction fields generalizing ns with
  | nil => simp [inRow]
  | cons field fields ih =>
    cases ns with
    | nil => simp [inRow]
    | cons n ns =>
      have hdigits : c ∉ padded field.1 n := fun hmem => by
        rcases List.mem_append.mp hmem with hzero | hdigit
        · exact absurd (List.eq_of_mem_replicate hzero ▸ hc) (by decide)
        · exact absurd (Nat.isDigit_of_mem_toDigits (by decide) (by decide) hdigit) (by simp [hc])
      obtain ⟨hfield, hfields⟩ := List.forall_mem_cons.mp h
      simp only [inRow, List.mem_append, not_or]
      exact ⟨hdigits, hfield, ih hfields ns⟩

namespace DateTime

/-- The numbers that a date and time are written with. -/
def fields (t : DateTime) : List Nat :=
  [t.date.year.toNat, t.date.month, t.date.day,
    t.time.second / 3600, t.time.second / 60 % 60, t.time.second % 60, t.time.nanos / 1000000]

/-- How they are written. -/
def layout (behind : List Char) : List (Nat × List Char) :=
  [(4, ['-']), (2, ['-']), (2, ['T']), (2, [':']), (2, [':']), (2, ['.']), (3, behind)]

/-- A year that is written in four digits. -/
def FourDigits (t : DateTime) : Prop := 0 ≤ t.date.year ∧ t.date.year ≤ 9999

instance (t : DateTime) : Decidable t.FourDigits :=
  inferInstanceAs (Decidable (0 ≤ t.date.year ∧ t.date.year ≤ 9999))

theorem chars_eq_inRow {t : DateTime} (ht : t.Ordinary) (hyear : t.FourDigits)
    (behind : List Char) : t.chars ++ behind = inRow (layout behind) t.fields := by
  have hsecond : t.time.nanos / 1000000000 = 0 := Nat.div_eq_of_lt ht
  have hnanos : t.time.nanos % 1000000000 = t.time.nanos := Nat.mod_eq_of_lt ht
  have hyear : 0 ≤ t.date.year ∧ t.date.year ≤ 9999 := hyear
  simp [chars, Date.chars, Time.chars, yearChars, inRow, layout, fields, hsecond, hnanos, hyear]

theorem fits_fields {t : DateTime} (ht : t.Ordinary) (hyear : t.FourDigits) (behind : List Char) :
    List.Forall₂ (fun field n => Fits field.1 n) (layout behind) t.fields := by
  have hmonth := t.date.month_valid.2
  have hday : t.date.day ≤ 31 := Nat.le_trans t.date.day_valid.2 (daysInMonth_le _ _)
  have hsecond := t.time.second_valid
  simp only [Ordinary, FourDigits] at ht hyear
  have two {n : Nat} (h : n < 100) : Fits 2 n := ⟨by decide, h⟩
  have three {n : Nat} (h : n < 1000) : Fits 3 n := ⟨by decide, h⟩
  have four {n : Nat} (h : n < 10000) : Fits 4 n := ⟨by decide, h⟩
  exact .cons (four (by omega)) (.cons (two (by omega)) (.cons (two (by omega))
    (.cons (two (by omega)) (.cons (two (by omega)) (.cons (two (by omega))
      (.cons (three (by omega)) .nil))))))

/-- At the prime meridian the numbers of a later time are not smaller. -/
theorem not_fields_lt {t u : DateTime} (ht : t.Ordinary) (hu : u.Ordinary) (hyear : t.FourDigits)
    (hyear' : u.FourDigits) (h : t.instant 0 ≤ u.instant 0) : ¬ u.fields < t.fields := by
  have hsecond := t.time.second_valid
  have hsecond' := u.time.second_valid
  simp only [Ordinary, FourDigits, instant] at ht hu hyear hyear' h
  intro hlt
  have hdate := mt (Date.dayNumber_lt (d := u.date) (e := t.date)) (by omega)
  have hsame : u.date.year = t.date.year → u.date.month = t.date.month →
      u.date.day = t.date.day → u.date.dayNumber = t.date.dayNumber := fun hy hm hd => by
    simp only [Date.dayNumber, hy, hm, hd]
  simp only [fields, List.cons_lt_cons_iff, List.lt_irrefl, and_false, or_false] at hlt
  omega

/-- Later times at the prime meridian are not smaller texts, whatever is written behind both. -/
theorem not_chars_lt {t u : DateTime} (ht : t.Ordinary) (hu : u.Ordinary) (hyear : t.FourDigits)
    (hyear' : u.FourDigits) (h : t.instant 0 ≤ u.instant 0) (behind : List Char) :
    ¬ u.chars ++ behind < t.chars ++ behind := by
  rw [chars_eq_inRow ht hyear, chars_eq_inRow hu hyear']
  exact not_inRow_lt (fits_fields ht hyear behind) (fits_fields hu hyear' behind)
    (not_fields_lt ht hu hyear hyear' h)

end DateTime

/-- The instant lies in a year with four digits, at the prime meridian. -/
def InFourDigitYear (instant : Int) : Prop :=
  ∃ t : DateTime, t.Ordinary ∧ t.FourDigits ∧ t.instant 0 = instant

theorem DateTime.fourDigits_toUtc {t : DateTime} (ht : t.Ordinary) {offset : Int}
    (hoffset : IsOffset offset) (h : InFourDigitYear (t.instant offset)) :
    (t.toUtc offset).FourDigits := by
  obtain ⟨u, hu, hyear, hinstant⟩ := h
  rw [instant_injective (ht.toUtc offset) hu ((instant_toUtc t hoffset).trans hinstant.symm)]
  exact hyear

end Calendar

/-! ### Literals -/

open Calendar Calendar.DateTime Text

/-- Both are text literals, and character by character the first is not greater than the second,
neither in what it says nor as it stands in SQL. -/
def Expr.NotGreater (e f : Expr Query) : Prop :=
  ∃ s t : String, (∀ scope, e.toSql scope = .ok (Quoted.literal s)) ∧
    (∀ scope, f.toSql scope = .ok (Quoted.literal t)) ∧
    ¬ t.toList < s.toList ∧ ¬ (Quoted.literal t).toList < (Quoted.literal s).toList

/-- Times whose texts are in order whatever is written behind them have literals in order. -/
theorem notGreater_of_chars {t u : DateTime} (ht : t.Ordinary) (hu : u.Ordinary)
    (hyear : t.FourDigits) (hyear' : u.FourDigits) (h : t.instant 0 ≤ u.instant 0)
    (mark : List Char) (hmark : '\'' ∉ mark) :
    Expr.NotGreater (.text (String.ofList (t.chars ++ mark)))
      (.text (String.ofList (u.chars ++ mark))) := by
  have bare {v : DateTime} (hv : v.Ordinary) (hyear : v.FourDigits) :
      Quoted.encode '\'' (v.chars ++ mark) = v.chars ++ mark := by
    refine Quoted.encode_eq_self ?_
    rw [chars_eq_inRow hv hyear]
    refine notMem_inRow (by decide) ?_ _
    simpa [layout] using hmark
  refine ⟨_, _, fun _ => rfl, fun _ => rfl, ?_, ?_⟩
  · rw [String.toList_ofList, String.toList_ofList]
    exact not_chars_lt ht hu hyear hyear' h mark
  · simp only [Quoted.literal, Quoted.toList_quoted, String.toList_ofList, bare ht hyear,
      bare hu hyear', Quoted.literalQuote]
    have hle := not_chars_lt ht hu hyear hyear' h (mark ++ ['\''])
    simpa using hle

/-- **Literals compare like the instants they stand for.** Two local times that are the same
instant have the same literal, whatever the offsets of their clocks. If both instants lie in years of
four digits, the literal of the earlier one is not greater than that of the later one; nor is it for
times without an offset. Leap seconds are left out. -/
theorem literals_compare_like_instants :
    (∀ {t u : DateTime} {o p : Int}, t.Ordinary → u.Ordinary → IsOffset o → IsOffset p →
      (t.instant o = u.instant p → (Literal.instant t o : Expr Query) = Literal.instant u p) ∧
      (InFourDigitYear (t.instant o) → InFourDigitYear (u.instant p) →
        t.instant o < u.instant p → Expr.NotGreater (Literal.instant t o) (Literal.instant u p))) ∧
    (∀ {t u : DateTime}, t.Ordinary → u.Ordinary → t.FourDigits → u.FourDigits →
      t.instant 0 < u.instant 0 → Expr.NotGreater (Literal.dateTime t) (Literal.dateTime u)) := by
  refine ⟨fun {t u o p} ht hu ho hp => ⟨fun h => ?_, fun hyear hyear' h => ?_⟩,
    fun {t u} ht hu hyear hyear' h => ?_⟩
  · have hutc := toUtc_eq_of_instant ht hu ho hp h
    rw [Literal.instant, Literal.instant, instantText, instantText, hutc]
  · have hle : (t.toUtc o).instant 0 ≤ (u.toUtc p).instant 0 := by
      rw [instant_toUtc t ho, instant_toUtc u hp]
      exact Int.le_of_lt h
    exact notGreater_of_chars (ht.toUtc o) (hu.toUtc p) (fourDigits_toUtc ht ho hyear)
      (fourDigits_toUtc hu hp hyear') hle ['Z'] (by decide)
  · have hle := notGreater_of_chars ht hu hyear hyear' (Int.le_of_lt h) [] (by simp)
    rw [List.append_nil, List.append_nil] at hle
    exact hle

/-- The turn of a year where clocks are five and a half hours ahead. -/
def turnInTheEast : DateTime :=
  ⟨(Date.ofFields? 2024 1 1).get (by decide), (Time.ofFields? 5 30 0 0).get (by decide)⟩

/-- The same where they are ten hours behind. -/
def turnInTheWest : DateTime :=
  ⟨(Date.ofFields? 2023 12 31).get (by decide), (Time.ofFields? 14 0 0 0).get (by decide)⟩

/-- Less than a thousandth of a second before the turn, at the prime meridian. -/
def justBefore : DateTime :=
  ⟨(Date.ofFields? 2023 12 31).get (by decide), (Time.ofFields? 23 59 59 999900000).get (by decide)⟩

/-- The two turns are one instant, and have one literal. The literal of the time just before it is
not greater, though its local hour is. -/
theorem literals_compare_at_turn_of_year :
    turnInTheEast.instant 19800 = turnInTheWest.instant (-36000) ∧
    (Literal.instant turnInTheEast 19800 : Expr Query) = Literal.instant turnInTheWest (-36000) ∧
    justBefore.instant 0 < turnInTheEast.instant 19800 ∧
    Expr.NotGreater (Literal.instant justBefore 0) (Literal.instant turnInTheEast 19800) ∧
    Expr.NotGreater (Literal.dateTime turnInTheWest) (Literal.dateTime justBefore) := by
  have heast : turnInTheEast.Ordinary := by decide
  have hwest : turnInTheWest.Ordinary := by decide
  have hbefore : justBefore.Ordinary := by decide
  have hsame : turnInTheEast.instant 19800 = turnInTheWest.instant (-36000) := by decide
  have hlt : justBefore.instant 0 < turnInTheEast.instant 19800 := by decide
  have hyear : InFourDigitYear (justBefore.instant 0) := ⟨justBefore, hbefore, by decide, rfl⟩
  have hyear' : InFourDigitYear (turnInTheEast.instant 19800) :=
    ⟨turnInTheEast.toUtc 19800, heast, by decide, by decide⟩
  obtain ⟨hinstants, htimes⟩ := literals_compare_like_instants
  exact ⟨hsame, (hinstants heast hwest (by decide) (by decide)).1 hsame, hlt,
    (hinstants hbefore heast (by decide) (by decide)).2 hyear hyear' hlt,
    htimes hwest hbefore (by decide) (by decide) (by decide)⟩

end QueryBuilder
