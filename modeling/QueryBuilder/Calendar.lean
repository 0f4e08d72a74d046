/-! Dates, times and instants.

The calendar is the Gregorian one, extended to all years. A time may lie in a leap
second: then its second is the last of a minute and a second or more of nanoseconds
has passed since that second began. -/
namespace QueryBuilder.Calendar

def isLeap (year : Int) : Bool := year % 4 = 0 && (year % 100 ≠ 0 || year % 400 = 0)

def daysInMonth (year : Int) (month : Nat) : Nat :=
  if month = 2 then if isLeap year then 29 else 28
  else if month = 4 || month = 6 || month = 9 || month = 11 then 30
  else 31

theorem daysInMonth_pos (year : Int) (month : Nat) : 0 < daysInMonth year month := by
  unfold daysInMonth
  split
  · split <;> decide
  · split <;> decide

structure Date where
  year : Int
  month : Nat
  day : Nat
  month_valid : 1 ≤ month ∧ month ≤ 12
  day_valid : 1 ≤ day ∧ day ≤ daysInMonth year month

/-- The second of the day, and the nanoseconds since it began. -/
structure Time where
  second : Nat
  nanos : Nat
  second_valid : second < 86400
  nanos_valid : nanos < 2000000000

structure DateTime where
  date : Date
  time : Time

namespace Date

def ofFields? (year : Int) (month day : Nat) : Option Date :=
  if h : (1 ≤ month ∧ month ≤ 12) ∧ 1 ≤ day ∧ day ≤ daysInMonth year month then
    some ⟨year, month, day, h.1, h.2⟩
  else none

/-- The day after. -/
def next (d : Date) : Date :=
  if hd : d.day < daysInMonth d.year d.month then
    { d with day := d.day + 1, day_valid := ⟨by omega, hd⟩ }
  else if hm : d.month < 12 then
    { year := d.year, month := d.month + 1, day := 1
      month_valid := ⟨by omega, hm⟩
      day_valid := ⟨Nat.le_refl 1, daysInMonth_pos _ _⟩ }
  else
    { year := d.year + 1, month := 1, day := 1
      month_valid := by decide
      day_valid := ⟨Nat.le_refl 1, daysInMonth_pos _ _⟩ }

/-- The day before. -/
def previous (d : Date) : Date :=
  if hd : 1 < d.day then
    { d with day := d.day - 1, day_valid := ⟨by omega, Nat.le_trans (Nat.sub_le _ _) d.day_valid.2⟩ }
  else if hm : 1 < d.month then
    { year := d.year, month := d.month - 1, day := daysInMonth d.year (d.month - 1)
      month_valid := ⟨by omega, Nat.le_trans (Nat.sub_le _ _) d.month_valid.2⟩
      day_valid := ⟨daysInMonth_pos _ _, Nat.le_refl _⟩ }
  else
    { year := d.year - 1, month := 12, day := daysInMonth (d.year - 1) 12
      month_valid := by decide
      day_valid := ⟨daysInMonth_pos _ _, Nat.le_refl _⟩ }

end Date

namespace Time

def ofFields? (hour minute second nanos : Nat) : Option Time :=
  if h : (hour < 24 ∧ minute < 60 ∧ second < 60)
      ∧ (nanos < 1000000000 ∨ second = 59 ∧ nanos < 2000000000) then
    some ⟨hour * 3600 + minute * 60 + second, nanos, by omega, by omega⟩
  else none

end Time

namespace DateTime

/-- A local time moved to the zone of the prime meridian, where `offset` says by how many
seconds, less than a day, the local clock is ahead. -/
def toUtc (t : DateTime) (offset : Int) : DateTime :=
  let moved : Int := t.time.second - offset
  let second := (moved % 86400).toNat
  have valid : second < 86400 := by omega
  let date :=
    if moved < 0 then t.date.previous else if 86400 ≤ moved then t.date.next else t.date
  ⟨date, { t.time with second, second_valid := valid }⟩

end DateTime

/-! ### Text -/

/-- A number in at least `width` digits. -/
def padded (width n : Nat) : List Char :=
  let digits := Nat.toDigits 10 n
  List.replicate (width - digits.length) '0' ++ digits

/-- Four digits, and a sign before a year that has none of its own in four digits. -/
def yearChars (year : Int) : List Char :=
  if 0 ≤ year ∧ year ≤ 9999 then padded 4 year.toNat
  else (if year < 0 then '-' else '+') :: padded 4 year.natAbs

namespace Date

def chars (d : Date) : List Char :=
  yearChars d.year ++ '-' :: padded 2 d.month ++ '-' :: padded 2 d.day

/-- Year, month and day. -/
def text (d : Date) : String := String.ofList d.chars

end Date

namespace Time

/-- Hours, minutes, seconds and thousandths, which are cut off and not rounded. Inside
a leap second the seconds count one further. -/
def chars (t : Time) : List Char :=
  padded 2 (t.second / 3600) ++ ':' :: padded 2 (t.second / 60 % 60)
    ++ ':' :: padded 2 (t.second % 60 + t.nanos / 1000000000)
    ++ '.' :: padded 3 (t.nanos % 1000000000 / 1000000)

end Time

namespace DateTime

def chars (t : DateTime) : List Char := t.date.chars ++ 'T' :: t.time.chars

def text (t : DateTime) : String := String.ofList t.chars

/-- The text of an instant: its time at the prime meridian, marked so. -/
def instantText (t : DateTime) (offset : Int) : String :=
  String.ofList ((t.toUtc offset).chars ++ ['Z'])

end DateTime

end QueryBuilder.Calendar
