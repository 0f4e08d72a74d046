import QueryBuilder.Decimal.Binary

/-! The fewest digits that read back.

Every number of a format is the nearest one for an interval of reals: half a step to
either side, the ends included when `m` is even, and below a power of two only a
quarter. Of the decimals inside the interval, those with the fewest digits are looked
for, and among them the one nearest to the number. On every decimal grid the number's
two neighbours are enough: if any point of the grid lies in the interval, so does one
of them. -/
namespace QueryBuilder.Decimal

/-- Which of two equally near decimals is chosen. -/
inductive Tie where
  | up
  | even
deriving DecidableEq, Repr

/-- `digits · 10^exponent`, with no zero at the end of a positive number. -/
structure DecimalNumber where
  digits : Nat
  exponent : Int
deriving DecidableEq, Repr

/-- The number `m · 2^q` and its interval, as integers over a common denominator. -/
structure Interval where
  value : Nat
  lower : Nat
  upper : Nat
  denominator : Nat
  closed : Bool

/-- The interval of a positive number, in quarters of a step. -/
def Interval.around (format : BinaryFormat) (m : Nat) (q : Int) : Interval :=
  let below := if m = Nat.pow 2 (format.precision - 1) && format.minExponent < q then 1 else 2
  let (unit, denominator) := scaled 1 4 2 q
  { value := 4 * m * unit
    lower := (4 * m - below) * unit
    upper := (4 * m + 2) * unit
    denominator
    closed := m % 2 = 0 }

/-- `n · 10^k` lies in the interval. -/
def Interval.contains (i : Interval) (n : Nat) (k : Int) : Bool :=
  let (num, den) := scaled n 1 10 k
  let x := num * i.denominator
  if i.closed then i.lower * den ≤ x && x ≤ i.upper * den
  else i.lower * den < x && x < i.upper * den

/-- The neighbour of the number on the grid of multiples of `10^k` that lies in the
interval, the nearer one if both do. -/
def Interval.neighbour (i : Interval) (tie : Tie) (k : Int) : Option Nat :=
  let (num, den) := scaled i.value i.denominator 10 (-k)
  let below := num / den
  let twice := 2 * (num % den)
  let preferBelow := twice < den || (twice = den && tie = .even && below % 2 = 0)
  let (first, second) := if preferBelow then (below, below + 1) else (below + 1, below)
  if i.contains first k then some first
  else if i.contains second k then some second
  else none

/-- The greatest `e` with `10^e ≤ num / den`, searched downwards from `start`. -/
def floorLogTen (num den : Nat) (start : Int) : (steps : Nat) → Int
  | 0 => start
  | steps + 1 =>
    let (n, d) := scaled 1 1 10 start
    if n * den ≤ num * d then start else floorLogTen num den (start - 1) steps

/-- Strips the zeros at the end, at most `steps` of them. -/
def stripZeros (d : DecimalNumber) : (steps : Nat) → DecimalNumber
  | 0 => d
  | steps + 1 =>
    if d.digits % 10 = 0 then stripZeros ⟨d.digits / 10, d.exponent + 1⟩ steps else d

/-- The first grid, from `k` downwards, with a neighbour in the interval. -/
def Interval.search (i : Interval) (tie : Tie) (k : Int) : (steps : Nat) → DecimalNumber
  | 0 => ⟨0, 0⟩
  | steps + 1 =>
    match i.neighbour tie k with
    | some n => stripZeros ⟨n, k⟩ 20
    | none => i.search tie (k - 1) steps

/-- The shortest decimal of a positive number `m · 2^q`. No format here needs more
than seventeen digits. -/
def shortest (format : BinaryFormat) (tie : Tie) (m : Nat) (q : Int) : DecimalNumber :=
  let i := Interval.around format m q
  let (n, d) := scaled m 1 2 q
  -- `0.30103 · log₂` exceeds the common logarithm by less than four over every format.
  let start := (floorLog n d * 30103) / 100000 + 1
  i.search tie (floorLogTen n d start 4) 18

end QueryBuilder.Decimal
