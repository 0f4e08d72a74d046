import Mathlib.Data.List.DropRight
import QueryBuilder.Text.Quoted

/-! Reading a condition.

A condition is read as its alternatives, each of which asks for some operands together: NOT binds
closer than AND, and AND closer than OR. First the characters are told apart. Those inside of
brackets, quoted tokens and comments are out of sight; the others make up words. Of the words AND
and OR connect operands, but not where they belong to a CASE, and an AND not where it belongs to a
BETWEEN. Then the text is divided at each OR, and each part of it at each AND. A text that closes
what it does not open, leaves something open, or misses an operand cannot be read.

`read_and` says what becomes of two conditions with an AND between them: the last alternative of the
first one and the first alternative of the second one become one. -/
namespace QueryBuilder.Condition
open Text.Quoted (identifierQuote literalQuote)

/-! ### Passing through a list -/

section
variable {σ α β : Type} [DecidableEq σ]

/-- What `next` gives for the elements of a list, one after the other, when it ends in the state
`home`. -/
def passage (next : σ → α → Option (σ × β)) (home : σ) : σ → List α → Option (List β)
  | s, [] => if s = home then some [] else none
  | s, a :: rest =>
    (next s a).bind fun (s', b) => (passage next home s' rest).map (b :: ·)

variable {next : σ → α → Option (σ × β)} {home : σ}

theorem passage_nil : passage next home home [] = some [] := if_pos rfl

theorem passage_cons_eq_some {s : σ} {a : α} {rest : List α} {bs : List β} :
    passage next home s (a :: rest) = some bs ↔
      ∃ s' b bs', next s a = some (s', b) ∧ passage next home s' rest = some bs' ∧
        bs = b :: bs' := by
  simp only [passage, Option.bind_eq_some_iff, Option.map_eq_some_iff, Prod.exists]
  constructor
  · rintro ⟨s', b, hnext, bs', hrest, rfl⟩
    exact ⟨s', b, bs', hnext, hrest, rfl⟩
  · rintro ⟨s', b, bs', hnext, hrest, rfl⟩
    exact ⟨s', b, hnext, bs', hrest, rfl⟩

/-- Behind a list that leads home, a passage is one from there. -/
theorem passage_append {s : σ} {xs ys : List α} {bs cs : List β}
    (hx : passage next home s xs = some bs) (hy : passage next home home ys = some cs) :
    passage next home s (xs ++ ys) = some (bs ++ cs) := by
  induction xs generalizing s bs with
  | nil =>
    rw [passage, Option.ite_none_right_eq_some] at hx
    obtain ⟨rfl, hx⟩ := hx
    obtain rfl := Option.some.inj hx
    exact hy
  | cons x xs ih =>
    obtain ⟨s', b, bs', hnext, hrest, rfl⟩ := passage_cons_eq_some.mp hx
    exact passage_cons_eq_some.mpr ⟨s', b, _, hnext, ih hrest, rfl⟩

end

/-! ### Characters in sight -/

/-- What a character is read as a part of: the condition itself, where a minus sign or a slash may
begin a comment, a quoted token, a comment up to the end of the line, or one between stars. -/
inductive Mode where
  | code | dash | slash
  | literal | identifier
  | line | block | star
deriving DecidableEq, Repr

namespace Mode

def isCode : Mode → Bool
  | code | dash | slash => true
  | literal | identifier | line | block | star => false

/-- What comes behind a character of the condition itself. -/
def opening (m : Mode) (c : Char) : Mode :=
  if c = literalQuote then literal
  else if c = identifierQuote then identifier
  else if c = '-' then if m = dash then line else dash
  else if c = '/' then slash
  else if c = '*' ∧ m = slash then block
  else code

def next (m : Mode) (c : Char) : Mode :=
  match m with
  | code | dash | slash => m.opening c
  | literal => if c = literalQuote then code else literal
  | identifier => if c = identifierQuote then code else identifier
  | line => if c = '\n' then code else line
  | block => if c = '*' then star else block
  | star => if c = '/' then code else if c = '*' then star else block

end Mode

/-- A place in a condition, inside of so many brackets. -/
structure Place where
  opened : Nat
  mode : Mode
deriving DecidableEq, Repr

namespace Place

def outside : Place := ⟨0, .code⟩

/-- Whether the character in this place is in sight. -/
def shows (p : Place) : Bool := p.opened == 0 && p.mode.isCode

/-- The place behind a character. There is none behind a bracket that closes nothing. -/
def behind (p : Place) (c : Char) : Option Place :=
  if p.mode.isCode ∧ c = '(' then some ⟨p.opened + 1, .code⟩
  else if p.mode.isCode ∧ c = ')' then
    match p.opened with
    | 0 => none
    | opened + 1 => some ⟨opened, .code⟩
  else some ⟨p.opened, p.mode.next c⟩

/-- The same place inside of one more bracket. -/
def deeper (p : Place) : Place := ⟨p.opened + 1, p.mode⟩

theorem behind_deeper {p p' : Place} {c : Char} (h : p.behind c = some p') :
    p.deeper.behind c = some p'.deeper := by
  obtain ⟨opened, mode⟩ := p
  by_cases hopen : mode.isCode ∧ c = '('
  · obtain rfl : ⟨opened + 1, .code⟩ = p' := Option.some.inj ((if_pos hopen).symm.trans h)
    exact if_pos hopen
  have hnext := (if_neg hopen).symm.trans h
  by_cases hclose : mode.isCode ∧ c = ')'
  · have hleft := (if_pos hclose).symm.trans hnext
    refine (if_neg hopen).trans ((if_pos hclose).trans ?_)
    cases opened with
    | zero => cases hleft
    | succ opened =>
      obtain rfl := Option.some.inj hleft
      rfl
  · obtain rfl := Option.some.inj ((if_neg hclose).symm.trans hnext)
    exact (if_neg hopen).trans (if_neg hclose)

end Place

/-- A character, and whether it is in sight. -/
structure Sign where
  char : Char
  shown : Bool
deriving DecidableEq, Repr

def Sign.hidden (s : Sign) : Sign := ⟨s.char, false⟩

def Place.sign (p : Place) (c : Char) : Option (Place × Sign) :=
  (p.behind c).map fun p' => (p', ⟨c, p.shows⟩)

/-- The signs of a text that is read from a place on, up to the end of the condition. -/
def signsFrom (p : Place) (cs : List Char) : Option (List Sign) :=
  passage Place.sign .outside p cs

/-- The signs of a whole text. -/
def signs (cs : List Char) : Option (List Sign) := signsFrom .outside cs

theorem signsFrom_cons_eq_some {p : Place} {c : Char} {rest : List Char} {ss : List Sign} :
    signsFrom p (c :: rest) = some ss ↔
      ∃ p' ss', p.behind c = some p' ∧ signsFrom p' rest = some ss' ∧ ss = ⟨c, p.shows⟩ :: ss' := by
  unfold signsFrom
  rw [passage_cons_eq_some]
  constructor
  · rintro ⟨p', s, ss', hsign, hrest, rfl⟩
    obtain ⟨p'', hbehind, heq⟩ := Option.map_eq_some_iff.mp hsign
    obtain ⟨rfl, rfl⟩ := Prod.mk.inj heq
    exact ⟨_, ss', hbehind, hrest, rfl⟩
  · rintro ⟨p', ss', hbehind, hrest, rfl⟩
    exact ⟨p', _, ss', by rw [Place.sign, hbehind]; rfl, hrest, rfl⟩

theorem signs_append {xs ys : List Char} {ss ts : List Sign} (hx : signs xs = some ss)
    (hy : signs ys = some ts) : signs (xs ++ ys) = some (ss ++ ts) := passage_append hx hy

/-- Signs are the characters in their order. -/
theorem chars_of_signsFrom {p : Place} {cs : List Char} {ss : List Sign}
    (h : signsFrom p cs = some ss) : ss.map (·.char) = cs := by
  induction cs generalizing p ss with
  | nil =>
    obtain ⟨-, h⟩ := Option.ite_none_right_eq_some.mp h
    obtain rfl := Option.some.inj h
    rfl
  | cons c cs ih =>
    obtain ⟨p', ss', -, hrest, rfl⟩ := signsFrom_cons_eq_some.mp h
    rw [List.map_cons, ih hrest]

/-- Inside of a bracket nothing is in sight, and its end leads outside again. -/
theorem signsFrom_deeper {p : Place} {cs : List Char} {ss : List Sign}
    (h : signsFrom p cs = some ss) :
    signsFrom p.deeper (cs ++ [')']) = some (ss.map Sign.hidden ++ [⟨')', false⟩]) := by
  induction cs generalizing p ss with
  | nil =>
    obtain ⟨rfl, h⟩ := Option.ite_none_right_eq_some.mp h
    obtain rfl := Option.some.inj h
    exact signsFrom_cons_eq_some.mpr ⟨.outside, [], rfl, rfl, rfl⟩
  | cons c cs ih =>
    obtain ⟨p', ss', hbehind, hrest, rfl⟩ := signsFrom_cons_eq_some.mp h
    exact signsFrom_cons_eq_some.mpr ⟨_, _, Place.behind_deeper hbehind, ih hrest, rfl⟩

theorem signs_bracketed {cs : List Char} {ss : List Sign} (h : signs cs = some ss) :
    signs ('(' :: (cs ++ [')'])) = some (⟨'(', true⟩ :: (ss.map Sign.hidden ++ [⟨')', false⟩])) :=
  signsFrom_cons_eq_some.mpr ⟨_, _, rfl, signsFrom_deeper h, rfl⟩

/-! ### Words -/

def isWordChar (c : Char) : Bool := c.isAlphanum || c == '_' || c == '$' || 128 ≤ c.toNat

def Sign.inWord (s : Sign) : Bool := s.shown && isWordChar s.char

inductive Token where
  | word (chars : List Char)
  | mark (char : Char)
deriving DecidableEq, Repr

namespace Token

def chars : Token → List Char
  | word cs => cs
  | mark c => [c]

/-- A character in front of some tokens, as the beginning of a word. -/
def beginning (c : Char) : List Token → List Token
  | word cs :: rest => word (c :: cs) :: rest
  | [] => [word [c]]
  | mark d :: rest => word [c] :: mark d :: rest

end Token

/-- Neighbouring characters of words belong to one word. -/
def tokens : List Sign → List Token
  | [] => []
  | s :: rest =>
    if s.inWord then Token.beginning s.char (tokens rest) else .mark s.char :: tokens rest

theorem tokens_cons_mark {s : Sign} (hs : s.inWord = false) (rest : List Sign) :
    tokens (s :: rest) = .mark s.char :: tokens rest := by
  rw [tokens, hs]
  rfl

/-- No word goes on over a character that belongs to none. -/
theorem tokens_append_mark {s : Sign} (hs : s.inWord = false) (xs ys : List Sign) :
    tokens (xs ++ s :: ys) = tokens xs ++ .mark s.char :: tokens ys := by
  induction xs with
  | nil => exact tokens_cons_mark hs ys
  | cons x xs ih =>
    rw [List.cons_append, tokens, tokens, ih]
    split
    · cases hxs : tokens xs with
      | nil => rfl
      | cons t ts => cases t <;> rfl
    · rfl

theorem tokens_of_no_word {ss : List Sign} (h : ∀ s ∈ ss, s.inWord = false) :
    tokens ss = ss.map fun s => .mark s.char := by
  induction ss with
  | nil => rfl
  | cons s ss ih =>
    rw [tokens_cons_mark (h s (List.mem_cons_self ..)),
      ih fun t ht => h t (List.mem_cons_of_mem _ ht)]
    rfl

/-! ### Connectives -/

inductive Keyword where
  | not | and | or | between | case | close
deriving DecidableEq, Repr

/-- Words are the same in capital letters and in small ones. -/
def Token.keyword? : Token → Option Keyword
  | mark _ => none
  | word cs =>
    match String.ofList (cs.map Char.toUpper) with
    | "NOT" => some .not
    | "AND" => some .and
    | "OR" => some .or
    | "BETWEEN" => some .between
    | "CASE" => some .case
    | "END" => some .close
    | _ => none

/-- A token that belongs to an operand, or a connective. -/
inductive Item where
  | part (token : Token)
  | and
  | or
deriving DecidableEq, Repr

namespace Item

def isAnd : Item → Bool
  | and => true
  | part _ | or => false

def isOr : Item → Bool
  | or => true
  | part _ | and => false

def token? : Item → Option Token
  | part t => some t
  | and | or => none

end Item

/-- The CASEs that have no END so far, and whether a BETWEEN has no AND. -/
structure Pending where
  cases : Nat
  between : Bool
deriving DecidableEq, Repr

namespace Pending

def nothing : Pending := ⟨0, false⟩

def item (s : Pending) (t : Token) : Option (Pending × Item) :=
  match t.keyword? with
  | none | some .not => some (s, .part t)
  | some .case => some (⟨s.cases + 1, s.between⟩, .part t)
  | some .close =>
    match s.cases with
    | 0 => none
    | cases + 1 => some (⟨cases, s.between⟩, .part t)
  | some .between => some (⟨s.cases, s.between || s.cases == 0⟩, .part t)
  | some .and =>
    if s.cases ≠ 0 then some (s, .part t)
    else if s.between then some (nothing, .part t)
    else some (s, .and)
  | some .or =>
    if s.cases ≠ 0 then some (s, .part t)
    else if s.between then none
    else some (s, .or)

end Pending

def items (ts : List Token) : Option (List Item) := passage Pending.item .nothing .nothing ts

theorem items_append {xs ys : List Token} {is js : List Item} (hx : items xs = some is)
    (hy : items ys = some js) : items (xs ++ ys) = some (is ++ js) := passage_append hx hy

/-- Characters of operands, outside of words. -/
def parts (cs : List Char) : List Item := cs.map fun c => .part (.mark c)

theorem tokens_parts (cs : List Char) : (parts cs).filterMap Item.token? = cs.map .mark := by
  simp [parts, List.filterMap_map, Function.comp_def, Item.token?]

theorem items_marks (cs : List Char) : items (cs.map .mark) = some (parts cs) := by
  induction cs with
  | nil => exact passage_nil
  | cons c cs ih => exact passage_cons_eq_some.mpr ⟨_, _, _, rfl, ih, rfl⟩

/-! ### Operands -/

/-- An operand behind so many NOTs. -/
structure Operand where
  negations : Nat
  text : String
deriving DecidableEq, Repr

def Token.isBlank : Token → Bool
  | mark c => c.isWhitespace
  | word _ => false

theorem chars_marks (cs : List Char) : (cs.map Token.mark).flatMap Token.chars = cs := by
  rw [List.flatMap_map]
  exact List.flatMap_singleton' cs

/-- The text of the tokens up to the last character that is no blank. -/
def trimmed (ts : List Token) : String :=
  String.ofList ((ts.flatMap Token.chars).rdropWhile Char.isWhitespace)

namespace Operand

def ofTokens : List Token → Operand
  | [] => ⟨0, ""⟩
  | t :: rest =>
    if t.isBlank then ofTokens rest
    else if t.keyword? = some .not then ⟨(ofTokens rest).negations + 1, (ofTokens rest).text⟩
    else ⟨0, trimmed (t :: rest)⟩

def ofItems (is : List Item) : Operand := ofTokens (is.filterMap Item.token?)

end Operand

/-- Two conditions that ask for their operands together: the last alternative of the one goes on
with the first alternative of the other. -/
def meet {α : Type} : List (List α) → List (List α) → List (List α)
  | [], ys => ys
  | [x], [] => [x]
  | [x], y :: ys => (x ++ y) :: ys
  | x :: x' :: xs, ys => x :: meet (x' :: xs) ys

/-- The operands that an alternative asks for. -/
def operands (is : List Item) : List Operand := (is.splitOnP Item.isAnd).map Operand.ofItems

def alternatives (is : List Item) : List (List Operand) := (is.splitOnP Item.isOr).map operands

/-- Every operand says something. -/
def isWhole (as : List (List Operand)) : Bool := as.all fun a => a.all fun o => o.text != ""

/-- What a condition reads as. -/
def read (text : String) : Option (List (List Operand)) :=
  ((signs text.toList).bind fun ss => (items (tokens ss)).map alternatives).filter isWhole

theorem read_eq_some_iff {text : String} {as : List (List Operand)} :
    read text = some as ↔ ∃ ss is, signs text.toList = some ss ∧ items (tokens ss) = some is ∧
      alternatives is = as ∧ isWhole as := by
  unfold read
  simp only [Option.filter_eq_some_iff, Option.bind_eq_some_iff, Option.map_eq_some_iff]
  constructor
  · rintro ⟨⟨ss, hss, is, his, rfl⟩, hwhole⟩
    exact ⟨ss, is, hss, his, rfl, hwhole⟩
  · rintro ⟨ss, is, hss, his, rfl, hwhole⟩
    exact ⟨⟨ss, hss, is, his, rfl⟩, hwhole⟩

/-! ### Blanks around operands -/

section
variable {cs : List Char} (h : ∀ c ∈ cs, c.isWhitespace)
include h

theorem trimmed_append_blanks (ts : List Token) : trimmed (ts ++ cs.map .mark) = trimmed ts := by
  unfold trimmed
  rw [List.flatMap_append, chars_marks, List.rdropWhile, List.reverse_append,
    List.dropWhile_append_of_pos fun c hc => h c (List.mem_reverse.mp hc)]
  rfl

namespace Operand

theorem ofTokens_blanks_append (ts : List Token) :
    ofTokens (cs.map .mark ++ ts) = ofTokens ts := by
  induction cs with
  | nil => rfl
  | cons c cs ih =>
    have hblank : (Token.mark c).isBlank := h c (List.mem_cons_self ..)
    rw [List.map_cons, List.cons_append, ofTokens, if_pos hblank]
    exact ih fun d hd => h d (List.mem_cons_of_mem _ hd)

theorem ofTokens_append_blanks (ts : List Token) :
    ofTokens (ts ++ cs.map .mark) = ofTokens ts := by
  induction ts with
  | nil =>
    have hblanks := ofTokens_blanks_append h []
    rwa [List.append_nil] at hblanks
  | cons t ts ih =>
    rw [List.cons_append, ofTokens, ofTokens, ih, ← List.cons_append, trimmed_append_blanks h]

theorem ofItems_parts_append (is : List Item) : ofItems (parts cs ++ is) = ofItems is := by
  unfold ofItems
  rw [List.filterMap_append, tokens_parts, ofTokens_blanks_append h]

theorem ofItems_append_parts (is : List Item) : ofItems (is ++ parts cs) = ofItems is := by
  unfold ofItems
  rw [List.filterMap_append, tokens_parts, ofTokens_append_blanks h]

end Operand

end

/-! ### Conditions next to each other -/

theorem meet_cons {α : Type} {xs : List (List α)} (hxs : xs ≠ []) (x : List α)
    (ys : List (List α)) : meet (x :: xs) ys = x :: meet xs ys := by
  cases xs with
  | nil => exact absurd rfl hxs
  | cons x' xs => rw [meet]

theorem meet_modifyHead {α : Type} (a : α) {xs : List (List α)} (hxs : xs ≠ [])
    (ys : List (List α)) :
    meet (xs.modifyHead (a :: ·)) ys = (meet xs ys).modifyHead (a :: ·) := by
  match xs, ys with
  | [], _ => exact absurd rfl hxs
  | [x], [] => rfl
  | [x], y :: ys => rfl
  | x :: x' :: xs, ys => rfl

/-- Lists that stand next to each other are divided next to each other. -/
theorem splitOnP_append {α : Type} (p : α → Bool) (xs ys : List α) :
    (xs ++ ys).splitOnP p = meet (xs.splitOnP p) (ys.splitOnP p) := by
  induction xs with
  | nil =>
    obtain ⟨y, rest, hys⟩ := List.exists_cons_of_ne_nil (List.splitOnP_ne_nil p ys)
    rw [List.nil_append, List.splitOnP_nil, hys, meet, List.nil_append]
  | cons x xs ih =>
    have hxs := List.splitOnP_ne_nil p xs
    rw [List.cons_append, List.splitOnP_cons_eq_if_modifyHead,
      List.splitOnP_cons_eq_if_modifyHead, ih]
    split
    · exact (meet_cons hxs [] _).symm
    · exact (meet_modifyHead x hxs _).symm

/-- What is the same for every list and what follows on it is the same for divided lists. -/
theorem map_meet {α β : Type} {f : List α → List β} {y : List α} {z : List β}
    (hf : ∀ x, f (x ++ y) = f x ++ z) {xs : List (List α)} (hxs : xs ≠ []) (ys : List (List α)) :
    (meet xs (y :: ys)).map f = meet (xs.map f) (z :: ys.map f) := by
  match xs with
  | [] => exact absurd rfl hxs
  | [x] => simp only [meet, List.map_cons, List.map_nil, hf]
  | x :: x' :: xs =>
    have htail := map_meet hf (List.cons_ne_nil x' xs) ys
    rw [meet, List.map_cons, htail]
    rfl

theorem map_meet_singleton {α β : Type} {f : List α → β} {y : List α}
    (hf : ∀ x, f (x ++ y) = f x) {xs : List (List α)} (hxs : xs ≠ []) :
    (meet xs [y]).map f = xs.map f := by
  match xs with
  | [] => exact absurd rfl hxs
  | [x] => simp only [meet, List.map_cons, List.map_nil, hf]
  | x :: x' :: xs =>
    rw [meet, List.map_cons, map_meet_singleton hf (List.cons_ne_nil x' xs)]
    rfl

theorem splitOnP_parts {p : Item → Bool} (hp : ∀ t, p (.part t) = false) (cs : List Char) :
    (parts cs).splitOnP p = [parts cs] := by
  refine List.splitOnP_eq_singleton fun i hi => ?_
  obtain ⟨c, -, rfl⟩ := List.mem_map.mp hi
  exact hp _

theorem operands_append_parts {cs : List Char} (h : ∀ c ∈ cs, c.isWhitespace) (is : List Item) :
    operands (is ++ parts cs) = operands is := by
  unfold operands
  rw [splitOnP_append, splitOnP_parts (fun _ => rfl)]
  exact map_meet_singleton (Operand.ofItems_append_parts h) (List.splitOnP_ne_nil _ _)

theorem operands_parts_append {cs : List Char} (h : ∀ c ∈ cs, c.isWhitespace) (is : List Item) :
    operands (parts cs ++ is) = operands is := by
  unfold operands
  rw [splitOnP_append, splitOnP_parts (fun _ => rfl)]
  obtain ⟨i, rest, his⟩ := List.exists_cons_of_ne_nil (List.splitOnP_ne_nil Item.isAnd is)
  rw [his, meet, List.map_cons, Operand.ofItems_parts_append h, List.map_cons]

/-- An AND between two conditions, with blanks around it. -/
theorem alternatives_and {cs ds : List Char} (hc : ∀ c ∈ cs, c.isWhitespace)
    (hd : ∀ d ∈ ds, d.isWhitespace) (is js : List Item) :
    alternatives (is ++ (parts cs ++ .and :: parts ds ++ js)) =
      meet (alternatives is) (alternatives js) := by
  have hbetween : (parts cs ++ .and :: parts ds).splitOnP Item.isOr =
      [parts cs ++ .and :: parts ds] := by
    refine List.splitOnP_eq_singleton fun i hi => ?_
    simp only [parts, List.mem_append, List.mem_cons, List.mem_map] at hi
    rcases hi with ⟨_, _, rfl⟩ | rfl | ⟨_, _, rfl⟩ <;> rfl
  have hoperands : ∀ a b, operands (a ++ (parts cs ++ .and :: parts ds ++ b)) =
      operands a ++ operands b := by
    intro a b
    rw [List.append_assoc, List.cons_append, ← List.append_assoc]
    show ((a ++ parts cs ++ .and :: (parts ds ++ b)).splitOnP Item.isAnd).map _ = _
    rw [List.splitOnP_append_cons _ _ rfl, List.map_append]
    exact congrArg₂ (· ++ ·) (operands_append_parts hc a) (operands_parts_append hd b)
  unfold alternatives
  rw [splitOnP_append, splitOnP_append, hbetween]
  obtain ⟨j, rest, hjs⟩ := List.exists_cons_of_ne_nil (List.splitOnP_ne_nil Item.isOr js)
  rw [hjs, meet, map_meet (fun a => hoperands a j) (List.splitOnP_ne_nil _ _), List.map_cons]

theorem isWhole_meet {as bs : List (List Operand)} (ha : isWhole as) (hb : isWhole bs) :
    isWhole (meet as bs) := by
  match as, bs with
  | [], _ => exact hb
  | [_], [] => exact ha
  | [a], b :: bs =>
    simp only [isWhole, meet, List.all_cons, List.all_append, List.all_nil, Bool.and_true,
      Bool.and_eq_true] at ha hb ⊢
    exact ⟨⟨ha, hb.1⟩, hb.2⟩
  | a :: a' :: as, bs =>
    rw [isWhole, List.all_cons, Bool.and_eq_true] at ha
    rw [meet, isWhole, List.all_cons, Bool.and_eq_true]
    exact ⟨ha.1, isWhole_meet ha.2 hb⟩

theorem isWhitespace_iff {c : Char} :
    c.isWhitespace ↔ c = ' ' ∨ c = '\t' ∨ c = '\r' ∨ c = '\n' := by
  simp [Char.isWhitespace, or_assoc]

/-- The signs of characters that are all in sight. -/
def inSight (cs : List Char) : List Sign := cs.map fun c => ⟨c, true⟩

/-- Blanks are in sight. -/
theorem signs_blanks {cs : List Char} (h : ∀ c ∈ cs, c.isWhitespace) :
    signs cs = some (inSight cs) := by
  induction cs with
  | nil => rfl
  | cons c cs ih =>
    refine signsFrom_cons_eq_some.mpr
      ⟨.outside, _, ?_, ih fun d hd => h d (List.mem_cons_of_mem _ hd), rfl⟩
    rcases isWhitespace_iff.mp (h c (List.mem_cons_self ..)) with rfl | rfl | rfl | rfl <;> rfl

/-- Blanks divide the words on both sides of them. -/
theorem tokens_append_blanks {cs : List Char} (h : ∀ c ∈ cs, c.isWhitespace) (hne : cs ≠ [])
    (xs ys : List Sign) :
    tokens (xs ++ (inSight cs ++ ys)) = tokens xs ++ (cs.map .mark ++ tokens ys) := by
  have hblank : ∀ c ∈ cs, (⟨c, true⟩ : Sign).inWord = false := by
    intro c hc
    rcases isWhitespace_iff.mp (h c hc) with rfl | rfl | rfl | rfl <;> rfl
  have htokens : ∀ ds, ds ⊆ cs → tokens (inSight ds ++ ys) = ds.map .mark ++ tokens ys := by
    intro ds hds
    induction ds with
    | nil => rfl
    | cons d ds ih =>
      have hrest := ih fun c hc => hds (List.mem_cons_of_mem _ hc)
      show tokens (⟨d, true⟩ :: (inSight ds ++ ys)) = _
      rw [tokens_cons_mark (hblank d (hds (List.mem_cons_self ..))), hrest]
      rfl
  obtain ⟨c, rest, rfl⟩ := List.exists_cons_of_ne_nil hne
  show tokens (xs ++ ⟨c, true⟩ :: (inSight rest ++ ys)) = _
  rw [tokens_append_mark (hblank c (List.mem_cons_self ..)),
    htokens rest fun d hd => List.mem_cons_of_mem _ hd]
  rfl

/-- The word AND with blanks around it puts two conditions next to each other. -/
theorem read_and {cs : List Char} (hc : ∀ c ∈ cs, c.isWhitespace) (hne : cs ≠ []) {x y : String}
    {as bs : List (List Operand)} (hx : read x = some as) (hy : read y = some bs) :
    read (x ++ (String.ofList cs ++ "AND ") ++ y) = some (meet as bs) := by
  obtain ⟨ss, is, hss, his, rfl, ha⟩ := read_eq_some_iff.mp hx
  obtain ⟨ts, js, hts, hjs, rfl, hb⟩ := read_eq_some_iff.mp hy
  have hspace : ∀ c ∈ [' '], c.isWhitespace := List.forall_mem_singleton.mpr rfl
  have hword : signs ['A', 'N', 'D'] = some (inSight ['A', 'N', 'D']) := by decide
  have hand : items (tokens (inSight ['A', 'N', 'D'])) = some [.and] := by decide
  refine read_eq_some_iff.mpr ⟨ss ++ (inSight cs ++ (inSight ['A', 'N', 'D'] ++
    (inSight [' '] ++ ts))), _, ?_, ?_, alternatives_and hc hspace is js, isWhole_meet ha hb⟩
  · have hall := signs_append hss (signs_append (signs_blanks hc) (signs_append hword
      (signs_append (signs_blanks hspace) hts)))
    simpa [String.toList_append] using hall
  · have hall := items_append his (items_append (items_marks cs)
      (items_append hand (items_append (items_marks [' ']) hjs)))
    rw [tokens_append_blanks hc hne, tokens_append_blanks hspace (List.cons_ne_nil _ _)]
    rw [hall]
    simp only [parts, List.append_assoc, List.cons_append, List.nil_append]

/-- A BETWEEN keeps its AND, and what is quoted or in brackets is out of sight. -/
example : read "not late and delay between 1 and 5 OR name = 'a OR b' AND (x OR y)" =
    some [[⟨1, "late"⟩, ⟨0, "delay between 1 and 5"⟩],
      [⟨0, "name = 'a OR b'"⟩, ⟨0, "(x OR y)"⟩]] := by
  decide +kernel

/-! ### Several conditions -/

/-- Conditions that ask for their operands together. -/
def conjunction : List (List (List Operand)) → List (List Operand)
  | [] => []
  | [as] => as
  | as :: as' :: rest => meet as (conjunction (as' :: rest))

/-- **Conditions with AND between them ask for their operands together.** -/
theorem read_intercalate {cs : List Char} (hc : ∀ c ∈ cs, c.isWhitespace) (hne : cs ≠ [])
    {texts : List String} {readings : List (List (List Operand))} (htexts : texts ≠ [])
    (h : List.Forall₂ (fun text as => read text = some as) texts readings) :
    read (String.intercalate (String.ofList cs ++ "AND ") texts) = some (conjunction readings) := by
  induction h with
  | nil => exact absurd rfl htexts
  | cons hfirst hrest ih =>
    cases hrest with
    | nil => rwa [String.intercalate_singleton]
    | cons hsecond hrest =>
      rw [String.intercalate_cons_cons]
      exact read_and hc hne hfirst (ih (List.cons_ne_nil _ _))

theorem ne_nil_of_read {text : String} {as : List (List Operand)} (h : read text = some as) :
    as ≠ [] := by
  obtain ⟨_, is, -, -, rfl, -⟩ := read_eq_some_iff.mp h
  simp [alternatives, List.splitOnP_ne_nil]

theorem meet_ne_nil {α : Type} {xs : List (List α)} (hxs : xs ≠ []) (ys : List (List α)) :
    meet xs ys ≠ [] := by
  match xs, ys with
  | [], _ => exact absurd rfl hxs
  | [x], [] => exact List.cons_ne_nil _ _
  | [x], y :: ys => exact List.cons_ne_nil _ _
  | x :: x' :: xs, ys => exact List.cons_ne_nil _ _

theorem meet_eq_singleton_iff {α : Type} {xs ys : List (List α)} (hx : xs ≠ []) (hy : ys ≠ [])
    {z : List α} : meet xs ys = [z] ↔ ∃ x y, xs = [x] ∧ ys = [y] ∧ z = x ++ y := by
  match xs, ys with
  | [], _ => exact absurd rfl hx
  | _, [] => exact absurd rfl hy
  | [x], y :: ys => simp [meet, eq_comm, and_comm]
  | x :: x' :: xs, ys => simp [meet, meet_ne_nil]

theorem conjunction_ne_nil {readings : List (List (List Operand))} (hne : readings ≠ [])
    (h : ∀ as ∈ readings, as ≠ []) : conjunction readings ≠ [] := by
  match readings with
  | [] => exact absurd rfl hne
  | [as] => exact h as (List.mem_singleton_self as)
  | as :: as' :: rest => exact meet_ne_nil (h as (List.mem_cons_self ..)) _

/-- There is one alternative if every condition has one. It asks for the operands of all of them. -/
theorem conjunction_eq_singleton_iff {readings : List (List (List Operand))} (hne : readings ≠ [])
    (h : ∀ as ∈ readings, as ≠ []) {os : List Operand} :
    conjunction readings = [os] ↔
      ∃ groups : List (List Operand), readings = groups.map ([·]) ∧ os = groups.flatten := by
  match readings with
  | [] => exact absurd rfl hne
  | [as] =>
    rw [conjunction]
    constructor
    · rintro rfl
      exact ⟨[os], rfl, by simp⟩
    · rintro ⟨groups, hgroups, rfl⟩
      obtain ⟨group, rfl⟩ : ∃ group, groups = [group] := by
        rw [← List.length_eq_one_iff]
        simpa using congrArg List.length hgroups.symm
      simpa using hgroups
  | as :: as' :: rest =>
    have htail : ∀ bs ∈ as' :: rest, bs ≠ [] := fun bs hbs => h bs (List.mem_cons_of_mem _ hbs)
    have ih (y : List Operand) :=
      @conjunction_eq_singleton_iff _ (List.cons_ne_nil as' rest) htail y
    rw [conjunction, meet_eq_singleton_iff (h as (List.mem_cons_self ..))
      (conjunction_ne_nil (List.cons_ne_nil _ _) htail)]
    constructor
    · rintro ⟨x, y, rfl, hy, rfl⟩
      obtain ⟨groups, hgroups, rfl⟩ := (ih y).mp hy
      exact ⟨x :: groups, by rw [hgroups]; rfl, rfl⟩
    · rintro ⟨groups, hgroups, rfl⟩
      cases groups with
      | nil => cases hgroups
      | cons group groups =>
        obtain ⟨rfl, hrest⟩ := List.cons_eq_cons.mp hgroups
        exact ⟨group, groups.flatten, rfl, (ih _).mpr ⟨groups, hrest, rfl⟩, rfl⟩

end QueryBuilder.Condition
