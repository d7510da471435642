import Mathlib.Computability.RegularExpressions
import Mathlib.Tactic.IntervalCases
import NativeCall.Format.Text

/-!
Which texts are shapes. The written form of a shape is a regular language of six optional parts, and
a digit could play the part of any of its three counts. Reading from left to right without ever
going back accepts all of that language: `Format.Spells` fixes which digit is which count, and
`Format.parse_eq_ok_iff` says that reading finds exactly these counts.
-/

set_option autoImplicit false
set_option relaxedAutoImplicit false

namespace NativeCall.Format

def shown (present : Bool) (m : Char) : List Char :=
  if present then [m] else []

def digitCount (c : Char) : UInt8 :=
  UInt8.ofNat (c.toNat - 48)

def countAt (run : List Char) (i : Nat) : UInt8 :=
  (run[i]?.map digitCount).getD 0

/-- Which digit of a text is which count. At most two digits stand before the place of `*`, and at
most one after it. Without `*` a digit is the trailing count only if it is the third of its run. -/
inductive Spells : List Char → Format → Prop where
  | intro (before after : List Char) (rest keywords block : Bool)
      (digits : ∀ c ∈ before, c.isDigit = true) (digits' : ∀ c ∈ after, c.isDigit = true)
      (two : before.length ≤ 2) (one : after.length ≤ 1)
      (placed : rest = true ∨ before.length = 2 ∨ after = []) :
      Spells (before ++ shown rest '*' ++ after ++ shown keywords ':' ++ shown block '&')
        ⟨countAt before 0, countAt before 1, rest, countAt after 0, keywords, block⟩

private theorem mem_shown (present : Bool) (m c : Char) :
    c ∈ shown present m ↔ present = true ∧ c = m := by
  cases present <;> simp [shown]

private theorem Spells.marks {text : List Char} {format : Format} (spells : Spells text format) :
    (format.rest = true ↔ '*' ∈ text) ∧ (format.keywords = true ↔ ':' ∈ text) ∧
      (format.block = true ↔ '&' ∈ text) := by
  cases spells with
  | intro before after rest keywords block digits digits' two one placed =>
    have other (m : Char) (noDigit : ¬ m.isDigit = true) : m ∉ before ∧ m ∉ after :=
      ⟨fun found => noDigit (digits m found), fun found => noDigit (digits' m found)⟩
    simp [mem_shown, other '*' (by decide), other ':' (by decide), other '&' (by decide)]

private theorem digit?_cons {c : Char} (digit : c.isDigit = true) (text : List Char) :
    digit? (c :: text) = (some (digitCount c), text) := by
  simp only [digit?, digit, ↓reduceIte, digitCount]

private theorem digit?_stop {text : List Char} (stop : ∀ c ∈ text.head?, c.isDigit = false) :
    digit? text = (none, text) := by
  cases text with
  | nil => rfl
  | cons c text => simp only [digit?, stop c rfl, Bool.false_eq_true, ↓reduceIte]

private theorem mark_shown {m : Char} {text : List Char} (present : Bool)
    (stop : ∀ c ∈ text.head?, c ≠ m) : mark m (shown present m ++ text) = (present, text) := by
  cases present with
  | true => simp [shown, mark]
  | false =>
    cases text with
    | nil => rfl
    | cons c text =>
      have other : c ≠ m := stop c rfl
      simp [shown, mark, other]

/-- A run of at most two digits is the leading count and the optional count. After two digits even a
digit may follow. -/
theorem counts_append {run text : List Char} (digits : ∀ c ∈ run, c.isDigit = true)
    (two : run.length ≤ 2)
    (stop : run.length = 2 ∨ ∀ c ∈ text.head?, c.isDigit = false) :
    counts (run ++ text) = (countAt run 0, countAt run 1, text) := by
  match run, digits, two, stop with
  | [], _, _, stop =>
    have stop : ∀ c ∈ text.head?, c.isDigit = false := stop.resolve_left (by simp)
    simp only [List.nil_append, counts, digit?_stop stop]
    rfl
  | [a], digits, _, stop =>
    have stop : ∀ c ∈ text.head?, c.isDigit = false := stop.resolve_left (by simp)
    have ha : a.isDigit = true := digits a (by simp)
    simp only [List.singleton_append, counts, digit?_cons ha, digit?_stop stop]
    rfl
  | [a, b], digits, _, _ =>
    have ha : a.isDigit = true := digits a (by simp)
    have hb : b.isDigit = true := digits b (by simp)
    simp only [List.cons_append, List.nil_append, counts, digit?_cons ha, digit?_cons hb]
    rfl
  | _ :: _ :: _ :: _, _, two, _ => simp at two

private theorem digit?_append {run text : List Char} (digits : ∀ c ∈ run, c.isDigit = true)
    (one : run.length ≤ 1) (stop : ∀ c ∈ text.head?, c.isDigit = false) :
    (digit? (run ++ text)).1.getD 0 = countAt run 0 ∧ (digit? (run ++ text)).2 = text := by
  match run, digits, one with
  | [], _, _ =>
    rw [List.nil_append, digit?_stop stop]
    exact ⟨rfl, rfl⟩
  | [a], digits, _ =>
    rw [List.singleton_append, digit?_cons (digits a (by simp))]
    exact ⟨rfl, rfl⟩
  | _ :: _ :: _, _, one => simp at one

theorem Spells.read {text : List Char} {format : Format} (spells : Spells text format) :
    Format.read text = (format, []) := by
  cases spells with
  | intro before after rest keywords block digits digits' two one placed =>
    -- what follows a part never begins with what that part would take
    have followsAfter : ∀ c ∈ (shown keywords ':' ++ shown block '&').head?, c.isDigit = false := by
      cases keywords <;> cases block <;> simp [shown]
    have followsRest : ∀ c ∈ (after ++ (shown keywords ':' ++ shown block '&')).head?, c ≠ '*' := by
      cases after with
      | nil => cases keywords <;> cases block <;> simp [shown]
      | cons d after =>
        have digit : d.isDigit = true := digits' d (by simp)
        simp only [List.cons_append, List.head?_cons, Option.mem_some_iff, forall_eq']
        rintro rfl
        cases digit
    have followsBefore : before.length = 2 ∨ ∀ c ∈ (shown rest '*' ++
        (after ++ (shown keywords ':' ++ shown block '&'))).head?, c.isDigit = false := by
      rcases placed with rfl | full | rfl
      · exact .inr (by simp [shown])
      · exact .inl full
      · refine .inr ?_
        cases rest with
        | true => simp [shown]
        | false => exact followsAfter
    have followsKeywords : ∀ c ∈ (shown block '&').head?, c ≠ ':' := by
      cases block <;> simp [shown]
    have last : mark '&' (shown block '&') = (block, []) := by cases block <;> rfl
    obtain ⟨count, left⟩ := digit?_append digits' one followsAfter
    simp only [Format.read, List.append_assoc, counts_append digits two followsBefore,
      mark_shown rest followsRest, count, left, mark_shown keywords followsKeywords, last]

private theorem eq_of_digit? (text : List Char) :
    ∃ run, text = run ++ (digit? text).2 ∧ (∀ c ∈ run, c.isDigit = true) ∧ run.length ≤ 1 ∧
      (digit? text).1.getD 0 = countAt run 0 ∧ ((digit? text).1 = none → run = []) := by
  cases text with
  | nil => exact ⟨[], rfl, by simp, by simp, rfl, fun _ => rfl⟩
  | cons c text =>
    cases digit : c.isDigit with
    | true =>
      rw [digit?_cons digit]
      exact ⟨[c], rfl, by simpa using digit, by simp, rfl, fun none => nomatch none⟩
    | false =>
      rw [digit?_stop (by simpa using digit)]
      exact ⟨[], rfl, by simp, by simp, rfl, fun _ => rfl⟩

private theorem eq_of_mark (m : Char) (text : List Char) :
    text = shown (mark m text).1 m ++ (mark m text).2 := by
  cases text with
  | nil => rfl
  | cons c text =>
    by_cases same : c = m
    · simp [mark, shown, same]
    · simp [mark, shown, same]

/-- The run that the leading and the optional count are read from. It is shorter than two digits
only where no digit follows. -/
theorem eq_of_counts (text : List Char) :
    ∃ run, text = run ++ (counts text).2.2 ∧ (∀ c ∈ run, c.isDigit = true) ∧ run.length ≤ 2 ∧
      (counts text).1 = countAt run 0 ∧ (counts text).2.1 = countAt run 1 ∧
      (run.length = 2 ∨ (digit? (counts text).2.2).1 = none) := by
  cases text with
  | nil => exact ⟨[], rfl, by simp, by simp, rfl, rfl, .inr rfl⟩
  | cons a text =>
    cases ha : a.isDigit with
    | false =>
      have stop : digit? (a :: text) = (none, a :: text) := digit?_stop (by simpa using ha)
      simp only [counts, stop]
      exact ⟨[], rfl, by simp, by simp, rfl, rfl, .inr trivial⟩
    | true =>
      cases text with
      | nil =>
        simp only [counts, digit?_cons ha]
        exact ⟨[a], rfl, by simpa using ha, by simp, rfl, rfl, .inr rfl⟩
      | cons b text =>
        cases hb : b.isDigit with
        | false =>
          have stop : digit? (b :: text) = (none, b :: text) := digit?_stop (by simpa using hb)
          simp only [counts, digit?_cons ha, stop]
          exact ⟨[a], rfl, by simpa using ha, by simp, rfl, rfl, .inr trivial⟩
        | true =>
          simp only [counts, digit?_cons ha, digit?_cons hb]
          exact ⟨[a, b], rfl, by simp [ha, hb], by simp, rfl, rfl, .inl rfl⟩

private theorem spells_read (text : List Char) :
    ∃ spelling, text = spelling ++ (Format.read text).2 ∧ Spells spelling (Format.read text).1 := by
  obtain ⟨before, cut, digits, two, leading, optional, full⟩ := eq_of_counts text
  have star := eq_of_mark '*' (counts text).2.2
  obtain ⟨after, cut', digits', one, trailing, none⟩ :=
    eq_of_digit? (mark '*' (counts text).2.2).2
  have colon := eq_of_mark ':' (digit? (mark '*' (counts text).2.2).2).2
  have ampersand := eq_of_mark '&' (mark ':' (digit? (mark '*' (counts text).2.2).2).2).2
  have placed : (mark '*' (counts text).2.2).1 = true ∨ before.length = 2 ∨ after = [] := by
    rcases full with full | stop
    · exact .inr (.inl full)
    · cases unmarked : (mark '*' (counts text).2.2).1 with
      | true => exact .inl rfl
      | false =>
        -- nothing was taken off for the mark, so the digit is looked for at the same place
        rw [unmarked] at star
        have same : (counts text).2.2 = (mark '*' (counts text).2.2).2 := star
        rw [← same, stop] at none
        exact .inr (.inr (none rfl))
  have spells := Spells.intro before after (mark '*' (counts text).2.2).1
    (mark ':' (digit? (mark '*' (counts text).2.2).2).2).1
    (mark '&' (mark ':' (digit? (mark '*' (counts text).2.2).2).2).2).1
    digits digits' two one placed
  rw [← leading, ← optional, ← trailing] at spells
  refine ⟨_, ?_, spells⟩
  conv_lhs => rw [cut, star, cut', colon, ampersand]
  simp only [List.append_assoc]
  rfl

private theorem read_eq_nil_iff (text : List Char) (format : Format) :
    Format.read text = (format, []) ↔ Spells text format := by
  constructor
  · intro done
    obtain ⟨spelling, cut, spells⟩ := spells_read text
    rw [done] at cut spells
    rw [cut, List.append_nil]
    exact spells
  · exact Spells.read

theorem parse_eq_ok_iff (text : String) (format : Format) :
    parse text = .ok format ↔ Spells text.toList format := by
  rw [← read_eq_nil_iff]
  unfold parse
  cases Format.read text.toList with
  | mk found left =>
    cases left with
    | nil => simp
    | cons c left => simp

private theorem parse_eq_error_iff (text : String) (e : ScanError) :
    parse text = .error e ↔
      (∀ format, ¬ Spells text.toList format) ∧ e = .invalidFormat text := by
  simp only [← parse_eq_ok_iff]
  unfold parse
  cases Format.read text.toList with
  | mk found left =>
    cases left with
    | nil => simp
    | cons c left => simp [eq_comm]

namespace Grammar

open RegularExpression

def digit : RegularExpression Char :=
  char '0' + char '1' + char '2' + char '3' + char '4' + char '5' + char '6' + char '7' + char '8'
    + char '9'

def maybe (part : RegularExpression Char) : RegularExpression Char :=
  part + 1

def expression : RegularExpression Char :=
  maybe digit * maybe digit * maybe (char '*') * maybe digit * maybe (char ':') * maybe (char '&')

theorem exists_digitChar {c : Char} (digit : c.isDigit = true) :
    ∃ n, n < 10 ∧ c = n.digitChar := by
  rw [Char.isDigit_iff_toNat] at digit
  have low : 48 ≤ c.toNat := digit.1
  have high : c.toNat ≤ 57 := digit.2
  refine ⟨c.toNat - 48, by omega, ?_⟩
  apply Char.toNat_inj.1
  rw [Nat.toNat_digitChar_of_lt_ten (by omega)]
  omega

private theorem mem_char (m : Char) (text : List Char) : text ∈ (char m).matches' ↔ text = [m] :=
  Iff.rfl

private theorem mem_digit (text : List Char) :
    text ∈ digit.matches' ↔ ∃ c, text = [c] ∧ c.isDigit = true := by
  simp only [digit, matches'_add, Language.mem_add, mem_char]
  constructor
  · rintro (((((((((rfl | rfl) | rfl) | rfl) | rfl) | rfl) | rfl) | rfl) | rfl) | rfl) <;>
      exact ⟨_, rfl, rfl⟩
  · rintro ⟨c, rfl, isDigit⟩
    obtain ⟨n, small, rfl⟩ := exists_digitChar isDigit
    interval_cases n <;> simp

private theorem mem_maybe (part : RegularExpression Char) (text : List Char) :
    text ∈ (maybe part).matches' ↔ text ∈ part.matches' ∨ text = [] := by
  rw [maybe, matches'_add, matches'_epsilon, Language.mem_add, Language.mem_one]

private theorem mem_maybe_digit (text : List Char) :
    text ∈ (maybe digit).matches' ↔ text.length ≤ 1 ∧ ∀ c ∈ text, c.isDigit = true := by
  rw [mem_maybe, mem_digit]
  match text with
  | [] => simp
  | [c] => simp
  | _ :: _ :: _ => simp

private theorem mem_maybe_char (m : Char) (text : List Char) :
    text ∈ (maybe (char m)).matches' ↔ ∃ present, text = shown present m := by
  rw [mem_maybe, mem_char]
  constructor
  · rintro (rfl | rfl)
    · exact ⟨true, rfl⟩
    · exact ⟨false, rfl⟩
  · rintro ⟨present, rfl⟩
    cases present with
    | true => exact .inl rfl
    | false => exact .inr rfl

private theorem mem_expression (text : List Char) :
    text ∈ expression.matches' ↔
      ∃ a b c : List Char, ∃ rest keywords block : Bool,
        (∀ run ∈ [a, b, c], run.length ≤ 1 ∧ ∀ d ∈ run, d.isDigit = true) ∧
        text = a ++ b ++ shown rest '*' ++ c ++ shown keywords ':' ++ shown block '&' := by
  simp only [expression, matches'_mul, Language.mem_mul, mem_maybe_digit, mem_maybe_char]
  constructor
  · rintro ⟨_, ⟨_, ⟨_, ⟨_, ⟨a, ha, b, hb, rfl⟩, _, ⟨rest, rfl⟩, rfl⟩, c, hc, rfl⟩, _,
      ⟨keywords, rfl⟩, rfl⟩, _, ⟨block, rfl⟩, rfl⟩
    exact ⟨a, b, c, rest, keywords, block, by simpa using ⟨ha, hb, hc⟩, rfl⟩
  · rintro ⟨a, b, c, rest, keywords, block, runs, rfl⟩
    exact ⟨_, ⟨_, ⟨_, ⟨_, ⟨a, runs a (by simp), b, runs b (by simp), rfl⟩, _, ⟨rest, rfl⟩, rfl⟩, c,
      runs c (by simp), rfl⟩, _, ⟨keywords, rfl⟩, rfl⟩, _, ⟨block, rfl⟩, rfl⟩

end Grammar

/-- The language allows a digit in more places than a spelling does, but no more texts. -/
theorem spells_iff_matches (text : List Char) :
    (∃ format, Spells text format) ↔ text ∈ Grammar.expression.matches' := by
  rw [Grammar.mem_expression]
  constructor
  · rintro ⟨format, before, after, rest, keywords, block, digits, digits', two, one, -⟩
    refine ⟨before.take 1, before.drop 1, after, rest, keywords, block, ?_, ?_⟩
    · intro run found
      simp only [List.mem_cons, List.not_mem_nil, or_false] at found
      rcases found with rfl | rfl | rfl
      · exact ⟨List.length_take_le .., fun c inside => digits c (List.mem_of_mem_take inside)⟩
      · refine ⟨?_, fun c inside => digits c (List.mem_of_mem_drop inside)⟩
        rw [List.length_drop]
        omega
      · exact ⟨one, digits'⟩
    · rw [List.take_append_drop]
  · rintro ⟨a, b, c, rest, keywords, block, runs, rfl⟩
    obtain ⟨ha, da⟩ := runs a (by simp)
    obtain ⟨hb, db⟩ := runs b (by simp)
    obtain ⟨hc, dc⟩ := runs c (by simp)
    have digits : ∀ d ∈ a ++ b ++ c, d.isDigit = true := by
      intro d found
      simp only [List.mem_append] at found
      rcases found with (inA | inB) | inC
      · exact da d inA
      · exact db d inB
      · exact dc d inC
    cases rest with
    | true =>
      have two : (a ++ b).length ≤ 2 := by
        rw [List.length_append]
        omega
      exact ⟨_, .intro (a ++ b) c true keywords block
        (fun d found => digits d (List.mem_append_left _ found)) dc two hc (.inl rfl)⟩
    | false =>
      -- the digits are one run, of which the first two are the leading and the optional count
      have whole := List.take_append_drop 2 (a ++ b ++ c)
      have one : ((a ++ b ++ c).drop 2).length ≤ 1 := by
        simp only [List.length_drop, List.length_append]
        omega
      have placed : ((a ++ b ++ c).take 2).length = 2 ∨ (a ++ b ++ c).drop 2 = [] := by
        simp only [List.length_take, List.drop_eq_nil_iff]
        omega
      have spells := Spells.intro ((a ++ b ++ c).take 2) ((a ++ b ++ c).drop 2) false keywords block
        (fun d found => digits d (List.mem_of_mem_take found))
        (fun d found => digits d (List.mem_of_mem_drop found)) (List.length_take_le ..) one
        (.inr placed)
      have unmarked (run : List Char) : run ++ shown false '*' = run := List.append_nil run
      rw [unmarked, whole] at spells
      rw [unmarked]
      exact ⟨_, spells⟩

/-- Reading accepts exactly the language of `\d?\d?\*?\d?:?&?`, although it never goes back. What it
reads is spelled out by the text, each of whose characters counts once, and a refusal carries the
text as it is. -/
theorem parse_recognizes (text : String) :
    ((∃ format, parse text = .ok format) ↔ text.toList ∈ Grammar.expression.matches') ∧
    (∀ format, parse text = .ok format ↔ Spells text.toList format) ∧
    (∀ format, parse text = .ok format →
      (format.rest = true ↔ '*' ∈ text.toList) ∧ (format.keywords = true ↔ ':' ∈ text.toList) ∧
        (format.block = true ↔ '&' ∈ text.toList)) ∧
    (∀ e, parse text = .error e ↔
      text.toList ∉ Grammar.expression.matches' ∧ e = .invalidFormat text) := by
  have language := spells_iff_matches text.toList
  refine ⟨?_, parse_eq_ok_iff text, fun format read => ?_, fun e => ?_⟩
  · simp only [parse_eq_ok_iff, language]
  · exact ((parse_eq_ok_iff text format).1 read).marks
  · rw [parse_eq_error_iff, ← language, not_exists]

theorem parse_recognizes_every_part :
    let text := "21*1:&"
    let format : Format := ⟨2, 1, true, 1, true, true⟩
    parse text = .ok format ∧ text.toList ∈ Grammar.expression.matches' ∧
      (format.rest = true ↔ '*' ∈ text.toList) ∧ (format.keywords = true ↔ ':' ∈ text.toList) ∧
      (format.block = true ↔ '&' ∈ text.toList) := by
  intro text format
  have read : parse text = .ok format := by decide
  obtain ⟨language, -, marks, -⟩ := parse_recognizes text
  exact ⟨read, language.1 ⟨format, read⟩, marks format read⟩

example : parse "123" = .ok ⟨1, 2, false, 3, false, false⟩ ∧
    parse "1234" = .error (.invalidFormat "1234") := by decide

end NativeCall.Format
