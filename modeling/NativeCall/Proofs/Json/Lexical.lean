import Mathlib.Data.List.Chain
import Mathlib.Data.List.TakeWhile
import NativeCall.Json.Token

/-!
The words of JSON. A text spells a list of tokens if it consists of their written forms, with blanks
between them. `Token.readAll_of_spells` says that the tokens are read back from any such text, as
long as no two numbers stand side by side, and `Token.spells_of_readAll` that nothing else is read.
-/

set_option autoImplicit false
set_option relaxedAutoImplicit false

namespace NativeCall.Json

open Text

theorem span_append {p : Char → Bool} {run rest : List Char} (all : ∀ c ∈ run, p c = true)
    (stop : ∀ c ∈ rest.head?, p c = false) :
    (run ++ rest).takeWhile p = run ∧ (run ++ rest).dropWhile p = rest := by
  rw [List.takeWhile_append_of_pos all, List.dropWhile_append_of_pos all]
  cases rest with
  | nil => exact ⟨List.append_nil run, rfl⟩
  | cons c rest =>
    have other : ¬ p c = true := by rw [stop c rfl]; exact Bool.false_ne_true
    rw [List.takeWhile_cons_of_neg other, List.dropWhile_cons_of_neg other, List.append_nil]
    exact ⟨rfl, rfl⟩

namespace Numeral

def Digits (run : List Char) : Prop :=
  run ≠ [] ∧ ∀ c ∈ run, c.isDigit = true

def Whole (run : List Char) : Prop :=
  Digits run ∧ (run.head? = some '0' → run = ['0'])

inductive FractionText : Option (List Char) → List Char → Prop where
  | absent : FractionText none []
  | digits {run : List Char} (digits : Digits run) : FractionText (some run) ('.' :: run)

inductive SignText : Bool → List Char → Prop where
  | absent : SignText false []
  | plus : SignText false ['+']
  | minus : SignText true ['-']

inductive ExponentText : Option Int → List Char → Prop where
  | absent : ExponentText none []
  | power {m : Char} {negative : Bool} {sign run : List Char} (marked : m = 'e' ∨ m = 'E')
      (signed : SignText negative sign) (digits : Digits run) :
      ExponentText
        (some (if negative then -(Decimal.value run : Int) else (Decimal.value run : Int)))
        (m :: (sign ++ run))

inductive Spelled : Numeral → List Char → Prop where
  | intro {negative : Bool} {whole fractionText exponentText : List Char}
      {fraction : Option (List Char)} {exponent : Option Int} (digits : Whole whole)
      (fractional : FractionText fraction fractionText)
      (exponential : ExponentText exponent exponentText) :
      Spelled ⟨negative, whole, fraction, exponent⟩
        ((if negative then ['-'] else []) ++ (whole ++ (fractionText ++ exponentText)))

/-- A text that does not go on with a character that a numeral could take. -/
def Ends (rest : List Char) : Prop :=
  ∀ c ∈ rest.head?, c.isDigit = false ∧ c ≠ '.' ∧ c ≠ 'e' ∧ c ≠ 'E'

private theorem digits1_append {run rest : List Char} (digits : Digits run)
    (stop : ∀ c ∈ rest.head?, c.isDigit = false) : digits1 (run ++ rest) = some (run, rest) := by
  obtain ⟨taken, left⟩ := span_append digits.2 stop
  rw [digits1, taken, left]
  cases run with
  | nil => exact absurd rfl digits.1
  | cons c run => rfl

private theorem of_digits1 {text run rest : List Char} (read : digits1 text = some (run, rest)) :
    text = run ++ rest ∧ Digits run := by
  unfold digits1 at read
  split at read
  · cases read
  · next other =>
    obtain ⟨rfl, rfl⟩ := Prod.mk.inj (Option.some.inj read)
    exact ⟨List.takeWhile_append_dropWhile.symm, other, fun c => List.mem_takeWhile_imp⟩

private theorem readWhole_append {run rest : List Char} (whole : Whole run)
    (stop : ∀ c ∈ rest.head?, c.isDigit = false) : readWhole (run ++ rest) = some (run, rest) := by
  obtain ⟨digits, zero⟩ := whole
  rw [readWhole, digits1_append digits stop]
  split
  · next d run' rest' same =>
    obtain ⟨rfl, -⟩ := Prod.mk.inj (Option.some.inj same)
    cases zero rfl
  · rfl

private theorem of_readWhole {text run rest : List Char}
    (read : readWhole text = some (run, rest)) : text = run ++ rest ∧ Whole run := by
  unfold readWhole at read
  split at read
  · cases read
  · next other =>
    obtain ⟨spelled, digits⟩ := of_digits1 read
    refine ⟨spelled, digits, fun zero => ?_⟩
    match run, zero with
    | [_], first => rw [Option.some.inj first]
    | _ :: d :: run, first =>
      obtain rfl := Option.some.inj first
      exact absurd read (other d run rest)

private theorem readFraction_append {fraction : Option (List Char)} {word rest : List Char}
    (fractional : FractionText fraction word) (stop : ∀ c ∈ rest.head?, c.isDigit = false)
    (point : ∀ c ∈ rest.head?, c ≠ '.') : readFraction (word ++ rest) = some (fraction, rest) := by
  cases fractional with
  | absent =>
    cases rest with
    | nil => rfl
    | cons c rest =>
      have other := point c rfl
      rw [List.nil_append, readFraction]
      intro text same
      exact other (List.cons.inj same).1
  | digits digits =>
    rw [List.cons_append, readFraction, digits1_append digits stop]
    rfl

private theorem of_readFraction {text rest : List Char} {fraction : Option (List Char)}
    (read : readFraction text = some (fraction, rest)) :
    ∃ word, text = word ++ rest ∧ FractionText fraction word := by
  unfold readFraction at read
  split at read
  · next text =>
    obtain ⟨⟨run, after⟩, found, same⟩ := Option.map_eq_some_iff.1 read
    obtain ⟨rfl, rfl⟩ := Prod.mk.inj same
    obtain ⟨rfl, digits⟩ := of_digits1 found
    exact ⟨'.' :: run, rfl, .digits digits⟩
  · obtain ⟨rfl, rfl⟩ := Prod.mk.inj (Option.some.inj read)
    exact ⟨[], rfl, .absent⟩

private theorem readSign_append {negative : Bool} {sign run rest : List Char}
    (signed : SignText negative sign) (digits : Digits run) :
    readSign (sign ++ (run ++ rest)) = (negative, run ++ rest) := by
  cases signed with
  | plus => rfl
  | minus => rfl
  | absent =>
    cases run with
    | nil => exact absurd rfl digits.1
    | cons d run =>
      have digit := digits.2 d List.mem_cons_self
      rw [List.nil_append, List.cons_append, readSign]
      · intro text same
        rw [(List.cons.inj same).1] at digit
        cases digit
      · intro text same
        rw [(List.cons.inj same).1] at digit
        cases digit

private theorem of_readSign (text : List Char) :
    ∃ sign, text = sign ++ (readSign text).2 ∧ SignText (readSign text).1 sign := by
  unfold readSign
  split
  · exact ⟨['-'], rfl, .minus⟩
  · exact ⟨['+'], rfl, .plus⟩
  · exact ⟨[], rfl, .absent⟩

private theorem readExponent_append {exponent : Option Int} {word rest : List Char}
    (exponential : ExponentText exponent word) (ends : Ends rest) :
    readExponent (word ++ rest) = some (exponent, rest) := by
  cases exponential with
  | absent =>
    cases rest with
    | nil => rfl
    | cons c rest =>
      obtain ⟨-, -, lower, upper⟩ := ends c rfl
      rw [List.nil_append, readExponent]
      · intro text same
        exact lower (List.cons.inj same).1
      · intro text same
        exact upper (List.cons.inj same).1
  | @power m negative sign run marked signed digits =>
    have power : readPower (sign ++ (run ++ rest)) =
        some (some (if negative then -(Decimal.value run : Int) else (Decimal.value run : Int)),
          rest) := by
      rw [readPower, readSign_append signed digits]
      dsimp only
      rw [digits1_append digits fun c first => (ends c first).1]
      rfl
    rw [List.cons_append, List.append_assoc]
    rcases marked with rfl | rfl
    · exact power
    · exact power

private theorem of_readPower {text rest : List Char} {exponent : Option Int} {m : Char}
    (marked : m = 'e' ∨ m = 'E') (read : readPower text = some (exponent, rest)) :
    ∃ word, m :: text = word ++ rest ∧ ExponentText exponent word := by
  obtain ⟨sign, spelled, signed⟩ := of_readSign text
  unfold readPower at read
  dsimp only at read
  obtain ⟨⟨run, after⟩, found, same⟩ := Option.map_eq_some_iff.1 read
  obtain ⟨rfl, rfl⟩ := Prod.mk.inj same
  obtain ⟨after_sign, digits⟩ := of_digits1 found
  refine ⟨m :: (sign ++ run), ?_, .power marked signed digits⟩
  rw [List.cons_append, List.append_assoc, ← after_sign, ← spelled]

private theorem of_readExponent {text rest : List Char} {exponent : Option Int}
    (read : readExponent text = some (exponent, rest)) :
    ∃ word, text = word ++ rest ∧ ExponentText exponent word := by
  unfold readExponent at read
  split at read
  · exact of_readPower (.inl rfl) read
  · exact of_readPower (.inr rfl) read
  · obtain ⟨rfl, rfl⟩ := Prod.mk.inj (Option.some.inj read)
    exact ⟨[], rfl, .absent⟩

theorem Digits.head {run : List Char} (digits : Digits run) :
    ∃ d rest, run = d :: rest ∧ d.isDigit = true := by
  cases run with
  | nil => exact absurd rfl digits.1
  | cons d rest => exact ⟨d, rest, rfl, digits.2 d List.mem_cons_self⟩

private theorem stop_fraction {fraction : Option (List Char)} {exponent : Option Int}
    {fractionText exponentText rest : List Char} (fractional : FractionText fraction fractionText)
    (exponential : ExponentText exponent exponentText) (ends : Ends rest) :
    ∀ c ∈ (fractionText ++ (exponentText ++ rest)).head?, c.isDigit = false := by
  intro c first
  cases fractional with
  | digits digits =>
    obtain rfl := Option.some.inj first
    rfl
  | absent =>
    cases exponential with
    | absent => exact (ends c first).1
    | power marked signed digits =>
      obtain rfl := Option.some.inj first
      rcases marked with rfl | rfl <;> rfl

private theorem stop_exponent {exponent : Option Int} {exponentText rest : List Char}
    (exponential : ExponentText exponent exponentText) (ends : Ends rest) :
    ∀ c ∈ (exponentText ++ rest).head?, c.isDigit = false ∧ c ≠ '.' := by
  intro c first
  cases exponential with
  | absent => exact ⟨(ends c first).1, (ends c first).2.1⟩
  | power marked signed digits =>
    obtain rfl := Option.some.inj first
    rcases marked with rfl | rfl <;> decide

def readUnsigned (negative : Bool) (text : List Char) : Option (Numeral × List Char) := do
  let (whole, text) ← readWhole text
  let (fraction, text) ← readFraction text
  let (exponent, text) ← readExponent text
  return (⟨negative, whole, fraction, exponent⟩, text)

private theorem read_minus (text : List Char) : read ('-' :: text) = readUnsigned true text := rfl

private theorem read_plain {text : List Char} (plain : ∀ rest, text ≠ '-' :: rest) :
    read text = readUnsigned false text := by
  unfold read
  split
  next negative rest same =>
    split at same
    · next tail => exact absurd rfl (plain tail)
    · obtain ⟨rfl, rfl⟩ := Prod.mk.inj same
      rfl

private theorem readUnsigned_append (negative : Bool)
    {whole fractionText exponentText rest : List Char}
    {fraction : Option (List Char)} {exponent : Option Int} (digits : Whole whole)
    (fractional : FractionText fraction fractionText)
    (exponential : ExponentText exponent exponentText) (ends : Ends rest) :
    readUnsigned negative (whole ++ (fractionText ++ (exponentText ++ rest))) =
      some (⟨negative, whole, fraction, exponent⟩, rest) := by
  have first := readWhole_append digits (stop_fraction fractional exponential ends)
  have second := readFraction_append fractional
    (fun c found => (stop_exponent exponential ends c found).1)
    (fun c found => (stop_exponent exponential ends c found).2)
  have third := readExponent_append exponential ends
  simp only [readUnsigned, Option.bind_eq_bind, first, second, third, Option.bind_some]
  rfl

private theorem of_readUnsigned (negative : Bool) {text rest : List Char} {n : Numeral}
    (found : readUnsigned negative text = some (n, rest)) :
    ∃ word, (if negative then ['-'] else []) ++ text = word ++ rest ∧ Spelled n word := by
  obtain ⟨⟨whole, afterWhole⟩, first, found⟩ := Option.bind_eq_some_iff.1 found
  obtain ⟨⟨fraction, afterFraction⟩, second, found⟩ := Option.bind_eq_some_iff.1 found
  obtain ⟨⟨exponent, afterExponent⟩, third, found⟩ := Option.bind_eq_some_iff.1 found
  obtain ⟨rfl, rfl⟩ := Prod.mk.inj (Option.some.inj found)
  obtain ⟨rfl, digits⟩ := of_readWhole first
  obtain ⟨fractionText, rfl, fractional⟩ := of_readFraction second
  obtain ⟨exponentText, rfl, exponential⟩ := of_readExponent third
  refine ⟨_, ?_, .intro digits fractional exponential⟩
  simp only [List.append_assoc]

private theorem read_append {n : Numeral} {word rest : List Char} (spelled : Spelled n word)
    (ends : Ends rest) : read (word ++ rest) = some (n, rest) := by
  cases spelled with
  | @intro negative whole _ _ _ _ digits fractional exponential =>
    have unsigned := readUnsigned_append negative digits fractional exponential ends
    simp only [List.append_assoc]
    cases negative with
    | true => exact (read_minus _).trans unsigned
    | false =>
      refine (read_plain ?_).trans unsigned
      intro tail same
      obtain ⟨d, others, rfl, digit⟩ := digits.1.head
      rw [(List.cons.inj same).1] at digit
      cases digit

theorem of_read {text rest : List Char} {n : Numeral} (found : read text = some (n, rest)) :
    ∃ word, text = word ++ rest ∧ Spelled n word := by
  by_cases minus : ∃ tail, text = '-' :: tail
  · obtain ⟨tail, rfl⟩ := minus
    exact of_readUnsigned true found
  · have plain : ∀ tail, text ≠ '-' :: tail := fun tail same => minus ⟨tail, same⟩
    rw [read_plain plain] at found
    exact of_readUnsigned false found

theorem Spelled.head {n : Numeral} {word : List Char} (spelled : Spelled n word) :
    ∃ c tail, word = c :: tail ∧ (c = '-' ∨ c.isDigit = true) := by
  cases spelled with
  | @intro negative whole _ _ _ _ digits fractional exponential =>
    obtain ⟨d, others, rfl, digit⟩ := digits.1.head
    cases negative with
    | true => exact ⟨'-', _, rfl, .inl rfl⟩
    | false => exact ⟨d, _, rfl, .inr digit⟩

end Numeral

namespace Piece

inductive Spelled : Piece → List Char → Prop where
  | plain {c : Char} (quote : c ≠ '"') (slash : c ≠ '\\') (printable : 0x20 ≤ c.toNat) :
      Spelled (char c) [c]
  | short {letter c : Char} (known : short? letter = some c) : Spelled (char c) ['\\', letter]
  | number {a b c d : Char} {n : Nat} (digits : hex4? a b c d = some n) :
      Spelled (unit n) ['\\', 'u', a, b, c, d]

inductive AllSpelled : List Piece → List Char → Prop where
  | nil : AllSpelled [] []
  | cons {piece : Piece} {pieces : List Piece} {word text : List Char}
      (first : Spelled piece word) (others : AllSpelled pieces text) :
      AllSpelled (piece :: pieces) (word ++ text)

private theorem readAll_append {pieces : List Piece} {body : List Char}
    (spelled : AllSpelled pieces body)
    (rest : List Char) : readAll (body ++ '"' :: rest) = some (pieces, rest) := by
  induction spelled with
  | nil => rfl
  | @cons piece pieces word text first others ih =>
    rw [List.append_assoc]
    cases first with
    | @plain c quote slash printable =>
      have shown : ¬ (c = '\\' ∨ c.toNat < 0x20) := by
        rintro (same | control)
        · exact slash same
        · omega
      rw [List.singleton_append, readAll, if_neg shown, ih]
      · rfl
      · exact quote
      · exact fun _ _ _ _ _ same => absurd same slash
      · exact fun _ _ same => absurd same slash
    | @short letter c known =>
      have noNumber : letter ≠ 'u' := by
        rintro rfl
        cases known
      rw [List.cons_append, List.singleton_append, readAll, known, ih]
      exact fun _ _ _ _ _ same => absurd same noNumber
    | number digits =>
      simp only [List.cons_append, List.nil_append]
      rw [readAll, digits, ih]

private theorem of_readAll {text rest : List Char} {pieces : List Piece}
    (read : readAll text = some (pieces, rest)) :
    ∃ body, text = body ++ '"' :: rest ∧ AllSpelled pieces body := by
  fun_induction readAll text generalizing pieces rest with
  | case1 => cases read
  | case2 text =>
    obtain ⟨rfl, rfl⟩ := Prod.mk.inj (Option.some.inj read)
    exact ⟨[], rfl, .nil⟩
  | case3 a b c d text n others after tail digits ih =>
    obtain ⟨rfl, rfl⟩ := Prod.mk.inj (Option.some.inj read)
    obtain ⟨body, rfl, spelled⟩ := ih tail
    exact ⟨_, rfl, .cons (.number digits) spelled⟩
  | case4 => cases read
  | case5 letter text noNumber e others after tail known ih =>
    obtain ⟨rfl, rfl⟩ := Prod.mk.inj (Option.some.inj read)
    obtain ⟨body, rfl, spelled⟩ := ih tail
    exact ⟨_, rfl, .cons (.short known) spelled⟩
  | case6 => cases read
  | case7 => cases read
  | case8 c text quote _ _ shown ih =>
    obtain ⟨⟨others, after⟩, tail, same⟩ := Option.map_eq_some_iff.1 read
    obtain ⟨rfl, rfl⟩ := Prod.mk.inj same
    obtain ⟨body, rfl, spelled⟩ := ih tail
    have printable : 0x20 ≤ c.toNat := Nat.not_lt.1 fun control => shown (.inr control)
    exact ⟨_, rfl, .cons (.plain quote (fun same => shown (.inl same)) printable) spelled⟩

end Piece

namespace Token

inductive Spelled : Token → List Char → Prop where
  | openArray : Spelled openArray ['[']
  | closeArray : Spelled closeArray [']']
  | openObject : Spelled openObject ['\x7b']
  | closeObject : Spelled closeObject ['\x7d']
  | colon : Spelled colon [':']
  | comma : Spelled comma [',']
  | null : Spelled null ['n', 'u', 'l', 'l']
  | yes : Spelled (boolean true) ['t', 'r', 'u', 'e']
  | no : Spelled (boolean false) ['f', 'a', 'l', 's', 'e']
  | number {n : Numeral} {word : List Char} (numeral : n.Spelled word) :
      Spelled (number n.number?) word
  | string {pieces : List Piece} {body : List Char} (spelled : Piece.AllSpelled pieces body) :
      Spelled (string ((Piece.chars? pieces).map String.ofList)) ('"' :: (body ++ ['"']))

def isNumber : Token → Bool
  | number _ => true
  | _ => false

private theorem next_append {token : Token} {word rest : List Char} (spelled : Spelled token word)
    (ends : token.isNumber = true → Numeral.Ends rest) : next (word ++ rest) = (token, rest) := by
  cases spelled with
  | number numeral =>
    have read := Numeral.read_append numeral (ends rfl)
    obtain ⟨c, tail, rfl, start⟩ := numeral.head
    -- A numeral begins with a minus or a digit, so none of the words before it can be meant.
    have other (d : Char) (tail' : List Char) (same : c :: tail ++ rest = d :: tail')
        (mark : d ≠ '-' ∧ d.isDigit = false) : False := by
      obtain rfl := (List.cons.inj same).1
      rcases start with minus | digit
      · exact mark.1 minus
      · rw [mark.2] at digit
        cases digit
    unfold next
    split
    case h_11 => rw [read]
    all_goals
      next same => exact (other _ _ same (by decide)).elim
  | string spelled =>
    have read := Piece.readAll_append spelled rest
    simp only [List.cons_append, List.append_assoc, List.nil_append, next, read]
  | _ => rfl

private theorem of_next {token : Token} {text rest : List Char} (read : next text = (token, rest))
    (sound : token ≠ junk) : ∃ word, text = word ++ rest ∧ Spelled token word := by
  unfold next at read
  split at read
  case h_10 tail =>
    split at read
    · next pieces after found =>
      obtain ⟨rfl, rfl⟩ := Prod.mk.inj read
      obtain ⟨body, rfl, spelled⟩ := Piece.of_readAll found
      refine ⟨'"' :: (body ++ ['"']), ?_, .string spelled⟩
      simp only [List.cons_append, List.append_assoc, List.nil_append]
    · exact absurd (Prod.mk.inj read).1.symm sound
  case h_11 =>
    split at read
    · next numeral after found =>
      obtain ⟨rfl, rfl⟩ := Prod.mk.inj read
      obtain ⟨word, spelled, written⟩ := Numeral.of_read found
      exact ⟨word, spelled, .number written⟩
    · exact absurd (Prod.mk.inj read).1.symm sound
  all_goals
    obtain ⟨rfl, rfl⟩ := Prod.mk.inj read
    exact ⟨_, rfl, by constructor⟩

/-- The tokens of a text, with any blanks before, between and after them. -/
inductive Spells : List Token → List Char → Prop where
  | nil {gap : List Char} (blank : ∀ c ∈ gap, isBlank c = true) : Spells [] gap
  | cons {gap word rest : List Char} {token : Token} {tokens : List Token}
      (blank : ∀ c ∈ gap, isBlank c = true) (first : Spelled token word)
      (others : Spells tokens rest) : Spells (token :: tokens) (gap ++ (word ++ rest))

/-- Two tokens that may stand side by side. -/
def Apart (token next : Token) : Prop :=
  token.isNumber = true → next.isNumber = false

/-- A token begins with a character that is no blank, and that ends a numeral before it unless the
token is a numeral too. -/
theorem Spelled.head {token : Token} {word : List Char} (spelled : Spelled token word) :
    ∃ c tail, word = c :: tail ∧ isBlank c = false ∧
      (token.isNumber = false → ∀ rest, Numeral.Ends (c :: rest)) := by
  have mark (c : Char) (blank : isBlank c = false)
      (ends : c.isDigit = false ∧ c ≠ '.' ∧ c ≠ 'e' ∧ c ≠ 'E') (tail : List Char) :
      ∃ c' tail', c :: tail = c' :: tail' ∧ isBlank c' = false ∧
        (token.isNumber = false → ∀ rest, Numeral.Ends (c' :: rest)) := by
    refine ⟨c, tail, rfl, blank, fun _ rest c' first => ?_⟩
    obtain rfl := Option.some.inj first
    exact ends
  cases spelled with
  | number numeral =>
    obtain ⟨c, tail, rfl, start⟩ := numeral.head
    refine ⟨c, tail, rfl, ?_, fun other => absurd other Bool.true_eq_false.mp⟩
    rcases start with rfl | digit
    · rfl
    · by_contra blank
      rw [Bool.not_eq_false] at blank
      simp only [isBlank, Bool.or_eq_true, beq_iff_eq] at blank
      rcases blank with ((rfl | rfl) | rfl) | rfl <;> cases digit
  | _ => exact mark _ (by decide) (by decide) _

private theorem Spelled.ne_junk {token : Token} {word : List Char} (spelled : Spelled token word) :
    token ≠ junk := by
  rintro rfl
  cases spelled

private theorem isBlank_ends {c : Char} (blank : isBlank c = true) (rest : List Char) :
    Numeral.Ends (c :: rest) := by
  intro c' first
  obtain rfl := Option.some.inj first
  simp only [isBlank, Bool.or_eq_true, beq_iff_eq] at blank
  rcases blank with ((rfl | rfl) | rfl) | rfl <;> decide

theorem Spells.ends {tokens : List Token} {text : List Char} (spells : Spells tokens text)
    (other : ∀ token ∈ tokens.head?, token.isNumber = false) : Numeral.Ends text := by
  cases spells with
  | nil blank =>
    cases text with
    | nil => exact fun c first => absurd first (Option.not_mem_none c)
    | cons c gap => exact isBlank_ends (blank c List.mem_cons_self) gap
  | @cons gap word rest token tokens blank first others =>
    cases gap with
    | nil =>
      obtain ⟨c, tail, rfl, -, ends⟩ := first.head
      exact ends (other token rfl) _
    | cons c gap => exact isBlank_ends (blank c List.mem_cons_self) _

private theorem readAll_next {fuel : Nat} {text tail rest : List Char} {c : Char} {token : Token}
    (left : text.dropWhile isBlank = c :: tail) (read : next (c :: tail) = (token, rest))
    (sound : token ≠ junk) : readAll (fuel + 1) text = token :: readAll fuel rest := by
  rw [readAll, left]
  dsimp only
  rw [read]
  cases token with
  | junk => exact absurd rfl sound
  | _ => rfl

/-- The tokens that a text spells are read from it. -/
theorem readAll_of_spells {tokens : List Token} {text : List Char} (spells : Spells tokens text)
    (apart : tokens.IsChain Apart) {fuel : Nat} (enough : text.length < fuel) :
    readAll fuel text = tokens := by
  induction spells generalizing fuel with
  | @nil gap blank =>
    obtain ⟨fuel, rfl⟩ := Nat.exists_eq_add_of_lt enough
    have skipped : gap.dropWhile isBlank = [] := List.dropWhile_eq_nil_iff.2 blank
    rw [readAll, skipped]
  | @cons gap word rest token tokens blank first others ih =>
    obtain ⟨next_apart, others_apart⟩ := List.isChain_cons.1 apart
    cases fuel with
    | zero => exact absurd enough (Nat.not_lt_zero _)
    | succ fuel =>
      have ends (number : token.isNumber = true) : Numeral.Ends rest :=
        others.ends fun next found => next_apart next found number
      have read := next_append first ends
      have sound := first.ne_junk
      obtain ⟨c, tail, rfl, solid, -⟩ := first.head
      have skipped : (gap ++ (c :: tail ++ rest)).dropWhile isBlank = c :: (tail ++ rest) := by
        refine (span_append blank ?_).2
        intro c' found
        obtain rfl := Option.some.inj found
        exact solid
      have shorter : rest.length < fuel := by
        simp only [List.length_append, List.length_cons] at enough
        omega
      rw [readAll_next skipped read sound, ih others_apart shorter]

/-- A text from which tokens are read to its end spells them. -/
theorem spells_of_readAll {fuel : Nat} {text : List Char} (enough : text.length < fuel)
    (sound : junk ∉ readAll fuel text) : Spells (readAll fuel text) text := by
  induction fuel generalizing text with
  | zero => exact absurd enough (Nat.not_lt_zero _)
  | succ fuel ih =>
    -- The gap is what the reader skips, and the word is what its next step takes.
    have split : text.takeWhile isBlank ++ text.dropWhile isBlank = text :=
      List.takeWhile_append_dropWhile
    have blank : ∀ c ∈ text.takeWhile isBlank, isBlank c = true :=
      fun c => List.mem_takeWhile_imp
    cases left : text.dropWhile isBlank with
    | nil =>
      rw [left, List.append_nil] at split
      rw [split] at blank
      rw [readAll, left]
      exact .nil blank
    | cons c tail =>
      rw [left] at split
      cases read : next (c :: tail) with
      | mk token rest =>
        have known : token ≠ junk := by
          rintro rfl
          apply sound
          rw [readAll, left]
          dsimp only
          rw [read]
          exact List.mem_cons_self
        rw [readAll_next left read known] at sound ⊢
        obtain ⟨word, spelled, written⟩ := of_next read known
        have shorter : rest.length < fuel := by
          obtain ⟨d, more, rfl, -⟩ := written.head
          rw [← split, spelled] at enough
          simp only [List.length_append, List.length_cons] at enough
          omega
        have others := ih shorter fun later => sound (List.mem_cons_of_mem _ later)
        rw [← split, spelled]
        exact .cons blank written others

end Token

end NativeCall.Json
