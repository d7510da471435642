import NativeCall.Proofs.Json.Grammar
import NativeCall.Proofs.Json.Numerals

/-!
The written forms of JSON values. The tokens of a value are laid out in a text if the text is their
words, each followed by what the layout puts before the next one: nothing in the compact text, new
lines and indentation in the other (`printedAs_prettyText`). Either text is a text of the draft of
the value, as long as its numbers are whole numbers of at most sixty-four bits.
-/

set_option autoImplicit false
set_option relaxedAutoImplicit false

namespace NativeCall.Json

namespace Piece

inductive StandsFor : Piece → Char → Prop where
  | char (c : Char) : StandsFor (char c) c
  | unit {n : Nat} (high : isHigh n = false) (low : isLow n = false) :
      StandsFor (unit n) (Char.ofNat n)

private theorem chars?_cons {piece : Piece} {c : Char} (stands : piece.StandsFor c)
    (pieces : List Piece) : chars? (piece :: pieces) = (chars? pieces).map (c :: ·) := by
  cases stands with
  | char c => rw [chars?]
  | @unit n high low =>
    -- Two units in a row are looked at as a pair first, which this one is not part of.
    cases pieces with
    | nil => simp [chars?, high, low]
    | cons next pieces =>
      cases next with
      | char d => simp [chars?, high, low]
      | unit m => simp [chars?, high, low]

private theorem byNumber_control : ∀ n < 0x20,
    Written.byNumber (Char.ofNat n) =
        ['\\', 'u', '0', '0', Nat.digitChar (n / 16), Nat.digitChar (n % 16)] ∧
      hex4? '0' '0' (Nat.digitChar (n / 16)) (Nat.digitChar (n % 16)) = some n ∧
      isHigh n = false ∧ isLow n = false := by
  decide

private theorem spelled_escape (c : Char) :
    ∃ piece : Piece, piece.Spelled (Written.escape c) ∧ piece.StandsFor c := by
  unfold Written.escape
  split
  case h_8 quote slash _ _ _ _ _ =>
    split
    · next control =>
      obtain ⟨written, digits, high, low⟩ := byNumber_control c.toNat control
      have stands := StandsFor.unit high low
      rw [Char.ofNat_toNat] at written stands
      rw [written]
      exact ⟨.unit c.toNat, .number digits, stands⟩
    · next shown => exact ⟨.char c, .plain quote slash (Nat.not_lt.1 shown), .char c⟩
  all_goals exact ⟨.char _, .short rfl, .char _⟩

private theorem allSpelled_escape (s : List Char) :
    ∃ pieces, AllSpelled pieces (s.flatMap Written.escape) ∧ chars? pieces = some s := by
  induction s with
  | nil => exact ⟨[], .nil, rfl⟩
  | cons c s ih =>
    obtain ⟨piece, written, stands⟩ := spelled_escape c
    obtain ⟨pieces, others, read⟩ := ih
    refine ⟨piece :: pieces, .cons written others, ?_⟩
    rw [chars?_cons stands, read]
    rfl

end Piece

namespace Token

private theorem spelled_string (s : String) : Spelled (.string (some s)) (Written.string s) := by
  obtain ⟨pieces, spelled, read⟩ := Piece.allSpelled_escape s.toList
  have word := Spelled.string spelled
  rw [read, Option.map_some, String.ofList_toList] at word
  exact word

/-- What is written for a token: a numeral that names its number, and any other word for what is no
number. -/
inductive Printed : Token → List Char → Prop where
  | number {n : Number} {numeral : Numeral} {word : List Char} (named : numeral.Names n)
      (spelled : numeral.Spelled word) : Printed (.number (some n)) word
  | other {token : Token} {word : List Char} (plain : token.isNumber = false)
      (spelled : Spelled token word) : Printed token word

private theorem Spells.blanks {tokens : List Token} {gap text : List Char}
    (blank : ∀ c ∈ gap, isBlank c = true) (others : Spells tokens text) :
    Spells tokens (gap ++ text) := by
  cases others with
  | nil last => exact .nil (List.forall_mem_append.2 ⟨blank, last⟩)
  | cons more first others =>
    rw [← List.append_assoc]
    exact .cons (List.forall_mem_append.2 ⟨blank, more⟩) first others

def nest (level : Nat) : Token → Nat
  | openArray => level + 1
  | openObject => level + 1
  | closeArray => level - 1
  | closeObject => level - 1
  | _ => level

/-- What is put after a token at a level of nesting, before the token that comes next. -/
abbrev Layout := Nat → Token → Option Token → List Char

/-- The tokens in a row, from a level of nesting on. -/
inductive Laid (layout : Layout) : Nat → List Token → List Char → Prop where
  | nil {level : Nat} : Laid layout level [] []
  | cons {level : Nat} {token : Token} {tokens : List Token} {word text : List Char}
      (first : token.Printed word) (others : Laid layout (token.nest level) tokens text) :
      Laid layout level (token :: tokens)
        (word ++ (layout (token.nest level) token tokens.head? ++ text))

def tight : Layout := fun _ _ _ => []

def lineBreak (level : Nat) : List Char :=
  '\n' :: List.replicate (2 * level) ' '

/-- An item or entry a line, in brackets or braces on lines of their own, and a blank after a
colon. -/
def indented : Layout
  | _, openArray, some closeArray => []
  | _, openObject, some closeObject => []
  | level, openArray, _ => lineBreak level
  | level, openObject, _ => lineBreak level
  | level, comma, _ => lineBreak level
  | _, colon, _ => [' ']
  | level, _, some closeArray => lineBreak (level - 1)
  | level, _, some closeObject => lineBreak (level - 1)
  | _, _, _ => []

private def isLast : Token → Bool
  | null | boolean _ | number _ | string _ | closeArray | closeObject => true
  | _ => false

/-- A layout that puts the same after every value, and keeps empty brackets and braces together. -/
private structure Layout.Even (layout : Layout) (ending : Nat → Option Token → List Char) :
    Prop where
  ends : ∀ level token next, token.isLast = true → layout level token next = ending level next
  array : ∀ level, layout level openArray (some closeArray) = []
  object : ∀ level, layout level openObject (some closeObject) = []

private theorem even_tight : Layout.Even tight fun _ _ => [] :=
  ⟨fun _ _ _ _ => rfl, fun _ => rfl, fun _ => rfl⟩

private def closing (level : Nat) : Option Token → List Char
  | some closeArray => lineBreak (level - 1)
  | some closeObject => lineBreak (level - 1)
  | _ => []

private theorem even_indented : Layout.Even indented closing where
  ends level token next last := by
    cases token with
    | openArray | openObject | colon | comma | junk => cases last
    | _ => cases next with
      | none => rfl
      | some next => cases next <;> rfl
  array _ := rfl
  object _ := rfl

section

variable {layout : Layout} {ending : Nat → Option Token → List Char} {level : Nat}
  {tokens : List Token} {word rest : List Char}

private theorem Laid.last (even : layout.Even ending) {token : Token} (last : token.isLast = true)
    {outer : Nat} (nest : token.nest outer = level) (first : token.Printed word)
    (after : Laid layout level tokens rest) :
    Laid layout outer (token :: tokens) (word ++ (ending level tokens.head? ++ rest)) := by
  subst nest
  have laid := Laid.cons first after
  rw [even.ends _ _ _ last] at laid
  exact laid

private theorem Laid.mark {token : Token} (plain : token.isNumber = false) {outer : Nat}
    (nest : token.nest outer = level) (first : token.Spelled word)
    (after : Laid layout level tokens rest) :
    Laid layout outer (token :: tokens) (word ++ (layout level token tokens.head? ++ rest)) := by
  subst nest
  exact .cons (.other plain first) after

theorem Laid.spells (laid : Laid layout level tokens rest)
    (blank : ∀ level token next, ∀ c ∈ layout level token next, isBlank c = true)
    (proper : ∀ n : Number, .number (some n) ∈ tokens → ∃ i, n = .integer i ∧ Number.fits i = true) :
    Spells tokens rest := by
  induction laid with
  | nil => exact .nil (List.forall_mem_nil _)
  | @cons level token tokens word text first others ih =>
    have spelled : Spelled token word := by
      cases first with
      | other _ spelled => exact spelled
      | @number n numeral _ named spelled =>
        obtain ⟨i, rfl, fits⟩ := proper n List.mem_cons_self
        rw [← named.number? fits]
        exact .number spelled
    have following := (ih fun n found => proper n (List.mem_cons_of_mem _ found)).blanks
      (blank (token.nest level) token tokens.head?)
    exact @Spells.cons [] _ _ _ _ (List.forall_mem_nil _) spelled following

end

end Token

mutual

def draft : Json → Draft
  | null => .null
  | boolean b => .boolean b
  | number n => .number (some n)
  | string s => .string (some s)
  | array items => .array (draftItems items) true
  | object entries => .object (draftEntries entries) true

def draftItems : List Json → List Draft
  | [] => []
  | item :: items => draft item :: draftItems items

def draftEntries : List (String × Json) → List (Option String × Draft)
  | [] => []
  | (key, value) :: entries => (some key, draft value) :: draftEntries entries

end

mutual

def whole : Json → Bool
  | number (.integer n) => Number.fits n
  | number (.double _ _) => false
  | array items => wholeItems items
  | object entries => wholeEntries entries
  | _ => true

def wholeItems : List Json → Bool
  | [] => true
  | item :: items => whole item && wholeItems items

def wholeEntries : List (String × Json) → Bool
  | [] => true
  | (_, value) :: entries => whole value && wholeEntries entries

end

mutual

theorem complete_draft (value : Json) : value.draft.complete = true := by
  cases value with
  | array items => simp [draft, Draft.complete, completeItems_draft items]
  | object entries => simp [draft, Draft.complete, completeEntries_draft entries]
  | _ => rfl

private theorem completeItems_draft (items : List Json) :
    Draft.completeItems (draftItems items) = true := by
  match items with
  | [] => rfl
  | item :: items =>
    simp [draftItems, Draft.completeItems, complete_draft item, completeItems_draft items]

private theorem completeEntries_draft (entries : List (String × Json)) :
    Draft.completeEntries (draftEntries entries) = true := by
  match entries with
  | [] => rfl
  | (key, value) :: entries =>
    simp [draftEntries, Draft.completeEntries, complete_draft value, completeEntries_draft entries]

end

private def isAtom : Json → Bool
  | array (_ :: _) => false
  | object (_ :: _) => false
  | _ => true

namespace Written

open Token (Laid Printed tight indented lineBreak closing)

section

variable {layout : Token.Layout} {ending : Nat → Option Token → List Char} {level : Nat}
  {tokens : List Token} {rest : List Char}

private theorem laid_atom (even : layout.Even ending) {value : Json} (atomic : value.isAtom = true)
    (after : Laid layout level tokens rest) :
    Laid layout level (value.draft.tokens ++ tokens)
      (atom value ++ (ending level tokens.head? ++ rest)) := by
  match value with
  | .null => exact after.last even rfl rfl (.other rfl .null)
  | .boolean true => exact after.last even rfl rfl (.other rfl .yes)
  | .boolean false => exact after.last even rfl rfl (.other rfl .no)
  | .number n =>
    obtain ⟨numeral, spelled, named⟩ := Numeral.exists_names n
    exact after.last even rfl rfl (.number named spelled)
  | .string s => exact after.last even rfl rfl (.other rfl (Token.spelled_string s))
  | .array [] =>
    have closed : Laid layout (level + 1) _ _ := after.last even rfl rfl (.other rfl .closeArray)
    have both : Laid layout level _ _ := closed.mark rfl rfl .openArray
    rw [List.head?_cons, even.array] at both
    exact both
  | .object [] =>
    have closed : Laid layout (level + 1) _ _ := after.last even rfl rfl (.other rfl .closeObject)
    have both : Laid layout level _ _ := closed.mark rfl rfl .openObject
    rw [List.head?_cons, even.object] at both
    exact both

end

-- The text goes on after the value, so that the closing mark and the entries after it can follow.
mutual

private theorem laid_compact (value : Json) {level : Nat} {tokens : List Token} {rest : List Char}
    (after : Laid tight level tokens rest) :
    Laid tight level (value.draft.tokens ++ tokens) (compact value ++ rest) := by
  match value with
  | .null | .boolean _ | .number _ | .string _ | .array [] | .object [] =>
    exact laid_atom Token.even_tight rfl after
  | .array (item :: items) =>
    have inner := laid_compact item (laid_compactItems items after)
    simp only [draft, draftItems, Draft.tokens, compact, List.cons_append, List.append_assoc]
    exact inner.mark rfl rfl .openArray
  | .object ((key, value) :: entries) =>
    have inner := laid_compact value (laid_compactEntries entries after)
    have named := (inner.mark rfl rfl .colon).mark rfl rfl (Token.spelled_string key)
    simp only [draft, draftEntries, Draft.tokens, compact, List.cons_append, List.append_assoc]
    exact named.mark rfl rfl .openObject

private theorem laid_compactItems (items : List Json) {level : Nat} {tokens : List Token}
    {rest : List Char} (after : Laid tight level tokens rest) :
    Laid tight (level + 1) (Draft.itemTokens (draftItems items) ++ tokens)
      (compactItems items ++ rest) := by
  match items with
  | [] => exact after.mark rfl rfl .closeArray
  | item :: items =>
    have inner := laid_compact item (laid_compactItems items after)
    simp only [draftItems, Draft.itemTokens, compactItems, List.cons_append, List.append_assoc]
    exact inner.mark rfl rfl .comma

private theorem laid_compactEntries (entries : List (String × Json)) {level : Nat}
    {tokens : List Token} {rest : List Char} (after : Laid tight level tokens rest) :
    Laid tight (level + 1) (Draft.entryTokens (draftEntries entries) ++ tokens)
      (compactEntries entries ++ rest) := by
  match entries with
  | [] => exact after.mark rfl rfl .closeObject
  | (key, value) :: entries =>
    have inner := laid_compact value (laid_compactEntries entries after)
    have named := (inner.mark rfl rfl .colon).mark rfl rfl (Token.spelled_string key)
    simp only [draftEntries, Draft.entryTokens, compactEntries, List.cons_append, List.append_assoc]
    exact named.mark rfl rfl .comma

end

private theorem indented_openArray (level : Nat) (draft : Draft) (rest : List Token) :
    indented level .openArray (draft.tokens ++ rest).head? = lineBreak level := by
  cases found : draft.tokens ++ rest with
  | nil => exact absurd found (List.append_ne_nil_of_left_ne_nil draft.tokens_ne_nil rest)
  | cons token tail =>
    cases token with
    | closeArray => exact absurd found (draft.tokens_ne_closeArray rest tail)
    | _ => rfl

mutual

private theorem laid_pretty (level : Nat) (value : Json) {tokens : List Token} {rest : List Char}
    (after : Laid indented level tokens rest) :
    Laid indented level (value.draft.tokens ++ tokens)
      (pretty level value ++ (closing level tokens.head? ++ rest)) := by
  match value with
  | .null | .boolean _ | .number _ | .string _ | .array [] | .object [] =>
    exact laid_atom Token.even_indented rfl after
  | .array (item :: items) =>
    obtain ⟨text, same, others⟩ := laid_prettyItems level items after
    have inner := laid_pretty (level + 1) item others
    have both : Laid indented level _ _ := inner.mark rfl rfl .openArray
    rw [indented_openArray, ← same] at both
    simp only [draft, draftItems, Draft.tokens, pretty, List.cons_append, List.append_assoc]
    exact both
  | .object ((key, value) :: entries) =>
    obtain ⟨text, same, others⟩ := laid_prettyEntries level entries after
    have inner := laid_pretty (level + 1) value others
    rw [← same] at inner
    have named := (inner.mark rfl rfl .colon).mark rfl rfl (Token.spelled_string key)
    simp only [draft, draftEntries, Draft.tokens, pretty, List.cons_append, List.append_assoc]
    exact named.mark rfl rfl .openObject

private theorem laid_prettyItems (level : Nat) (items : List Json) {tokens : List Token}
    {rest : List Char} (after : Laid indented level tokens rest) :
    ∃ text, prettyItems level items ++ (closing level tokens.head? ++ rest) =
        closing (level + 1) (Draft.itemTokens (draftItems items) ++ tokens).head? ++ text ∧
      Laid indented (level + 1) (Draft.itemTokens (draftItems items) ++ tokens) text := by
  match items with
  | [] =>
    have closed : Laid indented (level + 1) _ _ :=
      after.last Token.even_indented rfl rfl (.other rfl .closeArray)
    exact ⟨_, List.append_assoc .., closed⟩
  | item :: items =>
    obtain ⟨text, same, others⟩ := laid_prettyItems level items after
    have inner := laid_pretty (level + 1) item others
    rw [← same] at inner
    refine ⟨prettyItems level (item :: items) ++ (closing level tokens.head? ++ rest), rfl, ?_⟩
    simp only [draftItems, Draft.itemTokens, prettyItems, List.cons_append, List.append_assoc]
    exact inner.mark rfl rfl .comma

private theorem laid_prettyEntries (level : Nat) (entries : List (String × Json))
    {tokens : List Token} {rest : List Char} (after : Laid indented level tokens rest) :
    ∃ text, prettyEntries level entries ++ (closing level tokens.head? ++ rest) =
        closing (level + 1) (Draft.entryTokens (draftEntries entries) ++ tokens).head? ++ text ∧
      Laid indented (level + 1) (Draft.entryTokens (draftEntries entries) ++ tokens) text := by
  match entries with
  | [] =>
    have closed : Laid indented (level + 1) _ _ :=
      after.last Token.even_indented rfl rfl (.other rfl .closeObject)
    exact ⟨_, List.append_assoc .., closed⟩
  | (key, value) :: entries =>
    obtain ⟨text, same, others⟩ := laid_prettyEntries level entries after
    have inner := laid_pretty (level + 1) value others
    rw [← same] at inner
    have named := (inner.mark rfl rfl .colon).mark rfl rfl (Token.spelled_string key)
    refine ⟨prettyEntries level ((key, value) :: entries) ++ (closing level tokens.head? ++ rest),
      rfl, ?_⟩
    simp only [draftEntries, Draft.entryTokens, prettyEntries, List.cons_append, List.append_assoc]
    exact named.mark rfl rfl .comma

end

end Written

/-- A text is a value with an item or entry a line. -/
def PrintedAs (value : Json) (text : String) : Prop :=
  Token.Laid Token.indented 0 value.draft.tokens text.toList

/-- The indented text of any value is that value with an item or entry a line. -/
theorem printedAs_prettyText (value : Json) : value.PrintedAs value.prettyText := by
  have laid :
      Token.Laid Token.indented 0 (value.draft.tokens ++ []) (Written.pretty 0 value ++ []) :=
    Written.laid_pretty 0 value .nil
  rw [List.append_nil, List.append_nil] at laid
  rw [PrintedAs, prettyText, String.toList_ofList]
  exact laid

mutual

private theorem fits_of_whole (value : Json) (proper : value.whole = true) (n : Number)
    (found : .number (some n) ∈ value.draft.tokens) :
    ∃ i, n = .integer i ∧ Number.fits i = true := by
  match value with
  | null | boolean _ | string _ | array [] | object [] =>
    simp [draft, draftItems, draftEntries, Draft.tokens] at found
  | number (.integer i) =>
    obtain rfl : n = .integer i := by simpa [draft, Draft.tokens] using found
    exact ⟨i, rfl, proper⟩
  | array (item :: items) =>
    obtain ⟨first, others⟩ := (Bool.and_eq_true _ _).mp proper
    simp only [draft, draftItems, Draft.tokens, List.mem_cons, List.mem_append, reduceCtorEq,
      false_or] at found
    rcases found with here | later
    · exact fits_of_whole item first n here
    · exact fits_of_wholeItems items others n later
  | object ((key, value) :: entries) =>
    obtain ⟨first, others⟩ := (Bool.and_eq_true _ _).mp proper
    simp only [draft, draftEntries, Draft.tokens, List.mem_cons, List.mem_append, reduceCtorEq,
      false_or] at found
    rcases found with here | later
    · exact fits_of_whole value first n here
    · exact fits_of_wholeEntries entries others n later

private theorem fits_of_wholeItems (items : List Json) (proper : wholeItems items = true)
    (n : Number) (found : .number (some n) ∈ Draft.itemTokens (draftItems items)) :
    ∃ i, n = .integer i ∧ Number.fits i = true := by
  match items with
  | [] => simp [draftItems, Draft.itemTokens] at found
  | item :: items =>
    obtain ⟨first, others⟩ := (Bool.and_eq_true _ _).mp proper
    simp only [draftItems, Draft.itemTokens, List.mem_cons, List.mem_append, reduceCtorEq,
      false_or] at found
    rcases found with here | later
    · exact fits_of_whole item first n here
    · exact fits_of_wholeItems items others n later

private theorem fits_of_wholeEntries (entries : List (String × Json))
    (proper : wholeEntries entries = true) (n : Number)
    (found : .number (some n) ∈ Draft.entryTokens (draftEntries entries)) :
    ∃ i, n = .integer i ∧ Number.fits i = true := by
  match entries with
  | [] => simp [draftEntries, Draft.entryTokens] at found
  | (key, value) :: entries =>
    obtain ⟨first, others⟩ := (Bool.and_eq_true _ _).mp proper
    simp only [draftEntries, Draft.entryTokens, List.mem_cons, List.mem_append, reduceCtorEq,
      false_or] at found
    rcases found with here | later
    · exact fits_of_whole value first n here
    · exact fits_of_wholeEntries entries others n later

end

private theorem blank_indented (level : Nat) (token : Token) (next : Option Token) :
    ∀ c ∈ Token.indented level token next, Token.isBlank c = true := by
  have line (level : Nat) : ∀ c ∈ Token.lineBreak level, Token.isBlank c = true := by
    intro c found
    rcases List.mem_cons.1 found with rfl | found
    · rfl
    · rw [List.eq_of_mem_replicate found]
      rfl
  unfold Token.indented
  split
  case h_6 => exact List.forall_mem_singleton.2 rfl
  all_goals first
    | exact line _
    | exact List.forall_mem_nil _

theorem writtenAs_compactText {value : Json} (proper : value.whole = true) :
    value.draft.WrittenAs (compactText value) := by
  have laid := Written.laid_compact value (@Token.Laid.nil _ 0)
  rw [List.append_nil, List.append_nil] at laid
  have spells := laid.spells (fun _ _ _ => List.forall_mem_nil _) (fits_of_whole value proper)
  rw [Draft.WrittenAs, compactText, String.toList_ofList]
  exact ⟨complete_draft value, spells⟩

theorem writtenAs_prettyText {value : Json} (proper : value.whole = true) :
    value.draft.WrittenAs (prettyText value) :=
  ⟨complete_draft value,
    (printedAs_prettyText value).spells blank_indented (fits_of_whole value proper)⟩

end NativeCall.Json
