import NativeCall.Proofs.Json.Lexical
import NativeCall.Text.Quoted

/-!
Written forms that can be told apart. The digits of a number say which number it is and where they
end, in front of anything but a digit; a quoted text says which text it is and where it ends in
front of anything at all, because what is escaped never looks like what stands for itself.
-/

set_option autoImplicit false
set_option relaxedAutoImplicit false

namespace NativeCall.Text

/-- In front of texts of a kind, a written form says what it stands for and where it ends. -/
def Legible {α : Type} (write : α → List Char) (before : List Char → Prop) : Prop :=
  ∀ a b s t, before s → before t → write a ++ s = write b ++ t → a = b ∧ s = t

/-- Written forms one after another can be read up to a character that none of them starts with. -/
theorem Legible.flatMap {α : Type} {write : α → List Char} {stop : Char}
    (legible : Legible write fun _ => True)
    (starts : ∀ a, ∃ c rest, write a = c :: rest ∧ c ≠ stop) :
    Legible (List.flatMap write) fun rest => ∃ after, rest = stop :: after := by
  have ends {a : α} {text after : List Char} (same : stop :: after = write a ++ text) : False := by
    obtain ⟨c, rest, form, other⟩ := starts a
    rw [form, List.cons_append] at same
    exact other (List.cons.inj same).1.symm
  intro as
  induction as with
  | nil =>
    rintro bs s t ⟨after, rfl⟩ - same
    cases bs with
    | nil => exact ⟨rfl, same⟩
    | cons b bs =>
      rw [List.flatMap_nil, List.nil_append, List.flatMap_cons, List.append_assoc] at same
      exact (ends same).elim
  | cons a as ih =>
    rintro bs s t before ⟨after, rfl⟩ same
    rw [List.flatMap_cons, List.append_assoc] at same
    cases bs with
    | nil =>
      rw [List.flatMap_nil, List.nil_append] at same
      exact (ends same.symm).elim
    | cons b bs =>
      rw [List.flatMap_cons, List.append_assoc] at same
      obtain ⟨rfl, others⟩ := legible a b _ _ trivial trivial same
      obtain ⟨rfl, rest⟩ := ih bs s _ before ⟨after, rfl⟩ others
      exact ⟨rfl, rest⟩

section Digits

variable {base : Nat} (wide : 1 < base)

include wide

theorem exists_digitChar {n : Nat} {c : Char} (member : c ∈ base.toDigits n) :
    ∃ d : Nat, d.digitChar = c := by
  induction n using Nat.strongRecOn with
  | ind n ih =>
    rw [Nat.toDigits_eq_if wide] at member
    split at member
    · exact ⟨n, (List.mem_singleton.1 member).symm⟩
    · next large =>
      have smaller : n / base < n := Nat.div_lt_self (by omega) wide
      rcases List.mem_append.1 member with front | last
      · exact ih (n / base) smaller front
      · exact ⟨n % base, (List.mem_singleton.1 last).symm⟩

private theorem toDigits_eq_append (n : Nat) :
    base.toDigits n =
      (if n < base then [] else base.toDigits (n / base)) ++ [(n % base).digitChar] := by
  rw [Nat.toDigits_eq_if wide]
  split
  · next small => rw [Nat.mod_eq_of_lt small, List.nil_append]
  · rfl

private theorem toDigits_injective (known : base ≤ 16) : Function.Injective base.toDigits := by
  have digit : ∀ a < 16, ∀ b < 16, a.digitChar = b.digitChar → a = b := by decide
  have nonempty (n : Nat) : base.toDigits n ≠ [] := Nat.toDigits_ne_nil
  intro n
  induction n using Nat.strongRecOn with
  | ind n ih =>
    intro m same
    rw [toDigits_eq_append wide n, toDigits_eq_append wide m] at same
    obtain ⟨front, last⟩ := List.append_inj' same rfl
    have below (k : Nat) : k % base < 16 :=
      Nat.lt_of_lt_of_le (Nat.mod_lt k (by omega)) known
    have lastDigit : n % base = m % base :=
      digit _ (below n) _ (below m) (List.cons.inj last).1
    by_cases small : n < base
    · by_cases small' : m < base
      · rwa [Nat.mod_eq_of_lt small, Nat.mod_eq_of_lt small'] at lastDigit
      · rw [if_pos small, if_neg small'] at front
        exact absurd front.symm (nonempty _)
    · by_cases small' : m < base
      · rw [if_neg small, if_pos small'] at front
        exact absurd front (nonempty _)
      · rw [if_neg small, if_neg small'] at front
        have quotient := ih (n / base) (Nat.div_lt_self (by omega) wide) front
        rw [← Nat.div_add_mod n base, ← Nat.div_add_mod m base, quotient, lastDigit]

private theorem legible_toDigits (known : base ≤ 16) {p : Char → Bool}
    (all : ∀ n, ∀ c ∈ base.toDigits n, p c = true) :
    Legible base.toDigits fun rest => ∀ c ∈ rest.head?, p c = false := by
  intro n m s t stop stop' same
  obtain ⟨run, rest⟩ := Json.span_append (all n) stop
  obtain ⟨run', rest'⟩ := Json.span_append (all m) stop'
  rw [same] at run rest
  exact ⟨toDigits_injective wide known (run.symm.trans run'), rest.symm.trans rest'⟩

end Digits

theorem Decimal.legible_digits :
    Legible Decimal.digits fun rest => ∀ c ∈ rest.head?, c.isDigit = false :=
  legible_toDigits (by decide) (by decide) fun _ _ =>
    Nat.isDigit_of_mem_toDigits (by decide) (by decide)

namespace Quoted

def letter? : Char → Option Char
  | '"' => some '"'
  | '\\' => some '\\'
  | '0' => some '\x00'
  | 't' => some '\t'
  | 'r' => some '\r'
  | 'n' => some '\n'
  | _ => none

/-- The three written forms of a character. -/
inductive Escaped (c : Char) : List Char → Prop where
  | plain (quote : c ≠ '"') (slash : c ≠ '\\') : Escaped c [c]
  | short {letter : Char} (stands : letter? letter = some c) : Escaped c ['\\', letter]
  | number : Escaped c (byNumber c)

private theorem escaped_escape (c : Char) : Escaped c (escape c) := by
  unfold escape
  split
  case h_7 quote slash _ _ _ _ =>
    split
    · exact .number
    · exact .plain quote slash
  all_goals exact .short rfl

private theorem byNumber_append (c : Char) (rest : List Char) :
    byNumber c ++ rest =
      '\\' :: 'u' :: '\x7b' :: (Nat.toDigits 16 c.toNat ++ '\x7d' :: rest) := by
  simp [byNumber]

private theorem byNumber_inj {c d : Char} {s t : List Char}
    (same : byNumber c ++ s = byNumber d ++ t) : c = d ∧ s = t := by
  have noBrace (n : Nat) : ∀ e ∈ Nat.toDigits 16 n, (e != '\x7d') = true := by
    intro e member
    obtain ⟨k, rfl⟩ := exists_digitChar (by decide) member
    exact bne_iff_ne.2 (Nat.digitChar_ne '\x7d' (by decide))
  have stop (rest : List Char) : ∀ e ∈ ('\x7d' :: rest).head?, (e != '\x7d') = false := by
    simp
  rw [byNumber_append, byNumber_append] at same
  simp only [List.cons.injEq, true_and] at same
  obtain ⟨number, rest⟩ := legible_toDigits (by decide) (by decide) noBrace _ _ _ _
    (stop s) (stop t) same
  exact ⟨Char.toNat_inj.1 number, (List.cons.inj rest).2⟩

theorem Escaped.inj {c d : Char} {one other s t : List Char} (first : Escaped c one)
    (second : Escaped d other) (same : one ++ s = other ++ t) : c = d ∧ s = t := by
  cases first with
  | plain quote slash =>
    cases second with
    | plain => exact List.cons.inj same
    | short => exact absurd (List.cons.inj same).1 slash
    | number => exact absurd (List.cons.inj same).1 slash
  | @short letter stands =>
    cases second with
    | plain _ slash => exact absurd (List.cons.inj same).1.symm slash
    | short stands' =>
      simp only [List.cons_append, List.nil_append, List.cons.injEq, true_and] at same
      obtain ⟨rfl, rest⟩ := same
      exact ⟨Option.some.inj (stands.symm.trans stands'), rest⟩
    | number =>
      obtain rfl : letter = 'u' := (List.cons.inj (List.cons.inj same).2).1
      cases stands
  | number =>
    cases second with
    | plain _ slash => exact absurd (List.cons.inj same).1.symm slash
    | @short letter stands =>
      obtain rfl : 'u' = letter := (List.cons.inj (List.cons.inj same).2).1
      cases stands
    | number => exact byNumber_inj same

private theorem legible_escape : Legible escape fun _ => True :=
  fun c d _ _ _ _ same => (escaped_escape c).inj (escaped_escape d) same

theorem Escaped.start {c : Char} {form : List Char} (escaped : Escaped c form) :
    ∃ first rest, form = first :: rest ∧ first ≠ '"' := by
  cases escaped with
  | plain quote => exact ⟨_, _, rfl, quote⟩
  | short => exact ⟨_, _, rfl, by decide⟩
  | number => exact ⟨_, _, rfl, by decide⟩

private theorem legible_encode : Legible encode fun _ => True := by
  intro text other s t _ _ same
  simp only [encode, List.cons_append, List.append_assoc, List.nil_append,
    List.cons.injEq, true_and] at same
  obtain ⟨whole, rest⟩ := legible_escape.flatMap (fun c => (escaped_escape c).start) text other _ _
    ⟨s, rfl⟩ ⟨t, rfl⟩ same
  exact ⟨whole, (List.cons.inj rest).2⟩

theorem quote_injective : Function.Injective quote := by
  intro text other same
  have characters := congrArg String.toList same
  rw [quote, quote, String.toList_ofList, String.toList_ofList] at characters
  have ended : encode text.toList ++ [] = encode other.toList ++ [] := by
    rw [characters]
  exact String.toList_inj.1 (legible_encode _ _ [] [] trivial trivial ended).1

end Quoted

end NativeCall.Text
