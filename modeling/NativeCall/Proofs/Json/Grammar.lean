import NativeCall.Json.Draft
import NativeCall.Proofs.Json.Lexical

/-!
The grammar of JSON. A complete draft has one list of tokens, and a text is a text of it if it
spells these. `Draft.ofText_eq_iff` says that a whole text is read as a draft exactly when it is a
text of that draft.
-/

set_option autoImplicit false
set_option relaxedAutoImplicit false

namespace NativeCall.Json

namespace Draft

mutual

def tokens : Draft → List Token
  | null => [.null]
  | boolean b => [.boolean b]
  | number n => [.number n]
  | string s => [.string s]
  | array [] _ => [.openArray, .closeArray]
  | array (item :: items) _ => .openArray :: (tokens item ++ itemTokens items)
  | object [] _ => [.openObject, .closeObject]
  | object ((key, value) :: entries) _ =>
    .openObject :: .string key :: .colon :: (tokens value ++ entryTokens entries)
  | broken => [.junk]

def itemTokens : List Draft → List Token
  | [] => [.closeArray]
  | item :: items => .comma :: (tokens item ++ itemTokens items)

def entryTokens : List (Option String × Draft) → List Token
  | [] => [.closeObject]
  | (key, value) :: entries =>
    .comma :: .string key :: .colon :: (tokens value ++ entryTokens entries)

end

theorem tokens_ne_nil (draft : Draft) : draft.tokens ≠ [] := by
  match draft with
  | null | boolean _ | number _ | string _ | broken => exact List.cons_ne_nil _ _
  | array [] _ | array (_ :: _) _ => exact List.cons_ne_nil _ _
  | object [] _ | object ((_, _) :: _) _ => exact List.cons_ne_nil _ _

private theorem length_tokens_pos (draft : Draft) : 0 < draft.tokens.length :=
  List.length_pos_iff.2 draft.tokens_ne_nil

theorem tokens_ne_closeArray (draft : Draft) (rest tail : List Token) :
    draft.tokens ++ rest ≠ .closeArray :: tail := by
  intro same
  match draft with
  | null | boolean _ | number _ | string _ | broken => cases (List.cons.inj same).1
  | array [] _ | array (_ :: _) _ => cases (List.cons.inj same).1
  | object [] _ | object ((_, _) :: _) _ => cases (List.cons.inj same).1

private theorem read_openArray {fuel : Nat} {rest : List Token}
    (item : ∀ tail, rest ≠ .closeArray :: tail) :
    read (fuel + 1) (.openArray :: rest) =
      (array (readItems fuel rest).1 (readItems fuel rest).2.isSome, (readItems fuel rest).2) := by
  unfold read
  dsimp only
  split
  · next tail => exact absurd rfl (item tail)
  · rfl

private theorem readItems_last {fuel : Nat} {item : Draft} {tokens rest : List Token}
    (first : read fuel tokens = (item, some (.closeArray :: rest))) :
    readItems (fuel + 1) tokens = ([item], some rest) := by
  rw [readItems, first]

private theorem readItems_more {fuel : Nat} {item : Draft} {tokens rest : List Token}
    (first : read fuel tokens = (item, some (.comma :: rest))) :
    readItems (fuel + 1) tokens = (item :: (readItems fuel rest).1, (readItems fuel rest).2) := by
  rw [readItems, first]

private theorem readEntries_last {fuel : Nat} {key : Option String} {value : Draft}
    {tokens rest : List Token} (first : read fuel tokens = (value, some (.closeObject :: rest))) :
    readEntries (fuel + 1) key (.colon :: tokens) = ([(key, value)], some rest) := by
  rw [readEntries, first]

private theorem readEntries_more {fuel : Nat} {key next : Option String} {value : Draft}
    {tokens rest : List Token}
    (first : read fuel tokens = (value, some (.comma :: .string next :: rest))) :
    readEntries (fuel + 1) key (.colon :: tokens) =
      ((key, value) :: (readEntries fuel next rest).1, (readEntries fuel next rest).2) := by
  rw [readEntries, first]

-- The recursion is on the fuel: every token is paid for twice, since a value that is an item or an
-- entry costs one call for itself and one for its place.
mutual

/-- A complete draft is read from its tokens, whatever follows them. -/
theorem read_tokens (draft : Draft) (complete : draft.complete = true) (rest : List Token)
    {fuel : Nat} (enough : 2 * draft.tokens.length ≤ fuel) :
    read fuel (draft.tokens ++ rest) = (draft, some rest) := by
  have some_token := draft.length_tokens_pos
  match fuel, draft, complete with
  | 0, _, _ => omega
  | _ + 1, null, _ | _ + 1, boolean _, _ | _ + 1, number _, _ | _ + 1, string _, _ => rfl
  | fuel + 1, array [] _, complete =>
    obtain rfl : _ = true := complete
    rfl
  | fuel + 1, array (item :: items) closed, complete =>
    obtain ⟨both, rfl⟩ := (Bool.and_eq_true _ _).mp complete
    obtain ⟨first, others⟩ := (Bool.and_eq_true _ _).mp both
    have fits : 2 * (item.tokens.length + (itemTokens items).length) ≤ fuel := by
      simp only [tokens, List.length_cons, List.length_append] at enough
      omega
    have inner := readItems_tokens item items first others rest fits
    rw [tokens, List.cons_append, List.append_assoc,
      read_openArray (tokens_ne_closeArray item _), inner]
    rfl
  | fuel + 1, object [] _, complete =>
    obtain rfl : _ = true := complete
    rfl
  | fuel + 1, object ((key, value) :: entries) closed, complete =>
    obtain ⟨both, rfl⟩ := (Bool.and_eq_true _ _).mp complete
    obtain ⟨first, others⟩ := (Bool.and_eq_true _ _).mp both
    have fits : 2 * (value.tokens.length + (entryTokens entries).length) ≤ fuel := by
      simp only [tokens, List.length_cons, List.length_append] at enough
      omega
    have inner := readEntries_tokens key value entries first others rest fits
    simp only [tokens, List.cons_append, List.append_assoc, read, inner]
    rfl

private theorem readItems_tokens (item : Draft) (items : List Draft)
    (complete : item.complete = true)
    (others : completeItems items = true) (rest : List Token) {fuel : Nat}
    (enough : 2 * (item.tokens.length + (itemTokens items).length) ≤ fuel) :
    readItems fuel (item.tokens ++ (itemTokens items ++ rest)) = (item :: items, some rest) := by
  have some_token := item.length_tokens_pos
  match fuel, items, others with
  | 0, _, _ => omega
  | fuel + 1, [], _ =>
    have fits : 2 * item.tokens.length ≤ fuel := by
      simp only [itemTokens, List.length_singleton] at enough
      omega
    exact readItems_last (read_tokens item complete _ fits)
  | fuel + 1, next :: items, others =>
    obtain ⟨second, others⟩ := (Bool.and_eq_true _ _).mp others
    simp only [itemTokens, List.length_cons, List.length_append] at enough
    have fits : 2 * item.tokens.length ≤ fuel := by omega
    have fits_later : 2 * (next.tokens.length + (itemTokens items).length) ≤ fuel := by omega
    have first := read_tokens item complete (itemTokens (next :: items) ++ rest) fits
    have inner := readItems_tokens next items second others rest fits_later
    simp only [itemTokens, List.cons_append, List.append_assoc] at first ⊢
    rw [readItems_more first, inner]

private theorem readEntries_tokens (key : Option String) (value : Draft)
    (entries : List (Option String × Draft)) (complete : value.complete = true)
    (others : completeEntries entries = true) (rest : List Token) {fuel : Nat}
    (enough : 2 * (value.tokens.length + (entryTokens entries).length) ≤ fuel) :
    readEntries fuel key (.colon :: (value.tokens ++ (entryTokens entries ++ rest))) =
      ((key, value) :: entries, some rest) := by
  have some_token := value.length_tokens_pos
  match fuel, entries, others with
  | 0, _, _ => omega
  | fuel + 1, [], _ =>
    have fits : 2 * value.tokens.length ≤ fuel := by
      simp only [entryTokens, List.length_singleton] at enough
      omega
    exact readEntries_last (read_tokens value complete _ fits)
  | fuel + 1, (next, second) :: entries, others =>
    obtain ⟨complete', others⟩ := (Bool.and_eq_true _ _).mp others
    simp only [entryTokens, List.length_cons, List.length_append] at enough
    have fits : 2 * value.tokens.length ≤ fuel := by omega
    have fits_later : 2 * (second.tokens.length + (entryTokens entries).length) ≤ fuel := by omega
    have first := read_tokens value complete (entryTokens ((next, second) :: entries) ++ rest) fits
    have inner := readEntries_tokens next second entries complete' others rest fits_later
    simp only [entryTokens, List.cons_append, List.append_assoc] at first ⊢
    rw [readEntries_more first, inner]

end

mutual

/-- A draft that is read whole is complete, and was read from its tokens. -/
theorem of_read (fuel : Nat) (ts : List Token) {draft : Draft} {rest : List Token}
    (found : read fuel ts = (draft, some rest)) :
    draft.complete = true ∧ ts = draft.tokens ++ rest := by
  match fuel, ts with
  | 0, _ | _ + 1, [] => cases (Prod.mk.inj found).2
  | fuel + 1, token :: after =>
    unfold read at found
    cases token with
    | null | boolean _ | number _ | string _ =>
      obtain ⟨rfl, same⟩ := Prod.mk.inj found
      obtain rfl := Option.some.inj same
      exact ⟨rfl, rfl⟩
    | openArray =>
      dsimp only at found
      split at found
      · obtain ⟨rfl, same⟩ := Prod.mk.inj found
        obtain rfl := Option.some.inj same
        exact ⟨rfl, rfl⟩
      · obtain ⟨rfl, whole⟩ := Prod.mk.inj found
        obtain ⟨item, items, both, first, others, spelled⟩ := of_readItems fuel after whole
        rw [both, whole, spelled]
        refine ⟨?_, ?_⟩
        · simp only [complete, completeItems, first, others, Option.isSome_some, Bool.and_self]
        · simp only [tokens, List.cons_append, List.append_assoc]
    | openObject =>
      dsimp only at found
      split at found
      · obtain ⟨rfl, same⟩ := Prod.mk.inj found
        obtain rfl := Option.some.inj same
        exact ⟨rfl, rfl⟩
      · next key after =>
        obtain ⟨rfl, whole⟩ := Prod.mk.inj found
        obtain ⟨value, entries, both, first, others, spelled⟩ := of_readEntries fuel key after whole
        rw [both, whole, spelled]
        refine ⟨?_, ?_⟩
        · simp only [complete, completeEntries, first, others, Option.isSome_some, Bool.and_self]
        · simp only [tokens, List.cons_append, List.append_assoc]
      · cases (Prod.mk.inj found).2
    | _ => cases (Prod.mk.inj found).2

private theorem of_readItems (fuel : Nat) (ts : List Token) {rest : List Token}
    (found : (readItems fuel ts).2 = some rest) :
    ∃ item items, (readItems fuel ts).1 = item :: items ∧ item.complete = true ∧
      completeItems items = true ∧ ts = item.tokens ++ (itemTokens items ++ rest) := by
  match fuel with
  | 0 => cases found
  | fuel + 1 =>
    unfold readItems at found
    split at found
    · next item after read =>
      obtain ⟨first, spelled⟩ := of_read fuel ts read
      obtain rfl := Option.some.inj found
      rw [readItems_last read]
      exact ⟨item, [], rfl, first, rfl, spelled⟩
    · next item after read =>
      obtain ⟨first, spelled⟩ := of_read fuel ts read
      obtain ⟨second, items, both, complete, others, inner⟩ := of_readItems fuel after found
      rw [readItems_more read, both]
      refine ⟨item, second :: items, rfl, first, ?_, ?_⟩
      · exact (Bool.and_eq_true _ _).mpr ⟨complete, others⟩
      · rw [spelled, inner, itemTokens, List.cons_append, List.append_assoc]
    · cases found

private theorem of_readEntries (fuel : Nat) (key : Option String) (ts : List Token)
    {rest : List Token} (found : (readEntries fuel key ts).2 = some rest) :
    ∃ value entries, (readEntries fuel key ts).1 = (key, value) :: entries ∧
      value.complete = true ∧ completeEntries entries = true ∧
      ts = .colon :: (value.tokens ++ (entryTokens entries ++ rest)) := by
  match fuel, ts with
  | 0, _ | _ + 1, [] => cases found
  | fuel + 1, token :: ts =>
    unfold readEntries at found
    cases token with
    | colon =>
      dsimp only at found
      split at found
      · next value after read =>
        obtain ⟨first, spelled⟩ := of_read fuel ts read
        obtain rfl := Option.some.inj found
        rw [readEntries_last read, spelled]
        exact ⟨value, [], rfl, first, rfl, rfl⟩
      · next value next after read =>
        obtain ⟨first, spelled⟩ := of_read fuel ts read
        obtain ⟨second, entries, both, complete, others, inner⟩ :=
          of_readEntries fuel next after found
        rw [readEntries_more read, both]
        refine ⟨value, (next, second) :: entries, rfl, first, ?_, ?_⟩
        · exact (Bool.and_eq_true _ _).mpr ⟨complete, others⟩
        · rw [spelled, inner]
          simp only [entryTokens, List.cons_append, List.append_assoc]
      · cases found
    | _ => cases found

end

/-- Tokens that can be written in a row: all of them have a written form, and no two numbers stand
side by side. -/
structure Proper (tokens : List Token) : Prop where
  apart : tokens.IsChain Token.Apart
  sound : .junk ∉ tokens

theorem Proper.nil : Proper [] :=
  ⟨List.isChain_nil, List.not_mem_nil⟩

theorem Proper.cons {token : Token} {rest : List Token} (other : token.isNumber = false)
    (sound : .junk ≠ token) (proper : Proper rest) : Proper (token :: rest) := by
  refine ⟨List.isChain_cons.2 ⟨fun next _ number => ?_, proper.apart⟩, ?_⟩
  · rw [other] at number
    cases number
  · exact List.not_mem_cons_of_ne_of_not_mem sound proper.sound

theorem Proper.number {n : Option Number} {rest : List Token} (proper : Proper rest)
    (other : ∀ next ∈ rest.head?, next.isNumber = false) : Proper (.number n :: rest) := by
  refine ⟨List.isChain_cons.2 ⟨fun next found _ => other next found, proper.apart⟩, ?_⟩
  exact List.not_mem_cons_of_ne_of_not_mem nofun proper.sound

private theorem head_itemTokens (items : List Draft) (rest : List Token) :
    ∀ next ∈ (itemTokens items ++ rest).head?, next.isNumber = false := by
  intro next found
  cases items with
  | nil | cons =>
    obtain rfl := Option.some.inj found
    rfl

private theorem head_entryTokens (entries : List (Option String × Draft)) (rest : List Token) :
    ∀ next ∈ (entryTokens entries ++ rest).head?, next.isNumber = false := by
  intro next found
  cases entries with
  | nil | cons =>
    obtain rfl := Option.some.inj found
    rfl

mutual

private theorem proper_tokens (draft : Draft) (complete : draft.complete = true) {rest : List Token}
    (proper : Proper rest) (other : ∀ next ∈ rest.head?, next.isNumber = false) :
    Proper (draft.tokens ++ rest) := by
  match draft, complete with
  | null, _ | boolean _, _ | string _, _ => exact proper.cons rfl nofun
  | number n, _ => exact proper.number other
  | array [] _, _ =>
    have closed : Proper (.closeArray :: rest) := proper.cons rfl nofun
    exact closed.cons rfl nofun
  | object [] _, _ =>
    have closed : Proper (.closeObject :: rest) := proper.cons rfl nofun
    exact closed.cons rfl nofun
  | array (item :: items) _, complete =>
    obtain ⟨both, -⟩ := (Bool.and_eq_true _ _).mp complete
    obtain ⟨first, others⟩ := (Bool.and_eq_true _ _).mp both
    have inner := proper_tokens item first (proper_itemTokens items others proper)
      (head_itemTokens items rest)
    rw [tokens, List.cons_append, List.append_assoc]
    exact inner.cons rfl nofun
  | object ((key, value) :: entries) _, complete =>
    obtain ⟨both, -⟩ := (Bool.and_eq_true _ _).mp complete
    obtain ⟨first, others⟩ := (Bool.and_eq_true _ _).mp both
    have inner := proper_tokens value first (proper_entryTokens entries others proper)
      (head_entryTokens entries rest)
    have given : Proper (.colon :: (value.tokens ++ (entryTokens entries ++ rest))) :=
      inner.cons rfl nofun
    have named : Proper (.string key :: _) := given.cons rfl nofun
    simp only [tokens, List.cons_append, List.append_assoc]
    exact named.cons rfl nofun

private theorem proper_itemTokens (items : List Draft) (complete : completeItems items = true)
    {rest : List Token} (proper : Proper rest) : Proper (itemTokens items ++ rest) := by
  match items, complete with
  | [], _ => exact proper.cons rfl nofun
  | item :: items, complete =>
    obtain ⟨first, others⟩ := (Bool.and_eq_true _ _).mp complete
    have inner := proper_tokens item first (proper_itemTokens items others proper)
      (head_itemTokens items rest)
    rw [itemTokens, List.cons_append, List.append_assoc]
    exact inner.cons rfl nofun

private theorem proper_entryTokens (entries : List (Option String × Draft))
    (complete : completeEntries entries = true) {rest : List Token} (proper : Proper rest) :
    Proper (entryTokens entries ++ rest) := by
  match entries, complete with
  | [], _ => exact proper.cons rfl nofun
  | (key, value) :: entries, complete =>
    obtain ⟨first, others⟩ := (Bool.and_eq_true _ _).mp complete
    have inner := proper_tokens value first (proper_entryTokens entries others proper)
      (head_entryTokens entries rest)
    have given : Proper (.colon :: (value.tokens ++ (entryTokens entries ++ rest))) :=
      inner.cons rfl nofun
    have named : Proper (.string key :: _) := given.cons rfl nofun
    simp only [entryTokens, List.cons_append, List.append_assoc]
    exact named.cons rfl nofun

end

/-- A text is a text of a draft if the draft is complete and the text spells its tokens. -/
def WrittenAs (draft : Draft) (text : String) : Prop :=
  draft.complete = true ∧ Token.Spells draft.tokens text.toList

/-- A text is read to its end exactly if it is a text of the draft that is read. -/
theorem ofText_eq_iff (text : String) (draft : Draft) :
    ofText text = (draft, true) ↔ draft.WrittenAs text := by
  have long : text.toList.length < text.length + 1 := by
    rw [String.length_toList]
    exact Nat.lt_succ_self _
  constructor
  · intro found
    dsimp only [ofText] at found
    cases read : read (2 * (Token.ofText text).length + 2) (Token.ofText text) with
    | mk draft' after =>
      rw [read] at found
      obtain ⟨rfl, whole⟩ := Prod.mk.inj found
      obtain rfl := eq_of_beq whole
      obtain ⟨complete, all⟩ := of_read _ _ read
      rw [List.append_nil] at all
      have proper := proper_tokens draft' complete .nil fun _ found => by cases found
      rw [List.append_nil, ← all] at proper
      exact ⟨complete, all ▸ Token.spells_of_readAll long proper.sound⟩
  · rintro ⟨complete, spells⟩
    have proper := proper_tokens draft complete .nil fun _ found => by cases found
    rw [List.append_nil] at proper
    have all : Token.ofText text = draft.tokens :=
      Token.readAll_of_spells spells proper.apart long
    have enough : 2 * draft.tokens.length ≤ 2 * draft.tokens.length + 2 := Nat.le_add_right _ _
    have read := read_tokens draft complete [] enough
    rw [List.append_nil] at read
    rw [ofText, all, read]
    rfl

end Draft

theorem readText_of_writtenAs {α : Type} {draft : Draft} {text : String}
    (written : draft.WrittenAs text) (reader : Draft → Except Fault α) :
    readText reader text = reader draft := by
  rw [readText, (draft.ofText_eq_iff text).2 written]
  cases read : reader draft with
  | ok a =>
    simp only [read]
    rfl
  | error e =>
    simp only [read]
    rfl

end NativeCall.Json
