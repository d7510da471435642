import NativeCall.Json.Draft

/-!
What the reader of JSON yields: whole numbers that fit, and objects that hold each of their keys
once. `wellFormed_of_readAny` says so of every text that can be read.
-/

set_option autoImplicit false
set_option relaxedAutoImplicit false

namespace NativeCall

namespace Json

def Number.wellFormed : Number → Bool
  | .integer n => Number.fits n
  | .double _ _ => true

mutual

/-- Whether every number in a value is one that a JSON text can denote, and every object holds each
of its keys once. -/
def wellFormed : Json → Bool
  | number n => n.wellFormed
  | array items => wellFormedItems items
  | object entries => wellFormedEntries entries
  | _ => true

def wellFormedItems : List Json → Bool
  | [] => true
  | item :: items => wellFormed item && wellFormedItems items

def wellFormedEntries : List (String × Json) → Bool
  | [] => true
  | (key, value) :: entries =>
    !(entries.map Prod.fst).contains key && wellFormed value && wellFormedEntries entries

end

theorem wellFormedItems_iff (items : List Json) :
    wellFormedItems items = true ↔ ∀ item ∈ items, item.wellFormed = true := by
  induction items with
  | nil => simp [wellFormedItems]
  | cons item items ih => rw [wellFormedItems, Bool.and_eq_true, ih, List.forall_mem_cons]

theorem wellFormedEntries_iff (entries : List (String × Json)) :
    wellFormedEntries entries = true ↔
      (entries.map Prod.fst).Nodup ∧ ∀ entry ∈ entries, entry.2.wellFormed = true := by
  induction entries with
  | nil => simp [wellFormedEntries]
  | cons entry entries ih =>
    obtain ⟨key, value⟩ := entry
    simp only [wellFormedEntries, Bool.and_eq_true, Bool.not_eq_true', List.contains_eq_mem,
      decide_eq_false_iff_not, ih, List.map_cons, List.nodup_cons, List.forall_mem_cons]
    constructor
    · rintro ⟨⟨new, proper⟩, distinct, others⟩
      exact ⟨⟨new, distinct⟩, proper, others⟩
    · rintro ⟨⟨new, distinct⟩, proper, others⟩
      exact ⟨⟨new, proper⟩, distinct, others⟩

def Token.wellFormed : Token → Bool
  | number (some n) => n.wellFormed
  | _ => true

private theorem Number.eq_of_ofDouble? {d : Double} {n : Number} (found : ofDouble? d = some n) :
    ∃ finite, n = .double d finite := by
  unfold ofDouble? at found
  split at found
  · next finite => exact ⟨finite, (Option.some.inj found).symm⟩
  · cases found

private theorem Numeral.wellFormed_number? {numeral : Numeral} {n : Number}
    (found : numeral.number? = some n) : n.wellFormed = true := by
  have ofDouble (found : numeral.double? = some n) : n.wellFormed = true := by
    obtain ⟨d, -, made⟩ := Option.bind_eq_some_iff.1 found
    obtain ⟨finite, rfl⟩ := Number.eq_of_ofDouble? made
    rfl
  unfold number? at found
  split at found
  · split at found
    · next fits =>
      obtain rfl := Option.some.inj found
      exact (Bool.and_eq_true _ _ ▸ fits).1
    · exact ofDouble found
  · exact ofDouble found

private theorem Token.wellFormed_next (text : List Char) : (next text).1.wellFormed = true := by
  unfold next
  split
  case h_11 =>
    split
    · next numeral rest read =>
      cases found : numeral.number? with
      | none => rfl
      | some n => exact Numeral.wellFormed_number? found
    · rfl
  case h_10 => split <;> rfl
  all_goals rfl

private theorem Token.wellFormed_readAll (fuel : Nat) (text : List Char) :
    ∀ token ∈ readAll fuel text, token.wellFormed = true := by
  induction fuel generalizing text with
  | zero => exact List.forall_mem_nil _
  | succ fuel ih =>
    unfold readAll
    split
    · exact List.forall_mem_nil _
    · next c rest _ =>
      have first := wellFormed_next (c :: rest)
      split
      · exact fun token found => List.mem_singleton.1 found ▸ rfl
      · next token rest _ read =>
        rw [read] at first
        exact List.forall_mem_cons.2 ⟨first, ih rest⟩

namespace Draft

mutual

def wellFormed : Draft → Bool
  | number (some n) => n.wellFormed
  | array items _ => wellFormedItems items
  | object entries _ => wellFormedEntries entries
  | _ => true

def wellFormedItems : List Draft → Bool
  | [] => true
  | item :: items => wellFormed item && wellFormedItems items

def wellFormedEntries : List (Option String × Draft) → Bool
  | [] => true
  | (_, value) :: entries => wellFormed value && wellFormedEntries entries

end

def Sound (tokens : List Token) : Prop :=
  ∀ token ∈ tokens, token.wellFormed = true

theorem Sound.tail {token : Token} {rest : List Token} (sound : Sound (token :: rest)) :
    Sound rest :=
  (List.forall_mem_cons.1 sound).2

def SoundAfter : Option (List Token) → Prop
  | none => True
  | some rest => Sound rest

mutual

private theorem wellFormed_read (fuel : Nat) (tokens : List Token) (sound : Sound tokens) :
    (read fuel tokens).1.wellFormed = true ∧ SoundAfter (read fuel tokens).2 := by
  match fuel, tokens with
  | 0, _ => exact ⟨rfl, trivial⟩
  | _ + 1, [] => exact ⟨rfl, trivial⟩
  | fuel + 1, token :: rest =>
    unfold read
    have rest_sound := sound.tail
    cases token with
    | null => exact ⟨rfl, rest_sound⟩
    | boolean b => exact ⟨rfl, rest_sound⟩
    | number n =>
      refine ⟨?_, rest_sound⟩
      have proper := sound (.number n) (List.mem_cons_self ..)
      cases n with
      | none => rfl
      | some n => exact proper
    | string s => exact ⟨rfl, rest_sound⟩
    | openArray =>
      dsimp only
      split
      · exact ⟨rfl, rest_sound.tail⟩
      · exact wellFormed_readItems fuel rest rest_sound
    | openObject =>
      dsimp only
      split
      · exact ⟨rfl, rest_sound.tail⟩
      · next key rest => exact wellFormed_readEntries fuel key rest rest_sound.tail
      · exact ⟨rfl, trivial⟩
    | _ => exact ⟨rfl, trivial⟩

private theorem wellFormed_readItems (fuel : Nat) (tokens : List Token) (sound : Sound tokens) :
    wellFormedItems (readItems fuel tokens).1 = true ∧ SoundAfter (readItems fuel tokens).2 := by
  match fuel with
  | 0 => exact ⟨rfl, trivial⟩
  | fuel + 1 =>
    unfold readItems
    obtain ⟨first, after⟩ := wellFormed_read fuel tokens sound
    split
    · next item rest read =>
      rw [read] at first after
      exact ⟨Bool.and_eq_true_iff.2 ⟨first, rfl⟩, after.tail⟩
    · next item rest read =>
      rw [read] at first after
      obtain ⟨others, last⟩ := wellFormed_readItems fuel rest after.tail
      exact ⟨Bool.and_eq_true_iff.2 ⟨first, others⟩, last⟩
    · next item _ _ read =>
      rw [read] at first
      exact ⟨Bool.and_eq_true_iff.2 ⟨first, rfl⟩, trivial⟩

private theorem wellFormed_readEntries (fuel : Nat) (key : Option String) (tokens : List Token)
    (sound : Sound tokens) :
    wellFormedEntries (readEntries fuel key tokens).1 = true ∧
      SoundAfter (readEntries fuel key tokens).2 := by
  match fuel, tokens with
  | 0, _ => exact ⟨rfl, trivial⟩
  | fuel + 1, [] => exact ⟨rfl, trivial⟩
  | fuel + 1, token :: tokens =>
    unfold readEntries
    cases token with
    | colon =>
      dsimp only
      obtain ⟨first, after⟩ := wellFormed_read fuel tokens sound.tail
      split
      · next value rest read =>
        rw [read] at first after
        exact ⟨Bool.and_eq_true_iff.2 ⟨first, rfl⟩, after.tail⟩
      · next value next rest read =>
        rw [read] at first after
        obtain ⟨others, last⟩ := wellFormed_readEntries fuel next rest after.tail.tail
        exact ⟨Bool.and_eq_true_iff.2 ⟨first, others⟩, last⟩
      · next value _ _ _ read =>
        rw [read] at first
        exact ⟨Bool.and_eq_true_iff.2 ⟨first, rfl⟩, trivial⟩
    | _ => exact ⟨rfl, trivial⟩

end

mutual

private theorem wellFormed_of_value? (depth : Nat) (draft : Draft)
    (proper : draft.wellFormed = true)
    {value : Json} (found : draft.value? depth = some value) : value.wellFormed = true := by
  match depth, draft with
  | _, null | _, boolean _ =>
    obtain rfl := Option.some.inj found
    rfl
  | _, number n =>
    obtain ⟨n, rfl, rfl⟩ := Option.map_eq_some_iff.1 found
    exact proper
  | _, string s =>
    obtain ⟨s, rfl, rfl⟩ := Option.map_eq_some_iff.1 found
    rfl
  | 0, array _ _ => cases found
  | 0, object _ _ => cases found
  | _, broken => cases found
  | depth + 1, array items closed =>
    unfold value? at found
    split at found
    · obtain ⟨values, read, rfl⟩ := Option.map_eq_some_iff.1 found
      exact wellFormed_of_items? depth items proper read
    · cases found
  | depth + 1, object entries closed =>
    unfold value? at found
    split at found
    · obtain ⟨pairs, read, rfl⟩ := Option.map_eq_some_iff.1 found
      have values := wellFormed_of_entries? depth entries proper read
      exact (wellFormedEntries_iff _).2 ⟨Dictionary.nodup_keys_ofPairs pairs,
        fun entry held => values entry (Dictionary.mem_of_mem_ofPairs held)⟩
    · cases found

private theorem wellFormed_of_items? (depth : Nat) (items : List Draft)
    (proper : wellFormedItems items = true) {values : List Json}
    (found : items? depth items = some values) : Json.wellFormedItems values = true := by
  match items with
  | [] =>
    unfold items? at found
    obtain rfl := Option.some.inj found
    rfl
  | item :: items =>
    unfold items? at found
    obtain ⟨value, first, others⟩ := Option.bind_eq_some_iff.1 found
    obtain ⟨values, rest, same⟩ := Option.bind_eq_some_iff.1 others
    obtain rfl := Option.some.inj same
    obtain ⟨properFirst, properRest⟩ := Bool.and_eq_true_iff.1 proper
    exact Bool.and_eq_true_iff.2 ⟨wellFormed_of_value? depth item properFirst first,
      wellFormed_of_items? depth items properRest rest⟩

private theorem wellFormed_of_entries? (depth : Nat) (entries : List (Option String × Draft))
    (proper : wellFormedEntries entries = true) {pairs : List (String × Json)}
    (found : entries? depth entries = some pairs) :
    ∀ pair ∈ pairs, pair.2.wellFormed = true := by
  match entries with
  | [] =>
    unfold entries? at found
    obtain rfl := Option.some.inj found
    exact List.forall_mem_nil _
  | (key, draft) :: entries =>
    unfold entries? at found
    obtain ⟨name, _, later⟩ := Option.bind_eq_some_iff.1 found
    obtain ⟨value, first, others⟩ := Option.bind_eq_some_iff.1 later
    obtain ⟨values, rest, same⟩ := Option.bind_eq_some_iff.1 others
    obtain rfl := Option.some.inj same
    obtain ⟨properFirst, properRest⟩ := Bool.and_eq_true_iff.1 proper
    exact List.forall_mem_cons.2 ⟨wellFormed_of_value? depth draft properFirst first,
      wellFormed_of_entries? depth entries properRest rest⟩

end

end Draft

/-- What is read of a text is well-formed. -/
theorem wellFormed_of_readAny {text : String} {value : Json}
    (read : readText readAny text = .ok value) : value.wellFormed = true := by
  have sound : Draft.Sound (Token.ofText text) := Token.wellFormed_readAll _ _
  have proper : (Draft.ofText text).1.wellFormed = true := by
    unfold Draft.ofText
    exact (Draft.wellFormed_read _ _ sound).1
  unfold readText at read
  cases drafted : Draft.ofText text with
  | mk draft whole =>
    rw [drafted] at read proper
    dsimp only at read proper
    cases found : draft.value? greatestDepth with
    | none =>
      simp only [readAny, found] at read
      cases read
    | some result =>
      simp only [readAny, found] at read
      have kept : (if whole = true then Except.ok result else .error Fault.malformed) =
          .ok value := read
      split at kept
      · obtain rfl := Except.ok.inj kept
        exact Draft.wellFormed_of_value? _ draft proper found
      · cases kept

end Json
end NativeCall
