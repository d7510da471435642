import Mathlib.Data.List.Basic
import NativeCall.Command.Options

/-!
The grammar of the command line. Read from the left, its words are those of items: flags, options
with the word after them, and positional words. What the options then hold depends only on the items
(`parse_eq_verdict`), and `parse_items` says which command lines are accepted, what they ask for,
and that items may change places.
-/

set_option autoImplicit false
set_option relaxedAutoImplicit false

namespace NativeCall.Command

/-- A part of the command line that has a meaning of its own. -/
inductive Item where
  | block
  | trace
  | verbose
  | config (path : String)
  | global (name : String)
  | positional (word : String)
  deriving DecidableEq, Repr

namespace Item

def words : Item → List String
  | block => ["--block"]
  | trace => ["--trace"]
  | verbose => ["--verbose"]
  | config path => ["--config", path]
  | global name => ["--global", name]
  | positional word => [word]

private theorem words_pos (item : Item) : 0 < item.words.length := by
  cases item <;> exact Nat.succ_pos _

/-- A positional word does not begin with two dashes. -/
def Proper : Item → Prop
  | positional word => ¬ ['-', '-'] <+: word.toList
  | _ => True

def positional? : Item → Option String
  | positional word => some word
  | _ => none

def config? : Item → Option String
  | config path => some path
  | _ => none

def global? : Item → Option String
  | global name => some name
  | _ => none

variable (items : List Item)

def positionals : List String := items.filterMap positional?

def configs : List String := items.filterMap config?

def globals : List String := items.filterMap global?

end Item

structure Split (words : List String) (items : List Item) : Prop where
  spelled : words = items.flatMap Item.words
  proper : ∀ item ∈ items, item.Proper

/-- What items ask for: the first two positional words, and the last of several options. -/
def Options.ofItems (items : List Item) : Options where
  format := (Item.positionals items)[0]?
  arguments := (Item.positionals items)[1]?
  global := (Item.globals items).getLast?
  config := (Item.configs items).getLast?
  block := decide (.block ∈ items)
  trace := decide (.trace ∈ items)
  verbose := decide (.verbose ∈ items)

private theorem Flag.dashes (f : Flag) : ['-', '-'] <+: f.name.toList := by
  cases f <;> decide

private theorem Word.classify_cases (word : String) :
    (∃ f : Flag, classify word = .flag f ∧ word = f.name) ∨
    (classify word = .unknown ∧ ['-', '-'] <+: word.toList) ∨
    (classify word = .positional ∧ ¬ ['-', '-'] <+: word.toList) := by
  unfold classify
  cases found : Flag.labels.find? word with
  | some f =>
    have named : f.name = word := by simpa [Flag.labels] using List.find?_some found
    exact .inl ⟨f, rfl, named.symm⟩
  | none =>
    right
    dsimp only
    split
    · next rest spelled =>
      rw [spelled]
      exact .inl ⟨rfl, rest, rfl⟩
    · next other =>
      refine .inr ⟨rfl, ?_⟩
      rintro ⟨rest, spelled⟩
      exact other rest spelled.symm

private theorem Word.classify_name (f : Flag) : classify f.name = .flag f := by
  cases f <;> decide

private theorem Word.classify_of_proper {word : String} (proper : (Item.positional word).Proper) :
    classify word = .positional := by
  rcases classify_cases word with ⟨f, -, rfl⟩ | ⟨-, dashes⟩ | ⟨positional, -⟩
  · exact absurd f.dashes proper
  · exact absurd dashes proper
  · exact positional

def Item.add (options : Options) : Item → Except UsageError Options
  | block => .ok { options with block := true }
  | trace => .ok { options with trace := true }
  | verbose => .ok { options with verbose := true }
  | config path => .ok { options with config := some path }
  | global name => .ok { options with global := some name }
  | positional word => options.addPositional word

namespace Options

private theorem readWords_name (f : Flag) (rest : List String) (options : Options) :
    readWords (f.name :: rest) options = match f with
      | .block => readWords rest { options with block := true }
      | .trace => readWords rest { options with trace := true }
      | .verbose => readWords rest { options with verbose := true }
      | .config =>
        match rest with
        | [] => .error .configNeedsFile
        | value :: rest => readWords rest { options with config := some value }
      | .global =>
        match rest with
        | [] => .error .globalNeedsName
        | value :: rest => readWords rest { options with global := some value } := by
  rw [readWords.eq_def]
  simp only [Word.classify_name]
  cases f <;> rfl

private theorem readWords_append {item : Item} (proper : item.Proper) (rest : List String)
    (options : Options) :
    readWords (item.words ++ rest) options = item.add options >>= readWords rest := by
  cases item with
  | block => exact readWords_name .block rest options
  | trace => exact readWords_name .trace rest options
  | verbose => exact readWords_name .verbose rest options
  | config path => exact readWords_name .config (path :: rest) options
  | global name => exact readWords_name .global (name :: rest) options
  | positional word =>
    have known := Word.classify_of_proper proper
    rw [Item.words, List.singleton_append, readWords.eq_def]
    simp only [known, Item.add]
    cases options.addPositional word <;> rfl

private theorem readWords_flatMap {items : List Item} (proper : ∀ item ∈ items, item.Proper)
    (options : Options) :
    readWords (items.flatMap Item.words) options = items.foldlM Item.add options := by
  induction items generalizing options with
  | nil => rfl
  | cons item items ih =>
    have others := ih fun other member => proper other (List.mem_cons_of_mem _ member)
    rw [List.flatMap_cons, readWords_append (proper item List.mem_cons_self), List.foldlM_cons]
    exact bind_congr others

end Options

theorem Split.nil : Split [] [] where
  spelled := rfl
  proper := fun _ member => absurd member List.not_mem_nil

theorem Split.cons {words : List String} {items : List Item} (split : Split words items)
    {item : Item} (proper : item.Proper) : Split (item.words ++ words) (item :: items) where
  spelled := by rw [List.flatMap_cons, ← split.spelled]
  proper := by
    intro other member
    rcases List.mem_cons.1 member with rfl | later
    · exact proper
    · exact split.proper other later

namespace Options

/-- Words begin with those of an item, or they are refused whatever comes before them. -/
theorem readWords_cases (word : String) (words : List String) :
    (∃ (item : Item) (rest : List String), item.Proper ∧ word :: words = item.words ++ rest) ∨
    ∀ options, ∃ e, readWords (word :: words) options = .error e := by
  rcases Word.classify_cases word with ⟨f, -, rfl⟩ | ⟨unknown, -⟩ | ⟨-, proper⟩
  · cases f with
    | block => exact .inl ⟨.block, words, trivial, rfl⟩
    | trace => exact .inl ⟨.trace, words, trivial, rfl⟩
    | verbose => exact .inl ⟨.verbose, words, trivial, rfl⟩
    | config =>
      cases words with
      | nil => exact .inr fun options => ⟨_, readWords_name .config [] options⟩
      | cons path rest => exact .inl ⟨.config path, rest, trivial, rfl⟩
    | global =>
      cases words with
      | nil => exact .inr fun options => ⟨_, readWords_name .global [] options⟩
      | cons name rest => exact .inl ⟨.global name, rest, trivial, rfl⟩
  · refine .inr fun options => ⟨.unknownOption word, ?_⟩
    rw [readWords.eq_def]
    simp only [unknown]
  · exact .inl ⟨.positional word, words, proper, rfl⟩

private theorem split_of_readWords {words : List String} {options result : Options}
    (read : readWords words options = .ok result) : ∃ items, Split words items := by
  -- an option takes two words at once, so that the induction is on their number
  induction length : words.length using Nat.strongRecOn generalizing words options with
  | ind count ih =>
    cases words with
    | nil => exact ⟨[], .nil⟩
    | cons word words =>
      rcases readWords_cases word words with ⟨item, rest, proper, spelled⟩ | refused
      · have shorter : rest.length < count := by
          have opened := item.words_pos
          rw [← length, spelled, List.length_append]
          omega
        rw [spelled, readWords_append proper] at read
        cases added : item.add options with
        | error e =>
          rw [added] at read
          cases read
        | ok next =>
          rw [added] at read
          obtain ⟨items, split⟩ := ih rest.length shorter read rfl
          rw [spelled]
          exact ⟨item :: items, split.cons proper⟩
      · obtain ⟨e, failed⟩ := refused options
        cases read.symm.trans failed

end Options

namespace Item

private theorem filterMap_concat (pick : Item → Option String) (before : List Item) (item : Item) :
    (before ++ [item]).filterMap pick = before.filterMap pick ++ (pick item).toList := by
  rw [List.filterMap_append]
  cases picked : pick item with
  | none => rw [List.filterMap_cons_none picked, List.filterMap_nil, Option.toList_none]
  | some word => rw [List.filterMap_cons_some picked, List.filterMap_nil, Option.toList_some]

private theorem positionals_concat (before : List Item) (item : Item) :
    positionals (before ++ [item]) = positionals before ++ item.positional?.toList :=
  filterMap_concat positional? before item

private theorem configs_concat (before : List Item) (item : Item) :
    configs (before ++ [item]) = configs before ++ item.config?.toList :=
  filterMap_concat config? before item

private theorem globals_concat (before : List Item) (item : Item) :
    globals (before ++ [item]) = globals before ++ item.global?.toList :=
  filterMap_concat global? before item

end Item

def verdict (items : List Item) : Except UsageError Options :=
  match (Item.positionals items).drop 2 with
  | [] => (Options.ofItems items).check
  | word :: _ => .error (.unexpected word)

namespace Options

private theorem add_ofItems (before : List Item) (item : Item)
    (room : (Item.positionals (before ++ [item])).length ≤ 2) :
    item.add (ofItems before) = .ok (ofItems (before ++ [item])) := by
  simp only [ofItems, Item.positionals_concat, Item.configs_concat, Item.globals_concat] at room ⊢
  cases item with
  | block | trace | verbose | config _ | global _ =>
    simp [Item.add, Item.positional?, Item.config?, Item.global?]
  | positional word =>
    simp only [Item.add, addPositional, Item.positional?, Item.config?, Item.global?] at room ⊢
    match given : Item.positionals before with
    | [] => simp
    | [first] => simp
    | first :: second :: others =>
      rw [given] at room
      simp at room

private theorem foldlM_add (before items : List Item)
    (room : (Item.positionals before).length ≤ 2) :
    items.foldlM Item.add (ofItems before) =
      match (Item.positionals (before ++ items)).drop 2 with
      | [] => .ok (ofItems (before ++ items))
      | word :: _ => .error (.unexpected word) := by
  induction items generalizing before with
  | nil =>
    rw [List.append_nil, List.drop_of_length_le room]
    rfl
  | cons item items ih =>
    by_cases fits : (Item.positionals (before ++ [item])).length ≤ 2
    · have others := ih (before ++ [item]) fits
      rw [List.append_assoc, List.singleton_append] at others
      rw [List.foldlM_cons, add_ofItems before item fits]
      exact others
    · -- only a positional word can be one too many, and the two before it have come first
      rw [Item.positionals_concat] at fits
      cases item with
      | block | trace | verbose | config _ | global _ =>
        simp only [Item.positional?, Option.toList_none, List.append_nil] at fits
        exact absurd room fits
      | positional word =>
        simp only [Item.positional?, Option.toList_some, List.length_append,
          List.length_singleton] at fits
        have shape : Item.positionals (before ++ .positional word :: items) =
            Item.positionals before ++ word :: Item.positionals items := by
          rw [Item.positionals, List.filterMap_append]
          rfl
        have full : (Item.positionals before).length = 2 := by omega
        obtain ⟨first, second, given⟩ := List.length_eq_two.1 full
        rw [List.foldlM_cons, Item.add, addPositional, ofItems, shape, given]
        rfl

private theorem parse_eq_verdict {words : List String} {items : List Item}
    (split : Split words items) : parse words = verdict items := by
  have start : ofItems [] = {} := rfl
  have added := foldlM_add [] items (Nat.zero_le 2)
  rw [start, List.nil_append] at added
  rw [parse, split.spelled, readWords_flatMap split.proper, added, verdict]
  cases (Item.positionals items).drop 2 <;> rfl

private theorem check_eq_ok_iff (options result : Options) :
    options.check = .ok result ↔
      (options.format ≠ none ∧ options.global = none ∨
        options.format = none ∧ options.global ≠ none) ∧ result = options := by
  unfold check
  cases options.format <;> cases options.global <;> simp [eq_comm]

private theorem format_ofItems (items : List Item) :
    (ofItems items).format = none ↔ Item.positionals items = [] := by
  rw [ofItems, List.getElem?_eq_none_iff, Nat.le_zero, List.length_eq_zero_iff]

private theorem global_ofItems (items : List Item) :
    (ofItems items).global = none ↔ Item.globals items = [] :=
  List.getLast?_eq_none_iff

end Options

private theorem verdict_eq_ok_iff (items : List Item) (options : Options) :
    verdict items = .ok options ↔
      (Item.positionals items).length ≤ 2 ∧
      (Item.positionals items ≠ [] ∧ Item.globals items = [] ∨
        Item.positionals items = [] ∧ Item.globals items ≠ []) ∧
      options = .ofItems items := by
  rw [verdict]
  cases extra : (Item.positionals items).drop 2 with
  | nil =>
    have fits := List.drop_eq_nil_iff.1 extra
    simp only [Options.check_eq_ok_iff, ne_eq, Options.format_ofItems, Options.global_ofItems,
      fits, true_and]
  | cons word rest =>
    have more : ¬ (Item.positionals items).length ≤ 2 := by
      intro fits
      rw [List.drop_eq_nil_iff.2 fits] at extra
      cases extra
    simp only [reduceCtorEq, more, false_and]

/-- Items may change places as long as those of a kind that is counted keep their order. -/
theorem verdict_perm {items others : List Item} (perm : items.Perm others)
    (positionals : Item.positionals items = Item.positionals others)
    (configs : Item.configs items = Item.configs others)
    (globals : Item.globals items = Item.globals others) :
    verdict others = verdict items := by
  have same : Options.ofItems others = .ofItems items := by
    simp only [Options.ofItems, positionals, configs, globals, perm.mem_iff]
  rw [verdict, verdict, same, positionals]

/-- A command line is accepted exactly when its words are those of items that ask either for a
format, perhaps with its arguments, or for a global. It then asks for what the items say, and
items may change places as long as the positional words, the files and the globals each keep their
order. -/
theorem parse_items (words : List String) :
    (∀ options, Options.parse words = .ok options ↔
      ∃ items, Split words items ∧ (Item.positionals items).length ≤ 2 ∧
        (Item.positionals items ≠ [] ∧ Item.globals items = [] ∨
          Item.positionals items = [] ∧ Item.globals items ≠ []) ∧
        options = .ofItems items) ∧
    (∀ options, Options.parse words = .ok options →
      (options.format ≠ none ∧ options.global = none ∨
        options.format = none ∧ options.global ≠ none) ∧
      (options.arguments ≠ none → options.format ≠ none)) ∧
    (∀ items others, Split words items → items.Perm others →
      Item.positionals items = Item.positionals others →
      Item.configs items = Item.configs others → Item.globals items = Item.globals others →
      Options.parse (others.flatMap Item.words) = Options.parse words) := by
  have accepted (options : Options) : Options.parse words = .ok options ↔
      ∃ items, Split words items ∧ verdict items = .ok options := by
    constructor
    · intro parsed
      cases read : Options.readWords words {} with
      | error e =>
        rw [Options.parse, read] at parsed
        cases parsed
      | ok result =>
        obtain ⟨items, split⟩ := Options.split_of_readWords read
        exact ⟨items, split, (Options.parse_eq_verdict split).symm.trans parsed⟩
    · rintro ⟨items, split, ok⟩
      exact (Options.parse_eq_verdict split).trans ok
  simp only [verdict_eq_ok_iff] at accepted
  refine ⟨accepted, ?_, ?_⟩
  · intro options parsed
    obtain ⟨items, -, -, one, rfl⟩ := (accepted options).1 parsed
    simp only [ne_eq, Options.format_ofItems, Options.global_ofItems]
    refine ⟨one, ?_⟩
    intro second first
    apply second
    rw [Options.ofItems, first]
    rfl
  · intro items others split perm positionals configs globals
    have moved : Split (others.flatMap Item.words) others :=
      ⟨rfl, fun item member => split.proper item (perm.mem_iff.2 member)⟩
    rw [Options.parse_eq_verdict moved, Options.parse_eq_verdict split]
    exact verdict_perm perm positionals configs globals

example : Options.parse ["--config", "--trace", "1", "--config", "b", "[2]"] =
    .ok { format := some "1", arguments := some "[2]", config := some "b" } := by decide

end NativeCall.Command
