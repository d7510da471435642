import NativeCall.Event
import NativeCall.Proofs.Text.Legible

/-!
Texts that do not break the line they stand on. `OneLine.line` says so of the line of every event,
and rests on how a quoted text writes a line end.
-/

set_option autoImplicit false
set_option relaxedAutoImplicit false

namespace NativeCall

/-- A text that does not break the line it stands on. -/
def OneLine (text : String) : Prop :=
  '\n' ∉ text.toList

instance (text : String) : Decidable (OneLine text) :=
  inferInstanceAs (Decidable ('\n' ∉ text.toList))

namespace OneLine

open Text

theorem append {first second : String} (left : OneLine first) (right : OneLine second) :
    OneLine (first ++ second) := by
  unfold OneLine
  rw [String.toList_append, List.mem_append]
  rintro (found | found)
  · exact left found
  · exact right found

private theorem newline_notMem_toDigits (base : Nat) (wide : 1 < base) (n : Nat) :
    '\n' ∉ base.toDigits n := by
  intro found
  obtain ⟨d, digit⟩ := exists_digitChar wide found
  exact Nat.digitChar_ne '\n' (by decide) digit

private theorem decimal (n : Nat) : OneLine (Decimal.text n) := by
  unfold OneLine
  rw [Decimal.text, String.toList_ofList]
  exact newline_notMem_toDigits 10 (by decide) n

private theorem newline_notMem_byNumber (c : Char) : '\n' ∉ Quoted.byNumber c := by
  have digits := newline_notMem_toDigits 16 (by decide) c.toNat
  rw [Quoted.byNumber, List.mem_append, List.mem_append]
  rintro ((found | found) | found)
  · exact absurd found (by decide)
  · exact digits found
  · exact absurd found (by decide)

private theorem newline_notMem_escape (c : Char) : '\n' ∉ Quoted.escape c := by
  unfold Quoted.escape
  split
  case h_7 other =>
    split
    · exact newline_notMem_byNumber c
    · intro found
      exact other (List.mem_singleton.1 found).symm
  all_goals decide

theorem quote (text : String) : OneLine (Quoted.quote text) := by
  unfold OneLine
  rw [Quoted.quote, String.toList_ofList, Quoted.encode, List.mem_append, List.mem_cons]
  rintro ((found | found) | found)
  · exact absurd found (by decide)
  · obtain ⟨c, -, written⟩ := List.mem_flatMap.1 found
    exact newline_notMem_escape c written
  · exact absurd found (by decide)

theorem flag (b : Bool) : OneLine (Event.flag b) := by
  cases b <;> decide

theorem describe (format : Format) : OneLine (Event.describe format) := by
  have leading : OneLine " leading=" := by decide
  have optional : OneLine " optional=" := by decide
  have rest : OneLine " rest=" := by decide
  have trailing : OneLine " trailing=" := by decide
  have keywords : OneLine " keywords=" := by decide
  have block : OneLine " block=" := by decide
  unfold Event.describe
  exact leading |>.append (decimal _) |>.append optional |>.append (decimal _) |>.append rest
    |>.append (flag _) |>.append trailing |>.append (decimal _) |>.append keywords
    |>.append (flag _) |>.append block |>.append (flag _)

theorem expected (min : Nat) (max : Option Nat) : OneLine (ScanError.expected min max) := by
  cases max with
  | none => exact (decimal min).append (by decide)
  | some max =>
    unfold ScanError.expected
    dsimp only
    split
    · exact decimal min
    · exact ((decimal min).append (by decide)).append (decimal max)

theorem display (e : ScanError) : OneLine e.display := by
  have named (exception : ExceptionClass) : OneLine (exception.name ++ ": ") := by
    cases exception <;> decide
  refine (named e.exceptionClass).append ?_
  cases e with
  | invalidFormat format => exact .append (by decide) (quote format)
  | arity actual min max =>
    have given : OneLine "wrong number of arguments (given " := by decide
    have closing : OneLine ")" := by decide
    exact given |>.append (decimal actual) |>.append (by decide) |>.append (expected min max)
      |>.append closing

theorem line (event : Event) : OneLine event.line := by
  cases event with
  | parse text format cached =>
    have start : OneLine "scan " := by decide
    have mark : OneLine (if cached then " (cached)" else "") := by cases cached <;> decide
    exact start |>.append (quote text) |>.append mark |>.append (describe format)
  | keywords state => exact .append (by decide) (by cases state <;> decide)
  | slot index kind stored =>
    have start : OneLine "  [" := by decide
    have kindName : OneLine kind.name := by cases kind <;> decide
    have mark : OneLine (if stored then "" else " (dropped)") := by cases stored <;> decide
    exact start |>.append (decimal index) |>.append (by decide) |>.append kindName
      |>.append mark
  | finish argc => exact .append (by decide) (decimal argc)
  | error e => exact .append (by decide) (display e)

example : (Event.error (.invalidFormat "1\n*")).line =
    "  !! ArgumentError: bad scan_args format: \"1\\n*\"" := by decide

end OneLine

end NativeCall
