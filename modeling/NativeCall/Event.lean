import NativeCall.Format.Text
import NativeCall.Keywords

/-!
What happens in the course of a scan, as a list of events, and the line that each event writes to a
log.
-/

set_option autoImplicit false
set_option relaxedAutoImplicit false

namespace NativeCall

inductive Event where
  | parse (text : String) (format : Format) (cached : Bool)
  | keywords (state : KeywordState)
  /-- A slot was filled; only stored slots reach the output. -/
  | slot (index : Nat) (kind : SlotKind) (stored : Bool)
  | finish (argc : Nat)
  | error (e : ScanError)
  deriving DecidableEq, Repr

namespace Event

open Text

def flag (b : Bool) : String :=
  if b then "true" else "false"

def describe (format : Format) : String :=
  " leading=" ++ Decimal.text format.leading.toNat
    ++ " optional=" ++ Decimal.text format.optional.toNat
    ++ " rest=" ++ flag format.rest
    ++ " trailing=" ++ Decimal.text format.trailing.toNat
    ++ " keywords=" ++ flag format.keywords
    ++ " block=" ++ flag format.block

def line : Event → String
  | parse text format cached =>
    "scan " ++ Quoted.quote text ++ (if cached then " (cached)" else "") ++ describe format
  | keywords state => "  keywords: " ++ state.name
  | slot index kind stored =>
    "  [" ++ Decimal.text index ++ "] " ++ kind.name ++ (if stored then "" else " (dropped)")
  | finish argc => "  => argc=" ++ Decimal.text argc
  | error e => "  !! " ++ e.display

def isParse : Event → Bool
  | parse _ _ _ => true
  | _ => false

end Event

end NativeCall
