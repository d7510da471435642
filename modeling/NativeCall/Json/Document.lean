import NativeCall.Proofs.Json.WellFormed

/-!
JSON documents: values as a text can hold them. Their whole numbers fit, and their objects hold each
key once.
-/

set_option autoImplicit false
set_option relaxedAutoImplicit false

namespace NativeCall.Json

@[ext]
structure Document where
  json : Json
  wellFormed : json.wellFormed = true

def parse (text : String) : Except Fault Document :=
  match read : readText readAny text with
  | .ok json => .ok ⟨json, wellFormed_of_readAny read⟩
  | .error fault => .error fault

theorem parse_of_readAny {text : String} {json : Json} (read : readText readAny text = .ok json) :
    parse text = .ok ⟨json, wellFormed_of_readAny read⟩ := by
  unfold parse
  split
  · next other found =>
    obtain rfl := Except.ok.inj (read.symm.trans found)
    rfl
  · next fault failed => cases read.symm.trans failed

end NativeCall.Json
