import CommandGrammar.Refusal
import CommandGrammar.Value.Basic

/-!
# Unions with the value that is not given

The kind of the value that stands for what was not given may be united with the kind of no value
and with itself.
-/

namespace CommandGrammar.Value

/-- The members of a union in their order, each once. -/
def union (v w : Value) : Except Refusal (List Value) :=
  match v, w with
  | .unset, .unset => pure [.unset]
  | .null, .unset => pure [.null, .unset]
  | .unset, .null => pure [.unset, .null]
  | v, w => throw (.noUnion v.kindName w.kindName)

/-- Whether a value is a text or not given. -/
def isOptionalText : Value → Bool
  | .str _ => true
  | .unset => true
  | _ => false

end CommandGrammar.Value
