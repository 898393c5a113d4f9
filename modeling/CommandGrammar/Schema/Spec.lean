import CommandGrammar.Schema.Fields

/-!
# Specs

What arguments, flags and schemas have in common: they have fields, which can be read and replaced
but not written.
-/

namespace CommandGrammar

/-- A finished part of a schema. -/
inductive Spec
  | argument (a : Argument Value)
  | flag (f : Flag Value)
  | schema (s : Schema Value)

namespace Spec

/-- The spec that a value is. -/
def ofValue? : Value → Option Spec
  | .argument a => some (.argument a)
  | .flag f => some (.flag f)
  | .schema s => some (.schema s)
  | _ => none

/-- The spec as a value. -/
def value : Spec → Value
  | .argument a => .argument a
  | .flag f => .flag f
  | .schema s => .schema s

/-- The values of the fields. -/
def fields : Spec → Fields
  | .argument a => a.fields
  | .flag f => f.fields
  | .schema s => s.fields

/-- What can be read but not written: the fields, and what is derived from them. -/
def readOnlyNames : Spec → List String
  | .argument _ => Argument.fieldNames
  | .flag _ => "codes" :: Flag.fieldNames
  | .schema _ => "named" :: Schema.fieldNames

/-- The spec with some fields replaced. -/
def replace (s : Spec) (overrides : Fields) : Except Refusal Spec :=
  match s with
  | .argument a => .argument <$> a.replace overrides
  | .flag f => .flag <$> f.replace overrides
  | .schema s => .schema <$> s.replace overrides

/-- Whether a word selects the spec, which has to be a schema. -/
def selects (s : Spec) (word : Value) : Except Refusal Bool :=
  match s with
  | .schema s => pure (word.text?.any s.matches)
  | _ => throw .memberUnknown

end Spec

end CommandGrammar
