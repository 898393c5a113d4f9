import CommandGrammar.Refusal
import CommandGrammar.Value.Basic

/-!
# Fields

Values by name: the fields of something that is made or revised, and the arguments of a call
once each of them has found its parameter.
-/

namespace CommandGrammar

/-- Fields by name. -/
abbrev Fields := List (String × Value)

namespace Fields

/-- The value of a field, or its default. -/
def getD (fields : Fields) (name : String) (default : Value) : Value :=
  (fields.lookup name).getD default

/-- Whether all fields are among the given names. -/
def within (fields : Fields) (names : List String) : Bool :=
  fields.all fun (name, _) => names.contains name

/-- The arguments of a call by the names of their parameters. Arguments by position go to the
first parameters in their order; none is given twice. -/
def ofCall (positional : List String) (args : List Value) (keywords : Fields) :
    Except Refusal Fields :=
  let given := positional.zip args
  let twice := keywords.any fun (name, _) => (given.lookup name).isSome
  if positional.length < args.length || twice then
    throw .fieldsMismatched
  else pure (given ++ keywords)

/-- The arguments of a call, all of which have to find a parameter. -/
def bound (positional others : List String) (args : List Value) (keywords : Fields) :
    Except Refusal Fields := do
  let fields ← ofCall positional args keywords
  if fields.within (positional ++ others) then pure fields else throw .fieldsMismatched

end Fields

end CommandGrammar
