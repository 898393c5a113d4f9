import CommandGrammar.Conversion.Builtin
import CommandGrammar.Mapping
import CommandGrammar.Text.Blank

/-!
# Type registries

Converters by the names of their types. A registry begins with the builtin types or with none;
registering a name again replaces its converter.
-/

namespace CommandGrammar

/-- A converter: of a builtin type or of the host. -/
inductive Converter
  | builtin (b : Builtin)
  | host (h : Handle)
deriving DecidableEq

/-- Converters by type name. -/
structure TypeRegistry where
  converters : Mapping Converter

namespace TypeRegistry

/-- The registry without types. -/
def empty : TypeRegistry := ⟨.empty⟩

/-- The registry of the builtin types. -/
def builtins : TypeRegistry :=
  ⟨.ofList (Builtin.all.map fun b => (b.name, .builtin b))⟩

/-- The registry to begin with: of the builtin types if the value counts as true. -/
def starting (builtin : Value) : TypeRegistry := if builtin.truthy then builtins else empty

/-- The name under which a registration is reported: the converter's own, or its label. -/
def nameOf (h : Handle) : String := h.name?.getD h.label

/-- A type name, which may not be blank. -/
def checkName (name : Value) : Except Refusal String :=
  match name with
  | .str s => if (Text.trim s).isEmpty then throw .typeNameEmpty else pure s
  | _ => throw .typeNameNotText

/-- The registry with a converter of the host registered under a name. -/
def register (r : TypeRegistry) (name converter : Value) :
    Except Refusal (TypeRegistry × Event) := do
  let name ← checkName name
  match converter with
  | .callable h => return (⟨r.converters.insert name (.host h)⟩, .typeRegistered name (nameOf h))
  | _ => throw .converterNotCallable

/-- Registers a converter that is given; without one, only the name is checked. -/
def registerGiven (r : TypeRegistry) (name converter : Value) :
    Except Refusal (Option (TypeRegistry × Event)) := do
  match converter with
  | .unset =>
    let _ ← checkName name
    return none
  | converter => some <$> r.register name converter

/-- The converter registered under a name. -/
def resolve (r : TypeRegistry) (name : String) : Option Converter := r.converters.get? name

/-- The names of the registered types in the order of their registration. -/
def names (r : TypeRegistry) : List String := r.converters.keys

/-- The registry by the names of its types. -/
def display (r : TypeRegistry) : String := "TypeRegistry(" ++ commaSeparated r.names ++ ")"

end TypeRegistry

end CommandGrammar
