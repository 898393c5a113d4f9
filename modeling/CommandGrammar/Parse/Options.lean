import CommandGrammar.Value.Fields

/-!
# Parse options

The switches of a parse. Options are derived from a base by overriding some of them, and any
value stands for the truth value that it counts as.
-/

namespace CommandGrammar

/-- The switches of a parse. -/
structure Options where
  /-- Flags are recognized at all. -/
  parseFlags : Bool
  /-- A lone `--` ends the flags. -/
  breakableFlags : Bool
  /-- One dash may introduce a long code. -/
  javaFlags : Bool
  /-- A value may follow a group of short codes after an equals sign. -/
  equalsInShortFlags : Bool
deriving DecidableEq

/-- What options are derived from. -/
inductive OptionsBase
  | standard
  | given (o : Options)
  /-- Something that holds no options. -/
  | other

namespace Options

/-- Flags are on and may be ended; long codes have two dashes, and short ones may have values. -/
def standard : Options := ⟨true, true, false, true⟩

/-- The names of the switches in their order. -/
def fieldNames : List String :=
  ["parse_flags", "breakable_flags", "java_flags", "equals_in_short_flags"]

/-- The switches in their order. -/
def toList (o : Options) : List Bool :=
  [o.parseFlags, o.breakableFlags, o.javaFlags, o.equalsInShortFlags]

/-- A switch, overridden where the fields say so. -/
def overridden (overrides : Fields) (name : String) (value : Bool) : Bool :=
  ((overrides.lookup name).map Value.truthy).getD value

/-- The options with some switches overridden. -/
def override (o : Options) (overrides : Fields) : Options where
  parseFlags := overridden overrides "parse_flags" o.parseFlags
  breakableFlags := overridden overrides "breakable_flags" o.breakableFlags
  javaFlags := overridden overrides "java_flags" o.javaFlags
  equalsInShortFlags := overridden overrides "equals_in_short_flags" o.equalsInShortFlags

/-- The options with the given fields. -/
def ofFields (fields : Fields) : Except Refusal Options :=
  if fields.within fieldNames then pure (standard.override fields) else throw .fieldsMismatched

/-- The options made by a call, whose switches are given by position or by name. -/
def ofCall (args : List Value) (keywords : Fields) : Except Refusal Options := do
  ofFields (← Fields.ofCall fieldNames args keywords)

/-- The options of a base with some switches overridden. Unknown switches are refused first. -/
def derive (base : OptionsBase) (overrides : Fields) : Except Refusal Options := do
  let unknown := (overrides.map (·.1)).filter (!fieldNames.contains ·)
  unless unknown.isEmpty do
    throw (.optionsUnknown (unknown.mergeSort fun s t => !(t < s)))
  match base with
  | .standard => pure (standard.override overrides)
  | .given o => pure (o.override overrides)
  | .other => throw .optionsNotGiven

end Options

end CommandGrammar
