import CommandGrammar.Number

/-!
# Schemas

A schema describes a command: its positional arguments, its flags and its sub-commands. Schemas
are generic in the values that they carry, the defaults and settings of their arguments. A draft
is a schema that is still being put together; what it holds is checked when it is completed.
-/

namespace CommandGrammar

/-- Something that the host can call. Only its label is known here, and the name it bears, if it
bears one. -/
structure Handle where
  label : String
  name? : Option String
deriving DecidableEq, Inhabited

/-- The settings of the numeric argument types. -/
inductive NumericOptions
  /-- Inclusive bounds, open where one is missing. -/
  | range (low high : Option Number)
  /-- Whether a sized integer has no sign. -/
  | signedness (unsigned : Bool)
deriving DecidableEq

/-- How an argument's text is converted: by a type registered under a name or by the host. -/
inductive TypeRef
  | named (name : String)
  | host (converter : Handle)
deriving DecidableEq

/-- A value that a command takes. -/
structure Argument (ν : Type) where
  /-- The key of the value in the result. -/
  dest : String
  type : TypeRef
  /-- The name that is shown. -/
  name : String
  required : Bool
  /-- The value of an optional argument that is not given. -/
  default : ν
  help : Option String
  options : Option NumericOptions
  /-- Settings for converters, by distinct names. -/
  extras : List (String × ν)

/-- A switch of a command, with the arguments that follow it. -/
structure Flag (ν : Type) where
  dest : String
  /-- The code written after two dashes. -/
  long : Option String
  /-- The code written after one dash. -/
  short : Option Char
  help : Option String
  args : List (Argument ν)

/-- A command or a sub-command. One without a name is chosen by its shape alone. -/
structure Schema (ν : Type) where
  name : Option String
  dest : String
  aliases : List String
  help : Option String
  args : List (Argument ν)
  flags : List (Flag ν)
  subcommands : List (Schema ν)

/-- A flag that is being put together. -/
structure FlagDraft (ν : Type) where
  long : ν
  short : ν
  dest : ν
  help : ν
  args : List (Argument ν)

/-- A command that is being put together. -/
structure CommandDraft (ν : Type) where
  name : ν
  dest : ν
  aliases : List ν
  help : ν
  args : List (Argument ν)
  flags : List (FlagDraft ν)
  subcommands : List (CommandDraft ν)

/-- The codes of the flag as they are written on a line. -/
def Flag.codes {ν : Type} (f : Flag ν) : List String :=
  (f.long.map ("--" ++ ·)).toList ++ (f.short.map ("-" ++ ·.toString)).toList

/-- Whether the schema has a name. -/
def Schema.named {ν : Type} (s : Schema ν) : Bool := s.name.isSome

/-- The words that select the schema. -/
def Schema.words {ν : Type} (s : Schema ν) : List String :=
  match s.name with
  | some name => name :: s.aliases
  | none => []

/-- Whether a word selects the schema. -/
def Schema.matches {ν : Type} (s : Schema ν) (word : String) : Bool := s.words.contains word

end CommandGrammar
