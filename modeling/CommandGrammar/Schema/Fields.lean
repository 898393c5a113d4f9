import CommandGrammar.Text.Blank
import CommandGrammar.Value.Fields

/-!
# Schemas from fields

Arguments, flags and commands from the values of their fields. Texts are trimmed, what is not
given takes its default, and a schema that is made has distinct codes and distinct words.
-/

namespace CommandGrammar

/-- A text that is not blank, without the blanks at its ends. -/
def Value.asField (spec : SpecKind) (field : String) (v : Value) : Except Refusal String :=
  match v with
  | .str s =>
    let s := Text.trim s
    if s.isEmpty then throw (.fieldEmpty spec field) else pure s
  | _ => throw (.fieldNotText spec field)

/-- A help text, which may be missing. -/
def Value.asHelp (spec : SpecKind) (v : Value) : Except Refusal (Option String) :=
  match v with
  | .null | .unset => pure none
  | v => some <$> v.asField spec "help"

/-- A reference to a type: a name that is not blank, or a converter. -/
def Value.asType (v : Value) : Except Refusal TypeRef :=
  match v with
  | .callable h => pure (.host h)
  | .str s => .named <$> (Value.str s).asField .argument "type"
  | _ => throw .typeUnusable

/-- The settings of a numeric type, which may be missing. -/
def Value.asOptions (v : Value) : Except Refusal (Option NumericOptions) :=
  match v with
  | .null => pure none
  | .options o => pure (some o)
  | _ => throw .optionsNotNumeric

/-- Settings by name, from the entries of a dict. -/
def extrasOf : List (Value × Value) → Except Refusal (List (String × Value))
  | [] => pure []
  | (.str key, v) :: rest => return (key, v) :: (← extrasOf rest)
  | _ :: _ => throw .extrasKeyNotText

/-- Settings for converters. -/
def Value.asExtras (v : Value) : Except Refusal (List (String × Value)) :=
  match v with
  | .dict entries => extrasOf entries
  | _ => throw .extrasNotMapping

/-- Items that are all arguments. -/
def Value.asArguments (spec : SpecKind) (v : Value) : Except Refusal (List (Argument Value)) :=
  let refused := Refusal.fieldNotItems spec "args" "arguments"
  match v.items? with
  | none => throw refused
  | some items => items.mapM fun
    | .argument a => pure a
    | _ => throw refused

/-- Items that are all flags. -/
def Value.asFlags (v : Value) : Except Refusal (List (Flag Value)) :=
  let refused := Refusal.fieldNotItems .command "flags" "flags"
  match v.items? with
  | none => throw refused
  | some items => items.mapM fun
    | .flag f => pure f
    | _ => throw refused

/-- Items that are all schemas. -/
def Value.asSchemas (v : Value) : Except Refusal (List (Schema Value)) :=
  let refused := Refusal.fieldNotItems .command "subcommands" "command-nodes"
  match v.items? with
  | none => throw refused
  | some items => items.mapM fun
    | .schema s => pure s
    | _ => throw refused

namespace NumericOptions

/-- A bound of a range. Truth values are no bounds. -/
def boundOf : Value → Except Refusal (Option Number)
  | .null => pure none
  | .int n => pure (some (.int n))
  | .real x => pure (some (.real x))
  | _ => throw .rangeBoundNotNumber

/-- A range from a pair of bounds of which the first is not the greater. -/
def ofRange (v : Value) : Except Refusal NumericOptions :=
  match v.items? with
  | some [low, high] => do
    let low ← boundOf low
    let high ← boundOf high
    match low, high with
    | some m, some n => if n.lt m then throw .rangeReversed else pure (.range low high)
    | _, _ => pure (.range low high)
  | _ => throw .rangeNotPair

end NumericOptions

namespace Argument

/-- The names of an argument's fields. -/
def fieldNames : List String :=
  ["dest", "type", "name", "required", "default", "help", "options", "extras"]

/-- The argument with the given fields. It is shown under its key unless it has a name. -/
def ofFields (fields : Fields) : Except Refusal (Argument Value) := do
  unless fields.within fieldNames && (fields.lookup "dest").isSome do throw .fieldsMismatched
  let dest ← (fields.getD "dest" .null).asField .argument "dest"
  let name ← ((fields.getD "name" .unset).orElse (.str dest)).asField .argument "name"
  let type ← (fields.getD "type" (.str "string")).asType
  let options ← (fields.getD "options" .null).asOptions
  let extras ← (fields.getD "extras" (.dict [])).asExtras
  let help ← (fields.getD "help" .unset).asHelp .argument
  let required := (fields.getD "required" (.bool true)).truthy
  let default := fields.getD "default" .null
  return { dest, type, name, required, default, help, options, extras }

/-- The values of an argument's fields. -/
def fields (a : Argument Value) : Fields :=
  [("dest", .str a.dest),
   ("type", match a.type with | .named name => .str name | .host converter => .callable converter),
   ("name", .str a.name), ("required", .bool a.required), ("default", a.default),
   ("help", .ofText a.help), ("options", .ofOption (a.options.map .options)),
   ("extras", .dict (a.extras.map fun (key, v) => (.str key, v)))]

/-- The argument with some fields replaced. -/
def replace (a : Argument Value) (overrides : Fields) : Except Refusal (Argument Value) :=
  ofFields (overrides ++ a.fields)

end Argument

namespace Flag

/-- The names of a flag's fields. -/
def fieldNames : List String := ["dest", "long", "short", "help", "args"]

/-- A long code: a text without blanks and equals signs that does not begin with a dash. -/
def longOf : Value → Except Refusal (Option String)
  | .null => pure none
  | .str s =>
    if s.isEmpty then throw (.fieldEmpty .flag "long")
    else if s.toList.head? = some '-' then throw .longWithDashes
    else if s.toList.contains '=' || Text.hasBlank s then throw .longMalformed
    else pure (some s)
  | _ => throw (.fieldNotText .flag "long")

/-- A short code: one character, no dash, no equals sign and no blank. -/
def shortOf : Value → Except Refusal (Option Char)
  | .null => pure none
  | .str s =>
    match s.toList with
    | [c] => if c = '-' || c = '=' || isBlank c then throw .shortMalformed else pure (some c)
    | _ => throw .shortNotOneCharacter
  | _ => throw (.fieldNotText .flag "short")

/-- The flag with the given fields. Its key is its long code, or else its short one, unless it
has another. -/
def make (long short dest help : Value) (args : Except Refusal (List (Argument Value))) :
    Except Refusal (Flag Value) := do
  match long, short with
  | .null, .null => throw .codeMissing
  | _, _ =>
    let long' ← longOf long
    let short' ← shortOf short
    let code := (long'.or (short'.map (·.toString))).getD ""
    let dest ← (dest.orElse (.str code)).asField .flag "dest"
    let args ← args
    let help ← help.asHelp .flag
    return { dest, long := long', short := short', help, args }

/-- The flag with the given fields. -/
def ofFields (fields : Fields) : Except Refusal (Flag Value) := do
  unless fields.within fieldNames do throw .fieldsMismatched
  make (fields.getD "long" .null) (fields.getD "short" .null) (fields.getD "dest" .unset)
    (fields.getD "help" .unset) ((fields.getD "args" (.tuple [])).asArguments .flag)

/-- The values of a flag's fields. -/
def fields (f : Flag Value) : Fields :=
  [("dest", .str f.dest), ("long", .ofText f.long), ("short", .ofText (f.short.map (·.toString))),
   ("help", .ofText f.help), ("args", .tuple (f.args.map .argument))]

/-- The flag with some fields replaced. -/
def replace (f : Flag Value) (overrides : Fields) : Except Refusal (Flag Value) :=
  ofFields (overrides ++ f.fields)

end Flag

/-- The first text that occurs a second time. -/
def firstRepeated (seen : List String) : List String → Option String
  | [] => none
  | s :: rest => if seen.contains s then some s else firstRepeated (s :: seen) rest

/-- Texts are distinct, and none of them was seen before, exactly if none occurs a second time. -/
theorem firstRepeated_eq_none_iff {seen texts : List String} :
    firstRepeated seen texts = none ↔ texts.Nodup ∧ ∀ s ∈ texts, s ∉ seen := by
  induction texts generalizing seen with
  | nil => simp [firstRepeated]
  | cons s rest ih =>
    by_cases h : s ∈ seen
    · simp [firstRepeated, h]
    · simp only [firstRepeated, List.contains_eq_mem, h, decide_false]
      grind

namespace Schema

/-- The names of a command's fields. -/
def fieldNames : List String :=
  ["name", "dest", "aliases", "help", "args", "flags", "subcommands"]

/-- A word that selects a command: a text without blanks, trimmed. -/
def wordOf (what : String) : Value → Except Refusal String
  | .str s =>
    let s := Text.trim s
    if s.isEmpty then throw (.wordEmpty what)
    else if Text.hasBlank s then throw (.wordBlank what)
    else pure s
  | _ => throw (.wordNotText what)

/-- Aliases that differ from the name and from each other, given those before them. -/
def aliasesOf (name : Option String) (before : List String) :
    List Value → Except Refusal (List String)
  | [] => pure before
  | v :: rest => do
    let word ← wordOf "aliases" v
    if name = some word || before.contains word then throw .aliasRepeated
    aliasesOf name (before ++ [word]) rest

/-- The arguments, flags and sub-commands of a command. -/
structure Children where
  args : List (Argument Value)
  flags : List (Flag Value)
  subcommands : List (Schema Value)

/-- The codes of flags in the order of their declaration. -/
def Children.codes (c : Children) : List String := c.flags.flatMap Flag.codes

/-- The words of sub-commands in the order of their declaration. -/
def Children.words (c : Children) : List String := c.subcommands.flatMap Schema.words

/-- The name of a command, which may be missing. -/
def nameOf : Value → Except Refusal (Option String)
  | .null => pure none
  | v => some <$> wordOf "'name'" v

/-- The aliases of a command, which has to have a name if it has any. -/
def aliasesFor (name : Option String) (aliases : Value) : Except Refusal (List String) :=
  match aliases.items? with
  | none => throw (.fieldNotItems .command "aliases" "strings")
  | some items => do
    let aliases ← aliasesOf name [] items
    if name.isNone && !aliases.isEmpty then throw .aliasesUnnamed else pure aliases

/-- The key of a command: its name, unless it has another. -/
def destOf (name : Option String) (dest : Value) : Except Refusal String :=
  match dest, name with
  | .unset, none => throw .destMissing
  | .unset, some name => pure name
  | .str s, _ => pure (Text.trim s)
  | _, _ => throw (.fieldNotText .command "dest")

/-- Refuses children that share a code or a word. -/
def Children.check (c : Children) : Except Refusal Unit :=
  match firstRepeated [] c.codes, firstRepeated [] c.words with
  | some code, _ => throw (.codeTaken code)
  | none, some word => throw (.wordTaken word)
  | none, none => pure ()

/-- The command with the given fields. -/
def make (name dest aliases help : Value) (children : Except Refusal Children) :
    Except Refusal (Schema Value) := do
  let name ← nameOf name
  let aliases ← aliasesFor name aliases
  let dest ← destOf name dest
  let help ← help.asHelp .command
  let children ← children
  children.check
  return {
    name, dest, aliases, help
    args := children.args, flags := children.flags, subcommands := children.subcommands }

/-- The command with the given fields. -/
def ofFields (fields : Fields) : Except Refusal (Schema Value) := do
  unless fields.within fieldNames do throw .fieldsMismatched
  make (fields.getD "name" .null) (fields.getD "dest" .unset) (fields.getD "aliases" (.tuple []))
    (fields.getD "help" .unset) do
      let args ← (fields.getD "args" (.tuple [])).asArguments .command
      let flags ← (fields.getD "flags" (.tuple [])).asFlags
      let subcommands ← (fields.getD "subcommands" (.tuple [])).asSchemas
      return { args, flags, subcommands }

/-- The values of a command's fields. -/
def fields (s : Schema Value) : Fields :=
  [("name", .ofText s.name), ("dest", .str s.dest), ("aliases", .tuple (s.aliases.map .str)),
   ("help", .ofText s.help), ("args", .tuple (s.args.map .argument)),
   ("flags", .tuple (s.flags.map .flag)), ("subcommands", .tuple (s.subcommands.map .schema))]

/-- The command with some fields replaced. -/
def replace (s : Schema Value) (overrides : Fields) : Except Refusal (Schema Value) :=
  ofFields (overrides ++ s.fields)

end Schema

end CommandGrammar
