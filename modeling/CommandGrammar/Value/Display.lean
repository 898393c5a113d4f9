import CommandGrammar.Text.Quoted
import CommandGrammar.Value.Basic

/-!
# The text of values

How values are shown: texts in quotes, the items of lists between brackets, and a schema by its
kind and its fields. A value in which a number is too long to be written is not shown.
-/

namespace CommandGrammar

/-- Parts separated by commas. -/
def commaSeparated (parts : List String) : String := ", ".intercalate parts

/-- Fields by name between parentheses, after a kind. -/
def recordText (kind : String) (fields : List (String × String)) : String :=
  kind ++ "(" ++ commaSeparated (fields.map fun (name, text) => name ++ "=" ++ text) ++ ")"

namespace Value

/-- A truth value. -/
def boolText (b : Bool) : String := if b then "True" else "False"

/-- Parts of a tuple; a single one is followed by a comma. -/
def tupleText : List String → String
  | [part] => "(" ++ part ++ ",)"
  | parts => "(" ++ commaSeparated parts ++ ")"

/-- A text in quotes, or none. -/
def optionalText (s : Option String) : String := (s.map Text.quoted).getD "None"

/-- A number, or none. -/
def boundText : Option Number → Except Refusal String
  | some n => n.text
  | none => pure "None"

/-- The settings of a numeric type. -/
def optionsText : NumericOptions → Except Refusal String
  | .range low high => do
    return recordText "NumberOptions" [("range", tupleText [← boundText low, ← boundText high])]
  | .signedness unsigned => pure (recordText "IntegerOptions" [("unsigned", boolText unsigned)])

/-- The settings of a type, or none. -/
def settingsText : Option NumericOptions → Except Refusal String
  | some o => optionsText o
  | none => pure "None"

/-- A token by its fields. -/
def tokenText (t : Token) : Except Refusal String := do
  return recordText "Token" [("text", Text.quoted t.text), ("start", ← decimal t.start),
    ("end", ← decimal t.stop), ("quoted", boolText t.quoted)]

/-- A reference to a type: its name in quotes or the label of its converter. -/
def typeText : TypeRef → String
  | .named name => Text.quoted name
  | .host converter => converter.label

mutual

/-- The text of a value. -/
def text : Value → Except Refusal String
  | .null => pure "None"
  | .unset => pure "Unset"
  | .bool b => pure (boolText b)
  | .int n => decimal n
  | .real x => pure x.text
  | .str s => pure (Text.quoted s)
  | .list items => do return "[" ++ commaSeparated (← texts items) ++ "]"
  | .tuple items => do return tupleText (← texts items)
  | .dict entries => do return "\x7b" ++ commaSeparated (← entryTexts entries) ++ "\x7d"
  | .callable h => pure h.label
  | .options o => optionsText o
  | .token t => tokenText t
  | .argument a => argumentText a
  | .flag f => flagText f
  | .schema s => schemaText s
  | .flagDraft ⟨long, short, _, _, _⟩ => do
    return recordText "FlagBuilder" [("long", ← text long), ("short", ← text short)]
  | .draft ⟨name, _, _, _, _, _, _⟩ => do
    return recordText "CommandBuilder" [("name", ← text name)]

/-- The texts of values. -/
def texts : List Value → Except Refusal (List String)
  | [] => pure []
  | v :: rest => do return (← text v) :: (← texts rest)

/-- The texts of the entries of a dict. -/
def entryTexts : List (Value × Value) → Except Refusal (List String)
  | [] => pure []
  | (key, v) :: rest => do return ((← text key) ++ ": " ++ (← text v)) :: (← entryTexts rest)

/-- The texts of settings. -/
def extrasTexts : List (String × Value) → Except Refusal (List String)
  | [] => pure []
  | (key, v) :: rest => do return (Text.quoted key ++ ": " ++ (← text v)) :: (← extrasTexts rest)

/-- An argument by its fields. -/
def argumentText : Argument Value → Except Refusal String
  | ⟨dest, type, name, required, default, help, settings, extras⟩ => do
    let extras ← extrasTexts extras
    return recordText "argument" [("dest", Text.quoted dest), ("type", typeText type),
      ("name", Text.quoted name), ("required", boolText required), ("default", ← text default),
      ("help", optionalText help), ("options", ← settingsText settings),
      ("extras", "mappingproxy(\x7b" ++ commaSeparated extras ++ "\x7d)")]

/-- The texts of arguments. -/
def argumentTexts : List (Argument Value) → Except Refusal (List String)
  | [] => pure []
  | a :: rest => do return (← argumentText a) :: (← argumentTexts rest)

/-- A flag by its fields. -/
def flagText : Flag Value → Except Refusal String
  | ⟨dest, long, short, help, args⟩ => do
    return recordText "flag" [("dest", Text.quoted dest), ("long", optionalText long),
      ("short", optionalText (short.map (·.toString))), ("help", optionalText help),
      ("args", tupleText (← argumentTexts args))]

/-- The texts of flags. -/
def flagTexts : List (Flag Value) → Except Refusal (List String)
  | [] => pure []
  | f :: rest => do return (← flagText f) :: (← flagTexts rest)

/-- A schema by its fields. -/
def schemaText : Schema Value → Except Refusal String
  | ⟨name, dest, aliases, help, args, flags, subcommands⟩ => do
    return recordText "command-node" [("name", optionalText name), ("dest", Text.quoted dest),
      ("aliases", tupleText (aliases.map Text.quoted)), ("help", optionalText help),
      ("args", tupleText (← argumentTexts args)), ("flags", tupleText (← flagTexts flags)),
      ("subcommands", tupleText (← schemaTexts subcommands))]

/-- The texts of schemas. -/
def schemaTexts : List (Schema Value) → Except Refusal (List String)
  | [] => pure []
  | s :: rest => do return (← schemaText s) :: (← schemaTexts rest)

end

/-- The value as part of a message: a text as it is, any other value as it is shown. -/
def plainText : Value → Except Refusal String
  | .str s => pure s
  | v => v.text

end Value

end CommandGrammar
