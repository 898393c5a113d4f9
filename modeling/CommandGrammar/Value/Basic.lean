import CommandGrammar.Schema.Basic
import CommandGrammar.Token.Basic

/-!
# Values

What declarations are written in and what a parse yields. A declaration is a value that may hold
finished schemas and drafts beside plain data, and an argument's default is any value at all.
-/

namespace CommandGrammar

/-- A value of a declaration or of a result. -/
inductive Value
  | null
  /-- Stands for what was not given, and differs from `null`. -/
  | unset
  | bool (b : Bool)
  | int (n : Int)
  | real (x : Binary64)
  | str (s : String)
  | list (items : List Value)
  | tuple (items : List Value)
  /-- Entries with distinct keys in the order of their arrival. -/
  | dict (entries : List (Value × Value))
  | callable (h : Handle)
  | options (o : NumericOptions)
  | token (t : Token)
  | argument (a : Argument Value)
  | flag (f : Flag Value)
  | schema (s : Schema Value)
  | flagDraft (d : FlagDraft Value)
  | draft (d : CommandDraft Value)

instance : Inhabited Value := ⟨.null⟩

namespace Value

/-- The number that a value is. The truth values are one and zero. -/
def number? : Value → Option Number
  | .bool b => some (.int (if b then 1 else 0))
  | .int n => some (.int n)
  | .real x => some (.real x)
  | _ => none

/-- A number as a value. -/
def ofNumber : Number → Value
  | .int n => .int n
  | .real x => .real x

/-- A value, or none. -/
def ofOption : Option Value → Value
  | some v => v
  | none => .null

/-- A text, or none. -/
def ofText (s : Option String) : Value := ofOption (s.map .str)

/-- The text that a value is. -/
def text? : Value → Option String
  | .str s => some s
  | _ => none

/-- The settings as the fields of a record. -/
def optionFields : NumericOptions → List Value
  | .range low high => [.tuple [ofOption (low.map ofNumber), ofOption (high.map ofNumber)]]
  | .signedness unsigned => [.bool unsigned]

/-- A token as the fields of a record. -/
def tokenFields (t : Token) : List Value := [.str t.text, .int t.start, .int t.stop, .bool t.quoted]

/-- The items of a value that holds items in a row: of a list, a tuple or a record. -/
def items? : Value → Option (List Value)
  | .list items => some items
  | .tuple items => some items
  | .options o => some (optionFields o)
  | .token t => some (tokenFields t)
  | _ => none

/-- The items that a value yields one after the other: characters of a text, keys of a dict. -/
def iterate? : Value → Option (List Value)
  | .str s => some (s.toList.map fun c => .str c.toString)
  | .dict entries => some (entries.map (·.1))
  | v => v.items?

/-- Whether the value counts as true. -/
def truthy : Value → Bool
  | .null => false
  | .unset => false
  | .bool b => b
  | .int n => n != 0
  | .real x => !x.value.eq (.ofInt 0)
  | .str s => !s.isEmpty
  | .list items => !items.isEmpty
  | .tuple items => !items.isEmpty
  | .dict entries => !entries.isEmpty
  | _ => true

/-- The name of the value's kind, as messages spell it. -/
def kindName : Value → String
  | .null => "NoneType"
  | .unset => "UnsetType"
  | .bool _ => "bool"
  | .int _ => "int"
  | .real _ => "float"
  | .str _ => "str"
  | .list _ => "list"
  | .tuple _ => "tuple"
  | .dict _ => "dict"
  | .callable _ => "function"
  | .options (.range _ _) => "NumberOptions"
  | .options (.signedness _) => "IntegerOptions"
  | .token _ => "Token"
  | .argument _ => "Argument"
  | .flag _ => "Flag"
  | .schema _ => "CommandNode"
  | .flagDraft _ => "FlagBuilder"
  | .draft _ => "CommandBuilder"

/-- What the value bears as its name, if it has one. -/
def name? : Value → Option Value
  | .argument a => some (.str a.name)
  | .schema s => some (ofText s.name)
  | _ => none

/-- The value, or the given one in place of a value that is not given. -/
def orElse (v default : Value) : Value :=
  match v with
  | .unset => default
  | v => v

end Value

end CommandGrammar
