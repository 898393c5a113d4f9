import CommandGrammar.Value.Display

/-!
# Plain data

Values as plain data: rows and records become lists, keys become texts, and what is no data is
shown as text. A number that is too long to be written is no plain data either.
-/

namespace CommandGrammar.Value

/-- The text of a key in plain data. -/
def keyText : Value → Except Refusal String
  | .null => pure "null"
  | .bool b => pure (if b then "true" else "false")
  | v => v.plainText

/-- A whole number as plain data. -/
def plainInt (n : Int) : Except Refusal Value := do
  let _ ← decimal n
  return .int n

/-- A bound as plain data. -/
def plainBound : Option Number → Except Refusal Value
  | none => pure .null
  | some (.int n) => plainInt n
  | some (.real x) => pure (.real x)

mutual

/-- The value as plain data. -/
def plain : Value → Except Refusal Value
  | .tuple items => .list <$> plainAll items
  | .list items => .list <$> plainAll items
  | .dict entries => .dict <$> plainEntries entries
  | .null => pure .null
  | .bool b => pure (.bool b)
  | .int n => plainInt n
  | .real x => pure (.real x)
  | .str s => pure (.str s)
  | .options (.range low high) => do
    return .list [.list [← plainBound low, ← plainBound high]]
  | .options (.signedness unsigned) => pure (.list [.bool unsigned])
  | .token t => do
    return .list [.str t.text, ← plainInt t.start, ← plainInt t.stop, .bool t.quoted]
  | v => .str <$> v.text

/-- The values as plain data. -/
def plainAll : List Value → Except Refusal (List Value)
  | [] => pure []
  | v :: rest => do return (← plain v) :: (← plainAll rest)

/-- The entries as plain data. -/
def plainEntries : List (Value × Value) → Except Refusal (List (Value × Value))
  | [] => pure []
  | (key, v) :: rest => do return (.str (← key.keyText), ← plain v) :: (← plainEntries rest)

end

end CommandGrammar.Value
