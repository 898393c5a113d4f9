import CommandGrammar.Fault.Revision

/-!
# Faults as they are given

A host makes faults from values by calling their kind, and may assign to their attributes. All
that can be asked of a fault is asked in terms of values.
-/

namespace CommandGrammar.Fault

/-- The fault of a kind made by a call, whose message is given by position. -/
def ofCall (kind : FaultKind) (args : List Value) (keywords : Fields) : Except Refusal Fault := do
  let fields ← Fields.bound ["message", "token", "start", "end"] ["command", "hint"] args keywords
  match args with
  | .str message :: _ =>
    (general kind message).setAll [("token", fields.getD "token" .null),
      ("start", fields.getD "start" (.int 0)), ("end", fields.getD "end" (.int 0)),
      ("command", fields.getD "command" .null), ("hint", fields.getD "hint" .null)]
  | [] => throw .fieldsMismatched
  | _ => throw (.faultMessageNotText kind.name)

/-- The fault after an assignment to one of its attributes. The fields cannot be written, but the
values that are stored for them can, and so can every other attribute. -/
def assign (f : Fault) (name : String) (v : Value) : Except Refusal Fault := do
  if readOnlyNames.contains name then throw .memberUnknown
  if name = "args" then
    let some items := v.iterate? | throw (.notIterable v.kindName)
    return { f with args := items }
  match name.toList with
  | '_' :: field => return (f.set (String.ofList field) v).toOption.getD f
  | _ => return f.withDetail name v

/-- The label of the fault's code. A code that the host pins has none. -/
def label (f : Fault) (labels : List (Int × Value)) : Except Refusal String :=
  match f.code with
  | .listed code => code.label labels
  | other => throw (.attributeMissing other.kindName "normalize")

/-- The marked excerpt with as much context as a value stands for. -/
def renderWith (f : Fault) (width : Value) : Except Refusal String := do
  f.render (← widthOf width)

/-- The fault by its fields. -/
def display (f : Fault) : Except Refusal String := do
  return f.kind.name ++ "(" ++ commaSeparated
    [Text.quoted f.message, "token=" ++ (← f.token.text), "start=" ++ (← decimal f.start),
     "end=" ++ (← decimal f.stop)] ++ ")"

end CommandGrammar.Fault
