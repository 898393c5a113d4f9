import CommandGrammar.Refusal
import CommandGrammar.Value.Basic

/-!
# Renaming

A callable that bears a name may be given another one, at once or by a renaming that waits for
the callable. One that bears none keeps its label.
-/

namespace CommandGrammar

/-- The callable under another name. -/
def Handle.rename (h : Handle) (name : String) : Except Refusal Handle :=
  match h.name? with
  | some _ => pure { h with name? := some name }
  | none => throw .nameFixed

/-- What comes of a renaming: a renamed callable, or a renaming that waits for one. -/
inductive Renaming
  | done (h : Handle)
  | pending (name : String)

namespace Renaming

/-- Renames a callable, or with a name alone makes a renaming that waits. -/
def ofValues : List Value → Except Refusal Renaming
  | [target, name] =>
    match target, name with
    | .callable h, .str name => .done <$> h.rename name
    | .callable _, _ => throw .newNameNotText
    | _, _ => throw .renamedNotCallable
  | [.str name] => pure (.pending name)
  | [_] => throw .pendingNameNotText
  | values => throw (.renamingCount values.length)

/-- Applies a renaming that waits. -/
def apply (name : String) (target : Value) : Except Refusal Handle :=
  match target with
  | .callable h => h.rename name
  | _ => throw .pendingNotCallable

end Renaming

end CommandGrammar
