import CommandGrammar.Schema.Draft

/-!
# Called steps

The steps of drafts as a host calls them: by name, with arguments by position and by name, and
with the steps of a child. A call that is no step becomes a step that is refused, so that it is
refused in its turn.
-/

namespace CommandGrammar

/-- A step as it is called. Steps of a child come with the keyword `build`. -/
inductive StepCall
  | call (method : String) (args : List Value) (keywords : Fields) (children : List StepCall)
  /-- A call whose arguments cannot be made. -/
  | refused (r : Refusal)

/-- Refuses something that has to be callable or none, and is neither. -/
def checkCallable (v : Value) : Except Refusal Unit :=
  match v with
  | .null | .callable _ => pure ()
  | v => throw (.notCallable v.kindName)

/-- The one argument of a help step. -/
def helpOf (args : List Value) (keywords : Fields) : Except Refusal Value :=
  match args, keywords with
  | [help], [] => pure help
  | _, _ => throw .fieldsMismatched

/-- The fields of an argument, of which the key and the type may be given by position. -/
def argumentOf (args : List Value) (keywords : Fields) : Except Refusal Fields :=
  Fields.ofCall ["dest", "type"] args keywords

namespace FlagStep

/-- The step that a call of a flag's draft is, if it is one. -/
def called? : StepCall → Except Refusal FlagStep
  | .refused r => throw r
  | .call method args keywords _ =>
    match method with
    | "set_help" => .setHelp <$> helpOf args keywords
    | "add_argument" => .addArgument <$> argumentOf args keywords
    | _ => throw .memberUnknown

/-- The step that a call of a flag's draft stands for. -/
def ofCall (call : StepCall) : FlagStep :=
  match called? call with
  | .ok step => step
  | .error r => .refused r

end FlagStep

namespace CommandStep

mutual

/-- The step that a call of a command's draft is, if it is one. -/
def called? : StepCall → Except Refusal CommandStep
  | .refused r => throw r
  | .call method args keywords children =>
    match method with
    | "add_alias" => if keywords.isEmpty then pure (.addAlias args) else throw .fieldsMismatched
    | "set_help" => .setHelp <$> helpOf args keywords
    | "add_argument" => .addArgument <$> argumentOf args keywords
    | "add_flag" => do
      let fields ← Fields.bound ["long", "short"] ["dest", "help", "build"] args keywords
      checkCallable (fields.getD "build" .null)
      return .addFlag (fields.getD "long" .null) (fields.getD "short" .null)
        (fields.getD "dest" .unset) (fields.getD "help" .unset) (children.map FlagStep.ofCall)
    | "add_subcommand" => do
      let fields ← Fields.bound ["name"] ["dest", "build"] args keywords
      checkCallable (fields.getD "build" .null)
      return .addSubcommand (fields.getD "name" .null) (fields.getD "dest" .unset)
        (ofCalls children)
    | _ => throw .memberUnknown

/-- The steps that calls of a command's draft stand for. -/
def ofCalls : List StepCall → List CommandStep
  | [] => []
  | call :: rest =>
    (match called? call with
      | .ok step => step
      | .error r => .refused r) :: ofCalls rest

end

end CommandStep

end CommandGrammar
