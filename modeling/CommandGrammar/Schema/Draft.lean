import CommandGrammar.Schema.Fields

/-!
# Drafts

A command put together step by step. A step that is refused leaves the draft as it was. Arguments
are checked when they are added; names, codes and help texts are checked when the draft is
completed, which may be done any number of times.
-/

namespace CommandGrammar

/-- A draft of a flag without arguments. -/
def FlagDraft.start (long short dest help : Value) : FlagDraft Value :=
  { long, short, dest, help, args := [] }

/-- A draft of a command without anything. -/
def CommandDraft.start (name dest : Value) : CommandDraft Value :=
  { name, dest, aliases := [], help := .unset, args := [], flags := [], subcommands := [] }

/-- A step of a flag draft. -/
inductive FlagStep
  | setHelp (help : Value)
  | addArgument (fields : Fields)
  /-- No step at all. -/
  | refused (r : Refusal)

/-- A step of a command draft. The steps of a child are taken before it is added. -/
inductive CommandStep
  | addAlias (aliases : List Value)
  | setHelp (help : Value)
  | addArgument (fields : Fields)
  | addFlag (long short dest help : Value) (steps : List FlagStep)
  | addSubcommand (name dest : Value) (steps : List CommandStep)
  /-- No step at all. -/
  | refused (r : Refusal)

namespace FlagDraft

/-- The draft after a step. -/
def apply (d : FlagDraft Value) : FlagStep → Except Refusal (FlagDraft Value)
  | .setHelp help => pure { d with help }
  | .addArgument fields => do
    let a ← Argument.ofFields fields
    return { d with args := d.args ++ [a] }
  | .refused r => throw r

/-- The draft after several steps, unless one of them is refused. -/
def applyAll (d : FlagDraft Value) (steps : List FlagStep) : Except Refusal (FlagDraft Value) :=
  steps.foldlM apply d

/-- The flag that the draft describes. -/
def complete (d : FlagDraft Value) : Except Refusal (Flag Value) :=
  Flag.make d.long d.short d.dest d.help (pure d.args)

end FlagDraft

namespace CommandDraft

mutual

/-- The draft after a step. -/
def apply (d : CommandDraft Value) : CommandStep → Except Refusal (CommandDraft Value)
  | .addAlias aliases => pure { d with aliases := d.aliases ++ aliases }
  | .setHelp help => pure { d with help }
  | .addArgument fields => do
    let a ← Argument.ofFields fields
    return { d with args := d.args ++ [a] }
  | .addFlag long short dest help steps => do
    let f ← (FlagDraft.start long short dest help).applyAll steps
    return { d with flags := d.flags ++ [f] }
  | .addSubcommand name dest steps => do
    let s ← applyAll (CommandDraft.start name dest) steps
    return { d with subcommands := d.subcommands ++ [s] }
  | .refused r => throw r
termination_by structural step => step

/-- The draft after several steps, unless one of them is refused. -/
def applyAll (d : CommandDraft Value) : List CommandStep → Except Refusal (CommandDraft Value)
  | [] => pure d
  | step :: rest => do
    let d ← apply d step
    applyAll d rest
termination_by structural steps => steps

end

/-- The draft after a step, or as it was when the step is refused. -/
def attempt (d : CommandDraft Value) (step : CommandStep) : CommandDraft Value :=
  (d.apply step).toOption.getD d

mutual

/-- The command that the draft describes. Its children are completed first. -/
def complete : CommandDraft Value → Except Refusal (Schema Value)
  | ⟨name, dest, aliases, help, args, flags, subcommands⟩ => do
    let flags ← flags.mapM FlagDraft.complete
    let subcommands ← completeAll subcommands
    Schema.make name dest (.list aliases) help (pure { args, flags, subcommands })

/-- The commands that the drafts describe. -/
def completeAll : List (CommandDraft Value) → Except Refusal (List (Schema Value))
  | [] => pure []
  | d :: rest => do
    let s ← complete d
    return s :: (← completeAll rest)

end

end CommandDraft

end CommandGrammar
