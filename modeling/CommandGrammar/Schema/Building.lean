import CommandGrammar.Fault.Crash
import CommandGrammar.Schema.Draft

/-!
# Building in place

How a host builds. It takes steps on a draft that changes in place, hears what they raise, goes on
as it likes, and completes the draft whenever it wants to. A step that adds a flag or a sub-command
may come with a callback, which does all this with the draft of the child before the child is
added. What raises leaves each draft as it is by then.
-/

namespace CommandGrammar

/-- What is raised: a refusal, or a failure of the host's own. -/
inductive Raised
  | refusal (r : Refusal)
  | crash (c : Crash)

/-- What is done to a draft in place. -/
abbrev Building (δ : Type) := ExceptT Raised (StateM δ)

namespace Building

variable {δ γ : Type}

/-- What is made without a look at the draft, or the refusal that is raised for it. -/
def checked {α : Type} : Except Refusal α → Building δ α
  | .ok a => pure a
  | .error r => throw (.refusal r)

/-- What is raised, if anything. Nothing of what was done before is undone. -/
def caught (m : Building δ Unit) : StateM δ (Option Raised) := do
  match ← m.run with
  | .ok () => return none
  | .error r => return some r

/-- The draft of a child after its callback. What the callback raises, it raises for the parent. -/
def child (start : γ) (callback : Building γ Unit) : Building δ γ :=
  match callback.run.run start with
  | (.ok (), c) => pure c
  | (.error r, _) => throw r

end Building

/-- What a host does next with a draft. -/
inductive Move (σ : Type)
  | step (s : σ)
  | build

/-- What a host hears from it. -/
inductive Heard (ν : Type)
  | step (raised : Option Raised)
  | build (result : Except Refusal ν)

/-- What a callback does. It may go on in any way after what it hears, and what it hears raised it
may raise itself. -/
inductive Routine (σ ν : Type)
  | done
  | raise (r : Raised)
  | move (m : Move σ) (next : Heard ν → Routine σ ν)

/-- The callback that takes steps in turn and catches nothing. -/
def Routine.through {σ ν : Type} : List σ → Routine σ ν
  | [] => .done
  | s :: rest => .move (.step s) fun
    | .step (some r) => .raise r
    | _ => through rest

/-- A step of a host on the draft of a command. The children come with their callbacks. -/
inductive HostStep
  | addAlias (aliases : List Value)
  | setHelp (help : Value)
  | addArgument (fields : Fields)
  | addFlag (long short dest help : Value) (callback : Routine FlagStep (Flag Value))
  | addSubcommand (name dest : Value) (callback : Routine HostStep (Schema Value))
  /-- No step at all. -/
  | refused (r : Refusal)

namespace CommandStep

mutual

/-- The step of a host whose callbacks take the steps of a child in turn. -/
def hosted : CommandStep → HostStep
  | .addAlias aliases => .addAlias aliases
  | .setHelp help => .setHelp help
  | .addArgument fields => .addArgument fields
  | .addFlag long short dest help steps => .addFlag long short dest help (.through steps)
  | .addSubcommand name dest steps => .addSubcommand name dest (.through (hostedAll steps))
  | .refused r => .refused r
termination_by structural step => step

/-- The steps of a host, each with such callbacks. -/
def hostedAll : List CommandStep → List HostStep
  | [] => []
  | step :: rest => hosted step :: hostedAll rest
termination_by structural steps => steps

end

end CommandStep

/-- How drafts of one kind are built. -/
structure Builder (δ σ ν : Type) where
  perform : σ → Building δ Unit
  complete : δ → Except Refusal ν

namespace Builder

variable {δ σ ν : Type} (b : Builder δ σ ν)

/-- A move, and what is heard from it. -/
def make : Move σ → StateM δ (Heard ν)
  | .step s => return .step (← (b.perform s).caught)
  | .build => return .build (b.complete (← get))

/-- All that a callback does. -/
def run : Routine σ ν → Building δ Unit
  | .done => pure ()
  | .raise r => throw r
  | .move m next => do
    let heard ← b.make m
    run (next heard)

/-- Moves one after the other, each with what is heard from it. The host goes on whatever it
hears. -/
def session : List (Move σ) → StateM δ (List (Move σ × Heard ν))
  | [] => return []
  | m :: rest => do
    let heard ← b.make m
    return (m, heard) :: (← session rest)

end Builder

namespace FlagDraft

/-- A step on the draft of a flag. -/
def perform : FlagStep → Building (FlagDraft Value) Unit
  | .setHelp help => modify ({ · with help })
  | .addArgument fields => do
    let a ← Building.checked (Argument.ofFields fields)
    modify fun d => { d with args := d.args ++ [a] }
  | .refused r => throw (.refusal r)

def builder : Builder (FlagDraft Value) FlagStep (Flag Value) := ⟨perform, complete⟩

end FlagDraft

namespace CommandDraft

mutual

/-- A step on the draft of a command. A child is added after its callback. -/
def perform : HostStep → Building (CommandDraft Value) Unit
  | .addAlias aliases => modify fun d => { d with aliases := d.aliases ++ aliases }
  | .setHelp help => modify ({ · with help })
  | .addArgument fields => do
    let a ← Building.checked (Argument.ofFields fields)
    modify fun d => { d with args := d.args ++ [a] }
  | .addFlag long short dest help callback => do
    let f ← Building.child (.start long short dest help) (FlagDraft.builder.run callback)
    modify fun d => { d with flags := d.flags ++ [f] }
  | .addSubcommand name dest callback => do
    let s ← Building.child (.start name dest) (run callback)
    modify fun d => { d with subcommands := d.subcommands ++ [s] }
  | .refused r => throw (.refusal r)
termination_by structural step => step

/-- All that a callback does with the draft of a command. -/
def run : Routine HostStep (Schema Value) → Building (CommandDraft Value) Unit
  | .done => pure ()
  | .raise r => throw r
  | .move (.step s) next => do
    let raised ← (perform s).caught
    run (next (.step raised))
  | .move .build next => do
    let d ← get
    run (next (.build d.complete))
termination_by structural callback => callback

end

def builder : Builder (CommandDraft Value) HostStep (Schema Value) := ⟨perform, complete⟩

end CommandDraft

end CommandGrammar
