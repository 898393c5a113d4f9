import CommandGrammar.Command.Basic

/-!
# Command registries

Commands by their names and aliases, no two of which share a word, and the dispatch of lines: a
line that begins with the registry's prefix names a command, which parses what follows the name.
Whatever goes wrong is told in a reply, if it can be.
-/

namespace CommandGrammar

/-- Commands in the order of their registration, and the prefix of the lines that are meant for
them. A registry without a prefix takes no lines. -/
structure CommandRegistry where
  commandPrefix : Option String
  commands : List Command

/-- What a registry is given: a command that was made before, or what declares the schema of
one. -/
inductive Registrant
  | made (c : Command)
  | declared (schema : Value)

/-- A call that asks a registry for one more command. -/
structure RegisterCall where
  registrant : Registrant
  /-- Unset where it is left out, as it is by those who decorate a callback. -/
  callback : Value
  /-- The types for the command, which may be left out and may be missing. -/
  types : Option (Option TypeRegistry)
  overrides : Fields

/-- The command that a call is about. A command that was made takes nothing along. A declaration
without a callback is of none yet: it waits for the call that brings one. -/
def RegisterCall.command? (call : RegisterCall) : Except Refusal (Option Command) :=
  match call.registrant, call.callback with
  | .made c, .unset =>
    if call.types.isSome || !call.overrides.isEmpty then throw .commandWithOptions
    else pure (some c)
  | .made _, _ => throw .commandWithOptions
  | .declared _, .unset => pure none
  | .declared schema, callback =>
    some <$> Command.make schema callback call.types.join call.overrides

/-- What comes of dispatching a line. -/
structure Dispatch where
  /-- Whether the line was meant for the registry, unless a crash leaves the dispatch. -/
  handled : Except Crash Bool
  replies : List String
  /-- The calls of callbacks. -/
  calls : List Invocation
  events : List Event

/-- What comes of a line that was not meant for the registry. -/
def Dispatch.ignored : Dispatch := ⟨.ok false, [], [], []⟩

/-- The dispatch with an event reported. -/
def Dispatch.report (d : Dispatch) (e : Event) : Dispatch := { d with events := d.events ++ [e] }

/-- The dispatch with a reply, or with the crash that comes of wording it. -/
def Dispatch.reply (d : Dispatch) (text : Except Crash String) : Dispatch :=
  match text with
  | .ok reply => { d with replies := d.replies ++ [reply] }
  | .error c => { d with handled := .error c }

namespace CommandRegistry

/-- The prefix that a value gives: a text that is not empty, or none. -/
def checkPrefix (v : Value) : Except Refusal (Option String) :=
  match v with
  | .null => pure none
  | .str s => if s.isEmpty then throw .commandPrefixEmpty else pure (some s)
  | _ => throw .commandPrefixNotText

/-- The registry without commands. -/
def empty (commandPrefix : Option String) : CommandRegistry := ⟨commandPrefix, []⟩

/-- The registry with another prefix. -/
def setPrefix (r : CommandRegistry) (v : Value) : Except Refusal CommandRegistry := do
  let commandPrefix ← checkPrefix v
  return { r with commandPrefix }

/-- Whether a word is the name of a command or, where aliases count, one of its aliases. -/
def answersTo (aliases : Bool) (word : String) (c : Command) : Bool :=
  c.name = some word || (aliases && c.aliases.contains word)

/-- The first command that answers to a word. -/
def get? (r : CommandRegistry) (aliases : Bool) (word : String) : Option Command :=
  r.commands.find? (answersTo aliases word)

/-- Whether a command answers to a word. -/
def contains (r : CommandRegistry) (word : String) : Bool := (r.get? true word).isSome

/-- The names of the commands in the order of their registration. -/
def names (r : CommandRegistry) : List String := r.commands.filterMap Command.name

/-- The registry with one more command, which has a name and no word that is in use. -/
def register (r : CommandRegistry) (c : Command) : Except Refusal (CommandRegistry × Event) :=
  match c.name with
  | none => throw .commandUnnamed
  | some name =>
    match (name :: c.aliases).find? r.contains with
    | some word => throw (.commandTaken word)
    | none =>
      pure ({ r with commands := r.commands ++ [c] }, .commandRegistered name c.aliases)

/-- What is done to a registry. A refusal does not take back what was done before it. -/
abbrev Act := ExceptT Refusal (StateM CommandRegistry)

/-- Answers a call with the command that it registered, and the event of it. -/
def accept (call : RegisterCall) : Act (Option (Command × Event)) := do
  match ← call.command? with
  | none => return none
  | some c =>
    let (r, event) ← (← get).register c
    set r
    return some (c, event)

/-- Answers calls one after the other, whatever comes of those before. -/
def acceptAll (calls : List RegisterCall) :
    StateM CommandRegistry (List (Except Refusal (Option (Command × Event)))) :=
  calls.mapM fun call => (accept call).run

/-- The reply to a line that names no command. -/
def unknownReply (word : String) : String :=
  "unknown command: " ++ word ++
    ". please check that the command exists and you have permission to use it."

/-- The reply to a line on which a command crashed. -/
def crashReply (c : Crash) : String := "internal error\n" ++ c.report

/-- What comes of a command's end: its event and then a reply, unless the callback returned. -/
def react (name line : String) (d : Dispatch) : Reaction → Dispatch
  | .returned _ => d
  | .fault f =>
    (d.report (.commandFailed name line f.message)).reply (f.text.mapError Refusal.crash)
  | .crash c => (d.report (.commandCrashed name line c.report)).reply (.ok (crashReply c))

/-- Dispatches a line to a command, which parses it from an offset on. -/
def deliver (host : Host) (c : Command) (line : String) (start : Nat) (issuer : Value) :
    Dispatch :=
  let name := c.name.getD ""
  let r := c.parse host line start
  match r.result with
  | .error h => react name line ⟨.ok true, [], [], r.events⟩ h.reaction
  | .ok args =>
    let i := c.invoke host ⟨line, args, issuer⟩
    react name line ⟨.ok true, [], [i], r.events ++ [.commandDispatched name line]⟩ i.reaction

/-- The text after a prefix, if the line begins with it. -/
def body? (commandPrefix line : List Char) : Option (List Char) :=
  if commandPrefix.isPrefixOf line then some (line.drop commandPrefix.length) else none

/-- Dispatches a line. Its command is named by the first word after the prefix. -/
def dispatchLine (r : CommandRegistry) (host : Host) (line : String) (issuer : Value) :
    Dispatch :=
  match r.commandPrefix with
  | none => .ignored
  | some commandPrefix =>
    match body? commandPrefix.toList line.toList with
    | none => .ignored
    | some body =>
      let word := Text.firstWordList body
      let name := String.ofList word
      match r.get? true name with
      | none => ⟨.ok true, [unknownReply name], [], [.unknownCommand name line]⟩
      | some c =>
        let blanks := (body.takeWhile isBlank).length
        deliver host c line (commandPrefix.length + blanks + word.length) issuer

/-- Dispatches a line that is given as a value. -/
def dispatch (r : CommandRegistry) (host : Host) (message issuer : Value) :
    Except Refusal Dispatch :=
  match message with
  | .str line => pure (r.dispatchLine host line issuer)
  | _ => throw .messageNotText

/-- The registry by its prefix and the names of its commands. -/
def display (r : CommandRegistry) : String :=
  recordText "CommandRegistry"
    [("prefix", Value.optionalText r.commandPrefix),
     ("commands", "[" ++ commaSeparated (r.names.map Text.quoted) ++ "]")]

end CommandRegistry

end CommandGrammar
