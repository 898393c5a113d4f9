import CommandGrammar.Parse.Report

/-!
# Commands

A command is a schema with a callback of the host. Calling it parses a line and hands the result
to the callback, together with the line and with whoever issued it.
-/

namespace CommandGrammar

/-- What a callback is given. -/
structure CommandContext where
  /-- The whole line. -/
  text : String
  args : Mapping Value
  /-- Whoever issued the line, as the host sees fit. -/
  issuer : Value

/-- How a command ends. -/
inductive Reaction
  | returned (v : Value)
  | fault (f : Fault)
  | crash (c : Crash)

/-- What the host provides: the types of commands that have none of their own, and the meaning of
its converters, of its kinds of faults and of its callbacks. -/
structure Host where
  types : TypeRegistry
  converters : Converters
  makers : Makers
  callbacks : Handle → CommandContext → Reaction

/-- A call of a callback: what it was given and how it ended. -/
structure Invocation where
  callback : Handle
  context : CommandContext
  reaction : Reaction

/-- Calls a callback of the host. -/
def Host.call (host : Host) (callback : Handle) (context : CommandContext) : Invocation :=
  ⟨callback, context, host.callbacks callback context⟩

/-- A schema with a callback. -/
structure Command where
  schema : Schema Value
  callback : Handle
  /-- The types of the command's arguments, the host's if there are none. -/
  types : Option TypeRegistry
  options : Options

/-- A halted parse as the end of a command. -/
def Halt.reaction : Halt → Reaction
  | .fault f => .fault f
  | .crash c => .crash c

/-- What comes of calling a command: the call of its callback, or why the parse did not get there,
and the events. -/
structure Called where
  outcome : Except Halt Invocation
  events : List Event

/-- How a command ended that was called. -/
def Called.reaction (c : Called) : Reaction :=
  match c.outcome with
  | .ok i => i.reaction
  | .error h => h.reaction

namespace Command

/-- The command with the given schema and callback. The callback is checked first, then the
schema and then the options. -/
def make (schema callback : Value) (types : Option TypeRegistry) (overrides : Fields) :
    Except Refusal Command :=
  match callback with
  | .callable callback => do
    let schema ← Schema.declared schema
    let options ← Options.derive .standard overrides
    return { schema, callback, types, options }
  | _ => throw .callbackNotCallable

/-- The command made by applying a declared command to a callback. -/
def decorated (schema callback : Value) (types : Option TypeRegistry) (overrides : Fields) :
    Except Refusal Command :=
  match callback with
  | .callable _ => make schema callback types overrides
  | _ => throw .decoratedNotCallable

/-- The name of a command that has one. -/
def name (c : Command) : Option String := c.schema.name

/-- The other names of a command. -/
def aliases (c : Command) : List String := c.schema.aliases

/-- Parses a line from an offset on. -/
def parse (c : Command) (host : Host) (text : String) (start : Nat) : Report :=
  let types := c.types.getD host.types
  let p : Parser :=
    { source := text, types, options := c.options, converters := host.converters,
      makers := host.makers }
  p.parse c.schema start

/-- Parses a line from an offset on, both given as values. -/
def parseValues (c : Command) (host : Host) (text start : Value) : Except Refusal Report := do
  let text ← text.asSource "parse"
  let start ← start.asStart
  return c.parse host text start

/-- Hands a context to the callback. -/
def invoke (c : Command) (host : Host) (context : CommandContext) : Invocation :=
  host.call c.callback context

/-- Parses a line from an offset on and hands the result to the callback. -/
def call (c : Command) (host : Host) (text issuer start : Value) : Except Refusal Called := do
  let text ← text.asSource "parse"
  let start ← start.asStart
  let r := c.parse host text start
  return ⟨r.result.map fun args => c.invoke host ⟨text, args, issuer⟩, r.events⟩

/-- The command by its name and the name of its callback. -/
def display (c : Command) : String :=
  let callback := (c.callback.name?.map Text.quoted).getD c.callback.label
  recordText "Command" [("name", Value.optionalText c.name), ("callback", callback)]

end Command

end CommandGrammar
