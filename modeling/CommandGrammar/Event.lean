import CommandGrammar.Fault.Basic

/-!
# Events

What the library reports about its work, each event with a level, the part of the library that
reports it, a name and fields.
-/

namespace CommandGrammar

/-- How grave an event is. -/
inductive Level
  | debug
  | info
  | warning
  | error
  | critical
deriving DecidableEq

namespace Level

/-- All levels. -/
def all : List Level := [.debug, .info, .warning, .error, .critical]

/-- The rank of a level. -/
def rank : Level → Int
  | .debug => 10
  | .info => 20
  | .warning => 30
  | .error => 40
  | .critical => 50

/-- The name of a level. -/
def name : Level → String
  | .debug => "debug"
  | .info => "info"
  | .warning => "warning"
  | .error => "error"
  | .critical => "critical"

end Level

/-- The parts of the library that report events. -/
inductive Component
  | parsing
  | converters
  | commands
deriving DecidableEq

/-- The name of a part. -/
def Component.name : Component → String
  | .parsing => "parsing"
  | .converters => "converters"
  | .commands => "commands"

/-- Something that happened. -/
inductive Event
  | parseStarted (command source : String) (start : Nat)
  | subcommandMatched (command subcommand word : String)
  | alternativeRejected (command alternative error : String)
  | alternativeAccepted (command alternative : String)
  | parseFailed (command : String) (code : Value) (error : String) (column : Option Int)
  | typeRegistered (type converter : String)
  | commandRegistered (command : String) (aliases : List String)
  | unknownCommand (word line : String)
  | commandDispatched (command line : String)
  | commandFailed (command line error : String)
  | commandCrashed (command line report : String)

namespace Event

/-- The level of an event. -/
def level : Event → Level
  | .unknownCommand .. | .commandDispatched .. => .info
  | .commandFailed .. => .warning
  | .commandCrashed .. => .error
  | _ => .debug

/-- The part of the library that reports an event. -/
def component : Event → Component
  | .typeRegistered .. => .converters
  | .commandRegistered .. | .unknownCommand .. | .commandDispatched .. | .commandFailed ..
  | .commandCrashed .. => .commands
  | _ => .parsing

/-- The name of an event. -/
def name : Event → String
  | .parseStarted .. => "parse_started"
  | .subcommandMatched .. => "subcommand_matched"
  | .alternativeRejected .. => "alternative_rejected"
  | .alternativeAccepted .. => "alternative_accepted"
  | .parseFailed .. => "parse_failed"
  | .typeRegistered .. => "type_registered"
  | .commandRegistered .. => "command_registered"
  | .unknownCommand .. => "unknown_command"
  | .commandDispatched .. => "command_dispatched"
  | .commandFailed .. => "command_failed"
  | .commandCrashed .. => "command_crashed"

/-- The fields of an event. -/
def fields : Event → List (String × Value)
  | .parseStarted command source start =>
    [("command", .str command), ("source", .str source), ("start", .int start)]
  | .subcommandMatched command subcommand word =>
    [("command", .str command), ("subcommand", .str subcommand), ("word", .str word)]
  | .alternativeRejected command alternative error =>
    [("command", .str command), ("alternative", .str alternative), ("error", .str error)]
  | .alternativeAccepted command alternative =>
    [("command", .str command), ("alternative", .str alternative)]
  | .parseFailed command code error column =>
    [("command", .str command), ("code", code), ("error", .str error),
     ("column", .ofOption (column.map .int))]
  | .typeRegistered type converter => [("type", .str type), ("converter", .str converter)]
  | .commandRegistered command aliases =>
    [("command", .str command), ("aliases", .list (aliases.map .str))]
  | .unknownCommand word line => [("command", .str word), ("raw_text", .str line)]
  | .commandDispatched command line => [("command", .str command), ("raw_text", .str line)]
  | .commandFailed command line error =>
    [("command", .str command), ("raw_text", .str line), ("error", .str error)]
  | .commandCrashed command line report =>
    [("command", .str command), ("raw_text", .str line), ("exception", .str report)]

end Event

end CommandGrammar
