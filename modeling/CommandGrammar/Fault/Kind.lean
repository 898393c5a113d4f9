import CommandGrammar.Schema.Basic

/-!
# Kinds of faults

The kinds of faults that a command line may have, with the code, the title and the name of each.
Codes are stable and grouped: routing, flags, positionals, conversions and internals. A host derives
kinds of its own from these.
-/

namespace CommandGrammar

/-- The stable codes of faults, in the order in which they are listed. -/
inductive FaultCode
  | unknownCommand
  | unknownSubcommand
  | unrecognizedFlag
  | unknownOption
  | flagAssignment
  | flagArgumentRequired
  | tooManyArguments
  | unexpectedEnd
  | malformedValue
  | valueOutOfRange
  | internalError
deriving DecidableEq

namespace FaultCode

/-- All codes in their order. -/
def all : List FaultCode :=
  [.unknownCommand, .unknownSubcommand, .unrecognizedFlag, .unknownOption, .flagAssignment,
   .flagArgumentRequired, .tooManyArguments, .unexpectedEnd, .malformedValue, .valueOutOfRange,
   .internalError]

/-- The number of a code. -/
def number : FaultCode → Nat
  | .unknownCommand => 11101
  | .unknownSubcommand => 11102
  | .unrecognizedFlag => 11111
  | .unknownOption => 11112
  | .flagAssignment => 11113
  | .flagArgumentRequired => 11114
  | .tooManyArguments => 11121
  | .unexpectedEnd => 11122
  | .malformedValue => 11131
  | .valueOutOfRange => 11132
  | .internalError => 11141

/-- The name of a code. -/
def name : FaultCode → String
  | .unknownCommand => "UNKNOWN_COMMAND"
  | .unknownSubcommand => "UNKNOWN_SUBCOMMAND"
  | .unrecognizedFlag => "UNRECOGNIZED_FLAG"
  | .unknownOption => "UNKNOWN_OPTION"
  | .flagAssignment => "FLAG_ASSIGNMENT"
  | .flagArgumentRequired => "FLAG_ARGUMENT_REQUIRED"
  | .tooManyArguments => "TOO_MANY_ARGUMENTS"
  | .unexpectedEnd => "UNEXPECTED_END"
  | .malformedValue => "MALFORMED_VALUE"
  | .valueOutOfRange => "VALUE_OUT_OF_RANGE"
  | .internalError => "INTERNAL_ERROR"

end FaultCode

/-- What a kind has for its code: a listed code, or what a host pins in its place. -/
inductive PinnedCode
  | listed (code : FaultCode)
  /-- Something of the named kind that bears a name. -/
  | named (kindName name : String)
  /-- Something of the named kind that bears none. -/
  | nameless (kindName : String)
deriving DecidableEq

/-- The name of what the code is. -/
def PinnedCode.kindName : PinnedCode → String
  | .listed _ => "FaultCode"
  | .named kindName _ => kindName
  | .nameless kindName => kindName

/-- What a host adds to the kind from which it derives its own. -/
structure HostKind where
  name : String
  code : Option PinnedCode
  title : Option String
  /-- How faults of the kind are made of values, if not as all others are. -/
  maker : Option Handle
deriving DecidableEq

/-- The kinds of faults. The most general one is `command`. -/
inductive FaultKind
  | command
  | unknownCommand
  | unknownSubcommand
  | unrecognizedFlag
  | unknownOption
  | flagAssignment
  | flagArgumentRequired
  | tooManyArguments
  | unexpectedEnd
  | conversion
  | malformedValue
  | valueRange
  | internal
  /-- A kind that a host derives from another one. -/
  | host (base : FaultKind) (own : HostKind)
deriving DecidableEq

namespace FaultKind

/-- The library's own kinds in the order in which they are listed. -/
def all : List FaultKind :=
  [.command, .unknownCommand, .unknownSubcommand, .unrecognizedFlag, .unknownOption,
   .flagAssignment, .flagArgumentRequired, .tooManyArguments, .unexpectedEnd, .conversion,
   .malformedValue, .valueRange, .internal]

/-- The name of a kind. -/
def name : FaultKind → String
  | .command => "CommandError"
  | .unknownCommand => "UnknownCommandError"
  | .unknownSubcommand => "UnknownSubcommandError"
  | .unrecognizedFlag => "UnrecognizedFlagError"
  | .unknownOption => "UnknownOptionError"
  | .flagAssignment => "FlagAssignmentError"
  | .flagArgumentRequired => "FlagArgumentRequiredError"
  | .tooManyArguments => "TooManyArgumentsError"
  | .unexpectedEnd => "UnexpectedEndError"
  | .conversion => "ConversionError"
  | .malformedValue => "MalformedValueError"
  | .valueRange => "ValueRangeError"
  | .internal => "InternalError"
  | .host _ own => own.name

/-- The title of a kind. -/
def title : FaultKind → String
  | .command => "command error"
  | .unknownCommand => "unknown command"
  | .unknownSubcommand => "unknown sub-command"
  | .unrecognizedFlag => "unrecognized flag"
  | .unknownOption => "unknown option"
  | .flagAssignment => "flag cannot take a value"
  | .flagArgumentRequired => "missing flag argument"
  | .tooManyArguments => "too many arguments"
  | .unexpectedEnd => "unexpected end of input"
  | .conversion => "type error"
  | .malformedValue => "malformed value"
  | .valueRange => "value out of range"
  | .internal => "internal error"
  | .host base own => own.title.getD base.title

/-- The code of a kind. -/
def code : FaultKind → PinnedCode
  | .unknownCommand => .listed .unknownCommand
  | .unknownSubcommand => .listed .unknownSubcommand
  | .unrecognizedFlag => .listed .unrecognizedFlag
  | .unknownOption => .listed .unknownOption
  | .flagAssignment => .listed .flagAssignment
  | .flagArgumentRequired => .listed .flagArgumentRequired
  | .tooManyArguments => .listed .tooManyArguments
  | .unexpectedEnd => .listed .unexpectedEnd
  | .conversion => .listed .malformedValue
  | .malformedValue => .listed .malformedValue
  | .valueRange => .listed .valueOutOfRange
  | .command | .internal => .listed .internalError
  | .host base own => own.code.getD base.code

/-- How faults of a kind are made of values, if not as all others are. -/
def maker? : FaultKind → Option Handle
  | .host base own => own.maker.or base.maker?
  | _ => none

/-- Whether a fault of the first kind is one of the second. -/
def isA (kind general : FaultKind) : Bool :=
  kind = general || general = .command ||
    match kind with
    | .host base _ => base.isA general
    | .malformedValue | .valueRange => general = .conversion
    | _ => false

/-- The listed kinds that a fault of this kind is one of. -/
def classes (kind : FaultKind) : List FaultKind := all.filter kind.isA

end FaultKind

end CommandGrammar
