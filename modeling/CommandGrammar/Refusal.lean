import CommandGrammar.Text.Quoted

/-!
# Refusals

Why a declaration, a setting or a registration is refused, and how each cause is worded.
-/

namespace CommandGrammar

/-- The parts of a schema that refusals name. -/
inductive SpecKind
  | argument
  | flag
  | command
deriving DecidableEq

/-- The name of a part. -/
def SpecKind.label : SpecKind → String
  | .argument => "argument"
  | .flag => "flag"
  | .command => "command-node"

/-- Whether what is refused is a value of the wrong kind, a wrong value of the right kind, a number
without bound, or a member that is not there. -/
inductive RefusalCategory
  | kind
  | value
  | overflow
  | member
deriving DecidableEq

/-- The name of a category. -/
def RefusalCategory.name : RefusalCategory → String
  | .kind => "TypeError"
  | .value => "ValueError"
  | .overflow => "OverflowError"
  | .member => "AttributeError"

/-- A cause of refusal. -/
inductive Refusal
  /-- A field that has to be a text is none. -/
  | fieldNotText (spec : SpecKind) (field : String)
  /-- A text field holds blanks alone. -/
  | fieldEmpty (spec : SpecKind) (field : String)
  /-- A field that has to hold items holds no items, or others. -/
  | fieldNotItems (spec : SpecKind) (field items : String)
  /-- A field is missing or unknown. -/
  | fieldsMismatched
  /-- Something is asked for that has no such member. -/
  | memberUnknown
  | typeUnusable
  | optionsNotNumeric
  | extrasNotMapping
  | extrasKeyNotText
  | codeMissing
  | longWithDashes
  | longMalformed
  | shortNotOneCharacter
  | shortMalformed
  /-- A name or alias is no text. -/
  | wordNotText (what : String)
  | wordEmpty (what : String)
  | wordBlank (what : String)
  | aliasRepeated
  | aliasesUnnamed
  | destMissing
  | codeTaken (code : String)
  | wordTaken (word : String)
  | rangeNotPair
  | rangeBoundNotNumber
  | rangeReversed
  | argumentNotDeclared
  | argumentUnnamed
  | rangeWithSignedness
  | flagNotDeclared
  | schemaNotDeclared
  /-- A literal has keys of its own, given as they are shown. -/
  | unexpectedKeys (what : String) (keys : List String)
  /-- A value of the named kind has no items. -/
  | notIterable (kindName : String)
  | sourceNotText (operation : String)
  | startNotCount
  | optionsUnknown (names : List String)
  | optionsNotGiven
  | typeNameNotText
  | typeNameEmpty
  | converterNotCallable
  | callbackNotCallable
  | decoratedNotCallable
  | commandWithOptions
  | commandUnnamed
  | commandTaken (word : String)
  | commandPrefixNotText
  | commandPrefixEmpty
  | messageNotText
  | loggerNotText
  | levelNotLevel
  | levelUnknown (name : String)
  | faultMessageNotText (kind : String)
  | faultFieldsUnknown (kind : String) (fields : List String)
  | widthNotCount
  | offsetNotNumeral (text : String)
  | offsetTooLong (digits : Nat)
  /-- A whole number has more digits than can be written. -/
  | numberTooLong
  | offsetNotANumber
  | offsetInfinite
  | offsetNotNumeric (kindName : String)
  /-- A renaming is given neither one nor two things. -/
  | renamingCount (given : Nat)
  | renamedNotCallable
  | newNameNotText
  /-- The name of a callable cannot be changed. -/
  | nameFixed
  | pendingNameNotText
  | pendingNotCallable
  | viewNotText
  | unsetSealed
  /-- Values of the named kinds have no union. -/
  | noUnion (left right : String)
  | notCallable (kindName : String)
  | kindNameWithNull
  /-- A line of the named kind has no length. -/
  | lineWithoutLength (kindName : String)
  /-- A line has a length but cannot be cut. -/
  | lineUncut
  /-- A line of the named kind cannot be joined with texts. -/
  | lineNotText (kindName : String)
  | partNotText
  /-- A value of the named kind has no such attribute. -/
  | attributeMissing (kindName name : String)
deriving DecidableEq

namespace Refusal

/-- Whether the kind of a value is at fault or the value itself. -/
def category : Refusal → RefusalCategory
  | .fieldEmpty .. | .longWithDashes | .longMalformed | .shortNotOneCharacter | .shortMalformed
  | .wordEmpty _ | .wordBlank _ | .aliasRepeated | .aliasesUnnamed | .codeTaken _ | .wordTaken _
  | .rangeReversed | .typeNameEmpty | .commandUnnamed | .commandTaken _ | .commandPrefixEmpty
  | .levelUnknown _ | .widthNotCount | .offsetNotNumeral _ | .offsetTooLong _ | .numberTooLong
  | .offsetNotANumber | .kindNameWithNull => .value
  | .offsetInfinite => .overflow
  | .memberUnknown | .attributeMissing .. => .member
  | _ => .kind

/-- Whether the wording of a refusal is settled. Of a refusal that concerns the host's own way of
calling, only the category is. -/
def isWorded : Refusal → Bool
  | .fieldsMismatched | .memberUnknown | .lineUncut | .attributeMissing .. => false
  | _ => true

/-- The wording of a refusal. -/
def message : Refusal → String
  | .fieldNotText spec field => spec.label ++ " '" ++ field ++ "' must be a string"
  | .fieldEmpty spec field => spec.label ++ " '" ++ field ++ "' cannot be empty"
  | .fieldNotItems spec field items =>
    spec.label ++ " '" ++ field ++ "' must be an iterable of " ++ items
  | .fieldsMismatched => "fields are missing or unknown"
  | .memberUnknown => "there is no such member"
  | .typeUnusable => "argument 'type' must be a type name or a callable"
  | .optionsNotNumeric => "argument 'options' must be number-options or integer-options"
  | .extrasNotMapping => "argument 'extras' must be a mapping"
  | .extrasKeyNotText => "argument 'extras' keys must be strings"
  | .codeMissing => "flag must specify a long or a short code"
  | .longWithDashes => "flag 'long' must be given without its leading dashes"
  | .longMalformed => "flag 'long' cannot contain '=' or whitespaces"
  | .shortNotOneCharacter => "flag 'short' must be exactly one character"
  | .shortMalformed => "flag 'short' cannot be '-', '=' or a whitespace"
  | .wordNotText what => "command-node " ++ what ++ " must be a string"
  | .wordEmpty what => "command-node " ++ what ++ " cannot be empty"
  | .wordBlank what => "command-node " ++ what ++ " cannot contain whitespaces"
  | .aliasRepeated => "command-node 'aliases' cannot contain duplicates"
  | .aliasesUnnamed => "unnamed command-node cannot have aliases"
  | .destMissing => "unnamed command-node must specify a 'dest'"
  | .codeTaken code => "command-node flag " ++ Text.quoted code ++ " is already in use"
  | .wordTaken word =>
    "command-node sub-command name " ++ Text.quoted word ++ " is already in use"
  | .rangeNotPair => "number-options 'range' must be a (min, max) pair"
  | .rangeBoundNotNumber => "number-options 'range' bounds must be numbers or None"
  | .rangeReversed => "number-options 'range' minimum cannot exceed its maximum"
  | .argumentNotDeclared => "argument declarations must be arguments or mappings"
  | .argumentUnnamed => "argument declarations must specify a 'dest' or a 'name'"
  | .rangeWithSignedness => "argument declarations cannot combine 'range' and 'unsigned'"
  | .flagNotDeclared => "flag declarations must be flags or mappings"
  | .schemaNotDeclared =>
    "build_schema() argument must be a command-node, a command builder or a mapping"
  | .unexpectedKeys what keys =>
    what ++ " declarations got unexpected keys: " ++ ", ".intercalate keys
  | .notIterable kindName => "'" ++ kindName ++ "' object is not iterable"
  | .sourceNotText operation => operation ++ "() source must be a string"
  | .startNotCount => "tokenize() start must be a non-negative integer"
  | .optionsUnknown names => "unexpected parse option(s): " ++ Text.quotedAll names
  | .optionsNotGiven => "parse options must be a ParseOptions instance"
  | .typeNameNotText => "register() type name must be a string"
  | .typeNameEmpty => "register() type name cannot be empty"
  | .converterNotCallable => "register() converter must be callable"
  | .callbackNotCallable => "command callback must be callable"
  | .decoratedNotCallable => "@command() must be applied to a callable"
  | .commandWithOptions => "register() takes no callback nor options along with a command"
  | .commandUnnamed => "registered commands must be named"
  | .commandTaken word => "command name " ++ Text.quoted word ++ " is already in use"
  | .commandPrefixNotText => "registry prefix must be a string"
  | .commandPrefixEmpty => "registry prefix cannot be empty"
  | .messageNotText => "dispatch() message must be a string"
  | .loggerNotText => "get_logger() argument must be a string"
  | .levelNotLevel => "configure_logging() level must be a string or an integer"
  | .levelUnknown name => "Unknown level: " ++ Text.quoted name
  | .faultMessageNotText kind => kind ++ " message must be a string"
  | .faultFieldsUnknown kind fields =>
    "unexpected " ++ kind ++ " field(s): " ++ Text.quotedAll fields
  | .widthNotCount => "render() width must be a non-negative integer"
  | .offsetNotNumeral text =>
    "invalid literal for int() with base 10: " ++
      String.ofList ((Text.quotedList text.toList).take 200)
  | .offsetTooLong digits =>
    "Exceeds the limit (4300 digits) for integer string conversion: value has " ++
      toString digits ++ " digits; use sys.set_int_max_str_digits() to increase the limit"
  | .numberTooLong =>
    "Exceeds the limit (4300 digits) for integer string conversion; " ++
      "use sys.set_int_max_str_digits() to increase the limit"
  | .offsetNotANumber => "cannot convert float NaN to integer"
  | .offsetInfinite => "cannot convert float infinity to integer"
  | .offsetNotNumeric kindName =>
    "int() argument must be a string, a bytes-like object or a real number, not '" ++
      kindName ++ "'"
  | .renamingCount given =>
    "rename takes 1 to 2 arguments but " ++ toString given ++ " were given"
  | .renamedNotCallable => "rename() first argument must be callable"
  | .newNameNotText => "rename() second argument must be a string"
  | .nameFixed => "rename() first argument must be a updatable callable"
  | .pendingNameNotText => "@rename() argument must be a string"
  | .pendingNotCallable => "@rename() must be applied to a callable"
  | .viewNotText => "view() argument must be a string"
  | .unsetSealed => "type 'UnsetType' is not an acceptable base type"
  | .noUnion left right =>
    "unsupported operand type(s) for |: '" ++ left ++ "' and '" ++ right ++ "'"
  | .notCallable kindName => "'" ++ kindName ++ "' object is not callable"
  | .kindNameWithNull => "type name must not contain null characters"
  | .lineWithoutLength kindName => "object of type '" ++ kindName ++ "' has no len()"
  | .lineUncut => "unhashable type: 'slice'"
  | .lineNotText kindName =>
    "can only concatenate " ++ kindName ++ " (not \"str\") to " ++ kindName
  | .partNotText => "Only str or Text can be appended to Text"
  | .attributeMissing kindName name =>
    "'" ++ kindName ++ "' object has no attribute '" ++ name ++ "'"

end Refusal

end CommandGrammar
