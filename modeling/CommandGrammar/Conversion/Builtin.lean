import CommandGrammar.Binary64.Rounding
import CommandGrammar.Conversion.Basic
import CommandGrammar.Conversion.Numeral

/-!
# Builtin types

The types that every registry may begin with: texts, truth values, numbers within a range,
integers of a fixed size, and decimals. Each takes one token.
-/

namespace CommandGrammar

/-- The sizes of integers. -/
inductive IntegerSize
  | byte
  | short
  | int
  | long
deriving DecidableEq

/-- The decimal types. They differ in the number of digits that they ask for after the point. -/
inductive DecimalKind
  | float
  | double
deriving DecidableEq

/-- The builtin types. -/
inductive Builtin
  | string
  | boolean
  | number
  | integer (size : IntegerSize)
  | decimal (kind : DecimalKind)
deriving DecidableEq

/-- How many bits an integer has. -/
def IntegerSize.bits : IntegerSize → Nat
  | .byte => 8
  | .short => 16
  | .int => 32
  | .long => 64

/-- The name of an integer type. -/
def IntegerSize.name : IntegerSize → String
  | .byte => "byte"
  | .short => "short"
  | .int => "int"
  | .long => "long"

/-- The bounds of the integers with so many bits. -/
def IntegerSize.bounds (size : IntegerSize) (unsigned : Bool) : Int × Int :=
  if unsigned then (0, Nat.pow 2 size.bits - 1)
  else (-Nat.pow 2 (size.bits - 1), Nat.pow 2 (size.bits - 1) - 1)

/-- The fewest digits after the point. -/
def DecimalKind.places : DecimalKind → Nat
  | .float => 1
  | .double => 2

/-- The name of a decimal type. -/
def DecimalKind.name : DecimalKind → String
  | .float => "float"
  | .double => "double"

namespace Builtin

/-- All builtin types in the order in which a registry lists them. -/
def all : List Builtin :=
  [.string, .boolean, .number, .integer .byte, .integer .short, .integer .int, .integer .long,
   .decimal .float, .decimal .double]

/-- The name of a builtin type. -/
def name : Builtin → String
  | .string => "string"
  | .boolean => "boolean"
  | .number => "number"
  | .integer size => size.name
  | .decimal kind => kind.name

/-- The fault of a text that is not written as its type asks. -/
def malformed (name : String) (token : Token) : Answer :=
  .fault (.ofToken .malformedValue
    ("type error: '" ++ token.text ++ "' is not a valid " ++ name) token 0 0)

/-- The fault of a number out of range. -/
def outOfRange (message : String) (token : Token) : Answer :=
  .fault (.ofToken .valueRange message token 0 0)

/-- The decimal that a numeral with a fraction writes, as a floating-point number. -/
def realOf (n : Numeral) (fraction : List Char) : Binary64 :=
  .ofDecimal n.negative (Text.digitsValue (n.whole ++ fraction)) (-fraction.length)

/-- A truth value, spelled out. -/
def convertBoolean (token : Token) : Answer :=
  if token.text = "true" then .value (.bool true)
  else if token.text = "false" then .value (.bool false)
  else
    .fault (.ofToken .malformedValue
      ("type error: '" ++ token.text ++ "' is not true or false") token 0 0)

/-- The answer to a number beyond a bound, given how the fault of it is worded. A bound that is too
long to be written breaks the conversion. -/
def beyond (bound : Number) (message : String → String) (token : Token) : Answer :=
  match bound.text with
  | .ok text => outOfRange (message text) token
  | .error r => .crash r.crash

/-- A number that has to lie in the range of the argument, if it has one. -/
def checkRange (options : Option NumericOptions) (token : Token) (n : Number) : Answer :=
  match options with
  | some (.range low high) =>
    match low.filter n.lt, high.filter (·.lt n) with
    | some low, _ =>
      beyond low ("type error: " ++ token.text ++ " is too small, it must be at least " ++ ·) token
    | none, some high =>
      beyond high ("type error: " ++ token.text ++ " is too big, it must be at most " ++ ·) token
    | none, none => .value (.ofNumber n)
  | _ => .value (.ofNumber n)

/-- The number of a token, whole unless it is written with a fraction. -/
def convertNumber (options : Option NumericOptions) (token : Token) : Answer :=
  match Numeral.read? token.text.toList with
  | none => malformed "number" token
  | some n =>
    match n.fraction with
    | some fraction => checkRange options token (.real (realOf n fraction))
    | none =>
      if maxDigits < n.whole.length then .crash (.digitLimit n.whole.length)
      else checkRange options token (.int n.toInt)

/-- Whether integers of an argument have no sign. -/
def isUnsigned : Option NumericOptions → Bool
  | some (.signedness unsigned) => unsigned
  | _ => false

/-- The integer of a token, within the bounds of its size. -/
def convertInteger (size : IntegerSize) (options : Option NumericOptions) (token : Token) :
    Answer :=
  match Numeral.readWhole? token.text.toList with
  | none => malformed size.name token
  | some n =>
    if maxDigits < n.whole.length then .crash (.digitLimit n.whole.length)
    else
      let unsigned := isUnsigned options
      let (low, high) := size.bounds unsigned
      if low ≤ n.toInt ∧ n.toInt ≤ high then .value (.int n.toInt)
      else
        outOfRange
          (toString size.bits ++ "-bit " ++ (if unsigned then "unsigned" else "signed") ++
            " overflow") token

/-- The floating-point number of a token that is written with enough digits after the point. -/
def convertDecimal (kind : DecimalKind) (token : Token) : Answer :=
  match Numeral.read? token.text.toList with
  | some n =>
    match n.fraction with
    | some fraction =>
      if kind.places ≤ fraction.length then .value (.real (realOf n fraction))
      else malformed kind.name token
    | none => malformed kind.name token
  | none => malformed kind.name token

/-- The conversion of a token for an argument. -/
def convert (b : Builtin) (options : Option NumericOptions) (token : Token) : Answer :=
  match b with
  | .string => .value (.str token.text)
  | .boolean => convertBoolean token
  | .number => convertNumber options token
  | .integer size => convertInteger size options token
  | .decimal kind => convertDecimal kind token

end Builtin

end CommandGrammar
