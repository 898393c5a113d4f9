import CommandGrammar.Conversion.Registry
import CommandGrammar.Fault.Revision
import CommandGrammar.Parse.Options

/-!
# States of a parse

A parse walks along a list of tokens, which grows where a value is cut off a flag, and writes its
results under keys. A halted parse keeps the tokens as they are by then and the events that were
reported.
-/

namespace CommandGrammar

/-- What a parse works with: the line, the types, the switches, the host's converters and how the
host's own kinds of faults are made. -/
structure Parser where
  source : String
  types : TypeRegistry
  options : Options
  converters : Converters
  makers : Makers

/-- Where a parse stands. -/
structure State where
  tokens : List Token
  /-- How many tokens are taken. A converter may take more than there are. -/
  index : Nat
  result : Mapping Value
  events : List Event

/-- Why a parse halts: a fault of the line, or a crash, which nothing in a parse handles. -/
inductive Halt
  | fault (f : Fault)
  | crash (c : Crash)

/-- How a step of a parse ends. -/
inductive Outcome
  | ok (s : State)
  | halt (h : Halt) (s : State)

namespace State

/-- How many tokens are left. -/
def remaining (s : State) : Nat := s.tokens.length - s.index

/-- The state with a value written under a key. -/
def write (s : State) (dest : String) (v : Value) : State :=
  { s with result := s.result.insert dest v }

/-- The state with a key marked as present. -/
def mark (s : State) (dest : String) : State := s.write dest (.bool true)

/-- The state with events reported. -/
def report (s : State) (events : List Event) : State := { s with events := s.events ++ events }

/-- The state one token further. -/
def advance (s : State) : State := { s with index := s.index + 1 }

end State

/-- The outcome with a key marked as present if the step succeeded. -/
def Outcome.marked (o : Outcome) (dest : String) : Outcome :=
  match o with
  | .ok s => .ok (s.mark dest)
  | .halt h s => .halt h s

end CommandGrammar
