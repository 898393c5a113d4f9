import CommandGrammar.Event

/-!
# Conversions

What a converter is given and what it may answer. Converters of the host are known by their
handles; `Converters` gives them their meaning.
-/

namespace CommandGrammar

/-- What a converter answers. -/
inductive Answer
  /-- A value, and how many tokens it takes. -/
  | conversion (value step : Value)
  /-- Something that is no conversion. -/
  | other (v : Value)
  | fault (f : Fault)
  | crash (c : Crash)

/-- A successful conversion of one token. -/
def Answer.value (v : Value) : Answer := .conversion v (.int 1)

/-- The meaning of the host's converters. A converter is handed the tokens from the one to be
converted on and the argument that they are for; it may report events. -/
abbrev Converters := Handle → List Token → Argument Value → List Event × Answer

end CommandGrammar
