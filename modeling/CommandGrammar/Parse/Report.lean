import CommandGrammar.Parse.Nested
import CommandGrammar.Schema.Declaration

/-!
# Reports

Parsing a whole line: the result or the fault, which knows the line by then, with the tokens as
they are at the end and the events of the parse. A fault that cannot be copied or reported gives
way to the crash that it causes.
-/

namespace CommandGrammar

/-- What comes out of a parse. -/
structure Report where
  result : Except Halt (Mapping Value)
  tokens : List Token
  events : List Event

/-- The halt with its line. -/
def Halt.annotate (h : Halt) (makers : Makers) (source : String) : Halt :=
  match h with
  | .fault f =>
    match f.annotate makers (.str source) with
    | .ok f => .fault f
    | .error c => .crash c
  | .crash c => .crash c

/-- The name of a fault's code, by which the fault is reported if it has a column or none. -/
def Fault.reportedAs (f : Fault) : Except Refusal Value := do
  let code ← f.codeName
  f.checkToken
  return code

/-- The report with the event of a parse that failed. -/
def Report.concluded (r : Report) (dest : String) : Report :=
  match r.result with
  | .error (.fault f) =>
    match f.reportedAs with
    | .ok code => { r with events := r.events ++ [.parseFailed dest code f.message f.column] }
    | .error refusal => { r with result := .error (.crash refusal.crash) }
  | _ => r

namespace Parser

/-- Parses tokens of the line against a schema. -/
def run (p : Parser) (schema : Schema Value) (tokens : List Token) : Report :=
  match p.command p.options.parseFlags ⟨tokens, 0, .empty, []⟩ schema with
  | .ok s => ⟨.ok s.result, s.tokens, s.events⟩
  | .halt h s => ⟨.error (h.annotate p.makers p.source), s.tokens, s.events⟩

/-- Parses the line from an offset on against a schema. -/
def parse (p : Parser) (schema : Schema Value) (start : Nat) : Report :=
  let r := (p.run schema (Token.tokenize p.source start)).concluded schema.dest
  { r with events := .parseStarted schema.dest p.source start :: r.events }

end Parser

/-- The offset that a value gives, which is no truth value and not negative. -/
def Value.asStart (v : Value) : Except Refusal Nat :=
  match v with
  | .int n => if n < 0 then throw .startNotCount else pure n.toNat
  | _ => throw .startNotCount

/-- The line that a value gives to an operation. -/
def Value.asSource (operation : String) (v : Value) : Except Refusal String :=
  match v with
  | .str s => pure s
  | _ => throw (.sourceNotText operation)

/-- The schema that a value is or declares. A finished schema is taken as it is. -/
def Value.asSchema (v : Value) : Except Refusal (Schema Value) :=
  match v with
  | .schema s => pure s
  | v => Schema.declared v

/-- Parses a line against a schema, both given as values. -/
def parseValues (types : TypeRegistry) (converters : Converters) (makers : Makers)
    (schema source start : Value) (base : OptionsBase) (overrides : Fields) :
    Except Refusal Report := do
  let source ← source.asSource "parse"
  let schema ← schema.asSchema
  let options ← Options.derive base overrides
  let start ← start.asStart
  return Parser.parse { source, types, options, converters, makers } schema start

end CommandGrammar
