import CommandGrammar.Event
import CommandGrammar.Refusal
import CommandGrammar.Text.Case
import CommandGrammar.Value.Fields
import CommandGrammar.Value.Plain

/-!
# Journals

A journal writes down the entries that are grave enough. It writes nothing before it is set up,
and its level may be changed at any time. A level of zero is no level of its own: then the level
of warnings counts. Entries of other loggers than the root logger and those below it are none of
the journal's, but are shown from warnings on.
-/

namespace CommandGrammar

/-- Something to be written down. -/
structure Entry where
  logger : String
  level : Level
  event : String
  fields : List (String × Value)

/-- Where entries are written. -/
structure Journal where
  /-- The rank from which on entries are written, or zero. -/
  level : Int
  /-- Whether there is anything to write to. -/
  isOpen : Bool

/-- Whether an entry comes from a logger or from below it. -/
def Entry.isUnder (e : Entry) (root : String) : Bool :=
  e.logger = root || e.logger.startsWith (root ++ ".")

namespace Level

/-- The ranks by the names of levels. -/
def ranks : List (String × Int) :=
  [("CRITICAL", 50), ("FATAL", 50), ("ERROR", 40), ("WARN", 30), ("WARNING", 30), ("INFO", 20),
   ("DEBUG", 10), ("NOTSET", 0)]

/-- The level with a name, or with another name for it. -/
def named? (name : String) : Option Level :=
  match name with
  | "warn" => some .warning
  | "fatal" => some .critical
  | "exception" => some .error
  | name => all.find? (·.name = name)

end Level

namespace Journal

/-- The journal before it is set up. -/
def closed : Journal := ⟨0, false⟩

/-- The rank that a value gives: a number, or the name of a level in any case. -/
def rankOf (v : Value) : Except Refusal Int :=
  match v with
  | .int n => pure n
  | .bool b => pure (if b then 1 else 0)
  | .str s =>
    match Level.ranks.lookup (Text.upper s) with
    | some rank => pure rank
    | none => throw (.levelUnknown (Text.upper s))
  | _ => throw .levelNotLevel

/-- The journal set up with a level, and the refusal of a level that is none. An unknown name
still opens the journal, with the level that it had. -/
def configure (j : Journal) (level : Value) : Journal × Except Refusal Int :=
  match rankOf level with
  | .ok rank => (⟨rank, true⟩, .ok rank)
  | .error (.levelUnknown name) => ({ j with isOpen := true }, .error (.levelUnknown name))
  | .error refusal => (j, .error refusal)

/-- The rank from which on entries are written. -/
def threshold (j : Journal) : Int := if j.level = 0 then Level.warning.rank else j.level

/-- Whether entries of a level are written. -/
def writes (j : Journal) (level : Level) : Bool := j.isOpen && j.threshold ≤ level.rank

/-- Whether an entry is shown: by the journal, or else for its own sake. -/
def shows (j : Journal) (root : String) (e : Entry) : Bool :=
  if e.isUnder root then j.writes e.level else Level.warning.rank ≤ e.level.rank

/-- The name of a logger, which has to be a text. -/
def loggerOf (v : Value) : Except Refusal String :=
  match v with
  | .str s => pure s
  | _ => throw .loggerNotText

end Journal

/-- The entry of an event, under the name of the library's own logger. -/
def Event.entry (e : Event) (root : String) : Entry where
  logger := root ++ "." ++ e.component.name
  level := e.level
  event := e.name
  fields := e.fields

/-- How many line breaks a text holds. -/
def breaks (s : String) : Nat := s.toList.count '\n'

namespace Entry

/-- The names of fields that an entry does not take from the host. -/
def ownNames : List String := ["exc_info", "stack_info", "timestamp", "level", "logger"]

/-- The entry that a host reports under the name of a level. The logger, the level and the event
cannot be given once more as fields, a time is not kept, and a crash that is asked for where there
is none is said to be missing. -/
def ofCall (logger level event : String) (fields : Fields) : Except Refusal Entry := do
  let some rank := Level.named? level | throw .memberUnknown
  if fields.any fun (name, _) => name = "event" || name = "self" then throw .fieldsMismatched
  let crashed := ((fields.lookup "exc_info").getD (.bool (level = "exception"))).truthy
  let missing := if crashed then [("exception", .str "MISSING")] else []
  let kept := fields.filter fun (name, _) => !ownNames.contains name
  return ⟨logger, rank, event, kept ++ missing⟩

/-- The entry with its fields as plain data. -/
def plain (e : Entry) : Except Refusal Entry := do
  let fields ← e.fields.mapM fun (name, v) => return (name, ← v.plain)
  return { e with fields }

/-- On how many lines an entry is shown. Under the root logger it takes one, one more for each
break in its texts and one for a crash. -/
def lines (e : Entry) (root : String) : Nat :=
  if e.isUnder root then
    e.fields.foldl
      (fun n (name, v) =>
        n + (v.text?.map breaks).getD 0 + if name = "exception" then 1 else 0)
      (1 + breaks e.event)
  else 1

end Entry

end CommandGrammar
