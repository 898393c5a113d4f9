import CommandGrammar.Proofs.Parse.Breakdown

/-!
# Where faults come from

A converter of the host may parse lines itself before it answers, with converters that parse lines
in their turn. A fault that leaves a parse was raised in it, by the engine or by a converter, or in
a parse that one of its converters began and did not guard. On its way out it is copied at most
once, to be given a line if it has none, which is that of the innermost parse that it leaves; the
copy has all else that it had, but for what its kind makes anew (`provenance`).
-/

namespace CommandGrammar

/-! ## What is raised at a stage -/

namespace Parser

variable {p : Parser} {m : Schema Value} {x : Stage} {a : Argument Value} {s t : State}
  {f : Fault} {h : Halt}

/-- What the engine itself raises at a stage. -/
inductive Own (p : Parser) (m : Schema Value) (x : Stage) : Halt → Prop
  | tooMany {token : Token} (next : x.state.next? = some token) (taken : x.args = [])
      (leaf : m.subcommands = []) : Own p m x (.tooManyArguments p.source token)
  | missing (next : x.state.next? = none) (required : ∃ a ∈ x.args, a.required = true) :
      Own p m x (.unexpectedEnd p.source)
  | unknown {token : Token} (next : x.state.next? = some token) (taken : x.args = [])
      (none : m.selected? token.text = none) (named : ∀ sub ∈ m.subcommands, sub.named = true) :
      Own p m x (.unknownSubcommand token)
  | spelling {token : Token} {c : Char} {rest : List Char} {h : Halt}
      (next : x.state.next? = some token) (flagged : spells x.active token = some (c, rest))
      (error : p.spelled m.flags token c rest = .error h) : Own p m x h
  | assignment {token : Token} {c : Char} {rest value : List Char} {met : Spelled}
      (meets : p.Meets m.flags x token c rest met)
      (hasValue : (Spelling.ofChars c rest).value = some value) (args : met.flag.args = []) :
      Own p m x (.flagAssignment token (token.positions p.source) x.state.advance.next?
        (Spelling.ofChars c rest).length value)
  | required {token : Token} {c : Char} {rest : List Char} {f : Flag Value} {marks : List String}
      {inline inline' : Bool} {a : Argument Value} {others : List (Argument Value)} {u v : State}
      (meets : p.Meets m.flags x token c rest ⟨f, marks⟩)
      (opens : p.Opens token c rest f (marks.foldl State.mark x.state) inline u)
      (asks : p.Asks inline f.args u inline' (a :: others) v) (done : v.left = []) :
      Own p m x (.flagArgumentRequired p.source)
  | broken {a : Argument Value} {role : Role} {s : State} {f : Fault}
      (resolves : p.Resolves m.flags x a role s) (breaks : p.Breaks a s.left (.fault f)) :
      Own p m x (.fault f)

/-- What the engine raises gets nothing but the line when it leaves the parse. -/
theorem Own.fresh (own : p.Own m x (.fault f)) : f.Fresh := by
  generalize hh : Halt.fault f = h at own
  cases own with
  | tooMany next taken leaf =>
    cases hh
    exact Fault.fresh_ofToken (by decide)
  | missing next required =>
    cases hh
    exact Fault.fresh_ofToken (by decide)
  | unknown next taken none named =>
    cases hh
    exact Fault.fresh_ofToken (by decide)
  | spelling next flagged error =>
    rcases spelled_error error with rfl | ⟨offset, code, -, rfl⟩
    · unfold Halt.unrecognizedFlag at hh
      split at hh <;> cases hh
      exact Fault.fresh_ofToken (by decide)
    · unfold Halt.unknownOption at hh
      split at hh <;> cases hh
      exact Fault.fresh_ofToken (by decide)
  | assignment meets hasValue args =>
    unfold Halt.flagAssignment at hh
    dsimp only at hh
    split at hh
    · split at hh <;> cases hh
      exact Fault.fresh_ofToken (by decide)
    · cases hh
      exact Fault.fresh_ofToken (by decide)
    · split at hh <;> cases hh
      exact Fault.fresh_ofToken (by decide)
  | required meets opens asks done =>
    cases hh
    exact Fault.fresh_ofToken (by decide)
  | broken resolves breaks =>
    cases hh
    exact breaks.internal.2

/-- At a stage a converter is handed the tokens that are left, for an argument. -/
inductive Hands (p : Parser) (m : Schema Value) (x : Stage) :
    Converter → Token → List Token → Argument Value → Prop
  | mk {a : Argument Value} {role : Role} {s : State} {token : Token} {rest : List Token}
      {converter : Converter} (resolves : p.Resolves m.flags x a role s)
      (left : s.left = token :: rest) (typed : p.converterOf a.type = some converter) :
      Hands p m x converter token rest a

/-- An argument for which tokens are left fails because its converter is broken, or with the fault
of its converter. -/
theorem breaks_or_answers (left : s.left ≠ []) (halted : p.argument a s = .halt h t) :
    p.Breaks a s.left h ∨ ∃ f token rest converter events, h = .fault f ∧ s.left = token :: rest ∧
      p.converterOf a.type = some converter ∧
      p.answer converter token rest a = (events, .fault f) := by
  obtain ⟨token, rest, left⟩ := List.exists_cons_of_ne_nil left
  rw [left]
  rw [State.left] at left
  rw [argument, left] at halted
  dsimp only at halted
  split at halted
  · rename_i none
    cases halted
    exact .inl (.unregistered none)
  · rename_i converter typed
    generalize answers : p.answer converter token rest a = given at halted
    obtain ⟨events, answer⟩ := given
    cases answer with
    | fault g =>
      cases halted
      exact .inr ⟨g, token, rest, converter, events, rfl, rfl, typed, answers⟩
    | crash c =>
      cases halted
      exact .inl (.crash typed answers)
    | other v =>
      cases halted
      exact .inl (.noConversion typed answers)
    | conversion v step =>
      dsimp only [accept] at halted
      split at halted
      · rename_i invalid
        obtain ⟨told, -⟩ := Outcome.halt.inj halted
        rw [← told]
        exact .inl (.invalidStep typed answers (stepOf?_eq_none_iff.1 invalid))
      · cases halted

/-- What is raised at a stage is raised by the engine, or it is the fault that a converter
answers with. -/
theorem Raises.own_or_answered (raises : p.Raises m x (.fault f)) :
    p.Own m x (.fault f) ∨ ∃ converter token rest a events,
      p.Hands m x converter token rest a ∧
      p.answer converter token rest a = (events, .fault f) := by
  have resolved : ∀ {a role s t}, p.Resolves m.flags x a role s →
      p.argument a s = .halt (.fault f) t →
      p.Own m x (.fault f) ∨ ∃ converter token rest a events,
        p.Hands m x converter token rest a ∧
        p.answer converter token rest a = (events, .fault f) := by
    intro a role s t resolves failed
    rcases breaks_or_answers resolves.left failed with
      breaks | ⟨g, token, rest, converter, events, same, left, typed, answers⟩
    · exact .inl (.broken resolves breaks)
    · cases same
      exact .inr ⟨converter, token, rest, a, events, .mk resolves left typed, answers⟩
  generalize hh : Halt.fault f = h at raises
  cases raises with
  | level stops =>
    cases stops with
    | tooMany next _ outer => exact .inl (.tooMany next rfl (List.isEmpty_iff.1 outer))
    | argument next plain failed =>
      subst hh
      exact resolved (.positional next plain) failed
    | @flag active args s _ _ _ _ _ next flagged ends halted =>
      have refuses := flag_eq_halt (x := ⟨active, args, s⟩) next flagged ends halted
      cases refuses with
      | spelling error => exact .inl (.spelling next flagged error)
      | assignment meets hasValue args => exact .inl (.assignment meets hasValue args)
      | uncut _ _ => cases hh
      | required meets opens asks done => exact .inl (.required meets opens asks done)
      | argument resolves failed =>
        subst hh
        exact resolved resolves failed
  | missing next halted =>
    refine .inl (.missing next (Classical.byContradiction fun optional => ?_))
    rw [defaults_eq_fallBack, fallBack_of_optional] at halted
    · cases halted
    · intro a mem
      exact eq_false_of_ne_true fun required => optional ⟨a, mem, required⟩
  | unknown next none named => exact .inl (.unknown next rfl none named)

end Parser

/-! ## Parses that converters begin -/

/-- A parse: all but what the host has of its own. -/
structure ParseCall where
  source : String
  types : TypeRegistry
  options : Options
  schema : Schema Value
  start : Nat

namespace ParseCall

/-- What the parse works with, given the kinds and the converters of the host. -/
def parser (call : ParseCall) (makers : Makers) (converters : Converters) : Parser :=
  ⟨call.source, call.types, call.options, converters, makers⟩

/-- What comes out of the parse. -/
def report (call : ParseCall) (makers : Makers) (converters : Converters) : Report :=
  (call.parser makers converters).parse call.schema call.start

/-- The parse comes to a stage on the level of a schema. -/
def Comes (call : ParseCall) (makers : Makers) (converters : Converters) (m : Schema Value)
    (x : Parser.Stage) : Prop :=
  let p := call.parser makers converters
  p.Comes false call.options.parseFlags (p.initial call.start) call.schema m x

end ParseCall

/-- What a converter of the host does for the tokens and the argument that it is handed. It
answers, or it first parses a line, with converters that do as they do, and goes on with the result
or with what it catches of what leaves the parse. What it does not catch is its answer. -/
inductive Script
  | answer (events : List Event) (given : Answer)
  | parse (call : ParseCall) (converters : Handle → List Token → Argument Value → Script)
      (next : Mapping Value → Script) (catches : Halt → Bool) (handle : Halt → Script)

/-- What the converters of the host do. -/
abbrev Scripts := Handle → List Token → Argument Value → Script

/-- What a converter answers that does not catch what leaves a parse. -/
def Halt.passed : Halt → Answer
  | .fault f => .fault f
  | .crash c => .crash c

/-- The events and the answer of what a converter does. -/
def Script.run (makers : Makers) : Script → List Event × Answer
  | .answer events given => (events, given)
  | .parse call converters next catches handle =>
    let r := call.report makers fun h tokens a => (converters h tokens a).run makers
    match r.result with
    | .ok result => ((next result).run makers).map (r.events ++ ·) id
    | .error h =>
      if catches h then ((handle h).run makers).map (r.events ++ ·) id else (r.events, h.passed)

/-- The converters of the host that do so. -/
def Scripts.converters (scripts : Scripts) (makers : Makers) : Converters :=
  fun h tokens a => (scripts h tokens a).run makers

section

variable (makers : Makers)

/-- What comes out of a parse with converters that do so. -/
def ParseCall.outcome (call : ParseCall) (scripts : Scripts) : Except Halt (Mapping Value) :=
  (call.report makers (scripts.converters makers)).result

/-- After some parses that succeed, or of which what leaves them is caught, a converter comes to do
what is left. -/
inductive Script.Goes : Script → Script → Prop
  | here {script : Script} : Goes script script
  | next {call : ParseCall} {scripts : Scripts} {next : Mapping Value → Script}
      {catches : Halt → Bool} {handle : Halt → Script} {m : Mapping Value} {script : Script}
      (ok : call.outcome makers scripts = .ok m) (later : Goes (next m) script) :
      Goes (.parse call scripts next catches handle) script
  | caught {call : ParseCall} {scripts : Scripts} {next : Mapping Value → Script}
      {catches : Halt → Bool} {handle : Halt → Script} {h : Halt} {script : Script}
      (failed : call.outcome makers scripts = .error h)
      (guards : catches h = true) (later : Goes (handle h) script) :
      Goes (.parse call scripts next catches handle) script

/-- A fault is raised in a parse, and the line of the innermost parse that it leaves: the engine
raises it, a builtin converter or one of the host answers with it, or it is raised in a parse that a
converter of the host has begun, and passes the converter. -/
inductive Arises : ParseCall → Scripts → Fault → String → Prop
  | engine {call : ParseCall} {scripts : Scripts} {m : Schema Value} {x : Parser.Stage} {f : Fault}
      (comes : call.Comes makers (scripts.converters makers) m x)
      (own : (call.parser makers (scripts.converters makers)).Own m x (.fault f)) :
      Arises call scripts f call.source
  | builtin {call : ParseCall} {scripts : Scripts} {m : Schema Value} {x : Parser.Stage}
      {b : Builtin} {token : Token} {rest : List Token} {a : Argument Value} {f : Fault}
      (comes : call.Comes makers (scripts.converters makers) m x)
      (hands : (call.parser makers (scripts.converters makers)).Hands m x (.builtin b) token rest a)
      (answers : b.convert a.options token = .fault f) : Arises call scripts f call.source
  | host {call : ParseCall} {scripts : Scripts} {m : Schema Value} {x : Parser.Stage} {h : Handle}
      {token : Token} {rest : List Token} {a : Argument Value} {events : List Event} {f : Fault}
      (comes : call.Comes makers (scripts.converters makers) m x)
      (hands : (call.parser makers (scripts.converters makers)).Hands m x (.host h) token rest a)
      (answers : (scripts h (token :: rest) a).Goes makers (.answer events (.fault f))) :
      Arises call scripts f call.source
  | nested {call inner : ParseCall} {scripts scripts' : Scripts} {m : Schema Value}
      {x : Parser.Stage} {h : Handle} {token : Token} {rest : List Token} {a : Argument Value}
      {next : Mapping Value → Script} {catches : Halt → Bool} {handle : Halt → Script}
      {f g : Fault} {line : String} (comes : call.Comes makers (scripts.converters makers) m x)
      (hands : (call.parser makers (scripts.converters makers)).Hands m x (.host h) token rest a)
      (begins : (scripts h (token :: rest) a).Goes makers
        (.parse inner scripts' next catches handle))
      (arises : Arises inner scripts' f line)
      (left : f.annotate makers (.str line) = .ok g)
      (failed : inner.outcome makers scripts' = .error (.fault g))
      (passes : catches (.fault g) = false) : Arises call scripts f line

/-- Where a converter comes from to a fault: it answers with it, or the fault leaves a parse that
it has begun. -/
inductive Script.Raises (script : Script) (f : Fault) : Prop
  | answer {events : List Event} (goes : script.Goes makers (.answer events (.fault f)))
  | passes {call : ParseCall} {scripts : Scripts} {next : Mapping Value → Script}
      {catches : Halt → Bool} {handle : Halt → Script} {g : Fault} {line : String}
      (goes : script.Goes makers (.parse call scripts next catches handle))
      (failed : call.outcome makers scripts = .error (.fault f))
      (passes : catches (.fault f) = false) (arises : Arises makers call scripts g line)
      (left : g.annotate makers (.str line) = .ok f)

end

variable {makers : Makers}

/-- A fault that leaves a parse is the one that a command halted with, with the line. -/
theorem Halt.fault_of_leaving {h : Halt} {p : Parser} {f : Fault} (left : h.leaving p = .fault f) :
    ∃ g, h = .fault g ∧ g.annotate p.makers (.str p.source) = .ok f := by
  cases h with
  | crash c => cases left
  | fault g =>
    refine ⟨g, rfl, ?_⟩
    rw [leaving, annotate] at left
    cases annotates : g.annotate p.makers (.str p.source) with
    | error c =>
      simp only [annotates] at left
      cases left
    | ok e =>
      simp only [annotates, told] at left
      split at left
      · rw [Halt.fault.inj left]
      · cases left

/-- What a converter comes to from what is left, it comes to from where it began. -/
theorem Script.Raises.before {script later : Script} {f : Fault} (raises : later.Raises makers f)
    (before : ∀ {last}, later.Goes makers last → script.Goes makers last) :
    script.Raises makers f := by
  cases raises with
  | answer goes => exact .answer (before goes)
  | passes goes failed passes arises left => exact .passes (before goes) failed passes arises left

/-- What a fault is that leaves a parse, given how it was raised and the line of the innermost parse
that it has left. It has the line that it had, or else that one. All its attributes are as they
were, and so are its kind and its cause. If it had a line then it is the same fault, and otherwise a
copy, which has what its kind makes of the values of the first one. -/
structure Fault.Survives (makers : Makers) (raised : Fault) (line : String) (left : Fault) :
    Prop where
  kind : left.kind = raised.kind
  attributes : left.toAttributes = { raised.toAttributes with command := left.command }
  cause : left.cause = raised.cause
  line : raised.command = .null → left.command = .str line
  same : raised.command ≠ .null → left = raised
  copied : raised.command = .null → raised.kind.make makers raised.args = .ok left.toMade

theorem Fault.survives_of_annotate {f g : Fault} {line : String}
    (left : f.annotate makers (.str line) = .ok g) : f.Survives makers line g := by
  by_cases bare : f.command = .null
  · rw [annotate_of_bare makers bare, copy_eq] at left
    cases made : f.kind.make makers f.args with
    | error c =>
      rw [made] at left
      cases left
    | ok made' =>
      rw [made] at left
      cases left
      exact ⟨rfl, rfl, rfl, fun _ => rfl, fun line => absurd bare line, fun _ => made⟩
  · rw [annotate_of_annotated makers bare] at left
    cases left
    exact ⟨rfl, rfl, rfl, fun none => absurd none bare, fun _ => rfl, fun none => absurd none bare⟩

/-- A copy has no values if its kind makes none of those that it is called with. -/
example :
    let kind : FaultKind := .host .command ⟨"MissingFile", none, none, some ⟨"missing", none⟩⟩
    (Fault.general kind "no such file").annotate (fun _ _ => pure ⟨[], []⟩) (.str "open x") =
      .ok { Fault.general kind "no such file" with command := .str "open x", args := [] } := rfl

end CommandGrammar
