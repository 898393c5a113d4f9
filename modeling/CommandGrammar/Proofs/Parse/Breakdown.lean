import CommandGrammar.Proofs.Parse.Resolution

/-!
# Broken converters

A converter is broken on the tokens that are left if it is not registered, crashes, answers with
something that is no conversion, or takes a number of tokens that is no number of tokens. That is
an internal fault, and a parse that comes to it fails with it, unless it is the fault of a flag's
argument that defaults make up for (`broken_converter`). Where the number cannot be written into the
fault, a crash leaves the parse, and nothing makes up for that.
-/

namespace CommandGrammar

theorem stepOf?_eq_none_iff {step : Value} : stepOf? step = none ↔ ∀ k, step = .int k → k < 1 := by
  constructor
  · rintro h k rfl
    by_cases hk : 1 ≤ k
    · rw [stepOf?, if_pos hk] at h
      cases h
    · omega
  · intro h
    unfold stepOf?
    split
    · rename_i k
      rw [if_neg (Int.not_le.2 (h k rfl))]
    · rfl

namespace Parser

variable {p : Parser} {a : Argument Value} {s : State} {h : Halt}

/-- The converter of an argument is broken on the given tokens, and what tells so: a fault, or the
crash of an invalid step that is too long to be written. -/
inductive Breaks (p : Parser) (a : Argument Value) : List Token → Halt → Prop
  | unregistered {token : Token} {rest : List Token} (none : p.converterOf a.type = none) :
      Breaks p a (token :: rest) (.fault (.unregistered a token))
  | crash {token : Token} {rest : List Token} {converter : Converter} {events : List Event}
      {c : Crash} (some : p.converterOf a.type = some converter)
      (answers : p.answer converter token rest a = (events, .crash c)) :
      Breaks p a (token :: rest) (.fault (.broken c))
  | noConversion {token : Token} {rest : List Token} {converter : Converter}
      {events : List Event} {v : Value} (some : p.converterOf a.type = some converter)
      (answers : p.answer converter token rest a = (events, .other v)) :
      Breaks p a (token :: rest) (.fault (.noConversion a token))
  | invalidStep {token : Token} {rest : List Token} {converter : Converter}
      {events : List Event} {v step : Value} (some : p.converterOf a.type = some converter)
      (answers : p.answer converter token rest a = (events, .conversion v step))
      (invalid : ∀ k, step = .int k → k < 1) :
      Breaks p a (token :: rest) (.invalidStep a step token)

/-- The fault of a broken converter is internal, and gets nothing but the line. -/
theorem Breaks.internal {given : List Token} {f : Fault} (breaks : p.Breaks a given (.fault f)) :
    f.kind = .internal ∧ f.Fresh := by
  generalize told : Halt.fault f = h at breaks
  cases breaks with
  | unregistered _ =>
    cases told
    exact ⟨rfl, Fault.fresh_ofToken (by decide)⟩
  | crash _ _ =>
    cases told
    exact ⟨rfl, Fault.fresh_broken _⟩
  | noConversion _ _ =>
    cases told
    exact ⟨rfl, Fault.fresh_ofToken (by decide)⟩
  | invalidStep _ _ _ =>
    unfold Halt.invalidStep at told
    split at told
    · cases told
      exact ⟨rfl, Fault.fresh_ofToken (by decide)⟩
    · cases told

/-- A broken converter makes a crash only of an answer with a step that cannot be written. -/
theorem Breaks.unwritten {given : List Token} {c : Crash} (breaks : p.Breaks a given (.crash c)) :
    ∃ (step : Value) (r : Refusal), step.text = .error r ∧ c = r.crash := by
  generalize told : Halt.crash c = h at breaks
  cases breaks with
  | unregistered _ => cases told
  | crash _ _ => cases told
  | noConversion _ _ => cases told
  | @invalidStep _ _ _ _ _ step _ _ _ =>
    unfold Halt.invalidStep at told
    split at told
    · cases told
    · rename_i r unwritten
      exact ⟨step, r, unwritten, Halt.crash.inj told⟩

theorem Breaks.argument (breaks : p.Breaks a s.left h) :
    ∃ events, p.argument a s = .halt h (s.report events) := by
  generalize hgiven : s.left = given at breaks
  rw [State.left] at hgiven
  cases breaks with
  | unregistered none =>
    refine ⟨[], ?_⟩
    rw [State.report_nil]
    simp only [Parser.argument, hgiven, none]
  | crash some answers =>
    simp only [Parser.argument, hgiven, some, answers]
    exact ⟨_, rfl⟩
  | noConversion some answers =>
    simp only [Parser.argument, hgiven, some, answers]
    exact ⟨_, rfl⟩
  | invalidStep some answers invalid =>
    simp only [Parser.argument, hgiven, some, answers, accept, stepOf?_eq_none_iff.2 invalid]
    exact ⟨_, rfl⟩

/-- A command with a flag whose argument has a type that is not registered. -/
def logger (required : Bool) : Schema Value where
  name := some "log"
  dest := "log"
  aliases := []
  help := none
  args := [.ofType "rest" "string" false]
  flags := [⟨"level", some "level", none, none,
    [{ Argument.ofType "value" "missing" required with default := .int 1 }]⟩]
  subcommands := []

end Parser

end CommandGrammar
