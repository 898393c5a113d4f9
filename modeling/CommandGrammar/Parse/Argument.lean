import CommandGrammar.Parse.State

/-!
# Converting arguments

The converter of an argument is handed all tokens that are left. Its value is written under the
argument's key, and it says how many tokens it takes, at least one. Whatever else a converter
does is a fault of the line or an internal error, unless that error cannot be worded.
-/

namespace CommandGrammar

/-- How many tokens a step takes, if it is a step: a whole number from one on. -/
def stepOf? : Value → Option Nat
  | .int n => if 1 ≤ n then some n.toNat else none
  | _ => none

namespace Fault

/-- The type of an argument is not registered. -/
def unregistered (a : Argument Value) (token : Token) : Fault :=
  .ofToken .internal
    ("internal error: type parser " ++ Value.typeText a.type ++ " of argument " ++
      Text.quoted a.name ++ " is not callable") token 0 0

/-- A converter broke. -/
def broken (c : Crash) : Fault :=
  { general .internal ("internal error: exception encountered with traceback:\n" ++ c.report) with
    cause := some c }

/-- A converter answered with something that is no conversion. -/
def noConversion (a : Argument Value) (token : Token) : Fault :=
  .ofToken .internal
    ("internal error: type parser " ++ Value.typeText a.type ++ " must return a conversion")
    token 0 0

/-- A converter took a number of tokens that is no number of tokens, and is written so. -/
def invalidStep (a : Argument Value) (step : String) (token : Token) : Fault :=
  .ofToken .internal
    ("internal error: type parser " ++ Value.typeText a.type ++ " returned an invalid step " ++
      step) token 0 0

end Fault

/-- A converter took a number of tokens that is no number of tokens. If it is too long to be written
then so is the error, and what is left is a crash. -/
def Halt.invalidStep (a : Argument Value) (step : Value) (token : Token) : Halt :=
  match step.text with
  | .ok text => .fault (.invalidStep a text token)
  | .error r => .crash r.crash

namespace Parser

/-- The converter that a type refers to. -/
def converterOf (p : Parser) : TypeRef → Option Converter
  | .named name => p.types.resolve name
  | .host h => some (.host h)

/-- What a converter answers to the tokens that are left, of which the first is given. -/
def answer (p : Parser) (converter : Converter) (token : Token) (rest : List Token)
    (a : Argument Value) : List Event × Answer :=
  match converter with
  | .builtin b => ([], b.convert a.options token)
  | .host h => p.converters h (token :: rest) a

/-- The outcome of an answer, given the token that was to be converted. -/
def accept (a : Argument Value) (token : Token) (s : State) : Answer → Outcome
  | .fault f => .halt (.fault f) s
  | .crash c => .halt (.fault (.broken c)) s
  | .other _ => .halt (.fault (.noConversion a token)) s
  | .conversion value step =>
    match stepOf? step with
    | none => .halt (.invalidStep a step token) s
    | some n => .ok { s.write a.dest value with index := s.index + n }

/-- Converts the next tokens for an argument. -/
def argument (p : Parser) (a : Argument Value) (s : State) : Outcome :=
  match s.tokens.drop s.index with
  | [] => .halt (.crash .outOfRange) s
  | token :: rest =>
    match p.converterOf a.type with
    | none => .halt (.fault (.unregistered a token)) s
    | some converter =>
      let given := p.answer converter token rest a
      accept a token (s.report given.1) given.2

theorem stepOf?_pos {v : Value} {n : Nat} (h : stepOf? v = some n) : 1 ≤ n := by
  unfold stepOf? at h
  split at h
  · split at h
    · simp only [Option.some.injEq] at h
      omega
    · simp at h
  · simp at h

/-- An accepted answer leaves the tokens alone and takes at least one. -/
theorem accept_ok {a : Argument Value} {token : Token} {s t : State} {answer : Answer}
    (h : accept a token s answer = .ok t) : t.tokens = s.tokens ∧ s.index < t.index := by
  unfold accept at h
  split at h
  · simp at h
  · simp at h
  · simp at h
  · split at h
    · simp at h
    · rename_i n hn
      simp only [Outcome.ok.injEq] at h
      subst h
      have := stepOf?_pos hn
      exact ⟨rfl, by simp only; omega⟩

/-- A refused answer leaves the tokens and the index alone. -/
theorem accept_halt {a : Argument Value} {token : Token} {s t : State} {answer : Answer} {h : Halt}
    (halted : accept a token s answer = .halt h t) : t.tokens = s.tokens ∧ t.index = s.index := by
  unfold accept at halted
  split at halted
  · simp only [Outcome.halt.injEq] at halted
    exact ⟨halted.2 ▸ rfl, halted.2 ▸ rfl⟩
  · simp only [Outcome.halt.injEq] at halted
    exact ⟨halted.2 ▸ rfl, halted.2 ▸ rfl⟩
  · simp only [Outcome.halt.injEq] at halted
    exact ⟨halted.2 ▸ rfl, halted.2 ▸ rfl⟩
  · split at halted
    · simp only [Outcome.halt.injEq] at halted
      exact ⟨halted.2 ▸ rfl, halted.2 ▸ rfl⟩
    · simp at halted

/-- A converted argument leaves the tokens alone and takes at least one. -/
theorem argument_ok {p : Parser} {a : Argument Value} {s t : State}
    (h : p.argument a s = .ok t) : t.tokens = s.tokens ∧ s.index < t.index := by
  unfold argument at h
  split at h
  · simp at h
  · split at h
    · simp at h
    · obtain ⟨ht, hi⟩ := accept_ok h
      exact ⟨ht, hi⟩

/-- An argument that fails leaves the tokens and the index alone. -/
theorem argument_halt {p : Parser} {a : Argument Value} {s t : State} {h : Halt}
    (halted : p.argument a s = .halt h t) : t.tokens = s.tokens ∧ t.index = s.index := by
  unfold argument at halted
  split at halted
  · simp only [Outcome.halt.injEq] at halted
    exact ⟨halted.2 ▸ rfl, halted.2 ▸ rfl⟩
  · split at halted
    · simp only [Outcome.halt.injEq] at halted
      exact ⟨halted.2 ▸ rfl, halted.2 ▸ rfl⟩
    · obtain ⟨ht, hi⟩ := accept_halt halted
      exact ⟨ht, hi⟩

end Parser

end CommandGrammar
