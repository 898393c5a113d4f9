import CommandGrammar.Proofs.Parse.Provenance

/-!
# What a parse relies on

Of the converters of the host, a parse sees no more than what they answer to the tokens that it
hands them. With other converters that answer the same to these tokens, it comes to the same stages
and ends in the same way (`parse_eq_of_handed`), trials that are rejected included.
-/

namespace CommandGrammar

namespace Parser

variable {p : Parser} {converters : Converters} {n m sub : Schema Value} {flags : List (Flag Value)}
  {active leaf inline : Bool} {args : List (Argument Value)} {a : Argument Value} {s : State}
  {x y : Stage} {token : Token}

/-- The parser with other converters of the host. -/
def handingTo (p : Parser) (converters : Converters) : Parser := { p with converters }

/-- The conversion of an argument from a state is the same with the other converters. -/
def SameArgument (p : Parser) (converters : Converters) (a : Argument Value) (s : State) : Prop :=
  (p.handingTo converters).argument a s = p.argument a s

/-- All that is converted at a stage is the same with the other converters. -/
def SameAt (p : Parser) (converters : Converters) (flags : List (Flag Value)) (x : Stage) : Prop :=
  ∀ a role s, p.Resolves flags x a role s → p.SameArgument converters a s

/-- An argument is converted in the same way if its converter answers the same to the tokens that
are left. -/
theorem sameArgument_of_answer (same : ∀ h token rest, s.left = token :: rest →
    p.converterOf a.type = some (.host h) →
    converters h (token :: rest) a = p.converters h (token :: rest) a) :
    p.SameArgument converters a s := by
  have types : (p.handingTo converters).converterOf = p.converterOf := rfl
  unfold SameArgument argument
  rw [types]
  cases left : s.tokens.drop s.index with
  | nil => rfl
  | cons token rest =>
    cases typed : p.converterOf a.type with
    | none => rfl
    | some converter =>
      cases converter with
      | builtin b => rfl
      | host h =>
        have answers : (p.handingTo converters).answer (.host h) token rest a =
            p.answer (.host h) token rest a := same h token rest left typed
        simp only [answers]

/-- The arguments of a flag are converted in the same way if each one is that they come to. -/
theorem flagArguments_handingTo (same : ∀ {inline' b others v},
    p.Asks inline args s inline' (b :: others) v → v.left ≠ [] → p.SameArgument converters b v) :
    (p.handingTo converters).flagArguments inline args s = p.flagArguments inline args s := by
  induction args generalizing inline s with
  | nil => rfl
  | cons a rest ih =>
    by_cases left : s.left = []
    · rw [flagArguments_of_end inline a rest left, flagArguments_of_end inline a rest left]
      rfl
    · have here : (p.handingTo converters).argument a s = p.argument a s := same .here left
      have left := State.index_lt_iff.2 left
      rw [flagArguments, flagArguments, if_pos left, if_pos left, here]
      cases converted : p.argument a s with
      | halt h t => cases h <;> rfl
      | ok t =>
        have later : (p.handingTo converters).flagArguments false rest t =
            p.flagArguments false rest t := ih fun asks => same (.later converted asks)
        simp only [later]

/-- A flag that is met at a stage is taken in the same way if all that is converted there is. -/
theorem flag_handingTo {c : Char} {rest : List Char} (same : p.SameAt converters flags x)
    (next : x.state.next? = some token) (flagged : spells x.active token = some (c, rest))
    (ends : p.endsFlags token = false) :
    (p.handingTo converters).flag flags token c rest x.state =
      p.flag flags token c rest x.state := by
  have spelled : (p.handingTo converters).spelled flags token c rest =
      p.spelled flags token c rest := rfl
  have source : (p.handingTo converters).source = p.source := rfl
  unfold flag
  rw [spelled, source]
  cases hspelled : p.spelled flags token c rest with
  | error h => rfl
  | ok met =>
    obtain ⟨f, marks⟩ := met
    have meets : p.Meets flags x token c rest ⟨f, marks⟩ := ⟨next, flagged, ends, hspelled⟩
    have opened : ∀ {inline u}, p.Opens token c rest f (marks.foldl State.mark x.state) inline u →
        (p.handingTo converters).flagArguments inline f.args u =
          p.flagArguments inline f.args u := by
      intro inline u opens
      apply flagArguments_handingTo
      intro inline' b others v asks left
      exact same _ _ _ (.ofFlag meets opens asks left)
    dsimp only
    cases hasValue : (Spelling.ofChars c rest).value with
    | none => simp only [opened (.plain hasValue)]
    | some value =>
      by_cases args : f.args = []
      · simp [args]
      · cases cut :
            token.cut? (token.positions p.source) (Spelling.ofChars c rest).length value with
        | none => simp [args, cut]
        | some pieces => simp [args, cut, opened (.inline hasValue args cut)]

theorem Step.handingTo (step : p.Step flags x y) (same : p.SameAt converters flags x) :
    (p.handingTo converters).Step flags x y := by
  cases step with
  | ending next flagged ends => exact .ending next flagged ends
  | flag next flagged ends ok =>
    exact .flag next flagged ends ((flag_handingTo same next flagged ends).trans ok)
  | argument next plain ok =>
    exact .argument next plain ((same _ _ _ (.positional next plain)).trans ok)

theorem Stops.handingTo {e : LevelEnd} (stops : p.Stops flags leaf x e)
    (same : p.SameAt converters flags x) : (p.handingTo converters).Stops flags leaf x e := by
  cases stops with
  | finished next => exact .finished next
  | word next plain inner => exact .word next plain inner
  | tooMany next plain outer => exact .tooMany next plain outer
  | flag next flagged ends halted =>
    exact .flag next flagged ends ((flag_handingTo same next flagged ends).trans halted)
  | argument next plain halted =>
    exact .argument next plain ((same _ _ _ (.positional next plain)).trans halted)

theorem Steps.handingTo (steps : p.Steps flags x y)
    (same : ∀ z, p.Steps flags x z → p.SameAt converters flags z) :
    (p.handingTo converters).Steps flags x y := by
  induction steps with
  | refl => exact .refl
  | tail before step ih => exact .tail ih (step.handingTo (same _ before))

/-- A level ends in the same way if all that is converted at its stages is the same. -/
theorem level_handingTo
    (same : ∀ z, p.Steps flags ⟨active, args, s⟩ z → p.SameAt converters flags z) :
    (p.handingTo converters).level flags leaf active args s = p.level flags leaf active args s := by
  obtain ⟨z, steps, stops⟩ := exists_steps_stops p flags leaf active args s
  exact level_eq_iff.2 ⟨z, steps.handingTo same, stops.handingTo (same z steps)⟩

/-- Alternatives are tried in the same way if each one is that is tried. -/
theorem alternatives_handingTo {dest : String} {first : Option Fault} {subs : List (Schema Value)}
    (same : ∀ {sub v}, p.Tries dest active s subs sub v →
      (p.handingTo converters).command active v sub = p.command active v sub) :
    (p.handingTo converters).alternatives dest token active first s subs =
      p.alternatives dest token active first s subs := by
  induction subs generalizing first s with
  | nil => cases first <;> rfl
  | cons sub rest ih =>
    by_cases named : sub.named = true
    · rw [alternatives_named named, alternatives_named named]
      exact ih fun tried => same (.skipped named tried)
    · have unnamed := eq_false_of_ne_true named
      rw [alternatives_unnamed unnamed, alternatives_unnamed unnamed, same (.here unnamed)]
      cases failed : p.command active s.scratch sub with
      | ok t => rfl
      | halt h t =>
        cases h with
        | crash c => rfl
        | fault f => exact ih fun tried => same (.rejected unnamed failed tried)

/-- A command ends in the same way if all that is converted at the stages it comes to is the
same. -/
theorem command_handingTo
    (same : ∀ {m x}, p.Comes false active s n m x → p.SameAt converters m.flags x) :
    (p.handingTo converters).command active s n = p.command active s n := by
  induction n using Schema.induction generalizing active s with
  | step n ih =>
    have level : (p.handingTo converters).level n.flags n.subcommands.isEmpty active n.args s =
        p.level n.flags n.subcommands.isEmpty active n.args s :=
      level_handingTo fun z steps => same (.level steps)
    have defaults : ∀ missing t,
        (p.handingTo converters).defaults missing t = p.defaults missing t := by
      intro missing t
      rw [defaults_eq_fallBack, defaults_eq_fallBack]
      rfl
    rw [command_eq, command_eq, level]
    cases word : p.level n.flags n.subcommands.isEmpty active n.args s with
    | halt h t => rfl
    | finished missing t => simp only [defaults]
    | word token active' t =>
      dsimp only
      cases selects : n.selected? token.text with
      | some sub =>
        have mem := (Schema.selected?_eq_some selects).1
        have below := ih sub mem fun comes => same (.down word (.named selects) comes)
        simp only [below]
      | none =>
        have tries : (p.handingTo converters).alternatives n.dest token active' none t
            n.subcommands = p.alternatives n.dest token active' none t n.subcommands := by
          apply alternatives_handingTo
          intro sub v tried
          refine ih sub tried.mem.1 ?_
          intro m x comes
          exact same (.down word (.unnamed selects tried Bool.noConfusion) comes)
        simp only [tries]

/-- A parse reports the same with other converters, if they answer the same to what it hands
them. -/
theorem parse_eq_of_handed {start : Nat} (same : ∀ m x h token rest a,
    p.Comes false p.options.parseFlags (p.initial start) n m x →
    p.Hands m x (.host h) token rest a →
    converters h (token :: rest) a = p.converters h (token :: rest) a) :
    (p.handingTo converters).parse n start = p.parse n start := by
  have command : (p.handingTo converters).command p.options.parseFlags (p.initial start) n =
      p.command p.options.parseFlags (p.initial start) n := by
    apply command_handingTo
    intro m x comes a role s resolves
    apply sameArgument_of_answer
    intro h token rest left typed
    exact same m x h token rest a comes (.mk resolves left typed)
  have source : (p.handingTo converters).source = p.source := rfl
  have options : (p.handingTo converters).options = p.options := rfl
  have makers : (p.handingTo converters).makers = p.makers := rfl
  rw [initial] at command
  unfold parse run
  rw [source, options, makers, command]

end Parser

end CommandGrammar
