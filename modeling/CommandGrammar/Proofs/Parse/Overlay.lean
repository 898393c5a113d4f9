import CommandGrammar.Proofs.Parse.Descent

/-!
# Writing onto a result

A parse writes to its result and never reads it. So a command that begins with something written
already does what it does on an empty result, and writes onto what was there
(`command_write_only`): it makes no difference whether an alternative is tried on an empty result
that is merged afterwards, or directly on the result of its caller.
-/

namespace CommandGrammar

/-- The state whose result is written onto another one. -/
def State.onto (s : State) (r : Mapping Value) : State := { s with result := r.merge s.result }

namespace State

variable {s : State} {r : Mapping Value}

theorem scratch_onto : (s.onto r).scratch = s.scratch := rfl

theorem write_onto (dest : String) (v : Value) :
    (s.onto r).write dest v = (s.write dest v).onto r := by
  rw [write, write, onto, onto, Mapping.merge_insert]

theorem mark_onto (dest : String) : (s.onto r).mark dest = (s.mark dest).onto r :=
  write_onto dest _

theorem foldl_mark_onto (marks : List String) :
    marks.foldl mark (s.onto r) = (marks.foldl mark s).onto r := by
  induction marks generalizing s with
  | nil => rfl
  | cons dest rest ih => rw [List.foldl_cons, List.foldl_cons, mark_onto, ih]

end State

/-- The outcome whose result is written onto another one. -/
def Outcome.onto (o : Outcome) (r : Mapping Value) : Outcome :=
  match o with
  | .ok s => .ok (s.onto r)
  | .halt h s => .halt h (s.onto r)

/-- The end of a level whose result is written onto another one. -/
def LevelEnd.onto (e : LevelEnd) (r : Mapping Value) : LevelEnd :=
  match e with
  | .finished missing s => .finished missing (s.onto r)
  | .word token active s => .word token active (s.onto r)
  | .halt h s => .halt h (s.onto r)

theorem Outcome.marked_onto (o : Outcome) (r : Mapping Value) (dest : String) :
    (o.onto r).marked dest = (o.marked dest).onto r := by
  cases o with
  | ok s => exact congrArg Outcome.ok (State.mark_onto dest)
  | halt h s => rfl

/-- The second outcome is the first one, written onto a result. Of a run that halts the result does
not matter. -/
inductive Outcome.Onto (r : Mapping Value) : Outcome → Outcome → Prop
  | ok (t : State) : Onto r (.ok t) (.ok (t.onto r))
  | halt (h : Halt) (t : State) (m : Mapping Value) :
      Onto r (.halt h t) (.halt h { t with result := m })

theorem Outcome.Onto.of_eq {o o' : Outcome} {r : Mapping Value} (same : o' = o.onto r) :
    o.Onto r o' := by
  subst same
  cases o with
  | ok t => exact .ok t
  | halt h t => exact .halt h t _

theorem Outcome.Onto.marked {o o' : Outcome} {r : Mapping Value} (written : o.Onto r o')
    (dest : String) : (o.marked dest).Onto r (o'.marked dest) := by
  cases written with
  | ok t => exact .of_eq (Outcome.marked_onto (.ok t) r dest)
  | halt h t m => exact .halt h t m

namespace Parser

variable {p : Parser} {r : Mapping Value} {s : State}

theorem accept_onto (a : Argument Value) (token : Token) (answer : Answer) :
    accept a token (s.onto r) answer = (accept a token s answer).onto r := by
  cases answer with
  | fault f => rfl
  | crash c => rfl
  | other v => rfl
  | conversion v step =>
    simp only [accept]
    cases stepOf? step with
    | none => rfl
    | some count =>
      dsimp only
      rw [State.write_onto]
      rfl

/-- The converter of an argument does not see the result. -/
theorem argument_onto (a : Argument Value) :
    p.argument a (s.onto r) = (p.argument a s).onto r := by
  have tokens : (s.onto r).tokens.drop (s.onto r).index = s.tokens.drop s.index := rfl
  rw [argument, argument, tokens]
  cases s.tokens.drop s.index with
  | nil => rfl
  | cons token rest =>
    cases p.converterOf a.type with
    | none => rfl
    | some converter =>
      exact accept_onto (s := s.report (p.answer converter token rest a).1) a token _

theorem fallBack_onto (h : Halt) (args : List (Argument Value)) :
    fallBack h args (s.onto r) = (fallBack h args s).onto r := by
  induction args generalizing s with
  | nil => rfl
  | cons a rest ih =>
    rw [fallBack, fallBack]
    cases a.required with
    | true => rfl
    | false =>
      rw [State.write_onto]
      exact ih

theorem flagArguments_onto (inline : Bool) (args : List (Argument Value)) :
    p.flagArguments inline args (s.onto r) = (p.flagArguments inline args s).onto r := by
  induction args generalizing s inline with
  | nil => rfl
  | cons a rest ih =>
    have left : (s.onto r).index < (s.onto r).tokens.length ↔ s.index < s.tokens.length := Iff.rfl
    rw [flagArguments, flagArguments, argument_onto]
    simp only [left]
    split
    · cases p.argument a s with
      | ok t => exact ih false
      | halt h t =>
        cases h with
        | crash c => rfl
        | fault f =>
          cases inline with
          | true => rfl
          | false => exact fallBack_onto _ _
    · cases inline with
      | true => rfl
      | false => exact fallBack_onto _ _

theorem flag_onto (flags : List (Flag Value)) (token : Token) (c : Char) (rest : List Char) :
    p.flag flags token c rest (s.onto r) = (p.flag flags token c rest s).onto r := by
  rw [flag, flag]
  cases p.spelled flags token c rest with
  | error h => rfl
  | ok spelled =>
    obtain ⟨f, marks⟩ := spelled
    have taken : ∀ (inline : Bool) (u : State),
        (p.flagArguments inline f.args (u.onto r)).marked f.dest =
          ((p.flagArguments inline f.args u).marked f.dest).onto r := by
      intro inline u
      rw [flagArguments_onto, Outcome.marked_onto]
    dsimp only
    rw [State.foldl_mark_onto]
    generalize marks.foldl State.mark s = u
    cases (Spelling.ofChars c rest).value with
    | none => exact taken false u.advance
    | some value =>
      dsimp only
      by_cases bare : f.args.isEmpty = true
      · rw [if_pos bare, if_pos bare]
        rfl
      · rw [if_neg bare, if_neg bare]
        cases token.cut? (token.positions p.source) (Spelling.ofChars c rest).length value with
        | none => rfl
        | some pieces =>
          exact taken true { u with tokens := replaceAt u.tokens u.index pieces }.advance

/-- A level takes the same steps, whatever was written before. -/
theorem level_onto (flags : List (Flag Value)) (leaf active : Bool) (args : List (Argument Value)) :
    p.level flags leaf active args (s.onto r) = (p.level flags leaf active args s).onto r := by
  fun_induction p.level flags leaf active args s with
  | case1 active args s next =>
    have stops : p.Stops flags leaf ⟨active, args, s.onto r⟩ (.finished args (s.onto r)) :=
      .finished next
    exact stops.level_eq
  | case2 active args s token next c rest flagged ends ih =>
    have step : p.Step flags ⟨active, args, s.onto r⟩ ⟨false, args, s.advance.onto r⟩ :=
      .ending next flagged ends
    exact step.level_eq.trans ih
  | case3 active args s token next c rest flagged ends t ok ih =>
    have step : p.Step flags ⟨active, args, s.onto r⟩ ⟨active, args, t.onto r⟩ :=
      .flag next flagged (eq_false_of_ne_true ends) (by rw [flag_onto, ok]; rfl)
    exact step.level_eq.trans ih
  | case4 active args s token next c rest flagged ends h t halted =>
    have stops : p.Stops flags leaf ⟨active, args, s.onto r⟩ (.halt h (t.onto r)) :=
      .flag next flagged (eq_false_of_ne_true ends) (by rw [flag_onto, halted]; rfl)
    exact stops.level_eq
  | case5 active s token next plain a args t ok ih =>
    have step : p.Step flags ⟨active, a :: args, s.onto r⟩ ⟨active, args, t.onto r⟩ :=
      .argument next plain (by rw [argument_onto, ok]; rfl)
    exact step.level_eq.trans ih
  | case6 active s token next plain a args h t halted =>
    have stops : p.Stops flags leaf ⟨active, a :: args, s.onto r⟩ (.halt h (t.onto r)) :=
      .argument next plain (by rw [argument_onto, halted]; rfl)
    exact stops.level_eq
  | case7 active s token next plain outer =>
    have stops : p.Stops flags leaf ⟨active, [], s.onto r⟩
        (.halt (.tooManyArguments p.source token) (s.onto r)) := .tooMany next plain outer
    exact stops.level_eq
  | case8 active s token next plain inner =>
    have stops : p.Stops flags leaf ⟨active, [], s.onto r⟩ (.word token active (s.onto r)) :=
      .word next plain (eq_false_of_ne_true inner)
    exact stops.level_eq

/-- Alternatives are tried on empty results, so they are the same trials. -/
theorem alternatives_onto (dest : String) (token : Token) (active : Bool) (first : Option Fault)
    (subs : List (Schema Value)) :
    (p.alternatives dest token active first s subs).Onto r
      (p.alternatives dest token active first (s.onto r) subs) := by
  induction subs generalizing first s with
  | nil =>
    cases first with
    | none => exact .of_eq rfl
    | some f => exact .of_eq rfl
  | cons sub rest ih =>
    cases named : sub.named with
    | true =>
      rw [alternatives_named named, alternatives_named named]
      exact ih first
    | false =>
      rw [alternatives_unnamed named, alternatives_unnamed named, State.scratch_onto]
      cases p.command active s.scratch sub with
      | ok t =>
        refine .of_eq (congrArg Outcome.ok ?_)
        show State.mk _ _ ((r.merge s.result).merge t.result) _ = State.mk _ _ _ _
        rw [Mapping.merge, ← Mapping.merge_insertAll]
        rfl
      | halt h t =>
        cases h with
        | fault f => exact ih _
        | crash c => exact .halt (.crash c) t t.result

theorem command_onto (active : Bool) (n : Schema Value) :
    (p.command active s n).Onto r (p.command active (s.onto r) n) := by
  induction n using Schema.induction generalizing active s with
  | step n ih =>
    rw [command_eq, command_eq, level_onto]
    cases p.level n.flags n.subcommands.isEmpty active n.args s with
    | halt h t => exact .of_eq rfl
    | finished missing t =>
      dsimp only [LevelEnd.onto]
      rw [defaults_eq_fallBack, defaults_eq_fallBack, fallBack_onto]
      exact (Outcome.Onto.of_eq rfl).marked n.dest
    | word token active t =>
      dsimp only [LevelEnd.onto]
      cases selected : n.selected? token.text with
      | some sub => exact (ih sub (Schema.selected?_eq_some selected).1 active).marked n.dest
      | none => exact (alternatives_onto _ _ _ _ _).marked n.dest

/-- The result is only written to. A command does on any result what it does on an empty one: it
succeeds with the same tokens taken, and what it writes on the empty result is written onto the
other, or it halts for the same reason. So a trial of an alternative ends as the alternative does
that is run directly on the result of its caller. -/
theorem command_write_only (p : Parser) (active : Bool) (s : State) (n : Schema Value) :
    (match p.command active s.scratch n with
      | .ok t => p.command active s n = .ok { t with result := s.result.merge t.result }
      | .halt h t => ∃ m, p.command active s n = .halt h { t with result := m }) ∧
    ∀ dest token first rest, n.named = false →
      match p.command active s n with
      | .ok t => p.alternatives dest token active first s (n :: rest) =
          .ok (t.report [.alternativeAccepted dest n.dest])
      | .halt (.fault f) t => p.alternatives dest token active first s (n :: rest) =
          p.alternatives dest token active (first.or (some f))
            { s with events := t.events ++ [.alternativeRejected dest n.dest f.message] } rest
      | .halt (.crash c) t => ∃ m, p.alternatives dest token active first s (n :: rest) =
          .halt (.crash c) { t with result := m } := by
  -- On top of its own result, the scratch state is the state itself.
  have written : (p.command active s.scratch n).Onto s.result (p.command active s n) :=
    command_onto (s := s.scratch) active n
  generalize direct : p.command active s n = o at written
  generalize trial : p.command active s.scratch n = o' at written
  cases written with
  | ok t =>
    refine ⟨rfl, ?_⟩
    intro dest token first rest unnamed
    rw [alternatives_unnamed unnamed, trial]
    rfl
  | halt h t m =>
    refine ⟨⟨m, rfl⟩, ?_⟩
    intro dest token first rest unnamed
    rw [alternatives_unnamed unnamed, trial]
    cases h with
    | fault f => rfl
    | crash c => exact ⟨t.result, rfl⟩

/-- A sub-command without a name that takes a word and perhaps a remark. -/
def remarked : Schema Value where
  name := none
  dest := "remarked"
  aliases := []
  help := none
  args := [.ofType "word" "string" true, .ofType "remark" "string" false]
  flags := []
  subcommands := []

/-- An alternative that writes a remark where its caller has written one before. -/
theorem command_write_only_remarked :
    let s := { (forLine "tea hot").initial 0 with
      result := .ofList [("remark", .null), ("order", .bool true)] }
    ∃ t, (forLine "tea hot").command true s.scratch remarked = .ok t ∧
      t.result.get? "remark" = some (.str "hot") ∧
      (forLine "tea hot").command true s remarked =
        .ok { t with result := s.result.merge t.result } ∧
      ∀ dest token first rest,
        (forLine "tea hot").alternatives dest token true first s (remarked :: rest) =
          .ok ({ t with result := s.result.merge t.result }.report
            [.alternativeAccepted dest "remarked"]) := by
  intro s
  obtain ⟨m, ok, found⟩ : ∃ m, ((forLine "tea hot").parse remarked 0).result = .ok m ∧
      m.get? "remark" = some (.str "hot") :=
    Report.exists_ok_of_scalar (.str "hot") (by decide +kernel)
  obtain ⟨t, trial, rfl, -⟩ := parse_eq_ok ok
  obtain ⟨written, tried⟩ := command_write_only (forLine "tea hot") true s remarked
  change (forLine "tea hot").command true s.scratch remarked = .ok t at trial
  rw [trial] at written
  refine ⟨t, trial, found, written, ?_⟩
  intro dest token first rest
  have direct := tried dest token first rest rfl
  rw [written] at direct
  exact direct

end Parser

end CommandGrammar
