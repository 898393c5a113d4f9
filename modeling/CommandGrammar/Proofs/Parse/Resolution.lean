import CommandGrammar.Proofs.Parse.Course

/-!
# Resolving arguments

An argument is resolved at a stage as the next positional one, or for a flag that a token spells,
after the arguments of the flag that come before it. A fault there halts the level, unless the
flag can do without the argument and without all that come after it: `Resolves.halts` and
`Resolves.spared`. `flagArguments_eq_ok` and `flagArguments_eq_halt` say how the arguments of a
flag end, and `flag_eq_halt` what a flag raises.
-/

namespace CommandGrammar

namespace Parser

variable {p : Parser} {flags : List (Flag Value)} {inline inline' : Bool}
  {a : Argument Value} {args args' rest : List (Argument Value)} {f : Fault} {h : Halt}
  {s t u : State}

theorem Converts.ne_nil {given : List Token} {v : Value} {count : Nat} {events : List Event}
    (converts : p.Converts a given v count events) : given ≠ [] := by
  obtain ⟨token, rest, converter, step, hgiven, -⟩ := converts
  rw [hgiven]
  exact List.cons_ne_nil _ _

theorem left_ne_nil_of_argument (ok : p.argument a s = .ok t) : s.left ≠ [] := by
  obtain ⟨v, count, events, converts, -⟩ := argument_eq_ok_iff.1 ok
  exact converts.ne_nil

/-! ## The arguments of a flag -/

theorem flagArguments_of_ok (inline : Bool) (rest : List (Argument Value))
    (ok : p.argument a s = .ok t) :
    p.flagArguments inline (a :: rest) s = p.flagArguments false rest t := by
  rw [flagArguments, if_pos (State.index_lt_iff.2 (left_ne_nil_of_argument ok)), ok]

theorem flagArguments_of_fault (inline : Bool) (rest : List (Argument Value)) (left : s.left ≠ [])
    (failed : p.argument a s = .halt (.fault f) t) :
    p.flagArguments inline (a :: rest) s =
      if inline then .halt (.fault f) t else fallBack (.fault f) (a :: rest) t := by
  rw [flagArguments, if_pos (State.index_lt_iff.2 left), failed]

theorem flagArguments_of_crash {c : Crash} (inline : Bool) (rest : List (Argument Value))
    (left : s.left ≠ []) (failed : p.argument a s = .halt (.crash c) t) :
    p.flagArguments inline (a :: rest) s = .halt (.crash c) t := by
  rw [flagArguments, if_pos (State.index_lt_iff.2 left), failed]

theorem flagArguments_of_end (inline : Bool) (a : Argument Value) (rest : List (Argument Value))
    (done : s.left = []) :
    p.flagArguments inline (a :: rest) s =
      if inline then .halt (.flagArgumentRequired p.source) s
      else fallBack (.flagArgumentRequired p.source) (a :: rest) s := by
  rw [flagArguments, if_neg fun hlt => State.index_lt_iff.1 hlt done]

/-- The arguments of a flag from which on, and the state in which, it goes on after some have been
converted. -/
inductive Asks (p : Parser) : Bool → List (Argument Value) → State →
    Bool → List (Argument Value) → State → Prop
  | here {inline : Bool} {args : List (Argument Value)} {s : State} :
      Asks p inline args s inline args s
  | later {inline inline' : Bool} {a : Argument Value} {rest args : List (Argument Value)}
      {s t u : State} (ok : p.argument a s = .ok t) (asks : Asks p false rest t inline' args u) :
      Asks p inline (a :: rest) s inline' args u

theorem Asks.flagArguments_eq (asks : p.Asks inline args s inline' args' u) :
    p.flagArguments inline args s = p.flagArguments inline' args' u := by
  induction asks with
  | here => rfl
  | later ok _ ih => exact (flagArguments_of_ok _ _ ok).trans ih

theorem Asks.suffix (asks : p.Asks inline args s inline' args' u) : args' <:+ args := by
  induction asks with
  | here => exact List.suffix_rfl
  | later ok _ ih => exact ih.trans (List.suffix_cons _ _)

/-- Arguments of a flag that are taken are converted up to some argument, and that one and all
after it take their defaults. -/
theorem flagArguments_eq_ok (ok : p.flagArguments inline args s = .ok t) :
    ∃ inline' missing u events, p.Asks inline args s inline' missing u ∧
      (∀ a ∈ missing, a.required = false) ∧
      t = { u.report events with
            result := u.result.insertAll (missing.map fun a => (a.dest, a.default)) } := by
  induction args generalizing inline s with
  | nil =>
    cases ok
    exact ⟨inline, [], t, [], .here, List.forall_mem_nil _, t.report_nil.symm⟩
  | cons a rest ih =>
    have fallsBack : ∀ {h events}, fallBack h (a :: rest) (s.report events) = .ok t →
        ∃ inline' missing u events, p.Asks inline (a :: rest) s inline' missing u ∧
          (∀ a ∈ missing, a.required = false) ∧
          t = { u.report events with
                result := u.result.insertAll (missing.map fun a => (a.dest, a.default)) } := by
      intro h events hback
      obtain ⟨optional, ht⟩ := fallBack_eq_ok hback
      exact ⟨inline, a :: rest, s, events, .here, optional, ht⟩
    by_cases left : s.left = []
    · rw [flagArguments_of_end inline a rest left] at ok
      split at ok
      · cases ok
      · rw [← s.report_nil] at ok
        exact fallsBack ok
    · cases hargument : p.argument a s with
      | ok u =>
        rw [flagArguments_of_ok inline rest hargument] at ok
        obtain ⟨inline', missing, v, events, asks, optional, ht⟩ := ih ok
        exact ⟨inline', missing, v, events, .later hargument asks, optional, ht⟩
      | halt h u =>
        obtain ⟨⟨events, rfl⟩, -⟩ := argument_eq_halt hargument
        cases h with
        | crash c =>
          rw [flagArguments_of_crash inline rest left hargument] at ok
          cases ok
        | fault f =>
          rw [flagArguments_of_fault inline rest left hargument] at ok
          split at ok
          · cases ok
          · exact fallsBack ok

/-- Arguments of a flag that are not taken are converted up to some argument, and there the tokens
run out, or the argument fails. -/
theorem flagArguments_eq_halt (halted : p.flagArguments inline args s = .halt h t) :
    ∃ inline' a others u, p.Asks inline args s inline' (a :: others) u ∧
      (u.left = [] ∧ h = .flagArgumentRequired p.source ∨
        u.left ≠ [] ∧ ∃ v, p.argument a u = .halt h v) := by
  induction args generalizing inline s with
  | nil => cases halted
  | cons a rest ih =>
    by_cases left : s.left = []
    · refine ⟨inline, a, rest, s, .here, .inl ⟨left, ?_⟩⟩
      rw [flagArguments_of_end inline a rest left] at halted
      split at halted
      · cases halted
        rfl
      · exact fallBack_halt halted
    · cases hargument : p.argument a s with
      | ok u =>
        rw [flagArguments_of_ok inline rest hargument] at halted
        obtain ⟨inline', b, others, v, asks, ends⟩ := ih halted
        exact ⟨inline', b, others, v, .later hargument asks, ends⟩
      | halt g u =>
        have hh : h = g := by
          cases g with
          | crash c =>
            rw [flagArguments_of_crash inline rest left hargument] at halted
            cases halted
            rfl
          | fault f =>
            rw [flagArguments_of_fault inline rest left hargument] at halted
            split at halted
            · cases halted
              rfl
            · exact fallBack_halt halted
        exact ⟨inline, a, rest, s, .here, .inr ⟨left, u, hh ▸ hargument⟩⟩

/-! ## Where an argument is resolved -/

/-- At a stage a token spells flags. -/
structure Meets (p : Parser) (flags : List (Flag Value)) (x : Stage) (token : Token) (c : Char)
    (rest : List Char) (met : Spelled) : Prop where
  next : x.state.next? = some token
  flagged : spells x.active token = some (c, rest)
  ends : p.endsFlags token = false
  spelled : p.spelled flags token c rest = .ok met

/-- What an argument is resolved for: a level, or a flag, with the arguments that come after it
and with whether it has to take an inline value. -/
inductive Role
  | positional
  | ofFlag (f : Flag Value) (inline : Bool) (others : List (Argument Value))

/-- Whether a fault of an argument is made up for by defaults: those of a flag's argument and of
all arguments that come after it, if none of them is required and there is no inline value. -/
def Role.spares (a : Argument Value) : Role → Bool
  | .positional => false
  | .ofFlag _ inline others => !inline && (a :: others).all fun b => !b.required

/-- At a stage an argument is resolved, in the given state, from the tokens that are left. -/
inductive Resolves (p : Parser) (flags : List (Flag Value)) :
    Stage → Argument Value → Role → State → Prop
  | positional {active : Bool} {a : Argument Value} {args : List (Argument Value)} {s : State}
      {token : Token} (next : s.next? = some token) (plain : spells active token = none) :
      Resolves p flags ⟨active, a :: args, s⟩ a .positional s
  | ofFlag {x : Stage} {token : Token} {c : Char} {rest : List Char} {f : Flag Value}
      {marks : List String} {inline inline' : Bool} {a : Argument Value}
      {others : List (Argument Value)} {u v : State}
      (meets : p.Meets flags x token c rest ⟨f, marks⟩)
      (opens : p.Opens token c rest f (marks.foldl State.mark x.state) inline u)
      (asks : p.Asks inline f.args u inline' (a :: others) v) (left : v.left ≠ []) :
      Resolves p flags x a (.ofFlag f inline' others) v

/-- Where the arguments of a flag begin, there is an inline value to be taken if the flag has an
equals sign. -/
theorem Opens.inline_eq_true_iff {token : Token} {c : Char} {rest : List Char} {f : Flag Value}
    (opens : p.Opens token c rest f s inline u) :
    inline = true ↔ (Spelling.ofChars c rest).value ≠ none := by
  cases opens with
  | plain noValue => simp [noValue]
  | inline hasValue _ _ => simp [hasValue]

/-- From where its arguments begin, a flag does what they do. -/
theorem Opens.flag_eq {token : Token} {c : Char} {rest : List Char} {f : Flag Value}
    {marks : List String} (spelled : p.spelled flags token c rest = .ok ⟨f, marks⟩)
    (opens : p.Opens token c rest f (marks.foldl State.mark s) inline u) :
    p.flag flags token c rest s = (p.flagArguments inline f.args u).marked f.dest := by
  unfold flag
  rw [spelled]
  dsimp only
  generalize marks.foldl State.mark s = r at opens
  cases opens with
  | plain noValue => rw [noValue]
  | inline hasValue args cut =>
    rw [hasValue]
    dsimp only
    rw [if_neg (by simpa using args), cut]

theorem Resolves.left {x : Stage} {role : Role} (resolves : p.Resolves flags x a role u) :
    u.left ≠ [] := by
  cases resolves with
  | positional next _ =>
    rw [State.left_eq_cons next]
    exact List.cons_ne_nil _ _
  | ofFlag _ _ _ left => exact left

/-- A fault of an argument that is not made up for halts the level. -/
theorem Resolves.halts {x : Stage} {role : Role} {v : State}
    (resolves : p.Resolves flags x a role u) (failed : p.argument a u = .halt (.fault f) v)
    (unspared : role.spares a = false) (leaf : Bool) :
    ∃ w, p.level flags leaf x.active x.args x.state = .halt (.fault f) w := by
  cases resolves with
  | positional next plain => exact ⟨v, (Stops.argument next plain failed).level_eq⟩
  | @ofFlag _ token c rest g marks inline inline' _ others u _ meets opens asks left =>
    have harguments :=
      asks.flagArguments_eq.trans (flagArguments_of_fault inline' others left failed)
    have hhalt : ∃ w, p.flagArguments inline g.args u = .halt (.fault f) w := by
      rw [harguments]
      cases inline' with
      | true => exact ⟨v, rfl⟩
      | false =>
        rw [if_neg Bool.false_ne_true]
        obtain ⟨b, mem, hb⟩ := List.all_eq_false.1 unspared
        exact fallBack_of_required _ _ ⟨b, mem, by simpa using hb⟩
    obtain ⟨w, hw⟩ := hhalt
    have hflag : p.flag flags token c rest x.state = .halt (.fault f) w := by
      rw [opens.flag_eq meets.spelled, hw]
      rfl
    exact ⟨w, (Stops.flag meets.next meets.flagged meets.ends hflag).level_eq⟩

/-- A crash of an argument halts the level, and nothing makes up for it. -/
theorem Resolves.crashes {x : Stage} {role : Role} {v : State} {c : Crash}
    (resolves : p.Resolves flags x a role u) (failed : p.argument a u = .halt (.crash c) v)
    (leaf : Bool) : p.level flags leaf x.active x.args x.state = .halt (.crash c) v := by
  cases resolves with
  | positional next plain => exact (Stops.argument next plain failed).level_eq
  | @ofFlag _ token _ rest g marks inline inline' _ others u _ meets opens asks left =>
    have harguments : p.flagArguments inline g.args u = .halt (.crash c) v :=
      asks.flagArguments_eq.trans (flagArguments_of_crash inline' others left failed)
    refine (Stops.flag meets.next meets.flagged meets.ends ?_).level_eq
    rw [opens.flag_eq meets.spelled, harguments]
    rfl

/-- A fault of an argument that is made up for leaves the flag taken, with the defaults of the
argument and of those that come after it, and the token that was to be converted is left. -/
theorem Resolves.spared {x : Stage} {g : Flag Value} {others : List (Argument Value)}
    {events : List Event} (resolves : p.Resolves flags x a (.ofFlag g inline others) u)
    (failed : p.argument a u = .halt (.fault f) (u.report events))
    (spared : (Role.ofFlag g inline others).spares a = true) :
    p.Step flags x ⟨x.active, x.args, State.mark { u.report events with
      result := u.result.insertAll ((a :: others).map fun b => (b.dest, b.default)) } g.dest⟩ := by
  cases resolves with
  | @ofFlag _ token c rest _ marks inline _ _ _ u _ meets opens asks left =>
    simp only [Role.spares, Bool.and_eq_true, Bool.not_eq_true', List.all_eq_true] at spared
    obtain ⟨rfl, optional⟩ := spared
    have harguments := asks.flagArguments_eq.trans (flagArguments_of_fault false others left failed)
    rw [if_neg Bool.false_ne_true, fallBack_of_optional _ _ optional] at harguments
    refine .flag meets.next meets.flagged meets.ends ?_
    rw [opens.flag_eq meets.spelled, harguments]
    rfl

/-- What is raised at a stage by a flag that is not taken. -/
inductive Refuses (p : Parser) (flags : List (Flag Value)) (x : Stage) (token : Token) (c : Char)
    (rest : List Char) : Halt → Prop
  | spelling {h : Halt} (error : p.spelled flags token c rest = .error h) :
      Refuses p flags x token c rest h
  | assignment {f : Flag Value} {marks : List String} {value : List Char}
      (meets : p.Meets flags x token c rest ⟨f, marks⟩)
      (hasValue : (Spelling.ofChars c rest).value = some value) (args : f.args = []) :
      Refuses p flags x token c rest (.flagAssignment token (token.positions p.source)
        x.state.advance.next? (Spelling.ofChars c rest).length value)
  | uncut {value : List Char} (hasValue : (Spelling.ofChars c rest).value = some value)
      (cut : token.cut? (token.positions p.source) (Spelling.ofChars c rest).length value = none) :
      Refuses p flags x token c rest (.crash .outOfRange)
  | required {f : Flag Value} {marks : List String} {inline inline' : Bool} {a : Argument Value}
      {others : List (Argument Value)} {u v : State}
      (meets : p.Meets flags x token c rest ⟨f, marks⟩)
      (opens : p.Opens token c rest f (marks.foldl State.mark x.state) inline u)
      (asks : p.Asks inline f.args u inline' (a :: others) v) (done : v.left = []) :
      Refuses p flags x token c rest (.flagArgumentRequired p.source)
  | argument {a : Argument Value} {role : Role} {u v : State} {h : Halt}
      (resolves : p.Resolves flags x a role u) (halted : p.argument a u = .halt h v) :
      Refuses p flags x token c rest h

theorem flag_eq_halt {x : Stage} {token : Token} {c : Char} {rest : List Char}
    (next : x.state.next? = some token) (flagged : spells x.active token = some (c, rest))
    (ends : p.endsFlags token = false) (halted : p.flag flags token c rest x.state = .halt h t) :
    p.Refuses flags x token c rest h := by
  cases hspelled : p.spelled flags token c rest with
  | error g =>
    rw [flag, hspelled] at halted
    cases halted
    exact .spelling hspelled
  | ok met =>
    obtain ⟨f, marks⟩ := met
    have meets : p.Meets flags x token c rest ⟨f, marks⟩ := ⟨next, flagged, ends, hspelled⟩
    have opened : ∀ {inline u}, p.Opens token c rest f (marks.foldl State.mark x.state) inline u →
        p.Refuses flags x token c rest h := by
      intro inline u opens
      rw [opens.flag_eq hspelled] at halted
      obtain ⟨inline', a, others, v, asks, ⟨done, rfl⟩ | ⟨left, w, hw⟩⟩ :=
        flagArguments_eq_halt (Outcome.marked_eq_halt halted)
      · exact .required meets opens asks done
      · exact .argument (.ofFlag meets opens asks left) hw
    cases hvalue : (Spelling.ofChars c rest).value with
    | none => exact opened (.plain hvalue)
    | some value =>
      by_cases args : f.args = []
      · rw [flag, hspelled] at halted
        dsimp only at halted
        rw [hvalue] at halted
        dsimp only at halted
        rw [if_pos (by rw [args]; rfl)] at halted
        cases halted
        obtain ⟨htokens, hindex⟩ := foldl_mark marks x.state
        rw [htokens, hindex]
        exact .assignment meets hvalue args
      · cases hcut : token.cut? (token.positions p.source) (Spelling.ofChars c rest).length
            value with
        | some pieces => exact opened (.inline hvalue args hcut)
        | none =>
          rw [flag, hspelled] at halted
          dsimp only at halted
          rw [hvalue] at halted
          dsimp only at halted
          rw [if_neg (by simpa using args), hcut] at halted
          cases halted
          exact .uncut hvalue hcut

end Parser

end CommandGrammar
