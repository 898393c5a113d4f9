import CommandGrammar.Proofs.Parse.Descent

/-!
# The course of a parse

A parse goes from stage to stage on the level of its schema, and from there to the levels of the
sub-commands that it hands the line over to. `Comes` says which stages it comes to, on the
accepted path alone or on the trials of rejected alternatives as well. `command_ends` goes down
the accepted path, `Comes.halts` carries a halt back up, and `command_eq_halt` says where a halt
comes from.
-/

namespace CommandGrammar

namespace Parser

variable {p : Parser} {accepted active active' : Bool} {s t v : State}

/-- An unnamed sub-command that is tried, and the state in which its trial begins. Those before it
are rejected. -/
inductive Tries (p : Parser) (dest : String) (active : Bool) :
    State → List (Schema Value) → Schema Value → State → Prop
  | here {s : State} {sub : Schema Value} {rest : List (Schema Value)}
      (unnamed : sub.named = false) : Tries p dest active s (sub :: rest) sub s.scratch
  | skipped {s v : State} {other sub : Schema Value} {rest : List (Schema Value)}
      (named : other.named = true) (later : Tries p dest active s rest sub v) :
      Tries p dest active s (other :: rest) sub v
  | rejected {s t v : State} {other sub : Schema Value} {rest : List (Schema Value)} {f : Fault}
      (unnamed : other.named = false)
      (failed : p.command active s.scratch other = .halt (.fault f) t)
      (later : Tries p dest active
        (s.hearing (t.events ++ [.alternativeRejected dest other.dest f.message])) rest sub v) :
      Tries p dest active s (other :: rest) sub v

theorem Tries.mem {dest : String} {subs : List (Schema Value)} {sub : Schema Value}
    (tried : p.Tries dest active s subs sub v) : sub ∈ subs ∧ sub.named = false := by
  induction tried with
  | here unnamed => exact ⟨List.mem_cons_self, unnamed⟩
  | skipped named later ih => exact ⟨List.mem_cons_of_mem _ ih.1, ih.2⟩
  | rejected unnamed failed later ih => exact ⟨List.mem_cons_of_mem _ ih.1, ih.2⟩

/-- Each trial begins where the first one does, but for what was reported by then. -/
theorem Tries.scratch {dest : String} {subs : List (Schema Value)} {sub : Schema Value}
    (tried : p.Tries dest active s subs sub v) : ∃ events, v = s.scratch.hearing events := by
  induction tried with
  | @here s _ _ unnamed => exact ⟨s.events, rfl⟩
  | skipped named later ih => exact ih
  | rejected unnamed failed later ih =>
    obtain ⟨events, rfl⟩ := ih
    exact ⟨events, rfl⟩

/-- The alternative that is accepted is tried, and its trial succeeds. -/
theorem tries_of_alternatives_ok {dest : String} {token : Token} {first : Option Fault}
    {subs : List (Schema Value)} (ok : p.alternatives dest token active first s subs = .ok t) :
    ∃ sub v u, p.Tries dest active s subs sub v ∧ p.command active v sub = .ok u ∧
      t = { u.report [.alternativeAccepted dest sub.dest] with
            result := s.result.merge u.result } := by
  induction subs generalizing first s with
  | nil => cases first <;> simp [alternatives] at ok
  | cons sub rest ih =>
    cases hnamed : sub.named with
    | true =>
      rw [alternatives_named hnamed] at ok
      obtain ⟨other, v, u, tried, hu, ht⟩ := ih ok
      exact ⟨other, v, u, .skipped hnamed tried, hu, ht⟩
    | false =>
      rw [alternatives_unnamed hnamed] at ok
      split at ok
      · rename_i u hu
        simp only [Outcome.ok.injEq] at ok
        exact ⟨sub, _, u, .here hnamed, hu, ok.symm⟩
      · rename_i f u hf
        obtain ⟨other, v, w, tried, hw, ht⟩ := ih ok
        exact ⟨other, v, w, .rejected hnamed hf tried, hw, ht⟩
      · simp at ok

/-- Where alternatives halt, one that is tried does, or there was a fault before them, or there
are none. -/
theorem tries_of_alternatives_halt {dest : String} {token : Token} {first : Option Fault}
    {subs : List (Schema Value)} {h : Halt}
    (halted : p.alternatives dest token active first s subs = .halt h t) :
    (∃ sub v u, p.Tries dest active s subs sub v ∧ p.command active v sub = .halt h u) ∨
      (∃ f, first = some f ∧ h = .fault f) ∨
      first = none ∧ (∀ sub ∈ subs, sub.named = true) ∧ h = .unknownSubcommand token := by
  induction subs generalizing first s with
  | nil =>
    cases first with
    | none =>
      cases halted
      exact .inr (.inr ⟨rfl, List.forall_mem_nil _, rfl⟩)
    | some f =>
      cases halted
      exact .inr (.inl ⟨f, rfl, rfl⟩)
  | cons sub rest ih =>
    cases hnamed : sub.named with
    | true =>
      rw [alternatives_named hnamed] at halted
      obtain ⟨other, v, u, tried, hu⟩ | hfirst | ⟨hnone, hrest, hh⟩ := ih halted
      · exact .inl ⟨other, v, u, .skipped hnamed tried, hu⟩
      · exact .inr (.inl hfirst)
      · exact .inr (.inr ⟨hnone, List.forall_mem_cons.2 ⟨hnamed, hrest⟩, hh⟩)
    | false =>
      rw [alternatives_unnamed hnamed] at halted
      split at halted
      · simp at halted
      · rename_i f u hf
        obtain ⟨other, v, w, tried, hw⟩ | ⟨g, hfirst, rfl⟩ | ⟨hnone, -⟩ := ih halted
        · exact .inl ⟨other, v, w, .rejected hnamed hf tried, hw⟩
        · -- The fault that stands is the one from before, or else that of this trial.
          cases first with
          | some first => exact .inr (.inl ⟨g, hfirst, rfl⟩)
          | none =>
            cases hfirst
            exact .inl ⟨sub, _, u, .here hnamed, hf⟩
        · cases first <;> exact absurd hnone (Option.some_ne_none _)
      · rename_i u hu
        cases halted
        exact .inl ⟨sub, _, _, .here hnamed, hu⟩

/-- An alternative that is tried and succeeds is the one that is accepted. -/
theorem Tries.alternatives_eq {dest : String} {token : Token} {subs : List (Schema Value)}
    {sub : Schema Value} {u : State} (tried : p.Tries dest active s subs sub v)
    (ok : p.command active v sub = .ok u) (first : Option Fault) :
    p.alternatives dest token active first s subs =
      .ok { u.report [.alternativeAccepted dest sub.dest] with
            result := s.result.merge u.result } := by
  induction tried generalizing first with
  | here unnamed => rw [alternatives_unnamed unnamed, ok]
  | skipped named later ih => rw [alternatives_named named, ih ok]
  | rejected unnamed failed later ih =>
    rw [alternatives_unnamed unnamed, failed]
    exact ih ok _

/-- How a level goes on with a sub-command, from the state at the word that is left. Where only
what is accepted counts, a sub-command that is tried has to succeed. -/
inductive Enters (p : Parser) (accepted : Bool) (n : Schema Value) (token : Token) (active : Bool)
    (s : State) : Schema Value → State → Prop
  | named {sub : Schema Value} (selects : n.selected? token.text = some sub) :
      Enters p accepted n token active s sub
        (s.report [.subcommandMatched n.dest sub.dest token.text]).advance
  | unnamed {sub : Schema Value} {v : State} (none : n.selected? token.text = none)
      (tried : p.Tries n.dest active s n.subcommands sub v)
      (succeeds : accepted = true → ∃ u, p.command active v sub = .ok u) :
      Enters p accepted n token active s sub v

/-- The stages that a parse comes to on the level of its schema and on those of the sub-commands
that it enters. -/
inductive Comes (p : Parser) (accepted : Bool) :
    Bool → State → Schema Value → Schema Value → Stage → Prop
  | level {active : Bool} {s : State} {n : Schema Value} {x : Stage}
      (steps : p.Steps n.flags ⟨active, n.args, s⟩ x) : Comes p accepted active s n n x
  | down {active active' : Bool} {s t v : State} {n sub m : Schema Value} {token : Token}
      {x : Stage}
      (word : p.level n.flags n.subcommands.isEmpty active n.args s = .word token active' t)
      (enters : p.Enters accepted n token active' t sub v)
      (comes : Comes p accepted active' v sub m x) : Comes p accepted active s n m x

variable {n m sub : Schema Value} {token : Token} {x y : Stage} {h : Halt} {r : State}

theorem Enters.mem (enters : p.Enters accepted n token active s sub v) :
    sub ∈ n.subcommands := by
  cases enters with
  | named selects => exact (Schema.selected?_eq_some selects).1
  | unnamed _ tried _ => exact tried.mem.1

theorem Enters.left (enters : p.Enters accepted n token active s sub v) : v.left <:+ s.left := by
  cases enters with
  | named selects => exact State.advance_left_suffix _
  | unnamed _ tried _ =>
    obtain ⟨events, rfl⟩ := tried.scratch
    exact List.suffix_rfl

theorem Comes.reaches (comes : p.Comes accepted active s n m x) : n.Reaches m := by
  induction comes with
  | level steps => exact .refl _
  | down word enters _ ih => exact .down enters.mem ih

/-- What is left at a stage was left where the parse began. -/
theorem Comes.left (comes : p.Comes accepted active s n m x) : x.state.left <:+ s.left := by
  induction comes with
  | level steps => exact steps.left
  | down word enters _ ih =>
    obtain ⟨y, steps, stops⟩ := level_eq_iff.1 word
    cases stops
    exact (ih.trans enters.left).trans steps.left

theorem Comes.steps (comes : p.Comes accepted active s n m x) (steps : p.Steps m.flags x y) :
    p.Comes accepted active s n m y := by
  induction comes with
  | level before => exact .level (before.trans steps)
  | down word enters _ ih => exact .down word enters (ih steps)

/-- Where all sub-commands have names, nothing is tried, and all that a parse comes to is on the
accepted path. -/
theorem Comes.accept (comes : p.Comes accepted active s n m x)
    (named : ∀ k, n.Reaches k → ∀ sub ∈ k.subcommands, sub.named = true) :
    p.Comes true active s n m x := by
  induction comes with
  | level steps => exact .level steps
  | @down _ _ _ _ _ n sub _ _ _ word enters _ ih =>
    have below := ih fun k reaches => named k (.down enters.mem reaches)
    cases enters with
    | named selects => exact .down word (.named selects) below
    | unnamed _ tried _ =>
      have hsub := named n (.refl n) sub tried.mem.1
      exact absurd (hsub.symm.trans tried.mem.2) Bool.noConfusion

/-- A level that halts on the accepted path halts the parse. -/
theorem Comes.halts (comes : p.Comes true active s n m x)
    (halted : p.level m.flags m.subcommands.isEmpty x.active x.args x.state = .halt h v) :
    ∃ w, p.command active s n = .halt h w := by
  induction comes with
  | level steps =>
    rw [command_eq, steps.level_eq, halted]
    exact ⟨v, rfl⟩
  | down word enters _ ih =>
    obtain ⟨w, hw⟩ := ih halted
    cases enters with
    | named selects =>
      rw [command_eq, word]
      dsimp only
      rw [selects]
      dsimp only
      rw [hw]
      exact ⟨w, rfl⟩
    | unnamed _ _ succeeds =>
      obtain ⟨u, hu⟩ := succeeds rfl
      cases hw.symm.trans hu

/-- A command that succeeds ends with the line on its own level, or goes on with a sub-command that
succeeds. -/
theorem command_ends (ok : p.command active s n = .ok t) :
    (∃ x u, p.Steps n.flags ⟨active, n.args, s⟩ x ∧ x.state.next? = none ∧
      p.defaults x.args x.state = .ok u ∧ t = u.mark n.dest) ∨
    ∃ token active' r sub v u w,
      p.level n.flags n.subcommands.isEmpty active n.args s = .word token active' r ∧
      p.Enters true n token active' r sub v ∧ p.command active' v sub = .ok u ∧
      HandsOver n token r sub v u w ∧ t = w.mark n.dest := by
  rw [command_eq] at ok
  cases hlevel : p.level n.flags n.subcommands.isEmpty active n.args s with
  | halt h u =>
    rw [hlevel] at ok
    cases ok
  | finished missing r =>
    rw [hlevel] at ok
    obtain ⟨u, hu, ht⟩ := Outcome.marked_eq_ok_iff.1 ok
    obtain ⟨x, steps, stops⟩ := level_eq_iff.1 hlevel
    cases stops with
    | finished next => exact .inl ⟨_, u, steps, next, hu, ht⟩
  | word token active' r =>
    rw [hlevel] at ok
    refine .inr ⟨token, active', r, ?_⟩
    cases hselected : n.selected? token.text with
    | some sub =>
      simp only [hselected] at ok
      obtain ⟨u, hu, ht⟩ := Outcome.marked_eq_ok_iff.1 ok
      exact ⟨sub, _, u, u, rfl, .named hselected, hu, .named hselected, ht⟩
    | none =>
      simp only [hselected] at ok
      obtain ⟨w, hw, ht⟩ := Outcome.marked_eq_ok_iff.1 ok
      obtain ⟨sub, v, u, tried, hu, rfl⟩ := tries_of_alternatives_ok hw
      obtain ⟨events, rfl⟩ := tried.scratch
      exact ⟨sub, _, u, _, rfl, .unnamed hselected tried fun _ => ⟨u, hu⟩, hu,
        .unnamed hselected tried.mem.2, ht⟩

/-- A command that succeeds hands over to the sub-command that its accepted path enters. -/
theorem Enters.handsOver
    (word : p.level n.flags n.subcommands.isEmpty active n.args s = .word token active' v)
    (enters : p.Enters true n token active' v sub r) (ok : p.command active s n = .ok t) :
    ∃ u w, p.command active' r sub = .ok u ∧ HandsOver n token v sub r u w ∧ t = w.mark n.dest := by
  rw [command_eq, word] at ok
  dsimp only at ok
  cases enters with
  | named selects =>
    simp only [selects] at ok
    obtain ⟨u, hu, ht⟩ := Outcome.marked_eq_ok_iff.1 ok
    exact ⟨u, u, hu, .named selects, ht⟩
  | unnamed none tried succeeds =>
    obtain ⟨u, hu⟩ := succeeds rfl
    simp only [none, tried.alternatives_eq hu] at ok
    obtain ⟨w, hw, ht⟩ := Outcome.marked_eq_ok_iff.1 ok
    cases hw
    obtain ⟨events, rfl⟩ := tried.scratch
    exact ⟨u, _, hu, .unnamed none tried.mem.2, ht⟩

/-- From a stage on its level a command goes on as one whose arguments are those to come. -/
theorem Steps.command_eq (steps : p.Steps n.flags ⟨active, n.args, s⟩ x) :
    p.command active s n = p.command x.active x.state { n with args := x.args } := by
  rw [Parser.command_eq, Parser.command_eq, steps.level_eq]
  rfl

/-- What is raised at a stage: what its level halts with, the fault of a required argument that is
missing where the line ends, or that of a word that no sub-command takes. -/
inductive Raises (p : Parser) (n : Schema Value) : Stage → Halt → Prop
  | level {x : Stage} {h : Halt} {t : State}
      (stops : p.Stops n.flags n.subcommands.isEmpty x (.halt h t)) : Raises p n x h
  | missing {x : Stage} {t : State} (next : x.state.next? = none)
      (halted : p.defaults x.args x.state = .halt (.unexpectedEnd p.source) t) :
      Raises p n x (.unexpectedEnd p.source)
  | unknown {active : Bool} {s : State} {token : Token} (next : s.next? = some token)
      (none : n.selected? token.text = none)
      (named : ∀ sub ∈ n.subcommands, sub.named = true) :
      Raises p n ⟨active, [], s⟩ (.unknownSubcommand token)

/-- A command that halts comes to a stage at which its halt is raised. -/
theorem command_eq_halt (halted : p.command active s n = .halt h t) :
    ∃ m x, p.Comes false active s n m x ∧ p.Raises m x h := by
  induction n using Schema.induction generalizing active s t with
  | step n ih =>
    rw [command_eq] at halted
    cases hlevel : p.level n.flags n.subcommands.isEmpty active n.args s with
    | halt g u =>
      rw [hlevel] at halted
      cases halted
      obtain ⟨x, steps, stops⟩ := level_eq_iff.1 hlevel
      exact ⟨n, x, .level steps, .level stops⟩
    | finished missing r =>
      rw [hlevel] at halted
      have hu := Outcome.marked_eq_halt halted
      obtain ⟨x, steps, stops⟩ := level_eq_iff.1 hlevel
      cases stops with
      | finished next =>
        have hh : h = .unexpectedEnd p.source := by
          rw [defaults_eq_fallBack] at hu
          exact fallBack_halt hu
        subst hh
        exact ⟨n, _, .level steps, .missing next hu⟩
    | word token active' r =>
      rw [hlevel] at halted
      cases hselected : n.selected? token.text with
      | some sub =>
        simp only [hselected] at halted
        have hu := Outcome.marked_eq_halt halted
        have hmem := (Schema.selected?_eq_some hselected).1
        obtain ⟨m, x, comes, raises⟩ := ih sub hmem hu
        exact ⟨m, x, .down hlevel (.named hselected) comes, raises⟩
      | none =>
        simp only [hselected] at halted
        have hw := Outcome.marked_eq_halt halted
        obtain ⟨sub, v, u, tried, hu⟩ | ⟨f, hnone, -⟩ | ⟨-, named, rfl⟩ :=
          tries_of_alternatives_halt hw
        · obtain ⟨m, x, comes, raises⟩ := ih sub tried.mem.1 hu
          have enters : p.Enters false n token active' r sub v :=
            .unnamed hselected tried fun h => absurd h Bool.noConfusion
          exact ⟨m, x, .down hlevel enters comes, raises⟩
        · cases hnone
        · obtain ⟨x, steps, stops⟩ := level_eq_iff.1 hlevel
          cases stops with
          | word next plain inner =>
            exact ⟨n, _, .level steps, .unknown next hselected named⟩

end Parser

end CommandGrammar
