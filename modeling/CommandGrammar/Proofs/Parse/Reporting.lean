import CommandGrammar.Proofs.Parse.Descent

/-!
# What a parse reports

Each step of a parse keeps the events that were reported before it and adds some, which are events
of parsing or come from a converter of the host. So the events of a whole parse are of these two
kinds (`parse_reports`).
-/

namespace CommandGrammar

/-- The state in which a step of a parse ends. -/
def Outcome.state : Outcome → State
  | .ok s => s
  | .halt _ s => s

/-- The state in which a level ends. -/
def LevelEnd.state : LevelEnd → State
  | .finished _ s => s
  | .word _ _ s => s
  | .halt _ s => s

namespace Parser

/-- An event that a parse may report: one of parsing, or one that a converter of the host
reports. -/
def Reports (p : Parser) (e : Event) : Prop :=
  e.component = .parsing ∨ ∃ h tokens a, e ∈ (p.converters h tokens a).1

/-- From one state to another, nothing but such events was added. -/
def Hears (p : Parser) (s t : State) : Prop :=
  ∃ added, t.events = s.events ++ added ∧ ∀ e ∈ added, p.Reports e

variable {p : Parser} {s t u : State}

namespace Hears

theorem of_eq (same : t.events = s.events) : p.Hears s t :=
  ⟨[], by rw [same, List.append_nil], List.forall_mem_nil _⟩

theorem trans (before : p.Hears s t) (behind : p.Hears t u) : p.Hears s u := by
  obtain ⟨first, hfirst, reports⟩ := before
  obtain ⟨second, hsecond, reports'⟩ := behind
  refine ⟨first ++ second, ?_, List.forall_mem_append.2 ⟨reports, reports'⟩⟩
  rw [hsecond, hfirst, List.append_assoc]

theorem report {events : List Event} (reports : ∀ e ∈ events, p.Reports e) :
    p.Hears s (s.report events) :=
  ⟨events, rfl, reports⟩

theorem report_parsing {e : Event} (parsing : e.component = .parsing) :
    p.Hears s (s.report [e]) :=
  report (List.forall_mem_singleton.2 (.inl parsing))

theorem marked {o : Outcome} {dest : String} (hears : p.Hears s o.state) :
    p.Hears s (o.marked dest).state := by
  cases o with
  | ok t => exact hears
  | halt h t => exact hears

end Hears

/-- What is reported where the tokens are converted is reported by the converter. -/
theorem answer_reports (converter : Converter) (token : Token) (rest : List Token)
    (a : Argument Value) : ∀ e ∈ (p.answer converter token rest a).1, p.Reports e := by
  cases converter with
  | builtin b => exact List.forall_mem_nil _
  | host h =>
    intro e mem
    exact .inr ⟨h, token :: rest, a, mem⟩

theorem accept_events (a : Argument Value) (token : Token) (s : State) (answer : Answer) :
    (accept a token s answer).state.events = s.events := by
  cases answer with
  | conversion v step =>
    unfold accept
    dsimp only
    split <;> rfl
  | other v => rfl
  | fault f => rfl
  | crash c => rfl

theorem argument_hears (a : Argument Value) (s : State) : p.Hears s (p.argument a s).state := by
  unfold argument
  split
  · exact .of_eq rfl
  · split
    · exact .of_eq rfl
    · dsimp only
      exact (Hears.report (answer_reports _ _ _ _)).trans (.of_eq (accept_events ..))

theorem fallBack_events (h : Halt) (args : List (Argument Value)) (s : State) :
    (fallBack h args s).state.events = s.events := by
  induction args generalizing s with
  | nil => rfl
  | cons a rest ih =>
    rw [fallBack]
    split
    · rfl
    · exact ih _

theorem flagArguments_hears (inline : Bool) (args : List (Argument Value)) (s : State) :
    p.Hears s (p.flagArguments inline args s).state := by
  induction args generalizing inline s with
  | nil => exact .of_eq rfl
  | cons a rest ih =>
    have heard : p.Hears s (p.argument a s).state := argument_hears a s
    rw [flagArguments]
    split
    · split
      · rename_i t ok
        rw [ok] at heard
        exact heard.trans (ih false t)
      · rename_i t halted
        rwa [halted] at heard
      · rename_i f t halted
        rw [halted] at heard
        split
        · exact heard
        · exact heard.trans (.of_eq (fallBack_events ..))
    · dsimp only
      split
      · exact .of_eq rfl
      · exact .of_eq (fallBack_events ..)

theorem foldl_mark_events (marks : List String) (s : State) :
    (marks.foldl State.mark s).events = s.events := by
  induction marks generalizing s with
  | nil => rfl
  | cons m rest ih => exact ih (s.mark m)

theorem flag_hears (flags : List (Flag Value)) (token : Token) (c : Char) (rest : List Char)
    (s : State) : p.Hears s (p.flag flags token c rest s).state := by
  unfold flag
  split
  · exact .of_eq rfl
  · rename_i f marks _
    have heard : p.Hears s (marks.foldl State.mark s) := .of_eq (foldl_mark_events ..)
    generalize marks.foldl State.mark s = t at heard
    dsimp only
    split
    · have advanced : p.Hears t t.advance := .of_eq rfl
      exact ((heard.trans advanced).trans (flagArguments_hears ..)).marked
    · split
      · exact heard
      · split
        · exact heard
        · rename_i pieces _
          have opened : p.Hears t { t with tokens := replaceAt t.tokens t.index pieces }.advance :=
            .of_eq rfl
          exact ((heard.trans opened).trans (flagArguments_hears ..)).marked

/-- On a level, flags and arguments report. -/
theorem level_hears (flags : List (Flag Value)) (leaf active : Bool)
    (args : List (Argument Value)) (s : State) :
    p.Hears s (p.level flags leaf active args s).state := by
  have heard : ∀ token c rest s, p.Hears s (p.flag flags token c rest s).state := flag_hears flags
  have heard' : ∀ a s, p.Hears s (p.argument a s).state := argument_hears
  fun_induction p.level flags leaf active args s with
  | case1 active args s next => exact .of_eq rfl
  | case2 active args s token next c rest flagged ends ih =>
    have advanced : p.Hears s s.advance := .of_eq rfl
    exact advanced.trans ih
  | case3 active args s token next c rest flagged ends t ok ih =>
    have taken := heard token c rest s
    rw [ok] at taken
    exact taken.trans ih
  | case4 active args s token next c rest flagged ends h t halted =>
    have taken := heard token c rest s
    rwa [halted] at taken
  | case5 active s token next plain a args t ok ih =>
    have taken := heard' a s
    rw [ok] at taken
    exact taken.trans ih
  | case6 active s token next plain a args h t halted =>
    have taken := heard' a s
    rwa [halted] at taken
  | case7 active s token next plain outer => exact .of_eq rfl
  | case8 active s token next plain inner => exact .of_eq rfl

/-- Trials report, and so does what becomes of them. -/
theorem alternatives_hears {active : Bool} {subs : List (Schema Value)}
    (trials : ∀ sub ∈ subs, ∀ s, p.Hears s (p.command active s sub).state) (dest : String)
    (token : Token) (first : Option Fault) (s : State) :
    p.Hears s (p.alternatives dest token active first s subs).state := by
  induction subs generalizing first s with
  | nil => cases first <;> exact .of_eq rfl
  | cons sub rest ih =>
    obtain ⟨trial, others⟩ := List.forall_mem_cons.1 trials
    by_cases named : sub.named = true
    · rw [alternatives_named named]
      exact ih others first s
    · rw [alternatives_unnamed (eq_false_of_ne_true named)]
      have begun : p.Hears s s.scratch := .of_eq rfl
      have heard := begun.trans (trial s.scratch)
      split
      · rename_i t ok
        rw [ok] at heard
        exact (heard.trans (.report_parsing rfl)).trans (.of_eq rfl)
      · rename_i f t halted
        rw [halted] at heard
        exact (heard.trans (.report_parsing rfl)).trans (ih others _ _)
      · rename_i t halted
        rwa [halted] at heard

theorem command_hears (active : Bool) (s : State) (n : Schema Value) :
    p.Hears s (p.command active s n).state := by
  induction n using Schema.induction generalizing active s with
  | step n ih =>
    have heard := level_hears n.flags n.subcommands.isEmpty active n.args s (p := p)
    rw [command_eq]
    split
    · rename_i h t halted
      rwa [halted] at heard
    · rename_i missing t ended
      rw [ended] at heard
      rw [defaults_eq_fallBack]
      exact (heard.trans (.of_eq (fallBack_events ..))).marked
    · rename_i token active' t word
      rw [word] at heard
      split
      · rename_i sub selects
        have mem := (Schema.selected?_eq_some selects).1
        have matched :
            p.Hears t (t.report [.subcommandMatched n.dest sub.dest token.text]).advance :=
          .report_parsing rfl
        exact ((heard.trans matched).trans (ih sub mem active' _)).marked
      · exact (heard.trans (alternatives_hears (fun sub mem s => ih sub mem _ s) ..)).marked

/-- The event of a parse that failed is the only one that is added in the end. -/
theorem mem_concluded {r : Report} {dest : String} {e : Event}
    (mem : e ∈ (r.concluded dest).events) : e ∈ r.events ∨ e.component = .parsing := by
  unfold Report.concluded at mem
  split at mem
  · split at mem
    · rcases List.mem_append.1 mem with mem | mem
      · exact .inl mem
      · rw [List.mem_singleton.1 mem]
        exact .inr rfl
    · exact .inl mem
  · exact .inl mem

/-- The events of a parse are of parsing, or come from converters of the host. -/
theorem parse_reports (p : Parser) (schema : Schema Value) (start : Nat) :
    ∀ e ∈ (p.parse schema start).events, p.Reports e := by
  have heard := command_hears p.options.parseFlags (p.initial start) schema (p := p)
  obtain ⟨added, events, reports⟩ := heard
  have ran : (p.run schema (Token.tokenize p.source start)).events = added := by
    rw [run, ← initial]
    split
    · rename_i t ok
      rwa [ok] at events
    · rename_i h t halted
      rwa [halted] at events
  intro e mem
  rcases List.mem_cons.1 mem with rfl | mem
  · exact .inl rfl
  · rcases mem_concluded mem with mem | parsing
    · exact reports e (ran ▸ mem)
    · exact .inl parsing

end Parser

end CommandGrammar
