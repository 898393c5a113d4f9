import CommandGrammar.Proofs.Parse.Step

/-!
# From a command to its sub-commands

A command takes the steps of its level and then either ends with the line or hands it over to one
of its sub-commands. `command_eq` says which one, and `command_eq_ok` reads a success from its
end; with `Schema.induction` a law of commands needs a case for the end of the line and one for
the sub-command.
-/

namespace CommandGrammar

/-- A law that holds of a schema if it holds of its sub-commands holds of all schemas. -/
theorem Schema.induction {motive : Schema Value → Prop}
    (step : ∀ n : Schema Value, (∀ sub ∈ n.subcommands, motive sub) → motive n)
    (n : Schema Value) : motive n :=
  step n fun sub _ => Schema.induction step sub
termination_by n
decreasing_by
  cases n
  simp_wf
  have := List.sizeOf_lt_of_mem ‹sub ∈ _›
  simp_all
  omega

/-- A chain of schemas from the first one down, each a sub-command of the one before. -/
inductive Schema.Chain : Schema Value → List (Schema Value) → Prop
  | last (n : Schema Value) : Chain n [n]
  | down {n sub : Schema Value} {chain : List (Schema Value)} (mem : sub ∈ n.subcommands)
      (h : Chain sub chain) : Chain n (n :: chain)

/-- The second schema is the first one or stands somewhere below it. -/
inductive Schema.Reaches : Schema Value → Schema Value → Prop
  | refl (n : Schema Value) : Reaches n n
  | down {n sub m : Schema Value} (mem : sub ∈ n.subcommands) (h : Reaches sub m) : Reaches n m

/-- The first sub-command that a word selects. -/
def Schema.selected? (n : Schema Value) (word : String) : Option (Schema Value) :=
  n.subcommands.find? (·.matches word)

theorem Schema.selected?_eq_some {n sub : Schema Value} {word : String}
    (h : n.selected? word = some sub) : sub ∈ n.subcommands ∧ sub.matches word = true := by
  have selects := List.find?_eq_some_iff_append.1 h
  exact ⟨List.mem_of_find?_eq_some h, selects.1⟩

/-- The sub-commands that are tried where no word selects one. -/
def Schema.alternatives (n : Schema Value) : List (Schema Value) :=
  n.subcommands.filter (!·.named)

namespace State

/-- The state with an empty result. -/
def scratch (s : State) : State := { s with result := .empty }

/-- The state with other events. -/
def hearing (s : State) (events : List Event) : State := { s with events }

end State

namespace Parser

variable {p : Parser} {active : Bool} {s t : State}

theorem selected_eq (p : Parser) (dest : String) (token : Token) (active : Bool) (s : State)
    (subs : List (Schema Value)) :
    p.selected dest token active s subs =
      (subs.find? (·.matches token.text)).map fun sub =>
        p.command active (s.report [.subcommandMatched dest sub.dest token.text]).advance sub := by
  induction subs with
  | nil => rfl
  | cons sub rest ih =>
    rw [selected, List.find?_cons]
    cases sub.matches token.text with
    | true => rfl
    | false => exact ih

/-- What a command makes of its level. -/
theorem command_eq (p : Parser) (active : Bool) (s : State) (n : Schema Value) :
    p.command active s n =
      match p.level n.flags n.subcommands.isEmpty active n.args s with
      | .halt h t => .halt h t
      | .finished missing t => (p.defaults missing t).marked n.dest
      | .word token active t =>
        match n.selected? token.text with
        | some sub =>
          (p.command active
            (t.report [.subcommandMatched n.dest sub.dest token.text]).advance sub).marked n.dest
        | none => (p.alternatives n.dest token active none t n.subcommands).marked n.dest := by
  obtain ⟨name, dest, aliases, help, args, flags, subs⟩ := n
  rw [command]
  cases p.level flags subs.isEmpty active args s with
  | halt h t => rfl
  | finished missing t => rfl
  | word token active t =>
    simp only [selected_eq, Schema.selected?]
    cases subs.find? (·.matches token.text) <;> rfl

theorem alternatives_named {dest : String} {token : Token} {first : Option Fault}
    {sub : Schema Value} {rest : List (Schema Value)} (h : sub.named = true) :
    p.alternatives dest token active first s (sub :: rest) =
      p.alternatives dest token active first s rest := by
  rw [alternatives, if_pos h]

/-- An unnamed sub-command is tried on an empty result. -/
theorem alternatives_unnamed {dest : String} {token : Token} {first : Option Fault}
    {sub : Schema Value} {rest : List (Schema Value)} (h : sub.named = false) :
    p.alternatives dest token active first s (sub :: rest) =
      match p.command active s.scratch sub with
      | .ok t =>
        .ok { t.report [.alternativeAccepted dest sub.dest] with
              result := s.result.merge t.result }
      | .halt (.fault f) t =>
        p.alternatives dest token active (first.or (some f))
          (s.hearing (t.events ++ [.alternativeRejected dest sub.dest f.message])) rest
      | .halt (.crash c) t => .halt (.crash c) t := by
  rw [alternatives, h]
  rfl

theorem alternatives_filter {dest : String} {token : Token} {first : Option Fault}
    (subs : List (Schema Value)) :
    p.alternatives dest token active first s subs =
      p.alternatives dest token active first s (subs.filter (!·.named)) := by
  induction subs generalizing first s with
  | nil => rfl
  | cons sub rest ih =>
    cases hnamed : sub.named with
    | true => rw [alternatives_named hnamed, ih, List.filter_cons_of_neg (by simp [hnamed])]
    | false =>
      rw [List.filter_cons_of_pos (by simp [hnamed]), alternatives_unnamed hnamed,
        alternatives_unnamed hnamed]
      split
      · rfl
      · exact ih
      · rfl

/-- An alternative that is accepted, and how the outcome of its trial is taken over. -/
theorem alternatives_eq_ok {dest : String} {token : Token} {first : Option Fault}
    {subs : List (Schema Value)} (ok : p.alternatives dest token active first s subs = .ok t) :
    ∃ sub ∈ subs, sub.named = false ∧ ∃ events u,
      p.command active (s.scratch.hearing events) sub = .ok u ∧
      t = { u.report [.alternativeAccepted dest sub.dest] with
            result := s.result.merge u.result } := by
  induction subs generalizing first s with
  | nil => cases first <;> simp [alternatives] at ok
  | cons sub rest ih =>
    cases hnamed : sub.named with
    | true =>
      rw [alternatives_named hnamed] at ok
      obtain ⟨other, hmem, hother⟩ := ih ok
      exact ⟨other, List.mem_cons_of_mem _ hmem, hother⟩
    | false =>
      rw [alternatives_unnamed hnamed] at ok
      split at ok
      · rename_i u hu
        simp only [Outcome.ok.injEq] at ok
        exact ⟨sub, List.mem_cons_self, hnamed, s.events, u, hu, ok.symm⟩
      · obtain ⟨other, hmem, hother⟩ := ih ok
        exact ⟨other, List.mem_cons_of_mem _ hmem, hother⟩
      · simp at ok

/-- How a command hands its line over to a sub-command, from the state at the word that is left:
the state in which the sub-command begins, the one in which it ends, and what is made of it. -/
inductive HandsOver (n : Schema Value) (token : Token) (s : State) (sub : Schema Value) :
    State → State → State → Prop
  | named {u : State} (selects : n.selected? token.text = some sub) :
      HandsOver n token s sub
        (s.report [.subcommandMatched n.dest sub.dest token.text]).advance u u
  | unnamed {events : List Event} {u : State} (none : n.selected? token.text = none)
      (unnamed : sub.named = false) :
      HandsOver n token s sub (s.scratch.hearing events) u
        { u.report [.alternativeAccepted n.dest sub.dest] with result := s.result.merge u.result }

theorem HandsOver.left {n sub : Schema Value} {token : Token} {v u w : State}
    (handed : HandsOver n token s sub v u w) : v.left <:+ s.left := by
  cases handed with
  | named selects => exact State.advance_left_suffix _
  | unnamed none unnamed => exact List.suffix_rfl

/-- A command that succeeds takes the steps of its level. Then either the line ends and the
missing arguments have defaults, or a sub-command succeeds on what is left. -/
theorem command_eq_ok {n : Schema Value} (ok : p.command active s n = .ok t) :
    ∃ x, p.Steps n.flags ⟨active, n.args, s⟩ x ∧
      ((x.state.next? = none ∧ ∃ u, p.defaults x.args x.state = .ok u ∧ t = u.mark n.dest) ∨
       (x.args = [] ∧ ∃ token sub v u w, x.state.next? = some token ∧ sub ∈ n.subcommands ∧
          HandsOver n token x.state sub v u w ∧ p.command x.active v sub = .ok u ∧
          t = w.mark n.dest)) := by
  rw [command_eq] at ok
  obtain ⟨x, steps, stops⟩ := exists_steps_stops p n.flags n.subcommands.isEmpty active n.args s
  refine ⟨x, steps, ?_⟩
  generalize p.level n.flags n.subcommands.isEmpty active n.args s = e at ok stops
  cases stops with
  | finished next =>
    obtain ⟨u, hu, ht⟩ := Outcome.marked_eq_ok_iff.1 ok
    exact .inl ⟨next, u, hu, ht⟩
  | @word active s token next plain inner =>
    refine .inr ⟨rfl, token, ?_⟩
    cases hselected : n.selected? token.text with
    | some sub =>
      simp only [hselected] at ok
      obtain ⟨u, hu, ht⟩ := Outcome.marked_eq_ok_iff.1 ok
      have hmem := (Schema.selected?_eq_some hselected).1
      exact ⟨sub, _, u, u, next, hmem, .named hselected, hu, ht⟩
    | none =>
      simp only [hselected] at ok
      obtain ⟨w, hw, ht⟩ := Outcome.marked_eq_ok_iff.1 ok
      obtain ⟨sub, hmem, hunnamed, events, u, hu, rfl⟩ := alternatives_eq_ok hw
      exact ⟨sub, _, u, _, next, hmem, .unnamed hselected hunnamed, hu, ht⟩
  | tooMany next plain outer => simp at ok
  | flag next flagged ends halted => simp at ok
  | argument next plain halted => simp at ok

/-- The state in which a parse of the line begins. -/
def initial (p : Parser) (start : Nat) : State := ⟨Token.tokenize p.source start, 0, .empty, []⟩

end Parser

/-! ## How a parse ends -/

namespace Parser

variable {p : Parser}

theorem parse_result (p : Parser) (schema : Schema Value) (start : Nat) :
    (p.parse schema start).result =
      match p.command p.options.parseFlags (p.initial start) schema with
      | .ok s => .ok s.result
      | .halt h _ => .error (h.leaving p) := by
  unfold parse
  dsimp only
  rw [Report.concluded_result, run, ← initial]
  cases p.command p.options.parseFlags (p.initial start) schema <;> rfl

theorem parse_tokens (p : Parser) (schema : Schema Value) (start : Nat) :
    (p.parse schema start).tokens =
      match p.command p.options.parseFlags (p.initial start) schema with
      | .ok s => s.tokens
      | .halt _ s => s.tokens := by
  unfold parse
  dsimp only
  rw [Report.concluded_tokens, run, ← initial]
  cases p.command p.options.parseFlags (p.initial start) schema <;> rfl

theorem parse_eq_ok {schema : Schema Value} {start : Nat} {m : Mapping Value}
    (ok : (p.parse schema start).result = .ok m) :
    ∃ t, p.command p.options.parseFlags (p.initial start) schema = .ok t ∧ t.result = m ∧
      (p.parse schema start).tokens = t.tokens := by
  rw [parse_result] at ok
  rw [parse_tokens]
  cases hcommand : p.command p.options.parseFlags (p.initial start) schema with
  | ok t =>
    rw [hcommand] at ok
    exact ⟨t, rfl, Except.ok.inj ok, rfl⟩
  | halt g t =>
    rw [hcommand] at ok
    cases ok

theorem parse_eq_error {schema : Schema Value} {start : Nat} {h : Halt}
    (failed : (p.parse schema start).result = .error h) :
    ∃ g t, p.command p.options.parseFlags (p.initial start) schema = .halt g t ∧
      h = g.leaving p := by
  rw [parse_result] at failed
  cases hcommand : p.command p.options.parseFlags (p.initial start) schema with
  | ok t =>
    rw [hcommand] at failed
    cases failed
  | halt g t =>
    rw [hcommand] at failed
    exact ⟨g, t, rfl, (Except.error.inj failed).symm⟩

theorem parse_of_ok {schema : Schema Value} {start : Nat} {t : State}
    (ok : p.command p.options.parseFlags (p.initial start) schema = .ok t) :
    (p.parse schema start).result = .ok t.result := by
  rw [parse_result, ok]

/-- A parse fails with a fresh fault that a command halts with, which has the line then. -/
theorem parse_of_fresh {schema : Schema Value} {start : Nat} {f : Fault} {t : State}
    (fresh : f.Fresh)
    (halted : p.command p.options.parseFlags (p.initial start) schema = .halt (.fault f) t) :
    (p.parse schema start).result = .error (.fault { f with command := .str p.source }) := by
  rw [parse_result, halted, ← fresh.leaving p]

theorem parse_of_halt {schema : Schema Value} {start : Nat} {h : Halt}
    (halted : p.command p.options.parseFlags (p.initial start) schema = .halt h t) :
    (p.parse schema start).result = .error (h.leaving p) := by
  rw [parse_result, halted]

end Parser

/-! ## Plain lines -/

/-- The parser of a line with the builtin types, the standard options and no converters of a
host. -/
def Parser.forLine (source : String) : Parser where
  source
  types := .builtins
  options := .standard
  converters := fun _ _ _ => ([], .other .null)
  makers := .keeping

/-- The parser of a line on which flags are inactive. -/
def Parser.forWords (source : String) : Parser :=
  { Parser.forLine source with options := { Options.standard with parseFlags := false } }

/-- An argument of a named type that has no settings. -/
def Argument.ofType (dest type : String) (required : Bool) : Argument Value :=
  ⟨dest, .named type, dest, required, .null, none, none, []⟩

/-- A command with an argument, a flag and two sub-commands that are told apart by their shape. -/
def Parser.calculator : Schema Value where
  name := some "compute"
  dest := "compute"
  aliases := []
  help := none
  args := [.ofType "mode" "string" true]
  flags := [⟨"scaled", some "times", some 't', none, [.ofType "times" "int" true]⟩]
  subcommands :=
    [⟨none, "single", [], none, [.ofType "a" "int" true], [], []⟩,
     ⟨none, "pair", [], none, [.ofType "x" "int" true, .ofType "y" "int" false], [], []⟩]

/-- Whether a step of a parse ends with a fault. -/
def Outcome.failed : Outcome → Bool
  | .halt (.fault _) _ => true
  | _ => false

theorem Outcome.exists_fault {o : Outcome} (h : o.failed = true) :
    ∃ f s, o = .halt (.fault f) s := by
  cases o with
  | ok s => exact absurd h Bool.noConfusion
  | halt g s =>
    cases g with
    | fault f => exact ⟨f, s, rfl⟩
    | crash c => exact absurd h Bool.noConfusion

/-- The keys of the result, if there is one. -/
def Report.keys? (r : Report) : Option (List String) := (r.result.toOption).map Mapping.keys

theorem Report.result_of_toOption {r : Report} {m : Mapping Value}
    (h : r.result.toOption = some m) : r.result = .ok m := by
  cases hresult : r.result with
  | ok n =>
    rw [hresult] at h
    exact congrArg Except.ok (Option.some.inj h)
  | error e =>
    rw [hresult] at h
    cases h

theorem Report.exists_ok {r : Report} {keys : List String} (h : r.keys? = some keys) :
    ∃ m, r.result = .ok m ∧ m.keys = keys := by
  obtain ⟨m, hm, hkeys⟩ := Option.map_eq_some_iff.1 h
  exact ⟨m, result_of_toOption hm, hkeys⟩

/-- A text, a whole number or a truth value. -/
inductive Scalar
  | str (s : String)
  | int (n : Int)
  | bool (b : Bool)
deriving DecidableEq

/-- The value that it is. -/
def Scalar.value : Scalar → Value
  | .str s => .str s
  | .int n => .int n
  | .bool b => .bool b

/-- What a value is that is a text, a whole number or a truth value. -/
def Value.scalar? : Value → Option Scalar
  | .str s => some (.str s)
  | .int n => some (.int n)
  | .bool b => some (.bool b)
  | _ => none

theorem Value.eq_of_scalar? {v : Value} {x : Scalar} (h : v.scalar? = some x) : v = x.value := by
  unfold scalar? at h
  split at h <;> cases h <;> rfl

/-- What the value under a key of the result is, if there is one. -/
def Report.scalar? (r : Report) (key : String) : Option Scalar :=
  r.result.toOption.bind fun m => (m.get? key).bind Value.scalar?

theorem Report.exists_ok_of_scalar {r : Report} {key : String} (x : Scalar)
    (h : r.scalar? key = some x) : ∃ m, r.result = .ok m ∧ m.get? key = some x.value := by
  obtain ⟨m, hm, hscalar⟩ := Option.bind_eq_some_iff.1 h
  obtain ⟨v, hget, hv⟩ := Option.bind_eq_some_iff.1 hscalar
  exact ⟨m, result_of_toOption hm, hget.trans (congrArg some (Value.eq_of_scalar? hv))⟩

/-- The place of the fault, if there is one and it has a place. -/
def Report.span? (r : Report) : Option (Int × Int) :=
  match r.result with
  | .error (.fault f) => f.span
  | _ => none

theorem Report.exists_fault_of_span {r : Report} {place : Int × Int} (h : r.span? = some place) :
    ∃ f, r.result = .error (.fault f) ∧ f.span = some place := by
  unfold span? at h
  split at h
  · rename_i f hresult
    exact ⟨f, hresult, h⟩
  · cases h

/-- The name of the crash, if there is one. -/
def Report.crash? (r : Report) : Option String :=
  match r.result with
  | .error (.crash c) => some c.name
  | _ => none

end CommandGrammar
