import CommandGrammar.Proofs.Parse.Resolution
import CommandGrammar.Proofs.Parse.Trail

/-!
# The growth of a result

While a parse goes on, its result keeps the keys that it has, and what it finds under a key was
there before or is written at a stage on the accepted path. `State.Grows` says so of two states,
`Step.grows` of a step and `command_grows` of a command. `Comes.keeps` takes a key from a stage on
the accepted path to the end.
-/

namespace CommandGrammar

/-- The second state has the keys of the first one, and its values are those of the first one or
such as may be written. -/
structure State.Grows (writes : String → Value → Prop) (s t : State) : Prop where
  keeps : ∀ key ∈ s.result.keys, key ∈ t.result.keys
  adds : ∀ key v, t.result.get? key = some v → s.result.get? key = some v ∨ writes key v

namespace State

variable {writes writes' : String → Value → Prop} {s t u v w : State}

theorem Grows.refl (s : State) : s.Grows writes s :=
  ⟨fun _ mem => mem, fun _ _ found => .inl found⟩

theorem Grows.trans (h : s.Grows writes t) (h' : t.Grows writes u) : s.Grows writes u := by
  constructor
  · intro key mem
    exact h'.keeps key (h.keeps key mem)
  · intro key v found
    rcases h'.adds key v found with found | written
    · exact h.adds key v found
    · exact .inr written

theorem Grows.mono (h : s.Grows writes t) (le : ∀ key v, writes key v → writes' key v) :
    s.Grows writes' t := by
  refine ⟨h.keeps, ?_⟩
  intro key v found
  exact (h.adds key v found).imp_right (le key v)

theorem Grows.of_entered {entries : List (String × Value)} (entered : s.Entered t entries)
    (written : ∀ e ∈ entries, writes e.1 e.2) : s.Grows writes t := by
  unfold Entered at entered
  constructor
  · intro key mem
    rw [entered]
    exact Mapping.mem_keys_insertAll.2 (.inl mem)
  · intro key v found
    rw [entered] at found
    exact (Mapping.mem_of_get?_insertAll found).imp_right (written (key, v))

theorem Grows.of_mark {dest : String} (written : writes dest (.bool true)) :
    s.Grows writes (s.mark dest) := by
  apply Grows.of_entered (s.entered_mark dest)
  intro e mem
  rw [List.mem_singleton.1 mem]
  exact written

/-- A result of a sub-command grows into that of its command, also where the sub-command is tried
on an empty result. -/
theorem Grows.of_handsOver {n sub : Schema Value} {token : Token}
    (handed : Parser.HandsOver n token s sub v u w) (grows : v.Grows writes u) :
    s.Grows writes w ∧ ∀ key ∈ u.result.keys, key ∈ w.result.keys := by
  cases handed with
  | named _ => exact ⟨⟨grows.keeps, grows.adds⟩, fun _ mem => mem⟩
  | unnamed _ _ =>
    refine ⟨⟨?_, ?_⟩, ?_⟩
    · intro key mem
      exact Mapping.mem_keys_insertAll.2 (.inl mem)
    · intro key v found
      rw [Mapping.get?_merge] at found
      rcases Option.or_eq_some_iff.1 found with found | ⟨-, found⟩
      · rcases grows.adds key v found with found | written
        · cases found
        · exact .inr written
      · exact .inl found
    · intro key mem
      exact Mapping.mem_keys_insertAll.2 (.inr mem)

end State

namespace Parser

variable {p : Parser} {flags : List (Flag Value)} {inline active active' : Bool}
  {a : Argument Value} {args missing : List (Argument Value)} {s t u v w : State} {x y z : Stage}
  {n m sub : Schema Value} {token : Token} {c : Char} {rest : List Char}

/-! ## Which arguments are resolved -/

theorem Step.args_suffix (step : p.Step flags x y) : y.args <:+ x.args := by
  cases step with
  | ending _ _ _ => exact List.suffix_rfl
  | flag _ _ _ _ => exact List.suffix_rfl
  | argument _ _ _ => exact List.suffix_cons _ _

theorem Steps.args_suffix (steps : p.Steps flags x y) : y.args <:+ x.args := by
  induction steps with
  | refl => exact List.suffix_rfl
  | tail _ step ih => exact step.args_suffix.trans ih

/-- The positional arguments that are to come at a stage are arguments of its schema. -/
theorem Comes.args_suffix {accepted : Bool} (comes : p.Comes accepted active s n m x) :
    x.args <:+ m.args := by
  induction comes with
  | level steps => exact steps.args_suffix
  | down _ _ _ ih => exact ih

/-- What is resolved at a stage is an argument of the schema or of one of its flags. -/
theorem Resolves.owns {role : Role} (resolves : p.Resolves n.flags x a role s)
    (args : x.args <:+ n.args) : ∃ owner, n.Owns owner a := by
  cases resolves with
  | positional _ _ => exact ⟨none, args.subset List.mem_cons_self⟩
  | @ofFlag _ _ _ _ f _ _ _ _ _ _ _ meets _ asks _ =>
    exact ⟨some f, (spelled_eq_ok meets.spelled).1, asks.suffix.subset List.mem_cons_self⟩

/-! ## What is written at a stage -/

/-- What may be written at a stage: the value of an argument that is resolved there, the default
of an optional argument, and the marks of a flag and of the command itself. -/
inductive Writes (p : Parser) (n : Schema Value) (x : Stage) : String → Value → Prop
  | value {a : Argument Value} {role : Role} {u : State} {v : Value} {count : Nat}
      {events : List Event} (resolves : p.Resolves n.flags x a role u)
      (converts : p.Converts a u.left v count events) : Writes p n x a.dest v
  | default {owner : Option (Flag Value)} {a : Argument Value} (owns : n.Owns owner a)
      (optional : a.required = false) : Writes p n x a.dest a.default
  | flag {f : Flag Value} (mem : f ∈ n.flags) : Writes p n x f.dest (.bool true)
  | command : Writes p n x n.dest (.bool true)

theorem argument_grows {writes : String → Value → Prop}
    (values : ∀ v count events, p.Converts a s.left v count events → writes a.dest v)
    (ok : p.argument a s = .ok t) : s.Grows writes t ∧ a.dest ∈ t.result.keys := by
  obtain ⟨v, count, events, converts, rfl⟩ := argument_eq_ok_iff.1 ok
  have entered : s.Entered (s.take events a.dest v count) [(a.dest, v)] := rfl
  refine ⟨.of_entered entered ?_, Mapping.mem_keys_insert.2 (.inl rfl)⟩
  intro e mem
  rw [List.mem_singleton.1 mem]
  exact values v count events converts

theorem Asks.grows {inline' : Bool} {writes : String → Value → Prop}
    (asks : p.Asks inline args s inline' missing u)
    (values : ∀ inline' a others r v count events, p.Asks inline args s inline' (a :: others) r →
      p.Converts a r.left v count events → writes a.dest v) :
    s.Grows writes u ∧ ∀ a ∈ args, a ∈ missing ∨ a.dest ∈ u.result.keys := by
  induction asks with
  | here => exact ⟨.refl _, fun a mem => .inl mem⟩
  | later ok asks ih =>
    obtain ⟨grows, present⟩ := argument_grows (values _ _ _ _ · · · .here) ok
    obtain ⟨grows', present'⟩ := ih fun inline' a others r v count events asks' =>
      values inline' a others r v count events (.later ok asks')
    refine ⟨grows.trans grows', ?_⟩
    intro b mem
    rcases List.mem_cons.1 mem with rfl | mem
    · exact .inr (grows'.keeps _ present)
    · exact present' b mem

/-- Once the arguments of a flag are taken, all of them have their keys. -/
theorem flagArguments_grows {writes : String → Value → Prop}
    (values : ∀ inline' a others r v count events, p.Asks inline args s inline' (a :: others) r →
      p.Converts a r.left v count events → writes a.dest v)
    (defaults : ∀ a ∈ args, a.required = false → writes a.dest a.default)
    (ok : p.flagArguments inline args s = .ok t) :
    s.Grows writes t ∧ ∀ a ∈ args, a.dest ∈ t.result.keys := by
  obtain ⟨inline', missing, u, events, asks, optional, rfl⟩ := flagArguments_eq_ok ok
  obtain ⟨grows, present⟩ := asks.grows values
  have fallsBack : u.Grows writes { u.report events with
      result := u.result.insertAll (missing.map fun a => (a.dest, a.default)) } := by
    refine .of_entered rfl ?_
    intro e mem
    obtain ⟨a, ha, rfl⟩ := List.mem_map.1 mem
    exact defaults a (asks.suffix.subset ha) (optional a ha)
  refine ⟨grows.trans fallsBack, ?_⟩
  intro a mem
  rcases present a mem with missed | present
  · refine Mapping.mem_keys_insertAll.2 (.inr ?_)
    rw [List.map_map]
    exact List.mem_map_of_mem missed
  · exact fallsBack.keeps _ present

/-- Where flags are met and taken, those that they are spelled with and all arguments of the last
one have their keys. -/
theorem Meets.grows {met : Spelled} (meets : p.Meets n.flags x token c rest met)
    (ok : p.flag n.flags token c rest x.state = .ok t) :
    x.state.Grows (p.Writes n x) t ∧ (∀ dest ∈ met.flag.dest :: met.marks, dest ∈ t.result.keys) ∧
      ∀ a ∈ met.flag.args, a.dest ∈ t.result.keys := by
  obtain ⟨f, marks, inline, u, v, spelled, opens, harguments, rfl⟩ := flag_eq_ok ok
  cases meets.spelled.symm.trans spelled
  obtain ⟨mem, gs, rfl, hgs⟩ := spelled_eq_ok spelled
  have hopens : x.state.Wrote u (gs.map Write.mark) :=
    opens.result.trans (foldl_mark_wrote gs x.state)
  have marked : x.state.Grows (p.Writes n x) u := by
    apply State.Grows.of_entered hopens
    intro e he
    obtain ⟨g, hg, rfl⟩ := List.mem_map.1 ((List.map_map ▸ he : e ∈ gs.map _))
    exact .flag (hgs hg)
  obtain ⟨grows, present⟩ : u.Grows (p.Writes n x) v ∧ ∀ a ∈ f.args, a.dest ∈ v.result.keys := by
    apply flagArguments_grows _ _ harguments
    · intro inline' a others r value count events asks converts
      exact .value (.ofFlag meets opens asks converts.ne_nil) converts
    · intro a ha optional
      have owns : n.Owns (some f) a := ⟨mem, ha⟩
      exact .default owns optional
  have last : v.Grows (p.Writes n x) (v.mark f.dest) := .of_mark (.flag mem)
  refine ⟨(marked.trans grows).trans last, ?_, ?_⟩
  · intro dest hdest
    rcases List.mem_cons.1 hdest with rfl | hdest
    · exact Mapping.mem_keys_insert.2 (.inl rfl)
    · apply (grows.trans last).keeps
      rw [hopens]
      refine Mapping.mem_keys_insertAll.2 (.inr ?_)
      rw [List.map_map, List.map_map]
      exact hdest
  · intro a ha
    exact last.keeps _ (present a ha)

theorem Step.grows (step : p.Step n.flags x y) :
    x.state.Grows (p.Writes n x) y.state := by
  cases step with
  | @ending _ _ s _ _ _ _ _ _ =>
    have entered : s.Entered s.advance [] := rfl
    exact .of_entered entered (List.forall_mem_nil _)
  | @flag active args s t token c rest next flagged ends ok =>
    obtain ⟨f, marks, inline, u, v, spelled, -⟩ := flag_eq_ok ok
    have meets : p.Meets n.flags ⟨active, args, s⟩ token c rest ⟨f, marks⟩ :=
      ⟨next, flagged, ends, spelled⟩
    exact (meets.grows ok).1
  | argument next plain ok =>
    refine (argument_grows ?_ ok).1
    intro v count events converts
    exact .value (.positional next plain) converts

theorem Steps.grows (steps : p.Steps n.flags x y) :
    x.state.Grows (fun key v => ∃ z, p.Steps n.flags x z ∧ p.Writes n z key v) y.state := by
  induction steps with
  | refl => exact .refl _
  | @tail y z steps step ih =>
    apply ih.trans
    apply step.grows.mono
    intro key v writes
    exact ⟨y, steps, writes⟩

/-! ## What is written on the accepted path -/

/-- A value that may be written under a key at a stage on the accepted path. -/
def Written (p : Parser) (active : Bool) (s : State) (n : Schema Value) (key : String)
    (v : Value) : Prop :=
  ∃ m x, p.Comes true active s n m x ∧ p.Writes m x key v

/-- What the levels of a command write makes its result grow. -/
theorem command_grows (ok : p.command active s n = .ok t) :
    s.Grows (p.Written active s n) t := by
  induction n using Schema.induction generalizing active s t with
  | step n ih =>
    have here : ∀ {y}, p.Steps n.flags ⟨active, n.args, s⟩ y →
        s.Grows (p.Written active s n) y.state := by
      intro y steps
      apply steps.grows.mono
      rintro key v ⟨z, before, writes⟩
      exact ⟨n, z, .level before, writes⟩
    have marked : ∀ w : State, w.Grows (p.Written active s n) (w.mark n.dest) := by
      intro w
      exact .of_mark ⟨n, _, .level .refl, .command⟩
    obtain ⟨x, u, steps, next, hdefaults, rfl⟩ |
      ⟨token, active', r, sub, v, u, w, word, enters, hsub, handed, rfl⟩ := command_ends ok
    · obtain ⟨entered, optional⟩ := defaults_wrote hdefaults
      have fallsBack : x.state.Grows (p.Written active s n) u := by
        apply State.Grows.of_entered entered
        intro e mem
        rw [List.map_map] at mem
        obtain ⟨a, ha, rfl⟩ := List.mem_map.1 mem
        have owns : n.Owns none a := steps.args_suffix.subset ha
        exact ⟨n, x, .level steps, .default owns (optional a ha)⟩
      exact ((here steps).trans fallsBack).trans (marked u)
    · obtain ⟨y, steps, stops⟩ := level_eq_iff.1 word
      cases stops
      have below : v.Grows (p.Written active s n) u := by
        apply (ih sub enters.mem hsub).mono
        rintro key v ⟨m, x, comes, writes⟩
        exact ⟨m, x, .down word enters comes, writes⟩
      exact ((here steps).trans (State.Grows.of_handsOver handed below).1).trans (marked w)

/-- A key that the result has at a stage on the accepted path it has at the end. -/
theorem Comes.keeps (comes : p.Comes true active s n m x) (ok : p.command active s n = .ok t) :
    ∀ key ∈ x.state.result.keys, key ∈ t.result.keys := by
  induction comes generalizing t with
  | level steps =>
    rw [steps.command_eq] at ok
    exact (command_grows ok).keeps
  | down word enters _ ih =>
    obtain ⟨u, w, hsub, handed, rfl⟩ := enters.handsOver word ok
    intro key mem
    have there := (State.Grows.of_handsOver handed (command_grows hsub)).2 key (ih hsub key mem)
    exact Mapping.mem_keys_insert.2 (.inr there)

end Parser

end CommandGrammar
