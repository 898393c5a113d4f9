import CommandGrammar.Proofs.Parse.Growth
import CommandGrammar.Proofs.Schema.Built
import CommandGrammar.Proofs.Schema.Holders

/-!
# The presence of flags

A token marks all flags that it spells as present, and the last one of them takes its arguments.
Where all keys are distinct, nothing else is found under the keys of either (`flag_binds`). A flag
in front of the last one gets no arguments by that token (`packed_flag_unbound`).
-/

namespace CommandGrammar

namespace Parser

variable {p : Parser} {active : Bool} {s t : State} {schema n m : Schema Value} {x : Stage}
  {token : Token} {c : Char} {rest : List Char} {met : Spelled}

/-- Flags that are met on the accepted path are taken. -/
theorem Meets.taken (meets : p.Meets m.flags x token c rest met)
    (comes : p.Comes true active s n m x) (ok : p.command active s n = .ok t) :
    ∃ u, p.flag m.flags token c rest x.state = .ok u := by
  cases hflag : p.flag m.flags token c rest x.state with
  | ok u => exact ⟨u, rfl⟩
  | halt h u =>
    have stops : p.Stops m.flags m.subcommands.isEmpty x (.halt h u) :=
      .flag meets.next meets.flagged meets.ends hflag
    obtain ⟨w, halted⟩ := comes.halts stops.level_eq
    cases ok.symm.trans halted

/-- Where the value of an argument comes from: it is converted from the tokens that are left where
the argument is resolved on the accepted path, or it is the default of an optional argument. -/
inductive Filled (p : Parser) (active : Bool) (s : State) (n : Schema Value) (a : Argument Value) :
    Value → Prop
  | converted {m : Schema Value} {x : Stage} {role : Role} {u : State} {v : Value} {count : Nat}
      {events : List Event} (comes : p.Comes true active s n m x)
      (resolves : p.Resolves m.flags x a role u)
      (converts : p.Converts a u.left v count events) : Filled p active s n a v
  | default (optional : a.required = false) : Filled p active s n a a.default

/-- What is written on the accepted path is what fills an argument, or it marks something else
that has a key. -/
theorem Written.source {key : String} {v : Value} (written : p.Written active s n key v) :
    (∃ a, .argument a ∈ n.holders ∧ a.dest = key ∧ p.Filled active s n a v) ∨
      v = .bool true ∧ ∃ h ∈ n.holders, h.dest = key ∧ ∀ a, h ≠ .argument a := by
  obtain ⟨m, x, comes, writes⟩ := written
  cases writes with
  | @value a _ _ _ _ _ resolves converts =>
    obtain ⟨owner, owns⟩ := resolves.owns comes.args_suffix
    exact .inl ⟨a, comes.reaches.argument owns, rfl, .converted comes resolves converts⟩
  | @default _ a owns optional =>
    exact .inl ⟨a, comes.reaches.argument owns, rfl, .default optional⟩
  | flag mem => exact .inr ⟨rfl, _, comes.reaches.flag mem, rfl, fun _ => Holder.noConfusion⟩
  | command => exact .inr ⟨rfl, _, comes.reaches.command, rfl, fun _ => Holder.noConfusion⟩

/-- Where all keys are distinct, only what fills an argument is written under its key. -/
theorem Written.filled {a : Argument Value} {v : Value} (distinct : n.Distinct)
    (mem : .argument a ∈ n.holders) (written : p.Written active s n a.dest v) :
    p.Filled active s n a v := by
  obtain ⟨b, hb, same, filled⟩ | ⟨-, h, hh, same, other⟩ := written.source
  · cases distinct.eq_of_dest hb mem same
    exact filled
  · exact absurd (distinct.eq_of_dest hh mem same) (other a)

/-- Where all keys are distinct, only a mark is written under the key of a flag. -/
theorem Written.marked {f : Flag Value} {v : Value} (distinct : n.Distinct)
    (mem : .flag f ∈ n.holders) (written : p.Written active s n f.dest v) : v = .bool true := by
  obtain ⟨b, hb, same, -⟩ | ⟨mark, -⟩ := written.source
  · cases distinct.eq_of_dest hb mem same
  · exact mark

/-- In a result over distinct keys, the flags that a token spells on the accepted path are marked,
and each argument of the last one has a value: one that is converted from tokens, unless the
argument is optional and has its default. -/
theorem flag_binds {start : Nat} {result : Mapping Value} (distinct : schema.Distinct)
    (ok : (p.parse schema start).result = .ok result)
    (comes : p.Comes true p.options.parseFlags (p.initial start) schema n x)
    (meets : p.Meets n.flags x token c rest met) :
    (∀ dest ∈ met.flag.dest :: met.marks, result.get? dest = some (.bool true)) ∧
      ∀ a ∈ met.flag.args, ∃ v, result.get? a.dest = some v ∧
        p.Filled p.options.parseFlags (p.initial start) schema a v := by
  obtain ⟨t, hcommand, rfl, -⟩ := parse_eq_ok ok
  obtain ⟨u, hflag⟩ := meets.taken comes hcommand
  obtain ⟨-, marks, arguments⟩ := meets.grows hflag
  have step : p.Step n.flags x ⟨x.active, x.args, u⟩ :=
    .flag meets.next meets.flagged meets.ends hflag
  have keeps : ∀ key ∈ u.result.keys, key ∈ t.result.keys :=
    (comes.steps (.single step)).keeps hcommand
  -- The result is empty where the parse begins, so whatever it has at the end was written.
  have written : ∀ key v, t.result.get? key = some v →
      p.Written p.options.parseFlags (p.initial start) schema key v := by
    intro key v found
    rcases (command_grows hcommand).adds key v found with before | written
    · cases before
    · exact written
  obtain ⟨mem, gs, hmarks, hgs⟩ := spelled_eq_ok meets.spelled
  constructor
  · intro dest hdest
    obtain ⟨v, found⟩ := Mapping.exists_get?_of_mem (keeps _ (marks dest hdest))
    obtain ⟨f, hf, rfl⟩ : ∃ f ∈ n.flags, f.dest = dest := by
      rcases List.mem_cons.1 hdest with rfl | hdest
      · exact ⟨met.flag, mem, rfl⟩
      · rw [hmarks] at hdest
        obtain ⟨g, hg, rfl⟩ := List.mem_map.1 hdest
        exact ⟨g, hgs hg, rfl⟩
    have hv := (written _ _ found).marked distinct (comes.reaches.flag hf)
    rw [found, hv]
  · intro a ha
    obtain ⟨v, found⟩ := Mapping.exists_get?_of_mem (keeps _ (arguments a ha))
    have owns : n.Owns (some met.flag) a := ⟨mem, ha⟩
    exact ⟨v, found, (written _ _ found).filled distinct (comes.reaches.argument owns)⟩

/-- A command with two flags, of which the first one has an argument. -/
def switches : Schema Value where
  name := some "tool"
  dest := "tool"
  aliases := []
  help := none
  args := []
  flags := [⟨"A", none, some 'a', none, [.ofType "x" "string" true]⟩,
    ⟨"B", none, some 'b', none, []⟩]
  subcommands := []

theorem switches_distinct : switches.Distinct := by decide

theorem switches_built : switches.Built := by
  have made : Schema.make (.str "tool") .unset (.list []) .unset
      (.ok ⟨[], switches.flags, []⟩) = .ok switches := rfl
  exact .make (List.forall_mem_nil _) made

theorem flag_binds_switches : ∃ result v,
    ((forLine "-ba low").parse switches 0).result = .ok result ∧
      result.get? "A" = some (.bool true) ∧ result.get? "B" = some (.bool true) ∧
      result.get? "x" = some v ∧
      (forLine "-ba low").Filled true ((forLine "-ba low").initial 0) switches
        (.ofType "x" "string" true) v := by
  obtain ⟨result, ok, -⟩ : ∃ result, ((forLine "-ba low").parse switches 0).result = .ok result ∧
      result.keys = ["B", "A", "x", "tool"] := Report.exists_ok (by decide +kernel)
  have meets : (forLine "-ba low").Meets switches.flags
      ⟨true, [], (forLine "-ba low").initial 0⟩ ⟨"-ba", 0, 3, false⟩ 'b' ['a']
      ⟨switches.flags.head (List.cons_ne_nil _ _), ["B", "A"]⟩ := ⟨rfl, rfl, rfl, rfl⟩
  obtain ⟨marks, arguments⟩ := flag_binds switches_distinct ok (.level .refl) meets
  obtain ⟨v, found, filled⟩ := arguments (.ofType "x" "string" true) List.mem_cons_self
  exact ⟨result, v, ok, marks "A" (by decide), marks "B" (by decide), found, filled⟩

/-- A flag that is packed in front of another one gets no value for its argument. -/
theorem packed_flag_unbound : ∃ (x : Stage) (met : Spelled) (f : Flag Value) (a : Argument Value)
    (result : Mapping Value),
    switches.Built ∧ switches.Distinct ∧
    ((forLine "-ab").parse switches 0).result = .ok result ∧
    (forLine "-ab").Comes true true ((forLine "-ab").initial 0) switches switches x ∧
    (forLine "-ab").Meets switches.flags x ⟨"-ab", 0, 3, false⟩ 'a' ['b'] met ∧
    f ∈ switches.flags ∧ f.dest ∈ met.marks ∧ result.get? f.dest = some (.bool true) ∧
    a ∈ f.args ∧ a.required = true ∧ a.dest ∉ result.keys := by
  have unbound : ((forLine "-ab").parse switches 0).keys? = some ["A", "B", "tool"] := by
    decide +kernel
  obtain ⟨result, ok, found⟩ : ∃ result, ((forLine "-ab").parse switches 0).result = .ok result ∧
      result.get? "A" = some (.bool true) :=
    Report.exists_ok_of_scalar (.bool true) (by decide +kernel)
  obtain ⟨_, ok', keys⟩ := Report.exists_ok unbound
  cases ok.symm.trans ok'
  have meets : (forLine "-ab").Meets switches.flags ⟨true, [], (forLine "-ab").initial 0⟩
      ⟨"-ab", 0, 3, false⟩ 'a' ['b'] ⟨⟨"B", none, some 'b', none, []⟩, ["A", "B"]⟩ :=
    ⟨rfl, rfl, rfl, rfl⟩
  refine ⟨_, _, switches.flags.head (List.cons_ne_nil _ _), .ofType "x" "string" true, result,
    switches_built, switches_distinct, ok, .level .refl, meets, List.mem_cons_self,
    List.mem_cons_self, found, List.mem_cons_self, rfl, ?_⟩
  rw [keys]
  decide

end Parser

end CommandGrammar
