import CommandGrammar.Proofs.Parse.Packing
import CommandGrammar.Proofs.Schema.Holders

/-!
# Schemas that grow

A line that a schema takes is taken by the schema with more in it. What was looked up is still found
where something with new codes or new words stands beside it, and where the line has ended nothing
is left for one more optional argument, which takes its default. So flags, named sub-commands and
optional arguments can be added without breaking lines that were written before
(`extension_compatible`).
-/

namespace CommandGrammar

namespace Schema

/-- A flag with new codes or a named sub-command with new words is added. -/
inductive Gains : Schema Value → Schema Value → Prop
  | flag {n : Schema Value} {before after : List (Flag Value)} {f : Flag Value}
      (flags : n.flags = before ++ after)
      (fresh : ∀ code ∈ f.codes, code ∉ n.flags.flatMap Flag.codes) :
      Gains n { n with flags := before ++ f :: after }
  | subcommand {n sub : Schema Value} {before after : List (Schema Value)}
      (subs : n.subcommands = before ++ after) (named : sub.named = true)
      (fresh : ∀ word ∈ sub.words, word ∉ n.subcommands.flatMap words) :
      Gains n { n with subcommands := before ++ sub :: after }

/-- An argument is added behind those of a schema without sub-commands. -/
inductive Lengthens (a : Argument Value) : Schema Value → Schema Value → Prop
  | argument {n : Schema Value} (leaf : n.subcommands = []) :
      Lengthens a n { n with args := n.args ++ [a] }

/-- The schema at a place of the tree is changed. The place is given by how many sub-commands stand
before the one to go down to, from level to level. -/
inductive Altered (change : Schema Value → Schema Value → Prop) :
    List Nat → Schema Value → Schema Value → Prop
  | here {n n' : Schema Value} (changed : change n n') : Altered change [] n n'
  | deeper {i : Nat} {place : List Nat} {n sub sub' : Schema Value}
      {before after : List (Schema Value)} (subs : n.subcommands = before ++ sub :: after)
      (index : before.length = i) (altered : Altered change place sub sub') :
      Altered change (i :: place) n { n with subcommands := before ++ sub' :: after }

/-- A change that leaves the key of a schema and the words that select it. -/
def Quiet (change : Schema Value → Schema Value → Prop) : Prop :=
  ∀ n n', change n n' → n'.dest = n.dest ∧ n'.words = n.words

theorem quiet_gains : Quiet Gains := by
  intro n n' gains
  cases gains <;> exact ⟨rfl, rfl⟩

theorem quiet_lengthens (a : Argument Value) : Quiet (Lengthens a) := by
  intro n n' lengthens
  cases lengthens
  exact ⟨rfl, rfl⟩

theorem Quiet.altered {change : Schema Value → Schema Value → Prop} (quiet : Quiet change)
    (place : List Nat) : Quiet (Altered change place) := by
  intro n n' altered
  cases altered with
  | here changed => exact quiet n n' changed
  | deeper subs index altered => exact ⟨rfl, rfl⟩

end Schema

/-! ## Lookups beside something new -/

theorem find?_beside {α : Type} {test : α → Bool} {before after : List α} {x : α}
    (skipped : test x = false) :
    (before ++ x :: after).find? test = (before ++ after).find? test := by
  simp [List.find?_append, skipped]

/-- With something else in place of an element, the same is found, or the one in place of it. -/
theorem find?_replaced {α : Type} {test : α → Bool} {before after : List α} {x y found : α}
    (same : test y = test x) (finds : (before ++ x :: after).find? test = some found) :
    ((∀ z ∈ before, test z = false) ∧ test x = true ∧ found = x ∧
        (before ++ y :: after).find? test = some y) ∨
      ¬ ((∀ z ∈ before, test z = false) ∧ test x = true) ∧
        (before ++ y :: after).find? test = some found := by
  rw [List.find?_append] at finds ⊢
  cases first : before.find? test with
  | some z =>
    rw [first] at finds
    have mem := List.mem_of_find?_eq_some first
    have passes := List.find?_some first
    refine .inr ⟨fun skipped => ?_, finds⟩
    exact absurd (passes.symm.trans (skipped.1 z mem)) Bool.noConfusion
  | none =>
    rw [first, Option.none_or, List.find?_cons] at finds
    rw [Option.none_or, List.find?_cons, same]
    have skipped : ∀ z ∈ before, test z = false :=
      fun z mem => eq_false_of_ne_true (List.find?_eq_none.1 first z mem)
    cases passes : test x with
    | true =>
      rw [passes] at finds
      cases finds
      exact .inl ⟨skipped, rfl, rfl, rfl⟩
    | false =>
      rw [passes] at finds
      exact .inr ⟨fun both => Bool.noConfusion both.2, finds⟩

section Beside

variable {flags before after : List (Flag Value)} {f g : Flag Value} {c : Char} {name : List Char}

theorem longFlag?_beside (split : flags = before ++ after)
    (fresh : ∀ code ∈ f.codes, code ∉ flags.flatMap Flag.codes)
    (found : longFlag? flags name = some g) :
    longFlag? (before ++ f :: after) name = some g := by
  have mem := List.mem_of_find?_eq_some found
  have coded := List.find?_some found
  rw [longFlag?, find?_beside, ← split]
  · exact found
  · apply eq_false_of_ne_true
    intro same
    exact fresh _ (Flag.mem_codes_of_long (of_decide_eq_true same))
      (List.mem_flatMap.2 ⟨g, mem, Flag.mem_codes_of_long (of_decide_eq_true coded)⟩)

theorem shortFlag?_beside (split : flags = before ++ after)
    (fresh : ∀ code ∈ f.codes, code ∉ flags.flatMap Flag.codes)
    (found : shortFlag? flags c = some g) : shortFlag? (before ++ f :: after) c = some g := by
  obtain ⟨mem, coded⟩ := shortFlag?_eq_some found
  rw [shortFlag?, find?_beside, ← split]
  · exact found
  · apply eq_false_of_ne_true
    intro same
    exact fresh _ (Flag.mem_codes_of_short (of_decide_eq_true same))
      (List.mem_flatMap.2 ⟨g, mem, Flag.mem_codes_of_short coded⟩)

end Beside

namespace Parser

variable {p : Parser} {flags flags' : List (Flag Value)} {token : Token} {c : Char}
  {rest : List Char} {met : Spelled} {n n' m : Schema Value} {active : Bool} {s t : State}
  {place : List Nat} {a : Argument Value} {x y : Stage}

/-! ## Flags that are still found -/

/-- All flags that can be looked up in one list are found in another one. -/
structure Finds (flags flags' : List (Flag Value)) : Prop where
  long {name : List Char} {f : Flag Value} :
    longFlag? flags name = some f → longFlag? flags' name = some f
  short {c : Char} {f : Flag Value} : shortFlag? flags c = some f → shortFlag? flags' c = some f

theorem Finds.packed (finds : Finds flags flags') {equals : Bool} {last : Flag Value}
    {marks : List String} {offset : Nat}
    (ok : packed flags equals last marks offset rest = .ok met) :
    packed flags' equals last marks offset rest = .ok met := by
  induction rest generalizing last marks offset with
  | nil => exact ok
  | cons c rest ih =>
    rw [CommandGrammar.packed] at ok ⊢
    split at ok
    · rename_i ends
      rw [if_pos ends]
      exact ok
    · rename_i ends
      rw [if_neg ends]
      cases found : shortFlag? flags c with
      | none =>
        rw [found] at ok
        cases ok
      | some f =>
        rw [found] at ok
        rw [finds.short found]
        exact ih ok

theorem Finds.shortCodes (finds : Finds flags flags') {equals : Bool}
    (ok : shortCodes flags equals c rest = .ok met) :
    shortCodes flags' equals c rest = .ok met := by
  rw [CommandGrammar.shortCodes] at ok ⊢
  cases found : shortFlag? flags c with
  | none =>
    rw [found] at ok
    cases ok
  | some f =>
    rw [found] at ok
    rw [finds.short found]
    exact finds.packed ok

/-- A token that spells flags spells them where they are still found, unless a long code could be
read behind one dash. -/
theorem Finds.spelled (finds : Finds flags flags') (java : p.options.javaFlags = false)
    (ok : p.spelled flags token c rest = .ok met) :
    p.spelled flags' token c rest = .ok met := by
  by_cases double : c = '-'
  · have long : (Spelling.ofChars c rest).long = true := by rw [Spelling.ofChars, if_pos double]
    rw [Parser.spelled, long] at ok ⊢
    cases found : longFlag? flags (Spelling.ofChars c rest).name with
    | none =>
      rw [found] at ok
      cases ok
    | some f =>
      rw [found] at ok
      rw [finds.long found]
      exact ok
  · rw [spelled_short java double] at ok ⊢
    cases walked : CommandGrammar.shortCodes flags p.options.equalsInShortFlags c rest with
    | error e =>
      rw [walked] at ok
      cases ok
    | ok short =>
      rw [walked] at ok
      rw [finds.shortCodes walked]
      exact ok

theorem Finds.flag (finds : Finds flags flags') (java : p.options.javaFlags = false)
    (ok : p.flag flags token c rest s = .ok t) : p.flag flags' token c rest s = .ok t := by
  rw [Parser.flag] at ok ⊢
  cases spells : p.spelled flags token c rest with
  | error h =>
    rw [spells] at ok
    cases ok
  | ok met =>
    rw [spells] at ok
    rw [finds.spelled java spells]
    exact ok

/-- Steps can be taken with more arguments to come. -/
def Stage.behind (args : List (Argument Value)) (x : Stage) : Stage :=
  { x with args := x.args ++ args }

/-- The steps of a level can be taken where its flags are still found and more arguments come behind
its own. -/
theorem Finds.steps (finds : Finds flags flags') (java : p.options.javaFlags = false)
    (args : List (Argument Value)) (steps : p.Steps flags x y) :
    p.Steps flags' (x.behind args) (y.behind args) := by
  induction steps with
  | refl => exact .refl
  | tail _ step ih =>
    refine ih.tail ?_
    cases step with
    | ending next flagged ends => exact .ending next flagged ends
    | flag next flagged ends ok => exact .flag next flagged ends (finds.flag java ok)
    | argument next plain ok => exact .argument next plain ok

/-! ## Commands that succeed -/

/-- How a command succeeds whose sub-commands all have names: its level ends with the line, or a
word is left and selects a sub-command, which succeeds. -/
inductive Completes (p : Parser) (active : Bool) (s : State) (n : Schema Value) : State → Prop
  | finished {x : Stage} {u : State} (steps : p.Steps n.flags ⟨active, n.args, s⟩ x)
      (next : x.state.next? = none) (filled : p.defaults x.args x.state = .ok u) :
      Completes p active s n (u.mark n.dest)
  | handed {active' : Bool} {r u : State} {token : Token} {sub : Schema Value}
      (steps : p.Steps n.flags ⟨active, n.args, s⟩ ⟨active', [], r⟩)
      (next : r.next? = some token) (plain : spells active' token = none)
      (selects : n.selected? token.text = some sub)
      (ok : p.command active' (r.report [.subcommandMatched n.dest sub.dest token.text]).advance
        sub = .ok u) : Completes p active s n (u.mark n.dest)

theorem level_of_word {active' : Bool} {r : State} {sub : Schema Value}
    (steps : p.Steps n.flags ⟨active, n.args, s⟩ ⟨active', [], r⟩) (next : r.next? = some token)
    (plain : spells active' token = none) (mem : sub ∈ n.subcommands) :
    p.level n.flags n.subcommands.isEmpty active n.args s = .word token active' r :=
  level_eq_iff.2
    ⟨_, steps, .word next plain (List.isEmpty_eq_false_iff.2 (List.ne_nil_of_mem mem))⟩

theorem level_of_finished (steps : p.Steps n.flags ⟨active, n.args, s⟩ x)
    (next : x.state.next? = none) :
    p.level n.flags n.subcommands.isEmpty active n.args s = .finished x.args x.state :=
  level_eq_iff.2 ⟨x, steps, .finished next⟩

theorem Completes.command_eq (completes : p.Completes active s n t) :
    p.command active s n = .ok t := by
  cases completes with
  | finished steps next filled =>
    rw [Parser.command_eq, level_of_finished steps next]
    dsimp only
    rw [filled]
    rfl
  | handed steps next plain selects ok =>
    rw [Parser.command_eq, level_of_word steps next plain (Schema.selected?_eq_some selects).1]
    dsimp only
    rw [selects]
    dsimp only
    rw [ok]
    rfl

theorem completes_of_ok (named : ∀ sub ∈ n.subcommands, sub.named = true)
    (ok : p.command active s n = .ok t) : p.Completes active s n t := by
  obtain ⟨x, u, steps, next, filled, rfl⟩ |
    ⟨token, active', r, sub, v, u, w, word, enters, below, handed, rfl⟩ := command_ends ok
  · exact .finished steps next filled
  · obtain ⟨x, steps, stops⟩ := level_eq_iff.1 word
    cases stops with
    | word next plain inner =>
      cases handed with
      | named selects => exact .handed steps next plain selects below
      | unnamed _ unnamed =>
        exact absurd ((named sub enters.mem).symm.trans unnamed) Bool.noConfusion

/-! ## A schema that gains something -/

theorem Finds.refl (flags : List (Flag Value)) : Finds flags flags := ⟨id, id⟩

theorem Finds.steps_same {args : List (Argument Value)} (finds : Finds flags flags')
    (java : p.options.javaFlags = false) (steps : p.Steps flags ⟨active, args, s⟩ x) :
    p.Steps flags' ⟨active, args, s⟩ x := by
  have same : ∀ x : Stage, x.behind [] = x := by
    intro x
    rw [Stage.behind, List.append_nil]
  have steps := finds.steps java [] steps
  rwa [same, same] at steps

/-- With a new flag or a new sub-command, a command that succeeded does the same. -/
theorem command_of_gains (gains : n.Gains n') (java : p.options.javaFlags = false)
    (completes : p.Completes active s n t) : p.Completes active s n' t := by
  cases gains with
  | flag flags fresh =>
    have finds : Finds n.flags _ := ⟨longFlag?_beside flags fresh, shortFlag?_beside flags fresh⟩
    cases completes with
    | finished steps next filled => exact .finished (finds.steps_same java steps) next filled
    | handed steps next plain selects ok =>
      exact .handed (finds.steps_same java steps) next plain selects ok
  | subcommand subs named fresh =>
    cases completes with
    | finished steps next filled => exact .finished steps next filled
    | @handed active' r u token k steps next plain selects ok =>
      refine .handed steps next plain ?_ ok
      obtain ⟨mem, selected⟩ := Schema.selected?_eq_some selects
      rw [Schema.selected?, find?_beside, ← subs]
      · exact selects
      · apply eq_false_of_ne_true
        intro same
        exact fresh token.text (List.contains_iff_mem.1 same)
          (List.mem_flatMap.2 ⟨k, mem, List.contains_iff_mem.1 selected⟩)

/-- One more argument gets its default after all others. -/
theorem defaults_append {args : List (Argument Value)} (optional : a.required = false)
    (filled : p.defaults args s = .ok t) :
    p.defaults (args ++ [a]) s = .ok (t.write a.dest a.default) := by
  induction args generalizing s with
  | nil =>
    cases filled
    simp [defaults, optional]
  | cons b args ih =>
    rw [List.cons_append, defaults]
    rw [defaults] at filled
    split at filled
    · cases filled
    · rename_i spared
      rw [if_neg spared]
      exact ih filled

/-- The second state has the default of an argument in its result, and all else as the first. -/
structure Defaulted (a : Argument Value) (s t : State) : Prop where
  others {key : String} : key ≠ a.dest → t.result.get? key = s.result.get? key
  default : t.result.get? a.dest = some a.default

theorem defaulted_write (a : Argument Value) (s : State) :
    Defaulted a s (s.write a.dest a.default) := by
  constructor
  · intro key other
    simp [State.write, other]
  · simp [State.write]

theorem Defaulted.mark {dest : String} (defaulted : Defaulted a s t) (other : dest ≠ a.dest) :
    Defaulted a (s.mark dest) (t.mark dest) := by
  constructor
  · intro key different
    simp [State.mark, State.write, defaulted.others different]
  · simp [State.mark, State.write, other.symm, defaulted.default]

/-- With an optional argument at its end, a command without sub-commands that succeeded writes the
default of the argument as well. -/
theorem command_of_lengthens (lengthens : n.Lengthens a n') (java : p.options.javaFlags = false)
    (optional : a.required = false) (other : n.dest ≠ a.dest)
    (completes : p.Completes active s n t) :
    ∃ t', p.Completes active s n' t' ∧ Defaulted a t t' := by
  cases lengthens with
  | argument leaf =>
    cases completes with
    | @finished x u steps next filled =>
      have further := (Finds.refl n.flags).steps java [a] steps
      exact ⟨_, .finished further next (defaults_append optional filled),
        (defaulted_write a u).mark other⟩
    | handed steps next plain selects ok =>
      have mem := (Schema.selected?_eq_some selects).1
      rw [leaf] at mem
      exact absurd mem List.not_mem_nil

/-! ## Changes below -/

/-- A parse goes down to the schema at a place: from level to level a word is left, and the first
sub-command that it selects is the one to go down to. -/
inductive Passes (p : Parser) : Bool → State → Schema Value → List Nat → Prop
  | here {active : Bool} {s : State} {n : Schema Value} : Passes p active s n []
  | deeper {active active' : Bool} {s r : State} {n sub : Schema Value} {token : Token} {i : Nat}
      {place : List Nat} {before after : List (Schema Value)}
      (word : p.level n.flags n.subcommands.isEmpty active n.args s = .word token active' r)
      (subs : n.subcommands = before ++ sub :: after) (index : before.length = i)
      (skipped : ∀ other ∈ before, other.matches token.text = false)
      (selects : sub.matches token.text = true)
      (passes : Passes p active'
        (r.report [.subcommandMatched n.dest sub.dest token.text]).advance sub place) :
      Passes p active s n (i :: place)

theorem Passes.further {active' : Bool} {r : State} {sub : Schema Value} {i : Nat}
    {before after : List (Schema Value)} (passes : p.Passes active s n (i :: place))
    (word : p.level n.flags n.subcommands.isEmpty active n.args s = .word token active' r)
    (subs : n.subcommands = before ++ sub :: after) (index : before.length = i) :
    (∀ other ∈ before, other.matches token.text = false) ∧ sub.matches token.text = true ∧
      p.Passes active' (r.report [.subcommandMatched n.dest sub.dest token.text]).advance sub
        place := by
  cases passes with
  | deeper word' subs' index' skipped selects passes =>
    cases word.symm.trans word'
    obtain ⟨rfl, rest⟩ := List.append_inj (subs.symm.trans subs') (index.trans index'.symm)
    obtain ⟨rfl, rfl⟩ := List.cons.inj rest
    exact ⟨skipped, selects, passes⟩

/-- What a change at one place makes of a command that succeeds. It is related to what it was before
if the parse goes down to the place, and otherwise it is the same. -/
theorem command_of_altered {change : Schema Value → Schema Value → Prop} {R : State → State → Prop}
    (altered : Schema.Altered change place n n')
    (quiet : Schema.Quiet change)
    (named : ∀ k, n.Reaches k → ∀ sub ∈ k.subcommands, sub.named = true)
    (changes : ∀ k k', n.Reaches k → change k k' → ∀ active s t, p.Completes active s k t →
      ∃ t', p.Completes active s k' t' ∧ R t t')
    (marks : ∀ k, n.Reaches k → ∀ t t', R t t' → R (t.mark k.dest) (t'.mark k.dest))
    (completes : p.Completes active s n t) :
    ∃ t', p.Completes active s n' t' ∧ (p.Passes active s n place → R t t') ∧
      (¬ p.Passes active s n place → t' = t) := by
  induction altered generalizing active s t with
  | here changed =>
    obtain ⟨t', completes', related⟩ := changes _ _ (.refl _) changed active s t completes
    exact ⟨t', completes', fun _ => related, fun none => absurd .here none⟩
  | @deeper i place n sub sub' before after subs index altered ih =>
    have mem : sub ∈ n.subcommands := subs ▸ List.mem_append_right _ List.mem_cons_self
    cases completes with
    | finished steps next filled =>
      refine ⟨_, .finished steps next filled, fun passes => ?_, fun _ => rfl⟩
      cases passes with
      | deeper word =>
        cases word.symm.trans (level_of_finished steps next)
    | @handed active' r u token k steps next plain selects ok =>
      have word := level_of_word steps next plain mem
      obtain ⟨dest, words⟩ := quiet.altered place sub sub' altered
      have same : sub'.matches token.text = sub.matches token.text := by
        rw [Schema.matches, Schema.matches, words]
      rw [Schema.selected?, subs] at selects
      rcases find?_replaced same selects with ⟨skipped, chosen, rfl, found⟩ | ⟨other, found⟩
      · -- The word selects the sub-command below which something is changed.
        have below := completes_of_ok (named k (.down mem (.refl k))) ok
        obtain ⟨u', completes, related, same⟩ :=
          ih (fun m reaches => named m (.down mem reaches))
            (fun m m' reaches => changes m m' (.down mem reaches))
            (fun m reaches => marks m (.down mem reaches)) below
        have ends : p.Completes active s { n with subcommands := before ++ sub' :: after }
            (u'.mark n.dest) := .handed steps next plain found (dest ▸ completes.command_eq)
        refine ⟨_, ends, fun passes => ?_, fun none => ?_⟩
        · exact marks n (.refl n) u u' (related (passes.further word subs index).2.2)
        · rw [same fun passes => none (.deeper word subs index skipped chosen passes)]
      · have ends : p.Completes active s { n with subcommands := before ++ sub' :: after }
            (u.mark n.dest) := .handed steps next plain found ok
        refine ⟨_, ends, fun passes => ?_, fun _ => rfl⟩
        obtain ⟨skipped, chosen, -⟩ := passes.further word subs index
        exact absurd ⟨skipped, chosen⟩ other

/-- Schemas can be extended without breaking lines that were taken before. Where all sub-commands
have names and long codes stand behind two dashes only, a line that a schema takes is taken by the
schema with a flag or a named sub-command added anywhere, if its codes or words are new beside those
that are there, and the results are the same. It is taken as well with an optional argument added at
the end of a schema without sub-commands, under a key that is new to the whole tree. Then the
results are the same if the parse does not get to that schema. If it does, they are the same under
all other keys, and the new key has the default. -/
theorem extension_compatible (p : Parser) {n : Schema Value} {start : Nat} {found : Mapping Value}
    (java : p.options.javaFlags = false)
    (named : ∀ k, n.Reaches k → ∀ sub ∈ k.subcommands, sub.named = true)
    (ok : (p.parse n start).result = .ok found) :
    (∀ place n', Schema.Altered Schema.Gains place n n' →
      (p.parse n' start).result = .ok found) ∧
    ∀ a place n', Schema.Altered (Schema.Lengthens a) place n n' → a.required = false →
      a.dest ∉ n.holders.map Holder.dest →
      ∃ found', (p.parse n' start).result = .ok found' ∧
        (p.Passes p.options.parseFlags (p.initial start) n place →
          (∀ key, key ≠ a.dest → found'.get? key = found.get? key) ∧
            found'.get? a.dest = some a.default) ∧
        (¬ p.Passes p.options.parseFlags (p.initial start) n place → found' = found) := by
  obtain ⟨t, command, rfl, -⟩ := parse_eq_ok ok
  have completes := completes_of_ok (named n (.refl n)) command
  constructor
  · intro place n' altered
    have gains : ∀ k k', n.Reaches k → k.Gains k' → ∀ active s t, p.Completes active s k t →
        ∃ t', p.Completes active s k' t' ∧ t' = t :=
      fun k k' _ gains active s t completes => ⟨t, command_of_gains gains java completes, rfl⟩
    obtain ⟨t', completes', same, same'⟩ := command_of_altered altered Schema.quiet_gains named
      gains (fun k _ t t' same => congrArg (State.mark · k.dest) same) completes
    have whole : t' = t := (Classical.em _).elim same same'
    rw [← whole]
    exact parse_of_ok completes'.command_eq
  · intro a place n' altered optional fresh
    have different : ∀ k, n.Reaches k → k.dest ≠ a.dest := by
      intro k reaches same
      exact fresh (List.mem_map.2 ⟨_, reaches.command, same⟩)
    obtain ⟨t', completes', defaulted, same⟩ := command_of_altered altered
      (Schema.quiet_lengthens a) named
      (fun k k' reaches lengthens active s t =>
        command_of_lengthens lengthens java optional (different k reaches))
      (fun k reaches t t' defaulted => defaulted.mark (different k reaches)) completes
    refine ⟨_, parse_of_ok completes'.command_eq, fun passes => ?_, fun none => ?_⟩
    · exact ⟨fun key other => (defaulted passes).others other, (defaulted passes).default⟩
    · exact congrArg State.result (same none)

/-- A command with one sub-command. -/
def shelf (sub : Schema Value) : Schema Value where
  name := some "shelf"
  dest := "shelf"
  aliases := []
  help := none
  args := []
  flags := []
  subcommands := [sub]

theorem altered_shelf {change : Schema Value → Schema Value → Prop} (changed : change n n') :
    Schema.Altered change [0] (shelf n) (shelf n') := by
  have subs : (shelf n).subcommands = [] ++ n :: [] := rfl
  exact .deeper subs rfl (.here changed)

theorem passes_shelf : (forLine "list -n=3 home").Passes true
    ((forLine "list -n=3 home").initial 0) (shelf listing) [0] := by
  have next : ((forLine "list -n=3 home").initial 0).next? = some ⟨"list", 0, 4, false⟩ := by
    decide +kernel
  have plain : spells true ⟨"list", 0, 4, false⟩ = none := by decide +kernel
  have subs : (shelf listing).subcommands = [] ++ listing :: [] := rfl
  exact .deeper (level_of_word .refl next plain List.mem_cons_self) subs rfl
    (List.forall_mem_nil _) (by decide) .here

/-- A flag added to the sub-command makes no difference, and one more argument has its default. -/
theorem extension_compatible_shelf : ∃ found found',
    ((forLine "list -n=3 home").parse (shelf listing) 0).result = .ok found ∧
    ((forLine "list -n=3 home").parse (shelf { listing with flags :=
      listing.flags ++ [⟨"reverse", some "reverse", some 'r', none, []⟩] }) 0).result = .ok found ∧
    ((forLine "list -n=3 home").parse (shelf { listing with args :=
      listing.args ++ [.ofType "pattern" "string" false] }) 0).result = .ok found' ∧
    found.keys = ["limit", "count", "folder", "list", "shelf"] ∧
    found'.get? "pattern" = some .null ∧
    ∀ key, key ≠ "pattern" → found'.get? key = found.get? key := by
  obtain ⟨found, ok, keys⟩ : ∃ found,
      ((forLine "list -n=3 home").parse (shelf listing) 0).result = .ok found ∧
        found.keys = ["limit", "count", "folder", "list", "shelf"] :=
    Report.exists_ok (by decide +kernel)
  have named : ∀ k, (shelf listing).Reaches k → ∀ sub ∈ k.subcommands, sub.named = true := by
    intro k reaches
    cases reaches with
    | refl => exact List.forall_mem_singleton.2 rfl
    | down mem reaches =>
      obtain rfl := List.mem_singleton.1 mem
      cases reaches with
      | refl => exact List.forall_mem_nil _
      | down mem _ => exact absurd mem List.not_mem_nil
  obtain ⟨gains, lengthens⟩ := extension_compatible (forLine "list -n=3 home") rfl named ok
  have flag : Schema.Gains listing { listing with flags :=
      listing.flags ++ [⟨"reverse", some "reverse", some 'r', none, []⟩] } :=
    .flag (List.append_nil _).symm (by decide)
  obtain ⟨found', ok', passed, -⟩ := lengthens (.ofType "pattern" "string" false) [0] _
    (altered_shelf (.argument rfl)) rfl (by decide)
  obtain ⟨others, default⟩ := passed passes_shelf
  exact ⟨found, found', ok, gains [0] _ (altered_shelf flag), ok', keys,
    default, others⟩

end Parser

end CommandGrammar
