import CommandGrammar.Proofs.Parse.Descent
import Mathlib.Data.List.Forall2

/-!
# Two parses side by side

A relation between the states of two parsers that single conversions and single flags keep is
kept by whole parses. `ArgumentSimulation` asks for it of conversions and gives it for the
arguments of a flag; `Simulation` asks for it of flags as well and gives it for levels and
commands: from related states, related schemas lead to related states or to related halts
(`Simulation.command`).
-/

namespace CommandGrammar

/-- Outcomes that are related: successes in related states, or related halts. -/
inductive Outcome.Rel (states : State → State → Prop) (halts : Halt → Halt → Prop) :
    Outcome → Outcome → Prop
  | ok {s t : State} (h : states s t) : Rel states halts (.ok s) (.ok t)
  | halt {f g : Halt} {s t : State} (h : halts f g) : Rel states halts (.halt f s) (.halt g t)

theorem Outcome.Rel.marked {states : State → State → Prop} {halts : Halt → Halt → Prop}
    {o o' : Outcome} (h : o.Rel states halts o') {key : String}
    (mark : ∀ {s t}, states s t → states (s.mark key) (t.mark key)) :
    (o.marked key).Rel states halts (o'.marked key) := by
  cases h with
  | ok h => exact .ok (mark h)
  | halt h => exact .halt h

theorem Outcome.Rel.of_ok {states : State → State → Prop} {halts : Halt → Halt → Prop}
    {s : State} {o : Outcome} (h : (Outcome.ok s).Rel states halts o) :
    ∃ t, o = .ok t ∧ states s t := by
  cases h with
  | ok h => exact ⟨_, rfl, h⟩

theorem Outcome.Rel.of_halt {states : State → State → Prop} {halts : Halt → Halt → Prop}
    {f : Halt} {s : State} {o : Outcome} (h : (Outcome.halt f s).Rel states halts o) :
    ∃ g t, o = .halt g t ∧ halts f g := by
  cases h with
  | halt h => exact ⟨_, _, rfl, h⟩

theorem Outcome.Rel.imp {states states' : State → State → Prop} {halts halts' : Halt → Halt → Prop}
    {o o' : Outcome} (h : o.Rel states halts o') (weaken : ∀ s t, states s t → states' s t)
    (weaken' : ∀ f g, halts f g → halts' f g) : o.Rel states' halts' o' := by
  cases h with
  | ok h => exact .ok (weaken _ _ h)
  | halt h => exact .halt (weaken' _ _ h)

theorem Outcome.Rel.trans {states states' states'' : State → State → Prop}
    {halts halts' halts'' : Halt → Halt → Prop} {o o' o'' : Outcome}
    (h : o.Rel states halts o') (h' : o'.Rel states' halts' o'')
    (join : ∀ s t u, states s t → states' t u → states'' s u)
    (join' : ∀ f g h, halts f g → halts' g h → halts'' f h) : o.Rel states'' halts'' o'' := by
  cases h with
  | ok h =>
    cases h' with
    | ok h' => exact .ok (join _ _ _ h h')
  | halt h =>
    cases h' with
    | halt h' => exact .halt (join' _ _ _ h h')

/-- Relations between two parsers that the conversion of an argument keeps. What was reported
makes no difference. -/
structure ArgumentSimulation (p q : Parser) where
  states : State → State → Prop
  halts : Halt → Halt → Prop
  arguments : Argument Value → Argument Value → Prop
  /-- Related states have a token left both or neither. -/
  left {s t : State} : states s t → (s.left = [] ↔ t.left = [])
  /-- Related halts are faults both or neither. -/
  crash {f g : Halt} : halts f g → ((∃ c, f = .crash c) ↔ ∃ c, g = .crash c)
  hearing {s t : State} (events others : List Event) :
    states s t → states (s.hearing events) (t.hearing others)
  argument {a b : Argument Value} {s t : State} : arguments a b → states s t → s.left ≠ [] →
    (p.argument a s).Rel states halts (q.argument b t)
  required {a b : Argument Value} : arguments a b → a.required = b.required
  default {a b : Argument Value} {s t : State} : arguments a b → states s t →
    states (s.write a.dest a.default) (t.write b.dest b.default)
  flagArgumentRequired : halts (.flagArgumentRequired p.source) (.flagArgumentRequired q.source)

namespace ArgumentSimulation

variable {p q : Parser} (S : ArgumentSimulation p q) {s t : State}

theorem fallBack {h h' : Halt} {args args' : List (Argument Value)}
    (hargs : args.Forall₂ S.arguments args') (hh : S.halts h h') (hs : S.states s t) :
    (Parser.fallBack h args s).Rel S.states S.halts (Parser.fallBack h' args' t) := by
  induction hargs generalizing s t with
  | nil => exact .ok hs
  | @cons a b rest rest' ha _ ih =>
    rw [Parser.fallBack, Parser.fallBack, S.required ha]
    cases b.required with
    | true => exact .halt hh
    | false => exact ih (S.default ha hs)

/-- The arguments of a flag keep the relations. -/
theorem flagArguments (inline : Bool) {args args' : List (Argument Value)}
    (hargs : args.Forall₂ S.arguments args') (hs : S.states s t) :
    (p.flagArguments inline args s).Rel S.states S.halts (q.flagArguments inline args' t) := by
  induction hargs generalizing s t inline with
  | nil => exact .ok hs
  | @cons a b rest rest' ha hrest ih =>
    have hargs : (a :: rest).Forall₂ S.arguments (b :: rest') := .cons ha hrest
    rw [Parser.flagArguments, Parser.flagArguments]
    by_cases hleft : s.left = []
    · rw [if_neg (fun h => State.index_lt_iff.1 h hleft),
        if_neg (fun h => State.index_lt_iff.1 h ((S.left hs).1 hleft))]
      cases inline with
      | true => exact .halt S.flagArgumentRequired
      | false => exact S.fallBack hargs S.flagArgumentRequired hs
    · rw [if_pos (State.index_lt_iff.2 hleft),
        if_pos (State.index_lt_iff.2 fun h => hleft ((S.left hs).2 h))]
      have hrel := S.argument ha hs hleft
      generalize hs' : p.argument a s = o at hrel
      generalize ht' : q.argument b t = o' at hrel
      cases hrel with
      | ok h => exact ih false h
      | @halt f g u v h =>
        obtain ⟨⟨events, rfl⟩, -⟩ := Parser.argument_eq_halt hs'
        obtain ⟨⟨others, rfl⟩, -⟩ := Parser.argument_eq_halt ht'
        cases f with
        | crash c =>
          obtain ⟨c', rfl⟩ := (S.crash h).1 ⟨c, rfl⟩
          exact .halt h
        | fault f =>
          cases g with
          | crash c =>
            obtain ⟨c', crashed⟩ := (S.crash h).2 ⟨c, rfl⟩
            cases crashed
          | fault g =>
            cases inline with
            | true => exact .halt h
            | false => exact S.fallBack hargs h (S.hearing _ _ hs)

end ArgumentSimulation

/-- Relations between two parsers that conversions and flags keep, together with a relation
between schemas whose parts are related. -/
structure Simulation (p q : Parser) extends ArgumentSimulation p q where
  tokens : Token → Token → Prop
  schemas : Schema Value → Schema Value → Prop
  /-- Whether flags may be active. Where they may not, nothing is asked of flags. -/
  live : Prop
  next {s t : State} : states s t → s.next?.Rel tokens t.next?
  text {a b : Token} : tokens a b → a.text = b.text
  flagChars {a b : Token} : live → tokens a b → a.flagChars? = b.flagChars?
  breakable : p.options.breakableFlags = q.options.breakableFlags
  advance {s t : State} : states s t → states s.advance t.advance
  mark {s t : State} (key : String) : states s t → states (s.mark key) (t.mark key)
  scratch {s t : State} : states s t → states s.scratch t.scratch
  merge {s t u v : State} : states s t → states u v →
    states { u with result := s.result.merge u.result } { v with result := t.result.merge v.result }
  flag {n m : Schema Value} {a b : Token} {c : Char} {rest : List Char} {s t : State} : live →
    schemas n m → states s t → s.next? = some a → t.next? = some b →
    a.flagChars? = some (c, rest) →
    (p.flag n.flags a c rest s).Rel states halts (q.flag m.flags b c rest t)
  dest {n m : Schema Value} : schemas n m → n.dest = m.dest
  args {n m : Schema Value} : schemas n m → n.args.Forall₂ arguments m.args
  leaf {n m : Schema Value} : schemas n m → n.subcommands.isEmpty = m.subcommands.isEmpty
  selected {n m : Schema Value} (word : String) : schemas n m →
    (n.selected? word).Rel schemas (m.selected? word)
  unnamed {n m : Schema Value} : schemas n m →
    n.alternatives.Forall₂ schemas m.alternatives
  tooManyArguments {a b : Token} : tokens a b →
    halts (.tooManyArguments p.source a) (.tooManyArguments q.source b)
  unexpectedEnd : halts (.unexpectedEnd p.source) (.unexpectedEnd q.source)
  unknownSubcommand {a b : Token} : tokens a b →
    halts (.unknownSubcommand a) (.unknownSubcommand b)

namespace Simulation

variable {p q : Parser} (S : Simulation p q) {s t : State} {n m : Schema Value}

/-- Ends of levels that are related. -/
inductive LevelEnds : LevelEnd → LevelEnd → Prop
  | finished {args args' : List (Argument Value)} {s t : State}
      (hargs : args.Forall₂ S.arguments args') (hs : S.states s t) :
      LevelEnds (.finished args s) (.finished args' t)
  | word {a b : Token} {active : Bool} {s t : State} (htoken : S.tokens a b)
      (hactive : active = true → S.live) (hs : S.states s t) :
      LevelEnds (.word a active s) (.word b active t)
  | halt {f g : Halt} {s t : State} (h : S.halts f g) : LevelEnds (.halt f s) (.halt g t)

theorem spells {a b : Token} {active : Bool} (htoken : S.tokens a b)
    (hactive : active = true → S.live) : Parser.spells active a = Parser.spells active b := by
  unfold Parser.spells
  cases active with
  | false => rfl
  | true => exact S.flagChars (hactive rfl) htoken

theorem endsFlags {a b : Token} (htoken : S.tokens a b) : p.endsFlags a = q.endsFlags b := by
  rw [Parser.endsFlags, Parser.endsFlags, S.text htoken, S.breakable]

theorem next_eq_some {a : Token} (hs : S.states s t) (next : s.next? = some a) :
    ∃ b, t.next? = some b ∧ S.tokens a b := by
  have hnext := S.next hs
  rw [next] at hnext
  cases ht : t.next? with
  | none =>
    rw [ht] at hnext
    cases hnext
  | some b =>
    rw [ht] at hnext
    cases hnext with
    | some htoken => exact ⟨b, rfl, htoken⟩

theorem next_eq_none (hs : S.states s t) (next : s.next? = none) : t.next? = none := by
  rw [State.next?_eq_none_iff] at next ⊢
  exact (S.left hs).1 next

/-- A level of related schemas keeps the relations. -/
theorem level (leaf active : Bool) {args args' : List (Argument Value)} (hschema : S.schemas n m)
    (hargs : args.Forall₂ S.arguments args') (hactive : active = true → S.live)
    (hs : S.states s t) :
    S.LevelEnds (p.level n.flags leaf active args s) (q.level m.flags leaf active args' t) := by
  fun_induction p.level n.flags leaf active args s generalizing args' t with
  | case1 active args s next =>
    have stops : q.Stops m.flags leaf ⟨active, args', t⟩ (.finished args' t) :=
      .finished (S.next_eq_none hs next)
    rw [stops.level_eq]
    exact .finished hargs hs
  | case2 active args s token next c rest flagged ends ih =>
    obtain ⟨b, hb, htoken⟩ := S.next_eq_some hs next
    have hspells := (S.spells htoken hactive).symm.trans flagged
    have hends := (S.endsFlags htoken).symm.trans ends
    rw [Parser.level_next hb]
    simp only [hspells, hends, if_true]
    exact ih hargs (fun h => absurd h Bool.false_ne_true) (S.advance hs)
  | case3 active args s token next c rest flagged ends u ok ih =>
    obtain ⟨b, hb, htoken⟩ := S.next_eq_some hs next
    obtain ⟨hlive, hchars⟩ := Parser.spells_eq_some flagged
    have hspells := (S.spells htoken hactive).symm.trans flagged
    have hends := (S.endsFlags htoken).symm.trans (eq_false_of_ne_true ends)
    have hflag := S.flag (hactive hlive) hschema hs next hb hchars
    rw [ok] at hflag
    obtain ⟨v, hv, huv⟩ := hflag.of_ok
    rw [Parser.level_next hb]
    simp only [hspells, hends, Bool.false_eq_true, if_false, hv]
    exact ih hargs hactive huv
  | case4 active args s token next c rest flagged ends h u halted =>
    obtain ⟨b, hb, htoken⟩ := S.next_eq_some hs next
    obtain ⟨hlive, hchars⟩ := Parser.spells_eq_some flagged
    have hspells := (S.spells htoken hactive).symm.trans flagged
    have hends := (S.endsFlags htoken).symm.trans (eq_false_of_ne_true ends)
    have hflag := S.flag (hactive hlive) hschema hs next hb hchars
    rw [halted] at hflag
    obtain ⟨g, v, hv, hhalts⟩ := hflag.of_halt
    rw [Parser.level_next hb]
    simp only [hspells, hends, Bool.false_eq_true, if_false, hv]
    exact .halt hhalts
  | case5 active s token next plain a args u ok ih =>
    obtain ⟨b, hb, htoken⟩ := S.next_eq_some hs next
    have hspells := (S.spells htoken hactive).symm.trans plain
    have hleft : s.left ≠ [] := State.left_eq_cons next ▸ List.cons_ne_nil _ _
    rw [Parser.level_next hb]
    cases hargs with
    | cons ha hrest =>
      have hargument := S.argument ha hs hleft
      rw [ok] at hargument
      obtain ⟨v, hv, huv⟩ := hargument.of_ok
      simp only [hspells, hv]
      exact ih hrest hactive huv
  | case6 active s token next plain a args h u halted =>
    obtain ⟨b, hb, htoken⟩ := S.next_eq_some hs next
    have hspells := (S.spells htoken hactive).symm.trans plain
    have hleft : s.left ≠ [] := State.left_eq_cons next ▸ List.cons_ne_nil _ _
    rw [Parser.level_next hb]
    cases hargs with
    | cons ha hrest =>
      have hargument := S.argument ha hs hleft
      rw [halted] at hargument
      obtain ⟨g, v, hv, hhalts⟩ := hargument.of_halt
      simp only [hspells, hv]
      exact .halt hhalts
  | case7 active s token next plain outer =>
    obtain ⟨b, hb, htoken⟩ := S.next_eq_some hs next
    have hspells := (S.spells htoken hactive).symm.trans plain
    cases hargs
    rw [Parser.level_next hb]
    simp only [hspells, outer, if_true]
    exact .halt (S.tooManyArguments htoken)
  | case8 active s token next plain inner =>
    obtain ⟨b, hb, htoken⟩ := S.next_eq_some hs next
    have hspells := (S.spells htoken hactive).symm.trans plain
    cases hargs
    rw [Parser.level_next hb]
    simp only [hspells, inner]
    exact .word htoken hactive hs

theorem defaults {args args' : List (Argument Value)} (hargs : args.Forall₂ S.arguments args')
    (hs : S.states s t) :
    (p.defaults args s).Rel S.states S.halts (q.defaults args' t) := by
  rw [Parser.defaults_eq_fallBack, Parser.defaults_eq_fallBack]
  exact S.fallBack hargs S.unexpectedEnd hs

/-- From related states, the first command of the first parser and the second one of the second
lead to related states or to related halts. -/
def Keeps (n m : Schema Value) : Prop :=
  ∀ (active : Bool) (s t : State), (active = true → S.live) → S.states s t →
    (p.command active s n).Rel S.states S.halts (q.command active t m)

/-- Alternatives that keep the relations keep them when they are tried one after the other. -/
theorem alternatives {dest dest' : String} {a b : Token} {active : Bool}
    {first first' : Option Fault} {subs subs' : List (Schema Value)} (htoken : S.tokens a b)
    (hactive : active = true → S.live)
    (hfirst : first.Rel (fun f g => S.halts (.fault f) (.fault g)) first')
    (hsubs : subs.Forall₂ (fun n m => n.named = false ∧ m.named = false ∧ S.Keeps n m) subs')
    (hs : S.states s t) :
    (p.alternatives dest a active first s subs).Rel S.states S.halts
      (q.alternatives dest' b active first' t subs') := by
  induction hsubs generalizing first first' s t with
  | nil =>
    cases hfirst with
    | some h => exact .halt h
    | none => exact .halt (S.unknownSubcommand htoken)
  | @cons n m rest rest' h _ ih =>
    obtain ⟨hn, hm, keeps⟩ := h
    rw [Parser.alternatives_unnamed hn, Parser.alternatives_unnamed hm]
    have hcommand := keeps _ _ _ hactive (S.scratch hs)
    generalize p.command active s.scratch n = o at hcommand
    generalize q.command active t.scratch m = o' at hcommand
    cases hcommand with
    | @ok u v huv => exact .ok (S.merge hs (S.hearing _ _ huv))
    | @halt f g u v hhalts =>
      cases f with
      | crash c =>
        obtain ⟨c', rfl⟩ := (S.crash hhalts).1 ⟨c, rfl⟩
        exact .halt hhalts
      | fault f =>
        cases g with
        | crash c =>
          obtain ⟨c', crashed⟩ := (S.crash hhalts).2 ⟨c, rfl⟩
          cases crashed
        | fault g =>
          -- The fault of the first alternative stands, whichever it is.
          have hfirst : (first.or (some f)).Rel (fun f g => S.halts (.fault f) (.fault g))
              (first'.or (some g)) := by
            cases hfirst with
            | some h => exact .some h
            | none => exact .some hhalts
          exact ih hfirst (S.hearing _ _ hs)

/-- Commands of related schemas keep the relations. -/
theorem command (hschema : S.schemas n m) : S.Keeps n m := by
  induction n using Schema.induction generalizing m with
  | step n ih =>
    intro active s t hactive hs
    have hlevel := S.level n.subcommands.isEmpty active hschema (S.args hschema) hactive hs
    rw [Parser.command_eq, Parser.command_eq, ← S.leaf hschema, ← S.dest hschema]
    generalize p.level n.flags n.subcommands.isEmpty active n.args s = e at hlevel
    generalize q.level m.flags n.subcommands.isEmpty active m.args t = e' at hlevel
    cases hlevel with
    | halt h => exact .halt h
    | finished hargs hs => exact (S.defaults hargs hs).marked (S.mark n.dest)
    | @word a b active s t htoken hactive hs =>
      have hselected := S.selected a.text hschema
      rw [S.text htoken] at hselected
      simp only [S.text htoken]
      cases hn : n.selected? b.text with
      | some sub =>
        rw [hn] at hselected
        cases hm : m.selected? b.text with
        | none =>
          rw [hm] at hselected
          cases hselected
        | some sub' =>
          rw [hm] at hselected
          cases hselected with
          | some hsub =>
            have keeps := ih sub (Schema.selected?_eq_some hn).1 hsub
            exact (keeps _ _ _ hactive (S.advance (S.hearing _ _ hs))).marked (S.mark n.dest)
      | none =>
        rw [hn] at hselected
        cases hm : m.selected? b.text with
        | some sub' =>
          rw [hm] at hselected
          cases hselected
        | none =>
          have hsubs : n.alternatives.Forall₂
              (fun n m => n.named = false ∧ m.named = false ∧ S.Keeps n m) m.alternatives := by
            have left : ∀ sub ∈ n.alternatives,
                sub.named = false ∧ ∀ {m}, S.schemas sub m → S.Keeps sub m := by
              intro sub hsub
              obtain ⟨hmem, hnamed⟩ := List.mem_filter.1 hsub
              exact ⟨by simpa using hnamed, ih sub hmem⟩
            have right : ∀ sub ∈ m.alternatives, sub.named = false := by
              intro sub hsub
              simpa using (List.mem_filter.1 hsub).2
            have unnamed : m.alternatives.Forall₂ (fun m n => m.named = false ∧ S.schemas n m)
                n.alternatives :=
              (List.forall₂_and_left _ _).2 ⟨right, (S.unnamed hschema).flip⟩
            have both := (List.forall₂_and_left _ _).2 ⟨left, unnamed.flip⟩
            refine both.imp ?_
            rintro sub sub' ⟨⟨hsub, keeps⟩, hsub', hschema⟩
            exact ⟨hsub, hsub', keeps hschema⟩
          dsimp only
          rw [Parser.alternatives_filter n.subcommands, Parser.alternatives_filter m.subcommands]
          exact (S.alternatives htoken hactive .none hsubs hs).marked (S.mark n.dest)

end Simulation

end CommandGrammar
