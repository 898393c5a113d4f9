import CommandGrammar.Proofs.Parse.Leaving
import Mathlib.Logic.Relation

/-!
# Levels step by step

A level takes a step at each flag, at each argument and at the mark that ends the flags, and it
stops where no step is left. `level_eq_iff` says that what comes out of a level is what its last
stage stops with, so a law of levels is a law of one step and an induction on the steps.
-/

namespace CommandGrammar

namespace State

/-- The tokens that are left. -/
def left (s : State) : List Token := s.tokens.drop s.index

theorem next?_eq_head? (s : State) : s.next? = s.left.head? := by
  rw [next?, left, List.head?_drop]

theorem left_eq_cons {s : State} {token : Token} (h : s.next? = some token) :
    s.left = token :: s.advance.left := by
  have hlt := index_lt_of_next? h
  have hget : s.tokens[s.index] = token := (List.getElem?_eq_some_iff.1 h).2
  rw [left, List.drop_eq_getElem_cons hlt, hget]
  rfl

theorem of_left_eq_cons {s : State} {token : Token} {rest : List Token}
    (h : s.left = token :: rest) : s.next? = some token ∧ s.advance.left = rest := by
  have next : s.next? = some token := by rw [next?_eq_head?, h, List.head?_cons]
  exact ⟨next, List.tail_eq_of_cons_eq ((left_eq_cons next).symm.trans h)⟩

theorem next?_eq_none_iff {s : State} : s.next? = none ↔ s.left = [] := by
  rw [next?_eq_head?, List.head?_eq_none_iff]

theorem index_lt_iff {s : State} : s.index < s.tokens.length ↔ s.left ≠ [] := by
  rw [left, ne_eq, List.drop_eq_nil_iff, Nat.not_le]

theorem left_suffix {s t : State} (ht : t.tokens = s.tokens) (hi : s.index ≤ t.index) :
    t.left <:+ s.left := by
  rw [left, left, ht, show t.index = s.index + (t.index - s.index) by omega, ← List.drop_drop]
  exact List.drop_suffix _ _

theorem advance_left_suffix (s : State) : s.advance.left <:+ s.left :=
  left_suffix rfl (Nat.le_succ _)

theorem report_nil (s : State) : s.report [] = s := by
  rw [report, List.append_nil]

/-- The state after a conversion that takes so many tokens. -/
def take (s : State) (events : List Event) (dest : String) (v : Value) (count : Nat) : State :=
  { (s.report events).write dest v with index := s.index + count }

end State

theorem Outcome.marked_eq_ok_iff {o : Outcome} {dest : String} {t : State} :
    o.marked dest = .ok t ↔ ∃ s, o = .ok s ∧ t = s.mark dest := by
  cases o with
  | ok s => simp [Outcome.marked, eq_comm]
  | halt h s => simp [Outcome.marked]

theorem Outcome.marked_eq_halt {o : Outcome} {dest : String} {h : Halt} {t : State}
    (halted : o.marked dest = .halt h t) : o = .halt h t := by
  cases o with
  | ok s => cases halted
  | halt g s => exact halted

/-- A flag token is cut into what stands before its equals sign and the inline value, unless the
value is empty. -/
theorem Token.cut?_eq_some {token : Token} {table : List Int} {stop : Nat} {value : List Char}
    {pieces : List Token} (h : token.cut? table stop value = some pieces) :
    ∃ middle inline, table[stop]? = some middle ∧
      pieces = { token with text := String.ofList (token.text.toList.take stop), stop := middle } ::
        inline ∧
      (value = [] ∧ inline = [] ∨ value ≠ [] ∧ ∃ start, table[stop + 1]? = some start ∧
        inline = [⟨String.ofList value, start, token.stop, false⟩]) := by
  simp only [Token.cut?, Option.bind_eq_bind, Option.bind_eq_some_iff] at h
  obtain ⟨middle, hmiddle, h⟩ := h
  split at h
  · rename_i hempty
    simp only [Option.pure_def, Option.some.injEq] at h
    exact ⟨middle, [], hmiddle, h.symm, .inl ⟨List.isEmpty_iff.1 hempty, rfl⟩⟩
  · rename_i hempty
    simp only [Option.bind_eq_some_iff, Option.pure_def, Option.some.injEq] at h
    obtain ⟨start, hstart, h⟩ := h
    exact ⟨middle, _, hmiddle, h.symm,
      .inr ⟨fun hvalue => hempty (List.isEmpty_iff.2 hvalue), start, hstart, rfl⟩⟩

/-- Behind the first of the pieces stand the others and what stood behind the token. -/
theorem drop_replaceAt {tokens inline : List Token} {index : Nat} (head : Token)
    (h : index < tokens.length) :
    (replaceAt tokens index (head :: inline)).drop (index + 1) =
      inline ++ tokens.drop (index + 1) := by
  have hlen : (tokens.take index).length = index := by
    rw [List.length_take]
    omega
  have hnil : (tokens.take index).drop (index + 1) = [] := List.drop_eq_nil_of_le (by omega)
  have hone : index + 1 - (tokens.take index).length = 1 := by omega
  rw [replaceAt, List.append_assoc, List.drop_append, hnil, hone]
  rfl

namespace Parser

variable {p : Parser} {flags : List (Flag Value)} {s t : State}

/-- For an argument, the converter of its type turns some of the tokens that are given into a
value, and reports events. -/
def Converts (p : Parser) (a : Argument Value) (given : List Token) (v : Value) (count : Nat)
    (events : List Event) : Prop :=
  ∃ token rest converter step, given = token :: rest ∧ p.converterOf a.type = some converter ∧
    p.answer converter token rest a = (events, .conversion v step) ∧ stepOf? step = some count

/-- An argument is taken if its converter turns the tokens that are left into its value. -/
theorem argument_eq_ok_iff {a : Argument Value} : p.argument a s = .ok t ↔
    ∃ v count events, p.Converts a s.left v count events ∧ t = s.take events a.dest v count := by
  constructor
  · intro ok
    unfold argument at ok
    split at ok
    · simp at ok
    · rename_i token rest hleft
      split at ok
      · simp at ok
      · rename_i converter hconverter
        simp only at ok
        generalize hanswer : p.answer converter token rest a = answer at ok
        obtain ⟨events, answer⟩ := answer
        cases answer with
        | conversion v step =>
          simp only [accept] at ok
          split at ok
          · simp at ok
          · rename_i count hstep
            simp only [Outcome.ok.injEq] at ok
            exact ⟨v, count, events,
              ⟨token, rest, converter, step, hleft, hconverter, hanswer, hstep⟩, ok.symm⟩
        | other v => simp [accept] at ok
        | fault f => simp [accept] at ok
        | crash c => simp [accept] at ok
  · rintro ⟨v, count, events, ⟨token, rest, converter, step, hleft, hconverter, hanswer, hstep⟩,
      rfl⟩
    rw [State.left] at hleft
    simp only [argument, hleft, hconverter, hanswer, accept, hstep]
    rfl

/-- What a parse may halt with: a fault that is fresh or that a converter of the host raises, but no
crash other than that of a step which a converter of the host answers with, which is none and is
too long to be written. -/
inductive MayHalt (p : Parser) : Halt → Prop
  | fresh {f : Fault} (fresh : f.Fresh) : MayHalt p (.fault f)
  | raised {host : Handle} {given : List Token} {a : Argument Value} {f : Fault}
      (answers : (p.converters host given a).2 = .fault f) : MayHalt p (.fault f)
  | step {host : Handle} {given : List Token} {a : Argument Value} {v step : Value} {r : Refusal}
      (answers : (p.converters host given a).2 = .conversion v step) (invalid : stepOf? step = none)
      (unwritten : step.text = .error r) : MayHalt p (.crash r.crash)

/-- An invalid step of a converter of the host makes a fresh fault unless it is too long. -/
theorem mayHalt_invalidStep {host : Handle} {given : List Token} {a b : Argument Value}
    {v step : Value} {token : Token} (answers : (p.converters host given a).2 = .conversion v step)
    (invalid : stepOf? step = none) : p.MayHalt (.invalidStep b step token) := by
  unfold Halt.invalidStep
  split
  · exact .fresh (Fault.fresh_ofToken (by decide))
  · rename_i r unwritten
    exact .step answers invalid unwritten

/-- An answer of a converter that is refused leaves the state as it was. -/
theorem accept_eq_halt {converter : Converter} {a : Argument Value} {token : Token}
    {rest : List Token} {h : Halt}
    (halted : accept a token s (p.answer converter token rest a).2 = .halt h t) :
    t = s ∧ p.MayHalt h := by
  cases answers : (p.answer converter token rest a).2 with
  | fault f =>
    rw [answers] at halted
    cases halted
    refine ⟨rfl, ?_⟩
    cases converter with
    | builtin b => exact .fresh (Builtin.fresh_of_convert answers)
    | host host => exact .raised answers
  | crash c =>
    rw [answers] at halted
    cases halted
    exact ⟨rfl, .fresh (Fault.fresh_broken c)⟩
  | other v =>
    rw [answers] at halted
    cases halted
    exact ⟨rfl, .fresh (Fault.fresh_ofToken (by decide))⟩
  | conversion v step =>
    rw [answers] at halted
    unfold accept at halted
    dsimp only at halted
    split at halted
    · rename_i invalid
      cases halted
      cases converter with
      | builtin b =>
        obtain rfl := Builtin.convert_step answers
        cases invalid
      | host host => exact ⟨rfl, mayHalt_invalidStep answers invalid⟩
    · cases halted

/-- An argument that fails leaves nothing but the events of its converter. Where a token is left, it
is asked for nothing else. -/
theorem argument_eq_halt {a : Argument Value} {h : Halt} (halted : p.argument a s = .halt h t) :
    (∃ events, t = s.report events) ∧ (s.left ≠ [] → p.MayHalt h) := by
  unfold argument at halted
  split at halted
  · rename_i hnil
    cases halted
    exact ⟨⟨[], s.report_nil.symm⟩, fun left => absurd hnil left⟩
  · split at halted
    · cases halted
      exact ⟨⟨[], s.report_nil.symm⟩, fun _ => .fresh (Fault.fresh_ofToken (by decide))⟩
    · obtain ⟨ht, mayHalt⟩ := accept_eq_halt halted
      exact ⟨⟨_, ht⟩, fun _ => mayHalt⟩

theorem argument_left {a : Argument Value} (ok : p.argument a s = .ok t) :
    t.left <:+ s.advance.left := by
  obtain ⟨htokens, hindex⟩ := argument_ok ok
  exact State.left_suffix htokens hindex

/-- A token spells the flag with its long code, or flags by their short codes. -/
theorem spelled_ok {token : Token} {c : Char} {rest : List Char} {spelled : Spelled}
    (ok : p.spelled flags token c rest = .ok spelled) :
    (∃ f, longFlag? flags (Spelling.ofChars c rest).name = some f ∧ spelled = ⟨f, []⟩) ∨
      shortCodes flags p.options.equalsInShortFlags c rest = .ok spelled := by
  unfold Parser.spelled at ok
  dsimp only at ok
  cases hshort : shortCodes flags p.options.equalsInShortFlags c rest with
  | ok short =>
    rw [hshort] at ok
    dsimp only at ok
    split at ok
    · split at ok
      · cases ok
      · cases ok
        exact .inr rfl
    · rename_i f hlong
      split at ok
      · cases ok
        exact .inl ⟨f, hlong, rfl⟩
      · cases ok
        exact .inr rfl
  | error e =>
    rw [hshort] at ok
    dsimp only at ok
    split at ok
    · split at ok
      · cases ok
      · cases ok
    · rename_i f hlong
      split at ok
      · cases ok
        exact .inl ⟨f, hlong, rfl⟩
      · cases ok

/-- A token that spells no flags has an unknown long code or an unknown short one. -/
theorem spelled_error {token : Token} {c : Char} {rest : List Char} {h : Halt}
    (halted : p.spelled flags token c rest = .error h) :
    h = .unrecognizedFlag token (token.positions p.source) (Spelling.ofChars c rest).name ∨
      ∃ offset code, shortCodes flags p.options.equalsInShortFlags c rest = .error (offset, code) ∧
        h = .unknownOption token (token.positions p.source) offset code := by
  unfold Parser.spelled at halted
  dsimp only at halted
  cases hshort : shortCodes flags p.options.equalsInShortFlags c rest with
  | ok short =>
    rw [hshort] at halted
    dsimp only at halted
    split at halted
    · split at halted
      · cases halted
        exact .inl rfl
      · cases halted
    · split at halted
      · cases halted
      · cases halted
  | error e =>
    rw [hshort] at halted
    dsimp only at halted
    split at halted
    · split at halted
      · cases halted
        exact .inl rfl
      · cases halted
        exact .inr ⟨_, _, rfl, rfl⟩
    · split at halted
      · cases halted
      · cases halted
        exact .inr ⟨_, _, rfl, rfl⟩

theorem left_foldl_mark (marks : List String) (s : State) :
    (marks.foldl State.mark s).left = s.left := by
  obtain ⟨htokens, hindex⟩ := foldl_mark marks s
  rw [State.left, State.left, htokens, hindex]

theorem next?_foldl_mark (marks : List String) (s : State) :
    (marks.foldl State.mark s).next? = s.next? := by
  rw [State.next?_eq_head?, State.next?_eq_head?, left_foldl_mark]

theorem advance_left_foldl_mark (marks : List String) (s : State) :
    (marks.foldl State.mark s).advance.left = s.advance.left := by
  obtain ⟨tokens, index⟩ := foldl_mark marks s
  rw [State.left, State.left, State.advance, State.advance, tokens, index]

/-- Where the arguments of a flag begin: behind the flag's token, with the inline value, if there
is one, as a token of its own. -/
inductive Opens (p : Parser) (token : Token) (c : Char) (rest : List Char) (f : Flag Value) :
    State → Bool → State → Prop
  | plain {s : State} (noValue : (Spelling.ofChars c rest).value = none) :
      Opens p token c rest f s false s.advance
  | inline {s : State} {value : List Char} {pieces : List Token}
      (hasValue : (Spelling.ofChars c rest).value = some value) (args : f.args ≠ [])
      (cut : token.cut? (token.positions p.source) (Spelling.ofChars c rest).length value =
        some pieces) :
      Opens p token c rest f s true
        { s with tokens := replaceAt s.tokens s.index pieces }.advance

/-- A flag is taken if it is spelled and its arguments are taken from where they begin. -/
theorem flag_eq_ok {token : Token} {c : Char} {rest : List Char}
    (ok : p.flag flags token c rest s = .ok t) :
    ∃ f marks inline u v, p.spelled flags token c rest = .ok ⟨f, marks⟩ ∧
      p.Opens token c rest f (marks.foldl State.mark s) inline u ∧
      p.flagArguments inline f.args u = .ok v ∧ t = v.mark f.dest := by
  unfold flag at ok
  split at ok
  · simp at ok
  · rename_i f marks hspelled
    simp only at ok
    split at ok
    · rename_i hvalue
      obtain ⟨v, hv, ht⟩ := Outcome.marked_eq_ok_iff.1 ok
      exact ⟨f, marks, false, _, v, hspelled, .plain hvalue, hv, ht⟩
    · rename_i value hvalue
      split at ok
      · simp at ok
      · rename_i hargs
        split at ok
        · simp at ok
        · rename_i pieces hcut
          obtain ⟨v, hv, ht⟩ := Outcome.marked_eq_ok_iff.1 ok
          exact ⟨f, marks, true, _, v, hspelled, .inline hvalue (by simpa using hargs) hcut, hv, ht⟩

/-- Nothing is written before the arguments of a flag begin. -/
theorem Opens.result {token : Token} {c : Char} {rest : List Char} {f : Flag Value} {inline : Bool}
    (h : p.Opens token c rest f s inline t) : t.result = s.result := by
  cases h with
  | plain _ => rfl
  | inline _ _ _ => rfl

/-- Where the arguments of a flag begin, the tokens behind the flag's token are left, and before
them the inline value. -/
theorem Opens.left {token : Token} {c : Char} {rest : List Char} {f : Flag Value} {inline : Bool}
    (h : p.Opens token c rest f s inline t) (next : s.next? = some token) :
    ∃ pieces, t.left = pieces ++ s.advance.left ∧
      (pieces = [] ∨ inline = true ∧ f.args ≠ [] ∧ pieces.length = 1) := by
  cases h with
  | plain _ => exact ⟨[], rfl, .inl rfl⟩
  | @inline value pieces _ args cut =>
    have hlt := State.index_lt_of_next? next
    obtain ⟨middle, rest, -, rfl, hrest⟩ := Token.cut?_eq_some cut
    refine ⟨rest, drop_replaceAt _ hlt, ?_⟩
    obtain ⟨-, rfl⟩ | ⟨-, _, -, rfl⟩ := hrest
    · exact .inl rfl
    · exact .inr ⟨rfl, args, rfl⟩

/-- A flag takes its token and its inline value. -/
theorem flag_left {token : Token} {c : Char} {rest : List Char} (next : s.next? = some token)
    (ok : p.flag flags token c rest s = .ok t) : t.left <:+ s.advance.left := by
  obtain ⟨f, marks, inline, u, v, -, opens, harguments, rfl⟩ := flag_eq_ok ok
  have hadvance := advance_left_foldl_mark marks s
  obtain ⟨pieces, hleft, hpieces⟩ := opens.left ((next?_foldl_mark marks s).trans next)
  obtain ⟨hvt, hvi, hvs⟩ := flagArguments_ok harguments
  show v.left <:+ _
  rw [← hadvance]
  obtain rfl | ⟨hinline, hargs, hone⟩ := hpieces
  · rw [List.nil_append] at hleft
    exact hleft ▸ State.left_suffix hvt hvi
  · have htail : v.left <:+ u.advance.left :=
      State.left_suffix (s := u.advance) hvt (hvs hinline hargs)
    have hu : u.advance.left = u.left.tail := by
      rw [State.left, State.left, State.advance, List.tail_drop]
    obtain ⟨value, rfl⟩ := List.length_eq_one_iff.1 hone
    rw [hu, hleft] at htail
    exact htail

/-- Missing arguments fall back to their defaults as those of a flag do. -/
theorem defaults_eq_fallBack (p : Parser) (args : List (Argument Value)) (s : State) :
    p.defaults args s = fallBack (.unexpectedEnd p.source) args s := by
  induction args generalizing s with
  | nil => rfl
  | cons a rest ih =>
    rw [defaults, fallBack]
    split
    · rfl
    · exact ih _

theorem fallBack_halt {args : List (Argument Value)} {f h : Halt}
    (halted : fallBack f args s = .halt h t) : h = f := by
  induction args generalizing s with
  | nil => simp [fallBack] at halted
  | cons a rest ih =>
    rw [fallBack] at halted
    split at halted
    · simp only [Outcome.halt.injEq] at halted
      exact halted.1.symm
    · exact ih halted

/-- Arguments of which none is required take their defaults. -/
theorem fallBack_of_optional {args : List (Argument Value)} (h : Halt) (s : State)
    (optional : ∀ a ∈ args, a.required = false) :
    fallBack h args s =
      .ok { s with result := s.result.insertAll (args.map fun a => (a.dest, a.default)) } := by
  induction args generalizing s with
  | nil => rfl
  | cons a rest ih =>
    obtain ⟨ha, hrest⟩ := List.forall_mem_cons.1 optional
    rw [fallBack, if_neg (by simp [ha]), ih _ hrest]
    rfl

theorem fallBack_of_required {args : List (Argument Value)} (h : Halt) (s : State)
    (required : ∃ a ∈ args, a.required = true) :
    ∃ t, fallBack h args s = .halt h t := by
  induction args generalizing s with
  | nil =>
    obtain ⟨a, mem, -⟩ := required
    exact absurd mem List.not_mem_nil
  | cons a rest ih =>
    rw [fallBack]
    cases ha : a.required with
    | true => exact ⟨s, rfl⟩
    | false =>
      obtain ⟨b, mem, hb⟩ := required
      rcases List.mem_cons.1 mem with rfl | mem
      · exact absurd (hb.symm.trans ha) Bool.noConfusion
      · exact ih _ ⟨b, mem, hb⟩

theorem fallBack_eq_ok {args : List (Argument Value)} {h : Halt} (ok : fallBack h args s = .ok t) :
    (∀ a ∈ args, a.required = false) ∧
      t = { s with result := s.result.insertAll (args.map fun a => (a.dest, a.default)) } := by
  by_cases required : ∃ a ∈ args, a.required = true
  · obtain ⟨u, hu⟩ := fallBack_of_required h s required
    cases hu.symm.trans ok
  · have optional : ∀ a ∈ args, a.required = false := by
      intro a mem
      exact eq_false_of_ne_true fun ha => required ⟨a, mem, ha⟩
    rw [fallBack_of_optional h s optional] at ok
    cases ok
    exact ⟨optional, rfl⟩

/-- The characters of a token that spells a flag, where flags are active. -/
def spells (active : Bool) (token : Token) : Option (Char × List Char) :=
  if active then token.flagChars? else none

theorem spells_eq_some {active : Bool} {token : Token} {c : Char} {rest : List Char}
    (h : spells active token = some (c, rest)) :
    active = true ∧ token.flagChars? = some (c, rest) := by
  cases active with
  | false => exact absurd h.symm (Option.some_ne_none _)
  | true => exact ⟨rfl, h⟩

/-- Whether a token ends the flags. -/
def endsFlags (p : Parser) (token : Token) : Bool :=
  token.text = "--" && p.options.breakableFlags

/-- Where a level stands: whether flags are active, the arguments that are to come, and the
state. -/
structure Stage where
  active : Bool
  args : List (Argument Value)
  state : State

/-- A step of a level: the mark that ends the flags, a flag, or an argument. -/
inductive Step (p : Parser) (flags : List (Flag Value)) : Stage → Stage → Prop
  | ending {active : Bool} {args : List (Argument Value)} {s : State} {token : Token} {c : Char}
      {rest : List Char} (next : s.next? = some token)
      (flagged : spells active token = some (c, rest)) (ends : p.endsFlags token = true) :
      Step p flags ⟨active, args, s⟩ ⟨false, args, s.advance⟩
  | flag {active : Bool} {args : List (Argument Value)} {s t : State} {token : Token} {c : Char}
      {rest : List Char} (next : s.next? = some token)
      (flagged : spells active token = some (c, rest)) (ends : p.endsFlags token = false)
      (ok : p.flag flags token c rest s = .ok t) :
      Step p flags ⟨active, args, s⟩ ⟨active, args, t⟩
  | argument {active : Bool} {a : Argument Value} {args : List (Argument Value)} {s t : State}
      {token : Token} (next : s.next? = some token) (plain : spells active token = none)
      (ok : p.argument a s = .ok t) :
      Step p flags ⟨active, a :: args, s⟩ ⟨active, args, t⟩

/-- Any number of steps of a level. -/
abbrev Steps (p : Parser) (flags : List (Flag Value)) : Stage → Stage → Prop :=
  Relation.ReflTransGen (p.Step flags)

/-- What a level stops with at a stage from which there is no step. -/
inductive Stops (p : Parser) (flags : List (Flag Value)) (leaf : Bool) : Stage → LevelEnd → Prop
  | finished {active : Bool} {args : List (Argument Value)} {s : State} (next : s.next? = none) :
      Stops p flags leaf ⟨active, args, s⟩ (.finished args s)
  | word {active : Bool} {s : State} {token : Token} (next : s.next? = some token)
      (plain : spells active token = none) (inner : leaf = false) :
      Stops p flags leaf ⟨active, [], s⟩ (.word token active s)
  | tooMany {active : Bool} {s : State} {token : Token} (next : s.next? = some token)
      (plain : spells active token = none) (outer : leaf = true) :
      Stops p flags leaf ⟨active, [], s⟩ (.halt (.tooManyArguments p.source token) s)
  | flag {active : Bool} {args : List (Argument Value)} {s t : State} {token : Token} {c : Char}
      {rest : List Char} {h : Halt} (next : s.next? = some token)
      (flagged : spells active token = some (c, rest)) (ends : p.endsFlags token = false)
      (halted : p.flag flags token c rest s = .halt h t) :
      Stops p flags leaf ⟨active, args, s⟩ (.halt h t)
  | argument {active : Bool} {a : Argument Value} {args : List (Argument Value)} {s t : State}
      {token : Token} {h : Halt} (next : s.next? = some token) (plain : spells active token = none)
      (halted : p.argument a s = .halt h t) :
      Stops p flags leaf ⟨active, a :: args, s⟩ (.halt h t)

/-- A level takes steps until it stops. -/
theorem exists_steps_stops (p : Parser) (flags : List (Flag Value)) (leaf active : Bool)
    (args : List (Argument Value)) (s : State) :
    ∃ x, p.Steps flags ⟨active, args, s⟩ x ∧
      p.Stops flags leaf x (p.level flags leaf active args s) := by
  fun_induction p.level flags leaf active args s with
  | case1 active args s next => exact ⟨_, .refl, .finished next⟩
  | case2 active args s token next c rest flagged ends ih =>
    obtain ⟨x, steps, stops⟩ := ih
    exact ⟨x, .head (.ending next flagged ends) steps, stops⟩
  | case3 active args s token next c rest flagged ends t ok ih =>
    obtain ⟨x, steps, stops⟩ := ih
    exact ⟨x, .head (.flag next flagged (eq_false_of_ne_true ends) ok) steps, stops⟩
  | case4 active args s token next c rest flagged ends h t halted =>
    exact ⟨_, .refl, .flag next flagged (eq_false_of_ne_true ends) halted⟩
  | case5 active s token next plain a args t ok ih =>
    obtain ⟨x, steps, stops⟩ := ih
    exact ⟨x, .head (.argument next plain ok) steps, stops⟩
  | case6 active s token next plain a args h t halted =>
    exact ⟨_, .refl, .argument next plain halted⟩
  | case7 active s token next plain outer =>
    exact ⟨_, .refl, .tooMany next plain outer⟩
  | case8 active s token next plain inner =>
    exact ⟨_, .refl, .word next plain (eq_false_of_ne_true inner)⟩

/-- What a level does at a token. -/
theorem level_next {leaf active : Bool} {args : List (Argument Value)} {token : Token}
    (next : s.next? = some token) :
    p.level flags leaf active args s =
      match spells active token, args with
      | some (c, rest), args =>
        if p.endsFlags token then p.level flags leaf false args s.advance
        else
          match p.flag flags token c rest s with
          | .ok t => p.level flags leaf active args t
          | .halt h t => .halt h t
      | none, a :: args =>
        match p.argument a s with
        | .ok t => p.level flags leaf active args t
        | .halt h t => .halt h t
      | none, [] =>
        if leaf then .halt (.tooManyArguments p.source token) s else .word token active s := by
  rw [level]
  split
  · simp_all
  · rename_i other hother
    cases next.symm.trans hother
    have hspells : (if active then token.flagChars? else none) = spells active token := rfl
    rw [hspells]
    cases spells active token with
    | none =>
      cases args with
      | nil => rfl
      | cons a args =>
        dsimp only
        cases p.argument a s <;> rfl
    | some flagged =>
      obtain ⟨c, rest⟩ := flagged
      change (if p.endsFlags token then _ else _) = if p.endsFlags token then _ else _
      by_cases ends : p.endsFlags token = true
      · rw [if_pos ends, if_pos ends]
      · rw [if_neg ends, if_neg ends]
        cases p.flag flags token c rest s <;> rfl

theorem Step.level_eq {leaf : Bool} {x y : Stage} (step : p.Step flags x y) :
    p.level flags leaf x.active x.args x.state = p.level flags leaf y.active y.args y.state := by
  cases step with
  | ending next flagged ends => simp only [level_next next, flagged, ends, if_true]
  | flag next flagged ends ok =>
    simp only [level_next next, flagged, ends, Bool.false_eq_true, if_false, ok]
  | argument next plain ok => simp only [level_next next, plain, ok]

theorem Stops.level_eq {leaf : Bool} {x : Stage} {e : LevelEnd} (stops : p.Stops flags leaf x e) :
    p.level flags leaf x.active x.args x.state = e := by
  cases stops with
  | finished next =>
    rw [level]
    split
    · rfl
    · simp_all
  | word next plain inner => simp only [level_next next, plain, inner, Bool.false_eq_true, if_false]
  | tooMany next plain outer => simp only [level_next next, plain, outer, if_true]
  | flag next flagged ends halted =>
    simp only [level_next next, flagged, ends, Bool.false_eq_true, if_false, halted]
  | argument next plain halted => simp only [level_next next, plain, halted]

theorem Steps.level_eq {leaf : Bool} {x y : Stage} (steps : p.Steps flags x y) :
    p.level flags leaf x.active x.args x.state = p.level flags leaf y.active y.args y.state := by
  induction steps with
  | refl => rfl
  | tail _ step ih => exact ih.trans step.level_eq

/-- What is left after some steps was left before them. -/
theorem Step.left {x y : Stage} (step : p.Step flags x y) :
    y.state.left <:+ x.state.advance.left := by
  cases step with
  | ending next flagged ends => exact List.suffix_rfl
  | flag next flagged ends ok => exact flag_left next ok
  | argument next plain ok => exact argument_left ok

theorem Steps.left {x y : Stage} (steps : p.Steps flags x y) : y.state.left <:+ x.state.left := by
  induction steps with
  | refl => exact List.suffix_rfl
  | tail _ step ih => exact (step.left.trans (State.advance_left_suffix _)).trans ih

/-- What comes out of a level is what its steps stop with. -/
theorem level_eq_iff {leaf active : Bool} {args : List (Argument Value)} {e : LevelEnd} :
    p.level flags leaf active args s = e ↔
      ∃ x, p.Steps flags ⟨active, args, s⟩ x ∧ p.Stops flags leaf x e := by
  constructor
  · rintro rfl
    exact exists_steps_stops p flags leaf active args s
  · rintro ⟨x, steps, stops⟩
    exact steps.level_eq.trans stops.level_eq

theorem leaf_of_word {leaf active active' : Bool} {args : List (Argument Value)} {token : Token}
    (word : p.level flags leaf active args s = .word token active' t) : leaf = false := by
  obtain ⟨x, -, stops⟩ := level_eq_iff.1 word
  cases stops with
  | word next plain inner => exact inner

end Parser

end CommandGrammar
