import CommandGrammar.Proofs.Parse.Alike
import CommandGrammar.Proofs.Parse.Simulation
import CommandGrammar.Proofs.Parse.Spans
import CommandGrammar.Proofs.Token.Shift

/-!
# Lines with the same words

If the tokens of two lines have the same texts and stand at offsets that correspond, a parse of the
one line goes as a parse of the other (`command_aligned`): a parse reads offsets for places of
faults and for nothing else. Behind a prefix, all offsets are moved by its length (`parse_append`).
Where all offsets correspond to each other, only the words of the lines and their quotes count, and
without flags the words alone (`layout_irrelevant`).
-/

namespace CommandGrammar

variable {offsets : Int → Int → Prop}

namespace Parser

/-- The parsers differ in their lines only, which end at offsets that correspond, and perhaps in
whether flags are active to begin with. -/
structure Aligned (offsets : Int → Int → Prop) (p q : Parser) : Prop where
  types : p.types = q.types
  breakable : p.options.breakableFlags = q.options.breakableFlags
  java : p.options.javaFlags = q.options.javaFlags
  equals : p.options.equalsInShortFlags = q.options.equalsInShortFlags
  stop : offsets p.source.length q.source.length

/-- All arguments of the schema have builtin types, if their types are registered at all. -/
def HasBuiltins (p : Parser) (n : Schema Value) : Prop :=
  ∀ m, n.Reaches m → ∀ owner a, m.Owns owner a → p.HasBuiltin a

variable {p q : Parser} {tokens : Token → Token → Prop} {s t : State}

/-- Where no types are registered but the builtin ones, all types that are named are builtin. -/
theorem hasBuiltins_of_named {n : Schema Value} (types : p.types = .builtins)
    (named : ∀ m, n.Reaches m → ∀ owner a, m.Owns owner a → ∃ name, a.type = .named name) :
    p.HasBuiltins n := by
  intro m reaches owner a owns converter hconverter
  obtain ⟨name, htype⟩ := named m reaches owner a owns
  rw [htype, converterOf, types] at hconverter
  exact TypeRegistry.builtin_of_resolve hconverter

/-- The same for a schema without sub-commands. -/
theorem hasBuiltins_of_leaf {n : Schema Value} (types : p.types = .builtins)
    (leaf : n.subcommands = []) (args : ∀ a ∈ n.args, ∃ name, a.type = .named name)
    (flags : ∀ f ∈ n.flags, ∀ a ∈ f.args, ∃ name, a.type = .named name) : p.HasBuiltins n := by
  refine hasBuiltins_of_named types ?_
  intro m reaches owner a owns
  cases reaches with
  | down mem _ =>
    rw [leaf] at mem
    exact absurd mem List.not_mem_nil
  | refl =>
    cases owner with
    | none => exact args a owns
    | some f => exact flags f owns.1 a owns.2

/-- A builtin type answers alike to tokens that are alike. -/
theorem accept_aligned {a : Argument Value} {token token' : Token} {answer : Answer}
    (whole : answer.At token) (htoken : token.Alike offsets token') (h : s.Alike tokens t) :
    (accept a token s answer).Rel (State.Alike tokens) (Halt.Alike offsets)
      (accept a token' t (answer.movedTo token')) := by
  cases answer with
  | fault f =>
    obtain ⟨kind, message, listed, rfl⟩ := whole
    exact .halt (Halt.alike_at listed htoken)
  | crash c => exact .halt (.fault (Fault.alike_broken c))
  | other v => exact .halt (Halt.alike_at (by decide) htoken)
  | conversion v step =>
    dsimp only [accept, Answer.movedTo]
    cases stepOf? step with
    | none =>
      dsimp only [Halt.invalidStep]
      split
      · exact .halt (Halt.alike_at (by decide) htoken)
      · exact .halt (.crash _)
    | some count => exact .ok ((h.write a.dest v).skip count)

theorem converterOf_aligned (aligned : p.Aligned offsets q) (type : TypeRef) :
    q.converterOf type = p.converterOf type := by
  cases type with
  | named name => rw [converterOf, converterOf, aligned.types]
  | host h => rfl

/-- Arguments of builtin types are converted alike. -/
theorem argument_aligned (aligned : p.Aligned offsets q) {a : Argument Value}
    (builtin : p.HasBuiltin a) (alike : ∀ x y, tokens x y → x.Alike offsets y)
    (h : s.Alike tokens t) (left : s.left ≠ []) :
    (p.argument a s).Rel (State.Alike tokens) (Halt.Alike offsets) (q.argument a t) := by
  obtain ⟨token, rest, hs⟩ := List.exists_cons_of_ne_nil left
  have hleft := h.left
  rw [hs, List.forall₂_cons_left_iff] at hleft
  obtain ⟨token', rest', htoken, -, ht⟩ := hleft
  have htoken := alike _ _ htoken
  rw [State.left] at hs ht
  rw [argument, argument, hs, ht, converterOf_aligned aligned]
  dsimp only
  cases hconverter : p.converterOf a.type with
  | none => exact .halt (Halt.alike_at (by decide) htoken)
  | some converter =>
    obtain ⟨b, rfl⟩ := builtin converter hconverter
    dsimp only [answer]
    rw [b.convert_movedTo a.options htoken.text]
    exact accept_aligned (b.convert_at _ _) htoken (h.hearing _ _)

/-- Two parsers on lines with the same words, as far as arguments of builtin types are converted. -/
def argumentLayout (aligned : p.Aligned offsets q) (tokens : Token → Token → Prop)
    (alike : ∀ x y, tokens x y → x.Alike offsets y) : ArgumentSimulation p q where
  states := State.Alike tokens
  halts := Halt.Alike offsets
  arguments a b := a = b ∧ p.HasBuiltin a
  left h := h.left_eq_nil
  crash h := by
    cases h with
    | fault _ => exact ⟨fun ⟨_, h⟩ => Halt.noConfusion h, fun ⟨_, h⟩ => Halt.noConfusion h⟩
    | crash c => exact Iff.rfl
  hearing events others h := h.hearing events others
  argument ha h left := ha.1 ▸ argument_aligned aligned ha.2 alike h left
  required ha := congrArg Argument.required ha.1
  default ha h := ha.1 ▸ h.write _ _
  flagArgumentRequired := Halt.alike_at (by decide) (Token.alike_endOf aligned.stop)

variable {live : Prop} {flags : List (Flag Value)} {a b : Token} {c : Char} {rest : List Char}

/-- Tokens that spell flags alike spell the same flags, or faults that are alike. -/
theorem spelled_aligned (flags : List (Flag Value)) (aligned : p.Aligned offsets q)
    (alike : a.ReadsAlike live offsets p.source q.source b) (flagging : live)
    (flagged : a.flagChars? = some (c, rest)) :
    (∃ spelled, p.spelled flags a c rest = .ok spelled ∧
      q.spelled flags b c rest = .ok spelled) ∨
    ∃ h g, p.spelled flags a c rest = .error h ∧ q.spelled flags b c rest = .error g ∧
      h.Alike offsets g := by
  have tables := alike.positions flagging (Token.toList_of_flagChars? flagged).1
  have hlong := Halt.alike_unrecognizedFlag alike.toAlike tables (Spelling.ofChars c rest).name
  unfold spelled
  dsimp only
  rw [← aligned.java, ← aligned.equals]
  cases shortCodes flags p.options.equalsInShortFlags c rest with
  | ok short =>
    dsimp only
    split
    · split
      · exact .inr ⟨_, _, rfl, rfl, hlong⟩
      · exact .inl ⟨_, rfl, rfl⟩
    · split
      · exact .inl ⟨_, rfl, rfl⟩
      · exact .inl ⟨_, rfl, rfl⟩
  | error e =>
    have hshort := Halt.alike_unknownOption (a := a) (b := b) tables e.1 e.2
    dsimp only
    split
    · split
      · exact .inr ⟨_, _, rfl, rfl, hlong⟩
      · exact .inr ⟨_, _, rfl, rfl, hshort⟩
    · split
      · exact .inl ⟨_, rfl, rfl⟩
      · exact .inr ⟨_, _, rfl, rfl, hshort⟩

/-- Flags that are spelled alike are taken alike. -/
theorem flag_aligned (aligned : p.Aligned offsets q)
    (builtin : ∀ f ∈ flags, ∀ a ∈ f.args, p.HasBuiltin a)
    (alike : a.ReadsAlike live offsets p.source q.source b) (flagging : live)
    (flagged : a.flagChars? = some (c, rest)) (h : s.Alike (Token.Alike offsets) t)
    (next : s.next? = some a) (next' : t.next? = some b) :
    (p.flag flags a c rest s).Rel (State.Alike (Token.Alike offsets)) (Halt.Alike offsets)
      (q.flag flags b c rest t) := by
  have tables := alike.positions flagging (Token.toList_of_flagChars? flagged).1
  rw [flag, flag]
  obtain ⟨⟨f, marks⟩, hp, hq⟩ | ⟨h, g, hp, hq, hh⟩ := spelled_aligned flags aligned alike
    flagging flagged
  · have same : f.args.Forall₂ (fun a b => a = b ∧ p.HasBuiltin a) f.args :=
      List.forall₂_same.2 fun a mem => ⟨rfl, builtin f (spelled_eq_ok hp).1 a mem⟩
    let S := argumentLayout aligned (Token.Alike offsets) fun _ _ h => h
    rw [← next?_foldl_mark marks] at next next'
    have hmarks := h.foldl_mark marks
    rw [hp, hq]
    dsimp only
    generalize marks.foldl State.mark s = s at hmarks next
    generalize marks.foldl State.mark t = t at hmarks next'
    cases (Spelling.ofChars c rest).value with
    | none =>
      exact (S.flagArguments false same hmarks.advance).marked fun h => h.mark f.dest
    | some value =>
      dsimp only
      by_cases hargs : f.args.isEmpty = true
      · rw [if_pos hargs, if_pos hargs]
        exact .halt (Halt.alike_flagAssignment alike.toAlike tables hmarks.advance.next? _ value)
      · rw [if_neg hargs, if_neg hargs]
        have hcut := Token.cut?_alike alike.toAlike tables (Spelling.ofChars c rest).length value
        generalize a.cut? _ _ _ = pieces at hcut
        generalize b.cut? _ _ _ = pieces' at hcut
        cases hcut with
        | none => exact .halt (.crash _)
        | some hpieces =>
          obtain ⟨x, y, xs, ys, rfl, rfl, hinline⟩ := hpieces
          have hopened := hmarks.cut (x := x) (y := y) next next' hinline
          exact (S.flagArguments true same hopened).marked fun h => h.mark f.dest
  · rw [hp, hq]
    exact .halt hh

/-- A flag leaves tokens of the line, so what is left behind it is related as it was before. -/
theorem flag_aligned_strict (aligned : p.Aligned offsets q)
    (builtin : ∀ f ∈ flags, ∀ a ∈ f.args, p.HasBuiltin a)
    (weaken : ∀ x y, tokens x y → x.Alike offsets y)
    (alike : a.ReadsAlike live offsets p.source q.source b) (flagging : live)
    (flagged : a.flagChars? = some (c, rest)) (h : s.Alike tokens t)
    (next : s.next? = some a) (next' : t.next? = some b) :
    (p.flag flags a c rest s).Rel (State.Alike tokens) (Halt.Alike offsets)
      (q.flag flags b c rest t) := by
  have hflag := flag_aligned aligned builtin alike flagging flagged (h.mono weaken) next next'
  generalize hp : p.flag flags a c rest s = o at hflag
  generalize hq : q.flag flags b c rest t = o' at hflag
  cases hflag with
  | ok huv =>
    refine .ok ⟨?_, huv.result⟩
    exact forall₂_of_suffix h.advance.left (flag_left next hp) (flag_left next' hq)
      huv.left.length_eq
  | halt hh => exact .halt hh

/-- Two parsers on lines with the same words. -/
def layout (aligned : p.Aligned offsets q) (live : Prop) : Simulation p q where
  toArgumentSimulation := argumentLayout aligned
    (Token.ReadsAlike live offsets p.source q.source) fun _ _ h => h.toAlike
  tokens := Token.ReadsAlike live offsets p.source q.source
  schemas n m := n = m ∧ p.HasBuiltins n
  live := live
  next h := h.next?
  text h := h.text
  flagChars flagging h := h.flagChars? flagging
  breakable := aligned.breakable
  advance h := h.advance
  mark key h := h.mark key
  scratch h := ⟨h.left, rfl⟩
  merge h h' := h.merge h'
  flag {n m a b c rest s t} flagging hschema h next next' hchars := by
    obtain ⟨rfl, builtins⟩ := hschema
    have htokens := h.next?
    rw [next, next'] at htokens
    cases htokens with
    | some htoken =>
      have builtin : ∀ f ∈ n.flags, ∀ a ∈ f.args, p.HasBuiltin a :=
        fun f hf a ha => builtins n (.refl n) (some f) a ⟨hf, ha⟩
      exact flag_aligned_strict aligned builtin (fun _ _ h => h.toAlike) htoken flagging hchars h
        next next'
  dest h := congrArg Schema.dest h.1
  args {n m} h := by
    obtain ⟨rfl, builtins⟩ := h
    exact List.forall₂_same.2 fun a ha => ⟨rfl, builtins n (.refl n) none a ha⟩
  leaf h := by rw [h.1]
  selected {n m} word h := by
    obtain ⟨rfl, builtins⟩ := h
    cases hselected : n.selected? word with
    | none => exact .none
    | some sub =>
      have mem := (Schema.selected?_eq_some hselected).1
      exact .some ⟨rfl, fun k reaches => builtins k (.down mem reaches)⟩
  unnamed {n m} h := by
    obtain ⟨rfl, builtins⟩ := h
    refine List.forall₂_same.2 fun sub hsub => ⟨rfl, fun k reaches => ?_⟩
    exact builtins k (.down (List.mem_filter.1 hsub).1 reaches)
  tooManyArguments h := Halt.alike_tooManyArguments h.toAlike aligned.stop
  unexpectedEnd := Halt.alike_at (by decide) (Token.alike_endOf aligned.stop)
  unknownSubcommand {a b} h := by
    rw [Halt.unknownSubcommand, Halt.unknownSubcommand, h.text]
    exact Halt.alike_at (by decide) h.toAlike

/-- From states at words that are alike, a command goes alike. -/
theorem command_aligned (aligned : p.Aligned offsets q) {n : Schema Value}
    (builtins : p.HasBuiltins n) (active : Bool) (result : s.result = t.result)
    (left : s.left.Forall₂ (Token.ReadsAlike (active = true) offsets p.source q.source) t.left) :
    (p.command active s n).Rel (fun s t => s.result = t.result) (Halt.Alike offsets)
      (q.command active t n) := by
  have hcommand := (layout aligned (active = true)).command ⟨rfl, builtins⟩ active s t id
    ⟨left, result⟩
  generalize p.command active s n = o at hcommand
  generalize q.command active t n = o' at hcommand
  cases hcommand with
  | ok h => exact .ok h.result
  | halt h => exact .halt h

/-- Where all types are builtin, a command halts with nothing but fresh faults: it goes as it does
without any converters of a host, of which none can slip. -/
theorem fault_of_builtins {n : Schema Value} (builtins : p.HasBuiltins n) {active : Bool}
    (inPlace : s.InPlace p.source) {h : Halt} (halted : p.command active s n = .halt h t) :
    ∃ f, h = .fault f ∧ f.Fresh := by
  let q : Parser := { p with converters := fun _ _ _ => ([], .other .null) }
  have aligned : p.Aligned Eq q := ⟨rfl, rfl, rfl, rfl, rfl⟩
  have same : s.left.Forall₂ (Token.ReadsAlike (active = true) Eq p.source q.source) s.left := by
    refine List.forall₂_same.2 fun token _ => ⟨⟨rfl, rfl, rfl⟩, fun _ => rfl, fun _ _ => ?_⟩
    exact List.forall₂_same.2 fun _ _ => rfl
  have related := command_aligned aligned builtins active rfl same
  rw [halted] at related
  obtain ⟨g, u, halted', alike⟩ := related.of_halt
  cases alike with
  | fault same => exact ⟨_, rfl, same.fresh.1⟩
  | crash c =>
    have mayHalt := command_safe q n _ _ _ _ inPlace halted'
    generalize crashed : Halt.crash c = g at mayHalt
    cases mayHalt with
    | fresh _ => cases crashed
    | raised answers => cases answers
    | step answers _ _ => cases answers

/-- With builtin types, parses whose commands go alike have the same result, or their faults are
alike but for the lines. -/
theorem parse_alike {n m : Schema Value} {start start' : Nat} (builtins : p.HasBuiltins n)
    (alike : (p.command p.options.parseFlags (p.initial start) n).Rel
      (fun s t => s.result = t.result) (Halt.Alike offsets)
      (q.command q.options.parseFlags (q.initial start') m)) :
    (∃ r, (p.parse n start).result = .ok r ∧ (q.parse m start').result = .ok r) ∨
    ∃ f g : Fault, f.Alike offsets g ∧
      (p.parse n start).result = .error (.fault { f with command := .str p.source }) ∧
      (q.parse m start').result = .error (.fault { g with command := .str q.source }) := by
  generalize hp : p.command p.options.parseFlags (p.initial start) n = o at alike
  generalize hq : q.command q.options.parseFlags (q.initial start') m = o' at alike
  cases alike with
  | ok h => exact .inl ⟨_, parse_of_ok hp, h ▸ parse_of_ok hq⟩
  | halt h =>
    cases h with
    | fault h => exact .inr ⟨_, _, h, parse_of_fresh h.fresh.1 hp, parse_of_fresh h.fresh.2 hq⟩
    | crash c =>
      obtain ⟨f, crashed, -⟩ := fault_of_builtins builtins (inPlace_tokenize p.source start) hp
      cases crashed

/-! ## Offsets that are moved -/

/-- Tokens of a line are read alike where the line stands behind a prefix. -/
theorem readsAlike_shift (before line : String) {xs : List Token}
    (inLine : ∀ a ∈ xs, a.InLine line) :
    xs.Forall₂ (Token.ReadsAlike live (fun a b => b = a + before.length) line (before ++ line))
      (xs.map (Token.shift before.length)) := by
  rw [List.forall₂_map_right_iff, List.forall₂_same]
  intro a mem
  refine ⟨⟨rfl, rfl, rfl⟩, fun _ => rfl, fun _ _ => ?_⟩
  rw [Token.positions_append before line (inLine a mem).start_nonneg, List.forall₂_map_right_iff,
    List.forall₂_same]
  exact fun _ _ => rfl

/-- What stands behind a prefix is as far behind as the prefix is long. -/
theorem aligned_append (p : Parser) (before : String) :
    p.Aligned (fun a b => b = a + (before.length : Int))
      { p with source := before ++ p.source } := by
  refine ⟨rfl, rfl, rfl, rfl, ?_⟩
  show (((before ++ p.source).length : Nat) : Int) = p.source.length + (before.length : Int)
  rw [String.length_append]
  omega

/-- From the same tokens behind a prefix, a command goes alike, with its places moved. -/
theorem command_append {before : String}
    (aligned : p.Aligned (fun a b => b = a + (before.length : Int)) q)
    (source : q.source = before ++ p.source) {n : Schema Value} (builtins : p.HasBuiltins n)
    (active : Bool) (inLine : s.InLine p.source) (result : s.result = t.result)
    (left : t.left = s.left.map (Token.shift before.length)) :
    (p.command active s n).Rel (fun s t => s.result = t.result)
      (Halt.Alike fun a b => b = a + (before.length : Int)) (q.command active t n) := by
  refine command_aligned aligned builtins active result ?_
  rw [left, source]
  exact readsAlike_shift before p.source inLine

/-- With builtin types, a parse from behind a prefix on goes as a parse of the rest of the line. -/
theorem parse_append (p : Parser) (before : String) {n : Schema Value}
    (builtins : p.HasBuiltins n) :
    let q : Parser := { p with source := before ++ p.source }
    (∃ m, (p.parse n 0).result = .ok m ∧ (q.parse n before.length).result = .ok m) ∨
    ∃ f g : Fault, f.Alike (fun a b => b = a + (before.length : Int)) g ∧
      (p.parse n 0).result = .error (.fault { f with command := .str p.source }) ∧
      (q.parse n before.length).result = .error (.fault { g with command := .str q.source }) := by
  intro q
  have inLine : (p.initial 0).InLine p.source := fun _ mem => Token.inLine_of_mem_tokenize mem
  have left : (q.initial before.length).left =
      (p.initial 0).left.map (Token.shift before.length) :=
    Token.tokenize_append before p.source
  exact parse_alike builtins
    (command_append (p.aligned_append before) rfl builtins _ inLine rfl left)

/-! ## Offsets that are arbitrary -/

/-- Tokens in their places that have the same texts, and the same quotes where flags may be active,
are read alike, wherever they stand. -/
theorem readsAlike_of_words {line line' : String} {xs ys : List Token}
    (placed : ∀ a ∈ xs, a.quoted = false → a.Placed line)
    (placed' : ∀ b ∈ ys, b.quoted = false → b.Placed line')
    (texts : xs.map Token.text = ys.map Token.text)
    (quotes : live → xs.map Token.quoted = ys.map Token.quoted) :
    xs.Forall₂ (Token.ReadsAlike live (fun _ _ => True) line line') ys := by
  induction xs generalizing ys with
  | nil =>
    cases List.map_eq_nil_iff.1 texts.symm
    exact .nil
  | cons a xs ih =>
    obtain ⟨b, ys, rfl, htext, texts⟩ := List.map_eq_cons_iff.1 texts.symm
    obtain ⟨hplaced, placed⟩ := List.forall_mem_cons.1 placed
    obtain ⟨hplaced', placed'⟩ := List.forall_mem_cons.1 placed'
    have quoted : live → a.quoted = b.quoted := fun flagging =>
      (List.cons.inj (quotes flagging)).1
    refine .cons ⟨⟨htext.symm, trivial, trivial⟩, quoted, ?_⟩ ?_
    · intro flagging hquoted
      refine List.forall₂_iff_get.2 ⟨?_, fun _ _ _ => trivial⟩
      rw [(hplaced hquoted).length_positions,
        (hplaced' ((quoted flagging).symm.trans hquoted)).length_positions, htext]
    · exact ih placed placed' texts.symm fun flagging => (List.cons.inj (quotes flagging)).2

/-- With builtin types, a parse depends on the words of the line and on which of them are quoted,
and without flags on the words alone. Two lines that agree on these, whatever their blanks, escapes
and offsets, have the same result, or faults of the same kind with the same message. -/
theorem layout_irrelevant (p : Parser) (line : String) {schema : Schema Value} (start start' : Nat)
    (builtins : p.HasBuiltins schema)
    (texts : (Token.tokenize p.source start).map Token.text =
      (Token.tokenize line start').map Token.text)
    (quotes : p.options.parseFlags = true → (Token.tokenize p.source start).map Token.quoted =
      (Token.tokenize line start').map Token.quoted) :
    let q : Parser := { p with source := line }
    (∃ m, (p.parse schema start).result = .ok m ∧ (q.parse schema start').result = .ok m) ∨
    ∃ f g, (p.parse schema start).result = .error (.fault f) ∧
      (q.parse schema start').result = .error (.fault g) ∧
      f.kind = g.kind ∧ f.message = g.message := by
  intro q
  have aligned : p.Aligned (fun _ _ => True) q := ⟨rfl, rfl, rfl, rfl, trivial⟩
  have tokens := readsAlike_of_words
    (fun _ mem hquoted => Token.placed_of_mem_tokenize mem hquoted)
    (fun _ mem hquoted => Token.placed_of_mem_tokenize mem hquoted) texts quotes
  have hcommand := command_aligned (s := p.initial start) (t := q.initial start') aligned builtins
    p.options.parseFlags rfl tokens
  obtain ⟨m, hp, hq⟩ | ⟨f, g, alike, hp, hq⟩ := parse_alike builtins hcommand
  · exact .inl ⟨m, hp, hq⟩
  · exact .inr ⟨_, _, hp, hq, alike.kind, alike.message⟩

theorem hasBuiltins_calculator (source : String) : (forLine source).HasBuiltins calculator :=
  hasBuiltins_of_named rfl named_calculator

theorem layout_irrelevant_calculator : ∃ f g,
    ((forLine "add -t=x 1").parse calculator 0).result = .error (.fault f) ∧
      ((forLine " a\\dd  -t\\=x 1").parse calculator 0).result = .error (.fault g) ∧
      f.kind = g.kind ∧ f.message = g.message ∧ f.span = some (7, 8) ∧ g.span = some (11, 12) := by
  obtain ⟨f, failed, place⟩ : ∃ f,
      ((forLine "add -t=x 1").parse calculator 0).result = .error (.fault f) ∧
        f.span = some (7, 8) := Report.exists_fault_of_span (by decide +kernel)
  obtain ⟨g, failed', place'⟩ : ∃ f,
      ((forLine " a\\dd  -t\\=x 1").parse calculator 0).result = .error (.fault f) ∧
        f.span = some (11, 12) := Report.exists_fault_of_span (by decide +kernel)
  obtain ⟨m, ok, -⟩ | ⟨f', g', hf, hg, kind, message⟩ :=
    layout_irrelevant (forLine "add -t=x 1") " a\\dd  -t\\=x 1" 0 0 (hasBuiltins_calculator _)
      (by decide +kernel) (fun _ => by decide +kernel)
  · cases ok.symm.trans failed
  · cases hf.symm.trans failed
    cases hg.symm.trans failed'
    exact ⟨f, g, failed, failed', kind, message, place, place'⟩

end Parser

end CommandGrammar
