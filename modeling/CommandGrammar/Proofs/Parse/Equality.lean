import CommandGrammar.Proofs.Parse.Agreement
import CommandGrammar.Proofs.Parse.Layout
import CommandGrammar.Proofs.Value.Equal

/-!
# Schemas that are equal

Schemas that are equal parse alike, though their bounds and defaults may be equal without being the
same: one run carries what is equal to what the other one carries, from state to state, and the two
take every turn together (`equality`). So the results are equal, or the faults are of one kind and
in one place (`equal_schemas_agree`). Only the texts of faults tell which bound it was.
-/

namespace CommandGrammar

/-! ## Conversions with equal settings -/

/-- Answers to a token that are the same, or faults of the whole token that are of one kind, which
is listed. -/
inductive Answer.Similar (token : Token) : Answer → Answer → Prop
  | same (answer : Answer) : Similar token answer answer
  | fault {kind : FaultKind} (listed : kind ∈ FaultKind.all) (message message' : String) :
      Similar token (.fault (.ofToken kind message token 0 0))
        (.fault (.ofToken kind message' token 0 0))

namespace Builtin

variable {o o' : Option NumericOptions} {token : Token}

/-- Of bounds that are equal both are written, or neither is. -/
theorem beyond_similar {bound bound' : Number} (same : Value.numberEq true bound bound' = true)
    (message : String → String) (token : Token) :
    (beyond bound message token).Similar token (beyond bound' message token) := by
  unfold beyond
  rcases Value.numberEq_text same with equal | ⟨t, t', written, written'⟩
  · rw [equal]
    exact .same _
  · rw [written, written']
    exact .fault (by decide) _ _

/-- Ranges that are equal refuse the same numbers, and on the same side. -/
theorem checkRange_similar (settings : Value.OptionsEqual o o') (token : Token) (n : Number) :
    (checkRange o token n).Similar token (checkRange o' token n) := by
  cases settings with
  | none => exact .same _
  | @some u u' equal =>
    cases u with
    | signedness unsigned =>
      cases u' with
      | signedness unsigned' => exact .same _
      | range low high => cases equal
    | range low high =>
      cases u' with
      | signedness unsigned' => cases equal
      | range low' high' =>
        obtain ⟨hlow, hhigh⟩ := Bool.and_eq_true_iff.1 equal
        have below := Value.boundsEq_filter hlow fun l l' same => (Value.numberEq_lt same n).1
        have above := Value.boundsEq_filter hhigh fun l l' same => (Value.numberEq_lt same n).2
        unfold checkRange
        dsimp only
        generalize low.filter n.lt = x at below
        generalize low'.filter n.lt = x' at below
        generalize high.filter (·.lt n) = y at above
        generalize high'.filter (·.lt n) = y' at above
        cases below with
        | some same => exact beyond_similar same _ token
        | none =>
          cases above with
          | some same => exact beyond_similar same _ token
          | none => exact .same _

theorem isUnsigned_congr (settings : Value.OptionsEqual o o') : isUnsigned o = isUnsigned o' := by
  cases settings with
  | none => rfl
  | @some u u' equal =>
    cases u with
    | signedness unsigned =>
      cases u' with
      | signedness unsigned' => exact beq_iff_eq.1 equal
      | range low high => cases equal
    | range low high =>
      cases u' with
      | signedness unsigned' => cases equal
      | range low' high' => rfl

/-- A builtin type answers to a token alike where settings are equal. -/
theorem convert_similar (b : Builtin) (settings : Value.OptionsEqual o o') (token : Token) :
    (b.convert o token).Similar token (b.convert o' token) := by
  cases b with
  | string => exact .same _
  | boolean => exact .same _
  | decimal kind => exact .same _
  | integer size =>
    rw [convert, convert, convertInteger, convertInteger, isUnsigned_congr settings]
    exact .same _
  | number =>
    rw [convert, convert, convertNumber, convertNumber]
    cases Numeral.read? token.text.toList with
    | none => exact .same _
    | some n =>
      dsimp only
      cases n.fraction with
      | some fraction => exact checkRange_similar settings token _
      | none =>
        dsimp only
        split
        · exact .same _
        · exact checkRange_similar settings token _

theorem checkRange_self {n : Number} {v step : Value}
    (h : checkRange o token n = .conversion v step) : Value.eqv true v v = true := by
  have value : v = .ofNumber n := by
    unfold checkRange at h
    split at h
    · split at h
      · exact absurd h beyond_ne_conversion
      · exact absurd h beyond_ne_conversion
      · cases h
        rfl
    · cases h
      rfl
  rw [value]
  exact Value.eqv_ofNumber n

/-- What a builtin type converts a token to equals itself. -/
theorem convert_self {b : Builtin} {v step : Value} (h : b.convert o token = .conversion v step) :
    Value.eqv true v v = true := by
  cases b with
  | string =>
    cases h
    exact beq_self_eq_true token.text
  | boolean =>
    rw [convert, convertBoolean] at h
    split at h
    · cases h
      exact Value.numberEq_self (.int 1)
    · split at h
      · cases h
        exact Value.numberEq_self (.int 0)
      · cases h
  | number =>
    rw [convert, convertNumber] at h
    split at h
    · cases h
    · split at h
      · exact checkRange_self h
      · split at h
        · cases h
        · exact checkRange_self h
  | integer size =>
    rw [convert, convertInteger] at h
    split at h
    · cases h
    · split at h
      · cases h
      · dsimp only at h
        split at h
        · cases h
          exact Value.numberEq_self (.int _)
        · cases h
  | decimal kind =>
    rw [convert, convertDecimal] at h
    split at h
    · split at h
      · split at h
        · cases h
          exact Value.numberEq_self (.real _)
        · cases h
      · cases h
    · cases h

end Builtin

/-! ## States and halts -/

/-- Halts that are the same, or fresh faults of the same kind in the same place. -/
inductive Halt.Similar : Halt → Halt → Prop
  | same (h : Halt) : Similar h h
  | fault {f g : Fault} (kind : f.kind = g.kind) (span : f.span = g.span) (fresh : f.Fresh)
      (fresh' : g.Fresh) : Similar (.fault f) (.fault g)

/-- An invalid step is one for every argument. -/
theorem Halt.invalidStep_similar (a b : Argument Value) (step : Value) (token : Token) :
    (invalidStep a step token).Similar (invalidStep b step token) := by
  unfold invalidStep
  split
  · exact .fault rfl rfl (Fault.fresh_ofToken (by decide)) (Fault.fresh_ofToken (by decide))
  · exact .same _

/-- States at the same token of the same tokens, with results that are equal. -/
structure State.Equal (s t : State) : Prop where
  tokens : t.tokens = s.tokens
  index : t.index = s.index
  result : s.result.Equal t.result

namespace State.Equal

variable {s t u v : State}

theorem hearing (h : s.Equal t) (events others : List Event) :
    (s.hearing events).Equal (t.hearing others) :=
  ⟨h.tokens, h.index, h.result⟩

theorem left (h : s.Equal t) : t.left = s.left := by rw [State.left, h.tokens, h.index, State.left]

theorem next? (h : s.Equal t) : t.next? = s.next? := by
  rw [State.next?_eq_head?, h.left, State.next?_eq_head?]

theorem advance (h : s.Equal t) : s.advance.Equal t.advance :=
  ⟨h.tokens, congrArg (· + 1) h.index, h.result⟩

theorem write {v v' : Value} (h : s.Equal t) (dest : String) (same : Value.eqv true v v' = true) :
    (s.write dest v).Equal (t.write dest v') :=
  ⟨h.tokens, h.index, h.result.insert dest same⟩

theorem mark (h : s.Equal t) (dest : String) : (s.mark dest).Equal (t.mark dest) :=
  h.write dest (Value.numberEq_self (.int 1))

theorem foldl_mark (h : s.Equal t) (marks : List String) :
    (marks.foldl State.mark s).Equal (marks.foldl State.mark t) := by
  induction marks generalizing s t with
  | nil => exact h
  | cons dest rest ih => exact ih (h.mark dest)

theorem scratch (h : s.Equal t) : s.scratch.Equal t.scratch := ⟨h.tokens, h.index, .nil⟩

theorem merge (h : s.Equal t) (h' : u.Equal v) :
    State.Equal { u with result := s.result.merge u.result }
      { v with result := t.result.merge v.result } :=
  ⟨h'.tokens, h'.index, h.result.merge h'.result⟩

end State.Equal

/-! ## The simulation -/

/-- What a search finds in lists that are related item by item is related, if it does not tell
related items apart. -/
theorem find?_rel {α β : Type} {R : α → β → Prop} {f : α → Bool} {g : β → Bool} {xs : List α}
    {ys : List β} (h : xs.Forall₂ R ys) (alike : ∀ a b, R a b → f a = g b) :
    (xs.find? f).Rel R (ys.find? g) := by
  induction h with
  | nil => exact .none
  | @cons a b rest rest' head _ ih =>
    rw [List.find?_cons, List.find?_cons, alike a b head]
    split
    · exact .some head
    · exact ih

namespace Parser

variable {p : Parser} {s t : State} {a b : Argument Value} {flags flags' : List (Flag Value)}

/-- An argument that equals one of a builtin type has the same type. -/
theorem HasBuiltin.congr (builtin : p.HasBuiltin a) (same : a.type = b.type) : p.HasBuiltin b := by
  intro converter hconverter
  rw [← same] at hconverter
  exact builtin converter hconverter

/-- Arguments of builtin types that are equal are converted to the same value, or refused alike. -/
theorem argument_equal (same : Value.argumentEqv true a b = true) (builtin : p.HasBuiltin a)
    (h : s.Equal t) :
    (p.argument a s).Rel State.Equal Halt.Similar (p.argument b t) := by
  obtain ⟨dest, type, -, -, -, -, settings, -⟩ := Value.argumentEqv_iff.1 same
  rw [argument, argument, h.tokens, h.index, ← type]
  cases s.tokens.drop s.index with
  | nil => exact .halt (.same _)
  | cons token rest =>
    have ofToken : ∀ {kind message message'}, kind ∈ FaultKind.all →
        Halt.Similar (.fault (.ofToken kind message token 0 0))
          (.fault (.ofToken kind message' token 0 0)) := by
      intro kind message message' listed
      exact .fault rfl rfl (Fault.fresh_ofToken listed) (Fault.fresh_ofToken listed)
    cases hconverter : p.converterOf a.type with
    | none => exact .halt (ofToken (by decide))
    | some converter =>
      obtain ⟨c, rfl⟩ := builtin converter hconverter
      dsimp only [answer]
      have similar := c.convert_similar settings token
      have self := fun v step => @Builtin.convert_self a.options token c v step
      generalize c.convert a.options token = x at similar self
      generalize c.convert b.options token = y at similar
      cases similar with
      | fault listed message message' => exact .halt (ofToken listed)
      | same =>
        cases x with
        | fault f => exact .halt (.same _)
        | crash crash => exact .halt (.same _)
        | other v => exact .halt (ofToken (by decide))
        | conversion v step =>
          dsimp only [accept]
          cases stepOf? step with
          | none => exact .halt (Halt.invalidStep_similar a b step token)
          | some count =>
            have written := h.write a.dest (self v step rfl)
            rw [dest] at written ⊢
            exact .ok ⟨written.tokens, congrArg (· + count) h.index, written.result⟩

/-- Two runs of one parser with arguments that are equal. -/
def argumentEquality (p : Parser) : ArgumentSimulation p p where
  states := State.Equal
  halts := Halt.Similar
  arguments a b := Value.argumentEqv true a b = true ∧ p.HasBuiltin a
  left h := by rw [h.left]
  crash h := by
    cases h with
    | same h => exact Iff.rfl
    | fault _ _ _ _ => exact ⟨fun ⟨_, h⟩ => Halt.noConfusion h, fun ⟨_, h⟩ => Halt.noConfusion h⟩
  hearing events others h := h.hearing events others
  argument ha h _ := argument_equal ha.1 ha.2 h
  required ha := (Value.argumentEqv_iff.1 ha.1).2.2.2.1
  default {a b s t} ha h := by
    obtain ⟨dest, -, -, -, default, -⟩ := Value.argumentEqv_iff.1 ha.1
    rw [← dest]
    exact h.write a.dest default
  flagArgumentRequired := .same _

/-- Flags that are equal. -/
abbrev FlagsEqual (flags flags' : List (Flag Value)) : Prop :=
  flags.Forall₂ (fun f g => Value.flagEqv f g = true) flags'

/-- What is spelled with flags that are equal: the same marks and flags that are equal, or the same
error. -/
inductive SpelledAlike {ε : Type} : Except ε Spelled → Except ε Spelled → Prop
  | ok {f g : Flag Value} {marks : List String} (same : Value.flagEqv f g = true) :
      SpelledAlike (.ok ⟨f, marks⟩) (.ok ⟨g, marks⟩)
  | error (e : ε) : SpelledAlike (.error e) (.error e)

theorem longFlag?_equal (same : FlagsEqual flags flags') (name : List Char) :
    (longFlag? flags name).Rel (fun f g => Value.flagEqv f g = true) (longFlag? flags' name) := by
  refine find?_rel same ?_
  intro f g equal
  rw [(Value.flagEqv_iff.1 equal).2.1]

theorem shortFlag?_equal (same : FlagsEqual flags flags') (code : Char) :
    (shortFlag? flags code).Rel (fun f g => Value.flagEqv f g = true) (shortFlag? flags' code) := by
  refine find?_rel same ?_
  intro f g equal
  rw [(Value.flagEqv_iff.1 equal).2.2.1]

/-- Flags that are equal have as many arguments. -/
theorem isEmpty_args_of_equal {f g : Flag Value} (equal : Value.flagEqv f g = true) :
    f.args.isEmpty = g.args.isEmpty := by
  have hargs := Value.argumentsEqv_iff.1 (Value.flagEqv_iff.1 equal).2.2.2.2
  generalize f.args = args at hargs
  generalize g.args = args' at hargs
  cases hargs <;> rfl

theorem packed_equal (same : FlagsEqual flags flags') (equalsEnds : Bool) {last last' : Flag Value}
    (equal : Value.flagEqv last last' = true) (marks : List String) (offset : Nat)
    (cs : List Char) :
    SpelledAlike (packed flags equalsEnds last marks offset cs)
      (packed flags' equalsEnds last' marks offset cs) := by
  induction cs generalizing last last' marks offset with
  | nil => exact .ok equal
  | cons c rest ih =>
    rw [packed, packed, isEmpty_args_of_equal equal]
    split
    · exact .ok equal
    · have found := shortFlag?_equal same c
      generalize shortFlag? flags c = f at found
      generalize shortFlag? flags' c = g at found
      cases found with
      | none => exact .error _
      | @some f g equal =>
        dsimp only
        rw [(Value.flagEqv_iff.1 equal).1]
        exact ih equal _ _

theorem shortCodes_equal (same : FlagsEqual flags flags') (equalsEnds : Bool) (c : Char)
    (rest : List Char) :
    SpelledAlike (shortCodes flags equalsEnds c rest) (shortCodes flags' equalsEnds c rest) := by
  rw [shortCodes, shortCodes]
  have found := shortFlag?_equal same c
  generalize shortFlag? flags c = f at found
  generalize shortFlag? flags' c = g at found
  cases found with
  | none => exact .error _
  | @some f g equal =>
    dsimp only
    rw [(Value.flagEqv_iff.1 equal).1]
    exact packed_equal same equalsEnds equal _ _ _

/-- A token spells flags that are equal, with the same marks, or it is refused alike. -/
theorem spelled_equal (p : Parser) (same : FlagsEqual flags flags') (token : Token) (c : Char)
    (rest : List Char) :
    SpelledAlike (p.spelled flags token c rest) (p.spelled flags' token c rest) := by
  have long := longFlag?_equal same (Spelling.ofChars c rest).name
  have short := shortCodes_equal same p.options.equalsInShortFlags c rest
  unfold spelled
  dsimp only
  generalize longFlag? flags (Spelling.ofChars c rest).name = f at long
  generalize longFlag? flags' (Spelling.ofChars c rest).name = g at long
  generalize shortCodes flags p.options.equalsInShortFlags c rest = x at short
  generalize shortCodes flags' p.options.equalsInShortFlags c rest = y at short
  cases short with
  | ok equal =>
    dsimp only
    cases long with
    | none =>
      dsimp only
      split
      · exact .error _
      · exact .ok equal
    | some equal' =>
      dsimp only
      split
      · exact .ok equal'
      · exact .ok equal
  | error e =>
    dsimp only
    cases long with
    | none =>
      dsimp only
      split
      · exact .error _
      · exact .error _
    | some equal' =>
      dsimp only
      split
      · exact .ok equal'
      · exact .error _

theorem arguments_equal {args args' : List (Argument Value)}
    (equal : Value.argumentsEqv args args' = true) (builtin : ∀ a ∈ args, p.HasBuiltin a) :
    args.Forall₂ p.argumentEquality.arguments args' := by
  have both : args.Forall₂ (fun a b => p.HasBuiltin a ∧ Value.argumentEqv true a b = true) args' :=
    (List.forall₂_and_left _ _).2 ⟨builtin, Value.argumentsEqv_iff.1 equal⟩
  exact both.imp fun a b h => ⟨h.2, h.1⟩

/-- Flags that are equal, with arguments of builtin types, are taken alike. -/
theorem flag_equal {token : Token} {c : Char} {rest : List Char} (same : FlagsEqual flags flags')
    (builtin : ∀ f ∈ flags, ∀ a ∈ f.args, p.HasBuiltin a) (h : s.Equal t) :
    (p.flag flags token c rest s).Rel State.Equal Halt.Similar
      (p.flag flags' token c rest t) := by
  have similar := p.spelled_equal same token c rest
  have mem := fun f marks => @spelled_eq_ok p flags token c rest f marks
  rw [flag, flag]
  generalize p.spelled flags token c rest = x at similar mem
  generalize p.spelled flags' token c rest = y at similar
  cases similar with
  | error e => exact .halt (.same e)
  | @ok f g marks equal =>
    obtain ⟨dest, -, -, -, hargs⟩ := Value.flagEqv_iff.1 equal
    have arguments := arguments_equal hargs (builtin f (mem f marks rfl).1)
    have hmarks := h.foldl_mark marks
    dsimp only
    rw [← isEmpty_args_of_equal equal, ← dest]
    generalize marks.foldl State.mark s = s at hmarks
    generalize marks.foldl State.mark t = t at hmarks
    cases (Spelling.ofChars c rest).value with
    | none =>
      have taken := p.argumentEquality.flagArguments false arguments hmarks.advance
      exact taken.marked fun h => h.mark f.dest
    | some value =>
      dsimp only
      by_cases noArguments : f.args.isEmpty = true
      · rw [if_pos noArguments, if_pos noArguments, hmarks.tokens, hmarks.index]
        exact .halt (.same _)
      · rw [if_neg noArguments, if_neg noArguments]
        cases token.cut? (token.positions p.source) (Spelling.ofChars c rest).length value with
        | none => exact .halt (.same _)
        | some pieces =>
          have opened : State.Equal { s with tokens := replaceAt s.tokens s.index pieces }
              { t with tokens := replaceAt t.tokens t.index pieces } :=
            ⟨by rw [hmarks.tokens, hmarks.index], hmarks.index, hmarks.result⟩
          have taken := p.argumentEquality.flagArguments true arguments opened.advance
          exact taken.marked fun h => h.mark f.dest

theorem selected?_equal {n m : Schema Value} (equal : Value.schemaEqv n m = true) (word : String) :
    (n.selected? word).Rel (fun n m => Value.schemaEqv n m = true) (m.selected? word) := by
  obtain ⟨-, -, -, -, -, -, hsubs⟩ := Value.schemaEqv_iff.1 equal
  refine find?_rel (Value.schemasEqv_iff.1 hsubs) ?_
  intro sub sub' same
  obtain ⟨name, -, aliases, -⟩ := Value.schemaEqv_iff.1 same
  rw [Schema.matches, Schema.matches, Schema.words, Schema.words, name, aliases]

theorem alternatives_equal {n m : Schema Value} (equal : Value.schemaEqv n m = true) :
    n.alternatives.Forall₂ (fun n m => Value.schemaEqv n m = true) m.alternatives := by
  obtain ⟨-, -, -, -, -, -, hsubs⟩ := Value.schemaEqv_iff.1 equal
  refine List.rel_filter ?_ (Value.schemasEqv_iff.1 hsubs)
  intro sub sub' same
  obtain ⟨name, -⟩ := Value.schemaEqv_iff.1 same
  show (!sub.named) = true ↔ (!sub'.named) = true
  rw [Schema.named, Schema.named, name]

/-- Two runs of one parser with schemas that are equal and have builtin types. -/
def equality (p : Parser) : Simulation p p where
  __ := p.agreement
  toArgumentSimulation := p.argumentEquality
  schemas n m := Value.schemaEqv n m = true ∧ p.HasBuiltins n
  next h := by
    rw [h.next?]
    cases State.next? _ with
    | none => exact .none
    | some token => exact .some rfl
  advance h := h.advance
  mark key h := h.mark key
  scratch h := h.scratch
  merge h h' := h.merge h'
  flag {n m a b c rest s t} _ hschema h next next' _ := by
    obtain ⟨equal, builtins⟩ := hschema
    obtain ⟨-, -, -, -, -, hflags, -⟩ := Value.schemaEqv_iff.1 equal
    cases Option.some.inj (next'.symm.trans (h.next?.trans next))
    refine flag_equal (Value.flagsEqv_iff.1 hflags) ?_ h
    intro f hf a ha
    exact builtins n (.refl n) (some f) a ⟨hf, ha⟩
  dest h := (Value.schemaEqv_iff.1 h.1).2.1
  args {n m} h := by
    obtain ⟨equal, builtins⟩ := h
    obtain ⟨-, -, -, -, hargs, -, -⟩ := Value.schemaEqv_iff.1 equal
    exact arguments_equal hargs fun a ha => builtins n (.refl n) none a ha
  leaf {n m} h := by
    obtain ⟨-, -, -, -, -, -, hsubs⟩ := Value.schemaEqv_iff.1 h.1
    have subs := Value.schemasEqv_iff.1 hsubs
    generalize n.subcommands = subs at subs
    generalize m.subcommands = subs' at subs
    cases subs <;> rfl
  selected {n m} word h := by
    obtain ⟨equal, builtins⟩ := h
    have found := selected?_equal equal word
    cases hselected : n.selected? word with
    | none =>
      rw [hselected] at found
      generalize m.selected? word = other at found
      cases found
      exact .none
    | some sub =>
      rw [hselected] at found
      generalize m.selected? word = other at found
      cases found with
      | some same =>
        have mem := (Schema.selected?_eq_some hselected).1
        exact .some ⟨same, fun k reaches => builtins k (.down mem reaches)⟩
  unnamed {n m} h := by
    obtain ⟨equal, builtins⟩ := h
    have below : ∀ sub ∈ n.alternatives, p.HasBuiltins sub := by
      intro sub mem k reaches
      exact builtins k (.down (List.mem_filter.1 mem).1 reaches)
    have both : n.alternatives.Forall₂
        (fun n m => p.HasBuiltins n ∧ Value.schemaEqv n m = true) m.alternatives :=
      (List.forall₂_and_left _ _).2 ⟨below, alternatives_equal equal⟩
    exact both.imp fun n m h => ⟨h.2, h.1⟩
  tooManyArguments h := by
    cases h
    exact .same _
  unexpectedEnd := .same _
  unknownSubcommand h := by
    cases h
    exact .same _

/-- Where commands end alike, parses with builtin types have equal results or similar faults. -/
theorem parse_similar {n m : Schema Value} {start : Nat} (builtins : p.HasBuiltins n)
    (similar : (p.command p.options.parseFlags (p.initial start) n).Rel State.Equal Halt.Similar
      (p.command p.options.parseFlags (p.initial start) m)) :
    (∃ r r', (p.parse n start).result = .ok r ∧ (p.parse m start).result = .ok r' ∧ r.Equal r') ∨
    ∃ f g, (p.parse n start).result = .error (.fault f) ∧
      (p.parse m start).result = .error (.fault g) ∧ f.kind = g.kind ∧ f.span = g.span := by
  generalize hn : p.command p.options.parseFlags (p.initial start) n = o at similar
  generalize hm : p.command p.options.parseFlags (p.initial start) m = o' at similar
  cases similar with
  | ok h => exact .inl ⟨_, _, parse_of_ok hn, parse_of_ok hm, h.result⟩
  | halt h =>
    cases h with
    | fault kind span fresh fresh' =>
      exact .inr ⟨_, _, parse_of_fresh fresh hn, parse_of_fresh fresh' hm, kind, span⟩
    | same h =>
      obtain ⟨f, rfl, fresh⟩ := fault_of_builtins builtins (inPlace_tokenize p.source start) hn
      exact .inr ⟨_, _, parse_of_fresh fresh hn, parse_of_fresh fresh hm, rfl, rfl⟩

/-- Where schemas are equal and types are builtin, every line is parsed alike with the one and with
the other: to results that are equal, with the same keys in the same order, or to faults of the
same kind in the same place. -/
theorem equal_schemas_agree (p : Parser) {n m : Schema Value} (start : Nat)
    (equal : Value.eq (.schema n) (.schema m) = true) (builtins : p.HasBuiltins n) :
    (∃ r r', (p.parse n start).result = .ok r ∧ (p.parse m start).result = .ok r' ∧
      Value.eq r.asValue r'.asValue = true ∧ r.keys = r'.keys) ∨
    ∃ f g, (p.parse n start).result = .error (.fault f) ∧
      (p.parse m start).result = .error (.fault g) ∧ f.kind = g.kind ∧ f.span = g.span := by
  have start_equal : (p.initial start).Equal (p.initial start) := ⟨rfl, rfl, .nil⟩
  have commands := p.equality.command ⟨equal, builtins⟩ p.options.parseFlags _ _
    (fun _ => trivial) start_equal
  obtain ⟨r, r', hn, hm, same⟩ | faults := parse_similar builtins commands
  · exact .inl ⟨r, r', hn, hm, same.eq_asValue, same.keys⟩
  · exact .inr faults

/-- A command with an optional number that has a least value. -/
def dial (least : Number) (default : Value) : Schema Value where
  name := some "dial"
  dest := "dial"
  aliases := []
  help := none
  args := [⟨"level", .named "number", "level", false, default, none,
    some (.range (some least) none), []⟩]
  flags := []
  subcommands := []

theorem hasBuiltins_dial (source : String) (least : Number) (default : Value) :
    (forLine source).HasBuiltins (dial least default) :=
  hasBuiltins_of_leaf rfl rfl (List.forall_mem_singleton.2 ⟨"number", rfl⟩) (List.forall_mem_nil _)

/-- One as a whole number and as a floating-point number, and the truth value that equals it. -/
theorem equal_schemas_agree_dial :
    let n := dial (.int 1) (.int 1)
    let m := dial (.real ⟨0x3FF0000000000000⟩) (.bool true)
    Value.eq (.schema n) (.schema m) = true ∧
    (∃ r r', ((forLine "").parse n 0).result = .ok r ∧ ((forLine "").parse m 0).result = .ok r' ∧
      Value.eq r.asValue r'.asValue = true ∧ r.get? "level" = some (.int 1) ∧
      r'.get? "level" = some (.bool true)) ∧
    ∃ f g, ((forLine "0").parse n 0).result = .error (.fault f) ∧
      ((forLine "0").parse m 0).result = .error (.fault g) ∧ f.kind = g.kind ∧
      f.span = some (0, 1) ∧ g.span = some (0, 1) := by
  intro n m
  have equal : Value.eq (.schema n) (.schema m) = true := by decide +kernel
  refine ⟨equal, ?_, ?_⟩
  · obtain ⟨r, ok, found⟩ : ∃ r, ((forLine "").parse n 0).result = .ok r ∧
        r.get? "level" = some (.int 1) :=
      Report.exists_ok_of_scalar (.int 1) (by decide +kernel)
    obtain ⟨r', ok', found'⟩ : ∃ r, ((forLine "").parse m 0).result = .ok r ∧
        r.get? "level" = some (.bool true) :=
      Report.exists_ok_of_scalar (.bool true) (by decide +kernel)
    obtain ⟨a, b, ha, hb, same, -⟩ | ⟨f, g, hf, -⟩ :=
      equal_schemas_agree (forLine "") 0 equal (hasBuiltins_dial _ _ _)
    · cases ok.symm.trans ha
      cases ok'.symm.trans hb
      exact ⟨r, r', ok, ok', same, found, found'⟩
    · cases ok.symm.trans hf
  · obtain ⟨f, failed, place⟩ : ∃ f, ((forLine "0").parse n 0).result = .error (.fault f) ∧
        f.span = some (0, 1) := Report.exists_fault_of_span (by decide +kernel)
    obtain ⟨a, b, ha, -⟩ | ⟨f', g, hf, hg, kind, span⟩ :=
      equal_schemas_agree (forLine "0") 0 equal (hasBuiltins_dial _ _ _)
    · cases ha.symm.trans failed
    · cases hf.symm.trans failed
      exact ⟨f, g, failed, hg, kind, place, span ▸ place⟩

end Parser

end CommandGrammar
