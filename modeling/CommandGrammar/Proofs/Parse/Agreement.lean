import CommandGrammar.Proofs.Parse.Simulation

/-!
# Reported events and written results

What was reported has no influence on a parse: from states that agree on everything but their
events, commands end alike (`command_agrees`). A parse reads nothing of its result either, so a
relation between results that is kept by writing is kept by a parse (`command_corresponds`). Results
that agree under all keys but some are related so (`congruent_sameBut`).
-/

namespace CommandGrammar

/-- States that agree on everything but the events. -/
structure State.Agrees (s t : State) : Prop where
  tokens : t.tokens = s.tokens
  index : t.index = s.index
  result : t.result = s.result

namespace State.Agrees

variable {s t u v : State}

theorem refl (s : State) : s.Agrees s := ⟨rfl, rfl, rfl⟩

theorem symm (h : s.Agrees t) : t.Agrees s := ⟨h.tokens.symm, h.index.symm, h.result.symm⟩

theorem trans (h : s.Agrees t) (h' : t.Agrees u) : s.Agrees u :=
  ⟨h'.tokens.trans h.tokens, h'.index.trans h.index, h'.result.trans h.result⟩

theorem hearing (h : s.Agrees t) (events others : List Event) :
    (s.hearing events).Agrees (t.hearing others) :=
  ⟨h.tokens, h.index, h.result⟩

theorem of_hearing (s : State) (events : List Event) : (s.hearing events).Agrees s :=
  ⟨rfl, rfl, rfl⟩

theorem left (h : s.Agrees t) : t.left = s.left := by rw [State.left, h.tokens, h.index, State.left]

theorem next? (h : s.Agrees t) : t.next? = s.next? := by
  rw [State.next?_eq_head?, h.left, State.next?_eq_head?]

theorem advance (h : s.Agrees t) : s.advance.Agrees t.advance :=
  ⟨h.tokens, congrArg (· + 1) h.index, h.result⟩

theorem write (h : s.Agrees t) (dest : String) (v : Value) :
    (s.write dest v).Agrees (t.write dest v) :=
  ⟨h.tokens, h.index, congrArg (Mapping.insert · dest v) h.result⟩

theorem mark (h : s.Agrees t) (dest : String) : (s.mark dest).Agrees (t.mark dest) :=
  h.write dest _

theorem scratch (h : s.Agrees t) : s.scratch.Agrees t.scratch := ⟨h.tokens, h.index, rfl⟩

theorem merge (h : s.Agrees t) (h' : u.Agrees v) :
    State.Agrees { u with result := s.result.merge u.result }
      { v with result := t.result.merge v.result } :=
  ⟨h'.tokens, h'.index, by rw [h.result, h'.result]⟩

end State.Agrees

/-! ## Results that are related -/

/-- A relation between results that is kept by writing. -/
structure Mapping.Congruent (R : Mapping Value → Mapping Value → Prop) : Prop where
  empty : R .empty .empty
  insert {m m' : Mapping Value} : R m m' → ∀ key v, R (m.insert key v) (m'.insert key v)
  merge {m m' k k' : Mapping Value} : R m m' → R k k' → R (m.merge k) (m'.merge k')

/-- Results that agree under all keys but the hidden ones. -/
def Mapping.SameBut (hidden : String → Prop) (m m' : Mapping Value) : Prop :=
  ∀ key, ¬ hidden key → m.get? key = m'.get? key

theorem Mapping.congruent_sameBut (hidden : String → Prop) :
    Mapping.Congruent (Mapping.SameBut hidden) where
  empty _ _ := rfl
  insert {m m'} same key v := by
    intro other shown
    by_cases equal : other = key
    · simp [equal]
    · simp [equal, same other shown]
  merge {m m' k k'} same same' := by
    intro key shown
    simp [same key shown, same' key shown]

theorem Mapping.Congruent.insertAll {R : Mapping Value → Mapping Value → Prop}
    (congruent : Mapping.Congruent R) {m m' : Mapping Value} (h : R m m')
    (entries : List (String × Value)) : R (m.insertAll entries) (m'.insertAll entries) := by
  induction entries generalizing m m' with
  | nil => exact h
  | cons e entries ih => exact ih (congruent.insert h e.1 e.2)

theorem Mapping.SameBut.refl (hidden : String → Prop) (m : Mapping Value) : m.SameBut hidden m :=
  fun _ _ => rfl

/-- What is written under a hidden key makes no difference. -/
theorem Mapping.SameBut.hide {m m' : Mapping Value} {key : String} (same : m.SameBut (· = key) m')
    (v : Value) : m.SameBut (· = key) (m'.insert key v) := by
  intro other shown
  rw [same other shown, Mapping.get?_insert, if_neg shown]

/-- What was hidden does not matter any more once it is overwritten. -/
theorem Mapping.SameBut.insert {m m' : Mapping Value} {key : String}
    (same : m.SameBut (· = key) m') (v : Value) :
    (m.insert key v).SameBut (fun _ => False) (m'.insert key v) := by
  intro other _
  by_cases equal : other = key
  · simp [equal]
  · simp [equal, same other equal]

/-- States at the same token with results that are related. -/
structure State.Corresponds (R : Mapping Value → Mapping Value → Prop) (s t : State) : Prop where
  tokens : t.tokens = s.tokens
  index : t.index = s.index
  result : R s.result t.result

namespace State.Corresponds

variable {R : Mapping Value → Mapping Value → Prop} {s t u v : State}

theorem left (h : s.Corresponds R t) : t.left = s.left := by
  rw [State.left, h.tokens, h.index, State.left]

theorem next? (h : s.Corresponds R t) : t.next? = s.next? := by
  rw [State.next?_eq_head?, h.left, State.next?_eq_head?]

theorem hearing (h : s.Corresponds R t) (events others : List Event) :
    (s.hearing events).Corresponds R (t.hearing others) := ⟨h.tokens, h.index, h.result⟩

theorem advance (h : s.Corresponds R t) : s.advance.Corresponds R t.advance :=
  ⟨h.tokens, congrArg (· + 1) h.index, h.result⟩

theorem write (congruent : Mapping.Congruent R) (h : s.Corresponds R t) (dest : String)
    (v : Value) : (s.write dest v).Corresponds R (t.write dest v) :=
  ⟨h.tokens, h.index, congruent.insert h.result dest v⟩

theorem foldl_mark (congruent : Mapping.Congruent R) (h : s.Corresponds R t)
    (marks : List String) :
    (marks.foldl State.mark s).Corresponds R (marks.foldl State.mark t) := by
  induction marks generalizing s t with
  | nil => exact h
  | cons dest rest ih => exact ih (h.write congruent dest _)

end State.Corresponds

theorem Mapping.congruent_eq : Mapping.Congruent fun m m' => m' = m where
  empty := rfl
  insert same key v := congrArg (Mapping.insert · key v) same
  merge same same' := by rw [same, same']

theorem State.Agrees.corresponds {s t : State} (h : s.Agrees t) :
    s.Corresponds (fun m m' => m' = m) t := ⟨h.tokens, h.index, h.result⟩

theorem State.Corresponds.agrees {s t : State} (h : s.Corresponds (fun m m' => m' = m) t) :
    s.Agrees t := ⟨h.tokens, h.index, h.result⟩

/-! ## One parser on the same tokens -/

namespace Parser

variable {R : Mapping Value → Mapping Value → Prop} {p : Parser} {s t u : State}

theorem argument_corresponds (congruent : Mapping.Congruent R) (a : Argument Value)
    (h : s.Corresponds R t) :
    (p.argument a s).Rel (State.Corresponds R) Eq (p.argument a t) := by
  rw [argument, argument, h.tokens, h.index]
  cases s.tokens.drop s.index with
  | nil => exact .halt rfl
  | cons token rest =>
    cases p.converterOf a.type with
    | none => exact .halt rfl
    | some converter =>
      dsimp only
      obtain ⟨events, answer⟩ := p.answer converter token rest a
      cases answer with
      | fault f => exact .halt rfl
      | crash c => exact .halt rfl
      | other v => exact .halt rfl
      | conversion v step =>
        dsimp only [accept]
        cases stepOf? step with
        | none => exact .halt rfl
        | some count =>
          have written := congruent.insert h.result a.dest v
          exact .ok ⟨h.tokens, congrArg (· + count) h.index, written⟩

theorem argument_agrees (a : Argument Value) (h : s.Agrees t) :
    (p.argument a s).Rel State.Agrees Eq (p.argument a t) :=
  (argument_corresponds Mapping.congruent_eq a h.corresponds).imp
    (fun _ _ h => h.agrees) fun _ _ same => same

/-- Two runs of one parser on the same tokens, told apart by their events only. -/
def argumentAgreement (p : Parser) : ArgumentSimulation p p where
  states := State.Agrees
  halts := Eq
  arguments := Eq
  left h := by rw [h.left]
  crash h := by rw [h]
  hearing events others h := h.hearing events others
  argument ha h _ := ha ▸ argument_agrees _ h
  required ha := congrArg Argument.required ha
  default ha h := ha ▸ h.write _ _
  flagArgumentRequired := rfl

/-- Two runs of one parser on the same tokens, told apart by their results as well. -/
def argumentCorrespondence (p : Parser) (congruent : Mapping.Congruent R) :
    ArgumentSimulation p p :=
  { p.argumentAgreement with
    states := State.Corresponds R
    left := fun h => by rw [h.left]
    hearing := fun events others h => h.hearing events others
    argument := fun same h _ => same ▸ argument_corresponds congruent _ h
    default := fun same h => same ▸ h.write congruent _ _ }

/-- The arguments of a flag are converted in the same way, whatever was written before. -/
theorem flagArguments_corresponds (congruent : Mapping.Congruent R) (inline : Bool)
    (args : List (Argument Value)) (h : s.Corresponds R t) :
    (p.flagArguments inline args s).Rel (State.Corresponds R) Eq (p.flagArguments inline args t) :=
  (p.argumentCorrespondence congruent).flagArguments inline
    (List.forall₂_same.2 fun _ _ => rfl) h

theorem flag_corresponds (congruent : Mapping.Congruent R) {flags : List (Flag Value)}
    {token : Token} {c : Char} {rest : List Char} (h : s.Corresponds R t) :
    (p.flag flags token c rest s).Rel (State.Corresponds R) Eq (p.flag flags token c rest t) := by
  rw [flag, flag]
  cases p.spelled flags token c rest with
  | error f => exact .halt rfl
  | ok spelled =>
    obtain ⟨f, marks⟩ := spelled
    have marked := h.foldl_mark congruent marks
    have taken : ∀ {inline u v}, u.Corresponds R v →
        ((p.flagArguments inline f.args u).marked f.dest).Rel (State.Corresponds R) Eq
          ((p.flagArguments inline f.args v).marked f.dest) := by
      intro inline u v h
      exact (flagArguments_corresponds congruent inline f.args h).marked
        fun h => h.write congruent f.dest _
    dsimp only
    generalize marks.foldl State.mark s = s at marked
    generalize marks.foldl State.mark t = t at marked
    cases (Spelling.ofChars c rest).value with
    | none => exact taken marked.advance
    | some value =>
      dsimp only
      by_cases args : f.args.isEmpty = true
      · rw [if_pos args, if_pos args, marked.tokens, marked.index]
        exact .halt rfl
      · rw [if_neg args, if_neg args]
        cases token.cut? (token.positions p.source) (Spelling.ofChars c rest).length value with
        | none => exact .halt rfl
        | some pieces =>
          have cut : State.Corresponds R { s with tokens := replaceAt s.tokens s.index pieces }
              { t with tokens := replaceAt t.tokens t.index pieces } :=
            ⟨by rw [marked.tokens, marked.index], marked.index, marked.result⟩
          exact taken cut.advance

theorem flag_agrees {flags : List (Flag Value)} {token : Token} {c : Char} {rest : List Char}
    (h : s.Agrees t) :
    (p.flag flags token c rest s).Rel State.Agrees Eq (p.flag flags token c rest t) :=
  (flag_corresponds Mapping.congruent_eq h.corresponds).imp
    (fun _ _ h => h.agrees) fun _ _ same => same

/-- What was reported has no influence on a parse. -/
def agreement (p : Parser) : Simulation p p where
  toArgumentSimulation := p.argumentAgreement
  tokens := Eq
  schemas := Eq
  live := True
  next h := by
    rw [h.next?]
    cases State.next? _ with
    | none => exact .none
    | some token => exact .some rfl
  text h := congrArg Token.text h
  flagChars _ h := congrArg Token.flagChars? h
  breakable := rfl
  advance h := h.advance
  mark key h := h.mark key
  scratch h := h.scratch
  merge h h' := h.merge h'
  flag {n m a b c rest s t} _ hschema h next next' _ := by
    have htoken := Option.some.inj (next'.symm.trans (h.next?.trans next))
    rw [hschema, htoken]
    exact flag_agrees h
  dest h := congrArg Schema.dest h
  args h := h ▸ List.forall₂_same.2 fun _ _ => rfl
  leaf h := by rw [h]
  selected {n m} word hschema := by
    rw [hschema]
    cases m.selected? word with
    | none => exact .none
    | some sub => exact .some rfl
  unnamed h := h ▸ List.forall₂_same.2 fun _ _ => rfl
  tooManyArguments h := congrArg (Halt.tooManyArguments p.source) h
  unexpectedEnd := rfl
  unknownSubcommand h := congrArg Halt.unknownSubcommand h

/-- What was written has no influence on a parse but on its result. -/
def correspondence (p : Parser) (congruent : Mapping.Congruent R) : Simulation p p where
  __ := p.agreement
  toArgumentSimulation := p.argumentCorrespondence congruent
  next h := by
    rw [h.next?]
    cases State.next? _ with
    | none => exact .none
    | some token => exact .some rfl
  advance h := h.advance
  mark key h := h.write congruent key _
  scratch h := ⟨h.tokens, h.index, congruent.empty⟩
  merge h h' := ⟨h'.tokens, h'.index, congruent.merge h.result h'.result⟩
  flag {n m a b c rest s t} _ same h next next' _ := by
    have token := Option.some.inj (next'.symm.trans (h.next?.trans next))
    rw [same, token]
    exact flag_corresponds congruent h

theorem command_agrees (p : Parser) (active : Bool) (n : Schema Value) (h : s.Agrees t) :
    (p.command active s n).Rel State.Agrees Eq (p.command active t n) :=
  p.agreement.command rfl active s t (fun _ => trivial) h

/-- A command ends in the same way, whatever was written before. -/
theorem command_corresponds (congruent : Mapping.Congruent R) (active : Bool) (n : Schema Value)
    (h : s.Corresponds R t) :
    (p.command active s n).Rel (State.Corresponds R) Eq (p.command active t n) :=
  (p.correspondence congruent).command rfl active s t (fun _ => trivial) h

theorem level_agrees {n : Schema Value} {active active' : Bool} {token : Token}
    (h : s.Agrees t)
    (word : p.level n.flags n.subcommands.isEmpty active n.args s = .word token active' u) :
    ∃ v, p.level n.flags n.subcommands.isEmpty active n.args t = .word token active' v ∧
      u.Agrees v := by
  have hargs : n.args.Forall₂ p.agreement.arguments n.args := List.forall₂_same.2 fun _ _ => rfl
  have hlevel := p.agreement.level n.subcommands.isEmpty active (rfl : n = n) hargs
    (fun _ => trivial) h
  rw [word] at hlevel
  generalize p.level n.flags n.subcommands.isEmpty active n.args t = e at hlevel
  cases hlevel with
  | word htoken _ hs => exact ⟨_, htoken ▸ rfl, hs⟩

/-- Where commands end alike but for what was reported, parses end alike. -/
theorem parse_agrees {n m : Schema Value} {start : Nat}
    (agrees : (p.command p.options.parseFlags (p.initial start) n).Rel State.Agrees Eq
      (p.command p.options.parseFlags (p.initial start) m)) :
    (p.parse m start).result = (p.parse n start).result := by
  generalize hn : p.command p.options.parseFlags (p.initial start) n = o at agrees
  generalize hm : p.command p.options.parseFlags (p.initial start) m = o' at agrees
  cases agrees with
  | ok h => rw [parse_of_ok hn, parse_of_ok hm, h.result]
  | halt h => rw [parse_of_halt hn, parse_of_halt hm, h]

end Parser

end CommandGrammar
