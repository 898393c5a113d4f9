import CommandGrammar.Parse.Report
import CommandGrammar.Proofs.Parse.Descent
import CommandGrammar.Proofs.Token.Place

/-!
# Safety of a parse

A parse asks for no token and for no position that does not exist. The tokens that are left are
tokens of the line, so an unquoted one is in its place and its table of positions is as long as
its text asks for; `parse_safe` follows, whatever the converters answer.
-/

namespace CommandGrammar

namespace Spelling

theorem afterEquals_eq_some {cs value : List Char} (h : afterEquals cs = some value) :
    cs = cs.takeWhile (· != '=') ++ '=' :: value := by
  unfold afterEquals at h
  split at h
  · simp at h
  · rename_i c rest hdrop
    simp only [Option.some.injEq] at h
    subst h
    have hc : c = '=' := by
      have := List.head?_dropWhile_not (· != '=') cs
      rw [hdrop] at this
      simpa using this
    subst hc
    rw [← hdrop, List.takeWhile_append_dropWhile]

/-- The characters of a flag with a value are those before the equals sign, the equals sign and
the value. -/
theorem length_of_value {c : Char} {rest value : List Char}
    (h : (ofChars c rest).value = some value) :
    (ofChars c rest).length + 1 + value.length = rest.length + 2 := by
  unfold ofChars at h ⊢
  split
  · rename_i hc
    rw [if_pos hc] at h
    have := congrArg List.length (afterEquals_eq_some h)
    simp only [List.length_append, List.length_cons] at this
    simp only [length, if_true]
    omega
  · rename_i hc
    rw [if_neg hc] at h
    have := congrArg List.length (afterEquals_eq_some h)
    simp only [List.length_append, List.length_cons] at this
    simp only [length, Bool.false_eq_true, if_false]
    omega

end Spelling

theorem Token.toList_of_flagChars? {token : Token} {c : Char} {rest : List Char}
    (h : token.flagChars? = some (c, rest)) :
    token.quoted = false ∧ token.text.toList = '-' :: c :: rest := by
  unfold flagChars? at h
  split at h
  · simp at h
  · rename_i hquoted
    refine ⟨eq_false_of_ne_true hquoted, ?_⟩
    split at h
    · rename_i hchars
      simp only [Option.some.injEq, Prod.mk.injEq] at h
      rw [hchars, h.1, h.2]
    · simp at h

theorem Token.Placed.length_positions_flag {source : String} {token : Token} {c : Char}
    {rest : List Char} (placed : token.Placed source) (h : token.flagChars? = some (c, rest)) :
    (token.positions source).length = rest.length + 3 := by
  rw [placed.length_positions, (Token.toList_of_flagChars? h).2]
  rfl

/-- The first code of a group that no flag has, and where it stands. -/
theorem packed_eq_error {flags : List (Flag Value)} {equalsEnds : Bool} {last : Flag Value}
    {marks : List String} {offset position : Nat} {code : Char} {cs : List Char}
    (h : packed flags equalsEnds last marks offset cs = .error (position, code)) :
    ∃ u v, cs = u ++ code :: v ∧ position = offset + u.length ∧ shortFlag? flags code = none := by
  induction cs generalizing last marks offset with
  | nil => simp [packed] at h
  | cons c rest ih =>
    rw [packed] at h
    split at h
    · cases h
    · split at h
      · rename_i none
        cases h
        exact ⟨[], rest, rfl, rfl, none⟩
      · obtain ⟨u, v, rfl, rfl, none⟩ := ih h
        refine ⟨c :: u, v, rfl, ?_, none⟩
        rw [List.length_cons]
        omega

theorem shortCodes_eq_error {flags : List (Flag Value)} {equalsEnds : Bool} {c code : Char}
    {rest : List Char} {position : Nat}
    (h : shortCodes flags equalsEnds c rest = .error (position, code)) :
    ∃ u v, c :: rest = u ++ code :: v ∧ position = 1 + u.length ∧
      shortFlag? flags code = none := by
  unfold shortCodes at h
  split at h
  · rename_i none
    cases h
    exact ⟨[], rest, rfl, rfl, none⟩
  · obtain ⟨u, v, rfl, rfl, none⟩ := packed_eq_error h
    refine ⟨c :: u, v, rfl, ?_, none⟩
    rw [List.length_cons]
    omega

theorem shortCodes_error {flags : List (Flag Value)} {equalsEnds : Bool} {c : Char}
    {rest : List Char} {e : Nat × Char} (h : shortCodes flags equalsEnds c rest = .error e) :
    e.1 < rest.length + 2 := by
  obtain ⟨position, code⟩ := e
  obtain ⟨u, v, split, rfl, -⟩ := shortCodes_eq_error h
  have length := congrArg List.length split
  simp only [List.length_cons, List.length_append] at length
  show 1 + u.length < rest.length + 2
  omega

namespace Parser

variable {p : Parser} {token : Token} {table : List Int}

theorem mayHalt_unrecognizedFlag {name : List Char} (h : 2 < table.length) :
    p.MayHalt (.unrecognizedFlag token table name) := by
  rw [Halt.unrecognizedFlag, List.getElem?_eq_getElem h]
  exact .fresh (Fault.fresh_ofToken (by decide))

theorem mayHalt_unknownOption {offset : Nat} {code : Char} (h : offset + 1 < table.length) :
    p.MayHalt (.unknownOption token table offset code) := by
  rw [Halt.unknownOption, List.getElem?_eq_getElem h, List.getElem?_eq_getElem (by omega)]
  exact .fresh (Fault.fresh_ofToken (by decide))

theorem mayHalt_flagAssignment {next : Option Token} {stop : Nat} {value : List Char}
    (h : stop + 1 < table.length) : p.MayHalt (.flagAssignment token table next stop value) := by
  unfold Halt.flagAssignment
  rw [List.getElem?_eq_getElem h, List.getElem?_eq_getElem (show stop < table.length by omega)]
  cases value with
  | cons c cs => exact .fresh (Fault.fresh_ofToken (by decide))
  | nil => cases next <;> exact .fresh (Fault.fresh_ofToken (by decide))

theorem mayHalt_flagArgumentRequired : p.MayHalt (.flagArgumentRequired p.source) :=
  .fresh (Fault.fresh_ofToken (by decide))

end Parser

theorem Token.cut?_ne_none {token : Token} {table : List Int} {stop : Nat} {value : List Char}
    (h : stop + 1 < table.length) : token.cut? table stop value ≠ none := by
  unfold Token.cut?
  rw [List.getElem?_eq_getElem h, List.getElem?_eq_getElem (show stop < table.length by omega)]
  cases value <;> simp

/-- All unquoted tokens that are left are in their places. -/
def State.InPlace (source : String) (s : State) : Prop :=
  ∀ token ∈ s.left, token.quoted = false → token.Placed source

theorem State.InPlace.of_suffix {source : String} {s t : State} (h : s.InPlace source)
    (suffix : t.left <:+ s.left) : t.InPlace source :=
  fun token htoken => h token (suffix.subset htoken)

theorem State.InPlace.hearing {source : String} {s : State} (h : s.InPlace source)
    (events : List Event) : (s.hearing events).InPlace source := h

namespace Parser

variable {p : Parser} {flags : List (Flag Value)} {s t : State} {h : Halt}

/-- The arguments of a flag are safe: where no token is left, none is asked for. -/
theorem flagArguments_mayHalt {inline : Bool} {args : List (Argument Value)}
    (halted : p.flagArguments inline args s = .halt h t) : p.MayHalt h := by
  induction args generalizing s inline with
  | nil => simp [flagArguments] at halted
  | cons a rest ih =>
    rw [flagArguments] at halted
    split at halted
    · rename_i hlt
      have left := State.index_lt_iff.1 hlt
      split at halted
      · exact ih halted
      · rename_i hargument
        cases halted
        exact (argument_eq_halt hargument).2 left
      · rename_i hargument
        have mayHalt := (argument_eq_halt hargument).2 left
        split at halted
        · cases halted
          exact mayHalt
        · rw [fallBack_halt halted]
          exact mayHalt
    · simp only at halted
      split at halted
      · cases halted
        exact mayHalt_flagArgumentRequired
      · rw [fallBack_halt halted]
        exact mayHalt_flagArgumentRequired

theorem spelled_mayHalt {token : Token} {c : Char} {rest : List Char}
    (flagged : token.flagChars? = some (c, rest)) (placed : token.Placed p.source)
    (halted : p.spelled flags token c rest = .error h) : p.MayHalt h := by
  have hlength := placed.length_positions_flag flagged
  obtain rfl | ⟨offset, code, herror, rfl⟩ := spelled_error halted
  · exact mayHalt_unrecognizedFlag (by omega)
  · have hoffset : offset < rest.length + 2 := shortCodes_error herror
    exact mayHalt_unknownOption (by omega)

/-- A flag whose token is in its place is safe. -/
theorem flag_mayHalt {token : Token} {c : Char} {rest : List Char}
    (flagged : token.flagChars? = some (c, rest)) (placed : token.Placed p.source)
    (halted : p.flag flags token c rest s = .halt h t) : p.MayHalt h := by
  have hlength := placed.length_positions_flag flagged
  unfold flag at halted
  split at halted
  · rename_i f hspelled
    simp only [Outcome.halt.injEq] at halted
    exact halted.1 ▸ spelled_mayHalt flagged placed hspelled
  · simp only at halted
    split at halted
    · exact flagArguments_mayHalt (Outcome.marked_eq_halt halted)
    · rename_i value hvalue
      have hstop := Spelling.length_of_value hvalue
      split at halted
      · simp only [Outcome.halt.injEq] at halted
        rw [← halted.1]
        exact mayHalt_flagAssignment (by omega)
      · split at halted
        · rename_i hcut
          exact absurd hcut (Token.cut?_ne_none (by omega))
        · exact flagArguments_mayHalt (Outcome.marked_eq_halt halted)

/-- The arguments of a flag whose token is in its place have where to begin. -/
theorem exists_opens {token : Token} {c : Char} {rest : List Char} {f : Flag Value}
    (args : (Spelling.ofChars c rest).value ≠ none → f.args ≠ [])
    (placed : token.Placed p.source) (flagged : token.flagChars? = some (c, rest)) (s : State) :
    ∃ inline u, p.Opens token c rest f s inline u := by
  cases hasValue : (Spelling.ofChars c rest).value with
  | none => exact ⟨_, _, .plain hasValue⟩
  | some value =>
    have positions := placed.length_positions_flag flagged
    have length := Spelling.length_of_value hasValue
    have safe : token.cut? (token.positions p.source) (Spelling.ofChars c rest).length value ≠
        none := Token.cut?_ne_none (by omega)
    obtain ⟨pieces, cut⟩ := Option.ne_none_iff_exists'.1 safe
    exact ⟨_, _, .inline hasValue (args (hasValue ▸ Option.some_ne_none value)) cut⟩

theorem level_mayHalt {leaf active : Bool} {args : List (Argument Value)}
    (inPlace : s.InPlace p.source) (halted : p.level flags leaf active args s = .halt h t) :
    p.MayHalt h := by
  obtain ⟨x, steps, stops⟩ := level_eq_iff.1 halted
  have hx : x.state.InPlace p.source := inPlace.of_suffix steps.left
  cases stops with
  | tooMany next plain outer => exact .fresh (Fault.fresh_ofToken (by decide))
  | @flag active args s t token c rest h next flagged ends halted =>
    -- A flag is spelled by a token of the line only, never by a value that was cut off.
    have hchars := (spells_eq_some flagged).2
    have hmem : token ∈ s.left := by
      rw [State.left_eq_cons next]
      exact List.mem_cons_self
    exact flag_mayHalt hchars (hx token hmem (Token.toList_of_flagChars? hchars).1) halted
  | argument next plain halted =>
    have left := State.left_eq_cons next
    exact (argument_eq_halt halted).2 (left ▸ List.cons_ne_nil _ _)

theorem defaults_mayHalt {args : List (Argument Value)} (halted : p.defaults args s = .halt h t) :
    p.MayHalt h := by
  rw [defaults_eq_fallBack] at halted
  rw [fallBack_halt halted]
  exact .fresh (Fault.fresh_ofToken (by decide))

/-- A command is safe if a parse from tokens in their places halts with nothing but what a parse
may halt with. -/
def Safe (p : Parser) (n : Schema Value) : Prop :=
  ∀ active s h t, s.InPlace p.source → p.command active s n = .halt h t → p.MayHalt h

/-- Trying alternatives is safe if each of them is. The fault that stands in the end is one that an
alternative halted with. -/
theorem alternatives_mayHalt {dest : String} {token : Token} {active : Bool}
    {first : Option Fault} {subs : List (Schema Value)} (inPlace : s.InPlace p.source)
    (safe : ∀ sub ∈ subs, p.Safe sub) (stands : ∀ f, first = some f → p.MayHalt (.fault f))
    (halted : p.alternatives dest token active first s subs = .halt h t) : p.MayHalt h := by
  induction subs generalizing first s with
  | nil =>
    cases first with
    | none =>
      rw [alternatives] at halted
      cases halted
      exact .fresh (Fault.fresh_ofToken (by decide))
    | some f =>
      rw [alternatives] at halted
      cases halted
      exact stands f rfl
  | cons sub rest ih =>
    obtain ⟨safeSub, safeRest⟩ := List.forall_mem_cons.1 safe
    cases hnamed : sub.named with
    | true =>
      rw [alternatives_named hnamed] at halted
      exact ih inPlace safeRest stands halted
    | false =>
      rw [alternatives_unnamed hnamed] at halted
      split at halted
      · simp at halted
      · rename_i f u hu
        refine ih (inPlace.hearing _) safeRest ?_ halted
        intro g stood
        cases first with
        | none =>
          cases stood
          exact safeSub active s.scratch _ u inPlace hu
        | some e => exact stands g stood
      · rename_i c u hu
        cases halted
        exact safeSub active s.scratch _ _ inPlace hu

/-- A command on tokens that are all in their places is safe. -/
theorem command_safe (p : Parser) (n : Schema Value) : p.Safe n := by
  induction n using Schema.induction with
  | step n ih =>
    intro active s h t inPlace halted
    rw [command_eq] at halted
    cases hlevel : p.level n.flags n.subcommands.isEmpty active n.args s with
    | halt f u =>
      simp only [hlevel, Outcome.halt.injEq] at halted
      exact halted.1 ▸ level_mayHalt inPlace hlevel
    | finished missing u =>
      simp only [hlevel] at halted
      exact defaults_mayHalt (Outcome.marked_eq_halt halted)
    | word token active u =>
      have hu : u.InPlace p.source := by
        obtain ⟨x, steps, stops⟩ := level_eq_iff.1 hlevel
        cases stops
        exact inPlace.of_suffix steps.left
      simp only [hlevel] at halted
      cases hselected : n.selected? token.text with
      | some sub =>
        simp only [hselected] at halted
        have hnext := hu.of_suffix (State.advance_left_suffix u)
        exact ih sub (Schema.selected?_eq_some hselected).1 active (u.report _).advance _ _ hnext
          (Outcome.marked_eq_halt halted)
      | none =>
        simp only [hselected] at halted
        refine alternatives_mayHalt hu ih ?_ (Outcome.marked_eq_halt halted)
        intro f stood
        cases stood

/-- Tokens of the line are in their places where a parse begins. -/
theorem inPlace_tokenize (source : String) (start : Nat) :
    State.InPlace source ⟨Token.tokenize source start, 0, .empty, []⟩ :=
  fun _ hmem hquoted => Token.placed_of_mem_tokenize hmem hquoted

/-- What a converter of the host may do for a crash to leave the parse: it answers with a step that
is none and too long to be written, or it raises a fault that cannot be copied, or one that cannot
be reported. -/
inductive Slips (p : Parser) : Crash → Prop
  | step {host : Handle} {given : List Token} {a : Argument Value} {v step : Value} {r : Refusal}
      (answers : (p.converters host given a).2 = .conversion v step) (invalid : stepOf? step = none)
      (unwritten : step.text = .error r) : Slips p r.crash
  | copy {host : Handle} {given : List Token} {a : Argument Value} {f : Fault} {c : Crash}
      (answers : (p.converters host given a).2 = .fault f) (bare : f.command = .null)
      (uncopied : f.copy p.makers = .error c) : Slips p c
  | report {host : Handle} {given : List Token} {a : Argument Value} {f : Fault} {r : Refusal}
      (answers : (p.converters host given a).2 = .fault f) (untold : f.reportedAs = .error r) :
      Slips p r.crash

/-- What leaves a parse is a fault with a line, or comes of a slip of a converter. -/
theorem MayHalt.leaving (mayHalt : p.MayHalt h) :
    (∃ f, h.leaving p = .fault f ∧ f.command ≠ .null) ∨
      ∃ c, h.leaving p = .crash c ∧ p.Slips c := by
  cases mayHalt with
  | fresh fresh =>
    rw [fresh.leaving p]
    exact .inl ⟨_, rfl, Value.noConfusion⟩
  | step answers invalid unwritten => exact .inr ⟨_, rfl, .step answers invalid unwritten⟩
  | raised answers =>
    rename_i f
    rcases Fault.annotate_cases p.makers f p.source with
      ⟨c, bare, uncopied, annotates⟩ | ⟨g, annotates, line, told⟩
    · refine .inr ⟨c, ?_, .copy answers bare uncopied⟩
      rw [Halt.leaving, Halt.annotate, annotates]
      rfl
    · rw [Halt.leaving, Halt.annotate, annotates]
      show (∃ f, Halt.told (.fault g) = .fault f ∧ _) ∨ ∃ c, Halt.told (.fault g) = .crash c ∧ _
      rw [Halt.told, told]
      cases reported : f.reportedAs with
      | ok code => exact .inl ⟨g, rfl, line⟩
      | error r => exact .inr ⟨_, rfl, .report answers reported⟩

theorem parse_ends (p : Parser) (schema : Schema Value) (start : Nat) :
    (∃ m, (p.parse schema start).result = .ok m) ∨
      (∃ f, (p.parse schema start).result = .error (.fault f) ∧ f.command ≠ .null) ∨
      ∃ c, (p.parse schema start).result = .error (.crash c) ∧ p.Slips c := by
  cases result : (p.parse schema start).result with
  | ok m => exact .inl ⟨m, rfl⟩
  | error h =>
    obtain ⟨g, t, halted, rfl⟩ := parse_eq_error result
    have mayHalt := command_safe p schema _ _ _ _ (inPlace_tokenize p.source start) halted
    rcases mayHalt.leaving with ⟨f, left, line⟩ | ⟨c, left, slips⟩
    · exact .inr (.inl ⟨f, congrArg Except.error left, line⟩)
    · exact .inr (.inr ⟨c, congrArg Except.error left, slips⟩)

end Parser

end CommandGrammar
