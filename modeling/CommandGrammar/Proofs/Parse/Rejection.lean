import CommandGrammar.Proofs.Conversion.Integers
import CommandGrammar.Proofs.Parse.Resolution
import CommandGrammar.Proofs.Token.Encoding

/-!
# Rejected integers

A token that is handed to an argument of an integer type is rejected with a conversion fault of the
whole token: as malformed where its text writes no integer, and as out of range where the size has
no room for the integer (`integer_rejected`). A text with more digits than can be converted writes
an integer that no size has room for, but what it meets with is an internal fault, without a place
in the line (`long_integer_internal`).
-/

namespace CommandGrammar

theorem isSpecial_of_isDigit {c : Char} (digit : c.isDigit = true) :
    Token.isSpecial false c = false := by
  have bounds := Numeral.digit_bounds digit
  have apart : c ≠ '\\' ∧ c ≠ '"' := by
    constructor
    · rintro rfl
      exact absurd digit (by decide)
    · rintro rfl
      exact absurd digit (by decide)
  have plain : isBlank c = false := by
    refine Bool.eq_false_iff.2 fun blank => ?_
    obtain ⟨range, mem, low, high⟩ := Text.inRanges_iff.1 blank
    have outside : ∀ r ∈ blankRanges, r.2 < 48 ∨ 57 < r.1 := by decide
    have := outside range mem
    omega
  simp [Token.isSpecial, apart.1, apart.2, plain]

namespace Parser

variable {p : Parser} {accepted : Bool} {a : Argument Value} {s : State} {token : Token}
  {size : IntegerSize} {ds : List Char} {n : Int} {f : Fault}

/-- Where an argument is resolved, it fails with a fault: its conversion does and leaves everything
as it was, and on its accepted path the whole parse does, unless defaults make up for it. -/
structure Fails (p : Parser) (accepted : Bool) (schema : Schema Value) (start : Nat)
    (a : Argument Value) (role : Role) (s : State) (f : Fault) : Prop where
  conversion : p.argument a s = .halt (.fault f) s
  parse : accepted = true → role.spares a = false →
    (p.parse schema start).result = .error (.fault { f with command := .str p.source })

theorem Resolves.fails {schema m : Schema Value} {start : Nat} {x : Stage} {role : Role}
    (resolves : p.Resolves m.flags x a role s)
    (comes : p.Comes accepted p.options.parseFlags (p.initial start) schema m x)
    (fresh : f.Fresh) (failed : p.argument a s = .halt (.fault f) s) :
    p.Fails accepted schema start a role s f := by
  refine ⟨failed, ?_⟩
  rintro rfl unspared
  obtain ⟨t, halted⟩ := resolves.halts failed unspared m.subcommands.isEmpty
  obtain ⟨u, hu⟩ := comes.halts halted
  exact parse_of_fresh fresh hu

/-- An argument comes to what its converter answers to the tokens that are left. -/
theorem argument_of_converter {converter : Converter} (next : s.next? = some token)
    (typed : p.converterOf a.type = some converter) :
    p.argument a s = accept a token (s.report (p.answer converter token s.advance.left a).1)
      (p.answer converter token s.advance.left a).2 := by
  have left : s.tokens.drop s.index = token :: s.advance.left := State.left_eq_cons next
  simp only [argument, left, typed]

/-- An argument of a builtin type is resolved by it. -/
theorem argument_of_builtin {b : Builtin} (next : s.next? = some token)
    (builtin : p.converterOf a.type = some (.builtin b)) :
    p.argument a s = accept a token s (b.convert a.options token) := by
  rw [argument_of_converter next builtin, answer, State.report_nil]

section Integers

variable (next : s.next? = some token)
  (sized : p.converterOf a.type = some (.builtin (.integer size)))

include next sized

/-- A text that writes no integer is malformed. -/
theorem argument_of_unwritten (unwritten : ∀ ds n, ¬Numeral.Writes token.text.toList ds n) :
    p.argument a s = .halt (.fault (.ofToken .malformedValue
      ("type error: '" ++ token.text ++ "' is not a valid " ++ size.name) token 0 0)) s := by
  rw [argument_of_builtin next sized, Builtin.convert,
    Builtin.convertInteger_of_unwritten unwritten]
  rfl

/-- An integer that the size has no room for is out of range. -/
theorem argument_of_outside (writes : Numeral.Writes token.text.toList ds n)
    (few : ds.length ≤ maxDigits) (outside : ¬size.Holds (Builtin.isUnsigned a.options) n) :
    p.argument a s = .halt (.fault (.ofToken .valueRange
      (Builtin.overflowText size (Builtin.isUnsigned a.options)) token 0 0)) s := by
  rw [argument_of_builtin next sized, Builtin.convert, Builtin.convertInteger_of_writes writes,
    if_neg (Nat.not_lt.2 few), if_neg outside]
  rfl

/-- An integer with too many digits breaks the conversion. -/
theorem argument_of_long (writes : Numeral.Writes token.text.toList ds n)
    (long : maxDigits < ds.length) :
    p.argument a s = .halt (.fault (.broken (.digitLimit ds.length))) s := by
  rw [argument_of_builtin next sized, Builtin.convert, Builtin.convertInteger_of_writes writes,
    if_pos long]
  rfl

/-- An integer that the size has room for is converted. -/
theorem argument_of_inside (writes : Numeral.Writes token.text.toList ds n)
    (inside : size.Holds (Builtin.isUnsigned a.options) n) :
    p.argument a s = .ok (s.take [] a.dest (.int n) 1) := by
  rw [argument_of_builtin next sized, Builtin.convert, Builtin.convertInteger_of_writes writes,
    if_neg (Nat.not_lt.2 (inside.length_le writes)), if_pos inside, State.take, State.report_nil]
  rfl

end Integers

/-- A token that a parse hands to an argument of an integer type is rejected with a conversion
fault of the whole token, unless its text writes an integer that the size has room for: with that
of a malformed value where it writes no integer, and with that of a value out of range where it
writes one for which there is no room. Only an integer with more digits than can be converted
meets with an internal fault; there is no room for it either. -/
theorem integer_rejected {schema m : Schema Value} {start : Nat} {x : Stage} {role : Role}
    (comes : p.Comes accepted p.options.parseFlags (p.initial start) schema m x)
    (resolves : p.Resolves m.flags x a role s) (next : s.next? = some token)
    (sized : p.converterOf a.type = some (.builtin (.integer size))) :
    ((∀ ds n, ¬Numeral.Writes token.text.toList ds n) →
      p.Fails accepted schema start a role s (.ofToken .malformedValue
        ("type error: '" ++ token.text ++ "' is not a valid " ++ size.name) token 0 0)) ∧
    ∀ ds n, Numeral.Writes token.text.toList ds n →
      (size.Holds (Builtin.isUnsigned a.options) n → ∃ t, p.argument a s = .ok t) ∧
      (¬size.Holds (Builtin.isUnsigned a.options) n → ds.length ≤ maxDigits →
        p.Fails accepted schema start a role s (.ofToken .valueRange
          (Builtin.overflowText size (Builtin.isUnsigned a.options)) token 0 0)) ∧
      (maxDigits < ds.length → ¬size.Holds (Builtin.isUnsigned a.options) n ∧
        p.Fails accepted schema start a role s (.broken (.digitLimit ds.length))) := by
  constructor
  · intro unwritten
    exact resolves.fails comes (Fault.fresh_ofToken (by decide))
      (argument_of_unwritten next sized unwritten)
  · intro ds n writes
    refine ⟨?_, ?_, ?_⟩
    · intro inside
      exact ⟨_, argument_of_inside next sized writes inside⟩
    · intro outside few
      exact resolves.fails comes (Fault.fresh_ofToken (by decide))
        (argument_of_outside next sized writes few outside)
    · intro long
      refine ⟨fun inside => Nat.not_lt.2 (inside.length_le writes) long, ?_⟩
      exact resolves.fails comes (Fault.fresh_broken _) (argument_of_long next sized writes long)

/-- A command that takes a byte. -/
def counter : Schema Value where
  name := some "count"
  dest := "count"
  aliases := []
  help := none
  args := [.ofType "amount" "byte" true]
  flags := []
  subcommands := []

/-- The digits of a line are handed to the argument of the counter. -/
theorem resolves_counter {line : String} (digits : Numeral.Digits line.toList) :
    (forLine line).Resolves counter.flags ⟨true, counter.args, (forLine line).initial 0⟩
        (.ofType "amount" "byte" true) .positional ((forLine line).initial 0) ∧
      ((forLine line).initial 0).next? = some ⟨line, 0, line.toList.length, false⟩ := by
  have nonempty : line ≠ "" := by
    rintro rfl
    cases digits
  have plain : ∀ c ∈ line.toList, Token.isSpecial false c = false :=
    fun c mem => isSpecial_of_isDigit (digits.isDigit c mem)
  have next : ((forLine line).initial 0).next? = some ⟨line, 0, line.toList.length, false⟩ := by
    show (Token.tokenize line 0)[0]? = _
    rw [Token.tokenize_of_plain nonempty plain]
    rfl
  have unflagged : spells true ⟨line, 0, line.toList.length, false⟩ = none := by
    show Token.flagChars? ⟨line, 0, line.toList.length, false⟩ = none
    rw [Token.flagChars?, if_neg Bool.false_ne_true]
    split
    · rename_i c rest dash
      exact absurd (digits.isDigit '-' (dash ▸ List.mem_cons_self)) (by decide)
    · rfl
  exact ⟨.positional next unflagged, next⟩

/-- A byte has no room for three hundred. -/
theorem integer_rejected_counter : ∃ (x : Stage) (a : Argument Value) (role : Role) (s : State),
    (forLine "300").Comes true true ((forLine "300").initial 0) counter counter x ∧
    (forLine "300").Resolves counter.flags x a role s ∧
    s.next? = some ⟨"300", 0, 3, false⟩ ∧
    (forLine "300").converterOf a.type = some (.builtin (.integer .byte)) ∧
    ((forLine "300").parse counter 0).result =
      .error (.fault { Fault.ofToken .valueRange "8-bit signed overflow" ⟨"300", 0, 3, false⟩ 0 0
        with command := .str "300" }) := by
  have digits : Numeral.Digits "300".toList :=
    .leading rfl (by decide) (List.forall_mem_cons.2 ⟨rfl, List.forall_mem_singleton.2 rfl⟩)
  have comes : (forLine "300").Comes true true ((forLine "300").initial 0) counter counter
      ⟨true, counter.args, (forLine "300").initial 0⟩ := .level .refl
  obtain ⟨resolves, next⟩ := resolves_counter digits
  have rejected := (integer_rejected comes resolves next rfl).2 _ _ (.unsigned digits)
  have fails := rejected.2.1 (by decide) (by decide)
  exact ⟨_, _, _, _, comes, resolves, next, rfl, fails.parse rfl rfl⟩

/-- A one and zeros behind it. -/
def power (zeros : Nat) : String := String.ofList ('1' :: List.replicate zeros '0')

theorem digits_power (zeros : Nat) : Numeral.Digits (power zeros).toList := by
  rw [power, String.toList_ofList]
  refine .leading rfl (by decide) ?_
  intro d mem
  rw [List.eq_of_mem_replicate mem]
  rfl

theorem power_fails {zeros : Nat} (long : maxDigits ≤ zeros) :
    ∃ f, ((forLine (power zeros)).parse counter 0).result = .error (.fault f) ∧
      f.kind = .internal ∧ f.token = .null := by
  have digits := digits_power zeros
  have more : maxDigits < (power zeros).toList.length := by
    rw [power, String.toList_ofList, List.length_cons, List.length_replicate]
    omega
  have comes : (forLine (power zeros)).Comes true true ((forLine (power zeros)).initial 0) counter
      counter ⟨true, counter.args, (forLine (power zeros)).initial 0⟩ := .level .refl
  obtain ⟨resolves, next⟩ := resolves_counter digits
  have fails := resolves.fails comes (Fault.fresh_broken _)
    (argument_of_long next rfl (.unsigned digits) more)
  exact ⟨_, fails.parse rfl rfl, rfl, rfl⟩

/-- An integer with too many digits, for which there is no room, is not told to be out of range:
the parse fails with an internal fault that has no place in the line. -/
theorem long_integer_internal : ∃ n,
    Numeral.Writes (power maxDigits).toList (power maxDigits).toList n ∧
    ¬IntegerSize.byte.Holds false n ∧
    ∃ f, ((forLine (power maxDigits)).parse counter 0).result = .error (.fault f) ∧
      f.kind = .internal ∧ f.token = .null := by
  have writes : Numeral.Writes (power maxDigits).toList _ _ := .unsigned (digits_power maxDigits)
  have more : maxDigits < (power maxDigits).toList.length := by
    rw [power, String.toList_ofList, List.length_cons, List.length_replicate]
    omega
  exact ⟨_, writes, fun holds => Nat.not_lt.2 (holds.length_le writes) more, power_fails le_rfl⟩

end Parser

end CommandGrammar
