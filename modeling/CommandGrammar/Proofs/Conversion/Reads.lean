import CommandGrammar.Conversion.Registry

/-!
# What the builtin types read

A builtin type reads a value from the text of one token, wherever the token stands
(`convert_eq_conversion_iff`). Where it finds fault with the token, it is with the whole of it
(`convert_at`).
-/

namespace CommandGrammar

/-- The value and the step of an answer that is a conversion. -/
def Answer.accepted? : Answer → Option (Value × Value)
  | .conversion v step => some (v, step)
  | _ => none

theorem Answer.accepted?_eq_some {answer : Answer} {v step : Value} :
    answer.accepted? = some (v, step) ↔ answer = .conversion v step := by
  cases answer <;> simp [accepted?]

/-- The answer with its fault, if it is one, at another token. -/
def Answer.movedTo (token : Token) : Answer → Answer
  | .fault f => .fault { f with token := .token token }
  | answer => answer

theorem Answer.accepted?_movedTo (answer : Answer) (token : Token) :
    (answer.movedTo token).accepted? = answer.accepted? := by
  cases answer <;> rfl

namespace Builtin

/-- The value that a type reads from a word. -/
def reads (b : Builtin) (options : Option NumericOptions) (word : String) : Option Value :=
  ((b.convert options ⟨word, 0, 0, false⟩).accepted?).map (·.1)

variable {options : Option NumericOptions} {token other : Token}

theorem beyond_movedTo (bound : Number) (message : String → String) :
    beyond bound message other = (beyond bound message token).movedTo other := by
  unfold beyond
  split <;> rfl

theorem checkRange_movedTo (h : token.text = other.text) (n : Number) :
    checkRange options other n = (checkRange options token n).movedTo other := by
  unfold checkRange
  rw [h]
  split
  · split
    · exact beyond_movedTo _ _
    · exact beyond_movedTo _ _
    · rfl
  · rfl

/-- The answer to a token is a matter of its text, but for the place of a fault. -/
theorem convert_movedTo (b : Builtin) (options : Option NumericOptions)
    (h : token.text = other.text) :
    b.convert options other = (b.convert options token).movedTo other := by
  cases b with
  | string =>
    rw [convert, convert, h]
    rfl
  | boolean =>
    rw [convert, convert, convertBoolean, convertBoolean, h]
    split
    · rfl
    · split <;> rfl
  | number =>
    rw [convert, convert, convertNumber, convertNumber, h]
    cases Numeral.read? other.text.toList with
    | none =>
      dsimp only [malformed]
      rw [h]
      rfl
    | some n =>
      cases hfraction : n.fraction with
      | some fraction =>
        simp only [hfraction]
        exact checkRange_movedTo h _
      | none =>
        simp only [hfraction]
        split
        · rfl
        · exact checkRange_movedTo h _
  | integer size =>
    rw [convert, convert, convertInteger, convertInteger, h]
    cases Numeral.readWhole? other.text.toList with
    | none =>
      dsimp only [malformed]
      rw [h]
      rfl
    | some n =>
      dsimp only
      split
      · rfl
      · split <;> rfl
  | decimal kind =>
    rw [convert, convert, convertDecimal, convertDecimal, malformed, malformed, h]
    cases Numeral.read? other.text.toList with
    | none => rfl
    | some n =>
      cases hfraction : n.fraction with
      | none => simp only [hfraction]; rfl
      | some fraction =>
        simp only [hfraction]
        split <;> rfl

/-- Whether a token is converted, and to which value, is a matter of its text. -/
theorem convert_accepted? (b : Builtin) (options : Option NumericOptions)
    (h : token.text = other.text) :
    (b.convert options token).accepted? = (b.convert options other).accepted? := by
  rw [convert_movedTo b options h, Answer.accepted?_movedTo]

theorem beyond_ne_conversion {bound : Number} {message : String → String} {v step : Value} :
    beyond bound message token ≠ .conversion v step := by
  unfold beyond
  split <;> exact Answer.noConfusion

theorem checkRange_step {n : Number} {v step : Value}
    (h : checkRange options token n = .conversion v step) : step = .int 1 := by
  unfold checkRange at h
  split at h
  · split at h
    · exact absurd h beyond_ne_conversion
    · exact absurd h beyond_ne_conversion
    · cases h
      rfl
  · cases h
    rfl

/-- A builtin type takes one token. -/
theorem convert_step {b : Builtin} {v step : Value}
    (h : b.convert options token = .conversion v step) : step = .int 1 := by
  cases b with
  | string =>
    cases h
    rfl
  | boolean =>
    rw [convert, convertBoolean] at h
    split at h
    · cases h
      rfl
    · split at h
      · cases h
        rfl
      · cases h
  | number =>
    rw [convert, convertNumber] at h
    split at h
    · cases h
    · split at h
      · exact checkRange_step h
      · split at h
        · cases h
        · exact checkRange_step h
  | integer size =>
    rw [convert, convertInteger] at h
    split at h
    · cases h
    · split at h
      · cases h
      · dsimp only at h
        split at h
        · cases h
          rfl
        · cases h
  | decimal kind =>
    rw [convert, convertDecimal] at h
    split at h
    · split at h
      · split at h
        · cases h
          rfl
        · cases h
      · cases h
    · cases h

/-- A builtin type converts the tokens whose texts it reads, one at a time. -/
theorem convert_eq_conversion_iff {b : Builtin} {v step : Value} :
    b.convert options token = .conversion v step ↔
      b.reads options token.text = some v ∧ step = .int 1 := by
  have same := b.convert_accepted? options
    (show token.text = (⟨token.text, 0, 0, false⟩ : Token).text from rfl)
  rw [reads, ← same, Option.map_eq_some_iff]
  constructor
  · intro h
    have hstep := convert_step h
    exact ⟨⟨(v, step), Answer.accepted?_eq_some.2 h, rfl⟩, hstep⟩
  · rintro ⟨⟨⟨w, step'⟩, h, rfl⟩, rfl⟩
    have h := Answer.accepted?_eq_some.1 h
    rw [h, convert_step h]

end Builtin

/-! ## Faults of builtin types -/

/-- If the answer is a fault, it is one of the whole token and of a listed kind. -/
def Answer.At (token : Token) : Answer → Prop
  | .fault f => ∃ kind message, kind ∈ FaultKind.all ∧ f = .ofToken kind message token 0 0
  | _ => True

/-- If the answer is a fault, it is a conversion fault of the whole token and of a listed kind. -/
def Answer.Refuses (token : Token) : Answer → Prop
  | .fault f => ∃ kind message, kind ∈ FaultKind.all ∧ kind.isA .conversion = true ∧
      f = .ofToken kind message token 0 0
  | _ => True

theorem Answer.Refuses.at {token : Token} {answer : Answer} (refuses : answer.Refuses token) :
    answer.At token := by
  cases answer with
  | fault f =>
    obtain ⟨kind, message, listed, -, whole⟩ := refuses
    exact ⟨kind, message, listed, whole⟩
  | crash c => exact trivial
  | other v => exact trivial
  | conversion v step => exact trivial

namespace Builtin

theorem malformed_refuses (name : String) (token : Token) : (malformed name token).Refuses token :=
  ⟨_, _, by decide, rfl, rfl⟩

theorem outOfRange_refuses (message : String) (token : Token) :
    (outOfRange message token).Refuses token := ⟨_, _, by decide, rfl, rfl⟩

theorem beyond_refuses (bound : Number) (message : String → String) (token : Token) :
    (beyond bound message token).Refuses token := by
  unfold beyond
  split
  · exact outOfRange_refuses _ _
  · exact trivial

theorem checkRange_refuses (options : Option NumericOptions) (token : Token) (n : Number) :
    (checkRange options token n).Refuses token := by
  unfold checkRange
  split
  · split
    · exact beyond_refuses _ _ _
    · exact beyond_refuses _ _ _
    · exact trivial
  · exact trivial

theorem convertNumber_refuses (options : Option NumericOptions) (token : Token) :
    (convertNumber options token).Refuses token := by
  unfold convertNumber
  split
  · exact malformed_refuses _ _
  · split
    · exact checkRange_refuses _ _ _
    · split
      · exact trivial
      · exact checkRange_refuses _ _ _

theorem convertInteger_refuses (size : IntegerSize) (options : Option NumericOptions)
    (token : Token) : (convertInteger size options token).Refuses token := by
  unfold convertInteger
  split
  · exact malformed_refuses _ _
  · split
    · exact trivial
    · dsimp only
      split
      · exact trivial
      · exact outOfRange_refuses _ _

theorem convertDecimal_refuses (kind : DecimalKind) (token : Token) :
    (convertDecimal kind token).Refuses token := by
  unfold convertDecimal
  split
  · split
    · split
      · exact trivial
      · exact malformed_refuses _ _
    · exact malformed_refuses _ _
  · exact malformed_refuses _ _

theorem convertBoolean_refuses (token : Token) : (convertBoolean token).Refuses token := by
  unfold convertBoolean
  split
  · exact trivial
  · split
    · exact trivial
    · exact ⟨_, _, by decide, rfl, rfl⟩

theorem convert_refuses (b : Builtin) (options : Option NumericOptions) (token : Token) :
    (b.convert options token).Refuses token := by
  cases b with
  | string => exact trivial
  | boolean => exact convertBoolean_refuses token
  | number => exact convertNumber_refuses options token
  | integer size => exact convertInteger_refuses size options token
  | decimal kind => exact convertDecimal_refuses kind token

theorem convert_at (b : Builtin) (options : Option NumericOptions) (token : Token) :
    (b.convert options token).At token :=
  (b.convert_refuses options token).at

end Builtin

/-- Types that a registry begins with are builtin. -/
theorem TypeRegistry.builtin_of_resolve {name : String} {c : Converter}
    (h : TypeRegistry.builtins.resolve name = some c) : ∃ b, c = .builtin b := by
  rcases Mapping.mem_of_get?_insertAll h with h | h
  · cases h
  · obtain ⟨b, -, hb⟩ := List.mem_map.1 h
    exact ⟨b, (Prod.mk.inj hb).2.symm⟩

end CommandGrammar
