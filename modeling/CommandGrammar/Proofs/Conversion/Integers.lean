import CommandGrammar.Proofs.Conversion.Reads
import Mathlib.Algebra.Order.Ring.Int
import Mathlib.Data.List.TakeWhile

/-!
# Written integers

An integer is written as an optional sign and digits without a leading zero (`Numeral.Writes`).
Such digits are the decimal form of the number that they stand for (`Numeral.Digits.eq_toDigits`),
so there are few of them where the number is small. The types of integers convert exactly the
texts that write an integer of their size, and the type of numbers those that write an integer
within its bounds (`Builtin.converts_integers`).
-/

namespace CommandGrammar

namespace Numeral

/-- A natural number as it is written: a zero, or ASCII digits of which the first is no zero. -/
inductive Digits : List Char → Prop
  | zero : Digits ['0']
  | leading {c : Char} {cs : List Char} (digit : c.isDigit = true) (nonzero : c ≠ '0')
      (others : ∀ d ∈ cs, d.isDigit = true) : Digits (c :: cs)

/-- A text that writes an integer, with its digits: a natural number as it is written, with or
without a sign in front of it. -/
inductive Writes : List Char → List Char → Int → Prop
  | unsigned {ds : List Char} (digits : Digits ds) : Writes ds ds (Nat.ofDigitChars 10 ds 0)
  | plus {ds : List Char} (digits : Digits ds) : Writes ('+' :: ds) ds (Nat.ofDigitChars 10 ds 0)
  | minus {ds : List Char} (digits : Digits ds) :
      Writes ('-' :: ds) ds (-Nat.ofDigitChars 10 ds 0 : Int)

variable {cs ds : List Char} {n : Int}

/-! ## Digits -/

theorem isWhole_iff : isWhole ds = true ↔ Digits ds := by
  constructor
  · intro whole
    unfold isWhole at whole
    split at whole
    · cases whole
    · rw [List.isEmpty_iff] at whole
      rw [whole]
      exact .zero
    · rename_i nonempty nonzero
      cases ds with
      | nil => exact absurd rfl nonempty
      | cons c rest =>
        obtain ⟨digit, others⟩ := List.forall_mem_cons.1 (List.all_eq_true.1 whole)
        exact .leading digit (fun zero => nonzero rest (zero ▸ rfl)) others
  · intro digits
    cases digits with
    | zero => rfl
    | leading digit nonzero others =>
      unfold isWhole
      split
      · rename_i nil
        cases nil
      · rename_i zero
        cases zero
        exact absurd rfl nonzero
      · exact List.all_eq_true.2 (List.forall_mem_cons.2 ⟨digit, others⟩)

theorem Digits.isDigit (digits : Digits ds) : ∀ c ∈ ds, c.isDigit = true := by
  cases digits with
  | zero => exact List.forall_mem_singleton.2 rfl
  | leading digit nonzero others => exact List.forall_mem_cons.2 ⟨digit, others⟩

theorem digit_bounds {c : Char} (digit : c.isDigit = true) : 48 ≤ c.toNat ∧ c.toNat ≤ 57 := by
  have both := Bool.and_eq_true_iff.1 digit
  exact ⟨of_decide_eq_true both.1, of_decide_eq_true both.2⟩

theorem digitChar_of_isDigit {c : Char} (digit : c.isDigit = true) :
    Nat.digitChar (c.toNat - 48) = c := by
  have bounds := digit_bounds digit
  apply Char.toNat_inj.1
  rw [Nat.toNat_digitChar_of_lt_ten (by omega)]
  omega

/-- Digits behind the decimal form of a positive number are the decimal form of a number. -/
theorem toDigits_append {m : Nat} (positive : 0 < m) (digits : ∀ c ∈ ds, c.isDigit = true) :
    Nat.toDigits 10 m ++ ds = Nat.toDigits 10 (Nat.ofDigitChars 10 ds m) := by
  induction ds generalizing m with
  | nil => rw [List.append_nil, Nat.ofDigitChars_nil]
  | cons c rest ih =>
    obtain ⟨digit, others⟩ := List.forall_mem_cons.1 digits
    have small : c.toNat - 48 < 10 := by
      have := digit_bounds digit
      omega
    have one : Nat.toDigits 10 (c.toNat - 48) = [c] := by
      rw [Nat.toDigits_of_lt_base small, digitChar_of_isDigit digit]
    calc Nat.toDigits 10 m ++ c :: rest
        = (Nat.toDigits 10 m ++ Nat.toDigits 10 (c.toNat - 48)) ++ rest := by
          rw [one, List.append_assoc, List.singleton_append]
      _ = Nat.toDigits 10 (10 * m + (c.toNat - 48)) ++ rest := by
          rw [Nat.toDigits_append_toDigits (by decide) positive small]
      _ = Nat.toDigits 10 (Nat.ofDigitChars 10 (c :: rest) m) := by
          rw [ih (by omega) others, Nat.ofDigitChars_cons]
          rfl

/-- Digits without a leading zero are the decimal form of what they stand for. -/
theorem Digits.eq_toDigits (digits : Digits ds) :
    ds = Nat.toDigits 10 (Nat.ofDigitChars 10 ds 0) := by
  cases digits with
  | zero => rfl
  | @leading c rest digit nonzero others =>
    have bounds := digit_bounds digit
    have positive : 0 < c.toNat - 48 := by
      have : c.toNat ≠ 48 := fun zero => nonzero (Char.toNat_inj.1 zero)
      omega
    have one : Nat.toDigits 10 (c.toNat - 48) = [c] := by
      rw [Nat.toDigits_of_lt_base (by omega), digitChar_of_isDigit digit]
    calc c :: rest = Nat.toDigits 10 (c.toNat - 48) ++ rest := by rw [one, List.singleton_append]
      _ = Nat.toDigits 10 (Nat.ofDigitChars 10 (c :: rest) 0) := by
          rw [toDigits_append positive others, Nat.ofDigitChars_cons, Nat.mul_zero, Nat.zero_add]
          rfl

theorem Digits.concat {c : Char} (digits : Digits ds) (nonzero : ds ≠ ['0'])
    (digit : c.isDigit = true) : Digits (ds ++ [c]) := by
  cases digits with
  | zero => exact absurd rfl nonzero
  | leading first plain others =>
    refine .leading first plain ?_
    exact List.forall_mem_append.2 ⟨others, List.forall_mem_singleton.2 digit⟩

/-- The decimal form of a natural number has no leading zero. -/
theorem digits_toDigits (n : Nat) : Digits (Nat.toDigits 10 n) := by
  induction n using Nat.strongRecOn with
  | ind n ih =>
    have digit : ∀ c ∈ Nat.toDigits 10 n, c.isDigit = true :=
      fun c mem => Nat.isDigit_of_mem_toDigits (by decide) (by decide) mem
    rw [Nat.toDigits_eq_if (by decide)] at digit ⊢
    split
    · rename_i small
      rw [if_pos small] at digit
      by_cases zero : n = 0
      · rw [zero]
        exact .zero
      · refine .leading (digit _ List.mem_cons_self) ?_ (List.forall_mem_nil _)
        intro same
        have value := Nat.toNat_digitChar_of_lt_ten small
        rw [same] at value
        exact zero (by simpa using value)
    · rename_i large
      rw [if_neg large] at digit
      refine (ih (n / 10) (by omega)).concat ?_
        (digit _ (List.mem_append_right _ List.mem_cons_self))
      intro zero
      have value := congrArg (Nat.ofDigitChars 10 · 0) zero
      rw [Nat.ofDigitChars_ten_toDigits] at value
      have : n / 10 = 0 := value
      omega

/-! ## Signs -/

theorem splitSign_of_digits (digits : Digits ds) : Text.splitSign ds = (false, ds) := by
  cases digits with
  | zero => rfl
  | @leading c rest digit nonzero others =>
    unfold Text.splitSign
    split
    · rename_i minus
      cases minus
      exact absurd digit (by decide)
    · rename_i plus
      cases plus
      exact absurd digit (by decide)
    · rfl

/-- A text writes an integer if behind its sign there are digits. -/
theorem writes_iff : Writes cs ds n ↔ ∃ negative, Text.splitSign cs = (negative, ds) ∧ Digits ds ∧
    n = Text.signed negative (Text.digitsValue ds) := by
  constructor
  · intro writes
    cases writes with
    | unsigned digits => exact ⟨false, splitSign_of_digits digits, digits, rfl⟩
    | plus digits => exact ⟨false, rfl, digits, rfl⟩
    | minus digits => exact ⟨true, rfl, digits, rfl⟩
  · rintro ⟨negative, split, digits, rfl⟩
    unfold Text.splitSign at split
    split at split
    · cases split
      exact .minus digits
    · cases split
      exact .plus digits
    · cases split
      exact .unsigned digits

theorem ne_point_of_digits (digits : Digits ds) : ∀ c ∈ ds, (c != '.') = true := by
  intro c mem
  have digit := digits.isDigit c mem
  refine bne_iff_ne.2 ?_
  rintro rfl
  cases digit

/-- A text without a fraction is read if it writes an integer. -/
theorem readWhole?_eq_some_iff {m : Numeral} :
    readWhole? cs = some m ↔
      Text.splitSign cs = (m.negative, m.whole) ∧ Digits m.whole ∧ m.fraction = none := by
  obtain ⟨negative, whole, fraction⟩ := m
  rw [readWhole?, Option.filter_eq_some_iff, read?]
  generalize Text.splitSign cs = signed
  obtain ⟨sign, digits⟩ := signed
  dsimp only
  constructor
  · rintro ⟨read, noFraction⟩
    split at read
    · rename_i isWhole
      split at read
      · rename_i noRest
        cases read
        have all : digits.takeWhile (· != '.') = digits := by
          have whole := List.takeWhile_append_dropWhile (p := (· != '.')) (l := digits)
          rw [noRest, List.append_nil] at whole
          exact whole
        rw [all] at isWhole ⊢
        exact ⟨rfl, isWhole_iff.1 isWhole, rfl⟩
      · split at read
        · cases read
          cases noFraction
        · cases read
    · cases read
  · rintro ⟨same, isDigits, rfl⟩
    obtain ⟨rfl, rfl⟩ := Prod.mk.inj same
    have all : digits.takeWhile (· != '.') = digits :=
      List.takeWhile_eq_self_iff.2 (ne_point_of_digits isDigits)
    have noRest : digits.dropWhile (· != '.') = [] :=
      List.dropWhile_eq_nil_iff.2 (ne_point_of_digits isDigits)
    rw [all, noRest, if_pos (isWhole_iff.2 isDigits)]
    exact ⟨rfl, rfl⟩

theorem Writes.readWhole? (writes : Writes cs ds n) :
    ∃ m, Numeral.readWhole? cs = some m ∧ m.fraction = none ∧ m.whole = ds ∧ m.toInt = n := by
  obtain ⟨negative, split, digits, rfl⟩ := writes_iff.1 writes
  exact ⟨⟨negative, ds, none⟩, readWhole?_eq_some_iff.2 ⟨split, digits, rfl⟩, rfl, rfl, rfl⟩

theorem writes_of_readWhole? {m : Numeral} (read : Numeral.readWhole? cs = some m) :
    Writes cs m.whole m.toInt := by
  obtain ⟨split, digits, -⟩ := readWhole?_eq_some_iff.1 read
  exact writes_iff.2 ⟨m.negative, split, digits, rfl⟩

/-- A text writes at most one integer, with at most one sequence of digits. -/
theorem Writes.unique {ds' : List Char} {n' : Int} (writes : Writes cs ds n)
    (writes' : Writes cs ds' n') : ds = ds' ∧ n = n' := by
  obtain ⟨m, read, -, rfl, rfl⟩ := writes.readWhole?
  obtain ⟨m', read', -, rfl, rfl⟩ := writes'.readWhole?
  rw [read] at read'
  cases read'
  exact ⟨rfl, rfl⟩

/-- The digits of an integer are the decimal form of its magnitude. -/
theorem Writes.eq_toDigits (writes : Writes cs ds n) : ds = Nat.toDigits 10 n.natAbs := by
  cases writes with
  | unsigned digits => exact digits.eq_toDigits
  | plus digits => exact digits.eq_toDigits
  | minus digits =>
    rw [Int.natAbs_neg]
    exact digits.eq_toDigits

/-- Every integer is written by its decimal form. -/
theorem writes_toString (n : Int) : Writes (toString n).toList (Nat.toDigits 10 n.natAbs) n := by
  rw [Int.toString_eq_repr, Int.repr_eq_if]
  by_cases nonnegative : 0 ≤ n
  · have same : n.toNat = n.natAbs := by omega
    have value : (Nat.ofDigitChars 10 (Nat.toDigits 10 n.natAbs) 0 : Int) = n := by
      rw [Nat.ofDigitChars_ten_toDigits]
      omega
    have writes := Writes.unsigned (digits_toDigits n.natAbs)
    rw [value] at writes
    rw [if_pos nonnegative, Nat.toList_repr, same]
    exact writes
  · have same : (-n).toNat = n.natAbs := by omega
    have value : (-Nat.ofDigitChars 10 (Nat.toDigits 10 n.natAbs) 0 : Int) = n := by
      rw [Nat.ofDigitChars_ten_toDigits]
      omega
    have writes := Writes.minus (digits_toDigits n.natAbs)
    rw [value] at writes
    rw [if_neg nonnegative, String.toList_append, Nat.toList_repr, same]
    exact writes

end Numeral

/-! ## Sizes -/

namespace IntegerSize

variable {size : IntegerSize} {unsigned : Bool} {n : Int}

/-- The integers that a size has room for: without a sign from zero on, with a sign in two's
complement. -/
def Holds (size : IntegerSize) (unsigned : Bool) (n : Int) : Prop :=
  if unsigned then 0 ≤ n ∧ n ≤ 2 ^ size.bits - 1
  else -2 ^ (size.bits - 1) ≤ n ∧ n ≤ 2 ^ (size.bits - 1) - 1

theorem holds_iff : size.Holds unsigned n ↔
    (size.bounds unsigned).1 ≤ n ∧ n ≤ (size.bounds unsigned).2 := by
  cases size <;> cases unsigned <;> exact Iff.rfl

instance : Decidable (size.Holds unsigned n) := decidable_of_iff _ holds_iff.symm

/-- A size has no room for more than 64 bits. -/
theorem Holds.natAbs_lt (holds : size.Holds unsigned n) : n.natAbs < 2 ^ 64 := by
  cases size <;> cases unsigned <;> simp [Holds, bits] at holds ⊢ <;> omega

/-- An integer that a size has room for is written with few digits. -/
theorem Holds.length_le {cs ds : List Char} (holds : size.Holds unsigned n)
    (writes : Numeral.Writes cs ds n) : ds.length ≤ maxDigits := by
  have small : n.natAbs < 10 ^ 20 := holds.natAbs_lt.trans (by decide)
  rw [writes.eq_toDigits]
  exact ((Nat.length_toDigits_le_iff (by decide) (by decide)).2 small).trans (by decide)

end IntegerSize

/-! ## Conversions -/

/-- The integers between which settings ask a number to lie; a missing one leaves its side open. -/
inductive NumericOptions.Between : Option NumericOptions → Option Int → Option Int → Prop
  | unset : Between none none none
  | signedness (unsigned : Bool) : Between (some (.signedness unsigned)) none none
  | range (low high : Option Int) :
      Between (some (.range (low.map .int) (high.map .int))) low high

namespace Builtin

variable {size : IntegerSize} {options : Option NumericOptions} {token : Token} {ds : List Char}
  {n : Int}

/-- What is told of an integer that its size has no room for. -/
def overflowText (size : IntegerSize) (unsigned : Bool) : String :=
  toString size.bits ++ "-bit " ++ (if unsigned then "unsigned" else "signed") ++ " overflow"

/-- A text that writes an integer is converted if its size has room for it. -/
theorem convertInteger_of_writes (writes : Numeral.Writes token.text.toList ds n) :
    convertInteger size options token =
      if maxDigits < ds.length then .crash (.digitLimit ds.length)
      else if size.Holds (isUnsigned options) n then .value (.int n)
      else outOfRange (overflowText size (isUnsigned options)) token := by
  obtain ⟨m, read, -, rfl, rfl⟩ := writes.readWhole?
  unfold convertInteger
  rw [read]
  by_cases long : maxDigits < m.whole.length
  · rw [if_pos long]
    exact if_pos long
  · rw [if_neg long]
    refine (if_neg long).trans ?_
    by_cases holds : size.Holds (isUnsigned options) m.toInt
    · rw [if_pos holds]
      exact if_pos (IntegerSize.holds_iff.1 holds)
    · rw [if_neg holds]
      exact if_neg (mt IntegerSize.holds_iff.2 holds)

/-- A text that writes no integer is refused. -/
theorem convertInteger_of_unwritten (unwritten : ∀ ds n, ¬Numeral.Writes token.text.toList ds n) :
    convertInteger size options token = malformed size.name token := by
  unfold convertInteger
  cases read : Numeral.readWhole? token.text.toList with
  | none => rfl
  | some m => exact absurd (Numeral.writes_of_readWhole? read) (unwritten _ _)

theorem convertInteger_eq_conversion_iff {v step : Value} :
    convertInteger size options token = .conversion v step ↔
      ∃ ds n, Numeral.Writes token.text.toList ds n ∧ size.Holds (isUnsigned options) n ∧
        v = .int n ∧ step = .int 1 := by
  constructor
  · intro converted
    by_cases written : ∃ ds n, Numeral.Writes token.text.toList ds n
    · obtain ⟨ds, n, writes⟩ := written
      rw [convertInteger_of_writes writes] at converted
      split at converted
      · cases converted
      · split at converted
        · rename_i holds
          cases converted
          exact ⟨ds, n, writes, holds, rfl, rfl⟩
        · cases converted
    · rw [convertInteger_of_unwritten fun ds n writes => written ⟨ds, n, writes⟩] at converted
      cases converted
  · rintro ⟨ds, n, writes, holds, rfl, rfl⟩
    rw [convertInteger_of_writes writes, if_neg (Nat.not_lt.2 (holds.length_le writes)),
      if_pos holds]
    rfl

theorem lt_int (m n : Int) : (Number.int m).lt (.int n) = decide (m < n) := by
  show decide (m * (Nat.pow 2 0 : Nat) < n * (Nat.pow 2 0 : Nat)) = decide (m < n)
  simp

/-- A whole number is accepted if it lies between the bounds. -/
theorem checkRange_int {low high : Option Int}
    (between : NumericOptions.Between options low high) {v step : Value} :
    checkRange options token (.int n) = .conversion v step ↔
      (∀ l ∈ low, l ≤ n) ∧ (∀ h ∈ high, n ≤ h) ∧ v = .int n ∧ step = .int 1 := by
  have converted : Answer.value (Value.ofNumber (.int n)) = .conversion v step ↔
      v = .int n ∧ step = .int 1 := by
    constructor
    · intro same
      cases same
      exact ⟨rfl, rfl⟩
    · rintro ⟨rfl, rfl⟩
      rfl
  cases between with
  | unset => simp [checkRange, converted]
  | signedness unsigned => simp [checkRange, converted]
  | range low high =>
    have small : (low.map Number.int).filter (Number.int n).lt = none ↔ ∀ l ∈ low, l ≤ n := by
      simp [Option.filter_eq_none_iff, lt_int]
    have big : (high.map Number.int).filter (·.lt (.int n)) = none ↔ ∀ h ∈ high, n ≤ h := by
      simp [Option.filter_eq_none_iff, lt_int]
    rw [checkRange, ← small, ← big]
    cases (low.map Number.int).filter (Number.int n).lt with
    | some l => simp [beyond_ne_conversion]
    | none =>
      cases (high.map Number.int).filter (·.lt (.int n)) with
      | some h => simp [beyond_ne_conversion]
      | none => simp [converted]

theorem convertNumber_of_writes (writes : Numeral.Writes token.text.toList ds n)
    (few : ds.length ≤ maxDigits) :
    convertNumber options token = checkRange options token (.int n) := by
  obtain ⟨m, read, whole, rfl, rfl⟩ := writes.readWhole?
  obtain ⟨read, -⟩ := Option.filter_eq_some_iff.1 read
  unfold convertNumber
  rw [read]
  dsimp only
  rw [whole]
  exact if_neg (Nat.not_lt.2 few)

theorem convertNumber_eq_conversion_iff {low high : Option Int}
    (between : NumericOptions.Between options low high)
    (writes : Numeral.Writes token.text.toList ds n) (few : ds.length ≤ maxDigits)
    {v step : Value} :
    convertNumber options token = .conversion v step ↔
      (∀ l ∈ low, l ≤ n) ∧ (∀ h ∈ high, n ≤ h) ∧ v = .int n ∧ step = .int 1 := by
  rw [convertNumber_of_writes writes few]
  exact checkRange_int between

/-- The types of integers convert exactly the texts that write an integer of their size, to that
integer. Of the texts that write an integer with no more digits than can be converted, the type of
numbers converts exactly those whose integer lies between the bounds of the argument. So each of
these integers is converted from its decimal form. -/
theorem converts_integers (size : IntegerSize) (options : Option NumericOptions) (token : Token) :
    (∀ v step, (Builtin.integer size).convert options token = .conversion v step ↔
      ∃ ds n, Numeral.Writes token.text.toList ds n ∧ size.Holds (isUnsigned options) n ∧
        v = .int n ∧ step = .int 1) ∧
    (∀ low high, NumericOptions.Between options low high → ∀ ds n,
      Numeral.Writes token.text.toList ds n → ds.length ≤ maxDigits → ∀ v step,
        Builtin.number.convert options token = .conversion v step ↔
          (∀ l ∈ low, l ≤ n) ∧ (∀ h ∈ high, n ≤ h) ∧ v = .int n ∧ step = .int 1) ∧
    ∀ n, token.text = toString n →
      (size.Holds (isUnsigned options) n →
        (Builtin.integer size).convert options token = .value (.int n)) ∧
      ∀ low high, NumericOptions.Between options low high → n.natAbs < 10 ^ maxDigits →
        (∀ l ∈ low, l ≤ n) → (∀ h ∈ high, n ≤ h) →
        Builtin.number.convert options token = .value (.int n) := by
  refine ⟨fun v step => convertInteger_eq_conversion_iff, ?_, ?_⟩
  · intro low high between ds n writes few v step
    exact convertNumber_eq_conversion_iff between writes few
  · intro n decimal
    have writes := Numeral.writes_toString n
    rw [← decimal] at writes
    constructor
    · intro holds
      exact convertInteger_eq_conversion_iff.2 ⟨_, n, writes, holds, rfl, rfl⟩
    · intro low high between small above below
      have few := (Nat.length_toDigits_le_iff (by decide) (by decide)).2 small
      exact (convertNumber_eq_conversion_iff between writes few).2 ⟨above, below, rfl, rfl⟩

/-- The least integer of a byte is converted from its decimal form, the next one below it is not,
and a number above its minimum is converted whatever its sign. -/
theorem converts_integers_edges :
    (Builtin.integer .byte).convert none ⟨"-128", 0, 4, false⟩ = .value (.int (-128)) ∧
      (∀ v step, (Builtin.integer .byte).convert none ⟨"-129", 0, 4, false⟩ ≠
        .conversion v step) ∧
      Builtin.number.convert (some (.range (some (.int 0)) none)) ⟨"+7", 0, 2, false⟩ =
        .value (.int 7) := by
  have least := (converts_integers .byte none ⟨"-128", 0, 4, false⟩).2.2 (-128) rfl
  have below := (converts_integers .byte none ⟨"-129", 0, 4, false⟩).1
  have number := (converts_integers .byte _ ⟨"+7", 0, 2, false⟩).2.1 _ _ (.range (some 0) none)
  have others : ∀ d ∈ ['2', '9'], d.isDigit = true :=
    List.forall_mem_cons.2 ⟨rfl, List.forall_mem_singleton.2 rfl⟩
  have under : Numeral.Writes "-129".toList ['1', '2', '9'] (-129) :=
    .minus (.leading rfl (by decide) others)
  have seven : Numeral.Writes "+7".toList ['7'] 7 :=
    .plus (.leading rfl (by decide) (List.forall_mem_nil _))
  refine ⟨least.1 (by decide), ?_, ?_⟩
  · intro v step converted
    obtain ⟨ds, n, writes, holds, -, -⟩ := (below v step).1 converted
    rw [(writes.unique under).2] at holds
    exact absurd holds (by decide)
  · exact (number _ _ seven (by decide) _ _).2 ⟨by simp, by simp, rfl, rfl⟩

end Builtin

end CommandGrammar
