import CommandGrammar.Mapping
import CommandGrammar.Value.Equality
import Mathlib.Algebra.Order.Ring.Int
import Mathlib.Data.List.Forall2

/-!
# Equal values

What equality of values comes to, part by part: lists of arguments, flags and schemas are equal
item by item, and these are equal when their fields are. Numbers that are equal stand in the same
order to every number (`numberEq_lt`), so bounds that are equal refuse the same numbers. Mappings
into which equal values are written are equal as dicts (`Mapping.Equal.eq_asValue`).
-/

namespace CommandGrammar

namespace Real64

/-- Fractions that are equal are on the same side of a third one, whose numerator is given. -/
theorem fraction_lt_iff {a m n p q r : Int} (hq : 0 < q) (hr : 0 < r) (same : m * r = n * q) :
    (a * q < m * p ↔ a * r < n * p) ∧ (m * p < a * q ↔ n * p < a * r) := by
  have crossed : m * p * r = n * p * q := by rw [mul_right_comm, same, mul_right_comm]
  have scaled : a * q * r = a * r * q := mul_right_comm a q r
  constructor
  · calc a * q < m * p ↔ a * q * r < m * p * r := (mul_lt_mul_iff_left₀ hr).symm
      _ ↔ a * r * q < n * p * q := by rw [crossed, scaled]
      _ ↔ a * r < n * p := mul_lt_mul_iff_left₀ hq
  · calc m * p < a * q ↔ m * p * r < a * q * r := (mul_lt_mul_iff_left₀ hr).symm
      _ ↔ n * p * q < a * r * q := by rw [crossed, scaled]
      _ ↔ n * p < a * r := mul_lt_mul_iff_left₀ hq

/-- Values that are equal stand in the same order to every value. -/
theorem lt_congr {x y : Real64} (same : x.eq y = true) (z : Real64) :
    z.lt x = z.lt y ∧ x.lt z = y.lt z := by
  have positive : ∀ k, (0 : Int) < (Nat.pow 2 k : Nat) :=
    fun k => Int.natCast_pos.2 (Nat.pow_pos (by decide))
  cases x with
  | nan => cases same
  | infinite a =>
    cases y with
    | infinite b =>
      cases beq_iff_eq.1 same
      exact ⟨rfl, rfl⟩
    | _ => cases same
  | finite m j =>
    cases y with
    | finite n k =>
      have crossed : m * (Nat.pow 2 k : Nat) = n * (Nat.pow 2 j : Nat) := beq_iff_eq.1 same
      cases z with
      | finite a i =>
        obtain ⟨below, above⟩ := fraction_lt_iff (positive j) (positive k) crossed
        exact ⟨decide_eq_decide.2 below, decide_eq_decide.2 above⟩
      | _ => exact ⟨rfl, rfl⟩
    | _ => cases same

theorem eq_comm (x y : Real64) : x.eq y = y.eq x := by
  cases x <;> cases y <;> simp [Real64.eq, Bool.beq_comm]

end Real64

namespace Binary64

/-- The numerator of a finite floating-point number has so many bits at most. -/
def numeratorBits : Nat := 53 + 2045

theorem natAbs_lt_of_value {x : Binary64} {n : Int} {k : Nat} (value : x.value = .finite n k) :
    n.natAbs < 2 ^ numeratorBits := by
  unfold Binary64.value at value
  split at value
  · cases value
  · rename_i number
    split at value
    · cases value
    · rename_i bounded
      cases value
      have exponent : x.exponent ≤ 2045 := by
        have last : x.exponentBits < 2 ^ 11 := Nat.mod_lt _ (by decide)
        have other : x.exponentBits ≠ 2047 := by
          intro all
          by_cases none : x.fractionBits = 0
          · exact bounded (by simp [isInfinite, all, none])
          · exact number (by simp [isNaN, all, none])
        rw [Binary64.exponent]
        omega
      have significand : x.significand < 2 ^ 53 := by
        have fraction : x.fractionBits < 2 ^ 52 := Nat.mod_lt _ (by decide)
        unfold Binary64.significand
        split
        · omega
        · show 2 ^ 52 + x.fractionBits < 2 ^ 53
          omega
      have scaled : ∀ k, x.exponent ≤ k → x.significand * 2 ^ x.exponent < 2 ^ (53 + k) := by
        intro k le
        rw [Nat.pow_add]
        exact Nat.mul_lt_mul_of_lt_of_le significand (Nat.pow_le_pow_right (by decide) le)
          (Nat.pow_pos (by decide))
      have magnitude : x.significand * 2 ^ x.exponent < 2 ^ numeratorBits := by
        rw [numeratorBits]
        exact scaled 2045 exponent
      split
      · rw [Int.natAbs_neg]
        exact magnitude
      · exact magnitude

end Binary64

/-- A whole number that equals a floating-point number has few digits, and is written. -/
theorem decimal_of_eq {n : Int} {x : Binary64} (same : (Real64.ofInt n).eq x.value = true) :
    decimal n = .ok (toString n) := by
  cases value : x.value with
  | nan =>
    rw [value] at same
    cases same
  | infinite negative =>
    rw [value] at same
    cases same
  | finite m k =>
    rw [value] at same
    have bound := Binary64.natAbs_lt_of_value value
    have crossed : n * (2 ^ k : Nat) = m * (2 ^ 0 : Nat) := beq_iff_eq.1 same
    have scaled : n.natAbs * 2 ^ k = m.natAbs := by
      have := congrArg Int.natAbs crossed
      rwa [Int.natAbs_mul, Int.natAbs_natCast, Int.natAbs_mul, Int.natAbs_natCast, Nat.pow_zero,
        Nat.mul_one] at this
    have small : n.natAbs < 2 ^ Binary64.numeratorBits := by
      refine Nat.lt_of_le_of_lt ?_ bound
      rw [← scaled]
      exact Nat.le_mul_of_pos_right _ (Nat.pow_pos (by decide))
    have few : 2 ^ Binary64.numeratorBits ≤ decimalLimit := by decide +kernel
    rw [decimal, if_pos (Nat.lt_of_lt_of_le small few)]
    rfl

namespace Value

/-- Numbers that are equal stand in the same order to every number. -/
theorem numberEq_lt {inside : Bool} {m n : Number} (same : numberEq inside m n = true)
    (k : Number) : k.lt m = k.lt n ∧ m.lt k = n.lt k := by
  rcases Bool.or_eq_true_iff.1 same with equal | identical
  · exact Real64.lt_congr equal k.value
  · cases beq_iff_eq.1 (Bool.and_eq_true_iff.1 identical).2
    exact ⟨rfl, rfl⟩

theorem numberEq_self (n : Number) : numberEq true n n = true := by
  rw [numberEq, beq_self_eq_true, Bool.and_true, Bool.or_true]

/-- Numbers that are equal are written in the same way, or both are written. -/
theorem numberEq_text {inside : Bool} {m n : Number} (same : numberEq inside m n = true) :
    m.text = n.text ∨ ∃ t t', m.text = .ok t ∧ n.text = .ok t' := by
  rcases Bool.or_eq_true_iff.1 same with equal | identical
  · cases m with
    | int a =>
      cases n with
      | int b =>
        have crossed : a * (2 ^ 0 : Nat) = b * (2 ^ 0 : Nat) := beq_iff_eq.1 equal
        rw [Nat.pow_zero, Int.natCast_one, Int.mul_one, Int.mul_one] at crossed
        rw [crossed]
        exact .inl rfl
      | real x => exact .inr ⟨_, _, decimal_of_eq equal, rfl⟩
    | real x =>
      cases n with
      | int b => exact .inr ⟨_, _, rfl, decimal_of_eq ((Real64.eq_comm _ _).trans equal)⟩
      | real y => exact .inr ⟨_, _, rfl, rfl⟩
  · cases beq_iff_eq.1 (Bool.and_eq_true_iff.1 identical).2
    exact .inl rfl

/-! ## Settings -/

theorem option_rel_iff {α : Type} {R : α → α → Prop} {o o' : Option α} :
    o.Rel R o' ↔ (o = none ∧ o' = none) ∨ ∃ x y, o = some x ∧ o' = some y ∧ R x y := by
  constructor
  · rintro (h | _)
    · exact .inr ⟨_, _, rfl, rfl, h⟩
    · exact .inl ⟨rfl, rfl⟩
  · rintro (⟨rfl, rfl⟩ | ⟨x, y, rfl, rfl, h⟩)
    · exact .none
    · exact .some h

/-- Bounds that are equal are missing both, or they are numbers that are equal. -/
theorem boundsEq_iff {low low' : Option Number} :
    boundsEq low low' = true ↔ low.Rel (fun m n => numberEq true m n = true) low' := by
  rw [option_rel_iff]
  cases low <;> cases low' <;> simp [boundsEq]

/-- Of bounds that are equal a test that does not tell them apart keeps both or neither. -/
theorem boundsEq_filter {low low' : Option Number} (same : boundsEq low low' = true)
    {f : Number → Bool} (alike : ∀ m n, numberEq true m n = true → f m = f n) :
    (low.filter f).Rel (fun m n => numberEq true m n = true) (low'.filter f) := by
  cases boundsEq_iff.1 same with
  | none => exact .none
  | @some m n equal =>
    rw [Option.filter_some, Option.filter_some, alike m n equal]
    split
    · exact .some equal
    · exact .none

/-! ## Arguments, flags and schemas -/

/-- Settings that are equal, or missing both. -/
abbrev OptionsEqual (o o' : Option NumericOptions) : Prop :=
  o.Rel (fun o o' => optionsEq o o' = true) o'

/-- Arguments are equal when their fields are. -/
theorem argumentEqv_iff {inside : Bool} {a b : Argument Value} :
    argumentEqv inside a b = true ↔
      a.dest = b.dest ∧ a.type = b.type ∧ a.name = b.name ∧ a.required = b.required ∧
        eqv inside a.default b.default = true ∧ a.help = b.help ∧
        OptionsEqual a.options b.options ∧ a.extras.length = b.extras.length ∧
        extrasEqv a.extras b.extras = true := by
  obtain ⟨dest, type, name, required, default, help, options, extras⟩ := a
  obtain ⟨dest', type', name', required', default', help', options', extras'⟩ := b
  rw [OptionsEqual, option_rel_iff, argumentEqv.eq_def]
  cases options with
  | none => cases options' <;> simp [and_assoc]
  | some o => cases options' <;> simp [and_assoc]

theorem argumentsEqv_iff {args args' : List (Argument Value)} :
    argumentsEqv args args' = true ↔
      args.Forall₂ (fun a b => argumentEqv true a b = true) args' := by
  induction args generalizing args' with
  | nil => cases args' <;> simp [argumentsEqv]
  | cons a rest ih => cases args' <;> simp [argumentsEqv, ih]

/-- Flags are equal when their fields are. -/
theorem flagEqv_iff {f g : Flag Value} :
    flagEqv f g = true ↔ f.dest = g.dest ∧ f.long = g.long ∧ f.short = g.short ∧ f.help = g.help ∧
      argumentsEqv f.args g.args = true := by
  obtain ⟨dest, long, short, help, args⟩ := f
  rw [flagEqv]
  simp only [Bool.and_eq_true, beq_iff_eq, and_assoc]

theorem flagsEqv_iff {flags flags' : List (Flag Value)} :
    flagsEqv flags flags' = true ↔ flags.Forall₂ (fun f g => flagEqv f g = true) flags' := by
  induction flags generalizing flags' with
  | nil => cases flags' <;> simp [flagsEqv]
  | cons f rest ih => cases flags' <;> simp [flagsEqv, ih]

/-- Schemas are equal when their fields are. -/
theorem schemaEqv_iff {n m : Schema Value} :
    schemaEqv n m = true ↔ n.name = m.name ∧ n.dest = m.dest ∧ n.aliases = m.aliases ∧
      n.help = m.help ∧ argumentsEqv n.args m.args = true ∧ flagsEqv n.flags m.flags = true ∧
      schemasEqv n.subcommands m.subcommands = true := by
  obtain ⟨name, dest, aliases, help, args, flags, subcommands⟩ := n
  rw [schemaEqv]
  simp only [Bool.and_eq_true, beq_iff_eq, and_assoc]

theorem schemasEqv_iff {subs subs' : List (Schema Value)} :
    schemasEqv subs subs' = true ↔ subs.Forall₂ (fun n m => schemaEqv n m = true) subs' := by
  induction subs generalizing subs' with
  | nil => cases subs' <;> simp [schemasEqv]
  | cons n rest ih => cases subs' <;> simp [schemasEqv, ih]

/-- Numbers as values are equal to themselves inside a container. -/
theorem eqv_ofNumber (n : Number) : eqv true (ofNumber n) (ofNumber n) = true := by
  cases n with
  | int n => exact numberEq_self (.int n)
  | real x => exact numberEq_self (.real x)

/-! ## Inside a container -/

theorem numberEq_inside {m n : Number} (h : numberEq false m n = true) :
    numberEq true m n = true := by
  rw [numberEq, Bool.false_and, Bool.or_false] at h
  rw [numberEq, h, Bool.true_or]

theorem any_numberEq_inside {n : Number} {m : Option Number}
    (h : m.any (numberEq false n) = true) : m.any (numberEq true n) = true := by
  cases m with
  | none => cases h
  | some m => exact numberEq_inside h

/-- Values that are equal are equal inside a container too. -/
theorem eqv_inside {v w : Value} (h : eqv false v w = true) : eqv true v w = true := by
  match v with
  | .bool _ | .int _ | .real _ =>
    rw [eqv] at h ⊢
    exact any_numberEq_inside h
  | .argument a =>
    cases w with
    | argument b =>
      obtain ⟨dest, type, name, required, default, help, options, extras⟩ := a
      obtain ⟨hdest, htype, hname, hrequired, hdefault, rest⟩ := argumentEqv_iff.1 h
      exact argumentEqv_iff.2 ⟨hdest, htype, hname, hrequired, eqv_inside hdefault, rest⟩
    | _ => cases h
  | .null | .unset | .str _ | .list _ | .tuple _ | .dict _ | .callable _ | .options _ | .token _
  | .flag _ | .schema _ | .flagDraft _ | .draft _ => cases w <;> exact h

/-- Entries are found among others when each of them has an equal one there. -/
theorem entriesEqv_iff {entries others : List (Value × Value)} :
    entriesEqv entries others = true ↔
      ∀ e ∈ entries, ∃ e' ∈ others, eqv true e.1 e'.1 = true ∧ eqv true e.2 e'.2 = true := by
  induction entries with
  | nil => simp [entriesEqv]
  | cons e rest ih => simp [entriesEqv, ih]

theorem extrasEqv_iff {extras others : List (String × Value)} :
    extrasEqv extras others = true ↔
      ∀ e ∈ extras, ∃ e' ∈ others, e.1 = e'.1 ∧ eqv true e.2 e'.2 = true := by
  induction extras with
  | nil => simp [extrasEqv]
  | cons e rest ih => simp [extrasEqv, ih]

theorem optionsEq_self (o : NumericOptions) : optionsEq o o = true := by
  have bounds : ∀ low : Option Number, boundsEq low low = true := by
    intro low
    cases low with
    | none => rfl
    | some n => exact numberEq_self n
  cases o with
  | range low high => rw [optionsEq, bounds, bounds, Bool.and_self]
  | signedness unsigned => exact beq_self_eq_true unsigned

end Value

/-! ## Mappings -/

namespace Mapping

/-- A mapping as a dict. -/
def asValue (m : Mapping Value) : Value := .dict (m.entries.map fun (key, v) => (.str key, v))

/-- Entries with the same key and equal values. -/
def EntryEqual (e e' : String × Value) : Prop := e.1 = e'.1 ∧ Value.eqv true e.2 e'.2 = true

/-- Mappings of the same keys to equal values. -/
def Equal (m n : Mapping Value) : Prop := m.entries.Forall₂ EntryEqual n.entries

variable {m n m' n' : Mapping Value} {entries others : List (String × Value)}

theorem insertEntry_equal {v v' : Value} (h : entries.Forall₂ EntryEqual others) (key : String)
    (equal : Value.eqv true v v' = true) :
    (insertEntry key v entries).Forall₂ EntryEqual (insertEntry key v' others) := by
  induction h with
  | nil => exact .cons ⟨rfl, equal⟩ .nil
  | @cons e e' rest rest' head tail ih =>
    obtain ⟨key', w⟩ := e
    obtain ⟨key'', w'⟩ := e'
    obtain ⟨rfl, same⟩ := head
    rw [insertEntry, insertEntry]
    by_cases hit : key' = key
    · rw [if_pos hit, if_pos hit]
      exact .cons ⟨rfl, equal⟩ tail
    · rw [if_neg hit, if_neg hit]
      exact .cons ⟨rfl, same⟩ ih

theorem Equal.insert {v v' : Value} (h : m.Equal n) (key : String)
    (equal : Value.eqv true v v' = true) : (m.insert key v).Equal (n.insert key v') :=
  insertEntry_equal h key equal

theorem Equal.insertAll (h : m.Equal n) (hentries : entries.Forall₂ EntryEqual others) :
    (m.insertAll entries).Equal (n.insertAll others) := by
  induction hentries generalizing m n with
  | nil => exact h
  | @cons e e' rest rest' head _ ih =>
    obtain ⟨key, v⟩ := e
    obtain ⟨key', v'⟩ := e'
    obtain ⟨rfl, same⟩ := head
    exact ih (h.insert key same)

theorem Equal.merge (h : m.Equal n) (h' : m'.Equal n') : (m.merge m').Equal (n.merge n') :=
  h.insertAll h'

theorem Equal.keys (h : m.Equal n) : m.keys = n.keys := by
  have keys : ∀ {xs ys : List (String × Value)}, xs.Forall₂ EntryEqual ys →
      xs.map (·.1) = ys.map (·.1) := by
    intro xs ys h
    induction h with
    | nil => rfl
    | cons head _ ih => rw [List.map_cons, List.map_cons, head.1, ih]
  exact keys h

/-- Each entry of a dict is found among entries that are equal. -/
theorem entriesEqv_of_forall₂ {before : List (String × Value)}
    (h : entries.Forall₂ EntryEqual others) (within : others ⊆ before) :
    Value.entriesEqv (entries.map fun (key, v) => (.str key, v))
      (before.map fun (key, v) => (.str key, v)) = true := by
  induction h with
  | nil => rfl
  | @cons e e' rest rest' head _ ih =>
    obtain ⟨here, later⟩ := List.cons_subset.1 within
    rw [List.map_cons, Value.entriesEqv, Bool.and_eq_true, List.any_eq_true]
    refine ⟨⟨_, List.mem_map_of_mem here, ?_⟩, ih later⟩
    obtain ⟨key, v⟩ := e
    obtain ⟨key', v'⟩ := e'
    obtain ⟨rfl, same⟩ := head
    dsimp only
    rw [same, Bool.and_true, Value.eqv]
    exact beq_self_eq_true key

/-- Mappings of the same keys to equal values are equal as dicts. -/
theorem Equal.eq_asValue (h : m.Equal n) : Value.eq m.asValue n.asValue = true := by
  rw [asValue, asValue, Value.eq, Value.eqv, Bool.and_eq_true, beq_iff_eq]
  refine ⟨?_, entriesEqv_of_forall₂ h (List.Subset.refl _)⟩
  rw [List.length_map, List.length_map]
  exact h.length_eq

end Mapping

end CommandGrammar
