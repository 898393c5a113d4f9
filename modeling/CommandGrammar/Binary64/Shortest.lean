import CommandGrammar.Binary64.Basic

/-!
# Shortest decimals

The decimal with the fewest digits that is nearer to a floating-point number than to any other,
and of those the nearest one. Whether a decimal qualifies is decided on whole numbers: all
magnitudes are counted in quarters of the least power of two.
-/

namespace CommandGrammar.Binary64

/-- A magnitude and the bounds of the interval that rounds to it, in units of `2 ^ -1076`. -/
structure Interval where
  low : Nat
  middle : Nat
  high : Nat
  /-- Whether the bounds themselves round to the number. -/
  closed : Bool

/-- The interval of the fractions that round to the magnitude of a finite number. The step below
a power of two is half the step above it. -/
def interval (x : Binary64) : Interval :=
  let unit := Nat.pow 2 x.exponent
  let middle := 4 * x.significand * unit
  let below := if x.fractionBits = 0 ∧ 1 < x.exponentBits then unit else 2 * unit
  ⟨middle - below, middle, middle + 2 * unit, x.significand % 2 = 0⟩

/-- Whether `num / den`, in units of `2 ^ -1076`, lies in the interval. -/
def Interval.contains (i : Interval) (num den : Nat) : Bool :=
  if i.closed then i.low * den ≤ num && num ≤ i.high * den
  else i.low * den < num && num < i.high * den

/-- A decimal, `digits * 10 ^ exponent`. -/
structure Digits where
  digits : Nat
  exponent : Int

/-- The decimal as a fraction in units of `2 ^ -1076`. -/
def Digits.fraction (d : Digits) : Nat × Nat :=
  if 0 ≤ d.exponent then (d.digits * Nat.pow 10 d.exponent.toNat * Nat.pow 2 1076, 1)
  else (d.digits * Nat.pow 2 1076, Nat.pow 10 d.exponent.natAbs)

/-- The grid of decimals with the given exponent, as the multiple just below the middle. -/
def Interval.gridFloor (i : Interval) (exponent : Int) : Nat :=
  if 0 ≤ exponent then i.middle / (Nat.pow 10 exponent.toNat * Nat.pow 2 1076)
  else i.middle * Nat.pow 10 exponent.natAbs / Nat.pow 2 1076

/-- Whether the first decimal is at most as far from the middle as the second, which lies on the
other side. Of two that are equally far the even one is nearer. -/
def Interval.prefers (i : Interval) (below above : Digits) : Bool :=
  let (a, b) := below.fraction
  let (c, d) := above.fraction
  let down := (i.middle * b - a) * d
  let up := (c - i.middle * d) * b
  down < up || (down == up && below.digits % 2 == 0)

/-- The decimal nearest to the middle on the grid of an exponent, if one rounds to the number. -/
def Interval.onGrid? (i : Interval) (exponent : Int) : Option Digits :=
  let n := i.gridFloor exponent
  let below : Digits := ⟨n, exponent⟩
  let above : Digits := ⟨n + 1, exponent⟩
  let ok (d : Digits) : Bool := i.contains d.fraction.1 d.fraction.2
  if ok below then
    if ok above && !i.prefers below above then some above else some below
  else if ok above then some above
  else none

/-- The exponent of the leading digit of a magnitude that is not zero: the first, from an
estimate that is not too large, whose successor's power of ten is larger than the magnitude. -/
def Interval.leading (i : Interval) : (steps : Nat) → Int → Int
  | 0, e => e
  | steps + 1, e => if i.gridFloor (e + 1) = 0 then e else i.leading steps (e + 1)

/-- The leading exponent, estimated from the count of binary digits and then corrected. -/
def Interval.leadingExponent (i : Interval) : Int :=
  let bits : Int := i.middle.log2 - 1076
  i.leading 4 (bits * 30103 / 100000 - 2)

/-- The first grid, from the coarsest, that holds a decimal rounding to the number. -/
def Interval.shortest (i : Interval) : (more : Nat) → Int → Digits
  | 0, e => ⟨i.gridFloor e, e⟩
  | more + 1, e => (i.onGrid? e).getD (i.shortest more (e - 1))

/-- The shortest decimal that reads back to the magnitude of a finite number that is not zero. -/
def shortest (x : Binary64) : Digits :=
  let i := x.interval
  i.shortest 17 i.leadingExponent

end CommandGrammar.Binary64
