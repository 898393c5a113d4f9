import CommandGrammar.Binary64.Basic

/-!
# Rounding to binary64

The floating-point number nearest to a fraction, ties to the even significand, and the infinity
beyond the largest number. Decimals are read by it, exactly for any number of digits.
-/

namespace CommandGrammar.Binary64

/-- The quotient rounded to the nearest whole number, ties to the even one. -/
def roundDiv (num den : Nat) : Nat :=
  let q := num / den
  let r := 2 * (num % den)
  if r < den then q else if den < r then q + 1 else q + q % 2

/-- The exponent, counted from the least one, at which the significand of `num / den` has 53
bits, or 0 for the fractions too small for that. -/
def exponentFor (num den : Nat) : Nat :=
  let guess := num.log2 + 1022 - den.log2
  if num * Nat.pow 2 1074 < den * Nat.pow 2 (guess + 52) then guess - 1 else guess

/-- The number nearest to `± num / den`, where `den` is not zero. -/
def nearest (negative : Bool) (num den : Nat) : Binary64 :=
  let e := exponentFor num den
  let significand := roundDiv (num * Nat.pow 2 1074) (den * Nat.pow 2 e)
  ofMagnitudeBits negative (min (e * Nat.pow 2 52 + significand) (2047 * Nat.pow 2 52))

/-- The number nearest to `± digits * 10 ^ exponent`. -/
def ofDecimal (negative : Bool) (digits : Nat) (exponent : Int) : Binary64 :=
  if digits = 0 then ofMagnitudeBits negative 0
  else if 0 ≤ exponent then nearest negative (digits * Nat.pow 10 exponent.toNat) 1
  else nearest negative digits (Nat.pow 10 exponent.natAbs)

end CommandGrammar.Binary64
