/-!
# Binary64 numbers

A floating-point number by its 64 bits. What a number stands for is a `Real64`: a fraction whose
denominator is a power of two, one of the infinities, or no number at all. Order and equality
are those of the exact values, so they agree with the whole numbers they meet.
-/

namespace CommandGrammar

/-- A binary64 floating-point number by its bits. -/
structure Binary64 where
  bits : UInt64
deriving DecidableEq, Inhabited

/-- What a floating-point or whole number stands for. -/
inductive Real64
  | nan
  | infinite (negative : Bool)
  /-- The fraction `numerator / 2 ^ scale`. -/
  | finite (numerator : Int) (scale : Nat)

namespace Real64

/-- A whole number. -/
def ofInt (n : Int) : Real64 := .finite n 0

/-- Strictly less. Nothing is less than a value that is no number, nor greater. -/
def lt : Real64 → Real64 → Bool
  | .nan, _ => false
  | _, .nan => false
  | .infinite a, .infinite b => a && !b
  | .infinite a, .finite _ _ => a
  | .finite _ _, .infinite b => !b
  | .finite m j, .finite n k => m * Nat.pow 2 k < n * Nat.pow 2 j

/-- The same value. A value that is no number equals nothing, itself included. -/
def eq : Real64 → Real64 → Bool
  | .nan, _ => false
  | _, .nan => false
  | .infinite a, .infinite b => a == b
  | .infinite _, .finite _ _ => false
  | .finite _ _, .infinite _ => false
  | .finite m j, .finite n k => m * Nat.pow 2 k == n * Nat.pow 2 j

end Real64

namespace Binary64

/-- Whether the sign bit is set. -/
def negative (x : Binary64) : Bool := Nat.pow 2 63 ≤ x.bits.toNat

/-- The eleven bits of the exponent. -/
def exponentBits (x : Binary64) : Nat := x.bits.toNat / Nat.pow 2 52 % Nat.pow 2 11

/-- The low 52 bits. -/
def fractionBits (x : Binary64) : Nat := x.bits.toNat % Nat.pow 2 52

/-- Whether the bits stand for no number. -/
def isNaN (x : Binary64) : Bool := x.exponentBits == 2047 && x.fractionBits != 0

/-- Whether the bits stand for an infinity. -/
def isInfinite (x : Binary64) : Bool := x.exponentBits == 2047 && x.fractionBits == 0

/-- The magnitude of a finite number is `significand * 2 ^ (exponent - 1074)`. -/
def significand (x : Binary64) : Nat :=
  if x.exponentBits = 0 then x.fractionBits else Nat.pow 2 52 + x.fractionBits

/-- The power of two that scales the significand, counted from the least one. -/
def exponent (x : Binary64) : Nat := x.exponentBits - 1

/-- The exact value. -/
def value (x : Binary64) : Real64 :=
  if x.isNaN then .nan
  else if x.isInfinite then .infinite x.negative
  else
    let magnitude := x.significand * Nat.pow 2 x.exponent
    .finite (if x.negative then -magnitude else magnitude) 1074

/-- The number with the given sign and magnitude bits. -/
def ofMagnitudeBits (negative : Bool) (magnitude : Nat) : Binary64 :=
  ⟨UInt64.ofNat (magnitude + if negative then Nat.pow 2 63 else 0)⟩

/-- The infinity of the given sign. -/
def infinity (negative : Bool) : Binary64 := ofMagnitudeBits negative (2047 * Nat.pow 2 52)

/-- No number, told apart from others of its kind by a tag. -/
def notANumber (tag : Nat) : Binary64 :=
  ofMagnitudeBits false (2047 * Nat.pow 2 52 + Nat.pow 2 51 + tag % Nat.pow 2 51)

/-- The whole part of a finite number, toward zero. -/
def truncate? (x : Binary64) : Option Int :=
  match x.value with
  | .finite n k => some (n.tdiv (Nat.pow 2 k))
  | _ => none

end Binary64

end CommandGrammar
