import CommandGrammar.Text.Numeral

/-!
# Written numbers

A number is written with an optional sign, whole digits without leading zeros, and perhaps a
fraction. Only ASCII digits count, and nothing may precede or follow.
-/

namespace CommandGrammar

/-- A written number. -/
structure Numeral where
  negative : Bool
  whole : List Char
  /-- The digits after the point, at least one where there is a point. -/
  fraction : Option (List Char)
deriving DecidableEq

namespace Numeral

/-- Digits without a leading zero, or a zero alone. -/
def isWhole : List Char → Bool
  | [] => false
  | '0' :: rest => rest.isEmpty
  | cs => cs.all Char.isDigit

/-- Digits, at least one. -/
def isFraction (cs : List Char) : Bool := !cs.isEmpty && cs.all Char.isDigit

/-- The number that characters write. -/
def read? (cs : List Char) : Option Numeral :=
  let (negative, digits) := Text.splitSign cs
  let whole := digits.takeWhile (· != '.')
  let rest := digits.dropWhile (· != '.')
  if isWhole whole then
    match rest with
    | [] => some ⟨negative, whole, none⟩
    | _ :: fraction =>
      if isFraction fraction then some ⟨negative, whole, some fraction⟩ else none
  else none

/-- The whole number that characters write. -/
def readWhole? (cs : List Char) : Option Numeral := (read? cs).filter (·.fraction.isNone)

/-- The whole number of the digits before the point. -/
def toInt (n : Numeral) : Int := Text.signed n.negative (Text.digitsValue n.whole)

end Numeral

end CommandGrammar
