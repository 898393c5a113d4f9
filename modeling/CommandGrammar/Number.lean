import CommandGrammar.Binary64.Layout
import CommandGrammar.Refusal

/-!
# Numbers

Whole numbers of any size and floating-point numbers, compared by their exact values. A whole number
with too many digits is neither read from a text nor written as one.
-/

namespace CommandGrammar

/-- The most digits of a whole number that is read or written. -/
def maxDigits : Nat := 4300

/-- The least number that has more digits. -/
def decimalLimit : Nat := Nat.pow 10 maxDigits

/-- A whole number in decimal digits. -/
def decimal (n : Int) : Except Refusal String :=
  if n.natAbs < decimalLimit then pure (toString n) else throw .numberTooLong

/-- A whole number or a floating-point number. -/
inductive Number
  | int (n : Int)
  | real (x : Binary64)
deriving DecidableEq

namespace Number

/-- The exact value. -/
def value : Number → Real64
  | .int n => .ofInt n
  | .real x => x.value

/-- Strictly less by exact value. -/
def lt (m n : Number) : Bool := m.value.lt n.value

/-- Equal by exact value. -/
def eq (m n : Number) : Bool := m.value.eq n.value

/-- The number as it is printed. -/
def text : Number → Except Refusal String
  | .int n => decimal n
  | .real x => pure x.text

end Number

end CommandGrammar
