import CommandGrammar.Binary64.Rounding
import CommandGrammar.Text.Blank
import CommandGrammar.Text.Numeral

/-!
# Reading decimals

The floating-point number nearest to a decimal text: a sign, digits with an optional point, and
an optional power of ten. Blanks may surround it, single underscores may stand between digits, and
the digits may be of any script.
-/

namespace CommandGrammar.Binary64

/-- A decimal: a sign, the digits around the point, and a power of ten. -/
structure Decimal where
  negative : Bool
  whole : List Char
  fraction : List Char
  exponent : Int

/-- The number nearest to a decimal. A power of ten is cut down to where the number is infinite or
zero in any case. -/
def Decimal.nearest (d : Decimal) : Binary64 :=
  let digits := d.whole ++ d.fraction
  let exponent := d.exponent - d.fraction.length
  ofDecimal d.negative (Text.digitsValue digits) (max (-400 - digits.length) (min 400 exponent))

/-- ASCII digits and what follows them. -/
def takeDigits (cs : List Char) : List Char × List Char :=
  (cs.takeWhile Char.isDigit, cs.dropWhile Char.isDigit)

/-- The power of ten that ends a decimal, none when something else stands there. -/
def readExponent : List Char → Option Int
  | [] => some 0
  | c :: rest =>
    if c == 'e' || c == 'E' then
      let (negative, digits) := Text.splitSign rest
      if digits.isEmpty || !digits.all Char.isDigit then none
      else some (Text.signed negative (Text.digitsValue digits))
    else none

/-- The decimal that the characters spell, after their sign. -/
def readDecimal (negative : Bool) (cs : List Char) : Option Decimal :=
  let (whole, rest) := takeDigits cs
  let (fraction, tail) :=
    match rest with
    | '.' :: rest => takeDigits rest
    | rest => ([], rest)
  if whole.isEmpty && fraction.isEmpty then none
  else (readExponent tail).map (⟨negative, whole, fraction, ·⟩)

/-- A digit of any script as the ASCII digit of its value, any other character as it is. -/
def plainDigit (c : Char) : Char :=
  ((Text.digitValue? c).map fun d => Char.ofNat (48 + d)).getD c

/-- The characters without the underscores, each of which has to stand between digits. Whether a
digit comes before the characters is given. -/
def ungroup? (afterDigit : Bool) : List Char → Option (List Char)
  | [] => some []
  | '_' :: c :: rest =>
    if afterDigit && c.isDigit then (ungroup? true rest).map (c :: ·) else none
  | c :: rest => if c == '_' then none else (ungroup? c.isDigit rest).map (c :: ·)

/-- The number nearest to the decimal that the text spells, or the value that it names. -/
def read? (s : String) : Option Binary64 := do
  let (negative, cs) := Text.splitSign (← ungroup? false ((Text.trimList s.toList).map plainDigit))
  match String.ofList (cs.map Char.toLower) with
  | "nan" => some (notANumber 0)
  | "inf" | "infinity" => some (infinity negative)
  | _ => (readDecimal negative cs).map Decimal.nearest

end CommandGrammar.Binary64
