import CommandGrammar.Binary64.Shortest

/-!
# The text of floating-point numbers

The shortest decimal laid out: positional near one, with a power of ten elsewhere.
-/

namespace CommandGrammar.Binary64

/-- The decisions of a number format. -/
structure Layout where
  /-- The least decimal exponent that is written positionally. -/
  leastPositional : Int
  /-- The greatest decimal exponent that is written positionally. -/
  mostPositional : Int
  /-- The fewest digits of an exponent. -/
  exponentWidth : Nat

/-- From one ten-thousandth to sixteen whole digits a number is positional and always has a
fraction; other numbers have an exponent with a sign and at least two digits. -/
def layout : Layout := ⟨-4, 15, 2⟩

/-- Digits without the zeros they end in. -/
def stripZeros (cs : List Char) : List Char :=
  match (cs.reverse.dropWhile (· == '0')).reverse with
  | [] => ['0']
  | cs => cs

/-- Zeros in front up to a width. -/
def padded (width : Nat) (cs : List Char) : List Char :=
  List.replicate (width - cs.length) '0' ++ cs

/-- A positional decimal whose first digit has the given exponent. -/
def positional (cs : List Char) (exponent : Int) : List Char :=
  if exponent < 0 then '0' :: '.' :: (List.replicate (exponent.natAbs - 1) '0' ++ cs)
  else
    let point := exponent.toNat + 1
    let whole := cs.take point ++ List.replicate (point - cs.length) '0'
    let fraction := cs.drop point
    whole ++ '.' :: (if fraction.isEmpty then ['0'] else fraction)

/-- A decimal with a power of ten. -/
def scientific (l : Layout) (cs : List Char) (exponent : Int) : List Char :=
  let mantissa :=
    match cs with
    | [d] => [d]
    | d :: rest => d :: '.' :: rest
    | [] => []
  mantissa ++ 'e' :: (if exponent < 0 then '-' else '+') ::
    padded l.exponentWidth (Nat.toDigits 10 exponent.natAbs)

/-- A decimal in a layout. -/
def Digits.write (l : Layout) (d : Digits) : List Char :=
  let cs := Nat.toDigits 10 d.digits
  let exponent := d.exponent + cs.length - 1
  let kept := stripZeros cs
  if l.leastPositional ≤ exponent && exponent ≤ l.mostPositional then positional kept exponent
  else scientific l kept exponent

/-- The characters of a floating-point number. -/
def write (x : Binary64) : List Char :=
  if x.isNaN then ['n', 'a', 'n']
  else
    (if x.negative then ['-'] else []) ++
      if x.isInfinite then ['i', 'n', 'f']
      else if x.significand = 0 then ['0', '.', '0']
      else x.shortest.write layout

/-- The text of a floating-point number. -/
def text (x : Binary64) : String := String.ofList x.write

end CommandGrammar.Binary64
