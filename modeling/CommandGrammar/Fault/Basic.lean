import CommandGrammar.Fault.Crash
import CommandGrammar.Fault.Kind
import CommandGrammar.Value.Display
import CommandGrammar.Value.Fields

/-!
# Faults

What is wrong with a command line: a message, the token at fault with offsets into it, the line
once it is known, and perhaps a hint. A fault with a token and a line can be shown as an excerpt
of the line in which the place is marked. A host may put anything in the place of the token, the
line and the hint; what has no place in a text then cannot be told.
-/

namespace CommandGrammar

/-- The attributes of a fault. -/
structure Fault.Attributes where
  message : String
  /-- The token at fault, or null. A fault without one has no place in the line. -/
  token : Value
  /-- How far after the token's start the place begins. -/
  start : Int
  /-- How far before the token's end the place ends. -/
  stop : Int
  /-- The line, or null until the fault is annotated with it. -/
  command : Value
  /-- The hint, or null. -/
  hint : Value
  /-- Attributes that the host adds to the fault. -/
  details : Fields

/-- What a kind makes of the values that it is called with. -/
structure Fault.Made where
  /-- The values that the fault has. -/
  args : List Value
  /-- What the fault has beside its attributes. -/
  members : Fields

/-- A fault of a command line. -/
structure Fault extends Fault.Attributes, Fault.Made where
  kind : FaultKind
  /-- The crash that led to the fault. -/
  cause : Option Crash

namespace Fault

/-- A fault at a token, or at some part of it. -/
def ofToken (kind : FaultKind) (message : String) (token : Token) (start stop : Int) : Fault :=
  { kind, message, token := .token token, start, stop, command := .null, hint := .null,
    details := [], args := [.str message], members := [], cause := none }

/-- A fault without a place. -/
def general (kind : FaultKind) (message : String) : Fault :=
  { kind, message, token := .null, start := 0, stop := 0, command := .null, hint := .null,
    details := [], args := [.str message], members := [], cause := none }

/-- The code of a fault: its own, which is a plain value, or that of its kind. -/
def code (f : Fault) : PinnedCode :=
  match f.details.lookup "code" with
  | some v => .nameless v.kindName
  | none => f.kind.code

/-- The name of a fault's code, if it bears one. -/
def codeName (f : Fault) : Except Refusal Value :=
  match f.details.lookup "code" >>= Value.name?, f.code with
  | some name, _ => pure name
  | none, .listed code => pure (.str code.name)
  | none, .named _ name => pure (.str name)
  | none, .nameless kindName => throw (.attributeMissing kindName "name")

/-- The title of a fault: its own, or that of its kind. -/
def title (f : Fault) : Value := (f.details.lookup "title").getD (.str f.kind.title)

/-- The fault with an attribute of the host. -/
def withDetail (f : Fault) (name : String) (v : Value) : Fault :=
  { f with details := (name, v) :: f.details.filter (·.1 != name) }

/-- Whether the fault has a token, of whatever kind. -/
def located (f : Fault) : Bool := !(f.token matches .null)

/-- Whether the fault has a line, of whatever kind. -/
def annotated (f : Fault) : Bool := !(f.command matches .null)

/-- The place of the fault in the line. -/
def span (f : Fault) : Option (Int × Int) :=
  match f.token with
  | .token t => some (t.start + f.start, t.stop - f.stop)
  | _ => none

/-- The column of the place, counted from one. -/
def column (f : Fault) : Option Int := f.span.map (·.1 + 1)

/-- What stands in the place of the token has to be one. -/
def checkToken (f : Fault) : Except Refusal Unit :=
  match f.token with
  | .null => pure ()
  | .token _ => pure ()
  | v => throw (.attributeMissing v.kindName "start")

/-- A place cut down to a line of the given length. -/
def clamp (length : Nat) (span : Int × Int) : Nat × Nat :=
  let left := min span.1.toNat length
  (left, min (max left span.2.toNat) length)

/-- A place that is cut down to a line lies in the line. -/
theorem clamp_le (length : Nat) (span : Int × Int) :
    (clamp length span).1 ≤ (clamp length span).2 ∧ (clamp length span).2 ≤ length := by
  simp only [clamp]
  omega

/-- A place in the line is not cut down. -/
theorem clamp_of_le {length a b : Nat} (h : a ≤ b) (h' : b ≤ length) :
    clamp length (a, b) = (a, b) := by
  simp only [clamp, Prod.mk.injEq]
  omega

/-- A line cut into the context before a place, the place itself and the context after it. -/
structure Excerpt where
  left : List Char
  middle : List Char
  right : List Char

/-- The excerpt of a line around a place, with at most so many characters on each side. -/
def Excerpt.around (line : List Char) (left right width : Nat) : Excerpt where
  left := (line.take left).drop (left - width)
  middle := (line.take right).drop left
  right := (line.drop right).take width

/-- The excerpt with the place in marks. -/
def Excerpt.write (e : Excerpt) : List Char :=
  e.left ++ ['>', '>'] ++ e.middle ++ ['<', '<'] ++ e.right

namespace Excerpt

/-- There are at most so many characters before the place. -/
theorem length_left_around_le (line : List Char) (left right width : Nat) :
    (around line left right width).left.length ≤ width := by
  simp only [around, List.length_drop, List.length_take]
  omega

/-- There are at most so many characters after the place. -/
theorem length_right_around_le (line : List Char) (left right width : Nat) :
    (around line left right width).right.length ≤ width := by
  simp only [around, List.length_take]
  omega

/-- The parts of an excerpt stand in the line one after the other. -/
theorem around_append (line : List Char) {left right : Nat} (width : Nat) (h : left ≤ right) :
    (around line left right width).left ++ (around line left right width).middle ++
      (around line left right width).right =
    (line.drop (left - width)).take (right + width - (left - width)) := by
  generalize hm : left - width = m
  have hleft : line.drop left = (line.drop m).drop (left - m) := by
    rw [List.drop_drop]
    congr 1
    omega
  have hright : line.drop right = (line.drop m).drop (left - m + (right - left)) := by
    rw [List.drop_drop]
    congr 1
    omega
  have hlength : right + width - m = left - m + (right - left) + width := by omega
  simp only [around, List.drop_take, hm, hleft, hright, hlength, List.take_add]

end Excerpt

/-- Why no excerpt can be cut from a line that is no text, given why such a line in a row of items
cannot be joined. -/
def lineRefusal (line : Value) (joined : String → Refusal) : Refusal :=
  match line with
  | .dict _ => .lineUncut
  | .list _ => joined "list"
  | v => if v.items?.isSome then joined "tuple" else .lineWithoutLength v.kindName

/-- The excerpt of the fault's line, if it has a token and a line. -/
def excerpt (f : Fault) (joined : String → Refusal) (width : Nat) :
    Except Refusal (Option Excerpt) :=
  match f.token, f.command with
  | .null, _ => pure none
  | _, .null => pure none
  | .token t, .str command =>
    let line := command.toList
    let (left, right) := clamp line.length (t.start + f.start, t.stop - f.stop)
    pure (some (.around line left right width))
  | .token _, line => throw (lineRefusal line joined)
  | v, _ => throw (.attributeMissing v.kindName "start")

/-- The marked excerpt of the fault's line, or the message where there is none. -/
def render (f : Fault) (width : Nat) : Except Refusal String := do
  match ← f.excerpt .lineNotText width with
  | some e => return String.ofList e.write
  | none => return f.message

/-- How much context is shown on each side of a place. -/
def contextWidth : Nat := 10

/-- The fault as a report: the message, and below it the column and the excerpt. -/
def text (f : Fault) : Except Refusal String := do
  match ← f.excerpt .lineNotText contextWidth, f.column with
  | some e, some column =>
    return f.message ++ "\n    at column " ++ (← decimal column) ++ "\n    " ++
      String.ofList e.write
  | _, _ => return f.message

end Fault

namespace FaultCode

/-- The label of a code: the last one that the host gives to its number, or the number. -/
def label (code : FaultCode) (labels : List (Int × Value)) : Except Refusal String :=
  match labels.reverse.lookup (code.number : Int) with
  | some v => v.plainText
  | none => pure (toString code.number)

end FaultCode

end CommandGrammar
