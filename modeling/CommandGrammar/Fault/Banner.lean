import CommandGrammar.Fault.Given
import CommandGrammar.Text.Case

/-!
# Banners

A fault as styled lines: a header with its code and title, the message, the excerpt with the
place set off, and the hint.
-/

namespace CommandGrammar

/-- A line of text with styles on parts of it. -/
structure StyledLine where
  chars : List Char
  style : String
  spans : List (Nat × Nat × String)

namespace StyledLine

/-- A control character that a line cannot hold. -/
def isDropped (c : Char) : Bool := [7, 8, 11, 12, 13].contains c.toNat

/-- A text without the characters that a line cannot hold. -/
def clean (s : String) : List Char := s.toList.filter (!isDropped ·)

/-- Characters with each tab filled up with spaces to the next column that is a multiple of eight,
given the column of the first one. Every other character takes one column. -/
def fillTabs (column : Nat) : List Char → List Char
  | [] => []
  | c :: rest =>
    if c = '\n' then c :: fillTabs 0 rest
    else if c = '\t' then
      let width := 8 - column % 8
      List.replicate width ' ' ++ fillTabs (column + width) rest
    else c :: fillTabs (column + 1) rest

/-- A text as it is printed on a line of its own. -/
def printed (s : String) : String := String.ofList (fillTabs 0 (clean s) ++ ['\n'])

/-- A line of one text in one style. -/
def plain (s style : String) : StyledLine := ⟨clean s, style, []⟩

/-- The line with one more part. Only a part with a style and a text is a span. -/
def append (l : StyledLine) (s style : String) : StyledLine :=
  let chars := clean s
  let spans :=
    if s.isEmpty || style.isEmpty then l.spans
    else l.spans ++ [(l.chars.length, l.chars.length + chars.length, style)]
  { l with chars := l.chars ++ chars, spans }

/-- A line of parts, each a text and its style. -/
def ofParts (parts : List (String × String)) : StyledLine :=
  parts.foldl (fun l (s, style) => l.append s style) ⟨[], "", []⟩

/-- The text of a line. -/
def text (l : StyledLine) : String := String.ofList l.chars

end StyledLine

namespace Fault

/-- The styles of the parts of a banner. -/
def defaultStyles : List (String × String) :=
  [("code", "bold #00E5FF"), ("error-title", "bold #FF4DA6"), ("error-message", "#C8C8D0"),
   ("context", "dim"), ("offender", "bold reverse #FF4DA6"), ("hint-arrow", "#9CE19C dim"),
   ("hint", "italic #9CE19C")]

/-- The style of a part: the host's, or the default. -/
def styleOf (styles : List (String × String)) (part : String) : String :=
  (styles ++ defaultStyles).lookup part |>.getD ""

/-- The styled lines of a fault, under the labels and styles of the host. The title has to be a
text, and so has a hint that counts as true. -/
def banner (f : Fault) (labels : List (Int × Value)) (styles : List (String × String)) :
    Except Refusal (List StyledLine) := do
  let style := styleOf styles
  let label ← f.label labels
  let .str title := f.title | throw (.attributeMissing f.title.kindName "title")
  let header := StyledLine.ofParts
    [("[ ", ""), (label, style "code"), (" | ", ""),
     (Text.capitalized title, style "error-title"), (" ]", "")]
  let message := StyledLine.plain f.message (style "error-message")
  let excerpt :=
    match ← f.excerpt (fun _ => .partNotText) contextWidth with
    | none => []
    | some e =>
      let middle := if e.middle.isEmpty then " " else String.ofList e.middle
      [StyledLine.ofParts
        [("    ", ""), (String.ofList e.left, style "context"), (middle, style "offender"),
         (String.ofList e.right, style "context")]]
  let hint ←
    match f.hint with
    | .str hint =>
      if hint.isEmpty then pure []
      else pure [StyledLine.ofParts [(" → ", style "hint-arrow"), (hint, style "hint")]]
    | v => if v.truthy then throw .partNotText else pure []
  return [header, message] ++ excerpt ++ hint

end Fault

end CommandGrammar
