import CommandGrammar.Text.Ranges

/-!
# Blank characters

The blanks that separate words: the ASCII controls with a separating role, the space, and the
space separators of Unicode. Trimming and the first word of a text are defined by them.
-/

namespace CommandGrammar

/-- The blank characters, as closed ranges of code points. -/
def blankRanges : List (Nat × Nat) :=
  [(0x9, 0xD), (0x1C, 0x20), (0x85, 0x85), (0xA0, 0xA0), (0x1680, 0x1680), (0x2000, 0x200A),
   (0x2028, 0x2029), (0x202F, 0x202F), (0x205F, 0x205F), (0x3000, 0x3000)]

/-- A character that separates words. -/
def isBlank (c : Char) : Bool := Text.inRanges blankRanges c

namespace Text

/-- The characters without the blanks they begin with. -/
def dropBlanks (cs : List Char) : List Char := cs.dropWhile isBlank

/-- The characters without the blanks at either end. -/
def trimList (cs : List Char) : List Char := (dropBlanks (dropBlanks cs).reverse).reverse

/-- The text without the blanks at either end. -/
def trim (s : String) : String := String.ofList (trimList s.toList)

/-- The characters of the first word, of which there are none where there are blanks alone. -/
def firstWordList (cs : List Char) : List Char := (dropBlanks cs).takeWhile (!isBlank ·)

/-- Whether the text holds a blank. -/
def hasBlank (s : String) : Bool := s.toList.any isBlank

end Text

end CommandGrammar
