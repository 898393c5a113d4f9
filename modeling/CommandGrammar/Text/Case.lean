import CommandGrammar.Text.CaseTable
import CommandGrammar.Text.CasedTable
import CommandGrammar.Text.Ranges

/-!
# Letter case

Lower and upper case of whole texts, by the case mappings of Unicode, and the two shapes that
names and headings are given: hyphenated lower case and capitalized words.
-/

namespace CommandGrammar.Text

/-- The code point that a run maps `n` to, if it is one of the run's. -/
def CaseRun.map? (run : CaseRun) (n : Nat) : Option Nat :=
  if run.first ≤ n ∧ n ≤ run.last ∧ (n - run.first) % run.stride = 0 then
    some (n + run.shift).toNat
  else
    none

/-- The case mapping of one character, itself when it has none. -/
def mapCase (runs : List CaseRun) (sequences : List (Nat × List Nat)) (c : Char) : List Char :=
  match sequences.lookup c.toNat with
  | some ns => ns.map Char.ofNat
  | none =>
    match runs.findSome? (·.map? c.toNat) with
    | some n => [Char.ofNat n]
    | none => [c]

/-- The upper case of a character. -/
def upperChar (c : Char) : List Char := mapCase upperRuns upperSequences c

/-- The lower case of a character, wherever it stands. -/
def lowerChar (c : Char) : List Char := mapCase lowerRuns lowerSequences c

/-- A character that has a case. -/
def isCased (c : Char) : Bool := inRanges casedRanges c

/-- A character that is passed over when the case of its neighbour is asked for. -/
def isCaseIgnorable (c : Char) : Bool := inRanges caseIgnorableRanges c

/-- Whether the first of the characters that is not passed over has a case. -/
def meetsCased (cs : List Char) : Bool := (cs.find? (!isCaseIgnorable ·)).any isCased

/-- Whether a position ends a word: a letter with a case comes before it, and none after it. The
characters before it are given from the nearest on. -/
def endsWord (before after : List Char) : Bool := meetsCased before && !meetsCased after

/-- The lower case of characters, given those before them from the nearest on. A capital sigma
that ends a word has a form of its own. -/
def lowerList (before : List Char) : List Char → List Char
  | [] => []
  | c :: rest =>
    (if c == 'Σ' && endsWord before rest then ['ς'] else lowerChar c) ++
      lowerList (c :: before) rest

/-- The text in lower case. -/
def lower (s : String) : String := String.ofList (lowerList [] s.toList)

/-- The text in upper case. -/
def upper (s : String) : String := String.ofList (s.toList.flatMap upperChar)

/-- A hyphen before each ASCII capital but the first character. -/
def hyphenated : List Char → List Char
  | [] => []
  | c :: rest => c :: rest.flatMap fun d => if d.isUpper then ['-', d] else [d]

/-- The name in lower case with a hyphen between its words, for a name whose words begin with
capitals. -/
def hyphenatedName (s : String) : String := lower (String.ofList (hyphenated s.toList))

/-- ASCII words with a capital at the start of each, where anything but a letter ends a word. -/
def capitalizedList (inWord : Bool) : List Char → List Char
  | [] => []
  | c :: rest => (if inWord then c.toLower else c.toUpper) :: capitalizedList c.isAlpha rest

/-- The ASCII text with a capital at the start of each word. -/
def capitalized (s : String) : String := String.ofList (capitalizedList false s.toList)

end CommandGrammar.Text
