import CommandGrammar.Text.Blank
import CommandGrammar.Token.Basic

/-!
# Scanning a line

One pass from left to right cuts a line into tokens. A backslash takes the next character
literally and disappears; a double quote ends the open token and turns quoting on or off; outside
quotes a blank ends the open token; the end of the line ends it as well. Tokens are never empty,
and the place of a quoted token includes its quotes.
-/

namespace CommandGrammar.Token

/-- The token being read: its characters so far, the latest first, and where it began. -/
structure Pending where
  chars : List Char
  start : Nat

/-- The open token, or an empty one that begins here. -/
def openAt (index : Nat) (pending : Option Pending) : Pending := pending.getD ⟨[], index⟩

/-- The open token with one more character. -/
def Pending.push (p : Pending) (c : Char) : Pending := { p with chars := c :: p.chars }

/-- The open token closed at an offset, if it has any character. The place of a quoted token
begins one character earlier, at its opening quote. -/
def Pending.close (p : Pending) (quoted : Bool) (stop : Nat) : List Token :=
  if p.chars.isEmpty then []
  else
    let start : Int := if quoted then (p.start : Int) - 1 else p.start
    [⟨String.ofList p.chars.reverse, start, stop, quoted⟩]

/-- The tokens of the characters from an offset on, given the open token, whether the character
is escaped and whether quoting is on. -/
def scan (index : Nat) (pending : Option Pending) (escaped quoted : Bool) :
    List Char → List Token
  | [] =>
    match pending with
    | none => []
    | some p => p.close quoted index
  | c :: rest =>
    let p := openAt index pending
    if escaped then
      scan (index + 1) (some (p.push c)) false quoted rest
    else if c = '\\' then
      scan (index + 1) (some p) true quoted rest
    else if c = '"' then
      p.close quoted (if quoted then index + 1 else index) ++
        scan (index + 1) none false (!quoted) rest
    else if !quoted && isBlank c then
      p.close false index ++ scan (index + 1) none false false rest
    else
      scan (index + 1) (some (p.push c)) false quoted rest

/-- The tokens of a line from an offset on. -/
def tokenize (source : String) (start : Nat) : List Token :=
  scan start none false false (source.toList.drop start)

/-- A token that is closed is not empty. -/
theorem Pending.text_ne_empty {p : Pending} {quoted : Bool} {stop : Nat} {t : Token}
    (h : t ∈ p.close quoted stop) : t.text ≠ "" := by
  unfold Pending.close at h
  split at h
  · simp at h
  · rename_i hp
    simp only [List.mem_singleton] at h
    subst h
    intro he
    have := congrArg String.toList he
    simp_all

/-- Scanned tokens are never empty. -/
theorem text_ne_empty_of_mem_scan {index : Nat} {pending : Option Pending} {escaped quoted : Bool}
    {cs : List Char} {t : Token} (h : t ∈ scan index pending escaped quoted cs) : t.text ≠ "" := by
  induction cs generalizing index pending escaped quoted with
  | nil =>
    cases pending with
    | none => simp [scan] at h
    | some p => exact Pending.text_ne_empty h
  | cons c rest ih =>
    simp only [scan] at h
    split at h
    · exact ih h
    · split at h
      · exact ih h
      · split at h
        · rcases List.mem_append.1 h with h | h
          · exact Pending.text_ne_empty h
          · exact ih h
        · split at h
          · rcases List.mem_append.1 h with h | h
            · exact Pending.text_ne_empty h
            · exact ih h
          · exact ih h

/-- The tokens of a line are never empty. -/
theorem text_ne_empty {source : String} {start : Nat} {t : Token}
    (h : t ∈ tokenize source start) : t.text ≠ "" :=
  text_ne_empty_of_mem_scan h

/-- The offsets of the characters that are kept from an offset on, which are all but the escaping
backslashes. -/
def keptOffsets (index : Nat) (escaped : Bool) : List Char → List Int
  | [] => []
  | c :: rest =>
    if c = '\\' && !escaped then keptOffsets (index + 1) true rest
    else (index : Int) :: keptOffsets (index + 1) false rest

/-- The characters of the line at the token's place. -/
def excerpt (source : String) (t : Token) : List Char :=
  (source.toList.drop t.start.toNat).take (t.stop - t.start).toNat

/-- Where each character of an unquoted token's text stands in the line, and where the token
stops. -/
def positions (source : String) (t : Token) : List Int :=
  keptOffsets t.start.toNat false (t.excerpt source) ++ [t.stop]

end CommandGrammar.Token
