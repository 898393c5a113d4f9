import CommandGrammar.Proofs.Token.Encoding
import CommandGrammar.Proofs.Token.Letters
import CommandGrammar.Proofs.Token.Shift

/-!
# Lines side by side

A line that leaves nothing open may have another one behind it, with a blank between them: scanning
gives the tokens of the one and those of the other, which stand as far behind as the first line and
the blank are long (`tokenize_compositional`). What stands in front of an offset never counts for
the tokens from there on.
-/

namespace CommandGrammar.Token

namespace Letter

/-- Whether what stands behind the letter is quoted. -/
def quotedBehind (l : Letter) : Bool := l.quotesBehind % 2 = 1

theorem quotedBehind_of_quote {l : Letter} (quote : l.isQuote = true) :
    l.quotedBehind = !l.quoted := by
  have behind : l.quotesBehind = l.quotes + 1 := if_pos quote
  by_cases odd : l.quotes % 2 = 1
  · have even : ¬ (l.quotes + 1) % 2 = 1 := by omega
    simp [quotedBehind, quoted, behind, odd, even]
  · have even : (l.quotes + 1) % 2 = 1 := by omega
    simp [quotedBehind, quoted, behind, odd, even]

theorem quotedBehind_of_plain {l : Letter} (plain : l.isQuote = false) :
    l.quotedBehind = l.quoted := by
  simp [quotedBehind, quoted, quotesBehind_eq plain]

end Letter

/-- The scan of the line ends outside of quotes, and not right behind a backslash that escapes. -/
structure EndsPlain (line : String) : Prop where
  unescaped : ∀ l ∈ (letters line 0).getLast?, l.escapes = false
  unquoted : (letters line 0).countP Letter.isQuote % 2 = 0

/-- A letter closes some tokens, at most one, and leaves another one open. What stands behind it is
scanned from there on, whatever it is. -/
theorem scan_past (l : Letter) (pending : Option Pending) :
    ∃ closed opened, ∀ rest, scan l.offset pending l.escaped l.quoted (l.char :: rest) =
      closed ++ scan (l.offset + 1) opened l.escapes l.quotedBehind rest := by
  have odd : l.quoted = true ↔ l.quotes % 2 = 1 := decide_eq_true_iff
  simp only [scan_letter odd]
  by_cases escapes : l.escapes = true
  · rw [Letter.quotedBehind_of_plain (Letter.isQuote_eq_false escapes)]
    exact ⟨[], some (openAt l.offset pending), fun rest => by simp [escapes]⟩
  by_cases quote : l.isQuote = true
  · rw [Letter.quotedBehind_of_quote quote]
    exact ⟨_, none, fun rest => by simp only [escapes, quote, if_true]; rfl⟩
  rw [Letter.quotedBehind_of_plain (eq_false_of_ne_true quote)]
  by_cases separates : l.separates = true
  · have plain : l.quoted = false :=
      eq_false_of_ne_true fun on => Letter.even_of_separates separates (odd.1 on)
    exact ⟨_, none, fun rest => by simp only [escapes, quote, separates, plain, if_true]; rfl⟩
  · exact ⟨[], some ((openAt l.offset pending).push l.char), fun rest => by
      simp [escapes, quote, separates]⟩

/-- Whether what stands behind letters is escaped: by the last of them, if there is any. -/
def escapedBy (escaped : Bool) (ls : List Letter) : Bool :=
  (ls.getLast?.map Letter.escapes).getD escaped

theorem escapedBy_cons (escaped : Bool) (l : Letter) (ls : List Letter) :
    escapedBy escaped (l :: ls) = escapedBy l.escapes ls := by
  rw [escapedBy, escapedBy, List.getLast?_cons]
  cases ls.getLast? <;> rfl

/-- The quotes in front of what stands behind letters, given those in front of the letters. -/
def quotesBy (quotes : Nat) (ls : List Letter) : Nat := quotes + ls.countP Letter.isQuote

theorem quotesBy_cons (l : Letter) (ls : List Letter) :
    quotesBy l.quotes (l :: ls) = quotesBy l.quotesBehind ls := by
  rw [quotesBy, quotesBy, List.countP_cons, Letter.quotesBehind]
  split <;> omega

/-- Behind some characters, the scanner goes on with what it has left open and with the escape and
the quotes that the characters leave. -/
theorem scan_append (cs : List Char) (index quotes : Nat) (pending : Option Pending)
    (escaped : Bool) :
    let ls := lettersFrom index escaped quotes cs
    ∃ closed opened, ∀ rest, scan index pending escaped (decide (quotes % 2 = 1)) (cs ++ rest) =
      closed ++ scan (index + cs.length) opened (escapedBy escaped ls)
        (decide (quotesBy quotes ls % 2 = 1)) rest := by
  induction cs generalizing index quotes pending escaped with
  | nil => exact ⟨[], pending, fun rest => rfl⟩
  | cons c cs ih =>
    obtain ⟨l, rfl, rfl, rfl, rfl⟩ : ∃ l : Letter,
        l.char = c ∧ l.offset = index ∧ l.escaped = escaped ∧ l.quotes = quotes :=
      ⟨⟨c, index, escaped, quotes⟩, rfl, rfl, rfl, rfl⟩
    obtain ⟨closed, opened, past⟩ := scan_past l pending
    obtain ⟨later, left, onward⟩ := ih (l.offset + 1) l.quotesBehind opened l.escapes
    have letters : lettersFrom l.offset l.escaped l.quotes (l.char :: cs) =
        l :: lettersFrom (l.offset + 1) l.escapes l.quotesBehind cs := rfl
    have length : l.offset + (l.char :: cs).length = l.offset + 1 + cs.length := by
      rw [List.length_cons]
      omega
    intro ls
    refine ⟨closed ++ later, left, ?_⟩
    intro rest
    rw [show ls = _ from letters, length, escapedBy_cons, quotesBy_cons, List.append_assoc,
      ← onward rest]
    exact past (cs ++ rest)

/-- Outside of quotes, a blank does to the open token what the end of the line does. -/
theorem scan_separated {w : Char} (blank : isBlank w = true) (index : Nat)
    (pending : Option Pending) (rest : List Char) :
    scan index pending false false (w :: rest) =
      scan index pending false false [] ++ scan (index + 1) none false false rest := by
  cases pending with
  | none => exact scan_blanks (List.forall_mem_singleton.2 blank) index rest
  | some p => exact scan_blank blank index p rest

/-- A line that leaves nothing open has its tokens in front of a blank and of whatever stands
behind it. -/
theorem tokenize_joined {a : String} (plain : EndsPlain a) {w : Char} (blank : isBlank w = true)
    (b : String) :
    tokenize (a ++ w.toString ++ b) 0 =
      tokenize a 0 ++ (tokenize b 0).map (shift (a.length + 1 : Nat)) := by
  obtain ⟨closed, opened, onward⟩ := scan_append a.toList 0 0 none false
  have unescaped : escapedBy false (letters a 0) = false := by
    unfold escapedBy
    cases last : (letters a 0).getLast? with
    | none => rfl
    | some l => exact plain.unescaped l last
  have unquoted : decide (quotesBy 0 (letters a 0) % 2 = 1) = false := by
    have even := plain.unquoted
    rw [decide_eq_false_iff_not, quotesBy]
    omega
  have scanned : ∀ rest, scan 0 none false false (a.toList ++ rest) =
      closed ++ scan a.length opened false false rest := by
    intro rest
    have behind := onward rest
    rw [show lettersFrom 0 false 0 a.toList = letters a 0 from rfl, unescaped, unquoted,
      String.length_toList, Nat.zero_add] at behind
    exact behind
  have alone : tokenize a 0 = closed ++ scan a.length opened false false [] := by
    rw [← scanned, List.append_nil]
    rfl
  have moved : scan (a.length + 1) none false false b.toList =
      (tokenize b 0).map (shift (a.length + 1 : Nat)) := by
    have shifted := scan_shift (a.length + 1) 0 none false false b.toList
    rw [Nat.zero_add] at shifted
    exact shifted
  have chars : (a ++ w.toString ++ b).toList = a.toList ++ w :: b.toList := by
    have single : w.toString.toList = [w] := String.toList_singleton w
    rw [String.toList_append, String.toList_append, List.append_assoc, single,
      List.singleton_append]
  rw [tokenize, chars, List.drop_zero, scanned, scan_separated blank, moved, ← List.append_assoc,
    ← alone]

/-- Two lines with a blank between them have the tokens of the first one and then those of the
second one, moved to where it stands, if the first line leaves nothing open. And from the end of a
prefix on, a line has the tokens of what stands behind the prefix, moved by its length, whatever
the prefix holds. -/
theorem tokenize_compositional :
    (∀ (a b : String) (w : Char), EndsPlain a → isBlank w = true →
      tokenize (a ++ w.toString ++ b) 0 =
        tokenize a 0 ++ (tokenize b 0).map (shift (a.length + 1 : Nat))) ∧
    ∀ before line : String, tokenize (before ++ line) before.length =
      (tokenize line 0).map (shift before.length) :=
  ⟨fun _ b _ plain blank => tokenize_joined plain blank b, tokenize_append⟩

/-- The escaped blank and the quotes belong to the first line, and the quote that is never closed to
the second one. -/
theorem tokenize_compositional_say :
    EndsPlain "say \\ \"x\"" ∧ isBlank '\t' = true ∧
      tokenize ("say \\ \"x\"" ++ '\t'.toString ++ "\"b\\") 0 =
        [⟨"say", 0, 3, false⟩, ⟨" ", 4, 6, false⟩, ⟨"x", 6, 9, true⟩, ⟨"b", 10, 13, true⟩] := by
  have plain : EndsPlain "say \\ \"x\"" := ⟨by decide +kernel, by decide +kernel⟩
  exact ⟨plain, rfl, (tokenize_compositional.1 _ "\"b\\" _ plain rfl).trans (by decide +kernel)⟩

end CommandGrammar.Token
