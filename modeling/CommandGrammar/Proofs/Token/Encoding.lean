import CommandGrammar.Token.Scan
import Mathlib.Data.List.Forall2

/-!
# Encoded lines

A text that is not empty can be written into a line with or without quotes: backslashes stand
before the characters that would not stand for themselves, and may stand before any other one.
Scanning undoes this. From encodings with blanks between them it gives back the texts, each at the
place of its encoding (`tokenize_encoded`).
-/

namespace CommandGrammar.Token

/-- Whether a character has to be escaped: backslashes and quotes do everywhere, blanks outside
quotes. -/
def isSpecial (quoted : Bool) (c : Char) : Bool := c = '\\' || c = '"' || (!quoted && isBlank c)

/-- The characters of a text with backslashes before some of them, the special ones included. -/
inductive Escaped (quoted : Bool) : List Char → List Char → Prop
  | nil : Escaped quoted [] []
  | bare {c : Char} {text chars : List Char} (plain : isSpecial quoted c = false)
      (later : Escaped quoted text chars) : Escaped quoted (c :: text) (c :: chars)
  | escape {c : Char} {text chars : List Char} (later : Escaped quoted text chars) :
      Escaped quoted (c :: text) ('\\' :: c :: chars)

/-- A text that is not empty, and how it is written. -/
structure Encoding where
  text : String
  quoted : Bool
  /-- The text with its escapes, without the quotes. -/
  chars : List Char
  nonempty : text ≠ ""
  escaped : Escaped quoted text.toList chars

/-- The characters of an encoding as they stand in a line. -/
def Encoding.written (e : Encoding) : List Char :=
  if e.quoted then '"' :: (e.chars ++ ['"']) else e.chars

/-- The token of an encoding that begins at an offset. -/
def Encoding.token (e : Encoding) (index : Nat) : Token :=
  ⟨e.text, index, (index + e.written.length : Nat), e.quoted⟩

/-- The characters of encodings, each with what stands behind it. -/
def laid : List (Encoding × List Char) → List Char
  | [] => []
  | (e, gap) :: rest => e.written ++ (gap ++ laid rest)

/-- The tokens of encodings that are laid from an offset on. -/
def laidTokens (index : Nat) : List (Encoding × List Char) → List Token
  | [] => []
  | (e, gap) :: rest =>
    e.token index :: laidTokens (index + e.written.length + gap.length) rest

/-! ## Scanning what was encoded -/

theorem isSpecial_eq_false {quoted : Bool} {c : Char} (plain : isSpecial quoted c = false) :
    c ≠ '\\' ∧ c ≠ '"' ∧ (!quoted && isBlank c) = false := by
  simp only [isSpecial, Bool.or_eq_false_iff, decide_eq_false_iff_not] at plain
  exact ⟨plain.1.1, plain.1.2, plain.2⟩

theorem isBlank_ne {c : Char} (blank : isBlank c = true) : c ≠ '\\' ∧ c ≠ '"' := by
  constructor
  · intro h
    rw [h] at blank
    exact absurd blank (by decide)
  · intro h
    rw [h] at blank
    exact absurd blank (by decide)

/-- With an open token, the scanner adds the text of what is escaped to it. -/
theorem scan_escaped {quoted : Bool} {text chars : List Char} (escaped : Escaped quoted text chars)
    (index : Nat) (p : Pending) (rest : List Char) :
    scan index (some p) false quoted (chars ++ rest) =
      scan (index + chars.length) (some ⟨text.reverse ++ p.chars, p.start⟩) false quoted rest := by
  induction escaped generalizing index p with
  | nil => rfl
  | @bare c text chars plain _ ih =>
    obtain ⟨hbackslash, hquote, hblank⟩ := isSpecial_eq_false plain
    rw [List.cons_append, scan]
    simp only [Bool.false_eq_true, if_false, hbackslash, hquote, hblank, openAt, Option.getD_some]
    have hlength : index + 1 + chars.length = index + (c :: chars).length := by
      simp only [List.length_cons]
      omega
    rw [ih, hlength]
    simp [Pending.push]
  | @escape c text chars _ ih =>
    rw [List.cons_append, List.cons_append, scan]
    simp only [Bool.false_eq_true, if_false, if_true, openAt, Option.getD_some]
    rw [scan]
    simp only [if_true, openAt, Option.getD_some]
    have hlength : index + 1 + 1 + chars.length = index + ('\\' :: c :: chars).length := by
      simp only [List.length_cons]
      omega
    rw [ih, hlength]
    simp [Pending.push]

theorem Escaped.ne_nil {quoted : Bool} {text chars : List Char}
    (escaped : Escaped quoted text chars) (nonempty : text ≠ []) : chars ≠ [] := by
  cases escaped with
  | nil => exact absurd rfl nonempty
  | bare _ _ => exact List.cons_ne_nil _ _
  | escape _ => exact List.cons_ne_nil _ _

/-- A text opens a token where it begins. -/
theorem scan_opened {quoted : Bool} {text chars : List Char} (escaped : Escaped quoted text chars)
    (nonempty : text ≠ []) (index : Nat) (rest : List Char) :
    scan index none false quoted (chars ++ rest) =
      scan (index + chars.length) (some ⟨text.reverse, index⟩) false quoted rest := by
  obtain ⟨c, others, hchars⟩ := List.exists_cons_of_ne_nil (escaped.ne_nil nonempty)
  have opened : scan index none false quoted (chars ++ rest) =
      scan index (some ⟨[], index⟩) false quoted (chars ++ rest) := by
    rw [hchars]
    rfl
  rw [opened, scan_escaped escaped, List.append_nil]

/-- Blanks outside of tokens are skipped. -/
theorem scan_blanks {blanks : List Char} (blank : ∀ c ∈ blanks, isBlank c = true) (index : Nat)
    (rest : List Char) :
    scan index none false false (blanks ++ rest) =
      scan (index + blanks.length) none false false rest := by
  induction blanks generalizing index with
  | nil => rfl
  | cons c others ih =>
    obtain ⟨hc, hothers⟩ := List.forall_mem_cons.1 blank
    obtain ⟨hbackslash, hquote⟩ := isBlank_ne hc
    rw [List.cons_append, scan]
    simp only [Bool.false_eq_true, if_false, hbackslash, hquote, hc, Bool.not_false, Bool.and_self,
      if_true]
    rw [ih hothers]
    simp [openAt, Pending.close, Nat.add_assoc, Nat.add_comm 1]

/-- A blank closes the open token. -/
theorem scan_blank {c : Char} (blank : isBlank c = true) (index : Nat) (p : Pending)
    (rest : List Char) :
    scan index (some p) false false (c :: rest) =
      p.close false index ++ scan (index + 1) none false false rest := by
  obtain ⟨hbackslash, hquote⟩ := isBlank_ne blank
  rw [scan]
  simp only [Bool.false_eq_true, if_false, hbackslash, hquote, blank, Bool.not_false,
    Bool.and_self, if_true, openAt, Option.getD_some]

theorem close_reverse {text : String} (nonempty : text ≠ "") (start stop : Nat) (quoted : Bool) :
    Pending.close ⟨text.toList.reverse, start⟩ quoted stop =
      [⟨text, if quoted then (start : Int) - 1 else start, stop, quoted⟩] := by
  have chars : text.toList ≠ [] := fun h => nonempty (String.toList_eq_nil_iff.1 h)
  simp [Pending.close, chars]

namespace Encoding

variable (e : Encoding) (index : Nat)

theorem toList_ne_nil : e.text.toList ≠ [] :=
  fun h => e.nonempty (String.toList_eq_nil_iff.1 h)

/-- Between quotes, a text is scanned to its token whatever stands behind it. -/
theorem scan_quoted (quoted : e.quoted = true) (rest : List Char) :
    scan index none false false (e.written ++ rest) =
      e.token index :: scan (index + e.written.length) none false false rest := by
  have escaped := e.escaped
  rw [quoted] at escaped
  have hstop : index + 1 + e.chars.length + 1 = index + (e.chars.length + 1 + 1) := by omega
  -- The opening quote closes nothing, and the closing one closes the text that begins behind it.
  have opening : scan index none false false ('"' :: (e.chars ++ '"' :: rest)) =
      scan (index + 1) none false true (e.chars ++ '"' :: rest) := rfl
  have closing : ∀ at_ p, scan at_ (some p) false true ('"' :: rest) =
      p.close true (at_ + 1) ++ scan (at_ + 1) none false false rest := fun _ _ => rfl
  simp only [token, written, quoted, if_true, List.cons_append, List.append_assoc,
    List.nil_append, List.length_cons, List.length_append, List.length_nil]
  rw [opening, scan_opened escaped e.toList_ne_nil, closing, close_reverse e.nonempty]
  simp [hstop]

/-- Without quotes, a text is scanned to its token if the line ends behind it or goes on with a
blank. -/
theorem scan_bare (bare : e.quoted = false) {rest : List Char}
    (apart : ∀ c ∈ rest.head?, isBlank c = true) :
    scan index none false false (e.written ++ rest) =
      e.token index :: scan (index + e.written.length) none false false rest := by
  have escaped := e.escaped
  rw [bare] at escaped
  simp only [token, written, bare, Bool.false_eq_true, if_false]
  rw [scan_opened escaped e.toList_ne_nil]
  cases rest with
  | nil =>
    exact close_reverse e.nonempty index (index + e.chars.length) false
  | cons c rest =>
    have blank := apart c rfl
    have skipped : ∀ stop, scan stop none false false (c :: rest) =
        scan (stop + 1) none false false rest :=
      fun stop => scan_blanks (List.forall_mem_singleton.2 blank) stop rest
    rw [scan_blank blank, close_reverse e.nonempty, skipped]
    rfl

theorem scan_written {rest : List Char}
    (apart : e.quoted = true ∨ ∀ c ∈ rest.head?, isBlank c = true) :
    scan index none false false (e.written ++ rest) =
      e.token index :: scan (index + e.written.length) none false false rest := by
  by_cases quoted : e.quoted = true
  · exact e.scan_quoted index quoted rest
  · rcases apart with h | apart
    · exact absurd h quoted
    · exact e.scan_bare index (eq_false_of_ne_true quoted) apart

end Encoding

/-- A text without special characters can be written as it is. -/
theorem Escaped.of_plain {quoted : Bool} {text : List Char}
    (plain : ∀ c ∈ text, isSpecial quoted c = false) : Escaped quoted text text := by
  induction text with
  | nil => exact .nil
  | cons c rest ih =>
    obtain ⟨here, later⟩ := List.forall_mem_cons.1 plain
    exact .bare here (ih later)

/-- A line without special characters is one token. -/
theorem tokenize_of_plain {line : String} (nonempty : line ≠ "")
    (plain : ∀ c ∈ line.toList, isSpecial false c = false) :
    tokenize line 0 = [⟨line, 0, line.toList.length, false⟩] := by
  have ends : ∀ c ∈ ([] : List Char).head?, isBlank c = true := fun c hc => nomatch hc
  have scanned :=
    Encoding.scan_bare ⟨line, false, line.toList, nonempty, .of_plain plain⟩ 0 rfl ends
  rw [List.append_nil] at scanned
  rw [tokenize, List.drop_zero]
  refine scanned.trans ?_
  simp [Encoding.token, Encoding.written, scan]

/-- Encodings with blanks between them are scanned to their tokens. -/
theorem scan_laid {pieces : List (Encoding × List Char)}
    (blank : ∀ piece ∈ pieces, ∀ c ∈ piece.2, isBlank c = true)
    (apart : ∀ piece ∈ pieces.dropLast, piece.2 ≠ []) (index : Nat) :
    scan index none false false (laid pieces) = laidTokens index pieces := by
  induction pieces generalizing index with
  | nil => rfl
  | cons piece rest ih =>
    obtain ⟨e, gap⟩ := piece
    obtain ⟨hgap, hrest⟩ := List.forall_mem_cons.1 blank
    have later : ∀ piece ∈ rest.dropLast, piece.2 ≠ [] := by
      intro piece mem
      apply apart
      cases rest with
      | nil => exact absurd mem List.not_mem_nil
      | cons next others => exact List.mem_cons_of_mem _ mem
    have ends : ∀ c ∈ (gap ++ laid rest).head?, isBlank c = true := by
      intro c hc
      cases gap with
      | cons d others =>
        cases hc
        exact hgap c List.mem_cons_self
      | nil =>
        -- Only the last encoding has nothing behind it, and then the line ends.
        cases rest with
        | nil => cases hc
        | cons next others => exact absurd rfl (apart (e, []) List.mem_cons_self)
    rw [laid, laidTokens, e.scan_written index (.inr ends), scan_blanks hgap, ih hrest later]

/-- What stands in the line at the place of a token is the encoding of its text. -/
theorem excerpt_laidTokens (before : List Char) (pieces : List (Encoding × List Char)) :
    List.Forall₂ (fun t piece => t.text = piece.1.text ∧ t.quoted = piece.1.quoted ∧
        t.excerpt (String.ofList (before ++ laid pieces)) = piece.1.written)
      (laidTokens before.length pieces) pieces := by
  induction pieces generalizing before with
  | nil => exact .nil
  | cons piece rest ih =>
    obtain ⟨e, gap⟩ := piece
    refine .cons ⟨rfl, rfl, ?_⟩ ?_
    · have hlength : ((e.token before.length).stop - (e.token before.length).start).toNat =
          e.written.length := by
        simp only [Encoding.token]
        omega
      have hstart : (e.token before.length).start.toNat = before.length := rfl
      rw [excerpt, hlength, hstart, String.toList_ofList, List.drop_left, laid, List.take_left]
    · have shifted := ih (before ++ (e.written ++ gap))
      simp only [List.length_append, List.append_assoc] at shifted
      simpa only [laid, Nat.add_assoc] using shifted

/-- A line of encodings, with blanks between them and perhaps at both ends, has the encoded texts
as its tokens, in order. A token is quoted if its encoding is, and its place is that of the
encoding, the quotes included. -/
theorem tokenize_encoded (lead : List Char) (pieces : List (Encoding × List Char))
    (leading : ∀ c ∈ lead, isBlank c = true)
    (blank : ∀ piece ∈ pieces, ∀ c ∈ piece.2, isBlank c = true)
    (apart : ∀ piece ∈ pieces.dropLast, piece.2 ≠ []) :
    let line := String.ofList (lead ++ laid pieces)
    tokenize line 0 = laidTokens lead.length pieces ∧
      List.Forall₂ (fun t piece => t.text = piece.1.text ∧ t.quoted = piece.1.quoted ∧
        t.excerpt line = piece.1.written) (tokenize line 0) pieces := by
  intro line
  have scanned : tokenize line 0 = laidTokens lead.length pieces := by
    rw [tokenize, String.toList_ofList, List.drop_zero, scan_blanks leading,
      scan_laid blank apart, Nat.zero_add]
  refine ⟨scanned, ?_⟩
  rw [scanned]
  exact excerpt_laidTokens lead pieces

/-- A text with a blank, which is written without quotes. -/
def Encoding.title : Encoding where
  text := "a b"
  quoted := false
  chars := ['\\', 'a', '\\', ' ', 'b']
  nonempty := by decide
  escaped := .escape (.escape (.bare rfl .nil))

/-- A text with a quote, which is written between quotes. -/
def Encoding.remark : Encoding where
  text := "c \"d"
  quoted := true
  chars := ['c', ' ', '\\', '"', 'd']
  nonempty := by decide
  escaped := .bare rfl (.bare rfl (.escape (.bare rfl .nil)))

theorem tokenize_encoded_remark :
    tokenize " \\a\\ b\t\t\"c \\\"d\"" 0 = [⟨"a b", 1, 6, false⟩, ⟨"c \"d", 8, 15, true⟩] := by
  have blank : ∀ piece ∈ [(Encoding.title, ['\t', '\t']), (Encoding.remark, [])],
      ∀ c ∈ piece.2, isBlank c = true := by
    simp only [List.forall_mem_cons]
    exact ⟨⟨rfl, rfl, List.forall_mem_nil _⟩, List.forall_mem_nil _, List.forall_mem_nil _⟩
  have apart : ∀ piece ∈ [(Encoding.title, ['\t', '\t']), (Encoding.remark, [])].dropLast,
      piece.2 ≠ [] :=
    List.forall_mem_singleton.2 (List.cons_ne_nil _ _)
  exact (tokenize_encoded [' '] _ (List.forall_mem_singleton.2 rfl) blank apart).1

end CommandGrammar.Token
