import CommandGrammar.Proofs.Token.Place

/-!
# Reading a token again

What stands in the line at the place of a token is that token's text with its quotes and escapes, so
scanning it alone gives the token back (`rescans_of_mem_tokenize`). A backslash at the very end of
the line escapes nothing, but belongs to the place of the token that it ends.

An unquoted token may be taken apart at any of its characters. The table of positions leads to the
character itself, not to the backslash before it, so what stands in the line from there on reads as
the rest of the text only if the character need not be escaped (`Bare.at_char`).
-/

namespace CommandGrammar.Token

/-! ## How tokens are written -/

/-- A backslash that has nothing to escape yet. -/
def dangling (escaped : Bool) : List Char := if escaped then ['\\'] else []

/-- How the open token is written: with escapes, and behind a quote if it is quoted. -/
structure Spelt (line : List Char) (index : Nat) (escaped quoted : Bool) (p : Pending) :
    Prop where
  start_le : p.start ≤ index
  opening : quoted = true → ∃ before rest, p.start = before + 1 ∧ line.drop before = '"' :: rest
  written : ∃ chars, between line p.start index = chars ++ dangling escaped ∧
    Escaped quoted p.chars.reverse chars

theorem Escaped.append {quoted : Bool} {u v before after : List Char}
    (first : Escaped quoted u before) (second : Escaped quoted v after) :
    Escaped quoted (u ++ v) (before ++ after) := by
  induction first with
  | nil => exact second
  | bare plain _ ih => exact .bare plain ih
  | escape _ ih => exact .escape ih

/-- The scanner keeps to what is written. -/
theorem keeps_spelt (line : List Char) : Keeps line (Spelt line) where
  bare _ := ⟨Nat.le_refl _, fun on => absurd on Bool.noConfusion, [], between_self .., .nil⟩
  behind {index rest} here :=
    ⟨Nat.le_refl _, fun _ => ⟨index, rest, rfl, here⟩, [], between_self .., .nil⟩
  push {index escaped quoted p c rest} held here kept := by
    obtain ⟨start_le, opening, chars, written, spelt⟩ := held
    have text : (p.push c).chars.reverse = p.chars.reverse ++ [c] := List.reverse_cons
    refine ⟨Nat.le_succ_of_le start_le, opening, ?_⟩
    show ∃ chars, between line p.start (index + 1) = _ ∧ _
    rw [between_succ here start_le, written, text]
    cases escaped with
    | true => exact ⟨chars ++ ['\\', c], by simp [dangling], spelt.append (.escape .nil)⟩
    | false =>
      have plain : isSpecial quoted c = false := kept.resolve_left Bool.noConfusion
      exact ⟨chars ++ [c], by simp [dangling], spelt.append (.bare plain .nil)⟩
  escape {index quoted p rest} held here := by
    obtain ⟨start_le, opening, chars, written, spelt⟩ := held
    refine ⟨Nat.le_succ_of_le start_le, opening, chars, ?_, spelt⟩
    rw [between_succ here start_le, written]
    simp [dangling]

/-- The place of a token, as a stretch of the line. -/
theorem InLine.excerpt_eq {line : String} {t : Token} (inLine : t.InLine line) :
    t.excerpt line = between line.toList t.start.toNat t.stop.toNat := by
  have lower := inLine.start_nonneg
  have ordered := inLine.start_le_stop
  have width : (t.stop - t.start).toNat = t.stop.toNat - t.start.toNat := by omega
  rw [excerpt, between, width]

/-- The place of a token is as wide as what stands there. -/
theorem InLine.length_excerpt {line : String} {t : Token} (inLine : t.InLine line) :
    ((t.excerpt line).length : Int) = t.stop - t.start := by
  obtain ⟨lower, ordered, upper⟩ := inLine
  rw [excerpt, List.length_take, List.length_drop, String.length_toList]
  omega

/-- An unquoted token is written with escapes. A backslash that ends the line may stand behind them,
but none stands behind the token. -/
structure Bare (line : String) (t : Token) : Prop where
  plain : t.quoted = false
  inLine : t.InLine line
  nonempty : t.text ≠ ""
  written : ∃ chars escaped, t.excerpt line = chars ++ dangling escaped ∧
    Escaped false t.text.toList chars
  behind : line.toList[t.stop.toNat]? ≠ some '\\'

/-- A quoted token is written with escapes between quotes. The end of the line may stand for the
closing one, also behind a backslash. -/
structure Quoted (line : String) (t : Token) : Prop where
  on : t.quoted = true
  inLine : t.InLine line
  nonempty : t.text ≠ ""
  written : ∃ chars closing, t.excerpt line = '"' :: (chars ++ closing) ∧
    Escaped true t.text.toList chars ∧ (closing = ['"'] ∨ ∃ escaped, closing = dangling escaped)

/-- What the scanner closes is written so. -/
theorem Spelt.written_of_close {line : String} {index stop : Nat} {escaped quoted : Bool}
    {p : Pending} {t : Token} (spelt : Spelt line.toList index escaped quoted p)
    (closing : Closing line.toList index escaped quoted stop) (mem : t ∈ p.close quoted stop)
    (inLine : t.InLine line) : t.Bare line ∨ t.Quoted line := by
  have nonempty := Pending.text_ne_empty mem
  obtain ⟨start_le, opening, chars, written, escapes⟩ := spelt
  have place := eq_of_mem_close mem
  have text : t.text.toList = p.chars.reverse := by
    rw [place]
    exact String.toList_ofList
  have stops : t.stop.toNat = stop := by rw [place]; rfl
  rw [← text] at escapes
  cases quoted with
  | false =>
    left
    have excerpt : t.excerpt line = chars ++ dangling escaped := by
      rw [inLine.excerpt_eq, stops, place, ← written]
      cases closing <;> rfl
    refine ⟨by rw [place], inLine, nonempty, ⟨chars, escaped, excerpt, escapes⟩, ?_⟩
    rw [stops]
    cases closing with
    | ends done =>
      simp [done]
    | quote here =>
      have found : line.toList[index]? = some '"' := by
        rw [← List.head?_drop, here]
        rfl
      intro backslash
      cases found.symm.trans backslash
    | @blank c rest here blank =>
      have found : line.toList[index]? = some c := by
        rw [← List.head?_drop, here]
        rfl
      intro backslash
      exact (isBlank_ne blank).1 (Option.some.inj (found.symm.trans backslash))
  | true =>
    right
    obtain ⟨before, rest, start, quote⟩ := opening rfl
    -- The quote stands one character before what was read.
    have starts : t.start.toNat = before := by
      rw [place]
      show ((p.start : Int) - 1).toNat = before
      omega
    have opened : ∀ last, p.start ≤ last → between line.toList before last =
        '"' :: between line.toList p.start last := by
      intro last le
      have width : last - before = (last - p.start) + 1 := by omega
      have tail : line.toList.drop p.start = rest := by
        rw [start, ← List.drop_drop, quote, List.drop_one, List.tail_cons]
      rw [between, between, width, quote, tail, List.take_succ_cons]
    refine ⟨by rw [place], inLine, nonempty, ?_⟩
    rw [inLine.excerpt_eq, starts, stops]
    cases closing with
    | ends done =>
      refine ⟨chars, dangling escaped, ?_, escapes, .inr ⟨escaped, rfl⟩⟩
      rw [opened index start_le, written]
    | quote here =>
      refine ⟨chars, ['"'], ?_, escapes, .inl rfl⟩
      rw [if_pos rfl, opened (index + 1) (Nat.le_succ_of_le start_le), between_succ here start_le,
        written]
      simp [dangling]

/-- The tokens of a line are written so. -/
theorem written_of_mem_tokenize {line : String} {start : Nat} {t : Token}
    (mem : t ∈ tokenize line start) : t.Bare line ∨ t.Quoted line := by
  obtain ⟨index, escaped, quoted, p, stop, spelt, closing, closed⟩ :=
    (keeps_spelt line.toList).of_mem_tokenize mem
  exact spelt.written_of_close closing closed (inLine_of_mem_tokenize mem)

/-- The tokens of a line that are not quoted are written with escapes alone. -/
theorem bare_of_mem_tokenize {line : String} {start : Nat} {t : Token}
    (mem : t ∈ tokenize line start) (plain : t.quoted = false) : t.Bare line := by
  rcases written_of_mem_tokenize mem with bare | quoted
  · exact bare
  · exact absurd (plain.symm.trans quoted.on) Bool.noConfusion

/-! ## Scanning the place of a token -/

/-- Alone, what stands in the line at the token's place is scanned to that token. -/
def Rescans (line : String) (t : Token) : Prop :=
  tokenize (String.ofList (t.excerpt line)) 0 = [t.shift (-t.start)]

/-- A backslash that ends the line closes the open token. -/
theorem scan_dangling (index : Nat) (p : Pending) (escaped quoted : Bool) :
    scan index (some p) false quoted (dangling escaped) =
      p.close quoted (index + (dangling escaped).length) := by
  cases escaped <;> rfl

/-- It is enough that what stands there closes the text where it ends, behind the quote if there is
one. -/
theorem rescans_of_close {line : String} {t : Token} (inLine : t.InLine line)
    (nonempty : t.text ≠ "")
    (scanned : scan 0 none false false (t.excerpt line) =
      Pending.close ⟨t.text.toList.reverse, if t.quoted then 1 else 0⟩ t.quoted
        (t.excerpt line).length) : t.Rescans line := by
  have width := inLine.length_excerpt
  rw [Rescans, tokenize, String.toList_ofList, List.drop_zero, scanned, close_reverse nonempty,
    width]
  obtain ⟨text, start, stop, quoted⟩ := t
  cases quoted with
  | false =>
    simp only [shift, Bool.false_eq_true, if_false, List.cons.injEq, Token.mk.injEq, and_true,
      true_and]
    omega
  | true =>
    simp only [shift, if_true, List.cons.injEq, Token.mk.injEq, and_true, true_and]
    omega

theorem Bare.rescans {line : String} {t : Token} (bare : t.Bare line) : t.Rescans line := by
  obtain ⟨plain, inLine, nonempty, ⟨chars, escaped, excerpt, escapes⟩, -⟩ := bare
  have filled : t.text.toList ≠ [] := fun h => nonempty (String.toList_eq_nil_iff.1 h)
  apply rescans_of_close inLine nonempty
  rw [excerpt, scan_opened escapes filled, scan_dangling, plain, List.length_append, Nat.zero_add]
  rfl

theorem Quoted.rescans {line : String} {t : Token} (quoted : t.Quoted line) :
    t.Rescans line := by
  obtain ⟨on, inLine, nonempty, chars, closing, excerpt, escapes, ends⟩ := quoted
  have filled : t.text.toList ≠ [] := fun h => nonempty (String.toList_eq_nil_iff.1 h)
  have opening : scan 0 none false false ('"' :: (chars ++ closing)) =
      scan 1 none false true (chars ++ closing) := rfl
  have closes : ∀ index p, scan index (some p) false true closing =
      p.close true (index + closing.length) := by
    intro index p
    rcases ends with rfl | ⟨escaped, rfl⟩
    · exact List.append_nil _
    · exact scan_dangling ..
  have length : 1 + chars.length + closing.length = ('"' :: (chars ++ closing)).length := by
    simp only [List.length_cons, List.length_append]
    omega
  apply rescans_of_close inLine nonempty
  rw [excerpt, opening, scan_opened escapes filled, closes, on, length]
  rfl

/-- What stands in the line at the place of one of its tokens is scanned to that token. -/
theorem rescans_of_mem_tokenize {line : String} {start : Nat} {t : Token}
    (mem : t ∈ tokenize line start) : t.Rescans line := by
  rcases written_of_mem_tokenize mem with bare | quoted
  · exact bare.rescans
  · exact quoted.rescans

/-! ## Taking a token apart -/

/-- Where a text is taken apart, so is what is written for it. The character in the middle stands
bare, or behind a backslash. -/
theorem Escaped.split {quoted : Bool} {c : Char} {u v chars : List Char}
    (escaped : Escaped quoted (u ++ c :: v) chars) :
    ∃ before after, Escaped quoted u before ∧ Escaped quoted v after ∧
      (isSpecial quoted c = false ∧ chars = before ++ c :: after ∨
        chars = before ++ '\\' :: c :: after) := by
  induction u generalizing chars with
  | nil =>
    cases escaped with
    | bare plain later => exact ⟨[], _, .nil, later, .inl ⟨plain, rfl⟩⟩
    | escape later => exact ⟨[], _, .nil, later, .inr rfl⟩
  | cons d u ih =>
    cases escaped with
    | bare plain later =>
      obtain ⟨before, after, first, second, splits⟩ := ih later
      refine ⟨d :: before, after, .bare plain first, second, ?_⟩
      rcases splits with ⟨bare, rfl⟩ | rfl
      · exact .inl ⟨bare, rfl⟩
      · exact .inr rfl
    | escape later =>
      obtain ⟨before, after, first, second, splits⟩ := ih later
      refine ⟨'\\' :: d :: before, after, .escape first, second, ?_⟩
      rcases splits with ⟨bare, rfl⟩ | rfl
      · exact .inl ⟨bare, rfl⟩
      · exact .inr rfl

/-- A text that is written has one offset for each character, and behind it the offsets go on. -/
theorem Escaped.keptOffsets_append {quoted : Bool} {text chars : List Char}
    (escaped : Escaped quoted text chars) (index : Nat) (rest : List Char) :
    ∃ offsets, offsets.length = text.length ∧ keptOffsets index false (chars ++ rest) =
      offsets ++ keptOffsets (index + chars.length) false rest := by
  induction escaped generalizing index with
  | nil => exact ⟨[], rfl, rfl⟩
  | @bare c text chars plain _ ih =>
    obtain ⟨offsets, length, append⟩ := ih (index + 1)
    have next : index + 1 + chars.length = index + (c :: chars).length := by
      simp only [List.length_cons]
      omega
    refine ⟨index :: offsets, by simp [length], ?_⟩
    rw [List.cons_append, keptOffsets, append, next]
    simp [(isSpecial_eq_false plain).1]
  | @escape c text chars _ ih =>
    obtain ⟨offsets, length, append⟩ := ih (index + 1 + 1)
    have next : index + 1 + 1 + chars.length = index + ('\\' :: c :: chars).length := by
      simp only [List.length_cons]
      omega
    refine ⟨(index + 1 : Nat) :: offsets, by simp [length], ?_⟩
    rw [List.cons_append, List.cons_append, keptOffsets]
    simp only [decide_true, Bool.not_false, Bool.and_self, if_true]
    rw [keptOffsets, append, next]
    simp

theorem between_append {line before after : List Char} {start stop : Nat}
    (h : between line start stop = before ++ after) :
    between line (start + before.length) stop = after := by
  have width : stop - (start + before.length) = stop - start - before.length := by omega
  have dropped := congrArg (List.drop before.length) h
  rw [between, List.drop_take, List.drop_drop, List.drop_left] at dropped
  rw [between, width, dropped]

theorem getElem?_of_between {all cs : List Char} {c : Char} {start stop : Nat}
    (h : between all start stop = c :: cs) : all[start]? = some c := by
  have first := congrArg List.head? h
  rw [between, List.head?_take] at first
  split at first
  · cases first
  · rwa [List.head?_drop] at first

/-- A character of an unquoted token stands at its position. What stands behind it there is written
for the text behind it, and a character that has to be escaped stands behind a backslash. -/
structure Within (line : String) (t : Token) (u : List Char) (c : Char) (v : List Char) (a : Nat)
    (tail : List Char) : Prop where
  positions : ∃ offsets, offsets.length = u.length ∧ t.positions line =
    offsets ++ (a : Int) :: (keptOffsets (a + 1) false tail ++ [t.stop])
  here : between line.toList a t.stop.toNat = c :: tail
  written : ∃ after escaped, tail = after ++ dangling escaped ∧ Escaped false v after
  escape : isSpecial false c = true → ∃ b, a = b + 1 ∧
    between line.toList b t.stop.toNat = '\\' :: c :: tail

theorem Bare.at_char {line : String} {t : Token} (bare : t.Bare line) {u v : List Char} {c : Char}
    (text : t.text.toList = u ++ c :: v) : ∃ a tail, t.Within line u c v a tail := by
  obtain ⟨plain, inLine, nonempty, ⟨chars, escaped, excerpt, escapes⟩, -⟩ := bare
  rw [text] at escapes
  obtain ⟨before, after, first, second, splits⟩ := escapes.split
  have place := inLine.excerpt_eq
  rw [excerpt] at place
  rcases splits with ⟨literal, rfl⟩ | rfl
  · have append : before ++ c :: after ++ dangling escaped =
        before ++ c :: (after ++ dangling escaped) := by simp
    obtain ⟨offsets, length, kept⟩ := first.keptOffsets_append t.start.toNat
      (c :: (after ++ dangling escaped))
    refine ⟨t.start.toNat + before.length, after ++ dangling escaped, ?_, ?_, ?_, ?_⟩
    · refine ⟨offsets, length, ?_⟩
      rw [Token.positions, excerpt, append, kept, keptOffsets]
      simp [(isSpecial_eq_false literal).1]
    · exact between_append (place.symm.trans append)
    · exact ⟨after, escaped, rfl, second⟩
    · intro special
      exact absurd (special.symm.trans literal) Bool.noConfusion
  · have append : before ++ '\\' :: c :: after ++ dangling escaped =
        before ++ '\\' :: c :: (after ++ dangling escaped) := by simp
    obtain ⟨offsets, length, kept⟩ := first.keptOffsets_append t.start.toNat
      ('\\' :: c :: (after ++ dangling escaped))
    have behind := between_append (place.symm.trans append)
    have here := @between_append _ ['\\'] _ _ _ behind
    refine ⟨t.start.toNat + before.length + 1, after ++ dangling escaped, ?_, ?_, ?_, ?_⟩
    · refine ⟨offsets, length, ?_⟩
      rw [Token.positions, excerpt, append, kept, keptOffsets]
      simp only [decide_true, Bool.not_false, Bool.and_self, if_true]
      rw [keptOffsets]
      simp
    · exact here
    · exact ⟨after, escaped, rfl, second⟩
    · intro _
      exact ⟨t.start.toNat + before.length, rfl, behind⟩

/-- Up to the stop of an unquoted token, a text that is written there is an unquoted token. -/
theorem Bare.ending {line : String} {t : Token} (bare : t.Bare line) {start : Nat} {escaped : Bool}
    {text chars : List Char} (nonempty : text ≠ [])
    (here : between line.toList start t.stop.toNat = chars ++ dangling escaped)
    (escapes : Escaped false text chars) :
    Bare line ⟨String.ofList text, start, t.stop, false⟩ := by
  have filled : between line.toList start t.stop.toNat ≠ [] := by
    rw [here]
    exact List.append_ne_nil_of_left_ne_nil (escapes.ne_nil nonempty) _
  have lt : start < t.stop.toNat := by
    by_contra le
    apply filled
    rw [between, Nat.sub_eq_zero_of_le (by omega), List.take_zero]
  have inLine : InLine line ⟨String.ofList text, start, t.stop, false⟩ := by
    refine ⟨Int.natCast_nonneg _, ?_, bare.inLine.stop_le⟩
    show (start : Int) ≤ t.stop
    omega
  refine ⟨rfl, inLine, ?_, ⟨chars, escaped, ?_, ?_⟩, bare.behind⟩
  · intro empty
    exact nonempty (String.ofList_eq_empty_iff.1 empty)
  · rw [inLine.excerpt_eq]
    exact here
  · rwa [String.toList_ofList]

namespace Within

variable {line : String} {t : Token} {u v tail : List Char} {c : Char} {a : Nat}

/-- The table of positions leads to the character. -/
theorem position (within : t.Within line u c v a tail) :
    (t.positions line)[u.length]? = some (a : Int) := by
  obtain ⟨offsets, length, positions⟩ := within.positions
  rw [positions, ← length, List.getElem?_append_right (Nat.le_refl _), Nat.sub_self]
  rfl

/-- From a character on that need not be escaped, what stands in the line reads as the text. -/
theorem rescans (within : t.Within line u c v a tail) (bare : t.Bare line)
    (plain : isSpecial false c = false) :
    Rescans line ⟨String.ofList (c :: v), a, t.stop, false⟩ := by
  obtain ⟨after, escaped, rfl, escapes⟩ := within.written
  exact (bare.ending (List.cons_ne_nil _ _) within.here (.bare plain escapes)).rescans

/-- A character that has to be escaped stands behind a backslash, and from there on what stands in
the line reads as the text. -/
theorem rescans_escape (within : t.Within line u c v a tail) (bare : t.Bare line)
    (special : isSpecial false c = true) : ∃ b : Nat, a = b + 1 ∧ line.toList[b]? = some '\\' ∧
      Rescans line ⟨String.ofList (c :: v), b, t.stop, false⟩ := by
  obtain ⟨after, escaped, rfl, escapes⟩ := within.written
  obtain ⟨b, rfl, behind⟩ := within.escape special
  refine ⟨b, rfl, getElem?_of_between behind, ?_⟩
  exact (bare.ending (List.cons_ne_nil _ _) behind (.escape escapes)).rescans

/-- The next position is that of the next character of the line, or the one behind it if that is a
backslash. -/
theorem next_position (within : t.Within line u c v a tail) (bare : t.Bare line) :
    (t.positions line)[u.length + 1]? =
      some (a + 1 + if line.toList[a + 1]? = some '\\' then 1 else 0) := by
  obtain ⟨offsets, length, positions⟩ := within.positions
  obtain ⟨after, escaped, rfl, escapes⟩ := within.written
  have next : (t.positions line)[u.length + 1]? =
      (keptOffsets (a + 1) false (after ++ dangling escaped) ++ [t.stop])[0]? := by
    rw [positions, ← length, List.getElem?_append_right (Nat.le_succ _)]
    simp
  have behind : between line.toList (a + 1) t.stop.toNat = after ++ dangling escaped :=
    @between_append _ [c] _ _ _ within.here
  have stops : t.stop = (a + 1 + (after ++ dangling escaped).length : Nat) := by
    have width := congrArg List.length within.here
    obtain ⟨lower, ordered, upper⟩ := bare.inLine
    rw [between, List.length_take, List.length_drop, String.length_toList, List.length_cons]
      at width
    omega
  rw [next]
  cases escapes with
  | nil =>
    cases escaped with
    | false =>
      have apart : line.toList[a + 1]? ≠ some '\\' := by
        have behind := bare.behind
        rwa [stops] at behind
      simp [apart, stops, dangling, keptOffsets]
    | true =>
      have backslash := getElem?_of_between behind
      simp [backslash, stops, dangling, keptOffsets]
  | @bare d _ _ plain _ =>
    have different := (isSpecial_eq_false plain).1
    have found := getElem?_of_between behind
    simp [found, different, keptOffsets]
  | @escape d _ _ _ =>
    have backslash := getElem?_of_between behind
    simp [backslash, keptOffsets]

end Within

end CommandGrammar.Token
