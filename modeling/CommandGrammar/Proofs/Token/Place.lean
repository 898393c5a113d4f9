import CommandGrammar.Proofs.Token.Closing

/-!
# Places of tokens

Every token has a place in the line. The place of an unquoted token is a stretch of the line whose
characters, without the escaping backslashes, are the token's text. So the table of positions of
such a token has one entry for each character of its text, and one more where the token stops; the
positions go up and stay within the place.
-/

namespace CommandGrammar.Token

/-- The characters that are kept of a stretch of the line, which are all but the escaping
backslashes. -/
def keptChars (escaped : Bool) : List Char → List Char
  | [] => []
  | c :: rest =>
    if c = '\\' && !escaped then keptChars true rest else c :: keptChars false rest

/-- The characters of a line between two offsets. -/
def between (line : List Char) (start stop : Nat) : List Char :=
  (line.drop start).take (stop - start)

/-- Each kept character has one offset. -/
theorem length_keptOffsets (index : Nat) (escaped : Bool) (cs : List Char) :
    (keptOffsets index escaped cs).length = (keptChars escaped cs).length := by
  induction cs generalizing index escaped with
  | nil => rfl
  | cons c rest ih =>
    simp only [keptOffsets, keptChars]
    split
    · exact ih (index + 1) true
    · simp only [List.length_cons, ih (index + 1) false]

theorem between_self (line : List Char) (start : Nat) : between line start start = [] := by
  simp [between]

theorem between_succ {line rest : List Char} {start index : Nat} {c : Char}
    (h : line.drop index = c :: rest) (hle : start ≤ index) :
    between line start (index + 1) = between line start index ++ [c] := by
  have hsub : index + 1 - start = (index - start) + 1 := by omega
  have hget : (line.drop start)[index - start]? = some c := by
    rw [List.getElem?_drop, show start + (index - start) = index + 0 by omega,
      ← List.getElem?_drop, h]
    rfl
  rw [between, between, hsub, List.take_add_one, hget]
  rfl

/-- What the scanner has read of the open token up to an offset: its characters are those kept
since its beginning, whatever comes behind them. Outside of a token nothing is escaped. -/
def Reads (line : List Char) (index : Nat) (escaped : Bool) : Option Pending → Prop
  | none => escaped = false
  | some p => p.start ≤ index ∧ index ≤ line.length ∧ ∀ cs,
      keptChars false (between line p.start index ++ cs) = p.chars.reverse ++ keptChars escaped cs

theorem Reads.closed {line : List Char} {index : Nat} : Reads line index false none := rfl

/-- A token that opens at an offset has no characters yet. -/
theorem Reads.openAt {line : List Char} {index : Nat} {escaped : Bool} {pending : Option Pending}
    (h : Reads line index escaped pending) (hle : index ≤ line.length) :
    Reads line index escaped (some (openAt index pending)) := by
  cases pending with
  | some p => exact h
  | none =>
    rw [Reads] at h
    subst h
    refine ⟨Nat.le_refl _, hle, ?_⟩
    intro cs
    show keptChars false (between line index index ++ cs) = _
    rw [between_self]
    rfl

/-- One more character that is not dropped. -/
theorem Reads.push {line rest : List Char} {index : Nat} {escaped : Bool} {p : Pending} {c : Char}
    (h : Reads line index escaped (some p)) (hc : line.drop index = c :: rest)
    (kept : escaped = true ∨ c ≠ '\\') : Reads line (index + 1) false (some (p.push c)) := by
  obtain ⟨hstart, -, hchars⟩ := h
  refine ⟨Nat.le_succ_of_le hstart, lt_length_of_drop hc, ?_⟩
  intro cs
  show keptChars false (between line p.start (index + 1) ++ cs) = _
  rw [between_succ hc hstart, List.append_assoc, List.singleton_append, hchars, keptChars]
  have hkeep : ¬ (c = '\\' && !escaped) = true := by
    rcases kept with rfl | hne
    · simp
    · simp [hne]
  simp [hkeep, Pending.push]

/-- A backslash that is not escaped is dropped, and escapes what follows. -/
theorem Reads.escape {line rest : List Char} {index : Nat} {p : Pending}
    (h : Reads line index false (some p)) (hc : line.drop index = '\\' :: rest) :
    Reads line (index + 1) true (some p) := by
  obtain ⟨hstart, -, hchars⟩ := h
  refine ⟨Nat.le_succ_of_le hstart, lt_length_of_drop hc, ?_⟩
  intro cs
  rw [between_succ hc hstart, List.append_assoc, List.singleton_append, hchars, keptChars]
  rfl

/-- The place of an unquoted token holds the token's text. -/
structure Placed (source : String) (t : Token) : Prop where
  start_nonneg : 0 ≤ t.start
  start_le_stop : t.start ≤ t.stop
  stop_le : t.stop ≤ source.length
  chars : keptChars false (t.excerpt source) = t.text.toList

/-- A token that comes of an open one, which is closed where the scanner has read it, or behind the
quote that stands there. -/
inductive Closed (line : List Char) (t : Token) : Prop
  | close {index stop : Nat} {escaped quoted : Bool} {p : Pending}
      (reads : Reads line index escaped (some p)) (mem : t ∈ p.close quoted stop)
      (plain : quoted = false → stop = index) (behind : index ≤ stop) (within : stop ≤ line.length)
      (opened : quoted = true → 0 < p.start) : Closed line t

/-- Where quoting is on, a quote stands before the open token. -/
def Quotes (quoted : Bool) (index : Nat) (pending : Option Pending) : Prop :=
  quoted = true → 0 < (openAt index pending).start

/-- The scanner keeps to what it has read of the open token. -/
theorem keeps_reads (line : List Char) :
    Keeps line fun index escaped quoted p =>
      Reads line index escaped (some p) ∧ Quotes quoted index (some p) where
  bare within := ⟨Reads.closed.openAt within, fun on => absurd on Bool.noConfusion⟩
  behind here := ⟨Reads.closed.openAt (lt_length_of_drop here), fun _ => Nat.succ_pos _⟩
  push held here kept := by
    refine ⟨held.1.push here ?_, held.2⟩
    rcases kept with escaped | plain
    · exact .inl escaped
    · exact .inr (isSpecial_eq_false plain).1
  escape held here := ⟨held.1.escape here, held.2⟩

/-- The tokens of a line are closed ones. -/
theorem closed_of_mem_tokenize {source : String} {start : Nat} {t : Token}
    (ht : t ∈ tokenize source start) : Closed source.toList t := by
  obtain ⟨index, escaped, quoted, p, stop, ⟨reads, quotes⟩, closing, mem⟩ :=
    (keeps_reads source.toList).of_mem_tokenize ht
  cases closing with
  | ends done => exact .close reads mem (fun _ => rfl) (Nat.le_refl _) reads.2.1 quotes
  | quote here =>
    have within := lt_length_of_drop here
    refine .close reads mem ?_ ?_ ?_ quotes
    · intro plain
      rw [plain]
      rfl
    · split <;> omega
    · split <;> omega
  | blank here _ => exact .close reads mem (fun _ => rfl) (Nat.le_refl _) reads.2.1 quotes

theorem eq_of_mem_close {p : Pending} {quoted : Bool} {stop : Nat} {t : Token}
    (h : t ∈ p.close quoted stop) :
    t = ⟨String.ofList p.chars.reverse, if quoted then (p.start : Int) - 1 else p.start, stop,
      quoted⟩ := by
  unfold Pending.close at h
  split at h
  · simp at h
  · exact List.mem_singleton.1 h

/-- A token that is closed outside quotes is in its place. -/
theorem Closed.placed {source : String} {t : Token} (closed : Closed source.toList t)
    (hq : t.quoted = false) : t.Placed source := by
  cases closed with
  | @close index stop escaped quoted p reads mem plain behind within opened =>
    obtain ⟨hstart, hlen, hchars⟩ := reads
    have ht := eq_of_mem_close mem
    rw [ht] at hq
    cases hq
    cases plain rfl
    have hkept := hchars []
    simp only [List.append_nil, keptChars] at hkept
    have hexcerpt : excerpt source ⟨String.ofList p.chars.reverse, p.start, index, false⟩ =
        between source.toList p.start index := by
      simp [excerpt, between]
    rw [ht]
    simp only [Bool.false_eq_true, if_false]
    exact ⟨by simp, by simpa using hstart, by simpa [← String.length_toList] using hlen,
      by simpa [hexcerpt] using hkept⟩

/-- The place of a token is a place in the line. -/
structure InLine (source : String) (t : Token) : Prop where
  start_nonneg : 0 ≤ t.start
  start_le_stop : t.start ≤ t.stop
  stop_le : t.stop ≤ source.length

theorem Placed.inLine {source : String} {t : Token} (placed : t.Placed source) :
    t.InLine source :=
  ⟨placed.start_nonneg, placed.start_le_stop, placed.stop_le⟩

theorem Closed.inLine {source : String} {t : Token} (closed : Closed source.toList t) :
    t.InLine source := by
  cases closed with
  | @close index stop escaped quoted p reads mem plain behind within opened =>
    have hstart := reads.1
    rw [String.length_toList] at within
    rw [eq_of_mem_close mem]
    cases quoted with
    | false =>
      refine ⟨?_, ?_, ?_⟩
      · exact Int.natCast_nonneg _
      · show (p.start : Int) ≤ stop
        omega
      · exact Int.ofNat_le.2 within
    | true =>
      have hquote := opened rfl
      refine ⟨?_, ?_, ?_⟩
      · show 0 ≤ (p.start : Int) - 1
        omega
      · show (p.start : Int) - 1 ≤ stop
        omega
      · exact Int.ofNat_le.2 within

/-- The tokens of a line have places in the line. -/
theorem inLine_of_mem_tokenize {source : String} {start : Nat} {t : Token}
    (ht : t ∈ tokenize source start) : t.InLine source :=
  (closed_of_mem_tokenize ht).inLine

/-- The tokens of a line that are not quoted are in their places. -/
theorem placed_of_mem_tokenize {source : String} {start : Nat} {t : Token}
    (ht : t ∈ tokenize source start) (hq : t.quoted = false) : t.Placed source :=
  (closed_of_mem_tokenize ht).placed hq

/-- The table of positions has one entry for each character of the text, and one more. -/
theorem Placed.length_positions {source : String} {t : Token} (h : t.Placed source) :
    (t.positions source).length = t.text.toList.length + 1 := by
  rw [positions, List.length_append, length_keptOffsets, h.chars]
  rfl

theorem keptOffsets_within {index : Nat} {escaped : Bool} {cs : List Char} :
    ∀ a ∈ keptOffsets index escaped cs, (index : Int) ≤ a ∧ a < index + cs.length := by
  induction cs generalizing index escaped with
  | nil => exact List.forall_mem_nil _
  | cons c rest ih =>
    have later : ∀ {escaped}, ∀ a ∈ keptOffsets (index + 1) escaped rest,
        (index : Int) < a ∧ a < index + (c :: rest).length := by
      intro escaped a mem
      obtain ⟨lower, upper⟩ := ih a mem
      rw [List.length_cons]
      omega
    rw [keptOffsets]
    split
    · intro a mem
      exact ⟨Int.le_of_lt (later a mem).1, (later a mem).2⟩
    · intro a mem
      rcases List.mem_cons.1 mem with rfl | mem
      · rw [List.length_cons]
        omega
      · exact ⟨Int.le_of_lt (later a mem).1, (later a mem).2⟩

theorem keptOffsets_sorted (index : Nat) (escaped : Bool) (cs : List Char) :
    (keptOffsets index escaped cs).Pairwise (· < ·) := by
  induction cs generalizing index escaped with
  | nil => exact .nil
  | cons c rest ih =>
    rw [keptOffsets]
    split
    · exact ih _ _
    · refine List.pairwise_cons.2 ⟨?_, ih _ _⟩
      intro a mem
      have := (keptOffsets_within a mem).1
      omega

/-- The kept offsets of a token in its place stand before the token's end. -/
theorem Placed.keptOffsets {source : String} {t : Token} (placed : t.Placed source) :
    ∀ a ∈ Token.keptOffsets t.start.toNat false (t.excerpt source), t.start ≤ a ∧ a < t.stop := by
  obtain ⟨hstart, hle, hstop, -⟩ := placed
  have hlength : (t.excerpt source).length = (t.stop - t.start).toNat := by
    rw [excerpt, List.length_take, List.length_drop, String.length_toList]
    omega
  intro a mem
  have := keptOffsets_within a mem
  rw [hlength] at this
  omega

/-- The positions of a token go up. -/
theorem Placed.positions_sorted {source : String} {t : Token} (placed : t.Placed source) :
    (t.positions source).Pairwise (· < ·) := by
  refine List.pairwise_append.2 ⟨keptOffsets_sorted _ _ _, List.pairwise_singleton _ _, ?_⟩
  intro a mem b hb
  rw [List.mem_singleton.1 hb]
  exact (placed.keptOffsets a mem).2

theorem Placed.position_lt {source : String} {t : Token} {i j : Nat} {a b : Int}
    (placed : t.Placed source) (ha : (t.positions source)[i]? = some a)
    (hb : (t.positions source)[j]? = some b) (hlt : i < j) : a < b := by
  obtain ⟨hi, rfl⟩ := List.getElem?_eq_some_iff.1 ha
  obtain ⟨hj, rfl⟩ := List.getElem?_eq_some_iff.1 hb
  exact List.pairwise_iff_getElem.1 placed.positions_sorted i j hi hj hlt

/-- The positions of a token lie within its place. -/
theorem Placed.position_within {source : String} {t : Token} {i : Nat} {a : Int}
    (placed : t.Placed source) (ha : (t.positions source)[i]? = some a) :
    t.start ≤ a ∧ a ≤ t.stop := by
  rcases List.mem_append.1 (List.mem_of_getElem? ha) with mem | mem
  · obtain ⟨lower, upper⟩ := placed.keptOffsets a mem
    exact ⟨lower, Int.le_of_lt upper⟩
  · rw [List.mem_singleton.1 mem]
    exact ⟨placed.start_le_stop, Int.le_refl _⟩

/-- Positions but the first one lie behind the start of the token. -/
theorem Placed.start_lt_position {source : String} {t : Token} {i : Nat} {a : Int}
    (placed : t.Placed source) (ha : (t.positions source)[i]? = some a) (hi : 0 < i) :
    t.start < a := by
  have hlt : i < (t.positions source).length := (List.getElem?_eq_some_iff.1 ha).1
  have hfirst := List.getElem?_eq_getElem (Nat.lt_trans hi hlt)
  exact Int.lt_of_le_of_lt (placed.position_within hfirst).1 (placed.position_lt hfirst ha hi)

/-- Positions but the last one lie before the stop of the token. -/
theorem Placed.position_lt_stop {source : String} {t : Token} {i : Nat} {a : Int}
    (placed : t.Placed source) (ha : (t.positions source)[i]? = some a)
    (hi : i + 1 < (t.positions source).length) : a < t.stop := by
  have hnext := List.getElem?_eq_getElem hi
  exact Int.lt_of_lt_of_le (placed.position_lt ha hnext (Nat.lt_succ_self i))
    (placed.position_within hnext).2

end CommandGrammar.Token
