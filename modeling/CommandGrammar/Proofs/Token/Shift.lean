import CommandGrammar.Proofs.Token.Place

/-!
# Tokens behind a prefix

What stands behind a prefix of a line is scanned as if it stood alone: the tokens are the same, and
their places and positions are moved by the length of the prefix (`tokenize_append`,
`positions_append`).
-/

namespace CommandGrammar.Token

/-- The open token moved to the right. -/
def Pending.shift (k : Nat) (p : Pending) : Pending := { p with start := p.start + k }

theorem openAt_shift (k index : Nat) (pending : Option Pending) :
    openAt (index + k) (pending.map (·.shift k)) = (openAt index pending).shift k := by
  cases pending <;> rfl

/-- An open token that is moved is closed as the token moved. -/
theorem Pending.close_shift (k : Nat) (p : Pending) (quoted : Bool) (stop : Nat) :
    (p.shift k).close quoted (stop + k) = (p.close quoted stop).map (Token.shift k) := by
  have hchars : (p.shift k).chars = p.chars := rfl
  unfold close
  rw [hchars]
  split
  · rfl
  · rw [List.map_singleton]
    cases quoted with
    | false => simp [Pending.shift, Token.shift]
    | true =>
      simp only [Pending.shift, Token.shift, if_true, Int.natCast_add, List.cons.injEq,
        Token.mk.injEq, true_and, and_true]
      omega

/-- From another offset on, the same characters are scanned to the same tokens at other places. -/
theorem scan_shift (k index : Nat) (pending : Option Pending) (escaped quoted : Bool)
    (cs : List Char) :
    scan (index + k) (pending.map (·.shift k)) escaped quoted cs =
      (scan index pending escaped quoted cs).map (Token.shift k) := by
  induction cs generalizing index pending escaped quoted with
  | nil =>
    cases pending with
    | none => rfl
    | some p => exact p.close_shift k quoted index
  | cons c rest ih =>
    have hnext : index + k + 1 = index + 1 + k := by omega
    have hpush := ih (index + 1) (some ((openAt index pending).push c)) false quoted
    rw [scan, scan, openAt_shift, hnext]
    split
    · exact hpush
    · split
      · exact ih (index + 1) (some _) true quoted
      · split
        · have hclose : (if quoted then index + 1 + k else index + k) =
              (if quoted then index + 1 else index) + k := by
            split <;> rfl
          rw [hclose, Pending.close_shift, List.map_append]
          exact congrArg _ (ih (index + 1) none false (!quoted))
        · split
          · rw [Pending.close_shift, List.map_append]
            exact congrArg _ (ih (index + 1) none false false)
          · exact hpush

/-- What stands behind a prefix has the tokens that it has alone, moved by the prefix. -/
theorem tokenize_append (before line : String) :
    tokenize (before ++ line) before.length =
      (tokenize line 0).map (Token.shift before.length) := by
  have hdrop : (before ++ line).toList.drop before.length = line.toList := by
    rw [String.toList_append, ← String.length_toList, List.drop_left]
  rw [tokenize, tokenize, hdrop, List.drop_zero]
  have hscan := scan_shift before.length 0 none false false line.toList
  rw [Nat.zero_add] at hscan
  exact hscan

theorem keptOffsets_shift (k index : Nat) (escaped : Bool) (cs : List Char) :
    keptOffsets (index + k) escaped cs = (keptOffsets index escaped cs).map (· + (k : Int)) := by
  induction cs generalizing index escaped with
  | nil => rfl
  | cons c rest ih =>
    have hnext : index + k + 1 = index + 1 + k := by omega
    rw [keptOffsets, keptOffsets, hnext]
    split
    · exact ih (index + 1) true
    · rw [List.map_cons, ih (index + 1) false]
      rfl

/-- The positions of a token are moved with it. -/
theorem positions_append (before line : String) {t : Token} (start : 0 ≤ t.start) :
    (t.shift before.length).positions (before ++ line) =
      (t.positions line).map (· + (before.length : Int)) := by
  obtain ⟨n, hn⟩ := Int.eq_ofNat_of_zero_le start
  have hmoved : (t.shift before.length).start.toNat = n + before.length := by
    rw [Token.shift, hn]
    rfl
  have hdrop : (before ++ line).toList.drop (n + before.length) = line.toList.drop n := by
    rw [String.toList_append, Nat.add_comm, ← List.drop_drop, ← String.length_toList,
      List.drop_left]
  have hlength : (t.shift before.length).stop - (t.shift before.length).start =
      t.stop - t.start := by
    simp only [Token.shift]
    omega
  have hexcerpt : (t.shift before.length).excerpt (before ++ line) = t.excerpt line := by
    rw [excerpt, excerpt, hmoved, hdrop, hlength, hn]
    rfl
  have hstart : t.start.toNat = n := by
    rw [hn]
    rfl
  rw [positions, positions, hexcerpt, hmoved, hstart, keptOffsets_shift, List.map_append]
  rfl

end CommandGrammar.Token
