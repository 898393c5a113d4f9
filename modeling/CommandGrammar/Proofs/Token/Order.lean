import CommandGrammar.Proofs.Token.Place

/-!
# The order of tokens

The tokens of a line stand one behind the other: each takes up some of the line, and none begins
before the one in front of it stops (`tokenize_ordered`). The order is kept where tokens are cut
into pieces that stand in order within the place of the token that is cut
(`Ordered.append_within`).
-/

namespace CommandGrammar.Token

/-- From an offset on, tokens stand one behind the other, and none is without a place. -/
inductive Ordered : Int → List Token → Prop
  | nil (low : Int) : Ordered low []
  | cons {low : Int} {t : Token} {rest : List Token} (behind : low ≤ t.start)
      (wide : t.start < t.stop) (later : Ordered t.stop rest) : Ordered low (t :: rest)

namespace Ordered

variable {low high : Int} {ts us : List Token}

theorem mono (ordered : Ordered high ts) (le : low ≤ high) : Ordered low ts := by
  cases ordered with
  | nil => exact .nil low
  | cons behind wide later => exact .cons (Int.le_trans le behind) wide later

/-- Tokens that end before an offset may be followed by tokens from there on. -/
theorem append_within (ordered : Ordered low ts) (within : ∀ t ∈ ts, t.stop ≤ high)
    (le : low ≤ high) (later : Ordered high us) : Ordered low (ts ++ us) := by
  induction ordered with
  | nil low => exact later.mono le
  | @cons low t rest behind wide _ ih =>
    obtain ⟨stops, others⟩ := List.forall_mem_cons.1 within
    exact .cons behind wide (ih others stops)

theorem wide (ordered : Ordered low ts) : ∀ t ∈ ts, low ≤ t.start ∧ t.start < t.stop := by
  induction ordered with
  | nil low => exact List.forall_mem_nil _
  | @cons low t rest behind wide _ ih =>
    refine List.forall_mem_cons.2 ⟨⟨behind, wide⟩, ?_⟩
    intro u mem
    have := ih u mem
    omega

/-- Tokens in order do not overlap. -/
theorem pairwise (ordered : Ordered low ts) : ts.Pairwise fun a b => a.stop ≤ b.start := by
  induction ordered with
  | nil low => exact .nil
  | cons _ _ later ih => exact List.pairwise_cons.2 ⟨fun u mem => (later.wide u mem).1, ih⟩

end Ordered

/-- Where the place of an open token begins: at its first character, or at the quote before it. -/
def Pending.floor (p : Pending) (quoted : Bool) : Int :=
  if quoted then (p.start : Int) - 1 else p.start

theorem Pending.floor_le (p : Pending) (quoted : Bool) : p.floor quoted ≤ p.start := by
  unfold floor
  split <;> omega

/-- The open token began no later than here, and earlier if it has characters. -/
structure Sits (index : Nat) (p : Pending) : Prop where
  start_le : p.start ≤ index
  start_lt : p.chars ≠ [] → p.start < index

theorem Sits.fresh (index : Nat) : Sits index (openAt index none) :=
  ⟨Nat.le_refl _, fun chars => absurd rfl chars⟩

/-- One character further the open token began earlier, whatever characters it has by then. -/
theorem Sits.onward {index : Nat} {p q : Pending} (sits : Sits index p) (same : q.start = p.start) :
    Sits (index + 1) q := by
  have start_le := sits.start_le
  exact ⟨by omega, fun _ => by omega⟩

/-- A token that is closed stands between where it began and where it is closed. -/
theorem close_ordered {index stop : Nat} {p : Pending} {quoted : Bool} {later : List Token}
    (sits : Sits index p) (behind : index ≤ stop) (ordered : Ordered stop later) :
    Ordered (p.floor quoted) (p.close quoted stop ++ later) := by
  have floor_le := p.floor_le quoted
  have start_le := sits.start_le
  unfold Pending.close
  split
  · exact ordered.mono (by omega)
  · rename_i chars
    have start_lt := sits.start_lt fun nil => chars (List.isEmpty_iff.2 nil)
    refine .cons (Int.le_refl _) ?_ ordered
    show p.floor quoted < (stop : Int)
    omega

/-- The tokens that are scanned stand in order, the open one in front. -/
theorem scan_ordered {index : Nat} {pending : Option Pending} {escaped quoted : Bool}
    {cs : List Char} (sits : Sits index (openAt index pending)) :
    Ordered ((openAt index pending).floor quoted) (scan index pending escaped quoted cs) := by
  induction cs generalizing index pending escaped quoted with
  | nil =>
    cases pending with
    | none => exact .nil _
    | some p =>
      have closed : Ordered (p.floor quoted) (p.close quoted index ++ []) :=
        close_ordered sits (Nat.le_refl _) (.nil index)
      rwa [List.append_nil] at closed
  | cons c rest ih =>
    -- The open token stays open, or it is closed and the next one begins behind it.
    have stays : ∀ p escaped, p.start = (openAt index pending).start →
        Ordered ((openAt index pending).floor quoted)
          (scan (index + 1) (some p) escaped quoted rest) := by
      intro p escaped same
      have further : Sits (index + 1) (openAt (index + 1) (some p)) := sits.onward same
      have scanned : Ordered (p.floor quoted) (scan (index + 1) (some p) escaped quoted rest) :=
        ih further
      unfold Pending.floor at scanned ⊢
      rw [← same]
      exact scanned
    have begins : ∀ quoted, Ordered (if quoted then (index : Int) else (index + 1 : Nat))
        (scan (index + 1) none false quoted rest) := by
      intro quoted
      have scanned : Ordered (Pending.floor ⟨[], index + 1⟩ quoted)
          (scan (index + 1) none false quoted rest) := ih (.fresh _)
      refine scanned.mono ?_
      cases quoted with
      | false => exact Int.le_refl _
      | true =>
        show (index : Int) ≤ ((index + 1 : Nat) : Int) - 1
        omega
    rw [scan]
    split
    · exact stays _ false rfl
    · split
      · exact stays _ true rfl
      · split
        · cases quoted with
          | false => exact close_ordered sits (Nat.le_refl _) (begins true)
          | true => exact close_ordered sits (Nat.le_succ _) (begins false)
        · split
          · rename_i blank
            have plain : quoted = false := by
              cases quoted with
              | false => rfl
              | true => cases blank
            subst plain
            have later := (begins false).mono (Int.ofNat_le.2 (Nat.le_succ index))
            exact close_ordered sits (Nat.le_refl _) later
          · exact stays _ false rfl

/-- The tokens of a line stand in order. -/
theorem tokenize_ordered (source : String) (start : Nat) :
    Ordered start (tokenize source start) := by
  have sits := Sits.fresh start
  exact @scan_ordered start none false false _ sits

end CommandGrammar.Token
