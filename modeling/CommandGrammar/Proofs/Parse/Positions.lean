import CommandGrammar.Proofs.Parse.Course
import CommandGrammar.Proofs.Parse.Safety

/-!
# Tables of positions

The scanner of a line drops escaping backslashes in one pass, and the table of a token's positions
skips them in another one. The two agree: for each character of an unquoted token's text the table
has the offset at which this character stands in the line, and behind them the offset at which the
token stops (`Token.Placed.tabulated`). So it is for the tokens of a line and for each token that is
taken as a flag in a parse (`positions_exact`).
-/

namespace CommandGrammar

namespace Token

/-- The kept characters stand in the line at the kept offsets. -/
theorem getElem?_keptOffsets {all cs tail : List Char} {index i : Nat} {escaped : Bool} {c : Char}
    (here : all.drop index = cs ++ tail) (hc : (keptChars escaped cs)[i]? = some c) :
    ∃ a : Nat, (keptOffsets index escaped cs)[i]? = some (a : Int) ∧ all[a]? = some c := by
  induction cs generalizing index escaped i with
  | nil => simp [keptChars] at hc
  | cons d rest ih =>
    have first : all[index]? = some d := by
      rw [← List.head?_drop, here, List.cons_append, List.head?_cons]
    have behind : all.drop (index + 1) = rest ++ tail := by
      rw [← List.tail_drop, here, List.cons_append, List.tail_cons]
    rw [keptChars] at hc
    rw [keptOffsets]
    by_cases dropped : (d = '\\' && !escaped) = true
    · rw [if_pos dropped] at hc ⊢
      exact ih behind hc
    · rw [if_neg dropped] at hc ⊢
      cases i with
      | zero =>
        rw [List.getElem?_cons_zero] at hc
        exact ⟨index, rfl, first.trans hc⟩
      | succ i =>
        rw [List.getElem?_cons_succ] at hc ⊢
        exact ih behind hc

/-- The table of a token's positions has an entry for each character of its text and one more. The
entries go up within the token's place, the last one is where the token stops, and each of the
others is where its character stands in the line. -/
structure Tabulated (source : String) (t : Token) : Prop where
  length : (t.positions source).length = t.text.length + 1
  ascending : (t.positions source).Pairwise (· < ·)
  within : ∀ a ∈ t.positions source, t.start ≤ a ∧ a ≤ t.stop
  last : (t.positions source).getLast? = some t.stop
  chars : ∀ (i : Nat) (c : Char), t.text.toList[i]? = some c →
    ∃ a : Nat, (t.positions source)[i]? = some (a : Int) ∧ source.toList[a]? = some c

/-- The table of a token in its place is exact. -/
theorem Placed.tabulated {source : String} {t : Token} (placed : t.Placed source) :
    t.Tabulated source where
  length := by rw [placed.length_positions, String.length_toList]
  ascending := placed.positions_sorted
  within a mem := by
    obtain ⟨i, found⟩ := List.getElem?_of_mem mem
    exact placed.position_within found
  last := by rw [positions, List.getLast?_concat]
  chars i c hc := by
    have here : source.toList.drop t.start.toNat = t.excerpt source ++
        (source.toList.drop t.start.toNat).drop (t.stop - t.start).toNat :=
      (List.take_append_drop _ _).symm
    rw [← placed.chars] at hc
    obtain ⟨a, found, stands⟩ := getElem?_keptOffsets here hc
    refine ⟨a, ?_, stands⟩
    have inside := (List.getElem?_eq_some_iff.1 found).1
    rw [positions, List.getElem?_append_left inside]
    exact found

end Token

namespace Parser

/-- In a command, a token is taken as a flag: on its level, on that of a sub-command, or in the
trial of an alternative, accepted or not. -/
def TakesFlag (p : Parser) (active : Bool) (s : State) (n : Schema Value) (token : Token) : Prop :=
  ∃ m x c rest, p.Comes false active s n m x ∧ x.state.next? = some token ∧
    spells x.active token = some (c, rest) ∧ p.endsFlags token = false

/-- The tables of positions are exact for the unquoted tokens of a line and for all tokens that are
taken as flags when the line is parsed. -/
theorem positions_exact (p : Parser) (start : Nat) :
    (∀ t ∈ Token.tokenize p.source start, t.quoted = false → t.Tabulated p.source) ∧
    ∀ schema token, p.TakesFlag p.options.parseFlags (p.initial start) schema token →
      token.Tabulated p.source := by
  have exact : ∀ t ∈ Token.tokenize p.source start, t.quoted = false → t.Tabulated p.source :=
    fun t mem plain => (Token.placed_of_mem_tokenize mem plain).tabulated
  refine ⟨exact, ?_⟩
  rintro schema token ⟨m, x, c, rest, comes, next, flagged, -⟩
  -- A token that is met was left where the parse began: a value that is cut off is never met.
  have mem : token ∈ x.state.left := by
    rw [State.left_eq_cons next]
    exact List.mem_cons_self
  have plain := (Token.toList_of_flagChars? (spells_eq_some flagged).2).1
  exact exact token (comes.left.subset mem) plain

/-- A flag whose equals sign is escaped, with a backslash at the end of its value. -/
theorem positions_exact_calculator :
    let p := forLine "-t\\=\\\\5\\"
    let token : Token := ⟨"-t=\\5", 0, 8, false⟩
    p.TakesFlag true (p.initial 0) calculator token ∧ token.Tabulated p.source ∧
      token.positions p.source = [0, 1, 3, 5, 6, 8] := by
  intro p token
  have takes : p.TakesFlag true (p.initial 0) calculator token :=
    ⟨calculator, ⟨true, calculator.args, p.initial 0⟩, 't', ['=', '\\', '5'], .level .refl,
      by decide +kernel, by decide +kernel, by decide +kernel⟩
  exact ⟨takes, (positions_exact p 0).2 calculator token takes, by decide +kernel⟩

end Parser

end CommandGrammar
