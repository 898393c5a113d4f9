import CommandGrammar.Fault.Given

/-!
# Excerpts of faults

The offsets of a fault are any whole numbers, and its token may have any place, so a fault may point
in front of its line, behind it, or backwards. Its excerpt is cut out of the line all the same: the
marks stand around what the line has inside the place, with as much context on each side as there is
and is asked for (`Excerpt.cutFrom_around`). Whatever becomes of a fault, if it has a token and a
line then it is shown as such an excerpt (`render_faithful`). It is told with the excerpt and with
the column, which may have too many digits for that (`exists_text_iff`).
-/

namespace CommandGrammar

namespace Fault

/-- The characters of a line that stand inside a place, whatever offsets the place has. -/
def inside (place : Int × Int) (line : List Char) : List Char :=
  (line.zipIdx.filter fun (_, i) => place.1 ≤ i ∧ i < place.2).map Prod.fst

/-- The characters that stand between two offsets, where the first one stands at a third. -/
theorem filter_zipIdx (a b : Int) (k : Nat) (cs : List Char) :
    ((cs.zipIdx k).filter fun (_, i) => a ≤ i ∧ i < b).map Prod.fst =
      (cs.take (b.toNat - k)).drop (a.toNat - k) := by
  -- All offsets that occur are natural numbers, so a negative bound may as well be zero.
  induction cs generalizing k with
  | nil => simp
  | cons c rest ih =>
    rw [List.zipIdx_cons, List.filter_cons]
    by_cases below : (k : Int) < b
    · have taken : b.toNat - k = b.toNat - (k + 1) + 1 := by omega
      rw [taken, List.take_succ_cons]
      by_cases above : a ≤ k
      · have kept : a.toNat - k = 0 := by omega
        have kept' : a.toNat - (k + 1) = 0 := by omega
        rw [if_pos (by simpa using ⟨above, below⟩), List.map_cons, ih, kept, kept', List.drop_zero,
          List.drop_zero]
      · have dropped : a.toNat - k = a.toNat - (k + 1) + 1 := by omega
        rw [if_neg (by simp [above]), ih, dropped, List.drop_succ_cons]
    · have none : b.toNat - k = 0 := by omega
      have none' : b.toNat - (k + 1) = 0 := by omega
      rw [if_neg (by simp [below]), ih, none, none', List.take_zero, List.take_zero, List.drop_nil,
        List.drop_nil]

/-- What is inside a place is a slice of the line, in which an offset in front of the line counts as
its beginning. -/
theorem inside_eq (a b : Int) (line : List Char) :
    inside (a, b) line = (line.take b.toNat).drop a.toNat :=
  filter_zipIdx a b 0 line

/-- To cut a place down to the line takes nothing off what is in front of it. -/
theorem take_clamp (place : Int × Int) (line : List Char) :
    line.take (clamp line.length place).1 = inside (0, place.1) line := by
  rw [inside_eq, clamp, ← List.take_eq_take_min, Int.toNat_zero, List.drop_zero]

/-- To cut a place down to the line takes nothing off what is inside it. -/
theorem drop_take_clamp (place : Int × Int) (line : List Char) :
    (line.take (clamp line.length place).2).drop (clamp line.length place).1 =
      inside place line := by
  obtain ⟨a, b⟩ := place
  rw [inside_eq, clamp]
  dsimp only
  by_cases empty : b.toNat ≤ a.toNat ∨ line.length ≤ a.toNat
  · -- The place is backwards or behind the line, and is cut down to one point of it.
    rw [List.drop_eq_nil_of_le, List.drop_eq_nil_of_le]
    · rw [List.length_take]
      omega
    · rw [List.length_take]
      omega
  · have left : min a.toNat line.length = a.toNat := by omega
    have right : max a.toNat b.toNat = b.toNat := by omega
    rw [left, right, ← List.take_eq_take_min]

namespace Excerpt

/-- An excerpt is cut out of a line at a place: with what is left of the line before and after it,
its parts are the whole line. Its middle is what the line has inside the place, and its left side
ends where the place begins. A side is shorter than the width only if it goes to that end of the
line. -/
structure CutFrom (line : List Char) (place : Int × Int) (width : Nat) (e : Excerpt)
    (before after : List Char) : Prop where
  parts : line = before ++ (e.left ++ e.middle ++ e.right) ++ after
  left_le : e.left.length ≤ width
  right_le : e.right.length ≤ width
  begins : e.left.length < width → before = []
  ends : e.right.length < width → after = []
  ahead : before ++ e.left = inside (0, place.1) line
  middle_eq : e.middle = inside place line

/-- The excerpt around a place that is cut down to the line is cut out at the place as it was. -/
theorem cutFrom_around (line : List Char) (place : Int × Int) (width : Nat) :
    let (left, right) := clamp line.length place
    (around line left right width).CutFrom line place width
      (line.take (left - width)) (line.drop (right + width)) := by
  obtain ⟨left_le_right, right_le⟩ := clamp_le line.length place
  have ahead := take_clamp place line
  have middle := drop_take_clamp place line
  dsimp only
  generalize (clamp line.length place).1 = left at *
  generalize (clamp line.length place).2 = right at *
  refine ⟨?_, length_left_around_le .., length_right_around_le .., ?_, ?_, ?_, middle⟩
  · have last : right + width = left - width + (right + width - (left - width)) := by omega
    have rest : line.drop (right + width) =
        (line.drop (left - width)).drop (right + width - (left - width)) := by
      rw [List.drop_drop, ← last]
    rw [around_append line width left_le_right, List.append_assoc, rest, List.take_append_drop,
      List.take_append_drop]
  · intro short
    simp only [around, List.length_drop, List.length_take] at short
    rw [show left - width = 0 by omega, List.take_zero]
  · intro short
    simp only [around, List.length_take, List.length_drop] at short
    exact List.drop_eq_nil_of_le (by omega)
  · have first : line.take (left - width) = (line.take left).take (left - width) := by
      rw [List.take_take, Nat.min_eq_left (Nat.sub_le _ _)]
    rw [first, around, List.take_append_drop, ahead]

end Excerpt

variable {f : Fault} {t : Token} {line : String}

/-- A fault with a token and a line has an excerpt, which is cut out of the line. -/
theorem excerpt_cutFrom (joined : String → Refusal) (token : f.token = .token t)
    (command : f.command = .str line) (width : Nat) :
    ∃ (e : Excerpt) (before after : List Char), f.excerpt joined width = .ok (some e) ∧
      e.CutFrom line.toList (t.start + f.start, t.stop - f.stop) width before after := by
  refine ⟨_, _, _, ?_, Excerpt.cutFrom_around line.toList _ width⟩
  rw [excerpt, token, command]
  rfl

/-- The widths are the whole numbers that are not negative. -/
theorem widthOf_eq_ok_iff {v : Value} {width : Nat} :
    widthOf v = .ok width ↔ v.number? = some (.int width) := by
  cases v with
  | int n =>
    by_cases negative : n < 0
    · simp [widthOf, Value.number?, negative, throw, throwThe, MonadExceptOf.throw]
      omega
    · simp [widthOf, Value.number?, negative, pure, Except.pure]
      omega
  | bool b => cases b <;> simp [widthOf, Value.number?, pure, Except.pure] <;> omega
  | _ => simp [widthOf, Value.number?, throw, throwThe, MonadExceptOf.throw]

/-- However a fault was had, if it has a token and a line then it is rendered as an excerpt with the
middle in marks, and this excerpt is cut out of the line at the place of the fault, whatever its
offsets are and wherever its token stands. -/
theorem render_faithful {v : Value} {width : Nat} (token : f.token = .token t)
    (command : f.command = .str line) (counts : v.number? = some (.int width)) :
    ∃ (e : Excerpt) (before after : List Char),
      f.renderWith v =
        .ok (String.ofList (e.left ++ ['>', '>'] ++ e.middle ++ ['<', '<'] ++ e.right)) ∧
      e.CutFrom line.toList (t.start + f.start, t.stop - f.stop) width before after := by
  obtain ⟨e, before, after, shown, cut⟩ := excerpt_cutFrom .lineNotText token command width
  refine ⟨e, before, after, ?_, cut⟩
  rw [renderWith, widthOf_eq_ok_iff.2 counts]
  show f.render width = _
  rw [render, shown]
  rfl

/-- The place begins behind the line and ends in front of it. -/
theorem render_faithful_reversed : ∃ f g : Fault,
    ofCall .malformedValue [.str "not a letter", .token ⟨"c", 4, 5, false⟩]
      [("start", .int 10), ("end", .int 20)] = .ok f ∧
    f.annotate .keeping (.str "a b c") = .ok g ∧ g.renderWith (.int 3) = .ok "b c>><<" ∧
    ∃ (e : Excerpt) (before after : List Char),
      g.renderWith (.int 3) =
        .ok (String.ofList (e.left ++ ['>', '>'] ++ e.middle ++ ['<', '<'] ++ e.right)) ∧
      e.CutFrom "a b c".toList (14, -15) 3 before after := by
  have made : ofCall .malformedValue [.str "not a letter", .token ⟨"c", 4, 5, false⟩]
      [("start", .int 10), ("end", .int 20)] =
      .ok (.ofToken .malformedValue "not a letter" ⟨"c", 4, 5, false⟩ 10 20) := rfl
  have noted := annotate_of_plain (f := .ofToken .malformedValue "not a letter"
    ⟨"c", 4, 5, false⟩ 10 20) .keeping rfl rfl rfl "a b c"
  refine ⟨_, _, made, noted, rfl, ?_⟩
  exact render_faithful (f := { Fault.ofToken _ _ _ _ _ with command := .str "a b c" })
    (v := .int 3) rfl rfl rfl

/-! ## Faults as reports -/

/-- The excerpt fails to be made only for a token or a line that is neither null nor of its type. -/
theorem excerpt_eq_ok {joined : String → Refusal} {width : Nat} {e : Option Excerpt}
    (shown : f.excerpt joined width = .ok e) :
    f.token = .null ∨ f.command = .null ∨ ∃ t line, f.token = .token t ∧ f.command = .str line := by
  unfold excerpt at shown
  split at shown
  · rename_i token
    exact .inl token
  · rename_i command _
    exact .inr (.inl command)
  · rename_i t line token command
    exact .inr (.inr ⟨t, line, token, command⟩)
  · cases shown
  · cases shown

/-- A fault with a token and a line is told with its column, if that can be written. -/
theorem text_of_located (token : f.token = .token t) (command : f.command = .str line) :
    ∃ shown, f.text = (decimal (t.start + f.start + 1)).map fun column =>
      f.message ++ "\n    at column " ++ column ++ "\n    " ++ shown := by
  obtain ⟨e, -, -, excerpt, -⟩ := excerpt_cutFrom .lineNotText token command contextWidth
  have column : f.column = some (t.start + f.start + 1) := by
    rw [Fault.column, span, token]
    rfl
  refine ⟨String.ofList e.write, ?_⟩
  rw [text, excerpt, column]
  dsimp only [bind, Except.bind]
  generalize decimal (t.start + f.start + 1) = written
  cases written <;> rfl

/-- A fault can be told unless it has both a token and a line, and what stands in their places is no
token or no text, or the column has too many digits to be written. -/
theorem exists_text_iff : (∃ reply, f.text = .ok reply) ↔
    f.token = .null ∨ f.command = .null ∨ ∃ t line, f.token = .token t ∧
      f.command = .str line ∧ (t.start + f.start + 1).natAbs < decimalLimit := by
  constructor
  · rintro ⟨reply, told⟩
    cases excerpt : f.excerpt .lineNotText contextWidth with
    | error r =>
      rw [text, excerpt] at told
      cases told
    | ok e =>
      rcases excerpt_eq_ok excerpt with token | command | ⟨t, line, token, command⟩
      · exact .inl token
      · exact .inr (.inl command)
      · refine .inr (.inr ⟨t, line, token, command, Decidable.byContradiction fun long => ?_⟩)
        obtain ⟨shown, text⟩ := text_of_located token command
        rw [text, decimal, if_neg long] at told
        cases told
  · rintro (token | command | ⟨t, line, token, command, short⟩)
    · refine ⟨f.message, ?_⟩
      rw [text, excerpt, token]
      rfl
    · refine ⟨f.message, ?_⟩
      rw [text, excerpt, command]
      cases f.token <;> rfl
    · obtain ⟨shown, text⟩ := text_of_located token command
      rw [text, decimal, if_pos short]
      exact ⟨_, rfl⟩

end Fault

end CommandGrammar
