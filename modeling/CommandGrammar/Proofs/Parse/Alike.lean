import CommandGrammar.Proofs.Parse.Descent
import Mathlib.Data.List.Forall2

/-!
# Tokens, faults and states that are alike

The offsets of two lines may correspond in any way. Tokens are alike if they have the same text, and
faults if they have the same kind and message, at places that correspond. Each fault that a parse
makes of a token is alike if the tokens are.
-/

namespace CommandGrammar

variable {offsets : Int → Int → Prop}

theorem getElem?_rel {α β : Type} {R : α → β → Prop} {xs : List α} {ys : List β}
    (h : xs.Forall₂ R ys) (i : Nat) : xs[i]?.Rel R ys[i]? := by
  induction h generalizing i with
  | nil => exact .none
  | cons head _ ih =>
    cases i with
    | zero => exact .some head
    | succ i =>
      rw [List.getElem?_cons_succ, List.getElem?_cons_succ]
      exact ih i

/-- Ends of the same length of lists that are related are related. -/
theorem forall₂_of_suffix {α β : Type} {R : α → β → Prop} {xs xs' : List α} {ys ys' : List β}
    (h : xs.Forall₂ R ys) (hx : xs' <:+ xs) (hy : ys' <:+ ys) (length : xs'.length = ys'.length) :
    xs'.Forall₂ R ys' := by
  rw [List.suffix_iff_eq_drop] at hx hy
  rw [hx, hy, h.length_eq, length]
  exact List.forall₂_drop _ h

/-! ## Tokens and faults at places that correspond -/

/-- Tokens with the same text, at places that correspond. -/
structure Token.Alike (offsets : Int → Int → Prop) (a b : Token) : Prop where
  text : a.text = b.text
  start : offsets a.start b.start
  stop : offsets a.stop b.stop

/-- Tokens that are alike and, where flags may be active, spell flags alike: both or neither of them
are quoted, and the positions of their characters correspond. -/
structure Token.ReadsAlike (live : Prop) (offsets : Int → Int → Prop) (line line' : String)
    (a b : Token) : Prop extends Token.Alike offsets a b where
  quoted : live → a.quoted = b.quoted
  positions : live → a.quoted = false → (a.positions line).Forall₂ offsets (b.positions line')

/-- Fresh faults of the same kind and with the same message, at places that correspond. -/
structure Fault.Alike (offsets : Int → Int → Prop) (f g : Fault) : Prop where
  kind : f.kind = g.kind
  message : f.message = g.message
  span : f.span.Rel (fun a b => offsets a.1 b.1 ∧ offsets a.2 b.2) g.span
  fresh : f.Fresh ∧ g.Fresh

/-- Places that correspond to those of a line are moved as its offsets are. -/
theorem Fault.Alike.span_shift {f g : Fault} {k : Int}
    (h : f.Alike (fun a b => b = a + k) g) :
    g.span = f.span.map fun place => (place.1 + k, place.2 + k) := by
  have hspan := h.span
  generalize f.span = place at hspan
  generalize g.span = place' at hspan
  cases hspan with
  | none => rfl
  | some h => exact congrArg some (Prod.ext h.1 h.2)

/-- Halts that are alike. -/
inductive Halt.Alike (offsets : Int → Int → Prop) : Halt → Halt → Prop
  | fault {f g : Fault} (h : f.Alike offsets g) : Alike offsets (.fault f) (.fault g)
  | crash (c : Crash) : Alike offsets (.crash c) (.crash c)

theorem Token.ReadsAlike.flagChars? {live : Prop} {line line' : String} {a b : Token}
    (h : a.ReadsAlike live offsets line line' b) (flagging : live) :
    a.flagChars? = b.flagChars? := by
  rw [Token.flagChars?, Token.flagChars?, h.quoted flagging, h.text]

theorem Token.alike_endOf {line line' : String} (h : offsets line.length line'.length) :
    (Token.endOf line).Alike offsets (Token.endOf line') :=
  ⟨rfl, h, h⟩

namespace Fault

variable {kind : FaultKind} {message : String} {a b : Token}

theorem alike_ofToken {i j i' j' : Int} (listed : kind ∈ FaultKind.all)
    (start : offsets (a.start + i) (b.start + i')) (stop : offsets (a.stop - j) (b.stop - j')) :
    (ofToken kind message a i j).Alike offsets (ofToken kind message b i' j') :=
  ⟨rfl, rfl, .some ⟨start, stop⟩, fresh_ofToken listed, fresh_ofToken listed⟩

/-- Faults of whole tokens. -/
theorem alike_at (listed : kind ∈ FaultKind.all) (h : a.Alike offsets b) :
    (ofToken kind message a 0 0).Alike offsets (ofToken kind message b 0 0) := by
  apply alike_ofToken listed
  · rw [Int.add_zero, Int.add_zero]
    exact h.start
  · rw [Int.sub_zero, Int.sub_zero]
    exact h.stop

theorem alike_broken (c : Crash) : (broken c).Alike offsets (broken c) :=
  ⟨rfl, rfl, .none, fresh_broken c, fresh_broken c⟩

end Fault

namespace Halt

variable {a b : Token} {table table' : List Int}

theorem alike_at {kind : FaultKind} {message : String} (listed : kind ∈ FaultKind.all)
    (h : a.Alike offsets b) :
    Halt.Alike offsets (.fault (.ofToken kind message a 0 0))
      (.fault (.ofToken kind message b 0 0)) :=
  .fault (Fault.alike_at listed h)

/-- Faults of a token from one of its positions on. -/
theorem alike_from {kind : FaultKind} {message : String} {i j : Int}
    (listed : kind ∈ FaultKind.all) (h : a.Alike offsets b) (start : offsets i j) :
    Halt.Alike offsets (.fault (.ofToken kind message a (i - a.start) 0))
      (.fault (.ofToken kind message b (j - b.start) 0)) := by
  have hstart : a.start + (i - a.start) = i := by omega
  have hstart' : b.start + (j - b.start) = j := by omega
  refine .fault (Fault.alike_ofToken listed ?_ ?_)
  · rw [hstart, hstart']
    exact start
  · rw [Int.sub_zero, Int.sub_zero]
    exact h.stop

/-- Faults of a token from one of its positions to another. -/
theorem alike_between {kind : FaultKind} {message : String} {i i' j j' : Int}
    (listed : kind ∈ FaultKind.all) (start : offsets i j) (stop : offsets i' j') :
    Halt.Alike offsets (.fault (.ofToken kind message a (i - a.start) (a.stop - i')))
      (.fault (.ofToken kind message b (j - b.start) (b.stop - j'))) := by
  have hstart : a.start + (i - a.start) = i := by omega
  have hstart' : b.start + (j - b.start) = j := by omega
  refine .fault (Fault.alike_ofToken listed ?_ ?_)
  · rw [hstart, hstart']
    exact start
  · rw [Int.sub_sub_self, Int.sub_sub_self]
    exact stop

theorem alike_unrecognizedFlag (h : a.Alike offsets b) (tables : table.Forall₂ offsets table')
    (name : List Char) :
    Halt.Alike offsets (.unrecognizedFlag a table name) (.unrecognizedFlag b table' name) := by
  have hstart := getElem?_rel tables 2
  unfold unrecognizedFlag
  generalize table[2]? = start at hstart
  generalize table'[2]? = start' at hstart
  cases hstart with
  | none => exact .crash _
  | some hstart => exact alike_from (by decide) h hstart

theorem alike_unknownOption (tables : table.Forall₂ offsets table') (offset : Nat) (code : Char) :
    Halt.Alike offsets (.unknownOption a table offset code)
      (.unknownOption b table' offset code) := by
  have hstart := getElem?_rel tables offset
  have hstop := getElem?_rel tables (offset + 1)
  unfold unknownOption
  generalize table[offset]? = start at hstart
  generalize table'[offset]? = start' at hstart
  generalize table[offset + 1]? = stop at hstop
  generalize table'[offset + 1]? = stop' at hstop
  cases hstart with
  | none => exact .crash _
  | some hstart =>
    cases hstop with
    | none => exact .crash _
    | some hstop => exact alike_between (by decide) hstart hstop

theorem alike_flagAssignment {next next' : Option Token} (h : a.Alike offsets b)
    (tables : table.Forall₂ offsets table') (hnext : next.Rel (Token.Alike offsets) next')
    (stop : Nat) (value : List Char) :
    Halt.Alike offsets (.flagAssignment a table next stop value)
      (.flagAssignment b table' next' stop value) := by
  have hstart := getElem?_rel tables stop
  have hstop := getElem?_rel tables (stop + 1)
  unfold flagAssignment
  rw [h.text]
  generalize table[stop]? = i at hstart
  generalize table'[stop]? = i' at hstart
  generalize table[stop + 1]? = j at hstop
  generalize table'[stop + 1]? = j' at hstop
  cases value with
  | cons c rest =>
    cases hstop with
    | none => exact .crash _
    | some hstop => exact alike_from (by decide) h hstop
  | nil =>
    cases hnext with
    | some hnext => exact alike_at (by decide) hnext
    | none =>
      cases hstart with
      | none => exact .crash _
      | some hstart =>
        cases hstop with
        | none => exact .crash _
        | some hstop => exact alike_between (by decide) hstart hstop

theorem alike_tooManyArguments {line line' : String} (h : a.Alike offsets b)
    (stop : offsets line.length line'.length) :
    Halt.Alike offsets (.tooManyArguments line a) (.tooManyArguments line' b) := by
  refine .fault (Fault.alike_ofToken (by decide) ?_ ?_)
  · rw [Int.add_zero, Int.add_zero]
    exact h.start
  · rw [Int.sub_sub_self, Int.sub_sub_self]
    exact stop

end Halt

/-- A token that is cut is cut into as many pieces as one that is like it, and the pieces behind the
first are alike. -/
theorem Token.cut?_alike {a b : Token} {table table' : List Int} (h : a.Alike offsets b)
    (tables : table.Forall₂ offsets table') (stop : Nat) (value : List Char) :
    (a.cut? table stop value).Rel
      (fun pieces pieces' => ∃ x y xs ys, pieces = x :: xs ∧ pieces' = y :: ys ∧
        xs.Forall₂ (Token.Alike offsets) ys) (b.cut? table' stop value) := by
  have hstart := getElem?_rel tables stop
  have hstop := getElem?_rel tables (stop + 1)
  unfold cut?
  generalize table[stop]? = i at hstart
  generalize table'[stop]? = i' at hstart
  generalize table[stop + 1]? = j at hstop
  generalize table'[stop + 1]? = j' at hstop
  cases hstart with
  | none => exact .none
  | some hstart =>
    cases value with
    | nil => exact .some ⟨_, _, [], [], rfl, rfl, .nil⟩
    | cons c rest =>
      cases hstop with
      | none => exact .none
      | some hstop => exact .some ⟨_, _, [_], [_], rfl, rfl, .cons ⟨rfl, hstop, h.stop⟩ .nil⟩

/-! ## States that stand at words that are alike -/

/-- States with related tokens left and the same result. -/
structure State.Alike (tokens : Token → Token → Prop) (s t : State) : Prop where
  left : s.left.Forall₂ tokens t.left
  result : s.result = t.result

namespace State.Alike

variable {tokens tokens' : Token → Token → Prop} {s t u v : State}

theorem mono (h : s.Alike tokens t) (le : ∀ a b, tokens a b → tokens' a b) :
    s.Alike tokens' t :=
  ⟨h.left.imp le, h.result⟩

theorem hearing (h : s.Alike tokens t) (events others : List Event) :
    (s.hearing events).Alike tokens (t.hearing others) :=
  ⟨h.left, h.result⟩

theorem write (h : s.Alike tokens t) (dest : String) (v : Value) :
    (s.write dest v).Alike tokens (t.write dest v) :=
  ⟨h.left, congrArg (Mapping.insert · dest v) h.result⟩

theorem mark (h : s.Alike tokens t) (dest : String) : (s.mark dest).Alike tokens (t.mark dest) :=
  h.write dest _

theorem foldl_mark (h : s.Alike tokens t) (marks : List String) :
    (marks.foldl State.mark s).Alike tokens (marks.foldl State.mark t) := by
  induction marks generalizing s t with
  | nil => exact h
  | cons dest rest ih => exact ih (h.mark dest)

theorem skip (h : s.Alike tokens t) (count : Nat) :
    State.Alike tokens { s with index := s.index + count } { t with index := t.index + count } := by
  refine ⟨?_, h.result⟩
  rw [State.left, State.left, ← List.drop_drop, ← List.drop_drop]
  exact List.forall₂_drop count h.left

theorem advance (h : s.Alike tokens t) : s.advance.Alike tokens t.advance := h.skip 1

theorem next? (h : s.Alike tokens t) : s.next?.Rel tokens t.next? := by
  have hleft := h.left
  rw [State.next?_eq_head?, State.next?_eq_head?]
  generalize s.left = xs at hleft
  generalize t.left = ys at hleft
  cases hleft with
  | nil => exact .none
  | cons head _ => exact .some head

theorem left_eq_nil (h : s.Alike tokens t) : s.left = [] ↔ t.left = [] := by
  rw [← List.length_eq_zero_iff, ← List.length_eq_zero_iff, h.left.length_eq]

theorem merge (h : s.Alike tokens t) (h' : u.Alike tokens v) :
    State.Alike tokens { u with result := s.result.merge u.result }
      { v with result := t.result.merge v.result } :=
  ⟨h'.left, by rw [h.result, h'.result]⟩

/-- Behind a flag token, its inline value and the other tokens that were left are left. -/
theorem cut {a b x y : Token} {xs ys : List Token} (h : s.Alike tokens t)
    (next : s.next? = some a) (next' : t.next? = some b) (inline : xs.Forall₂ tokens ys) :
    State.Alike tokens { s with tokens := replaceAt s.tokens s.index (x :: xs) }.advance
      { t with tokens := replaceAt t.tokens t.index (y :: ys) }.advance := by
  refine ⟨?_, h.result⟩
  have left : (replaceAt s.tokens s.index (x :: xs)).drop (s.index + 1) =
      xs ++ s.advance.left := drop_replaceAt x (State.index_lt_of_next? next)
  have left' : (replaceAt t.tokens t.index (y :: ys)).drop (t.index + 1) =
      ys ++ t.advance.left := drop_replaceAt y (State.index_lt_of_next? next')
  rw [State.left, State.left]
  dsimp only [State.advance]
  rw [left, left']
  exact List.rel_append inline h.advance.left

end State.Alike

end CommandGrammar
