import CommandGrammar.Proofs.Parse.Handing
import Mathlib.Data.List.TakeWhile

/-!
# How far the arguments of a flag are supplied

The arguments of a flag are converted in their order, each from the tokens that the one before it
has left, up to one that cannot be converted, because the tokens have run out or because its
conversion fails. This one and all that come after it take their defaults. The flag fails if one of
them is required, or if the first argument of a flag with an equals sign is among them, and then
with what went wrong first (`flag_supply`). A crash is made up for by nothing.
-/

namespace CommandGrammar

namespace Spelling

theorem afterEquals_ne_none_iff {cs : List Char} : afterEquals cs ≠ none ↔ '=' ∈ cs := by
  constructor
  · intro some
    obtain ⟨value, found⟩ := Option.ne_none_iff_exists'.1 some
    rw [afterEquals_eq_some found]
    exact List.mem_append_right _ List.mem_cons_self
  · intro mem none
    unfold afterEquals at none
    split at none
    · rename_i nil
      have different := List.dropWhile_eq_nil_iff.1 nil '=' mem
      simp at different
    · cases none

/-- There is a value, perhaps an empty one, where there is an equals sign. -/
theorem value_ne_none_iff {c : Char} {rest : List Char} :
    (ofChars c rest).value ≠ none ↔ '=' ∈ c :: rest := by
  unfold ofChars
  split
  · rename_i dash
    rw [afterEquals_ne_none_iff, List.mem_cons, dash]
    simp
  · exact afterEquals_ne_none_iff

end Spelling

namespace Parser

variable {p : Parser} {flags : List (Flag Value)} {token : Token} {c : Char} {rest : List Char}
  {f : Flag Value} {marks : List String} {inline inline' : Bool} {a : Argument Value}
  {args missing : List (Argument Value)} {s t u : State} {h : Halt}

/-- What the arguments of a flag are taken from: the tokens behind the flag, and before them the
value behind its equals sign, unless it is empty. -/
inductive Offers (p : Parser) (token : Token) (c : Char) (rest : List Char) (behind : List Token) :
    List Token → Prop
  | plain (empty : (Spelling.ofChars c rest).value.getD [] = []) :
      Offers p token c rest behind behind
  | inline {head value : Token} (cutOff : p.CutOff token c rest head value) :
      Offers p token c rest behind (value :: behind)

/-- Arguments are converted in their order, each from the tokens that the one before it has left.
The entries are what they write, and at the end come the tokens that are left. -/
inductive Supplies (p : Parser) : List (Argument Value) → List Token → List (String × Value) →
    List Token → Prop
  | nil {given : List Token} : Supplies p [] given [] given
  | cons {a : Argument Value} {args : List (Argument Value)} {given left : List Token} {v : Value}
      {count : Nat} {events : List Event} {entries : List (String × Value)}
      (converts : p.Converts a given v count events)
      (others : Supplies p args (given.drop count) entries left) :
      Supplies p (a :: args) given ((a.dest, v) :: entries) left

/-- Why an argument of a flag cannot be converted from the tokens that are left: there are none, its
converter is broken, or its converter finds fault with them. -/
inductive Misses (p : Parser) (a : Argument Value) : List Token → Halt → Prop
  | ended : Misses p a [] (.flagArgumentRequired p.source)
  | broken {given : List Token} {h : Halt} (breaks : p.Breaks a given h) : Misses p a given h
  | refused {token : Token} {others : List Token} {converter : Converter} {events : List Event}
      {f : Fault} (typed : p.converterOf a.type = some converter)
      (answers : p.answer converter token others a = (events, .fault f)) :
      Misses p a (token :: others) (.fault f)

theorem misses_of_halt (left : s.left ≠ []) (halted : p.argument a s = .halt h t) :
    p.Misses a s.left h := by
  rcases breaks_or_answers left halted with
    breaks | ⟨f, token, others, converter, events, rfl, left, typed, answers⟩
  · exact .broken breaks
  · rw [left]
    exact .refused typed answers

theorem left_take (s : State) (events : List Event) (dest : String) (v : Value) (count : Nat) :
    (s.take events dest v count).left = s.left.drop count := by
  rw [State.left, State.left, List.drop_drop]
  rfl

theorem entered_of_fallBack (ok : fallBack h args s = .ok t) :
    s.Entered t (args.map fun a => (a.dest, a.default)) := by
  rw [(fallBack_eq_ok ok).2]
  rfl

/-- What has been asked for of the arguments before some of them has been supplied. -/
theorem Asks.supplies (asks : p.Asks inline args s inline' missing u) :
    ∃ taken entries, args = taken ++ missing ∧ p.Supplies taken s.left entries u.left ∧
      s.Entered u entries ∧ (inline' = true ↔ inline = true ∧ taken = []) := by
  induction asks with
  | here => exact ⟨[], [], rfl, .nil, rfl, by simp⟩
  | @later inline inline' a others missing s t u ok _ ih =>
    obtain ⟨v, count, events, converts, rfl⟩ := argument_eq_ok_iff.1 ok
    obtain ⟨taken, entries, rfl, supplies, entered, first⟩ := ih
    rw [left_take] at supplies
    refine ⟨a :: taken, (a.dest, v) :: entries, rfl, .cons converts supplies, entered, ?_⟩
    simp [first]

/-- Arguments of a flag that are still missing where all before them are supplied: there are none,
or the first of them cannot be converted, and from there on defaults make up for all of them, but
not for an inline value, and not for a crash. -/
inductive Stuck (p : Parser) (inline : Bool) : List (Argument Value) → State → Prop
  | done {u : State} : Stuck p inline [] u
  | missed {a : Argument Value} {others : List (Argument Value)} {u : State} {h : Halt}
      {events : List Event} (misses : p.Misses a u.left h)
      (ends : p.flagArguments inline (a :: others) u =
        if inline then .halt h (u.report events) else fallBack h (a :: others) (u.report events)) :
      Stuck p inline (a :: others) u
  | crashed {a : Argument Value} {others : List (Argument Value)} {u v : State} {c : Crash}
      (misses : p.Misses a u.left (.crash c))
      (ends : p.flagArguments inline (a :: others) u = .halt (.crash c) v) :
      Stuck p inline (a :: others) u

/-- The arguments of a flag are asked for up to the first one that cannot be converted. -/
theorem exists_asks_stuck (p : Parser) (inline : Bool) (args : List (Argument Value)) (s : State) :
    ∃ inline' missing u, p.Asks inline args s inline' missing u ∧ p.Stuck inline' missing u := by
  induction args generalizing inline s with
  | nil => exact ⟨inline, [], s, .here, .done⟩
  | cons a args ih =>
    by_cases left : s.left = []
    · have misses : p.Misses a s.left (.flagArgumentRequired p.source) := left ▸ .ended
      have ends : p.flagArguments inline (a :: args) s =
          if inline then .halt (.flagArgumentRequired p.source) (s.report [])
          else fallBack (.flagArgumentRequired p.source) (a :: args) (s.report []) := by
        rw [State.report_nil]
        exact flagArguments_of_end inline a args left
      exact ⟨inline, a :: args, s, .here, .missed misses ends⟩
    · cases converted : p.argument a s with
      | ok t =>
        obtain ⟨inline', missing, u, asks, stuck⟩ := ih false t
        exact ⟨inline', missing, u, .later converted asks, stuck⟩
      | halt h t =>
        have misses := misses_of_halt left converted
        refine ⟨inline, a :: args, s, .here, ?_⟩
        cases h with
        | crash c => exact .crashed misses (flagArguments_of_crash inline args left converted)
        | fault g =>
          obtain ⟨⟨events, rfl⟩, -⟩ := argument_eq_halt converted
          exact .missed misses (flagArguments_of_fault inline args left converted)

theorem Stuck.misses {others : List (Argument Value)} (stuck : p.Stuck inline (a :: others) u) :
    ∃ h, p.Misses a u.left h := by
  cases stuck with
  | missed misses _ => exact ⟨_, misses⟩
  | crashed misses _ => exact ⟨_, misses⟩

/-- If a flag is taken, what is missing is optional and has its defaults. -/
theorem Stuck.of_ok (stuck : p.Stuck inline missing u)
    (ok : p.flagArguments inline missing u = .ok t) :
    (∀ a ∈ missing, a.required = false) ∧ (missing ≠ [] → inline = false) ∧ t.left = u.left ∧
      u.Entered t (missing.map fun a => (a.dest, a.default)) := by
  cases stuck with
  | done =>
    cases ok
    exact ⟨List.forall_mem_nil _, fun some => absurd rfl some, rfl, rfl⟩
  | crashed misses ends => cases ends.symm.trans ok
  | missed misses ends =>
    rw [ends] at ok
    split at ok
    · cases ok
    · rename_i spared
      have entered := entered_of_fallBack ok
      obtain ⟨optional, rfl⟩ := fallBack_eq_ok ok
      exact ⟨optional, fun _ => eq_false_of_ne_true spared, rfl, entered⟩

/-- If a flag fails, some of what is missing is required, or it is an inline value, or there was a
crash, and what is raised is what was wrong with the first of it. -/
theorem Stuck.of_halt (stuck : p.Stuck inline missing u)
    (halted : p.flagArguments inline missing u = .halt h t) :
    ((∃ a ∈ missing, a.required = true) ∨ inline = true ∨ ∃ c, h = .crash c) ∧
      ∃ a others, missing = a :: others ∧ p.Misses a u.left h := by
  cases stuck with
  | done => cases halted
  | @crashed a others _ _ c misses ends =>
    cases ends.symm.trans halted
    exact ⟨.inr (.inr ⟨c, rfl⟩), a, others, rfl, misses⟩
  | @missed a others _ _ _ misses ends =>
    rw [ends] at halted
    split at halted
    · rename_i unspared
      cases halted
      exact ⟨.inr (.inl unspared), a, others, rfl, misses⟩
    · obtain rfl := fallBack_halt halted
      refine ⟨.inl (Classical.byContradiction fun optional => ?_), a, others, rfl, misses⟩
      have spared : ∀ b ∈ a :: others, b.required = false :=
        fun b mem => eq_false_of_ne_true fun required => optional ⟨b, mem, required⟩
      rw [fallBack_of_optional _ _ spared] at halted
      cases halted

/-- Where the arguments of a flag begin, they are offered what is behind the flag. -/
theorem Opens.offers (opens : p.Opens token c rest f s inline u) (next : s.next? = some token) :
    p.Offers token c rest s.advance.left u.left := by
  rcases opens.left_eq next with ⟨empty, left⟩ | ⟨head, value, cutOff, left⟩
  · exact left ▸ .plain empty
  · exact left ▸ .inline cutOff

/-- Arguments of a flag are supplied up to one that cannot be converted, if there is one. If the
flag is taken, that argument and all after it are optional and have their defaults, and an equals
sign has supplied at least one argument; the tokens behind those of the last argument supplied are
left. If the flag fails, one of the arguments that are not supplied is required, or an equals sign
has supplied none, or what is raised is a crash, and it is what was wrong with the first of them. -/
theorem flag_supply (next : s.next? = some token) (flagged : token.flagChars? = some (c, rest))
    (placed : token.Placed p.source) (spelled : p.spelled flags token c rest = .ok ⟨f, marks⟩)
    (args : f.args ≠ []) :
    ∃ given taken missing entries left, p.Offers token c rest s.advance.left given ∧
      f.args = taken ++ missing ∧ p.Supplies taken given entries left ∧
      (∀ a others, missing = a :: others → ∃ h, p.Misses a left h) ∧
      (∀ t, p.flag flags token c rest s = .ok t →
        (∀ a ∈ missing, a.required = false) ∧ ('=' ∈ token.text.toList → taken ≠ []) ∧
        t.left = left ∧
        t.result = s.result.insertAll (marks.map (fun dest => (dest, .bool true)) ++ entries ++
          missing.map (fun a => (a.dest, a.default)) ++ [(f.dest, .bool true)])) ∧
      ∀ h t, p.flag flags token c rest s = .halt h t →
        ((∃ a ∈ missing, a.required = true) ∨ (taken = [] ∧ '=' ∈ token.text.toList) ∨
          ∃ c, h = .crash c) ∧
        ∃ a others, missing = a :: others ∧ p.Misses a left h := by
  obtain ⟨inline, u, opens⟩ :=
    exists_opens (fun _ => args) placed flagged (marks.foldl State.mark s)
  have equals : inline = true ↔ '=' ∈ token.text.toList := by
    rw [opens.inline_eq_true_iff, Spelling.value_ne_none_iff,
      (Token.toList_of_flagChars? flagged).2]
    simp
  have offers := opens.offers ((next?_foldl_mark marks s).trans next)
  rw [advance_left_foldl_mark] at offers
  obtain ⟨inline', missing, v, asks, stuck⟩ := exists_asks_stuck p inline f.args u
  obtain ⟨taken, entries, split, supplies, entered, first⟩ := asks.supplies
  have outcome := opens.flag_eq spelled
  rw [asks.flagArguments_eq] at outcome
  have marked : s.Entered u (marks.map fun dest => (dest, .bool true)) :=
    opens.result.trans (State.entered_foldl_mark marks s)
  refine ⟨u.left, taken, missing, entries, v.left, offers, split, supplies, ?_, ?_, ?_⟩
  · rintro a others rfl
    exact stuck.misses
  · intro t ok
    obtain ⟨w, taken', rfl⟩ := Outcome.marked_eq_ok_iff.1 (outcome.symm.trans ok)
    obtain ⟨optional, spared, left, defaults⟩ := stuck.of_ok taken'
    refine ⟨optional, fun mem nil => ?_, left,
      ((marked.trans entered).trans defaults).trans (w.entered_mark f.dest)⟩
    -- The value behind the equals sign would be missing.
    have some : missing ≠ [] := by
      rw [nil, List.nil_append] at split
      exact split ▸ args
    exact absurd ((spared some).symm.trans (first.2 ⟨equals.2 mem, nil⟩)) Bool.noConfusion
  · intro h t halted
    obtain ⟨which, missed⟩ := stuck.of_halt (Outcome.marked_eq_halt (outcome.symm.trans halted))
    refine ⟨which.imp_right (Or.imp_left fun unspared => ?_), missed⟩
    obtain ⟨given, nil⟩ := first.1 unspared
    exact ⟨nil, equals.1 given⟩

/-- A flag with two arguments, of which the second one is optional. -/
def resize : Flag Value :=
  ⟨"resize", some "resize", some 'r', none,
    [.ofType "width" "int" true, .ofType "height" "int" false]⟩

/-- Its second argument does not fit the word behind it, which is left. -/
theorem flag_supply_resize : ∃ given taken missing entries t,
    (forLine "--resize=4 photo").flag [resize] ⟨"--resize=4", 0, 10, false⟩ '-'
      ['r', 'e', 's', 'i', 'z', 'e', '=', '4'] ((forLine "--resize=4 photo").initial 0) = .ok t ∧
    resize.args = taken ++ missing ∧ taken ≠ [] ∧ (∀ a ∈ missing, a.required = false) ∧
    (forLine "--resize=4 photo").Supplies taken given entries [⟨"photo", 11, 16, false⟩] ∧
    t.result.get? "width" = some (.int 4) ∧ t.result.get? "height" = some .null := by
  obtain ⟨t, taken, behind, width, height⟩ : ∃ t,
      (forLine "--resize=4 photo").flag [resize] ⟨"--resize=4", 0, 10, false⟩ '-'
        ['r', 'e', 's', 'i', 'z', 'e', '=', '4'] ((forLine "--resize=4 photo").initial 0) = .ok t ∧
      t.left = [⟨"photo", 11, 16, false⟩] ∧ t.result.get? "width" = some (.int 4) ∧
      t.result.get? "height" = some .null := ⟨_, rfl, rfl, rfl, rfl⟩
  have next : ((forLine "--resize=4 photo").initial 0).next? =
      some ⟨"--resize=4", 0, 10, false⟩ := rfl
  have placed := inPlace_tokenize "--resize=4 photo" 0 _ (List.mem_of_mem_head? next) rfl
  have spelled : (forLine "--resize=4 photo").spelled [resize] ⟨"--resize=4", 0, 10, false⟩ '-'
      ['r', 'e', 's', 'i', 'z', 'e', '=', '4'] = .ok ⟨resize, []⟩ := rfl
  obtain ⟨given, supplied, missing, entries, left, -, split, supplies, -, ends, -⟩ :=
    flag_supply next rfl placed spelled (List.cons_ne_nil _ _)
  obtain ⟨optional, some, rfl, -⟩ := ends t taken
  exact ⟨given, supplied, missing, entries, t, taken, split, some (by decide), optional,
    behind ▸ supplies, width, height⟩

end Parser

end CommandGrammar
