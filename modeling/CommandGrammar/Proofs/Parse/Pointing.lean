import CommandGrammar.Proofs.Parse.Order
import CommandGrammar.Proofs.Parse.Provenance
import CommandGrammar.Proofs.Parse.Spans
import CommandGrammar.Proofs.Token.Rescan

/-!
# Where unknown options are pointed at

A short code that no flag has is pointed at where it stands in the line, whatever is escaped before
it. The place reaches to the next character of the token, or to its end, so it is that of the code
alone unless a backslash stands behind it, which is in the place as well
(`unknown_option_points`).
-/

namespace CommandGrammar

/-- The fault names a character of its line and points at it. A backslash behind the character is
in the place of the fault as well. -/
structure Fault.PointsAt (line : String) (f : Fault) (code : Char) (a : Nat) : Prop where
  message : f.message = "unknown option: " ++ code.toString
  char : line.toList[a]? = some code
  place : f.span =
    some ((a : Int), (a : Int) + 1 + if line.toList[a + 1]? = some '\\' then 1 else 0)

/-- An unknown code of a token of the line is pointed at. -/
theorem Halt.unknownOption_points {line : String} {token : Token} {u v : List Char} {code : Char}
    {f : Fault} (bare : token.Bare line) (text : token.text.toList = u ++ code :: v)
    (fault : unknownOption token (token.positions line) u.length code = .fault f) :
    ∃ a, f.PointsAt line code a := by
  obtain ⟨a, tail, within⟩ := bare.at_char text
  rw [unknownOption, within.position, within.next_position bare] at fault
  cases fault
  refine ⟨a, rfl, Token.getElem?_of_between within.here, ?_⟩
  simp only [Fault.span, Fault.ofToken, Option.some.injEq, Prod.mk.injEq]
  refine ⟨by omega, ?_⟩
  split <;> omega

/-- The kind and the place of the fault, if there is one. -/
def Report.kindAndSpan? (r : Report) : Option (FaultKind × Option (Int × Int)) :=
  match r.result with
  | .error (.fault f) => some (f.kind, f.span)
  | _ => none

theorem Report.exists_fault_of_kindAndSpan {r : Report} {kind : FaultKind}
    {place : Option (Int × Int)} (h : r.kindAndSpan? = some (kind, place)) :
    ∃ f, r.result = .error (.fault f) ∧ f.kind = kind ∧ f.span = place := by
  unfold Report.kindAndSpan? at h
  split at h
  · rename_i f result
    cases h
    exact ⟨f, result, rfl, rfl⟩
  · cases h

namespace Parser

variable {p : Parser} {n m : Schema Value} {x : Stage} {f : Fault} {start : Nat}

/-- What the engine raises for an unknown option points at the code. -/
theorem Own.points (own : p.Own m x (.fault f)) (unknown : f.kind = .unknownOption)
    (scanned : ∀ t ∈ x.state.left, t ∈ Token.tokenize p.source start) :
    ∃ code a, f.PointsAt p.source code a := by
  generalize hh : Halt.fault f = h at own
  cases own with
  | tooMany next taken leaf =>
    cases hh
    cases unknown
  | missing next required =>
    cases hh
    cases unknown
  | unknown next taken none named =>
    cases hh
    cases unknown
  | @spelling token c rest h next flagged error =>
    have flagged := (spells_eq_some flagged).2
    obtain ⟨plain, chars⟩ := Token.toList_of_flagChars? flagged
    have bare : token.Bare p.source := by
      apply Token.bare_of_mem_tokenize (scanned token _) plain
      rw [State.left_eq_cons next]
      exact List.mem_cons_self
    rcases spelled_error error with rfl | ⟨offset, code, stops, rfl⟩
    · unfold Halt.unrecognizedFlag at hh
      split at hh
      · cases hh
        cases unknown
      · cases hh
    · obtain ⟨u, v, split, rfl, -⟩ := shortCodes_eq_error stops
      have text : token.text.toList = ('-' :: u) ++ code :: v := by
        rw [chars, split]
        rfl
      rw [Nat.add_comm] at hh
      obtain ⟨a, points⟩ := Halt.unknownOption_points bare text hh.symm
      exact ⟨code, a, points⟩
  | assignment meets hasValue args =>
    unfold Halt.flagAssignment at hh
    dsimp only at hh
    split at hh
    · split at hh <;> cases hh
      cases unknown
    · cases hh
      cases unknown
    · split at hh <;> cases hh
      cases unknown
  | required meets opens asks done =>
    cases hh
    cases unknown
  | broken resolves breaks =>
    cases hh
    cases breaks.internal.1.symm.trans unknown

/-- An unknown option that a parse fails with is one that a converter of the host answers, or it
points at the character of the line that the message names. -/
theorem unknown_option_points {p : Parser} {n : Schema Value} {start : Nat} {f : Fault}
    (failed : (p.parse n start).result = .error (.fault f)) (unknown : f.kind = .unknownOption) :
    (∃ m x h token rest a g, p.Comes false p.options.parseFlags (p.initial start) n m x ∧
      p.Hands m x (.host h) token rest a ∧ (p.converters h (token :: rest) a).2 = .fault g ∧
      g.annotate p.makers (.str p.source) = .ok f) ∨
    f.command = .str p.source ∧ ∃ code a, f.PointsAt p.source code a := by
  obtain ⟨h, t, halted, leaves⟩ := parse_eq_error failed
  obtain ⟨g, rfl, annotated⟩ := Halt.fault_of_leaving leaves.symm
  obtain ⟨m, x, comes, raises⟩ := command_eq_halt halted
  have scanned : ∀ t ∈ x.state.left, t ∈ Token.tokenize p.source start :=
    fun t mem => comes.left.subset mem
  have kind : g.kind = .unknownOption := by
    rw [← (Fault.survives_of_annotate annotated).kind]
    exact unknown
  rcases raises.own_or_answered with own | ⟨converter, token, rest, a, events, hands, answers⟩
  · right
    obtain ⟨code, a, message, char, place⟩ := own.points kind scanned
    have left := own.fresh.leaving p
    rw [← leaves] at left
    cases left
    exact ⟨rfl, code, a, message, char, place⟩
  · cases converter with
    | host h =>
      have answered : (p.converters h (token :: rest) a).2 = .fault g := by
        rw [show p.converters h (token :: rest) a = _ from answers]
      exact .inl ⟨m, x, h, token, rest, a, g, comes, hands, answered, annotated⟩
    | builtin b =>
      -- A builtin converter has faults of other kinds.
      have refuses := b.convert_refuses a.options token
      have answer : b.convert a.options token = .fault g := congrArg Prod.snd answers
      rw [answer] at refuses
      obtain ⟨other, message, -, conversion, rfl⟩ := refuses
      have same : other = .unknownOption := kind
      rw [same] at conversion
      exact absurd conversion (by decide)

/-- A code that is escaped itself is pointed at without its backslash. -/
theorem unknown_option_points_archive : ∃ f,
    ((forLine "-v\\x").parse archive 0).result = .error (.fault f) ∧ f.kind = .unknownOption ∧
      f.PointsAt "-v\\x" 'x' 3 := by
  have ends : ((forLine "-v\\x").parse archive 0).kindAndSpan? =
      some (.unknownOption, some (3, 4)) := by decide +kernel
  obtain ⟨f, failed, kind, span⟩ := Report.exists_fault_of_kindAndSpan ends
  refine ⟨f, failed, kind, ?_⟩
  rcases unknown_option_points failed kind with ⟨_, _, _, _, _, _, _, _, _, answers, _⟩ |
    ⟨-, code, a, points⟩
  · cases answers
  · obtain ⟨start, -⟩ := Prod.mk.inj (Option.some.inj (span.symm.trans points.place))
    obtain rfl : a = 3 := (Int.ofNat.inj start).symm
    obtain rfl : code = 'x' := (Option.some.inj points.char).symm
    exact points

/-- A backslash behind the code is in the place of the fault, which then takes up two characters. -/
theorem unknown_option_overshoots : archive.Built ∧ ∃ f,
    ((forLine "-x\\a").parse archive 0).result = .error (.fault f) ∧ f.kind = .unknownOption ∧
      f.span = some (1, 3) := by
  have ends : ((forLine "-x\\a").parse archive 0).kindAndSpan? =
      some (.unknownOption, some (1, 3)) := by decide +kernel
  obtain ⟨f, failed, kind, span⟩ := Report.exists_fault_of_kindAndSpan ends
  exact ⟨archive_built, f, failed, kind, span⟩

end Parser

end CommandGrammar
