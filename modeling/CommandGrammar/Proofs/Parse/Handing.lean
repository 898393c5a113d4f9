import CommandGrammar.Proofs.Parse.Order
import CommandGrammar.Proofs.Parse.Refinement
import CommandGrammar.Proofs.Parse.Reliance
import CommandGrammar.Proofs.Parse.Spans
import CommandGrammar.Proofs.Token.Rescan

/-!
# What converters are handed

A converter is handed the tokens that are left. These are tokens of the line, but for the first one,
which may be the value that was cut off a flag behind its equals sign. A token of the line can be
read again from its place, quotes and escapes included. A value that was cut off can be read so only
if its first character need not be escaped: if it has to be, its place begins behind the backslash
that escapes it (`handed_readable`).
-/

namespace CommandGrammar

/-- The value that is cut off an unquoted token of the line begins at one of its characters. -/
theorem Token.Bare.within_value {line : String} {token : Token} {c : Char} {rest : List Char}
    {d : Char} {others : List Char} {start : Int} (bare : token.Bare line)
    (flagged : token.flagChars? = some (c, rest))
    (hasValue : (Spelling.ofChars c rest).value = some (d :: others))
    (position : (token.positions line)[(Spelling.ofChars c rest).length + 1]? = some start) :
    ∃ u a tail, token.Within line u d others a tail ∧ start = a := by
  obtain ⟨before, split, -, length⟩ := Spelling.cut_eq hasValue
  have chars := (Token.toList_of_flagChars? flagged).2
  have text : token.text.toList = ('-' :: before ++ ['=']) ++ d :: others := by
    rw [chars, split]
    simp
  obtain ⟨a, tail, within⟩ := bare.at_char text
  refine ⟨_, a, tail, within, ?_⟩
  have index : (Spelling.ofChars c rest).length + 1 = ('-' :: before ++ ['=']).length := by
    rw [← length]
    simp
  rw [index, within.position] at position
  exact (Option.some.inj position).symm

namespace Parser

variable {p : Parser} {n m : Schema Value} {x : Stage} {a : Argument Value} {s u v : State}
  {token : Token} {rest : List Token} {converter : Converter}

/-- A token that a converter is handed can be read again from its place, if it is a token of the
line or a value whose first character need not be escaped. The place of another value begins behind
a backslash, and together with it the value can be read again. -/
inductive Readable (p : Parser) (start : Nat) (t : Token) : Prop
  | scanned (mem : t ∈ Token.tokenize p.source start) (rescans : t.Rescans p.source) :
      Readable p start t
  | value {flag head : Token} {c : Char} {rest : List Char}
      (mem : flag ∈ Token.tokenize p.source start) (cut : flag.Cut [head, t])
      (text : t.text.toList = c :: rest) (plain : Token.isSpecial false c = false)
      (rescans : t.Rescans p.source) : Readable p start t
  | escaped {flag head : Token} {c : Char} {rest : List Char} {before : Nat}
      (mem : flag ∈ Token.tokenize p.source start) (cut : flag.Cut [head, t])
      (text : t.text.toList = c :: rest) (special : Token.isSpecial false c = true)
      (begins : t.start = (before : Int) + 1) (backslash : p.source.toList[before]? = some '\\')
      (rescans : { t with start := before }.Rescans p.source) : Readable p start t

/-- A flag token is cut, and a value comes off it that is not empty. -/
inductive CutOff (p : Parser) (flag : Token) (c : Char) (chars : List Char) : Token → Token → Prop
  | mk {d : Char} {others : List Char} {head : Token} {position : Int}
      (hasValue : (Spelling.ofChars c chars).value = some (d :: others))
      (cut : flag.cut? (flag.positions p.source) (Spelling.ofChars c chars).length (d :: others) =
        some [head, ⟨String.ofList (d :: others), position, flag.stop, false⟩])
      (begins : (flag.positions p.source)[(Spelling.ofChars c chars).length + 1]? =
        some position) :
      CutOff p flag c chars head ⟨String.ofList (d :: others), position, flag.stop, false⟩

/-- Where the arguments of a flag begin, the tokens behind the flag are left, and in front of them
the value that was cut off it, if there is one. -/
theorem Opens.left_eq {c : Char} {chars : List Char} {f : Flag Value} {inline : Bool}
    (opens : p.Opens token c chars f s inline u) (next : s.next? = some token) :
    (Spelling.ofChars c chars).value.getD [] = [] ∧ u.left = s.advance.left ∨
      ∃ head value, p.CutOff token c chars head value ∧ u.left = value :: s.advance.left := by
  cases opens with
  | plain noValue => exact .inl ⟨by rw [noValue]; rfl, rfl⟩
  | inline hasValue _ cut =>
    obtain ⟨middle, others, -, rfl, offcut⟩ := Token.cut?_eq_some cut
    have left := @drop_replaceAt s.tokens others s.index { token with
      text := String.ofList (token.text.toList.take (Spelling.ofChars c chars).length),
      stop := middle } (State.index_lt_of_next? next)
    rcases offcut with ⟨empty, rfl⟩ | ⟨filled, start, begins, rfl⟩
    · exact .inl ⟨by rw [hasValue]; exact empty, left⟩
    · obtain ⟨d, rest, rfl⟩ := List.exists_cons_of_ne_nil filled
      exact .inr ⟨_, _, .mk hasValue cut begins, left⟩

/-- The value that is cut off a flag of the line is readable. -/
theorem CutOff.readable {start : Nat} {c : Char} {chars : List Char} {head value : Token}
    (cutOff : p.CutOff token c chars head value) (mem : token ∈ Token.tokenize p.source start)
    (flagged : token.flagChars? = some (c, chars)) : p.Readable start value := by
  have plain := (Token.toList_of_flagChars? flagged).1
  have bare := Token.bare_of_mem_tokenize mem plain
  cases cutOff with
  | @mk d others _ _ hasValue cut begins =>
    have pieces := (Token.placed_of_mem_tokenize mem plain).cut flagged hasValue cut
    obtain ⟨u, a, tail, within, rfl⟩ := bare.within_value flagged hasValue begins
    have text : (String.ofList (d :: others)).toList = d :: others := String.toList_ofList
    by_cases special : Token.isSpecial false d = true
    · obtain ⟨before, rfl, backslash, rescans⟩ := within.rescans_escape bare special
      exact .escaped mem pieces text special rfl backslash rescans
    · rw [Bool.not_eq_true] at special
      exact .value mem pieces text special (within.rescans bare special)

/-- Each token that a converter is handed is readable. Those behind the first one are tokens of the
line. -/
theorem Hands.readable {p : Parser} {n m : Schema Value} {start : Nat} {x : Stage}
    {converter : Converter} {token : Token} {rest : List Token} {a : Argument Value}
    (comes : p.Comes false p.options.parseFlags (p.initial start) n m x)
    (hands : p.Hands m x converter token rest a) :
    p.Readable start token ∧
      ∀ t ∈ rest, t ∈ Token.tokenize p.source start ∧ t.Rescans p.source := by
  have scanned : ∀ t ∈ x.state.left, t ∈ Token.tokenize p.source start :=
    fun t mem => comes.left.subset mem
  have whole : ∀ t ∈ x.state.left, t ∈ Token.tokenize p.source start ∧ t.Rescans p.source :=
    fun t mem => ⟨scanned t mem, Token.rescans_of_mem_tokenize (scanned t mem)⟩
  -- Tokens that were left at the stage are tokens of the line.
  have left : ∀ {s : State}, s.left = token :: rest → s.left <:+ x.state.left →
      p.Readable start token ∧
        ∀ t ∈ rest, t ∈ Token.tokenize p.source start ∧ t.Rescans p.source := by
    intro s heq suffix
    rw [heq] at suffix
    obtain ⟨first, others⟩ := List.forall_mem_cons.1 fun t mem => whole t (suffix.subset mem)
    exact ⟨.scanned first.1 first.2, others⟩
  cases hands with
  | mk resolves handed typed =>
    cases resolves with
    | positional _ _ => exact left handed List.suffix_rfl
    | @ofFlag _ flag c chars f marks inline _ _ _ u v meets opens asks _ =>
      have next := (next?_foldl_mark marks x.state).trans meets.next
      have after : (marks.foldl State.mark x.state).advance.left <:+ x.state.left := by
        rw [← left_foldl_mark marks x.state]
        exact State.advance_left_suffix _
      rcases opens.left_eq next with ⟨-, same⟩ | ⟨head, value, cutOff, cons⟩
      · exact left handed (asks.left.trans (same ▸ after))
      · have suffix := asks.left
        rw [cons, handed] at suffix
        -- The value is handed as the first token, or it was taken before.
        rcases List.suffix_cons_iff.1 suffix with same | later
        · obtain ⟨rfl, rfl⟩ := List.cons.inj same
          have flagged := (spells_eq_some meets.flagged).2
          have mem : flag ∈ Token.tokenize p.source start := by
            apply scanned
            rw [State.left_eq_cons meets.next]
            exact List.mem_cons_self
          exact ⟨cutOff.readable mem flagged, fun t mem => whole t (after.subset mem)⟩
        · exact left handed (handed ▸ later.trans after)

/-- Each token that a converter is handed can be read again from its place, but for a value that was
cut off a flag and begins with a character that has to be escaped: the backslash before it is not in
its place. And this is all that a parse relies on: with converters that answer the same to such
tokens it reports the same. -/
theorem handed_readable (p : Parser) (n : Schema Value) (start : Nat) :
    (∀ m x converter token rest a,
      p.Comes false p.options.parseFlags (p.initial start) n m x →
      p.Hands m x converter token rest a → p.Readable start token ∧
        ∀ t ∈ rest, t ∈ Token.tokenize p.source start ∧ t.Rescans p.source) ∧
    ∀ converters : Converters,
      (∀ h token rest a, p.Readable start token →
        (∀ t ∈ rest, t ∈ Token.tokenize p.source start ∧ t.Rescans p.source) →
        converters h (token :: rest) a = p.converters h (token :: rest) a) →
      (p.handingTo converters).parse n start = p.parse n start := by
  refine ⟨fun m x converter token rest a comes hands => hands.readable comes, ?_⟩
  intro converters same
  apply parse_eq_of_handed
  intro m x h token rest a comes hands
  obtain ⟨first, others⟩ := hands.readable comes
  exact same h token rest a first others

/-- A line on which a flag has a value that begins with an escaped quote. -/
def quoted : Parser := forLine "-p=\\\"5 box"

/-- The value is handed to the converter of the flag's argument. -/
theorem hands_quoted : ∃ converter a,
    quoted.Hands archive ⟨true, archive.args, quoted.initial 0⟩ converter
      ⟨"\"5", 4, 6, false⟩ [⟨"box", 7, 10, false⟩] a := by
  have meets : quoted.Meets archive.flags ⟨true, archive.args, quoted.initial 0⟩
      ⟨"-p=\"5", 0, 6, false⟩ 'p' ['=', '"', '5']
      ⟨archive.flags.getLast (List.cons_ne_nil _ _), ["packed"]⟩ := ⟨rfl, rfl, rfl, rfl⟩
  obtain ⟨u, opens, left⟩ : ∃ u, quoted.Opens ⟨"-p=\"5", 0, 6, false⟩ 'p' ['=', '"', '5']
      (archive.flags.getLast (List.cons_ne_nil _ _)) ((quoted.initial 0).mark "packed") true u ∧
      u.left = [⟨"\"5", 4, 6, false⟩, ⟨"box", 7, 10, false⟩] :=
    ⟨_, .inline rfl (List.cons_ne_nil _ _) rfl, rfl⟩
  exact ⟨_, _, .mk (.ofFlag meets opens .here (left ▸ List.cons_ne_nil _ _)) left rfl⟩

/-- From the backslash on, the value can be read again. -/
theorem handed_readable_quoted : quoted.Readable 0 ⟨"\"5", 4, 6, false⟩ ∧
    Token.Rescans quoted.source ⟨"box", 7, 10, false⟩ := by
  obtain ⟨converter, a, hands⟩ := hands_quoted
  obtain ⟨first, others⟩ := (handed_readable quoted archive 0).1 _ _ _ _ _ _ (.level .refl) hands
  exact ⟨first, (List.forall_mem_singleton.1 others).2⟩

/-- From its place, the value is read as a quoted token without the quote. -/
theorem handed_unreadable :
    let token : Token := ⟨"\"5", 4, 6, false⟩
    archive.Built ∧ (∃ m x converter rest a,
      quoted.Comes false true (quoted.initial 0) archive m x ∧
      quoted.Hands m x converter token rest a) ∧
    Token.tokenize (String.ofList (token.excerpt quoted.source)) 0 = [⟨"5", 0, 2, true⟩] := by
  obtain ⟨converter, a, hands⟩ := hands_quoted
  exact ⟨archive_built, ⟨_, _, _, _, _, .level .refl, hands⟩, by decide +kernel⟩

end Parser

end CommandGrammar
