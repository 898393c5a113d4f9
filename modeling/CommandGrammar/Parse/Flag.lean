import CommandGrammar.Parse.Argument
import CommandGrammar.Token.Scan

/-!
# Flags on a line

An unquoted token that begins with a dash and has more to it spells a flag: a long code after two
dashes, or short codes packed after one. A value behind an equals sign is cut off and becomes a
token of its own, which the first argument of the flag has to take. Optional arguments of a flag
fall back to their defaults when the tokens run out or do not fit.
-/

namespace CommandGrammar

/-- The characters after the dash of a token that spells a flag: the first and the others. -/
def Token.flagChars? (t : Token) : Option (Char × List Char) :=
  if t.quoted then none
  else
    match t.text.toList with
    | '-' :: c :: rest => some (c, rest)
    | _ => none

/-- How a flag is spelled. -/
structure Spelling where
  /-- Whether there are two dashes. -/
  long : Bool
  /-- What stands between the dashes and the first equals sign. -/
  name : List Char
  /-- What stands after the first equals sign, if there is one. -/
  value : Option (List Char)

namespace Spelling

/-- The part of a list after its first equals sign. -/
def afterEquals (cs : List Char) : Option (List Char) :=
  match cs.dropWhile (· != '=') with
  | [] => none
  | _ :: rest => some rest

/-- The spelling in the characters after the first dash. -/
def ofChars (c : Char) (rest : List Char) : Spelling :=
  if c = '-' then ⟨true, rest.takeWhile (· != '='), afterEquals rest⟩
  else ⟨false, (c :: rest).takeWhile (· != '='), afterEquals (c :: rest)⟩

/-- How many characters stand before the equals sign, the dashes included. -/
def length (s : Spelling) : Nat := (if s.long then 2 else 1) + s.name.length

end Spelling

/-- The flags that a token spells: the one that takes the arguments, and the keys of all that are
packed with it, itself included. -/
structure Spelled where
  flag : Flag Value
  marks : List String

/-- The flag with a long code. -/
def longFlag? (flags : List (Flag Value)) (name : List Char) : Option (Flag Value) :=
  flags.find? fun f => f.long = some (String.ofList name)

/-- The flag with a short code. -/
def shortFlag? (flags : List (Flag Value)) (code : Char) : Option (Flag Value) :=
  flags.find? fun f => f.short = some code

/-- Walks short codes from the given flag on, or stops at a code that no flag has. An equals sign
ends the group if it may and the last flag takes arguments. -/
def packed (flags : List (Flag Value)) (equalsEnds : Bool) (last : Flag Value)
    (marks : List String) (offset : Nat) : List Char → Except (Nat × Char) Spelled
  | [] => .ok ⟨last, marks⟩
  | c :: rest =>
    if c = '=' && equalsEnds && !last.args.isEmpty then .ok ⟨last, marks⟩
    else
      match shortFlag? flags c with
      | none => .error (offset, c)
      | some f => packed flags equalsEnds f (marks ++ [f.dest]) (offset + 1) rest

/-- Walks short codes of which the first is given. -/
def shortCodes (flags : List (Flag Value)) (equalsEnds : Bool) (c : Char) (rest : List Char) :
    Except (Nat × Char) Spelled :=
  match shortFlag? flags c with
  | none => .error (1, c)
  | some f => packed flags equalsEnds f [f.dest] 2 rest

namespace Halt

/-- No flag has the long code. -/
def unrecognizedFlag (token : Token) (table : List Int) (name : List Char) : Halt :=
  match table[2]? with
  | some start =>
    .fault (.ofToken .unrecognizedFlag ("unrecognized flag: " ++ String.ofList name) token
      (start - token.start) 0)
  | none => .crash .outOfRange

/-- No flag has the short code, which stands at an offset in the token's text. -/
def unknownOption (token : Token) (table : List Int) (offset : Nat) (code : Char) : Halt :=
  match table[offset]?, table[offset + 1]? with
  | some start, some stop =>
    .fault (.ofToken .unknownOption ("unknown option: " ++ code.toString) token
      (start - token.start) (token.stop - stop))
  | _, _ => .crash .outOfRange

/-- A value is given to a flag that takes none. The place is the value, or else the next token,
or else the equals sign. -/
def flagAssignment (token : Token) (table : List Int) (next : Option Token) (stop : Nat)
    (value : List Char) : Halt :=
  let message :=
    "option '" ++ String.ofList (token.text.toList.take stop) ++ "' doesn't allow an argument"
  match value, next with
  | _ :: _, _ =>
    match table[stop + 1]? with
    | some start => .fault (.ofToken .flagAssignment message token (start - token.start) 0)
    | none => .crash .outOfRange
  | [], some next => .fault (.ofToken .flagAssignment message next 0 0)
  | [], none =>
    match table[stop]?, table[stop + 1]? with
    | some a, some b =>
      .fault (.ofToken .flagAssignment message token (a - token.start) (token.stop - b))
    | _, _ => .crash .outOfRange

/-- The tokens ran out before the arguments of a flag. -/
def flagArgumentRequired (source : String) : Halt :=
  .fault (.ofToken .flagArgumentRequired "flag requires more argument" (.endOf source) 0 0)

end Halt

/-- A flag token cut at its equals sign: what stands before it, and the value unless it is
empty. -/
def Token.cut? (token : Token) (table : List Int) (stop : Nat) (value : List Char) :
    Option (List Token) := do
  let middle ← table[stop]?
  let head :=
    { token with text := String.ofList (token.text.toList.take stop), stop := middle }
  if value.isEmpty then pure [head]
  else
    let start ← table[stop + 1]?
    pure [head, ⟨String.ofList value, start, token.stop, false⟩]

/-- The tokens with those at one index in place of the one that is there. -/
def replaceAt (tokens : List Token) (index : Nat) (pieces : List Token) : List Token :=
  tokens.take index ++ pieces ++ tokens.drop (index + 1)

namespace Parser

/-- The flags that a token spells. -/
def spelled (p : Parser) (flags : List (Flag Value)) (token : Token) (c : Char)
    (rest : List Char) : Except Halt Spelled :=
  let spelling := Spelling.ofChars c rest
  let table := token.positions p.source
  let short : Except Halt Spelled :=
    match shortCodes flags p.options.equalsInShortFlags c rest with
    | .ok spelled => .ok spelled
    | .error (offset, code) => .error (.unknownOption token table offset code)
  match longFlag? flags spelling.name with
  | none => if spelling.long then .error (.unrecognizedFlag token table spelling.name) else short
  | some f => if spelling.long || p.options.javaFlags then .ok ⟨f, []⟩ else short

/-- Gives arguments their defaults after one of them has failed, unless one is required. -/
def fallBack (h : Halt) : List (Argument Value) → State → Outcome
  | [], s => .ok s
  | a :: rest, s =>
    if a.required then .halt h s else fallBack h rest (s.write a.dest a.default)

/-- Converts the arguments of a flag. The first one has no default when it has an inline value. -/
def flagArguments (p : Parser) (inline : Bool) : List (Argument Value) → State → Outcome
  | [], s => .ok s
  | a :: rest, s =>
    if s.index < s.tokens.length then
      match p.argument a s with
      | .ok s => flagArguments p false rest s
      | .halt (.crash c) s => .halt (.crash c) s
      | .halt (.fault f) s =>
        if inline then .halt (.fault f) s else fallBack (.fault f) (a :: rest) s
    else
      let h := Halt.flagArgumentRequired p.source
      if inline then .halt h s else fallBack h (a :: rest) s

/-- Takes the flag token at the index, of which the characters after the dash are given, and the
arguments of the flag. -/
def flag (p : Parser) (flags : List (Flag Value)) (token : Token) (c : Char) (rest : List Char)
    (s : State) : Outcome :=
  match p.spelled flags token c rest with
  | .error h => .halt h s
  | .ok ⟨f, marks⟩ =>
    let s := marks.foldl State.mark s
    let spelling := Spelling.ofChars c rest
    match spelling.value with
    | none => (p.flagArguments false f.args s.advance).marked f.dest
    | some value =>
      let table := token.positions p.source
      if f.args.isEmpty then
        .halt (.flagAssignment token table s.tokens[s.index + 1]? spelling.length value) s
      else
        match token.cut? table spelling.length value with
        | none => .halt (.crash .outOfRange) s
        | some pieces =>
          let s := { s with tokens := replaceAt s.tokens s.index pieces }
          (p.flagArguments true f.args s.advance).marked f.dest

/-- Defaults leave the tokens and the index alone. -/
theorem fallBack_ok {h : Halt} {args : List (Argument Value)} {s t : State}
    (ok : fallBack h args s = .ok t) : t.tokens = s.tokens ∧ t.index = s.index := by
  induction args generalizing s with
  | nil =>
    simp only [fallBack, Outcome.ok.injEq] at ok
    exact ⟨by rw [ok], by rw [ok]⟩
  | cons a rest ih =>
    simp only [fallBack] at ok
    split at ok
    · simp at ok
    · obtain ⟨ht, hi⟩ := ih ok
      exact ⟨ht, hi⟩

/-- The arguments of a flag leave the tokens alone, and an inline value is taken. -/
theorem flagArguments_ok {p : Parser} {inline : Bool} {args : List (Argument Value)}
    {s t : State} (ok : p.flagArguments inline args s = .ok t) :
    t.tokens = s.tokens ∧ s.index ≤ t.index ∧ (inline → args ≠ [] → s.index < t.index) := by
  induction args generalizing s inline with
  | nil =>
    simp only [flagArguments, Outcome.ok.injEq] at ok
    subst ok
    exact ⟨rfl, Nat.le_refl _, fun _ h => absurd rfl h⟩
  | cons a rest ih =>
    simp only [flagArguments] at ok
    split at ok
    · split at ok
      · rename_i u hu
        obtain ⟨ht, hi⟩ := argument_ok hu
        obtain ⟨ht', hi', -⟩ := ih ok
        exact ⟨ht'.trans ht, by omega, fun _ _ => by omega⟩
      · simp at ok
      · rename_i f u hu
        split at ok
        · simp at ok
        · rename_i hinline
          obtain ⟨ht, hi⟩ := fallBack_ok ok
          obtain ⟨ht', hi'⟩ := argument_halt hu
          exact ⟨ht.trans ht', by omega, fun h => absurd h hinline⟩
    · split at ok
      · simp at ok
      · rename_i hinline
        obtain ⟨ht, hi⟩ := fallBack_ok ok
        exact ⟨ht, by omega, fun h => absurd h hinline⟩

/-- Marks leave the tokens and the index alone. -/
theorem foldl_mark (marks : List String) (s : State) :
    (marks.foldl State.mark s).tokens = s.tokens ∧ (marks.foldl State.mark s).index = s.index := by
  induction marks generalizing s with
  | nil => exact ⟨rfl, rfl⟩
  | cons m rest ih => exact ih (s.mark m)

theorem length_replaceAt {tokens : List Token} {index : Nat} (h : index < tokens.length)
    (pieces : List Token) :
    (replaceAt tokens index pieces).length + 1 = tokens.length + pieces.length := by
  simp only [replaceAt, List.length_append, List.length_take, List.length_drop]
  omega

theorem marked_ok {o : Outcome} {dest : String} {t : State} (h : o.marked dest = .ok t) :
    ∃ s, o = .ok s ∧ t.tokens = s.tokens ∧ t.index = s.index := by
  cases o with
  | ok s =>
    simp only [Outcome.marked, Outcome.ok.injEq] at h
    exact ⟨s, rfl, h ▸ rfl, h ▸ rfl⟩
  | halt _ _ => simp [Outcome.marked] at h

theorem length_cut? {token : Token} {table : List Int} {stop : Nat} {value : List Char}
    {pieces : List Token} (h : token.cut? table stop value = some pieces) : pieces.length ≤ 2 := by
  simp only [Token.cut?, Option.bind_eq_bind, Option.bind_eq_some_iff] at h
  obtain ⟨middle, -, h⟩ := h
  split at h
  · simp only [Option.pure_def, Option.some.injEq] at h
    simp [← h]
  · simp only [Option.bind_eq_some_iff, Option.pure_def, Option.some.injEq] at h
    obtain ⟨start, -, h⟩ := h
    simp [← h]

/-- A flag leaves fewer tokens: an inline value adds one, which is taken. -/
theorem flag_ok {p : Parser} {flags : List (Flag Value)} {token : Token} {c : Char}
    {rest : List Char} {s t : State} (ok : p.flag flags token c rest s = .ok t)
    (h : s.index < s.tokens.length) : t.remaining < s.remaining := by
  unfold flag at ok
  split at ok
  · simp at ok
  · rename_i f marks _
    obtain ⟨ht, hi⟩ := foldl_mark marks s
    generalize marks.foldl State.mark s = u at ok ht hi
    simp only at ok
    split at ok
    · obtain ⟨v, hv, htv, hiv⟩ := marked_ok ok
      obtain ⟨ht', hi', -⟩ := flagArguments_ok hv
      simp only [State.advance] at ht' hi'
      simp only [State.remaining, htv, hiv, ht', ht]
      omega
    · split at ok
      · simp at ok
      · rename_i hargs
        split at ok
        · simp at ok
        · rename_i pieces hp
          obtain ⟨v, hv, htv, hiv⟩ := marked_ok ok
          obtain ⟨ht', -, hi'⟩ := flagArguments_ok hv
          have hi' := hi' rfl (by simpa using hargs)
          simp only [State.advance] at ht' hi'
          have hu : u.index < u.tokens.length := hi ▸ ht ▸ h
          have hlen := length_replaceAt hu pieces
          have hpieces := length_cut? hp
          simp only [State.remaining, htv, hiv, ht', ← ht, ← hi]
          omega

end Parser

end CommandGrammar
