import CommandGrammar.Proofs.Parse.Spellings

/-!
# Packed short codes

Several short codes can be packed behind one dash, and the value behind an equals sign is then given
to the last of them. If only the last flag takes arguments, the codes can as well be given one by
one, each behind a dash of its own (`packing_equivalent`): the rest of the level ends in the same
way, with the same results or with the same fault, also where a code is unknown.
-/

namespace CommandGrammar

/-! ## Walking short codes -/

section Walk

variable {flags : List (Flag Value)} {equals : Bool} {f last : Flag Value} {c d : Char}
  {rest : List Char}

/-- A walk with a flag marked before and one place further on ends as without. -/
theorem packed_behind (dest : String) (marks : List String) (offset : Nat) :
    packed flags equals last (dest :: marks) (offset + 1) rest =
      match packed flags equals last marks offset rest with
      | .ok spelled => .ok ⟨spelled.flag, dest :: spelled.marks⟩
      | .error (position, code) => .error (position + 1, code) := by
  induction rest generalizing last marks offset with
  | nil => rfl
  | cons c rest ih =>
    rw [packed, packed]
    split
    · rfl
    · cases shortFlag? flags c with
      | none => rfl
      | some g => exact ih (marks ++ [g.dest]) (offset + 1)

theorem shortFlag?_eq_some (found : shortFlag? flags c = some f) :
    f ∈ flags ∧ f.short = some c := by
  rw [shortFlag?] at found
  have coded := List.find?_some found
  exact ⟨List.mem_of_find?_eq_some found, of_decide_eq_true coded⟩

/-- The first of several short codes is marked, and it decides about nothing else. -/
theorem shortCodes_cons (found : shortFlag? flags c = some f) (different : d ≠ '=') :
    shortCodes flags equals c (d :: rest) =
      match shortCodes flags equals d rest with
      | .ok spelled => .ok ⟨spelled.flag, f.dest :: spelled.marks⟩
      | .error (position, code) => .error (position + 1, code) := by
  rw [shortCodes, found]
  dsimp only
  rw [packed, shortCodes]
  simp only [different, decide_false, Bool.false_and, Bool.false_eq_true, if_false]
  cases shortFlag? flags d with
  | none => rfl
  | some g => exact packed_behind f.dest [g.dest] 2

/-- A short code alone spells its flag, if this takes the value. -/
theorem shortCodes_single (unwritten : shortFlag? flags '=' = none) {value : Option (List Char)}
    {spelled : Spelled}
    (ok : shortCodes flags equals c (Spelling.written value) = .ok spelled) :
    ∃ f, spelled = ⟨f, [f.dest]⟩ ∧ (value ≠ none → f.args ≠ []) := by
  rw [shortCodes] at ok
  cases found : shortFlag? flags c with
  | none =>
    rw [found] at ok
    cases ok
  | some f =>
    rw [found] at ok
    refine ⟨f, ?_⟩
    cases value with
    | none =>
      cases ok
      exact ⟨rfl, fun given => absurd rfl given⟩
    | some value =>
      dsimp only [Spelling.written] at ok
      rw [packed] at ok
      split at ok
      · rename_i ends
        cases ok
        refine ⟨rfl, ?_⟩
        rintro - nil
        simp [nil] at ends
      · rw [unwritten] at ok
        cases ok

end Walk

theorem Halt.alike_unknownOptions {token token' : Token} {table table' : List Int}
    {offset offset' : Nat} (code : Char) (inside : offset + 1 < table.length)
    (inside' : offset' + 1 < table'.length) :
    Halt.Alike (fun _ _ => True) (.unknownOption token table offset code)
      (.unknownOption token' table' offset' code) := by
  rw [unknownOption, unknownOption, List.getElem?_eq_getElem inside,
    List.getElem?_eq_getElem (Nat.lt_of_succ_lt inside), List.getElem?_eq_getElem inside',
    List.getElem?_eq_getElem (Nat.lt_of_succ_lt inside')]
  exact .fault (Fault.alike_ofToken (by decide) trivial trivial)

/-- A flag that was marked can be marked again. -/
theorem Mapping.insert_again (m : Mapping Value) (key : String) (v : Value) :
    (m.insert key v).insert key v = m.insert key v := by
  apply Mapping.eq_of_get?
  · rw [Mapping.keys_insert, if_pos (Mapping.mem_keys_insert.2 (.inl rfl))]
  · intro other
    simp only [Mapping.get?_insert]
    split <;> rfl

/-- Tokens that give short codes one by one, the last one with the value. -/
inductive Singly (value : Option (List Char)) : List Char → List Token → Prop
  | last {c : Char} {token : Token} (plain : token.quoted = false)
      (text : token.text.toList = '-' :: c :: Spelling.written value) :
      Singly value [c] [token]
  | cons {c : Char} {token : Token} {codes : List Char} {tokens : List Token}
      (plain : token.quoted = false) (text : token.text.toList = ['-', c])
      (others : Singly value codes tokens) : Singly value (c :: codes) (token :: tokens)

namespace Parser

variable {p q : Parser} {flags : List (Flag Value)} {token token' : Token} {c c' : Char}
  {rest rest' : List Char} {f : Flag Value} {marks marks' : List String}
  {value : Option (List Char)} {m : Schema Value} {codes : List Char} {tokens after : List Token}
  {inline inline' : Bool} {s t u v : State}

/-- Behind a single dash, a token spells its short codes, unless long codes can stand there. -/
theorem spelled_short (java : p.options.javaFlags = false) (single : c ≠ '-')
    (flags : List (Flag Value)) (token : Token) (rest : List Char) :
    p.spelled flags token c rest =
      match shortCodes flags p.options.equalsInShortFlags c rest with
      | .ok spelled => .ok spelled
      | .error (position, code) =>
        .error (.unknownOption token (token.positions p.source) position code) := by
  have short : (Spelling.ofChars c rest).long = false := by
    rw [Spelling.ofChars, if_neg single]
  rw [spelled, short, java]
  cases longFlag? flags (Spelling.ofChars c rest).name <;> rfl

/-! ## The last flag -/

/-- Two flags open alike if they have the same value and the tokens behind them are alike. -/
theorem Opens.alike (opens : p.Opens token c rest f s inline u)
    (opens' : q.Opens token' c' rest' f t inline' v)
    (same : (Spelling.ofChars c rest).value = (Spelling.ofChars c' rest').value)
    (next : s.next? = some token) (next' : t.next? = some token') (result : s.result = t.result)
    (behind : s.advance.left.Forall₂ (Token.Alike fun _ _ => True) t.advance.left) :
    inline = inline' ∧ u.Alike (Token.Alike fun _ _ => True) v := by
  refine ⟨?_, ?_, ?_⟩
  · rw [Bool.eq_iff_iff, opens.inline_eq_true_iff, opens'.inline_eq_true_iff, same]
  · rcases opens.left_eq next with ⟨empty, left⟩ | ⟨head, piece, cutOff, left⟩ <;>
      rcases opens'.left_eq next' with ⟨empty', left'⟩ | ⟨head', piece', cutOff', left'⟩
    · rw [left, left']
      exact behind
    · cases cutOff' with
      | mk hasValue _ _ =>
        rw [same, hasValue] at empty
        cases empty
    · cases cutOff with
      | mk hasValue _ _ =>
        rw [← same, hasValue] at empty'
        cases empty'
    · cases cutOff with
      | mk hasValue _ _ =>
        cases cutOff' with
        | mk hasValue' _ _ =>
          cases (hasValue.symm.trans same).trans hasValue'
          rw [left, left']
          exact .cons ⟨rfl, trivial, trivial⟩ behind
  · rw [opens.result, opens'.result, result]

/-- Tokens that spell the same flag last, with the same value, are taken alike where the same is
written by then. -/
theorem flag_alike (aligned : p.Aligned (fun _ _ => True) q)
    (builtin : ∀ a ∈ f.args, p.HasBuiltin a)
    (spelled : p.spelled flags token c rest = .ok ⟨f, marks⟩)
    (spelled' : q.spelled flags token' c' rest' = .ok ⟨f, marks'⟩)
    (same : (Spelling.ofChars c rest).value = (Spelling.ofChars c' rest').value)
    (args : (Spelling.ofChars c rest).value ≠ none → f.args ≠ [])
    (flagged : token.flagChars? = some (c, rest)) (flagged' : token'.flagChars? = some (c', rest'))
    (inPlace : s.InPlace p.source) (inPlace' : t.InPlace q.source)
    (next : s.next? = some token) (next' : t.next? = some token')
    (result : (marks.foldl State.mark s).result = (marks'.foldl State.mark t).result)
    (behind : s.advance.left.Forall₂
      (Token.ReadsAlike True (fun _ _ => True) p.source q.source) t.advance.left) :
    (p.flag flags token c rest s).Rel
      (State.Alike (Token.ReadsAlike True (fun _ _ => True) p.source q.source))
      (Halt.Alike fun _ _ => True) (q.flag flags token' c' rest' t) := by
  obtain ⟨inline, u, opens⟩ :=
    exists_opens args (inPlace.next next flagged) flagged (marks.foldl State.mark s)
  obtain ⟨inline', v, opens'⟩ :=
    exists_opens (same ▸ args) (inPlace'.next next' flagged') flagged' (marks'.foldl State.mark t)
  obtain ⟨rfl, alike⟩ := opens.alike opens' same ((next?_foldl_mark marks s).trans next)
    ((next?_foldl_mark marks' t).trans next') result (by
      rw [advance_left_foldl_mark, advance_left_foldl_mark]
      exact behind.imp fun _ _ h => h.toAlike)
  let S := argumentLayout aligned (Token.Alike fun _ _ => True) fun _ _ h => h
  have taken := (S.flagArguments inline (List.forall₂_same.2 fun a mem => ⟨rfl, builtin a mem⟩)
    alike).marked fun h => h.mark f.dest
  rw [← opens.flag_eq spelled, ← opens'.flag_eq spelled'] at taken
  generalize hp : p.flag flags token c rest s = o at taken
  generalize hq : q.flag flags token' c' rest' t = o' at taken
  cases taken with
  | ok h =>
    refine .ok ⟨?_, h.result⟩
    exact forall₂_of_suffix behind (flag_left next hp) (flag_left next' hq) h.left.length_eq
  | halt h => exact .halt h

/-! ## The codes before the last -/

/-- What a command comes to from a state at short codes that stand one by one, given what they spell
together. If one of them is unknown, it halts there. Otherwise it gets to the last one, with all
before it marked. -/
inductive Walks (p : Parser) (m : Schema Value) (value : Option (List Char)) (s : State)
    (after : List Token) : Except (Nat × Char) Spelled → Prop
  | unknown {offset position : Nat} {code : Char} {token : Token} {t : State}
      (halted : p.command true s m =
        .halt (.unknownOption token (token.positions p.source) position code) t)
      (inside : position + 1 < (token.positions p.source).length) :
      Walks p m value s after (.error (offset, code))
  | last {f : Flag Value} {marks : List String} {token : Token} {c : Char} {t : State}
      (goes : p.command true s m = p.command true t m) (left : t.left = token :: after)
      (inPlace : t.InPlace p.source) (result : t.result = (marks.foldl State.mark s).result)
      (single : c ≠ '-') (flagged : token.flagChars? = some (c, Spelling.written value))
      (walked : shortCodes m.flags p.options.equalsInShortFlags c (Spelling.written value) =
        .ok ⟨f, [f.dest]⟩)
      (args : value ≠ none → f.args ≠ []) :
      Walks p m value s after (.ok ⟨f, marks ++ [f.dest]⟩)

theorem endsFlags_of_single (single : c ≠ '-') (text : token.text.toList = '-' :: c :: rest) :
    p.endsFlags token = false := by
  have other : token.text ≠ "--" := by
    intro mark
    rw [mark] at text
    exact single (List.cons.inj (List.cons.inj text).2).1.symm
  simp [endsFlags, other]

/-- A command at short codes that are not all known halts there. -/
theorem command_unknown (java : p.options.javaFlags = false) (single : c ≠ '-')
    {offset : Nat} {code : Char}
    (walked : shortCodes m.flags p.options.equalsInShortFlags c rest = .error (offset, code))
    (plain : token.quoted = false) (text : token.text.toList = '-' :: c :: rest)
    (inPlace : s.InPlace p.source) (next : s.next? = some token) :
    p.command true s m =
        .halt (.unknownOption token (token.positions p.source) offset code) s ∧
      offset + 1 < (token.positions p.source).length := by
  have flagged := flagChars?_of_toList plain text
  have spelled := spelled_short java single m.flags token rest
  rw [walked] at spelled
  constructor
  · rw [command_of_flag next flagged (endsFlags_of_single single text), flag, spelled]
    rfl
  · have bound : offset < rest.length + 2 := shortCodes_error walked
    rw [(inPlace.next next flagged).length_positions_flag flagged]
    omega

/-- Behind single dashes, what stands behind the first equals sign is the value. -/
theorem value_of_short (single : c ≠ '-') (plain : '=' ∉ c :: codes) (value : Option (List Char)) :
    (Spelling.ofChars c (codes ++ Spelling.written value)).value = value :=
  congrArg Spelling.value (Spelling.ofChars_short single plain value)

/-- A command at a short code whose flag takes no arguments marks it and goes on. -/
theorem command_marked (java : p.options.javaFlags = false) (single : c ≠ '-') (different : c ≠ '=')
    (found : shortFlag? m.flags c = some f) (none : f.args = [])
    (plain : token.quoted = false) (text : token.text.toList = ['-', c])
    (next : s.next? = some token) :
    p.command true s m = p.command true ((s.mark f.dest).advance.mark f.dest) m := by
  have unvalued : '=' ∉ [c] := fun mem => different (List.mem_singleton.1 mem).symm
  have spelled : p.spelled m.flags token c [] = .ok ⟨f, [f.dest]⟩ := by
    rw [spelled_short java single, shortCodes, found]
    rfl
  have opens : p.Opens token c [] f ([f.dest].foldl State.mark s) false (s.mark f.dest).advance :=
    .plain (value_of_short single unvalued .none)
  rw [command_of_flag next (flagChars?_of_toList plain text) (endsFlags_of_single single text),
    opens.flag_eq spelled, none]
  rfl

/-- Short codes that stand one by one are walked as they are spelled together, if no flag but the
last takes arguments. -/
theorem walks_of_singly (unwritten : shortFlag? m.flags '=' = none)
    (java : p.options.javaFlags = false) (singly : Singly value (c :: codes) tokens)
    (plain : ∀ d ∈ c :: codes, d ≠ '-' ∧ d ≠ '=')
    (bare : ∀ d ∈ (c :: codes).dropLast, ∀ f, shortFlag? m.flags d = some f → f.args = [])
    (inPlace : s.InPlace p.source) (left : s.left = tokens ++ after) :
    p.Walks m value s after (shortCodes m.flags p.options.equalsInShortFlags c
      (codes ++ Spelling.written value)) := by
  induction codes generalizing c tokens s with
  | nil =>
    obtain ⟨single, different⟩ := plain c List.mem_cons_self
    cases singly with
    | cons _ _ others => cases others
    | @last _ token quoted text =>
      have next := (State.of_left_eq_cons left).1
      rw [List.nil_append]
      cases walked : shortCodes m.flags p.options.equalsInShortFlags c (Spelling.written value) with
      | error e =>
        obtain ⟨halted, inside⟩ := command_unknown java single walked quoted text inPlace next
        exact .unknown halted inside
      | ok spelled =>
        obtain ⟨f, rfl, args⟩ := shortCodes_single unwritten walked
        change p.Walks m value s after (.ok ⟨f, [] ++ [f.dest]⟩)
        exact .last rfl left inPlace rfl single (flagChars?_of_toList quoted text) walked args
  | cons d codes ih =>
    obtain ⟨⟨single, different⟩, plain⟩ := List.forall_mem_cons.1 plain
    obtain ⟨bareFirst, bare⟩ := List.forall_mem_cons.1 bare
    cases singly with
    | @cons _ token _ tokens quoted text others =>
      obtain ⟨next, behind⟩ := State.of_left_eq_cons left
      rw [List.cons_append]
      cases found : shortFlag? m.flags c with
      | none =>
        have alone : shortCodes m.flags p.options.equalsInShortFlags c [] = .error (1, c) := by
          rw [shortCodes, found]
        obtain ⟨halted, inside⟩ := command_unknown java single alone quoted text inPlace next
        rw [shortCodes, found]
        exact .unknown halted inside
      | some f =>
        have goes := command_marked java single different found (bareFirst f found) quoted text next
        have further : State.InPlace p.source ((s.mark f.dest).advance.mark f.dest) :=
          inPlace.of_suffix (State.advance_left_suffix s)
        have walks := ih others plain bare further behind
        rw [shortCodes_cons found (plain d List.mem_cons_self).2]
        generalize shortCodes m.flags p.options.equalsInShortFlags d
          (codes ++ Spelling.written value) = spelled at walks
        cases walks with
        | unknown halted inside => exact .unknown (goes.trans halted) inside
        | @last g marks _ _ t further left inPlace result single flagged walked args =>
          change p.Walks m value s after (.ok ⟨g, (f.dest :: marks) ++ [g.dest]⟩)
          refine .last (goes.trans further) left inPlace ?_ single flagged walked args
          rw [result, State.entered_foldl_mark, List.foldl_cons, State.entered_foldl_mark]
          exact congrArg (Mapping.insertAll · _) (Mapping.insert_again s.result f.dest _)

/-- Commands at codes that are packed and at the same codes one by one go alike. -/
theorem command_packed (aligned : p.Aligned (fun _ _ => True) q) (builtins : p.HasBuiltins m)
    (unwritten : shortFlag? m.flags '=' = none) (java : p.options.javaFlags = false)
    (plain : ∀ d ∈ c :: codes, d ≠ '-' ∧ d ≠ '=') (quoted : token.quoted = false)
    (text : token.text.toList = '-' :: c :: (codes ++ Spelling.written value))
    (inPlace : s.InPlace p.source) (next : s.next? = some token)
    (behind : s.advance.left.Forall₂
      (Token.ReadsAlike True (fun _ _ => True) p.source q.source) after)
    (result : s.result = t.result)
    (walks : q.Walks m value t after (shortCodes m.flags p.options.equalsInShortFlags c
      (codes ++ Spelling.written value))) :
    (p.command true s m).Rel (fun s t => s.result = t.result) (Halt.Alike fun _ _ => True)
      (q.command true t m) := by
  obtain ⟨single, -⟩ := plain c List.mem_cons_self
  have unvalued : '=' ∉ c :: codes := fun mem => (plain '=' mem).2 rfl
  have flagged := flagChars?_of_toList quoted text
  generalize walked : shortCodes m.flags p.options.equalsInShortFlags c
    (codes ++ Spelling.written value) = spelled at walks
  cases walks with
  | unknown halted inside =>
    obtain ⟨halts, within⟩ := command_unknown java single walked quoted text inPlace next
    rw [halts, halted]
    exact .halt (Halt.alike_unknownOptions _ within inside)
  | @last f marks token' d u goes left inPlace' result' single' flagged' walked' args =>
    have spelled := spelled_short java single m.flags token (codes ++ Spelling.written value)
    rw [walked] at spelled
    have spelled' := spelled_short (aligned.java.symm.trans java) single' m.flags token'
      (Spelling.written value)
    rw [walked'] at spelled'
    have valued := value_of_short single unvalued value
    have unvalued' : '=' ∉ [d] := by
      intro mem
      cases List.mem_singleton.1 mem
      rw [shortCodes, unwritten] at walked'
      cases walked'
    have valued' := value_of_short single' unvalued' value
    rw [List.nil_append] at valued'
    obtain ⟨next', behind'⟩ := State.of_left_eq_cons left
    have marked : ((marks ++ [f.dest]).foldl State.mark s).result =
        ([f.dest].foldl State.mark u).result := by
      rw [List.foldl_append, State.entered_foldl_mark, State.entered_foldl_mark,
        State.entered_foldl_mark, result', State.entered_foldl_mark, result]
    have builtin : ∀ a ∈ f.args, p.HasBuiltin a :=
      fun a mem => builtins m (.refl m) (some f) a ⟨(spelled_eq_ok spelled).1, mem⟩
    have taken := flag_alike aligned builtin spelled spelled' (valued.trans valued'.symm)
      (valued.symm ▸ args) flagged flagged' inPlace inPlace' next next' marked
      (behind'.symm ▸ behind)
    rw [goes, command_of_flag next flagged (endsFlags_of_single single text),
      command_of_flag next' flagged'
        (endsFlags_of_single single' (Token.toList_of_flagChars? flagged').2)]
    generalize p.flag m.flags token c (codes ++ Spelling.written value) s = o at taken
    generalize q.flag m.flags token' d (Spelling.written value) u = o' at taken
    cases taken with
    | ok h =>
      apply command_aligned aligned builtins true h.result
      exact h.left.imp fun _ _ h =>
        ⟨h.toAlike, fun _ => h.quoted trivial, fun _ => h.positions trivial⟩
    | halt h => exact .halt h

/-- Packed short codes are equivalent to single ones. Two parses stand on the same level with flags
active, and with the same found before. On one line stand short codes behind one dash, and perhaps a
value behind an equals sign; on the other line each code stands behind a dash of its own, the last
one with the value. The same words follow, and no flag takes arguments but the last. Then the rest
of the level, and all below it, ends with the same results, or with faults of the same kind and with
the same message. Codes may be unknown or repeated, and the last one may take no arguments. -/
theorem packing_equivalent (p : Parser) (line : String) {n : Schema Value}
    {remaining : List (Argument Value)} {codes : List Char} {value : Option (List Char)}
    {token : Token} {tokens after after' : List Token} {s t : State} (made : n.Made)
    (builtins : p.HasBuiltins n) (java : p.options.javaFlags = false)
    (suffix : remaining <:+ n.args) (some_code : codes ≠ [])
    (plain : ∀ c ∈ codes, c ≠ '-' ∧ c ≠ '=')
    (bare : ∀ c ∈ codes.dropLast, ∀ f ∈ n.flags, f.short = some c → f.args = [])
    (quoted : token.quoted = false)
    (text : token.text.toList = '-' :: codes ++ Spelling.written value)
    (singly : Singly value codes tokens)
    (left : s.left = token :: after) (left' : t.left = tokens ++ after')
    (texts : after.map Token.text = after'.map Token.text)
    (quotes : after.map Token.quoted = after'.map Token.quoted) (result : s.result = t.result)
    (inPlace : s.InPlace p.source) (inPlace' : t.InPlace line) :
    let q : Parser := { p with source := line }
    let level : Schema Value := { n with args := remaining }
    (∃ x y, p.command true s level = .ok x ∧ q.command true t level = .ok y ∧
      x.result = y.result) ∨
    ∃ g h x y, p.command true s level = .halt (.fault g) x ∧
      q.command true t level = .halt (.fault h) y ∧ g.kind = h.kind ∧ g.message = h.message := by
  intro q level
  obtain ⟨c, codes, rfl⟩ := List.exists_cons_of_ne_nil some_code
  have aligned : p.Aligned (fun _ _ => True) q := ⟨rfl, rfl, rfl, rfl, trivial⟩
  have unwritten : shortFlag? level.flags '=' = none := by
    rw [shortFlag?, List.find?_eq_none]
    intro f mem short
    exact ((made.flags f mem).short_plain (of_decide_eq_true short)).2 rfl
  obtain ⟨next, following⟩ := State.of_left_eq_cons left
  have behind : s.advance.left.Forall₂ (Token.ReadsAlike True (fun _ _ => True) p.source line)
      after' := by
    rw [following]
    refine readsAlike_of_words ?_ ?_ texts fun _ => quotes
    · exact fun b mem => inPlace b (left ▸ List.mem_cons_of_mem token mem)
    · exact fun b mem => inPlace' b (left' ▸ List.mem_append_right tokens mem)
  have walks : q.Walks level value t after' _ := walks_of_singly unwritten java singly plain
    (fun d mem f found => bare d mem f (shortFlag?_eq_some found).1 (shortFlag?_eq_some found).2)
    inPlace' left'
  have whole := command_packed aligned (builtins.of_suffix suffix) unwritten java plain quoted text
    inPlace next behind result walks
  generalize outcome : p.command true s level = o at whole
  generalize q.command true t level = o' at whole
  cases whole with
  | ok same => exact .inl ⟨_, _, rfl, rfl, same⟩
  | halt h =>
    cases h with
    | fault h => exact .inr ⟨_, _, _, _, rfl, rfl, h.kind, h.message⟩
    | crash c =>
      obtain ⟨f, crashed, -⟩ := fault_of_builtins (builtins.of_suffix suffix) inPlace outcome
      cases crashed

/-- A command with a flag that takes no argument and one that takes one. -/
def listing : Schema Value where
  name := some "list"
  dest := "list"
  aliases := []
  help := none
  args := [.ofType "folder" "string" true]
  flags := [⟨"all", some "all", some 'a', none, []⟩,
    ⟨"limit", some "limit", some 'n', none, [.ofType "count" "int" true]⟩]
  subcommands := []

theorem listing_made : listing.Made := by
  have folder : (Argument.ofType "folder" "string" true).Made :=
    ⟨⟨Argument.fields (.ofType "folder" "string" true), rfl⟩, fun _ h => nomatch h⟩
  have count : (Argument.ofType "count" "int" true).Made :=
    ⟨⟨Argument.fields (.ofType "count" "int" true), rfl⟩, fun _ h => nomatch h⟩
  have all : Flag.make (.str "all") (.str "a") .unset .unset (.ok []) =
      .ok ⟨"all", some "all", some 'a', none, []⟩ := rfl
  have limit : Flag.make (.str "limit") (.str "n") .unset .unset
      (.ok [.ofType "count" "int" true]) =
        .ok ⟨"limit", some "limit", some 'n', none, [.ofType "count" "int" true]⟩ := rfl
  have whole : Schema.make (.str "list") .unset (.tuple []) .unset
      (.ok ⟨listing.args, listing.flags, []⟩) = .ok listing := rfl
  exact .make (List.forall_mem_singleton.2 folder)
    (List.forall_mem_cons.2 ⟨.make (List.forall_mem_nil _) all,
      List.forall_mem_singleton.2 (.make (List.forall_mem_singleton.2 count) limit)⟩)
    (List.forall_mem_nil _) whole

theorem hasBuiltins_listing (source : String) : (forLine source).HasBuiltins listing :=
  hasBuiltins_of_leaf rfl rfl (List.forall_mem_singleton.2 ⟨"string", rfl⟩)
    (List.forall_mem_cons.2 ⟨List.forall_mem_nil _,
      List.forall_mem_singleton.2 (List.forall_mem_singleton.2 ⟨"int", rfl⟩)⟩)

/-- A code that is given twice, and a last one with a value. -/
theorem packing_equivalent_listing : ∃ x y,
    (forLine "-aan=3 home").command true ((forLine "-aan=3 home").initial 0) listing = .ok x ∧
    (forLine "-a -a -n=3 home").command true ((forLine "-a -a -n=3 home").initial 0) listing =
      .ok y ∧
    x.result.keys = ["all", "limit", "count", "folder", "list"] ∧ x.result = y.result := by
  obtain ⟨m, ok, keys⟩ : ∃ m, ((forLine "-aan=3 home").parse listing 0).result = .ok m ∧
      m.keys = ["all", "limit", "count", "folder", "list"] := Report.exists_ok (by decide +kernel)
  obtain ⟨x, command, rfl, -⟩ := parse_eq_ok ok
  have singly : Singly (some ['3']) ['a', 'a', 'n']
      [⟨"-a", 0, 2, false⟩, ⟨"-a", 3, 5, false⟩, ⟨"-n=3", 6, 10, false⟩] :=
    .cons rfl (by decide) (.cons rfl (by decide) (.last rfl (by decide)))
  have bare : ∀ c ∈ ['a', 'a', 'n'].dropLast, ∀ f ∈ listing.flags, f.short = some c →
      f.args = [] := by
    intro c mem f owned coded
    rcases List.mem_cons.1 owned with rfl | owned
    · rfl
    · obtain rfl := List.mem_singleton.1 owned
      cases coded
      exact absurd mem (by decide)
  have plain : ∀ c ∈ ['a', 'a', 'n'], c ≠ '-' ∧ c ≠ '=' := by simp
  have left : ((forLine "-aan=3 home").initial 0).left =
      ⟨"-aan=3", 0, 6, false⟩ :: [⟨"home", 7, 11, false⟩] := by decide +kernel
  have left' : ((forLine "-a -a -n=3 home").initial 0).left =
      [⟨"-a", 0, 2, false⟩, ⟨"-a", 3, 5, false⟩, ⟨"-n=3", 6, 10, false⟩] ++
        [⟨"home", 11, 15, false⟩] := by decide +kernel
  obtain ⟨x', y, hx, hy, same⟩ | ⟨g, h, x', y, failed, -⟩ :=
    packing_equivalent (forLine "-aan=3 home") "-a -a -n=3 home" listing_made
      (hasBuiltins_listing _) rfl List.suffix_rfl (List.cons_ne_nil _ _) plain bare rfl
      (by decide) singly left left' rfl rfl rfl (inPlace_tokenize _ 0) (inPlace_tokenize _ 0)
  · cases hx.symm.trans command
    exact ⟨x, y, command, hy, keys, same⟩
  · cases failed.symm.trans command

end Parser

end CommandGrammar
