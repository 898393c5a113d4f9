import CommandGrammar.Proofs.Parse.Agreement
import CommandGrammar.Proofs.Parse.Grammar
import CommandGrammar.Proofs.Parse.Handing
import CommandGrammar.Proofs.Parse.Layout
import CommandGrammar.Proofs.Parse.Order
import CommandGrammar.Proofs.Schema.Made

/-!
# Spellings of a flag

A flag can be given by its long code behind two dashes, by its short code behind one, or, as an
option, by its long code behind one. The value of its first argument stands behind the flag's token
or behind an equals sign in it. However a flag and its value are given, the rest of the level goes
in the same way (`spellings_equivalent`): the same is found in the results, or the same fault is
raised.
-/

namespace CommandGrammar

/-! ## Codes -/

namespace Flag.Made

variable {f : Flag Value}

/-- A long code is not empty, does not begin with a dash and holds no equals sign. -/
theorem long_plain (made : f.Made) {code : String} (long : f.long = some code) :
    code.toList ≠ [] ∧ code.toList.head? ≠ some '-' ∧ '=' ∉ code.toList := by
  have read := made.settled.long
  rw [long] at read
  change longOf (.str code) = .ok (some code) at read
  rw [longOf] at read
  split at read
  · cases read
  · rename_i nonempty
    split at read
    · cases read
    · rename_i dashes
      split at read
      · cases read
      · rename_i malformed
        refine ⟨?_, dashes, ?_⟩
        · intro nil
          exact nonempty (String.isEmpty_iff.2 (String.toList_eq_nil_iff.1 nil))
        · intro mem
          exact malformed (Bool.or_eq_true_iff.2 (.inl (List.contains_iff_mem.2 mem)))

/-- A short code is neither a dash nor an equals sign. -/
theorem short_plain (made : f.Made) {code : Char} (short : f.short = some code) :
    code ≠ '-' ∧ code ≠ '=' := by
  have read := made.settled.short
  rw [short] at read
  change shortOf (.str code.toString) = .ok (some code) at read
  have single : code.toString.toList = [code] := String.toList_singleton code
  rw [shortOf, single] at read
  dsimp only at read
  split at read
  · cases read
  · rename_i malformed
    constructor
    · rintro rfl
      simp at malformed
    · rintro rfl
      simp at malformed

end Flag.Made

section Found

variable {flags : List (Flag Value)} {f : Flag Value}

/-- Where codes are distinct, looking for a code finds the flag that has it. -/
theorem find?_code {test : Flag Value → Bool} (code : String)
    (distinct : (flags.flatMap Flag.codes).Nodup) (mem : f ∈ flags) (passes : test f = true)
    (coded : ∀ g, test g = true → code ∈ g.codes) : flags.find? test = some f := by
  cases found : flags.find? test with
  | none => exact absurd passes (List.find?_eq_none.1 found f mem)
  | some g =>
    have passes' := List.find?_some found
    have mem' := List.mem_of_find?_eq_some found
    rw [eq_of_nodup_flatMap distinct mem' mem (coded g passes') (coded f passes)]

theorem longFlag?_code {code : String} (distinct : (flags.flatMap Flag.codes).Nodup)
    (mem : f ∈ flags) (long : f.long = some code) : longFlag? flags code.toList = some f := by
  apply find?_code ("--" ++ code) distinct mem
  · simp [long]
  · intro g named
    apply Flag.mem_codes_of_long
    simpa using named

theorem shortFlag?_code {code : Char} (distinct : (flags.flatMap Flag.codes).Nodup)
    (mem : f ∈ flags) (short : f.short = some code) : shortFlag? flags code = some f := by
  apply find?_code ("-" ++ code.toString) distinct mem
  · simp [short]
  · intro g coded
    apply Flag.mem_codes_of_short
    simpa using coded

end Found

/-! ## How a flag and its value are given -/

namespace Spelling

/-- A value behind an equals sign, if there is one. -/
def written : Option (List Char) → List Char
  | none => []
  | some value => '=' :: value

/-- Up to the first equals sign stands the name, and behind it the value. -/
theorem parts_append {name : List Char} (plain : '=' ∉ name) (value : Option (List Char)) :
    (name ++ written value).takeWhile (· != '=') = name ∧
      afterEquals (name ++ written value) = value := by
  induction name with
  | nil => cases value <;> simp [written, afterEquals]
  | cons c name ih =>
    rw [List.mem_cons, not_or] at plain
    obtain ⟨taken, behind⟩ := ih plain.2
    have different : (c != '=') = true := by simp [Ne.symm plain.1]
    constructor
    · rw [List.cons_append, List.takeWhile_cons, if_pos different, taken]
    · rw [afterEquals] at behind ⊢
      rw [List.cons_append, List.dropWhile_cons, if_pos different]
      exact behind

theorem ofChars_long {name : List Char} (plain : '=' ∉ name) (value : Option (List Char)) :
    ofChars '-' (name ++ written value) = ⟨true, name, value⟩ := by
  obtain ⟨taken, behind⟩ := parts_append plain value
  rw [ofChars, if_pos rfl, taken, behind]

theorem ofChars_short {c : Char} {name : List Char} (single : c ≠ '-') (plain : '=' ∉ c :: name)
    (value : Option (List Char)) :
    ofChars c (name ++ written value) = ⟨false, c :: name, value⟩ := by
  obtain ⟨taken, behind⟩ := parts_append plain value
  rw [ofChars, if_neg single, ← List.cons_append, taken, behind]

end Spelling

/-- Where a step succeeds, another one follows. -/
def Outcome.andThen (o : Outcome) (next : State → Outcome) : Outcome :=
  match o with
  | .ok s => next s
  | .halt h s => .halt h s

namespace Options

/-- The characters of a token that give a flag, up to its value. An equals sign may stand behind a
short code only as an option, and a short code must not be taken for a long one. -/
inductive Codes (o : Options) (flags : List (Flag Value)) (f : Flag Value) (equals : Bool) :
    List Char → Prop
  | long {name : String} (long : f.long = some name) :
      Codes o flags f equals ('-' :: '-' :: name.toList)
  | java {name : String} (long : f.long = some name) (on : o.javaFlags = true) :
      Codes o flags f equals ('-' :: name.toList)
  | short {c : Char} (short : f.short = some c)
      (free : o.javaFlags = true → ∀ g ∈ flags, g.long ≠ some (String.ofList [c]))
      (may : equals = true → o.equalsInShortFlags = true) :
      Codes o flags f equals ['-', c]

/-- Tokens that give a flag and a word to its first argument: as a token behind the flag's own,
behind an equals sign that ends it, or within it behind an equals sign. -/
inductive Presents (o : Options) (flags : List (Flag Value)) (f : Flag Value) (word : String) :
    List Token → Prop
  | apart {code : List Char} {flag value : Token} (codes : o.Codes flags f false code)
      (plain : flag.quoted = false) (spelt : flag.text.toList = code) (text : value.text = word) :
      Presents o flags f word [flag, value]
  | trailing {code : List Char} {flag value : Token} (codes : o.Codes flags f true code)
      (plain : flag.quoted = false) (spelt : flag.text.toList = code ++ ['='])
      (text : value.text = word) : Presents o flags f word [flag, value]
  | inline {code : List Char} {flag : Token} (codes : o.Codes flags f true code)
      (plain : flag.quoted = false) (spelt : flag.text.toList = code ++ '=' :: word.toList) :
      Presents o flags f word [flag]

end Options

namespace Parser

variable {p q : Parser} {flags : List (Flag Value)} {f : Flag Value} {equals : Bool}
  {code : List Char} {value : Option (List Char)} {c : Char} {rest : List Char}
  {marks : List String} {a : Argument Value} {others : List (Argument Value)} {word : String}
  {v : Value} {given after : List Token} {token : Token} {s t : State}

/-- The characters behind a dash give a flag alone, and a value if there is one. -/
structure Gives (p : Parser) (flags : List (Flag Value)) (f : Flag Value)
    (value : Option (List Char)) (c : Char) (rest : List Char) (marks : List String) : Prop where
  value : (Spelling.ofChars c rest).value = value
  /-- No key is marked but the flag's own. -/
  own : ∀ key ∈ marks, key = f.dest
  /-- It is not the mark that ends the flags. -/
  named : c = '-' → rest ≠ []
  spelled : ∀ token, p.spelled flags token c rest = .ok ⟨f, marks⟩

/-- However a flag is given, it is read so. -/
theorem gives_of_codes (codes : p.options.Codes flags f equals code) (made : f.Made)
    (args : value ≠ none → f.args ≠ []) (distinct : (flags.flatMap Flag.codes).Nodup)
    (mem : f ∈ flags) (may : value ≠ none → equals = true) :
    ∃ c rest marks, code ++ Spelling.written value = '-' :: c :: rest ∧
      p.Gives flags f value c rest marks := by
  cases codes with
  | @long name long =>
    obtain ⟨nonempty, -, plain⟩ := made.long_plain long
    have spelling := Spelling.ofChars_long plain value
    have found := longFlag?_code distinct mem long
    refine ⟨'-', name.toList ++ Spelling.written value, [], rfl, ?_⟩
    refine ⟨congrArg Spelling.value spelling, List.forall_mem_nil _, ?_, ?_⟩
    · intro _ nil
      exact nonempty (List.append_eq_nil_iff.1 nil).1
    · intro token
      rw [spelled, spelling]
      dsimp only
      rw [found]
      rfl
  | @java name long on =>
    obtain ⟨nonempty, dashes, plain⟩ := made.long_plain long
    have found := longFlag?_code distinct mem long
    obtain ⟨c, cs, chars⟩ := List.exists_cons_of_ne_nil nonempty
    rw [chars] at dashes plain found ⊢
    have single : c ≠ '-' := fun dash => dashes (congrArg some dash)
    have spelling := Spelling.ofChars_short single plain value
    refine ⟨c, cs ++ Spelling.written value, [], rfl, ?_⟩
    refine ⟨congrArg Spelling.value spelling, List.forall_mem_nil _, ?_, ?_⟩
    · exact fun dash => absurd dash single
    · intro token
      rw [spelled, spelling]
      dsimp only
      rw [found, on]
      rfl
  | @short c short free may' =>
    obtain ⟨single, plain⟩ := made.short_plain short
    have plain' : '=' ∉ [c] := fun mem => plain (List.mem_singleton.1 mem).symm
    have spelling := Spelling.ofChars_short single plain' value
    rw [List.nil_append] at spelling
    have walked : shortCodes flags p.options.equalsInShortFlags c (Spelling.written value) =
        .ok ⟨f, [f.dest]⟩ := by
      rw [shortCodes, shortFlag?_code distinct mem short]
      cases value with
      | none => rfl
      | some value =>
        have ends := may' (may (Option.some_ne_none _))
        have taking : f.args.isEmpty = false :=
          List.isEmpty_eq_false_iff.2 (args (Option.some_ne_none _))
        simp [Spelling.written, packed, ends, taking]
    refine ⟨c, Spelling.written value, [f.dest], rfl, ?_⟩
    refine ⟨congrArg Spelling.value spelling, ?_, ?_, ?_⟩
    · exact fun key mem => List.mem_singleton.1 mem
    · exact fun dash => absurd dash single
    · intro token
      rw [spelled, spelling, walked]
      cases found : longFlag? flags [c] with
      | none => rfl
      | some g =>
        have named := List.find?_some found
        have java : p.options.javaFlags = false := by
          rw [Bool.eq_false_iff]
          intro on
          exact free on g (List.mem_of_find?_eq_some found) (by simpa using named)
        rw [java]
        rfl

/-! ## The rest of a level behind a flag -/

theorem flagChars?_of_toList (plain : token.quoted = false)
    (chars : token.text.toList = '-' :: c :: rest) : token.flagChars? = some (c, rest) := by
  rw [Token.flagChars?, plain, chars]
  rfl

/-- At a flag, a command does what the flag does and goes on behind it. -/
theorem command_of_flag {m : Schema Value} (next : s.next? = some token)
    (flagged : spells true token = some (c, rest)) (ends : p.endsFlags token = false) :
    p.command true s m =
      (p.flag m.flags token c rest s).andThen fun t => p.command true t m := by
  rw [command_eq, level_next next]
  simp only [flagged, ends, Bool.false_eq_true, if_false]
  cases p.flag m.flags token c rest s with
  | ok t =>
    dsimp only [Outcome.andThen]
    rw [command_eq]
  | halt h t => rfl

/-- Marks under a hidden key make no difference. -/
theorem sameBut_foldl_mark {key : String} (own : ∀ other ∈ marks, other = key)
    {m : Mapping Value} (same : m.SameBut (· = key) s.result) :
    m.SameBut (· = key) (marks.foldl State.mark s).result := by
  induction marks generalizing s with
  | nil => exact same
  | cons other marks ih =>
    obtain ⟨rfl, own⟩ := List.forall_mem_cons.1 own
    exact ih own (same.hide _)

theorem Gives.endsFlags (gives : p.Gives flags f value c rest marks)
    (chars : token.text.toList = '-' :: c :: rest) : p.endsFlags token = false := by
  by_cases mark : token.text = "--"
  · rw [mark] at chars
    obtain ⟨-, behind⟩ := List.cons.inj chars
    obtain ⟨dash, nil⟩ := List.cons.inj behind
    exact absurd nil.symm (gives.named dash.symm)
  · simp [Parser.endsFlags, mark]

/-- The word comes first where the arguments of the flag begin, whether it was cut off the flag or
stood behind it. -/
theorem Gives.left_eq (gives : p.Gives flags f value c rest marks) {inline : Bool}
    (opens : p.Opens token c rest f s inline t) (next : s.next? = some token)
    (handed : value.getD [] = [] ∧ (∃ first, s.advance.left = first :: after ∧ first.text = word) ∨
      value = some word.toList ∧ word ≠ "" ∧ s.advance.left = after) :
    ∃ first, t.left = first :: after ∧ first.text = word := by
  have left := opens.left_eq next
  rw [gives.value] at left
  rcases handed with ⟨empty, first, behind, text⟩ | ⟨inside, nonempty, behind⟩
  · rcases left with ⟨-, same⟩ | ⟨head, piece, ⟨hasValue, -, -⟩, -⟩
    · exact ⟨first, same.trans behind, text⟩
    · rw [gives.value.symm.trans hasValue] at empty
      cases empty
  · rcases left with ⟨empty, -⟩ | ⟨head, piece, ⟨hasValue, -, -⟩, cons⟩
    · rw [inside] at empty
      exact absurd (String.toList_eq_nil_iff.1 empty) nonempty
    · have chars := Option.some.inj ((gives.value.symm.trans hasValue).symm.trans inside)
      rw [behind] at cons
      exact ⟨_, cons, by rw [chars, String.ofList_toList]⟩

/-- A command at a flag that is given with a word to its first argument writes what the word reads
as, and goes on with the other arguments of the flag. -/
theorem Gives.command_eq {m : Schema Value} (gives : p.Gives m.flags f value c rest marks)
    (args : f.args = a :: others) (reads : p.reads a word = some v)
    (plain : token.quoted = false) (chars : token.text.toList = '-' :: c :: rest)
    (inPlace : s.InPlace p.source) (next : s.next? = some token)
    (handed : value.getD [] = [] ∧ (∃ t, s.advance.left = t :: after ∧ t.text = word) ∨
      value = some word.toList ∧ word ≠ "" ∧ s.advance.left = after) :
    ∃ u, u.left = after ∧ (s.result.insert a.dest v).SameBut (· = f.dest) u.result ∧
      p.command true s m = ((p.flagArguments false others u).marked f.dest).andThen
        fun t => p.command true t m := by
  have flagged := flagChars?_of_toList plain chars
  have filled : f.args ≠ [] := args ▸ List.cons_ne_nil _ _
  obtain ⟨inline, u, opens⟩ :=
    exists_opens (fun _ => filled) (inPlace.next next flagged) flagged (marks.foldl State.mark s)
  rw [← advance_left_foldl_mark marks s] at handed
  obtain ⟨first, left, text⟩ :=
    gives.left_eq opens ((next?_foldl_mark marks s).trans next) handed
  obtain ⟨b, builtin⟩ := builtin_of_reads reads
  have ok : p.argument a u = .ok (u.take [] a.dest v 1) :=
    (argument_reads builtin).2 ⟨first, after, v, left, text.symm ▸ reads, rfl⟩
  refine ⟨u.take [] a.dest v 1, ?_, ?_, ?_⟩
  · have tail : (u.take [] a.dest v 1).left = u.left.tail := List.tail_drop.symm
    rw [tail, left, List.tail_cons]
  · have same := sameBut_foldl_mark gives.own (.refl (· = f.dest) s.result)
    rw [← opens.result] at same
    exact (Mapping.congruent_sameBut _).insert same a.dest v
  · rw [command_of_flag next flagged (gives.endsFlags chars), opens.flag_eq (gives.spelled token),
      args, flagArguments_of_ok inline others ok]

/-- However a flag and the word of its first argument are presented, a command goes on from the
tokens behind them, with the same written but for the mark of the flag. -/
theorem command_eq_of_presents {m : Schema Value}
    (presents : p.options.Presents m.flags f word given) (made : f.Made)
    (distinct : (m.flags.flatMap Flag.codes).Nodup) (mem : f ∈ m.flags)
    (args : f.args = a :: others) (reads : p.reads a word = some v) (nonempty : word ≠ "")
    (inPlace : s.InPlace p.source) (left : s.left = given ++ after) :
    ∃ u, u.left = after ∧ (s.result.insert a.dest v).SameBut (· = f.dest) u.result ∧
      p.command true s m = ((p.flagArguments false others u).marked f.dest).andThen
        fun t => p.command true t m := by
  have filled : f.args ≠ [] := args ▸ List.cons_ne_nil _ _
  cases presents with
  | @apart code flag value codes plain spelt text =>
    obtain ⟨next, behind⟩ := State.of_left_eq_cons left
    obtain ⟨c, rest, marks, split, gives⟩ :=
      gives_of_codes codes made (fun _ => filled) distinct mem fun given : none ≠ none =>
        absurd rfl given
    rw [← spelt] at split
    exact gives.command_eq args reads plain ((List.append_nil _).symm.trans split) inPlace next
      (.inl ⟨rfl, value, behind, text⟩)
  | @trailing code flag value codes plain spelt text =>
    obtain ⟨next, behind⟩ := State.of_left_eq_cons left
    obtain ⟨c, rest, marks, split, gives⟩ :=
      gives_of_codes codes made (fun _ => filled) distinct mem fun _ : some [] ≠ none => rfl
    exact gives.command_eq args reads plain (spelt.trans split) inPlace next
      (.inl ⟨rfl, value, behind, text⟩)
  | @inline code flag codes plain spelt =>
    obtain ⟨next, behind⟩ := State.of_left_eq_cons left
    obtain ⟨c, rest, marks, split, gives⟩ :=
      gives_of_codes codes made (fun _ => filled) distinct mem fun _ : some word.toList ≠ none =>
        rfl
    exact gives.command_eq args reads plain (spelt.trans split) inPlace next
      (.inr ⟨rfl, nonempty, behind⟩)

/-! ## Parses side by side with results that agree -/

/-- States at words that are related, with results that agree but for what is hidden. -/
structure Parallel (tokens : Token → Token → Prop) (hidden : String → Prop) (s t : State) :
    Prop where
  left : s.left.Forall₂ tokens t.left
  result : s.result.SameBut hidden t.result

variable {offsets : Int → Int → Prop} {tokens : Token → Token → Prop} {hidden : String → Prop}

/-- Where parses from the same result go alike and parses from the same tokens correspond, parses
go alike. -/
theorem rel_parallel {go go' : State → Outcome}
    (layout : ∀ t, s.Alike tokens t →
      (go s).Rel (State.Alike tokens) (Halt.Alike offsets) (go' t))
    (results : ∀ s, s.Corresponds (Mapping.SameBut hidden) t →
      (go' s).Rel (State.Corresponds (Mapping.SameBut hidden)) Eq (go' t))
    (h : Parallel tokens hidden s t) :
    (go s).Rel (Parallel tokens hidden) (Halt.Alike offsets) (go' t) := by
  -- Between the two states stands one with the tokens of the one and the result of the other.
  have alike := layout { t with result := s.result } ⟨h.left, rfl⟩
  have corresponds := results { t with result := s.result } ⟨rfl, rfl, h.result⟩
  refine alike.trans corresponds ?_ fun f g h' alike same => same ▸ alike
  intro s t u alike corresponds
  exact ⟨corresponds.left.symm ▸ alike.left, alike.result ▸ corresponds.result⟩

theorem flagArguments_parallel (aligned : p.Aligned offsets q)
    (alike : ∀ x y, tokens x y → x.Alike offsets y) (inline : Bool) {args : List (Argument Value)}
    (builtin : ∀ a ∈ args, p.HasBuiltin a) (h : Parallel tokens hidden s t) :
    (p.flagArguments inline args s).Rel (Parallel tokens hidden) (Halt.Alike offsets)
      (q.flagArguments inline args t) := by
  apply rel_parallel _ _ h
  · intro t
    exact (argumentLayout aligned tokens alike).flagArguments inline
      (List.forall₂_same.2 fun a mem => ⟨rfl, builtin a mem⟩)
  · intro s
    exact flagArguments_corresponds (Mapping.congruent_sameBut hidden) inline args

theorem command_parallel (aligned : p.Aligned offsets q) {n : Schema Value}
    (builtins : p.HasBuiltins n)
    (h : Parallel (Token.ReadsAlike True offsets p.source q.source) hidden s t) :
    (p.command true s n).Rel
      (Parallel (Token.ReadsAlike True offsets p.source q.source) hidden) (Halt.Alike offsets)
      (q.command true t n) := by
  apply rel_parallel _ _ h
  · intro t
    exact (layout aligned True).command ⟨rfl, builtins⟩ true s t fun _ => trivial
  · intro s
    exact command_corresponds (Mapping.congruent_sameBut hidden) true n

/-- The types of a schema are builtin if some of its arguments are left out. -/
theorem HasBuiltins.of_suffix {n : Schema Value} {args : List (Argument Value)}
    (builtins : p.HasBuiltins n) (suffix : args <:+ n.args) :
    p.HasBuiltins { n with args := args } := by
  intro m reaches owner a owns
  cases reaches with
  | refl =>
    cases owner with
    | none => exact builtins n (.refl n) none a (suffix.subset owns)
    | some f => exact builtins n (.refl n) (some f) a owns
  | down mem below => exact builtins m (.down mem below) owner a owns

/-- Behind the value of a flag's first argument, commands go alike where the states are parallel but
for the mark of the flag. -/
theorem rest_parallel (aligned : p.Aligned offsets q) {m : Schema Value}
    (builtins : p.HasBuiltins m) (mem : f ∈ m.flags) (suffix : others <:+ f.args)
    (h : Parallel (Token.ReadsAlike True offsets p.source q.source) (· = f.dest) s t) :
    (((p.flagArguments false others s).marked f.dest).andThen fun s => p.command true s m).Rel
      (Parallel (Token.ReadsAlike True offsets p.source q.source) fun _ => False)
      (Halt.Alike offsets)
      (((q.flagArguments false others t).marked f.dest).andThen fun t => q.command true t m) := by
  have builtin : ∀ b ∈ others, p.HasBuiltin b := by
    intro b later
    exact builtins m (.refl m) (some f) b ⟨mem, suffix.subset later⟩
  have further := flagArguments_parallel aligned (fun _ _ h => h.toAlike) false builtin h
  generalize p.flagArguments false others s = o at further
  generalize q.flagArguments false others t = o' at further
  cases further with
  | halt h => exact .halt h
  | ok h =>
    -- The flag is marked now, whatever was marked before.
    exact command_parallel aligned builtins ⟨h.left, h.result.insert _⟩

/-- The spellings of a flag are equivalent. Two parses stand before a flag, on the same level and
with the same found before, and their lines present it and the same word to its first argument in
any of the ways, and the same words follow. Then the rest of the level, and all below it, ends with
the same found, or with faults of the same kind and with the same message. The word may be anything
that the argument's type reads, with dashes and equals signs in it. -/
theorem spellings_equivalent (p : Parser) (line : String) {n : Schema Value} {f : Flag Value}
    {a : Argument Value} {others remaining : List (Argument Value)} {word : String} {v : Value}
    {given given' after after' : List Token} {s t : State} (made : n.Made)
    (builtins : p.HasBuiltins n) (mem : f ∈ n.flags) (args : f.args = a :: others)
    (reads : p.reads a word = some v) (nonempty : word ≠ "") (suffix : remaining <:+ n.args)
    (presents : p.options.Presents n.flags f word given)
    (presents' : p.options.Presents n.flags f word given')
    (left : s.left = given ++ after) (left' : t.left = given' ++ after')
    (texts : after.map Token.text = after'.map Token.text)
    (quotes : after.map Token.quoted = after'.map Token.quoted)
    (result : ∀ key, s.result.get? key = t.result.get? key)
    (inPlace : s.InPlace p.source) (inPlace' : t.InPlace line) :
    let q : Parser := { p with source := line }
    let level : Schema Value := { n with args := remaining }
    (∃ x y, p.command true s level = .ok x ∧ q.command true t level = .ok y ∧
      ∀ key, x.result.get? key = y.result.get? key) ∨
    ∃ g h x y, p.command true s level = .halt (.fault g) x ∧
      q.command true t level = .halt (.fault h) y ∧ g.kind = h.kind ∧ g.message = h.message := by
  intro q level
  have flagMade := made.flags f mem
  have distinct : (n.flags.flatMap Flag.codes).Nodup :=
    (Schema.Children.check_eq_ok made.settled.check).1
  obtain ⟨x, behind, written, command⟩ := command_eq_of_presents (m := level) presents flagMade
    distinct mem args reads nonempty inPlace left
  obtain ⟨y, behind', written', command'⟩ := command_eq_of_presents (p := q) (m := level) presents'
    flagMade distinct mem args reads nonempty inPlace' left'
  have aligned : p.Aligned (fun _ _ => True) q := ⟨rfl, rfl, rfl, rfl, trivial⟩
  have placed : ∀ {line s given after}, State.InPlace line s → s.left = given ++ after →
      ∀ b ∈ after, b.quoted = false → b.Placed line := by
    intro line s given after inPlace left b mem
    exact inPlace b (left ▸ List.mem_append_right given mem)
  have tokens : after.Forall₂ (Token.ReadsAlike True (fun _ _ => True) p.source line) after' :=
    readsAlike_of_words (placed inPlace left) (placed inPlace' left') texts fun _ => quotes
  have parallel : Parallel (Token.ReadsAlike True (fun _ _ => True) p.source line)
      (· = f.dest) x y := by
    constructor
    · rw [behind, behind']
      exact tokens
    · intro key shown
      rw [← written key shown, ← written' key shown]
      simp only [Mapping.get?_insert, result]
  have whole := rest_parallel aligned (builtins.of_suffix suffix) mem
    (args ▸ List.suffix_cons a others) parallel
  rw [← command, ← command'] at whole
  generalize outcome : p.command true s level = o at whole
  generalize q.command true t level = o' at whole
  cases whole with
  | ok h => exact .inl ⟨_, _, rfl, rfl, fun key => h.result key id⟩
  | halt h =>
    cases h with
    | fault h => exact .inr ⟨_, _, _, _, rfl, rfl, h.kind, h.message⟩
    | crash c =>
      obtain ⟨g, crashed, -⟩ := fault_of_builtins (builtins.of_suffix suffix) inPlace outcome
      cases crashed

/-- A command that looks for a pattern. -/
def search : Schema Value where
  name := some "search"
  dest := "search"
  aliases := []
  help := none
  args := [.ofType "file" "string" false]
  flags := [⟨"pattern", some "pattern", some 'e', none, [.ofType "text" "string" true]⟩]
  subcommands := []

theorem search_made : search.Made := by
  have file : (Argument.ofType "file" "string" false).Made :=
    ⟨⟨Argument.fields (.ofType "file" "string" false), rfl⟩, fun _ h => nomatch h⟩
  have text : (Argument.ofType "text" "string" true).Made :=
    ⟨⟨Argument.fields (.ofType "text" "string" true), rfl⟩, fun _ h => nomatch h⟩
  have flag : Flag.make (.str "pattern") (.str "e") .unset .unset
      (.ok [.ofType "text" "string" true]) =
        .ok ⟨"pattern", some "pattern", some 'e', none, [.ofType "text" "string" true]⟩ := rfl
  have whole : Schema.make (.str "search") .unset (.tuple []) .unset
      (.ok ⟨search.args, search.flags, []⟩) = .ok search := rfl
  exact .make (List.forall_mem_singleton.2 file)
    (List.forall_mem_singleton.2 (.make (List.forall_mem_singleton.2 text) flag))
    (List.forall_mem_nil _) whole

theorem hasBuiltins_search (source : String) : (forLine source).HasBuiltins search :=
  hasBuiltins_of_leaf rfl rfl (List.forall_mem_singleton.2 ⟨"string", rfl⟩)
    (List.forall_mem_singleton.2 (List.forall_mem_singleton.2 ⟨"string", rfl⟩))

/-- A pattern with a dash and an equals sign in it, behind either code of the flag. -/
theorem spellings_equivalent_search : ∃ x y,
    (forLine "--pattern -x=1 notes").command true
      ((forLine "--pattern -x=1 notes").initial 0) search = .ok x ∧
    (forLine "-e=-x=1 notes").command true ((forLine "-e=-x=1 notes").initial 0) search = .ok y ∧
    x.result.get? "text" = some (.str "-x=1") ∧ ∀ key, x.result.get? key = y.result.get? key := by
  obtain ⟨m, ok, text⟩ : ∃ m, ((forLine "--pattern -x=1 notes").parse search 0).result = .ok m ∧
      m.get? "text" = some (.str "-x=1") :=
    Report.exists_ok_of_scalar (.str "-x=1") (by decide +kernel)
  obtain ⟨x, command, rfl, -⟩ := parse_eq_ok ok
  have presents : Options.standard.Presents search.flags
      ⟨"pattern", some "pattern", some 'e', none, [.ofType "text" "string" true]⟩ "-x=1"
      [⟨"--pattern", 0, 9, false⟩, ⟨"-x=1", 10, 14, false⟩] :=
    .apart (.long rfl) rfl (by decide) rfl
  have presents' : Options.standard.Presents search.flags
      ⟨"pattern", some "pattern", some 'e', none, [.ofType "text" "string" true]⟩ "-x=1"
      [⟨"-e=-x=1", 0, 7, false⟩] :=
    .inline (.short rfl (fun on => absurd on (by decide)) fun _ => rfl) rfl (by decide)
  have left : ((forLine "--pattern -x=1 notes").initial 0).left =
      [⟨"--pattern", 0, 9, false⟩, ⟨"-x=1", 10, 14, false⟩] ++ [⟨"notes", 15, 20, false⟩] := by
    decide +kernel
  have left' : ((forLine "-e=-x=1 notes").initial 0).left =
      [⟨"-e=-x=1", 0, 7, false⟩] ++ [⟨"notes", 8, 13, false⟩] := by
    decide +kernel
  obtain ⟨x', y, hx, hy, same⟩ | ⟨g, h, x', y, failed, -⟩ :=
    spellings_equivalent (forLine "--pattern -x=1 notes") "-e=-x=1 notes" search_made
      (hasBuiltins_search _) List.mem_cons_self rfl (v := .str "-x=1") rfl
      (by decide) List.suffix_rfl presents presents' left left' rfl rfl (fun _ => rfl)
      (inPlace_tokenize _ 0) (inPlace_tokenize _ 0)
  · cases hx.symm.trans command
    exact ⟨x, y, command, hy, text, same⟩
  · cases failed.symm.trans command

end Parser

end CommandGrammar
