import CommandGrammar.Proofs.Parse.Packing
import CommandGrammar.Proofs.Schema.Holders

/-!
# Flags among positional words

A line for a command without sub-commands can be put together from blocks: a word for a positional
argument, or a flag with the words for all of its arguments behind it. What the blocks write
commutes unless they belong to the same flag or are both positional. So the blocks may come in any
order that keeps the order of these (`interleaving_irrelevant`).
-/

namespace CommandGrammar

/-- A word of a line, and whether it is quoted. -/
structure Word where
  text : String
  quoted : Bool
deriving DecidableEq

/-- A token without its place. -/
def Token.word (t : Token) : Word := ⟨t.text, t.quoted⟩

/-- A part of a line: a positional word, or a flag by a code, perhaps with a value behind an equals
sign, and the words that follow for its arguments. -/
inductive Block
  | positional (word : Word)
  | flag (f : Flag Value) (code : List Char) (value : Option (List Char)) (words : List Word)

namespace Block

/-- The words of a block on its line. -/
def words : Block → List Word
  | .positional word => [word]
  | .flag _ code value words => ⟨String.ofList (code ++ Spelling.written value), false⟩ :: words

/-- The key of the flag that a block is for. -/
def owner? : Block → Option String
  | .positional _ => none
  | .flag f _ _ _ => some f.dest

/-- What the arguments of a flag are read from: the value, unless it is empty, and the words. -/
def given (value : Option (List Char)) (words : List Word) : List String :=
  match value.getD [] with
  | [] => words.map Word.text
  | chars => String.ofList chars :: words.map Word.text

/-- The same blocks, with those that are positional in the same order, and those of each flag. -/
def Reordered (blocks blocks' : List Block) : Prop :=
  ∀ owner, blocks.filter (·.owner? = owner) = blocks'.filter (·.owner? = owner)

/-- A block that comes first and its counterpart can be left out. -/
theorem Reordered.tail {b : Block} {blocks before behind : List Block}
    (reordered : Reordered (b :: blocks) (before ++ b :: behind))
    (others : ∀ c ∈ before, c.owner? ≠ b.owner?) : Reordered blocks (before ++ behind) := by
  intro owner
  have whole := reordered owner
  rw [List.filter_append] at whole ⊢
  by_cases mine : b.owner? = owner
  · have none : before.filter (·.owner? = owner) = [] := by
      rw [List.filter_eq_nil_iff]
      intro c mem
      simpa [← mine] using others c mem
    rw [none, List.nil_append, List.filter_cons_of_pos (by simpa using mine),
      List.filter_cons_of_pos (by simpa using mine)] at whole
    rw [none, List.nil_append]
    exact (List.cons.inj whole).2
  · rw [List.filter_cons_of_neg (by simpa using mine),
      List.filter_cons_of_neg (by simpa using mine)] at whole
    exact whole

end Block

namespace Parser

variable {p q : Parser} {n m : Schema Value} {flags : List (Flag Value)} {f : Flag Value}
  {args args' args'' rest : List (Argument Value)} {a : Argument Value} {code : List Char}
  {value : Option (List Char)} {words : List Word} {own own' entries : List (String × Value)}
  {b c : Block} {blocks blocks' : List Block} {token : Token} {after given : List Token}
  {texts : List String} {inline : Bool} {s t x : State}

/-- A flag of the command is given by one of its codes, and each of its arguments by a word that it
reads. -/
structure Supplied (p : Parser) (flags : List (Flag Value)) (f : Flag Value) (code : List Char)
    (value : Option (List Char)) (words : List Word) (entries : List (String × Value)) : Prop where
  mem : f ∈ flags
  codes : p.options.Codes flags f value.isSome code
  /-- A value stands for the first argument. -/
  valued : value ≠ none → f.args ≠ []
  fills : p.Fills f.args (Block.given value words) entries

/-- Blocks as they may stand on a line. A positional word is quoted, or it does not begin with a
dash, or it is a dash alone. -/
inductive Fits (p : Parser) (flags : List (Flag Value)) : Block → Prop
  | positional {word : Word}
      (plain : word.quoted = true ∨ word.text.toList.head? ≠ some '-' ∨ word.text = "-") :
      Fits p flags (.positional word)
  | flag {f : Flag Value} {code : List Char} {value : Option (List Char)} {words : List Word}
      {entries : List (String × Value)} (supplied : p.Supplied flags f code value words entries) :
      Fits p flags (.flag f code value words)

/-- With the given arguments to come, a block writes entries and leaves arguments. -/
inductive Takes (p : Parser) (flags : List (Flag Value)) :
    Block → List (Argument Value) → List (String × Value) → List (Argument Value) → Prop
  | positional {word : Word} {a : Argument Value} {args : List (Argument Value)} {v : Value}
      (plain : word.quoted = true ∨ word.text.toList.head? ≠ some '-' ∨ word.text = "-")
      (reads : p.reads a word.text = some v) :
      Takes p flags (.positional word) (a :: args) [(a.dest, v)] args
  | flag {f : Flag Value} {code : List Char} {value : Option (List Char)} {words : List Word}
      {entries : List (String × Value)} {args : List (Argument Value)}
      (supplied : p.Supplied flags f code value words entries) :
      Takes p flags (.flag f code value words) args (entries ++ [(f.dest, .bool true)]) args

/-- What blocks write one after the other, and the arguments that they leave. -/
inductive Runs (p : Parser) (flags : List (Flag Value)) :
    List (Argument Value) → List Block → List (String × Value) → List (Argument Value) → Prop
  | done {args : List (Argument Value)} : Runs p flags args [] [] args
  | block {b : Block} {blocks : List Block} {args args' rest : List (Argument Value)}
      {own entries : List (String × Value)} (takes : Takes p flags b args own args')
      (others : Runs p flags args' blocks entries rest) :
      Runs p flags args (b :: blocks) (own ++ entries) rest

/-! ## Blocks commute -/

theorem Fills.keys (fills : p.Fills args texts entries) :
    entries.map (·.1) = args.map Argument.dest := by
  induction fills with
  | nil => rfl
  | cons _ _ ih => rw [List.map_cons, List.map_cons, ih]

/-- What a block writes is under the key of an argument of the command, or of its flag or one of
the flag's arguments. -/
theorem Takes.keys (takes : p.Takes n.flags b args own args') (suffix : args <:+ n.args)
    {e : String × Value} (mem : e ∈ own) :
    (b.owner? = none ∧ ∃ a ∈ n.args, a.dest = e.1) ∨
      ∃ f ∈ n.flags, b.owner? = some f.dest ∧ e.1 ∈ f.holders.map Holder.dest := by
  cases takes with
  | positional plain reads =>
    obtain rfl := List.mem_singleton.1 mem
    exact .inl ⟨rfl, _, suffix.subset List.mem_cons_self, rfl⟩
  | flag supplied =>
    refine .inr ⟨_, supplied.mem, rfl, ?_⟩
    rcases List.mem_append.1 mem with mem | mem
    · have key := List.mem_map_of_mem (f := (·.1)) mem
      rw [supplied.fills.keys] at key
      refine List.mem_cons_of_mem _ ?_
      rw [List.map_map]
      exact key
    · obtain rfl := List.mem_singleton.1 mem
      exact List.mem_cons_self

theorem Takes.suffix (takes : p.Takes flags b args own args') : args' <:+ args := by
  cases takes with
  | positional _ _ => exact List.suffix_cons _ _
  | flag _ => exact List.suffix_rfl

theorem Takes.apart (distinct : n.Distinct) (takes : p.Takes n.flags b args own args')
    (takes' : p.Takes n.flags c args' own' args'') (suffix : args <:+ n.args)
    (different : b.owner? ≠ c.owner?) : ∀ e ∈ own, ∀ e' ∈ own', e.1 ≠ e'.1 := by
  intro e mem e' mem' same
  have suffix' := takes.suffix.trans suffix
  rcases takes.keys suffix mem with ⟨positional, a, here, key⟩ | ⟨f, here, owner, key⟩ <;>
    rcases takes'.keys suffix' mem' with ⟨positional', a', here', key'⟩ | ⟨g, here', owner', key'⟩
  · exact different (positional.trans positional'.symm)
  · exact distinct.args_apart here here' (key ▸ same ▸ key')
  · exact distinct.args_apart here' here (key' ▸ same ▸ key)
  · obtain rfl := distinct.flag_eq here here' key (same ▸ key')
    exact different (owner.trans owner'.symm)

/-- Blocks of different owners can be swapped. -/
theorem Takes.swap (takes : p.Takes flags b args own args')
    (takes' : p.Takes flags c args' own' args'') (different : b.owner? ≠ c.owner?) :
    ∃ between, p.Takes flags c args own' between ∧ p.Takes flags b between own args'' := by
  cases takes with
  | positional plain reads =>
    cases takes' with
    | positional _ _ => exact absurd rfl different
    | flag supplied => exact ⟨_, .flag supplied, .positional plain reads⟩
  | flag supplied =>
    cases takes' with
    | positional plain reads => exact ⟨_, .positional plain reads, .flag supplied⟩
    | flag supplied' => exact ⟨_, .flag supplied', .flag supplied⟩

/-- A block can be moved behind blocks of other owners. -/
theorem Runs.move (distinct : n.Distinct) (suffix : args <:+ n.args) {before behind : List Block}
    (runs : p.Runs n.flags args (b :: (before ++ behind)) entries rest)
    (others : ∀ c ∈ before, c.owner? ≠ b.owner?) :
    ∃ entries', p.Runs n.flags args (before ++ b :: behind) entries' rest ∧
      ∀ (m : Mapping Value) key,
        (m.insertAll entries).get? key = (m.insertAll entries').get? key := by
  induction before generalizing args entries with
  | nil => exact ⟨entries, runs, fun _ _ => rfl⟩
  | cons c before ih =>
    obtain ⟨different, others⟩ := List.forall_mem_cons.1 others
    cases runs with
    | @block _ _ _ between _ own _ takes runs =>
      cases runs with
      | @block _ _ _ _ _ own' entries takes' runs =>
        have apart := takes.apart distinct takes' suffix (Ne.symm different)
        obtain ⟨between', first, second⟩ := takes.swap takes' (Ne.symm different)
        obtain ⟨moved, runs, same⟩ := ih (first.suffix.trans suffix) (.block second runs) others
        refine ⟨own' ++ moved, .block first runs, ?_⟩
        intro m key
        rw [Mapping.get?_insertAll_comm m apart, Mapping.insertAll_append, same,
          Mapping.insertAll_append]

/-- Blocks can be reordered. -/
theorem Runs.reorder (distinct : n.Distinct) (suffix : args <:+ n.args)
    (runs : p.Runs n.flags args blocks entries rest) (reordered : Block.Reordered blocks blocks') :
    ∃ entries', p.Runs n.flags args blocks' entries' rest ∧
      ∀ (m : Mapping Value) key,
        (m.insertAll entries).get? key = (m.insertAll entries').get? key := by
  induction runs generalizing blocks' with
  | done =>
    cases blocks' with
    | nil => exact ⟨[], .done, fun _ _ => rfl⟩
    | cons c others =>
      have nothing := reordered c.owner?
      simp at nothing
  | @block b blocks args _ _ own entries takes _ ih =>
    -- The first block stands in the other list behind blocks of other owners.
    have mine := reordered b.owner?
    rw [List.filter_cons_of_pos (by simp)] at mine
    obtain ⟨before, behind, rfl, others, -, -⟩ := List.filter_eq_cons_iff.1 mine.symm
    have others : ∀ c ∈ before, c.owner? ≠ b.owner? :=
      fun c mem equal => others c mem (by simpa using equal)
    obtain ⟨moved, runs, same⟩ := ih (takes.suffix.trans suffix) (reordered.tail others)
    obtain ⟨entries', runs, same'⟩ := Runs.move distinct suffix (.block takes runs) others
    refine ⟨entries', runs, ?_⟩
    intro m key
    rw [← same', Mapping.insertAll_append, same, Mapping.insertAll_append]

/-- Blocks run for any parser that reads words in the same way. -/
theorem Runs.of_reads (same : ∀ a word, q.reads a word = p.reads a word)
    (options : q.options = p.options) (runs : p.Runs flags args blocks entries rest) :
    q.Runs flags args blocks entries rest := by
  have refill : ∀ {args texts entries}, p.Fills args texts entries →
      q.Fills args texts entries := by
    intro args texts entries fills
    induction fills with
    | nil => exact .nil
    | cons reads _ ih => exact .cons ((same _ _).trans reads) ih
  induction runs with
  | done => exact .done
  | block takes _ ih =>
    refine .block ?_ ih
    cases takes with
    | positional plain reads => exact .positional plain ((same _ _).trans reads)
    | flag supplied =>
      obtain ⟨mem, codes, valued, fills⟩ := supplied
      exact .flag ⟨mem, options ▸ codes, valued, refill fills⟩

/-! ## Blocks on a line -/

/-- The arguments of a flag are converted from words that they read. -/
theorem Fills.flagArguments_eq (fills : p.Fills args texts entries) (left : s.left = given ++ after)
    (same : given.map Token.text = texts) :
    ∃ t, p.flagArguments inline args s = .ok t ∧ t.left = after ∧ s.Entered t entries := by
  induction fills generalizing s given inline with
  | nil =>
    rw [List.map_eq_nil_iff.1 same] at left
    exact ⟨s, rfl, left, rfl⟩
  | @cons a args word words v entries reads _ ih =>
    obtain ⟨token, given, rfl, rfl, others⟩ := List.map_eq_cons_iff.1 same
    obtain ⟨b, builtin⟩ := builtin_of_reads reads
    have ok : p.argument a s = .ok (s.take [] a.dest v 1) :=
      (argument_reads builtin).2 ⟨token, given ++ after, v, left, reads, rfl⟩
    have behind : (s.take [] a.dest v 1).left = given ++ after :=
      (State.of_left_eq_cons left).2
    obtain ⟨t, converted, further, entered⟩ := ih behind others
    exact ⟨t, (flagArguments_of_ok inline args ok).trans converted, further, entered⟩

/-- Where the arguments of a flag begin, what they are read from comes first. -/
theorem Gives.exists_given {c : Char} {chars : List Char} {marks : List String}
    (gives : p.Gives flags f value c chars marks) (opens : p.Opens token c chars f s inline t)
    (next : s.next? = some token) (behind : s.advance.left = given ++ after)
    (same : given.map Token.word = words) :
    ∃ taken, t.left = taken ++ after ∧ taken.map Token.text = Block.given value words := by
  have texts : given.map Token.text = words.map Word.text := by
    rw [← same, List.map_map]
    rfl
  rcases opens.left_eq next with ⟨empty, left⟩ | ⟨head, piece, cutOff, left⟩
  · refine ⟨given, left.trans behind, ?_⟩
    rw [gives.value] at empty
    rw [Block.given, empty, texts]
  · refine ⟨piece :: given, ?_, ?_⟩
    · rw [left, behind, List.cons_append]
    · cases cutOff with
      | mk hasValue _ _ =>
        rw [Block.given, ← gives.value, hasValue, List.map_cons, texts]
        rfl

/-- A command at a flag that is supplied writes what its block writes and goes on behind it. -/
theorem Supplied.command_eq {behind : List Word}
    (supplied : p.Supplied m.flags f code value words entries) (made : f.Made)
    (distinct : (m.flags.flatMap Flag.codes).Nodup) (inPlace : s.InPlace p.source)
    (left : s.left.map Token.word = (Block.flag f code value words).words ++ behind) :
    ∃ u, p.command true s m = p.command true u m ∧ u.left <:+ s.left ∧
      u.left.map Token.word = behind ∧
      (s.result.insertAll (entries ++ [(f.dest, .bool true)])).SameBut (fun _ => False)
        u.result := by
  obtain ⟨c, chars, marks, split, gives⟩ := gives_of_codes supplied.codes made supplied.valued
    distinct supplied.mem Option.isSome_iff_ne_none.2
  obtain ⟨token, others, cons, spelt, rest⟩ := List.map_eq_cons_iff.1 left
  obtain ⟨given, after, rfl, same, rfl⟩ := List.map_eq_append_iff.1 rest
  obtain ⟨text, plain⟩ := Word.mk.inj spelt
  have written : token.text.toList = '-' :: c :: chars := by
    rw [text, String.toList_ofList, split]
  have flagged := flagChars?_of_toList plain written
  obtain ⟨next, behind⟩ := State.of_left_eq_cons cons
  obtain ⟨inline, u, opens⟩ := exists_opens (gives.value ▸ supplied.valued)
    (inPlace.next next flagged) flagged (marks.foldl State.mark s)
  obtain ⟨taken, first, texts⟩ := gives.exists_given opens ((next?_foldl_mark marks s).trans next)
    ((advance_left_foldl_mark marks s).trans behind) same
  obtain ⟨t, converted, further, entered⟩ := supplied.fills.flagArguments_eq first texts
  refine ⟨t.mark f.dest, ?_, ?_, congrArg (List.map Token.word) further, ?_⟩
  · rw [command_of_flag next flagged (gives.endsFlags written), opens.flag_eq (gives.spelled token),
      converted]
    rfl
  · rw [cons]
    have suffix : after <:+ token :: (given ++ after) :=
      (List.suffix_append given after).trans (List.suffix_cons token _)
    exact further ▸ suffix
  · have marked := sameBut_foldl_mark gives.own (.refl (· = f.dest) s.result)
    rw [← opens.result] at marked
    have whole := ((Mapping.congruent_sameBut _).insertAll marked entries).insert (.bool true)
    rw [← entered] at whole
    rw [Mapping.insertAll_append]
    exact whole

/-- A command at a word for its next argument does what the argument does and goes on behind it. -/
theorem command_of_argument (next : s.next? = some token) (plain : spells true token = none) :
    p.command true s { m with args := a :: args } =
      (p.argument a s).andThen fun t => p.command true t { m with args := args } := by
  rw [command_eq, level_next next]
  simp only [plain]
  cases p.argument a s with
  | ok t =>
    dsimp only [Outcome.andThen]
    rw [command_eq]
    rfl
  | halt h t => rfl

/-- Where no token is left, a command gives its arguments their defaults. -/
theorem command_of_end (m : Schema Value) (done : s.left = []) :
    p.command true s m = (p.defaults m.args s).marked m.dest := by
  have finished : p.level m.flags m.subcommands.isEmpty true m.args s = .finished m.args s :=
    Stops.level_eq (.finished (State.next?_eq_none_iff.2 done))
  rw [command_eq, finished]

/-- A positional word spells no flag. -/
theorem spells_positional {word : Word} (same : token.word = word)
    (plain : word.quoted = true ∨ word.text.toList.head? ≠ some '-' ∨ word.text = "-") :
    spells true token = none := by
  subst same
  show token.flagChars? = none
  rw [Token.flagChars?]
  rcases plain with quoted | other | alone
  · exact if_pos quoted
  · split
    · rfl
    · split
      · rename_i chars
        exact absurd (congrArg List.head? chars) other
      · rfl
  · have text : token.text = "-" := alone
    rw [text]
    exact ite_self _

/-- A command at a block takes it and goes on behind it. -/
theorem Takes.command_eq {behind : List Word} (takes : p.Takes m.flags b args own args')
    (made : ∀ f ∈ m.flags, f.Made) (distinct : (m.flags.flatMap Flag.codes).Nodup)
    (inPlace : s.InPlace p.source) (left : s.left.map Token.word = b.words ++ behind) :
    ∃ t, p.command true s { m with args := args } = p.command true t { m with args := args' } ∧
      t.left <:+ s.left ∧ t.left.map Token.word = behind ∧
      (s.result.insertAll own).SameBut (fun _ => False) t.result := by
  cases takes with
  | flag supplied =>
    have here : p.Supplied { m with args := args }.flags _ _ _ _ _ := supplied
    exact here.command_eq (made _ supplied.mem) distinct inPlace left
  | @positional word a _ v plain reads =>
    obtain ⟨token, after, cons, rfl, rfl⟩ := List.map_eq_cons_iff.1 left
    obtain ⟨next, behind⟩ := State.of_left_eq_cons cons
    obtain ⟨b, builtin⟩ := builtin_of_reads reads
    have ok : p.argument a s = .ok (s.take [] a.dest v 1) :=
      (argument_reads builtin).2 ⟨token, after, v, cons, reads, rfl⟩
    have left : (s.take [] a.dest v 1).left = after := behind
    refine ⟨s.take [] a.dest v 1, ?_, ?_, congrArg (List.map Token.word) left, .refl _ _⟩
    · rw [command_of_argument next (spells_positional rfl plain), ok]
      rfl
    · rw [left, cons]
      exact List.suffix_cons token after

/-- A command at blocks takes them one after the other. -/
theorem Runs.command_eq (runs : p.Runs m.flags args blocks entries rest)
    (made : ∀ f ∈ m.flags, f.Made) (distinct : (m.flags.flatMap Flag.codes).Nodup)
    (inPlace : s.InPlace p.source) (left : s.left.map Token.word = blocks.flatMap Block.words) :
    ∃ u, p.command true s { m with args := args } = p.command true u { m with args := rest } ∧
      u.left = [] ∧ (s.result.insertAll entries).SameBut (fun _ => False) u.result := by
  induction runs generalizing s with
  | done => exact ⟨s, rfl, List.map_eq_nil_iff.1 left, .refl _ _⟩
  | @block b blocks args args' rest own entries takes _ ih =>
    obtain ⟨t, goes, suffix, behind, written⟩ := takes.command_eq made distinct inPlace left
    obtain ⟨u, further, done, same⟩ := ih (inPlace.of_suffix suffix) behind
    refine ⟨u, goes.trans further, done, ?_⟩
    intro key shown
    rw [Mapping.insertAll_append, ← same key shown]
    exact (Mapping.congruent_sameBut _).insertAll written entries key shown

/-- An argument of a builtin type that is converted reads the next word. -/
theorem reads_of_argument (builtin : p.HasBuiltin a) (ok : p.argument a s = .ok t)
    (left : s.left = token :: after) : ∃ v, p.reads a token.text = some v := by
  obtain ⟨_, _, _, ⟨_, _, converter, _, _, typed, _⟩, _⟩ := argument_eq_ok_iff.1 ok
  obtain ⟨b, rfl⟩ := builtin converter typed
  obtain ⟨first, others, v, cons, reads, -⟩ := (argument_reads typed).1 ok
  rw [left] at cons
  exact ⟨v, (List.cons.inj cons).1 ▸ reads⟩

/-- A command that takes blocks as they may stand on a line takes them one after the other. -/
theorem exists_runs (leaf : m.subcommands = []) (builtin : ∀ a ∈ args, p.HasBuiltin a)
    (fits : ∀ b ∈ blocks, p.Fits m.flags b) (made : ∀ f ∈ m.flags, f.Made)
    (distinct : (m.flags.flatMap Flag.codes).Nodup) (inPlace : s.InPlace p.source)
    (left : s.left.map Token.word = blocks.flatMap Block.words)
    (ok : p.command true s { m with args := args } = .ok x) :
    ∃ entries rest, p.Runs m.flags args blocks entries rest := by
  induction blocks generalizing args s with
  | nil => exact ⟨[], args, .done⟩
  | cons b blocks ih =>
    obtain ⟨fit, fits⟩ := List.forall_mem_cons.1 fits
    obtain ⟨own, args', takes⟩ : ∃ own args', p.Takes m.flags b args own args' := by
      cases fit with
      | flag supplied => exact ⟨_, _, .flag supplied⟩
      | positional plain =>
        obtain ⟨token, after, cons, rfl, -⟩ := List.map_eq_cons_iff.1 left
        have next := (State.of_left_eq_cons cons).1
        have unflagged := spells_positional rfl plain
        cases args with
        | nil =>
          rw [CommandGrammar.Parser.command_eq, level_next next] at ok
          simp [unflagged, leaf] at ok
        | cons a args =>
          rw [command_of_argument next unflagged] at ok
          cases converted : p.argument a s with
          | halt h t =>
            rw [converted] at ok
            cases ok
          | ok t =>
            obtain ⟨v, reads⟩ := reads_of_argument (builtin a List.mem_cons_self) converted cons
            exact ⟨_, _, .positional plain reads⟩
    obtain ⟨t, goes, suffix, behind, -⟩ := takes.command_eq made distinct inPlace left
    obtain ⟨entries, rest, runs⟩ := ih (fun a mem => builtin a (takes.suffix.subset mem)) fits
      (inPlace.of_suffix suffix) behind (goes.symm.trans ok)
    exact ⟨_, _, .block takes runs⟩

/-- Blocks may be interleaved freely. If the line of a command without sub-commands is made of
blocks and a parse of it succeeds, then a parse of the blocks in another order succeeds as well, and
finds the same, as long as the positional words keep their order and so do the blocks of each flag.
Flags are given by a long code or by a single short one, and the words for their arguments may be
quoted or begin with a dash; the first one may stand behind an equals sign. (Where a token can be
read as a long code behind one dash it gives that flag, and none by a short code.) -/
theorem interleaving_irrelevant (p : Parser) (line : String) {n : Schema Value}
    {blocks blocks' : List Block} {start start' : Nat} {found : Mapping Value} (made : n.Made)
    (distinct : n.Distinct) (builtins : p.HasBuiltins n) (leaf : n.subcommands = [])
    (flagging : p.options.parseFlags = true) (fits : ∀ b ∈ blocks, p.Fits n.flags b)
    (words : (Token.tokenize p.source start).map Token.word = blocks.flatMap Block.words)
    (words' : (Token.tokenize line start').map Token.word = blocks'.flatMap Block.words)
    (reordered : Block.Reordered blocks blocks')
    (ok : (p.parse n start).result = .ok found) :
    ∃ found', (Parser.parse { p with source := line } n start').result = .ok found' ∧
      ∀ key, found.get? key = found'.get? key := by
  let q : Parser := { p with source := line }
  obtain ⟨x, command, rfl, -⟩ := parse_eq_ok ok
  have whole : (⟨n.name, n.dest, n.aliases, n.help, n.args, n.flags, n.subcommands⟩ :
      Schema Value) = n := by
    cases n
    rfl
  rw [flagging, ← whole] at command
  have codes : (n.flags.flatMap Flag.codes).Nodup :=
    (Schema.Children.check_eq_ok made.settled.check).1
  have inPlace : (p.initial start).InPlace p.source := inPlace_tokenize p.source start
  have inPlace' : (q.initial start').InPlace line := inPlace_tokenize line start'
  obtain ⟨entries, rest, runs⟩ := exists_runs leaf (fun a mem => builtins n (.refl n) none a mem)
    fits made.flags codes inPlace words command
  obtain ⟨entries', runs', same⟩ := runs.reorder distinct List.suffix_rfl reordered
  obtain ⟨u, goes, done, written⟩ := runs.command_eq made.flags codes inPlace words
  obtain ⟨v, goes', done', written'⟩ :=
    (runs'.of_reads (p := p) (q := q) (fun _ _ => rfl) rfl).command_eq made.flags codes inPlace'
      words'
  have agree : u.result.SameBut (fun _ => False) v.result := by
    intro key shown
    rw [← written key shown, ← written' key shown]
    exact same _ key
  -- Both lines end before the same arguments, and these are optional.
  have ends := (goes.trans (command_of_end _ done)).symm.trans command
  obtain ⟨w, defaults, rfl⟩ := Outcome.marked_eq_ok_iff.1 ends
  rw [defaults_eq_fallBack] at defaults
  obtain ⟨optional, rfl⟩ := fallBack_eq_ok defaults
  obtain ⟨w', defaults', entered⟩ := defaults_of_optional q v optional
  have command' : q.command true (q.initial start') n = .ok (w'.mark n.dest) := by
    rw [← whole]
    refine goes'.trans ((command_of_end _ done').trans ?_)
    exact Outcome.marked_eq_ok_iff.2 ⟨w', defaults', rfl⟩
  refine ⟨_, parse_of_ok (flagging ▸ command'), ?_⟩
  intro key
  have filled := (Mapping.congruent_sameBut fun _ => False).insertAll agree
    (rest.map fun a => (a.dest, a.default))
  rw [← entered] at filled
  exact (Mapping.congruent_sameBut fun _ => False).insert filled n.dest (.bool true) key id

/-- A flag with a value, a positional word and a flag without arguments. -/
def listingBlocks : List Block :=
  [.flag ⟨"limit", some "limit", some 'n', none, [.ofType "count" "int" true]⟩ ['-', 'n']
      (some ['3']) [],
    .positional ⟨"home", false⟩, .flag ⟨"all", some "all", some 'a', none, []⟩
      ['-', '-', 'a', 'l', 'l'] none []]

theorem fits_listing (source : String) :
    ∀ b ∈ listingBlocks, (forLine source).Fits listing.flags b := by
  refine List.forall_mem_cons.2 ⟨?_, List.forall_mem_cons.2 ⟨?_, List.forall_mem_singleton.2 ?_⟩⟩
  · exact .flag ⟨List.mem_cons_of_mem _ List.mem_cons_self,
      .short rfl (fun on => absurd on Bool.false_ne_true) fun _ => rfl,
      fun _ => List.cons_ne_nil _ _, .cons (v := .int 3) rfl .nil⟩
  · exact .positional (.inr (.inl (by decide)))
  · have long : Options.standard.Codes listing.flags ⟨"all", some "all", some 'a', none, []⟩ false
        ('-' :: '-' :: "all".toList) := .long rfl
    exact .flag ⟨List.mem_cons_self, long, fun given => absurd rfl given, .nil⟩

/-- The flag that comes first may as well come last. -/
theorem interleaving_irrelevant_listing : ∃ found found',
    ((forLine "-n=3 home --all").parse listing 0).result = .ok found ∧
    ((forLine "home --all -n=3").parse listing 0).result = .ok found' ∧
    found.keys = ["limit", "count", "folder", "all", "list"] ∧
    ∀ key, found.get? key = found'.get? key := by
  obtain ⟨found, ok, keys⟩ : ∃ found,
      ((forLine "-n=3 home --all").parse listing 0).result = .ok found ∧
        found.keys = ["limit", "count", "folder", "all", "list"] :=
    Report.exists_ok (by decide +kernel)
  have distinct : listing.Distinct := by decide
  have words : (Token.tokenize "-n=3 home --all" 0).map Token.word =
      listingBlocks.flatMap Block.words := by decide +kernel
  have words' : (Token.tokenize "home --all -n=3" 0).map Token.word =
      (listingBlocks.rotate 1).flatMap Block.words := by decide +kernel
  have rotated : listingBlocks.rotate 1 =
      listingBlocks.tail ++ [listingBlocks.head (List.cons_ne_nil _ _)] := rfl
  have reordered : Block.Reordered listingBlocks (listingBlocks.rotate 1) := by
    intro owner
    rw [rotated]
    by_cases limit : some "limit" = owner
    · subst limit
      rfl
    · simp [listingBlocks, Block.owner?, limit, List.filter_cons]
  obtain ⟨found', ok', same⟩ := interleaving_irrelevant (forLine "-n=3 home --all")
    "home --all -n=3" listing_made distinct (hasBuiltins_listing _) rfl rfl
    (fits_listing _) words words' reordered ok
  exact ⟨found, found', ok, ok', keys, same⟩

end Parser

end CommandGrammar
