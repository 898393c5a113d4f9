import CommandGrammar.Proofs.Conversion.Reads
import CommandGrammar.Proofs.Parse.Trail
import CommandGrammar.Proofs.Schema.Built

/-!
# The grammar of a schema

Where flags are inactive, a schema with named sub-commands and builtin types is a grammar of
words: on each level come words for the arguments, and then the line ends or a word selects a
sub-command. `parse_iff_derives` says that a parse succeeds on just the lines that the grammar
derives, and with what their only derivation writes.
-/

namespace CommandGrammar

/-- The words that are left. -/
def State.words (s : State) : List String := s.left.map (·.text)

/-- Words of a schema that is built select the sub-commands that they belong to. -/
theorem Schema.Built.selected?_eq_some {n sub : Schema Value} {word : String} (h : n.Built)
    (mem : sub ∈ n.subcommands) (hword : word ∈ sub.words) : n.selected? word = some sub := by
  have hmatches : sub.matches word = true := by simpa [Schema.matches] using hword
  cases hselected : n.selected? word with
  | none =>
    rw [Schema.selected?, List.find?_eq_none] at hselected
    exact absurd hmatches (hselected sub mem)
  | some other =>
    obtain ⟨hmem, hother⟩ := Schema.selected?_eq_some hselected
    have hother : word ∈ other.words := by simpa [Schema.matches] using hother
    rw [eq_of_nodup_flatMap h.words_nodup hmem mem hother hword]

namespace Parser

variable {p : Parser} {flags : List (Flag Value)} {s t : State}

/-- The value that the builtin type of an argument reads from a word. -/
def reads (p : Parser) (a : Argument Value) (word : String) : Option Value :=
  match p.converterOf a.type with
  | some (.builtin b) => b.reads a.options word
  | _ => none

/-- One word for each of the arguments, and what the words write. -/
inductive Fills (p : Parser) : List (Argument Value) → List String → List (String × Value) → Prop
  | nil : Fills p [] [] []
  | cons {a : Argument Value} {args : List (Argument Value)} {word : String}
      {words : List String} {v : Value} {entries : List (String × Value)}
      (reads : p.reads a word = some v) (rest : Fills p args words entries) :
      Fills p (a :: args) (word :: words) ((a.dest, v) :: entries)

/-- The derivations of words from a schema, with the chain of schemas that they go down and what
they write. On the last level optional arguments may be missing; above it there is a word for each
argument, and one more that selects the next schema. -/
inductive Derives (p : Parser) :
    Schema Value → List String → List (Schema Value) → List (String × Value) → Prop
  | last {n : Schema Value} {given missing : List (Argument Value)} {words : List String}
      {entries : List (String × Value)} (args : n.args = given ++ missing)
      (fills : p.Fills given words entries) (optional : ∀ a ∈ missing, a.required = false) :
      Derives p n words [n]
        (entries ++ missing.map (fun a => (a.dest, a.default)) ++ [(n.dest, .bool true)])
  | down {n sub : Schema Value} {words more : List String} {word : String}
      {chain : List (Schema Value)} {entries below : List (String × Value)}
      (fills : p.Fills n.args words entries) (mem : sub ∈ n.subcommands)
      (selects : word ∈ sub.words) (rest : Derives p sub more chain below) :
      Derives p n (words ++ word :: more) (n :: chain)
        (entries ++ below ++ [(n.dest, .bool true)])

theorem Fills.length {args : List (Argument Value)} {words : List String}
    {entries : List (String × Value)} (h : p.Fills args words entries) :
    args.length = words.length := by
  induction h with
  | nil => rfl
  | cons reads rest ih => rw [List.length_cons, List.length_cons, ih]

theorem Fills.unique {args : List (Argument Value)} {words : List String}
    {entries entries' : List (String × Value)} (h : p.Fills args words entries)
    (h' : p.Fills args words entries') : entries = entries' := by
  induction h generalizing entries' with
  | nil =>
    cases h'
    rfl
  | cons reads rest ih =>
    cases h' with
    | cons reads' rest' =>
      rw [Option.some.inj (reads.symm.trans reads'), ih rest']

theorem builtin_of_reads {a : Argument Value} {word : String} {v : Value}
    (h : p.reads a word = some v) : ∃ b, p.converterOf a.type = some (.builtin b) := by
  unfold reads at h
  split at h
  · rename_i b builtin
    exact ⟨b, builtin⟩
  · cases h

/-- An argument of a builtin type is taken if its type reads the next word. -/
theorem argument_reads {a : Argument Value} {b : Builtin}
    (builtin : p.converterOf a.type = some (.builtin b)) :
    p.argument a s = .ok t ↔ ∃ token rest v, s.left = token :: rest ∧
      p.reads a token.text = some v ∧ t = s.take [] a.dest v 1 := by
  have hreads : ∀ word, p.reads a word = b.reads a.options word := by
    intro word
    rw [reads, builtin]
  rw [argument_eq_ok_iff]
  constructor
  · rintro ⟨v, count, events, ⟨token, rest, converter, step, hleft, hconverter, hanswer, hstep⟩,
      rfl⟩
    cases builtin.symm.trans hconverter
    obtain ⟨rfl, hconvert⟩ := Prod.mk.inj hanswer
    obtain ⟨hv, rfl⟩ := Builtin.convert_eq_conversion_iff.1 hconvert
    cases hstep
    exact ⟨token, rest, v, hleft, (hreads _).trans hv, rfl⟩
  · rintro ⟨token, rest, v, hleft, hv, rfl⟩
    have hconvert := Builtin.convert_eq_conversion_iff.2 ⟨(hreads _).symm.trans hv, rfl⟩
    exact ⟨v, 1, [], ⟨token, rest, _, .int 1, hleft, builtin,
      congrArg (Prod.mk []) hconvert, rfl⟩, rfl⟩

theorem take_words {token : Token} {rest : List Token} (hleft : s.left = token :: rest)
    (events : List Event) (dest : String) (v : Value) :
    s.words = token.text :: (s.take events dest v 1).words := by
  have htail : (s.take events dest v 1).left = s.left.tail := List.tail_drop.symm
  rw [State.words, State.words, htail, hleft]
  rfl

/-! ## What is parsed is derived -/

/-- The steps of a level without flags take one word for each argument. -/
theorem Steps.fills {x y : Stage} (steps : p.Steps flags x y) (inactive : x.active = false)
    (types : ∀ a ∈ x.args, ∃ b, p.converterOf a.type = some (.builtin b)) :
    y.active = false ∧ ∃ given words entries, x.args = given ++ y.args ∧
      x.state.words = words ++ y.state.words ∧ p.Fills given words entries ∧
      x.state.Entered y.state entries := by
  induction steps using Relation.ReflTransGen.head_induction_on with
  | refl => exact ⟨inactive, [], [], [], rfl, rfl, .nil, rfl⟩
  | head step steps ih =>
    cases step with
    | ending next flagged ends =>
      exact absurd (inactive.symm.trans (spells_eq_some flagged).1) Bool.noConfusion
    | flag next flagged ends ok =>
      exact absurd (inactive.symm.trans (spells_eq_some flagged).1) Bool.noConfusion
    | argument next plain ok =>
      obtain ⟨⟨b, builtin⟩, types⟩ := List.forall_mem_cons.1 types
      obtain ⟨token, rest, v, hleft, reads, rfl⟩ := (argument_reads builtin).1 ok
      obtain ⟨hy, given, words, entries, hargs, hwords, fills, hresult⟩ := ih inactive types
      refine ⟨hy, _, _, _, congrArg _ hargs, ?_, .cons reads fills, hresult⟩
      exact (take_words hleft [] _ v).trans (congrArg _ hwords)

/-- What a command without flags takes is derived from its schema, and it writes what the
derivation writes. -/
theorem command_derives {n : Schema Value}
    (named : ∀ m, n.Reaches m → ∀ sub ∈ m.subcommands, sub.named = true)
    (types : ∀ m, n.Reaches m → ∀ a ∈ m.args, ∃ b, p.converterOf a.type = some (.builtin b))
    (ok : p.command false s n = .ok t) :
    ∃ chain entries, p.Derives n s.words chain entries ∧ s.Entered t entries := by
  induction n using Schema.induction generalizing s t with
  | step n ih =>
    obtain ⟨x, steps, hend⟩ := command_eq_ok ok
    obtain ⟨hx, given, words, entries, hargs, hwords, fills, entered⟩ :=
      Steps.fills steps rfl (types n (.refl n))
    change n.args = _ at hargs
    change s.words = _ at hwords
    change s.Entered x.state entries at entered
    rcases hend with ⟨next, u, hdefaults, rfl⟩ |
      ⟨hnil, token, sub, v, u, w, next, hmem, handed, hsub, rfl⟩
    · obtain ⟨wrote, optional⟩ := defaults_wrote hdefaults
      have hdone : s.words = words := by
        rw [hwords, State.words, State.next?_eq_none_iff.1 next]
        exact List.append_nil _
      have enteredDefaults : x.state.Entered u (x.args.map fun a => (a.dest, a.default)) := by
        rw [State.Wrote, List.map_map] at wrote
        exact wrote
      rw [hdone]
      refine ⟨_, _, .last hargs fills optional, ?_⟩
      exact (entered.trans enteredDefaults).trans (u.entered_mark n.dest)
    · have hsubNamed := named n (.refl n) sub hmem
      cases handed with
      | unnamed _ unnamed => exact absurd (hsubNamed.symm.trans unnamed) Bool.noConfusion
      | named selects =>
        rw [hx] at hsub
        obtain ⟨chain, below, derives, enteredBelow⟩ := ih sub hmem
          (fun m hm => named m (.down hmem hm)) (fun m hm => types m (.down hmem hm)) hsub
        have hnext : x.state.words = token.text :: x.state.advance.words := by
          rw [State.words, State.left_eq_cons next]
          rfl
        have hselects : token.text ∈ sub.words := by
          simpa [Schema.matches] using (Schema.selected?_eq_some selects).2
        rw [hnil, List.append_nil] at hargs
        rw [hwords, hnext]
        refine ⟨_, _, .down (hargs ▸ fills) hmem hselects derives, ?_⟩
        change x.state.Entered u below at enteredBelow
        exact (entered.trans enteredBelow).trans (u.entered_mark n.dest)

/-! ## What is derived is parsed -/

/-- A level without flags takes the words that fill its first arguments. -/
theorem Fills.steps {given : List (Argument Value)} {words more : List String}
    {entries : List (String × Value)} (h : p.Fills given words entries)
    (flags : List (Flag Value)) (rest : List (Argument Value)) (hs : s.words = words ++ more) :
    ∃ t, p.Steps flags ⟨false, given ++ rest, s⟩ ⟨false, rest, t⟩ ∧ t.words = more ∧
      s.Entered t entries := by
  induction h generalizing s with
  | nil => exact ⟨s, .refl, hs, rfl⟩
  | @cons a args word words v entries reads fills ih =>
    obtain ⟨token, left, hleft, rfl, -⟩ := List.map_eq_cons_iff.1 hs
    obtain ⟨b, builtin⟩ := builtin_of_reads reads
    have ok : p.argument a s = .ok (s.take [] a.dest v 1) :=
      (argument_reads builtin).2 ⟨token, left, v, hleft, reads, rfl⟩
    have hwords := List.tail_eq_of_cons_eq ((take_words hleft [] a.dest v).symm.trans hs)
    obtain ⟨t, steps, ht, entered⟩ := ih hwords
    have next : s.next? = some token := by rw [State.next?_eq_head?, hleft, List.head?_cons]
    exact ⟨t, .head (.argument next rfl ok) steps, ht, entered⟩

theorem defaults_of_optional {args : List (Argument Value)} (p : Parser) (s : State)
    (optional : ∀ a ∈ args, a.required = false) :
    ∃ t, p.defaults args s = .ok t ∧ s.Entered t (args.map fun a => (a.dest, a.default)) := by
  rw [defaults_eq_fallBack, fallBack_of_optional _ s optional]
  exact ⟨_, rfl, rfl⟩

/-- What is derived from a schema is taken by its command, which writes what the derivation
writes. -/
theorem Derives.command {n : Schema Value} {words : List String} {chain : List (Schema Value)}
    {entries : List (String × Value)} (h : p.Derives n words chain entries) (built : n.Built)
    (hs : s.words = words) :
    ∃ t, p.command false s n = .ok t ∧ s.Entered t entries := by
  induction h generalizing s with
  | @last n given missing words entries args fills optional =>
    rw [← List.append_nil words] at hs
    obtain ⟨t, steps, ht, entered⟩ := fills.steps n.flags missing hs
    obtain ⟨u, hu, enteredDefaults⟩ := defaults_of_optional p t optional
    have next : t.next? = none := State.next?_eq_none_iff.2 (List.map_eq_nil_iff.1 ht)
    have hlevel : p.level n.flags n.subcommands.isEmpty false n.args s = .finished missing t :=
      level_eq_iff.2 ⟨_, args ▸ steps, .finished next⟩
    rw [command_eq, hlevel]
    dsimp only
    rw [hu]
    exact ⟨u.mark n.dest, rfl, (entered.trans enteredDefaults).trans (u.entered_mark n.dest)⟩
  | @down n sub words more word chain entries below fills mem selects rest ih =>
    obtain ⟨t, steps, ht, entered⟩ := fills.steps n.flags [] hs
    obtain ⟨token, left, hleft, rfl, hmore⟩ := List.map_eq_cons_iff.1 ht
    have next : t.next? = some token := by rw [State.next?_eq_head?, hleft, List.head?_cons]
    have inner : n.subcommands.isEmpty = false :=
      List.isEmpty_eq_false_iff.2 (List.ne_nil_of_mem mem)
    have hlevel : p.level n.flags n.subcommands.isEmpty false n.args s = .word token false t :=
      level_eq_iff.2 ⟨_, List.append_nil n.args ▸ steps, .word next rfl inner⟩
    -- The parser takes the first sub-command that matches, which is the only one.
    have hselected : n.selected? token.text = some sub := built.selected?_eq_some mem selects
    have hadvance : t.advance.words = more := by
      have htail := State.left_eq_cons next
      rw [hleft] at htail
      rw [State.words, ← List.tail_eq_of_cons_eq htail]
      exact hmore
    have hs : (t.report [.subcommandMatched n.dest sub.dest token.text]).advance.words = more :=
      hadvance
    obtain ⟨u, hu, enteredBelow⟩ := ih (built.sub sub mem) hs
    change t.Entered u below at enteredBelow
    rw [command_eq, hlevel]
    dsimp only
    rw [hselected]
    dsimp only
    rw [hu]
    exact ⟨u.mark n.dest, rfl, (entered.trans enteredBelow).trans (u.entered_mark n.dest)⟩

/-! ## Derivations are unique -/

/-- A line has no more than one derivation. -/
theorem Derives.unique {n : Schema Value} {words : List String} {chain chain' : List (Schema Value)}
    {entries entries' : List (String × Value)} (h : p.Derives n words chain entries)
    (built : n.Built) (h' : p.Derives n words chain' entries') :
    chain' = chain ∧ entries' = entries := by
  induction h generalizing chain' entries' with
  | @last n given missing words entries args fills optional =>
    cases h' with
    | @last _ given' missing' _ entries'' args' fills' optional' =>
      have hlength : given.length = given'.length := fills.length.trans fills'.length.symm
      obtain ⟨rfl, rfl⟩ := List.append_inj (args.symm.trans args') hlength
      rw [fills.unique fills']
      exact ⟨rfl, rfl⟩
    | @down _ sub words more word chain entries'' below fills' mem selects rest =>
      -- A word for each argument and one more are too many for the last level.
      have hmore := fills.length
      have hless := fills'.length
      rw [args] at hless
      simp only [List.length_append, List.length_cons] at hmore hless
      omega
  | @down n sub words more word chain entries below fills mem selects rest ih =>
    generalize hline : words ++ word :: more = line at h'
    cases h' with
    | @last _ given missing _ entries'' args fills' optional =>
      have hmore := fills'.length
      have hless := fills.length
      rw [args] at hless
      rw [← hline] at hmore
      simp only [List.length_append, List.length_cons] at hmore hless
      omega
    | @down _ sub' words' more' word' chain'' entries'' below' fills' mem' selects' rest' =>
      have hlength : words.length = words'.length := fills.length.symm.trans fills'.length
      obtain ⟨rfl, htail⟩ := List.append_inj hline hlength
      obtain ⟨rfl, rfl⟩ := List.cons_eq_cons.1 htail
      -- Distinct words leave one sub-command to go on with.
      have hsub := built.selected?_eq_some mem selects
      obtain rfl := Option.some.inj (hsub.symm.trans (built.selected?_eq_some mem' selects'))
      obtain ⟨rfl, rfl⟩ := ih (built.sub sub mem) rest'
      rw [fills.unique fills']
      exact ⟨rfl, rfl⟩

/-! ## Whole parses -/

/-- The words of the line. -/
def words (p : Parser) (start : Nat) : List String :=
  (Token.tokenize p.source start).map (·.text)

/-- Where flags are inactive and all sub-commands have names and all arguments builtin types, the
lines that are parsed are those that the schema derives. There is one derivation, and the result
is what it writes. -/
theorem parse_iff_derives {p : Parser} {schema : Schema Value} (start : Nat)
    (inactive : p.options.parseFlags = false) (built : schema.Built)
    (named : ∀ n, schema.Reaches n → ∀ sub ∈ n.subcommands, sub.named = true)
    (types : ∀ n, schema.Reaches n → ∀ a ∈ n.args,
      ∃ b, p.converterOf a.type = some (.builtin b)) :
    ((∃ m, (p.parse schema start).result = .ok m) ↔
      ∃ chain entries, p.Derives schema (p.words start) chain entries) ∧
    ∀ chain entries, p.Derives schema (p.words start) chain entries →
      (p.parse schema start).result = .ok (.ofList entries) ∧
      ∀ chain' entries', p.Derives schema (p.words start) chain' entries' →
        chain' = chain ∧ entries' = entries := by
  have parsed : ∀ chain entries, p.Derives schema (p.words start) chain entries →
      (p.parse schema start).result = .ok (.ofList entries) := by
    intro chain entries derives
    obtain ⟨t, ok, hresult⟩ := derives.command built (s := p.initial start) rfl
    rw [← inactive] at ok
    rw [parse_of_ok ok, hresult]
    rfl
  refine ⟨⟨?_, ?_⟩, ?_⟩
  · rintro ⟨m, ok⟩
    obtain ⟨t, hcommand, -⟩ := parse_eq_ok ok
    rw [inactive] at hcommand
    obtain ⟨chain, entries, derives, -⟩ := command_derives named types hcommand
    exact ⟨chain, entries, derives⟩
  · rintro ⟨chain, entries, derives⟩
    exact ⟨_, parsed chain entries derives⟩
  · intro chain entries derives
    refine ⟨parsed chain entries derives, ?_⟩
    intro chain' entries' derives'
    exact derives.unique built derives'

/-- A command with an alias and an optional argument. -/
def addition : Schema Value where
  name := some "add"
  dest := "add"
  aliases := ["+"]
  help := none
  args := [.ofType "n" "int" true, .ofType "m" "int" false]
  flags := []
  subcommands := []

/-- A command with one sub-command. -/
def ledger : Schema Value where
  name := some "ledger"
  dest := "ledger"
  aliases := []
  help := none
  args := [.ofType "account" "string" true]
  flags := []
  subcommands := [addition]

theorem ledger_built : ledger.Built := by
  have inner : Schema.make (.str "add") .unset (.list [.str "+"]) .unset
      (.ok ⟨addition.args, [], []⟩) = .ok addition := rfl
  have outer : Schema.make (.str "ledger") .unset (.list []) .unset
      (.ok ⟨ledger.args, [], [addition]⟩) = .ok ledger := rfl
  refine .make ?_ outer
  intro sub hsub
  rw [List.mem_singleton.1 hsub]
  exact .make (List.forall_mem_nil _) inner

theorem reaches_ledger {n : Schema Value} (h : ledger.Reaches n) : n = ledger ∨ n = addition := by
  cases h with
  | refl => exact .inl rfl
  | down mem h =>
    cases List.mem_singleton.1 mem
    cases h with
    | refl => exact .inr rfl
    | down mem h => exact absurd mem List.not_mem_nil

theorem parse_iff_derives_ledger :
    ∃ m chain entries, ((forWords "cash + 3").parse ledger 0).result = .ok m ∧
      m.keys = ["account", "n", "m", "add", "ledger"] ∧
      (forWords "cash + 3").Derives ledger ((forWords "cash + 3").words 0) chain entries ∧
      m = .ofList entries := by
  obtain ⟨m, ok, keys⟩ : ∃ m, ((forWords "cash + 3").parse ledger 0).result = .ok m ∧
      m.keys = ["account", "n", "m", "add", "ledger"] := Report.exists_ok (by decide +kernel)
  have named : ∀ n, ledger.Reaches n → ∀ sub ∈ n.subcommands, sub.named = true := by
    intro n h
    obtain rfl | rfl := reaches_ledger h <;> decide
  have types : ∀ n, ledger.Reaches n → ∀ a ∈ n.args,
      ∃ b, (forWords "cash + 3").converterOf a.type = some (.builtin b) := by
    intro n h
    obtain rfl | rfl := reaches_ledger h
    · exact List.forall_mem_cons.2 ⟨⟨.string, rfl⟩, List.forall_mem_nil _⟩
    · have integer := (⟨.integer .int, rfl⟩ : ∃ b, (forWords "cash + 3").converterOf
        (.named "int") = some (.builtin b))
      exact List.forall_mem_cons.2
        ⟨integer, List.forall_mem_cons.2 ⟨integer, List.forall_mem_nil _⟩⟩
  obtain ⟨hiff, hunique⟩ := parse_iff_derives (p := forWords "cash + 3") 0 rfl ledger_built
    named types
  obtain ⟨chain, entries, derives⟩ := hiff.1 ⟨m, ok⟩
  have result := (hunique chain entries derives).1
  exact ⟨m, chain, entries, ok, keys, derives, Except.ok.inj (ok.symm.trans result)⟩

end Parser

end CommandGrammar
