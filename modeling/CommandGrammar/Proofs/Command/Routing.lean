import CommandGrammar.Proofs.Command.Registration
import CommandGrammar.Proofs.Fault.Excerpts
import CommandGrammar.Proofs.Parse.Layout

/-!
# Dispatch

A line that names a registered command behind the prefix is delivered to this command
(`dispatchLine_eq_deliver`), and the command parses what stands behind its name as if it stood
alone, with places that are moved by all that stands before it (`dispatch_parses`). A fault is told
in a reply, which is a text as long as the line is not too long for its columns to be written.
-/

namespace CommandGrammar

/-- The parser that a command parses a line with. -/
def Command.parser (c : Command) (host : Host) (text : String) : Parser where
  source := text
  types := c.types.getD host.types
  options := c.options
  converters := host.converters
  makers := host.makers

/-- The dispatch has one reply and has handled the line, or the crash of wording the reply leaves
it without one. -/
def Dispatch.Tells (d : Dispatch) : Except Crash String → Prop
  | .ok reply => d.handled = .ok true ∧ d.replies = [reply]
  | .error c => d.handled = .error c ∧ d.replies = []

theorem Dispatch.calls_reply (d : Dispatch) (text : Except Crash String) :
    (d.reply text).calls = d.calls := by
  cases text <;> rfl

theorem Dispatch.events_reply (d : Dispatch) (text : Except Crash String) :
    (d.reply text).events = d.events := by
  cases text <;> rfl

theorem Dispatch.tells_reply {d : Dispatch} (handled : d.handled = .ok true)
    (quiet : d.replies = []) (text : Except Crash String) : (d.reply text).Tells text := by
  cases text with
  | ok reply => exact ⟨handled, congrArg (· ++ [reply]) quiet⟩
  | error c => exact ⟨rfl, quiet⟩

/-- A fault with its place in a line is told, unless the line is too long. -/
theorem Fault.InLine.exists_text {f : Fault} {source : String} (inLine : f.InLine source)
    (short : source.length + 1 < decimalLimit) :
    ∃ reply, ({ f with command := .str source } : Fault).text = .ok reply := by
  rw [exists_text_iff]
  by_cases located : f.token = .null
  · exact .inl located
  · obtain ⟨a, b, place, lower, ordered, upper⟩ := inLine.within located
    obtain ⟨t, token, place⟩ := exists_token_of_span place
    have column : t.start + f.start = a := congrArg Prod.fst place
    have small : (t.start + f.start + 1).natAbs ≤ source.length + 1 := by omega
    exact .inr (.inr ⟨t, source, token, rfl, Nat.lt_of_le_of_lt small short⟩)

namespace CommandRegistry

variable {r : CommandRegistry} {host : Host} {c : Command} {line : String} {start : Nat}

theorem react_calls (name line : String) (d : Dispatch) (reaction : Reaction) :
    (react name line d reaction).calls = d.calls := by
  cases reaction with
  | returned v => rfl
  | fault f => exact Dispatch.calls_reply ..
  | crash c => rfl

/-- A command whose line is parsed calls its callback once, with the result. -/
theorem deliver_of_ok {args : Mapping Value} (issuer : Value)
    (ok : (c.parse host line start).result = .ok args) :
    (deliver host c line start issuer).calls =
      [⟨c.callback, ⟨line, args, issuer⟩, host.callbacks c.callback ⟨line, args, issuer⟩⟩] := by
  unfold deliver
  dsimp only
  rw [ok]
  exact react_calls ..

/-- A command whose line is at fault does not call its callback, and the fault is told. -/
theorem deliver_of_fault {f : Fault} (issuer : Value)
    (failed : (c.parse host line start).result = .error (.fault f)) :
    (deliver host c line start issuer).calls = [] ∧
      (deliver host c line start issuer).Tells (f.text.mapError Refusal.crash) := by
  unfold deliver
  dsimp only
  rw [failed]
  exact ⟨react_calls .., Dispatch.tells_reply rfl rfl _⟩

theorem body?_append (before rest : List Char) : body? before (before ++ rest) = some rest := by
  rw [body?, if_pos (List.isPrefixOf_iff_prefix.2 (List.prefix_append before rest)),
    List.drop_left]

/-- A line that names a command behind the prefix is delivered to it, from behind the name on. -/
theorem dispatchLine_eq_deliver {commandPrefix blanks word rest : String} (issuer : Value)
    (prefixed : r.commandPrefix = some commandPrefix) (found : r.get? true word = some c)
    (isWord : Text.IsWord word) (blank : ∀ ch ∈ blanks.toList, isBlank ch = true)
    (apart : ∀ ch ∈ rest.toList.head?, isBlank ch = true) :
    r.dispatchLine host (commandPrefix ++ blanks ++ word ++ rest) issuer =
      deliver host c (commandPrefix ++ blanks ++ word ++ rest)
        (commandPrefix ++ blanks ++ word).length issuer := by
  have chars : (commandPrefix ++ blanks ++ word ++ rest).toList =
      commandPrefix.toList ++ (blanks.toList ++ (word.toList ++ rest.toList)) := by
    simp only [String.toList_append, List.append_assoc]
  rw [dispatchLine, prefixed]
  dsimp only
  rw [chars, body?_append]
  dsimp only
  rw [Text.firstWordList_append isWord blank apart, String.ofList_toList, found,
    Text.takeWhile_isBlank_append isWord blank]
  simp only [String.length_toList, String.length_append]

/-- With builtin types, a line that names a registered command behind the prefix is dispatched to
this command as the rest of the line is parsed alone. If the rest is parsed, the callback is called
with the result, once and with nothing else. Otherwise nothing is called, and what is told is a
fault of the same kind with the same message, which knows the whole line and is further by the
prefix, the blanks and the name. It can be told as long as the columns of the line have few enough
digits. -/
theorem dispatch_parses (commandPrefix blanks word rest : String) (issuer : Value)
    (reached : r.Reached) (prefixed : r.commandPrefix = some commandPrefix) (mem : c ∈ r.commands)
    (answers : word ∈ c.schema.words) (builtins : (c.parser host rest).HasBuiltins c.schema)
    (blank : ∀ ch ∈ blanks.toList, isBlank ch = true)
    (apart : ∀ ch ∈ rest.toList.head?, isBlank ch = true) :
    let line := commandPrefix ++ blanks ++ word ++ rest
    let behind := commandPrefix.length + blanks.length + word.length
    let d := deliver host c line behind issuer
    r.get? true word = some c ∧ r.dispatch host (.str line) issuer = .ok d ∧
    ((∃ args, (c.parse host rest 0).result = .ok args ∧ d.calls =
        [⟨c.callback, ⟨line, args, issuer⟩, host.callbacks c.callback ⟨line, args, issuer⟩⟩]) ∨
      ∃ f g : Fault, (c.parse host rest 0).result = .error (.fault f) ∧ d.calls = [] ∧
        d.Tells (g.text.mapError Refusal.crash) ∧
        (line.length + 1 < decimalLimit → ∃ reply, g.text = .ok reply) ∧
        g.kind = f.kind ∧ g.message = f.message ∧
        g.span = f.span.map (fun place => (place.1 + (behind : Int), place.2 + (behind : Int))) ∧
        g.command = .str line) := by
  intro line behind d
  have found := reached.get?_eq_some mem answers
  have hbehind : (commandPrefix ++ blanks ++ word).length = behind := by
    rw [String.length_append, String.length_append]
  have dispatched : r.dispatchLine host line issuer = d := by
    have isWord := (reached.built c mem).isWord word answers
    rw [dispatchLine_eq_deliver issuer prefixed found isWord blank apart, hbehind]
  refine ⟨found, congrArg Except.ok dispatched, ?_⟩
  -- What dispatch skips is just the text in front of the rest, so the offsets of both agree.
  have hparse := (c.parser host rest).parse_append (commandPrefix ++ blanks ++ word) builtins
  rw [hbehind] at hparse
  obtain ⟨args, alone, ok⟩ | ⟨f, g, alike, alone, failed⟩ := hparse
  · exact .inl ⟨args, alone, deliver_of_ok issuer ok⟩
  · obtain ⟨g', inLine, same⟩ := (c.parser host line).fault_inLine builtins failed
    obtain ⟨calls, tells⟩ := deliver_of_fault issuer failed
    exact .inr ⟨_, _, alone, calls, tells, fun short => same ▸ inLine.exists_text short,
      alike.kind.symm, alike.message.symm, alike.span_shift, rfl⟩

/-! ## A registry with one command -/

/-- A host with the builtin types, no converters, and callbacks that return the line. -/
def plainHost : Host where
  types := .builtins
  converters := fun _ _ _ => ([], .other .null)
  makers := .keeping
  callbacks := fun _ context => .returned (.str context.text)

/-- The draft of a command with an alias and a number. -/
def tallyDraft : CommandDraft Value where
  name := .str "tally"
  dest := .unset
  aliases := [.str "t"]
  help := .unset
  args := [.ofType "n" "int" true]
  flags := []
  subcommands := []

/-- The command that the draft declares. -/
def tally : Command where
  schema := ⟨some "tally", "tally", ["t"], none, tallyDraft.args, [], []⟩
  callback := ⟨"tally", none⟩
  types := none
  options := .standard

/-- The registry with this command alone. -/
def tallies : CommandRegistry := ⟨some "!", [tally]⟩

theorem tallies_reached : tallies.Reached := by
  have made : Command.make (.draft tallyDraft) (.callable ⟨"tally", none⟩) none [] =
      .ok tally := rfl
  have registered : (empty (some "!")).register tally =
      .ok (tallies, .commandRegistered "tally" ["t"]) := rfl
  refine .register (.empty (some "!")) ?_ made registered
  intro n holds
  cases holds

theorem hasBuiltins_tally (source : String) :
    (tally.parser plainHost source).HasBuiltins tally.schema :=
  Parser.hasBuiltins_of_leaf rfl rfl (List.forall_mem_singleton.2 ⟨"int", rfl⟩)
    (List.forall_mem_nil _)

theorem dispatch_parses_tally :
    (∃ d args, tallies.dispatch plainHost (.str "! t 5") .null = .ok d ∧
      d.calls = [⟨tally.callback, ⟨"! t 5", args, .null⟩, .returned (.str "! t 5")⟩] ∧
      args.keys = ["n", "tally"]) ∧
    ∃ d reply, tallies.dispatch plainHost (.str "! t x") .null = .ok d ∧ d.calls = [] ∧
      d.handled = .ok true ∧ d.replies = [reply] ∧
      ∃ g : Fault, g.text = .ok reply ∧ g.span = some (4, 5) ∧ g.command = .str "! t x" := by
  have blank : ∀ ch ∈ " ".toList, isBlank ch = true := List.forall_mem_singleton.2 rfl
  have apart : ∀ digits, ∀ ch ∈ (' ' :: digits).head?, isBlank ch = true := by
    rintro digits ch ⟨⟩
    rfl
  refine ⟨?_, ?_⟩
  · obtain ⟨args, ok, keys⟩ : ∃ args, (tally.parse plainHost " 5" 0).result = .ok args ∧
        args.keys = ["n", "tally"] := Report.exists_ok (by decide +kernel)
    obtain ⟨-, dispatched, ⟨args', ok', calls⟩ | ⟨f, g, failed, -⟩⟩ :=
      dispatch_parses "!" " " "t" " 5" .null tallies_reached rfl List.mem_cons_self (by decide)
        (hasBuiltins_tally " 5") blank (apart ['5'])
    · cases ok.symm.trans ok'
      exact ⟨_, args, dispatched, calls, keys⟩
    · cases ok.symm.trans failed
  · obtain ⟨f, failed, place⟩ : ∃ f, (tally.parse plainHost " x" 0).result = .error (.fault f) ∧
        f.span = some (1, 2) := Report.exists_fault_of_span (by decide +kernel)
    obtain ⟨-, dispatched,
        ⟨args, ok, -⟩ | ⟨f', g, failed', calls, tells, short, -, -, span, line⟩⟩ :=
      dispatch_parses "!" " " "t" " x" .null tallies_reached rfl List.mem_cons_self (by decide)
        (hasBuiltins_tally " x") blank (apart ['x'])
    · cases failed.symm.trans ok
    · cases failed.symm.trans failed'
      obtain ⟨reply, text⟩ := short (by decide +kernel)
      rw [text] at tells
      rw [place] at span
      exact ⟨_, reply, dispatched, calls, tells.1, tells.2, g, text, span, line⟩

end CommandRegistry

end CommandGrammar
