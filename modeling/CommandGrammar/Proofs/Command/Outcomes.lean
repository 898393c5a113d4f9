import CommandGrammar.Proofs.Command.Lookup
import CommandGrammar.Proofs.Command.Routing
import CommandGrammar.Proofs.Parse.Reporting
import CommandGrammar.Proofs.Parse.Safety
import Mathlib.Data.List.TakeWhile

/-!
# Outcomes of dispatch

A line that begins with the prefix is handled. Its first word names a command or none, the command
parses the line or not, and the callback returns, raises a fault or crashes. Whatever goes wrong is
reported once and replied once, and nothing else is (`dispatch_accounted`). Only a fault that cannot
be told has no reply. Then the crash of telling it leaves the dispatch, which catches nothing that
comes of a reply.
-/

namespace CommandGrammar

/-- An event that tells what went wrong with a line. -/
def Event.tellsTrouble : Event → Bool
  | .unknownCommand .. | .commandFailed .. | .commandCrashed .. => true
  | _ => false

theorem Event.tellsTrouble_of_parsing {e : Event} (parsing : e.component = .parsing) :
    e.tellsTrouble = false := by
  cases e <;> first | rfl | cases parsing

/-- A fault that cannot be told: it has a token and a line, but what stands in their places is no
token or no text, or the column has too many digits to be written. -/
def Fault.Untold (f : Fault) : Prop :=
  f.token ≠ .null ∧ f.command ≠ .null ∧ ∀ t line, f.token = .token t → f.command = .str line →
    decimalLimit ≤ (t.start + f.start + 1).natAbs

theorem Fault.untold_iff {f : Fault} : f.Untold ↔ ∃ refusal, f.text = .error refusal := by
  have told : f.Untold ↔ ¬∃ reply, f.text = .ok reply := by
    rw [exists_text_iff, Untold]
    constructor
    · rintro ⟨located, annotated, long⟩ (token | command | ⟨t, line, token, command, short⟩)
      · exact located token
      · exact annotated command
      · exact Nat.not_lt.2 (long t line token command) short
    · intro untold
      refine ⟨fun token => untold (.inl token), fun command => untold (.inr (.inl command)), ?_⟩
      intro t line token command
      refine Nat.not_lt.1 fun short => untold ?_
      exact .inr (.inr ⟨t, line, token, command, short⟩)
  rw [told]
  cases f.text with
  | ok reply => exact iff_of_false (not_not_intro ⟨reply, rfl⟩) nofun
  | error refusal => exact iff_of_true nofun ⟨refusal, rfl⟩

namespace CommandRegistry

/-! ## The first word of a line -/

/-- The first word of a line behind a prefix, and where it stops. Where nothing but blanks comes
behind the prefix, it is empty. -/
inductive FirstWord (commandPrefix line : String) : String → Nat → Prop
  | word {blanks word rest : String} (split : line = commandPrefix ++ blanks ++ word ++ rest)
      (blank : ∀ ch ∈ blanks.toList, isBlank ch = true) (isWord : Text.IsWord word)
      (apart : ∀ ch ∈ rest.toList.head?, isBlank ch = true) :
      FirstWord commandPrefix line word (commandPrefix ++ blanks ++ word).length
  | none {blanks : String} (split : line = commandPrefix ++ blanks)
      (blank : ∀ ch ∈ blanks.toList, isBlank ch = true) :
      FirstWord commandPrefix line "" (commandPrefix ++ blanks).length

/-- A registry names a command by the first word of a line, which stops at an offset. -/
inductive Names (r : CommandRegistry) (line : String) (c : Command) (start : Nat) : Prop
  | mk {commandPrefix word : String} (prefixed : r.commandPrefix = some commandPrefix)
      (first : FirstWord commandPrefix line word start) (mem : c ∈ r.commands)
      (answers : c.name = some word ∨ word ∈ c.aliases)

/-- How the command that a line names ends: as its parse does, or as its callback does, which is
called with the result. -/
inductive Ends (r : CommandRegistry) (host : Host) (line : String) (issuer : Value)
    (name : String) : Reaction → Prop
  | parse {c : Command} {start : Nat} {h : Halt} (names : r.Names line c start)
      (named : c.name = some name) (failed : (c.parse host line start).result = .error h) :
      Ends r host line issuer name h.reaction
  | callback {c : Command} {start : Nat} {args : Mapping Value} (names : r.Names line c start)
      (named : c.name = some name) (ok : (c.parse host line start).result = .ok args) :
      Ends r host line issuer name (host.callbacks c.callback ⟨line, args, issuer⟩)

/-- What goes wrong with a line, as it is told and as it is reported: no command has its first word,
or the one that has it ends with a fault or a crash. -/
inductive Trouble (r : CommandRegistry) (host : Host) (line : String) (issuer : Value) :
    Except Crash String → Event → Prop
  | unknown {commandPrefix word : String} {stop : Nat}
      (prefixed : r.commandPrefix = some commandPrefix)
      (first : FirstWord commandPrefix line word stop)
      (none : ∀ c ∈ r.commands, ¬(c.name = some word ∨ word ∈ c.aliases)) :
      Trouble r host line issuer (.ok (unknownReply word)) (.unknownCommand word line)
  | fault {name : String} {f : Fault} (ends : r.Ends host line issuer name (.fault f)) :
      Trouble r host line issuer (f.text.mapError Refusal.crash)
        (.commandFailed name line f.message)
  | crash {name : String} {crash : Crash} (ends : r.Ends host line issuer name (.crash crash)) :
      Trouble r host line issuer (.ok (crashReply crash))
        (.commandCrashed name line crash.report)

/-- What dispatching a line comes to. -/
structure Accounted (r : CommandRegistry) (host : Host) (line : String) (issuer : Value)
    (d : Dispatch) : Prop where
  /-- The line is left alone just where it does not begin with the prefix. -/
  unhandled : d.handled = .ok false ↔
    ¬∃ commandPrefix, r.commandPrefix = some commandPrefix ∧ commandPrefix.toList <+: line.toList
  /-- Nothing comes of a line that is left alone. -/
  ignored : d.handled = .ok false → d.replies = [] ∧ d.calls = [] ∧ d.events = []
  /-- A crash leaves the dispatch just where the command ends with a fault that cannot be told. -/
  crashes : (∃ crash, d.handled = .error crash) ↔
    ∃ name f, r.Ends host line issuer name (.fault f) ∧ f.Untold
  /-- A callback is called at most once, -/
  once : d.calls.length ≤ 1
  /-- and only that of the command that the line names, if the command parses it. -/
  called : ∀ call, call ∈ d.calls ↔ ∃ c start args, r.Names line c start ∧
    (c.parse host line start).result = .ok args ∧
    call = ⟨c.callback, ⟨line, args, issuer⟩, host.callbacks c.callback ⟨line, args, issuer⟩⟩
  /-- Behind what the parse reports, trouble is reported once and told once. -/
  told : ∃ reported own, d.events = reported ++ own ∧
    (∀ e ∈ reported, e.component = .parsing ∨ ∃ h tokens a, e ∈ (host.converters h tokens a).1) ∧
    (∀ text e, r.Trouble host line issuer text e →
      d.Tells text ∧ own.filter Event.tellsTrouble = [e]) ∧
    ((∀ text e, ¬ r.Trouble host line issuer text e) →
      d.replies = [] ∧ own.filter Event.tellsTrouble = [])

variable {r : CommandRegistry} {host : Host} {c : Command} {line commandPrefix word : String}
  {stop : Nat} {issuer : Value} {d : Dispatch}

/-- Where converters report no trouble of their own, that of a line is all that is reported. -/
theorem Accounted.events (accounted : r.Accounted host line issuer d)
    (quiet : ∀ h tokens a, ∀ e ∈ (host.converters h tokens a).1, e.tellsTrouble = false) :
    (∀ text e, r.Trouble host line issuer text e → d.events.filter Event.tellsTrouble = [e]) ∧
      ((∀ text e, ¬ r.Trouble host line issuer text e) →
        d.events.filter Event.tellsTrouble = []) := by
  obtain ⟨reported, own, events, reports, troubled, untroubled⟩ := accounted.told
  have silent : reported.filter Event.tellsTrouble = [] := by
    refine List.filter_eq_nil_iff.2 ?_
    intro e mem
    rw [Bool.not_eq_true]
    rcases reports e mem with parsing | ⟨h, tokens, a, mem⟩
    · exact Event.tellsTrouble_of_parsing parsing
    · exact quiet h tokens a e mem
  rw [events, List.filter_append, silent, List.nil_append]
  exact ⟨fun text e trouble => (troubled text e trouble).2, fun none => (untroubled none).2⟩

/-- The first word is the one that dispatch looks up. -/
theorem FirstWord.body_eq (first : FirstWord commandPrefix line word stop) :
    ∃ body, body? commandPrefix.toList line.toList = some body ∧
      String.ofList (Text.firstWordList body) = word ∧
      commandPrefix.length + (body.takeWhile isBlank).length + (Text.firstWordList body).length =
        stop := by
  cases first with
  | @word blanks word rest split blank isWord apart =>
    have chars : line.toList =
        commandPrefix.toList ++ (blanks.toList ++ (word.toList ++ rest.toList)) := by
      simp only [split, String.toList_append, List.append_assoc]
    rw [chars, body?_append]
    refine ⟨_, rfl, ?_, ?_⟩
    · rw [Text.firstWordList_append isWord blank apart, String.ofList_toList]
    · rw [Text.firstWordList_append isWord blank apart,
        Text.takeWhile_isBlank_append isWord blank]
      simp only [String.length_toList, String.length_append]
  | @none blanks split blank =>
    have chars : line.toList = commandPrefix.toList ++ blanks.toList := by
      rw [split, String.toList_append]
    have taken : blanks.toList.takeWhile isBlank = blanks.toList :=
      List.takeWhile_eq_self_iff.2 blank
    have dropped : Text.firstWordList blanks.toList = [] := by
      rw [Text.firstWordList, Text.dropBlanks, List.dropWhile_eq_nil_iff.2 blank]
      rfl
    rw [chars, body?_append]
    refine ⟨_, rfl, ?_, ?_⟩
    · rw [dropped, String.ofList_nil]
    · rw [dropped, taken, String.length_toList, String.length_append, List.length_nil, Nat.add_zero]

/-- A line has one first word. -/
theorem FirstWord.unique {word' : String} {stop' : Nat}
    (first : FirstWord commandPrefix line word stop)
    (first' : FirstWord commandPrefix line word' stop') : word' = word ∧ stop' = stop := by
  obtain ⟨body, hbody, rfl, rfl⟩ := first.body_eq
  obtain ⟨body', hbody', rfl, rfl⟩ := first'.body_eq
  cases hbody.symm.trans hbody'
  exact ⟨rfl, rfl⟩

theorem FirstWord.begins (first : FirstWord commandPrefix line word stop) :
    commandPrefix.toList <+: line.toList := by
  cases first with
  | word split _ _ _ =>
    simp only [split, String.toList_append, List.append_assoc]
    exact List.prefix_append _ _
  | none split _ =>
    rw [split, String.toList_append]
    exact List.prefix_append _ _

/-- Characters begin with a run of some kind, behind which they end or go on with another kind. -/
theorem exists_run (kind : Char → Bool) (cs : List Char) :
    ∃ run rest, cs = run ++ rest ∧ (∀ ch ∈ run, kind ch = true) ∧
      ∀ ch ∈ rest.head?, kind ch = false := by
  induction cs with
  | nil => exact ⟨[], [], rfl, List.forall_mem_nil _, by simp⟩
  | cons c cs ih =>
    by_cases hc : kind c = true
    · obtain ⟨run, rest, rfl, inside, outside⟩ := ih
      exact ⟨c :: run, rest, rfl, List.forall_mem_cons.2 ⟨hc, inside⟩, outside⟩
    · refine ⟨[], c :: cs, rfl, List.forall_mem_nil _, ?_⟩
      intro ch mem
      cases mem
      exact eq_false_of_ne_true hc

/-- A line that begins with a prefix has a first word behind it. -/
theorem exists_firstWord (begins : commandPrefix.toList <+: line.toList) :
    ∃ word stop, FirstWord commandPrefix line word stop := by
  obtain ⟨body, hbody⟩ := begins
  obtain ⟨blanks, behind, rfl, blank, plain⟩ := exists_run isBlank body
  obtain ⟨word, rest, rfl, unbroken, apart⟩ := exists_run (!isBlank ·) behind
  have split : line = commandPrefix ++ String.ofList blanks ++ String.ofList word ++
      String.ofList rest := by
    apply String.toList_injective
    simp only [String.toList_append, String.toList_ofList, ← hbody, List.append_assoc]
  have apart : ∀ ch ∈ rest.head?, isBlank ch = true := by simpa using apart
  by_cases nonempty : word = []
  · -- What stands behind the blanks would begin with a blank.
    have ends : rest = [] := by
      cases rest with
      | nil => rfl
      | cons ch others =>
        rw [nonempty, List.nil_append] at plain
        exact absurd (apart ch rfl) (by simp [plain ch rfl])
    rw [nonempty, ends, String.ofList_nil, String.append_empty, String.append_empty] at split
    exact ⟨_, _, .none split (by rwa [String.toList_ofList])⟩
  · have isWord : Text.IsWord (String.ofList word) :=
      ⟨by rwa [String.toList_ofList], by simpa using unbroken⟩
    exact ⟨_, _, .word split (by rwa [String.toList_ofList]) isWord
      (by rwa [String.toList_ofList])⟩

/-- A line that does not begin with the prefix is left alone. -/
theorem dispatchLine_of_unprefixed (host : Host) (issuer : Value)
    (unprefixed : ∀ commandPrefix, r.commandPrefix = some commandPrefix →
      ¬ commandPrefix.toList <+: line.toList) :
    r.dispatchLine host line issuer = .ignored := by
  unfold dispatchLine
  split
  · rfl
  · rename_i commandPrefix prefixed
    rw [body?, if_neg]
    rw [List.isPrefixOf_iff_prefix]
    exact unprefixed commandPrefix prefixed

/-- A line whose first word no command has is replied to. -/
theorem dispatchLine_of_absent (host : Host) (issuer : Value)
    (prefixed : r.commandPrefix = some commandPrefix)
    (first : FirstWord commandPrefix line word stop) (absent : r.get? true word = none) :
    r.dispatchLine host line issuer =
      ⟨.ok true, [unknownReply word], [], [.unknownCommand word line]⟩ := by
  obtain ⟨body, hbody, rfl, rfl⟩ := first.body_eq
  simp only [dispatchLine, prefixed, hbody, absent]

/-- A line is delivered to the command that has its first word, from behind the word on. -/
theorem dispatchLine_of_found (host : Host) (issuer : Value)
    (prefixed : r.commandPrefix = some commandPrefix)
    (first : FirstWord commandPrefix line word stop) (found : r.get? true word = some c) :
    r.dispatchLine host line issuer = deliver host c line stop issuer := by
  obtain ⟨body, hbody, rfl, rfl⟩ := first.body_eq
  simp only [dispatchLine, prefixed, hbody, found]

/-! ## What is called and what goes wrong -/

/-- A line names one command at most, the one that is found under its first word. -/
theorem Names.found {start : Nat} (names : r.Names line c start) (reached : r.Reached)
    (prefixed : r.commandPrefix = some commandPrefix)
    (first : FirstWord commandPrefix line word stop) :
    r.get? true word = some c ∧ start = stop := by
  obtain ⟨prefixed', first', mem, answers⟩ := names
  cases prefixed.symm.trans prefixed'
  obtain ⟨rfl, rfl⟩ := first.unique first'
  exact ⟨(reached.indexed.found _ c).2 ⟨mem, answers⟩, rfl⟩

theorem names_of_found (reached : r.Reached) (prefixed : r.commandPrefix = some commandPrefix)
    (first : FirstWord commandPrefix line word stop) (found : r.get? true word = some c) :
    r.Names line c stop := by
  obtain ⟨mem, answers⟩ := (reached.indexed.found word c).1 found
  exact .mk prefixed first mem answers

/-- A line whose first word no command has names none. -/
theorem not_names_of_absent (reached : r.Reached) (prefixed : r.commandPrefix = some commandPrefix)
    (first : FirstWord commandPrefix line word stop) (absent : r.get? true word = none)
    (c : Command) (start : Nat) : ¬ r.Names line c start := by
  intro names
  cases absent.symm.trans (names.found reached prefixed first).1

/-- A command that ends is one that the line names. -/
theorem Ends.names {name : String} {reaction : Reaction}
    (ends : r.Ends host line issuer name reaction) : ∃ c start, r.Names line c start := by
  cases ends with
  | parse names _ _ => exact ⟨_, _, names⟩
  | callback names _ _ => exact ⟨_, _, names⟩

theorem Names.begins {start : Nat} (names : r.Names line c start) : ∃ commandPrefix,
    r.commandPrefix = some commandPrefix ∧ commandPrefix.toList <+: line.toList := by
  obtain ⟨prefixed, first, -, -⟩ := names
  exact ⟨_, prefixed, first.begins⟩

/-- Whatever goes wrong with a line, the line begins with the prefix. -/
theorem Trouble.begins {text : Except Crash String} {e : Event}
    (trouble : r.Trouble host line issuer text e) : ∃ commandPrefix,
    r.commandPrefix = some commandPrefix ∧ commandPrefix.toList <+: line.toList := by
  cases trouble with
  | unknown prefixed first _ => exact ⟨_, prefixed, first.begins⟩
  | fault ends =>
    obtain ⟨c, start, names⟩ := ends.names
    exact names.begins
  | crash ends =>
    obtain ⟨c, start, names⟩ := ends.names
    exact names.begins

/-- How a command ends that a line names: what is wrong with the parse, or what the callback does
with its result. -/
def ending (host : Host) (c : Command) (line : String) (start : Nat) (issuer : Value) : Reaction :=
  match (c.parse host line start).result with
  | .error h => h.reaction
  | .ok args => host.callbacks c.callback ⟨line, args, issuer⟩

/-- What is wrong where a command ends, as it is told and as it is reported. -/
def troubleOf (name line : String) : Reaction → Option (Except Crash String × Event)
  | .returned _ => none
  | .fault f => some (f.text.mapError Refusal.crash, .commandFailed name line f.message)
  | .crash c => some (.ok (crashReply c), .commandCrashed name line c.report)

/-- Where a line names a command, this is the one that ends, under its name. -/
theorem ends_iff (host : Host) (issuer : Value) (reached : r.Reached)
    (prefixed : r.commandPrefix = some commandPrefix)
    (first : FirstWord commandPrefix line word stop) (found : r.get? true word = some c)
    (name : String) (reaction : Reaction) : r.Ends host line issuer name reaction ↔
      name = c.name.getD "" ∧ reaction = ending host c line stop issuer := by
  have same : ∀ {c' start}, r.Names line c' start → c' = c ∧ start = stop := by
    intro c' start names
    obtain ⟨found', stops⟩ := names.found reached prefixed first
    cases found.symm.trans found'
    exact ⟨rfl, stops⟩
  unfold ending
  constructor
  · rintro (⟨names, named, failed⟩ | ⟨names, named, ok⟩)
    · obtain ⟨rfl, rfl⟩ := same names
      rw [failed, named]
      exact ⟨rfl, rfl⟩
    · obtain ⟨rfl, rfl⟩ := same names
      rw [ok, named]
      exact ⟨rfl, rfl⟩
  · rintro ⟨rfl, rfl⟩
    have names := names_of_found reached prefixed first found
    obtain ⟨name, named⟩ : ∃ name, c.name = some name := by
      obtain ⟨-, -, mem, -⟩ := names
      exact Option.isSome_iff_exists.1 (reached.named c mem)
    rw [named, Option.getD_some]
    cases result : (c.parse host line stop).result with
    | error h => exact .parse names named result
    | ok args => exact .callback names named result

/-- Where a line names a command, what goes wrong is what the command ends with. -/
theorem trouble_iff (host : Host) (issuer : Value) (reached : r.Reached)
    (prefixed : r.commandPrefix = some commandPrefix)
    (first : FirstWord commandPrefix line word stop) (found : r.get? true word = some c)
    (text : Except Crash String) (e : Event) : r.Trouble host line issuer text e ↔
      troubleOf (c.name.getD "") line (ending host c line stop issuer) = some (text, e) := by
  have ends := ends_iff host issuer reached prefixed first found
  constructor
  · intro trouble
    cases trouble with
    | unknown prefixed' first' none =>
      cases prefixed.symm.trans prefixed'
      obtain ⟨rfl, -⟩ := first.unique first'
      cases ((reached.indexed.absent _).2 none).symm.trans found
    | fault ended =>
      obtain ⟨rfl, ending⟩ := (ends _ _).1 ended
      rw [← ending]
      rfl
    | crash ended =>
      obtain ⟨rfl, ending⟩ := (ends _ _).1 ended
      rw [← ending]
      rfl
  · intro wrong
    have ended := (ends _ _).2 ⟨rfl, rfl⟩
    cases reaction : ending host c line stop issuer with
    | returned v =>
      rw [reaction] at wrong
      cases wrong
    | fault f =>
      rw [reaction] at wrong ended
      cases wrong
      exact .fault ended
    | crash k =>
      rw [reaction] at wrong ended
      cases wrong
      exact .crash ended

/-- What a command that is delivered a line calls, if it parses the line. -/
theorem mem_calls_deliver {call : Invocation} :
    call ∈ (deliver host c line stop issuer).calls ↔
      ∃ args, (c.parse host line stop).result = .ok args ∧ call =
        ⟨c.callback, ⟨line, args, issuer⟩, host.callbacks c.callback ⟨line, args, issuer⟩⟩ := by
  unfold deliver
  dsimp only
  cases (c.parse host line stop).result with
  | error h => simp [react_calls]
  | ok args => simp [react_calls, Command.invoke, Host.call]

theorem length_calls_deliver : (deliver host c line stop issuer).calls.length ≤ 1 := by
  unfold deliver
  dsimp only
  cases (c.parse host line stop).result with
  | error h => exact (congrArg List.length (react_calls ..)).trans_le (Nat.zero_le 1)
  | ok args => exact (congrArg List.length (react_calls ..)).trans_le (Nat.le_refl 1)

/-- What is wrong is told, and it is the only trouble among the events of the dispatch's own. -/
def Shows (d : Dispatch) (own : List Event) : Option (Except Crash String × Event) → Prop
  | none => d.handled = .ok true ∧ d.replies = [] ∧ own.filter Event.tellsTrouble = []
  | some (text, e) => d.Tells text ∧ own.filter Event.tellsTrouble = [e]

/-- What is wrong where a command ends is shown by the reaction to it. -/
theorem react_shows {d : Dispatch} {reported before : List Event} (handled : d.handled = .ok true)
    (quiet : d.replies = []) (events : d.events = reported ++ before)
    (untroubled : before.filter Event.tellsTrouble = []) (name line : String)
    (reaction : Reaction) :
    ∃ own, (react name line d reaction).events = reported ++ own ∧
      Shows (react name line d reaction) own (troubleOf name line reaction) := by
  cases reaction with
  | returned v => exact ⟨before, events, handled, quiet, untroubled⟩
  | fault f =>
    refine ⟨before ++ [.commandFailed name line f.message], ?_, ?_, ?_⟩
    · rw [← List.append_assoc, ← events]
      exact Dispatch.events_reply ..
    · exact Dispatch.tells_reply (d := d.report _) handled quiet _
    · rw [List.filter_append, untroubled]
      rfl
  | crash c =>
    refine ⟨before ++ [.commandCrashed name line c.report], ?_, ?_, ?_⟩
    · rw [← List.append_assoc, ← events]
      exact Dispatch.events_reply ..
    · exact ⟨handled, congrArg (· ++ [crashReply c]) quiet⟩
    · rw [List.filter_append, untroubled]
      rfl

/-- A line that is delivered to a command is handled, and a crash leaves the dispatch just where the
command ends with a fault that cannot be told. -/
theorem Shows.handled {own : List Event} {name : String} {reaction : Reaction}
    (shows : Shows d own (troubleOf name line reaction)) : d.handled ≠ .ok false ∧
      ((∃ crash, d.handled = .error crash) ↔ ∃ f, reaction = .fault f ∧ f.Untold) := by
  cases reaction with
  | returned v =>
    obtain ⟨handled, -, -⟩ := shows
    rw [handled]
    exact ⟨nofun, iff_of_false nofun nofun⟩
  | crash c =>
    obtain ⟨⟨handled, -⟩, -⟩ := shows
    rw [handled]
    exact ⟨nofun, iff_of_false nofun nofun⟩
  | fault f =>
    obtain ⟨tells, -⟩ := shows
    cases text : f.text with
    | ok reply =>
      rw [text] at tells
      rw [tells.1]
      refine ⟨nofun, iff_of_false nofun ?_⟩
      rintro ⟨_, ⟨⟩, untold⟩
      obtain ⟨refusal, untold⟩ := Fault.untold_iff.1 untold
      cases text.symm.trans untold
    | error refusal =>
      rw [text] at tells
      rw [tells.1]
      exact ⟨nofun, iff_of_true ⟨_, rfl⟩ ⟨f, rfl, Fault.untold_iff.2 ⟨refusal, text⟩⟩⟩

/-- What is wrong where a line is delivered to a command is shown, behind what the parse reports. -/
theorem deliver_shows (host : Host) (c : Command) (line : String) (stop : Nat) (issuer : Value) :
    ∃ reported own, (deliver host c line stop issuer).events = reported ++ own ∧
      (∀ e ∈ reported, e.component = .parsing ∨
        ∃ h tokens a, e ∈ (host.converters h tokens a).1) ∧
      Shows (deliver host c line stop issuer) own
        (troubleOf (c.name.getD "") line (ending host c line stop issuer)) := by
  have reports : ∀ e ∈ (c.parse host line stop).events, e.component = .parsing ∨
      ∃ h tokens a, e ∈ (host.converters h tokens a).1 :=
    (c.parser host line).parse_reports c.schema stop
  have shown : ∃ own,
      (deliver host c line stop issuer).events = (c.parse host line stop).events ++ own ∧
        Shows (deliver host c line stop issuer) own
          (troubleOf (c.name.getD "") line (ending host c line stop issuer)) := by
    unfold deliver ending
    dsimp only
    cases (c.parse host line stop).result with
    | error h => exact react_shows rfl rfl (List.append_nil _).symm rfl ..
    | ok args => exact react_shows rfl rfl rfl rfl ..
  obtain ⟨own, events, shows⟩ := shown
  exact ⟨_, own, events, reports, shows⟩

theorem accounted_of_found (reached : r.Reached) (prefixed : r.commandPrefix = some commandPrefix)
    (first : FirstWord commandPrefix line word stop) (found : r.get? true word = some c) :
    r.Accounted host line issuer (deliver host c line stop issuer) := by
  obtain ⟨reported, own, events, reports, shows⟩ := deliver_shows host c line stop issuer
  have ends := ends_iff host issuer reached prefixed first found
  have trouble := trouble_iff host issuer reached prefixed first found
  obtain ⟨handled, crashes⟩ := shows.handled
  exact {
    unhandled := iff_of_false handled (not_not_intro ⟨commandPrefix, prefixed, first.begins⟩)
    ignored := fun unhandled => absurd unhandled handled
    crashes := by
      rw [crashes]
      constructor
      · rintro ⟨f, ended, untold⟩
        exact ⟨_, f, (ends _ _).2 ⟨rfl, ended.symm⟩, untold⟩
      · rintro ⟨name, f, ended, untold⟩
        exact ⟨f, ((ends _ _).1 ended).2.symm, untold⟩
    once := length_calls_deliver
    called := by
      intro call
      rw [mem_calls_deliver]
      constructor
      · rintro ⟨args, ok, hcall⟩
        exact ⟨c, stop, args, names_of_found reached prefixed first found, ok, hcall⟩
      · rintro ⟨c', start, args, names, ok, hcall⟩
        obtain ⟨found', rfl⟩ := names.found reached prefixed first
        cases found.symm.trans found'
        exact ⟨args, ok, hcall⟩
    told := by
      refine ⟨reported, own, events, reports, ?_, ?_⟩
      · intro text e troubled
        rw [(trouble text e).1 troubled] at shows
        exact shows
      · intro untroubled
        cases wrong : troubleOf (c.name.getD "") line (ending host c line stop issuer) with
        | none =>
          rw [wrong] at shows
          exact shows.2
        | some told => exact absurd ((trouble told.1 told.2).2 wrong) (untroubled _ _) }

theorem accounted_of_absent (reached : r.Reached) (prefixed : r.commandPrefix = some commandPrefix)
    (first : FirstWord commandPrefix line word stop) (absent : r.get? true word = none) :
    r.Accounted host line issuer
      ⟨.ok true, [unknownReply word], [], [.unknownCommand word line]⟩ := by
  have unnamed := not_names_of_absent reached prefixed first absent
  have unended : ∀ {name reaction}, ¬r.Ends host line issuer name reaction := by
    intro name reaction ends
    obtain ⟨c, start, names⟩ := ends.names
    exact unnamed c start names
  have unknown : r.Trouble host line issuer (.ok (unknownReply word)) (.unknownCommand word line) :=
    .unknown prefixed first ((reached.indexed.absent word).1 absent)
  exact {
    unhandled := iff_of_false nofun (not_not_intro ⟨commandPrefix, prefixed, first.begins⟩)
    ignored := nofun
    crashes := iff_of_false nofun fun ⟨_, _, ends, _⟩ => unended ends
    once := Nat.zero_le 1
    called := by
      intro call
      simp only [List.not_mem_nil, false_iff]
      rintro ⟨c, start, args, names, -⟩
      exact unnamed c start names
    told := by
      refine ⟨[], _, rfl, List.forall_mem_nil _, ?_,
        fun untroubled => absurd unknown (untroubled _ _)⟩
      intro text e trouble
      cases trouble with
      | unknown prefixed' first' _ =>
        cases prefixed.symm.trans prefixed'
        obtain ⟨rfl, -⟩ := first.unique first'
        exact ⟨⟨rfl, rfl⟩, rfl⟩
      | fault ends => exact absurd ends unended
      | crash ends => exact absurd ends unended }

theorem accounted_of_unprefixed
    (unprefixed : ∀ commandPrefix, r.commandPrefix = some commandPrefix →
      ¬ commandPrefix.toList <+: line.toList) :
    r.Accounted host line issuer .ignored := by
  have foreign : ¬∃ commandPrefix, r.commandPrefix = some commandPrefix ∧
      commandPrefix.toList <+: line.toList := by
    rintro ⟨commandPrefix, prefixed, begins⟩
    exact unprefixed commandPrefix prefixed begins
  exact {
    unhandled := iff_of_true rfl foreign
    ignored := fun _ => ⟨rfl, rfl, rfl⟩
    crashes := by
      refine iff_of_false nofun ?_
      rintro ⟨name, f, ends, -⟩
      obtain ⟨c, start, names⟩ := ends.names
      exact foreign names.begins
    once := Nat.zero_le 1
    called := by
      intro call
      refine iff_of_false List.not_mem_nil ?_
      rintro ⟨c, start, args, names, -⟩
      exact foreign names.begins
    told := ⟨[], [], rfl, List.forall_mem_nil _,
      fun text e trouble => absurd trouble.begins foreign, fun _ => ⟨rfl, rfl⟩⟩ }

/-- Whatever a host does, a registry that was reached dispatches each line and accounts for it: a
line that does not begin with the prefix is left alone, and of another one either the callback of
the command that it names is called, or what went wrong is told and reported, or both, where it
was the callback that went wrong. A crash leaves the dispatch for nothing but a fault that cannot be
told. -/
theorem dispatch_accounted (host : Host) (line : String) (issuer : Value) (reached : r.Reached) :
    ∃ d, r.dispatch host (.str line) issuer = .ok d ∧ r.Accounted host line issuer d := by
  refine ⟨_, rfl, ?_⟩
  by_cases begins : ∃ commandPrefix, r.commandPrefix = some commandPrefix ∧
      commandPrefix.toList <+: line.toList
  · obtain ⟨commandPrefix, prefixed, begins⟩ := begins
    obtain ⟨word, stop, first⟩ := exists_firstWord begins
    cases found : r.get? true word with
    | none =>
      rw [dispatchLine_of_absent host issuer prefixed first found]
      exact accounted_of_absent reached prefixed first found
    | some c =>
      rw [dispatchLine_of_found host issuer prefixed first found]
      exact accounted_of_found reached prefixed first found
  · have unprefixed : ∀ commandPrefix, r.commandPrefix = some commandPrefix →
        ¬ commandPrefix.toList <+: line.toList :=
      fun commandPrefix prefixed begins' => begins ⟨commandPrefix, prefixed, begins'⟩
    rw [dispatchLine_of_unprefixed host issuer unprefixed]
    exact accounted_of_unprefixed unprefixed

theorem dispatch_accounted_tally :
    (∃ d, tallies.dispatch plainHost (.str "! t 5") .null = .ok d ∧
      tallies.Accounted plainHost "! t 5" .null d ∧ d.calls.length = 1 ∧ d.replies = []) ∧
    (∃ d, tallies.dispatch plainHost (.str "! x 5") .null = .ok d ∧
      tallies.Accounted plainHost "! x 5" .null d ∧ d.calls.length = 0 ∧
      d.replies = [unknownReply "x"]) ∧
    ∃ d, tallies.dispatch plainHost (.str "t 5") .null = .ok d ∧
      tallies.Accounted plainHost "t 5" .null d ∧ d.handled = .ok false := by
  refine ⟨?_, ?_, ?_⟩
  · obtain ⟨d, dispatched, accounted⟩ :=
      dispatch_accounted plainHost "! t 5" .null tallies_reached
    cases dispatched
    exact ⟨_, rfl, accounted, by decide +kernel, by decide +kernel⟩
  · obtain ⟨d, dispatched, accounted⟩ :=
      dispatch_accounted plainHost "! x 5" .null tallies_reached
    cases dispatched
    exact ⟨_, rfl, accounted, rfl, rfl⟩
  · obtain ⟨d, dispatched, accounted⟩ :=
      dispatch_accounted plainHost "t 5" .null tallies_reached
    cases dispatched
    exact ⟨_, rfl, accounted, rfl⟩

/-- A host whose callbacks raise a fault. -/
def faultyHost (f : Fault) : Host := { plainHost with callbacks := fun _ _ => .fault f }

/-- A fault far behind its line, in a column that has too many digits to be written. -/
def distant : Fault :=
  let token : Token := ⟨"x", decimalLimit - 1, decimalLimit - 1, false⟩
  { Fault.ofToken .malformedValue "callback fault" token 0 0 with command := .str "a b" }

/-- A fault whose line is a number. -/
def mislaid : Fault :=
  { Fault.ofToken .malformedValue "callback fault" ⟨"x", 1, 2, false⟩ 0 0 with command := .int 123 }

/-- The name of the crash that leaves a dispatch, if one does. -/
def crash? (d : Dispatch) : Option String :=
  match d.handled with
  | .error c => some c.name
  | .ok _ => none

/-- Callbacks that raise a fault can make a crash leave the dispatch, without a reply. -/
theorem dispatch_untold :
    (∃ d, tallies.dispatch (faultyHost distant) (.str "! t 5") .null = .ok d ∧
      crash? d = some "ValueError" ∧ d.calls.length = 1 ∧ d.replies = []) ∧
    ∃ d, tallies.dispatch (faultyHost mislaid) (.str "! t 5") .null = .ok d ∧
      crash? d = some "TypeError" ∧ d.calls.length = 1 ∧ d.replies = [] := by
  refine ⟨⟨_, rfl, ?_, ?_, ?_⟩, ⟨_, rfl, ?_, ?_, ?_⟩⟩
  all_goals decide +kernel

end CommandRegistry

end CommandGrammar
