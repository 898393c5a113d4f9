import CommandGrammar.Proofs.Command.Registration

/-!
# Looking commands up

Whatever a registry is asked to register, its commands keep apart: each has a name, no word is
used twice, and each is found under its own words and under no others, whatever the order of the
registrations (`acceptAll_keeps_apart`). A call that is refused changes nothing.
-/

namespace CommandGrammar

/-- A command that was made of values whose schemas are built. -/
def Command.Made (c : Command) : Prop :=
  ∃ schema callback types overrides,
    schema.Built ∧ Command.make schema callback types overrides = .ok c

/-- A call with a command that was made, or with a declaration whose schemas are built. -/
def RegisterCall.Sound (call : RegisterCall) : Prop :=
  match call.registrant with
  | .made c => c.Made
  | .declared schema => schema.Built

/-- The call that hands a command over. -/
def RegisterCall.of (c : Command) : RegisterCall := ⟨.made c, .unset, none, []⟩

theorem RegisterCall.Sound.made {call : RegisterCall} {c : Command} (sound : call.Sound)
    (ok : call.command? = .ok (some c)) : c.Made := by
  obtain ⟨registrant, callback, types, overrides⟩ := call
  cases registrant with
  | made given =>
    cases callback with
    | unset =>
      unfold command? at ok
      dsimp only at ok
      split at ok
      · cases ok
      · cases ok
        exact sound
    | _ => cases ok
  | declared schema =>
    have making : some <$> Command.make schema callback types.join overrides = .ok (some c) := by
      cases callback with
      | unset => cases ok
      | _ => exact ok
    obtain ⟨made, hmake, same⟩ := map_eq_ok.1 making
    cases same
    exact ⟨schema, callback, types.join, overrides, sound, hmake⟩

namespace CommandRegistry

variable {r r' : CommandRegistry} {c : Command} {word : String} {call : RegisterCall}
  {calls : List RegisterCall}

/-! ## One call -/

/-- A call about a command comes to the registration of the command. -/
theorem accept_eq_register (r : CommandRegistry) (about : call.command? = .ok (some c)) :
    accept call r =
      match r.register c with
      | .error refusal => (.error refusal, r)
      | .ok (r', e) => (.ok (some (c, e)), r') := by
  unfold accept
  rw [about]
  change (ExceptT.bindCont (m := StateM CommandRegistry) _ (r.register c) : StateM _ _) r = _
  cases r.register c with
  | error refusal => rfl
  | ok registered => rfl

/-- A call is refused, waits for its callback or registers a command. The registry changes in the
last case alone. -/
theorem accept_cases (call : RegisterCall) (r : CommandRegistry) :
    (∃ refusal, accept call r = (.error refusal, r)) ∨
      accept call r = (.ok none, r) ∨
      ∃ c r' e, call.command? = .ok (some c) ∧ r.register c = .ok (r', e) ∧
        accept call r = (.ok (some (c, e)), r') := by
  cases about : call.command? with
  | error refusal =>
    refine .inl ⟨refusal, ?_⟩
    unfold accept
    rw [about]
    rfl
  | ok command =>
    cases command with
    | none =>
      refine .inr (.inl ?_)
      unfold accept
      rw [about]
      rfl
    | some c =>
      have accepted := accept_eq_register r about
      cases registered : r.register c with
      | error refusal =>
        rw [registered] at accepted
        exact .inl ⟨refusal, accepted⟩
      | ok outcome =>
        rw [registered] at accepted
        exact .inr (.inr ⟨c, outcome.1, outcome.2, rfl, registered, accepted⟩)

/-- A call that is refused changes nothing. -/
theorem accept_of_error {refusal : Refusal} (refused : (accept call r).1 = .error refusal) :
    (accept call r).2 = r := by
  obtain ⟨refusal, accepted⟩ | accepted | ⟨c, r', e, -, -, accepted⟩ := accept_cases call r
  · rw [accepted]
  · rw [accepted]
  · rw [accepted] at refused
    cases refused

theorem accept_reached (reached : r.Reached) (sound : call.Sound) : (accept call r).2.Reached := by
  obtain ⟨refusal, accepted⟩ | accepted | ⟨c, r', e, about, registered, accepted⟩ :=
    accept_cases call r
  · rw [accepted]
    exact reached
  · rw [accepted]
    exact reached
  · rw [accepted]
    obtain ⟨schema, callback, types, overrides, held, made⟩ := sound.made about
    exact .register reached held made registered

/-! ## Calls one after the other -/

/-- The command that a call registered, if it did. -/
def registered? (outcome : Except Refusal (Option (Command × Event))) : Option Command :=
  match outcome with
  | .ok (some (c, _)) => some c
  | _ => none

theorem acceptAll_cons (call : RegisterCall) (calls : List RegisterCall) (r : CommandRegistry) :
    acceptAll (call :: calls) r =
      ((accept call r).1 :: (acceptAll calls (accept call r).2).1,
        (acceptAll calls (accept call r).2).2) := by
  unfold acceptAll
  rw [List.mapM_cons]
  rfl

theorem acceptAll_reached (reached : r.Reached) (sound : ∀ call ∈ calls, call.Sound) :
    (acceptAll calls r).2.Reached := by
  induction calls generalizing r with
  | nil => exact reached
  | cons call rest ih =>
    rw [acceptAll_cons]
    obtain ⟨first, others⟩ := List.forall_mem_cons.1 sound
    exact ih (accept_reached reached first) others

/-- The commands that calls registered come after those that were there, in the order of the
calls. -/
theorem acceptAll_commands (calls : List RegisterCall) (r : CommandRegistry) :
    (acceptAll calls r).2.commands =
      r.commands ++ (acceptAll calls r).1.filterMap registered? := by
  induction calls generalizing r with
  | nil => exact (List.append_nil _).symm
  | cons call rest ih =>
    rw [acceptAll_cons]
    dsimp only
    rw [ih]
    obtain ⟨refusal, accepted⟩ | accepted | ⟨c, r', e, -, registered, accepted⟩ :=
      accept_cases call r
    · rw [accepted]
      rfl
    · rw [accepted]
      rfl
    · rw [accepted, (register_eq_ok registered).1, List.append_assoc]
      rfl

/-! ## Words and commands -/

theorem answersTo_iff : answersTo true word c = true ↔ c.name = some word ∨ word ∈ c.aliases := by
  rw [answersTo, Bool.true_and, Bool.or_eq_true, decide_eq_true_eq, List.contains_iff_mem]

theorem answersTo_name_iff : answersTo false word c = true ↔ c.name = some word := by
  rw [answersTo, Bool.false_and, Bool.or_false, decide_eq_true_eq]

theorem mem_words_iff (named : c.name.isSome) :
    word ∈ c.schema.words ↔ c.name = some word ∨ word ∈ c.aliases := by
  obtain ⟨name, hname⟩ := Option.isSome_iff_exists.1 named
  have words : c.schema.words = name :: c.aliases := by
    rw [Schema.words, show c.schema.name = some name from hname]
    rfl
  rw [words, hname, List.mem_cons, Option.some_inj, eq_comm]

theorem register_named {e : Event} (ok : r.register c = .ok (r', e)) : c.name.isSome := by
  unfold register at ok
  split at ok
  · cases ok
  · rename_i name hname
    rw [hname]
    rfl

/-- A command that has a name is registered if none of its words is in use. -/
theorem register_of_unused (named : c.name.isSome)
    (unused : ∀ word ∈ c.schema.words, r.get? true word = none) :
    ∃ e, r.register c = .ok ({ r with commands := r.commands ++ [c] }, e) := by
  obtain ⟨name, hname⟩ := Option.isSome_iff_exists.1 named
  have free : (name :: c.aliases).find? r.contains = none := by
    rw [List.find?_eq_none]
    intro word mem
    have answers : word ∈ c.schema.words := by
      rw [mem_words_iff named, hname, Option.some_inj, eq_comm]
      exact List.mem_cons.1 mem
    rw [contains, unused word answers]
    exact Bool.false_ne_true
  refine ⟨.commandRegistered name c.aliases, ?_⟩
  unfold register
  rw [hname]
  dsimp only
  rw [free]
  rfl

/-- Registered commands have names. -/
theorem Reached.named (reached : r.Reached) : ∀ c ∈ r.commands, c.name.isSome := by
  induction reached with
  | empty commandPrefix => exact List.forall_mem_nil _
  | @register r r' schema callback types overrides c e reached held made ok ih =>
    rw [(register_eq_ok ok).1]
    exact List.forall_mem_append.2 ⟨ih, List.forall_mem_singleton.2 (register_named ok)⟩
  | setPrefix reached ok ih =>
    rw [setPrefix_eq_ok ok]
    exact ih

/-- No word is used twice, neither by two commands nor by one. -/
theorem Reached.words_nodup (reached : r.Reached) :
    (r.commands.flatMap fun c => c.schema.words).Nodup := by
  induction reached with
  | empty commandPrefix => exact List.nodup_nil
  | @register r r' schema callback types overrides c e reached held made ok ih =>
    obtain ⟨commands, unused⟩ := register_eq_ok ok
    have own : c.schema.words.Nodup := (Command.built_of_make held made).ownWords_nodup
    rw [commands, List.flatMap_append, List.flatMap_singleton, List.nodup_append']
    refine ⟨ih, own, ?_⟩
    -- A word of a command that was there before finds this command, so it was in use.
    intro word before added
    obtain ⟨c', mem, answers⟩ := List.mem_flatMap.1 before
    have found := reached.get?_eq_some mem answers
    rw [unused word added] at found
    cases found
  | setPrefix reached ok ih =>
    rw [setPrefix_eq_ok ok]
    exact ih

/-- Commands that have names and share no word can be registered one after the other. -/
theorem acceptAll_of_nodup {cs : List Command}
    (named : ∀ c ∈ r.commands ++ cs, c.name.isSome)
    (distinct : ((r.commands ++ cs).flatMap fun c => c.schema.words).Nodup) :
    (acceptAll (cs.map .of) r).2.commands = r.commands ++ cs := by
  induction cs generalizing r with
  | nil => exact (List.append_nil _).symm
  | cons c rest ih =>
    have unused : ∀ word ∈ c.schema.words, r.get? true word = none := by
      intro word mem
      rw [List.flatMap_append, List.nodup_append'] at distinct
      have apart := distinct.2.2
      refine List.find?_eq_none.2 ?_
      intro c' mem' answers
      have named' := named c' (List.mem_append_left _ mem')
      have mem_words := (mem_words_iff named').2 (answersTo_iff.1 answers)
      have left : word ∈ r.commands.flatMap fun c => c.schema.words :=
        List.mem_flatMap.2 ⟨c', mem', mem_words⟩
      have right : word ∈ (c :: rest).flatMap fun c => c.schema.words :=
        List.mem_flatMap.2 ⟨c, List.mem_cons_self, mem⟩
      exact apart left right
    have hnamed := named c (List.mem_append_right _ List.mem_cons_self)
    obtain ⟨e, registered⟩ := register_of_unused hnamed unused
    have about : (RegisterCall.of c).command? = .ok (some c) := rfl
    have accepted := accept_eq_register r about
    rw [registered] at accepted
    rw [List.map_cons, acceptAll_cons, accepted]
    rw [List.append_cons] at named distinct
    exact (ih (r := { r with commands := r.commands ++ [c] }) named distinct).trans
      (List.append_cons r.commands c rest).symm

/-- What a registry is to its users. Its commands have names, and all that they are called by is
a word, which is used once. Under a word it finds the command that has it as its name or as an
alias, under a name the command that has this name, and under anything else nothing. -/
structure Indexed (r : CommandRegistry) : Prop where
  named : ∀ c ∈ r.commands, c.name.isSome
  isWord : ∀ word ∈ r.commands.flatMap fun c => c.schema.words, Text.IsWord word
  distinct : (r.commands.flatMap fun c => c.schema.words).Nodup
  found : ∀ word c, r.get? true word = some c ↔
    c ∈ r.commands ∧ (c.name = some word ∨ word ∈ c.aliases)
  foundByName : ∀ word c, r.get? false word = some c ↔ c ∈ r.commands ∧ c.name = some word
  absent : ∀ word, r.get? true word = none ↔
    ∀ c ∈ r.commands, ¬(c.name = some word ∨ word ∈ c.aliases)

theorem Reached.indexed (reached : r.Reached) : r.Indexed where
  named := reached.named
  isWord word mem := by
    obtain ⟨c, hc, answers⟩ := List.mem_flatMap.1 mem
    exact (reached.built c hc).isWord word answers
  distinct := reached.words_nodup
  found word c := by
    constructor
    · intro found
      exact ⟨List.mem_of_find?_eq_some found, answersTo_iff.1 (List.find?_some found)⟩
    · rintro ⟨mem, answers⟩
      exact reached.get?_eq_some mem ((mem_words_iff (reached.named c mem)).2 answers)
  foundByName word c := by
    constructor
    · intro found
      exact ⟨List.mem_of_find?_eq_some found, answersTo_name_iff.1 (List.find?_some found)⟩
    · rintro ⟨mem, hname⟩
      -- Some command of this name is found, and no two share a word.
      have some_found : (r.get? false word).isSome :=
        List.find?_isSome.2 ⟨c, mem, answersTo_name_iff.2 hname⟩
      obtain ⟨c', found⟩ := Option.isSome_iff_exists.1 some_found
      have mem' := List.mem_of_find?_eq_some found
      have hname' := answersTo_name_iff.1 (List.find?_some found)
      have same : c' = c :=
        eq_of_nodup_flatMap reached.words_nodup mem' mem
          ((mem_words_iff (reached.named c' mem')).2 (.inl hname'))
          ((mem_words_iff (reached.named c mem)).2 (.inl hname))
      rw [found, same]
  absent word := by
    constructor
    · intro none_found c mem answers
      exact List.find?_eq_none.1 none_found c mem (answersTo_iff.2 answers)
    · intro unused
      refine List.find?_eq_none.2 ?_
      intro c mem answers
      exact unused c mem (answersTo_iff.1 answers)

/-- Registries of the same commands find the same. -/
theorem Indexed.get?_eq_of_perm (h : r.Indexed) (h' : r'.Indexed)
    (same : r'.commands.Perm r.commands) (aliases : Bool) (word : String) :
    r'.get? aliases word = r.get? aliases word := by
  refine Option.ext ?_
  intro c
  cases aliases with
  | true => rw [h'.found, h.found, same.mem_iff]
  | false => rw [h'.foundByName, h.foundByName, same.mem_iff]

/-- Whatever a registry without commands is asked to register, and whichever of the calls are
refused, its commands are those that were registered, in the order of the calls, and it is indexed
by their words. A call that is refused changes nothing. The same commands can be registered in any
other order, and whichever calls they come from, the same is found under every word. -/
theorem acceptAll_keeps_apart (commandPrefix : Option String) (calls : List RegisterCall)
    (sound : ∀ call ∈ calls, call.Sound) :
    let outcomes := (acceptAll calls (.empty commandPrefix)).1
    let r := (acceptAll calls (.empty commandPrefix)).2
    r.Indexed ∧ r.commands = outcomes.filterMap registered? ∧
      (∀ call refusal, (accept call r).1 = .error refusal → (accept call r).2 = r) ∧
      (∀ cs, cs.Perm r.commands →
        (acceptAll (cs.map .of) (.empty commandPrefix)).2.commands = cs) ∧
      ∀ commandPrefix' calls', (∀ call ∈ calls', call.Sound) →
        let r' := (acceptAll calls' (.empty commandPrefix')).2
        r'.commands.Perm r.commands →
        ∀ aliases word, r'.get? aliases word = r.get? aliases word := by
  intro outcomes r
  have reached : r.Reached := acceptAll_reached (.empty commandPrefix) sound
  have indexed := reached.indexed
  refine ⟨indexed, acceptAll_commands calls (.empty commandPrefix), ?_, ?_, ?_⟩
  · intro call refusal refused
    exact accept_of_error refused
  · intro cs same
    have named : ∀ c ∈ cs, c.name.isSome := by
      intro c mem
      exact indexed.named c (same.mem_iff.1 mem)
    have distinct : (cs.flatMap fun c => c.schema.words).Nodup :=
      (same.flatMap_right _).nodup_iff.2 indexed.distinct
    exact acceptAll_of_nodup (r := .empty commandPrefix) named distinct
  · intro commandPrefix' calls' sound' r' same
    have reached' : r'.Reached := acceptAll_reached (.empty commandPrefix') sound'
    exact indexed.get?_eq_of_perm reached'.indexed same

/-- A call that declares a command by its name and an alias. -/
def callFor (name other : String) : RegisterCall where
  registrant := .declared (.draft ⟨.str name, .unset, [.str other], .unset, [], [], []⟩)
  callback := .callable ⟨name, none⟩
  types := none
  overrides := []

theorem callFor_sound (name other : String) : (callFor name other).Sound := by
  intro n holds
  cases holds

theorem acceptAll_keeps_apart_greet :
    let calls := [callFor "greet" "hi", callFor "salute" "hi", callFor "wave" "salute"]
    let r := (acceptAll calls (.empty none)).2
    r.Indexed ∧ r.names = ["greet", "wave"] ∧
      (accept (callFor "salute" "hi") r).1 = .error (.commandTaken "salute") ∧
      (accept (callFor "salute" "hi") r).2 = r ∧
      (r.get? true "hi").map Command.name = some (some "greet") ∧
      r.get? false "hi" = none := by
  intro calls r
  have sound : ∀ call ∈ calls, call.Sound := by
    simp only [calls, List.forall_mem_cons]
    exact ⟨callFor_sound _ _, callFor_sound _ _, callFor_sound _ _, List.forall_mem_nil _⟩
  obtain ⟨indexed, -, unchanged, -, -⟩ := acceptAll_keeps_apart none calls sound
  have refused : (accept (callFor "salute" "hi") r).1 = .error (.commandTaken "salute") := rfl
  exact ⟨indexed, rfl, refused, unchanged _ _ refused, rfl, rfl⟩

end CommandRegistry

end CommandGrammar
