import CommandGrammar.Command.Registry
import CommandGrammar.Proofs.Schema.Words

/-!
# Registration

A registry that was reached by registrations finds each of its commands under each of its words,
and these are words in the sense that they hold no blanks: a command is registered only if none of
its words is in use.
-/

namespace CommandGrammar

/-- The schema of a command is built if the schemas are that it was made of. -/
theorem Command.built_of_make {schema callback : Value} {types : Option TypeRegistry}
    {overrides : Fields} {c : Command} (held : schema.Built)
    (made : Command.make schema callback types overrides = .ok c) : c.schema.Built := by
  unfold make at made
  split at made
  · obtain ⟨n, declared, made⟩ := bind_eq_ok.1 made
    obtain ⟨options, -, made⟩ := bind_eq_ok.1 made
    cases made
    exact Schema.declared_built held declared
  · cases made

namespace CommandRegistry

/-- The registries that come of registrations and of changes of the prefix. Whatever is registered
was made as a command before. -/
inductive Reached : CommandRegistry → Prop
  | empty (commandPrefix : Option String) : Reached (.empty commandPrefix)
  | register {r r' : CommandRegistry} {schema callback : Value} {types : Option TypeRegistry}
      {overrides : Fields} {c : Command} {e : Event} (reached : Reached r) (held : schema.Built)
      (made : Command.make schema callback types overrides = .ok c)
      (ok : r.register c = .ok (r', e)) : Reached r'
  | setPrefix {r r' : CommandRegistry} {v : Value} (reached : Reached r)
      (ok : r.setPrefix v = .ok r') : Reached r'

variable {r r' : CommandRegistry} {c : Command} {word : String}

theorem answersTo_of_mem_words (mem : word ∈ c.schema.words) : answersTo true word c = true := by
  unfold Schema.words at mem
  rw [answersTo, Command.name, Command.aliases]
  split at mem
  · rename_i name hname
    rw [hname]
    rcases List.mem_cons.1 mem with rfl | mem
    · simp
    · simp [mem]
  · exact absurd mem List.not_mem_nil

/-- A command that is registered comes last, and none of its words was in use. -/
theorem register_eq_ok {e : Event} (ok : r.register c = .ok (r', e)) :
    r'.commands = r.commands ++ [c] ∧ ∀ word ∈ c.schema.words, r.get? true word = none := by
  unfold register at ok
  split at ok
  · cases ok
  · rename_i name hname
    have words : c.schema.words = name :: c.aliases := by
      rw [Schema.words, show c.schema.name = some name from hname]
      rfl
    split at ok
    · cases ok
    · rename_i unused
      cases ok
      refine ⟨rfl, ?_⟩
      intro word mem
      rw [words] at mem
      have free := List.find?_eq_none.1 unused word mem
      rw [contains, Bool.not_eq_true] at free
      exact Option.isNone_iff_eq_none.1 (Option.isSome_eq_false_iff.1 free)

theorem setPrefix_eq_ok {v : Value} (ok : r.setPrefix v = .ok r') : r'.commands = r.commands := by
  unfold setPrefix at ok
  obtain ⟨commandPrefix, -, ok⟩ := bind_eq_ok.1 ok
  cases ok
  rfl

/-- Registered commands have schemas that are built. -/
theorem Reached.built (reached : r.Reached) : ∀ c ∈ r.commands, c.schema.Built := by
  induction reached with
  | empty commandPrefix => exact List.forall_mem_nil _
  | @register r r' schema callback types overrides c e reached held made ok ih =>
    rw [(register_eq_ok ok).1]
    exact List.forall_mem_append.2
      ⟨ih, List.forall_mem_singleton.2 (Command.built_of_make held made)⟩
  | setPrefix reached ok ih =>
    rw [setPrefix_eq_ok ok]
    exact ih

/-- A registered command is the one that is found under each of its words. -/
theorem Reached.get?_eq_some (reached : r.Reached) (mem : c ∈ r.commands)
    (answers : word ∈ c.schema.words) : r.get? true word = some c := by
  induction reached generalizing c with
  | empty commandPrefix => exact absurd mem List.not_mem_nil
  | @register r r' schema callback types overrides added e reached held made ok ih =>
    obtain ⟨commands, unused⟩ := register_eq_ok ok
    rw [commands] at mem
    -- The search passes the commands that were there before: the added one is found under its
    -- words because none of these commands answers to them.
    rw [get?, commands, List.find?_append, ← get?]
    rcases List.mem_append.1 mem with mem | mem
    · rw [ih mem answers]
      rfl
    · cases List.mem_singleton.1 mem
      rw [unused word answers]
      exact List.find?_cons_of_pos (answersTo_of_mem_words answers)
  | setPrefix reached ok ih =>
    rw [setPrefix_eq_ok ok] at mem
    rw [get?, setPrefix_eq_ok ok, ← get?]
    exact ih mem answers

end CommandRegistry

end CommandGrammar
