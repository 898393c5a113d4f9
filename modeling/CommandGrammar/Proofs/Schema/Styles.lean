import CommandGrammar.Proofs.Schema.Declared
import CommandGrammar.Proofs.Schema.Steps

/-!
# Styles of declaration

A schema is made directly, written as a literal, or put together step by step. Each schema has a
literal (`Schema.literal`) and steps that put it together (`Schema.steps`), and all its literals
and all its steps lead to schemas that are equal to it (`Schema.styles_agree`).
-/

namespace CommandGrammar

theorem Fields.Shows.all (full defaults : Fields) : full.Shows full defaults :=
  ⟨[], List.Perm.of_eq (List.append_nil _), List.nil_subset _⟩

/-! ## A literal of everything -/

/-- The settings of an argument as fields of its literal. -/
def NumericOptions.written : Option NumericOptions → Fields
  | none => []
  | some (.range low high) => [("range", .tuple [.ofBound low, .ofBound high])]
  | some (.signedness unsigned) => [("unsigned", .bool unsigned)]

theorem NumericOptions.written_written (o : Option NumericOptions) : Written o (written o) := by
  cases o with
  | none => exact .missing
  | some o =>
    cases o with
    | range low high => exact .range (.both low high) (.tuple (List.forall₂_refl _))
    | signedness unsigned => exact .unsigned unsigned

/-- The literal of an argument that leaves nothing out. -/
def Argument.literal (a : Argument Value) : Value :=
  .dict (Fields.entries (a.literalFields ++ NumericOptions.written a.options ++ a.extras))

theorem Argument.literal_literal (a : Argument Value) : a.Literal a.literal := by
  refine .dict (NumericOptions.written_written a.options) (.all _ _) (.inl ?_)
  have dest : (a.literalFields ++ NumericOptions.written a.options ++ a.extras).lookup "dest" =
      some (.str a.dest) := rfl
  rw [dest]
  rfl

example : Argument.literal ⟨"place", .named "int", "POSITION", true, .null, none,
      some (.signedness true), [("precision", .int 2)]⟩ =
    .dict [(.str "dest", .str "place"), (.str "type", .str "int"), (.str "name", .str "POSITION"),
      (.str "required", .bool true), (.str "default", .null), (.str "help", .null),
      (.str "unsigned", .bool true), (.str "precision", .int 2)] := rfl

/-- Each item with what is written for it. -/
theorem forall₂_map_self {α β : Type} {R : α → β → Prop} {f : α → β} {xs : List α}
    (h : ∀ x ∈ xs, R x (f x)) : xs.Forall₂ R (xs.map f) := by
  rw [List.forall₂_map_right_iff, List.forall₂_same]
  exact h

/-- The literal of a flag that leaves nothing out. -/
def Flag.literal (f : Flag Value) : Value :=
  .dict (Fields.entries (f.literalFields (.list (f.args.map Argument.literal))))

theorem Flag.literal_literal (f : Flag Value) : f.Literal f.literal :=
  .dict (.list (forall₂_map_self fun a _ => a.literal_literal)) (.all _ _)

namespace Schema

mutual

/-- The literal of a schema that leaves nothing out. -/
def literal : Schema Value → Value
  | ⟨name, dest, aliases, help, args, flags, subs⟩ =>
    .dict (Fields.entries (literalFields ⟨name, dest, aliases, help, args, flags, subs⟩
      (.list (aliases.map .str)) (.list (args.map Argument.literal))
      (.list (flags.map Flag.literal)) (.list (literals subs))))

/-- The literals of several schemas. -/
def literals : List (Schema Value) → List Value
  | [] => []
  | n :: rest => literal n :: literals rest

end

theorem literals_eq (subs : List (Schema Value)) : literals subs = subs.map literal := by
  induction subs with
  | nil => rfl
  | cons n rest ih => rw [literals, List.map_cons, ih]

theorem literal_literal (n : Schema Value) : n.Literal n.literal := by
  induction n using Schema.induction with
  | step n ih =>
    have words : List.Forall₂ (fun word v => Value.str word = v) n.aliases
        (n.aliases.map .str) := forall₂_map_self fun _ _ => rfl
    have args := forall₂_map_self fun a (_ : a ∈ n.args) => a.literal_literal
    have flags := forall₂_map_self fun f (_ : f ∈ n.flags) => f.literal_literal
    have subs := forall₂_map_self ih
    rw [← literals_eq] at subs
    have all := Literal.dict (.list words) (.list args) (.list flags) (.list subs) (.all _ _)
    cases n
    rw [literal]
    exact all

end Schema

/-! ## What equals itself -/

theorem Value.argumentsEqv_self {args : List (Argument Value)}
    (self : ∀ a ∈ args, Value.argumentEqv true a a = true) : Value.argumentsEqv args args = true :=
  Value.argumentsEqv_iff.2 (List.forall₂_same.2 self)

/-- A flag whose arguments equal themselves inside a container equals itself. -/
theorem Flag.eqv_self (f : Flag Value) (self : ∀ a ∈ f.args, Value.argumentEqv true a a = true) :
    Value.flagEqv f f = true :=
  Value.flagEqv_iff.2 ⟨rfl, rfl, rfl, rfl, Value.argumentsEqv_self self⟩

/-! ## Steps to everything -/

/-- The steps of a flag's draft that give it the arguments. -/
def Flag.steps (f : Flag Value) : List FlagStep := f.args.map fun a => .addArgument a.fields

theorem Flag.builds_steps (f : Flag Value) : Builds { f with args := [] } f.steps f := by
  have more : ∀ (args others : List (Argument Value)),
      Builds { f with args := others } (args.map fun a => .addArgument a.fields)
        { f with args := others ++ args } := by
    intro args
    induction args with
    | nil =>
      intro others
      rw [List.append_nil]
      exact .done _
    | cons a rest ih =>
      intro others
      have next := ih (others ++ [a])
      rw [List.append_assoc] at next
      exact .addArgument (.all _ _) next
  exact more f.args []

namespace Schema

mutual

/-- The steps of a schema's draft that give it everything. -/
def steps : Schema Value → List CommandStep
  | ⟨_, _, aliases, help, args, flags, subs⟩ =>
    .addAlias (aliases.map .str) :: .setHelp (.ofText help) ::
      (args.map (fun a => .addArgument a.fields) ++ (flags.map (fun f =>
        .addFlag (.ofText f.long) (.ofText (f.short.map (·.toString))) (.str f.dest)
          (.ofText f.help) f.steps) ++ subSteps subs))

/-- The steps that add sub-commands. -/
def subSteps : List (Schema Value) → List CommandStep
  | [] => []
  | n :: rest => .addSubcommand (.ofText n.name) (.str n.dest) (steps n) :: subSteps rest

end

variable {n m : Schema Value} {rest : List CommandStep}

theorem Builds.addArguments {args : List (Argument Value)}
    (h : Builds { n with args := n.args ++ args } rest m) :
    Builds n (args.map (fun a => .addArgument a.fields) ++ rest) m := by
  induction args generalizing n with
  | nil =>
    rw [List.append_nil] at h
    cases n
    exact h
  | cons a others ih =>
    refine .addArgument (.all _ _) (ih ?_)
    rw [List.append_assoc]
    exact h

theorem Builds.addFlags {flags : List (Flag Value)}
    (h : Builds { n with flags := n.flags ++ flags } rest m) :
    Builds n (flags.map (fun f => .addFlag (.ofText f.long) (.ofText (f.short.map (·.toString)))
      (.str f.dest) (.ofText f.help) f.steps) ++ rest) m := by
  induction flags generalizing n with
  | nil =>
    rw [List.append_nil] at h
    cases n
    exact h
  | cons f others ih =>
    refine .addFlag .said .said f.builds_steps (ih ?_)
    rw [List.append_assoc]
    exact h

theorem Builds.addSubcommands {subs : List (Schema Value)}
    (each : ∀ sub ∈ subs, Builds sub.bare sub.steps sub) :
    Builds n (subSteps subs) { n with subcommands := n.subcommands ++ subs } := by
  induction subs generalizing n with
  | nil =>
    rw [List.append_nil]
    cases n
    exact .done _
  | cons sub others ih =>
    obtain ⟨here, later⟩ := List.forall_mem_cons.1 each
    have next := ih (n := { n with subcommands := n.subcommands ++ [sub] }) later
    rw [List.append_assoc] at next
    exact .addSubcommand .said here next

/-- A schema is put together by its steps. -/
theorem builds_steps (n : Schema Value) : n.bare.Builds n.steps n := by
  induction n using Schema.induction with
  | step n ih =>
    cases n
    rw [steps]
    exact .addAlias _ (.setHelp _ (.addArguments (.addFlags (.addSubcommands ih))))

/-! ## All styles agree -/

/-- The arguments of a schema that can be made can be made themselves. -/
theorem Made.argument {n : Schema Value} (made : n.Made) {a : Argument Value}
    (mem : Holder.argument a ∈ n.holders) : a.Made := by
  induction n using Schema.induction with
  | step n ih =>
    rcases argument_mem_holders.1 mem with own | ⟨f, hf, carried⟩ | ⟨sub, hsub, below⟩
    · exact made.args a own
    · exact (made.flags f hf).args a carried
    · exact ih sub hsub (made.sub sub hsub) below

/-- A schema whose arguments equal themselves inside a container equals itself. -/
theorem eqv_self {n : Schema Value}
    (self : ∀ a, Holder.argument a ∈ n.holders → Value.argumentEqv true a a = true) :
    Value.schemaEqv n n = true := by
  induction n using Schema.induction with
  | step n ih =>
    have own : Value.argumentsEqv n.args n.args = true :=
      Value.argumentsEqv_self fun a mem => self a (argument_mem_holders.2 (.inl mem))
    have flags : Value.flagsEqv n.flags n.flags = true := by
      refine Value.flagsEqv_iff.2 (List.forall₂_same.2 fun f mem => f.eqv_self fun a ha => ?_)
      exact self a (argument_mem_holders.2 (.inr (.inl ⟨f, mem, ha⟩)))
    have subs : Value.schemasEqv n.subcommands n.subcommands = true := by
      refine Value.schemasEqv_iff.2 (List.forall₂_same.2 fun sub mem => ih sub mem fun a ha => ?_)
      exact self a (argument_mem_holders.2 (.inr (.inr ⟨sub, mem, ha⟩)))
    exact Value.schemaEqv_iff.2 ⟨rfl, rfl, rfl, rfl, own, flags, subs⟩

/-- A schema whose arguments equal themselves equals itself. -/
theorem eq_self {n : Schema Value} (self : ∀ a, Holder.argument a ∈ n.holders → a.SelfEqual) :
    Value.schemaEqv n n = true :=
  eqv_self fun a mem => (self a mem).reordered (List.Perm.refl _)

/-- The styles of declaration agree. A schema that can be made directly, whose settings for
converters keep off the keys of a literal and whose fields equal themselves, is declared by each of
its literals and completed by each draft that takes its steps, up to equality. -/
theorem styles_agree {n : Schema Value} (made : n.Made)
    (plain : ∀ a, Holder.argument a ∈ n.holders → ∀ e ∈ a.extras, e.1 ∉ Argument.reservedKeys)
    (self : ∀ a, Holder.argument a ∈ n.holders → a.SelfEqual) :
    (n.Literal n.literal ∧ ∀ v, n.Literal v →
      ∃ m, declared v = .ok m ∧ Value.eq (.schema m) (.schema n) = true) ∧
    (n.bare.Builds n.steps n ∧ ∀ steps dest, n.bare.Builds steps n →
      (Value.str n.dest).Given (n.name = some n.dest) dest →
      ∃ d m, (CommandDraft.start (.ofText n.name) dest).applyAll steps = .ok d ∧
        d.complete = .ok m ∧ Value.eq (.schema m) (.schema n) = true) := by
  have writable : ∀ a, Holder.argument a ∈ n.holders → a.Writable := by
    intro a mem
    exact ⟨made.argument mem, plain a mem, self a mem⟩
  have equal : Value.eq (.schema n) (.schema n) = true := eq_self self
  refine ⟨⟨n.literal_literal, ?_⟩, ⟨n.builds_steps, ?_⟩⟩
  · intro v literal
    exact literal.declared made writable
  · intro steps dest builds hdest
    obtain ⟨d, applied, completed⟩ := builds.complete made hdest
    exact ⟨d, n, applied, completed, equal⟩

/-- The place of an entry: a number without sign, with a setting for a converter. -/
def place : Argument Value where
  dest := "place"
  type := .named "int"
  name := "POSITION"
  required := true
  default := .null
  help := none
  options := some (.signedness true)
  extras := [("precision", .int 2)]

/-- How urgent an entry has to be. -/
def urgency : Argument Value where
  dest := "urgency"
  type := .named "number"
  name := "urgency"
  required := false
  default := .int 1
  help := some "lowest urgency"
  options := some (.range (some (.int 0)) none)
  extras := []

/-- A list of things to do, with a sub-command. -/
def todo : Schema Value where
  name := some "todo"
  dest := "todo"
  aliases := []
  help := none
  args := []
  flags := [⟨"urgent", some "urgent", some 'u', none, [urgency]⟩]
  subcommands := [⟨some "remove", "removed", ["rm"], none, [place], [], []⟩]

theorem todo_made : todo.Made := by
  have placeMade : place.Made := by
    refine ⟨⟨place.fields, rfl⟩, ?_⟩
    rintro o ⟨⟩
    exact .signedness true
  have urgencyMade : urgency.Made := by
    refine ⟨⟨urgency.fields, rfl⟩, ?_⟩
    rintro o ⟨⟩
    have range : NumericOptions.ofRange (.list [.int 0, .null]) =
        .ok (.range (some (.int 0)) none) := rfl
    exact .range range
  have flag : Flag.make (.str "urgent") (.str "u") .unset .unset (.ok [urgency]) =
      .ok ⟨"urgent", some "urgent", some 'u', none, [urgency]⟩ := rfl
  have removal : make (.str "remove") (.str "removed") (.tuple [.str "rm"]) .unset
      (.ok ⟨[place], [], []⟩) = .ok ⟨some "remove", "removed", ["rm"], none, [place], [], []⟩ := rfl
  have whole : make (.str "todo") .unset (.tuple []) .unset
      (.ok ⟨[], todo.flags, todo.subcommands⟩) = .ok todo := rfl
  refine .make (List.forall_mem_nil _) ?_ ?_ whole
  · exact List.forall_mem_singleton.2 (.make (List.forall_mem_singleton.2 urgencyMade) flag)
  · exact List.forall_mem_singleton.2 (.make (List.forall_mem_singleton.2 placeMade)
      (List.forall_mem_nil _) (List.forall_mem_nil _) removal)

theorem styles_agree_todo :
    (∃ m, declared todo.literal = .ok m ∧ Value.eq (.schema m) (.schema todo) = true) ∧
      ∃ d m, (CommandDraft.start (.str "todo") .unset).applyAll todo.steps = .ok d ∧
        d.complete = .ok m ∧ Value.eq (.schema m) (.schema todo) = true := by
  have arguments : ∀ a, Holder.argument a ∈ todo.holders → a = urgency ∨ a = place := by
    intro a mem
    simpa [todo, holders, holdersAll, Flag.holders] using mem
  have plain : ∀ a, Holder.argument a ∈ todo.holders →
      ∀ e ∈ a.extras, e.1 ∉ Argument.reservedKeys := by
    intro a mem
    rcases arguments a mem with rfl | rfl
    · exact List.forall_mem_nil _
    · exact List.forall_mem_singleton.2 (by decide)
  have self : ∀ a, Holder.argument a ∈ todo.holders → a.SelfEqual := by
    intro a mem
    rcases arguments a mem with rfl | rfl
    · unfold Argument.SelfEqual
      decide +kernel
    · unfold Argument.SelfEqual
      decide +kernel
  obtain ⟨⟨literal, literals⟩, builds, drafts⟩ := styles_agree todo_made plain self
  exact ⟨literals todo.literal literal, drafts todo.steps .unset builds (.unsaid rfl)⟩

end Schema

end CommandGrammar
