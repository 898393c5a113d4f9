import CommandGrammar.Proofs.Schema.Literal

/-!
# What literals declare

A literal of a schema that can be made declares a schema that is equal to it
(`Schema.Literal.declared`), provided that the values in its arguments equal themselves. Literals
of arguments are declared one by one, then flags and sub-commands of what they hold.
-/

namespace CommandGrammar

/-- Items are read one after the other, if what is written for something is read as something that
is related to it. -/
theorem mapM_of_forall₂ {α β : Type} {L : α → Value → Prop} {R : β → α → Prop}
    {f : Value → Except Refusal β} {xs : List α} {items : List Value} (h : xs.Forall₂ L items)
    (each : ∀ x ∈ xs, ∀ v, L x v → ∃ y, f v = .ok y ∧ R y x) :
    ∃ ys, items.mapM f = .ok ys ∧ ys.Forall₂ R xs := by
  induction h with
  | nil => exact ⟨[], rfl, .nil⟩
  | @cons x v xs items head _ ih =>
    obtain ⟨here, later⟩ := List.forall_mem_cons.1 each
    obtain ⟨y, hy, related⟩ := here v head
    obtain ⟨ys, hys, others⟩ := ih later
    refine ⟨y :: ys, ?_, .cons related others⟩
    rw [List.mapM_cons, hy]
    show (items.mapM f >>= fun ys => _) = _
    rw [hys]
    rfl

theorem flatMap_of_forall₂ {α β γ : Type} {R : α → β → Prop} {f : α → List γ} {g : β → List γ}
    {xs : List α} {ys : List β} (h : xs.Forall₂ R ys) (same : ∀ x y, R x y → f x = g y) :
    xs.flatMap f = ys.flatMap g := by
  induction h with
  | nil => rfl
  | cons head _ ih => rw [List.flatMap_cons, List.flatMap_cons, same _ _ head, ih]

/-- Items in a row that is told, or that is empty because it is left out. -/
theorem Fields.Tells.row {α : Type} {R : α → Value → Prop} {xs : List α} {fields defaults : Fields}
    {name : String} {v : Value} (tells : fields.Tells defaults name v) (row : v.Row R xs)
    (empty : (name, v) ∈ defaults → v = .list [] ∨ v = .tuple []) :
    (fields.getD name (.tuple [])).Row R xs := by
  rcases tells with found | ⟨missing, mem⟩
  · rw [Fields.getD, found]
    exact row
  · rw [Fields.getD, missing]
    rcases empty mem with rfl | rfl
    · cases row with
      | list h => exact .tuple h
    · exact row

theorem Value.Row.iterated {α : Type} {R : α → Value → Prop} {xs : List α} {v : Value}
    (row : v.Row R xs) : ∃ items, v.iterated = .ok items ∧ xs.Forall₂ R items := by
  cases row with
  | list h => exact ⟨_, rfl, h⟩
  | tuple h => exact ⟨_, rfl, h⟩

theorem checkKeys_entries {what : String} {names : List String} {fields : Fields}
    (known : ∀ field ∈ fields, field.1 ∈ names) : checkKeys what names fields.entries = .ok () := by
  rw [checkKeys, Fields.otherEntries_entries, Fields.beside_eq_nil known]
  rfl

/-! ## Arguments -/

namespace Argument

variable {a : Argument Value}

/-- The value of each field equals itself. -/
def SelfEqual (a : Argument Value) : Prop := ∀ field ∈ a.fields, Value.eq field.2 field.2 = true

/-- An argument whose fields equal themselves equals itself, in whatever order its settings for
converters are. -/
theorem SelfEqual.reordered (self : a.SelfEqual) {extras : List (String × Value)}
    (perm : extras.Perm a.extras) : Value.argumentEqv true { a with extras } a = true := by
  have hdefault : Value.eqv true a.default a.default = true :=
    Value.eqv_inside (self ("default", a.default) (by simp [fields_eq]))
  have hoptions : Value.OptionsEqual a.options a.options := by
    cases a.options with
    | none => exact .none
    | some o => exact .some (Value.optionsEq_self o)
  have hdict := self ("extras", .dict (Fields.entries a.extras))
    (by simp [fields_eq, Fields.entries])
  rw [Value.eq, Value.eqv, Bool.and_eq_true, Value.entriesEqv_iff] at hdict
  refine Value.argumentEqv_iff.2 ⟨rfl, rfl, rfl, rfl, hdefault, rfl, hoptions, perm.length_eq, ?_⟩
  refine Value.extrasEqv_iff.2 ?_
  intro e mem
  have here : (Value.str e.1, e.2) ∈ Fields.entries a.extras :=
    List.mem_map_of_mem (perm.subset mem)
  obtain ⟨_, mem', hkey, hvalue⟩ := hdict.2 _ here
  obtain ⟨e', he', rfl⟩ := List.mem_map.1 mem'
  exact ⟨e', he', beq_iff_eq.1 hkey, hvalue⟩

/-- An argument that can be made, and whose literals declare arguments that are equal to it. -/
structure Writable (a : Argument Value) : Prop where
  made : a.Made
  plain : ∀ e ∈ a.extras, e.1 ∉ reservedKeys
  self : a.SelfEqual

theorem Literal.declared_equal {v : Value} (literal : a.Literal v) (writable : a.Writable) :
    ∃ b, Argument.declared v = .ok b ∧ Value.argumentEqv true b a = true := by
  obtain ⟨extras, perm, ok⟩ := literal.declared writable.made writable.plain
  exact ⟨_, ok, writable.self.reordered perm⟩

end Argument

theorem declaredArguments_of_row {fields : Fields} {args : List (Argument Value)}
    (row : (fields.getD "args" (.tuple [])).Row Argument.Literal args)
    (writable : ∀ a ∈ args, a.Writable) :
    ∃ args', declaredArguments fields.entries = .ok args' ∧
      Value.argumentsEqv args' args = true := by
  obtain ⟨items, hitems, literals⟩ := row.iterated
  obtain ⟨args', hargs, equal⟩ := mapM_of_forall₂ literals
    fun a mem v literal => literal.declared_equal (writable a mem)
  refine ⟨args', ?_, Value.argumentsEqv_iff.2 equal⟩
  rw [declaredArguments, Fields.valueUnder?_entries]
  show ((fields.getD "args" (.tuple [])).iterated >>= fun items => _) = _
  rw [hitems]
  exact hargs

/-! ## Flags -/

namespace Flag

variable {f : Flag Value} {v : Value}

theorem literalFields_nodup (f : Flag Value) (args : Value) :
    ((f.literalFields args).map (·.1)).Nodup := by
  show ["dest", "long", "short", "help", "args"].Nodup
  decide

/-- What is left out of a literal of a flag is its default. -/
theorem mem_defaults {name : String} : (name, v) ∈ f.defaults ↔
    name = "dest" ∧ v = .str f.code ∨ name = "long" ∧ v = .null ∨ name = "short" ∧ v = .null ∨
      name = "help" ∧ v = .null ∨ name = "args" ∧ (v = .list [] ∨ v = .tuple []) := by
  simp only [defaults, List.mem_append, Fields.mem_emptyRows, List.mem_cons, Prod.mk.injEq,
    List.not_mem_nil, or_false, or_assoc]

section Told

variable {fields : Fields} {args : Value} (shows : fields.Shows (f.literalFields args) f.defaults)

include shows

theorem literal_known :
    checkKeys "flag" ["long", "short", "dest", "help", "args"] fields.entries = .ok () := by
  refine checkKeys_entries fun field mem => ?_
  have known : ∀ name ∈ ["dest", "long", "short", "help", "args"],
      name ∈ ["long", "short", "dest", "help", "args"] := by decide
  exact known _ (List.mem_map_of_mem (f := Prod.fst) (shows.subset mem))

theorem literal_told : ∀ field ∈ f.literalFields args, fields.Tells f.defaults field.1 field.2 :=
  fun _ mem => shows.tells_of_nodup (f.literalFields_nodup args) mem

theorem literal_row (parts : args.Row Argument.Literal f.args) :
    (fields.getD "args" (.tuple [])).Row Argument.Literal f.args := by
  have told : fields.Tells f.defaults "args" args :=
    literal_told shows ("args", args) (by simp [literalFields])
  exact told.row parts (by simp [mem_defaults])

/-- The fields of a literal make the flag again, with the arguments that they declare. -/
theorem declared_of_shows (settled : f.Settled) {args' : List (Argument Value)}
    (hargs : declaredArguments fields.entries = .ok args') :
    declared (.dict fields.entries) = .ok { f with args := args' } := by
  have told := literal_told shows
  simp only [literalFields, List.forall_mem_cons] at told
  obtain ⟨dest, long, short, help, -⟩ := told
  have hlong : fields.getD "long" .null = .ofText f.long :=
    long.getD (by simp +contextual [mem_defaults])
  have hshort : fields.getD "short" .null = .ofText (f.short.map (·.toString)) :=
    short.getD (by simp +contextual [mem_defaults])
  have hdest : (Value.str f.dest).Given (f.dest = f.code) (fields.getD "dest" .unset) :=
    dest.given (by simp [mem_defaults])
  have hhelp : (Value.ofText f.help).Given (f.help = none) (fields.getD "help" .unset) :=
    help.given fun mem => Value.ofText_eq_null (by simpa [mem_defaults] using mem)
  unfold Flag.declared
  dsimp only
  simp only [bind_eq_ok]
  refine ⟨(), literal_known shows, args', hargs, ?_⟩
  rw [Fields.valueUnder?_entries, Fields.valueUnder?_entries, Fields.valueUnder?_entries,
    Fields.valueUnder?_entries]
  show make (fields.getD "long" .null) (fields.getD "short" .null) (fields.getD "dest" .unset)
    (fields.getD "help" .unset) (.ok args') = _
  rw [hlong, hshort]
  exact settled.make args' hdest hhelp

end Told

/-- A flag that can be made is declared by its literals, up to equality. -/
theorem Literal.declared (literal : f.Literal v) (made : f.Made)
    (writable : ∀ a ∈ f.args, a.Writable) :
    ∃ g, Flag.declared v = .ok g ∧ Value.flagEqv g f = true := by
  cases literal with
  | dict parts shows =>
    obtain ⟨args', hargs, equal⟩ := declaredArguments_of_row (literal_row shows parts) writable
    have ok := declared_of_shows shows made.settled hargs
    exact ⟨_, ok, Value.flagEqv_iff.2 ⟨rfl, rfl, rfl, rfl, equal⟩⟩

end Flag

theorem declaredFlags_of_row {fields : Fields} {flags : List (Flag Value)}
    (row : (fields.getD "flags" (.tuple [])).Row Flag.Literal flags)
    (made : ∀ f ∈ flags, f.Made) (writable : ∀ f ∈ flags, ∀ a ∈ f.args, a.Writable) :
    ∃ flags', declaredFlags fields.entries = .ok flags' ∧ Value.flagsEqv flags' flags = true := by
  obtain ⟨items, hitems, literals⟩ := row.iterated
  obtain ⟨flags', hflags, equal⟩ := mapM_of_forall₂ literals
    fun f mem v literal => literal.declared (made f mem) (writable f mem)
  refine ⟨flags', ?_, Value.flagsEqv_iff.2 equal⟩
  rw [declaredFlags, Fields.valueUnder?_entries]
  show ((fields.getD "flags" (.tuple [])).iterated >>= fun items => _) = _
  rw [hitems]
  exact hflags

/-! ## Schemas -/

namespace Schema

variable {n : Schema Value} {v : Value}

theorem declaredAll_eq (items : List Value) : declaredAll items = items.mapM declared := by
  induction items with
  | nil => rfl
  | cons v rest ih => rw [declaredAll, List.mapM_cons, ih]

theorem declaredUnder_entries (fields : Fields) :
    declaredUnder fields.entries = declaredIn (fields.getD "subcommands" (.tuple [])) := by
  induction fields with
  | nil => rfl
  | cons field rest ih =>
    obtain ⟨name, v⟩ := field
    show declaredUnder ((Value.str name, v) :: Fields.entries rest) = _
    rw [declaredUnder, Fields.getD, List.lookup_cons]
    by_cases same : name = "subcommands"
    · rw [same]
      rfl
    · have other : (Value.str name).text? ≠ some "subcommands" := fun h => same (Option.some.inj h)
      rw [if_neg other, beq_false_of_ne (Ne.symm same)]
      exact ih

theorem declaredUnder_of_row {fields : Fields} {subs : List (Schema Value)}
    (row : (fields.getD "subcommands" (.tuple [])).Row Literal subs)
    (each : ∀ sub ∈ subs, ∀ v, sub.Literal v →
      ∃ m, declared v = .ok m ∧ Value.schemaEqv m sub = true) :
    ∃ subs', declaredUnder fields.entries = .ok subs' ∧ Value.schemasEqv subs' subs = true := by
  rw [declaredUnder_entries]
  generalize fields.getD "subcommands" (.tuple []) = v at row
  obtain ⟨items, hitems, literals⟩ : ∃ items, declaredIn v = items.mapM declared ∧
      subs.Forall₂ Literal items := by
    cases row with
    | @list _ items h => exact ⟨items, by rw [declaredIn, declaredAll_eq], h⟩
    | @tuple _ items h => exact ⟨items, by rw [declaredIn, declaredAll_eq], h⟩
  obtain ⟨subs', hsubs, equal⟩ := mapM_of_forall₂ literals each
  exact ⟨subs', hitems.trans hsubs, Value.schemasEqv_iff.2 equal⟩

theorem literalFields_nodup (n : Schema Value) (aliases args flags subs : Value) :
    ((n.literalFields aliases args flags subs).map (·.1)).Nodup := by
  show fieldNames.Nodup
  decide

/-- What is left out of a literal of a schema is its default. -/
theorem mem_defaults {name : String} : (name, v) ∈ n.defaults ↔
    name = "name" ∧ v = .null ∨ name = "dest" ∧ v = .ofText n.name ∨ name = "help" ∧ v = .null ∨
      name ∈ ["aliases", "args", "flags", "subcommands"] ∧ (v = .list [] ∨ v = .tuple []) := by
  simp only [defaults, List.mem_append, Fields.mem_emptyRows, List.mem_cons, Prod.mk.injEq,
    List.not_mem_nil, or_false, or_assoc]

/-- Flags that are equal have the same codes, and sub-commands that are equal the same words. -/
theorem check_congr {args args' : List (Argument Value)} {flags flags' : List (Flag Value)}
    {subs subs' : List (Schema Value)} (hflags : Value.flagsEqv flags flags' = true)
    (hsubs : Value.schemasEqv subs subs' = true) :
    Children.check ⟨args, flags, subs⟩ = Children.check ⟨args', flags', subs'⟩ := by
  have codes : flags.flatMap Flag.codes = flags'.flatMap Flag.codes := by
    refine flatMap_of_forall₂ (Value.flagsEqv_iff.1 hflags) ?_
    intro f g equal
    obtain ⟨-, long, short, -⟩ := Value.flagEqv_iff.1 equal
    rw [Flag.codes, Flag.codes, long, short]
  have words : subs.flatMap words = subs'.flatMap words := by
    refine flatMap_of_forall₂ (Value.schemasEqv_iff.1 hsubs) ?_
    intro n m equal
    obtain ⟨name, -, aliases, -⟩ := Value.schemaEqv_iff.1 equal
    rw [Schema.words, Schema.words, name, aliases]
  unfold Children.check Children.codes Children.words
  dsimp only
  rw [codes, words]

section Told

variable {fields : Fields} {aliases args flags subs : Value}
  (shows : fields.Shows (n.literalFields aliases args flags subs) n.defaults)

include shows

theorem literal_told : ∀ field ∈ n.literalFields aliases args flags subs,
    fields.Tells n.defaults field.1 field.2 :=
  fun _ mem => shows.tells_of_nodup (n.literalFields_nodup aliases args flags subs) mem

/-- A row of the literal is found as it is, or it is empty. -/
theorem literal_row {α : Type} {R : α → Value → Prop} {xs : List α} (name : String)
    (mem : (name, v) ∈ n.literalFields aliases args flags subs)
    (known : name ∈ ["aliases", "args", "flags", "subcommands"]) (row : v.Row R xs) :
    (fields.getD name (.tuple [])).Row R xs := by
  refine (literal_told shows (name, v) mem).row row ?_
  intro omitted
  have others : ∀ name ∈ ["aliases", "args", "flags", "subcommands"],
      name ≠ "name" ∧ name ≠ "dest" ∧ name ≠ "help" := by decide
  obtain ⟨noName, noDest, noHelp⟩ := others name known
  rcases mem_defaults.1 omitted with ⟨h, -⟩ | ⟨h, -⟩ | ⟨h, -⟩ | ⟨-, empty⟩
  · exact absurd h noName
  · exact absurd h noDest
  · exact absurd h noHelp
  · exact empty

/-- The fields of a literal make the schema again, with the children that they declare. -/
theorem declared_of_shows (settled : n.Settled) {c : Children}
    (words : aliases.Row (fun word v => Value.str word = v) n.aliases)
    (hargs : declaredArguments fields.entries = .ok c.args)
    (hflags : declaredFlags fields.entries = .ok c.flags)
    (hsubs : declaredUnder fields.entries = .ok c.subcommands) (check : c.check = .ok ()) :
    declared (.dict fields.entries) =
      .ok { n with args := c.args, flags := c.flags, subcommands := c.subcommands } := by
  have told := literal_told shows
  simp only [literalFields, List.forall_mem_cons] at told
  obtain ⟨name, dest, -, help, -⟩ := told
  have hname : fields.getD "name" .null = .ofText n.name :=
    name.getD (by simp +contextual [mem_defaults])
  have hdest : (Value.str n.dest).Given (n.name = some n.dest) (fields.getD "dest" .unset) :=
    dest.given fun mem => Value.ofText_eq_str (Eq.symm (by simpa [mem_defaults] using mem))
  have hhelp : (Value.ofText n.help).Given (n.help = none) (fields.getD "help" .unset) :=
    help.given fun mem => Value.ofText_eq_null (by simpa [mem_defaults] using mem)
  have haliases : (fields.getD "aliases" (.tuple [])).items? = some (n.aliases.map .str) := by
    have row := literal_row shows "aliases" (by simp [literalFields]) (by simp) words
    obtain ⟨items, hitems, same⟩ := row.items
    have whole : List.Forall₂ Eq (n.aliases.map .str) items := List.forall₂_map_left_iff.2 same
    rw [List.forall₂_eq_eq_eq] at whole
    rw [hitems, whole]
  have hkeys : checkKeys "command" fieldNames fields.entries = .ok () := by
    refine checkKeys_entries fun field mem => ?_
    exact List.mem_map_of_mem (f := Prod.fst) (shows.subset mem)
  rw [declared]
  simp only [bind_eq_ok]
  refine ⟨(), hkeys, c.args, hargs, c.flags, hflags, c.subcommands, hsubs, ?_⟩
  rw [Fields.valueUnder?_entries, Fields.valueUnder?_entries, Fields.valueUnder?_entries,
    Fields.valueUnder?_entries]
  show make (fields.getD "name" .null) (fields.getD "dest" .unset)
    (fields.getD "aliases" (.tuple [])) (fields.getD "help" .unset) _ = _
  rw [hname]
  exact settled.make hdest haliases hhelp check

end Told

/-- A schema that can be made is declared by its literals, up to equality. -/
theorem Literal.declared (literal : n.Literal v) (made : n.Made)
    (writable : ∀ a, Holder.argument a ∈ n.holders → a.Writable) :
    ∃ m, Schema.declared v = .ok m ∧ Value.schemaEqv m n = true := by
  induction n using Schema.induction generalizing v with
  | step n ih =>
    cases literal with
    | dict words hargs hflags hsubs shows =>
      have own : ∀ a ∈ n.args, a.Writable :=
        fun a mem => writable a (argument_mem_holders.2 (.inl mem))
      have carried : ∀ f ∈ n.flags, ∀ a ∈ f.args, a.Writable :=
        fun f mem a ha => writable a (argument_mem_holders.2 (.inr (.inl ⟨f, mem, ha⟩)))
      have below : ∀ sub ∈ n.subcommands, ∀ a, Holder.argument a ∈ sub.holders → a.Writable :=
        fun sub mem a ha => writable a (argument_mem_holders.2 (.inr (.inr ⟨sub, mem, ha⟩)))
      have rowArgs := literal_row shows "args" (by simp [literalFields]) (by simp) hargs
      have rowFlags := literal_row shows "flags" (by simp [literalFields]) (by simp) hflags
      have rowSubs := literal_row shows "subcommands" (by simp [literalFields]) (by simp) hsubs
      obtain ⟨args, argsOk, equalArgs⟩ := declaredArguments_of_row rowArgs own
      obtain ⟨flags, flagsOk, equalFlags⟩ := declaredFlags_of_row rowFlags made.flags carried
      obtain ⟨subs, subsOk, equalSubs⟩ := declaredUnder_of_row rowSubs
        fun sub mem v literal => ih sub mem literal (made.sub sub mem) (below sub mem)
      have check : Children.check ⟨args, flags, subs⟩ = .ok () := by
        rw [← made.settled.check]
        exact check_congr equalFlags equalSubs
      have ok := declared_of_shows shows made.settled words argsOk flagsOk subsOk check
      exact ⟨_, ok,
        Value.schemaEqv_iff.2 ⟨rfl, rfl, rfl, rfl, equalArgs, equalFlags, equalSubs⟩⟩

end Schema

end CommandGrammar
