import CommandGrammar.Proofs.Schema.Made

/-!
# Fields that are given

Fields may be given in any order, and a field that has its default may be left out
(`Fields.Shows`). A look-up then tells the value of a field, or nothing where the default is the
value (`Fields.Shows.tells`), and an argument, a flag or a schema that is settled is made again
of what it is told (`Argument.Settled.ofFields`, `Flag.Settled.make`, `Schema.Settled.make`).
-/

namespace CommandGrammar

namespace Fields

variable {fields full defaults : Fields} {name : String} {v : Value}

/-- The fields of `full` in any order; those that are among the defaults may be left out. -/
def Shows (fields full defaults : Fields) : Prop :=
  ∃ left, (fields ++ left).Perm full ∧ left ⊆ defaults

/-- A field is found with its value, or it is not found and has its default. -/
def Tells (fields defaults : Fields) (name : String) (v : Value) : Prop :=
  fields.lookup name = some v ∨ fields.lookup name = none ∧ (name, v) ∈ defaults

theorem mem_of_lookup (h : fields.lookup name = some v) : (name, v) ∈ fields := by
  obtain ⟨before, after, rfl, -⟩ := List.lookup_eq_some_iff.1 h
  exact List.mem_append_right _ List.mem_cons_self

theorem not_mem_of_lookup (h : fields.lookup name = none) (v : Value) : (name, v) ∉ fields := by
  intro mem
  exact absurd (List.lookup_eq_none_iff.1 h (name, v) mem) (by simp)

theorem Shows.subset (shows : fields.Shows full defaults) : fields ⊆ full := by
  obtain ⟨left, perm, -⟩ := shows
  exact fun field mem => perm.subset (List.mem_append_left _ mem)

/-- Where a name has but one value, a look-up tells it. -/
theorem Shows.tells (shows : fields.Shows full defaults) (mem : (name, v) ∈ full)
    (only : ∀ w, (name, w) ∈ full → w = v) : fields.Tells defaults name v := by
  cases hlookup : fields.lookup name with
  | some w =>
    rw [only w (shows.subset (mem_of_lookup hlookup))] at hlookup
    exact .inl hlookup
  | none =>
    obtain ⟨left, perm, among⟩ := shows
    refine .inr ⟨hlookup, ?_⟩
    rcases List.mem_append.1 (perm.symm.subset mem) with given | omitted
    · exact absurd given (not_mem_of_lookup hlookup v)
    · exact among omitted

/-- Among fields with distinct names a look-up tells the value of each. -/
theorem Shows.tells_of_nodup (shows : fields.Shows full defaults)
    (distinct : (full.map (·.1)).Nodup) (mem : (name, v) ∈ full) :
    fields.Tells defaults name v := by
  refine shows.tells mem ?_
  intro w hw
  exact congrArg Prod.snd (List.inj_on_of_nodup_map distinct hw mem rfl)

theorem Shows.lookup_eq_none (shows : fields.Shows full defaults)
    (absent : ∀ v, (name, v) ∉ full) : fields.lookup name = none := by
  cases hlookup : fields.lookup name with
  | none => rfl
  | some v => exact absurd (shows.subset (mem_of_lookup hlookup)) (absent v)

theorem Tells.getD (tells : fields.Tells defaults name v) {default : Value}
    (same : (name, v) ∈ defaults → default = v) : fields.getD name default = v := by
  rcases tells with found | ⟨missing, mem⟩
  · rw [Fields.getD, found]
    rfl
  · rw [Fields.getD, missing]
    exact same mem

end Fields

/-- A value that is said, or that is left unsaid because it is implied. -/
inductive Value.Given (w : Value) (implied : Prop) : Value → Prop
  | said : Given w implied w
  | unsaid (h : implied) : Given w implied .unset

theorem Fields.Tells.given {fields defaults : Fields} {name : String} {v : Value} {implied : Prop}
    (tells : fields.Tells defaults name v) (h : (name, v) ∈ defaults → implied) :
    v.Given implied (fields.getD name .unset) := by
  rcases tells with found | ⟨missing, mem⟩
  · rw [Fields.getD, found]
    exact .said
  · rw [Fields.getD, missing]
    exact .unsaid (h mem)

theorem Value.ofText_eq_null {s : Option String} (h : Value.ofText s = .null) : s = none := by
  cases s with
  | none => rfl
  | some s => cases h

theorem Value.ofText_eq_str {s : Option String} {t : String} (h : Value.ofText s = .str t) :
    s = some t := by
  cases s with
  | none => cases h
  | some s =>
    cases h
    rfl

theorem Value.Given.asHelp {spec : SpecKind} {help : Option String} {v : Value}
    (given : (Value.ofText help).Given (help = none) v)
    (again : (Value.ofText help).asHelp spec = .ok help) : v.asHelp spec = .ok help := by
  cases given with
  | said => exact again
  | unsaid h =>
    rw [h]
    rfl

/-! ## Arguments -/

namespace Argument

variable {a : Argument Value} {fields : Fields}

/-- What the fields of an argument are when they are not given, apart from its settings. -/
def defaults (a : Argument Value) : Fields :=
  [("name", .str a.dest), ("type", .str "string"), ("required", .bool true), ("default", .null),
   ("help", .null)]

/-- What the fields of an argument are when a step does not give them. -/
def stepDefaults (a : Argument Value) : Fields :=
  a.defaults ++ [("options", .null), ("extras", .dict [])]

theorem fields_eq (a : Argument Value) :
    a.fields = [("dest", .str a.dest), ("type", a.type.asValue), ("name", .str a.name),
      ("required", .bool a.required), ("default", a.default), ("help", .ofText a.help),
      ("options", .ofOption (a.options.map .options)),
      ("extras", .dict (a.extras.map fun (key, v) => (.str key, v)))] := rfl

theorem fields_names (a : Argument Value) : a.fields.map (·.1) =
    ["dest", "type", "name", "required", "default", "help", "options", "extras"] := rfl

theorem fields_nodup (a : Argument Value) : (a.fields.map (·.1)).Nodup := by
  rw [fields_names]
  decide

/-- What is told where the name has a default is that default, or it is given. -/
theorem mem_stepDefaults {name : String} {v : Value} : (name, v) ∈ a.stepDefaults ↔
    name = "name" ∧ v = .str a.dest ∨ name = "type" ∧ v = .str "string" ∨
      name = "required" ∧ v = .bool true ∨ name = "default" ∧ v = .null ∨
      name = "help" ∧ v = .null ∨ name = "options" ∧ v = .null ∨
      name = "extras" ∧ v = .dict [] := by
  simp [stepDefaults, defaults]

/-- An argument that is settled is made again of fields that tell its own. -/
theorem Settled.ofFields (settled : a.Settled) (within : fields.within fieldNames = true)
    (tells : ∀ field ∈ a.fields, fields.Tells a.stepDefaults field.1 field.2) :
    ofFields fields = .ok a := by
  simp only [fields_eq, List.forall_mem_cons] at tells
  obtain ⟨dest, type, name, required, default, help, options, extras, -⟩ := tells
  have hdest : fields.lookup "dest" = some (.str a.dest) := by
    rcases dest with found | ⟨-, mem⟩
    · exact found
    · simp [mem_stepDefaults] at mem
  have hname : ((fields.getD "name" .unset).orElse (.str a.dest)).asField .argument "name" =
      .ok a.name := by
    have given : (Value.str a.name).Given (a.name = a.dest) (fields.getD "name" .unset) :=
      name.given (by simp [mem_stepDefaults])
    generalize fields.getD "name" .unset = v at given
    cases given with
    | said => exact settled.name
    | unsaid same =>
      rw [← same]
      exact settled.name
  have htype : fields.getD "type" (.str "string") = a.type.asValue :=
    type.getD (by simp +contextual [mem_stepDefaults])
  have hoptions : fields.getD "options" .null = .ofOption (a.options.map .options) :=
    options.getD (by simp +contextual [mem_stepDefaults])
  have hextras : fields.getD "extras" (.dict []) =
      .dict (a.extras.map fun (key, v) => (.str key, v)) :=
    extras.getD (by simp +contextual [mem_stepDefaults])
  have hhelp : (fields.getD "help" .unset).asHelp .argument = .ok a.help := by
    have given : (Value.ofText a.help).Given (a.help = none) (fields.getD "help" .unset) :=
      help.given fun mem => Value.ofText_eq_null (by simpa [mem_stepDefaults] using mem)
    exact given.asHelp settled.help
  have hrequired : fields.getD "required" (.bool true) = .bool a.required :=
    required.getD (by simp +contextual [mem_stepDefaults])
  have hdefault : fields.getD "default" .null = a.default :=
    default.getD (by simp +contextual [mem_stepDefaults])
  unfold Argument.ofFields
  rw [within, hdest]
  dsimp only
  rw [Option.isSome_some, Bool.and_self, if_pos rfl, htype, hoptions, hextras, hrequired, hdefault]
  simp only [bind_eq_ok]
  refine ⟨a.dest, ?_, a.name, hname, a.type, settled.type, a.options, Value.asOptions_of _,
    a.extras, Value.asExtras_of _, a.help, hhelp, rfl⟩
  rw [Fields.getD, hdest]
  exact settled.dest

/-- An argument that is settled is made again of its fields in any order, though some of them are
left out. -/
theorem Settled.ofFields_of_shows (settled : a.Settled)
    (shows : fields.Shows a.fields a.stepDefaults) : Argument.ofFields fields = .ok a := by
  have within : fields.within fieldNames = true := by
    apply List.all_eq_true.2
    intro field mem
    have named : field.1 ∈ a.fields.map (·.1) := List.mem_map_of_mem (shows.subset mem)
    have known : ∀ name ∈ a.fields.map (·.1), fieldNames.contains name = true := by
      rw [fields_names]
      decide
    exact known field.1 named
  exact settled.ofFields within fun field mem => shows.tells_of_nodup a.fields_nodup mem

end Argument

/-! ## Flags and schemas -/

/-- A flag that is settled is made again with the same codes. -/
theorem Flag.Settled.make {f : Flag Value} (settled : f.Settled) {dest help : Value}
    (args : List (Argument Value)) (hdest : (Value.str f.dest).Given (f.dest = f.code) dest)
    (hhelp : (Value.ofText f.help).Given (f.help = none) help) :
    Flag.make (.ofText f.long) (.ofText (f.short.map (·.toString))) dest help (.ok args) =
      .ok { f with args } := by
  have dest : (dest.orElse (.str f.code)).asField .flag "dest" = .ok f.dest := by
    cases hdest with
    | said => exact settled.dest
    | unsaid same =>
      rw [same]
      exact settled.code
  have help := hhelp.asHelp settled.help
  unfold Flag.make
  split
  · rename_i long short
    exact absurd (Value.ofText_eq_null long) (settled.coded.resolve_right fun h =>
      h (Option.map_eq_none_iff.1 (Value.ofText_eq_null short)))
  · simp only [bind_eq_ok]
    exact ⟨f.long, settled.long, f.short, settled.short, f.dest, dest, args, rfl, f.help, help, rfl⟩

/-- A schema that is settled is made again with children that go together. -/
theorem Schema.Settled.make {n : Schema Value} (settled : n.Settled) {dest aliases help : Value}
    {c : Children} (hdest : (Value.str n.dest).Given (n.name = some n.dest) dest)
    (haliases : aliases.items? = some (n.aliases.map .str))
    (hhelp : (Value.ofText n.help).Given (n.help = none) help) (check : c.check = .ok ()) :
    Schema.make (.ofText n.name) dest aliases help (.ok c) =
      .ok { n with args := c.args, flags := c.flags, subcommands := c.subcommands } := by
  have dest : destOf n.name dest = .ok n.dest := by
    cases hdest with
    | said =>
      show Except.ok (Text.trim n.dest) = _
      rw [settled.dest]
    | unsaid same =>
      rw [same]
      rfl
  have help := hhelp.asHelp settled.help
  unfold Schema.make
  simp only [bind_eq_ok]
  exact ⟨n.name, settled.name, n.aliases, settled.aliases aliases haliases, n.dest, dest, n.help,
    help, c, rfl, (), check, rfl⟩

end CommandGrammar
