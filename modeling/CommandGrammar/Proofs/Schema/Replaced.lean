import CommandGrammar.Proofs.Schema.Declared
import CommandGrammar.Proofs.Schema.Forms
import CommandGrammar.Schema.Spec

/-!
# Specs with fields replaced

However a spec was had, it is made again of its fields as it is. When some of them are replaced,
they hold what was given for them, each in its form, and all others hold what they held; and what
is replaced twice may as well have been replaced the second time only
(`Spec.Yielded.replaces_locally`).
-/

namespace CommandGrammar

theorem Fields.getD_of_lookup {fields : Fields} {name : String} {v : Value}
    (given : fields.lookup name = some v) (default : Value) : fields.getD name default = v := by
  rw [getD, given]
  rfl

theorem Fields.within_iff {fields : Fields} {names : List String} :
    fields.within names = true ↔ ∀ name, name ∉ names → fields.lookup name = none := by
  rw [within, List.all_eq_true]
  constructor
  · intro known name unknown
    refine Mapping.lookup_eq_none ?_
    intro mem
    obtain ⟨field, hfield, rfl⟩ := List.mem_map.1 mem
    exact unknown (List.contains_iff_mem.1 (known field hfield))
  · intro missing field mem
    refine List.contains_iff_mem.2 ?_
    by_contra unknown
    exact not_mem_of_lookup (missing field.1 unknown) field.2 mem

/-! ## Specs -/

namespace Spec

/-- The names of the fields. -/
def names : Spec → List String
  | .argument _ => Argument.fieldNames
  | .flag _ => Flag.fieldNames
  | .schema _ => Schema.fieldNames

/-- What a spec has for its key, or for its name, where none is given. -/
def fallback : Spec → Value
  | .argument a => .str a.dest
  | .flag f => .str f.code
  | .schema n => .ofText n.name

/-- The form in which a field holds a value. -/
inductive FieldForm
  /-- A key or a name, for which there is a fallback. -/
  | key
  | help
  | type
  | truth
  /-- Items in a row. -/
  | row
  /-- Any value as it is. -/
  | plain

/-- The form of the field of a name. -/
def formOf : String → FieldForm
  | "dest" | "name" => .key
  | "help" => .help
  | "type" => .type
  | "required" => .truth
  | "aliases" | "args" | "flags" | "subcommands" => .row
  | _ => .plain

/-- A value in the form of a field. -/
def FieldForm.hold (s : Spec) : FieldForm → Value → Value
  | .key, v => (v.orElse s.fallback).trimmed
  | .help, v => (v.orElse .null).trimmed
  | .type, v => v.trimmed
  | .truth, v => .bool v.truthy
  | .row, v => v.tupled
  | .plain, v => v

/-- What a field holds of a value that is given for it, when the spec is what is made. -/
def sanitized (s : Spec) (name : String) (v : Value) : Value := (formOf name).hold s v

/-- A spec of the same kind, made of fields. -/
def remade (s : Spec) (fields : Fields) : Except Refusal Spec :=
  match s with
  | .argument _ => .argument <$> Argument.ofFields fields
  | .flag _ => .flag <$> Flag.ofFields fields
  | .schema _ => .schema <$> Schema.ofFields fields

theorem replace_eq_remade (s : Spec) (overrides : Fields) :
    s.replace overrides = s.remade (overrides ++ s.fields) := by
  cases s <;> rfl

variable {s t : Spec} {fields others overrides : Fields} {name : String} {v : Value}

theorem fallback_ne_unset (s : Spec) : s.fallback ≠ .unset := by
  cases s with
  | argument a => exact fun h => nomatch h
  | flag f => exact fun h => nomatch h
  | schema n =>
    obtain ⟨name, dest, aliases, help, args, flags, subs⟩ := n
    cases name <;> exact fun h => nomatch h

/-- What is in the form of a field stays as it is, even in another spec: the fallback is no longer
asked for. -/
theorem sanitized_sanitized (s t : Spec) (name : String) (v : Value) :
    t.sanitized name (s.sanitized name v) = s.sanitized name v := by
  unfold sanitized
  cases formOf name with
  | key => exact Value.trimmed_orElse_again s.fallback_ne_unset
  | help => exact Value.trimmed_orElse_again fun h => nomatch h
  | type => exact Value.trimmed_trimmed v
  | truth => rfl
  | row => exact Value.tupled_tupled v
  | plain => rfl

/-! ### What is made of fields -/

theorem argument_holds {a : Argument Value} (ok : Argument.ofFields fields = .ok a)
    (given : fields.lookup name = some v) (known : name ∈ Argument.fieldNames) :
    a.fields.lookup name = some ((Spec.argument a).sanitized name v) := by
  have read := Argument.readFrom_of_ofFields ok
  have value := Fields.getD_of_lookup given
  simp only [Argument.fieldNames, List.mem_cons, List.not_mem_nil, or_false] at known
  rcases known with rfl | rfl | rfl | rfl | rfl | rfl | rfl | rfl
  · have dest := read.dest
    rw [value] at dest
    exact congrArg some (Value.trimmed_orElse_of_asField dest).symm
  · have type := read.type
    rw [value] at type
    exact congrArg some (Value.trimmed_of_asType type).symm
  · have shown := read.name
    rw [value] at shown
    exact congrArg some (Value.trimmed_of_asField shown).symm
  · have required := read.required
    rw [value] at required
    exact congrArg (fun b => some (Value.bool b)) required.symm
  · have default := read.default
    rw [value] at default
    exact congrArg some default.symm
  · have help := read.help
    rw [value] at help
    exact congrArg some (Value.trimmed_of_asHelp help).symm
  · have options := read.options
    rw [value] at options
    exact congrArg some (Value.eq_of_asOptions options).symm
  · have extras := read.extras
    rw [value] at extras
    exact congrArg some (Value.eq_of_asExtras extras).symm

theorem flag_holds {f : Flag Value} (ok : Flag.ofFields fields = .ok f)
    (given : fields.lookup name = some v) (known : name ∈ Flag.fieldNames) :
    f.fields.lookup name = some ((Spec.flag f).sanitized name v) := by
  have value := Fields.getD_of_lookup given
  obtain ⟨long, short, dest, args, help⟩ := Flag.make_reads (Flag.make_of_ofFields ok)
  simp only [Flag.fieldNames, List.mem_cons, List.not_mem_nil, or_false] at known
  rcases known with rfl | rfl | rfl | rfl | rfl
  · rw [value] at dest
    exact congrArg some (Value.trimmed_of_asField dest).symm
  · rw [value] at long
    exact congrArg some (Flag.eq_of_longOf long).symm
  · rw [value] at short
    exact congrArg some (Flag.eq_of_shortOf short).symm
  · rw [value] at help
    exact congrArg some (Value.trimmed_of_asHelp help).symm
  · rw [value] at args
    exact congrArg some (Value.tupled_of_asArguments args).symm

theorem schema_holds {n : Schema Value} (ok : Schema.ofFields fields = .ok n)
    (given : fields.lookup name = some v) (known : name ∈ Schema.fieldNames) :
    n.fields.lookup name = some ((Spec.schema n).sanitized name v) := by
  have value := Fields.getD_of_lookup given
  have made := Schema.make_of_ofFields ok
  have settled := Schema.settled_of_make made
  obtain ⟨hname, aliases, dest, help, children, -⟩ := Schema.make_reads made
  obtain ⟨_, args, children⟩ := bind_eq_ok.1 children
  obtain ⟨_, flags, children⟩ := bind_eq_ok.1 children
  obtain ⟨_, subs, children⟩ := bind_eq_ok.1 children
  cases children
  simp only [Schema.fieldNames, List.mem_cons, List.not_mem_nil, or_false] at known
  rcases known with rfl | rfl | rfl | rfl | rfl | rfl | rfl
  · rw [value] at hname
    exact congrArg some (Schema.trimmed_of_nameOf hname).symm
  · rw [value] at dest
    exact congrArg some (Schema.trimmed_of_destOf settled.named dest).symm
  · rw [value] at aliases
    exact congrArg some (Schema.tupled_of_aliasesFor aliases).symm
  · rw [value] at help
    exact congrArg some (Value.trimmed_of_asHelp help).symm
  · rw [value] at args
    exact congrArg some (Value.tupled_of_asArguments args).symm
  · rw [value] at flags
    exact congrArg some (Value.tupled_of_asFlags flags).symm
  · rw [value] at subs
    exact congrArg some (Value.tupled_of_asSchemas subs).symm

/-- What is made of fields holds what was given for them, each in its form. -/
theorem remade_holds (ok : s.remade fields = .ok t) (known : name ∈ t.names)
    (given : fields.lookup name = some v) :
    t.fields.lookup name = some (t.sanitized name v) := by
  cases s with
  | argument a =>
    obtain ⟨b, hb, rfl⟩ := map_eq_ok.1 ok
    exact argument_holds hb given known
  | flag f =>
    obtain ⟨g, hg, rfl⟩ := map_eq_ok.1 ok
    exact flag_holds hg given known
  | schema n =>
    obtain ⟨m, hm, rfl⟩ := map_eq_ok.1 ok
    exact schema_holds hm given known

theorem remade_kind (ok : s.remade fields = .ok t) : t.names = s.names ∧ t.remade = s.remade := by
  cases s <;> obtain ⟨_, _, rfl⟩ := map_eq_ok.1 ok <;> exact ⟨rfl, rfl⟩

/-- A spec has a value for each of its fields, and for nothing else. -/
theorem lookup_eq_none_iff (s : Spec) : s.fields.lookup name = none ↔ name ∉ s.names := by
  have named : s.fields.map (·.1) = s.names := by cases s <;> rfl
  rw [← named]
  constructor
  · intro missing mem
    obtain ⟨field, hfield, rfl⟩ := List.mem_map.1 mem
    exact Fields.not_mem_of_lookup missing field.2 hfield
  · exact Mapping.lookup_eq_none

theorem mem_names_of_lookup (found : s.fields.lookup name = some v) : name ∈ s.names := by
  by_contra unknown
  rw [s.lookup_eq_none_iff.2 unknown] at found
  cases found

/-- What is made of fields depends on what is found under their names alone. -/
theorem remade_congr (same : ∀ name, fields.lookup name = others.lookup name) :
    s.remade fields = s.remade others := by
  have value : ∀ name default, fields.getD name default = others.getD name default := by
    intro name default
    rw [Fields.getD, Fields.getD, same]
  have within : ∀ names, fields.within names = others.within names := by
    intro names
    rw [Bool.eq_iff_iff, Fields.within_iff, Fields.within_iff]
    simp only [same]
  cases s with
  | argument a => simp only [remade, Argument.ofFields, value, within, same]
  | flag f => simp only [remade, Flag.ofFields, value, within]
  | schema n => simp only [remade, Schema.ofFields, value, within]

/-! ### What is settled -/

/-- The fields of a spec are read back as they are. -/
def Settled : Spec → Prop
  | .argument a => a.Settled
  | .flag f => f.Settled
  | .schema n => n.Settled

theorem remade_settled (ok : s.remade fields = .ok t) : t.Settled := by
  cases s with
  | argument a =>
    obtain ⟨b, hb, rfl⟩ := map_eq_ok.1 ok
    exact Argument.settled_of_ofFields hb
  | flag f =>
    obtain ⟨g, hg, rfl⟩ := map_eq_ok.1 ok
    exact (Flag.make_eq_ok (Flag.make_of_ofFields hg)).2
  | schema n =>
    obtain ⟨m, hm, rfl⟩ := map_eq_ok.1 ok
    exact Schema.settled_of_make (Schema.make_of_ofFields hm)

namespace Settled

/-- A spec that is settled is made again of its fields. -/
theorem remade_fields (settled : s.Settled) : s.remade s.fields = .ok s := by
  cases s with
  | argument a =>
    have shows : a.fields.Shows a.fields a.stepDefaults :=
      ⟨[], by rw [List.append_nil], List.nil_subset _⟩
    show Spec.argument <$> Argument.ofFields a.fields = _
    rw [Argument.Settled.ofFields_of_shows settled shows]
    rfl
  | flag f =>
    have again : Flag.ofFields f.fields = .ok f := by
      show Flag.make (.ofText f.long) (.ofText (f.short.map (·.toString))) (.str f.dest)
        (.ofText f.help) ((Value.tuple (f.args.map .argument)).asArguments .flag) = _
      rw [Value.asArguments_eq_ok_iff.2 rfl]
      exact Flag.Settled.make settled f.args .said .said
    show Spec.flag <$> Flag.ofFields f.fields = _
    rw [again]
    rfl
  | schema n =>
    have again : Schema.ofFields n.fields = .ok n := by
      show Schema.make (.ofText n.name) (.str n.dest) (.tuple (n.aliases.map .str))
        (.ofText n.help) (do
          let args ← (Value.tuple (n.args.map .argument)).asArguments .command
          let flags ← (Value.tuple (n.flags.map .flag)).asFlags
          let subcommands ← (Value.tuple (n.subcommands.map .schema)).asSchemas
          return { args, flags, subcommands }) = _
      rw [Value.asArguments_eq_ok_iff.2 rfl, Value.asFlags_eq_ok_iff.2 rfl,
        Value.asSchemas_eq_ok_iff.2 rfl]
      have items : (Value.tuple (n.aliases.map .str)).items? = some (n.aliases.map .str) := rfl
      show Schema.make _ _ _ _ (.ok ⟨n.args, n.flags, n.subcommands⟩) = .ok n
      rw [Schema.Settled.make settled .said items .said settled.check]
      cases n
      rfl
    show Spec.schema <$> Schema.ofFields n.fields = _
    rw [again]
    rfl

theorem replace_nil (settled : s.Settled) : s.replace [] = .ok s := by
  rw [replace_eq_remade, List.nil_append, settled.remade_fields]

/-- A value that a field holds is what a field holds of it. -/
theorem sanitized (settled : s.Settled) (found : s.fields.lookup name = some v) (t : Spec) :
    t.sanitized name v = v := by
  have held := remade_holds settled.remade_fields (mem_names_of_lookup found) found
  rw [found] at held
  rw [Option.some.inj held, sanitized_sanitized]

/-- A field of the result holds what was given for it in its place, or what it held before. -/
theorem replace_fields (settled : s.Settled) (ok : s.replace overrides = .ok t) (name : String) :
    t.fields.lookup name = (s.fields.lookup name).map fun v =>
      ((overrides.lookup name).map (t.sanitized name)).getD v := by
  rw [replace_eq_remade] at ok
  have names := (remade_kind ok).1
  cases before : s.fields.lookup name with
  | none =>
    rw [s.lookup_eq_none_iff, ← names] at before
    exact t.lookup_eq_none_iff.2 before
  | some v =>
    have known : name ∈ t.names := names ▸ mem_names_of_lookup before
    cases overridden : overrides.lookup name with
    | some w =>
      refine remade_holds ok known ?_
      rw [List.lookup_append, overridden]
      rfl
    | none =>
      -- The field is given as the spec holds it, and this is in its form already.
      have kept : (overrides ++ s.fields).lookup name = some v := by
        rw [List.lookup_append, overridden, before]
        rfl
      rw [remade_holds ok known kept, settled.sanitized before]
      rfl

/-- What is replaced again may as well have been replaced only then. -/
theorem replace_replace (settled : s.Settled) (ok : s.replace overrides = .ok t)
    (covered : ∀ name, others.lookup name = none → overrides.lookup name = none) :
    t.replace others = s.replace others := by
  have kind : t.remade = s.remade := by
    rw [replace_eq_remade] at ok
    exact (remade_kind ok).2
  rw [replace_eq_remade, replace_eq_remade, kind]
  refine remade_congr fun name => ?_
  rw [List.lookup_append, List.lookup_append]
  cases given : others.lookup name with
  | some v => rfl
  | none =>
    rw [settled.replace_fields ok name, covered name given]
    cases s.fields.lookup name <;> rfl

end Settled

/-! ### Equality -/

/-- The value of each field equals itself. -/
def SelfEqual (s : Spec) : Prop := ∀ field ∈ s.fields, Value.eq field.2 field.2 = true

end Spec

namespace Value

/-- Items of one kind are equal in a row when they are equal one by one. -/
theorem allEqv_map_iff {α : Type} {g : α → Value} {xs ys : List α} :
    allEqv (xs.map g) (ys.map g) = true ↔
      xs.Forall₂ (fun x y => eqv true (g x) (g y) = true) ys := by
  induction xs generalizing ys with
  | nil => cases ys <;> simp [allEqv]
  | cons x rest ih => cases ys <;> simp [allEqv, ih]

end Value

namespace Spec

variable {s t : Spec} {fields others overrides : Fields} {name : String} {v : Value}

/-- A spec whose fields equal themselves equals itself. -/
theorem SelfEqual.eq_self (self : s.SelfEqual) : Value.eq s.value s.value = true := by
  cases s with
  | argument a =>
    have own : a.SelfEqual := self
    have inside := own.reordered (List.Perm.refl _)
    obtain ⟨dest, type, shown, required, -, rest⟩ := Value.argumentEqv_iff.1 inside
    have default : Value.eq a.default a.default = true :=
      self ("default", a.default) (by simp [Spec.fields, Argument.fields_eq])
    exact Value.argumentEqv_iff.2 ⟨dest, type, shown, required, default, rest⟩
  | flag f =>
    have args := self ("args", .tuple (f.args.map .argument)) (by simp [Spec.fields, Flag.fields])
    rw [Value.eq, Value.eqv, Value.allEqv_map_iff] at args
    exact Value.flagEqv_iff.2 ⟨rfl, rfl, rfl, rfl, Value.argumentsEqv_iff.2 args⟩
  | schema n =>
    have args := self ("args", .tuple (n.args.map .argument)) (by simp [Spec.fields, Schema.fields])
    have flags := self ("flags", .tuple (n.flags.map .flag)) (by simp [Spec.fields, Schema.fields])
    have subs := self ("subcommands", .tuple (n.subcommands.map .schema))
      (by simp [Spec.fields, Schema.fields])
    rw [Value.eq, Value.eqv, Value.allEqv_map_iff] at args flags subs
    exact Value.schemaEqv_iff.2 ⟨rfl, rfl, rfl, rfl, Value.argumentsEqv_iff.2 args,
      Value.flagsEqv_iff.2 flags, Value.schemasEqv_iff.2 subs⟩

/-! ### However a spec was had -/

/-- Specs that can be had: they are made of fields, as the steps of drafts make arguments, they are
what a draft or a literal describes, or fields of such a spec were replaced. -/
inductive Yielded : Spec → Prop
  | argument {fields : Fields} {a : Argument Value} (ok : Argument.ofFields fields = .ok a) :
      Yielded (.argument a)
  | argumentLiteral {entries : List (Value × Value)} {a : Argument Value}
      (ok : Argument.declared (.dict entries) = .ok a) : Yielded (.argument a)
  | flag {fields : Fields} {f : Flag Value} (ok : Flag.ofFields fields = .ok f) :
      Yielded (.flag f)
  | flagDraft {d : FlagDraft Value} {f : Flag Value} (ok : d.complete = .ok f) : Yielded (.flag f)
  | flagLiteral {entries : List (Value × Value)} {f : Flag Value}
      (ok : Flag.declared (.dict entries) = .ok f) : Yielded (.flag f)
  | schema {fields : Fields} {n : Schema Value} (ok : Schema.ofFields fields = .ok n) :
      Yielded (.schema n)
  | schemaDraft {d : CommandDraft Value} {n : Schema Value} (ok : d.complete = .ok n) :
      Yielded (.schema n)
  | schemaLiteral {entries : List (Value × Value)} {n : Schema Value}
      (ok : Schema.declared (.dict entries) = .ok n) : Yielded (.schema n)
  | replaced {overrides : Fields} {s t : Spec} (yielded : Yielded s)
      (ok : s.replace overrides = .ok t) : Yielded t

theorem Yielded.settled (yielded : s.Yielded) : s.Settled := by
  induction yielded with
  | argument ok => exact Argument.settled_of_ofFields ok
  | argumentLiteral ok =>
    unfold Argument.declared at ok
    dsimp only at ok
    split at ok
    · cases ok
    · obtain ⟨options, -, ok⟩ := bind_eq_ok.1 ok
      exact Argument.settled_of_ofFields ok
  | flag ok => exact (Flag.make_eq_ok (Flag.make_of_ofFields ok)).2
  | flagDraft ok => exact (Flag.make_eq_ok ok).2
  | flagLiteral ok =>
    unfold Flag.declared at ok
    simp only [bind_eq_ok] at ok
    obtain ⟨_, -, _, -, ok⟩ := ok
    exact (Flag.make_eq_ok ok).2
  | schema ok => exact Schema.settled_of_make (Schema.make_of_ofFields ok)
  | @schemaDraft d n ok =>
    cases d
    unfold CommandDraft.complete at ok
    simp only [bind_eq_ok] at ok
    obtain ⟨_, -, _, -, ok⟩ := ok
    exact Schema.settled_of_make ok
  | schemaLiteral ok =>
    unfold Schema.declared at ok
    simp only [bind_eq_ok] at ok
    obtain ⟨_, -, _, -, _, -, _, -, ok⟩ := ok
    exact Schema.settled_of_make ok
  | replaced _ ok _ =>
    rw [replace_eq_remade] at ok
    exact remade_settled ok

/-- However a spec was had, it is made again as it is, and equals itself if its fields do. When
fields of it are replaced, each of these holds what was given for it in the form of the field, and
all others hold what they held. What is replaced twice may as well have been replaced the second
time only. -/
theorem Yielded.replaces_locally (yielded : s.Yielded) :
    s.replace [] = .ok s ∧ (∀ n, s = .schema n → Schema.declared (.schema n) = .ok n) ∧
      (s.SelfEqual → Value.eq s.value s.value = true) ∧
      ∀ overrides t, s.replace overrides = .ok t →
        (∀ name, t.fields.lookup name = (s.fields.lookup name).map fun v =>
          ((overrides.lookup name).map (t.sanitized name)).getD v) ∧
        ∀ others, (∀ name, others.lookup name = none → overrides.lookup name = none) →
          t.replace others = s.replace others := by
  have settled := yielded.settled
  refine ⟨settled.replace_nil, ?_, SelfEqual.eq_self, ?_⟩
  · rintro n rfl
    obtain ⟨m, hm, same⟩ := map_eq_ok.1 settled.replace_nil
    cases same
    exact hm
  · intro overrides t ok
    refine ⟨settled.replace_fields ok, ?_⟩
    intro others covered
    exact settled.replace_replace ok covered

theorem lookup_single_eq_none (w : Value) {other : String}
    (missing : [(name, w)].lookup other = none) : [(name, v)].lookup other = none := by
  rw [List.lookup_cons] at missing ⊢
  cases h : other == name with
  | true =>
    rw [h] at missing
    cases missing
  | false => rfl

/-- The key of a flag can be left to its code again. -/
theorem replaces_locally_count : ∃ f g,
    Flag.ofFields [("long", .str "count"), ("dest", .str " total "), ("help", .str " how many ")] =
      .ok f ∧
    (Spec.flag f).replace [] = .ok (.flag f) ∧ Value.eq (.flag f) (.flag f) = true ∧
    (Spec.flag f).replace [("dest", .unset)] = .ok (.flag g) ∧ f.dest = "total" ∧
    (Spec.flag g).fields.lookup "dest" = some (.str "count") ∧
    (Spec.flag g).fields.lookup "help" = some (.str "how many") ∧
    (Spec.flag g).replace [("dest", .str "sum")] =
      (Spec.flag f).replace [("dest", .str "sum")] := by
  have made : Flag.ofFields
      [("long", .str "count"), ("dest", .str " total "), ("help", .str " how many ")] =
      .ok ⟨"total", some "count", none, some "how many", []⟩ := rfl
  have replaced : (Spec.flag ⟨"total", some "count", none, some "how many", []⟩).replace
      [("dest", .unset)] = .ok (.flag ⟨"count", some "count", none, some "how many", []⟩) := rfl
  obtain ⟨again, -, equal, replacing⟩ := (Yielded.flag made).replaces_locally
  obtain ⟨holds, twice⟩ := replacing _ _ replaced
  have self : (Spec.flag ⟨"total", some "count", none, some "how many", []⟩).SelfEqual := by
    unfold SelfEqual
    decide +kernel
  exact ⟨_, _, made, again, equal self, replaced, rfl, holds "dest", holds "help",
    twice _ fun _ => lookup_single_eq_none _⟩

end Spec

end CommandGrammar
