import CommandGrammar.Proofs.Schema.Made

/-!
# The forms of fields

A reader that accepts a value keeps it in a form: a text is trimmed (`Value.trimmed`), items stand
in a tuple (`Value.tupled`), everything else is kept as it is. So what was read tells the form of
what it was read from, reader by reader, and what has the form of a field is in it already.
-/

namespace CommandGrammar

/-! ## Values -/

namespace Value

/-- The value without the blanks at its ends, if it is a text. -/
def trimmed : Value → Value
  | .str s => .str (Text.trim s)
  | v => v

/-- The items of the value in a tuple, each without the blanks at its ends. -/
def tupled (v : Value) : Value :=
  match v.items? with
  | some items => .tuple (items.map trimmed)
  | none => v

variable {α : Type} {spec : SpecKind} {field : String} {v w : Value}

theorem trimmed_trimmed (v : Value) : v.trimmed.trimmed = v.trimmed := by
  cases v with
  | str s => exact congrArg Value.str (Text.trim_trim s)
  | _ => rfl

theorem tupled_of_items {items : List Value} (hitems : v.items? = some items) :
    v.tupled = .tuple (items.map trimmed) := by
  rw [tupled, hitems]

theorem tupled_tupled (v : Value) : v.tupled.tupled = v.tupled := by
  cases hitems : v.items? with
  | none =>
    have kept : v.tupled = v := by rw [tupled, hitems]
    rw [kept, kept]
  | some items =>
    have again : (items.map trimmed).map trimmed = items.map trimmed := by
      rw [List.map_map]
      exact List.map_congr_left fun v _ => trimmed_trimmed v
    rw [tupled_of_items hitems, tupled_of_items rfl, again]

theorem orElse_of_ne (given : v ≠ .unset) : v.orElse w = v := by
  cases v with
  | unset => exact absurd rfl given
  | _ => rfl

theorem trimmed_orElse_again {w' : Value} (given : w ≠ .unset) :
    ((v.orElse w).trimmed.orElse w').trimmed = (v.orElse w).trimmed := by
  have given' : (v.orElse w).trimmed ≠ .unset := by
    cases v with
    | unset =>
      cases w with
      | unset => exact absurd rfl given
      | _ => exact fun h => nomatch h
    | _ => exact fun h => nomatch h
  rw [orElse_of_ne given', trimmed_trimmed]

theorem trimmed_of_asField {s : String} (ok : v.asField spec field = .ok s) :
    v.trimmed = .str s := by
  unfold asField at ok
  split at ok
  · dsimp only at ok
    split at ok
    · cases ok
    · cases ok
      rfl
  · cases ok

/-- A text is given for a field that has to hold one. -/
theorem trimmed_orElse_of_asField {s : String} (ok : v.asField spec field = .ok s) :
    (v.orElse w).trimmed = .str s := by
  have given : v ≠ .unset := by
    rintro rfl
    cases ok
  rw [orElse_of_ne given, trimmed_of_asField ok]

theorem trimmed_of_asHelp {help : Option String} (ok : v.asHelp spec = .ok help) :
    (v.orElse .null).trimmed = .ofText help := by
  unfold asHelp at ok
  split at ok
  · cases ok
    rfl
  · cases ok
    rfl
  · obtain ⟨s, read, rfl⟩ := map_eq_ok.1 ok
    exact trimmed_orElse_of_asField read

theorem trimmed_of_asType {type : TypeRef} (ok : v.asType = .ok type) :
    v.trimmed = type.asValue := by
  unfold asType at ok
  split at ok
  · cases ok
    rfl
  · obtain ⟨name, read, rfl⟩ := map_eq_ok.1 ok
    exact trimmed_of_asField read
  · cases ok

theorem eq_of_asOptions {o : Option NumericOptions} (ok : v.asOptions = .ok o) :
    v = .ofOption (o.map .options) := by
  unfold asOptions at ok
  split at ok <;> cases ok <;> rfl

theorem eq_of_extrasOf {entries : List (Value × Value)} {extras : List (String × Value)}
    (ok : extrasOf entries = .ok extras) :
    entries = extras.map fun (key, v) => (.str key, v) := by
  induction entries generalizing extras with
  | nil =>
    cases ok
    rfl
  | cons entry rest ih =>
    obtain ⟨key, v⟩ := entry
    cases key with
    | str key =>
      obtain ⟨others, hothers, ok⟩ := bind_eq_ok.1 ok
      cases ok
      rw [ih hothers]
      rfl
    | _ => cases ok

theorem eq_of_asExtras {extras : List (String × Value)} (ok : v.asExtras = .ok extras) :
    v = .dict (extras.map fun (key, v) => (.str key, v)) := by
  unfold asExtras at ok
  split at ok
  · rw [eq_of_extrasOf ok]
  · cases ok

theorem asArguments_eq_ok_iff {args : List (Argument Value)} :
    v.asArguments spec = .ok args ↔ v.items? = some (args.map .argument) := by
  unfold asArguments
  cases v.items? with
  | none => exact ⟨fun ok => (nomatch ok), fun same => (nomatch same)⟩
  | some items =>
    rw [Option.some_inj]
    refine mapM_eq_ok_iff fun v a => ?_
    cases v with
    | argument b => simp [pure, Except.pure]
    | _ => exact ⟨fun ok => (nomatch ok), fun same => (nomatch same)⟩

theorem asFlags_eq_ok_iff {flags : List (Flag Value)} :
    v.asFlags = .ok flags ↔ v.items? = some (flags.map .flag) := by
  unfold asFlags
  cases v.items? with
  | none => exact ⟨fun ok => (nomatch ok), fun same => (nomatch same)⟩
  | some items =>
    rw [Option.some_inj]
    refine mapM_eq_ok_iff fun v f => ?_
    cases v with
    | flag g => simp [pure, Except.pure]
    | _ => exact ⟨fun ok => (nomatch ok), fun same => (nomatch same)⟩

/-- Items that are no texts are put into a tuple as they are. -/
theorem tupled_of_map {g : α → Value} {xs : List α} (hitems : v.items? = some (xs.map g))
    (noText : ∀ x, (g x).trimmed = g x) : v.tupled = .tuple (xs.map g) := by
  rw [tupled_of_items hitems, List.map_map]
  exact congrArg Value.tuple (List.map_congr_left fun x _ => noText x)

theorem tupled_of_asArguments {args : List (Argument Value)} (ok : v.asArguments spec = .ok args) :
    v.tupled = .tuple (args.map .argument) :=
  tupled_of_map (asArguments_eq_ok_iff.1 ok) fun _ => rfl

theorem tupled_of_asFlags {flags : List (Flag Value)} (ok : v.asFlags = .ok flags) :
    v.tupled = .tuple (flags.map .flag) :=
  tupled_of_map (asFlags_eq_ok_iff.1 ok) fun _ => rfl

theorem tupled_of_asSchemas {subs : List (Schema Value)} (ok : v.asSchemas = .ok subs) :
    v.tupled = .tuple (subs.map .schema) :=
  tupled_of_map (asSchemas_eq_ok_iff.1 ok) fun _ => rfl

end Value

/-! ## Flags and schemas -/

namespace Flag

theorem make_of_ofFields {fields : Fields} {f : Flag Value} (ok : ofFields fields = .ok f) :
    make (fields.getD "long" .null) (fields.getD "short" .null) (fields.getD "dest" .unset)
      (fields.getD "help" .unset) ((fields.getD "args" (.tuple [])).asArguments .flag) = .ok f := by
  unfold ofFields at ok
  dsimp only at ok
  split at ok
  · exact ok
  · cases ok

end Flag

namespace Schema

variable {v w : Value} {name : Option String}

theorem trimmed_of_wordOf {what word : String} (ok : wordOf what v = .ok word) :
    v.trimmed = .str word := by
  unfold wordOf at ok
  split at ok
  · dsimp only at ok
    split at ok
    · cases ok
    · split at ok <;> cases ok
      rfl
  · cases ok

theorem trimmed_of_nameOf (ok : nameOf v = .ok name) : (v.orElse w).trimmed = .ofText name := by
  unfold nameOf at ok
  split at ok
  · cases ok
    rfl
  · obtain ⟨word, read, rfl⟩ := map_eq_ok.1 ok
    have given : v ≠ .unset := by
      rintro rfl
      cases read
    rw [Value.orElse_of_ne given]
    exact trimmed_of_wordOf read

theorem map_of_aliasesOf {before aliases : List String} {items : List Value}
    (ok : aliasesOf name before items = .ok aliases) :
    aliases.map .str = before.map .str ++ items.map Value.trimmed := by
  induction items generalizing before with
  | nil =>
    cases ok
    exact (List.append_nil _).symm
  | cons item rest ih =>
    rw [aliasesOf] at ok
    obtain ⟨word, hword, ok⟩ := bind_eq_ok.1 ok
    split at ok
    · cases ok
    · have first : (item :: rest).map Value.trimmed = .str word :: rest.map Value.trimmed := by
        rw [List.map_cons, trimmed_of_wordOf hword]
      rw [first, ih ok, List.map_append, List.append_assoc]
      rfl

theorem tupled_of_aliasesFor {aliases : List String} (ok : aliasesFor name v = .ok aliases) :
    v.tupled = .tuple (aliases.map .str) := by
  unfold aliasesFor at ok
  split at ok
  · cases ok
  · rename_i items hitems
    obtain ⟨words, hwords, ok⟩ := bind_eq_ok.1 ok
    split at ok
    · cases ok
    · cases ok
      rw [Value.tupled_of_items hitems, map_of_aliasesOf hwords]
      rfl

theorem trimmed_of_destOf {dest : String} (named : ∀ word ∈ name, Text.trim word = word)
    (ok : destOf name v = .ok dest) : (v.orElse (.ofText name)).trimmed = .str dest := by
  unfold destOf at ok
  split at ok
  · cases ok
  · cases ok
    exact congrArg Value.str (named _ rfl)
  · cases ok
    rfl
  · cases ok

theorem make_of_ofFields {fields : Fields} {n : Schema Value} (ok : ofFields fields = .ok n) :
    make (fields.getD "name" .null) (fields.getD "dest" .unset) (fields.getD "aliases" (.tuple []))
      (fields.getD "help" .unset) (do
        let args ← (fields.getD "args" (.tuple [])).asArguments .command
        let flags ← (fields.getD "flags" (.tuple [])).asFlags
        let subcommands ← (fields.getD "subcommands" (.tuple [])).asSchemas
        return { args, flags, subcommands }) = .ok n := by
  unfold ofFields at ok
  dsimp only at ok
  split at ok
  · exact ok
  · cases ok

end Schema

end CommandGrammar
