import CommandGrammar.Proofs.Schema.Given
import CommandGrammar.Proofs.Schema.Holders
import CommandGrammar.Proofs.Parse.Descent
import CommandGrammar.Proofs.Value.Equal

/-!
# Literals

A schema is written as a literal: a dict of its fields in any order, in which arguments, flags and
sub-commands are literals in their turn. A field that has its default may be left out, the settings
of an argument stand under `range` or `unsigned`, and its settings for converters are further
entries. A schema that can be made is declared by each of its literals (`Schema.Literal.declared`),
with the settings for converters in the order of the literal.
-/

namespace CommandGrammar

/-! ## Dicts of fields -/

namespace Fields

variable {names : List String} {name : String} {v : Value}

/-- The entries of a dict that gives fields under their names. -/
def entries (fields : Fields) : List (Value × Value) := fields.map fun (name, v) => (.str name, v)

theorem valueUnder?_entries (fields : Fields) :
    valueUnder? name fields.entries = fields.lookup name := by
  induction fields with
  | nil => rfl
  | cons field rest ih =>
    obtain ⟨name', v⟩ := field
    have step : valueUnder? name (entries ((name', v) :: rest)) =
        if name' = name then some v else valueUnder? name (entries rest) := rfl
    rw [step, ih, List.lookup_cons]
    by_cases same : name' = name
    · rw [if_pos same, beq_iff_eq.2 same.symm]
    · rw [if_neg same, beq_false_of_ne (Ne.symm same)]

/-- The fields whose names are among the given ones. -/
def among (fields : Fields) (names : List String) : Fields :=
  fields.filter fun field => names.contains field.1

/-- The fields whose names are not among the given ones. -/
def beside (fields : Fields) (names : List String) : Fields :=
  fields.filter fun field => !names.contains field.1

theorem mem_among {fields : Fields} {field : String × Value} :
    field ∈ fields.among names ↔ field ∈ fields ∧ field.1 ∈ names := by
  rw [among, List.mem_filter, List.contains_iff_mem]

theorem beside_beside (fields : Fields) (names others : List String) :
    (fields.beside names).beside others = fields.beside (names ++ others) := by
  rw [beside, beside, beside, List.filter_filter]
  refine List.filter_congr fun field _ => ?_
  rw [List.contains_append, Bool.not_or, Bool.and_comm]

theorem namedEntries_entries (fields : Fields) :
    namedEntries names fields.entries = fields.among names := by
  rw [namedEntries, entries, List.filterMap_map, among, ← List.filterMap_eq_filter]
  congr 1

/-- Among the fields that entries give, a look-up finds what stands under the key. -/
theorem lookup_namedEntries (mem : name ∈ names) (entries : List (Value × Value)) :
    (namedEntries names entries).lookup name = valueUnder? name entries := by
  induction entries with
  | nil => rfl
  | cons entry rest ih =>
    obtain ⟨key, v⟩ := entry
    cases key with
    | str key =>
      rw [valueUnder?, ← ih, namedEntries, List.filterMap_cons]
      by_cases same : key = name
      · subst same
        rw [if_pos rfl]
        dsimp only
        rw [if_pos (List.contains_iff_mem.2 mem), List.lookup_cons_self]
      · rw [if_neg same]
        dsimp only
        split
        · rfl
        · rename_i field given
          split at given
          · cases given
            rw [List.lookup_cons, beq_false_of_ne (Ne.symm same)]
            rfl
          · cases given
    | _ => exact ih

theorem otherEntries_entries (fields : Fields) :
    otherEntries names fields.entries = (fields.beside names).entries := by
  rw [otherEntries, entries, List.filter_map]
  rfl

/-- A look-up does not miss fields of other names. -/
theorem lookup_filter {p : String → Bool} (fields : Fields) (kept : p name = true) :
    (fields.filter fun field => p field.1).lookup name = fields.lookup name := by
  induction fields with
  | nil => rfl
  | cons field rest ih =>
    obtain ⟨name', v⟩ := field
    rw [List.filter_cons, List.lookup_cons]
    by_cases same : name = name'
    · rw [← same, if_pos kept, List.lookup_cons, beq_self_eq_true]
    · rw [beq_false_of_ne same]
      split
      · rw [List.lookup_cons, beq_false_of_ne same]
        exact ih
      · exact ih

theorem lookup_among (fields : Fields) (mem : name ∈ names) :
    (fields.among names).lookup name = fields.lookup name :=
  lookup_filter fields (List.contains_iff_mem.2 mem)

theorem lookup_beside (fields : Fields) (absent : name ∉ names) :
    (fields.beside names).lookup name = fields.lookup name := by
  refine lookup_filter (p := fun name => !names.contains name) fields ?_
  rw [Bool.not_eq_true', ← Bool.not_eq_true]
  exact mt List.contains_iff_mem.1 absent

theorem beside_eq_nil {fields : Fields} (h : ∀ field ∈ fields, field.1 ∈ names) :
    fields.beside names = [] := by
  refine List.filter_eq_nil_iff.2 ?_
  intro field mem
  rw [Bool.not_eq_true', Bool.not_eq_false]
  exact List.contains_iff_mem.2 (h field mem)

theorem beside_eq_self {fields : Fields} (h : ∀ field ∈ fields, field.1 ∉ names) :
    fields.beside names = fields := by
  refine List.filter_eq_self.2 ?_
  intro field mem
  rw [Bool.not_eq_true', ← Bool.not_eq_true]
  exact mt List.contains_iff_mem.1 (h field mem)

theorem beside_append (fields others : Fields) :
    (fields ++ others).beside names = fields.beside names ++ others.beside names :=
  List.filter_append _ _

end Fields

/-! ## Items in a row -/

/-- A list or a tuple whose items are related to the given ones one by one. -/
inductive Value.Row {α : Type} (R : α → Value → Prop) : Value → List α → Prop
  | list {xs : List α} {items : List Value} (h : xs.Forall₂ R items) : Row R (.list items) xs
  | tuple {xs : List α} {items : List Value} (h : xs.Forall₂ R items) : Row R (.tuple items) xs

theorem Value.Row.items {α : Type} {R : α → Value → Prop} {xs : List α} {v : Value}
    (row : v.Row R xs) : ∃ items, v.items? = some items ∧ xs.Forall₂ R items := by
  cases row with
  | list h => exact ⟨_, rfl, h⟩
  | tuple h => exact ⟨_, rfl, h⟩

/-- Empty rows, as a list and as a tuple, under each of the names. -/
def Fields.emptyRows (names : List String) : Fields :=
  names.flatMap fun name => [(name, .list []), (name, .tuple [])]

theorem Fields.mem_emptyRows {names : List String} {name : String} {v : Value} :
    (name, v) ∈ emptyRows names ↔ name ∈ names ∧ (v = .list [] ∨ v = .tuple []) := by
  simp only [emptyRows, List.mem_flatMap, List.mem_cons, Prod.mk.injEq, List.not_mem_nil, or_false]
  constructor
  · rintro ⟨_, mem, ⟨rfl, h⟩ | ⟨rfl, h⟩⟩
    · exact ⟨mem, .inl h⟩
    · exact ⟨mem, .inr h⟩
  · rintro ⟨mem, h | h⟩
    · exact ⟨name, mem, .inl ⟨rfl, h⟩⟩
    · exact ⟨name, mem, .inr ⟨rfl, h⟩⟩

/-! ## What is written -/

namespace NumericOptions

/-- The bounds of a range. A missing maximum may be left out, and so may two missing bounds. -/
inductive Bounds : Option Number → Option Number → List Value → Prop
  | both (low high : Option Number) : Bounds low high [.ofBound low, .ofBound high]
  | minimum (low : Option Number) : Bounds low none [.ofBound low]
  | neither : Bounds none none []

/-- The settings of an argument as fields of its literal. -/
inductive Written : Option NumericOptions → Fields → Prop
  | missing : Written none []
  | range {low high : Option Number} {bounds : List Value} {v : Value}
      (h : Bounds low high bounds) (row : v.Row Eq bounds) :
      Written (some (.range low high)) [("range", v)]
  | unsigned (b : Bool) : Written (some (.signedness b)) [("unsigned", .bool b)]

end NumericOptions

namespace Argument

variable {a : Argument Value} {v : Value}

/-- The keys of a literal that are not settings for converters. -/
def reservedKeys : List String := literalKeys ++ ["range", "unsigned"]

/-- The fields that are in a literal under their own names. -/
def literalFields (a : Argument Value) : Fields := a.fields.among literalKeys

/-- What the fields of an argument are when its literal leaves them out. -/
def literalDefaults (a : Argument Value) : Fields := ("dest", .str a.name) :: a.defaults

/-- A literal of an argument: its fields, its numeric options and its settings for converters in
any order. The key or the name is there, and the other one may be left out if they are the same. -/
inductive Literal (a : Argument Value) : Value → Prop
  | dict {fields settings : Fields} (written : NumericOptions.Written a.options settings)
      (shows : fields.Shows (a.literalFields ++ settings ++ a.extras) a.literalDefaults)
      (keyed : (fields.lookup "dest").isSome ∨ (fields.lookup "name").isSome) :
      Literal a (.dict fields.entries)

end Argument

namespace Flag

/-- The fields of a flag's literal. -/
def literalFields (f : Flag Value) (args : Value) : Fields :=
  [("dest", .str f.dest), ("long", .ofText f.long), ("short", .ofText (f.short.map (·.toString))),
   ("help", .ofText f.help), ("args", args)]

/-- What the fields of a flag are when its literal leaves them out. -/
def defaults (f : Flag Value) : Fields :=
  [("dest", .str f.code), ("long", .null), ("short", .null), ("help", .null)] ++
    Fields.emptyRows ["args"]

/-- A literal of a flag, with literals of its arguments. -/
inductive Literal (f : Flag Value) : Value → Prop
  | dict {fields : Fields} {args : Value} (parts : args.Row Argument.Literal f.args)
      (shows : fields.Shows (f.literalFields args) f.defaults) : Literal f (.dict fields.entries)

end Flag

namespace Schema

/-- The fields of a schema's literal. -/
def literalFields (n : Schema Value) (aliases args flags subcommands : Value) : Fields :=
  [("name", .ofText n.name), ("dest", .str n.dest), ("aliases", aliases), ("help", .ofText n.help),
   ("args", args), ("flags", flags), ("subcommands", subcommands)]

/-- What the fields of a schema are when its literal leaves them out. -/
def defaults (n : Schema Value) : Fields :=
  [("name", .null), ("dest", .ofText n.name), ("help", .null)] ++
    Fields.emptyRows ["aliases", "args", "flags", "subcommands"]

/-- A literal of a schema, with literals of its arguments, flags and sub-commands. -/
inductive Literal : Schema Value → Value → Prop
  | dict {n : Schema Value} {fields : Fields} {aliases args flags subcommands : Value}
      (hwords : aliases.Row (fun word v => Value.str word = v) n.aliases)
      (hargs : args.Row Argument.Literal n.args) (hflags : flags.Row Flag.Literal n.flags)
      (hsubs : subcommands.Row Literal n.subcommands)
      (shows : fields.Shows (n.literalFields aliases args flags subcommands) n.defaults) :
      Literal n (.dict fields.entries)

end Schema

/-! ## What is written is declared -/

namespace NumericOptions

variable {o : Option NumericOptions} {settings : Fields}

theorem Bounds.completed {low high : Option Number} {bounds : List Value}
    (h : Bounds low high bounds) :
    (if bounds.length < 2 then (bounds ++ [Value.null, .null]).take 2 else bounds) =
      [.ofBound low, .ofBound high] := by
  cases h <;> rfl

/-- The numeric options are read from a literal as they were written. -/
theorem Written.literalOptions (written : Written o settings) (made : ∀ u, o = some u → u.Made)
    {others : List (Value × Value)} (hrange : valueUnder? "range" others = settings.lookup "range")
    (hunsigned : valueUnder? "unsigned" others = settings.lookup "unsigned") :
    Argument.literalOptions others = .ok o := by
  unfold Argument.literalOptions
  rw [hrange, hunsigned]
  cases written with
  | missing => rfl
  | unsigned b => rfl
  | @range low high bounds v h row =>
    have iterated : v.iterated = .ok bounds := by
      cases row with
      | list same =>
        rw [List.forall₂_eq_eq_eq] at same
        rw [same]
        rfl
      | tuple same =>
        rw [List.forall₂_eq_eq_eq] at same
        rw [same]
        rfl
    show (v.iterated >>= fun bounds => _) = _
    rw [iterated]
    show some <$> ofRange (.tuple (if _ then _ else _)) = _
    rw [h.completed, (made _ rfl).ofRange_again]
    rfl

theorem Written.unique (written : Written o settings) {name : String} {v w : Value}
    (hv : (name, v) ∈ settings) (hw : (name, w) ∈ settings) : v = w := by
  cases written <;> simp_all

theorem Written.keys (written : Written o settings) :
    ∀ field ∈ settings, field.1 ∈ ["range", "unsigned"] := by
  cases written <;> simp

end NumericOptions

namespace Argument

variable {a : Argument Value} {fields settings : Fields} {v : Value}

theorem settings_apart {name : String} (mem : name ∈ ["range", "unsigned"]) :
    name ∉ literalKeys := by
  have apart : ∀ name ∈ ["range", "unsigned"], name ∉ literalKeys := by decide
  exact apart name mem

theorem literalDefaults_known : ∀ field ∈ a.literalDefaults, field.1 ∈ literalKeys := by
  simp [literalDefaults, defaults, literalKeys]

section Declared

variable (written : NumericOptions.Written a.options settings)
  (shows : fields.Shows (a.literalFields ++ settings ++ a.extras) a.literalDefaults)
  (plain : ∀ e ∈ a.extras, e.1 ∉ reservedKeys)

include written shows plain

theorem literal_tells {name : String} {w : Value} (mem : (name, w) ∈ a.fields)
    (known : name ∈ literalKeys) : fields.Tells a.literalDefaults name w := by
  have here : (name, w) ∈ a.literalFields := Fields.mem_among.2 ⟨mem, known⟩
  refine shows.tells (List.mem_append_left _ (List.mem_append_left _ here)) ?_
  intro u hu
  rcases List.mem_append.1 hu with hu | hu
  · rcases List.mem_append.1 hu with hu | hu
    · have same := List.inj_on_of_nodup_map a.fields_nodup (Fields.mem_among.1 hu).1 mem rfl
      exact congrArg Prod.snd same
    · exact absurd known (settings_apart (written.keys _ hu))
  · exact absurd (List.mem_append_left _ known) (plain _ hu)

theorem literal_lookup {name : String} (known : name ∈ ["range", "unsigned"]) :
    fields.lookup name = settings.lookup name := by
  have elsewhere : name ∉ literalKeys := settings_apart known
  have within : ∀ w, (name, w) ∈ a.literalFields ++ settings ++ a.extras →
      (name, w) ∈ settings := by
    intro w mem
    rcases List.mem_append.1 mem with mem | mem
    · rcases List.mem_append.1 mem with mem | mem
      · exact absurd (Fields.mem_among.1 mem).2 elsewhere
      · exact mem
    · exact absurd (List.mem_append_right _ known) (plain _ mem)
  cases hlookup : settings.lookup name with
  | none =>
    refine shows.lookup_eq_none ?_
    intro w mem
    exact Fields.not_mem_of_lookup hlookup w (within w mem)
  | some w =>
    have mem : (name, w) ∈ settings := Fields.mem_of_lookup hlookup
    have tells := shows.tells (List.mem_append_left _ (List.mem_append_right _ mem))
      fun u hu => written.unique (within u hu) mem
    rcases tells with found | ⟨-, omitted⟩
    · exact found
    · exact absurd (literalDefaults_known _ omitted) elsewhere

/-- What a literal has beside its own keys and its numeric options are the settings for
converters. -/
theorem literal_extras : (fields.beside reservedKeys).Perm a.extras := by
  obtain ⟨left, perm, among⟩ := shows
  -- All but the settings for converters have reserved keys, and so does what is left out.
  have hleft : left.beside reservedKeys = [] := by
    refine Fields.beside_eq_nil ?_
    intro field mem
    exact List.mem_append_left _ (literalDefaults_known _ (among mem))
  have hfields : a.literalFields.beside reservedKeys = [] := by
    refine Fields.beside_eq_nil ?_
    intro field mem
    exact List.mem_append_left _ (Fields.mem_among.1 mem).2
  have hsettings : settings.beside reservedKeys = [] := by
    refine Fields.beside_eq_nil ?_
    intro field mem
    exact List.mem_append_right _ (written.keys field mem)
  have whole : ((fields ++ left).beside reservedKeys).Perm
      ((a.literalFields ++ settings ++ a.extras).beside reservedKeys) := perm.filter _
  rw [Fields.beside_append, Fields.beside_append, Fields.beside_append, hleft, hfields, hsettings,
    Fields.beside_eq_self plain, List.append_nil, List.nil_append, List.nil_append] at whole
  exact whole

end Declared

/-- The key of an argument is read from its literals, where it may stand for the name and the name
for it. -/
theorem literal_dest (keyed : (fields.lookup "dest").isSome ∨ (fields.lookup "name").isSome)
    (told : ∀ field ∈ a.fields, field.1 ∈ literalKeys →
      fields.Tells a.literalDefaults field.1 field.2) :
    ((fields.among literalKeys).lookup "dest").or ((fields.among literalKeys).lookup "name") =
      some (.str a.dest) := by
  have dest : fields.Tells a.literalDefaults "dest" (.str a.dest) :=
    told ("dest", .str a.dest) (by simp [fields_eq]) (by simp [literalKeys])
  have name : fields.Tells a.literalDefaults "name" (.str a.name) :=
    told ("name", .str a.name) (by simp [fields_eq]) (by simp [literalKeys])
  rw [fields.lookup_among (by decide), fields.lookup_among (by decide)]
  rcases dest with found | ⟨missing, mem⟩
  · rw [found]
    rfl
  · -- A key is left out only where it is the name, and then the name is there.
    have same : a.dest = a.name := by simpa [literalDefaults, defaults] using mem
    rw [missing] at keyed
    rcases name with found | ⟨unnamed, -⟩
    · rw [missing, found, same]
      rfl
    · rw [unnamed] at keyed
      simp at keyed

/-- The fields that are read from a literal tell those of the argument. -/
theorem literal_read {extras : Fields}
    (told : ∀ field ∈ a.fields, field.1 ∈ literalKeys →
      fields.Tells a.literalDefaults field.1 field.2) :
    ∀ field ∈ Argument.fields { a with extras },
      Fields.Tells ([("dest", .str a.dest), ("options", .ofOption (a.options.map .options)),
        ("extras", .dict extras.entries)] ++ fields.among literalKeys)
        a.stepDefaults field.1 field.2 := by
  have plain : ∀ field ∈ a.fields, field.1 ∈ ["type", "name", "required", "default", "help"] →
      Fields.Tells ([("dest", .str a.dest), ("options", .ofOption (a.options.map .options)),
        ("extras", .dict extras.entries)] ++ fields.among literalKeys)
        a.stepDefaults field.1 field.2 := by
    rintro ⟨name, w⟩ mem known
    have apart : ∀ name ∈ ["type", "name", "required", "default", "help"],
        name ≠ "dest" ∧ name ≠ "options" ∧ name ≠ "extras" ∧ name ∈ literalKeys := by decide
    obtain ⟨noDest, noOptions, noExtras, key⟩ := apart name known
    have hlookup : List.lookup name ([("dest", .str a.dest),
        ("options", .ofOption (a.options.map .options)), ("extras", .dict extras.entries)] ++
        fields.among literalKeys) = fields.lookup name := by
      rw [List.cons_append, List.cons_append, List.cons_append, List.nil_append, List.lookup_cons,
        beq_false_of_ne noDest, List.lookup_cons, beq_false_of_ne noOptions, List.lookup_cons,
        beq_false_of_ne noExtras]
      exact fields.lookup_among key
    rcases told _ mem key with found | ⟨missing, omitted⟩
    · exact .inl (hlookup.trans found)
    · refine .inr ⟨hlookup.trans missing, ?_⟩
      rcases List.mem_cons.1 omitted with same | omitted
      · exact absurd (congrArg Prod.fst same) noDest
      · exact List.mem_append_left _ omitted
  simp only [fields_eq, List.forall_mem_cons] at plain ⊢
  obtain ⟨-, type, name, required, default, help, -, -, -⟩ := plain
  refine ⟨.inl rfl, type (by simp), name (by simp), required (by simp), default (by simp),
    help (by simp), .inl ?_, .inl ?_, List.forall_mem_nil _⟩
  · simp [List.lookup_cons]
  · simp [List.lookup_cons, Fields.entries]

/-- An argument that can be made is declared by its literals, with the settings for converters in
the order of the literal. -/
theorem Literal.declared (literal : a.Literal v) (made : a.Made)
    (plain : ∀ e ∈ a.extras, e.1 ∉ reservedKeys) :
    ∃ extras, extras.Perm a.extras ∧ Argument.declared v = .ok { a with extras } := by
  cases literal with
  | @dict fields settings written shows keyed =>
    have told : ∀ field ∈ a.fields, field.1 ∈ literalKeys →
        fields.Tells a.literalDefaults field.1 field.2 :=
      fun field mem known => literal_tells written shows plain mem known
    have settled := made.settled
    have hoptions : literalOptions (fields.beside literalKeys).entries = .ok a.options := by
      refine written.literalOptions made.2 ?_ ?_
      · rw [Fields.valueUnder?_entries, fields.lookup_beside (by decide)]
        exact literal_lookup written shows plain (by simp)
      · rw [Fields.valueUnder?_entries, fields.lookup_beside (by decide)]
        exact literal_lookup written shows plain (by simp)
    refine ⟨fields.beside reservedKeys, literal_extras written shows plain, ?_⟩
    unfold Argument.declared
    dsimp only
    rw [Fields.namedEntries_entries, Fields.otherEntries_entries, literal_dest keyed told]
    dsimp only
    rw [hoptions, Fields.otherEntries_entries, Fields.beside_beside]
    refine Settled.ofFields ⟨settled.dest, settled.name, settled.type, settled.help⟩ ?_
      (literal_read told)
    have known : ∀ name ∈ ["dest", "options", "extras"] ++ literalKeys, name ∈ fieldNames := by
      decide
    apply List.all_eq_true.2
    intro field mem
    refine List.contains_iff_mem.2 (known field.1 ?_)
    rcases List.mem_append.1 mem with mem | mem
    · exact List.mem_append_left _ (List.mem_map_of_mem (f := Prod.fst) mem)
    · exact List.mem_append_right _ (Fields.mem_among.1 mem).2

end Argument

end CommandGrammar
