import CommandGrammar.Schema.Declaration
import Mathlib.Data.List.Nodup
import Mathlib.Data.List.Pairwise

/-!
# Built schemas

A schema cannot be had but by making it of arguments, flags and schemas that were made before.
`Schema.Built` says that a schema was made so, down to its leaves. Whatever is declared or drafted
is built, and a schema that is built has distinct codes and distinct words on each level.
-/

namespace CommandGrammar

theorem bind_eq_ok {α β : Type} {x : Except Refusal α} {f : α → Except Refusal β} {b : β} :
    x >>= f = .ok b ↔ ∃ a, x = .ok a ∧ f a = .ok b := by
  cases x with
  | error r => simp [bind, Except.bind]
  | ok a => simp [bind, Except.bind]

theorem map_eq_ok {α β : Type} {f : α → β} {x : Except Refusal α} {b : β} :
    f <$> x = .ok b ↔ ∃ a, x = .ok a ∧ f a = b := by
  cases x with
  | error refusal => exact ⟨fun ok => (nomatch ok), fun ⟨_, ok, _⟩ => (nomatch ok)⟩
  | ok a => simp [Functor.map, Except.map]

/-- Items are read one after the other as what they are written for, if each is read so. -/
theorem mapM_eq_ok_iff {α : Type} {f : Value → Except Refusal α} {g : α → Value}
    (reads : ∀ v x, f v = .ok x ↔ v = g x) {items : List Value} {xs : List α} :
    items.mapM f = .ok xs ↔ items = xs.map g := by
  induction items generalizing xs with
  | nil => cases xs <;> simp [pure, Except.pure]
  | cons item rest ih =>
    simp only [List.mapM_cons, bind_eq_ok, reads, ih]
    cases xs with
    | nil => simp [pure, Except.pure]
    | cons x others =>
      constructor
      · rintro ⟨y, rfl, ys, rfl, same⟩
        cases same
        rfl
      · intro same
        cases same
        exact ⟨x, rfl, others, rfl, rfl⟩

/-- Where lists have no item in common, an item tells whose list it is in. -/
theorem eq_of_nodup_flatMap {α β : Type} {f : α → List β} {xs : List α} {a b : α} {y : β}
    (distinct : (xs.flatMap f).Nodup) (ha : a ∈ xs) (hb : b ∈ xs) (hya : y ∈ f a)
    (hyb : y ∈ f b) : a = b := by
  have disjoint := (List.nodup_flatMap.1 distinct).2
  have symmetric : Std.Symm (Function.onFun List.Disjoint f) :=
    ⟨fun _ _ h _ hm hn => h hn hm⟩
  by_contra apart
  exact disjoint.forall ha hb apart hya hyb

namespace Schema

theorem Children.check_eq_ok {c : Children} (ok : c.check = .ok ()) :
    c.codes.Nodup ∧ c.words.Nodup := by
  unfold check at ok
  split at ok
  · cases ok
  · cases ok
  · rename_i hcodes hwords
    exact ⟨(firstRepeated_eq_none_iff.1 hcodes).1, (firstRepeated_eq_none_iff.1 hwords).1⟩

theorem Children.check_of_nodup {c : Children} (codes : c.codes.Nodup) (words : c.words.Nodup) :
    c.check = .ok () := by
  have hcodes : firstRepeated [] c.codes = none :=
    firstRepeated_eq_none_iff.2 ⟨codes, fun _ _ => List.not_mem_nil⟩
  have hwords : firstRepeated [] c.words = none :=
    firstRepeated_eq_none_iff.2 ⟨words, fun _ _ => List.not_mem_nil⟩
  rw [check, hcodes, hwords]
  rfl

/-- A schema that is made has the children that it was made of. Their codes are distinct, and so
are their words. -/
theorem make_eq_ok {name dest aliases help : Value} {children : Except Refusal Children}
    {n : Schema Value} (ok : make name dest aliases help children = .ok n) :
    children = .ok ⟨n.args, n.flags, n.subcommands⟩ ∧ (n.flags.flatMap Flag.codes).Nodup ∧
      (n.subcommands.flatMap words).Nodup := by
  unfold make at ok
  simp only [bind_eq_ok] at ok
  obtain ⟨_, -, _, -, _, -, _, -, c, rfl, ⟨⟩, hcheck, hn⟩ := ok
  cases hn
  exact ⟨rfl, Children.check_eq_ok hcheck⟩

/-- Schemas that are made, of arguments, flags and schemas that are built themselves. -/
inductive Built : Schema Value → Prop
  | make {name dest aliases help : Value} {children : Children} {n : Schema Value}
      (subs : ∀ sub ∈ children.subcommands, Built sub)
      (ok : Schema.make name dest aliases help (.ok children) = .ok n) : Built n

namespace Built

variable {n : Schema Value}

theorem sub (h : n.Built) : ∀ sub ∈ n.subcommands, sub.Built := by
  cases h with
  | make subs ok =>
    obtain ⟨hchildren, -⟩ := make_eq_ok ok
    cases hchildren
    exact subs

theorem codes_nodup (h : n.Built) : (n.flags.flatMap Flag.codes).Nodup := by
  cases h with
  | make subs ok => exact (make_eq_ok ok).2.1

theorem words_nodup (h : n.Built) : (n.subcommands.flatMap words).Nodup := by
  cases h with
  | make subs ok => exact (make_eq_ok ok).2.2

theorem of_make {name dest aliases help : Value} {children : Except Refusal Children}
    (subs : ∀ c, children = .ok c → ∀ sub ∈ c.subcommands, sub.Built)
    (ok : Schema.make name dest aliases help children = .ok n) : n.Built := by
  obtain ⟨rfl, -⟩ := make_eq_ok ok
  exact .make (subs _ rfl) ok

/-- A schema can be made with other flags and sub-commands, if the sub-commands are built and the
codes and the words are distinct. -/
theorem withChildren {flags : List (Flag Value)} {subs : List (Schema Value)} (h : n.Built)
    (codes : (flags.flatMap Flag.codes).Nodup) (built : ∀ sub ∈ subs, sub.Built)
    (distinct : (subs.flatMap words).Nodup) :
    Schema.Built { n with flags, subcommands := subs } := by
  cases h with
  | @make name dest aliases help children n _ ok =>
    unfold Schema.make at ok
    simp only [bind_eq_ok] at ok
    obtain ⟨name', hname, aliases', haliases, dest', hdest, help', hhelp, _, ⟨⟩, _, -, hn⟩ := ok
    cases hn
    have check : Children.check ⟨children.args, flags, subs⟩ = .ok () :=
      Children.check_of_nodup codes distinct
    refine @Built.make name dest aliases help ⟨children.args, flags, subs⟩ _ built ?_
    unfold Schema.make
    simp only [bind_eq_ok]
    exact ⟨name', hname, aliases', haliases, dest', hdest, help', hhelp, _, rfl, (), check, rfl⟩

/-- A schema can be made with other sub-commands that are built and have distinct words. -/
theorem withSubcommands {subs : List (Schema Value)} (h : n.Built)
    (built : ∀ sub ∈ subs, sub.Built) (distinct : (subs.flatMap words).Nodup) :
    Schema.Built { n with subcommands := subs } :=
  h.withChildren h.codes_nodup built distinct

end Built

end Schema

/-! ## What is declared or drafted is built -/

/-- The schemas that a value holds as they are. -/
inductive Value.Holds : Value → Schema Value → Prop
  | schema (n : Schema Value) : Holds (.schema n) n
  | list {items : List Value} {v : Value} {n : Schema Value} (mem : v ∈ items) (h : Holds v n) :
      Holds (.list items) n
  | tuple {items : List Value} {v : Value} {n : Schema Value} (mem : v ∈ items) (h : Holds v n) :
      Holds (.tuple items) n
  | key {entries : List (Value × Value)} {e : Value × Value} {n : Schema Value}
      (mem : e ∈ entries) (h : Holds e.1 n) : Holds (.dict entries) n
  | entry {entries : List (Value × Value)} {e : Value × Value} {n : Schema Value}
      (mem : e ∈ entries) (h : Holds e.2 n) : Holds (.dict entries) n

/-- All schemas that a value holds are built. -/
def Value.Built (v : Value) : Prop := ∀ n, v.Holds n → n.Built

theorem Value.holds_of_mem_items? {v : Value} {items : List Value} {n : Schema Value}
    (hitems : v.items? = some items) (mem : .schema n ∈ items) : v.Holds n := by
  unfold items? at hitems
  split at hitems
  · cases hitems
    exact .list mem (.schema n)
  · cases hitems
    exact .tuple mem (.schema n)
  · cases hitems
    rename_i o
    cases o <;> simp [optionFields] at mem
  · cases hitems
    simp [tokenFields] at mem
  · cases hitems

theorem Value.asSchemas_eq_ok_iff {v : Value} {subs : List (Schema Value)} :
    v.asSchemas = .ok subs ↔ v.items? = some (subs.map .schema) := by
  unfold asSchemas
  cases v.items? with
  | none => exact ⟨fun ok => (nomatch ok), fun same => (nomatch same)⟩
  | some items =>
    rw [Option.some_inj]
    refine mapM_eq_ok_iff fun v n => ?_
    cases v with
    | schema m => simp [pure, Except.pure]
    | _ => exact ⟨fun ok => (nomatch ok), fun same => (nomatch same)⟩

/-- Items that are all schemas are held by the value that they come from. -/
theorem Value.asSchemas_eq_ok {v : Value} {subs : List (Schema Value)}
    (ok : v.asSchemas = .ok subs) : ∀ sub ∈ subs, v.Holds sub := by
  intro sub hsub
  exact holds_of_mem_items? (asSchemas_eq_ok_iff.1 ok) (List.mem_map_of_mem hsub)

namespace Schema

theorem ofFields_built {fields : Fields} {n : Schema Value}
    (held : ∀ field ∈ fields, field.2.Built) (ok : ofFields fields = .ok n) : n.Built := by
  unfold ofFields at ok
  dsimp only at ok
  split at ok
  rotate_left
  · cases ok
  refine .of_make ?_ ok
  intro c hc sub hsub
  obtain ⟨args, -, hc⟩ := bind_eq_ok.1 hc
  obtain ⟨flags, -, hc⟩ := bind_eq_ok.1 hc
  obtain ⟨subs, hsubs, hc⟩ := bind_eq_ok.1 hc
  cases hc
  have hholds := Value.asSchemas_eq_ok hsubs sub hsub
  unfold Fields.getD at hholds
  cases hlookup : fields.lookup "subcommands" with
  | none =>
    rw [hlookup] at hholds
    cases hholds with
    | tuple mem h => exact absurd mem List.not_mem_nil
  | some v =>
    rw [hlookup] at hholds
    obtain ⟨before, after, hfields, -⟩ := List.lookup_eq_some_iff.1 hlookup
    have hmem : ("subcommands", v) ∈ fields := by
      rw [hfields]
      exact List.mem_append_right _ List.mem_cons_self
    exact held _ hmem sub hholds

/-- The fields of a schema hold no schemas but its sub-commands. -/
theorem Built.fields {n : Schema Value} (h : n.Built) : ∀ field ∈ n.fields, field.2.Built := by
  have text : ∀ s, (Value.ofText s).Built := by
    intro s m hm
    cases s with
    | none => cases hm
    | some s => cases hm
  have items : ∀ {α : Type} (f : α → Value) (xs : List α), (∀ x ∈ xs, (f x).Built) →
      (Value.tuple (xs.map f)).Built := by
    intro α f xs hf m hm
    cases hm with
    | tuple mem h =>
      obtain ⟨x, hx, rfl⟩ := List.mem_map.1 mem
      exact hf x hx m h
  simp only [Schema.fields, List.forall_mem_cons]
  refine ⟨text _, ?_, items _ _ ?_, text _, items _ _ ?_, items _ _ ?_, items _ _ ?_, ?_⟩
  · intro m hm
    cases hm
  · intro s _ m hm
    cases hm
  · intro a _ m hm
    cases hm
  · intro f _ m hm
    cases hm
  · intro sub hsub m hm
    cases hm with
    | schema => exact h.sub sub hsub
  · exact List.forall_mem_nil _

/-- A schema with some fields replaced is built if the schemas among the new fields are. -/
theorem replace_built {n m : Schema Value} {overrides : Fields} (h : n.Built)
    (held : ∀ field ∈ overrides, field.2.Built) (ok : n.replace overrides = .ok m) : m.Built := by
  refine ofFields_built ?_ ok
  intro field hmem
  rcases List.mem_append.1 hmem with hmem | hmem
  · exact held field hmem
  · exact h.fields field hmem

end Schema

mutual

/-- What a draft describes is built. -/
theorem CommandDraft.complete_built {d : CommandDraft Value} {n : Schema Value}
    (ok : d.complete = .ok n) : n.Built := by
  obtain ⟨name, dest, aliases, help, args, flags, subs⟩ := d
  rw [complete] at ok
  obtain ⟨flags, -, ok⟩ := bind_eq_ok.1 ok
  obtain ⟨subs, hsubs, ok⟩ := bind_eq_ok.1 ok
  exact .make (completeAll_built hsubs) ok

theorem CommandDraft.completeAll_built {ds : List (CommandDraft Value)}
    {subs : List (Schema Value)} (ok : CommandDraft.completeAll ds = .ok subs) :
    ∀ sub ∈ subs, sub.Built := by
  cases ds with
  | nil =>
    rw [completeAll] at ok
    cases ok
    exact List.forall_mem_nil _
  | cons d rest =>
    rw [completeAll] at ok
    obtain ⟨first, hfirst, ok⟩ := bind_eq_ok.1 ok
    obtain ⟨others, hothers, ok⟩ := bind_eq_ok.1 ok
    cases ok
    exact List.forall_mem_cons.2 ⟨complete_built hfirst, completeAll_built hothers⟩

end

namespace Schema

mutual

/-- What a value declares is built if the schemas that it holds are. -/
theorem declared_built {v : Value} {n : Schema Value} (held : v.Built) (ok : declared v = .ok n) :
    n.Built := by
  match v with
  | .schema m =>
    rw [declared] at ok
    exact replace_built (held m (.schema m)) (List.forall_mem_nil _) ok
  | .draft d =>
    rw [declared] at ok
    exact CommandDraft.complete_built ok
  | .dict entries =>
    rw [declared] at ok
    obtain ⟨-, -, ok⟩ := bind_eq_ok.1 ok
    obtain ⟨args, -, ok⟩ := bind_eq_ok.1 ok
    obtain ⟨flags, -, ok⟩ := bind_eq_ok.1 ok
    obtain ⟨subs, hsubs, ok⟩ := bind_eq_ok.1 ok
    have heldEntries : ∀ e ∈ entries, e.2.Built := by
      intro e he m hm
      exact held m (.entry he hm)
    exact .make (declaredUnder_built heldEntries hsubs) ok
  | .null | .unset | .bool _ | .int _ | .real _ | .str _ | .list _ | .tuple _ | .callable _
  | .options _ | .token _ | .argument _ | .flag _ | .flagDraft _ => cases ok

theorem declaredUnder_built {entries : List (Value × Value)} {subs : List (Schema Value)}
    (held : ∀ e ∈ entries, e.2.Built) (ok : declaredUnder entries = .ok subs) :
    ∀ sub ∈ subs, sub.Built := by
  match entries with
  | [] =>
    rw [declaredUnder] at ok
    cases ok
    exact List.forall_mem_nil _
  | (key, v) :: rest =>
    obtain ⟨hv, hrest⟩ := List.forall_mem_cons.1 held
    rw [declaredUnder] at ok
    split at ok
    · exact declaredIn_built hv ok
    · exact declaredUnder_built hrest ok

theorem declaredIn_built {v : Value} {subs : List (Schema Value)} (held : v.Built)
    (ok : declaredIn v = .ok subs) : ∀ sub ∈ subs, sub.Built := by
  match v with
  | .list items => exact declaredAll_built (fun item h m hm => held m (.list h hm)) ok
  | .tuple items => exact declaredAll_built (fun item h m hm => held m (.tuple h hm)) ok
  | .dict entries => exact declaredKeys_built (fun e h m hm => held m (.key h hm)) ok
  | .null | .unset | .bool _ | .int _ | .real _ | .str _ | .callable _
  | .options _ | .token _ | .argument _ | .flag _ | .schema _ | .draft _ | .flagDraft _ =>
    unfold declaredIn at ok
    obtain ⟨items, -, ok⟩ := bind_eq_ok.1 ok
    split at ok
    · cases ok
      exact List.forall_mem_nil _
    · cases ok

theorem declaredAll_built {items : List Value} {subs : List (Schema Value)}
    (held : ∀ item ∈ items, item.Built) (ok : declaredAll items = .ok subs) :
    ∀ sub ∈ subs, sub.Built := by
  match items with
  | [] =>
    rw [declaredAll] at ok
    cases ok
    exact List.forall_mem_nil _
  | v :: rest =>
    obtain ⟨hv, hrest⟩ := List.forall_mem_cons.1 held
    rw [declaredAll] at ok
    obtain ⟨first, hfirst, ok⟩ := bind_eq_ok.1 ok
    obtain ⟨others, hothers, ok⟩ := bind_eq_ok.1 ok
    cases ok
    exact List.forall_mem_cons.2 ⟨declared_built hv hfirst, declaredAll_built hrest hothers⟩

theorem declaredKeys_built {entries : List (Value × Value)} {subs : List (Schema Value)}
    (held : ∀ e ∈ entries, e.1.Built) (ok : declaredKeys entries = .ok subs) :
    ∀ sub ∈ subs, sub.Built := by
  match entries with
  | [] =>
    rw [declaredKeys] at ok
    cases ok
    exact List.forall_mem_nil _
  | (key, _) :: rest =>
    obtain ⟨hkey, hrest⟩ := List.forall_mem_cons.1 held
    rw [declaredKeys] at ok
    obtain ⟨first, hfirst, ok⟩ := bind_eq_ok.1 ok
    obtain ⟨others, hothers, ok⟩ := bind_eq_ok.1 ok
    cases ok
    exact List.forall_mem_cons.2 ⟨declared_built hkey hfirst, declaredKeys_built hrest hothers⟩

end

end Schema

end CommandGrammar
