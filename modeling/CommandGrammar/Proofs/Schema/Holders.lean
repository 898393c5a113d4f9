import CommandGrammar.Proofs.Parse.Trail
import CommandGrammar.Proofs.Schema.Built
import Mathlib.Data.List.Nodup

/-!
# What the keys stand for

A key of a result stands for a command, for an argument or for a flag of the schema. Where all
keys of a schema are distinct, a key tells what it stands for (`Schema.Distinct.eq_of_dest`).
-/

namespace CommandGrammar

/-- Something that a schema declares and that has a key. -/
inductive Holder
  | command (dest : String)
  | argument (a : Argument Value)
  | flag (f : Flag Value)

/-- The key. -/
def Holder.dest : Holder → String
  | .command dest => dest
  | .argument a => a.dest
  | .flag f => f.dest

def Flag.holders (f : Flag Value) : List Holder := .flag f :: f.args.map .argument

namespace Schema

mutual

/-- All that a schema declares, down to its leaves. -/
def holders : Schema Value → List Holder
  | ⟨_, dest, _, _, args, flags, subs⟩ =>
    .command dest :: (args.map .argument ++ flags.flatMap Flag.holders ++ holdersAll subs)

def holdersAll : List (Schema Value) → List Holder
  | [] => []
  | n :: rest => n.holders ++ holdersAll rest

end

/-- All keys of the schema are distinct. -/
def Distinct (n : Schema Value) : Prop := (n.holders.map Holder.dest).Nodup

instance (n : Schema Value) : Decidable n.Distinct :=
  inferInstanceAs (Decidable (n.holders.map Holder.dest).Nodup)

variable {n m sub : Schema Value} {subs : List (Schema Value)}

theorem holders_subset_holdersAll (mem : sub ∈ subs) : sub.holders ⊆ holdersAll subs := by
  induction subs with
  | nil => exact absurd mem List.not_mem_nil
  | cons first rest ih =>
    rw [holdersAll]
    rcases List.mem_cons.1 mem with rfl | mem
    · exact List.subset_append_left _ _
    · exact List.Subset.trans (ih mem) (List.subset_append_right _ _)

theorem holders_eq (n : Schema Value) :
    n.holders = .command n.dest ::
      (n.args.map .argument ++ n.flags.flatMap Flag.holders ++ holdersAll n.subcommands) := by
  cases n
  rw [holders]

theorem Reaches.holders (reaches : n.Reaches m) : m.holders ⊆ n.holders := by
  induction reaches with
  | refl => exact List.Subset.refl _
  | @down n sub _ mem _ ih =>
    have below := List.Subset.trans ih (holders_subset_holdersAll mem)
    rw [n.holders_eq]
    apply List.subset_cons_of_subset
    exact List.Subset.trans below (List.subset_append_right _ _)

theorem Reaches.command (reaches : n.Reaches m) : .command m.dest ∈ n.holders := by
  apply reaches.holders
  rw [m.holders_eq]
  exact List.mem_cons_self

theorem Reaches.flag (reaches : n.Reaches m) {f : Flag Value} (mem : f ∈ m.flags) :
    .flag f ∈ n.holders := by
  have here : Holder.flag f ∈ m.flags.flatMap Flag.holders :=
    List.mem_flatMap.2 ⟨f, mem, List.mem_cons_self⟩
  apply reaches.holders
  rw [m.holders_eq]
  exact List.mem_cons_of_mem _ (List.mem_append_left _ (List.mem_append_right _ here))

theorem Reaches.argument (reaches : n.Reaches m) {owner : Option (Flag Value)}
    {a : Argument Value} (owns : m.Owns owner a) : .argument a ∈ n.holders := by
  apply reaches.holders
  rw [m.holders_eq]
  apply List.mem_cons_of_mem
  apply List.mem_append_left
  cases owner with
  | none => exact List.mem_append_left _ (List.mem_map_of_mem owns)
  | some f =>
    have here : Holder.argument a ∈ f.holders :=
      List.mem_cons_of_mem _ (List.mem_map_of_mem owns.2)
    exact List.mem_append_right _ (List.mem_flatMap.2 ⟨f, owns.1, here⟩)

theorem mem_holdersAll {h : Holder} : h ∈ holdersAll subs ↔ ∃ sub ∈ subs, h ∈ sub.holders := by
  induction subs with
  | nil => simp [holdersAll]
  | cons first rest ih => simp [holdersAll, ih]

/-- The arguments of a schema are its own, those of its flags and those of its sub-commands. -/
theorem argument_mem_holders {a : Argument Value} : .argument a ∈ n.holders ↔
    a ∈ n.args ∨ (∃ f ∈ n.flags, a ∈ f.args) ∨
      ∃ sub ∈ n.subcommands, .argument a ∈ sub.holders := by
  rw [n.holders_eq]
  simp [Flag.holders, mem_holdersAll]

/-- Where the keys are distinct, a key tells what it stands for. -/
theorem Distinct.eq_of_dest (distinct : n.Distinct) {h h' : Holder} (mem : h ∈ n.holders)
    (mem' : h' ∈ n.holders) (same : h.dest = h'.dest) : h = h' :=
  List.inj_on_of_nodup_map distinct mem mem' same

/-- Where the keys are distinct, those of a flag and of its arguments are no other argument's. -/
theorem Distinct.args_apart (distinct : n.Distinct) {a : Argument Value} {f : Flag Value}
    (mem : a ∈ n.args) (mem' : f ∈ n.flags) : a.dest ∉ f.holders.map Holder.dest := by
  intro shared
  rw [Distinct, n.holders_eq, List.map_cons, List.nodup_cons, List.map_append,
    List.map_append] at distinct
  have disjoint := (List.nodup_append'.1 (List.nodup_append'.1 distinct.2).1).2.2
  obtain ⟨h, owned, same⟩ := List.mem_map.1 shared
  refine disjoint (List.mem_map_of_mem (List.mem_map_of_mem mem)) ?_
  exact List.mem_map.2 ⟨h, List.mem_flatMap.2 ⟨f, mem', owned⟩, same⟩

/-- Where the keys are distinct, those of a flag and of its arguments are no other flag's. -/
theorem Distinct.flag_eq (distinct : n.Distinct) {f g : Flag Value} (mem : f ∈ n.flags)
    (mem' : g ∈ n.flags) {key : String} (shared : key ∈ f.holders.map Holder.dest)
    (shared' : key ∈ g.holders.map Holder.dest) : f = g := by
  rw [Distinct, n.holders_eq, List.map_cons, List.nodup_cons, List.map_append,
    List.map_append] at distinct
  have nodup := (List.nodup_append'.1 (List.nodup_append'.1 distinct.2).1).2.1
  rw [List.map_flatMap] at nodup
  exact eq_of_nodup_flatMap nodup mem mem' shared shared'

end Schema

end CommandGrammar
