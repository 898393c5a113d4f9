import CommandGrammar.Proofs.Schema.Given
import CommandGrammar.Proofs.Parse.Descent

/-!
# Schemas step by step

A schema is put together from its bare name by steps in any order: each step adds aliases, a help
text, an argument, a flag or a sub-command, and the last help text counts (`Schema.Builds`). Draft
and schema go together from step to step (`CommandDraft.Describes`), so the draft of a schema that
can be made is completed to this schema (`Schema.Builds.complete`).
-/

namespace CommandGrammar

/-! ## Flags -/

/-- Steps of a draft that add to one flag what another one has. -/
inductive Flag.Builds : Flag Value → List FlagStep → Flag Value → Prop
  | done (f : Flag Value) : Builds f [] f
  | setHelp {f g : Flag Value} {steps : List FlagStep} (help : Option String)
      (h : Builds { f with help } steps g) : Builds f (.setHelp (.ofText help) :: steps) g
  | addArgument {f g : Flag Value} {steps : List FlagStep} {a : Argument Value} {fields : Fields}
      (shows : fields.Shows a.fields a.stepDefaults)
      (h : Builds { f with args := f.args ++ [a] } steps g) :
      Builds f (.addArgument fields :: steps) g

theorem Flag.Builds.args {f g : Flag Value} {steps : List FlagStep} (builds : f.Builds steps g) :
    f.args ⊆ g.args := by
  induction builds with
  | done f => exact List.Subset.refl _
  | setHelp help h ih => exact ih
  | addArgument shows h ih => exact List.Subset.trans (List.subset_append_left _ _) ih

/-- A draft that is completed to a flag, if the flag can be made. -/
structure FlagDraft.Describes (d : FlagDraft Value) (f : Flag Value) : Prop where
  long : d.long = .ofText f.long
  short : d.short = .ofText (f.short.map (·.toString))
  dest : (Value.str f.dest).Given (f.dest = f.code) d.dest
  help : (Value.ofText f.help).Given (f.help = none) d.help
  args : d.args = f.args

theorem FlagDraft.Describes.complete {d : FlagDraft Value} {f : Flag Value}
    (describes : d.Describes f) (settled : f.Settled) : d.complete = .ok f := by
  rw [FlagDraft.complete, describes.long, describes.short, describes.args]
  exact settled.make f.args describes.dest describes.help

/-- Draft and flag go together through the steps. -/
theorem Flag.Builds.applyAll {f g : Flag Value} {steps : List FlagStep} {d : FlagDraft Value}
    (builds : f.Builds steps g) (made : ∀ a ∈ g.args, a.Made) (describes : d.Describes f) :
    ∃ e, d.applyAll steps = .ok e ∧ e.Describes g := by
  induction builds generalizing d with
  | done f => exact ⟨d, rfl, describes⟩
  | @setHelp f g steps help h ih =>
    have next : FlagDraft.Describes { d with help := .ofText help } { f with help } :=
      ⟨describes.long, describes.short, describes.dest, .said, describes.args⟩
    exact ih made next
  | @addArgument f g steps a fields shows h ih =>
    have mem : a ∈ g.args := h.args (List.mem_append_right _ List.mem_cons_self)
    have ok := (made a mem).settled.ofFields_of_shows shows
    have next : FlagDraft.Describes { d with args := d.args ++ [a] }
        { f with args := f.args ++ [a] } :=
      ⟨describes.long, describes.short, describes.dest, describes.help, by rw [describes.args]⟩
    obtain ⟨e, he, described⟩ := ih made next
    refine ⟨e, ?_, described⟩
    rw [FlagDraft.applyAll, List.foldlM_cons]
    show (((Argument.ofFields fields) >>= fun a => _) >>= fun d => _) = _
    rw [ok]
    exact he

/-! ## Schemas -/

namespace Schema

/-- A schema without anything but its name and its key. -/
def bare (n : Schema Value) : Schema Value :=
  { n with aliases := [], help := none, args := [], flags := [], subcommands := [] }

/-- Steps of a draft that add to one schema what another one has. -/
inductive Builds : Schema Value → List CommandStep → Schema Value → Prop
  | done (n : Schema Value) : Builds n [] n
  | addAlias {n m : Schema Value} {steps : List CommandStep} (words : List String)
      (h : Builds { n with aliases := n.aliases ++ words } steps m) :
      Builds n (.addAlias (words.map .str) :: steps) m
  | setHelp {n m : Schema Value} {steps : List CommandStep} (help : Option String)
      (h : Builds { n with help } steps m) : Builds n (.setHelp (.ofText help) :: steps) m
  | addArgument {n m : Schema Value} {steps : List CommandStep} {a : Argument Value}
      {fields : Fields} (shows : fields.Shows a.fields a.stepDefaults)
      (h : Builds { n with args := n.args ++ [a] } steps m) :
      Builds n (.addArgument fields :: steps) m
  | addFlag {n m : Schema Value} {steps : List CommandStep} {f : Flag Value}
      {first : Option String} {dest help : Value} {flagSteps : List FlagStep}
      (hdest : (Value.str f.dest).Given (f.dest = f.code) dest)
      (hhelp : (Value.ofText first).Given (first = none) help)
      (inner : Flag.Builds { f with help := first, args := [] } flagSteps f)
      (h : Builds { n with flags := n.flags ++ [f] } steps m) :
      Builds n (.addFlag (.ofText f.long) (.ofText (f.short.map (·.toString))) dest help
        flagSteps :: steps) m
  | addSubcommand {n m sub : Schema Value} {steps subSteps : List CommandStep} {dest : Value}
      (hdest : (Value.str sub.dest).Given (sub.name = some sub.dest) dest)
      (inner : Builds sub.bare subSteps sub)
      (h : Builds { n with subcommands := n.subcommands ++ [sub] } steps m) :
      Builds n (.addSubcommand (.ofText sub.name) dest subSteps :: steps) m

variable {n m : Schema Value} {steps : List CommandStep}

/-- What has been added stays. -/
theorem Builds.subset (builds : n.Builds steps m) :
    n.args ⊆ m.args ∧ n.flags ⊆ m.flags ∧ n.subcommands ⊆ m.subcommands := by
  induction builds with
  | done n => exact ⟨List.Subset.refl _, List.Subset.refl _, List.Subset.refl _⟩
  | addAlias words h ih => exact ih
  | setHelp help h ih => exact ih
  | addArgument shows h ih =>
    exact ⟨List.Subset.trans (List.subset_append_left _ _) ih.1, ih.2⟩
  | addFlag hdest hhelp inner h ih =>
    exact ⟨ih.1, List.Subset.trans (List.subset_append_left _ _) ih.2.1, ih.2.2⟩
  | addSubcommand hdest inner h _ ih =>
    exact ⟨ih.1, ih.2.1, List.Subset.trans (List.subset_append_left _ _) ih.2.2⟩

end Schema

/-- A draft that is completed to a schema, if the schema can be made. -/
structure CommandDraft.Describes (d : CommandDraft Value) (n : Schema Value) : Prop where
  name : d.name = .ofText n.name
  dest : (Value.str n.dest).Given (n.name = some n.dest) d.dest
  aliases : d.aliases = n.aliases.map .str
  help : (Value.ofText n.help).Given (n.help = none) d.help
  args : d.args = n.args
  flags : d.flags.mapM FlagDraft.complete = .ok n.flags
  subcommands : CommandDraft.completeAll d.subcommands = .ok n.subcommands

namespace CommandDraft

theorem start_describes (n : Schema Value) {dest : Value}
    (hdest : (Value.str n.dest).Given (n.name = some n.dest) dest) :
    (start (.ofText n.name) dest).Describes n.bare :=
  ⟨rfl, hdest, rfl, .unsaid rfl, rfl, rfl, rfl⟩

theorem completeAll_eq (ds : List (CommandDraft Value)) : completeAll ds = ds.mapM complete := by
  induction ds with
  | nil => rfl
  | cons d rest ih => rw [completeAll, List.mapM_cons, ih]

theorem Describes.complete {d : CommandDraft Value} {n : Schema Value} (describes : d.Describes n)
    (settled : n.Settled) : d.complete = .ok n := by
  obtain ⟨name, dest, aliases, help, args, flags, subs⟩ := d
  obtain ⟨rfl, hdest, rfl, hhelp, rfl, hflags, hsubs⟩ := describes
  rw [CommandDraft.complete]
  simp only [bind_eq_ok]
  have items : (Value.list (n.aliases.map .str)).items? = some (n.aliases.map .str) := rfl
  have made := settled.make hdest items hhelp settled.check
  -- Only a schema that is taken apart is the record of its fields by definition.
  cases n
  exact ⟨_, hflags, _, hsubs, made⟩

end CommandDraft

/-- Items that are all read are read with one more. -/
theorem mapM_append_singleton {α β : Type} {f : α → Except Refusal β} {xs : List α} {ys : List β}
    {x : α} {y : β} (hxs : xs.mapM f = .ok ys) (hx : f x = .ok y) :
    (xs ++ [x]).mapM f = .ok (ys ++ [y]) := by
  rw [List.mapM_append, hxs]
  show ([x].mapM f >>= fun ys' => _) = _
  rw [List.mapM_cons, hx]
  rfl

namespace Schema

variable {n m : Schema Value} {steps : List CommandStep}

/-- Draft and schema go together through the steps. A step that adds an argument, a flag or a
sub-command is accepted because the part can be made, being part of the whole in the end. -/
theorem Builds.applyAll (builds : n.Builds steps m) (made : m.Made) {d : CommandDraft Value}
    (describes : d.Describes n) : ∃ e, d.applyAll steps = .ok e ∧ e.Describes m := by
  induction builds generalizing d with
  | done n => exact ⟨d, rfl, describes⟩
  | @addAlias n m steps words h ih =>
    have next : CommandDraft.Describes { d with aliases := d.aliases ++ words.map .str }
        { n with aliases := n.aliases ++ words } := by
      refine { describes with aliases := ?_ }
      rw [describes.aliases, List.map_append]
    exact ih made next
  | @setHelp n m steps help h ih =>
    have next : CommandDraft.Describes { d with help := .ofText help } { n with help } :=
      { describes with help := .said }
    exact ih made next
  | @addArgument n m steps a fields shows h ih =>
    have mem : a ∈ m.args := h.subset.1 (List.mem_append_right _ List.mem_cons_self)
    have ok := (made.args a mem).settled.ofFields_of_shows shows
    have next : CommandDraft.Describes { d with args := d.args ++ [a] }
        { n with args := n.args ++ [a] } := by
      refine { describes with args := ?_ }
      rw [describes.args]
    obtain ⟨e, he, described⟩ := ih made next
    refine ⟨e, ?_, described⟩
    rw [CommandDraft.applyAll, CommandDraft.apply, ok]
    exact he
  | @addFlag n m steps f first dest help flagSteps hdest hhelp inner h ih =>
    have mem : f ∈ m.flags := h.subset.2.1 (List.mem_append_right _ List.mem_cons_self)
    have hmade := made.flags f mem
    have started : FlagDraft.Describes (.start (.ofText f.long)
        (.ofText (f.short.map (·.toString))) dest help) { f with help := first, args := [] } :=
      ⟨rfl, rfl, hdest, hhelp, rfl⟩
    obtain ⟨fd, hfd, flagDescribed⟩ := inner.applyAll hmade.args started
    have next : CommandDraft.Describes { d with flags := d.flags ++ [fd] }
        { n with flags := n.flags ++ [f] } :=
      { describes with
        flags := mapM_append_singleton describes.flags (flagDescribed.complete hmade.settled) }
    obtain ⟨e, he, described⟩ := ih made next
    refine ⟨e, ?_, described⟩
    rw [CommandDraft.applyAll, CommandDraft.apply, hfd]
    exact he
  | @addSubcommand n m sub steps subSteps dest hdest inner h ihInner ih =>
    have mem : sub ∈ m.subcommands := h.subset.2.2 (List.mem_append_right _ List.mem_cons_self)
    have hmade := made.sub sub mem
    obtain ⟨sd, hsd, subDescribed⟩ := ihInner hmade (CommandDraft.start_describes sub hdest)
    have next : CommandDraft.Describes { d with subcommands := d.subcommands ++ [sd] }
        { n with subcommands := n.subcommands ++ [sub] } := by
      refine { describes with subcommands := ?_ }
      have hsubs := describes.subcommands
      rw [CommandDraft.completeAll_eq] at hsubs ⊢
      exact mapM_append_singleton hsubs (subDescribed.complete hmade.settled)
    obtain ⟨e, he, described⟩ := ih made next
    refine ⟨e, ?_, described⟩
    rw [CommandDraft.applyAll, CommandDraft.apply, hsd]
    exact he

/-- A draft that takes the steps of a schema from the start is completed to this schema. -/
theorem Builds.complete (builds : n.bare.Builds steps n) (made : n.Made) {dest : Value}
    (hdest : (Value.str n.dest).Given (n.name = some n.dest) dest) :
    ∃ d, (CommandDraft.start (.ofText n.name) dest).applyAll steps = .ok d ∧
      d.complete = .ok n := by
  obtain ⟨d, hd, described⟩ := builds.applyAll made (CommandDraft.start_describes n hdest)
  exact ⟨d, hd, described.complete made.settled⟩

end Schema

end CommandGrammar
