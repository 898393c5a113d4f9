import CommandGrammar.Proofs.Parse.Agreement
import CommandGrammar.Proofs.Schema.Built

/-!
# Ordered choice

The unnamed sub-commands are tried in order, each from the same state but for what was reported by
then. So a parse that succeeds does not change when the alternatives that it rejected are deleted
from its schema, and where all alternatives fail it is as if none but the first had been tried
(`ordered_choice`).
-/

namespace CommandGrammar.Parser

variable {p : Parser} {s t u : State}

/-! ## Deleting what a run rejects -/

mutual

/-- The schema without the unnamed sub-commands that a run of it tries and rejects, on each level
that the run is left with. -/
def pruned (p : Parser) (active : Bool) (s : State) : Schema Value → Schema Value
  | ⟨name, dest, aliases, help, args, flags, subcommands⟩ =>
    match p.level flags subcommands.isEmpty active args s with
    | .word token active t =>
      if subcommands.any (·.matches token.text) then
        ⟨name, dest, aliases, help, args, flags,
          p.prunedSelected dest token active t subcommands⟩
      else
        ⟨name, dest, aliases, help, args, flags, p.prunedAlternatives dest active t subcommands⟩
    | _ => ⟨name, dest, aliases, help, args, flags, subcommands⟩

/-- The sub-commands, the one that a word selects pruned. -/
def prunedSelected (p : Parser) (dest : String) (token : Token) (active : Bool) (s : State) :
    List (Schema Value) → List (Schema Value)
  | [] => []
  | sub :: rest =>
    if sub.matches token.text then
      let matched := Event.subcommandMatched dest sub.dest token.text
      p.pruned active (s.report [matched]).advance sub :: rest
    else sub :: p.prunedSelected dest token active s rest

/-- The sub-commands without the unnamed ones that are rejected, the accepted one pruned. -/
def prunedAlternatives (p : Parser) (dest : String) (active : Bool) (s : State) :
    List (Schema Value) → List (Schema Value)
  | [] => []
  | sub :: rest =>
    if sub.named then sub :: p.prunedAlternatives dest active s rest
    else
      match p.command active s.scratch sub with
      | .ok _ => p.pruned active s.scratch sub :: rest
      | .halt (.fault f) t =>
        let rejected := Event.alternativeRejected dest sub.dest f.message
        p.prunedAlternatives dest active (s.hearing (t.events ++ [rejected])) rest
      | .halt (.crash _) _ => sub :: rest

end

/-- What is left of the sub-commands where a run is left with a word. -/
def prunedSubcommands (p : Parser) (n : Schema Value) (token : Token) (active : Bool)
    (s : State) : List (Schema Value) :=
  if n.subcommands.any (·.matches token.text) then
    p.prunedSelected n.dest token active s n.subcommands
  else p.prunedAlternatives n.dest active s n.subcommands

theorem pruned_of_word {n : Schema Value} {token : Token} {active active' : Bool}
    (word : p.level n.flags n.subcommands.isEmpty active n.args s = .word token active' t) :
    p.pruned active s n = { n with subcommands := p.prunedSubcommands n token active' t } := by
  obtain ⟨name, dest, aliases, help, args, flags, subs⟩ := n
  rw [pruned, word]
  dsimp only [prunedSubcommands]
  split
  · rfl
  · rfl

theorem pruned_of_finished {n : Schema Value} {missing : List (Argument Value)} {active : Bool}
    (finished : p.level n.flags n.subcommands.isEmpty active n.args s = .finished missing t) :
    p.pruned active s n = n := by
  obtain ⟨name, dest, aliases, help, args, flags, subs⟩ := n
  rw [pruned, finished]

theorem pruned_of_halt {n : Schema Value} {h : Halt} {active : Bool}
    (halted : p.level n.flags n.subcommands.isEmpty active n.args s = .halt h t) :
    p.pruned active s n = n := by
  obtain ⟨name, dest, aliases, help, args, flags, subs⟩ := n
  rw [pruned, halted]

/-- Nothing but sub-commands is deleted. -/
theorem pruned_eq (p : Parser) (active : Bool) (s : State) (n : Schema Value) :
    ∃ subs, p.pruned active s n = { n with subcommands := subs } := by
  obtain ⟨name, dest, aliases, help, args, flags, subs⟩ := n
  rw [pruned]
  split
  · split
    · exact ⟨_, rfl⟩
    · exact ⟨_, rfl⟩
  · exact ⟨_, rfl⟩

theorem pruned_words (p : Parser) (active : Bool) (s : State) (n : Schema Value) :
    (p.pruned active s n).words = n.words := by
  obtain ⟨subs, h⟩ := pruned_eq p active s n
  rw [h]
  rfl

theorem pruned_matches (p : Parser) (active : Bool) (s : State) (n : Schema Value)
    (word : String) : (p.pruned active s n).matches word = n.matches word := by
  rw [Schema.matches, pruned_words, Schema.matches]

theorem pruned_named (p : Parser) (active : Bool) (s : State) (n : Schema Value) :
    (p.pruned active s n).named = n.named := by
  obtain ⟨subs, h⟩ := pruned_eq p active s n
  rw [h]
  rfl

theorem pruned_dest (p : Parser) (active : Bool) (s : State) (n : Schema Value) :
    (p.pruned active s n).dest = n.dest := by
  obtain ⟨subs, h⟩ := pruned_eq p active s n
  rw [h]

/-- A word selects what it selected before. -/
theorem find?_prunedSelected (dest : String) (token : Token) (active : Bool) (s : State)
    (subs : List (Schema Value)) :
    (p.prunedSelected dest token active s subs).find? (·.matches token.text) =
      (subs.find? (·.matches token.text)).map fun sub =>
        p.pruned active (s.report [.subcommandMatched dest sub.dest token.text]).advance sub := by
  induction subs with
  | nil => rfl
  | cons sub rest ih =>
    rw [prunedSelected, List.find?_cons]
    cases hmatches : sub.matches token.text with
    | true =>
      dsimp only
      rw [if_pos rfl, List.find?_cons_of_pos (by rw [pruned_matches, hmatches])]
      rfl
    | false =>
      dsimp only
      rw [if_neg Bool.false_ne_true, List.find?_cons_of_neg (by simp [hmatches]), ih]

/-- A word that selects no sub-command selects none that is left. -/
theorem matches_prunedAlternatives {dest word : String} {active : Bool}
    {subs : List (Schema Value)} (h : ∀ sub ∈ subs, sub.matches word = false) :
    ∀ sub ∈ p.prunedAlternatives dest active s subs, sub.matches word = false := by
  induction subs generalizing s with
  | nil => exact h
  | cons sub rest ih =>
    obtain ⟨hsub, hrest⟩ := List.forall_mem_cons.1 h
    rw [prunedAlternatives]
    split
    · exact List.forall_mem_cons.2 ⟨hsub, ih hrest⟩
    · split
      · exact List.forall_mem_cons.2 ⟨(pruned_matches _ _ _ _ _).trans hsub, hrest⟩
      · exact ih hrest
      · exact h

theorem prunedSubcommands_of_none {n : Schema Value} {token : Token} {active : Bool}
    (none : n.selected? token.text = none) :
    p.prunedSubcommands n token active s = p.prunedAlternatives n.dest active s n.subcommands := by
  rw [Schema.selected?, List.find?_eq_none] at none
  apply if_neg
  intro hany
  obtain ⟨sub, hmem, hmatches⟩ := List.any_eq_true.1 hany
  exact none sub hmem hmatches

/-- A word selects what it selected before, pruned. -/
theorem find?_prunedSubcommands (n : Schema Value) (token : Token) (active : Bool) (s : State) :
    (p.prunedSubcommands n token active s).find? (·.matches token.text) =
      (n.selected? token.text).map fun sub =>
        p.pruned active (s.report [.subcommandMatched n.dest sub.dest token.text]).advance sub := by
  cases hselected : n.selected? token.text with
  | none =>
    rw [prunedSubcommands_of_none hselected, Option.map_none, List.find?_eq_none]
    rw [Schema.selected?, List.find?_eq_none] at hselected
    intro sub hmem
    have unmatched : ∀ other ∈ n.subcommands, other.matches token.text = false := by
      intro other hmem
      exact eq_false_of_ne_true (hselected other hmem)
    rw [matches_prunedAlternatives unmatched sub hmem]
    exact Bool.false_ne_true
  | some sub =>
    have hany : n.subcommands.any (·.matches token.text) = true :=
      List.any_eq_true.2 ⟨sub, Schema.selected?_eq_some hselected⟩
    rw [prunedSubcommands, if_pos hany, find?_prunedSelected, ← hselected]
    rfl

/-! ### What is left is a schema that can be built -/

theorem words_prunedSelected (dest : String) (token : Token) (active : Bool) (s : State)
    (subs : List (Schema Value)) :
    (p.prunedSelected dest token active s subs).flatMap Schema.words =
      subs.flatMap Schema.words := by
  induction subs with
  | nil => rfl
  | cons sub rest ih =>
    rw [prunedSelected]
    split
    · rw [List.flatMap_cons, pruned_words, List.flatMap_cons]
    · rw [List.flatMap_cons, ih, List.flatMap_cons]

theorem words_prunedAlternatives {dest : String} {active : Bool} {subs : List (Schema Value)} :
    ((p.prunedAlternatives dest active s subs).flatMap Schema.words).Sublist
      (subs.flatMap Schema.words) := by
  induction subs generalizing s with
  | nil => exact List.Sublist.refl _
  | cons sub rest ih =>
    rw [prunedAlternatives, List.flatMap_cons]
    split
    · rw [List.flatMap_cons]
      exact (List.Sublist.refl _).append ih
    · split
      · rw [List.flatMap_cons, pruned_words]
      · exact ih.trans (List.sublist_append_right _ _)
      · rw [List.flatMap_cons]

/-- What is left is a sub-command as it was, or pruned. -/
theorem mem_prunedSelected {dest : String} {token : Token} {active : Bool}
    {subs : List (Schema Value)} {m : Schema Value}
    (h : m ∈ p.prunedSelected dest token active s subs) :
    ∃ sub ∈ subs, m = sub ∨ ∃ active s, m = p.pruned active s sub := by
  induction subs with
  | nil => exact absurd h List.not_mem_nil
  | cons sub rest ih =>
    rw [prunedSelected] at h
    split at h
    · rcases List.mem_cons.1 h with rfl | h
      · exact ⟨sub, List.mem_cons_self, .inr ⟨_, _, rfl⟩⟩
      · exact ⟨m, List.mem_cons_of_mem _ h, .inl rfl⟩
    · rcases List.mem_cons.1 h with rfl | h
      · exact ⟨m, List.mem_cons_self, .inl rfl⟩
      · obtain ⟨other, hmem, hother⟩ := ih h
        exact ⟨other, List.mem_cons_of_mem _ hmem, hother⟩

theorem mem_prunedAlternatives {dest : String} {active : Bool} {subs : List (Schema Value)}
    {m : Schema Value} (h : m ∈ p.prunedAlternatives dest active s subs) :
    ∃ sub ∈ subs, m = sub ∨ ∃ active s, m = p.pruned active s sub := by
  induction subs generalizing s with
  | nil => exact absurd h List.not_mem_nil
  | cons sub rest ih =>
    have later : ∀ {s}, m ∈ p.prunedAlternatives dest active s rest →
        ∃ other ∈ sub :: rest, m = other ∨ ∃ active s, m = p.pruned active s other := by
      intro s h
      obtain ⟨other, hmem, hother⟩ := ih h
      exact ⟨other, List.mem_cons_of_mem _ hmem, hother⟩
    rw [prunedAlternatives] at h
    split at h
    · rcases List.mem_cons.1 h with rfl | h
      · exact ⟨m, List.mem_cons_self, .inl rfl⟩
      · exact later h
    · split at h
      · rcases List.mem_cons.1 h with rfl | h
        · exact ⟨sub, List.mem_cons_self, .inr ⟨_, _, rfl⟩⟩
        · exact ⟨m, List.mem_cons_of_mem _ h, .inl rfl⟩
      · exact later h
      · exact ⟨m, h, .inl rfl⟩

/-- What is left of a schema that is built is built. -/
theorem pruned_built {n : Schema Value} (h : n.Built) (active : Bool) (s : State) :
    (p.pruned active s n).Built := by
  induction n using Schema.induction generalizing active s with
  | step n ih =>
    cases hs : p.level n.flags n.subcommands.isEmpty active n.args s with
    | halt f t =>
      rw [pruned_of_halt hs]
      exact h
    | finished missing t =>
      rw [pruned_of_finished hs]
      exact h
    | word token active' t =>
      have built : ∀ {m}, (∃ sub ∈ n.subcommands, m = sub ∨ ∃ active s, m = p.pruned active s sub) →
          m.Built := by
        rintro m ⟨sub, hmem, rfl | ⟨active, s, rfl⟩⟩
        · exact h.sub m hmem
        · exact ih sub hmem (h.sub sub hmem) active s
      rw [pruned_of_word hs, prunedSubcommands]
      split
      · apply h.withSubcommands
        · intro m hm
          exact built (mem_prunedSelected hm)
        · rw [words_prunedSelected]
          exact h.words_nodup
      · apply h.withSubcommands
        · intro m hm
          exact built (mem_prunedAlternatives hm)
        · exact words_prunedAlternatives.nodup h.words_nodup

/-! ### What is left is parsed alike -/

/-- A run that succeeds succeeds on what is left of the schema as well, and agrees with it. -/
def Survives (p : Parser) (n : Schema Value) : Prop :=
  ∀ (active : Bool) (s t u : State), s.Agrees t → p.command active s n = .ok u →
    ∃ v, p.command active t (p.pruned active s n) = .ok v ∧ u.Agrees v

theorem alternatives_pruned {dest : String} {token : Token} {active : Bool}
    {first : Option Fault} (first' : Option Fault) {subs : List (Schema Value)}
    (survives : ∀ sub ∈ subs, p.Survives sub) (h : s.Agrees t)
    (ok : p.alternatives dest token active first s subs = .ok u) :
    ∃ v, p.alternatives dest token active first' t (p.prunedAlternatives dest active s subs) =
      .ok v ∧ u.Agrees v := by
  induction subs generalizing first first' s t with
  | nil => cases first <;> simp [alternatives] at ok
  | cons sub rest ih =>
    obtain ⟨survivesSub, survivesRest⟩ := List.forall_mem_cons.1 survives
    rw [prunedAlternatives]
    cases hnamed : sub.named with
    | true =>
      rw [alternatives_named hnamed] at ok
      rw [if_pos rfl, alternatives_named hnamed]
      exact ih first' survivesRest h ok
    | false =>
      rw [alternatives_unnamed hnamed] at ok
      rw [if_neg Bool.false_ne_true]
      cases hcommand : p.command active s.scratch sub with
      | ok w =>
        simp only [hcommand, Outcome.ok.injEq] at ok
        obtain ⟨v, hv, hagrees⟩ := survivesSub active _ _ w h.scratch hcommand
        have hunnamed : (p.pruned active s.scratch sub).named = false := by
          rw [pruned_named, hnamed]
        dsimp only
        rw [alternatives_unnamed hunnamed, hv]
        exact ⟨_, rfl, ok ▸ h.merge (hagrees.hearing _ _)⟩
      | halt f w =>
        cases f with
        | crash c => simp [hcommand] at ok
        | fault f =>
          simp only [hcommand] at ok
          exact ih _ survivesRest ((State.Agrees.of_hearing s _).trans h) ok

theorem isEmpty_of_alternatives {dest : String} {token : Token} {active : Bool}
    {first : Option Fault} {subs : List (Schema Value)}
    (ok : p.alternatives dest token active first s subs = .ok t) : subs.isEmpty = false := by
  obtain ⟨sub, hmem, -⟩ := alternatives_eq_ok ok
  exact List.isEmpty_eq_false_iff.2 (List.ne_nil_of_mem hmem)

/-- A word that is left on a level is left on the same level of any other schema that has
sub-commands. -/
theorem command_word {n : Schema Value} (subs : List (Schema Value)) {token : Token}
    {active active' : Bool}
    (word : p.level n.flags n.subcommands.isEmpty active n.args s = .word token active' t)
    (h : subs.isEmpty = n.subcommands.isEmpty) :
    p.command active s { n with subcommands := subs } =
      match subs.find? (·.matches token.text) with
      | some sub =>
        (p.command active'
          (t.report [.subcommandMatched n.dest sub.dest token.text]).advance sub).marked n.dest
      | none => (p.alternatives n.dest token active' none t subs).marked n.dest := by
  have hlevel : p.level n.flags subs.isEmpty active n.args s = .word token active' t := h ▸ word
  have hcommand := command_eq p active s { n with subcommands := subs }
  simp only [hlevel, Schema.selected?] at hcommand
  exact hcommand

/-- What a run accepts is not deleted. -/
theorem survives (p : Parser) (n : Schema Value) : p.Survives n := by
  induction n using Schema.induction with
  | step n ih =>
    intro active s t u h ok
    -- What is deleted below is out of sight of the level, so both runs leave the same word.
    cases hs : p.level n.flags n.subcommands.isEmpty active n.args s with
    | halt f w =>
      rw [command_eq, hs] at ok
      exact Outcome.noConfusion ok
    | finished missing w =>
      have hkeeps := command_agrees p active n h
      rw [ok] at hkeeps
      rw [pruned_of_finished hs]
      exact hkeeps.of_ok
    | word token active' w =>
      obtain ⟨w', ht, hw⟩ := level_agrees h hs
      have inner := leaf_of_word hs
      rw [command_eq, hs] at ok
      rw [pruned_of_word hs]
      cases hselected : n.selected? token.text with
      | some sub =>
        have hmem := (Schema.selected?_eq_some hselected).1
        simp only [hselected] at ok
        obtain ⟨x, hx, rfl⟩ := Outcome.marked_eq_ok_iff.1 ok
        obtain ⟨v, hv, hagrees⟩ := ih sub hmem active' _ _ x (hw.hearing _ _).advance hx
        have hfind := find?_prunedSubcommands (p := p) n token active' w
        rw [hselected] at hfind
        have hleaf := List.isEmpty_eq_false_iff.2
          (List.ne_nil_of_mem (List.mem_of_find?_eq_some hfind))
        rw [command_word _ ht (hleaf.trans inner.symm), hfind]
        dsimp only [Option.map_some]
        rw [pruned_dest]
        exact ⟨v.mark n.dest, congrArg (Outcome.marked · n.dest) hv, hagrees.mark n.dest⟩
      | none =>
        simp only [hselected] at ok
        obtain ⟨x, hx, rfl⟩ := Outcome.marked_eq_ok_iff.1 ok
        obtain ⟨v, hv, hagrees⟩ := alternatives_pruned none ih hw hx
        have hfind := find?_prunedSubcommands (p := p) n token active' w
        rw [hselected] at hfind
        rw [← prunedSubcommands_of_none hselected] at hv
        have hleaf := isEmpty_of_alternatives hv
        rw [command_word _ ht (hleaf.trans inner.symm), hfind]
        dsimp only [Option.map_none]
        exact ⟨v.mark n.dest, congrArg (Outcome.marked · n.dest) hv, hagrees.mark n.dest⟩

/-! ### What is deleted -/

/-- The second schema is the first one without the alternatives that a run of it tries and
rejects: those before the one that the run accepts, on each level that the run goes down. They
fail from the state in which the accepted one succeeds, but for what was reported by then. -/
inductive Erases (p : Parser) : Bool → State → Schema Value → Schema Value → Prop
  | ended {active : Bool} {s t : State} {n : Schema Value} {missing : List (Argument Value)}
      (finished : p.level n.flags n.subcommands.isEmpty active n.args s = .finished missing t) :
      Erases p active s n n
  | named {active active' : Bool} {s t : State} {n sub sub' : Schema Value} {token : Token}
      {before after : List (Schema Value)}
      (word : p.level n.flags n.subcommands.isEmpty active n.args s = .word token active' t)
      (subs : n.subcommands = before ++ sub :: after)
      (skipped : ∀ other ∈ before, other.matches token.text = false)
      (selects : sub.matches token.text = true)
      (below : Erases p active'
        (t.report [.subcommandMatched n.dest sub.dest token.text]).advance sub sub') :
      Erases p active s n { n with subcommands := before ++ sub' :: after }
  | unnamed {active active' : Bool} {s t u : State} {n sub sub' : Schema Value} {token : Token}
      {before after : List (Schema Value)} {events : List Event}
      (word : p.level n.flags n.subcommands.isEmpty active n.args s = .word token active' t)
      (none : n.selected? token.text = none) (subs : n.subcommands = before ++ sub :: after)
      (rejected : ∀ other ∈ before, other.named = false → ∃ events f u,
        p.command active' (t.scratch.hearing events) other = .halt (.fault f) u)
      (unnamed : sub.named = false)
      (accepted : p.command active' (t.scratch.hearing events) sub = .ok u)
      (below : Erases p active' (t.scratch.hearing events) sub sub') :
      Erases p active s n { n with subcommands := before.filter (·.named) ++ sub' :: after }

theorem prunedSelected_of_matches {dest : String} {token : Token} {active : Bool}
    {sub : Schema Value} {before after : List (Schema Value)}
    (skipped : ∀ other ∈ before, other.matches token.text = false)
    (selects : sub.matches token.text = true) :
    p.prunedSelected dest token active s (before ++ sub :: after) =
      before ++ p.pruned active
        (s.report [.subcommandMatched dest sub.dest token.text]).advance sub :: after := by
  induction before with
  | nil => rw [List.nil_append, prunedSelected, if_pos selects, List.nil_append]
  | cons other rest ih =>
    obtain ⟨hother, hrest⟩ := List.forall_mem_cons.1 skipped
    rw [List.cons_append, prunedSelected, if_neg (by simp [hother]), ih hrest, List.cons_append]

theorem prunedAlternatives_of_ok {dest : String} {token : Token} {active : Bool}
    {first : Option Fault} {subs : List (Schema Value)}
    (ok : p.alternatives dest token active first s subs = .ok t) :
    ∃ before sub after events, subs = before ++ sub :: after ∧ sub.named = false ∧
      (∀ other ∈ before, other.named = false → ∃ events f u,
        p.command active (s.scratch.hearing events) other = .halt (.fault f) u) ∧
      (∃ u, p.command active (s.scratch.hearing events) sub = .ok u) ∧
      p.prunedAlternatives dest active s subs =
        before.filter (·.named) ++ p.pruned active (s.scratch.hearing events) sub :: after := by
  induction subs generalizing first s with
  | nil => cases first <;> simp [alternatives] at ok
  | cons sub rest ih =>
    rw [prunedAlternatives]
    cases hnamed : sub.named with
    | true =>
      rw [alternatives_named hnamed] at ok
      obtain ⟨before, other, after, events, rfl, hother, failed, accepted, hpruned⟩ := ih ok
      refine ⟨sub :: before, other, after, events, rfl, hother, ?_, accepted, ?_⟩
      · intro third hmem hthird
        rcases List.mem_cons.1 hmem with rfl | hmem
        · exact absurd (hnamed.symm.trans hthird) Bool.noConfusion
        · exact failed third hmem hthird
      · rw [if_pos rfl, hpruned, List.filter_cons_of_pos hnamed]
        rfl
    | false =>
      rw [alternatives_unnamed hnamed] at ok
      rw [if_neg Bool.false_ne_true]
      cases hcommand : p.command active s.scratch sub with
      | ok w =>
        exact ⟨[], sub, rest, s.events, rfl, hnamed, List.forall_mem_nil _, ⟨w, hcommand⟩, rfl⟩
      | halt f w =>
        cases f with
        | crash c =>
          rw [hcommand] at ok
          exact Outcome.noConfusion ok
        | fault f =>
          rw [hcommand] at ok
          obtain ⟨before, other, after, events, rfl, hother, failed, accepted, hpruned⟩ := ih ok
          refine ⟨sub :: before, other, after, events, rfl, hother, ?_, accepted, ?_⟩
          · intro third hmem hthird
            rcases List.mem_cons.1 hmem with rfl | hmem
            · exact ⟨s.events, f, w, hcommand⟩
            · exact failed third hmem hthird
          · rw [List.filter_cons_of_neg (by rw [hnamed]; exact Bool.false_ne_true)]
            exact hpruned

/-- Pruning deletes what a run that succeeds rejects, and nothing else. -/
theorem erases_pruned {n : Schema Value} {active : Bool} (ok : p.command active s n = .ok t) :
    p.Erases active s n (p.pruned active s n) := by
  induction n using Schema.induction generalizing active s t with
  | step n ih =>
    cases hs : p.level n.flags n.subcommands.isEmpty active n.args s with
    | halt f u =>
      rw [command_eq, hs] at ok
      exact Outcome.noConfusion ok
    | finished missing u =>
      rw [pruned_of_finished hs]
      exact .ended hs
    | word token active' u =>
      rw [command_eq, hs] at ok
      rw [pruned_of_word hs]
      cases hselected : n.selected? token.text with
      | some sub =>
        simp only [hselected] at ok
        obtain ⟨x, hx, -⟩ := Outcome.marked_eq_ok_iff.1 ok
        obtain ⟨selects, before, after, hsubs, hskipped⟩ :=
          List.find?_eq_some_iff_append.1 hselected
        have hmem := (Schema.selected?_eq_some hselected).1
        have skipped : ∀ other ∈ before, other.matches token.text = false := by
          intro other hother
          simpa using hskipped other hother
        have hany : n.subcommands.any (·.matches token.text) = true :=
          List.any_eq_true.2 ⟨sub, Schema.selected?_eq_some hselected⟩
        rw [prunedSubcommands, if_pos hany, hsubs, prunedSelected_of_matches skipped selects]
        exact .named hs hsubs skipped selects (ih sub hmem hx)
      | none =>
        simp only [hselected] at ok
        obtain ⟨x, hx, -⟩ := Outcome.marked_eq_ok_iff.1 ok
        obtain ⟨before, sub, after, events, hsubs, hnamed, rejected, ⟨v, accepted⟩, hpruned⟩ :=
          prunedAlternatives_of_ok hx
        have hmem : sub ∈ n.subcommands := by
          rw [hsubs]
          exact List.mem_append_right _ List.mem_cons_self
        rw [prunedSubcommands_of_none hselected, hpruned]
        exact .unnamed hs hselected hsubs rejected hnamed accepted (ih sub hmem accepted)

/-! ## Where all alternatives fail -/

/-- Alternatives that fail are no more than events to a fault that was there before them. -/
theorem alternatives_of_fault {dest : String} {token : Token} {active : Bool} {f : Fault}
    {subs : List (Schema Value)} (h : s.Agrees t)
    (faults : ∀ sub ∈ subs, ∃ g u, p.command active s.scratch sub = .halt (.fault g) u) :
    ∃ v, p.alternatives dest token active (some f) t subs = .halt (.fault f) v ∧ s.Agrees v := by
  induction subs generalizing t with
  | nil => exact ⟨t, rfl, h⟩
  | cons sub rest ih =>
    obtain ⟨⟨g, u, hg⟩, faultsRest⟩ := List.forall_mem_cons.1 faults
    cases hnamed : sub.named with
    | true =>
      rw [alternatives_named hnamed]
      exact ih h faultsRest
    | false =>
      -- Alone or after others, the alternative fails with the same fault.
      have hkeeps := command_agrees p active sub h.scratch
      rw [hg] at hkeeps
      obtain ⟨g', u', hg', rfl⟩ := hkeeps.of_halt
      rw [alternatives_unnamed hnamed, hg']
      exact ih (h.trans (State.Agrees.of_hearing t _).symm) faultsRest

/-- Where all alternatives fail, the fault of the first one is what comes out, and the state is as
before but for the events. -/
theorem alternatives_of_faults {n first : Schema Value} {rest : List (Schema Value)}
    (token : Token) {active : Bool} (order : n.alternatives = first :: rest)
    (faults : ∀ sub ∈ n.alternatives, ∃ f u, p.command active s.scratch sub =
      .halt (.fault f) u) :
    ∃ f u v, p.command active s.scratch first = .halt (.fault f) u ∧
      p.alternatives n.dest token active none s n.subcommands = .halt (.fault f) v ∧
      s.Agrees v := by
  have hfirst : first.named = false := by
    have hmem : first ∈ n.alternatives := order ▸ List.mem_cons_self
    simpa using (List.mem_filter.1 hmem).2
  rw [order] at faults
  obtain ⟨⟨f, u, hf⟩, faultsRest⟩ := List.forall_mem_cons.1 faults
  rw [alternatives_filter]
  change ∃ f u v, _ ∧ p.alternatives n.dest token active none s n.alternatives = _ ∧ _
  rw [order, alternatives_unnamed hfirst, hf]
  obtain ⟨v, hv, hagrees⟩ := alternatives_of_fault (State.Agrees.of_hearing s _).symm faultsRest
  exact ⟨f, u, v, rfl, hv, hagrees⟩

/-! ## Whole parses -/

/-- The schema without the alternatives that a parse of the line tries and rejects. -/
def kept (p : Parser) (schema : Schema Value) (start : Nat) : Schema Value :=
  p.pruned p.options.parseFlags (p.initial start) schema

theorem parse_kept {schema : Schema Value} {start : Nat} {m : Mapping Value}
    (ok : (p.parse schema start).result = .ok m) :
    p.Erases p.options.parseFlags (p.initial start) schema (p.kept schema start) ∧
      (p.parse (p.kept schema start) start).result = .ok m ∧
      (p.parse (p.kept schema start) start).tokens = (p.parse schema start).tokens := by
  obtain ⟨s, hcommand, rfl, tokens⟩ := parse_eq_ok ok
  obtain ⟨t, ht, hagrees⟩ := p.survives schema _ _ _ s (State.Agrees.refl _) hcommand
  refine ⟨erases_pruned hcommand, ?_, ?_⟩
  · rw [kept, parse_of_ok ht, hagrees.result]
  · rw [parse_tokens, kept, ht, tokens]
    exact hagrees.tokens

/-- The unnamed sub-commands are an ordered choice without a trace. A parse that succeeds has the
same result and the same tokens when exactly the alternatives that it tried and rejected are
deleted, and what is left of the schema can be built. Where each alternative fails when it is run
alone, the fault of the first one is raised, and tokens, index and result are as before. -/
theorem ordered_choice (p : Parser) :
    (∀ (schema : Schema Value) (start : Nat) (m : Mapping Value),
      (p.parse schema start).result = .ok m →
      p.Erases p.options.parseFlags (p.initial start) schema (p.kept schema start) ∧
        (p.parse (p.kept schema start) start).result = .ok m ∧
        (p.parse (p.kept schema start) start).tokens = (p.parse schema start).tokens ∧
        (schema.Built → (p.kept schema start).Built)) ∧
    ∀ (n first : Schema Value) (rest : List (Schema Value)) (token : Token) (active : Bool)
      (s : State), n.alternatives = first :: rest →
      (∀ sub ∈ n.alternatives, ∃ f u, p.command active s.scratch sub = .halt (.fault f) u) →
      ∃ f u v, p.command active s.scratch first = .halt (.fault f) u ∧
        p.alternatives n.dest token active none s n.subcommands = .halt (.fault f) v ∧
        v.tokens = s.tokens ∧ v.index = s.index ∧ v.result = s.result := by
  constructor
  · intro schema start m ok
    obtain ⟨erases, result, tokens⟩ := parse_kept ok
    refine ⟨erases, result, tokens, ?_⟩
    intro built
    exact pruned_built built _ _
  · intro n first rest token active s order faults
    obtain ⟨f, u, v, hf, hv, hagrees⟩ := alternatives_of_faults token order faults
    exact ⟨f, u, v, hf, hv, hagrees.tokens, hagrees.index, hagrees.result⟩

theorem ordered_choice_calculator :
    (∃ m, ((forLine "add -t=3 1 2").parse calculator 0).result = .ok m ∧
      m.keys = ["mode", "scaled", "times", "x", "y", "pair", "compute"] ∧
      ((forLine "add -t=3 1 2").parse ((forLine "add -t=3 1 2").kept calculator 0) 0).result =
        .ok m) ∧
    ∃ f v, (forLine "add one").alternatives "compute" ⟨"one", 4, 7, false⟩ true none
        ⟨Token.tokenize "add one" 0, 1, .empty, []⟩ calculator.subcommands = .halt (.fault f) v ∧
      v.tokens = Token.tokenize "add one" 0 := by
  constructor
  · obtain ⟨m, ok, keys⟩ : ∃ m, ((forLine "add -t=3 1 2").parse calculator 0).result = .ok m ∧
        m.keys = ["mode", "scaled", "times", "x", "y", "pair", "compute"] :=
      Report.exists_ok (by decide +kernel)
    exact ⟨m, ok, keys, ((ordered_choice (forLine "add -t=3 1 2")).1 calculator 0 m ok).2.1⟩
  · have faults : ∀ sub ∈ calculator.alternatives, ∃ f u, (forLine "add one").command true
        (State.scratch ⟨Token.tokenize "add one" 0, 1, .empty, []⟩) sub = .halt (.fault f) u := by
      have failed : calculator.alternatives.all fun sub => ((forLine "add one").command true
          (State.scratch ⟨Token.tokenize "add one" 0, 1, .empty, []⟩) sub).failed := by
        decide +kernel
      intro sub hmem
      exact Outcome.exists_fault (List.all_eq_true.1 failed sub hmem)
    obtain ⟨f, u, v, -, hv, tokens, -⟩ := (ordered_choice (forLine "add one")).2 calculator _ _
      ⟨"one", 4, 7, false⟩ true ⟨Token.tokenize "add one" 0, 1, .empty, []⟩ rfl faults
    exact ⟨f, v, hv, tokens⟩

end CommandGrammar.Parser
