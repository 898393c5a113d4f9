import CommandGrammar.Proofs.Parse.Descent

/-!
# The trail of a parse

A parse that succeeds goes down a chain of schemas and writes on each level: values of arguments,
defaults, and marks of flags. `command_trail` recovers the chain and all that was written, and the
result is nothing but these writes, one after the other. `result_shape` reads off which keys a
result has and where the positional arguments come from.
-/

namespace CommandGrammar

/-- Something that is written on a level. The owner of an argument is the flag that it belongs to,
or none if it is a positional argument of the command. -/
inductive Write
  /-- The value that the first of the given tokens are converted to. -/
  | value (owner : Option (Flag Value)) (a : Argument Value) (given : List Token) (v : Value)
  | default (owner : Option (Flag Value)) (a : Argument Value)
  /-- The mark of a flag. -/
  | mark (f : Flag Value)

/-- The key and the value that are written. -/
def Write.entry : Write → String × Value
  | .value _ a _ v => (a.dest, v)
  | .default _ a => (a.dest, a.default)
  | .mark f => (f.dest, .bool true)

/-- The positional argument that is written. -/
def Write.positional? : Write → Option (Argument Value)
  | .value none a _ _ => some a
  | .default none a => some a
  | _ => none

theorem Write.dest_of_positional? {w : Write} {a : Argument Value} (h : w.positional? = some a) :
    w.entry.1 = a.dest := by
  unfold positional? at h
  split at h
  · cases h
    rfl
  · cases h
    rfl
  · simp at h

/-- Whether an argument belongs to the schema, under the given owner. -/
def Schema.Owns (n : Schema Value) (owner : Option (Flag Value)) (a : Argument Value) : Prop :=
  match owner with
  | none => a ∈ n.args
  | some f => f ∈ n.flags ∧ a ∈ f.args

/-- What may be written on a level of a schema: values that converters made of tokens, for a
positional argument of tokens of the line, defaults of optional arguments, and marks of flags. -/
inductive Write.Of (p : Parser) (n : Schema Value) (line : List Token) : Write → Prop
  | value {owner : Option (Flag Value)} {a : Argument Value} {given : List Token} {v : Value}
      {count : Nat} {events : List Event} (owns : n.Owns owner a)
      (fromLine : owner = none → given <:+ line) (converts : p.Converts a given v count events) :
      Write.Of p n line (.value owner a given v)
  | default {owner : Option (Flag Value)} {a : Argument Value} (owns : n.Owns owner a)
      (optional : a.required = false) : Write.Of p n line (.default owner a)
  | mark {f : Flag Value} (mem : f ∈ n.flags) : Write.Of p n line (.mark f)

/-- A schema that a parse went through, and what was written on its level. -/
structure Visit where
  node : Schema Value
  writes : List Write

/-- What some visits write: a level writes before the levels below it, and its own mark comes
last. -/
def Visit.entries : List Visit → List (String × Value)
  | [] => []
  | visit :: rest =>
    visit.writes.map Write.entry ++ entries rest ++ [(visit.node.dest, .bool true)]

/-- A visit writes what its schema may write, and each positional argument once and in order. -/
structure Visit.Sound (p : Parser) (line : List Token) (visit : Visit) : Prop where
  writes : ∀ w ∈ visit.writes, w.Of p visit.node line
  arguments : visit.writes.filterMap Write.positional? = visit.node.args

/-- A visit fills a positional argument if it converts the argument from tokens of the line and
does not write its default. -/
def Visit.Fills (p : Parser) (line : List Token) (visit : Visit) (a : Argument Value) : Prop :=
  Write.default none a ∉ visit.writes ∧ ∃ given v count events,
    Write.value none a given v ∈ visit.writes ∧ given <:+ line ∧
      p.Converts a given v count events

/-- Visits from a schema down. On a level that is left for a sub-command no positional argument
takes its default. -/
inductive Parser.Trail (p : Parser) (line : List Token) : Schema Value → List Visit → Prop
  | last {visit : Visit} (sound : visit.Sound p line) : Trail p line visit.node [visit]
  | down {visit : Visit} {sub : Schema Value} {rest : List Visit} (sound : visit.Sound p line)
      (filled : ∀ a, Write.default none a ∉ visit.writes) (mem : sub ∈ visit.node.subcommands)
      (trail : Trail p line sub rest) : Trail p line visit.node (visit :: rest)

/-- The second state has the result of the first one with these entries, of which later ones
win. -/
def State.Entered (s t : State) (entries : List (String × Value)) : Prop :=
  t.result = s.result.insertAll entries

theorem State.Entered.trans {s t u : State} {entries entries' : List (String × Value)}
    (h : s.Entered t entries) (h' : t.Entered u entries') : s.Entered u (entries ++ entries') := by
  rw [Entered, h', h, Mapping.insertAll_append]

theorem State.entered_mark (s : State) (dest : String) :
    s.Entered (s.mark dest) [(dest, .bool true)] := rfl

theorem State.entered_foldl_mark (marks : List String) (s : State) :
    s.Entered (marks.foldl State.mark s) (marks.map fun dest => (dest, .bool true)) := by
  induction marks generalizing s with
  | nil => rfl
  | cons dest others ih => exact ih (s.mark dest)

/-- The second state has the result of the first one with these writes. -/
def State.Wrote (s t : State) (ws : List Write) : Prop := s.Entered t (ws.map Write.entry)

theorem State.Wrote.trans {s t u : State} {ws ws' : List Write} (h : s.Wrote t ws)
    (h' : t.Wrote u ws') : s.Wrote u (ws ++ ws') := by
  rw [Wrote, List.map_append]
  exact Entered.trans h h'

namespace Parser

variable {p : Parser} {flags : List (Flag Value)} {s t : State}

theorem packed_eq_ok {equalsEnds : Bool} {last f : Flag Value} {before marks : List String}
    {offset : Nat} {cs : List Char} (hlast : last ∈ flags)
    (hbefore : ∃ gs : List (Flag Value), before = gs.map (·.dest) ∧ gs ⊆ flags)
    (ok : packed flags equalsEnds last before offset cs = .ok ⟨f, marks⟩) :
    f ∈ flags ∧ ∃ gs : List (Flag Value), marks = gs.map (·.dest) ∧ gs ⊆ flags := by
  induction cs generalizing last before offset with
  | nil =>
    simp only [packed, Except.ok.injEq, Spelled.mk.injEq] at ok
    obtain ⟨rfl, rfl⟩ := ok
    exact ⟨hlast, hbefore⟩
  | cons c rest ih =>
    rw [packed] at ok
    split at ok
    · simp only [Except.ok.injEq, Spelled.mk.injEq] at ok
      obtain ⟨rfl, rfl⟩ := ok
      exact ⟨hlast, hbefore⟩
    · split at ok
      · simp at ok
      · rename_i g hg
        have hmem : g ∈ flags := List.mem_of_find?_eq_some hg
        obtain ⟨gs, rfl, hgs⟩ := hbefore
        refine ih hmem ⟨gs ++ [g], by simp, ?_⟩ ok
        exact List.append_subset.2 ⟨hgs, List.cons_subset.2 ⟨hmem, List.nil_subset _⟩⟩

theorem shortCodes_eq_ok {equalsEnds : Bool} {c : Char} {rest : List Char} {f : Flag Value}
    {marks : List String} (ok : shortCodes flags equalsEnds c rest = .ok ⟨f, marks⟩) :
    f ∈ flags ∧ ∃ gs : List (Flag Value), marks = gs.map (·.dest) ∧ gs ⊆ flags := by
  unfold shortCodes at ok
  split at ok
  · cases ok
  · rename_i g hg
    have hmem : g ∈ flags := List.mem_of_find?_eq_some hg
    exact packed_eq_ok hmem ⟨[g], rfl, List.cons_subset.2 ⟨hmem, List.nil_subset _⟩⟩ ok

theorem spelled_eq_ok {token : Token} {c : Char} {rest : List Char} {f : Flag Value}
    {marks : List String} (ok : p.spelled flags token c rest = .ok ⟨f, marks⟩) :
    f ∈ flags ∧ ∃ gs : List (Flag Value), marks = gs.map (·.dest) ∧ gs ⊆ flags := by
  obtain ⟨g, hlong, hspelled⟩ | hshort := spelled_ok ok
  · cases hspelled
    exact ⟨List.mem_of_find?_eq_some hlong, [], rfl, List.nil_subset _⟩
  · exact shortCodes_eq_ok hshort

theorem mark_wrote (f : Flag Value) (s : State) : s.Wrote (s.mark f.dest) [.mark f] := rfl

theorem foldl_mark_wrote (gs : List (Flag Value)) (s : State) :
    s.Wrote ((gs.map (·.dest)).foldl State.mark s) (gs.map Write.mark) := by
  induction gs generalizing s with
  | nil => rfl
  | cons g rest ih => exact ih (s.mark g.dest)

theorem fallBack_wrote {h : Halt} {args : List (Argument Value)} (owner : Option (Flag Value))
    (ok : fallBack h args s = .ok t) :
    s.Wrote t (args.map (Write.default owner)) ∧ ∀ a ∈ args, a.required = false := by
  obtain ⟨optional, rfl⟩ := fallBack_eq_ok ok
  refine ⟨?_, optional⟩
  rw [State.Wrote, List.map_map]
  rfl

theorem defaults_wrote {args : List (Argument Value)} (ok : p.defaults args s = .ok t) :
    s.Wrote t (args.map (Write.default none)) ∧ ∀ a ∈ args, a.required = false := by
  rw [defaults_eq_fallBack] at ok
  exact fallBack_wrote none ok

theorem argument_wrote {a : Argument Value} (owner : Option (Flag Value))
    (ok : p.argument a s = .ok t) :
    ∃ v count events, p.Converts a s.left v count events ∧
      s.Wrote t [.value owner a s.left v] := by
  obtain ⟨v, count, events, converts, rfl⟩ := argument_eq_ok_iff.1 ok
  exact ⟨v, count, events, converts, rfl⟩

/-- What a flag writes for its arguments. -/
theorem flagArguments_wrote {n : Schema Value} (line : List Token) {f : Flag Value}
    {inline : Bool} {args : List (Argument Value)} (hf : f ∈ n.flags) (hargs : args ⊆ f.args)
    (ok : p.flagArguments inline args s = .ok t) :
    ∃ ws, s.Wrote t ws ∧ (∀ w ∈ ws, w.Of p n line) ∧ ws.filterMap Write.positional? = [] := by
  induction args generalizing s inline with
  | nil =>
    simp only [flagArguments, Outcome.ok.injEq] at ok
    rw [← ok]
    exact ⟨[], rfl, List.forall_mem_nil _, rfl⟩
  | cons a rest ih =>
    have fallsBack : ∀ {h u}, u.result = s.result → fallBack h (a :: rest) u = .ok t →
        ∃ ws, s.Wrote t ws ∧ (∀ w ∈ ws, w.Of p n line) ∧
          ws.filterMap Write.positional? = [] := by
      intro h u hu hback
      obtain ⟨wrote, optional⟩ := fallBack_wrote (some f) hback
      refine ⟨_, (show s.Wrote u [] from hu).trans wrote, ?_, ?_⟩
      · intro w hw
        obtain ⟨b, hb, rfl⟩ := List.mem_map.1 hw
        exact .default ⟨hf, hargs hb⟩ (optional b hb)
      · rw [List.nil_append, List.filterMap_map, List.filterMap_eq_nil_iff]
        intro b hb
        rfl
    rw [flagArguments] at ok
    split at ok
    · split at ok
      · rename_i u hargument
        obtain ⟨v, count, events, converts, wrote⟩ := argument_wrote (some f) hargument
        obtain ⟨ha, hrest⟩ := List.cons_subset.1 hargs
        obtain ⟨ws, wrote', hof, hnone⟩ := ih hrest ok
        refine ⟨_, wrote.trans wrote', ?_, hnone⟩
        intro w hw
        rcases List.mem_cons.1 hw with rfl | hw
        · refine .value ⟨hf, ha⟩ ?_ converts
          intro howner
          exact absurd howner (Option.some_ne_none f)
        · exact hof w hw
      · simp at ok
      · rename_i g u hargument
        split at ok
        · simp at ok
        · obtain ⟨⟨events, rfl⟩, -⟩ := argument_eq_halt hargument
          exact fallsBack (show (s.report events).result = s.result from rfl) ok
    · simp only at ok
      split at ok
      · simp at ok
      · exact fallsBack rfl ok

/-- What a flag writes: the marks of the flags that it is spelled with, its arguments and its own
mark. -/
theorem flag_wrote {n : Schema Value} (line : List Token) {token : Token} {c : Char}
    {rest : List Char} (ok : p.flag n.flags token c rest s = .ok t) :
    ∃ ws, s.Wrote t ws ∧ (∀ w ∈ ws, w.Of p n line) ∧ ws.filterMap Write.positional? = [] := by
  obtain ⟨f, marks, inline, u, v, hspelled, opens, harguments, rfl⟩ := flag_eq_ok ok
  obtain ⟨hf, gs, rfl, hgs⟩ := spelled_eq_ok hspelled
  obtain ⟨ws, wrote, hof, hnone⟩ := flagArguments_wrote line hf (List.Subset.refl _) harguments
  have hopens : s.Wrote u (gs.map Write.mark) := by
    have hmarks := foldl_mark_wrote gs s
    cases opens with
    | plain _ => exact hmarks
    | inline _ _ _ => exact hmarks
  refine ⟨gs.map Write.mark ++ ws ++ [.mark f], (hopens.trans wrote).trans (mark_wrote f v), ?_, ?_⟩
  · intro w hw
    rcases List.mem_append.1 hw with hw | hw
    · rcases List.mem_append.1 hw with hw | hw
      · obtain ⟨g, hg, rfl⟩ := List.mem_map.1 hw
        exact .mark (hgs hg)
      · exact hof w hw
    · rw [List.mem_singleton.1 hw]
      exact .mark hf
  · have hgsNone : (gs.map Write.mark).filterMap Write.positional? = [] := by
      rw [List.filterMap_map, List.filterMap_eq_nil_iff]
      intro g hg
      rfl
    rw [List.filterMap_append, List.filterMap_append, hgsNone, hnone]
    rfl

/-- What the steps of a level write: the positional arguments that were taken, each of them once
and none by its default, and whatever the flags write. -/
theorem Steps.wrote {n : Schema Value} {line : List Token} {x y : Stage}
    (steps : p.Steps n.flags x y) (hargs : x.args ⊆ n.args) (hline : x.state.left <:+ line) :
    ∃ ws, x.state.Wrote y.state ws ∧ (∀ w ∈ ws, w.Of p n line) ∧
      (∀ a, Write.default none a ∉ ws) ∧
      ws.filterMap Write.positional? ++ y.args = x.args := by
  -- From the first step on, so that the tokens that each step is given are known to be the line's.
  induction steps using Relation.ReflTransGen.head_induction_on with
  | refl =>
    exact ⟨[], rfl, List.forall_mem_nil _, fun a => List.not_mem_nil, rfl⟩
  | head step steps ih =>
    have hleft := (step.left.trans (State.advance_left_suffix _)).trans hline
    cases step with
    | ending next flagged ends => exact ih hargs hleft
    | flag next flagged ends ok =>
      obtain ⟨ws, wrote, hof, hnone⟩ := flag_wrote line ok
      obtain ⟨ws', wrote', hof', hdefault, hpositional⟩ := ih hargs hleft
      refine ⟨ws ++ ws', wrote.trans wrote', ?_, ?_, ?_⟩
      · intro w hw
        rcases List.mem_append.1 hw with hw | hw
        · exact hof w hw
        · exact hof' w hw
      · intro a hmem
        rcases List.mem_append.1 hmem with hmem | hmem
        · have := List.filterMap_eq_nil_iff.1 hnone _ hmem
          simp [Write.positional?] at this
        · exact hdefault a hmem
      · rw [List.filterMap_append, hnone]
        exact hpositional
    | @argument active a args s t token next plain ok =>
      obtain ⟨v, count, events, converts, wrote⟩ := argument_wrote none ok
      obtain ⟨ha, hrest⟩ := List.cons_subset.1 hargs
      obtain ⟨ws', wrote', hof', hdefault, hpositional⟩ := ih hrest hleft
      refine ⟨_, wrote.trans wrote', ?_, ?_, ?_⟩
      · intro w hw
        rcases List.mem_cons.1 hw with rfl | hw
        · exact .value ha (fun _ => hline) converts
        · exact hof' w hw
      · intro b hmem
        rcases List.mem_cons.1 hmem with hmem | hmem
        · exact Write.noConfusion hmem
        · exact hdefault b hmem
      · exact congrArg (a :: ·) hpositional

/-- What a sub-command enters is entered into the result of its command, also where the
sub-command is tried on an empty result. -/
theorem HandsOver.entered {n sub : Schema Value} {token : Token} {v u w : State}
    {entries : List (String × Value)} (handed : HandsOver n token s sub v u w)
    (h : v.Entered u entries) : s.Entered w entries := by
  cases handed with
  | named selects => exact h
  | unnamed none unnamed =>
    show s.result.merge u.result = _
    rw [h]
    exact Mapping.merge_ofList s.result entries

/-- A visit that ends the line writes the defaults of the arguments that are missing. -/
theorem sound_of_missing {n : Schema Value} {line : List Token} {ws : List Write}
    {missing : List (Argument Value)} (writes : ∀ w ∈ ws, w.Of p n line)
    (arguments : ws.filterMap Write.positional? ++ missing = n.args)
    (optional : ∀ a ∈ missing, a.required = false) :
    Visit.Sound p line ⟨n, ws ++ missing.map (Write.default none)⟩ := by
  constructor
  · intro w hw
    rcases List.mem_append.1 hw with hw | hw
    · exact writes w hw
    · obtain ⟨a, ha, rfl⟩ := List.mem_map.1 hw
      have owns : a ∈ n.args := arguments ▸ List.mem_append_right _ ha
      exact .default owns (optional a ha)
  · show List.filterMap _ _ = n.args
    rw [List.filterMap_append, ← arguments, List.filterMap_map]
    exact congrArg _ List.filterMap_some

/-- A command that succeeds leaves a trail, and its result is what was written on the way. -/
theorem command_trail (n : Schema Value) {line : List Token} {active : Bool} {s t : State}
    (hline : s.left <:+ line) (ok : p.command active s n = .ok t) :
    ∃ visits, p.Trail line n visits ∧ s.Entered t (Visit.entries visits) := by
  induction n using Schema.induction generalizing active s t with
  | step n ih =>
    obtain ⟨x, steps, hend⟩ := command_eq_ok ok
    obtain ⟨ws, wrote, hof, hdefault, hpositional⟩ :=
      Steps.wrote steps (List.Subset.refl _) hline
    change s.Wrote x.state ws at wrote
    change _ = n.args at hpositional
    have hleft := steps.left.trans hline
    rcases hend with ⟨next, u, hdefaults, rfl⟩ |
      ⟨hargs, token, sub, v, u, w, next, hmem, handed, hsub, rfl⟩
    · obtain ⟨wroteDefaults, optional⟩ := defaults_wrote hdefaults
      refine ⟨_, .last (sound_of_missing hof hpositional optional), ?_⟩
      rw [Visit.entries, Visit.entries, List.append_nil]
      exact State.Entered.trans (wrote.trans wroteDefaults) (u.entered_mark n.dest)
    · have hv : v.left <:+ line := handed.left.trans hleft
      obtain ⟨visits, trail, entered⟩ := ih sub hmem hv hsub
      have sound : Visit.Sound p line ⟨n, ws⟩ := by
        refine ⟨hof, ?_⟩
        rw [← hpositional, hargs, List.append_nil]
      refine ⟨_, .down sound hdefault hmem trail, ?_⟩
      -- The mark of the level is entered after all that the sub-command enters.
      rw [Visit.entries]
      exact (State.Entered.trans wrote (handed.entered entered)).trans (w.entered_mark n.dest)

end Parser

/-- Each positional argument is written on its level, converted from tokens of the line unless its
default is written. -/
theorem Visit.Sound.fills {p : Parser} {line : List Token} {visit : Visit} {a : Argument Value}
    (sound : visit.Sound p line) (mem : a ∈ visit.node.args)
    (filled : Write.default none a ∉ visit.writes) : visit.Fills p line a := by
  refine ⟨filled, ?_⟩
  rw [← sound.arguments, List.mem_filterMap] at mem
  obtain ⟨w, hw, ha⟩ := mem
  have hof := sound.writes w hw
  cases hof with
  | @value owner b given v count events owns fromLine converts =>
    cases owner with
    | none =>
      simp only [Write.positional?, Option.some.injEq] at ha
      subst ha
      exact ⟨given, v, count, events, hw, fromLine rfl, converts⟩
    | some f => simp [Write.positional?] at ha
  | @default owner b owns optional =>
    cases owner with
    | none =>
      simp only [Write.positional?, Option.some.injEq] at ha
      exact absurd (ha ▸ hw) filled
    | some f => simp [Write.positional?] at ha
  | mark mem => simp [Write.positional?] at ha

theorem Visit.mem_keys_entries {visits : List Visit} {key : String} :
    key ∈ (entries visits).map (·.1) ↔ ∃ visit ∈ visits,
      key = visit.node.dest ∨ ∃ w ∈ visit.writes, key = w.entry.1 := by
  induction visits with
  | nil => simp [entries]
  | cons visit rest ih =>
    simp only [List.mem_cons, exists_eq_or_imp]
    rw [entries, List.map_append, List.map_append, List.mem_append, List.mem_append, ih,
      List.map_map]
    constructor
    · rintro ((h | h) | h)
      · obtain ⟨w, hw, rfl⟩ := List.mem_map.1 h
        exact .inl (.inr ⟨w, hw, rfl⟩)
      · exact .inr h
      · exact .inl (.inl (List.mem_singleton.1 h))
    · rintro ((h | ⟨w, hw, rfl⟩) | h)
      · exact .inr (List.mem_singleton.2 h)
      · exact .inl (.inl (List.mem_map.2 ⟨w, hw, rfl⟩))
      · exact .inl (.inr h)

/-- The marks of the schemas come last, so none of them is overwritten. -/
theorem Visit.get?_entries {visits : List Visit} {visit : Visit} (m : Mapping Value)
    (h : visit ∈ visits) :
    (m.insertAll (entries visits)).get? visit.node.dest = some (.bool true) := by
  induction visits generalizing m with
  | nil => exact absurd h List.not_mem_nil
  | cons first rest ih =>
    rw [entries, Mapping.insertAll_append, Mapping.insertAll_append]
    show ((_ : Mapping Value).insert first.node.dest (.bool true)).get? _ = _
    rw [Mapping.get?_insert]
    by_cases hkey : visit.node.dest = first.node.dest
    · rw [if_pos hkey]
    · rw [if_neg hkey]
      rcases List.mem_cons.1 h with rfl | h
      · exact absurd rfl hkey
      · exact ih _ h

namespace Parser

variable {p : Parser} {line : List Token} {n : Schema Value} {visits : List Visit}

theorem Trail.chain (trail : p.Trail line n visits) : n.Chain (visits.map Visit.node) := by
  induction trail with
  | last sound => exact .last _
  | down sound filled mem trail ih => exact .down mem ih

theorem Trail.sound (trail : p.Trail line n visits) : ∀ visit ∈ visits, visit.Sound p line := by
  induction trail with
  | last sound =>
    intro visit hmem
    rw [List.mem_singleton.1 hmem]
    exact sound
  | down sound filled mem trail ih =>
    intro visit hmem
    rcases List.mem_cons.1 hmem with rfl | hmem
    · exact sound
    · exact ih visit hmem

/-- On the last level each required argument is converted from tokens of the line, and on the
levels above each argument is. -/
theorem Trail.fills (trail : p.Trail line n visits) :
    (∀ visit ∈ visits.dropLast, ∀ a ∈ visit.node.args, visit.Fills p line a) ∧
      ∀ visit ∈ visits.getLast?, ∀ a ∈ visit.node.args, a.required = true →
        visit.Fills p line a := by
  induction trail with
  | last sound =>
    refine ⟨List.forall_mem_nil _, ?_⟩
    intro visit hmem a ha required
    cases hmem
    apply sound.fills ha
    intro hdefault
    cases sound.writes _ hdefault with
    | default owns optional => exact absurd required (by simp [optional])
  | @down visit sub rest sound filled mem trail ih =>
    obtain ⟨first, rest, rfl⟩ : ∃ first others, rest = first :: others := by
      cases trail with
      | last _ => exact ⟨_, _, rfl⟩
      | down _ _ _ _ => exact ⟨_, _, rfl⟩
    refine ⟨?_, ih.2⟩
    intro other hmem a ha
    rcases List.mem_cons.1 hmem with rfl | hmem
    · exact sound.fills ha (filled a)
    · exact ih.1 other hmem a ha

end Parser

/-- Whether a key stands for the schema, for one of its arguments or flags, or for an argument of
one of its flags. -/
def Schema.Declares (n : Schema Value) (key : String) : Prop :=
  key = n.dest ∨ (∃ a ∈ n.args, key = a.dest) ∨
    ∃ f ∈ n.flags, key = f.dest ∨ ∃ a ∈ f.args, key = a.dest

theorem Write.Of.declares {p : Parser} {n : Schema Value} {line : List Token} {w : Write}
    (h : w.Of p n line) : n.Declares w.entry.1 := by
  have owned : ∀ {owner a}, n.Owns owner a → n.Declares a.dest := by
    intro owner a owns
    cases owner with
    | none => exact .inr (.inl ⟨a, owns, rfl⟩)
    | some f => exact .inr (.inr ⟨f, owns.1, .inr ⟨a, owns.2, rfl⟩⟩)
  cases h with
  | value owns fromLine converts => exact owned owns
  | default owns optional => exact owned owns
  | mark mem => exact .inr (.inr ⟨_, mem, .inl rfl⟩)

namespace Parser

/-- The shape of a result: it is written on the visits of a chain of schemas. It marks each schema
of the chain, has a key for each of their positional arguments, and no key that none of them
declares; the positional arguments are converted from tokens of the line, but for optional ones
of the last schema. -/
structure Shape (p : Parser) (line : List Token) (schema : Schema Value) (m : Mapping Value)
    (visits : List Visit) : Prop where
  chain : schema.Chain (visits.map Visit.node)
  trail : p.Trail line schema visits
  written : m = .ofList (Visit.entries visits)
  marked : ∀ visit ∈ visits, m.get? visit.node.dest = some (.bool true)
  arguments : ∀ visit ∈ visits, ∀ a ∈ visit.node.args, a.dest ∈ m.keys
  declared : ∀ key ∈ m.keys, ∃ visit ∈ visits, visit.node.Declares key
  inner : ∀ visit ∈ visits.dropLast, ∀ a ∈ visit.node.args, visit.Fills p line a
  last : ∀ visit ∈ visits.getLast?, ∀ a ∈ visit.node.args, a.required = true →
    visit.Fills p line a

/-- Every result of a parse has the shape that a chain of schemas gives it. -/
theorem result_shape {p : Parser} {schema : Schema Value} {start : Nat} {m : Mapping Value}
    (ok : (p.parse schema start).result = .ok m) :
    ∃ visits, p.Shape (Token.tokenize p.source start) schema m visits := by
  obtain ⟨s, hcommand, rfl, -⟩ := parse_eq_ok ok
  obtain ⟨visits, trail, hm⟩ := command_trail schema List.suffix_rfl hcommand
  have hkeys : ∀ {key}, key ∈ s.result.keys ↔ key ∈ (Visit.entries visits).map (·.1) := by
    intro key
    rw [hm, Mapping.mem_keys_insertAll]
    simp [initial, Mapping.keys, Mapping.empty]
  refine ⟨visits, trail.chain, trail, hm, ?_, ?_, ?_, trail.fills.1, trail.fills.2⟩
  · intro visit hmem
    rw [hm]
    exact Visit.get?_entries .empty hmem
  · intro visit hmem a ha
    rw [hkeys, Visit.mem_keys_entries]
    rw [← (trail.sound visit hmem).arguments, List.mem_filterMap] at ha
    obtain ⟨w, hw, ha⟩ := ha
    refine ⟨visit, hmem, .inr ⟨w, hw, ?_⟩⟩
    exact (Write.dest_of_positional? ha).symm
  · intro key hkey
    rw [hkeys, Visit.mem_keys_entries] at hkey
    obtain ⟨visit, hmem, rfl | ⟨w, hw, rfl⟩⟩ := hkey
    · exact ⟨visit, hmem, .inl rfl⟩
    · exact ⟨visit, hmem, ((trail.sound visit hmem).writes w hw).declares⟩

theorem result_shape_calculator : ∃ m visits,
    ((forLine "add -t=3 1 2").parse calculator 0).result = .ok m ∧
      m.keys = ["mode", "scaled", "times", "x", "y", "pair", "compute"] ∧
      (forLine "add -t=3 1 2").Shape (Token.tokenize "add -t=3 1 2" 0) calculator m visits := by
  obtain ⟨m, ok, keys⟩ : ∃ m, ((forLine "add -t=3 1 2").parse calculator 0).result = .ok m ∧
      m.keys = ["mode", "scaled", "times", "x", "y", "pair", "compute"] :=
    Report.exists_ok (by decide +kernel)
  obtain ⟨visits, shape⟩ := result_shape ok
  exact ⟨m, visits, ok, keys, shape⟩

end Parser

end CommandGrammar
