import CommandGrammar.Proofs.Parse.Course
import CommandGrammar.Proofs.Parse.Safety
import Mathlib.Data.Set.Finite.Lattice

/-!
# Progress

A parse goes from stage to stage: with a step of a level, or from a level to that of a sub-command
(`Parser.Proceeds`). Each step leaves fewer tokens, also where it cuts a value off a flag and so
inserts a token (`Step.remaining_lt`), and what has been passed stays behind (`Proceeds.passes`). So
a parse comes to finitely many stages, and no run through them is longer than the tokens and the
levels of the schema allow (`parse_progresses`).
-/

namespace CommandGrammar

namespace Schema

mutual

/-- How many levels of sub-commands stand below a schema. -/
def depth : Schema Value → Nat
  | ⟨_, _, _, _, _, _, subcommands⟩ => levels subcommands

/-- How many levels schemas have at most, their own included. -/
def levels : List (Schema Value) → Nat
  | [] => 0
  | sub :: rest => max (depth sub + 1) (levels rest)

end

theorem depth_lt_levels {sub : Schema Value} {subs : List (Schema Value)} (mem : sub ∈ subs) :
    sub.depth < levels subs := by
  induction subs with
  | nil => exact absurd mem List.not_mem_nil
  | cons other rest ih =>
    rw [levels]
    rcases List.mem_cons.1 mem with rfl | mem
    · exact Nat.lt_of_lt_of_le (Nat.lt_succ_self _) (Nat.le_max_left _ _)
    · exact Nat.lt_of_lt_of_le (ih mem) (Nat.le_max_right _ _)

theorem depth_lt {n sub : Schema Value} (mem : sub ∈ n.subcommands) : sub.depth < n.depth := by
  cases n
  exact depth_lt_levels mem

end Schema

namespace State

theorem remaining_eq_length (s : State) : s.remaining = s.left.length := by
  rw [remaining, left, List.length_drop]

theorem remaining_le_of_suffix {s t : State} (suffix : t.left <:+ s.left) :
    t.remaining ≤ s.remaining := by
  rw [remaining_eq_length, remaining_eq_length]
  exact suffix.length_le

/-- The second state stands no earlier than the first one, and the tokens that the first one has
passed are still the same. -/
structure Passes (s t : State) : Prop where
  index : s.index ≤ t.index
  tokens : t.tokens.take s.index = s.tokens.take s.index

namespace Passes

variable {s t u : State}

theorem refl (s : State) : s.Passes s := ⟨Nat.le_refl _, rfl⟩

theorem trans (first : s.Passes t) (second : t.Passes u) : s.Passes u := by
  refine ⟨Nat.le_trans first.index second.index, ?_⟩
  have cut : ∀ tokens : List Token, tokens.take s.index = (tokens.take t.index).take s.index := by
    intro tokens
    rw [List.take_take, Nat.min_eq_left first.index]
  rw [cut u.tokens, second.tokens, ← cut t.tokens, first.tokens]

theorem of_tokens (tokens : t.tokens = s.tokens) (index : s.index ≤ t.index) : s.Passes t :=
  ⟨index, by rw [tokens]⟩

theorem getElem? (passes : s.Passes t) {i : Nat} (behind : i < s.index) :
    t.tokens[i]? = s.tokens[i]? := by
  rw [← List.getElem?_take_of_lt behind, passes.tokens, List.getElem?_take_of_lt behind]

end Passes

end State

/-- The tokens behind a step, if it succeeds. -/
def Outcome.tokens? : Outcome → Option (List Token)
  | .ok s => some s.tokens
  | .halt _ _ => none

theorem Outcome.tokens?_eq_some {o : Outcome} {tokens : List Token} :
    o.tokens? = some tokens ↔ ∃ s, o = .ok s ∧ s.tokens = tokens := by
  cases o <;> simp [tokens?]

namespace Parser

variable {p : Parser} {flags : List (Flag Value)} {active active' : Bool} {s t v : State}
  {n m sub : Schema Value} {token : Token} {x y z : Stage}

/-! ## Single steps -/

/-- A step leaves fewer tokens. -/
theorem Step.remaining_lt (step : p.Step flags x y) : y.state.remaining < x.state.remaining := by
  cases step with
  | ending next flagged ends => exact State.remaining_advance next
  | flag next flagged ends ok => exact flag_ok ok (State.index_lt_of_next? next)
  | argument next plain ok => exact argument_remaining next ok

/-- What a step makes of the tokens: it inserts at most one, behind the token that it is at. -/
def Inserts (x y : Stage) (inserted : List Token) : Prop :=
  ∃ head, y.state.tokens = x.state.tokens.take x.state.index ++ head :: inserted ++
    x.state.tokens.drop (x.state.index + 1)

theorem inserts_nil (next : x.state.next? = some token) (same : y.state.tokens = x.state.tokens) :
    Inserts x y [] := by
  refine ⟨token, ?_⟩
  have here : x.state.tokens.drop x.state.index =
      token :: x.state.tokens.drop (x.state.index + 1) := State.left_eq_cons next
  rw [same, List.append_assoc, List.singleton_append, ← here, List.take_append_drop]

theorem Step.inserts (step : p.Step flags x y) :
    ∃ inserted, inserted.length ≤ 1 ∧ Inserts x y inserted := by
  cases step with
  | ending next flagged ends => exact ⟨[], Nat.zero_le _, inserts_nil next rfl⟩
  | argument next plain ok => exact ⟨[], Nat.zero_le _, inserts_nil next (argument_ok ok).1⟩
  | @flag active args s t token c rest next flagged ends ok =>
    obtain ⟨f, marks, inline, u, v, -, opens, arguments, rfl⟩ := flag_eq_ok ok
    obtain ⟨tokens, index⟩ := foldl_mark marks s
    have kept := (flagArguments_ok arguments).1
    cases opens with
    | plain noValue => exact ⟨[], Nat.zero_le _, inserts_nil next (kept.trans tokens)⟩
    | @inline value pieces hasValue args cut =>
      obtain ⟨middle, inserted, -, rfl, hinserted⟩ := Token.cut?_eq_some cut
      let text := String.ofList (token.text.toList.take (Spelling.ofChars c rest).length)
      refine ⟨inserted, ?_, { token with text, stop := middle }, ?_⟩
      · obtain ⟨-, rfl⟩ | ⟨-, start, -, rfl⟩ := hinserted
        · exact Nat.zero_le _
        · exact Nat.le_refl _
      · show v.tokens = _
        rw [kept, ← tokens, ← index]
        rfl

/-- A step goes behind what it inserts. -/
theorem Step.index_lt (step : p.Step flags x y) {inserted : List Token}
    (inserts : Inserts x y inserted) : x.state.index + inserted.length < y.state.index := by
  obtain ⟨head, tokens⟩ := inserts
  have fewer := step.remaining_lt
  have length := congrArg List.length tokens
  simp only [List.length_append, List.length_take, List.length_drop, List.length_cons] at length
  unfold State.remaining at fewer
  omega

/-- A step begins at a token. -/
theorem Step.length_take (step : p.Step flags x y) :
    (x.state.tokens.take x.state.index).length = x.state.index := by
  have fewer := step.remaining_lt
  unfold State.remaining at fewer
  rw [List.length_take]
  omega

theorem Step.passes (step : p.Step flags x y) : x.state.Passes y.state := by
  obtain ⟨inserted, -, inserts⟩ := step.inserts
  have behind := step.index_lt inserts
  refine ⟨by omega, ?_⟩
  obtain ⟨head, tokens⟩ := inserts
  rw [tokens, List.append_assoc]
  exact List.take_left' step.length_take

/-- At each stage a level stops or takes a step. -/
theorem stops_or_steps (p : Parser) (flags : List (Flag Value)) (leaf : Bool) (x : Stage) :
    p.Stops flags leaf x (p.level flags leaf x.active x.args x.state) ∨
      ∃ y, p.Step flags x y ∧ p.level flags leaf x.active x.args x.state =
        p.level flags leaf y.active y.args y.state := by
  obtain ⟨z, steps, stops⟩ := exists_steps_stops p flags leaf x.active x.args x.state
  obtain rfl | ⟨y, step, -⟩ := steps.cases_head
  · exact .inl stops
  · exact .inr ⟨y, step, step.level_eq⟩

theorem Step.unique (step : p.Step flags x y) (other : p.Step flags x z) : z = y := by
  cases step with
  | ending next flagged ends =>
    cases other with
    | ending => rfl
    | flag next' _ ends' =>
      cases next.symm.trans next'
      cases ends.symm.trans ends'
    | argument next' plain =>
      cases next.symm.trans next'
      cases flagged.symm.trans plain
  | flag next flagged ends ok =>
    cases other with
    | ending next' _ ends' =>
      cases next.symm.trans next'
      cases ends.symm.trans ends'
    | flag next' flagged' _ ok' =>
      cases next.symm.trans next'
      cases flagged.symm.trans flagged'
      cases ok.symm.trans ok'
      rfl
    | argument next' plain =>
      cases next.symm.trans next'
      cases flagged.symm.trans plain
  | argument next plain ok =>
    cases other with
    | ending next' flagged =>
      cases next.symm.trans next'
      cases flagged.symm.trans plain
    | flag next' flagged =>
      cases next.symm.trans next'
      cases flagged.symm.trans plain
    | argument _ _ ok' =>
      cases ok.symm.trans ok'
      rfl

/-! ## From stage to stage -/

/-- A stage on the level of a schema. -/
structure Site where
  node : Schema Value
  stage : Stage

/-- A parse goes on with a step of the level, or on the level of a sub-command that takes the line
over or is tried. -/
inductive Proceeds (p : Parser) : Site → Site → Prop
  | step {n : Schema Value} {x y : Stage} (step : p.Step n.flags x y) : Proceeds p ⟨n, x⟩ ⟨n, y⟩
  | enter {n sub : Schema Value} {x : Stage} {token : Token} {active : Bool} {s v : State}
      (stops : p.Stops n.flags n.subcommands.isEmpty x (.word token active s))
      (enters : p.Enters false n token active s sub v) :
      Proceeds p ⟨n, x⟩ ⟨sub, ⟨active, sub.args, v⟩⟩

/-- Any number of steps and entries. -/
abbrev Reaches (p : Parser) : Site → Site → Prop := Relation.ReflTransGen p.Proceeds

variable {a b c : Site}

/-- Where a command is entered, its sub-commands are entered from the stages that it comes to. -/
theorem Comes.enter {accepted : Bool} (comes : p.Comes accepted active s n m x)
    (stops : p.Stops m.flags m.subcommands.isEmpty x (.word token active' t))
    (enters : p.Enters accepted m token active' t sub v) :
    p.Comes accepted active s n sub ⟨active', sub.args, v⟩ := by
  induction comes with
  | level steps => exact .down (level_eq_iff.2 ⟨_, steps, stops⟩) enters (.level .refl)
  | down word above _ ih => exact .down word above (ih stops enters)

/-- The stages that a command comes to, those of rejected trials included, are those that are
reached from its first one. -/
theorem comes_iff_reaches : p.Comes false active s n m x ↔
    p.Reaches ⟨n, ⟨active, n.args, s⟩⟩ ⟨m, x⟩ := by
  constructor
  · intro comes
    induction comes with
    | level steps => exact steps.lift (Site.mk _) fun _ _ step => .step step
    | @down active active' s t v n sub m token x word enters _ ih =>
      obtain ⟨y, steps, stops⟩ := level_eq_iff.1 word
      have here : p.Reaches ⟨n, ⟨active, n.args, s⟩⟩ ⟨n, y⟩ :=
        steps.lift (Site.mk n) fun _ _ step => .step step
      exact (here.tail (.enter stops enters)).trans ih
  · intro reaches
    suffices ∀ b, p.Reaches ⟨n, ⟨active, n.args, s⟩⟩ b →
        p.Comes false active s n b.node b.stage from this _ reaches
    intro b reaches
    induction reaches with
    | refl => exact .level .refl
    | tail _ proceeds ih =>
      cases proceeds with
      | step step => exact ih.steps (.single step)
      | enter stops enters => exact ih.enter stops enters

theorem Enters.passes {accepted : Bool} (enters : p.Enters accepted n token active s sub v) :
    s.Passes v := by
  cases enters with
  | named selects => exact .of_tokens rfl (Nat.le_succ _)
  | unnamed _ tried _ =>
    obtain ⟨events, rfl⟩ := tried.scratch
    exact .of_tokens rfl (Nat.le_refl _)

/-- What was passed is not come back to. -/
theorem Proceeds.passes (proceeds : p.Proceeds a b) :
    a.stage.state.Passes b.stage.state := by
  cases proceeds with
  | step step => exact step.passes
  | enter stops enters =>
    cases stops with
    | word => exact enters.passes

theorem Reaches.passes (reaches : p.Reaches a b) : a.stage.state.Passes b.stage.state := by
  induction reaches with
  | refl => exact .refl _
  | tail _ proceeds ih => exact ih.trans proceeds.passes

/-- What a step inserts is passed by it, and never met again. -/
theorem Step.inserted_behind {value : Token} (step : p.Step n.flags x y)
    (inserts : Inserts x y [value]) (reaches : p.Reaches ⟨n, y⟩ b) :
    x.state.index + 1 < b.stage.state.index ∧
      b.stage.state.tokens[x.state.index + 1]? = some value := by
  have behind : x.state.index + 1 < y.state.index := step.index_lt inserts
  have passes : y.state.Passes b.stage.state := Reaches.passes reaches
  refine ⟨Nat.lt_of_lt_of_le behind passes.index, ?_⟩
  obtain ⟨head, tokens⟩ := inserts
  have front : (x.state.tokens.take x.state.index).length = x.state.index := step.length_take
  rw [passes.getElem? behind, tokens, List.append_assoc, List.getElem?_append_right (by omega),
    front, Nat.add_sub_cancel_left]
  rfl

/-- How often a parse can go on at most: the tokens that remain, and the levels that stand below. -/
def Site.budget (a : Site) : Nat := a.stage.state.remaining + a.node.depth

theorem Proceeds.budget_lt (proceeds : p.Proceeds a b) : b.budget < a.budget := by
  unfold Site.budget
  cases proceeds with
  | step step => exact Nat.add_lt_add_right step.remaining_lt _
  | enter stops enters =>
    cases stops with
    | word =>
      have fewer := State.remaining_le_of_suffix enters.left
      exact Nat.add_lt_add_of_le_of_lt fewer (Schema.depth_lt enters.mem)

/-- A run through the stages of a parse ends within its budget. -/
theorem length_le_budget {run : List Site} (proceeds : (a :: run).IsChain p.Proceeds) :
    run.length ≤ a.budget := by
  induction run generalizing a with
  | nil => exact Nat.zero_le _
  | cons b rest ih =>
    obtain ⟨first, later⟩ := List.isChain_cons_cons.1 proceeds
    have := first.budget_lt
    have := ih later
    rw [List.length_cons]
    omega

/-! ## Finitely many stages -/

/-- There are finitely many trials: whether one is rejected depends on where it begins. -/
theorem tries_finite (p : Parser) (dest : String) (active : Bool) (s : State)
    (subs : List (Schema Value)) :
    {b : Schema Value × State | p.Tries dest active s subs b.1 b.2}.Finite := by
  induction subs generalizing s with
  | nil =>
    refine Set.finite_empty.subset fun b tried => ?_
    cases tried
  | cons other rest ih =>
    let rejected : Set (Schema Value × State) := {b | ∃ f t,
      p.command active s.scratch other = .halt (.fault f) t ∧ p.Tries dest active
        (s.hearing (t.events ++ [.alternativeRejected dest other.dest f.message])) rest b.1 b.2}
    have later : rejected.Finite := by
      cases trial : p.command active s.scratch other with
      | ok t =>
        refine Set.finite_empty.subset ?_
        rintro b ⟨f, u, failed, -⟩
        cases trial.symm.trans failed
      | halt h t =>
        cases h with
        | crash c =>
          refine Set.finite_empty.subset ?_
          rintro b ⟨f, u, failed, -⟩
          cases trial.symm.trans failed
        | fault f =>
          refine (ih (s.hearing (t.events ++
            [.alternativeRejected dest other.dest f.message]))).subset ?_
          rintro b ⟨g, u, failed, tried⟩
          cases trial.symm.trans failed
          exact tried
    refine (((Set.finite_singleton (other, s.scratch)).union (ih s)).union later).subset ?_
    rintro ⟨sub, v⟩ (tried : p.Tries dest active s (other :: rest) sub v)
    cases tried with
    | here unnamed => exact .inl (.inl rfl)
    | skipped named tried => exact .inl (.inr tried)
    | rejected unnamed failed tried => exact .inr ⟨_, _, failed, tried⟩

theorem enters_finite (p : Parser) (n : Schema Value) (token : Token) (active : Bool) (s : State) :
    {b : Schema Value × State | p.Enters false n token active s b.1 b.2}.Finite := by
  let entry (sub : Schema Value) : Schema Value × State :=
    (sub, (s.report [.subcommandMatched n.dest sub.dest token.text]).advance)
  have named : {b | ∃ sub, n.selected? token.text = some sub ∧ entry sub = b}.Finite := by
    refine ((List.finite_toSet n.subcommands).image entry).subset ?_
    rintro b ⟨sub, selects, rfl⟩
    exact ⟨sub, (Schema.selected?_eq_some selects).1, rfl⟩
  refine (named.union (tries_finite p n.dest active s n.subcommands)).subset ?_
  rintro ⟨sub, v⟩ (enters : p.Enters false n token active s sub v)
  cases enters with
  | named selects => exact .inl ⟨sub, selects, rfl⟩
  | unnamed none tried succeeds => exact .inr tried

theorem proceeds_finite (p : Parser) (a : Site) : {b | p.Proceeds a b}.Finite := by
  obtain ⟨n, x⟩ := a
  have steps : {b : Site | ∃ y, p.Step n.flags x y ∧ ⟨n, y⟩ = b}.Finite := by
    refine Set.Subsingleton.finite ?_
    rintro b ⟨y, step, rfl⟩ c ⟨z, other, rfl⟩
    rw [other.unique step]
  have entries : {b : Site | ∃ token active s sub v,
      p.Stops n.flags n.subcommands.isEmpty x (.word token active s) ∧
      p.Enters false n token active s sub v ∧ ⟨sub, ⟨active, sub.args, v⟩⟩ = b}.Finite := by
    cases next : x.state.next? with
    | none =>
      refine Set.finite_empty.subset ?_
      rintro b ⟨token, active, s, sub, v, stops, -⟩
      cases stops with
      | word next' => cases next.symm.trans next'
    | some token =>
      refine ((enters_finite p n token x.active x.state).image
        fun b => Site.mk b.1 ⟨x.active, b.1.args, b.2⟩).subset ?_
      rintro b ⟨token', active, s, sub, v, stops, enters, rfl⟩
      cases stops with
      | word next' =>
        cases next.symm.trans next'
        exact ⟨(sub, v), enters, rfl⟩
  refine (steps.union entries).subset ?_
  intro b proceeds
  cases proceeds with
  | step step => exact .inl ⟨_, step, rfl⟩
  | enter stops enters => exact .inr ⟨_, _, _, _, _, stops, enters, rfl⟩

theorem reaches_finite (p : Parser) (a : Site) : {b | p.Reaches a b}.Finite := by
  induction h : a.budget using Nat.strong_induction_on generalizing a with
  | _ budget ih =>
    have below : ∀ b ∈ {b | p.Proceeds a b}, {c | p.Reaches b c}.Finite := by
      intro b proceeds
      exact ih b.budget (h ▸ proceeds.budget_lt) b rfl
    refine ((Set.finite_singleton a).union ((proceeds_finite p a).biUnion below)).subset ?_
    intro c reaches
    obtain rfl | ⟨b, proceeds, later⟩ := reaches.cases_head
    · exact .inl rfl
    · exact .inr (Set.mem_biUnion proceeds later)

/-- A command comes to finitely many stages. -/
theorem comes_finite (p : Parser) (n : Schema Value) (active : Bool) (s : State) :
    {b : Site | p.Comes false active s n b.node b.stage}.Finite := by
  refine (p.reaches_finite ⟨n, ⟨active, n.args, s⟩⟩).subset ?_
  intro b comes
  exact comes_iff_reaches.1 comes

/-- A level stops at each stage or takes a step, and each step leaves fewer tokens, even when it
inserts one. No token that a step inserts is met later on, at no stage of the level or below it. A
parse comes to finitely many stages and goes on from each of them as often at most as there are
tokens left and levels below, and it ends with a result or a fault, whatever the converters
answer, or with the crash of a converter's slip. -/
theorem parse_progresses (p : Parser) :
    (∀ (flags : List (Flag Value)) (leaf : Bool) (x : Stage),
      p.Stops flags leaf x (p.level flags leaf x.active x.args x.state) ∨
        ∃ y, p.Step flags x y ∧ p.level flags leaf x.active x.args x.state =
          p.level flags leaf y.active y.args y.state) ∧
    (∀ (n : Schema Value) (x y : Stage), p.Step n.flags x y →
      y.state.remaining < x.state.remaining ∧
      ∃ inserted, inserted.length ≤ 1 ∧ Inserts x y inserted ∧ ∀ value ∈ inserted,
        ∀ b, p.Reaches ⟨n, y⟩ b → x.state.index + 1 < b.stage.state.index ∧
          b.stage.state.tokens[x.state.index + 1]? = some value) ∧
    (∀ n active s, {b : Site | p.Comes false active s n b.node b.stage}.Finite) ∧
    (∀ a run, (a :: run).IsChain p.Proceeds → run.length ≤ a.budget) ∧
    ∀ (schema : Schema Value) (start : Nat), (∃ m, (p.parse schema start).result = .ok m) ∨
      (∃ f, (p.parse schema start).result = .error (.fault f)) ∨
      ∃ c, (p.parse schema start).result = .error (.crash c) ∧ p.Slips c := by
  refine ⟨p.stops_or_steps, ?_, p.comes_finite, fun a run => length_le_budget, ?_⟩
  · intro n x y step
    refine ⟨step.remaining_lt, ?_⟩
    obtain ⟨inserted, one, inserts⟩ := step.inserts
    refine ⟨inserted, one, inserts, ?_⟩
    intro value mem b reaches
    obtain rfl : inserted = [value] := by
      have length : inserted.length = 1 := Nat.le_antisymm one (List.length_pos_of_mem mem)
      obtain ⟨first, rfl⟩ := List.length_eq_one_iff.1 length
      rw [List.mem_singleton.1 mem]
    exact step.inserted_behind inserts reaches
  · intro schema start
    obtain ok | ⟨f, failed, -⟩ | crashed := p.parse_ends schema start
    · exact .inl ok
    · exact .inr (.inl ⟨f, failed⟩)
    · exact .inr (.inr crashed)

/-- The value of a flag becomes a token of its own, which is behind all that is met later. -/
theorem parse_progresses_calculator :
    let p := forLine "-t=5 sum 2"
    let x : Stage := ⟨true, calculator.args, p.initial 0⟩
    ∃ y, p.Step calculator.flags x y ∧ y.state.tokens = [⟨"-t", 0, 2, false⟩, ⟨"5", 3, 4, false⟩,
        ⟨"sum", 5, 8, false⟩, ⟨"2", 9, 10, false⟩] ∧ y.state.remaining < x.state.remaining ∧
      ∀ b, p.Reaches ⟨calculator, y⟩ b → 1 < b.stage.state.index ∧
        b.stage.state.tokens[1]? = some ⟨"5", 3, 4, false⟩ := by
  intro p x
  let token : Token := ⟨"-t=5", 0, 4, false⟩
  have next : x.state.next? = some token := by decide +kernel
  have tokens : (p.flag calculator.flags token 't' ['=', '5'] x.state).tokens? = some
      [⟨"-t", 0, 2, false⟩, ⟨"5", 3, 4, false⟩, ⟨"sum", 5, 8, false⟩, ⟨"2", 9, 10, false⟩] := by
    decide +kernel
  obtain ⟨t, ok, taken⟩ := Outcome.tokens?_eq_some.1 tokens
  have step : p.Step calculator.flags x ⟨true, calculator.args, t⟩ :=
    .flag next (by decide +kernel) (by decide +kernel) ok
  obtain ⟨fewer, inserted, one, ⟨head, grown⟩, behind⟩ :=
    (parse_progresses p).2.1 calculator x _ step
  have before : x.state.tokens = [token, ⟨"sum", 5, 8, false⟩, ⟨"2", 9, 10, false⟩] := by
    decide +kernel
  have start : x.state.index = 0 := rfl
  rw [before, start] at grown
  have same : head :: inserted ++ [⟨"sum", 5, 8, false⟩, ⟨"2", 9, 10, false⟩] =
      [⟨"-t", 0, 2, false⟩, ⟨"5", 3, 4, false⟩, ⟨"sum", 5, 8, false⟩, ⟨"2", 9, 10, false⟩] :=
    grown.symm.trans taken
  have mem : (⟨"5", 3, 4, false⟩ : Token) ∈ inserted := by
    cases inserted with
    | nil => cases congrArg List.length same
    | cons value rest =>
      obtain ⟨-, rfl, -⟩ := List.cons.inj same |>.imp_right List.cons.inj
      exact List.mem_cons_self
  exact ⟨_, step, taken, fewer, behind _ mem⟩

end Parser

end CommandGrammar
