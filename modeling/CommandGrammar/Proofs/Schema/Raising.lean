import CommandGrammar.Proofs.Schema.Styles
import CommandGrammar.Schema.Building

/-!
# Steps that raise

A step that raises leaves the draft as it was, however much its callback has done to the child by
then (`Builder.Atomic`). So a host that catches what is raised ends with the draft that it would
have had without the steps that raised, and hears the same from all that it does besides
(`Builder.session_filter`). A step that does not raise does what its plain form does
(`CommandDraft.plain`), whose callbacks go through the steps that did not raise, at every depth.
-/

namespace CommandGrammar

/-! ## Actions on a draft -/

namespace Building

variable {δ α β γ : Type} {m : Building δ α} {d e : δ}

/-- What comes of an action, and the draft after it. -/
def on (m : Building δ α) (d : δ) : Except Raised α × δ := m.run.run d

theorem on_bind_ok {a : α} (h : m.on d = (.ok a, e)) (f : α → Building δ β) :
    (m >>= f).on d = (f a).on e := by
  have h : m.run.run d = (.ok a, e) := h
  rw [on, ExceptT.run_bind, StateT.run_bind, h]
  rfl

theorem on_bind_error {r : Raised} (h : m.on d = (.error r, e)) (f : α → Building δ β) :
    (m >>= f).on d = (.error r, e) := by
  have h : m.run.run d = (.error r, e) := h
  rw [on, ExceptT.run_bind, StateT.run_bind, h]
  rfl

theorem caught_of_ok {m : Building δ Unit} (h : m.on d = (.ok (), e)) :
    m.caught.run d = (none, e) := by
  have h : m.run.run d = (.ok (), e) := h
  rw [caught, StateT.run_bind, h]
  rfl

theorem caught_of_error {m : Building δ Unit} {r : Raised} (h : m.on d = (.error r, e)) :
    m.caught.run d = (some r, e) := by
  have h : m.run.run d = (.error r, e) := h
  rw [caught, StateT.run_bind, h]
  rfl

theorem checked_on (x : Except Refusal α) (d : δ) :
    (checked x).on d = (x.mapError .refusal, d) := by
  cases x <;> rfl

/-- A callback changes the draft of the child alone. -/
theorem child_on (start : γ) (callback : Building γ Unit) (d : δ) :
    (child start callback).on d =
      ((callback.on start).1.map fun _ => (callback.on start).2, d) := by
  have split : callback.run.run start = callback.on start := rfl
  rw [child, split]
  match callback.on start with
  | (.ok (), c) => rfl
  | (.error r, c) => rfl

/-- An action raises from every draft and leaves it as it was, or raises from none. -/
inductive Settles (m : Building δ Unit) : Prop
  | raises (r : Raised) (h : ∀ d, m.on d = (.error r, d))
  | performs (change : δ → δ) (h : ∀ d, m.on d = (.ok (), change d))

theorem Settles.eq_of_error {m : Building δ Unit} (settles : m.Settles) {r : Raised}
    (raised : m.on d = (.error r, e)) : e = d := by
  cases settles with
  | raises r raises =>
    cases (raises d).symm.trans raised
    rfl
  | performs change performs => cases (performs d).symm.trans raised

theorem settles_modify (change : δ → δ) : Settles (modify change) :=
  .performs change fun _ => rfl

theorem settles_throw (r : Raised) : Settles (throw r : Building δ Unit) :=
  .raises r fun _ => rfl

/-- What is made apart from the draft is added when it is finished. -/
theorem settles_add {m : Building δ α} {x : Except Raised α} (apart : ∀ d, m.on d = (x, d))
    (add : α → δ → δ) : Settles (m >>= fun a => modify (add a)) := by
  cases x with
  | error r => exact .raises r fun d => on_bind_error (apart d) _
  | ok a => exact .performs (add a) fun d => on_bind_ok (apart d) _

theorem add_on_eq_ok {x : Except Raised α} (apart : m.on d = (x, d)) {add : α → δ → δ} :
    (m >>= fun a => modify (add a)).on d = (.ok (), e) ↔ ∃ a, x = .ok a ∧ add a d = e := by
  cases x with
  | error r =>
    rw [on_bind_error apart]
    exact ⟨fun h => (nomatch h), fun ⟨_, h, _⟩ => (nomatch h)⟩
  | ok a =>
    rw [on_bind_ok apart]
    constructor
    · intro performed
      exact ⟨a, rfl, congrArg Prod.snd performed⟩
    · rintro ⟨_, ⟨⟩, rfl⟩
      rfl

theorem checked_add_on_eq_ok {x : Except Refusal α} {add : α → δ → δ} :
    (checked x >>= fun a => modify (add a)).on d = (.ok (), e) ↔ ∃ a, x = .ok a ∧ add a d = e := by
  rw [add_on_eq_ok (checked_on x d)]
  cases x <;> simp [Except.mapError]

theorem child_add_on_eq_ok {start : γ} {callback : Building γ Unit} {add : γ → δ → δ} :
    (child start callback >>= fun c => modify (add c)).on d = (.ok (), e) ↔
      ∃ c, callback.on start = (.ok (), c) ∧ add c d = e := by
  rw [add_on_eq_ok (child_on start callback d)]
  rcases callback.on start with ⟨_ | _, c⟩ <;> simp [Except.map]

/-- A callback that raises has no effect on the parent, whatever it has done to the child. -/
theorem child_add_on_of_error {start c : γ} {callback : Building γ Unit} {r : Raised}
    (raised : callback.on start = (.error r, c)) (add : γ → δ → δ) (d : δ) :
    (child start callback >>= fun c => modify (add c)).on d = (.error r, d) := by
  refine on_bind_error ?_ _
  rw [child_on, raised]
  rfl

end Building

theorem FlagDraft.perform_settles (s : FlagStep) : (FlagDraft.perform s).Settles := by
  cases s with
  | setHelp help => exact Building.settles_modify _
  | addArgument fields => exact Building.settles_add (Building.checked_on _) _
  | refused r => exact Building.settles_throw _

theorem CommandDraft.perform_settles (s : HostStep) : (CommandDraft.perform s).Settles := by
  cases s with
  | addAlias aliases => exact Building.settles_modify _
  | setHelp help => exact Building.settles_modify _
  | addArgument fields => exact Building.settles_add (Building.checked_on _) _
  | addFlag long short dest help callback => exact Building.settles_add (Building.child_on _ _) _
  | addSubcommand name dest callback => exact Building.settles_add (Building.child_on _ _) _
  | refused r => exact Building.settles_throw _

/-! ## Sessions -/

namespace Heard

variable {ν : Type}

/-- A step has raised. -/
def raised : Heard ν → Bool
  | .step (some _) => true
  | _ => false

/-- A step has raised or the draft was completed. -/
def idle : Heard ν → Bool
  | .step none => false
  | _ => true

theorem idle_of_raised {heard : Heard ν} (h : heard.raised = true) : heard.idle = true := by
  match heard, h with
  | .step (some _), _ => rfl

end Heard

namespace Builder

variable {δ σ τ ν : Type} {b : Builder δ σ ν} {d e : δ}

/-- No step raises halfway. -/
def Atomic (b : Builder δ σ ν) : Prop := ∀ s, (b.perform s).Settles

theorem make_of_ok {s : σ} (h : (b.perform s).on d = (.ok (), e)) :
    (b.make (.step s)).run d = (.step none, e) := by
  rw [make, StateT.run_bind, Building.caught_of_ok h]
  rfl

theorem make_of_error {s : σ} {r : Raised} (h : (b.perform s).on d = (.error r, e)) :
    (b.make (.step s)).run d = (.step (some r), e) := by
  rw [make, StateT.run_bind, Building.caught_of_error h]
  rfl

theorem make_build (b : Builder δ σ ν) (d : δ) :
    (b.make .build).run d = (.build (b.complete d), d) := rfl

/-- What raises and what completes the draft leaves it as it was. -/
theorem make_idle (atomic : b.Atomic) {m : Move σ} {heard : Heard ν}
    (made : (b.make m).run d = (heard, e)) (idle : heard.idle = true) : e = d := by
  cases m with
  | build =>
    cases made
    rfl
  | step s =>
    cases atomic s with
    | raises r raises =>
      cases (make_of_error (raises d)).symm.trans made
      rfl
    | performs change performs =>
      cases (make_of_ok (performs d)).symm.trans made
      cases idle

/-- What is left of a session after its first move is a session. -/
theorem session_cons_iff {m : Move σ} {rest : List (Move σ)} {trace : List (Move σ × Heard ν)} :
    (b.session (m :: rest)).run d = (trace, e) ↔ ∃ heard d' later,
      (b.make m).run d = (heard, d') ∧ (b.session rest).run d' = (later, e) ∧
        (m, heard) :: later = trace := by
  rcases made : (b.make m).run d with ⟨heard, d'⟩
  rcases goes : (b.session rest).run d' with ⟨later, last⟩
  have whole : (b.session (m :: rest)).run d = ((m, heard) :: later, last) := by
    rw [session, StateT.run_bind, made]
    change (b.session rest >>= fun later => pure ((m, heard) :: later)).run d' = _
    rw [StateT.run_bind, goes]
    rfl
  rw [whole]
  constructor
  · rintro ⟨⟩
    exact ⟨heard, d', later, rfl, goes, rfl⟩
  · rintro ⟨_, _, _, ⟨⟩, same, rfl⟩
    cases goes.symm.trans same
    rfl

/-- Moves that raise and moves that complete the draft can be left out. Nothing else is heard from
the others, and the draft is the same in the end. -/
theorem session_filter (atomic : b.Atomic) {moves : List (Move σ)}
    {trace : List (Move σ × Heard ν)} (goes : (b.session moves).run d = (trace, e))
    {keep : Move σ × Heard ν → Bool} (drops : ∀ x, keep x = false → x.2.idle = true) :
    (b.session ((trace.filter keep).map Prod.fst)).run d = (trace.filter keep, e) := by
  induction moves generalizing d trace with
  | nil =>
    cases goes
    rfl
  | cons m rest ih =>
    obtain ⟨heard, d', later, made, on, rfl⟩ := session_cons_iff.1 goes
    cases kept : keep (m, heard) with
    | true =>
      rw [List.filter_cons_of_pos kept]
      exact session_cons_iff.2 ⟨heard, d', _, made, ih on, rfl⟩
    | false =>
      rw [List.filter_cons_of_neg (by simp [kept])]
      -- What is dropped leaves the draft as it was, so the others are made on the same draft.
      obtain rfl := make_idle atomic made (drops _ kept)
      exact ih on

/-- A draft can be completed any number of times, with the same result. -/
theorem session_replicate_build (b : Builder δ σ ν) (d : δ) (n : Nat) :
    (b.session (List.replicate n .build)).run d =
      (List.replicate n (.build, .build (b.complete d)), d) := by
  induction n with
  | zero => rfl
  | succ n ih => exact session_cons_iff.2 ⟨_, d, _, b.make_build d, ih, rfl⟩

theorem session_append {moves more : List (Move σ)} {trace later : List (Move σ × Heard ν)}
    {last : δ} (first : (b.session moves).run d = (trace, e))
    (second : (b.session more).run e = (later, last)) :
    (b.session (moves ++ more)).run d = (trace ++ later, last) := by
  induction moves generalizing d trace with
  | nil =>
    cases first
    exact second
  | cons m rest ih =>
    obtain ⟨heard, d', others, made, on, rfl⟩ := session_cons_iff.1 first
    exact session_cons_iff.2 ⟨heard, d', _, made, ih on, rfl⟩

/-- A host can leave out exactly the steps that raise. It hears the same from all that is left, it
ends with the same draft, and each time that it then completes the draft the outcome is the same. -/
def Traceless (b : Builder δ σ ν) : Prop :=
  ∀ moves d trace e, (b.session moves).run d = (trace, e) →
    let quiet := trace.filter fun x => !x.2.raised
    ∀ n, (b.session (quiet.map Prod.fst ++ List.replicate n .build)).run d =
      (quiet ++ List.replicate n (.build, .build (b.complete e)), e)

theorem Atomic.traceless (atomic : b.Atomic) : b.Traceless := by
  intro moves d trace e goes quiet n
  have drops : ∀ x : Move σ × Heard ν, (!x.2.raised) = false → x.2.idle = true := by
    intro x dropped
    exact Heard.idle_of_raised (by simpa using dropped)
  exact session_append (session_filter atomic goes drops) (b.session_replicate_build e n)

/-! ## Plain forms -/

/-- The step of a move, unless it raised or the move was none. -/
def taken : Move σ × Heard ν → List σ
  | (.step s, .step none) => [s]
  | _ => []

/-- The steps of a callback that do not raise. -/
def kept (b : Builder δ σ ν) : Routine σ ν → δ → List σ
  | .done, _ => []
  | .raise _, _ => []
  | .move m next, d =>
    let (heard, e) := (b.make m).run d
    taken (m, heard) ++ kept b (next heard) e

/-- A step that does not raise does what a step of another form does. -/
def Agrees (b : Builder δ σ ν) (apply : δ → τ → Except Refusal δ) (plain : σ → τ) (s : σ) : Prop :=
  ∀ d e, (b.perform s).on d = (.ok (), e) → apply d (plain s) = .ok e

end Builder

/-- All steps of a callback are of some sort, whatever it hears. -/
def Routine.All {σ ν : Type} (P : σ → Prop) : Routine σ ν → Prop
  | .done => True
  | .raise _ => True
  | .move m next => (∀ s, m = .step s → P s) ∧ ∀ heard, (next heard).All P

theorem Routine.all_of {σ ν : Type} {P : σ → Prop} (h : ∀ s, P s) (r : Routine σ ν) : r.All P := by
  induction r with
  | done => trivial
  | raise r => trivial
  | move m next ih => exact ⟨fun s _ => h s, ih⟩

namespace Builder

variable {δ σ τ ν : Type} {b : Builder δ σ ν} {d e : δ} {apply : δ → τ → Except Refusal δ}
  {plain : σ → τ}

theorem foldlM_taken (atomic : b.Atomic) {m : Move σ} {heard : Heard ν}
    (made : (b.make m).run d = (heard, e)) (agrees : ∀ s, m = .step s → b.Agrees apply plain s) :
    ((taken (m, heard)).map plain).foldlM apply d = .ok e := by
  cases m with
  | build =>
    cases made
    rfl
  | step s =>
    cases atomic s with
    | raises r raises =>
      cases (make_of_error (raises d)).symm.trans made
      rfl
    | performs change performs =>
      cases (make_of_ok (performs d)).symm.trans made
      have applied := agrees s rfl d _ (performs d)
      rw [taken, List.map_singleton, List.foldlM_cons, applied]
      rfl

/-- A draft is in the end what the steps that did not raise make of it. -/
theorem foldlM_session (atomic : b.Atomic) (agrees : ∀ s, b.Agrees apply plain s)
    {moves : List (Move σ)} {trace : List (Move σ × Heard ν)}
    (goes : (b.session moves).run d = (trace, e)) :
    ((trace.flatMap taken).map plain).foldlM apply d = .ok e := by
  induction moves generalizing d trace with
  | nil =>
    cases goes
    rfl
  | cons m rest ih =>
    obtain ⟨heard, d', later, made, on, rfl⟩ := session_cons_iff.1 goes
    have first := foldlM_taken atomic made fun s _ => agrees s
    rw [List.flatMap_cons, List.map_append, List.foldlM_append, first]
    exact ih on

theorem run_move {m : Move σ} {heard : Heard ν} (made : (b.make m).run d = (heard, e))
    (next : Heard ν → Routine σ ν) :
    (b.run (.move m next)).on d = (b.run (next heard)).on e := by
  have lifted : (liftM (b.make m) : Building δ (Heard ν)).on d = (.ok heard, e) := by
    show StateT.run (Except.ok <$> b.make m) d = _
    rw [StateT.run_map, made]
    rfl
  exact Building.on_bind_ok lifted _

/-- Whether a callback ends or raises, the draft is what the steps that did not raise make of it. -/
theorem foldlM_kept (atomic : b.Atomic) {r : Routine σ ν} (all : r.All (b.Agrees apply plain))
    (d : δ) : ((b.kept r d).map plain).foldlM apply d = .ok ((b.run r).on d).2 := by
  induction r generalizing d with
  | done => rfl
  | raise r => rfl
  | move m next ih =>
    rcases made : (b.make m).run d with ⟨heard, e⟩
    have first := foldlM_taken atomic made all.1
    rw [run_move made, kept, made]
    show ((taken (m, heard) ++ b.kept (next heard) e).map plain).foldlM apply d = _
    rw [List.map_append, List.foldlM_append, first]
    exact ih heard (all.2 heard) e

end Builder

/-! ## Flags -/

theorem FlagDraft.atomic : builder.Atomic := perform_settles

theorem FlagDraft.agrees (s : FlagStep) : builder.Agrees FlagDraft.apply id s := by
  intro d e performed
  cases s with
  | setHelp help =>
    cases performed
    rfl
  | addArgument fields =>
    obtain ⟨a, made, rfl⟩ := Building.checked_add_on_eq_ok.1 performed
    show (Argument.ofFields fields >>= fun a => _) = _
    rw [made]
    rfl
  | refused r => cases performed

/-! ## Commands -/

mutual

/-- What holds of a step if it holds of all steps of its callback holds of every step. -/
theorem HostStep.induction {P : HostStep → Prop}
    (step : ∀ s, (∀ name dest callback, s = .addSubcommand name dest callback → callback.All P) →
      P s) : (s : HostStep) → P s
  | .addSubcommand name dest callback => by
    refine step _ ?_
    rintro _ _ _ ⟨⟩
    exact Routine.all_of_induction step callback
  | .addAlias _ | .setHelp _ | .addArgument _ | .addFlag .. | .refused _ =>
    step _ (by rintro _ _ _ ⟨⟩)

theorem Routine.all_of_induction {P : HostStep → Prop}
    (step : ∀ s, (∀ name dest callback, s = .addSubcommand name dest callback → callback.All P) →
      P s) : (r : Routine HostStep (Schema Value)) → r.All P
  | .done => trivial
  | .raise _ => trivial
  | .move (.step s) next => by
    refine ⟨?_, fun heard => Routine.all_of_induction step (next heard)⟩
    rintro _ ⟨⟩
    exact HostStep.induction step s
  | .move .build next => by
    refine ⟨?_, fun heard => Routine.all_of_induction step (next heard)⟩
    rintro _ ⟨⟩

end

namespace CommandDraft

mutual

/-- The step with callbacks that go through the steps that did not raise. -/
def plain : HostStep → CommandStep
  | .addAlias aliases => .addAlias aliases
  | .setHelp help => .setHelp help
  | .addArgument fields => .addArgument fields
  | .addFlag long short dest help callback =>
    .addFlag long short dest help (FlagDraft.builder.kept callback (.start long short dest help))
  | .addSubcommand name dest callback =>
    .addSubcommand name dest (kept callback (.start name dest))
  | .refused r => .refused r
termination_by structural step => step

/-- The steps of a callback that do not raise, in plain form. -/
def kept : Routine HostStep (Schema Value) → CommandDraft Value → List CommandStep
  | .done, _ => []
  | .raise _, _ => []
  | .move (.step s) next, d =>
    match (perform s).on d with
    | (.ok (), e) => plain s :: kept (next (.step none)) e
    | (.error r, e) => kept (next (.step (some r))) e
  | .move .build next, d => kept (next (.build d.complete)) d
termination_by structural callback => callback

end

theorem atomic : builder.Atomic := perform_settles

theorem run_eq (r : Routine HostStep (Schema Value)) : run r = builder.run r := by
  induction r with
  | done => rfl
  | raise r => rfl
  | move m next ih =>
    cases m with
    | step s =>
      rw [run, Builder.run]
      simp only [ih]
      rfl
    | build =>
      rw [run, Builder.run]
      simp only [ih]
      rfl

theorem kept_eq (r : Routine HostStep (Schema Value)) (d : CommandDraft Value) :
    kept r d = (builder.kept r d).map plain := by
  induction r generalizing d with
  | done => rfl
  | raise r => rfl
  | move m next ih =>
    cases m with
    | step s =>
      rcases performed : (perform s).on d with ⟨_ | _, e⟩
      · have made := Builder.make_of_error (b := builder) performed
        rw [kept, performed, Builder.kept, made]
        exact ih _ e
      · have made := Builder.make_of_ok (b := builder) performed
        rw [kept, performed, Builder.kept, made]
        exact congrArg (plain s :: ·) (ih _ e)
    | build => exact ih _ d

theorem applyAll_eq (d : CommandDraft Value) (steps : List CommandStep) :
    d.applyAll steps = steps.foldlM apply d := by
  induction steps generalizing d with
  | nil => rfl
  | cons step rest ih =>
    rw [applyAll, List.foldlM_cons]
    simp only [ih]

theorem agrees (s : HostStep) : builder.Agrees apply plain s := by
  induction s using HostStep.induction with
  | step s ih =>
    intro d e performed
    cases s with
    | addAlias aliases =>
      cases performed
      rfl
    | setHelp help =>
      cases performed
      rfl
    | addArgument fields =>
      obtain ⟨a, made, rfl⟩ := Building.checked_add_on_eq_ok.1 performed
      rw [plain, apply, made]
      rfl
    | addFlag long short dest help callback =>
      obtain ⟨f, ran, rfl⟩ := Building.child_add_on_eq_ok.1 performed
      have inner := Builder.foldlM_kept FlagDraft.atomic (Routine.all_of FlagDraft.agrees callback)
        (.start long short dest help)
      rw [List.map_id, ran] at inner
      rw [plain, apply, FlagDraft.applyAll, inner]
      rfl
    | addSubcommand name dest callback =>
      obtain ⟨s, ran, rfl⟩ := Building.child_add_on_eq_ok.1 performed
      -- The parent sees the draft of the child as its callback has left it.
      have inner := Builder.foldlM_kept atomic (ih name dest callback rfl) (.start name dest)
      rw [← kept_eq, ← applyAll_eq, ← run_eq, ran] at inner
      rw [plain, apply, inner]
      rfl
    | refused r => cases performed

end CommandDraft

/-! ## Plain forms as a host takes them -/

namespace Building

variable {δ α γ : Type}

/-- An action does what is done apart, or raises what is refused apart. -/
def Follows (m : Building δ Unit) (d : δ) : Except Refusal δ → Prop
  | .ok e => m.on d = (.ok (), e)
  | .error r => ∃ e, m.on d = (.error (.refusal r), e)

theorem follows_checked (x : Except Refusal α) (add : α → δ → δ) (d : δ) :
    (checked x >>= fun a => modify (add a)).Follows d (x >>= fun a => pure (add a d)) := by
  cases x with
  | ok a => rfl
  | error r => exact ⟨d, rfl⟩

theorem follows_child {start : γ} {callback : Building γ Unit} {x : Except Refusal γ}
    (follows : callback.Follows start x) (add : γ → δ → δ) (d : δ) :
    (child start callback >>= fun c => modify (add c)).Follows d
      (x >>= fun c => pure (add c d)) := by
  cases x with
  | ok c =>
    have ran : callback.on start = (.ok (), c) := follows
    exact child_add_on_eq_ok.2 ⟨c, ran, rfl⟩
  | error r =>
    obtain ⟨c, raised⟩ := follows
    exact ⟨d, child_add_on_of_error raised add d⟩

end Building

theorem Builder.follows_through {δ σ ν : Type} {b : Builder δ σ ν} {s : σ} {rest : List σ} {d : δ}
    {x : Except Refusal δ} {f : δ → Except Refusal δ} (first : (b.perform s).Follows d x)
    (later : ∀ e, x = .ok e → (b.run (.through rest)).Follows e (f e)) :
    (b.run (.through (s :: rest))).Follows d (x >>= f) := by
  cases x with
  | error r =>
    obtain ⟨e, raised⟩ := first
    exact ⟨e, run_move (make_of_error raised) _⟩
  | ok e =>
    have moved := run_move (make_of_ok first) fun
      | .step (some r) => .raise r
      | _ => .through rest
    have goes := later e rfl
    show (b.run (.through (s :: rest))).Follows d (f e)
    cases done : f e with
    | ok last =>
      rw [done] at goes
      exact moved.trans goes
    | error r =>
      rw [done] at goes
      obtain ⟨last, raised⟩ := goes
      exact ⟨last, moved.trans raised⟩

theorem FlagDraft.follows (s : FlagStep) (d : FlagDraft Value) :
    (FlagDraft.perform s).Follows d (d.apply s) := by
  cases s with
  | setHelp help => rfl
  | addArgument fields =>
    exact Building.follows_checked (Argument.ofFields fields) _ d
  | refused r => exact ⟨d, rfl⟩

theorem FlagDraft.follows_all (steps : List FlagStep) (d : FlagDraft Value) :
    (builder.run (.through steps)).Follows d (d.applyAll steps) := by
  induction steps generalizing d with
  | nil => rfl
  | cons s rest ih =>
    rw [FlagDraft.applyAll, List.foldlM_cons]
    exact Builder.follows_through (follows s d) fun e _ => ih e

namespace CommandDraft

mutual

/-- A host whose callbacks take steps in turn does what the steps do apart from it. -/
theorem follows : (s : CommandStep) → (d : CommandDraft Value) →
    (perform s.hosted).Follows d (d.apply s)
  | .addAlias aliases, d => rfl
  | .setHelp help, d => rfl
  | .addArgument fields, d => by
    rw [apply, CommandStep.hosted, perform]
    exact Building.follows_checked _ _ d
  | .addFlag long short dest help steps, d => by
    rw [apply, CommandStep.hosted, perform]
    exact Building.follows_child (FlagDraft.follows_all steps _) _ d
  | .addSubcommand name dest steps, d => by
    rw [apply, CommandStep.hosted, perform]
    exact Building.follows_child (follows_all steps _) _ d
  | .refused r, d => ⟨d, rfl⟩

theorem follows_all : (steps : List CommandStep) → (d : CommandDraft Value) →
    (run (.through (CommandStep.hostedAll steps))).Follows d (d.applyAll steps)
  | [], d => rfl
  | s :: rest, d => by
    rw [run_eq, applyAll]
    refine Builder.follows_through (follows s d) fun e _ => ?_
    rw [← run_eq]
    exact follows_all rest e

end

/-- To catch what a step raises is to attempt the step. -/
theorem caught_eq_attempt (s : CommandStep) (d : CommandDraft Value) :
    ((perform s.hosted).caught.run d).2 = d.attempt s := by
  have follows := follows s d
  rw [attempt]
  cases applied : d.apply s with
  | ok e =>
    rw [applied] at follows
    rw [Building.caught_of_ok follows]
    rfl
  | error r =>
    rw [applied] at follows
    obtain ⟨e, raised⟩ := follows
    rw [Building.caught_of_error raised]
    exact (perform_settles s.hosted).eq_of_error raised

end CommandDraft

/-- What is left of a session in which steps raise. -/
structure LeavesNoTrace : Prop where
  /-- Steps that raise leave no trace in the draft of a flag. -/
  flag : FlagDraft.builder.Traceless
  /-- Steps that raise leave no trace in the draft of a command. -/
  command : CommandDraft.builder.Traceless
  /-- A callback that raises adds no flag, whatever it did to the flag's draft before. -/
  addFlag (d : CommandDraft Value) (long short dest help : Value)
    (callback : Routine FlagStep (Flag Value)) (r : Raised) (f : FlagDraft Value) :
    (FlagDraft.builder.run callback).on (.start long short dest help) = (.error r, f) →
    (CommandDraft.perform (.addFlag long short dest help callback)).on d = (.error r, d)
  /-- A callback that raises adds no sub-command, whatever it did to its draft before. -/
  addSubcommand (d : CommandDraft Value) (name dest : Value)
    (callback : Routine HostStep (Schema Value)) (r : Raised) (c : CommandDraft Value) :
    (CommandDraft.run callback).on (.start name dest) = (.error r, c) →
    (CommandDraft.perform (.addSubcommand name dest callback)).on d = (.error r, d)
  /-- The steps of a session that did not raise lead to the same draft of a flag. -/
  flagTaken (moves : List (Move FlagStep)) (d : FlagDraft Value) trace e :
    (FlagDraft.builder.session moves).run d = (trace, e) →
    d.applyAll (trace.flatMap Builder.taken) = .ok e
  /-- The steps of a session that did not raise, in plain form at every depth, lead to the same
  draft of a command. -/
  commandTaken (moves : List (Move HostStep)) (d : CommandDraft Value) trace e :
    (CommandDraft.builder.session moves).run d = (trace, e) →
    d.applyAll ((trace.flatMap Builder.taken).map CommandDraft.plain) = .ok e
  /-- A host does the same with a step in plain form. -/
  plain (s : HostStep) (d e : CommandDraft Value) : (CommandDraft.perform s).on d = (.ok (), e) →
    (CommandDraft.perform (CommandDraft.plain s).hosted).on d = (.ok (), e)
  /-- With a step in plain form a host does what the step does apart from it. -/
  hosted s (d : CommandDraft Value) : (CommandDraft.perform s.hosted).Follows d (d.apply s) ∧
    ((CommandDraft.perform s.hosted).caught.run d).2 = d.attempt s
  /-- Completed again, a draft gives the same flag, which equals itself if its arguments do. -/
  flagAgain (d : FlagDraft Value) f g : d.complete = .ok f → d.complete = .ok g →
    (∀ a ∈ f.args, Value.argumentEqv true a a = true) → Value.eq (.flag f) (.flag g) = true
  /-- Completed again, a draft gives the same schema, which equals itself if its arguments do. -/
  schemaAgain (d : CommandDraft Value) m n : d.complete = .ok m → d.complete = .ok n →
    (∀ a, Holder.argument a ∈ m.holders → Value.argumentEqv true a a = true) →
    Value.eq (.schema m) (.schema n) = true

/-- Steps that raise leave no trace, neither in the draft of a flag nor in that of a command, nor in
that of its parent. What is left of a session is the steps that did not raise, and they are done
again with the same outcome. -/
theorem raising_steps_leave_no_trace : LeavesNoTrace where
  flag := FlagDraft.atomic.traceless
  command := CommandDraft.atomic.traceless
  addFlag d long short dest help callback r f raised := Building.child_add_on_of_error raised _ d
  addSubcommand d name dest callback r c raised := Building.child_add_on_of_error raised _ d
  flagTaken moves d trace e goes := by
    have applied := Builder.foldlM_session FlagDraft.atomic FlagDraft.agrees goes
    rwa [List.map_id] at applied
  commandTaken moves d trace e goes := by
    rw [CommandDraft.applyAll_eq]
    exact Builder.foldlM_session CommandDraft.atomic CommandDraft.agrees goes
  plain s d e performed := by
    have follows := CommandDraft.follows (CommandDraft.plain s) d
    rwa [CommandDraft.agrees s d e performed] at follows
  hosted s d := ⟨CommandDraft.follows s d, CommandDraft.caught_eq_attempt s d⟩
  flagAgain d f g first second self := by
    cases first.symm.trans second
    exact f.eqv_self self
  schemaAgain d m n first second self := by
    cases first.symm.trans second
    exact Schema.eqv_self self

/-- Adds a sub-command whose callback catches that an argument without key is refused. -/
def removal : Move HostStep :=
  .step (.addSubcommand (.str "remove") .unset
    (.move (.step (.addArgument [("dest", .null)])) fun _ =>
      .move (.step (.addAlias [.str "rm"])) fun _ => .done))

/-- Before this, a callback fails after it has changed the child, and an argument is refused. -/
def removals : List (Move HostStep) :=
  [.step (.addSubcommand (.str "add") .unset
      (.move (.step (.addAlias [.str "new"])) fun _ => .raise (.crash ⟨"RuntimeError", "", none⟩))),
    .step (.addArgument [("dest", .null)]), removal]

theorem raising_steps_leave_no_trace_removals :
    let d := CommandDraft.start (.str "todo") .unset
    let n : Schema Value := ⟨some "todo", "todo", [], none, [], [],
      [⟨some "remove", "remove", ["rm"], none, [], [], []⟩]⟩
    ∃ trace e, (CommandDraft.builder.session removals).run d = (trace, e) ∧
      trace.map (·.2.raised) = [true, true, false] ∧ (CommandDraft.builder.session
        [removal, .build]).run d = ([(removal, .step none), (.build, .build (.ok n))], e) := by
  intro d n
  exact ⟨_, _, rfl, rfl, raising_steps_leave_no_trace.command removals d _ _ rfl 1⟩

end CommandGrammar
