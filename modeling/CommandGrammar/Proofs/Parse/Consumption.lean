import CommandGrammar.Proofs.Conversion.Reads
import CommandGrammar.Proofs.Parse.Resolution

/-!
# Consumption of a line

A command that succeeds leaves no token of the list as it stands then, and it goes past the end of
the list only where a converter takes more tokens than it was handed (`command_consumes`).
-/

namespace CommandGrammar

/-- No more tokens are taken than there are. -/
def State.Within (s : State) : Prop := s.index ≤ s.tokens.length

theorem State.within_of_next? {s : State} {token : Token} (next : s.next? = some token) :
    s.Within ∧ s.advance.Within :=
  ⟨Nat.le_of_lt (index_lt_of_next? next), index_lt_of_next? next⟩

theorem State.Within.take {s : State} {events : List Event} {dest : String} {v : Value}
    {count : Nat} (within : s.Within) (le : count ≤ s.left.length) :
    (s.take events dest v count).Within := by
  rw [left, List.length_drop] at le
  unfold Within at within ⊢
  show s.index + count ≤ s.tokens.length
  omega

theorem State.Within.congr {s t : State} (within : s.Within)
    (same : t.tokens = s.tokens ∧ t.index = s.index) : t.Within := by
  unfold Within
  rw [same.1, same.2]
  exact within

namespace Parser

variable {p : Parser} {flags : List (Flag Value)} {inline active active' : Bool}
  {a : Argument Value} {args : List (Argument Value)} {s t u v w : State} {x y : Stage}
  {n m sub : Schema Value} {token : Token}

/-- For an argument, the converter of its type takes no more tokens than it is handed in a
state. -/
def Frugal (p : Parser) (a : Argument Value) (s : State) : Prop :=
  ∀ v count events, p.Converts a s.left v count events → count ≤ s.left.length

theorem argument_within (within : s.Within) (frugal : p.Frugal a s)
    (ok : p.argument a s = .ok t) : t.Within := by
  obtain ⟨v, count, events, converts, rfl⟩ := argument_eq_ok_iff.1 ok
  exact within.take (frugal v count events converts)

theorem Asks.within {inline' : Bool} {missing : List (Argument Value)}
    (asks : p.Asks inline args s inline' missing u) (within : s.Within)
    (frugal : ∀ inline' a others v, p.Asks inline args s inline' (a :: others) v → v.left ≠ [] →
      p.Frugal a v) : u.Within := by
  induction asks with
  | here => exact within
  | later ok asks ih =>
    apply ih (argument_within within (frugal _ _ _ _ .here (left_ne_nil_of_argument ok)) ok)
    intro inline' b others v asks'
    exact frugal inline' b others v (.later ok asks')

/-- An inline value that is cut off its flag leaves the list no shorter. -/
theorem Opens.within {c : Char} {rest : List Char} {f : Flag Value}
    (opens : p.Opens token c rest f s inline u) (next : s.next? = some token) : u.Within := by
  have hlt := State.index_lt_of_next? next
  cases opens with
  | plain _ => exact hlt
  | @inline _ pieces _ _ cut =>
    obtain ⟨middle, others, -, hpieces, -⟩ := Token.cut?_eq_some cut
    have hlength := length_replaceAt hlt pieces
    have hone : 0 < pieces.length := by
      rw [hpieces]
      exact Nat.succ_pos _
    show s.index + 1 ≤ (replaceAt s.tokens s.index pieces).length
    omega

/-- What each step of a level keeps: no more tokens are taken than there are. -/
theorem Step.within (step : p.Step flags x y) (within : x.state.Within)
    (frugal : ∀ a role u, p.Resolves flags x a role u → p.Frugal a u) : y.state.Within := by
  cases step with
  | ending next flagged ends => exact (State.within_of_next? next).2
  | @flag active args s _ token c rest next flagged ends ok =>
    obtain ⟨f, marks, inline, u, v, spelled, opens, harguments, rfl⟩ := flag_eq_ok ok
    have meets : p.Meets flags ⟨active, args, s⟩ token c rest ⟨f, marks⟩ :=
      ⟨next, flagged, ends, spelled⟩
    have hu : u.Within := opens.within ((next?_foldl_mark marks s).trans next)
    obtain ⟨inline', missing, r, events, asks, -, rfl⟩ := flagArguments_eq_ok harguments
    have hr : r.Within := by
      apply asks.within hu
      intro inline' a others v asks left
      exact frugal a _ v (.ofFlag meets opens asks left)
    exact hr.congr ⟨rfl, rfl⟩
  | argument next plain ok =>
    exact argument_within within (frugal _ _ _ (.positional next plain)) ok

theorem Steps.within (steps : p.Steps flags x y) (within : x.state.Within)
    (frugal : ∀ z a role u, p.Steps flags x z → p.Resolves flags z a role u → p.Frugal a u) :
    y.state.Within := by
  induction steps with
  | refl => exact within
  | @tail y z steps step ih =>
    refine step.within ih ?_
    intro a role u resolves
    exact frugal y a role u steps resolves

theorem Enters.within {accepted : Bool} (enters : p.Enters accepted n token active s sub v)
    (next : s.next? = some token) : v.Within := by
  cases enters with
  | named selects => exact (State.within_of_next? next).2
  | unnamed _ tried _ =>
    obtain ⟨events, rfl⟩ := tried.scratch
    exact (State.within_of_next? next).1

theorem HandsOver.position (handed : HandsOver n token s sub v u w) :
    w.tokens = u.tokens ∧ w.index = u.index := by
  cases handed with
  | named _ => exact ⟨rfl, rfl⟩
  | unnamed _ _ => exact ⟨rfl, rfl⟩

theorem defaults_position (ok : p.defaults args s = .ok t) :
    t.tokens = s.tokens ∧ t.index = s.index := by
  rw [defaults_eq_fallBack] at ok
  exact fallBack_ok ok

theorem next?_of_word {leaf : Bool}
    (word : p.level flags leaf active args s = .word token active' t) : t.next? = some token := by
  obtain ⟨x, -, stops⟩ := level_eq_iff.1 word
  cases stops with
  | word next _ _ => exact next

/-- A command that succeeds leaves no token of the list as it stands at its end. If each converter
on its accepted path takes no more tokens than it was handed, the command stops at the end of the
list. -/
theorem command_consumes (ok : p.command active s n = .ok t) :
    t.tokens.length ≤ t.index ∧
    (s.index ≤ s.tokens.length →
      (∀ m x a role u v count events, p.Comes true active s n m x →
        p.Resolves m.flags x a role u → p.Converts a u.left v count events →
        count ≤ u.left.length) →
      t.index = t.tokens.length) := by
  induction n using Schema.induction generalizing active s t with
  | step n ih =>
    obtain ⟨x, u, steps, next, hdefaults, rfl⟩ |
      ⟨token, active', r, sub, v, u, w, word, enters, hsub, handed, rfl⟩ := command_ends ok
    · obtain ⟨htokens, hindex⟩ := defaults_position hdefaults
      show u.tokens.length ≤ u.index ∧ (_ → _ → u.index = u.tokens.length)
      rw [htokens, hindex]
      have done : x.state.tokens.length ≤ x.state.index := List.getElem?_eq_none_iff.1 next
      refine ⟨done, ?_⟩
      intro within frugal
      have hx : x.state.Within := by
        refine steps.within within ?_
        intro y a role u steps resolves v count events
        exact frugal n y a role u v count events (.level steps) resolves
      exact Nat.le_antisymm hx done
    · obtain ⟨htokens, hindex⟩ := handed.position
      show w.tokens.length ≤ w.index ∧ (_ → _ → w.index = w.tokens.length)
      rw [htokens, hindex]
      obtain ⟨done, exactly⟩ := ih sub enters.mem hsub
      refine ⟨done, ?_⟩
      intro _ frugal
      apply exactly (enters.within (next?_of_word word))
      intro m x a role z value count events comes
      exact frugal m x a role z value count events (.down word enters comes)

/-! ## Builtin types -/

theorem frugal_of_builtin {b : Builtin} (builtin : p.converterOf a.type = some (.builtin b)) :
    p.Frugal a s := by
  rintro v count events ⟨token, rest, converter, step, hgiven, hconverter, hanswer, hstep⟩
  cases builtin.symm.trans hconverter
  obtain ⟨-, hconvert⟩ := Prod.mk.inj hanswer
  obtain ⟨-, rfl⟩ := Builtin.convert_eq_conversion_iff.1 hconvert
  cases hstep
  rw [hgiven]
  exact Nat.succ_pos _

theorem frugal_forLine (source : String) (a : Argument Value) (s : State) :
    (forLine source).Frugal a s := by
  cases htype : a.type with
  | named name =>
    cases hresolve : TypeRegistry.builtins.resolve name with
    | none =>
      rintro v count events ⟨_, _, converter, _, -, hconverter, -⟩
      rw [htype] at hconverter
      cases hresolve.symm.trans hconverter
    | some c =>
      obtain ⟨b, rfl⟩ := TypeRegistry.builtin_of_resolve hresolve
      refine frugal_of_builtin (b := b) ?_
      rw [htype]
      exact hresolve
  | host h =>
    rintro v count events ⟨_, _, converter, _, -, hconverter, hanswer, -⟩
    rw [htype] at hconverter
    cases hconverter
    cases (Prod.mk.inj hanswer).2

theorem command_consumes_calculator : ∃ t,
    (forLine "add -t=3 1 2").command true ((forLine "add -t=3 1 2").initial 0) calculator = .ok t ∧
      t.index = t.tokens.length ∧ t.tokens.length = 5 := by
  obtain ⟨m, ok, -⟩ : ∃ m, ((forLine "add -t=3 1 2").parse calculator 0).result = .ok m ∧
      m.keys = ["mode", "scaled", "times", "x", "y", "pair", "compute"] :=
    Report.exists_ok (by decide +kernel)
  obtain ⟨t, ht, -, htokens⟩ := parse_eq_ok ok
  have hlength : ((forLine "add -t=3 1 2").parse calculator 0).tokens.length = 5 := by
    decide +kernel
  refine ⟨t, ht, ?_, htokens ▸ hlength⟩
  apply (command_consumes ht).2 (Nat.zero_le _)
  intro m x a role u v count events _ _
  exact frugal_forLine _ a u v count events

end Parser

end CommandGrammar
