import CommandGrammar.Proofs.Parse.Rejection
import CommandGrammar.Proofs.Schema.Literal

/-!
# Registered types

Whatever a registry is asked to register, it finds under a name the converter that was registered
last under it (`resolve_attemptAll_of_latest`). An argument refers to a type by the name that it was
declared with, trimmed. So a parse converts it by the type that was registered under this name, if
the name has no blanks at its ends (`registered_type_resolved`). A name that has some can be
registered too, but no argument refers to it (`padded_type_unregistered`).
-/

namespace CommandGrammar

/-! ## Registering types -/

/-- What a registry is asked to register. Without a converter only the name is checked. -/
structure TypeCall where
  name : Value
  converter : Value

namespace TypeCall

variable {call : TypeCall} {calls : List TypeCall} {name : String}

/-- A call registers a converter under a name. -/
structure Registers (call : TypeCall) (s : String) (h : Handle) : Prop where
  name : call.name = .str s
  converter : call.converter = .callable h
  nonempty : (Text.trim s).isEmpty = false

/-- The converter that calls registered last under a name. -/
def Latest (calls : List TypeCall) (name : String) (h : Handle) : Prop :=
  ∃ before call after, calls = before ++ call :: after ∧ call.Registers name h ∧
    ∀ later ∈ after, ∀ h', ¬later.Registers name h'

/-- A name under which calls registered something has a converter that was registered last. -/
theorem exists_latest (accepted : ∃ call ∈ calls, ∃ h, call.Registers name h) :
    ∃ h, Latest calls name h := by
  induction calls with
  | nil =>
    obtain ⟨call, mem, -⟩ := accepted
    cases mem
  | cons call rest ih =>
    by_cases later : ∃ call ∈ rest, ∃ h, call.Registers name h
    · obtain ⟨h, before, call', after, rfl, registers, last⟩ := ih later
      exact ⟨h, call :: before, call', after, rfl, registers, last⟩
    · push Not at later
      obtain ⟨call', mem, h, registers⟩ := accepted
      rcases List.mem_cons.1 mem with rfl | mem
      · exact ⟨h, [], call', rest, rfl, registers, later⟩
      · exact absurd registers (later call' mem h)

end TypeCall

namespace TypeRegistry

variable {r r' : TypeRegistry} {call : TypeCall} {calls : List TypeCall} {name : String}
  {h : Handle} {e : Event}

theorem register_eq_ok {nameValue converter : Value}
    (ok : r.register nameValue converter = .ok (r', e)) :
    ∃ name h, (TypeCall.mk nameValue converter).Registers name h ∧
      r' = ⟨r.converters.insert name (.host h)⟩ ∧ e = .typeRegistered name (nameOf h) := by
  obtain ⟨name, hname, stored⟩ := bind_eq_ok.1 ok
  unfold checkName at hname
  split at hname
  · split at hname
    · cases hname
    · rename_i nonempty
      cases hname
      split at stored
      · rename_i h
        cases stored
        exact ⟨name, h, ⟨rfl, rfl, Bool.eq_false_iff.2 nonempty⟩, rfl, rfl⟩
      · cases stored
  · cases hname

/-- A call that is accepted, and not for want of a converter, registers one under a name. -/
theorem registerGiven_eq_ok_iff :
    r.registerGiven call.name call.converter = .ok (some (r', e)) ↔
      ∃ name h, call.Registers name h ∧ r' = ⟨r.converters.insert name (.host h)⟩ ∧
        e = .typeRegistered name (nameOf h) := by
  constructor
  · intro ok
    unfold registerGiven at ok
    split at ok
    · obtain ⟨_, -, ok⟩ := bind_eq_ok.1 ok
      cases ok
    · obtain ⟨outcome, registered, same⟩ := map_eq_ok.1 ok
      cases same
      exact register_eq_ok registered
  · rintro ⟨name, h, ⟨hname, hconverter, nonempty⟩, rfl, rfl⟩
    rw [hname, hconverter]
    show some <$> r.register (.str name) (.callable h) = _
    rw [register, checkName, if_neg (Bool.eq_false_iff.1 nonempty)]
    rfl

/-- The registry after a call. One that is refused leaves it as it was. -/
def attempt (r : TypeRegistry) (call : TypeCall) : TypeRegistry :=
  match r.registerGiven call.name call.converter with
  | .ok (some (r', _)) => r'
  | _ => r

/-- The registry after calls, one after the other. -/
def attemptAll (r : TypeRegistry) (calls : List TypeCall) : TypeRegistry := calls.foldl attempt r

theorem attempt_of_registers (registers : call.Registers name h) :
    r.attempt call = ⟨r.converters.insert name (.host h)⟩ := by
  rw [attempt, registerGiven_eq_ok_iff.2 ⟨name, h, registers, rfl, rfl⟩]

/-- A call that registers nothing under a name changes nothing about it. -/
theorem resolve_attempt_of_not (registers : ∀ h, ¬call.Registers name h) :
    (r.attempt call).resolve name = r.resolve name := by
  unfold attempt
  split
  · rename_i r' e ok
    obtain ⟨name', h, registers', rfl, -⟩ := registerGiven_eq_ok_iff.1 ok
    have other : name ≠ name' := by
      rintro rfl
      exact registers h registers'
    exact (Mapping.get?_insert _ _ _ _).trans (if_neg other)
  · rfl

theorem resolve_attemptAll_of_not (registers : ∀ call ∈ calls, ∀ h, ¬call.Registers name h) :
    (r.attemptAll calls).resolve name = r.resolve name := by
  induction calls generalizing r with
  | nil => rfl
  | cons call rest ih =>
    obtain ⟨first, others⟩ := List.forall_mem_cons.1 registers
    exact (ih others).trans (resolve_attempt_of_not first)

/-- Under a name the converter is found that was registered last. -/
theorem resolve_attemptAll_of_latest (latest : TypeCall.Latest calls name h) :
    (r.attemptAll calls).resolve name = some (.host h) := by
  obtain ⟨before, call, after, rfl, registers, last⟩ := latest
  have split : r.attemptAll (before ++ call :: after) =
      ((r.attemptAll before).attempt call).attemptAll after := List.foldl_append
  rw [split, resolve_attemptAll_of_not last, attempt_of_registers registers]
  exact (Mapping.get?_insert _ _ _ _).trans (if_pos rfl)

end TypeRegistry

/-! ## Arguments of registered types -/

/-- An argument that is declared with a name as its type, or with none where it is the name of the
type that arguments have by default: with its fields, or by a literal. -/
inductive Argument.DeclaredWith (a : Argument Value) (s : String) : Prop
  | fields {fields : Fields} (typed : fields.getD "type" (.str "string") = .str s)
      (ok : ofFields fields = .ok a)
  | literal {entries : List (Value × Value)}
      (typed : (valueUnder? "type" entries).getD (.str "string") = .str s)
      (ok : declared (.dict entries) = .ok a)

/-- A name of a type is read without the blanks at its ends. -/
theorem Value.asType_str_eq_ok {s : String} {type : TypeRef}
    (ok : (Value.str s).asType = .ok type) : type = .named (Text.trim s) := by
  unfold asType asField at ok
  dsimp only at ok
  split at ok
  · cases ok
  · cases ok
    rfl

/-- An argument refers to the type by the trimmed name. -/
theorem Argument.DeclaredWith.type {a : Argument Value} {s : String} (declared : a.DeclaredWith s) :
    a.type = .named (Text.trim s) := by
  have named : ∀ {fields : Fields}, fields.getD "type" (.str "string") = .str s →
      ofFields fields = .ok a → a.type = .named (Text.trim s) := by
    intro fields typed ok
    have read := (readFrom_of_ofFields ok).type
    rw [typed] at read
    exact Value.asType_str_eq_ok read
  cases declared with
  | fields typed ok => exact named typed ok
  | @literal entries typed ok =>
    unfold Argument.declared at ok
    dsimp only at ok
    split at ok
    · cases ok
    · obtain ⟨options, -, ok⟩ := bind_eq_ok.1 ok
      have known : "type" ∈ literalKeys := by decide
      refine named ?_ ok
      rw [Fields.getD, ← typed, ← Fields.lookup_namedEntries known]
      rfl

namespace Parser

variable {p : Parser} {accepted : Bool} {a : Argument Value} {st : State} {token : Token}
  {converter : Converter}

/-- What becomes of an argument is what a converter answers to the tokens that are left, of which
the first is given. -/
def ConvertedBy (p : Parser) (converter : Converter) (a : Argument Value) (st : State)
    (token : Token) : Prop :=
  p.argument a st = accept a token
    (st.report (p.answer converter token st.advance.left a).1)
    (p.answer converter token st.advance.left a).2

theorem argument_of_unregistered (next : st.next? = some token)
    (none : p.converterOf a.type = none) :
    p.argument a st = .halt (.fault (.unregistered a token)) st := by
  have left : st.tokens.drop st.index = token :: st.advance.left := State.left_eq_cons next
  simp only [argument, left, none]

/-- Whatever a registry was asked to register, under a name that it accepted it has the converter
that was registered last. An argument that was declared with this name as its type is converted by
it, where a parse comes to resolve the argument, if the name has no blanks at its ends. If it has
some, the argument is converted by the type of the trimmed name; only if there is none, its type is
not registered. -/
theorem registered_type_resolved {r : TypeRegistry} {calls : List TypeCall} {s : String}
    {schema m : Schema Value} {start : Nat} {x : Stage} {role : Role}
    (registered : ∃ call ∈ calls, ∃ h, call.Registers s h) (types : p.types = r.attemptAll calls)
    (declared : a.DeclaredWith s)
    (comes : p.Comes accepted p.options.parseFlags (p.initial start) schema m x)
    (resolves : p.Resolves m.flags x a role st) (next : st.next? = some token) :
    ∃ h, TypeCall.Latest calls s h ∧ p.types.resolve s = some (.host h) ∧
      (Text.trim s = s → p.ConvertedBy (.host h) a st token) ∧
      (Text.trim s ≠ s →
        (∀ converter, p.types.resolve (Text.trim s) = some converter →
          p.ConvertedBy converter a st token) ∧
        (p.types.resolve (Text.trim s) = none →
          p.Fails accepted schema start a role st (.unregistered a token))) := by
  obtain ⟨h, latest⟩ := TypeCall.exists_latest registered
  have found : p.types.resolve s = some (.host h) := by
    rw [types]
    exact TypeRegistry.resolve_attemptAll_of_latest latest
  have typed : p.converterOf a.type = p.types.resolve (Text.trim s) := by
    rw [declared.type]
    rfl
  refine ⟨h, latest, found, ?_, ?_⟩
  · intro trimmed
    rw [trimmed, found] at typed
    exact argument_of_converter next typed
  · intro padded
    constructor
    · intro converter resolved
      exact argument_of_converter next (typed.trans resolved)
    · intro none
      exact resolves.fails comes (Fault.fresh_ofToken (by decide))
        (argument_of_unregistered next (typed.trans none))

/-- A command whose one argument is of the given type. -/
def shape (type : String) : Schema Value where
  name := some "shape"
  dest := "shape"
  aliases := []
  help := none
  args := [.ofType "where" type true]
  flags := []
  subcommands := []

/-- A parser of one word, which a converter answers with its own label. -/
def labelled (calls : List TypeCall) : Parser where
  source := "here"
  types := TypeRegistry.builtins.attemptAll calls
  options := .standard
  converters := fun h _ _ => ([], .value (.str h.label))
  makers := .keeping

/-- A call that registers the converter of a label. -/
def labelCall (name label : String) : TypeCall := ⟨.str name, .callable ⟨label, none⟩⟩

theorem labelCall_registers {name : String} (label : String)
    (nonempty : (Text.trim name).isEmpty = false) :
    (labelCall name label).Registers name ⟨label, none⟩ := ⟨rfl, rfl, nonempty⟩

theorem next_labelled (calls : List TypeCall) :
    ((labelled calls).initial 0).next? = some ⟨"here", 0, 4, false⟩ := by
  have initial : (labelled calls).initial 0 = (forLine "here").initial 0 := rfl
  rw [initial]
  rfl

/-- The stage at which the word is met. -/
def shapeStage (calls : List TypeCall) (type : String) : Stage :=
  ⟨true, (shape type).args, (labelled calls).initial 0⟩

theorem comes_labelled (calls : List TypeCall) (type : String) :
    (labelled calls).Comes true true ((labelled calls).initial 0) (shape type) (shape type)
      (shapeStage calls type) :=
  .level .refl

/-- The word is handed to the argument. -/
theorem resolves_labelled (calls : List TypeCall) (type : String) :
    (labelled calls).Resolves (shape type).flags (shapeStage calls type)
      (.ofType "where" type true) .positional ((labelled calls).initial 0) :=
  .positional (next_labelled calls) rfl

/-- The fields of an argument of a type. -/
def typed (type : String) : Fields := [("dest", .str "where"), ("type", .str type)]

/-- A type that is registered twice is the later one. -/
theorem registered_type_resolved_twice :
    let calls := [labelCall "point" "old", labelCall "  " "blank", labelCall "point" "new"]
    ∃ a role st token,
      (labelled calls).Comes true true ((labelled calls).initial 0) (shape "point")
        (shape "point") (shapeStage calls "point") ∧
      (labelled calls).Resolves (shape "point").flags (shapeStage calls "point") a role st ∧
      a.DeclaredWith "point" ∧ TypeCall.Latest calls "point" ⟨"new", none⟩ ∧
      (labelled calls).ConvertedBy (.host ⟨"new", none⟩) a st token := by
  intro calls
  have registered : ∃ call ∈ calls, ∃ h, call.Registers "point" h :=
    ⟨labelCall "point" "old", List.mem_cons_self, _, labelCall_registers "old" rfl⟩
  have made : Argument.ofFields (typed "point") = .ok (.ofType "where" "point" true) := rfl
  have declared : (Argument.ofType "where" "point" true).DeclaredWith "point" := .fields rfl made
  have comes := comes_labelled calls "point"
  have resolves := resolves_labelled calls "point"
  obtain ⟨h, latest, found, trimmed, -⟩ :=
    registered_type_resolved registered rfl declared comes resolves (next_labelled calls)
  have new : (labelled calls).types.resolve "point" = some (.host ⟨"new", none⟩) := rfl
  rw [new] at found
  cases found
  exact ⟨_, _, _, _, comes, resolves, declared, latest, trimmed rfl⟩

/-- A type can be registered under a name with blanks at its ends, but an argument that is declared
with this name is not of this type: a parse that comes to it fails, as its type is not
registered. -/
theorem padded_type_unregistered :
    let calls := [labelCall " point " "padded"]
    ∃ a, TypeCall.Latest calls " point " ⟨"padded", none⟩ ∧
      (labelled calls).types.resolve " point " = some (.host ⟨"padded", none⟩) ∧
      Argument.ofFields (typed " point ") = .ok a ∧ (shape "point").args = [a] ∧
      ((labelled calls).parse (shape "point") 0).result = .error (.fault
        { Fault.unregistered a ⟨"here", 0, 4, false⟩ with command := .str "here" }) := by
  intro calls
  have latest : TypeCall.Latest calls " point " ⟨"padded", none⟩ :=
    ⟨[], _, [], rfl, labelCall_registers "padded" rfl, List.forall_mem_nil _⟩
  have found : (labelled calls).types.resolve " point " = some (.host ⟨"padded", none⟩) :=
    TypeRegistry.resolve_attemptAll_of_latest latest
  have none : (labelled calls).converterOf (.named "point") = none := rfl
  have fails := (resolves_labelled calls "point").fails (comes_labelled calls "point")
    (Fault.fresh_ofToken (by decide)) (argument_of_unregistered (next_labelled calls) none)
  exact ⟨_, latest, found, rfl, rfl, fails.parse rfl rfl⟩

end Parser

end CommandGrammar
