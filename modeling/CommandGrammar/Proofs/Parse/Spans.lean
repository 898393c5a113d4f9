import CommandGrammar.Proofs.Conversion.Reads
import CommandGrammar.Proofs.Parse.Growth
import CommandGrammar.Proofs.Parse.Safety

/-!
# The places of faults

With builtin types only, the place of every fault of a parse lies in the line. Each fault points at
a token of the line, at a stretch between two of its positions, or at the end of the line, so
nothing is cut off when it is rendered (`fault_in_line`).
-/

namespace CommandGrammar

theorem Token.inLine_endOf (source : String) : (Token.endOf source).InLine source :=
  ⟨Int.natCast_nonneg _, Int.le_refl _, Int.le_refl _⟩

/-- The fault gets nothing but the line when it leaves the parse, and its place, if it has a token,
lies in the line. -/
structure Fault.InLine (source : String) (f : Fault) : Prop where
  fresh : f.Fresh
  within : f.token ≠ .null → ∃ a b, f.span = some (a, b) ∧ 0 ≤ a ∧ a ≤ b ∧ b ≤ source.length

def Halt.InLine (source : String) : Halt → Prop
  | .fault f => f.InLine source
  | .crash _ => True

namespace Fault

variable {source : String} {kind : FaultKind} {message : String} {t : Token}

theorem inLine_ofToken {start stop : Int} (listed : kind ∈ FaultKind.all)
    (lower : 0 ≤ t.start + start) (ordered : t.start + start ≤ t.stop - stop)
    (upper : t.stop - stop ≤ source.length) :
    (ofToken kind message t start stop).InLine source :=
  ⟨fresh_ofToken listed, fun _ => ⟨_, _, rfl, lower, ordered, upper⟩⟩

/-- A fault of a whole token of the line. -/
theorem inLine_at (listed : kind ∈ FaultKind.all) (inLine : t.InLine source) :
    (ofToken kind message t 0 0).InLine source := by
  obtain ⟨lower, ordered, upper⟩ := inLine
  exact inLine_ofToken listed (by omega) (by omega) (by omega)

theorem inLine_broken (c : Crash) : (broken c).InLine source :=
  ⟨fresh_broken c, fun located => absurd rfl located⟩

/-- A fault has a place where it has a token. -/
theorem exists_token_of_span {f : Fault} {place : Int × Int} (h : f.span = some place) :
    ∃ t, f.token = .token t ∧ (t.start + f.start, t.stop - f.stop) = place := by
  unfold span at h
  split at h
  · rename_i t token
    exact ⟨t, token, Option.some.inj h⟩
  · cases h

/-- A place in the line is rendered as it is: the marks stand around it, with the context that
there is on each side. -/
theorem InLine.rendered {f : Fault} (inLine : f.InLine source) (located : f.token ≠ .null) :
    ∃ a b : Nat, a ≤ b ∧ b ≤ source.length ∧
      f.span = some ((a : Int), (b : Int)) ∧ f.column = some ((a : Int) + 1) ∧
      clamp source.length (a, b) = (a, b) ∧
      ∀ width, ({ f with command := .str source } : Fault).render width = .ok (String.ofList
        ((source.toList.take a).drop (a - width) ++ ['>', '>'] ++
          (source.toList.take b).drop a ++ ['<', '<'] ++ (source.toList.drop b).take width)) := by
  obtain ⟨i, j, place, lower, ordered, upper⟩ := inLine.within located
  obtain ⟨a, rfl⟩ := Int.eq_ofNat_of_zero_le lower
  obtain ⟨b, rfl⟩ := Int.eq_ofNat_of_zero_le (Int.le_trans lower ordered)
  have hab : a ≤ b := Int.ofNat_le.1 ordered
  have hle : b ≤ source.length := Int.ofNat_le.1 upper
  refine ⟨a, b, hab, hle, place, ?_, clamp_of_le hab hle, ?_⟩
  · rw [column, place]
    rfl
  · intro width
    have cut : clamp source.toList.length (a, b) = (a, b) := by
      rw [String.length_toList]
      exact clamp_of_le hab hle
    obtain ⟨t, token, place⟩ := exists_token_of_span place
    rw [render, excerpt]
    simp only [token, place, cut]
    rfl

end Fault

namespace Halt

variable {source : String} {token : Token}

theorem inLine_unrecognizedFlag (placed : token.Placed source) (name : List Char) :
    (unrecognizedFlag token (token.positions source) name).InLine source := by
  unfold unrecognizedFlag
  cases hstart : (token.positions source)[2]? with
  | none => exact trivial
  | some start =>
    obtain ⟨lower, upper⟩ := placed.position_within hstart
    obtain ⟨hstart, -, hstop⟩ := placed.inLine
    exact Fault.inLine_ofToken (by decide) (by omega) (by omega) (by omega)

/-- A stretch from a position of a token to a later one lies in the line. -/
theorem inLine_between {kind : FaultKind} {message : String} {i j : Nat} {a b : Int}
    (listed : kind ∈ FaultKind.all) (placed : token.Placed source)
    (ha : (token.positions source)[i]? = some a) (hb : (token.positions source)[j]? = some b)
    (hlt : i < j) :
    (fault (.ofToken kind message token (a - token.start) (token.stop - b))).InLine source := by
  have lower := (placed.position_within ha).1
  have upper := (placed.position_within hb).2
  have ordered := placed.position_lt ha hb hlt
  obtain ⟨hstart, -, hstop⟩ := placed.inLine
  exact Fault.inLine_ofToken listed (by omega) (by omega) (by omega)

theorem inLine_unknownOption (placed : token.Placed source) (offset : Nat) (code : Char) :
    (unknownOption token (token.positions source) offset code).InLine source := by
  unfold unknownOption
  split
  · rename_i hstart hstop
    exact inLine_between (by decide) placed hstart hstop (Nat.lt_succ_self _)
  · exact trivial

theorem inLine_flagAssignment {next : Option Token} (placed : token.Placed source)
    (hnext : ∀ t ∈ next, t.InLine source) (stop : Nat) (value : List Char) :
    (flagAssignment token (token.positions source) next stop value).InLine source := by
  unfold flagAssignment
  dsimp only
  split
  · split
    · rename_i start hstart
      obtain ⟨lower, upper⟩ := placed.position_within hstart
      obtain ⟨hstart, -, hstop⟩ := placed.inLine
      exact Fault.inLine_ofToken (by decide) (by omega) (by omega) (by omega)
    · exact trivial
  · exact Fault.inLine_at (by decide) (hnext _ rfl)
  · split
    · rename_i hstart hstop
      exact inLine_between (by decide) placed hstart hstop (Nat.lt_succ_self _)
    · exact trivial

theorem inLine_tooManyArguments (inLine : token.InLine source) :
    (tooManyArguments source token).InLine source := by
  obtain ⟨lower, ordered, upper⟩ := inLine
  exact Fault.inLine_ofToken (by decide) (by omega) (by omega) (by omega)

end Halt

/-! ## Faults of a parse -/

/-- All tokens that are left have places in the line. -/
def State.InLine (source : String) (s : State) : Prop := ∀ token ∈ s.left, token.InLine source

theorem State.InLine.of_suffix {source : String} {s t : State} (h : s.InLine source)
    (suffix : t.left <:+ s.left) : t.InLine source :=
  fun token htoken => h token (suffix.subset htoken)

theorem State.InLine.next {source : String} {s : State} {token : Token} (h : s.InLine source)
    (next : s.next? = some token) : token.InLine source := by
  apply h
  rw [left_eq_cons next]
  exact List.mem_cons_self

/-- A token of the line that spells a flag is in its place. -/
theorem State.InPlace.next {source : String} {s : State} {token : Token} {c : Char}
    {rest : List Char} (h : s.InPlace source) (next : s.next? = some token)
    (flagged : token.flagChars? = some (c, rest)) : token.Placed source := by
  apply h _ _ (Token.toList_of_flagChars? flagged).1
  rw [left_eq_cons next]
  exact List.mem_cons_self

namespace Parser

variable {p : Parser} {n : Schema Value} {flags : List (Flag Value)} {a : Argument Value}
  {s t u : State} {x : Stage} {h : Halt} {token : Token} {c : Char} {rest : List Char}

/-- The type of the argument is a builtin one, if it is registered at all. -/
def HasBuiltin (p : Parser) (a : Argument Value) : Prop :=
  ∀ converter, p.converterOf a.type = some converter → ∃ b, converter = .builtin b

theorem accept_inLine {answer : Answer} (inLine : token.InLine p.source) (whole : answer.At token)
    (halted : accept a token s answer = .halt h t) : h.InLine p.source := by
  unfold accept at halted
  split at halted
  · cases halted
    obtain ⟨kind, message, listed, rfl⟩ := whole
    exact Fault.inLine_at listed inLine
  · cases halted
    exact Fault.inLine_broken _
  · cases halted
    exact Fault.inLine_at (by decide) inLine
  · split at halted
    · cases halted
      unfold Halt.invalidStep
      split
      · exact Fault.inLine_at (by decide) inLine
      · exact trivial
    · cases halted

theorem argument_inLine (inLine : s.InLine p.source) (builtin : p.HasBuiltin a)
    (halted : p.argument a s = .halt h t) : h.InLine p.source := by
  unfold argument at halted
  split at halted
  · cases halted
    exact trivial
  · rename_i token rest hleft
    have htoken : token.InLine p.source := by
      apply inLine
      rw [State.left, hleft]
      exact List.mem_cons_self
    split at halted
    · cases halted
      exact Fault.inLine_at (by decide) htoken
    · rename_i converter hconverter
      obtain ⟨b, rfl⟩ := builtin converter hconverter
      exact accept_inLine htoken (b.convert_at _ _) halted

/-- An inline value that is cut off a flag of the line has a place in the line. -/
theorem Opens.inLine {f : Flag Value} {inline : Bool} (opens : p.Opens token c rest f s inline u)
    (next : s.next? = some token) (placed : token.Placed p.source) (inLine : s.InLine p.source) :
    u.InLine p.source := by
  have after : s.advance.InLine p.source := inLine.of_suffix (State.advance_left_suffix s)
  cases opens with
  | plain _ => exact after
  | inline _ _ cut =>
    obtain ⟨middle, others, -, rfl, hothers⟩ := Token.cut?_eq_some cut
    intro t mem
    rw [State.left, State.advance, drop_replaceAt _ (State.index_lt_of_next? next)] at mem
    rcases List.mem_append.1 mem with mem | mem
    · obtain ⟨-, rfl⟩ | ⟨-, start, hstart, rfl⟩ := hothers
      · exact absurd mem List.not_mem_nil
      · rw [List.mem_singleton.1 mem]
        obtain ⟨lower, upper⟩ := placed.position_within hstart
        exact ⟨Int.le_trans placed.start_nonneg lower, upper, placed.stop_le⟩
    · exact after t mem

theorem Asks.left {inline inline' : Bool} {args args' : List (Argument Value)}
    (asks : p.Asks inline args s inline' args' u) : u.left <:+ s.left := by
  induction asks with
  | here => exact List.suffix_rfl
  | later ok _ ih => exact (ih.trans (argument_left ok)).trans (State.advance_left_suffix _)

/-- An argument is resolved from tokens that have places in the line. -/
theorem Resolves.inLine {role : Role} (resolves : p.Resolves flags x a role u)
    (inLine : x.state.InLine p.source) (inPlace : x.state.InPlace p.source) :
    u.InLine p.source := by
  cases resolves with
  | positional _ _ => exact inLine
  | @ofFlag _ token c rest f marks inline _ _ _ v _ meets opens asks _ =>
    have left := left_foldl_mark marks x.state
    have next := (next?_foldl_mark marks x.state).trans meets.next
    have placed : token.Placed p.source := inPlace.next meets.next (spells_eq_some meets.flagged).2
    have opened : v.InLine p.source :=
      opens.inLine next placed (inLine.of_suffix (left ▸ List.suffix_rfl))
    exact opened.of_suffix asks.left

/-- A flag that is not taken raises a fault in the line. -/
theorem Refuses.inLine (refuses : p.Refuses flags x token c rest h)
    (placed : token.Placed p.source) (inLine : x.state.InLine p.source)
    (inPlace : x.state.InPlace p.source)
    (builtin : ∀ a role u, p.Resolves flags x a role u → p.HasBuiltin a) :
    h.InLine p.source := by
  cases refuses with
  | spelling error =>
    obtain rfl | ⟨offset, code, -, rfl⟩ := spelled_error error
    · exact Halt.inLine_unrecognizedFlag placed _
    · exact Halt.inLine_unknownOption placed offset code
  | assignment meets hasValue args =>
    have after : x.state.advance.InLine p.source :=
      inLine.of_suffix (State.advance_left_suffix _)
    exact Halt.inLine_flagAssignment placed (fun t next => after.next next) _ _
  | uncut _ _ => exact trivial
  | required _ _ _ _ => exact Fault.inLine_at (by decide) (Token.inLine_endOf p.source)
  | argument resolves halted =>
    exact argument_inLine (resolves.inLine inLine inPlace) (builtin _ _ _ resolves) halted

/-- What is raised at a stage is a fault in the line. -/
theorem Raises.inLine (raises : p.Raises n x h) (inLine : x.state.InLine p.source)
    (inPlace : x.state.InPlace p.source)
    (builtin : ∀ a role u, p.Resolves n.flags x a role u → p.HasBuiltin a) :
    h.InLine p.source := by
  cases raises with
  | level stops =>
    cases stops with
    | tooMany next _ _ => exact Halt.inLine_tooManyArguments (inLine.next next)
    | flag next flagged ends halted =>
      have placed := inPlace.next next (spells_eq_some flagged).2
      exact (flag_eq_halt next flagged ends halted).inLine placed inLine inPlace builtin
    | argument next plain halted =>
      exact argument_inLine inLine (builtin _ _ _ (.positional next plain)) halted
  | missing _ _ => exact Fault.inLine_at (by decide) (Token.inLine_endOf p.source)
  | unknown next _ _ => exact Fault.inLine_at (by decide) (inLine.next next)

/-- A fault of a parse with builtin types has its place in the line and nothing else of its own. -/
theorem fault_inLine {schema : Schema Value} {start : Nat} {f : Fault}
    (builtins : ∀ n, schema.Reaches n → ∀ owner a, n.Owns owner a → p.HasBuiltin a)
    (failed : (p.parse schema start).result = .error (.fault f)) :
    ∃ g : Fault, g.InLine p.source ∧ f = { g with command := .str p.source } := by
  obtain ⟨h, t, halted, leaves⟩ := parse_eq_error failed
  obtain ⟨m, x, comes, raises⟩ := command_eq_halt halted
  have inLine : (p.initial start).InLine p.source :=
    fun _ mem => Token.inLine_of_mem_tokenize mem
  have inPlace : (p.initial start).InPlace p.source := inPlace_tokenize p.source start
  have types : ∀ a role u, p.Resolves m.flags x a role u → p.HasBuiltin a := by
    intro a role u resolves
    obtain ⟨owner, owns⟩ := resolves.owns comes.args_suffix
    exact builtins m comes.reaches owner a owns
  have raised : h.InLine p.source :=
    raises.inLine (inLine.of_suffix comes.left) (inPlace.of_suffix comes.left) types
  cases h with
  | crash c => cases leaves
  | fault g =>
    have raised : g.InLine p.source := raised
    rw [raised.fresh.leaving p] at leaves
    cases leaves
    exact ⟨g, raised, rfl⟩

/-- With builtin types only, each fault of a parse knows the whole line. Its place, if it has one,
lies in the line: no end of it is cut off, and it is rendered with the marks around it. -/
theorem fault_in_line {schema : Schema Value} {start : Nat} {f : Fault}
    (builtin : ∀ name converter, p.types.resolve name = some converter →
      ∃ b, converter = .builtin b)
    (named : ∀ n, schema.Reaches n → ∀ owner a, n.Owns owner a → ∃ name, a.type = .named name)
    (failed : (p.parse schema start).result = .error (.fault f)) :
    f.command = .str p.source ∧
    (f.token ≠ .null → ∃ a b : Nat, a ≤ b ∧ b ≤ p.source.length ∧
      f.span = some ((a : Int), (b : Int)) ∧ f.column = some ((a : Int) + 1) ∧
      Fault.clamp p.source.length (a, b) = (a, b) ∧
      ∀ width, f.render width = .ok (String.ofList
        ((p.source.toList.take a).drop (a - width) ++ ['>', '>'] ++
          (p.source.toList.take b).drop a ++ ['<', '<'] ++
          (p.source.toList.drop b).take width))) := by
  have builtins : ∀ n, schema.Reaches n → ∀ owner a, n.Owns owner a → p.HasBuiltin a := by
    intro n reaches owner a owns converter hconverter
    obtain ⟨name, htype⟩ := named n reaches owner a owns
    rw [htype] at hconverter
    exact builtin name converter hconverter
  obtain ⟨g, inLine, rfl⟩ := fault_inLine builtins failed
  exact ⟨rfl, inLine.rendered⟩

theorem named_calculator : ∀ n, calculator.Reaches n → ∀ owner a, n.Owns owner a →
    ∃ name, a.type = .named name := by
  have types : ∀ n ∈ calculator :: calculator.subcommands,
      ∀ a ∈ n.args ++ n.flags.flatMap Flag.args, ∃ name, a.type = .named name := by
    simp [calculator, Argument.ofType]
  intro n reaches owner a owns
  have level : n ∈ calculator :: calculator.subcommands := by
    cases reaches with
    | refl => exact List.mem_cons_self
    | @down _ sub _ mem below =>
      have leaf : ∀ sub ∈ calculator.subcommands, sub.subcommands = [] := by simp [calculator]
      cases below with
      | refl => exact List.mem_cons_of_mem _ mem
      | down deeper _ => exact absurd deeper (leaf sub mem ▸ List.not_mem_nil)
  apply types n level
  cases owner with
  | none => exact List.mem_append_left _ owns
  | some f => exact List.mem_append_right _ (List.mem_flatMap.2 ⟨f, owns.1, owns.2⟩)

theorem fault_in_line_calculator : ∃ f,
    ((forLine "add -t=x 1").parse calculator 0).result = .error (.fault f) ∧
      f.command = .str "add -t=x 1" ∧ f.span = some (7, 8) ∧
      f.render 3 = .ok "-t=>>x<< 1" := by
  obtain ⟨f, failed, hspan⟩ : ∃ f,
      ((forLine "add -t=x 1").parse calculator 0).result = .error (.fault f) ∧
        f.span = some (7, 8) := Report.exists_fault_of_span (by decide +kernel)
  obtain ⟨token, located, -⟩ := Fault.exists_token_of_span hspan
  obtain ⟨command, place⟩ := fault_in_line (p := forLine "add -t=x 1")
    (fun _ _ => TypeRegistry.builtin_of_resolve) named_calculator failed
  obtain ⟨a, b, -, -, hplace, -, -, rendered⟩ := place (located ▸ Value.noConfusion)
  cases hspan.symm.trans hplace
  exact ⟨f, failed, command, hspan, (rendered 3).trans (congrArg Except.ok (by decide))⟩

end Parser

end CommandGrammar
