import CommandGrammar.Parse.Report
import CommandGrammar.Proofs.Conversion.Reads

/-!
# What leaves a parse

A fault leaves a parse with the line on it, once it is reported. A fault of the parser's own, or of
a builtin type, gets nothing but the line (`Fault.Fresh.leaving`). One that a converter of the host
raises may have no copy or no name for its code, and then a crash leaves the parse in its place.
-/

namespace CommandGrammar

/-- The halt, or the crash that comes of reporting its fault. -/
def Halt.told : Halt → Halt
  | .fault f =>
    match f.reportedAs with
    | .ok _ => .fault f
    | .error r => .crash r.crash
  | .crash c => .crash c

/-- What leaves a parse that halts: the fault with its line, once it is reported, or a crash. -/
def Halt.leaving (h : Halt) (p : Parser) : Halt := (h.annotate p.makers p.source).told

/-- A fault that has no line yet, is copied without a change, and can be reported. So are those that
are not the host's. -/
structure Fault.Fresh (f : Fault) : Prop where
  bare : f.command = .null
  plain : f.kind.maker? = none
  memberless : f.members = []
  reported : ∃ code, f.reportedAs = .ok code

/-- Faults of listed kinds are copied as they are. -/
theorem FaultKind.maker?_of_mem {kind : FaultKind} (listed : kind ∈ all) : kind.maker? = none := by
  have plain : ∀ kind ∈ all, kind.maker? = none := by decide
  exact plain kind listed

/-- Listed kinds have listed codes. -/
theorem FaultKind.code_of_mem {kind : FaultKind} (listed : kind ∈ all) :
    ∃ code, kind.code = .listed code := by
  cases kind with
  | host base own => exact absurd listed (by simp [all])
  | _ => exact ⟨_, rfl⟩

/-- A fault of a listed kind with a token or none and without any attributes of a host is fresh. -/
theorem Fault.fresh_of_listed {f : Fault} (listed : f.kind ∈ FaultKind.all)
    (bare : f.command = .null) (memberless : f.members = []) (plain : f.details = [])
    (token : f.checkToken = .ok ()) : f.Fresh := by
  obtain ⟨code, coded⟩ := FaultKind.code_of_mem listed
  refine ⟨bare, FaultKind.maker?_of_mem listed, memberless, .str code.name, ?_⟩
  have named : f.codeName = .ok (.str code.name) := by
    rw [codeName, Fault.code, plain, List.lookup_nil]
    simp only [coded]
    rfl
  rw [reportedAs, named, token]
  rfl

theorem Fault.fresh_ofToken {kind : FaultKind} {message : String} {token : Token} {i j : Int}
    (listed : kind ∈ FaultKind.all) : (ofToken kind message token i j).Fresh :=
  fresh_of_listed listed rfl rfl rfl rfl

theorem Fault.fresh_broken (c : Crash) : (broken c).Fresh :=
  fresh_of_listed (show FaultKind.internal ∈ FaultKind.all by decide) rfl rfl rfl rfl

/-- A fault that gets a line cannot be copied, or has a line then and is reported as before. -/
theorem Fault.annotate_cases (makers : Makers) (f : Fault) (line : String) :
    (∃ c, f.command = .null ∧ f.copy makers = .error c ∧ f.annotate makers (.str line) = .error c) ∨
      ∃ g, f.annotate makers (.str line) = .ok g ∧ g.command ≠ .null ∧
        g.reportedAs = f.reportedAs := by
  by_cases bare : f.command = .null
  · rw [annotate_of_bare makers bare, copy_eq]
    cases f.kind.make makers f.args with
    | ok args => exact .inr ⟨_, rfl, Value.noConfusion, rfl⟩
    | error c => exact .inl ⟨c, bare, rfl, rfl⟩
  · exact .inr ⟨f, annotate_of_annotated makers bare _, bare, rfl⟩

/-- The faults of builtin types are fresh. -/
theorem Builtin.fresh_of_convert {b : Builtin} {options : Option NumericOptions} {token : Token}
    {f : Fault} (answers : b.convert options token = .fault f) : f.Fresh := by
  have whole := b.convert_at options token
  rw [answers] at whole
  obtain ⟨kind, message, listed, rfl⟩ := whole
  exact Fault.fresh_ofToken listed

/-- A fresh fault leaves a parse with the line and otherwise as it was. -/
theorem Fault.Fresh.leaving {f : Fault} (fresh : f.Fresh) (p : Parser) :
    (Halt.fault f).leaving p = .fault { f with command := .str p.source } := by
  obtain ⟨code, reported⟩ := fresh.reported
  rw [Halt.leaving, Halt.annotate,
    annotate_of_plain p.makers fresh.bare fresh.plain fresh.memberless]
  have reported : ({ f with command := .str p.source } : Fault).reportedAs = .ok code := reported
  dsimp only
  rw [Halt.told, reported]

theorem Report.concluded_result (r : Report) (dest : String) :
    (r.concluded dest).result = r.result.mapError Halt.told := by
  unfold concluded
  split
  · rename_i f failed
    rw [failed]
    show _ = Except.error (Halt.told (.fault f))
    rw [Halt.told]
    cases f.reportedAs <;> rfl
  · rename_i unfailed
    cases result : r.result with
    | ok m => rfl
    | error h =>
      cases h with
      | fault f => exact absurd result (unfailed f)
      | crash c => rfl

theorem Report.concluded_tokens (r : Report) (dest : String) :
    (r.concluded dest).tokens = r.tokens := by
  unfold concluded
  split
  · split <;> rfl
  · rfl

end CommandGrammar
