import CommandGrammar.Fault.Basic
import CommandGrammar.Text.Numeral

/-!
# Revised faults

A fault is revised on a copy: a fault of the same kind is made of the same values, is given the
attributes and the cause of the first one, and then the new fields. So is the line written onto a
fault that leaves a parse. Offsets are read from numbers, of which the whole part counts, and from
numerals.
-/

namespace CommandGrammar

/-- The offset that a value stands for. -/
def Value.asOffset (v : Value) : Except Refusal Int :=
  match v with
  | .int n => pure n
  | .bool b => pure (if b then 1 else 0)
  | .real x =>
    match x.truncate? with
    | some n => pure n
    | none => throw (if x.isNaN then .offsetNotANumber else .offsetInfinite)
  | .str s =>
    let (negative, cs) := Text.splitSign (Text.trimList s.toList)
    let run := cs.takeWhile fun c => c == '_' || (Text.digitValue? c).isSome
    match Text.groupedDigits? run with
    | none => throw (.offsetNotNumeral s)
    | some ds =>
      if maxDigits < ds.length then throw (.offsetTooLong ds.length)
      else if run.length < cs.length then throw (.offsetNotNumeral s)
      else pure (Text.signed negative (ds.foldl (10 * · + ·) 0))
  | v => throw (.offsetNotNumeric v.kindName)

/-- How the host's own kinds make faults of the values that they are called with. -/
abbrev Makers := Handle → List Value → Except Crash Fault.Made

/-- Where all kinds keep the values that they are called with. -/
def Makers.keeping : Makers := fun _ args => pure ⟨args, []⟩

/-- What a kind makes of values. Most kinds keep them and add nothing. -/
def FaultKind.make (kind : FaultKind) (makers : Makers) (args : List Value) :
    Except Crash Fault.Made :=
  match kind.maker? with
  | some maker => makers maker args
  | none => pure ⟨args, []⟩

namespace Fault

/-- The names of the fields that can be revised. -/
def fieldNames : List String := ["message", "token", "start", "end", "command", "hint"]

/-- What can be read of a fault but not written. -/
def readOnlyNames : List String := fieldNames ++ ["syntax", "span", "column"]

/-- The width that a value stands for. -/
def widthOf (v : Value) : Except Refusal Nat :=
  match v with
  | .int n => if n < 0 then throw .widthNotCount else pure n.toNat
  | .bool b => pure (if b then 1 else 0)
  | _ => throw .widthNotCount

/-- The fault with a value stored under one of its fields. -/
def set (f : Fault) (field : String) (v : Value) : Except Refusal Fault :=
  match field with
  | "message" =>
    match v with
    | .str s => pure { f with message := s }
    | _ => throw (.faultMessageNotText f.kind.name)
  | "token" => pure { f with token := v }
  | "start" => return { f with start := ← v.asOffset }
  | "end" => return { f with stop := ← v.asOffset }
  | "command" => pure { f with command := v }
  | "hint" => pure { f with hint := v }
  | _ => pure f

/-- The fault with values stored under its fields, one after the other. -/
def setAll (f : Fault) (overrides : Fields) : Except Refusal Fault :=
  overrides.foldlM (fun g (field, v) => g.set field v) f

/-- Refuses unknown fields, then a message that is no text. -/
def checkFields (f : Fault) (overrides : Fields) : Except Refusal Unit := do
  let unknown := (overrides.map (·.1)).filter (!fieldNames.contains ·)
  unless unknown.isEmpty do
    throw (.faultFieldsUnknown f.kind.name (unknown.mergeSort fun s t => !(t < s)))
  if let some v := overrides.lookup "message" then
    if v.text?.isNone then throw (.faultMessageNotText f.kind.name)

/-- A fault of the same kind, made of the same values, with the attributes and the cause of the
first one. -/
def copy (makers : Makers) (f : Fault) : Except Crash Fault := do
  let made ← f.kind.make makers f.args
  return { f.toAttributes, made with kind := f.kind, cause := f.cause }

/-- A copy of the fault with fields revised, in the order given. A new message becomes what the
fault was made of. -/
def replace (makers : Makers) (f : Fault) (overrides : Fields) : Except Crash Fault := do
  (f.checkFields overrides).mapError Refusal.crash
  let copy ← f.copy makers
  let revised ← (copy.setAll overrides).mapError Refusal.crash
  match overrides.lookup "message" with
  | some message => return { revised with args := [message] }
  | none => return revised

/-- The fault with its line. A fault that has one keeps it, so the innermost line stays. -/
def annotate (makers : Makers) (f : Fault) (command : Value) : Except Crash Fault :=
  if f.annotated then pure f else f.replace makers [("command", command)]

/-- A copy has everything of the fault but what its kind makes of its values. -/
theorem copy_eq (makers : Makers) (f : Fault) :
    f.copy makers = (f.kind.make makers f.args).map fun made => { f with toMade := made } := by
  rw [copy]
  cases f.kind.make makers f.args <;> rfl

/-- A fault that has nothing beside its attributes, of a kind that keeps the values that it is
called with, is copied without a change. -/
theorem copy_of_plain {f : Fault} (makers : Makers) (plain : f.kind.maker? = none)
    (memberless : f.members = []) : f.copy makers = .ok f := by
  rw [copy_eq, FaultKind.make, plain]
  show Except.ok { f with members := [] } = _
  rw [← memberless]

/-- A fault without a line is copied and has the line then. -/
theorem annotate_of_bare {f : Fault} (makers : Makers) (bare : f.command = .null) (line : String) :
    f.annotate makers (.str line) =
      (f.copy makers).map fun copy => { copy with command := .str line } := by
  rw [annotate, annotated, bare]
  show f.replace makers [("command", .str line)] = _
  unfold replace
  cases f.copy makers <;> rfl

/-- A fault that has a line keeps it. -/
theorem annotate_of_annotated {f : Fault} (makers : Makers) (annotated : f.command ≠ .null)
    (line : Value) : f.annotate makers line = .ok f := by
  rw [annotate, if_pos]
  · rfl
  · unfold Fault.annotated
    split
    · rename_i null
      exact absurd null annotated
    · rfl

/-- A fault without a line that is copied without a change is given the line and nothing else. -/
theorem annotate_of_plain {f : Fault} (makers : Makers) (bare : f.command = .null)
    (plain : f.kind.maker? = none) (memberless : f.members = []) (line : String) :
    f.annotate makers (.str line) = .ok { f with command := .str line } := by
  rw [annotate_of_bare makers bare, copy_of_plain makers plain memberless]
  rfl

end Fault

end CommandGrammar
