import CommandGrammar.Schema.Fields
import CommandGrammar.Text.Case
import CommandGrammar.Value.Display
import CommandGrammar.Value.Equality

/-!
# Records

A record has named fields. It is shown by its kind, which is spelled with hyphens, and by its
fields or a choice of them; records of one kind are equal when their fields are.
-/

namespace CommandGrammar

/-- A record of named fields. -/
structure Record where
  name : String
  /-- Of a field that is given twice the later value counts. -/
  fields : Fields
  /-- The names that are shown, those of all fields if there are none. -/
  shown : List String

namespace Record

/-- The name under which the value of a field is stored. -/
def storedName (name : String) : String := "_" ++ name

/-- The record with the given fields. No value may be stored under the name of a field. -/
def make (name : String) (fields : Fields) (shown : List String) : Except Refusal Record := do
  if name.toList.contains (Char.ofNat 0) then throw .kindNameWithNull
  if fields.any fun (name, _) => (fields.lookup (storedName name)).isSome then throw .memberUnknown
  return { name, fields, shown }

/-- The name of the record's kind as it is spelled. -/
def typename (r : Record) : String := Text.hyphenatedName r.name

/-- The value that counts for a name. -/
def latest? (fields : Fields) (name : String) : Option Value := fields.reverse.lookup name

/-- What is found under a name: a field, or the value that is stored for one. -/
def member? (r : Record) (name : String) : Option Value :=
  (latest? r.fields name).or
    (latest? (r.fields.map fun (name, v) => (storedName name, v)) name)

/-- The names that are shown. -/
def shownNames (r : Record) : List String :=
  if r.shown.isEmpty then r.fields.map (·.1) else r.shown

/-- What is shown, if all of it exists. -/
def shownFields? (r : Record) : Option Fields :=
  r.shownNames.mapM fun name => (r.member? name).map (name, ·)

/-- The record by what is shown of it. -/
def text (r : Record) : Except Refusal String :=
  match r.shownFields? with
  | none => throw .memberUnknown
  | some fields => do
    let parts ← fields.mapM fun (name, v) => return (name, ← v.text)
    return recordText r.typename parts

/-- Whether both have the same values under the names, as far as they are compared. -/
def agree? (fields others : Fields) : List String → Option Bool
  | [] => some true
  | name :: rest =>
    match latest? fields name, latest? others name with
    | some v, some v' => if v.eq v' then agree? fields others rest else some false
    | _, _ => none

/-- Whether the fields have the given values, if those are there as far as they are compared. -/
def equals? (r : Record) (others : Fields) : Option Bool :=
  agree? r.fields others (r.fields.map (·.1))

/-- The record with some fields replaced. -/
def replace (r : Record) (overrides : Fields) : Record :=
  { r with fields := r.fields.map fun (name, v) => (name, (overrides.lookup name).getD v) }

/-- The name of a view and the value that it shows, if there is one. -/
def view (stored : Fields) (name : Value) : Except Refusal (String × Option Value) :=
  match name with
  | .str name => pure (name, stored.lookup (storedName name))
  | _ => throw .viewNotText

end Record

end CommandGrammar
