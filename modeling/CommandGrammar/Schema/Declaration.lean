import CommandGrammar.Schema.Draft
import CommandGrammar.Value.Display

/-!
# Declarations

A schema is declared by a finished schema, by a draft, or by a literal: a dict of its fields in
which arguments, flags and sub-commands may be literals in their turn. In the literal of an
argument the keys `range` and `unsigned` set numeric options, and keys of other names are
settings for converters.
-/

namespace CommandGrammar

/-- The value under a text key of a dict. -/
def valueUnder? (name : String) : List (Value × Value) → Option Value
  | [] => none
  | (.str key, v) :: rest => if key = name then some v else valueUnder? name rest
  | _ :: rest => valueUnder? name rest

/-- The entries whose text keys are among the given names, as fields. -/
def namedEntries (names : List String) (entries : List (Value × Value)) : Fields :=
  entries.filterMap fun
    | (.str key, v) => if names.contains key then some (key, v) else none
    | _ => none

/-- The entries whose keys are not among the given names. -/
def otherEntries (names : List String) (entries : List (Value × Value)) : List (Value × Value) :=
  entries.filter fun
    | (.str key, _) => !names.contains key
    | _ => true

/-- Whether a key comes before another one in the order in which keys are shown. -/
def keyBefore (v v' : Value) : Bool :=
  match v, v' with
  | .str s, .str s' => s < s'
  | v, v' =>
    match v.number?, v'.number? with
    | some m, some n => m.lt n
    | _, _ => false

/-- Refuses a literal that has other keys than the given ones. -/
def checkKeys (what : String) (names : List String) (entries : List (Value × Value)) :
    Except Refusal Unit :=
  match otherEntries names entries with
  | [] => pure ()
  | others => do
    let keys := (others.map (·.1)).mergeSort fun v v' => !keyBefore v' v
    throw (.unexpectedKeys what (← keys.mapM Value.text))

/-- The items that a value yields. -/
def Value.iterated (v : Value) : Except Refusal (List Value) :=
  match v.iterate? with
  | some items => pure items
  | none => throw (.notIterable v.kindName)

namespace Argument

/-- The keys of an argument literal that are fields of the argument. -/
def literalKeys : List String := ["name", "type", "dest", "help", "required", "default"]

/-- The numeric options of a literal. A range may leave out its maximum or both bounds. -/
def literalOptions (others : List (Value × Value)) : Except Refusal (Option NumericOptions) :=
  match valueUnder? "range" others, valueUnder? "unsigned" others with
  | some _, some _ => throw .rangeWithSignedness
  | some range, none => do
    let bounds ← range.iterated
    let bounds := if bounds.length < 2 then (bounds ++ [Value.null, .null]).take 2 else bounds
    some <$> NumericOptions.ofRange (.tuple bounds)
  | none, some unsigned => pure (some (.signedness unsigned.truthy))
  | none, none => pure none

/-- The argument that a value declares. Its key is `dest`, or else its name. -/
def declared (v : Value) : Except Refusal (Argument Value) :=
  match v with
  | .argument a => pure a
  | .dict entries => do
    let named := namedEntries literalKeys entries
    let others := otherEntries literalKeys entries
    match (named.lookup "dest").or (named.lookup "name") with
    | none => throw .argumentUnnamed
    | some dest =>
      let options ← literalOptions others
      let extras := otherEntries ["range", "unsigned"] others
      ofFields ([("dest", dest), ("options", .ofOption (options.map .options)),
        ("extras", .dict extras)] ++ named)
  | _ => throw .argumentNotDeclared

end Argument

/-- The arguments declared under `args`. -/
def declaredArguments (entries : List (Value × Value)) :
    Except Refusal (List (Argument Value)) := do
  let items ← ((valueUnder? "args" entries).getD (.tuple [])).iterated
  items.mapM Argument.declared

namespace Flag

/-- The flag that a value declares. -/
def declared (v : Value) : Except Refusal (Flag Value) :=
  match v with
  | .flag f => pure f
  | .flagDraft d => d.complete
  | .dict entries => do
    checkKeys "flag" ["long", "short", "dest", "help", "args"] entries
    let args ← declaredArguments entries
    make ((valueUnder? "long" entries).getD .null) ((valueUnder? "short" entries).getD .null)
      ((valueUnder? "dest" entries).getD .unset) ((valueUnder? "help" entries).getD .unset)
      (pure args)
  | _ => throw .flagNotDeclared

end Flag

/-- The flags declared under `flags`. -/
def declaredFlags (entries : List (Value × Value)) : Except Refusal (List (Flag Value)) := do
  let items ← ((valueUnder? "flags" entries).getD (.tuple [])).iterated
  items.mapM Flag.declared

namespace Schema

mutual

/-- The schema that a value declares. -/
def declared : Value → Except Refusal (Schema Value)
  | .schema s => s.replace []
  | .draft d => d.complete
  | .dict entries => do
    checkKeys "command" fieldNames entries
    let args ← declaredArguments entries
    let flags ← declaredFlags entries
    let subcommands ← declaredUnder entries
    make ((valueUnder? "name" entries).getD .null) ((valueUnder? "dest" entries).getD .unset)
      ((valueUnder? "aliases" entries).getD (.tuple [])) ((valueUnder? "help" entries).getD .unset)
      (pure { args, flags, subcommands })
  | _ => throw .schemaNotDeclared

/-- The schemas declared under `subcommands`. -/
def declaredUnder : List (Value × Value) → Except Refusal (List (Schema Value))
  | [] => pure []
  | (key, v) :: rest =>
    if key.text? = some "subcommands" then declaredIn v else declaredUnder rest

/-- The schemas declared by the items of a value. -/
def declaredIn : Value → Except Refusal (List (Schema Value))
  | .list items => declaredAll items
  | .tuple items => declaredAll items
  | .dict entries => declaredKeys entries
  | v => do
    let items ← v.iterated
    if items.isEmpty then pure [] else throw .schemaNotDeclared

/-- The schemas that values declare. -/
def declaredAll : List Value → Except Refusal (List (Schema Value))
  | [] => pure []
  | v :: rest => do
    let s ← declared v
    return s :: (← declaredAll rest)

/-- The schemas that the keys of a dict declare. -/
def declaredKeys : List (Value × Value) → Except Refusal (List (Schema Value))
  | [] => pure []
  | (key, _) :: rest => do
    let s ← declared key
    return s :: (← declaredKeys rest)

end

end Schema

end CommandGrammar
