import CommandGrammar.Value.Basic

/-!
# Equality of values

Numbers are equal by their exact values, truth values among them; lists and tuples differ; the
order of a dict's entries does not matter; schemas are equal when their fields are. A value that
is no number equals nothing, but inside a container it equals itself.
-/

namespace CommandGrammar.Value

/-- Equal numbers, or inside a container the same number. -/
def numberEq (inside : Bool) (m n : Number) : Bool := m.eq n || (inside && m == n)

/-- A bound of a range that equals a value. -/
def boundEq (inside : Bool) (bound : Option Number) (v : Value) : Bool :=
  match bound, v with
  | none, .null => true
  | some m, v => (v.number?).any (numberEq inside m)
  | none, _ => false

/-- Bounds that are equal. -/
def boundsEq : Option Number → Option Number → Bool
  | none, none => true
  | some m, some n => numberEq true m n
  | _, _ => false

/-- Settings that are equal. -/
def optionsEq : NumericOptions → NumericOptions → Bool
  | .range low high, .range low' high' => boundsEq low low' && boundsEq high high'
  | .signedness unsigned, .signedness unsigned' => unsigned == unsigned'
  | _, _ => false

/-- Settings that equal a tuple with the given items. -/
def optionsEqItems (o : NumericOptions) (items : List Value) : Bool :=
  match o, items with
  | .range low high, [.tuple [a, b]] => boundEq true low a && boundEq true high b
  | .signedness unsigned, [v] =>
    (v.number?).any (numberEq true (.int (if unsigned then 1 else 0)))
  | _, _ => false

/-- A token that equals a tuple with the given items. -/
def tokenEqItems (t : Token) (items : List Value) : Bool :=
  match items with
  | [.str text, start, stop, quoted] =>
    t.text == text && (start.number?).any (numberEq true (.int t.start)) &&
      (stop.number?).any (numberEq true (.int t.stop)) &&
      (quoted.number?).any (numberEq true (.int (if t.quoted then 1 else 0)))
  | _ => false

mutual

/-- Equal values; `inside` a container the same value is equal even when it is no number. -/
def eqv (inside : Bool) : Value → Value → Bool
  | .null, .null => true
  | .unset, .unset => true
  | .bool b, v => (v.number?).any (numberEq inside (.int (if b then 1 else 0)))
  | .int n, v => (v.number?).any (numberEq inside (.int n))
  | .real x, v => (v.number?).any (numberEq inside (.real x))
  | .str s, .str s' => s == s'
  | .list items, .list items' => allEqv items items'
  | .tuple items, .tuple items' => allEqv items items'
  | .tuple items, .options o => optionsEqItems o items
  | .tuple items, .token t => tokenEqItems t items
  | .dict entries, .dict entries' =>
    entries.length == entries'.length && entriesEqv entries entries'
  | .callable h, .callable h' => h == h'
  | .options o, .options o' => optionsEq o o'
  | .options o, .tuple items => optionsEqItems o items
  | .token t, .token t' => t == t'
  | .token t, .tuple items => tokenEqItems t items
  | .argument a, .argument a' => argumentEqv inside a a'
  | .flag f, .flag f' => flagEqv f f'
  | .schema s, .schema s' => schemaEqv s s'
  | _, _ => false
termination_by structural v => v

/-- Lists of equal values. -/
def allEqv : List Value → List Value → Bool
  | [], [] => true
  | v :: rest, v' :: rest' => eqv true v v' && allEqv rest rest'
  | _, _ => false
termination_by structural v => v

/-- Whether each entry has an equal one among the others. -/
def entriesEqv : List (Value × Value) → List (Value × Value) → Bool
  | [], _ => true
  | (key, v) :: rest, entries =>
    (entries.any fun (key', v') => eqv true key key' && eqv true v v') && entriesEqv rest entries
termination_by structural v => v

/-- Whether each setting has an equal one among the others. -/
def extrasEqv : List (String × Value) → List (String × Value) → Bool
  | [], _ => true
  | (key, v) :: rest, extras =>
    (extras.any fun (key', v') => key == key' && eqv true v v') && extrasEqv rest extras
termination_by structural v => v

/-- Arguments with equal fields. -/
def argumentEqv (inside : Bool) : Argument Value → Argument Value → Bool
  | ⟨dest, type, name, required, default, help, settings, extras⟩, a =>
    dest == a.dest && type == a.type && name == a.name && required == a.required &&
      eqv inside default a.default && help == a.help &&
      (match settings, a.options with
        | none, none => true
        | some o, some o' => optionsEq o o'
        | _, _ => false) &&
      extras.length == a.extras.length && extrasEqv extras a.extras
termination_by structural v => v

/-- Lists of equal arguments. -/
def argumentsEqv : List (Argument Value) → List (Argument Value) → Bool
  | [], [] => true
  | a :: rest, a' :: rest' => argumentEqv true a a' && argumentsEqv rest rest'
  | _, _ => false
termination_by structural v => v

/-- Flags with equal fields. -/
def flagEqv : Flag Value → Flag Value → Bool
  | ⟨dest, long, short, help, args⟩, f =>
    dest == f.dest && long == f.long && short == f.short && help == f.help &&
      argumentsEqv args f.args
termination_by structural v => v

/-- Lists of equal flags. -/
def flagsEqv : List (Flag Value) → List (Flag Value) → Bool
  | [], [] => true
  | f :: rest, f' :: rest' => flagEqv f f' && flagsEqv rest rest'
  | _, _ => false
termination_by structural v => v

/-- Schemas with equal fields. -/
def schemaEqv : Schema Value → Schema Value → Bool
  | ⟨name, dest, aliases, help, args, flags, subcommands⟩, s =>
    name == s.name && dest == s.dest && aliases == s.aliases && help == s.help &&
      argumentsEqv args s.args && flagsEqv flags s.flags && schemasEqv subcommands s.subcommands
termination_by structural v => v

/-- Lists of equal schemas. -/
def schemasEqv : List (Schema Value) → List (Schema Value) → Bool
  | [], [] => true
  | s :: rest, s' :: rest' => schemaEqv s s' && schemasEqv rest rest'
  | _, _ => false
termination_by structural v => v

end

/-- Equal values. -/
def eq (v v' : Value) : Bool := eqv false v v'

/-- The key that an entry is looked up by: equal keys are one. -/
def sameKey (key key' : Value) : Bool := eqv true key key'

/-- Entries with one more: an equal key keeps its place and takes the new value. -/
def insertEntry (key v : Value) : List (Value × Value) → List (Value × Value)
  | [] => [(key, v)]
  | (key', v') :: rest =>
    if sameKey key' key then (key', v) :: rest else (key', v') :: insertEntry key v rest

/-- The dict with the given entries, of which later ones win. -/
def dictOf (entries : List (Value × Value)) : Value :=
  .dict (entries.foldl (fun acc (key, v) => insertEntry key v acc) [])

mutual

/-- Whether a value can be the key of an entry. -/
def hashable : Value → Bool
  | .list _ => false
  | .dict _ => false
  | .argument _ => false
  | .flag _ => false
  | .schema _ => false
  | .tuple items => allHashable items
  | _ => true

/-- Whether all values can be keys of entries. -/
def allHashable : List Value → Bool
  | [] => true
  | v :: rest => hashable v && allHashable rest

end

end CommandGrammar.Value
