import CommandGrammar.Proofs.Schema.Words
import Mathlib.Data.List.DropRight

/-!
# Made, and made again

What is made directly is made of values that readers accepted, one for each field. A reader trims
what it accepts, and accepts the result again as it is. So what is made is settled: each of its
fields is read back unchanged (`Argument.Made.settled`, `Flag.Made.settled`,
`Schema.Made.settled`).
-/

namespace CommandGrammar

namespace Text

/-- A text that does not begin with a blank loses none there. -/
theorem dropBlanks_of_head {cs : List Char} (plain : ∀ c ∈ cs.head?, isBlank c = false) :
    dropBlanks cs = cs := by
  cases cs with
  | nil => rfl
  | cons c rest => exact List.dropWhile_cons_of_neg (Bool.eq_false_iff.1 (plain c rfl))

/-- A trimmed text does not begin with a blank: it is the beginning of one that does not. -/
theorem dropBlanks_trimList (cs : List Char) : dropBlanks (trimList cs) = trimList cs := by
  apply dropBlanks_of_head
  intro c hc
  have isPrefix : trimList cs <+: dropBlanks cs := List.rdropWhile_prefix isBlank (dropBlanks cs)
  obtain ⟨rest, hrest⟩ := isPrefix
  obtain ⟨others, hothers⟩ := List.head?_eq_some_iff.1 hc
  have hhead : (dropBlanks cs).head? = some c := by
    rw [← hrest, hothers]
    rfl
  have hplain := List.head?_dropWhile_not isBlank cs
  rw [show cs.dropWhile isBlank = dropBlanks cs from rfl, hhead] at hplain
  exact hplain

theorem trim_trim (s : String) : trim (trim s) = trim s := by
  have hlist : trimList (trimList s.toList) = trimList s.toList := by
    rw [trimList, dropBlanks_trimList]
    exact List.rdropWhile_idempotent isBlank (dropBlanks s.toList)
  rw [trim, trim, String.toList_ofList, hlist]

/-- A text without blanks is left as it is. -/
theorem trim_of_plain {s : String} (plain : ∀ c ∈ s.toList, isBlank c = false) : trim s = s := by
  have noneDropped : ∀ cs : List Char, (∀ c ∈ cs, isBlank c = false) → dropBlanks cs = cs := by
    intro cs h
    exact dropBlanks_of_head fun c hc => h c (List.mem_of_head? hc)
  have hlist : trimList s.toList = s.toList := by
    rw [trimList, noneDropped _ plain, noneDropped, List.reverse_reverse]
    intro c hc
    exact plain c (List.mem_reverse.1 hc)
  rw [trim, hlist, String.ofList_toList]

end Text

/-- A reference to a type as it is written. -/
def TypeRef.asValue : TypeRef → Value
  | .named name => .str name
  | .host converter => .callable converter

/-- A bound of a range as it is written. -/
def Value.ofBound (bound : Option Number) : Value := .ofOption (bound.map .ofNumber)

/-! ## Readers of fields -/

section Readers

variable {spec : SpecKind} {field : String} {v : Value}

theorem Value.asField_eq_ok {s : String} (ok : v.asField spec field = .ok s) :
    Text.trim s = s ∧ s.isEmpty = false := by
  unfold asField at ok
  split at ok
  · dsimp only at ok
    split at ok
    · cases ok
    · rename_i nonempty
      cases ok
      exact ⟨Text.trim_trim _, Bool.eq_false_iff.2 nonempty⟩
  · cases ok

theorem Value.asField_of_trimmed {s : String} (trimmed : Text.trim s = s)
    (nonempty : s.isEmpty = false) : (Value.str s).asField spec field = .ok s := by
  unfold asField
  dsimp only
  rw [trimmed, nonempty]
  rfl

theorem Value.asField_of_isWord {s : String} (isWord : Text.IsWord s) :
    (Value.str s).asField spec field = .ok s := by
  refine asField_of_trimmed (Text.trim_of_plain isWord.plain) (Bool.eq_false_iff.2 ?_)
  intro isEmpty
  exact isWord.nonempty (String.toList_eq_nil_iff.2 (String.isEmpty_iff.1 isEmpty))

/-- A field is read back as it is. -/
theorem Value.asField_again {s : String} (ok : v.asField spec field = .ok s) :
    (Value.str s).asField spec field = .ok s :=
  have ⟨trimmed, nonempty⟩ := asField_eq_ok ok
  asField_of_trimmed trimmed nonempty

/-- A help text is read back as it is. -/
theorem Value.asHelp_again {help : Option String} (ok : v.asHelp spec = .ok help) :
    (Value.ofText help).asHelp spec = .ok help := by
  unfold asHelp at ok
  split at ok
  · cases ok
    rfl
  · cases ok
    rfl
  · obtain ⟨s, hs, rfl⟩ := map_eq_ok.1 ok
    exact map_eq_ok.2 ⟨s, asField_again hs, rfl⟩

/-- A reference to a type is read back as it is. -/
theorem Value.asType_again {type : TypeRef} (ok : v.asType = .ok type) :
    type.asValue.asType = .ok type := by
  unfold asType at ok
  split at ok
  · cases ok
    rfl
  · obtain ⟨name, hname, rfl⟩ := map_eq_ok.1 ok
    exact map_eq_ok.2 ⟨name, asField_again hname, rfl⟩
  · cases ok

/-- Settings of a numeric type are always accepted. -/
theorem Value.asOptions_of (o : Option NumericOptions) :
    (Value.ofOption (o.map .options)).asOptions = .ok o := by
  cases o <;> rfl

/-- Settings by name are always accepted. -/
theorem Value.asExtras_of (extras : List (String × Value)) :
    (Value.dict (extras.map fun (key, v) => (.str key, v))).asExtras = .ok extras := by
  show extrasOf _ = .ok extras
  induction extras with
  | nil => rfl
  | cons e rest ih =>
    rw [List.map_cons, extrasOf, ih]
    rfl

end Readers

namespace NumericOptions

theorem boundOf_ofBound (bound : Option Number) : boundOf (.ofBound bound) = .ok bound := by
  cases bound with
  | none => rfl
  | some n => cases n <;> rfl

/-- Settings that can be made: a range that was checked, or a signedness. -/
inductive Made : NumericOptions → Prop
  | range {v : Value} {o : NumericOptions} (ok : ofRange v = .ok o) : Made o
  | signedness (unsigned : Bool) : Made (.signedness unsigned)

/-- A range is read back as it is. -/
theorem Made.ofRange_again {low high : Option Number} (made : Made (.range low high)) :
    ofRange (.tuple [.ofBound low, .ofBound high]) = .ok (.range low high) := by
  cases made with
  | range ok =>
    unfold ofRange at ok
    split at ok
    · obtain ⟨m, -, ok⟩ := bind_eq_ok.1 ok
      obtain ⟨n, -, ok⟩ := bind_eq_ok.1 ok
      have same : m = low ∧ n = high := by
        split at ok
        · split at ok
          · cases ok
          · cases ok
            exact ⟨rfl, rfl⟩
        · cases ok
          exact ⟨rfl, rfl⟩
      obtain ⟨rfl, rfl⟩ := same
      unfold ofRange
      simp only [Value.items?, boundOf_ofBound]
      exact ok
    · cases ok

end NumericOptions

/-! ## Arguments -/

namespace Argument

/-- An argument that can be made directly. -/
def Made (a : Argument Value) : Prop :=
  (∃ fields, ofFields fields = .ok a) ∧ ∀ o, a.options = some o → o.Made

/-- The fields of an argument are read back as they are. -/
structure Settled (a : Argument Value) : Prop where
  dest : (Value.str a.dest).asField .argument "dest" = .ok a.dest
  name : (Value.str a.name).asField .argument "name" = .ok a.name
  type : a.type.asValue.asType = .ok a.type
  help : (Value.ofText a.help).asHelp .argument = .ok a.help

/-- What an argument is read from, field by field. -/
structure ReadFrom (a : Argument Value) (fields : Fields) : Prop where
  dest : (fields.getD "dest" .null).asField .argument "dest" = .ok a.dest
  name : ((fields.getD "name" .unset).orElse (.str a.dest)).asField .argument "name" = .ok a.name
  type : (fields.getD "type" (.str "string")).asType = .ok a.type
  options : (fields.getD "options" .null).asOptions = .ok a.options
  extras : (fields.getD "extras" (.dict [])).asExtras = .ok a.extras
  help : (fields.getD "help" .unset).asHelp .argument = .ok a.help
  required : (fields.getD "required" (.bool true)).truthy = a.required
  default : fields.getD "default" .null = a.default

theorem readFrom_of_ofFields {a : Argument Value} {fields : Fields} (ok : ofFields fields = .ok a) :
    a.ReadFrom fields := by
  unfold ofFields at ok
  dsimp only at ok
  split at ok
  rotate_left
  · cases ok
  simp only [bind_eq_ok] at ok
  obtain ⟨_, dest, _, name, _, type, _, options, _, extras, _, help, ok⟩ := ok
  cases ok
  exact ⟨dest, name, type, options, extras, help, rfl, rfl⟩

theorem settled_of_ofFields {a : Argument Value} {fields : Fields} (ok : ofFields fields = .ok a) :
    a.Settled :=
  have read := readFrom_of_ofFields ok
  ⟨Value.asField_again read.dest, Value.asField_again read.name, Value.asType_again read.type,
    Value.asHelp_again read.help⟩

theorem Made.settled {a : Argument Value} (made : a.Made) : a.Settled := by
  obtain ⟨⟨fields, ok⟩, -⟩ := made
  exact settled_of_ofFields ok

end Argument

/-! ## Flags -/

namespace Flag

/-- The code that a flag is called by: its long one, or else its short one. -/
def code (f : Flag Value) : String := (f.long.or (f.short.map (·.toString))).getD ""

/-- A flag that can be made directly of arguments that can be. -/
inductive Made : Flag Value → Prop
  | make {long short dest help : Value} {args : List (Argument Value)} {f : Flag Value}
      (parts : ∀ a ∈ args, a.Made) (ok : Flag.make long short dest help (.ok args) = .ok f) :
      Made f

/-- The fields of a flag are read back as they are, and its code would do as its key. -/
structure Settled (f : Flag Value) : Prop where
  coded : f.long ≠ none ∨ f.short ≠ none
  long : longOf (.ofText f.long) = .ok f.long
  short : shortOf (.ofText (f.short.map (·.toString))) = .ok f.short
  code : (Value.str f.code).asField .flag "dest" = .ok f.code
  dest : (Value.str f.dest).asField .flag "dest" = .ok f.dest
  help : (Value.ofText f.help).asHelp .flag = .ok f.help

/-- A long code is what it was read from. -/
theorem eq_of_longOf {v : Value} {long : Option String} (ok : longOf v = .ok long) :
    v = .ofText long := by
  unfold longOf at ok
  split at ok
  · cases ok
    rfl
  · split at ok
    · cases ok
    · split at ok
      · cases ok
      · split at ok <;> cases ok
        rfl
  · cases ok

/-- A short code is what it was read from. -/
theorem eq_of_shortOf {v : Value} {short : Option Char} (ok : shortOf v = .ok short) :
    v = .ofText (short.map (·.toString)) := by
  unfold shortOf at ok
  split at ok
  · cases ok
    rfl
  · rename_i s
    split at ok
    · rename_i c single
      split at ok <;> cases ok
      have same : s = c.toString :=
        String.toList_inj.1 (single.trans (String.toList_singleton c).symm)
      rw [same]
      rfl
    · cases ok
  · cases ok

/-- A long code is not empty and holds no blanks. -/
theorem isWord_of_longOf {v : Value} {code : String} (ok : longOf v = .ok (some code)) :
    Text.IsWord code := by
  unfold longOf at ok
  split at ok
  · cases ok
  · split at ok
    · cases ok
    · rename_i nonempty
      split at ok
      · cases ok
      · split at ok
        · cases ok
        · rename_i malformed
          cases ok
          refine ⟨?_, ?_⟩
          · intro nil
            exact nonempty (String.isEmpty_iff.2 (String.toList_eq_nil_iff.1 nil))
          · intro c mem
            have plain := (not_or.1 (mt Bool.or_eq_true_iff.2 malformed)).2
            exact Bool.eq_false_iff.2 (List.any_eq_false.1 (Bool.eq_false_iff.2 plain) c mem)
  · cases ok

/-- A short code is no blank. -/
theorem isWord_of_shortOf {v : Value} {c : Char} (ok : shortOf v = .ok (some c)) :
    Text.IsWord c.toString := by
  have single : c.toString.toList = [c] := String.toList_singleton c
  have plain : isBlank c = false := by
    unfold shortOf at ok
    split at ok
    · cases ok
    · split at ok
      · split at ok
        · cases ok
        · rename_i malformed
          cases ok
          exact Bool.eq_false_iff.2 (not_or.1 (mt Bool.or_eq_true_iff.2 malformed)).2
      · cases ok
    · cases ok
  refine ⟨?_, ?_⟩
  · rw [single]
    exact List.cons_ne_nil _ _
  · rw [single]
    exact List.forall_mem_singleton.2 plain

/-- What is made as a flag was read field by field. -/
theorem make_reads {long short dest help : Value} {args : Except Refusal (List (Argument Value))}
    {f : Flag Value} (ok : make long short dest help args = .ok f) :
    longOf long = .ok f.long ∧ shortOf short = .ok f.short ∧
      (dest.orElse (.str f.code)).asField .flag "dest" = .ok f.dest ∧ args = .ok f.args ∧
      help.asHelp .flag = .ok f.help := by
  unfold make at ok
  split at ok
  · cases ok
  · simp only [bind_eq_ok] at ok
    obtain ⟨_, hlong, _, hshort, _, hdest, _, hargs, _, hhelp, ok⟩ := ok
    cases ok
    exact ⟨hlong, hshort, hdest, hargs, hhelp⟩

/-- What is made as a flag has the codes that were read, and the arguments that it was made of. -/
theorem make_eq_ok {long short dest help : Value} {args : Except Refusal (List (Argument Value))}
    {f : Flag Value} (ok : make long short dest help args = .ok f) :
    args = .ok f.args ∧ f.Settled := by
  obtain ⟨hlong, hshort, hdest, hargs, hhelp⟩ := make_reads ok
  have hlong' := eq_of_longOf hlong
  have hshort' := eq_of_shortOf hshort
  have coded : f.long ≠ none ∨ f.short ≠ none := by
    by_contra uncoded
    obtain ⟨long, short⟩ : f.long = none ∧ f.short = none := by simpa using uncoded
    rw [hlong', hshort', long, short] at ok
    cases ok
  have codeWord : Text.IsWord f.code := by
    unfold code
    cases long : f.long with
    | some code => exact isWord_of_longOf (hlong.trans (congrArg Except.ok long))
    | none =>
      cases short : f.short with
      | some c => exact isWord_of_shortOf (hshort.trans (congrArg Except.ok short))
      | none => exact absurd short (coded.resolve_left (not_not_intro long))
  exact ⟨hargs, coded, hlong' ▸ hlong, hshort' ▸ hshort, Value.asField_of_isWord codeWord,
    Value.asField_again hdest, Value.asHelp_again hhelp⟩

/-- Flags are made of the arguments that they have. -/
theorem Made.args {f : Flag Value} (made : f.Made) : ∀ a ∈ f.args, a.Made := by
  cases made with
  | make parts ok =>
    cases (make_eq_ok ok).1
    exact parts

theorem Made.settled {f : Flag Value} (made : f.Made) : f.Settled := by
  cases made with
  | make parts ok => exact (make_eq_ok ok).2

end Flag

/-! ## Schemas -/

namespace Schema

/-- A schema that can be made directly of arguments, flags and schemas that can be. -/
inductive Made : Schema Value → Prop
  | make {name dest aliases help : Value} {children : Children} {n : Schema Value}
      (args : ∀ a ∈ children.args, a.Made) (flags : ∀ f ∈ children.flags, f.Made)
      (subs : ∀ sub ∈ children.subcommands, Made sub)
      (ok : Schema.make name dest aliases help (.ok children) = .ok n) : Made n

/-- The fields of a schema are read back as they are, and its children go together. -/
structure Settled (n : Schema Value) : Prop where
  name : nameOf (.ofText n.name) = .ok n.name
  named : ∀ name ∈ n.name, Text.trim name = name
  aliases : ∀ v : Value, v.items? = some (n.aliases.map .str) →
    aliasesFor n.name v = .ok n.aliases
  dest : Text.trim n.dest = n.dest
  help : (Value.ofText n.help).asHelp .command = .ok n.help
  check : Children.check ⟨n.args, n.flags, n.subcommands⟩ = .ok ()

theorem wordOf_of_isWord {what word : String} (isWord : Text.IsWord word) :
    wordOf what (.str word) = .ok word := by
  have nonempty : word.isEmpty = false := by
    refine Bool.eq_false_iff.2 fun isEmpty => ?_
    exact isWord.nonempty (String.toList_eq_nil_iff.2 (String.isEmpty_iff.1 isEmpty))
  have plain : Text.hasBlank word = false :=
    List.any_eq_false.2 fun c mem => Bool.eq_false_iff.1 (isWord.plain c mem)
  unfold wordOf
  dsimp only
  rw [Text.trim_of_plain isWord.plain, nonempty, plain]
  rfl

/-- The name of a schema is read back as it is. -/
theorem nameOf_again {v : Value} {name : Option String} (ok : nameOf v = .ok name) :
    nameOf (.ofText name) = .ok name := by
  cases name with
  | none => rfl
  | some name =>
    show some <$> wordOf "'name'" (.str name) = .ok (some name)
    rw [wordOf_of_isWord (nameOf_eq_ok ok)]
    rfl

/-- Distinct words that are no one's yet are accepted as aliases. -/
theorem aliasesOf_of_nodup {name : Option String} {before words : List String}
    (isWord : ∀ word ∈ words, Text.IsWord word) (distinct : (before ++ words).Nodup)
    (apart : ∀ word ∈ words, name ≠ some word) :
    aliasesOf name before (words.map .str) = .ok (before ++ words) := by
  induction words generalizing before with
  | nil =>
    rw [List.append_nil]
    rfl
  | cons word rest ih =>
    obtain ⟨here, later⟩ := List.forall_mem_cons.1 isWord
    obtain ⟨fresh, others⟩ := List.forall_mem_cons.1 apart
    have unseen : word ∉ before := by
      intro mem
      exact (List.nodup_append.1 distinct).2.2 word mem word List.mem_cons_self rfl
    have step : before ++ word :: rest = (before ++ [word]) ++ rest := by
      rw [List.append_assoc, List.singleton_append]
    rw [step] at distinct ⊢
    rw [List.map_cons, aliasesOf, wordOf_of_isWord here]
    have accepted : ¬(decide (name = some word) || before.contains word) = true := by
      rw [Bool.or_eq_true, not_or, decide_eq_true_eq, List.contains_iff_mem]
      exact ⟨fresh, unseen⟩
    exact (if_neg accepted).trans (ih later distinct others)

/-- The aliases of a schema are read back as they are. -/
theorem aliasesFor_again {name : Option String} {v v' : Value} {aliases : List String}
    (ok : aliasesFor name v = .ok aliases) (items : v'.items? = some (aliases.map .str)) :
    aliasesFor name v' = .ok aliases := by
  have isWord := aliasesFor_eq_ok ok
  unfold aliasesFor at ok
  split at ok
  · cases ok
  · obtain ⟨words, hwords, ok⟩ := bind_eq_ok.1 ok
    split at ok
    · cases ok
    · rename_i owned
      cases ok
      obtain ⟨distinct, apart⟩ := aliasesOf_nodup List.nodup_nil (List.forall_mem_nil _) hwords
      have again : aliasesOf name [] (aliases.map .str) = .ok aliases :=
        aliasesOf_of_nodup isWord distinct apart
      unfold aliasesFor
      rw [items]
      dsimp only
      rw [again]
      exact if_neg owned

theorem destOf_eq_ok {name : Option String} {v : Value} {dest : String}
    (named : ∀ word ∈ name, Text.trim word = word) (ok : destOf name v = .ok dest) :
    Text.trim dest = dest := by
  unfold destOf at ok
  split at ok
  · cases ok
  · cases ok
    exact named _ rfl
  · cases ok
    exact Text.trim_trim _
  · cases ok

/-- What is made as a schema was read field by field, and its children go together. -/
theorem make_reads {name dest aliases help : Value} {children : Except Refusal Children}
    {n : Schema Value} (ok : make name dest aliases help children = .ok n) :
    nameOf name = .ok n.name ∧ aliasesFor n.name aliases = .ok n.aliases ∧
      destOf n.name dest = .ok n.dest ∧ help.asHelp .command = .ok n.help ∧
      children = .ok ⟨n.args, n.flags, n.subcommands⟩ ∧
      Children.check ⟨n.args, n.flags, n.subcommands⟩ = .ok () := by
  unfold make at ok
  simp only [bind_eq_ok] at ok
  obtain ⟨_, hname, _, haliases, _, hdest, _, hhelp, _, hchildren, ⟨⟩, hcheck, ok⟩ := ok
  cases ok
  exact ⟨hname, haliases, hdest, hhelp, hchildren, hcheck⟩

/-- A schema that is made is settled, whatever its children are. -/
theorem settled_of_make {name dest aliases help : Value} {children : Except Refusal Children}
    {n : Schema Value} (ok : make name dest aliases help children = .ok n) : n.Settled := by
  obtain ⟨hname, haliases, hdest, hhelp, -, hcheck⟩ := make_reads ok
  have named : ∀ word ∈ n.name, Text.trim word = word := by
    intro word mem
    exact Text.trim_of_plain (nameOf_eq_ok (hname.trans (congrArg Except.ok mem))).plain
  exact ⟨nameOf_again hname, named, fun _ => aliasesFor_again haliases, destOf_eq_ok named hdest,
    Value.asHelp_again hhelp, hcheck⟩

namespace Made

variable {n : Schema Value}

theorem settled (made : n.Made) : n.Settled := by
  cases made with
  | make args flags subs ok => exact settled_of_make ok

theorem args (made : n.Made) : ∀ a ∈ n.args, a.Made := by
  cases made with
  | make args flags subs ok =>
    cases (make_eq_ok ok).1
    exact args

theorem flags (made : n.Made) : ∀ f ∈ n.flags, f.Made := by
  cases made with
  | make args flags subs ok =>
    cases (make_eq_ok ok).1
    exact flags

theorem sub (made : n.Made) : ∀ sub ∈ n.subcommands, sub.Made := by
  cases made with
  | make args flags subs ok =>
    cases (make_eq_ok ok).1
    exact subs

end Made

end Schema

end CommandGrammar
