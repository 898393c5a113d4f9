import CommandGrammar.Proofs.Parse.Agreement
import CommandGrammar.Proofs.Parse.Grammar

/-!
# The order of declarations

The flags of a schema and its named sub-commands may be declared in any order: codes and words are
distinct on each level, so each is looked up to the same flag or sub-command. Only the unnamed
sub-commands have an order (`declaration_order`).
-/

namespace CommandGrammar

/-- The second schema declares what the first one does with the flags and the sub-commands of each
level in another order, but the unnamed sub-commands in the same one. -/
inductive Schema.Shuffled : Schema Value → Schema Value → Prop
  | mk {n : Schema Value} {flags : List (Flag Value)} {shuffled subs : List (Schema Value)}
      (below : n.subcommands.Forall₂ Shuffled shuffled) (flagOrder : n.flags.Perm flags)
      (subOrder : shuffled.Perm subs)
      (unnamed : shuffled.filter (!·.named) = subs.filter (!·.named)) :
      Shuffled n { n with flags := flags, subcommands := subs }

/-- An item that is all of its kind is found in any order. -/
theorem find?_eq_of_perm {α : Type} {f : α → Bool} {xs ys : List α} (perm : xs.Perm ys)
    (unique : ∀ a ∈ xs, ∀ b ∈ xs, f a = true → f b = true → a = b) : xs.find? f = ys.find? f := by
  cases hx : xs.find? f with
  | none =>
    rw [List.find?_eq_none] at hx
    exact (List.find?_eq_none.2 fun b hb => hx b (perm.mem_iff.2 hb)).symm
  | some a =>
    have ha := List.mem_of_find?_eq_some hx
    cases hy : ys.find? f with
    | none =>
      rw [List.find?_eq_none] at hy
      exact absurd (List.find?_some hx) (hy a (perm.mem_iff.1 ha))
    | some b =>
      have hb := perm.mem_iff.2 (List.mem_of_find?_eq_some hy)
      rw [unique a ha b hb (List.find?_some hx) (List.find?_some hy)]

theorem exists_of_mem_left {α β : Type} {R : α → β → Prop} {xs : List α} {ys : List β}
    (h : xs.Forall₂ R ys) {a : α} (mem : a ∈ xs) : ∃ b ∈ ys, R a b := by
  induction h with
  | nil => exact absurd mem List.not_mem_nil
  | @cons x y _ _ head _ ih =>
    rcases List.mem_cons.1 mem with rfl | mem
    · exact ⟨y, List.mem_cons_self, head⟩
    · obtain ⟨b, hb, related⟩ := ih mem
      exact ⟨b, List.mem_cons_of_mem _ hb, related⟩

theorem exists_of_mem_right {α β : Type} {R : α → β → Prop} {xs : List α} {ys : List β}
    (h : xs.Forall₂ R ys) {b : β} (mem : b ∈ ys) : ∃ a ∈ xs, R a b :=
  exists_of_mem_left (List.Forall₂.flip (R := fun b a => R a b) h) mem

/-! ## Flags in another order -/

theorem Flag.mem_codes_of_long {f : Flag Value} {code : String} (long : f.long = some code) :
    "--" ++ code ∈ f.codes := by
  rw [Flag.codes, long]
  exact List.mem_append_left _ List.mem_cons_self

theorem Flag.mem_codes_of_short {f : Flag Value} {code : Char} (short : f.short = some code) :
    "-" ++ code.toString ∈ f.codes := by
  rw [Flag.codes, short]
  exact List.mem_append_right _ List.mem_cons_self

section Flags

variable {flags others : List (Flag Value)}

/-- Where codes are distinct, a flag that is looked up by its code is the same in any order. -/
theorem find?_eq_of_code {f : Flag Value → Bool} (code : String) (perm : flags.Perm others)
    (distinct : (flags.flatMap Flag.codes).Nodup)
    (coded : ∀ flag, f flag = true → code ∈ flag.codes) : flags.find? f = others.find? f := by
  refine find?_eq_of_perm perm ?_
  intro a ha b hb hfa hfb
  exact eq_of_nodup_flatMap distinct ha hb (coded a hfa) (coded b hfb)

theorem longFlag?_eq_of_perm (perm : flags.Perm others)
    (distinct : (flags.flatMap Flag.codes).Nodup) (name : List Char) :
    longFlag? flags name = longFlag? others name := by
  refine find?_eq_of_code ("--" ++ String.ofList name) perm distinct ?_
  intro flag named
  exact Flag.mem_codes_of_long (of_decide_eq_true named)

theorem shortFlag?_eq_of_perm (perm : flags.Perm others)
    (distinct : (flags.flatMap Flag.codes).Nodup) (code : Char) :
    shortFlag? flags code = shortFlag? others code := by
  refine find?_eq_of_code ("-" ++ code.toString) perm distinct ?_
  intro flag coded
  exact Flag.mem_codes_of_short (of_decide_eq_true coded)

theorem packed_congr (same : ∀ code, shortFlag? flags code = shortFlag? others code)
    (equalsEnds : Bool) (last : Flag Value) (marks : List String) (offset : Nat)
    (cs : List Char) :
    packed flags equalsEnds last marks offset cs =
      packed others equalsEnds last marks offset cs := by
  induction cs generalizing last marks offset with
  | nil => rfl
  | cons c rest ih =>
    rw [packed, packed, same]
    split
    · rfl
    · split
      · rfl
      · exact ih _ _ _

theorem shortCodes_congr (same : ∀ code, shortFlag? flags code = shortFlag? others code)
    (equalsEnds : Bool) (c : Char) (rest : List Char) :
    shortCodes flags equalsEnds c rest = shortCodes others equalsEnds c rest := by
  rw [shortCodes, shortCodes, same]
  split
  · rfl
  · exact packed_congr same _ _ _ _ _

namespace Parser

/-- A token spells the same flags in any order of those that there are. -/
theorem spelled_eq_of_perm (p : Parser) (perm : flags.Perm others)
    (distinct : (flags.flatMap Flag.codes).Nodup) (token : Token) (c : Char) (rest : List Char) :
    p.spelled flags token c rest = p.spelled others token c rest := by
  have short := shortFlag?_eq_of_perm perm distinct
  rw [spelled, spelled, longFlag?_eq_of_perm perm distinct, shortCodes_congr short]

theorem flag_eq_of_perm (p : Parser) (perm : flags.Perm others)
    (distinct : (flags.flatMap Flag.codes).Nodup) (token : Token) (c : Char) (rest : List Char)
    (s : State) : p.flag flags token c rest s = p.flag others token c rest s := by
  rw [flag, flag, p.spelled_eq_of_perm perm distinct]

end Parser

end Flags

/-! ## Schemas in another order -/

namespace Schema

variable {n m : Schema Value}

theorem Shuffled.refl (n : Schema Value) : n.Shuffled n := by
  induction n using Schema.induction with
  | step n ih =>
    cases n
    exact .mk (List.forall₂_same.2 ih) (.refl _) (.refl _) rfl

theorem Shuffled.words (h : n.Shuffled m) : m.words = n.words := by
  cases h
  rfl

theorem Shuffled.named (h : n.Shuffled m) : m.named = n.named := by
  cases h
  rfl

/-- Sub-commands that are shuffled have the same words all together. -/
theorem flatMap_words_of_shuffled {subs shuffled : List (Schema Value)}
    (h : subs.Forall₂ Shuffled shuffled) :
    shuffled.flatMap Schema.words = subs.flatMap Schema.words := by
  induction h with
  | nil => rfl
  | cons head _ ih => rw [List.flatMap_cons, List.flatMap_cons, head.words, ih]

/-- A schema can be made in any order of its declarations. -/
theorem Shuffled.built (built : n.Built) (h : n.Shuffled m) : m.Built := by
  induction n using Schema.induction generalizing m with
  | step n ih =>
    cases h with
    | @mk _ flags shuffled subs below flagOrder subOrder unnamed =>
      have codes : (flags.flatMap Flag.codes).Nodup :=
        (flagOrder.flatMap_right Flag.codes).nodup built.codes_nodup
      have words : (subs.flatMap Schema.words).Nodup := by
        refine (subOrder.flatMap_right Schema.words).nodup ?_
        rw [flatMap_words_of_shuffled below]
        exact built.words_nodup
      refine built.withChildren codes ?_ words
      intro sub mem
      obtain ⟨other, hother, hshuffled⟩ := exists_of_mem_right below (subOrder.mem_iff.2 mem)
      exact ih other hother (built.sub other hother) hshuffled

/-- A word selects the same sub-command, shuffled. -/
theorem Shuffled.selected? (built : n.Built) (h : n.Shuffled m) (word : String) :
    (n.selected? word).Rel (fun a b => a ∈ n.subcommands ∧ a.Shuffled b) (m.selected? word) := by
  have hm := h.built built
  cases h with
  | @mk _ flags shuffled subs below flagOrder subOrder unnamed =>
    cases hn : n.selected? word with
    | some sub =>
      obtain ⟨mem, selects⟩ := Schema.selected?_eq_some hn
      obtain ⟨other, hother, hshuffled⟩ := exists_of_mem_left below mem
      have hword : word ∈ other.words := by
        rw [hshuffled.words]
        exact List.contains_iff_mem.1 selects
      rw [hm.selected?_eq_some (subOrder.mem_iff.1 hother) hword]
      exact .some ⟨mem, hshuffled⟩
    | none =>
      cases hselected : Schema.selected? { n with flags := flags, subcommands := subs } word with
      | none => exact .none
      | some other =>
        obtain ⟨mem, selects⟩ := Schema.selected?_eq_some hselected
        obtain ⟨sub, hsub, hshuffled⟩ := exists_of_mem_right below (subOrder.mem_iff.2 mem)
        have hword : word ∈ sub.words := by
          rw [← hshuffled.words]
          exact List.contains_iff_mem.1 selects
        cases hn.symm.trans (built.selected?_eq_some hsub hword)

/-- The unnamed sub-commands are the same, shuffled, and in the same order. -/
theorem Shuffled.alternatives (h : n.Shuffled m) :
    n.alternatives.Forall₂ Shuffled m.alternatives := by
  cases h with
  | @mk _ flags shuffled subs below flagOrder subOrder unnamed =>
    have filtered : (n.subcommands.filter (!·.named)).Forall₂ Shuffled
        (shuffled.filter (!·.named)) := by
      refine List.rel_filter ?_ below
      intro a b hab
      show (!a.named) = true ↔ (!b.named) = true
      rw [hab.named]
    rw [unnamed] at filtered
    exact filtered

end Schema

namespace Parser

/-- One parser on a schema that is built and on the schema in another order. -/
def shuffling (p : Parser) : Simulation p p :=
  { p.agreement with
    schemas := fun n m => n.Built ∧ n.Shuffled m
    live := True
    flagChars := p.agreement.flagChars
    flag := by
      rintro n m a b c rest s t - ⟨built, shuffled⟩ h next next' flagged
      have hflag := p.agreement.flag (n := n) trivial rfl h next next' flagged
      cases shuffled with
      | mk below flagOrder subOrder unnamed =>
        rw [p.flag_eq_of_perm flagOrder built.codes_nodup b c rest t] at hflag
        exact hflag
    dest := by
      rintro n m ⟨-, shuffled⟩
      cases shuffled
      rfl
    args := by
      rintro n m ⟨-, shuffled⟩
      cases shuffled
      exact List.forall₂_same.2 fun _ _ => rfl
    leaf := by
      rintro n m ⟨-, shuffled⟩
      cases shuffled with
      | mk below flagOrder subOrder unnamed =>
        rw [← subOrder.isEmpty_eq]
        generalize n.subcommands = subs at below
        cases below <;> rfl
    selected := by
      rintro n m word ⟨built, shuffled⟩
      have hselected := shuffled.selected? built word
      generalize n.selected? word = sub at hselected
      generalize m.selected? word = other at hselected
      cases hselected with
      | none => exact .none
      | some h => exact .some ⟨built.sub _ h.1, h.2⟩
    unnamed := by
      rintro n m ⟨built, shuffled⟩
      refine (List.forall₂_and_left _ _).2 ⟨?_, shuffled.alternatives⟩
      intro sub hsub
      exact built.sub sub (List.mem_filter.1 hsub).1 }

/-- A schema that is built can be made with its flags and its named sub-commands in any other order
on each level, and then every line is parsed as before, to the same result or to the same fault,
whatever the converters answer. -/
theorem declaration_order (p : Parser) {n m : Schema Value} (built : n.Built)
    (shuffled : n.Shuffled m) (start : Nat) :
    m.Built ∧ (p.parse m start).result = (p.parse n start).result := by
  refine ⟨shuffled.built built, ?_⟩
  exact parse_agrees (p.shuffling.command ⟨built, shuffled⟩ _ _ _ (fun _ => trivial) (.refl _))

/-- A command with two flags, two named sub-commands and one without a name. -/
def archive : Schema Value where
  name := some "archive"
  dest := "archive"
  aliases := []
  help := none
  args := [.ofType "file" "string" true]
  flags := [⟨"verbose", some "verbose", some 'v', none, []⟩,
    ⟨"packed", some "pack", some 'p', none, [.ofType "level" "int" true]⟩]
  subcommands :=
    [⟨some "put", "put", [], none, [.ofType "n" "int" true], [], []⟩,
     ⟨none, "all", [], none, [], [], []⟩,
     ⟨some "get", "get", ["g"], none, [.ofType "m" "int" true], [], []⟩]

/-- The same command with its flags and its sub-commands the other way round. -/
def archiveReversed : Schema Value :=
  { archive with
    flags := archive.flags.reverse, subcommands := archive.subcommands.reverse }

theorem archive_built : archive.Built := by
  have outer : Schema.make (.str "archive") .unset (.list []) .unset
      (.ok ⟨archive.args, archive.flags, archive.subcommands⟩) = .ok archive := rfl
  have put : Schema.make (.str "put") .unset (.list []) .unset
      (.ok ⟨[.ofType "n" "int" true], [], []⟩) =
        .ok ⟨some "put", "put", [], none, [.ofType "n" "int" true], [], []⟩ := rfl
  have all : Schema.make .null (.str "all") (.list []) .unset (.ok ⟨[], [], []⟩) =
      .ok ⟨none, "all", [], none, [], [], []⟩ := rfl
  have get : Schema.make (.str "get") .unset (.list [.str "g"]) .unset
      (.ok ⟨[.ofType "m" "int" true], [], []⟩) =
        .ok ⟨some "get", "get", ["g"], none, [.ofType "m" "int" true], [], []⟩ := rfl
  have leaf := List.forall_mem_nil Schema.Built
  exact .make (List.forall_mem_cons.2 ⟨.make leaf put,
    List.forall_mem_cons.2 ⟨.make leaf all, List.forall_mem_cons.2 ⟨.make leaf get, leaf⟩⟩⟩) outer

theorem declaration_order_archive : archiveReversed.Built ∧
    ∃ result, ((forLine "-vp 3 box g 1").parse archive 0).result = .ok result ∧
      result.keys = ["verbose", "packed", "level", "file", "m", "get", "archive"] ∧
      ((forLine "-vp 3 box g 1").parse archiveReversed 0).result = .ok result := by
  obtain ⟨result, ok, keys⟩ : ∃ result,
      ((forLine "-vp 3 box g 1").parse archive 0).result = .ok result ∧
        result.keys = ["verbose", "packed", "level", "file", "m", "get", "archive"] :=
    Report.exists_ok (by decide +kernel)
  have shuffled : archive.Shuffled archiveReversed :=
    .mk (List.forall₂_same.2 fun sub _ => .refl sub) (List.reverse_perm _).symm
      (List.reverse_perm _).symm rfl
  obtain ⟨built, same⟩ := declaration_order (forLine "-vp 3 box g 1") archive_built shuffled 0
  exact ⟨built, result, ok, keys, same.trans ok⟩

end Parser

end CommandGrammar
