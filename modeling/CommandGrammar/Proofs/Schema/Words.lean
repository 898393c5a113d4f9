import CommandGrammar.Proofs.Schema.Built

/-!
# Words

What a schema is called by is a word: it is not empty and holds no blanks (`Schema.Built.isWord`),
and the schema is called by it once (`Schema.Built.ownWords_nodup`).
Between blanks, a word is read back as the first word of a line (`firstWordList_append`).
-/

namespace CommandGrammar

namespace Text

/-- A text that is not empty and holds no blanks. -/
structure IsWord (s : String) : Prop where
  nonempty : s.toList ≠ []
  plain : ∀ c ∈ s.toList, isBlank c = false

section FirstWord

variable {blanks rest : List Char} {word : String}

/-- Characters are taken up to the first one that is no longer of their kind. -/
theorem takeWhile_append_of_stop {p : Char → Bool} {cs rest : List Char}
    (inside : ∀ c ∈ cs, p c = true) (stop : ∀ c ∈ rest.head?, p c = false) :
    (cs ++ rest).takeWhile p = cs := by
  have stops : rest.takeWhile p = [] := by
    cases rest with
    | nil => rfl
    | cons c rest => exact List.takeWhile_cons_of_neg (Bool.eq_false_iff.1 (stop c rfl))
  rw [List.takeWhile_append_of_pos inside, stops, List.append_nil]

theorem IsWord.head_plain (isWord : IsWord word) :
    ∀ c ∈ (word.toList ++ rest).head?, isBlank c = false := by
  obtain ⟨c, cs, hword⟩ := List.exists_cons_of_ne_nil isWord.nonempty
  intro d hd
  rw [hword] at hd
  cases hd
  exact isWord.plain c (hword ▸ List.mem_cons_self)

/-- The blanks that a line begins with end where its first word begins. -/
theorem takeWhile_isBlank_append (isWord : IsWord word)
    (blank : ∀ c ∈ blanks, isBlank c = true) :
    (blanks ++ (word.toList ++ rest)).takeWhile isBlank = blanks :=
  takeWhile_append_of_stop blank isWord.head_plain

/-- A word between blanks is the first word of the line. -/
theorem firstWordList_append (isWord : IsWord word) (blank : ∀ c ∈ blanks, isBlank c = true)
    (apart : ∀ c ∈ rest.head?, isBlank c = true) :
    firstWordList (blanks ++ (word.toList ++ rest)) = word.toList := by
  have split := List.takeWhile_append_dropWhile (p := isBlank)
    (l := blanks ++ (word.toList ++ rest))
  rw [takeWhile_isBlank_append isWord blank] at split
  rw [firstWordList, dropBlanks, List.append_cancel_left split]
  refine takeWhile_append_of_stop ?_ ?_
  · intro c mem
    rw [isWord.plain c mem]
    rfl
  · intro c mem
    rw [apart c mem]
    rfl

end FirstWord

end Text

namespace Schema

theorem wordOf_eq_ok {what : String} {v : Value} {word : String} (ok : wordOf what v = .ok word) :
    Text.IsWord word := by
  unfold wordOf at ok
  split at ok
  · dsimp only at ok
    split at ok
    · cases ok
    · rename_i nonempty
      split at ok
      · cases ok
      · rename_i plain
        cases ok
        refine ⟨?_, ?_⟩
        · intro nil
          exact nonempty (String.isEmpty_iff.2 (String.toList_eq_nil_iff.1 nil))
        · intro c mem
          exact Bool.eq_false_iff.2 (List.any_eq_false.1 (Bool.eq_false_iff.2 plain) c mem)
  · cases ok

theorem nameOf_eq_ok {v : Value} {name : String} (ok : nameOf v = .ok (some name)) :
    Text.IsWord name := by
  unfold nameOf at ok
  split at ok
  · cases ok
  · obtain ⟨word, hword, same⟩ := map_eq_ok.1 ok
    cases same
    exact wordOf_eq_ok hword

/-- Aliases that are added to words are words. -/
theorem aliasesOf_eq_ok {name : Option String} {before aliases : List String} {vs : List Value}
    (words : ∀ word ∈ before, Text.IsWord word) (ok : aliasesOf name before vs = .ok aliases) :
    ∀ word ∈ aliases, Text.IsWord word := by
  induction vs generalizing before with
  | nil =>
    cases ok
    exact words
  | cons v rest ih =>
    rw [aliasesOf, bind_eq_ok] at ok
    obtain ⟨word, hword, ok⟩ := ok
    split at ok
    · cases ok
    · refine ih ?_ ok
      intro w mem
      rcases List.mem_append.1 mem with mem | mem
      · exact words w mem
      · rw [List.mem_singleton.1 mem]
        exact wordOf_eq_ok hword

theorem aliasesFor_eq_ok {name : Option String} {v : Value} {aliases : List String}
    (ok : aliasesFor name v = .ok aliases) : ∀ word ∈ aliases, Text.IsWord word := by
  unfold aliasesFor at ok
  split at ok
  · cases ok
  · rw [bind_eq_ok] at ok
    obtain ⟨words, hwords, ok⟩ := ok
    split at ok
    · cases ok
    · cases ok
      exact aliasesOf_eq_ok (List.forall_mem_nil _) hwords

/-- Aliases that are added to distinct ones differ from these, from each other and from the
name. -/
theorem aliasesOf_nodup {name : Option String} {before aliases : List String} {vs : List Value}
    (distinct : before.Nodup) (apart : ∀ word ∈ before, name ≠ some word)
    (ok : aliasesOf name before vs = .ok aliases) :
    aliases.Nodup ∧ ∀ word ∈ aliases, name ≠ some word := by
  induction vs generalizing before with
  | nil =>
    cases ok
    exact ⟨distinct, apart⟩
  | cons v rest ih =>
    rw [aliasesOf, bind_eq_ok] at ok
    obtain ⟨word, -, ok⟩ := ok
    split at ok
    · cases ok
    · rename_i fresh
      rw [Bool.or_eq_true, not_or, decide_eq_true_eq, List.contains_iff_mem] at fresh
      refine ih ?_ ?_ ok
      · rw [← List.concat_eq_append]
        exact distinct.concat fresh.2
      · exact List.forall_mem_append.2 ⟨apart, List.forall_mem_singleton.2 fresh.1⟩

/-- The aliases that a name has are distinct and differ from it. -/
theorem aliasesFor_nodup {name : String} {v : Value} {aliases : List String}
    (ok : aliasesFor (some name) v = .ok aliases) : (name :: aliases).Nodup := by
  unfold aliasesFor at ok
  split at ok
  · cases ok
  · rw [bind_eq_ok] at ok
    obtain ⟨words, hwords, ok⟩ := ok
    split at ok
    · cases ok
    · cases ok
      obtain ⟨distinct, apart⟩ := aliasesOf_nodup List.nodup_nil (List.forall_mem_nil _) hwords
      exact List.nodup_cons.2 ⟨fun mem => apart name mem rfl, distinct⟩

/-- A schema that is built is called by words. -/
theorem Built.isWord {n : Schema Value} (built : n.Built) : ∀ word ∈ n.words, Text.IsWord word := by
  cases built with
  | make subs ok =>
    unfold Schema.make at ok
    simp only [bind_eq_ok] at ok
    obtain ⟨name, hname, aliases, haliases, _, -, _, -, _, -, _, -, hn⟩ := ok
    cases hn
    cases name with
    | none => exact List.forall_mem_nil _
    | some name => exact List.forall_mem_cons.2 ⟨nameOf_eq_ok hname, aliasesFor_eq_ok haliases⟩

/-- A schema that is built is called by distinct words. -/
theorem Built.ownWords_nodup {n : Schema Value} (built : n.Built) : n.words.Nodup := by
  cases built with
  | make subs ok =>
    unfold Schema.make at ok
    simp only [bind_eq_ok] at ok
    obtain ⟨name, -, aliases, haliases, _, -, _, -, _, -, _, -, hn⟩ := ok
    cases hn
    cases name with
    | none => exact List.nodup_nil
    | some name => exact aliasesFor_nodup haliases

end Schema

end CommandGrammar
