import CommandGrammar.Proofs.Token.Encoding

/-!
# Invariants of the open token

While a line is scanned, a token opens, takes characters one after the other, and is closed. What
holds of a token where it opens, and is kept by each character that it takes, holds of each token
that is closed (`Keeps.closed`).
-/

namespace CommandGrammar.Token

theorem lt_length_of_drop {line rest : List Char} {index : Nat} {c : Char}
    (h : line.drop index = c :: rest) : index < line.length := by
  have := congrArg List.length h
  simp only [List.length_drop, List.length_cons] at this
  omega

/-- How a token is closed at an offset, and where it stops then: the line ends, or a quote that is
not escaped stands there, or, outside of quotes, a blank that is not escaped. -/
inductive Closing (line : List Char) (index : Nat) : Bool → Bool → Nat → Prop
  | ends {escaped quoted : Bool} (done : index = line.length) :
      Closing line index escaped quoted index
  | quote {quoted : Bool} {rest : List Char} (here : line.drop index = '"' :: rest) :
      Closing line index false quoted (if quoted then index + 1 else index)
  | blank {c : Char} {rest : List Char} (here : line.drop index = c :: rest)
      (blank : isBlank c = true) : Closing line index false false index

/-- A property of the offset, of whether the next character is escaped and quoting is on, and of
the open token, that holds where a token opens and is kept by each character that it takes. -/
structure Keeps (line : List Char) (I : Nat → Bool → Bool → Pending → Prop) : Prop where
  bare : ∀ {index : Nat}, index ≤ line.length → I index false false ⟨[], index⟩
  behind : ∀ {index : Nat} {rest : List Char}, line.drop index = '"' :: rest →
    I (index + 1) false true ⟨[], index + 1⟩
  push : ∀ {index : Nat} {escaped quoted : Bool} {p : Pending} {c : Char} {rest : List Char},
    I index escaped quoted p → line.drop index = c :: rest →
    (escaped = true ∨ isSpecial quoted c = false) → I (index + 1) false quoted (p.push c)
  escape : ∀ {index : Nat} {quoted : Bool} {p : Pending} {rest : List Char},
    I index false quoted p → line.drop index = '\\' :: rest → I (index + 1) true quoted p

/-- What is kept holds of each token that is closed, where it is closed. -/
theorem Keeps.closed {line cs : List Char} {I : Nat → Bool → Bool → Pending → Prop}
    (keeps : Keeps line I) {index : Nat} {pending : Option Pending} {escaped quoted : Bool}
    {t : Token} (here : line.drop index = cs) (within : index ≤ line.length)
    (held : I index escaped quoted (openAt index pending))
    (mem : t ∈ scan index pending escaped quoted cs) :
    ∃ i e q p stop, I i e q p ∧ Closing line i e q stop ∧ t ∈ p.close q stop := by
  induction cs generalizing index pending escaped quoted with
  | nil =>
    have done : index = line.length := by
      have := List.drop_eq_nil_iff.1 here
      omega
    cases pending with
    | none => simp [scan] at mem
    | some p => exact ⟨index, escaped, quoted, p, index, held, .ends done, mem⟩
  | cons c rest ih =>
    have next : line.drop (index + 1) = rest := by
      rw [← List.drop_drop, here, List.drop_one, List.tail_cons]
    have within' : index + 1 ≤ line.length := lt_length_of_drop here
    simp only [scan] at mem
    by_cases escapes : escaped = true
    · simp only [escapes, if_true] at mem
      exact ih next within' (keeps.push held here (.inl escapes)) mem
    rw [Bool.not_eq_true] at escapes
    subst escapes
    simp only [Bool.false_eq_true, if_false] at mem
    by_cases backslash : c = '\\'
    · subst backslash
      exact ih next within' (keeps.escape held here) mem
    simp only [backslash, if_false] at mem
    by_cases quote : c = '"'
    · subst quote
      simp only [if_true] at mem
      rcases List.mem_append.1 mem with mem | mem
      · exact ⟨index, false, quoted, _, _, held, .quote here, mem⟩
      · -- What opens behind the quote is quoted if this one was not.
        cases quoted with
        | false => exact ih next within' (keeps.behind here) mem
        | true => exact ih next within' (keeps.bare within') mem
    simp only [quote, if_false] at mem
    by_cases separates : (!quoted && isBlank c) = true
    · obtain ⟨plain, blank⟩ := Bool.and_eq_true_iff.1 separates
      rw [Bool.not_eq_true'] at plain
      subst plain
      simp only [separates, if_true] at mem
      rcases List.mem_append.1 mem with mem | mem
      · exact ⟨index, false, false, _, _, held, .blank here blank, mem⟩
      · exact ih next within' (keeps.bare within') mem
    · have plain : isSpecial quoted c = false := by
        simp [isSpecial, backslash, quote, separates]
      simp only [separates] at mem
      exact ih next within' (keeps.push held here (.inr plain)) mem

/-- What is kept holds of each token of a line, where it is closed. -/
theorem Keeps.of_mem_tokenize {source : String} {I : Nat → Bool → Bool → Pending → Prop}
    (keeps : Keeps source.toList I) {start : Nat} {t : Token} (mem : t ∈ tokenize source start) :
    ∃ i e q p stop, I i e q p ∧ Closing source.toList i e q stop ∧ t ∈ p.close q stop := by
  by_cases within : start ≤ source.toList.length
  · exact keeps.closed rfl within (keeps.bare within) mem
  · have past : source.toList.drop start = [] := List.drop_eq_nil_iff.2 (by omega)
    rw [tokenize, past] at mem
    simp [scan] at mem

end CommandGrammar.Token
