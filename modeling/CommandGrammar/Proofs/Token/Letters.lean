import CommandGrammar.Proofs.Token.Order
import Mathlib.Data.List.Forall2

/-!
# Letters

What the characters of a line stand for depends on what is in front of them: a backslash escapes
the next character, and each quote that is not escaped turns quoting on or off. A character that
neither escapes, quotes nor separates is literal. Scanning loses none of the literal ones and adds
nothing to them: each token is a stretch of them that has the same quotes in front
(`tokenize_letters`).
-/

namespace CommandGrammar.Token

/-- A character of a line with its offset, whether a backslash escapes it, and how many quotes that
are not escaped stand in front of it. -/
structure Letter where
  char : Char
  offset : Nat
  escaped : Bool
  quotes : Nat

namespace Letter

/-- A backslash that escapes the next character, if there is one. -/
def escapes (l : Letter) : Bool := l.char = '\\' && !l.escaped

/-- A quote that is not escaped. -/
def isQuote (l : Letter) : Bool := l.char = '"' && !l.escaped

/-- Behind an odd number of quotes, quoting is on. -/
def quoted (l : Letter) : Bool := l.quotes % 2 = 1

/-- A blank that is neither escaped nor quoted. -/
def separates (l : Letter) : Bool := isBlank l.char && !l.escaped && !l.quoted

/-- A character that stands for itself. -/
def literal (l : Letter) : Bool := !(l.escapes || l.isQuote || l.separates)

/-- The quotes in front of what stands behind the letter. -/
def quotesBehind (l : Letter) : Nat := if l.isQuote then l.quotes + 1 else l.quotes

theorem isQuote_eq_false {l : Letter} (escapes : l.escapes = true) : l.isQuote = false := by
  simp only [Letter.escapes, Bool.and_eq_true, decide_eq_true_iff] at escapes
  simp [isQuote, escapes.1]

theorem quotesBehind_eq {l : Letter} (quote : l.isQuote = false) : l.quotesBehind = l.quotes := by
  simp [quotesBehind, quote]

/-- Where quoting is on nothing separates. -/
theorem even_of_separates {l : Letter} (separates : l.separates = true) : ¬ l.quotes % 2 = 1 := by
  simp_all [Letter.separates, quoted]

end Letter

/-- The letters of characters that stand from an offset on, given whether the first one is escaped
and the quotes in front of it. -/
def lettersFrom (index : Nat) (escaped : Bool) (quotes : Nat) : List Char → List Letter
  | [] => []
  | c :: rest =>
    let l : Letter := ⟨c, index, escaped, quotes⟩
    l :: lettersFrom (index + 1) l.escapes l.quotesBehind rest

/-- The letters of a line from an offset on. -/
def letters (source : String) (start : Nat) : List Letter :=
  lettersFrom start false 0 (source.toList.drop start)

theorem lettersFrom_chars (index : Nat) (escaped : Bool) (quotes : Nat) (cs : List Char) :
    (lettersFrom index escaped quotes cs).map Letter.char = cs := by
  induction cs generalizing index escaped quotes with
  | nil => rfl
  | cons c rest ih => rw [lettersFrom, List.map_cons, ih]

/-- The letters of a line are its characters. -/
theorem letters_chars (source : String) (start : Nat) :
    (letters source start).map Letter.char = source.toList.drop start :=
  lettersFrom_chars ..

theorem lettersFrom_split {index quotes : Nat} {escaped : Bool} {cs : List Char}
    {before after : List Letter} {l : Letter}
    (split : lettersFrom index escaped quotes cs = before ++ l :: after) :
    cs[before.length]? = some l.char ∧ l.offset = index + before.length ∧
      l.quotes = quotes + before.countP Letter.isQuote ∧
      l.escaped = (before.getLast?.map Letter.escapes).getD escaped := by
  induction before generalizing index escaped quotes cs with
  | nil =>
    cases cs with
    | nil => cases split
    | cons c rest =>
      rw [lettersFrom, List.nil_append] at split
      obtain ⟨rfl, -⟩ := List.cons.inj split
      simp
  | cons first before ih =>
    cases cs with
    | nil => cases split
    | cons c rest =>
      rw [lettersFrom, List.cons_append] at split
      obtain ⟨rfl, later⟩ := List.cons.inj split
      obtain ⟨hchar, hoffset, hquotes, hescaped⟩ := ih later
      refine ⟨by simpa using hchar, ?_, ?_, ?_⟩
      · rw [hoffset, List.length_cons]
        omega
      · rw [hquotes, List.countP_cons, Letter.quotesBehind]
        split
        · simp_all
          omega
        · simp_all
      · rw [hescaped, List.getLast?_cons]
        cases before.getLast? <;> rfl

/-- Each letter of a line has the offset of its character. It is escaped if the one in front of it
escapes, and its quotes are those in front of it. -/
theorem letters_split {source : String} {start : Nat} {before after : List Letter} {l : Letter}
    (split : letters source start = before ++ l :: after) :
    source.toList[l.offset]? = some l.char ∧ l.offset = start + before.length ∧
      l.quotes = before.countP Letter.isQuote ∧
      l.escaped = (before.getLast?.map Letter.escapes).getD false := by
  obtain ⟨hchar, hoffset, hquotes, hescaped⟩ := lettersFrom_split split
  rw [List.getElem?_drop, ← hoffset] at hchar
  exact ⟨hchar, hoffset, by rw [hquotes, Nat.zero_add], hescaped⟩

/-- A stretch behind so many quotes stands between quotes: its place begins at the last one of
them, and stops behind the next one, or where the line ends if there is none. -/
structure Enclosed (all : List Letter) (length quotes : Nat) (t : Token) : Prop where
  opening : ∃ l ∈ all, l.isQuote = true ∧ l.quotes + 1 = quotes ∧ t.start = l.offset
  closing : (∃ l ∈ all, l.isQuote = true ∧ l.quotes = quotes ∧ t.stop = (l.offset + 1 : Nat)) ∨
    (∀ l ∈ all, l.isQuote = true → l.quotes < quotes) ∧ t.stop = length

/-- A token is made of letters: they are its text, they stand in its place, and all of them have
the same quotes in front. The token is quoted if these are odd in number, and its place then
includes the quotes around it. -/
structure Covers (all : List Letter) (length : Nat) (t : Token) (ls : List Letter) : Prop where
  text : t.text.toList = ls.map Letter.char
  within : ∀ l ∈ ls, t.start ≤ l.offset ∧ (l.offset : Int) < t.stop
  stretch : ∃ quotes, (∀ l ∈ ls, l.quotes = quotes) ∧ (t.quoted = true ↔ quotes % 2 = 1) ∧
    (t.quoted = true → Enclosed all length quotes t)

/-- Tokens are made of letters, one after the other. -/
def MadeOf (all : List Letter) (length : Nat) (ts : List Token) (ls : List Letter) : Prop :=
  ∃ groups : List (List Letter), groups.flatten = ls ∧ List.Forall₂ (Covers all length) ts groups

namespace MadeOf

variable {all ls ks : List Letter} {length : Nat} {ts us : List Token}

theorem nil : MadeOf all length [] [] := ⟨[], List.flatten_nil, .nil⟩

theorem append (front : MadeOf all length ts ls) (back : MadeOf all length us ks) :
    MadeOf all length (ts ++ us) (ls ++ ks) := by
  obtain ⟨fronts, rfl, hfronts⟩ := front
  obtain ⟨backs, rfl, hbacks⟩ := back
  exact ⟨fronts ++ backs, List.flatten_append, List.rel_append hfronts hbacks⟩

/-- The texts together are the letters. -/
theorem flatMap_text (made : MadeOf all length ts ls) :
    ts.flatMap (fun t => t.text.toList) = ls.map Letter.char := by
  obtain ⟨groups, rfl, covers⟩ := made
  induction covers with
  | nil => rfl
  | cons covers _ ih =>
    rw [List.flatMap_cons, List.flatten_cons, List.map_append, covers.text, ih]

end MadeOf

/-! ## The letters of the open token -/

/-- The open token has been made of letters up to an offset. -/
structure Made (all : List Letter) (index quotes : Nat) (quoted : Bool) (p : Pending)
    (ls : List Letter) : Prop where
  chars : p.chars.reverse = ls.map Letter.char
  begun : p.start ≤ index
  within : ∀ l ∈ ls, p.start ≤ l.offset ∧ l.offset < index
  stretch : ∀ l ∈ ls, l.quotes = quotes
  odd : quoted = true ↔ quotes % 2 = 1
  opening : quoted = true →
    ∃ l ∈ all, l.isQuote = true ∧ l.quotes + 1 = quotes ∧ p.start = l.offset + 1

namespace Made

variable {all ls : List Letter} {index quotes : Nat} {quoted : Bool} {p : Pending}

/-- A letter that is dropped leaves the open token as it is. -/
theorem drop (made : Made all index quotes quoted p ls) :
    Made all (index + 1) quotes quoted p ls where
  chars := made.chars
  begun := Nat.le_succ_of_le made.begun
  within l mem := ⟨(made.within l mem).1, Nat.lt_succ_of_lt (made.within l mem).2⟩
  stretch := made.stretch
  odd := made.odd
  opening := made.opening

/-- A letter that is kept is added to the open token. -/
theorem push (made : Made all index quotes quoted p ls) (c : Char) (escaped : Bool) :
    Made all (index + 1) quotes quoted (p.push c) (ls ++ [⟨c, index, escaped, quotes⟩]) where
  chars := by
    simp [Pending.push, made.chars]
  begun := Nat.le_succ_of_le made.begun
  within := by
    intro l mem
    rcases List.mem_append.1 mem with mem | mem
    · exact made.drop.within l mem
    · rw [List.mem_singleton.1 mem]
      exact ⟨made.begun, Nat.lt_succ_self index⟩
  stretch := by
    intro l mem
    rcases List.mem_append.1 mem with mem | mem
    · exact made.stretch l mem
    · rw [List.mem_singleton.1 mem]
  odd := made.odd
  opening := made.opening

/-- Behind a quote that is not escaped nothing has been read of the next token. -/
theorem turned {l : Letter} (odd : quoted = true ↔ l.quotes % 2 = 1) (mem : l ∈ all)
    (quote : l.isQuote = true) :
    Made all (l.offset + 1) (l.quotes + 1) (!quoted) ⟨[], l.offset + 1⟩ [] where
  chars := rfl
  begun := Nat.le_refl _
  within := List.forall_mem_nil _
  stretch := List.forall_mem_nil _
  odd := by
    cases quoted <;> simp_all <;> omega
  opening _ := ⟨l, mem, quote, rfl, rfl⟩

/-- Outside of quotes, the next token may begin anywhere. -/
theorem fresh (made : Made all index quotes false p ls) (start : Nat) :
    Made all start quotes false ⟨[], start⟩ [] where
  chars := rfl
  begun := Nat.le_refl _
  within := List.forall_mem_nil _
  stretch := List.forall_mem_nil _
  odd := made.odd
  opening quoted := absurd quoted Bool.noConfusion

/-- The token that is closed has the letters of the open one, if there are any. -/
theorem close {length stop : Nat} (made : Made all index quotes quoted p ls) (behind : index ≤ stop)
    (closing : quoted = true →
      (∃ l ∈ all, l.isQuote = true ∧ l.quotes = quotes ∧ stop = l.offset + 1) ∨
        (∀ l ∈ all, l.isQuote = true → l.quotes < quotes) ∧ stop = length) :
    MadeOf all length (p.close quoted stop) ls := by
  unfold Pending.close
  split
  · rename_i empty
    have none : ls.map Letter.char = [] := by
      rw [← made.chars, List.isEmpty_iff.1 empty, List.reverse_nil]
    rw [List.map_eq_nil_iff.1 none]
    exact .nil
  · refine ⟨[ls], List.flatten_singleton, .cons ⟨?_, ?_, quotes, made.stretch, made.odd, ?_⟩ .nil⟩
    · rw [String.toList_ofList, made.chars]
    · intro l mem
      obtain ⟨lower, upper⟩ := made.within l mem
      constructor
      · dsimp only
        split <;> omega
      · show (l.offset : Int) < stop
        omega
    · intro on
      replace on : quoted = true := on
      obtain ⟨l, mem, quote, last, start⟩ := made.opening on
      refine ⟨⟨l, mem, quote, last, ?_⟩, ?_⟩
      · simp only [on, if_true]
        omega
      · rcases closing on with ⟨l, mem, quote, next, hstop⟩ | ⟨unclosed, hstop⟩
        · exact .inl ⟨l, mem, quote, next, congrArg Nat.cast hstop⟩
        · exact .inr ⟨unclosed, congrArg Nat.cast hstop⟩

end Made

variable {all ls : List Letter} {length : Nat}

/-- Behind a letter, each quote has fewer quotes in front. -/
theorem seen_behind {before : List Letter} {l : Letter}
    (seen : ∀ k ∈ before, k.isQuote = true → k.quotes < l.quotes) :
    ∀ k ∈ before ++ [l], k.isQuote = true → k.quotes < l.quotesBehind := by
  intro k mem quote
  unfold Letter.quotesBehind
  rcases List.mem_append.1 mem with mem | mem
  · have := seen k mem quote
    split
    · exact Nat.lt_succ_of_lt this
    · exact this
  · rw [List.mem_singleton.1 mem] at quote ⊢
    rw [if_pos quote]
    exact Nat.lt_succ_self _

/-- What the scanner does with a character is up to what the letter stands for. -/
theorem scan_letter {l : Letter} {quoted : Bool} (odd : quoted = true ↔ l.quotes % 2 = 1)
    (pending : Option Pending) (rest : List Char) :
    scan l.offset pending l.escaped quoted (l.char :: rest) =
      let p := openAt l.offset pending
      if l.escapes then scan (l.offset + 1) (some p) true quoted rest
      else if l.isQuote then
        p.close quoted (if quoted then l.offset + 1 else l.offset) ++
          scan (l.offset + 1) none false (!quoted) rest
      else if l.separates then
        p.close false l.offset ++ scan (l.offset + 1) none false false rest
      else scan (l.offset + 1) (some (p.push l.char)) false quoted rest := by
  have hquoted : l.quoted = quoted := by
    rw [Bool.eq_iff_iff, odd]
    exact decide_eq_true_iff
  rw [scan]
  simp only [Letter.escapes, Letter.isQuote, Letter.separates, hquoted]
  by_cases escaped : l.escaped = true
  · simp [escaped]
  · rw [Bool.not_eq_true] at escaped
    by_cases backslash : l.char = '\\'
    · simp [escaped, backslash]
    · by_cases quote : l.char = '"'
      · simp [escaped, quote]
      · simp [escaped, backslash, quote, and_comm]

/-- A letter that is dropped leaves the open token, or closes it at a quote or a blank, and one that
is literal is added to it. So if the tokens behind the letter are made of the letters behind it, so
are those from the letter on. -/
theorem scan_step {l : Letter} {later : List Letter} {pending : Option Pending} {quoted : Bool}
    {rest : List Char} (mem : l ∈ all)
    (made : Made all l.offset l.quotes quoted (openAt l.offset pending) ls)
    (onward : ∀ pending {quoted ks},
      Made all (l.offset + 1) l.quotesBehind quoted (openAt (l.offset + 1) pending) ks →
      MadeOf all length (scan (l.offset + 1) pending l.escapes quoted rest)
        (ks ++ later.filter Letter.literal)) :
    MadeOf all length (scan l.offset pending l.escaped quoted (l.char :: rest))
      (ls ++ (l :: later).filter Letter.literal) := by
  rw [scan_letter made.odd]
  dsimp only
  by_cases escapes : l.escapes = true
  · have dropped : ¬ l.literal = true := by simp [Letter.literal, escapes]
    rw [List.filter_cons_of_neg dropped, if_pos escapes]
    rw [Letter.quotesBehind_eq (Letter.isQuote_eq_false escapes), escapes] at onward
    exact onward (some _) made.drop
  rw [if_neg escapes]
  rw [Bool.not_eq_true] at escapes
  rw [escapes] at onward
  by_cases quote : l.isQuote = true
  · have dropped : ¬ l.literal = true := by simp [Letter.literal, quote]
    have behind : l.quotesBehind = l.quotes + 1 := if_pos quote
    rw [List.filter_cons_of_neg dropped, if_pos quote]
    rw [behind] at onward
    refine (made.close ?_ ?_).append (onward none (Made.turned made.odd mem quote))
    · split
      · exact Nat.le_succ _
      · exact Nat.le_refl _
    · intro on
      exact .inl ⟨l, mem, quote, rfl, if_pos on⟩
  rw [if_neg quote]
  rw [Bool.not_eq_true] at quote
  rw [Letter.quotesBehind_eq quote] at onward
  by_cases separates : l.separates = true
  · have dropped : ¬ l.literal = true := by simp [Letter.literal, separates]
    obtain rfl : quoted = false :=
      eq_false_of_ne_true fun on => Letter.even_of_separates separates (made.odd.1 on)
    rw [List.filter_cons_of_neg dropped, if_pos separates]
    have closed : MadeOf all length ((openAt l.offset pending).close false l.offset) ls :=
      made.close (Nat.le_refl _) fun on => absurd on Bool.noConfusion
    exact closed.append (onward none (made.fresh _))
  · have kept : l.literal = true := by simp [Letter.literal, escapes, quote, separates]
    have pushed : Made all (l.offset + 1) l.quotes quoted
        (openAt (l.offset + 1) (some ((openAt l.offset pending).push l.char))) (ls ++ [l]) :=
      made.push l.char l.escaped
    rw [List.filter_cons_of_pos kept, List.append_cons, if_neg separates]
    exact onward (some _) pushed

/-- The tokens that are scanned are made of the letters of the open one and the literal ones
behind them. -/
theorem scan_madeOf {before : List Letter} {index quotes : Nat} {pending : Option Pending}
    {escaped quoted : Bool} {cs : List Char}
    (split : all = before ++ lettersFrom index escaped quotes cs)
    (seen : ∀ l ∈ before, l.isQuote = true → l.quotes < quotes)
    (made : Made all index quotes quoted (openAt index pending) ls)
    (ends : index + cs.length = length) :
    MadeOf all length (scan index pending escaped quoted cs)
      (ls ++ (lettersFrom index escaped quotes cs).filter Letter.literal) := by
  induction cs generalizing before index quotes pending escaped quoted ls with
  | nil =>
    have unclosed : ∀ l ∈ all, l.isQuote = true → l.quotes < quotes := by
      rw [split, lettersFrom, List.append_nil]
      exact seen
    rw [lettersFrom, List.filter_nil, List.append_nil]
    cases pending with
    | none =>
      rw [List.map_eq_nil_iff.1 made.chars.symm]
      exact .nil
    | some p => exact made.close (Nat.le_refl _) fun _ => .inr ⟨unclosed, ends⟩
  | cons c rest ih =>
    obtain ⟨l, rfl, rfl, rfl, rfl⟩ : ∃ l : Letter,
        l.char = c ∧ l.offset = index ∧ l.escaped = escaped ∧ l.quotes = quotes :=
      ⟨⟨c, index, escaped, quotes⟩, rfl, rfl, rfl, rfl⟩
    have letters : lettersFrom l.offset l.escaped l.quotes (l.char :: rest) =
        l :: lettersFrom (l.offset + 1) l.escapes l.quotesBehind rest := rfl
    rw [letters] at split ⊢
    refine scan_step ?_ made ?_
    · rw [split]
      exact List.mem_append_right _ List.mem_cons_self
    · intro pending quoted ks later
      have hsplit : all =
          (before ++ [l]) ++ lettersFrom (l.offset + 1) l.escapes l.quotesBehind rest := by
        rw [split, List.append_assoc, List.singleton_append]
      have hends : l.offset + 1 + rest.length = length := by
        rw [← ends, List.length_cons]
        omega
      exact ih hsplit (seen_behind seen) later hends

/-- The tokens of a line are made of its literal letters. -/
theorem tokenize_madeOf (source : String) (start : Nat) :
    MadeOf (letters source start) source.length (tokenize source start)
      ((letters source start).filter Letter.literal) := by
  by_cases within : start ≤ source.length
  · have made : Made (letters source start) start 0 false (openAt start none) [] :=
      ⟨rfl, Nat.le_refl _, List.forall_mem_nil _, List.forall_mem_nil _, by decide,
        fun on => absurd on Bool.noConfusion⟩
    have ends : start + (source.toList.drop start).length = source.length := by
      rw [List.length_drop, String.length_toList]
      omega
    have split : letters source start =
        [] ++ lettersFrom start false 0 (source.toList.drop start) := rfl
    exact scan_madeOf split (List.forall_mem_nil _) made ends
  · have past : source.toList.drop start = [] := by
      rw [List.drop_eq_nil_iff, String.length_toList]
      omega
    rw [letters, tokenize, past]
    exact .nil

/-- The tokens of a line have places in it, one behind the other, and none is empty. Their texts
together are its literal letters, in order; a token is quoted if these have an odd number of quotes
in front, and its place then reaches from the quote that turned quoting on to the one that turns it
off, or to the end of the line. -/
theorem tokenize_letters (source : String) (start : Nat) :
    (∀ t ∈ tokenize source start, t.text ≠ "" ∧ (start : Int) ≤ t.start ∧ t.start < t.stop ∧
        t.stop ≤ source.length) ∧
      (tokenize source start).Pairwise (fun a b => a.stop ≤ b.start) ∧
      (tokenize source start).flatMap (fun t => t.text.toList) =
        ((letters source start).filter Letter.literal).map Letter.char ∧
      MadeOf (letters source start) source.length (tokenize source start)
        ((letters source start).filter Letter.literal) := by
  have ordered := tokenize_ordered source start
  have made := tokenize_madeOf source start
  refine ⟨?_, ordered.pairwise, made.flatMap_text, made⟩
  intro t mem
  obtain ⟨behind, wide⟩ := ordered.wide t mem
  exact ⟨text_ne_empty mem, behind, wide, (inLine_of_mem_tokenize mem).stop_le⟩

end CommandGrammar.Token
