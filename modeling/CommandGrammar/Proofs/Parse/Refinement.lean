import CommandGrammar.Proofs.Parse.Resolution
import CommandGrammar.Proofs.Parse.Safety
import CommandGrammar.Proofs.Token.Order

/-!
# Tokens that are cut

A parse changes its tokens only where a flag has a value behind an equals sign: the token is cut
there, and both pieces are taken. So what a parse that succeeds leaves of the tokens of its line
is a refinement of them (`tokens_refined`): each token is kept, or it was met as a flag on the
accepted path and is replaced by pieces within its place, and what was cut for an alternative that
is rejected is whole again.
-/

namespace CommandGrammar

namespace Token

/-- The pieces of a token that is cut at its first equals sign: what stands before the sign, and
what stands behind it unless this is nothing. They stand in order within the place of the token. -/
inductive Cut (t : Token) : List Token → Prop
  | value {head tail : Token} (plain : t.quoted = false) (dash : t.text.toList.head? = some '-')
      (text : t.text = head.text ++ "=" ++ tail.text) (first : '=' ∉ head.text.toList)
      (nonempty : head.text ≠ "" ∧ tail.text ≠ "")
      (unquoted : head.quoted = false ∧ tail.quoted = false) (starts : head.start = t.start)
      (wide : head.start < head.stop) (apart : head.stop < tail.start)
      (wide' : tail.start < tail.stop) (stops : tail.stop = t.stop) : Cut t [head, tail]
  | bare {head : Token} (plain : t.quoted = false) (dash : t.text.toList.head? = some '-')
      (text : t.text = head.text ++ "=") (first : '=' ∉ head.text.toList)
      (nonempty : head.text ≠ "") (unquoted : head.quoted = false) (starts : head.start = t.start)
      (wide : head.start < head.stop) (within : head.stop < t.stop) : Cut t [head]

/-- Tokens that come of others in the same order, of which some are replaced by pieces. -/
inductive Refines (cut : Token → List Token → Prop) : List Token → List Token → Prop
  | nil : Refines cut [] []
  | keep (t : Token) {ts us : List Token} (rest : Refines cut ts us) :
      Refines cut (t :: ts) (t :: us)
  | split {t : Token} {pieces ts us : List Token} (cuts : cut t pieces) (rest : Refines cut ts us) :
      Refines cut (t :: ts) (pieces ++ us)

namespace Refines

variable {cut cut' : Token → List Token → Prop} {ts us ts' us' : List Token} {low : Int}

theorem refl (ts : List Token) : Refines cut ts ts := by
  induction ts with
  | nil => exact .nil
  | cons t rest ih => exact .keep t ih

theorem append (h : Refines cut ts us) (h' : Refines cut ts' us') :
    Refines cut (ts ++ ts') (us ++ us') := by
  induction h with
  | nil => exact h'
  | keep t _ ih => exact .keep t ih
  | split cuts _ ih =>
    rw [List.append_assoc]
    exact .split cuts ih

theorem imp (h : Refines cut ts us) (implies : ∀ t ∈ ts, ∀ pieces, cut t pieces → cut' t pieces) :
    Refines cut' ts us := by
  induction h with
  | nil => exact .nil
  | keep t _ ih => exact .keep t (ih (List.forall_mem_cons.1 implies).2)
  | split cuts _ ih =>
    obtain ⟨here, later⟩ := List.forall_mem_cons.1 implies
    exact .split (here _ cuts) (ih later)

end Refines

/-- Pieces stand in order, and before the end of the token that was cut. -/
theorem Cut.ordered {t : Token} {pieces : List Token} (cut : t.Cut pieces) :
    Ordered t.start pieces ∧ ∀ piece ∈ pieces, piece.stop ≤ t.stop := by
  cases cut with
  | @value head tail _ _ _ _ _ _ starts wide apart wide' stops =>
    have ordered := Ordered.cons (Int.le_of_lt apart) wide' (.nil tail.stop)
    refine ⟨.cons (Int.le_of_eq starts.symm) wide ordered, ?_⟩
    simp only [List.forall_mem_cons]
    exact ⟨by omega, by omega, List.forall_mem_nil _⟩
  | bare _ _ _ _ _ _ starts wide within =>
    refine ⟨.cons (Int.le_of_eq starts.symm) wide (.nil _), ?_⟩
    exact List.forall_mem_singleton.2 (Int.le_of_lt within)

theorem Cut.text_ne_empty {t : Token} {pieces : List Token} (cut : t.Cut pieces) :
    ∀ piece ∈ pieces, piece.text ≠ "" := by
  cases cut with
  | value _ _ _ _ nonempty =>
    exact List.forall_mem_cons.2 ⟨nonempty.1, List.forall_mem_singleton.2 nonempty.2⟩
  | bare _ _ _ _ nonempty => exact List.forall_mem_singleton.2 nonempty

/-- Cutting tokens keeps them in order. -/
theorem Refines.ordered {cut : Token → List Token → Prop} {low : Int} {ts us : List Token}
    (h : Refines cut ts us) (cuts : ∀ t pieces, cut t pieces → t.Cut pieces)
    (ordered : Ordered low ts) : Ordered low us := by
  induction h generalizing low with
  | nil => exact ordered
  | keep t _ ih =>
    cases ordered with
    | cons behind wide later => exact .cons behind wide (ih later)
  | split cut _ ih =>
    cases ordered with
    | cons behind wide later =>
      obtain ⟨inOrder, within⟩ := (cuts _ _ cut).ordered
      have le := Int.le_trans behind (Int.le_of_lt wide)
      exact (inOrder.mono behind).append_within within le (ih later)

/-- A property of tokens that pieces have holds of all tokens if it held of them before. -/
theorem Refines.forall_mem {cut : Token → List Token → Prop} {ts us : List Token}
    {P : Token → Prop} (h : Refines cut ts us)
    (pieces : ∀ t pieces, cut t pieces → P t → ∀ piece ∈ pieces, P piece) (all : ∀ t ∈ ts, P t) :
    ∀ t ∈ us, P t := by
  induction h with
  | nil => exact all
  | keep t _ ih =>
    obtain ⟨here, later⟩ := List.forall_mem_cons.1 all
    exact List.forall_mem_cons.2 ⟨here, ih later⟩
  | split cut _ ih =>
    obtain ⟨here, later⟩ := List.forall_mem_cons.1 all
    exact List.forall_mem_append.2 ⟨pieces _ _ cut here, ih later⟩

end Token

/-! ## Where a token is cut -/

/-- The characters of a flag before its first equals sign, the dashes included. -/
theorem Spelling.cut_eq {c : Char} {rest value : List Char}
    (hvalue : (ofChars c rest).value = some value) :
    ∃ before, '-' :: c :: rest = '-' :: before ++ '=' :: value ∧ '=' ∉ before ∧
      before.length + 1 = (ofChars c rest).length := by
  have apart : ∀ cs : List Char, '=' ∉ cs.takeWhile (· != '=') := by
    intro cs mem
    have different := List.all_eq_true.1 List.all_takeWhile _ mem
    exact absurd different (by decide)
  unfold ofChars at hvalue ⊢
  split
  · rename_i hc
    rw [if_pos hc] at hvalue
    refine ⟨c :: rest.takeWhile (· != '='), ?_, ?_, ?_⟩
    · exact congrArg (fun cs => '-' :: c :: cs) (afterEquals_eq_some hvalue)
    · rw [List.mem_cons, not_or, hc]
      exact ⟨by decide, apart rest⟩
    · simp only [Spelling.length, List.length_cons, if_true]
      omega
  · rename_i hc
    rw [if_neg hc] at hvalue
    refine ⟨(c :: rest).takeWhile (· != '='), ?_, apart _, ?_⟩
    · exact congrArg (List.cons '-') (afterEquals_eq_some hvalue)
    · simp only [Spelling.length, Bool.false_eq_true, if_false]
      omega

/-- What a flag token in its place is cut into are its pieces. -/
theorem Token.Placed.cut {source : String} {token : Token} {c : Char} {rest value : List Char}
    {pieces : List Token} (placed : token.Placed source)
    (flagged : token.flagChars? = some (c, rest))
    (hvalue : (Spelling.ofChars c rest).value = some value)
    (hcut : token.cut? (token.positions source) (Spelling.ofChars c rest).length value =
      some pieces) : token.Cut pieces := by
  obtain ⟨plain, chars⟩ := Token.toList_of_flagChars? flagged
  obtain ⟨before, split, first, length⟩ := Spelling.cut_eq hvalue
  obtain ⟨middle, inline, hmiddle, rfl, hinline⟩ := Token.cut?_eq_some hcut
  have htext : token.text.toList = ('-' :: before) ++ '=' :: value := chars.trans split
  have hhead : token.text.toList.take (Spelling.ofChars c rest).length = '-' :: before := by
    rw [htext, ← length]
    exact List.take_left' rfl
  have dash : token.text.toList.head? = some '-' := by
    rw [htext]
    rfl
  have fresh : '=' ∉ '-' :: before := by
    rw [List.mem_cons, not_or]
    exact ⟨by decide, first⟩
  have nonempty : ∀ cs : List Char, cs ≠ [] → String.ofList cs ≠ "" := by
    intro cs hcs hempty
    have := congrArg String.toList hempty
    rw [String.toList_ofList] at this
    exact hcs this
  have entries : (token.positions source).length = before.length + 3 + value.length := by
    rw [placed.length_positions, htext]
    simp only [List.length_append, List.length_cons]
    omega
  have wide : token.start < middle := placed.start_lt_position hmiddle (by omega)
  rw [hhead]
  obtain ⟨rfl, rfl⟩ | ⟨hne, start, htail, rfl⟩ := hinline
  · have within : middle < token.stop := placed.position_lt_stop hmiddle (by omega)
    refine .bare plain dash ?_ ?_ ?_ plain rfl wide within
    · rw [← String.toList_inj, htext, String.toList_append, String.toList_ofList]
      rfl
    · rwa [String.toList_ofList]
    · exact nonempty _ (List.cons_ne_nil _ _)
  · have hlength : 0 < value.length := List.length_pos_iff.2 hne
    have apart : middle < start := placed.position_lt hmiddle htail (by omega)
    have wide' : start < token.stop := placed.position_lt_stop htail (by omega)
    have filled : String.ofList ('-' :: before) ≠ "" ∧ String.ofList value ≠ "" :=
      ⟨nonempty _ (List.cons_ne_nil _ _), nonempty _ hne⟩
    refine .value plain dash ?_ ?_ filled ⟨plain, rfl⟩ rfl wide apart wide' rfl
    · show token.text = String.ofList ('-' :: before) ++ "=" ++ String.ofList value
      simp only [← String.toList_inj, htext, String.toList_append, String.toList_ofList,
        List.append_assoc]
      rfl
    · rwa [String.toList_ofList]

/-! ## What a parse does to its tokens -/

/-- The tokens between two states are taken, some of them in pieces. Those in front and those that
are left stay as they are. -/
def State.Recuts (cut : Token → List Token → Prop) (s t : State) : Prop :=
  ∃ taken pieces, s.left = taken ++ t.left ∧
    t.tokens = s.tokens.take s.index ++ pieces ++ t.left ∧ Token.Refines cut taken pieces

namespace State

variable {cut cut' : Token → List Token → Prop} {s t u : State}

theorem taken_append_left (s : State) : s.tokens.take s.index ++ s.left = s.tokens :=
  List.take_append_drop s.index s.tokens

/-- Tokens are taken as they are. -/
theorem Recuts.of_suffix (tokens : t.tokens = s.tokens) (suffix : t.left <:+ s.left) :
    s.Recuts cut t := by
  obtain ⟨taken, htaken⟩ := suffix
  refine ⟨taken, taken, htaken.symm, ?_, .refl taken⟩
  rw [tokens, List.append_assoc, htaken, taken_append_left]

theorem Recuts.trans (first : s.Recuts cut t) (second : t.Recuts cut u) : s.Recuts cut u := by
  obtain ⟨taken, pieces, hleft, htokens, refines⟩ := first
  obtain ⟨taken', pieces', hleft', htokens', refines'⟩ := second
  have hfront : t.tokens.take t.index = s.tokens.take s.index ++ pieces := by
    rw [← taken_append_left t] at htokens
    exact List.append_cancel_right htokens
  refine ⟨taken ++ taken', pieces ++ pieces', ?_, ?_, refines.append refines'⟩
  · rw [hleft, hleft', List.append_assoc]
  · rw [htokens', hfront]
    simp only [List.append_assoc]

theorem Recuts.imp (h : s.Recuts cut t) (implies : ∀ t pieces, cut t pieces → cut' t pieces) :
    s.Recuts cut' t := by
  obtain ⟨taken, pieces, hleft, htokens, refines⟩ := h
  exact ⟨taken, pieces, hleft, htokens, refines.imp fun t _ => implies t⟩

end State

namespace Parser

variable {p : Parser} {active active' : Bool} {s t v : State} {n sub : Schema Value}
  {token : Token} {x y : Stage}

/-- On the accepted path of a command, a token is met as a flag with arguments that has a value
behind an equals sign, and it is cut there. -/
def Splits (p : Parser) (active : Bool) (s : State) (n : Schema Value) (token : Token)
    (pieces : List Token) : Prop :=
  ∃ m x c rest met value, p.Comes true active s n m x ∧ p.Meets m.flags x token c rest met ∧
    met.flag.args ≠ [] ∧ (Spelling.ofChars c rest).value = some value ∧
    token.cut? (token.positions p.source) (Spelling.ofChars c rest).length value = some pieces

/-- A flag takes its token, in pieces if it has a value behind an equals sign, and its
arguments. -/
theorem flag_recuts {flags : List (Flag Value)} {c : Char} {rest : List Char}
    {cut : Token → List Token → Prop} (next : s.next? = some token)
    (ok : p.flag flags token c rest s = .ok t)
    (cuts : ∀ f marks value pieces, p.spelled flags token c rest = .ok ⟨f, marks⟩ → f.args ≠ [] →
      (Spelling.ofChars c rest).value = some value →
      token.cut? (token.positions p.source) (Spelling.ofChars c rest).length value = some pieces →
      cut token pieces) : s.Recuts cut t := by
  have suffix := flag_left next ok
  obtain ⟨f, marks, inline, u, v, hspelled, opens, harguments, rfl⟩ := flag_eq_ok ok
  obtain ⟨hmt, hmi⟩ := foldl_mark marks s
  obtain ⟨hvt, -, -⟩ := flagArguments_ok harguments
  cases opens with
  | plain hvalue => exact .of_suffix (hvt.trans hmt) (suffix.trans s.advance_left_suffix)
  | @inline value pieces hvalue hargs hcut =>
    obtain ⟨taken, htaken⟩ := suffix
    refine ⟨token :: taken, pieces ++ taken, ?_, ?_, ?_⟩
    · rw [State.left_eq_cons next, ← htaken]
      rfl
    · have htokens : v.tokens = replaceAt s.tokens s.index pieces := by
        rw [hvt, ← hmt, ← hmi]
        rfl
      have hbehind : s.tokens.drop (s.index + 1) = taken ++ (v.mark f.dest).left := htaken.symm
      show v.tokens = _
      rw [htokens, replaceAt, hbehind]
      simp only [List.append_assoc]
    · exact .split (cuts f marks value pieces hspelled hargs hvalue hcut) (.refl taken)

/-- A step on the accepted path takes some tokens. -/
theorem Step.recuts (step : p.Step n.flags x y) (comes : p.Comes true active s n n x) :
    x.state.Recuts (p.Splits active s n) y.state := by
  cases step with
  | ending next flagged ends => exact .of_suffix rfl (State.advance_left_suffix _)
  | flag next flagged ends ok =>
    refine flag_recuts next ok ?_
    intro f marks value pieces hspelled hargs hvalue hcut
    exact ⟨n, _, _, _, _, value, comes, ⟨next, flagged, ends, hspelled⟩, hargs, hvalue, hcut⟩
  | argument next plain ok =>
    exact .of_suffix (argument_ok ok).1 ((argument_left ok).trans (State.advance_left_suffix _))

theorem Steps.recuts (steps : p.Steps n.flags ⟨active, n.args, s⟩ x) :
    s.Recuts (p.Splits active s n) x.state := by
  induction steps with
  | refl => exact .of_suffix rfl List.suffix_rfl
  | tail before step ih => exact ih.trans (step.recuts (.level before))

/-- What a sub-command on the accepted path splits is split by the command. -/
theorem Splits.down
    (word : p.level n.flags n.subcommands.isEmpty active n.args s = .word token active' t)
    (enters : p.Enters true n token active' t sub v) {other : Token} {pieces : List Token}
    (splits : p.Splits active' v sub other pieces) : p.Splits active s n other pieces := by
  obtain ⟨m, x, c, rest, met, value, comes, splits⟩ := splits
  exact ⟨m, x, c, rest, met, value, .down word enters comes, splits⟩

/-- Entering a sub-command takes its word at most. -/
theorem Enters.recuts {cut : Token → List Token → Prop}
    (enters : p.Enters true n token active s sub v) : s.Recuts cut v := by
  have suffix := enters.left
  cases enters with
  | named selects => exact .of_suffix rfl suffix
  | unnamed none tried succeeds =>
    obtain ⟨events, rfl⟩ := tried.scratch
    exact .of_suffix rfl suffix

/-- A command that succeeds takes tokens, of which those are in pieces that are split on its
accepted path. -/
theorem command_recuts (ok : p.command active s n = .ok t) :
    s.Recuts (p.Splits active s n) t := by
  induction n using Schema.induction generalizing active s t with
  | step n ih =>
    obtain ⟨x, u, steps, next, hdefaults, rfl⟩ |
      ⟨token, active', r, sub, v, u, w, word, enters, hu, handed, rfl⟩ := command_ends ok
    · rw [defaults_eq_fallBack] at hdefaults
      obtain ⟨htokens, hindex⟩ := fallBack_ok hdefaults
      have suffix := State.left_suffix htokens (Nat.le_of_eq hindex.symm)
      exact steps.recuts.trans (.of_suffix htokens suffix)
    · obtain ⟨x, steps, stops⟩ := level_eq_iff.1 word
      have below : v.Recuts (p.Splits active s n) u :=
        (ih sub enters.mem hu).imp fun _ _ => Splits.down word enters
      have above : s.Recuts (p.Splits active s n) r := by
        cases stops
        exact steps.recuts
      have taken : u.tokens = (w.mark n.dest).tokens ∧ u.left = (w.mark n.dest).left := by
        cases handed with
        | named selects => exact ⟨rfl, rfl⟩
        | unnamed none unnamed => exact ⟨rfl, rfl⟩
      exact (above.trans enters.recuts).trans
        (below.trans (.of_suffix taken.1.symm (taken.2 ▸ List.suffix_rfl)))

/-- What is split on an accepted path that begins with the tokens of the line is cut into pieces
within its place. -/
theorem Splits.cut {start : Nat} {pieces : List Token}
    (splits : p.Splits active (p.initial start) n token pieces) : token.Cut pieces := by
  obtain ⟨m, x, c, rest, met, value, comes, meets, -, hvalue, hcut⟩ := splits
  have hchars := (spells_eq_some meets.flagged).2
  have mem : token ∈ Token.tokenize p.source start := by
    have left : token ∈ x.state.left := by
      rw [State.left_eq_cons meets.next]
      exact List.mem_cons_self
    exact comes.left.subset left
  have plain := (Token.toList_of_flagChars? hchars).1
  exact (Token.placed_of_mem_tokenize mem plain).cut hchars hvalue hcut

/-- A parse that succeeds leaves the tokens of its line in their order, each as it was or in the
pieces that it was split into on the accepted path. None of them is empty, and they stand one
behind the other in the line. -/
theorem tokens_refined {schema : Schema Value} {start : Nat} {m : Mapping Value}
    (ok : (p.parse schema start).result = .ok m) :
    let before := Token.tokenize p.source start
    let after := (p.parse schema start).tokens
    Token.Refines (fun t pieces => t.Cut pieces ∧
        p.Splits p.options.parseFlags (p.initial start) schema t pieces) before after ∧
      (∀ t ∈ after, t.text ≠ "" ∧ (start : Int) ≤ t.start ∧ t.start < t.stop ∧
        t.stop ≤ p.source.length) ∧
      after.Pairwise fun a b => a.stop ≤ b.start := by
  intro before after
  obtain ⟨t, hcommand, -, htokens⟩ := parse_eq_ok ok
  have refines : Token.Refines (fun t pieces => t.Cut pieces ∧
      p.Splits p.options.parseFlags (p.initial start) schema t pieces) before after := by
    obtain ⟨taken, pieces, hleft, hsplit, refines⟩ := command_recuts hcommand
    have hbefore : before = taken ++ t.left := hleft
    have hafter : after = pieces ++ t.left := htokens.trans hsplit
    rw [hbefore, hafter]
    exact (refines.imp fun _ _ _ splits => ⟨splits.cut, splits⟩).append (.refl t.left)
  have ordered : Token.Ordered start after :=
    refines.ordered (fun _ _ cut => cut.1) (Token.tokenize_ordered p.source start)
  have filled : ∀ t ∈ after, t.text ≠ "" :=
    refines.forall_mem (fun _ _ cut _ => cut.1.text_ne_empty) fun _ => Token.text_ne_empty
  have inside : ∀ t ∈ after, t.stop ≤ p.source.length := by
    refine refines.forall_mem ?_ fun _ mem => (Token.inLine_of_mem_tokenize mem).stop_le
    intro t pieces cut stop_le piece mem
    exact Int.le_trans (cut.1.ordered.2 piece mem) stop_le
  refine ⟨refines, ?_, ordered.pairwise⟩
  intro t mem
  obtain ⟨start_le, wide⟩ := ordered.wide t mem
  exact ⟨filled t mem, start_le, wide, inside t mem⟩

/-- An equals sign behind a backslash cuts its token as well. The backslash stays within the place
of what stands before the sign. -/
theorem tokens_refined_calculator :
    let p := forLine "-t\\=5 sum 2"
    let before : List Token :=
      [⟨"-t=5", 0, 5, false⟩, ⟨"sum", 6, 9, false⟩, ⟨"2", 10, 11, false⟩]
    let after : List Token :=
      [⟨"-t", 0, 3, false⟩, ⟨"5", 4, 5, false⟩, ⟨"sum", 6, 9, false⟩, ⟨"2", 10, 11, false⟩]
    (p.parse calculator 0).tokens = after ∧
      Token.Refines (fun t pieces => t.Cut pieces ∧ p.Splits true (p.initial 0) calculator t pieces)
        before after ∧
      after.Pairwise fun a b => a.stop ≤ b.start := by
  intro p before after
  obtain ⟨m, ok, -⟩ : ∃ m, (p.parse calculator 0).result = .ok m ∧
      m.keys = ["scaled", "times", "mode", "a", "single", "compute"] :=
    Report.exists_ok (by decide +kernel)
  have hbefore : Token.tokenize p.source 0 = before := by decide +kernel
  have hafter : (p.parse calculator 0).tokens = after := by decide +kernel
  obtain ⟨refines, -, apart⟩ := tokens_refined ok
  rw [hbefore, hafter] at refines
  rw [hafter] at apart
  exact ⟨hafter, refines, apart⟩

end Parser

end CommandGrammar
