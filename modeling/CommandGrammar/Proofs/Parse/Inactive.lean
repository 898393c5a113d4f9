import CommandGrammar.Proofs.Parse.Agreement
import CommandGrammar.Proofs.Parse.Layout

/-!
# Flags that are inactive

Where flags are inactive, they stay so on all levels below, and nothing that a schema says of its
flags is read (`command_withoutFlags`). A line behind the mark that ends the flags is parsed as the
line alone is parsed without flags, and faults are as far behind as the line is
(`double_dash`).
-/

namespace CommandGrammar

namespace Schema

mutual

/-- The schema without its flags, and its sub-commands without theirs. -/
def withoutFlags : Schema Value → Schema Value
  | ⟨name, dest, aliases, help, args, _, subs⟩ =>
    ⟨name, dest, aliases, help, args, [], withoutFlagsAll subs⟩

def withoutFlagsAll : List (Schema Value) → List (Schema Value)
  | [] => []
  | n :: rest => n.withoutFlags :: withoutFlagsAll rest

end

theorem withoutFlagsAll_eq (subs : List (Schema Value)) :
    withoutFlagsAll subs = subs.map withoutFlags := by
  induction subs with
  | nil => rfl
  | cons n rest ih => rw [withoutFlagsAll, ih, List.map_cons]

theorem withoutFlags_eq (n : Schema Value) :
    n.withoutFlags = { n with flags := [], subcommands := n.subcommands.map withoutFlags } := by
  cases n
  rw [withoutFlags, withoutFlagsAll_eq]

theorem named_withoutFlags (n : Schema Value) : n.withoutFlags.named = n.named := by
  rw [withoutFlags_eq]
  rfl

theorem matches_withoutFlags (n : Schema Value) (word : String) :
    n.withoutFlags.matches word = n.matches word := by
  rw [withoutFlags_eq]
  rfl

theorem selected?_withoutFlags (n : Schema Value) (word : String) :
    n.withoutFlags.selected? word = (n.selected? word).map withoutFlags := by
  have same : ((·.matches word) ∘ withoutFlags) = fun sub : Schema Value => sub.matches word :=
    funext fun sub => matches_withoutFlags sub word
  rw [withoutFlags_eq, selected?, selected?, List.find?_map, same]

theorem alternatives_withoutFlags (n : Schema Value) :
    n.withoutFlags.alternatives = n.alternatives.map withoutFlags := by
  have same : ((fun sub => !sub.named) ∘ withoutFlags) = fun sub : Schema Value => !sub.named :=
    funext fun sub => congrArg (!·) (named_withoutFlags sub)
  rw [withoutFlags_eq, alternatives, alternatives, List.filter_map, same]

end Schema

/-- A line behind the mark that ends the flags has the tokens that it has alone, behind the
mark. -/
theorem Token.tokenize_dashes (line : String) :
    tokenize ("-- " ++ line) 0 = ⟨"--", 0, 2, false⟩ :: (tokenize line 0).map (shift 3) := by
  have behind := tokenize_append "-- " line
  have hdrop : ("-- " ++ line).toList.drop 3 = line.toList := by
    rw [String.toList_append]
    rfl
  have hchars : ("-- " ++ line).toList = '-' :: '-' :: ' ' :: line.toList := by
    rw [String.toList_append]
    rfl
  rw [tokenize, hchars]
  rw [tokenize, show "-- ".length = 3 from rfl, hdrop] at behind
  refine Eq.trans ?_ (congrArg (List.cons _) behind)
  rfl

namespace Parser

/-- One parser on a schema and on the schema without its flags, where flags are inactive. -/
def unflagged (p : Parser) : Simulation p p :=
  { p.agreement with
    schemas := fun n m => m = n.withoutFlags
    live := False
    flagChars := fun flagging => flagging.elim
    flag := fun flagging => flagging.elim
    dest := by
      rintro n m rfl
      rw [Schema.withoutFlags_eq]
    args := by
      rintro n m rfl
      rw [Schema.withoutFlags_eq]
      exact List.forall₂_same.2 fun _ _ => rfl
    leaf := by
      rintro n m rfl
      rw [Schema.withoutFlags_eq, List.isEmpty_map]
    selected := by
      rintro n m word rfl
      rw [Schema.selected?_withoutFlags]
      cases n.selected? word with
      | none => exact .none
      | some sub => exact .some rfl
    unnamed := by
      rintro n m rfl
      rw [Schema.alternatives_withoutFlags, List.forall₂_map_right_iff, List.forall₂_same]
      exact fun _ _ => rfl }

/-- Where flags are inactive, those of the schema make no difference. -/
theorem command_withoutFlags (p : Parser) (s : State) (n : Schema Value) :
    (p.command false s n).Rel State.Agrees Eq (p.command false s n.withoutFlags) :=
  p.unflagged.command rfl false s s (fun h => absurd h Bool.false_ne_true) (.refl s)

/-- A command whose line begins with the mark that ends the flags goes on without flags. -/
theorem command_ending {p : Parser} {s : State} {token : Token} {c : Char} {rest : List Char}
    (n : Schema Value) (next : s.next? = some token)
    (flagged : token.flagChars? = some (c, rest)) (ends : p.endsFlags token = true) :
    p.command true s n = p.command false s.advance n := by
  have steps : p.Steps n.flags ⟨true, n.args, s⟩ ⟨false, n.args, s.advance⟩ :=
    .single (.ending next flagged ends)
  cases n
  exact steps.command_eq

/-- A parse of a line behind the mark that ends the flags starts at the mark, and behind it at the
line. -/
theorem initial_dashes {p : Parser} {line : String} (source : p.source = "-- " ++ line) :
    (p.initial 0).next? = some ⟨"--", 0, 2, false⟩ ∧
      (p.initial 0).advance.left = (Token.tokenize line 0).map (Token.shift 3) := by
  have tokens : (p.initial 0).tokens =
      ⟨"--", 0, 2, false⟩ :: (Token.tokenize line 0).map (Token.shift 3) := by
    rw [← Token.tokenize_dashes, ← source]
    rfl
  refine ⟨?_, ?_⟩
  · rw [State.next?, tokens]
    rfl
  · show (p.initial 0).tokens.drop 1 = _
    rw [tokens]
    rfl

/-- With the mark that ends the flags in front, a command starts without flags behind the mark. -/
theorem command_dashes {p : Parser} {line : String} (source : p.source = "-- " ++ line)
    (active : p.options.parseFlags = true) (breakable : p.options.breakableFlags = true)
    (n : Schema Value) :
    p.command p.options.parseFlags (p.initial 0) n = p.command false (p.initial 0).advance n := by
  rw [active]
  exact command_ending n (initial_dashes source).1 rfl breakable

/-- With builtin types, a line behind the mark that ends the flags is parsed as the line alone is
parsed without flags: to the same result, or to a fault of the same kind with the same message,
three characters further. Without the flags of the schema, both parses end just as they do with
them. -/
theorem double_dash (p : Parser) {schema : Schema Value} (builtins : p.HasBuiltins schema)
    (active : p.options.parseFlags = true) (breakable : p.options.breakableFlags = true) :
    let plain : Parser := { p with options := { p.options with parseFlags := false } }
    let dashed : Parser := { p with source := "-- " ++ p.source }
    ((∃ m, (plain.parse schema 0).result = .ok m ∧ (dashed.parse schema 0).result = .ok m) ∨
      ∃ f g, (plain.parse schema 0).result = .error (.fault f) ∧
        (dashed.parse schema 0).result = .error (.fault g) ∧ f.kind = g.kind ∧
        f.message = g.message ∧
        g.span = f.span.map fun place => (place.1 + 3, place.2 + 3)) ∧
    (plain.parse schema.withoutFlags 0).result = (plain.parse schema 0).result ∧
    (dashed.parse schema.withoutFlags 0).result = (dashed.parse schema 0).result := by
  intro plain dashed
  have ending := command_dashes (p := dashed) rfl active breakable
  refine ⟨?_, ?_, ?_⟩
  · have aligned : plain.Aligned (fun a b => b = a + ("-- ".length : Int)) dashed :=
      ⟨rfl, rfl, rfl, rfl, (p.aligned_append "-- ").stop⟩
    have inLine : (plain.initial 0).InLine plain.source :=
      fun _ mem => Token.inLine_of_mem_tokenize mem
    have left : (dashed.initial 0).advance.left =
        (plain.initial 0).left.map (Token.shift "-- ".length) := (initial_dashes rfl).2
    have alike := command_append (t := (dashed.initial 0).advance) aligned rfl builtins false
      inLine rfl left
    rw [← ending schema] at alike
    obtain ⟨m, hp, hq⟩ | ⟨f, g, alike, hp, hq⟩ := parse_alike (p := plain) builtins alike
    · exact .inl ⟨m, hp, hq⟩
    · exact .inr ⟨_, _, hp, hq, alike.kind, alike.message, alike.span_shift⟩
  · exact parse_agrees (plain.command_withoutFlags (plain.initial 0) schema)
  · apply parse_agrees
    rw [ending schema, ending schema.withoutFlags]
    exact dashed.command_withoutFlags _ schema

theorem double_dash_calculator : ∃ f g,
    ((forWords "-x -t=\"1").parse calculator 0).result = .error (.fault f) ∧
      ((forLine "-- -x -t=\"1").parse calculator 0).result = .error (.fault g) ∧
      f.kind = g.kind ∧ f.message = g.message ∧ f.span = some (3, 6) ∧ g.span = some (6, 9) ∧
      ((forLine "-- -x -t=\"1").parse calculator.withoutFlags 0).result = .error (.fault g) := by
  obtain ⟨f, failed, place⟩ : ∃ f,
      ((forWords "-x -t=\"1").parse calculator 0).result = .error (.fault f) ∧
        f.span = some (3, 6) := Report.exists_fault_of_span (by decide +kernel)
  obtain ⟨same, -, without⟩ := double_dash (forLine "-x -t=\"1")
    (hasBuiltins_calculator "-x -t=\"1") rfl rfl
  obtain ⟨m, ok, -⟩ | ⟨f', g, hf, hg, kind, message, span⟩ := same
  · cases ok.symm.trans failed
  · cases hf.symm.trans failed
    rw [place] at span
    exact ⟨f, g, failed, hg, kind, message, place, span, without.trans hg⟩

end Parser

end CommandGrammar
