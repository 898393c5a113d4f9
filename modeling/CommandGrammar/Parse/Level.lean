import CommandGrammar.Parse.Flag

/-!
# One level of a command

On its level a command takes flags, as long as they are active, and its arguments in their order.
The level ends with the line, or at the first word that is left when all arguments are taken,
which then has to select a sub-command.
-/

namespace CommandGrammar

/-- How the tokens of a level end. -/
inductive LevelEnd
  /-- The line ended before these arguments. -/
  | finished (missing : List (Argument Value)) (s : State)
  /-- A word is left, with flags active or not. -/
  | word (token : Token) (active : Bool) (s : State)
  | halt (h : Halt) (s : State)

namespace Halt

/-- A word is left that nothing can take. The place reaches to the end of the line. -/
def tooManyArguments (source : String) (token : Token) : Halt :=
  .fault (.ofToken .tooManyArguments "too many arguments" token 0 (token.stop - source.length))

/-- A required argument is missing. -/
def unexpectedEnd (source : String) : Halt :=
  .fault (.ofToken .unexpectedEnd "unexpected end of input" (.endOf source) 0 0)

end Halt

namespace State

/-- The first token that is left. -/
def next? (s : State) : Option Token := s.tokens[s.index]?

theorem index_lt_of_next? {s : State} {token : Token} (h : s.next? = some token) :
    s.index < s.tokens.length :=
  (List.getElem?_eq_some_iff.1 h).1

theorem remaining_advance {s : State} {token : Token} (h : s.next? = some token) :
    s.advance.remaining < s.remaining := by
  have := index_lt_of_next? h
  simp only [remaining, advance]
  omega

end State

namespace Parser

/-- A converted argument leaves fewer tokens. -/
theorem argument_remaining {p : Parser} {a : Argument Value} {s t : State} {token : Token}
    (h : s.next? = some token) (ok : p.argument a s = .ok t) : t.remaining < s.remaining := by
  obtain ⟨ht, hi⟩ := argument_ok ok
  have := State.index_lt_of_next? h
  simp only [State.remaining, ht]
  omega

/-- Takes the flags and the arguments of a level. A leaf has no sub-commands. -/
def level (p : Parser) (flags : List (Flag Value)) (leaf active : Bool)
    (args : List (Argument Value)) (s : State) : LevelEnd :=
  match _next : s.next? with
  | none => .finished args s
  | some token =>
    match if active then token.flagChars? else none with
    | some (c, rest) =>
      if token.text = "--" && p.options.breakableFlags then
        level p flags leaf false args s.advance
      else
        match _ok : p.flag flags token c rest s with
        | .ok t => level p flags leaf active args t
        | .halt halt t => .halt halt t
    | none =>
      match args with
      | a :: args =>
        match _ok : p.argument a s with
        | .ok t => level p flags leaf active args t
        | .halt halt t => .halt halt t
      | [] => if leaf then .halt (.tooManyArguments p.source token) s else .word token active s
termination_by s.remaining
decreasing_by
  · exact State.remaining_advance _next
  · exact flag_ok _ok (State.index_lt_of_next? _next)
  · exact argument_remaining _next _ok

/-- Gives the missing arguments their defaults, unless one is required. -/
def defaults (p : Parser) : List (Argument Value) → State → Outcome
  | [], s => .ok s
  | a :: rest, s =>
    if a.required then .halt (.unexpectedEnd p.source) s
    else defaults p rest (s.write a.dest a.default)

end Parser

end CommandGrammar
