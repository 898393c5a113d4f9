import CommandGrammar.Parse.Level

/-!
# Sub-commands

A word that is left on a level selects the first named sub-command that has it as a name or an
alias. Otherwise the unnamed sub-commands are tried in their order from that word on, each with a
result of its own; the first that succeeds is taken, and if none does the first one's fault
stands. An alternative that is rejected leaves no trace but its events. Every command that
completes writes a mark under its key.
-/

namespace CommandGrammar

/-- No sub-command takes the word. -/
def Halt.unknownSubcommand (token : Token) : Halt :=
  .fault (.ofToken .unknownSubcommand ("unknown sub-command: " ++ token.text) token 0 0)

namespace Parser

mutual

/-- Parses a command from the state on. -/
def command (p : Parser) (active : Bool) (s : State) : Schema Value → Outcome
  | ⟨_, dest, _, _, args, flags, subcommands⟩ =>
    match p.level flags subcommands.isEmpty active args s with
    | .halt h t => .halt h t
    | .finished missing t => (p.defaults missing t).marked dest
    | .word token active t =>
      match p.selected dest token active t subcommands with
      | some outcome => outcome.marked dest
      | none => (p.alternatives dest token active none t subcommands).marked dest

/-- Parses the sub-command that a word selects, if there is one. -/
def selected (p : Parser) (dest : String) (token : Token) (active : Bool) (s : State) :
    List (Schema Value) → Option Outcome
  | [] => none
  | sub :: rest =>
    if sub.matches token.text then
      let matched := Event.subcommandMatched dest sub.dest token.text
      some (p.command active (s.report [matched]).advance sub)
    else p.selected dest token active s rest

/-- Tries the unnamed sub-commands, given the first fault of those that were tried before. -/
def alternatives (p : Parser) (dest : String) (token : Token) (active : Bool)
    (first : Option Fault) (s : State) : List (Schema Value) → Outcome
  | [] =>
    match first with
    | some f => .halt (.fault f) s
    | none => .halt (.unknownSubcommand token) s
  | sub :: rest =>
    if sub.named then p.alternatives dest token active first s rest
    else
      match p.command active { s with result := .empty } sub with
      | .ok t =>
        let accepted := Event.alternativeAccepted dest sub.dest
        .ok { t.report [accepted] with result := s.result.merge t.result }
      | .halt (.fault f) t =>
        let rejected := Event.alternativeRejected dest sub.dest f.message
        p.alternatives dest token active (first.or (some f))
          { s with events := t.events ++ [rejected] } rest
      | .halt (.crash c) t => .halt (.crash c) t

end

end Parser

end CommandGrammar
