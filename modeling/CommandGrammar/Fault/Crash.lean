import CommandGrammar.Refusal

/-!
# Crashes

A crash is a failure that is no fault of the command line: a converter or a callback of the host
broke, or a text or a number was met that cannot be handled. It is known by its name and its text,
and perhaps by the crash that caused it.
-/

namespace CommandGrammar

/-- A failure that is no fault. -/
structure Crash where
  name : String
  text : String
  cause : Option Crash

namespace Crash

/-- The last line of a report: the name, and the text unless it is empty. -/
def line (c : Crash) : String := if c.text.isEmpty then c.name else c.name ++ ": " ++ c.text

/-- The report of a crash, its causes first. A marker stands for the stack of each. -/
def report : Crash → String
  | ⟨name, text, cause⟩ =>
    (match cause with
      | none => ""
      | some c =>
        report c ++ "\nThe above exception was the direct cause of the following exception:\n\n") ++
      "<traceback>\n" ++ line ⟨name, text, none⟩ ++ "\n"

end Crash

/-- A refusal where nobody awaits one. -/
def Refusal.crash (r : Refusal) : Crash := ⟨r.category.name, r.message, none⟩

namespace Crash

/-- The crash of a numeral that has more digits than can be converted. -/
def digitLimit (digits : Nat) : Crash := (Refusal.offsetTooLong digits).crash

/-- The crash of those who ask for a token or a position that does not exist. -/
def outOfRange : Crash := ⟨"IndexError", "list index out of range", none⟩

end Crash

end CommandGrammar
