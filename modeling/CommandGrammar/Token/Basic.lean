/-!
# Tokens

A token is a piece of a command line with the place where it stands. The text has neither quotes
nor escapes any more; the place counts the characters of the untouched line.
-/

namespace CommandGrammar

/-- A piece of a command line. -/
structure Token where
  text : String
  /-- The offset of its first character in the line. -/
  start : Int
  /-- The offset just after its last character in the line. -/
  stop : Int
  /-- Whether it stood between quotes. -/
  quoted : Bool
deriving DecidableEq, Inhabited, Repr

namespace Token

/-- The offsets of the token's place. -/
def span (t : Token) : Int × Int := (t.start, t.stop)

/-- The empty token that marks the end of a line. -/
def endOf (source : String) : Token := ⟨"", source.length, source.length, false⟩

/-- The token moved to the right. -/
def shift (n : Int) (t : Token) : Token := { t with start := t.start + n, stop := t.stop + n }

end Token

end CommandGrammar
