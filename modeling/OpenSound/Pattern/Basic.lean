import OpenSound.Pattern.Piece
import OpenSound.Pattern.RegexText

/-!
# Address patterns

A pattern without wildcard characters matches the one address that it spells. Any other pattern is compiled: it
matches the addresses that its regular expression matches, and if that expression cannot be read the pattern is
refused.
-/

namespace OpenSound

/-- A compiled address pattern. -/
inductive Pattern where
  | exact (text : String)
  | wildcard (text : String) (regex : Regex)

namespace Pattern

/-- A character of the wildcard syntax. -/
def isWildcard (c : Char) : Bool :=
  c == '?' || c == '*' || c == '[' || c == ']' || c == '\x7b' || c == '\x7d'

/-- Whether a text has any wildcard syntax. -/
def hasWildcard (s : String) : Bool := s.toList.any isWildcard

/-- Compiles a pattern. -/
def compile (s : String) : Except RegexFault Pattern :=
  if hasWildcard s then (Regex.read (regexText s.toList)).map (wildcard s) else .ok (exact s)

/-- The pattern as it was written. -/
def text : Pattern → String
  | exact s => s
  | wildcard s _ => s

/-- Whether a concrete address matches. -/
def isMatch (p : Pattern) (address : String) : Bool :=
  match p with
  | exact s => address == s
  | wildcard _ r => r.isMatch address.toList

end Pattern

end OpenSound
