import OpenSound.Text.Combining
import OpenSound.Text.Unprintable

/-!
# Text in double quotes

How a text is shown inside a diagnostic or a listing: in double quotes, with the quote, the backslash and
everything a reader could not see written as an escape.
-/

namespace OpenSound.Quoted

/-- The letter of a two-character escape, for the characters that have one. -/
def letter? : Char → Option Char
  | '\x00' => some '0'
  | '\t' => some 't'
  | '\n' => some 'n'
  | '\r' => some 'r'
  | '\x22' => some '\x22'
  | '\\' => some '\\'
  | _ => none

/-- A character that is written by its code point: it has no printed form of its own, or it would be drawn on
    the character before it. -/
def isHidden (c : Char) : Bool := CharSet.combining.contains c || CharSet.unprintable.contains c

/-- The code point in hexadecimal between braces, after a backslash and a letter u. -/
def codePoint (c : Char) : List Char := '\\' :: 'u' :: '\x7b' :: (Nat.toDigits 16 c.toNat ++ ['\x7d'])

/-- How one character is written between the quotes. -/
def escape (c : Char) : List Char :=
  match letter? c with
  | some l => ['\\', l]
  | none => if isHidden c then codePoint c else [c]

/-- A text in double quotes. -/
def quote (s : String) : String := String.ofList ('\x22' :: (s.toList.flatMap escape ++ ['\x22']))

end OpenSound.Quoted
