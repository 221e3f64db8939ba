import OpenSound.Json.Value

/-!
# JSON as text

Writing is compact: no blanks, members in order, and in strings only what must be escaped is. Reading accepts
blanks between tokens and refuses anything after the value.
-/

namespace OpenSound

namespace Numeral

/-- A number as text. -/
def text (n : Numeral) : List Char :=
  (if n.isNegative then ['-'] else []) ++ n.whole ++ (if n.fraction = [] then [] else '.' :: n.fraction) ++
    match n.exponent with
    | none => []
    | some (isNegative, ds) => 'e' :: (if isNegative then '-' else '+') :: ds

/-- Reads the digits after the point, if there is a point; then there is at least one. -/
def readFraction? : List Char → Option (List Char × List Char)
  | '.' :: cs =>
    let ds := cs.takeWhile Char.isDigit
    if ds = [] then none else some (ds, cs.dropWhile Char.isDigit)
  | cs => some ([], cs)

/-- Reads the sign of an exponent, which is positive where none is written. -/
def readSign : List Char → Bool × List Char
  | '-' :: cs => (true, cs)
  | '+' :: cs => (false, cs)
  | cs => (false, cs)

/-- Reads the exponent, if there is one; then it has at least one digit. -/
def readExponent? : List Char → Option (Option (Bool × List Char) × List Char)
  | [] => some (none, [])
  | c :: cs =>
    if c = 'e' ∨ c = 'E' then
      let (isNegative, cs) := readSign cs
      let ds := cs.takeWhile Char.isDigit
      if ds = [] then none else some (some (isNegative, ds), cs.dropWhile Char.isDigit)
    else some (none, c :: cs)

/-- Reads a number behind its sign. It has at least one digit before the point, and no leading zeros. -/
def readUnsigned? (isNegative : Bool) (cs : List Char) : Option (Numeral × List Char) :=
  let whole := cs.takeWhile Char.isDigit
  if whole = [] ∨ (whole.head? = some '0' ∧ whole.length ≠ 1) then none
  else
    match readFraction? (cs.dropWhile Char.isDigit) with
    | none => none
    | some (fraction, cs) =>
      (readExponent? cs).map fun (exponent, cs) => (⟨isNegative, whole, fraction, exponent⟩, cs)

/-- Reads a number. -/
def read? : List Char → Option (Numeral × List Char)
  | '-' :: cs => readUnsigned? true cs
  | cs => readUnsigned? false cs

end Numeral

namespace TextUnit

/-- Four hexadecimal digits after a backslash and a letter u. -/
def codeText (code : Nat) : List Char :=
  ['\\', 'u', Nat.digitChar (code / 4096 % 16), Nat.digitChar (code / 256 % 16), Nat.digitChar (code / 16 % 16),
    Nat.digitChar (code % 16)]

/-- How a character is written inside a string. -/
def escape (c : Char) : List Char :=
  match c with
  | '\x22' => ['\\', '\x22']
  | '\\' => ['\\', '\\']
  | '\x08' => ['\\', 'b']
  | '\x0c' => ['\\', 'f']
  | '\n' => ['\\', 'n']
  | '\r' => ['\\', 'r']
  | '\t' => ['\\', 't']
  | c => if c.toNat < 32 then codeText c.toNat else [c]

def text : TextUnit → List Char
  | char c => escape c
  | control c => [c]
  | surrogate code => codeText code

/-- Units between quotes. -/
def quoted (units : List TextUnit) : List Char := '\x22' :: (units.flatMap text ++ ['\x22'])

/-- The character of a two-character escape. -/
def unescape? : Char → Option Char
  | '\x22' => some '\x22'
  | '\\' => some '\\'
  | '/' => some '/'
  | 'b' => some '\x08'
  | 'f' => some '\x0c'
  | 'n' => some '\n'
  | 'r' => some '\r'
  | 't' => some '\t'
  | _ => none

/-- The value of a hexadecimal digit in either case. -/
def hexDigit? (c : Char) : Option Nat :=
  if c.isDigit then some (c.toNat - '0'.toNat)
  else if 'a' ≤ c ∧ c ≤ 'f' then some (c.toNat - 'a'.toNat + 10)
  else if 'A' ≤ c ∧ c ≤ 'F' then some (c.toNat - 'A'.toNat + 10)
  else none

/-- The code of four hexadecimal digits. -/
def hexCode? (a b c d : Char) : Option Nat :=
  match hexDigit? a, hexDigit? b, hexDigit? c, hexDigit? d with
  | some a, some b, some c, some d => some (a * 4096 + b * 256 + c * 16 + d)
  | _, _, _, _ => none

def isLeading (code : Nat) : Bool := 0xd800 ≤ code && code < 0xdc00

def isTrailing (code : Nat) : Bool := 0xdc00 ≤ code && code < 0xe000

/-- Puts an escaped code before some units. A leading surrogate makes one character with a trailing one right
    after it. -/
def consCode (code : Nat) (units : List TextUnit) : List TextUnit :=
  if isLeading code then
    match units with
    | surrogate trail :: rest =>
      if isTrailing trail then char (Char.ofNat ((code - 0xd800) * 1024 + (trail - 0xdc00) + 0x10000)) :: rest
      else surrogate code :: units
    | _ => surrogate code :: units
  else if isTrailing code then surrogate code :: units
  else char (Char.ofNat code) :: units

/-- Reads units up to the closing quote. -/
def read? : List Char → Option (List TextUnit × List Char)
  | [] => none
  | '\x22' :: rest => some ([], rest)
  | '\\' :: 'u' :: a :: b :: c :: d :: rest =>
    match hexCode? a b c d, read? rest with
    | some code, some (units, rest) => some (consCode code units, rest)
    | _, _ => none
  | '\\' :: e :: rest =>
    match unescape? e, read? rest with
    | some c, some (units, rest) => some (char c :: units, rest)
    | _, _ => none
  | c :: rest =>
    match read? rest with
    | some (units, rest) => some ((if c.toNat < 32 then control c else char c) :: units, rest)
    | none => none

end TextUnit

namespace Json

mutual

/-- A value as compact text. -/
def text : Json → List Char
  | null => "null".toList
  | bool b => (if b then "true" else "false").toList
  | number n => n.text
  | string units => TextUnit.quoted units
  | array [] => ['[', ']']
  | array (v :: vs) => '[' :: (v.text ++ elementsText vs)
  | object [] => ['\x7b', '\x7d']
  | object ((key, v) :: ms) => '\x7b' :: (TextUnit.quoted key ++ ':' :: (v.text ++ membersText ms))

/-- The elements after the first, and the closing bracket. -/
def elementsText : List Json → List Char
  | [] => [']']
  | v :: vs => ',' :: (v.text ++ elementsText vs)

/-- The members after the first, and the closing brace. -/
def membersText : List (List TextUnit × Json) → List Char
  | [] => ['\x7d']
  | (key, v) :: ms => ',' :: (TextUnit.quoted key ++ ':' :: (v.text ++ membersText ms))

end

def isBlank (c : Char) : Bool := c == ' ' || c == '\n' || c == '\t' || c == '\r'

/-- Drops blanks. -/
def skip (cs : List Char) : List Char := cs.dropWhile isBlank

/-- Reads a member's key and the colon after it. -/
def readKey? (cs : List Char) : Option (List TextUnit × List Char) :=
  match skip cs with
  | '\x22' :: cs =>
    match TextUnit.read? cs with
    | some (key, cs) =>
      match skip cs with
      | ':' :: cs => some (key, cs)
      | _ => none
    | none => none
  | _ => none

mutual

/-- Reads a value, in at most a number of steps down. -/
def readValue : Nat → List Char → Option (Json × List Char)
  | 0, _ => none
  | steps + 1, cs =>
    match skip cs with
    | '\x22' :: cs => (TextUnit.read? cs).map fun r => (string r.1, r.2)
    | '[' :: cs =>
      match skip cs with
      | ']' :: cs => some (array [], cs)
      | cs => (readElements steps cs).map fun r => (array r.1, r.2)
    | '\x7b' :: cs =>
      match skip cs with
      | '\x7d' :: cs => some (object [], cs)
      | cs => (readMembers steps cs).map fun r => (object r.1, r.2)
    | 'n' :: 'u' :: 'l' :: 'l' :: cs => some (null, cs)
    | 't' :: 'r' :: 'u' :: 'e' :: cs => some (bool true, cs)
    | 'f' :: 'a' :: 'l' :: 's' :: 'e' :: cs => some (bool false, cs)
    | cs => (Numeral.read? cs).map fun r => (number r.1, r.2)

/-- Reads one element or more, and the closing bracket. -/
def readElements : Nat → List Char → Option (List Json × List Char)
  | 0, _ => none
  | steps + 1, cs =>
    match readValue steps cs with
    | none => none
    | some (v, cs) =>
      match skip cs with
      | ',' :: cs => (readElements steps cs).map fun r => (v :: r.1, r.2)
      | ']' :: cs => some ([v], cs)
      | _ => none

/-- Reads one member or more, and the closing brace. -/
def readMembers : Nat → List Char → Option (List (List TextUnit × Json) × List Char)
  | 0, _ => none
  | steps + 1, cs =>
    match readKey? cs with
    | none => none
    | some (key, cs) =>
      match readValue steps cs with
      | none => none
      | some (v, cs) =>
        match skip cs with
        | ',' :: cs => (readMembers steps cs).map fun r => ((key, v) :: r.1, r.2)
        | '\x7d' :: cs => some ([(key, v)], cs)
        | _ => none

end

/-- Reads a whole text as one value. Each step down takes a character or leads from a list to its element, so
    twice as many steps as there are characters are enough. -/
def parse? (cs : List Char) : Option Json :=
  match readValue (2 * cs.length + 1) cs with
  | some (v, rest) => if skip rest = [] then some v else none
  | none => none

end Json

end OpenSound
