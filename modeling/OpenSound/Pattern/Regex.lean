/-!
# Regular expressions and their matches

The expressions that address patterns stand for: single characters and runs of them, anchors, groups,
concatenation and alternation. A match is found by moving a set of positions through the expression, so the time
is bounded by the product of the two lengths.
-/

namespace OpenSound

/-- The named classes of ASCII characters. -/
inductive NamedClass where
  | alnum | alpha | ascii | blank | cntrl | digit | graph | lower | print | punct | space | upper | word | xdigit
  deriving DecidableEq, Repr

namespace NamedClass

def all : List (String × NamedClass) :=
  [("alnum", alnum), ("alpha", alpha), ("ascii", ascii), ("blank", blank), ("cntrl", cntrl), ("digit", digit),
    ("graph", graph), ("lower", lower), ("print", print), ("punct", punct), ("space", space), ("upper", upper),
    ("word", word), ("xdigit", xdigit)]

def ofName? (name : List Char) : Option NamedClass := (all.find? fun e => e.1.toList = name).map (·.2)

def contains (n : NamedClass) (c : Char) : Bool :=
  let v := c.toNat
  match n with
  | alnum => c.isAlphanum
  | alpha => c.isAlpha
  | ascii => v < 128
  | blank => c == '\t' || c == ' '
  | cntrl => v < 32 || v == 127
  | digit => c.isDigit
  | graph => 33 ≤ v && v < 127
  | lower => c.isLower
  | print => 32 ≤ v && v < 127
  | punct => 33 ≤ v && v < 127 && !c.isAlphanum
  | space => 9 ≤ v && v ≤ 13 || c == ' '
  | upper => c.isUpper
  | word => c.isAlphanum || c == '_'
  | xdigit => c.isDigit || 'a' ≤ c && c ≤ 'f' || 'A' ≤ c && c ≤ 'F'

end NamedClass

/-- One thing between the brackets of a class. -/
inductive ClassItem where
  | range (first last : Char)
  | named (isNegated : Bool) (n : NamedClass)
  deriving DecidableEq, Repr

namespace ClassItem

def contains (i : ClassItem) (c : Char) : Bool :=
  match i with
  | range first last => first ≤ c && c ≤ last
  | named isNegated n => n.contains c != isNegated

end ClassItem

/-- A test of a single character. -/
inductive CharTest where
  | notNewline
  | only (c : Char)
  | oneOf (isNegated : Bool) (items : List ClassItem)
  deriving DecidableEq, Repr

namespace CharTest

def accepts (t : CharTest) (c : Char) : Bool :=
  match t with
  | notNewline => c != '\n'
  | only d => c == d
  | oneOf isNegated items => items.any (·.contains c) != isNegated

end CharTest

inductive Regex where
  | start
  | finish
  | single (t : CharTest)
  | run (t : CharTest)
  | group (r : Regex)
  | concat (rs : List Regex)
  | alternate (rs : List Regex)

namespace Regex

/-- The concatenation of expressions; of one, it is that one. -/
def ofConcat : List Regex → Regex
  | [r] => r
  | rs => concat rs

/-- The alternation of expressions; of one, it is that one. -/
def ofAlternate : List Regex → Regex
  | [r] => r
  | rs => alternate rs

mutual

/-- How many levels an expression has below its root: a group, a run, and a concatenation or alternation that is
    not empty each put what they hold one level down. -/
def height : Regex → Nat
  | start | finish | single _ => 0
  | run _ => 1
  | group r => r.height + 1
  | concat rs | alternate rs => heightAll rs

/-- One more than the greatest height of some expressions, and zero for none. -/
def heightAll : List Regex → Nat
  | [] => 0
  | r :: rs => max (r.height + 1) (heightAll rs)

end

/-- Moves positions over a run: a position is reached if it was there, or if its predecessor was reached and the
    character between them is accepted. -/
def spread (t : CharTest) (reached : Bool) : List Char → List Bool → List Bool
  | _, [] => []
  | [], m :: _ => [m || reached]
  | c :: cs, m :: ms => (m || reached) :: spread t ((m || reached) && t.accepts c) cs ms

/-- No position out of as many as there are. -/
def nowhere (marks : List Bool) : List Bool := marks.map fun _ => false

/-- Only the first position, if it is marked. -/
def atStart : List Bool → List Bool
  | [] => []
  | m :: ms => m :: nowhere ms

/-- Only the last position, if it is marked. -/
def atFinish : List Bool → List Bool
  | [] => []
  | [m] => [m]
  | _ :: ms => false :: atFinish ms

mutual

/-- The positions where a match of the expression can end that begins at a marked position. There is one mark
    before each character of the text and one after the last. -/
def advance (cs : List Char) (marks : List Bool) : Regex → List Bool
  | start => atStart marks
  | finish => atFinish marks
  | single t => false :: List.zipWith (fun m c => m && t.accepts c) marks cs
  | run t => spread t false cs marks
  | group r => advance cs marks r
  | concat rs => advanceAll cs marks rs
  | alternate rs => advanceAny cs marks rs

def advanceAll (cs : List Char) (marks : List Bool) : List Regex → List Bool
  | [] => marks
  | r :: rs => advanceAll cs (advance cs marks r) rs

def advanceAny (cs : List Char) (marks : List Bool) : List Regex → List Bool
  | [] => nowhere marks
  | r :: rs => List.zipWith or (advance cs marks r) (advanceAny cs marks rs)

end

/-- Whether some part of a text matches. -/
def isMatch (r : Regex) (text : List Char) : Bool :=
  (r.advance text (true :: text.map fun _ => true)).any id

end Regex

end OpenSound
