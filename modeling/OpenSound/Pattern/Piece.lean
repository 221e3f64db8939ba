/-!
# The pieces of an address pattern

An address pattern is read from left to right into pieces: wildcards, literal characters, classes, and the braces
and commas of alternatives. Reading never fails; what is not balanced stays so in the list of pieces. The regular
expression of a pattern is the text of its pieces between the two anchors.
-/

namespace OpenSound.Pattern

/-- A member of a class: one character, or every character from one to another. -/
inductive Member where
  | one (c : Char)
  | range (first last : Char)
  deriving DecidableEq, Repr

/-- A class as it stands in a pattern, with a mark whether its closing bracket was found. -/
structure ClassPiece where
  isNegated : Bool
  members : List Member
  isClosed : Bool
  deriving DecidableEq, Repr

inductive Piece where
  | anyOne
  | anyRun
  | openGroup
  | closeGroup
  | separator
  | charClass (k : ClassPiece)
  | literal (c : Char)
  deriving DecidableEq, Repr

/-- Reads members up to the first closing bracket. A dash makes a range only between a member that is no range
    and a character other than a bracket or a dash; anywhere else it is a member itself. Gives the members,
    whether the bracket was found, and what follows it. -/
def readMembers : List Char → List Member × Bool × List Char
  | [] => ([], false, [])
  | ']' :: rest => ([], true, rest)
  | first :: '-' :: last :: rest =>
    if last = ']' ∨ last = '-' then
      let r := readMembers ('-' :: last :: rest)
      (.one first :: r.1, r.2)
    else
      let r := readMembers rest
      (.range first last :: r.1, r.2)
  | c :: rest =>
    let r := readMembers rest
    (.one c :: r.1, r.2)

theorem readMembers_length (cs : List Char) : (readMembers cs).2.2.length ≤ cs.length := by
  fun_induction readMembers cs <;> simp_all +zetaDelta <;> omega

/-- A class after its opening bracket. An exclamation mark right after the bracket negates a class that is not
    negated yet. -/
def readClass (isNegated : Bool) : List Char → ClassPiece × List Char
  | '!' :: rest =>
    if isNegated then
      let r := readMembers ('!' :: rest)
      (⟨true, r.1, r.2.1⟩, r.2.2)
    else
      let r := readMembers rest
      (⟨true, r.1, r.2.1⟩, r.2.2)
  | cs =>
    let r := readMembers cs
    (⟨isNegated, r.1, r.2.1⟩, r.2.2)

theorem readClass_length (isNegated : Bool) (cs : List Char) :
    (readClass isNegated cs).2.length ≤ cs.length := by
  unfold readClass
  split
  · split
    · exact readMembers_length _
    · exact Nat.le_succ_of_le (readMembers_length _)
  · exact readMembers_length _

/-- The pieces of a pattern inside a number of open braces. A comma separates alternatives only inside braces, and
    a closing brace with none open leaves the number at zero. -/
def pieces (depth : Nat) : List Char → List Piece
  | [] => []
  | '?' :: rest => .anyOne :: pieces depth rest
  | '*' :: rest => .anyRun :: pieces depth rest
  | '!' :: '[' :: rest =>
    have := readClass_length true rest
    .charClass (readClass true rest).1 :: pieces depth (readClass true rest).2
  | '[' :: rest =>
    have := readClass_length false rest
    .charClass (readClass false rest).1 :: pieces depth (readClass false rest).2
  | '\x7b' :: rest => .openGroup :: pieces (depth + 1) rest
  | '\x7d' :: rest => .closeGroup :: pieces (depth - 1) rest
  | ',' :: rest => (if depth = 0 then .literal ',' else .separator) :: pieces depth rest
  | c :: rest => .literal c :: pieces depth rest
termination_by cs => cs.length
decreasing_by all_goals simp_all; try omega

/-- The characters that mean something in a regular expression outside classes. -/
def isRegexSpecial (c : Char) : Bool := "\\.+*?()|[]\x7b\x7d^$".toList.contains c

/-- A character standing for itself, outside classes. -/
def literalText (c : Char) : List Char := if isRegexSpecial c then ['\\', c] else [c]

/-- A character standing for itself inside a class, where the signs of set operations are special as well. -/
def memberText (c : Char) : List Char :=
  if c = '&' ∨ c = '~' ∨ c = '-' then ['\\', c] else literalText c

def Member.text : Member → List Char
  | one c => memberText c
  | range first last => memberText first ++ '-' :: memberText last

def ClassPiece.text (k : ClassPiece) : List Char :=
  '[' :: ((if k.isNegated then ['^'] else []) ++ k.members.flatMap Member.text ++ if k.isClosed then [']'] else [])

def Piece.text : Piece → List Char
  | anyOne => ['.']
  | anyRun => ['.', '*']
  | openGroup => ['(']
  | closeGroup => [')']
  | separator => ['|']
  | charClass k => k.text
  | literal c => literalText c

/-- The regular expression that a pattern stands for. -/
def regexText (pattern : List Char) : List Char :=
  '^' :: ((pieces 0 pattern).flatMap Piece.text ++ ['$'])

end OpenSound.Pattern
