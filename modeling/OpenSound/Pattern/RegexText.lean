import OpenSound.Pattern.Regex
import OpenSound.Pattern.RegexFault

/-!
# Reading regular expressions

A regular expression is read from left to right and the first fault decides. Groups may be open at most fifty
deep, and the finished expression may be at most fifty levels high.
-/

namespace OpenSound.Regex

/-- The nesting that is accepted, both of open groups and of the finished expression. -/
def nestingLimit : Nat := 50

/-- A named class after its opening bracket: a colon, an optional caret, a name, a colon and a bracket. -/
def namedClass? (cs : List Char) : Option (ClassItem × List Char) :=
  match cs with
  | ':' :: cs =>
    let (isNegated, cs) := match cs with
      | '^' :: cs => (true, cs)
      | cs => (false, cs)
    match cs.dropWhile (· ≠ ':') with
    | ':' :: ']' :: rest => (NamedClass.ofName? (cs.takeWhile (· ≠ ':'))).map fun n => (.named isNegated n, rest)
    | _ => none
  | _ => none

/-- One character of a class, itself or after a backslash. -/
def classChar : List Char → Except RegexFault (Char × List Char)
  | [] => .error .unclosedClass
  | ['\\'] => .error .incompleteEscape
  | '\\' :: c :: rest => .ok (c, rest)
  | c :: rest => .ok (c, rest)

/-- One item of a class: a character, or a range if a dash follows that is not itself followed by a bracket or a
    dash. -/
def classItem (cs : List Char) : Except RegexFault (ClassItem × List Char) := do
  let (first, rest) ← classChar cs
  match rest with
  | [] => .error .unclosedAfterItem
  | '-' :: ']' :: _ => .ok (.range first first, rest)
  | '-' :: '-' :: _ => .ok (.range first first, rest)
  | '-' :: rest =>
    let (last, rest) ← classChar rest
    if last < first then .error .invalidRange else .ok (.range first last, rest)
  | _ => .ok (.range first first, rest)

/-- The items of a class up to its closing bracket, after some items that were read already. Every item takes at
    least one character, so as many steps as there are characters are enough. -/
def classItems (isNegated : Bool) : Nat → List ClassItem → List Char → Except RegexFault (CharTest × List Char)
  | 0, _, _ => .error .unclosedClass
  | _, _, [] => .error .unclosedClass
  | _, items, ']' :: rest => .ok (.oneOf isNegated items.reverse, rest)
  | steps + 1, items, '[' :: rest =>
    match namedClass? rest with
    | some (item, rest) => classItems isNegated steps (item :: items) rest
    | none => .error .nestedClass
  | _, _, '&' :: '&' :: _ => .error .classIntersection
  | _, _, '-' :: '-' :: _ => .error .classDifference
  | _, _, '~' :: '~' :: _ => .error .classSymmetricDifference
  | steps + 1, items, cs =>
    match classItem cs with
    | .error e => .error e
    | .ok (item, rest) => classItems isNegated steps (item :: items) rest

/-- The dashes at the front of a class, which are literal, then the rest. -/
def leadingDashes (cs : List Char) : List ClassItem × List Char :=
  ((cs.takeWhile (· = '-')).map fun c => .range c c, cs.dropWhile (· = '-'))

/-- A class after its opening bracket: an optional caret, literal dashes or else one literal closing bracket, then
    its items. -/
def readClass (cs : List Char) : Except RegexFault (CharTest × List Char) :=
  let (isNegated, cs) := match cs with
    | '^' :: cs => (true, cs)
    | cs => (false, cs)
  let (dashes, cs) := leadingDashes cs
  match dashes, cs with
  | [], ']' :: rest => classItems isNegated rest.length [.range ']' ']'] rest
  | _, _ => classItems isNegated cs.length dashes cs

/-- An open group or the whole expression, as far as it is read: the finished branches and the items of the
    current one, the last first. -/
structure Level where
  branches : List Regex
  items : List Regex

namespace Level

def empty : Level := ⟨[], []⟩

def push (l : Level) (r : Regex) : Level := { l with items := r :: l.items }

/-- Ends the current branch. -/
def nextBranch (l : Level) : Level := ⟨ofConcat l.items.reverse :: l.branches, []⟩

/-- The expression of all branches. -/
def close (l : Level) : Regex := ofAlternate l.nextBranch.branches.reverse

end Level

/-- Reads an expression inside the enclosing open groups, the innermost first. Every step takes at least one
    character, so as many steps as there are characters, and one for the end, are enough. -/
def readFrom : Nat → List Level → Level → List Char → Except RegexFault Regex
  | 0, _, _, _ => .error .unclosedGroup
  | _, [], l, [] => .ok l.close
  | _, _ :: _, _, [] => .error .unclosedGroup
  | steps + 1, enclosing, l, '(' :: rest =>
    if nestingLimit ≤ enclosing.length then .error .tooMuchNesting
    else readFrom steps (l :: enclosing) .empty rest
  | _, [], _, ')' :: _ => .error .unopenedGroup
  | steps + 1, outer :: enclosing, l, ')' :: rest => readFrom steps enclosing (outer.push (.group l.close)) rest
  | steps + 1, enclosing, l, '|' :: rest => readFrom steps enclosing l.nextBranch rest
  | steps + 1, enclosing, l, '[' :: rest =>
    match readClass rest with
    | .error e => .error e
    | .ok (t, rest) => readFrom steps enclosing (l.push (.single t)) rest
  | steps + 1, enclosing, l, '\\' :: c :: rest => readFrom steps enclosing (l.push (.single (.only c))) rest
  | _, _, _, ['\\'] => .error .incompleteEscape
  | steps + 1, enclosing, l, '.' :: '*' :: rest => readFrom steps enclosing (l.push (.run .notNewline)) rest
  | steps + 1, enclosing, l, '.' :: rest => readFrom steps enclosing (l.push (.single .notNewline)) rest
  | steps + 1, enclosing, l, '^' :: rest => readFrom steps enclosing (l.push .start) rest
  | steps + 1, enclosing, l, '$' :: rest => readFrom steps enclosing (l.push .finish) rest
  | steps + 1, enclosing, l, c :: rest => readFrom steps enclosing (l.push (.single (.only c))) rest

/-- At the end of the text no group may be open. -/
theorem readFrom_nil (steps : Nat) (enclosing : List Level) (l : Level) :
    readFrom (steps + 1) enclosing l [] = if enclosing = [] then .ok l.close else .error .unclosedGroup := by
  cases enclosing <;> simp [readFrom]

/-- Reads a regular expression. -/
def read (text : List Char) : Except RegexFault Regex :=
  match readFrom (text.length + 1) [] .empty text with
  | .error e => .error e
  | .ok r => if nestingLimit < r.height then .error .tooMuchNesting else .ok r

end OpenSound.Regex
