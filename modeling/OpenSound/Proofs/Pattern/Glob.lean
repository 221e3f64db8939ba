import Mathlib.Computability.Language
import OpenSound.Pattern.Piece

/-!
# The meaning of address patterns

Which texts are well-formed patterns and which addresses they stand for, said on the text itself: a grammar that
spells trees of wildcards, and a language for each tree. The scanner cuts a well-formed text into the pieces of its
tree.
-/

namespace OpenSound.Pattern

namespace Member

/-- The characters that a member stands for. -/
def Covers : Member → Char → Prop
  | one d, c => c = d
  | range first last, c => first ≤ c ∧ c ≤ last

/-- A range does not end before it starts. -/
def IsOrdered : Member → Prop
  | one _ => True
  | range first last => first ≤ last

end Member

mutual

/-- A well-formed pattern as a tree, item by item. -/
inductive Glob where
  | done
  | anyOne (rest : Glob)
  | anyRun (rest : Glob)
  | charClass (isNegated : Bool) (members : List Member) (rest : Glob)
  | choice (alternatives : Alternatives) (rest : Glob)
  | literal (c : Char) (rest : Glob)

/-- The patterns between two braces, of which there is at least one. -/
inductive Alternatives where
  | last (g : Glob)
  | more (g : Glob) (rest : Alternatives)

end

/-- The words of one character that has a property. -/
def oneWith (p : Char → Prop) : Language Char := {word | ∃ c, word = [c] ∧ p c}

/-- The words whose characters all have a property. -/
def runWith (p : Char → Prop) : Language Char := {word | ∀ c ∈ word, p c}

mutual

/-- The addresses that a pattern stands for. -/
def Glob.language : Glob → Language Char
  | .done => 1
  | .anyOne rest => oneWith (· ≠ '\n') * rest.language
  | .anyRun rest => runWith (· ≠ '\n') * rest.language
  | .charClass isNegated members rest =>
    oneWith (fun c => (∃ m ∈ members, m.Covers c) ↔ isNegated = false) * rest.language
  | .choice alternatives rest => alternatives.language * rest.language
  | .literal c rest => oneWith (· = c) * rest.language

/-- The union of the alternatives. -/
def Alternatives.language : Alternatives → Language Char
  | .last g => g.language
  | .more g rest => g.language + rest.language

end

mutual

/-- How deep the braces of a pattern nest. -/
def Glob.depth : Glob → Nat
  | .done => 0
  | .anyOne rest | .anyRun rest | .charClass _ _ rest | .literal _ rest => rest.depth
  | .choice alternatives rest => max (alternatives.depth + 1) rest.depth

def Alternatives.depth : Alternatives → Nat
  | .last g => g.depth
  | .more g rest => max g.depth rest.depth

end

/-- The text between the brackets of a class and its members, from left to right. A dash after a single character
    makes a range, unless it is the last character or another dash follows it. -/
inductive Members : List Char → List Member → Prop
  | done : Members [] []
  | one {c : Char} {body : List Char} {ms : List Member} (inside : c ≠ ']')
      (single : ∀ last rest, body = '-' :: last :: rest → last = '-') (later : Members body ms) :
      Members (c :: body) (.one c :: ms)
  | range {first last : Char} {body : List Char} {ms : List Member} (inside : first ≠ ']') (notClose : last ≠ ']')
      (ended : last ≠ '-') (later : Members body ms) :
      Members (first :: '-' :: last :: body) (.range first last :: ms)

/-- A text between brackets that makes a class: it has a member, and its ranges are ordered. -/
structure ClassBody (body : List Char) (ms : List Member) : Prop where
  members : Members body ms
  nonempty : ms ≠ []
  ordered : ∀ m ∈ ms, m.IsOrdered

/-- The three spellings of a class, with the mark whether it is negated. -/
inductive SpellsClass : List Char → Bool → List Member → Prop
  | plain {body : List Char} {ms : List Member} (good : ClassBody body ms) (unmarked : body.head? ≠ some '!') :
      SpellsClass ('[' :: (body ++ [']'])) false ms
  | markedBefore {body : List Char} {ms : List Member} (good : ClassBody body ms) :
      SpellsClass ('!' :: '[' :: (body ++ [']'])) true ms
  | markedInside {body : List Char} {ms : List Member} (good : ClassBody body ms) :
      SpellsClass ('[' :: '!' :: (body ++ [']'])) true ms

/-- A character that stands for itself in front of some text, inside braces or outside. A comma does so only
    outside, an exclamation mark only where no bracket follows, and a closing bracket and every other character
    always. -/
structure StandsForItself (isInside : Bool) (c : Char) (rest : List Char) : Prop where
  notWildcard : c ≠ '?' ∧ c ≠ '*' ∧ c ≠ '[' ∧ c ≠ '\x7b' ∧ c ≠ '\x7d'
  notSeparator : isInside = true → c ≠ ','
  notMark : c = '!' → rest.head? ≠ some '['

mutual

/-- The grammar of patterns, inside braces or outside. -/
inductive Spells : Bool → List Char → Glob → Prop
  | done {isInside : Bool} : Spells isInside [] .done
  | anyOne {isInside : Bool} {rest : List Char} {g : Glob} (later : Spells isInside rest g) :
      Spells isInside ('?' :: rest) (.anyOne g)
  | anyRun {isInside : Bool} {rest : List Char} {g : Glob} (later : Spells isInside rest g) :
      Spells isInside ('*' :: rest) (.anyRun g)
  | charClass {isInside isNegated : Bool} {ms : List Member} {text rest : List Char} {g : Glob}
      (spelled : SpellsClass text isNegated ms) (later : Spells isInside rest g) :
      Spells isInside (text ++ rest) (.charClass isNegated ms g)
  | choice {isInside : Bool} {text rest : List Char} {as : Alternatives} {g : Glob} (inner : SpellsAny text as)
      (later : Spells isInside rest g) : Spells isInside ('\x7b' :: (text ++ '\x7d' :: rest)) (.choice as g)
  | literal {isInside : Bool} {c : Char} {rest : List Char} {g : Glob} (itself : StandsForItself isInside c rest)
      (later : Spells isInside rest g) : Spells isInside (c :: rest) (.literal c g)

/-- The grammar of what stands between two braces. -/
inductive SpellsAny : List Char → Alternatives → Prop
  | last {text : List Char} {g : Glob} (only : Spells true text g) : SpellsAny text (.last g)
  | more {text rest : List Char} {g : Glob} {as : Alternatives} (first : Spells true text g)
      (later : SpellsAny rest as) : SpellsAny (text ++ ',' :: rest) (.more g as)

end

/-- A text is a well-formed pattern: its braces match, its classes are closed and have a member, and its ranges
    are ordered. -/
def WellFormed (s : String) : Prop := ∃ g, Spells false s.toList g

/-- The addresses of a pattern: those of the tree that it spells. -/
def language (s : String) : Language Char := {word | ∃ g, Spells false s.toList g ∧ word ∈ g.language}

/-- How deep braces outside classes nest in a text that stands inside some braces. A class lasts up to the first
    closing bracket, and a closing brace without an open one changes nothing. -/
def deepest (depth : Nat) : List Char → Nat
  | [] => depth
  | '[' :: rest => deepest depth (rest.dropWhile (· ≠ ']')).tail
  | '\x7b' :: rest => deepest (depth + 1) rest
  | '\x7d' :: rest => max depth (deepest (depth - 1) rest)
  | _ :: rest => deepest depth rest
termination_by cs => cs.length
decreasing_by
  all_goals simp only [List.length_cons]
  · have := (List.dropWhile_suffix (· ≠ ']') (l := rest)).length_le
    simp only [List.length_tail]
    omega
  all_goals omega

/-- How deep the braces outside classes nest in a text. -/
def nesting (s : String) : Nat := deepest 0 s.toList

end OpenSound.Pattern
