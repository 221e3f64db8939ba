/-!
# Why a text is no regular expression
-/

namespace OpenSound

/-- The first thing that is wrong with a regular expression, from left to right. -/
inductive RegexFault where
  | unclosedGroup
  | unopenedGroup
  | unclosedAfterItem
  | unclosedClass
  | nestedClass
  | classIntersection
  | classDifference
  | classSymmetricDifference
  | invalidRange
  | incompleteEscape
  | tooMuchNesting
  deriving DecidableEq, Repr

namespace RegexFault

def message : RegexFault → String
  | unclosedGroup => "found open group without closing ')'"
  | unopenedGroup => "found closing ')' without matching '('"
  | unclosedAfterItem => "non-empty character class has no closing bracket"
  | unclosedClass => "found unclosed character class"
  | nestedClass => "nested character classes are not supported"
  | classIntersection => "character class intersection is not supported"
  | classDifference => "character class difference is not supported"
  | classSymmetricDifference => "character class symmetric difference is not supported"
  | invalidRange => "invalid range in character class"
  | incompleteEscape => "incomplete escape sequence (reached end of pattern prematurely)"
  | tooMuchNesting => "pattern has too much nesting"

end RegexFault

end OpenSound
