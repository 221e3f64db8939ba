import OpenSound.Proofs.Pattern.ClassReading

/-!
# Runaway classes

The regular expression has no empty class: the bracket that closes one is taken for its first member, and whatever
follows for further members. Which pieces such a class swallows, and where it ends, if it does.
-/

namespace OpenSound.Pattern

/-- What a class sees of the pieces that it swallows: characters, with a backslash or without, and other classes. -/
inductive Sign where
  | plain (c : Char)
  | escaped (c : Char)
  | charClass (k : ClassPiece)

namespace Sign

def text : Sign → List Char
  | plain c => [c]
  | escaped c => ['\\', c]
  | charClass k => k.text

private theorem text_length_pos (s : Sign) : 0 < s.text.length := by
  cases s <;> simp [text, ClassPiece.text]

/-- The character that stands there, if it is no class. -/
def char? : Sign → Option Char
  | plain c | escaped c => some c
  | charClass _ => none

end Sign

/-- A piece as a class sees it. -/
def Piece.signs : Piece → List Sign
  | anyOne => [.plain '.']
  | anyRun => [.plain '.', .plain '*']
  | openGroup => [.plain '(']
  | closeGroup => [.plain ')']
  | separator => [.plain '|']
  | charClass k => [.charClass k]
  | literal c => [if isRegexSpecial c then .escaped c else .plain c]

theorem Piece.signs_text (p : Piece) : p.signs.flatMap Sign.text = p.text := by
  cases p with
  | literal c => by_cases special : isRegexSpecial c <;> simp [signs, Sign.text, text, literalText, special]
  | charClass k => simp [signs, Sign.text, text]
  | _ => rfl

/-- A class that spells the name of a class of ASCII characters, between two colons. -/
def ClassPiece.Names (k : ClassPiece) (n : NamedClass) : Prop :=
  ∃ name, NamedClass.ofName? name = some n ∧ k.text = '[' :: ':' :: (name ++ [':', ']'])

/-- What a class that is swallowed from behind its opening bracket adds to the class that swallows it. -/
def ClassPiece.innerItems (k : ClassPiece) : List ClassItem :=
  (if k.isNegated then [.range '^' '^'] else []) ++ k.members.map Member.item

/-- A class that is not closed swallows the signs that follow, makes items of them, and runs into another class: a
    character, a dash and the opening bracket of that class are a range, and it ends where that class ends. On the
    way characters are read as in any class: two signs of a set operation may not stand in a row, ranges are ordered,
    and a class has to spell a name. The last list is what follows. -/
inductive RunsInto : List Sign → List ClassItem → List Sign → Prop
  | closes {s : Sign} {c : Char} {k : ClassPiece} {out : List Sign} (char : s.char? = some c) (noDash : s ≠ .plain '-')
      (before : c ≤ '[') (closed : k.isClosed = true) (ordered : ∀ m ∈ k.members, m.IsOrdered) :
      RunsInto (s :: .plain '-' :: .charClass k :: out) (.range c '[' :: k.innerItems) out
  | one {s : Sign} {c : Char} {rest out : List Sign} {items : List ClassItem} (char : s.char? = some c)
      (single : rest.head? ≠ some (.plain '-'))
      (noOperation : s = .plain '&' ∨ s = .plain '~' → rest.head? ≠ some s) (later : RunsInto rest items out) :
      RunsInto (s :: rest) (.range c c :: items) out
  | range {s e : Sign} {c d : Char} {rest out : List Sign} {items : List ClassItem} (char : s.char? = some c)
      (noDash : s ≠ .plain '-') (ended : e.char? = some d) (noDifference : e ≠ .plain '-') (ordered : c ≤ d)
      (later : RunsInto rest items out) : RunsInto (s :: .plain '-' :: e :: rest) (.range c d :: items) out
  | named {k : ClassPiece} {n : NamedClass} {rest out : List Sign} {items : List ClassItem} (names : k.Names n)
      (later : RunsInto rest items out) : RunsInto (.charClass k :: rest) (.named false n :: items) out

/-- What the scanner promises of the signs of its pieces: a character that means something is escaped, the members of
    a class end at the first bracket, and a class without its closing bracket is the last piece. -/
def Sign.AllScanned : List Sign → Prop
  | [] => True
  | .plain c :: rest => c ∉ ['\\', '[', ']'] ∧ AllScanned rest
  | .escaped _ :: rest => AllScanned rest
  | .charClass k :: rest =>
    ']' ∉ k.members.flatMap Member.text ∧ (k.isClosed = false → rest = []) ∧ AllScanned rest

end OpenSound.Pattern

namespace OpenSound.Regex

open Pattern (Member ClassPiece Sign RunsInto)

/-- Everything that is left of a regular expression: some signs and the anchor at the end. -/
def signsText (ss : List Sign) : List Char := ss.flatMap Sign.text ++ ['$']

@[simp] theorem signsText_cons (s : Sign) (ss : List Sign) : signsText (s :: ss) = s.text ++ signsText ss := by
  simp [signsText]

private theorem signsText_dash (s : Sign) (ss : List Sign) :
    signsText (s :: .plain '-' :: ss) = s.text ++ '-' :: signsText ss := by
  simp [Sign.text]

private theorem signsText_charClass (k : ClassPiece) (ss : List Sign) :
    signsText (.charClass k :: ss) = '[' :: (k.text.tail ++ signsText ss) := by
  simp [Sign.text, ClassPiece.text]

private theorem signsText_ne_nil (ss : List Sign) : signsText ss ≠ [] := by
  simp [signsText]

/-- The text begins with a sign of a set operation only where the first sign is that one. -/
theorem signsText_head {d : Char} (operation : d = '&' ∨ d = '-' ∨ d = '~') (ss : List Sign) :
    (signsText ss).head? = some d ↔ ss.head? = some (.plain d) := by
  cases ss with
  | nil => rcases operation with rfl | rfl | rfl <;> simp [signsText]
  | cons s ss =>
    cases s with
    | plain c => simp [Sign.text]
    | escaped c => rcases operation with rfl | rfl | rfl <;> simp [Sign.text]
    | charClass k => rcases operation with rfl | rfl | rfl <;> simp [Sign.text, ClassPiece.text]

private theorem charText_of_char {s : Sign} {c : Char} {ss : List Sign} (char : s.char? = some c)
    (scanned : Sign.AllScanned (s :: ss)) :
    CharText s.text c ∧ s.text ≠ ['['] ∧ s.text ≠ [']'] ∧ Sign.AllScanned ss := by
  cases s with
  | plain d =>
    obtain rfl : d = c := by simpa [Sign.char?] using char
    obtain ⟨special, scanned⟩ := scanned
    simp only [List.mem_cons, List.not_mem_nil, or_false, not_or] at special
    exact ⟨.plain special.1, by simp [Sign.text, special], by simp [Sign.text, special], scanned⟩
  | escaped d =>
    obtain rfl : d = c := by simpa [Sign.char?] using char
    exact ⟨.escaped, by simp [Sign.text], by simp [Sign.text], scanned⟩
  | charClass k => simp [Sign.char?] at char

private theorem charClass_of_char {s : Sign} (none : s.char? = none) : ∃ k, s = .charClass k := by
  cases s with
  | charClass k => exact ⟨k, rfl⟩
  | _ => simp [Sign.char?] at none

private theorem text_eq_plain {s : Sign} {c d : Char} (char : s.char? = some c) (alone : s.text = [d]) :
    s = .plain d := by
  cases s with
  | plain e => simpa [Sign.text] using alone
  | escaped e => simp [Sign.text] at alone
  | charClass k => simp [Sign.char?] at char

/-- Behind a class that lost its closing bracket there is none at all. -/
theorem not_mem_unclosed {k : ClassPiece} {ss : List Sign} (scanned : Sign.AllScanned (.charClass k :: ss))
    (unclosed : k.isClosed = false) : ']' ∉ k.text.tail ++ signsText ss := by
  obtain ⟨noBracket, last, -⟩ := scanned
  obtain rfl := last unclosed
  rw [ClassPiece.text, unclosed]
  have plain : ']' ∉ if k.isNegated then ['^'] else [] := by
    split_ifs <;> simp
  simpa [signsText, plain] using noBracket

private theorem takeWhile_ne {d : Char} {body : List Char} (free : d ∉ body) (rest : List Char) :
    (body ++ d :: rest).takeWhile (· ≠ d) = body := by
  have inside : ∀ c ∈ body, decide (c ≠ d) = true := fun c member => by
    simpa using ne_of_mem_of_not_mem member free
  rw [List.takeWhile_append_of_pos inside]
  simp

private theorem dropWhile_ne {d : Char} {body : List Char} (free : d ∉ body) (rest : List Char) :
    (body ++ d :: rest).dropWhile (· ≠ d) = d :: rest := by
  have inside : ∀ c ∈ body, decide (c ≠ d) = true := fun c member => by
    simpa using ne_of_mem_of_not_mem member free
  rw [List.dropWhile_append_of_pos inside]
  simp

/-- A text is cut in one way only at its first bracket. -/
private theorem split_at_bracket {front other back rest : List Char} (noBracket : ']' ∉ front) (noOther : ']' ∉ other)
    (same : front ++ ']' :: back = other ++ ']' :: rest) : front = other ∧ back = rest := by
  have equal : front = other := by
    rw [← takeWhile_ne noBracket back, same, takeWhile_ne noOther rest]
  subst equal
  exact ⟨rfl, by simpa using same⟩

/-- The names are lower-case letters. -/
theorem not_mem_name {name : List Char} {n : NamedClass} (named : NamedClass.ofName? name = some n) {d : Char}
    (other : d.isLower = false) : d ∉ name := by
  obtain ⟨entry, found, -⟩ := Option.map_eq_some_iff.mp named
  have listed := List.mem_of_find?_eq_some found
  obtain rfl : entry.1.toList = name := by simpa using List.find?_some found
  have lower : (NamedClass.all.all fun e => e.1.toList.all Char.isLower) = true := by decide
  intro member
  have letter : d.isLower = true := List.all_eq_true.mp (List.all_eq_true.mp lower entry listed) d member
  simp [other] at letter

private theorem namedClass_of_names {k : ClassPiece} {n : NamedClass} (names : k.Names n) (rest : List Char) :
    namedClass? (k.text.tail ++ rest) = some (.named false n, rest) := by
  obtain ⟨name, named, text⟩ := names
  have colon : ':' ∉ name := not_mem_name named (by decide)
  have taken := takeWhile_ne colon (']' :: rest)
  have dropped := dropWhile_ne colon (']' :: rest)
  have unmarked (more : List Char) : name ++ ':' :: ']' :: rest ≠ '^' :: more := by
    intro split
    cases name with
    | nil => simp at split
    | cons c name =>
      obtain ⟨rfl, -⟩ := List.cons.inj split
      exact not_mem_name named (by decide) List.mem_cons_self
  rw [text]
  simp only [List.tail_cons, List.cons_append, List.append_assoc, List.nil_append, namedClass?]
  split
  · rename_i back split
    rw [dropped] at split
    obtain rfl : rest = back := by simpa using split
    rw [taken, named]
    rfl
  · rename_i other
    exact absurd dropped (other rest)

/-- The text of members does not go on with a caret that means something. -/
theorem members_ne_marked (ms : List Member) (rest : List Char) :
    ms.flatMap Member.text ≠ ':' :: (['^'] ++ rest) := by
  intro split
  cases ms with
  | nil => simp at split
  | cons m ms =>
    have behind := members_head ms (d := '^') (by decide) (by decide) []
    rw [List.flatMap_cons] at split
    cases m with
    | one c =>
      rcases (memberText_charText c).eq_or_eq with whole | escaped
      · obtain ⟨-, later⟩ : c = ':' ∧ ms.flatMap Member.text = '^' :: rest := by simpa [Member.text, whole] using split
        simp [later] at behind
      · simp [Member.text, escaped] at split
    | range first last =>
      rcases (memberText_charText first).eq_or_eq with whole | escaped
      · simp [Member.text, whole] at split
      · simp [Member.text, escaped] at split

/-- Only a class that spells a name is read as a named class. -/
theorem names_of_namedClass {k : ClassPiece} {ss : List Sign} {item : ClassItem} {rest : List Char}
    (scanned : Sign.AllScanned (.charClass k :: ss)) (read : namedClass? (k.text.tail ++ signsText ss) = some (item, rest)) :
    ∃ n, k.Names n ∧ item = .named false n ∧ rest = signsText ss := by
  obtain ⟨isNegated, ms, isClosed⟩ := k
  obtain ⟨marked, name, n, named, rfl, split⟩ := namedClass_eq_some read
  have bracket : ']' ∈ (ClassPiece.text ⟨isNegated, ms, isClosed⟩).tail ++ signsText ss := by
    rw [split]
    simp
  simp only [ClassPiece.text, List.tail_cons, List.append_assoc] at split
  cases isNegated with
  | true => simp at split
  | false =>
    cases isClosed with
    | false => exact absurd bracket (not_mem_unclosed scanned rfl)
    | true =>
      have whole : ms.flatMap Member.text ++ ']' :: signsText ss =
          (':' :: ((if marked then ['^'] else []) ++ (name ++ [':']))) ++ ']' :: rest := by
        simpa using split
      have noOther : ']' ∉ ':' :: ((if marked then ['^'] else []) ++ (name ++ [':'])) := by
        have inName : ']' ∉ name := not_mem_name named (by decide)
        cases marked <;> simp [inName]
      obtain ⟨inner, rfl⟩ := split_at_bracket scanned.1 noOther whole
      cases marked with
      | true => exact absurd inner (members_ne_marked ms _)
      | false => exact ⟨n, ⟨name, named, by simp [ClassPiece.text, inner]⟩, rfl, rfl⟩

/-! ## Reading signs -/

/-- A character is an item of its own where no dash follows it. -/
theorem classItems_one {s : Sign} {c : Char} {ss : List Sign} (char : s.char? = some c)
    (scanned : Sign.AllScanned (s :: ss)) (single : ss.head? ≠ some (.plain '-'))
    (noOperation : s = .plain '&' ∨ s = .plain '~' → ss.head? ≠ some s) (isNegated : Bool) (steps : Nat)
    (items : List ClassItem) :
    classItems isNegated (steps + 1) items (signsText (s :: ss)) =
      classItems isNegated steps (.range c c :: items) (signsText ss) := by
  obtain ⟨spelled, notOpen, notClose, -⟩ := charText_of_char char scanned
  have apart : (signsText ss).head? ≠ some '-' := by
    rwa [ne_eq, signsText_head (by simp)]
  have item := spelled.classItem_one (signsText_ne_nil ss) (fun d back same => by simp [same] at apart)
    (fun same => by simp [same] at apart)
  rw [signsText_cons, spelled.classItems_step isNegated steps items _ notOpen notClose, item]
  intro d operation alone
  rw [ne_eq, signsText_head operation]
  obtain rfl := text_eq_plain char alone
  rcases operation with rfl | rfl | rfl
  · exact noOperation (.inl rfl)
  · exact single
  · exact noOperation (.inr rfl)

/-- A character that is no dash is not taken for a set operation in front of one. -/
theorem not_operation {s : Sign} {c : Char} (char : s.char? = some c) (noDash : s ≠ .plain '-') (rest : List Char) {d : Char}
    (operation : d = '&' ∨ d = '-' ∨ d = '~') (alone : s.text = [d]) : ('-' :: rest).head? ≠ some d := by
  obtain rfl := text_eq_plain char alone
  rcases operation with rfl | rfl | rfl
  · simp
  · exact absurd rfl noDash
  · simp

/-- A character with a dash behind it starts a range, unless that is a dash again. -/
theorem classItems_range {s : Sign} {c d : Char} {ss : List Sign} (char : s.char? = some c)
    (scanned : Sign.AllScanned (s :: ss)) (noDash : s ≠ .plain '-') {text : List Char} (ended : CharText text d)
    (noDifference : text ≠ ['-']) (notBracket : text ≠ [']']) (isNegated : Bool) (steps : Nat) (items : List ClassItem)
    (rest : List Char) :
    classItems isNegated (steps + 1) items (s.text ++ '-' :: (text ++ rest)) =
      if d < c then .error .invalidRange else classItems isNegated steps (.range c d :: items) rest := by
  obtain ⟨spelled, notOpen, notClose, -⟩ := charText_of_char char scanned
  have item := spelled.classItem_range ended noDifference notBracket rest
  rw [spelled.classItems_step isNegated steps items _ notOpen notClose fun e => not_operation char noDash _, item]
  by_cases reversed : d < c <;> simp [reversed]

/-- The range may end with another character. -/
theorem classItems_range_char {s e : Sign} {c d : Char} {ss : List Sign} (char : s.char? = some c)
    (scanned : Sign.AllScanned (s :: .plain '-' :: e :: ss)) (noDash : s ≠ .plain '-') (ended : e.char? = some d)
    (noDifference : e ≠ .plain '-') (isNegated : Bool) (steps : Nat) (items : List ClassItem) :
    classItems isNegated (steps + 1) items (signsText (s :: .plain '-' :: e :: ss)) =
      if d < c then .error .invalidRange else classItems isNegated steps (.range c d :: items) (signsText ss) := by
  obtain ⟨-, -, -, scannedDash⟩ := charText_of_char char scanned
  obtain ⟨spelled, -, notBracket, -⟩ := charText_of_char ended scannedDash.2
  rw [signsText_dash, signsText_cons]
  exact classItems_range char scanned noDash spelled (fun alone => noDifference (text_eq_plain ended alone)) notBracket
    isNegated steps items (signsText ss)

/-- The range may end with the opening bracket of a class, of which only the rest is read then. -/
theorem classItems_range_class {s : Sign} {c : Char} {k : ClassPiece} {ss : List Sign} (char : s.char? = some c)
    (scanned : Sign.AllScanned (s :: .plain '-' :: .charClass k :: ss)) (noDash : s ≠ .plain '-') (isNegated : Bool)
    (steps : Nat) (items : List ClassItem) :
    classItems isNegated (steps + 1) items (signsText (s :: .plain '-' :: .charClass k :: ss)) =
      if '[' < c then .error .invalidRange
      else classItems isNegated steps (.range c '[' :: items) (k.text.tail ++ signsText ss) := by
  rw [signsText_dash, signsText_charClass]
  exact classItems_range char scanned noDash (.plain (by decide)) (by decide) (by decide) isNegated steps items _

/-- A class that is swallowed from behind its opening bracket ends the class that swallows it. -/
theorem classItems_inner (k : ClassPiece) (closed : k.isClosed = true) (isNegated : Bool) (steps : Nat)
    (items : List ClassItem) (rest : List Char) (enough : k.text.tail.length ≤ steps) :
    classItems isNegated steps items (k.text.tail ++ rest) =
      if ∀ m ∈ k.members, m.IsOrdered then .ok (.oneOf isNegated (items.reverse ++ k.innerItems), rest)
      else .error .invalidRange := by
  obtain ⟨marked, ms, isClosed⟩ := k
  obtain rfl : isClosed = true := closed
  have sized := members_length ms
  cases marked with
  | false =>
    simp only [ClassPiece.text, Bool.false_eq_true, if_false, if_true, List.tail_cons, List.length_append,
      List.length_cons, List.length_nil] at enough
    have read := classItems_members isNegated steps items ms rest (by omega)
    simpa [ClassPiece.text, ClassPiece.innerItems] using read
  | true =>
    simp only [ClassPiece.text, if_true, List.tail_cons, List.length_append, List.length_cons, List.length_nil] at enough
    obtain ⟨steps, rfl⟩ : ∃ fewer, steps = fewer + 1 := ⟨steps - 1, by omega⟩
    have caret : CharText ['^'] '^' := .plain (by decide)
    have apart := members_head ms (d := '-') (by decide) (by decide) rest
    have step := caret.classItems_step isNegated steps items (ms.flatMap Member.text ++ ']' :: rest) (by decide)
      (by decide) (by rintro d (rfl | rfl | rfl) alone <;> simp at alone)
    rw [caret.classItem_one (by simp) (fun d back same => by simp [same] at apart)
      (fun same => by simp [same] at apart)] at step
    have read := classItems_members isNegated steps (.range '^' '^' :: items) ms rest (by omega)
    simpa [ClassPiece.text, ClassPiece.innerItems] using step.trans read

/-- Every sign takes a step of its own. -/
theorem exists_fewer {s : Sign} {ss : List Sign} {steps : Nat} (enough : (signsText (s :: ss)).length ≤ steps) :
    ∃ fewer, steps = fewer + 1 ∧ (signsText ss).length ≤ fewer := by
  have positive := s.text_length_pos
  rw [signsText_cons, List.length_append] at enough
  exact ⟨steps - 1, by omega, by omega⟩

/-- What a class swallows until it runs into another class is read as its items. -/
theorem classItems_of_runsInto {ss out : List Sign} {read : List ClassItem} (runs : RunsInto ss read out)
    (scanned : Sign.AllScanned ss) (isNegated : Bool) (steps : Nat) (items : List ClassItem)
    (enough : (signsText ss).length ≤ steps) :
    classItems isNegated steps items (signsText ss) = .ok (.oneOf isNegated (items.reverse ++ read), signsText out) := by
  induction runs generalizing items steps with
  | @closes s c k out char noDash before closed ordered =>
    obtain ⟨steps, rfl, fits⟩ := exists_fewer enough
    have inner : k.text.tail.length ≤ steps := by
      simp only [signsText_cons, List.length_append, Sign.text, List.length_tail] at fits ⊢
      omega
    rw [classItems_range_class char scanned noDash, if_neg (Char.not_lt.mpr before),
      classItems_inner k closed isNegated steps _ _ inner, if_pos ordered]
    simp
  | @one s c rest out read char single noOperation later ih =>
    obtain ⟨steps, rfl, fits⟩ := exists_fewer enough
    obtain ⟨-, -, -, scannedRest⟩ := charText_of_char char scanned
    rw [classItems_one char scanned single noOperation, ih scannedRest _ _ fits]
    simp
  | @range s e c d rest out read char noDash ended noDifference ordered later ih =>
    obtain ⟨steps, rfl, fits⟩ := exists_fewer enough
    obtain ⟨-, -, -, scannedDash⟩ := charText_of_char char scanned
    obtain ⟨-, -, -, scannedRest⟩ := charText_of_char ended scannedDash.2
    have shorter : (signsText rest).length ≤ steps := by
      simp only [signsText_cons, List.length_append] at fits
      omega
    rw [classItems_range_char char scanned noDash ended noDifference, if_neg (Char.not_lt.mpr ordered),
      ih scannedRest _ _ shorter]
    simp
  | @named k n rest out read names later ih =>
    obtain ⟨steps, rfl, fits⟩ := exists_fewer enough
    rw [signsText_charClass, classItems, namedClass_of_names names]
    simp only
    rw [ih scanned.2.2 _ _ fits]
    simp

/-- Two signs of a set operation in a row are not read. -/
theorem classItems_double {d : Char} (operation : d = '&' ∨ d = '-' ∨ d = '~') {isNegated : Bool} {steps : Nat}
    {items : List ClassItem} {rest : List Char} {result : CharTest × List Char} :
    classItems isNegated steps items (d :: d :: rest) ≠ .ok result := by
  intro read
  cases steps with
  | zero => simp [classItems] at read
  | succ steps => rcases operation with rfl | rfl | rfl <;> simp [classItems] at read

private theorem signsText_plain_head {d : Char} {ss : List Sign} (front : ss.head? = some (.plain d)) :
    ∃ rest, signsText ss = d :: rest := by
  cases ss with
  | nil => simp at front
  | cons s ss =>
    obtain rfl : s = .plain d := by simpa using front
    exact ⟨_, rfl⟩

/-- Two dashes behind a character are a set operation as well. -/
theorem not_read_difference {s : Sign} {c : Char} {ss : List Sign} (char : s.char? = some c)
    (scanned : Sign.AllScanned (s :: .plain '-' :: .plain '-' :: ss)) (noDash : s ≠ .plain '-') {isNegated : Bool}
    {steps : Nat} {items : List ClassItem} {result : CharTest × List Char} :
    classItems isNegated (steps + 1) items (signsText (s :: .plain '-' :: .plain '-' :: ss)) ≠ .ok result := by
  intro read
  obtain ⟨spelled, notOpen, notClose, -⟩ := charText_of_char char scanned
  have item : classItem (s.text ++ '-' :: '-' :: signsText ss) = .ok (.range c c, '-' :: '-' :: signsText ss) :=
    spelled.classItem_one (by simp) (by simp) (by simp)
  rw [signsText_dash, signsText_cons, Sign.text, List.singleton_append,
    spelled.classItems_step isNegated steps items _ notOpen notClose fun e => not_operation char noDash _, item] at read
  exact classItems_double (.inr (.inl rfl)) read

/-- Where a character and a dash are read, the dash makes a range: up to another character, or up to the opening
    bracket of a class that is closed. -/
theorem range_of_classItems {s : Sign} {c : Char} {ss : List Sign} (char : s.char? = some c)
    (scanned : Sign.AllScanned (s :: .plain '-' :: ss)) (noDash : s ≠ .plain '-') {isNegated : Bool} {steps : Nat}
    {items : List ClassItem} (enough : (signsText (.plain '-' :: ss)).length ≤ steps) {t : CharTest} {rest : List Char}
    (read : classItems isNegated (steps + 1) items (signsText (s :: .plain '-' :: ss)) = .ok (t, rest)) :
    (∃ k out, ss = .charClass k :: out ∧ c ≤ '[' ∧ k.isClosed = true ∧ ∀ m ∈ k.members, m.IsOrdered) ∨
      ∃ e d more, ss = e :: more ∧ e.char? = some d ∧ e ≠ .plain '-' ∧ c ≤ d ∧
        classItems isNegated steps (.range c d :: items) (signsText more) = .ok (t, rest) := by
  obtain ⟨-, -, -, -, scannedRest⟩ := charText_of_char char scanned
  cases ss with
  | nil =>
    have step := classItems_range char scanned noDash (.plain (by decide) : CharText ['$'] '$') (by decide) (by decide)
      isNegated steps items []
    rw [signsText_dash, show signsText [] = ['$'] ++ [] from rfl, step] at read
    split_ifs at read
    cases steps <;> simp [classItems] at read
  | cons e more =>
    cases ended : e.char? with
    | some d =>
      by_cases difference : e = .plain '-'
      · subst difference
        exact absurd read (not_read_difference char scanned noDash)
      · rw [classItems_range_char char scanned noDash ended difference] at read
        split_ifs at read with reversed
        exact .inr ⟨e, d, more, rfl, ended, difference, Char.not_lt.mp reversed, read⟩
    | none =>
      obtain ⟨k, rfl⟩ := charClass_of_char ended
      rw [classItems_range_class char scanned noDash] at read
      split_ifs at read with reversed
      cases closed : k.isClosed with
      | false => exact absurd (mem_of_classItems read) (not_mem_unclosed scannedRest closed)
      | true =>
        have inner : k.text.tail.length ≤ steps := by
          simp only [signsText_cons, List.length_append, Sign.text, List.length_tail] at enough ⊢
          omega
        rw [classItems_inner k closed isNegated steps _ _ inner] at read
        split_ifs at read with ordered
        exact .inl ⟨k, more, rfl, Char.not_lt.mp reversed, closed, ordered⟩

/-- Where the items of a class that is not closed are read, it runs into another class. -/
theorem runsInto_of_classItems {ss : List Sign} (scanned : Sign.AllScanned ss) {isNegated : Bool} {steps : Nat}
    {items : List ClassItem} (enough : (signsText ss).length ≤ steps) {t : CharTest} {rest : List Char}
    (read : classItems isNegated steps items (signsText ss) = .ok (t, rest)) :
    ∃ swallowed out, RunsInto ss swallowed out := by
  induction steps generalizing items ss with
  | zero => exact absurd (List.eq_nil_of_length_eq_zero (Nat.le_zero.mp enough)) (signsText_ne_nil ss)
  | succ steps ih =>
    cases ss with
    | nil => simp [signsText, classItems, classItem, classChar, bind, Except.bind] at read
    | cons s ss =>
      obtain ⟨fewer, same, fits⟩ := exists_fewer enough
      obtain rfl : steps = fewer := by omega
      cases char : s.char? with
      | none =>
        obtain ⟨k, rfl⟩ := charClass_of_char char
        rw [signsText_charClass, classItems] at read
        cases named : namedClass? (k.text.tail ++ signsText ss) with
        | none => simp [named] at read
        | some result =>
          obtain ⟨item, back⟩ := result
          obtain ⟨n, names, rfl, rfl⟩ := names_of_namedClass scanned named
          rw [named] at read
          obtain ⟨swallowed, out, later⟩ := ih scanned.2.2 fits read
          exact ⟨_, out, .named names later⟩
      | some c =>
        obtain ⟨-, -, -, scannedRest⟩ := charText_of_char char scanned
        by_cases dash : ss.head? = some (.plain '-')
        · obtain ⟨ss, rfl⟩ : ∃ more, ss = .plain '-' :: more := by
            cases ss with
            | nil => simp at dash
            | cons e more => exact ⟨more, by simpa using dash⟩
          by_cases noDash : s = .plain '-'
          · subst noDash
            exact absurd read (classItems_double (.inr (.inl rfl)))
          · rcases range_of_classItems char scanned noDash fits read with
              ⟨k, out, rfl, before, closed, ordered⟩ | ⟨e, d, more, rfl, ended, noDifference, ordered, read⟩
            · exact ⟨_, out, .closes char noDash before closed ordered⟩
            · have shorter : (signsText more).length ≤ steps := by
                simp only [signsText_cons, List.length_append] at fits
                omega
              obtain ⟨-, -, -, scannedMore⟩ := charText_of_char ended scannedRest.2
              obtain ⟨swallowed, out, later⟩ := ih scannedMore shorter read
              exact ⟨_, out, .range char noDash ended noDifference ordered later⟩
        · have noOperation : s = .plain '&' ∨ s = .plain '~' → ss.head? ≠ some s := by
            intro operation front
            rcases operation with rfl | rfl
            · obtain ⟨more, text⟩ := signsText_plain_head front
              rw [signsText_cons, text] at read
              exact classItems_double (.inl rfl) read
            · obtain ⟨more, text⟩ := signsText_plain_head front
              rw [signsText_cons, text] at read
              exact classItems_double (.inr (.inr rfl)) read
          rw [classItems_one char scanned dash noOperation] at read
          obtain ⟨swallowed, out, later⟩ := ih scannedRest fits read
          exact ⟨_, out, .one char dash noOperation later⟩

/-- The class that is run into is one of the signs, and what is left is what follows it. -/
theorem split_of_runsInto {ss out : List Sign} {items : List ClassItem} (runs : RunsInto ss items out) :
    ∃ front k, ss = front ++ .charClass k :: out := by
  induction runs with
  | @closes s c k out => exact ⟨[s, .plain '-'], k, rfl⟩
  | @one s c rest out items char single noOperation later ih =>
    obtain ⟨front, k, rfl⟩ := ih
    exact ⟨s :: front, k, rfl⟩
  | @range s e c d rest out items char noDash ended noDifference ordered later ih =>
    obtain ⟨front, k, rfl⟩ := ih
    exact ⟨s :: .plain '-' :: e :: front, k, rfl⟩
  | @named k n rest out items names later ih =>
    obtain ⟨front, other, rfl⟩ := ih
    exact ⟨.charClass k :: front, other, rfl⟩

/-- A class without members goes on behind its bracket. -/
theorem readClass_empty (k : ClassPiece) (closed : k.isClosed = true) (empty : k.members = []) (rest : List Char) :
    readClass (k.text.tail ++ rest) = classItems k.isNegated rest.length [.range ']' ']'] rest := by
  obtain ⟨isNegated, ms, isClosed⟩ := k
  obtain rfl : isClosed = true := closed
  obtain rfl : ms = [] := empty
  cases isNegated <;> simp [ClassPiece.text, readClass, leadingDashes]

end OpenSound.Regex
