import OpenSound.Pattern.RegexText
import OpenSound.Proofs.Pattern.Scanning

/-!
# Reading classes

A class that compiles is read back as the test of its members. A class without its closing bracket is not read at
all.
-/

namespace OpenSound.Pattern

/-- What a member becomes in a regular expression. -/
def Member.item : Member → ClassItem
  | one c => .range c c
  | range first last => .range first last

/-- The test of a class. -/
def ClassPiece.test (k : ClassPiece) : CharTest := .oneOf k.isNegated (k.members.map Member.item)

instance (m : Member) : Decidable m.IsOrdered :=
  match m with
  | .one _ => .isTrue trivial
  | .range first last => inferInstanceAs (Decidable (first ≤ last))

end OpenSound.Pattern

namespace OpenSound.Regex

open Pattern (Member ClassPiece memberText literalText isRegexSpecial)

/-- The two texts of a character: itself, unless it is a backslash, and itself after a backslash. -/
inductive CharText : List Char → Char → Prop
  | plain {c : Char} (notEscape : c ≠ '\\') : CharText [c] c
  | escaped {c : Char} : CharText ['\\', c] c

namespace CharText

private theorem classChar_eq {text : List Char} {c : Char} (spelled : CharText text c) (rest : List Char) :
    classChar (text ++ rest) = .ok (c, rest) := by
  cases spelled with
  | plain notEscape => simp [classChar, notEscape]
  | escaped => rfl

theorem eq_or_eq {text : List Char} {c : Char} (spelled : CharText text c) : text = [c] ∨ text = ['\\', c] := by
  cases spelled with
  | plain => exact .inl rfl
  | escaped => exact .inr rfl

/-- A character in front of something that makes no range of it is an item of its own. -/
theorem classItem_one {text : List Char} {c : Char} (spelled : CharText text c) {rest : List Char} (more : rest ≠ [])
    (single : ∀ d back, rest = '-' :: d :: back → d = '-' ∨ d = ']') (last : rest ≠ ['-']) :
    classItem (text ++ rest) = .ok (.range c c, rest) := by
  unfold classItem
  rw [spelled.classChar_eq rest]
  simp only [bind, Except.bind]
  split
  · exact absurd rfl more
  · rfl
  · rfl
  · rename_i back notBracket notDash
    cases back with
    | nil => exact absurd rfl last
    | cons d back =>
      rcases single d back rfl with rfl | rfl
      · exact absurd rfl (notDash back)
      · exact absurd rfl (notBracket back)
  · rfl

/-- Two characters with a dash between them are a range. -/
theorem classItem_range {text other : List Char} {c d : Char} (spelled : CharText text c) (ended : CharText other d)
    (notDash : other ≠ ['-']) (notBracket : other ≠ [']']) (rest : List Char) :
    classItem (text ++ '-' :: (other ++ rest)) = if d < c then .error .invalidRange else .ok (.range c d, rest) := by
  unfold classItem
  rw [spelled.classChar_eq]
  simp only [bind, Except.bind]
  cases ended with
  | plain notEscape =>
    have notDash : d ≠ '-' := fun same => notDash (by rw [same])
    have notBracket : d ≠ ']' := fun same => notBracket (by rw [same])
    simp [notDash, notBracket, classChar, notEscape]
  | escaped => simp [classChar]

/-- Where a character stands at the front of an item, the item is read. Only two signs of a set operation in a row,
    and the brackets, are something else. -/
theorem classItems_step {text : List Char} {c : Char} (spelled : CharText text c) (isNegated : Bool) (steps : Nat)
    (items : List ClassItem) (rest : List Char) (notOpen : text ≠ ['[']) (notClose : text ≠ [']'])
    (notDouble : ∀ d, d = '&' ∨ d = '-' ∨ d = '~' → text = [d] → rest.head? ≠ some d) :
    classItems isNegated (steps + 1) items (text ++ rest) =
      match classItem (text ++ rest) with
      | .error e => .error e
      | .ok (item, rest) => classItems isNegated steps (item :: items) rest := by
  have notSign (d : Char) (sign : d = '&' ∨ d = '-' ∨ d = '~') (tail : List Char) : text ++ rest ≠ d :: d :: tail := by
    intro split
    cases spelled with
    | plain =>
      obtain ⟨rfl, rfl⟩ : c = d ∧ rest = d :: tail := by simpa using split
      exact notDouble c sign rfl rfl
    | escaped =>
      obtain ⟨rfl, -⟩ : '\\' = d ∧ c :: rest = d :: tail := by simpa using split
      simp at sign
  have apart : text ++ rest ≠ [] ∧ (∀ back, text ++ rest ≠ ']' :: back) ∧ ∀ back, text ++ rest ≠ '[' :: back := by
    cases spelled <;> simp_all
  exact classItems.eq_8 isNegated items _ steps apart.1 apart.2.1 apart.2.2 (notSign '&' (by simp))
    (notSign '-' (by simp)) (notSign '~' (by simp))

end CharText

private theorem literalText_charText (c : Char) : CharText (literalText c) c := by
  unfold literalText
  split
  · exact .escaped
  · rename_i plain
    refine .plain fun same => plain ?_
    rw [same]
    decide

theorem memberText_charText (c : Char) : CharText (memberText c) c := by
  unfold memberText
  split
  · exact .escaped
  · exact literalText_charText c

/-- What means something between the brackets of a class. -/
def classSigns : List Char := ['&', '~', '-', '^', '[', ']']

/-- Whatever means something in a class is escaped in the text of a member. -/
theorem memberText_ne_sign {c d : Char} (sign : d ∈ classSigns) : memberText c ≠ [d] := by
  intro plain
  rcases (memberText_charText c).eq_or_eq with whole | escaped
  · obtain rfl : c = d := by simpa using whole.symm.trans plain
    simp only [classSigns, List.mem_cons, List.not_mem_nil, or_false] at sign
    rcases sign with rfl | rfl | rfl | rfl | rfl | rfl <;> revert plain <;> decide
  · simp [escaped] at plain

private theorem memberText_head {c d : Char} (sign : d ∈ classSigns) (rest : List Char) :
    (memberText c ++ rest).head? ≠ some d := by
  intro front
  rcases (memberText_charText c).eq_or_eq with whole | escaped
  · obtain rfl : c = d := by simpa [whole] using front
    exact memberText_ne_sign sign whole
  · obtain rfl : '\\' = d := by simpa [escaped] using front
    simp [classSigns] at sign

private theorem member_head (m : Member) {d : Char} (sign : d ∈ classSigns) (rest : List Char) :
    (m.text ++ rest).head? ≠ some d := by
  cases m with
  | one c => exact memberText_head sign rest
  | range first last =>
    rw [Member.text, List.append_assoc]
    exact memberText_head sign _

theorem members_head (ms : List Member) {d : Char} (sign : d ∈ classSigns) (notClose : d ≠ ']') (rest : List Char) :
    (ms.flatMap Member.text ++ ']' :: rest).head? ≠ some d := by
  cases ms with
  | nil => simp [Ne.symm notClose]
  | cons m ms =>
    rw [List.flatMap_cons, List.append_assoc]
    exact member_head m sign _

/-- One member is read as one item, unless it is a range that is not ordered. -/
theorem classItems_member (isNegated : Bool) (steps : Nat) (items : List ClassItem) (m : Member) (rest : List Char)
    (more : rest ≠ []) (apart : rest.head? ≠ some '-') :
    classItems isNegated (steps + 1) items (m.text ++ rest) =
      if m.IsOrdered then classItems isNegated steps (m.item :: items) rest else .error .invalidRange := by
  have free (c d : Char) (sign : d = '&' ∨ d = '-' ∨ d = '~') (back : List Char) (plain : memberText c = [d]) :
      back.head? ≠ some d := by
    refine absurd plain (memberText_ne_sign ?_)
    rcases sign with rfl | rfl | rfl <;> decide
  cases m with
  | one c =>
    have item := (memberText_charText c).classItem_one more (by rintro d back rfl; simp at apart)
      (by rintro rfl; simp at apart)
    rw [Member.text, (memberText_charText c).classItems_step isNegated steps items rest
      (memberText_ne_sign (by decide)) (memberText_ne_sign (by decide)) (fun d sign => free c d sign rest), item]
    simp [Member.IsOrdered, Member.item]
  | range first last =>
    have item := (memberText_charText first).classItem_range (memberText_charText last)
      (memberText_ne_sign (by decide)) (memberText_ne_sign (by decide)) rest
    rw [Member.text, List.append_assoc, List.cons_append,
      (memberText_charText first).classItems_step isNegated steps items _ (memberText_ne_sign (by decide))
        (memberText_ne_sign (by decide)) (fun d sign => free first d sign _), item]
    by_cases ordered : first ≤ last
    · have notBefore : ¬last < first := Char.not_lt.mpr ordered
      simp [Member.IsOrdered, Member.item, ordered, notBefore]
    · have before : last < first := Char.not_le.mp ordered
      simp [Member.IsOrdered, ordered, before]

private theorem member_length_pos (m : Member) : 0 < m.text.length := by
  cases m with
  | one c => rcases (memberText_charText c).eq_or_eq with whole | escaped <;> simp [Member.text, *]
  | range first last =>
    simp only [Member.text, List.length_append, List.length_cons]
    omega

theorem members_length (ms : List Member) : ms.length ≤ (ms.flatMap Member.text).length := by
  induction ms with
  | nil => simp
  | cons m ms ih =>
    have positive := member_length_pos m
    simp only [List.length_cons, List.flatMap_cons, List.length_append]
    omega

/-- The members in front of a closing bracket are read one after another. -/
theorem classItems_members (isNegated : Bool) (steps : Nat) (items : List ClassItem) (ms : List Member)
    (rest : List Char) (enough : ms.length < steps) :
    classItems isNegated steps items (ms.flatMap Member.text ++ ']' :: rest) =
      if ∀ m ∈ ms, m.IsOrdered then .ok (.oneOf isNegated (items.reverse ++ ms.map Member.item), rest)
      else .error .invalidRange := by
  obtain ⟨steps, rfl⟩ := Nat.exists_eq_add_one_of_ne_zero (Nat.ne_of_gt (Nat.zero_lt_of_lt enough))
  induction ms generalizing items steps with
  | nil => simp [classItems]
  | cons m ms ih =>
    obtain ⟨steps, rfl⟩ : ∃ fewer, steps = fewer + 1 := ⟨steps - 1, by simp at enough; omega⟩
    rw [List.flatMap_cons, List.append_assoc, classItems_member isNegated _ items m _ (by simp)
      (members_head ms (by decide) (by decide) rest), ih (m.item :: items) steps (by simpa using enough)]
    by_cases ordered : m.IsOrdered <;> simp [ordered]

/-- A closed class with members is read as its test, unless one of its ranges is not ordered. -/
theorem readClass_closed (k : ClassPiece) (closed : k.isClosed = true) (nonempty : k.members ≠ []) (rest : List Char) :
    readClass (k.text.tail ++ rest) =
      if ∀ m ∈ k.members, m.IsOrdered then .ok (k.test, rest) else .error .invalidRange := by
  obtain ⟨isNegated, ms, isClosed⟩ := k
  obtain rfl : isClosed = true := closed
  have noDash := members_head ms (d := '-') (by decide) (by decide) rest
  have noCaret := members_head ms (d := '^') (by decide) (by decide) rest
  have noBracket : (ms.flatMap Member.text ++ ']' :: rest).head? ≠ some ']' := by
    cases ms with
    | nil => exact absurd rfl nonempty
    | cons m ms =>
      rw [List.flatMap_cons, List.append_assoc]
      exact member_head m (by decide) _
  have enough : ms.length < (ms.flatMap Member.text ++ ']' :: rest).length := by
    have := members_length ms
    simp only [List.length_append, List.length_cons]
    omega
  have read := classItems_members isNegated _ [] ms rest enough
  have text : (ClassPiece.text ⟨isNegated, ms, true⟩).tail ++ rest =
      (if isNegated then ['^'] else []) ++ (ms.flatMap Member.text ++ ']' :: rest) := by
    simp [ClassPiece.text]
  rw [text]
  generalize ms.flatMap Member.text ++ ']' :: rest = body at *
  cases body with
  | nil => simp at enough
  | cons c body =>
    have dashes : leadingDashes (c :: body) = ([], c :: body) := by simp_all [leadingDashes]
    cases isNegated <;> simp_all [readClass, ClassPiece.test]

private theorem classChar_suffix {cs rest : List Char} {c : Char} (read : classChar cs = .ok (c, rest)) :
    rest <:+ cs := by
  fun_cases classChar cs with
  | case1 | case2 => simp [classChar] at read
  | case3 d back =>
    obtain ⟨-, rfl⟩ : d = c ∧ back = rest := by simpa [classChar] using read
    exact ⟨['\\', d], rfl⟩
  | case4 d back notLast notEscape =>
    rw [classChar.eq_4 d back notLast notEscape] at read
    obtain ⟨-, rfl⟩ : d = c ∧ back = rest := by simpa using read
    exact ⟨[d], rfl⟩

private theorem classItem_suffix {cs rest : List Char} {item : ClassItem} (read : classItem cs = .ok (item, rest)) :
    rest <:+ cs := by
  unfold classItem at read
  cases first : classChar cs with
  | error => simp [first, bind, Except.bind] at read
  | ok result =>
    obtain ⟨c, back⟩ := result
    have begun := classChar_suffix first
    simp only [first, bind, Except.bind] at read
    split at read
    · simp at read
    · simp_all
    · simp_all
    · rename_i more _ _
      cases second : classChar more with
      | error => simp [second] at read
      | ok result =>
        obtain ⟨d, other⟩ := result
        simp only [second] at read
        split_ifs at read with reversed
        obtain rfl : other = rest := by simp_all
        exact (classChar_suffix second).trans ((List.suffix_cons '-' more).trans begun)
    · simp_all

/-- A named class is a colon, perhaps a caret, a name, a colon and a bracket. -/
theorem namedClass_eq_some {cs rest : List Char} {item : ClassItem} (read : namedClass? cs = some (item, rest)) :
    ∃ isNegated name n, NamedClass.ofName? name = some n ∧ item = .named isNegated n ∧
      cs = ':' :: ((if isNegated then ['^'] else []) ++ (name ++ ':' :: ']' :: rest)) := by
  unfold namedClass? at read
  split at read
  · rename_i body
    split at read
    rename_i isNegated more front
    split at read
    · rename_i back dropped
      obtain ⟨n, named, result⟩ := Option.map_eq_some_iff.mp read
      obtain ⟨rfl, rfl⟩ := Prod.mk.inj result
      have whole : more.takeWhile (· ≠ ':') ++ ':' :: ']' :: back = more := by
        rw [← dropped, List.takeWhile_append_dropWhile]
      refine ⟨isNegated, more.takeWhile (· ≠ ':'), n, named, rfl, ?_⟩
      rw [whole]
      split at front
      · obtain ⟨rfl, rfl⟩ := Prod.mk.inj front
        rfl
      · obtain ⟨rfl, rfl⟩ := Prod.mk.inj front
        rfl
    · simp at read
  · simp at read

/-- Whatever was read up to a closing bracket has one. -/
theorem mem_of_classItems {isNegated : Bool} {steps : Nat} {items : List ClassItem} {cs rest : List Char} {t : CharTest}
    (read : classItems isNegated steps items cs = .ok (t, rest)) : ']' ∈ cs := by
  fun_induction classItems isNegated steps items cs with
  | case1 | case2 | case5 | case6 | case7 | case8 | case9 => simp_all
  | case3 => simp
  | case4 steps items back item more named ih =>
    obtain ⟨isNegated, name, n, -, -, rfl⟩ := namedClass_eq_some named
    simp
  | case10 steps items cs notEmpty notClose notOpen notAnd notDash notTilde item more one ih =>
    exact (classItem_suffix one).subset (ih read)

/-- A class is the items of some end of its text. -/
theorem readClass_items (cs : List Char) :
    ∃ isNegated steps items back, back <:+ cs ∧ readClass cs = classItems isNegated steps items back := by
  have dropped (more : List Char) : (leadingDashes more).2 <:+ more := List.dropWhile_suffix _
  unfold readClass
  split
  rename_i isNegated more front
  have part : more <:+ cs := by
    split at front
    · obtain ⟨-, rfl⟩ := Prod.mk.inj front
      exact List.suffix_cons _ _
    · obtain ⟨-, rfl⟩ := Prod.mk.inj front
      exact List.suffix_rfl
  split
  rename_i dashes back split
  have rest : back <:+ cs := by
    have behind := (dropped more).trans part
    rwa [split] at behind
  split
  · exact ⟨_, _, _, _, (List.suffix_cons _ _).trans rest, rfl⟩
  · exact ⟨_, _, _, _, rest, rfl⟩

/-- A class is not read where there is no closing bracket. -/
theorem readClass_unclosed {cs rest : List Char} {t : CharTest} (unclosed : ']' ∉ cs) :
    readClass cs ≠ .ok (t, rest) := by
  intro read
  obtain ⟨isNegated, steps, items, back, part, same⟩ := readClass_items cs
  rw [same] at read
  exact unclosed (part.subset (mem_of_classItems read))

end OpenSound.Regex
