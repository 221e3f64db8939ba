import OpenSound.Proofs.Pattern.Meaning

/-!
# Classes and what becomes of them

A class of a pattern lasts up to the first closing bracket. If it has members and its ranges are ordered, it becomes one
class of the regular expression, which ends with the only closing bracket of its text, and whose items are its members,
one by one.
-/

namespace OpenSound.Pattern

theorem readMembers_isClosed_iff (cs : List Char) : (readMembers cs).2.1 = true ↔ ']' ∈ cs := by
  fun_induction readMembers cs with
  | case1 => simp
  | case2 => simp
  | case3 first last rest inside literal r ih => simpa [Ne.symm inside] using ih
  | case4 first last rest inside ranged r ih =>
    rw [not_or] at ranged
    simpa [Ne.symm inside, Ne.symm ranged.1] using ih
  | case5 c rest inside single r ih => simpa [Ne.symm inside] using ih

/-- A class is closed exactly if there is a bracket that closes it. -/
theorem readClass_isClosed_iff (isNegated : Bool) (cs : List Char) :
    (readClass isNegated cs).1.isClosed = true ↔ ']' ∈ cs := by
  fun_cases readClass isNegated cs with
  | case1 rest => exact readMembers_isClosed_iff ('!' :: rest)
  | case2 rest => simpa using readMembers_isClosed_iff rest
  | case3 => exact readMembers_isClosed_iff cs

/-- What opens a class in a pattern. -/
def classOpening (isNegated : Bool) : List Char := if isNegated then ['!', '['] else ['[']

/-- The text of a class ends with the only closing bracket in it. -/
theorem SpellsClass.exists_front {text : List Char} {neg : Bool} {ms : List Member} (spelled : SpellsClass text neg ms) :
    ∃ front, ']' ∉ front ∧ text = front ++ [']'] := by
  cases spelled with
  | @plain body _ good _ => exact ⟨'[' :: body, by simp [good.members.not_mem], rfl⟩
  | @markedBefore body _ good => exact ⟨'!' :: '[' :: body, by simp [good.members.not_mem], rfl⟩
  | @markedInside body _ good => exact ⟨'[' :: '!' :: body, by simp [good.members.not_mem], rfl⟩

/-- What is left behind the class is what follows the first closing bracket. -/
theorem SpellsClass.dropWhile_tail {text : List Char} {neg : Bool} {ms : List Member} (spelled : SpellsClass text neg ms)
    (rest : List Char) : ((text ++ rest).dropWhile (· ≠ ']')).tail = rest := by
  obtain ⟨front, clean, rfl⟩ := spelled.exists_front
  have before : ∀ c ∈ front, decide (c ≠ ']') = true := by
    intro c member
    exact decide_eq_true (ne_of_mem_of_not_mem member clean)
  rw [List.append_assoc, List.dropWhile_append_of_pos before]
  simp

/-- A class that is spelled in one of the three ways is taken as it was spelled. -/
theorem SpellsClass.readClass_eq {text : List Char} {isNegated neg : Bool} {ms : List Member} {cs rest : List Char}
    (spelled : SpellsClass text neg ms) (split : classOpening isNegated ++ cs = text ++ rest) :
    readClass isNegated cs = (⟨neg, ms, true⟩, rest) := by
  have cut := spelled.pieces_eq 0 rest
  have left := spelled.dropWhile_tail rest
  rw [← split] at cut left
  cases isNegated with
  | true =>
    rw [classOpening, if_pos rfl, List.cons_append, List.cons_append, pieces] at cut
    exact Prod.ext (Piece.charClass.inj (List.cons.inj cut).1) ((readClass_rest true cs).trans left)
  | false =>
    rw [classOpening, if_neg Bool.false_ne_true, List.cons_append, pieces] at cut
    exact Prod.ext (Piece.charClass.inj (List.cons.inj cut).1) ((readClass_rest false cs).trans left)

instance (m : Member) (c : Char) : Decidable (m.Covers c) :=
  match m with
  | .one d => inferInstanceAs (Decidable (c = d))
  | .range first last => inferInstanceAs (Decidable (first ≤ c ∧ c ≤ last))

/-- No member begins or ends with the bracket that closes its class. -/
theorem Members.item_eq {body : List Char} {ms : List Member} (members : Members body ms) :
    ∀ m ∈ ms, ∃ first last, m.item = .range first last ∧ first ≠ ']' ∧ last ≠ ']' := by
  induction members with
  | done => nofun
  | @one c _ _ inside _ _ ih => exact List.forall_mem_cons.mpr ⟨⟨c, c, rfl, inside, inside⟩, ih⟩
  | @range first last _ _ inside notClose _ _ ih =>
    exact List.forall_mem_cons.mpr ⟨⟨first, last, rfl, inside, notClose⟩, ih⟩

private theorem SpellsClass.exists_classBody {text : List Char} {isNegated : Bool} {ms : List Member}
    (spelled : SpellsClass text isNegated ms) : ∃ body, ClassBody body ms := by
  cases spelled with
  | plain good _ | markedBefore good | markedInside good => exact ⟨_, good⟩

/-- The text of a class is one class of a regular expression. Whatever follows, it ends with the only closing bracket in
    its text, and it is one single character in the expression around it. Its items stand for the members, one for each:
    they are ranges that do not begin or end with a bracket, and no named classes. It accepts the characters that the
    members cover, or just the others. -/
structure ClassPiece.ReadsAs (k : ClassPiece) (inner : List Char) (items : List ClassItem) : Prop where
  text : k.text = '[' :: (inner ++ [']'])
  noBracket : ']' ∉ inner
  whole : ∀ more, Regex.readClass (inner ++ ']' :: more) = .ok (.oneOf k.isNegated items, more)
  alone : ∀ steps enclosing l more, Regex.readFrom (steps + 1) enclosing l (k.text ++ more) =
    Regex.readFrom steps enclosing (l.push (.single (.oneOf k.isNegated items))) more
  each : items = k.members.map Member.item
  ranges : ∀ item ∈ items, ∃ first last, item = .range first last ∧ first ≠ ']' ∧ last ≠ ']'
  accepts : ∀ c, (CharTest.oneOf k.isNegated items).accepts c = true ↔
    if k.isNegated then ¬∃ m ∈ k.members, m.Covers c else ∃ m ∈ k.members, m.Covers c

/-- A class that compiles is read as its members, one by one. -/
theorem ClassPiece.IsGood.readsAs {k : ClassPiece} (good : k.IsGood) {body : List Char} (members : Members body k.members)
    (noBracket : ']' ∉ k.members.flatMap Member.text) :
    k.ReadsAs ((if k.isNegated then ['^'] else []) ++ k.members.flatMap Member.text) (k.members.map Member.item) := by
  have text : k.text = '[' :: ((if k.isNegated then ['^'] else []) ++ k.members.flatMap Member.text ++ [']']) := by
    rw [ClassPiece.text, good.closed, if_pos rfl]
  have read (more : List Char) := Regex.readClass_closed k good.closed good.nonempty more
  simp only [if_pos good.ordered, text, List.tail_cons, List.append_assoc, List.singleton_append] at read
  refine ⟨text, ?_, fun more => ?_, fun steps enclosing l more => ?_, rfl, ?_, fun c => ?_⟩
  · rw [List.mem_append, not_or]
    refine ⟨?_, noBracket⟩
    split <;> simp
  · rw [List.append_assoc]
    exact read more
  · rw [text, List.cons_append, List.append_assoc, List.append_assoc, Regex.readFrom, List.singleton_append, read more]
    rfl
  · intro item member
    obtain ⟨m, inside, rfl⟩ := List.mem_map.mp member
    exact members.item_eq m inside
  · refine (accepts_class k.isNegated k.members true c).trans ?_
    cases k.isNegated <;> simp

/-- A class lasts up to the first closing bracket, and without one to the end of the text. One that is spelled in any of
    the three ways is taken just as it was spelled, and these are the classes that are closed, have a member and only
    ordered ranges. The text of such a class in the regular expression is read as one class, which accepts the characters of
    its members, or just the others if it is negated. -/
theorem classes_read_back (isNegated : Bool) (cs : List Char) :
    ((readClass isNegated cs).1.isClosed = true ↔ ']' ∈ cs) ∧
    (readClass isNegated cs).2 = (cs.dropWhile (· ≠ ']')).tail ∧
    (∀ text neg ms rest, SpellsClass text neg ms → classOpening isNegated ++ cs = text ++ rest →
      readClass isNegated cs = (⟨neg, ms, true⟩, rest)) ∧
    ((readClass isNegated cs).1.IsGood →
      (∃ text, SpellsClass text (readClass isNegated cs).1.isNegated (readClass isNegated cs).1.members ∧
        classOpening isNegated ++ cs = text ++ (readClass isNegated cs).2) ∧
      ∃ inner items, (readClass isNegated cs).1.ReadsAs inner items) := by
  refine ⟨readClass_isClosed_iff isNegated cs, readClass_rest isNegated cs, ?_, fun good => ?_⟩
  · intro text neg ms rest spelled split
    exact spelled.readClass_eq split
  · obtain ⟨text, spelled, split⟩ := spellsClass_of_isGood isNegated cs good
    obtain ⟨body, members⟩ := spelled.exists_classBody
    exact ⟨⟨text, spelled, split⟩, _, _, good.readsAs members.members (scanned_readClass isNegated cs).1⟩

/-- A negated class with a range from a dash, all signs of set operations, a caret behind others, and a bracket and colons
    that look like a named class. -/
theorem classes_read_back_signs :
    ∃ k, readClass false "!--a&&~~^[:alpha:]-z]".toList = (k, "-z]".toList) ∧ k.IsGood ∧
      ∃ items, (∀ more, Regex.readClass ("^\\--a\\&\\&\\~\\~\\^\\[:alpha:".toList ++ ']' :: more) =
          .ok (.oneOf true items, more)) ∧
        (CharTest.oneOf true items).accepts 'z' = true ∧ (CharTest.oneOf true items).accepts 'A' = false := by
  have cut : readClass false "!--a&&~~^[:alpha:]-z]".toList =
      (⟨true, .range '-' 'a' :: "&&~~^[:alpha:".toList.map .one, true⟩, "-z]".toList) := by decide
  have good : (readClass false "!--a&&~~^[:alpha:]-z]".toList).1.IsGood := by
    rw [cut]
    exact ⟨rfl, by decide, by decide⟩
  obtain ⟨-, inner, items, reads⟩ := (classes_read_back false "!--a&&~~^[:alpha:]-z]".toList).2.2.2 good
  rw [cut] at good reads
  have text : ClassPiece.text ⟨true, .range '-' 'a' :: "&&~~^[:alpha:".toList.map .one, true⟩ =
      '[' :: ("^\\--a\\&\\&\\~\\~\\^\\[:alpha:".toList ++ [']']) := by decide
  obtain rfl := List.append_cancel_right (List.cons.inj (reads.text.symm.trans text)).2
  refine ⟨_, cut, good, items, reads.whole, (reads.accepts 'z').mpr (by decide), ?_⟩
  exact Bool.eq_false_iff.mpr fun accepted => absurd ((reads.accepts 'A').mp accepted) (by decide)

end OpenSound.Pattern
