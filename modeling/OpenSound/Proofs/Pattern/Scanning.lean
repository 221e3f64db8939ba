import OpenSound.Proofs.Pattern.Glob

/-!
# The pieces of well-formed patterns

The scanner cuts a text that spells a tree into the pieces of the tree, and the texts that spell one are those whose
pieces are balanced.
-/

namespace OpenSound.Pattern

theorem Members.not_mem {body : List Char} {ms : List Member} (members : Members body ms) : ']' ∉ body := by
  induction members with
  | done => simp
  | one inside _ _ ih => simp [ih, Ne.symm inside]
  | range inside opened _ _ ih => simp [ih, Ne.symm inside, Ne.symm opened]

/-- The scanner reads the members of a body up to the bracket behind it. -/
theorem Members.readMembers_eq {body : List Char} {ms : List Member} (members : Members body ms) (rest : List Char) :
    readMembers (body ++ ']' :: rest) = (ms, true, rest) := by
  induction members with
  | done => rw [List.nil_append, readMembers]
  | @one c body ms inside single later ih =>
    rw [List.cons_append]
    by_cases ranged : ∃ last more, body ++ ']' :: rest = '-' :: last :: more
    · obtain ⟨last, more, split⟩ := ranged
      have literal : last = ']' ∨ last = '-' := by
        rcases body with _ | ⟨dash, _ | ⟨second, body⟩⟩
        · simp at split
        · obtain ⟨-, rfl, -⟩ : dash = '-' ∧ ']' = last ∧ rest = more := by simpa using split
          exact .inl rfl
        · obtain ⟨rfl, rfl, -⟩ : dash = '-' ∧ second = last ∧ body ++ ']' :: rest = more := by simpa using split
          exact .inr (single second body rfl)
      rw [split] at ih ⊢
      rw [readMembers.eq_3 _ _ _ inside, if_pos literal, ih]
    · rw [readMembers.eq_4 _ _ inside (fun last more split => ranged ⟨last, more, split⟩), ih]
  | range inside opened ended later ih =>
    simp only [List.cons_append]
    rw [readMembers.eq_3 _ _ _ inside, if_neg (by simp [opened, ended]), ih]

/-- Where the scanner finds a bracket, it read the members of the text before it. -/
theorem members_of_closed (cs : List Char) (closed : (readMembers cs).2.1 = true) :
    ∃ body, cs = body ++ ']' :: (readMembers cs).2.2 ∧ Members body (readMembers cs).1 := by
  fun_induction readMembers cs with
  | case1 => simp at closed
  | case2 rest => exact ⟨[], rfl, .done⟩
  | case3 first last rest inside literal r ih =>
    obtain ⟨body, split, members⟩ := ih closed
    refine ⟨first :: body, by rw [List.cons_append, ← split], .one inside ?_ members⟩
    rintro second more rfl
    obtain rfl : last = second := by simpa using congrArg (fun cs => cs.tail.head?) split
    have := members.not_mem
    rcases literal with rfl | rfl
    · simp at this
    · rfl
  | case4 first last rest inside ranged r ih =>
    obtain ⟨body, split, members⟩ := ih closed
    rw [not_or] at ranged
    refine ⟨first :: '-' :: last :: body, ?_, .range inside ranged.1 ranged.2 members⟩
    exact congrArg (fun cs => first :: '-' :: last :: cs) split
  | case5 c rest inside single r ih =>
    obtain ⟨body, split, members⟩ := ih closed
    refine ⟨c :: body, by rw [List.cons_append, ← split], .one inside ?_ members⟩
    rintro last more rfl
    exact absurd split (single last _)

namespace ClassPiece

/-- A class that compiles to a test of its own: it is closed, it has a member, and its ranges are ordered. -/
structure IsGood (k : ClassPiece) : Prop where
  closed : k.isClosed = true
  nonempty : k.members ≠ []
  ordered : ∀ m ∈ k.members, m.IsOrdered

end ClassPiece

theorem ClassBody.isGood {body : List Char} {ms : List Member} (good : ClassBody body ms) (isNegated : Bool) :
    ClassPiece.IsGood ⟨isNegated, ms, true⟩ := ⟨rfl, good.nonempty, good.ordered⟩

theorem SpellsClass.isGood {text : List Char} {isNegated : Bool} {ms : List Member}
    (spelled : SpellsClass text isNegated ms) : ClassPiece.IsGood ⟨isNegated, ms, true⟩ := by
  cases spelled with
  | plain good _ => exact good.isGood _
  | markedBefore good => exact good.isGood _
  | markedInside good => exact good.isGood _

/-- The scanner cuts a class off the front of a text. -/
theorem SpellsClass.pieces_eq {text : List Char} {isNegated : Bool} {ms : List Member}
    (spelled : SpellsClass text isNegated ms) (depth : Nat) (rest : List Char) :
    pieces depth (text ++ rest) = .charClass ⟨isNegated, ms, true⟩ :: pieces depth rest := by
  cases spelled with
  | @plain body _ good unmarked =>
    have read := good.members.readMembers_eq rest
    have noMark (more : List Char) : body ++ ']' :: rest ≠ '!' :: more := by
      intro split
      cases body with
      | nil => simp at split
      | cons c body => simp_all
    simp [pieces, readClass.eq_2 false _ noMark, read]
  | @markedBefore body _ good =>
    have read := good.members.readMembers_eq rest
    simp only [List.cons_append, List.append_assoc, List.nil_append]
    cases body with
    | nil => exact absurd (by cases good.members; rfl) good.nonempty
    | cons c body =>
      by_cases mark : c = '!'
      · subst mark
        simp_all [pieces, readClass]
      · rw [pieces, readClass.eq_2 true _ (by simp [mark]), read]
  | markedInside good => simp [pieces, readClass, good.members.readMembers_eq rest]

/-- A class that compiles was spelled in one of the three ways. -/
theorem spellsClass_of_isGood (isNegated : Bool) (cs : List Char) (good : (readClass isNegated cs).1.IsGood) :
    ∃ text, SpellsClass text (readClass isNegated cs).1.isNegated (readClass isNegated cs).1.members ∧
      (if isNegated then ['!', '['] else ['[']) ++ cs = text ++ (readClass isNegated cs).2 := by
  unfold readClass at good ⊢
  split at good
  · rename_i rest
    cases isNegated with
    | true =>
      obtain ⟨body, split, members⟩ := members_of_closed ('!' :: rest) good.closed
      exact ⟨_, .markedBefore ⟨members, good.nonempty, good.ordered⟩, by simpa using split⟩
    | false =>
      obtain ⟨body, split, members⟩ := members_of_closed rest good.closed
      exact ⟨_, .markedInside ⟨members, good.nonempty, good.ordered⟩, by simpa using split⟩
  · rename_i unmarked
    obtain ⟨body, split, members⟩ := members_of_closed cs good.closed
    cases isNegated with
    | true => exact ⟨_, .markedBefore ⟨members, good.nonempty, good.ordered⟩, by simpa using split⟩
    | false =>
      refine ⟨_, .plain ⟨members, good.nonempty, good.ordered⟩ ?_, by simpa using split⟩
      cases body with
      | nil => simp
      | cons c body =>
        simp only [List.head?_cons, ne_eq, Option.some.injEq]
        rintro rfl
        exact unmarked _ split

mutual

/-- The pieces of a tree. -/
def Glob.pieces : Glob → List Piece
  | .done => []
  | .anyOne rest => .anyOne :: rest.pieces
  | .anyRun rest => .anyRun :: rest.pieces
  | .charClass isNegated members rest => .charClass ⟨isNegated, members, true⟩ :: rest.pieces
  | .choice alternatives rest => .openGroup :: (alternatives.pieces ++ .closeGroup :: rest.pieces)
  | .literal c rest => .literal c :: rest.pieces

def Alternatives.pieces : Alternatives → List Piece
  | .last g => g.pieces
  | .more g rest => g.pieces ++ .separator :: rest.pieces

end

mutual

/-- The scanner cuts a text that spells a tree into the pieces of the tree, whatever follows it. Only a bracket
    behind it could turn its last character into the mark of a class. -/
theorem Spells.pieces_eq {isInside : Bool} {text : List Char} {g : Glob} (depth : Nat)
    (deep : isInside = true ↔ 0 < depth) (rest : List Char) (apart : rest.head? ≠ some '[') :
    Spells isInside text g → Pattern.pieces depth (text ++ rest) = g.pieces ++ Pattern.pieces depth rest
  | .done => rfl
  | .anyOne later => by
    rw [List.cons_append, Pattern.pieces, Spells.pieces_eq depth deep rest apart later]
    rfl
  | .anyRun later => by
    rw [List.cons_append, Pattern.pieces, Spells.pieces_eq depth deep rest apart later]
    rfl
  | .charClass spelled later => by
    rw [List.append_assoc, spelled.pieces_eq, Spells.pieces_eq depth deep rest apart later]
    rfl
  | @Spells.choice _ text back _ _ inner later => by
    have opened := SpellsAny.pieces_eq (depth + 1) (Nat.succ_pos depth) ('\x7d' :: (back ++ rest)) (by simp) inner
    rw [List.cons_append, List.append_assoc, List.cons_append, Pattern.pieces, opened, Pattern.pieces,
      Nat.add_sub_cancel, Spells.pieces_eq depth deep rest apart later]
    simp [Glob.pieces]
  | @Spells.literal _ c back _ itself later => by
    obtain ⟨notOne, notRun, notClass, notOpen, notClose⟩ := itself.notWildcard
    have notMark (more : List Char) (mark : c = '!') : back ++ rest ≠ '[' :: more := by
      intro split
      cases back with
      | nil => exact apart (by rw [← List.nil_append rest, split]; rfl)
      | cons d back =>
        obtain ⟨rfl, -⟩ := List.cons.inj split
        exact itself.notMark mark rfl
    rw [List.cons_append]
    by_cases comma : c = ','
    · subst comma
      have outside : depth = 0 := by
        have := mt itself.notSeparator (by simp)
        rw [deep] at this
        omega
      rw [Pattern.pieces, if_pos outside, Spells.pieces_eq depth deep rest apart later]
      rfl
    · rw [Pattern.pieces.eq_9 _ _ _ notOne notRun notMark notClass notOpen notClose comma,
        Spells.pieces_eq depth deep rest apart later]
      rfl

theorem SpellsAny.pieces_eq {text : List Char} {as : Alternatives} (depth : Nat) (deep : 0 < depth) (rest : List Char)
    (apart : rest.head? ≠ some '[') :
    SpellsAny text as → Pattern.pieces depth (text ++ rest) = as.pieces ++ Pattern.pieces depth rest
  | .last only => Spells.pieces_eq depth (by simp [deep]) rest apart only
  | @SpellsAny.more _ back _ _ first later => by
    rw [List.append_assoc, Spells.pieces_eq depth (by simp [deep]) _ (by simp) first, List.cons_append, Pattern.pieces,
      if_neg (by omega), SpellsAny.pieces_eq depth deep rest apart later]
    simp [Alternatives.pieces]

end

/-- Every brace has its other one, with some braces open at the front, and every class is good. -/
def Balanced (depth : Nat) : List Piece → Prop
  | [] => depth = 0
  | .openGroup :: rest => Balanced (depth + 1) rest
  | .closeGroup :: rest => 0 < depth ∧ Balanced (depth - 1) rest
  | .charClass k :: rest => k.IsGood ∧ Balanced depth rest
  | _ :: rest => Balanced depth rest

mutual

theorem Spells.balanced {isInside : Bool} {text : List Char} {g : Glob} {depth : Nat} {rest : List Piece}
    (balanced : Balanced depth rest) : Spells isInside text g → Balanced depth (g.pieces ++ rest)
  | .done => balanced
  | .anyOne later | .anyRun later | .literal _ later => by
    simpa [Glob.pieces, Balanced] using later.balanced balanced
  | .charClass spelled later => by
    simpa [Glob.pieces, Balanced] using ⟨spelled.isGood, later.balanced balanced⟩
  | .choice inner later => by
    have closed : Balanced (depth + 1) (.closeGroup :: (_ ++ rest)) := ⟨Nat.succ_pos depth, later.balanced balanced⟩
    simpa [Glob.pieces, Balanced] using inner.balanced closed

theorem SpellsAny.balanced {text : List Char} {as : Alternatives} {depth : Nat} {rest : List Piece}
    (balanced : Balanced depth rest) : SpellsAny text as → Balanced depth (as.pieces ++ rest)
  | .last only => only.balanced balanced
  | .more first later => by
    have separated : Balanced depth (.separator :: (_ ++ rest)) := later.balanced balanced
    simpa [Alternatives.pieces] using first.balanced separated

end

/-- A text finishes some open braces: up to each closing brace it spells alternatives, and after the last one a
    whole pattern. -/
def Closes : Nat → List Char → Prop
  | 0, cs => ∃ g, Spells false cs g
  | depth + 1, cs => ∃ text as rest, cs = text ++ '\x7d' :: rest ∧ SpellsAny text as ∧ Closes depth rest

/-- An item in front of a text that finishes some open braces belongs to its first pattern. -/
theorem Closes.item {depth : Nat} {cs : List Char} (front : List Char) (wrap : Glob → Glob)
    (spelled : ∀ text rest g, cs = text ++ rest → Spells (decide (0 < depth)) text g →
      Spells (decide (0 < depth)) (front ++ text) (wrap g))
    (closes : Closes depth cs) : Closes depth (front ++ cs) := by
  cases depth with
  | zero =>
    obtain ⟨g, whole⟩ := closes
    exact ⟨wrap g, spelled cs [] g (by simp) whole⟩
  | succ depth =>
    obtain ⟨text, as, rest, rfl, inner, later⟩ := closes
    cases inner with
    | @last _ g only =>
      exact ⟨front ++ text, .last (wrap g), rest, by simp, .last (spelled text _ g rfl only), later⟩
    | @more first others g as begun ended =>
      refine ⟨front ++ (first ++ ',' :: others), .more (wrap g) as, rest, by simp, ?_, later⟩
      rw [← List.append_assoc]
      exact .more (spelled first (',' :: (others ++ '\x7d' :: rest)) g (by simp) begun) ended

/-- A text whose pieces are balanced finishes its open braces. -/
theorem closes_of_balanced (depth : Nat) (cs : List Char) (balanced : Balanced depth (pieces depth cs)) :
    Closes depth cs := by
  fun_induction pieces depth cs with
  | case1 depth =>
    obtain rfl : depth = 0 := balanced
    exact ⟨.done, .done⟩
  | case2 depth rest ih => exact (ih balanced).item ['?'] .anyOne fun _ _ _ _ later => .anyOne later
  | case3 depth rest ih => exact (ih balanced).item ['*'] .anyRun fun _ _ _ _ later => .anyRun later
  | case4 depth rest bounded ih =>
    obtain ⟨text, spelled, split⟩ := spellsClass_of_isGood true rest balanced.1
    rw [show '!' :: '[' :: rest = _ from split]
    exact (ih balanced.2).item text (.charClass _ _) fun _ _ _ _ later => .charClass spelled later
  | case5 depth rest bounded ih =>
    obtain ⟨text, spelled, split⟩ := spellsClass_of_isGood false rest balanced.1
    rw [show '[' :: rest = _ from split]
    exact (ih balanced.2).item text (.charClass _ _) fun _ _ _ _ later => .charClass spelled later
  | case6 depth rest ih =>
    obtain ⟨text, as, rest, rfl, inner, later⟩ := ih balanced
    have wrapped := later.item ('\x7b' :: (text ++ ['\x7d'])) (.choice as) fun text rest g _ spelled => by
      simpa using Spells.choice inner spelled
    simpa using wrapped
  | case7 depth rest ih =>
    obtain ⟨opened, balanced⟩ := balanced
    obtain ⟨depth, rfl⟩ := Nat.exists_eq_add_one_of_ne_zero (Nat.ne_of_gt opened)
    exact ⟨[], _, rest, rfl, .last .done, ih balanced⟩
  | case8 depth rest ih =>
    cases depth with
    | zero =>
      exact (ih balanced).item [','] (.literal ',') fun _ _ _ _ later =>
        .literal ⟨by decide, by decide, fun mark => absurd mark (by decide)⟩ later
    | succ depth =>
      obtain ⟨text, as, rest, rfl, inner, later⟩ := ih balanced
      exact ⟨',' :: text, _, rest, rfl, .more .done inner, later⟩
  | case9 depth c rest notOne notRun notMark notClass notOpen notClose comma ih =>
    refine (ih balanced).item [c] (.literal c) fun text back g split later => .literal ⟨?_, fun _ => comma, ?_⟩ later
    · exact ⟨notOne, notRun, notClass, notOpen, notClose⟩
    · intro mark opened
      obtain ⟨more, rfl⟩ : ∃ more, text = '[' :: more := by
        cases text with
        | nil => simp at opened
        | cons d more => exact ⟨more, by simpa using opened⟩
      exact notMark _ mark split

/-- The well-formed texts are those with balanced pieces. -/
theorem wellFormed_iff_balanced (s : String) : WellFormed s ↔ Balanced 0 (pieces 0 s.toList) := by
  constructor
  · rintro ⟨g, spelled⟩
    have cut := spelled.pieces_eq 0 (by simp) [] (by simp)
    rw [List.append_nil] at cut
    rw [cut]
    exact spelled.balanced (by simp [Balanced, pieces])
  · exact closes_of_balanced 0 s.toList

/-- How deep braces nest in pieces that stand inside some braces. -/
def Piece.deepest (depth : Nat) : List Piece → Nat
  | [] => depth
  | .openGroup :: rest => deepest (depth + 1) rest
  | .closeGroup :: rest => max depth (deepest (depth - 1) rest)
  | _ :: rest => deepest depth rest

private theorem Piece.le_deepest (depth : Nat) (ps : List Piece) : depth ≤ deepest depth ps := by
  fun_induction deepest depth ps <;> omega

private theorem readMembers_rest (cs : List Char) : (readMembers cs).2.2 = (cs.dropWhile (· ≠ ']')).tail := by
  fun_induction readMembers cs with
  | case1 => rfl
  | case2 rest => simp
  | case3 first last rest inside literal r ih => simp_all [r]
  | case4 first last rest inside ranged r ih => simp_all [r]
  | case5 c rest inside single r ih => simp_all [r]

theorem readClass_rest (isNegated : Bool) (cs : List Char) :
    (readClass isNegated cs).2 = (cs.dropWhile (· ≠ ']')).tail := by
  fun_cases readClass isNegated cs with
  | case1 rest => exact (readMembers_rest ('!' :: rest)).trans (by simp)
  | case2 rest => exact (readMembers_rest rest).trans (by simp)
  | case3 => exact readMembers_rest cs

/-- The pieces nest as deep as the text. -/
theorem deepest_eq (depth : Nat) (cs : List Char) : deepest depth cs = Piece.deepest depth (pieces depth cs) := by
  fun_induction pieces depth cs with
  | case1 => rw [deepest, Piece.deepest]
  | case2 depth rest ih | case3 depth rest ih | case6 depth rest ih | case7 depth rest ih =>
    simp [deepest, Piece.deepest, ih]
  | case4 depth rest bounded ih | case5 depth rest bounded ih =>
    rw [readClass_rest] at ih
    simp only [Piece.deepest, readClass_rest, ← ih]
    simp [deepest]
  | case8 depth rest ih =>
    split <;> simp [deepest, Piece.deepest, ih]
  | case9 depth c rest notOne notRun notMark notClass notOpen notClose comma ih =>
    rw [deepest.eq_5 _ _ _ notClass notOpen notClose, ih]
    rfl

mutual

private theorem Glob.deepest_pieces (depth : Nat) (ps : List Piece) :
    ∀ g : Glob, Piece.deepest depth (g.pieces ++ ps) = max (depth + g.depth) (Piece.deepest depth ps)
  | .done => by simp [Glob.pieces, Glob.depth, Piece.le_deepest]
  | .anyOne rest | .anyRun rest | .charClass _ _ rest | .literal _ rest => by
    simpa [Glob.pieces, Glob.depth, Piece.deepest] using Glob.deepest_pieces depth ps rest
  | .choice alternatives rest => by
    have inner := Alternatives.deepest_pieces (depth + 1) (.closeGroup :: (rest.pieces ++ ps)) alternatives
    have outer := Glob.deepest_pieces depth ps rest
    simp only [Glob.pieces, Glob.depth, Piece.deepest, List.cons_append, List.append_assoc, Nat.add_sub_cancel] at *
    omega

private theorem Alternatives.deepest_pieces (depth : Nat) (ps : List Piece) :
    ∀ as : Alternatives, Piece.deepest depth (as.pieces ++ ps) = max (depth + as.depth) (Piece.deepest depth ps)
  | .last g => by simpa [Alternatives.pieces, Alternatives.depth] using Glob.deepest_pieces depth ps g
  | .more g rest => by
    have first := Glob.deepest_pieces depth (.separator :: (rest.pieces ++ ps)) g
    have later := Alternatives.deepest_pieces depth ps rest
    simp only [Alternatives.pieces, Alternatives.depth, Piece.deepest, List.cons_append, List.append_assoc] at *
    omega

end

/-- A text nests as deep as the tree that it spells. -/
theorem nesting_of_spells {s : String} {g : Glob} (spelled : Spells false s.toList g) : nesting s = g.depth := by
  have cut := spelled.pieces_eq 0 (by simp) [] (by simp)
  have deep := Glob.deepest_pieces 0 [] g
  simp only [List.append_nil, pieces, Piece.deepest] at cut deep
  rw [nesting, deepest_eq, cut, deep]
  omega

end OpenSound.Pattern
