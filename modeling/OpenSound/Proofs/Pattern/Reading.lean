import OpenSound.Proofs.Pattern.Runaway

/-!
# Reading the pieces back

What the reader of regular expressions makes of the text of some pieces, said on the pieces: each of them is read
as what it stands for, but a class without members goes on until it runs into another class.
-/

namespace OpenSound.Pattern

private theorem not_mem_memberText {c : Char} (inside : c ≠ ']') : ']' ∉ memberText c := by
  unfold memberText literalText
  split_ifs <;> simp [Ne.symm inside]

private theorem not_mem_members (cs : List Char) : ']' ∉ (readMembers cs).1.flatMap Member.text := by
  fun_induction readMembers cs with
  | case1 | case2 => simp
  | case3 first last rest inside literal r ih =>
    rw [List.flatMap_cons, List.mem_append, not_or]
    exact ⟨not_mem_memberText inside, ih⟩
  | case4 first last rest inside ranged r ih =>
    rw [List.flatMap_cons, List.mem_append, not_or]
    refine ⟨?_, ih⟩
    rw [not_or] at ranged
    simp [Member.text, not_mem_memberText inside, not_mem_memberText ranged.1]
  | case5 c rest inside single r ih =>
    rw [List.flatMap_cons, List.mem_append, not_or]
    exact ⟨not_mem_memberText inside, ih⟩

private theorem rest_of_unclosed (cs : List Char) (unclosed : (readMembers cs).2.1 = false) :
    (readMembers cs).2.2 = [] := by
  fun_induction readMembers cs with
  | case1 => rfl
  | case2 => simp at unclosed
  | case3 first last rest inside literal r ih => exact ih unclosed
  | case4 first last rest inside ranged r ih => exact ih unclosed
  | case5 c rest inside single r ih => exact ih unclosed

/-- What the scanner knows of a class. -/
theorem scanned_readClass (isNegated : Bool) (cs : List Char) :
    ']' ∉ (readClass isNegated cs).1.members.flatMap Member.text ∧
      ((readClass isNegated cs).1.isClosed = false → (readClass isNegated cs).2 = []) := by
  fun_cases readClass isNegated cs with
  | case1 rest => exact ⟨not_mem_members ('!' :: rest), rest_of_unclosed ('!' :: rest)⟩
  | case2 rest => exact ⟨not_mem_members rest, rest_of_unclosed rest⟩
  | case3 => exact ⟨not_mem_members cs, rest_of_unclosed cs⟩

private theorem scanned_literal (c : Char) {ss : List Sign} (scanned : Sign.AllScanned ss) :
    Sign.AllScanned ((Piece.literal c).signs ++ ss) := by
  by_cases special : isRegexSpecial c = true
  · simp only [Piece.signs, special, if_true]
    exact scanned
  · have plain : c ∉ ['\\', '[', ']'] := by
      intro member
      simp only [List.mem_cons, List.not_mem_nil, or_false] at member
      rcases member with rfl | rfl | rfl <;> exact special (by decide)
    simp only [Piece.signs, special]
    exact ⟨plain, scanned⟩

/-- The scanner keeps its promises. -/
theorem scanned_pieces (depth : Nat) (cs : List Char) : Sign.AllScanned ((pieces depth cs).flatMap Piece.signs) := by
  fun_induction pieces depth cs with
  | case1 => trivial
  | case2 depth rest ih | case6 depth rest ih | case7 depth rest ih => exact ⟨by decide, ih⟩
  | case3 depth rest ih => exact ⟨by decide, by decide, ih⟩
  | case4 depth rest bounded ih =>
    obtain ⟨noBracket, last⟩ := scanned_readClass true rest
    exact ⟨noBracket, fun unclosed => by rw [last unclosed, pieces]; rfl, ih⟩
  | case5 depth rest bounded ih =>
    obtain ⟨noBracket, last⟩ := scanned_readClass false rest
    exact ⟨noBracket, fun unclosed => by rw [last unclosed, pieces]; rfl, ih⟩
  | case8 depth rest ih =>
    split_ifs
    · exact scanned_literal ',' ih
    · exact ⟨by decide, ih⟩
  | case9 depth c rest _ _ _ _ _ _ _ ih => exact scanned_literal c ih

private theorem signs_of_charClass {p : Piece} {k : ClassPiece} (member : .charClass k ∈ p.signs) :
    p.signs = [.charClass k] := by
  cases p with
  | charClass other =>
    obtain rfl : k = other := by simpa [Piece.signs] using member
    rfl
  | literal c => by_cases special : isRegexSpecial c = true <;> simp [Piece.signs, special] at member
  | _ => simp [Piece.signs] at member

/-- What is left after a class that was run into belongs to the last pieces. -/
theorem suffix_of_signs (ps : List Piece) {front out : List Sign} {k : ClassPiece}
    (split : ps.flatMap Piece.signs = front ++ .charClass k :: out) : ∃ qs, qs <:+ ps ∧ out = qs.flatMap Piece.signs := by
  induction ps generalizing front with
  | nil => simp at split
  | cons p ps ih =>
    have later (front : List Sign) (split : ps.flatMap Piece.signs = front ++ .charClass k :: out) :
        ∃ qs, qs <:+ p :: ps ∧ out = qs.flatMap Piece.signs := by
      obtain ⟨qs, part, same⟩ := ih split
      exact ⟨qs, part.trans (List.suffix_cons p ps), same⟩
    rw [List.flatMap_cons] at split
    rcases List.append_eq_append_iff.mp split with ⟨more, -, rest⟩ | ⟨more, signs, rest⟩
    · exact later more rest
    · cases more with
      | nil => exact later [] rest.symm
      | cons s more =>
        obtain ⟨rfl, rfl⟩ := List.cons.inj rest
        have alone := signs_of_charClass (p := p) (k := k) (by simp [signs])
        have none : more = [] := by
          have := congrArg List.length (signs.symm.trans alone)
          simp only [List.length_append, List.length_cons, List.length_nil] at this
          exact List.eq_nil_of_length_eq_zero (by omega)
        exact ⟨ps, List.suffix_cons p ps, by rw [none]; rfl⟩

end OpenSound.Pattern

namespace OpenSound.Regex

open Pattern (Member ClassPiece Piece Sign RunsInto)

/-- Everything that is left of a regular expression: some pieces and the anchor at the end. -/
def piecesText (ps : List Piece) : List Char := ps.flatMap Piece.text ++ ['$']

@[simp] theorem piecesText_cons (p : Piece) (ps : List Piece) : piecesText (p :: ps) = p.text ++ piecesText ps := by
  simp [piecesText]

private theorem piecesText_eq (ps : List Piece) : piecesText ps = signsText (ps.flatMap Piece.signs) := by
  induction ps with
  | nil => rfl
  | cons p ps ih => rw [piecesText_cons, ih, signsText, signsText, List.flatMap_cons, List.flatMap_append,
      p.signs_text, List.append_assoc]

private theorem literalText_head_ne_star (c : Char) (rest : List Char) :
    (Pattern.literalText c ++ rest).head? ≠ some '*' := by
  unfold Pattern.literalText
  split_ifs with special
  · simp
  · simp only [List.singleton_append, List.head?_cons, ne_eq, Option.some.injEq]
    rintro rfl
    exact special (by decide)

/-- No piece begins with the sign of a repetition. -/
theorem piecesText_head (ps : List Piece) : (piecesText ps).head? ≠ some '*' := by
  cases ps with
  | nil => simp [piecesText]
  | cons p ps =>
    rw [piecesText_cons]
    cases p with
    | literal c => exact literalText_head_ne_star c _
    | _ => simp [Piece.text, ClassPiece.text]

/-- What some pieces are read as, inside some open groups and after what is read of the innermost one. -/
inductive Reads : List Level → Level → List Piece → Regex → Prop
  | done {l : Level} : Reads [] l [] (l.push .finish).close
  | anyOne {enclosing : List Level} {l : Level} {ps : List Piece} {r : Regex}
      (later : Reads enclosing (l.push (.single .notNewline)) ps r) : Reads enclosing l (.anyOne :: ps) r
  | anyRun {enclosing : List Level} {l : Level} {ps : List Piece} {r : Regex}
      (later : Reads enclosing (l.push (.run .notNewline)) ps r) : Reads enclosing l (.anyRun :: ps) r
  | literal {enclosing : List Level} {l : Level} {c : Char} {ps : List Piece} {r : Regex}
      (later : Reads enclosing (l.push (.single (.only c))) ps r) : Reads enclosing l (.literal c :: ps) r
  | openGroup {enclosing : List Level} {l : Level} {ps : List Piece} {r : Regex}
      (room : enclosing.length < nestingLimit) (later : Reads (l :: enclosing) .empty ps r) :
      Reads enclosing l (.openGroup :: ps) r
  | closeGroup {outer : Level} {enclosing : List Level} {l : Level} {ps : List Piece} {r : Regex}
      (later : Reads enclosing (outer.push (.group l.close)) ps r) : Reads (outer :: enclosing) l (.closeGroup :: ps) r
  | separator {enclosing : List Level} {l : Level} {ps : List Piece} {r : Regex}
      (later : Reads enclosing l.nextBranch ps r) : Reads enclosing l (.separator :: ps) r
  | charClass {enclosing : List Level} {l : Level} {k : ClassPiece} {ps : List Piece} {r : Regex} (good : k.IsGood)
      (later : Reads enclosing (l.push (.single k.test)) ps r) : Reads enclosing l (.charClass k :: ps) r
  | runaway {enclosing : List Level} {l : Level} {k : ClassPiece} {ps qs : List Piece} {items : List ClassItem}
      {r : Regex} (closed : k.isClosed = true) (empty : k.members = []) (part : qs <:+ ps)
      (runs : RunsInto (ps.flatMap Piece.signs) items (qs.flatMap Piece.signs))
      (later : Reads enclosing (l.push (.single (.oneOf k.isNegated (.range ']' ']' :: items)))) qs r) :
      Reads enclosing l (.charClass k :: ps) r

private theorem scanned_suffix {ps qs : List Piece} (part : qs <:+ ps)
    (scanned : Sign.AllScanned (ps.flatMap Piece.signs)) :
    Sign.AllScanned (qs.flatMap Piece.signs) := by
  obtain ⟨front, rfl⟩ := part
  rw [List.flatMap_append] at scanned
  revert scanned
  induction front.flatMap Piece.signs with
  | nil => exact id
  | cons s ss ih =>
    intro scanned
    apply ih
    cases s with
    | plain c => exact scanned.2
    | escaped c => exact scanned
    | charClass k => exact scanned.2.2

private theorem scanned_tail {p : Piece} {ps : List Piece} (scanned : Sign.AllScanned ((p :: ps).flatMap Piece.signs)) :
    Sign.AllScanned (ps.flatMap Piece.signs) := scanned_suffix (List.suffix_cons p ps) scanned

private theorem readFrom_literal (steps : Nat) (enclosing : List Level) (l : Level) (c : Char) (rest : List Char) :
    readFrom (steps + 1) enclosing l (Pattern.literalText c ++ rest) =
      readFrom steps enclosing (l.push (.single (.only c))) rest := by
  unfold Pattern.literalText
  split_ifs with special
  · exact readFrom.eq_9 _ _ _ _ _
  · have plain (d : Char) (sign : Pattern.isRegexSpecial d = true) : c ≠ d := by
      rintro rfl
      exact special sign
    exact readFrom.eq_15 _ _ _ _ _ (plain _ (by decide)) (plain _ (by decide)) (plain _ (by decide))
      (fun _ _ same => absurd same (plain _ (by decide))) (fun same => absurd same (plain _ (by decide)))
      (fun _ same => absurd same (plain _ (by decide))) (plain _ (by decide)) (plain _ (by decide))
      (plain _ (by decide)) (fun _ same => absurd same (plain _ (by decide)))
      (fun _ _ _ same => absurd same (plain _ (by decide)))

private theorem readFrom_anyOne (steps : Nat) (enclosing : List Level) (l : Level) (ps : List Piece) :
    readFrom (steps + 1) enclosing l (piecesText (.anyOne :: ps)) =
      readFrom steps enclosing (l.push (.single .notNewline)) (piecesText ps) := by
  rw [piecesText_cons]
  refine readFrom.eq_12 _ _ _ _ fun rest split => piecesText_head ps ?_
  exact congrArg List.head? split

private theorem readFrom_anyRun (steps : Nat) (enclosing : List Level) (l : Level) (ps : List Piece) :
    readFrom (steps + 1) enclosing l (piecesText (.anyRun :: ps)) =
      readFrom steps enclosing (l.push (.run .notNewline)) (piecesText ps) := by
  rw [piecesText_cons]
  exact readFrom.eq_11 _ _ _ _

private theorem readFrom_openGroup (steps : Nat) (enclosing : List Level) (l : Level) (ps : List Piece) :
    readFrom (steps + 1) enclosing l (piecesText (.openGroup :: ps)) =
      if nestingLimit ≤ enclosing.length then .error .tooMuchNesting
      else readFrom steps (l :: enclosing) .empty (piecesText ps) := by
  rw [piecesText_cons]
  exact readFrom.eq_4 _ _ _ _

private theorem readFrom_closeGroup (steps : Nat) (outer : Level) (enclosing : List Level) (l : Level)
    (ps : List Piece) :
    readFrom (steps + 1) (outer :: enclosing) l (piecesText (.closeGroup :: ps)) =
      readFrom steps enclosing (outer.push (.group l.close)) (piecesText ps) := by
  rw [piecesText_cons]
  exact readFrom.eq_6 _ _ _ _ _

private theorem readFrom_separator (steps : Nat) (enclosing : List Level) (l : Level) (ps : List Piece) :
    readFrom (steps + 1) enclosing l (piecesText (.separator :: ps)) =
      readFrom steps enclosing l.nextBranch (piecesText ps) := by
  rw [piecesText_cons]
  exact readFrom.eq_7 _ _ _ _

private theorem piecesText_charClass (k : ClassPiece) (ps : List Piece) :
    piecesText (.charClass k :: ps) = '[' :: (k.text.tail ++ piecesText ps) := by
  simp [Piece.text, ClassPiece.text]

/-- A class is read from its text. -/
theorem readFrom_charClass (steps : Nat) (enclosing : List Level) (l : Level) (k : ClassPiece) (ps : List Piece)
    {t : CharTest} {rest : List Char} (read : readClass (k.text.tail ++ piecesText ps) = .ok (t, rest)) :
    readFrom (steps + 1) enclosing l (piecesText (.charClass k :: ps)) = readFrom steps enclosing (l.push (.single t)) rest := by
  rw [piecesText_charClass, readFrom, read]

/-- Every piece takes a step of its own. -/
theorem exists_fewer_steps {p : Piece} {ps qs : List Piece} (part : qs <:+ ps) {steps : Nat}
    (enough : (piecesText (p :: ps)).length < steps) : ∃ fewer, steps = fewer + 1 ∧ (piecesText qs).length < fewer := by
  have positive : 0 < p.text.length := by
    cases p with
    | literal c =>
      simp only [Piece.text, Pattern.literalText]
      split_ifs <;> simp
    | _ => simp [Piece.text, ClassPiece.text]
  have shorter : (piecesText qs).length ≤ (piecesText ps).length := by
    obtain ⟨front, rfl⟩ := part
    simp only [piecesText, List.flatMap_append, List.length_append]
    omega
  rw [piecesText_cons, List.length_append] at enough
  exact ⟨steps - 1, by omega, by omega⟩

/-- The text of pieces that are read is read. -/
theorem readFrom_of_reads {enclosing : List Level} {l : Level} {ps : List Piece} {r : Regex}
    (reads : Reads enclosing l ps r) (scanned : Sign.AllScanned (ps.flatMap Piece.signs)) (steps : Nat)
    (enough : (piecesText ps).length < steps) : readFrom steps enclosing l (piecesText ps) = .ok r := by
  induction reads generalizing steps with
  | @done l =>
    obtain ⟨steps, rfl⟩ : ∃ fewer, steps = fewer + 2 := ⟨steps - 2, by simp [piecesText] at enough; omega⟩
    rfl
  | @anyOne enclosing l ps r later ih =>
    obtain ⟨steps, rfl, fits⟩ := exists_fewer_steps List.suffix_rfl enough
    rw [readFrom_anyOne, ih (scanned_tail scanned) _ fits]
  | @anyRun enclosing l ps r later ih =>
    obtain ⟨steps, rfl, fits⟩ := exists_fewer_steps List.suffix_rfl enough
    rw [readFrom_anyRun, ih (scanned_tail scanned) _ fits]
  | @literal enclosing l c ps r later ih =>
    obtain ⟨steps, rfl, fits⟩ := exists_fewer_steps List.suffix_rfl enough
    rw [piecesText_cons, Piece.text, readFrom_literal, ih (scanned_tail scanned) _ fits]
  | @openGroup enclosing l ps r room later ih =>
    obtain ⟨steps, rfl, fits⟩ := exists_fewer_steps List.suffix_rfl enough
    rw [readFrom_openGroup, if_neg (Nat.not_le.mpr room), ih (scanned_tail scanned) _ fits]
  | @closeGroup outer enclosing l ps r later ih =>
    obtain ⟨steps, rfl, fits⟩ := exists_fewer_steps List.suffix_rfl enough
    rw [readFrom_closeGroup, ih (scanned_tail scanned) _ fits]
  | @separator enclosing l ps r later ih =>
    obtain ⟨steps, rfl, fits⟩ := exists_fewer_steps List.suffix_rfl enough
    rw [readFrom_separator, ih (scanned_tail scanned) _ fits]
  | @charClass enclosing l k ps r good later ih =>
    obtain ⟨steps, rfl, fits⟩ := exists_fewer_steps List.suffix_rfl enough
    have read := readClass_closed k good.closed good.nonempty (piecesText ps)
    rw [if_pos good.ordered] at read
    rw [readFrom_charClass _ _ _ k ps read, ih (scanned_tail scanned) _ fits]
  | @runaway enclosing l k ps qs items r closed empty part runs later ih =>
    obtain ⟨steps, rfl, fits⟩ := exists_fewer_steps part enough
    have scannedRest := scanned_tail scanned
    have read := classItems_of_runsInto runs scannedRest k.isNegated _ [.range ']' ']'] (Nat.le_refl _)
    rw [← piecesText_eq, ← piecesText_eq, ← readClass_empty k closed empty] at read
    rw [readFrom_charClass _ _ _ k ps read]
    exact ih (scanned_suffix part scannedRest) _ fits

/-- Where the text of some pieces is read, the pieces are. -/
theorem reads_of_readFrom {steps : Nat} {enclosing : List Level} {l : Level} {ps : List Piece} {r : Regex}
    (scanned : Sign.AllScanned (ps.flatMap Piece.signs)) (read : readFrom steps enclosing l (piecesText ps) = .ok r) :
    Reads enclosing l ps r := by
  induction steps generalizing enclosing l ps with
  | zero => simp [readFrom] at read
  | succ steps ih =>
    cases ps with
    | nil =>
      have step : readFrom (steps + 1) enclosing l (piecesText []) = readFrom steps enclosing (l.push .finish) [] :=
        readFrom.eq_14 _ _ _ _
      rw [step] at read
      cases steps with
      | zero => simp [readFrom] at read
      | succ steps =>
        rw [readFrom_nil] at read
        split_ifs at read with outermost
        obtain rfl : (l.push .finish).close = r := by simpa using read
        subst outermost
        exact .done
    | cons p ps =>
      have scannedRest := scanned_tail scanned
      cases p with
      | anyOne =>
        rw [readFrom_anyOne] at read
        exact .anyOne (ih scannedRest read)
      | anyRun =>
        rw [readFrom_anyRun] at read
        exact .anyRun (ih scannedRest read)
      | separator =>
        rw [readFrom_separator] at read
        exact .separator (ih scannedRest read)
      | literal c =>
        rw [piecesText_cons, Piece.text, readFrom_literal] at read
        exact .literal (ih scannedRest read)
      | openGroup =>
        rw [readFrom_openGroup] at read
        split_ifs at read with full
        exact .openGroup (Nat.not_le.mp full) (ih scannedRest read)
      | closeGroup =>
        cases enclosing with
        | nil => simp [Piece.text, readFrom] at read
        | cons outer enclosing =>
          rw [readFrom_closeGroup] at read
          exact .closeGroup (ih scannedRest read)
      | charClass k =>
        cases inner : readClass (k.text.tail ++ piecesText ps) with
        | error e => simp [piecesText_charClass, readFrom, inner, -piecesText_cons] at read
        | ok result =>
          obtain ⟨t, rest⟩ := result
          rw [readFrom_charClass _ _ _ k ps inner] at read
          cases closed : k.isClosed with
          | false =>
            rw [piecesText_eq] at inner
            exact absurd inner (readClass_unclosed (not_mem_unclosed scanned closed))
          | true =>
            by_cases empty : k.members = []
            · rw [readClass_empty k closed empty, piecesText_eq] at inner
              obtain ⟨items, out, runs⟩ := runsInto_of_classItems scannedRest (Nat.le_refl _) inner
              obtain ⟨front, last, split⟩ := split_of_runsInto runs
              obtain ⟨qs, part, rfl⟩ := Pattern.suffix_of_signs ps split
              have whole := classItems_of_runsInto runs scannedRest k.isNegated _ [.range ']' ']'] (Nat.le_refl _)
              obtain ⟨rfl, rfl⟩ := Prod.mk.inj (Except.ok.inj (inner.symm.trans whole))
              rw [← piecesText_eq] at read
              exact .runaway closed empty part runs (ih (scanned_suffix part scannedRest) read)
            · rw [readClass_closed k closed empty] at inner
              split_ifs at inner with ordered
              obtain ⟨rfl, rfl⟩ : k.test = t ∧ piecesText ps = rest := by simpa using inner
              exact .charClass ⟨closed, empty, ordered⟩ (ih scannedRest read)

end OpenSound.Regex
