import OpenSound.AddressSpace
import OpenSound.Proofs.Pattern.Meaning
import OpenSound.Proofs.Pattern.Plain

/-!
# Which patterns compile

The scanner checks nothing itself and leaves an unbalanced pattern to the reader of regular expressions. That reader
refuses all of them but those whose empty class runs into a later class.
-/

namespace OpenSound.Pattern

open Regex (Level Reads nestingLimit)

/-- A class that was closed at once. -/
def ClassPiece.IsEmpty (k : ClassPiece) : Prop := k.isClosed = true ∧ k.members = []

/-- Pieces without an empty class are read only if they are balanced and leave room for every group. -/
theorem balanced_of_reads {enclosing : List Level} {l : Level} {ps : List Piece} {r : Regex}
    (reads : Reads enclosing l ps r) (room : enclosing.length ≤ nestingLimit)
    (full : ∀ k, .charClass k ∈ ps → ¬k.IsEmpty) :
    Balanced enclosing.length ps ∧ Piece.deepest enclosing.length ps ≤ nestingLimit := by
  induction reads with
  | done => exact ⟨rfl, room⟩
  | anyOne _ ih | anyRun _ ih | literal _ ih | separator _ ih =>
    exact ih room fun k member => full k (List.mem_cons_of_mem _ member)
  | openGroup more _ ih => exact ih more fun k member => full k (List.mem_cons_of_mem _ member)
  | closeGroup _ ih =>
    rw [List.length_cons] at room
    obtain ⟨balanced, shallow⟩ := ih (by omega) fun k member => full k (List.mem_cons_of_mem _ member)
    exact ⟨⟨Nat.succ_pos _, balanced⟩, Nat.max_le.mpr ⟨room, shallow⟩⟩
  | charClass good _ ih =>
    obtain ⟨balanced, shallow⟩ := ih room fun k member => full k (List.mem_cons_of_mem _ member)
    exact ⟨⟨good, balanced⟩, shallow⟩
  | runaway closed empty => exact absurd ⟨closed, empty⟩ (full _ (by simp))

/-- A pattern compiles exactly when its pieces are read and the expression is not too high. -/
theorem compile_isOk_iff_reads (s : String) :
    (compile s).isOk = true ↔
      ∃ r, Reads [] (Level.empty.push .start) (pieces 0 s.toList) r ∧ r.height ≤ nestingLimit := by
  simp only [← read_regexText_iff]
  by_cases wild : hasWildcard s = true
  · rw [compile, if_pos wild]
    cases Regex.read (regexText s.toList) <;> simp [Except.map, Except.isOk, Except.toBool]
  · obtain ⟨r, read, compiled, -⟩ := regex_of_plain (by simpa using wild)
    rw [compiled, read]
    simp [Except.isOk, Except.toBool]

/-- Some class of the text has no members. -/
def HasEmptyClass (s : String) : Prop := ∃ k, .charClass k ∈ pieces 0 s.toList ∧ k.IsEmpty

/-- A text with an empty class is read nevertheless: each empty class runs into a later class, all that it swallows is
    its content, and what is left is balanced and not too deep. -/
def Misread (s : String) : Prop :=
  HasEmptyClass s ∧ ∃ r, Reads [] (Level.empty.push .start) (pieces 0 s.toList) r ∧ r.height ≤ nestingLimit

/-- What is said of the patterns that compile: as long as braces do not nest deeper than sixteen these are the
    well-formed ones, an empty class and braces deeper than fifty are never accepted, and every other pattern is
    refused as invalid. -/
structure AcceptedAsDocumented (s : String) : Prop where
  shallow : nesting s ≤ 16 → ((compile s).isOk = true ↔ WellFormed s)
  emptyClass : HasEmptyClass s → (compile s).isOk = false
  deep : 50 < nesting s → (compile s).isOk = false
  refused : (compile s).isOk = false → ∀ h, ∃ fault, AddressSpace.method s h = .error (.invalidPattern s fault)

/-- This is so exactly for the texts that are not misread. -/
theorem acceptedAsDocumented_iff (s : String) : AcceptedAsDocumented s ↔ ¬Misread s := by
  constructor
  · rintro documented ⟨empty, reads⟩
    have compiled := (compile_isOk_iff_reads s).mpr reads
    simp [documented.emptyClass empty] at compiled
  · intro right
    have strict (compiled : (compile s).isOk = true) :
        ¬HasEmptyClass s ∧ Balanced 0 (pieces 0 s.toList) ∧ nesting s ≤ 50 := by
      have reads := (compile_isOk_iff_reads s).mp compiled
      have full : ¬HasEmptyClass s := fun empty => right ⟨empty, reads⟩
      obtain ⟨r, reads, -⟩ := reads
      obtain ⟨balanced, limited⟩ := balanced_of_reads reads (Nat.zero_le _) fun k member empty => full ⟨k, member, empty⟩
      exact ⟨full, balanced, by rwa [nesting, deepest_eq]⟩
    refine ⟨fun shallow => ⟨fun compiled => ?_, fun wellFormed => ?_⟩, fun empty => ?_, fun deep => ?_, fun failed h => ?_⟩
    · exact (wellFormed_iff_balanced s).mpr (strict compiled).2.1
    · obtain ⟨p, compiled, -⟩ := compile_of_spells s shallow wellFormed
      rw [compiled]
      rfl
    · by_contra compiled
      exact (strict (by simpa using compiled)).1 empty
    · by_contra compiled
      have := (strict (by simpa using compiled)).2.2
      omega
    · unfold AddressSpace.method
      cases compiled : compile s with
      | ok p => simp [compiled, Except.isOk, Except.toBool] at failed
      | error fault => exact ⟨fault, rfl⟩

/-- A brace that is never closed is accepted when an empty class swallows it: the class ends with the class behind the
    dash, after the range from the exclamation mark to the opening bracket. -/
theorem not_acceptedAsDocumented_swallowed : ¬AcceptedAsDocumented "[]\x7b!-[b]" := by
  intro documented
  have compiled : (compile "[]\x7b!-[b]").isOk = true := by decide +kernel
  have shallow : nesting "[]\x7b!-[b]" ≤ 16 := by decide +kernel
  have cut : pieces 0 "[]\x7b!-[b]".toList = [.charClass ⟨false, [], true⟩, .openGroup, .literal '!', .literal '-',
      .charClass ⟨false, [.one 'b'], true⟩] := by decide +kernel
  have balanced := (wellFormed_iff_balanced _).mp ((documented.shallow shallow).mp compiled)
  rw [cut] at balanced
  exact balanced.1.nonempty rfl

end OpenSound.Pattern
