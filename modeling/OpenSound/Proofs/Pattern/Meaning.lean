import OpenSound.Pattern.Basic
import OpenSound.Proofs.Pattern.Matching
import OpenSound.Proofs.Pattern.Reading

/-!
# What a compiled pattern matches

A well-formed pattern compiles, unless its braces nest too deep, and matches exactly the addresses of its language.
-/

namespace OpenSound.Pattern

open Regex (Level Reads Spans SpansAll SpansAny heightAll ofConcat ofAlternate nestingLimit)

mutual

/-- What the items of a tree become. -/
def Glob.regexes : Glob → List Regex
  | .done => []
  | .anyOne rest => .single .notNewline :: rest.regexes
  | .anyRun rest => .run .notNewline :: rest.regexes
  | .charClass isNegated members rest => .single (ClassPiece.test ⟨isNegated, members, true⟩) :: rest.regexes
  | .choice alternatives rest => .group (ofAlternate alternatives.regexes) :: rest.regexes
  | .literal c rest => .single (.only c) :: rest.regexes

/-- What the alternatives become, each as a whole. -/
def Alternatives.regexes : Alternatives → List Regex
  | .last g => [ofConcat g.regexes]
  | .more g rest => ofConcat g.regexes :: rest.regexes

end

mutual

/-- The pieces of a tree are read as its items, if there is room for its braces. -/
theorem Spells.reads {isInside : Bool} {text : List Char} {g : Glob} {enclosing : List Level} {l : Level}
    {ps : List Piece} {r : Regex} (room : enclosing.length + g.depth ≤ nestingLimit)
    (later : Reads enclosing ⟨l.branches, g.regexes.reverse ++ l.items⟩ ps r) :
    Spells isInside text g → Reads enclosing l (g.pieces ++ ps) r
  | .done => later
  | .anyOne rest => .anyOne (Spells.reads room (by simpa [Glob.regexes, Level.push] using later) rest)
  | .anyRun rest => .anyRun (Spells.reads room (by simpa [Glob.regexes, Level.push] using later) rest)
  | .literal _ rest => .literal (Spells.reads room (by simpa [Glob.regexes, Level.push] using later) rest)
  | .charClass spelled rest =>
    .charClass spelled.isGood (Spells.reads room (by simpa [Glob.regexes, Level.push] using later) rest)
  | .choice inner rest => by
    simp only [Glob.depth] at room
    simp only [Glob.pieces, List.cons_append, List.append_assoc]
    refine .openGroup (by omega) (SpellsAny.reads (by simp only [List.length_cons]; omega) (fun last same => ?_) inner)
    refine .closeGroup (Spells.reads (by omega) ?_ rest)
    simpa [Glob.regexes, Level.push, Level.close, same] using later

theorem SpellsAny.reads {text : List Char} {as : Alternatives} {enclosing : List Level} {branches : List Regex}
    {ps : List Piece} {r : Regex} (room : enclosing.length + as.depth ≤ nestingLimit)
    (later : ∀ last : Level, last.nextBranch.branches = as.regexes.reverse ++ branches → Reads enclosing last ps r) :
    SpellsAny text as → Reads enclosing ⟨branches, []⟩ (as.pieces ++ ps) r
  | .last only => by
    refine Spells.reads room (later _ ?_) only
    simp [Level.nextBranch, Alternatives.regexes]
  | .more first rest => by
    simp only [Alternatives.depth] at room
    simp only [Alternatives.pieces, List.append_assoc, List.cons_append]
    refine Spells.reads (by omega) (.separator (SpellsAny.reads (by omega) (fun last same => later last ?_) rest)) first
    simpa [Level.nextBranch, Alternatives.regexes] using same

end

theorem covers_iff (m : Member) (c : Char) : m.item.contains c = true ↔ m.Covers c := by
  cases m with
  | one d =>
    simp only [Member.item, ClassItem.contains, Bool.and_eq_true, decide_eq_true_eq, Member.Covers]
    constructor
    · rintro ⟨least, most⟩
      exact Char.le_antisymm most least
    · rintro rfl
      exact ⟨Char.le_refl c, Char.le_refl c⟩
  | range first last => simp [Member.item, ClassItem.contains, Member.Covers]

theorem accepts_class (isNegated : Bool) (ms : List Member) (isClosed : Bool) (c : Char) :
    (ClassPiece.test ⟨isNegated, ms, isClosed⟩).accepts c = true ↔
      ((∃ m ∈ ms, m.Covers c) ↔ isNegated = false) := by
  have member : (ms.map Member.item).any (·.contains c) = true ↔ ∃ m ∈ ms, m.Covers c := by
    simp [covers_iff]
  simp only [ClassPiece.test, CharTest.accepts, ← member]
  cases (ms.map Member.item).any (·.contains c) <;> cases isNegated <;> simp

theorem mem_oneWith (p : Char → Prop) (word : List Char) : word ∈ oneWith p ↔ ∃ c, word = [c] ∧ p c := Iff.rfl

private theorem mem_runWith (p : Char → Prop) (word : List Char) : word ∈ runWith p ↔ ∀ c ∈ word, p c := Iff.rfl

/-- An expression in front of others stands for the product of their languages. -/
theorem spansAll_cons {before after word : List Char} {r : Regex} {rs : List Regex} {first rest : Language Char}
    (head : ∀ before after word, Spans before after r word ↔ word ∈ first)
    (tail : ∀ before word, SpansAll before after rs word ↔ word ∈ rest) :
    SpansAll before after (r :: rs) word ↔ word ∈ first * rest := by
  simp only [SpansAll, head, tail, Language.mem_mul]
  constructor
  · rintro ⟨front, back, rfl, begun, ended⟩
    exact ⟨front, begun, back, ended, rfl⟩
  · rintro ⟨front, begun, back, ended, rfl⟩
    exact ⟨front, back, rfl, begun, ended⟩

mutual

/-- The items of a tree match the words of its language, wherever these stand. -/
theorem Glob.spansAll_iff (before after word : List Char) :
    ∀ g : Glob, SpansAll before after g.regexes word ↔ word ∈ g.language
  | .done => by simp [Glob.regexes, SpansAll, Glob.language]
  | .anyOne rest => by
    refine spansAll_cons (fun before after word => ?_) fun before word => Glob.spansAll_iff before after word rest
    simp [Spans, CharTest.accepts, mem_oneWith]
  | .anyRun rest => by
    refine spansAll_cons (fun before after word => ?_) fun before word => Glob.spansAll_iff before after word rest
    simp [Spans, CharTest.accepts, mem_runWith]
  | .charClass isNegated members rest => by
    refine spansAll_cons (fun before after word => ?_) fun before word => Glob.spansAll_iff before after word rest
    simp only [Spans, accepts_class, mem_oneWith]
  | .choice alternatives rest => by
    refine spansAll_cons (fun before after word => ?_) fun before word => Glob.spansAll_iff before after word rest
    rw [Spans, Regex.spans_ofAlternate]
    exact Alternatives.spansAny_iff before after word alternatives
  | .literal c rest => by
    refine spansAll_cons (fun before after word => ?_) fun before word => Glob.spansAll_iff before after word rest
    simp [Spans, CharTest.accepts, mem_oneWith]

theorem Alternatives.spansAny_iff (before after word : List Char) :
    ∀ as : Alternatives, SpansAny before after as.regexes word ↔ word ∈ as.language
  | .last g => by
    simp [Alternatives.regexes, SpansAny, Alternatives.language, Regex.spans_ofConcat,
      Glob.spansAll_iff before after word g]
  | .more g rest => by
    simp [Alternatives.regexes, SpansAny, Alternatives.language, Regex.spans_ofConcat, Language.mem_add,
      Glob.spansAll_iff before after word g, Alternatives.spansAny_iff before after word rest]

end

private theorem height_ofConcat (rs : List Regex) : (ofConcat rs).height ≤ heightAll rs := by
  fun_cases ofConcat rs with
  | case1 r =>
    simp only [heightAll]
    omega
  | case2 => simp [Regex.height]

private theorem height_ofAlternate (rs : List Regex) : (ofAlternate rs).height ≤ heightAll rs := by
  fun_cases ofAlternate rs with
  | case1 r =>
    simp only [heightAll]
    omega
  | case2 => simp [Regex.height]

private theorem heightAll_append (rs others : List Regex) : heightAll (rs ++ others) = max (heightAll rs)
    (heightAll others) := by
  induction rs with
  | nil => simp [heightAll]
  | cons r rs ih =>
    simp only [List.cons_append, heightAll, ih]
    omega

mutual

/-- Each pair of braces adds three levels: its group, its alternation and the concatenation of an alternative. -/
theorem Glob.height_regexes : ∀ g : Glob, heightAll g.regexes ≤ 3 * g.depth + 2
  | .done => by simp [Glob.regexes, heightAll]
  | .anyOne rest | .anyRun rest | .charClass _ _ rest | .literal _ rest => by
    have later := Glob.height_regexes rest
    simp only [Glob.regexes, Glob.depth, heightAll, Regex.height]
    omega
  | .choice alternatives rest => by
    have inner := Alternatives.height_regexes alternatives
    have outer := height_ofAlternate alternatives.regexes
    have later := Glob.height_regexes rest
    simp only [Glob.regexes, Glob.depth, heightAll, Regex.height]
    omega

private theorem Alternatives.height_regexes : ∀ as : Alternatives, heightAll as.regexes ≤ 3 * as.depth + 3
  | .last g => by
    have only := Glob.height_regexes g
    have whole := height_ofConcat g.regexes
    simp only [Alternatives.regexes, Alternatives.depth, heightAll]
    omega
  | .more g rest => by
    have first := Glob.height_regexes g
    have whole := height_ofConcat g.regexes
    have later := Alternatives.height_regexes rest
    simp only [Alternatives.regexes, Alternatives.depth, heightAll]
    omega

end

/-- The regular expression of a pattern is read exactly where its pieces are, and the tree is not too high. -/
theorem read_regexText_iff (cs : List Char) (r : Regex) :
    Regex.read (regexText cs) = .ok r ↔ Reads [] (Level.empty.push .start) (pieces 0 cs) r ∧ r.height ≤ nestingLimit := by
  have scanned := scanned_pieces 0 cs
  have text : regexText cs = '^' :: Regex.piecesText (pieces 0 cs) := rfl
  have step : Regex.readFrom ((regexText cs).length + 1) [] .empty (regexText cs) =
      Regex.readFrom (regexText cs).length [] (Level.empty.push .start) (Regex.piecesText (pieces 0 cs)) := by
    rw [text]
    exact Regex.readFrom.eq_13 _ _ _ _
  unfold Regex.read
  rw [step]
  constructor
  · intro read
    split at read
    · simp at read
    · rename_i other whole
      split_ifs at read with high
      obtain rfl : other = r := by simpa using read
      exact ⟨Regex.reads_of_readFrom scanned whole, Nat.not_lt.mp high⟩
  · rintro ⟨reads, low⟩
    have whole := Regex.readFrom_of_reads reads scanned (regexText cs).length (by rw [text]; exact Nat.lt_succ_self _)
    rw [whole]
    simp [Nat.not_lt.mpr low]

/-- A text whose tree is not too deep is compiled to the items of the tree between the two anchors. -/
theorem read_of_spells {cs : List Char} {g : Glob} (spelled : Spells false cs g) (shallow : g.depth ≤ 16) :
    Regex.read (regexText cs) = .ok (.concat (.start :: (g.regexes ++ [.finish]))) := by
  rw [read_regexText_iff]
  have cut := spelled.pieces_eq 0 (by simp) [] (by simp)
  rw [List.append_nil, show pieces 0 [] = [] from by rw [pieces]] at cut
  rw [cut]
  have whole : (Level.push ⟨[], g.regexes.reverse ++ [.start]⟩ .finish).close =
      .concat (.start :: (g.regexes ++ [.finish])) := by
    cases g.regexes <;> simp [Level.push, Level.close, Level.nextBranch, ofAlternate, ofConcat]
  refine ⟨spelled.reads ?_ (whole ▸ .done), ?_⟩
  · simp only [List.length_nil, nestingLimit]
    omega
  · have items := g.height_regexes
    simp only [Regex.height, heightAll, heightAll_append, nestingLimit]
    omega

/-- Without wildcards a pattern stands for its own text. -/
theorem Spells.mem_language_plain {isInside : Bool} {text : List Char} {g : Glob} (word : List Char)
    (plain : ∀ c ∈ text, isWildcard c = false) : Spells isInside text g → (word ∈ g.language ↔ word = text)
  | .done => by simp [Glob.language]
  | .anyOne _ => absurd (plain '?' (by simp)) (by decide)
  | .anyRun _ => absurd (plain '*' (by simp)) (by decide)
  | .charClass spelled _ => by
    have opened := plain '[' (by cases spelled <;> simp)
    exact absurd opened (by decide)
  | .choice _ _ => absurd (plain '\x7b' (by simp)) (by decide)
  | @Spells.literal _ c text g _ rest => by
    have later (word : List Char) : word ∈ g.language ↔ word = text :=
      Spells.mem_language_plain word (fun d member => plain d (List.mem_cons_of_mem c member)) rest
    simp only [Glob.language, Language.mem_mul, mem_oneWith, later]
    constructor
    · rintro ⟨_, ⟨_, rfl, rfl⟩, _, rfl, rfl⟩
      rfl
    · rintro rfl
      exact ⟨[c], ⟨c, rfl, rfl⟩, text, rfl, rfl⟩

/-- A pattern that spells a tree compiles and matches the addresses of the tree. -/
theorem compile_of_spells (s : String) (shallow : nesting s ≤ 16) :
    (∃ g, Spells false s.toList g) → ∃ p, compile s = .ok p ∧
      ∀ g, Spells false s.toList g → ∀ address : String, p.isMatch address = true ↔ address.toList ∈ g.language := by
  rintro ⟨first, spelled⟩
  by_cases wild : hasWildcard s = true
  · have read (g : Glob) (spelled : Spells false s.toList g) :=
      read_of_spells spelled (nesting_of_spells spelled ▸ shallow)
    refine ⟨_, by rw [compile, if_pos wild, read first spelled]; rfl, fun g other address => ?_⟩
    have same : Regex.concat (.start :: (first.regexes ++ [.finish])) = .concat (.start :: (g.regexes ++ [.finish])) :=
      Except.ok.inj ((read first spelled).symm.trans (read g other))
    rw [isMatch, same, Regex.isMatch_anchored, g.spansAll_iff]
  · refine ⟨_, by rw [compile, if_neg wild], fun g other address => ?_⟩
    have plain : ∀ c ∈ s.toList, isWildcard c = false := by
      simpa [hasWildcard] using wild
    rw [isMatch, other.mem_language_plain address.toList plain, beq_iff_eq, String.toList_inj]

/-- A well-formed pattern whose braces are at most sixteen deep compiles, and it matches an address exactly when the
    address as a whole is in the language of the pattern. -/
theorem compile_isMatch_iff (s : String) (wellFormed : WellFormed s) (shallow : nesting s ≤ 16) :
    ∃ p, compile s = .ok p ∧ ∀ address : String, p.isMatch address = true ↔ address.toList ∈ language s := by
  obtain ⟨p, compiled, matched⟩ := compile_of_spells s shallow wellFormed
  obtain ⟨first, spelled⟩ := wellFormed
  refine ⟨p, compiled, fun address => ⟨fun found => ?_, ?_⟩⟩
  · exact ⟨first, spelled, (matched first spelled address).mp found⟩
  · rintro ⟨g, other, member⟩
    exact (matched g other address).mpr member

/-- Two alternatives, one of them a class and a run. -/
theorem compile_isMatch_choice : WellFormed "/\x7bx,![0-3]*\x7d" ∧ nesting "/\x7bx,![0-3]*\x7d" ≤ 16 ∧
    ∃ p, compile "/\x7bx,![0-3]*\x7d" = .ok p ∧
      ∀ address : String, p.isMatch address = true ↔ address.toList ∈ language "/\x7bx,![0-3]*\x7d" := by
  have digits : SpellsClass ['!', '[', '0', '-', '3', ']'] true [.range '0' '3'] :=
    @SpellsClass.markedBefore ['0', '-', '3'] _
      ⟨.range (by decide) (by decide) (by decide) .done, by decide, by simp [Member.IsOrdered]⟩
  have letter : Spells true ['x'] (.literal 'x' .done) :=
    .literal ⟨by decide, fun _ => by decide, fun mark => absurd mark (by decide)⟩ .done
  have second : Spells true ['!', '[', '0', '-', '3', ']', '*'] (.charClass true [.range '0' '3'] (.anyRun .done)) :=
    .charClass digits (.anyRun .done)
  have spelled : Spells false "/\x7bx,![0-3]*\x7d".toList _ :=
    .literal ⟨by decide, fun inside => absurd inside (by decide), fun mark => absurd mark (by decide)⟩
      (.choice (.more letter (.last second)) .done)
  have shallow : nesting "/\x7bx,![0-3]*\x7d" ≤ 16 := by
    rw [nesting_of_spells spelled]
    decide
  exact ⟨⟨_, spelled⟩, shallow, compile_isMatch_iff _ ⟨_, spelled⟩ shallow⟩

end OpenSound.Pattern
