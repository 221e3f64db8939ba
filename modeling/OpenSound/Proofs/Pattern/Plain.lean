import OpenSound.Pattern.Basic
import OpenSound.Proofs.Pattern.Meaning

/-!
# Text without wildcards

A text without wildcards spells its own characters, alone and in front of a pattern. So the regular expression that it
stands for is read and matches the text itself and nothing else, which is what comparing addresses with the text answers
without any expression.
-/

namespace OpenSound.Pattern

/-- Characters in front of a tree. -/
def Glob.behind (cs : List Char) (g : Glob) : Glob := cs.foldr .literal g

private theorem Glob.depth_behind (cs : List Char) (g : Glob) : (g.behind cs).depth = g.depth := by
  induction cs with
  | nil => rfl
  | cons c cs ih => exact ih

private theorem Glob.mem_language_behind {cs word : List Char} {g : Glob} :
    word ∈ (g.behind cs).language ↔ ∃ rest ∈ g.language, word = cs ++ rest := by
  induction cs generalizing word with
  | nil => simp [behind]
  | cons c cs ih =>
    change word ∈ oneWith (· = c) * (g.behind cs).language ↔ _
    simp only [Language.mem_mul, mem_oneWith, ih]
    constructor
    · rintro ⟨_, ⟨_, rfl, rfl⟩, _, ⟨rest, member, rfl⟩, rfl⟩
      exact ⟨rest, member, rfl⟩
    · rintro ⟨rest, member, rfl⟩
      exact ⟨[c], ⟨c, rfl, rfl⟩, cs ++ rest, ⟨rest, member, rfl⟩, rfl⟩

/-- Characters without wildcards spell themselves in front of a pattern. A bracket right behind them would make a class
    with their last one, if that is an exclamation mark. -/
theorem spells_behind {cs rest : List Char} {g : Glob} (plain : ∀ c ∈ cs, isWildcard c = false)
    (unopened : rest.head? ≠ some '[') (spelled : Spells false rest g) : Spells false (cs ++ rest) (g.behind cs) := by
  induction cs with
  | nil => exact spelled
  | cons c cs ih =>
    obtain ⟨own, others⟩ := List.forall_mem_cons.mp plain
    have notWild (d : Char) (wild : isWildcard d = true) : c ≠ d := by
      rintro rfl
      simp [own] at wild
    refine .literal ⟨⟨notWild _ rfl, notWild _ rfl, notWild _ rfl, notWild _ rfl, notWild _ rfl⟩, nofun, ?_⟩ (ih others)
    intro _ opened
    cases cs with
    | nil => exact unopened opened
    | cons d cs =>
      obtain rfl : d = '[' := Option.some.inj opened
      exact absurd (others '[' List.mem_cons_self) (by decide)

private theorem plain_of_not_hasWildcard {s : String} (plain : hasWildcard s = false) :
    ∀ c ∈ s.toList, isWildcard c = false := by
  simpa [hasWildcard] using plain

/-- A text without wildcards in front of a pattern that is not too deep: together they compile, and match the addresses
    that are the text with an address of the pattern behind it. -/
theorem compile_behind {w tail : String} {g : Glob} (plain : hasWildcard w = false)
    (unopened : tail.toList.head? ≠ some '[') (spelled : Spells false tail.toList g) (shallow : g.depth ≤ 16) :
    ∃ p, compile (w ++ tail) = .ok p ∧
      ∀ address : String, p.isMatch address = true ↔ ∃ t : String, t.toList ∈ g.language ∧ address = w ++ t := by
  have whole : Spells false (w ++ tail).toList (g.behind w.toList) := by
    rw [String.toList_append]
    exact spells_behind (plain_of_not_hasWildcard plain) unopened spelled
  have low : nesting (w ++ tail) ≤ 16 := by
    rw [nesting_of_spells whole, g.depth_behind]
    exact shallow
  obtain ⟨p, compiled, matched⟩ := compile_of_spells _ low ⟨_, whole⟩
  refine ⟨p, compiled, fun address => ?_⟩
  rw [matched _ whole address, Glob.mem_language_behind]
  constructor
  · rintro ⟨rest, member, same⟩
    refine ⟨String.ofList rest, by rwa [String.toList_ofList], ?_⟩
    rw [← String.toList_inj, same, String.toList_append, String.toList_ofList]
  · rintro ⟨t, member, rfl⟩
    exact ⟨t.toList, member, String.toList_append⟩

/-- A pattern that compiles, and just the addresses that it matches. -/
def Matches (pattern : String) (addresses : String → Prop) : Prop :=
  ∃ p, compile pattern = .ok p ∧ ∀ address, p.isMatch address = true ↔ addresses address

/-- A run behind a text stands for every continuation on the same line. -/
theorem matches_run {w : String} (plain : hasWildcard w = false) :
    Matches (w ++ "*") fun address => ∃ t : String, '\n' ∉ t.toList ∧ address = w ++ t := by
  have spelled : Spells false "*".toList (.anyRun .done) := .anyRun .done
  obtain ⟨p, compiled, matched⟩ := compile_behind plain (by decide) spelled (by decide)
  refine ⟨p, compiled, fun address => (matched address).trans (exists_congr fun t => and_congr_left fun _ => ?_)⟩
  rw [Glob.language, Glob.language, mul_one]
  exact ⟨fun each member => each _ member rfl, fun free c member same => free (same ▸ member)⟩

/-- A single wildcard behind a text stands for every character but the line break. -/
theorem matches_single {w : String} (plain : hasWildcard w = false) :
    Matches (w ++ "?") fun address => ∃ c, c ≠ '\n' ∧ address = w ++ String.singleton c := by
  have spelled : Spells false "?".toList (.anyOne .done) := .anyOne .done
  obtain ⟨p, compiled, matched⟩ := compile_behind plain (by decide) spelled (by decide)
  refine ⟨p, compiled, fun address => (matched address).trans ?_⟩
  rw [Glob.language, Glob.language, mul_one]
  constructor
  · rintro ⟨t, ⟨c, one, other⟩, rfl⟩
    exact ⟨c, other, by rw [← String.ofList_toList (s := t), one]; rfl⟩
  · rintro ⟨c, other, rfl⟩
    exact ⟨String.singleton c, ⟨c, by simp, other⟩, rfl⟩

/-- A text without wildcards is not compiled, but its regular expression could be read, and matches the text alone. -/
theorem regex_of_plain {s : String} (plain : hasWildcard s = false) :
    ∃ r, Regex.read (regexText s.toList) = .ok r ∧ compile s = .ok (.exact s) ∧
      ∀ address : String, r.isMatch address.toList = true ↔ address = s := by
  have spelled := spells_behind (plain_of_not_hasWildcard plain) (by simp) .done
  rw [List.append_nil] at spelled
  have read := read_of_spells spelled (by rw [Glob.depth_behind]; exact Nat.zero_le _)
  refine ⟨_, read, by rw [compile, if_neg (by simp [plain])], fun address => ?_⟩
  rw [Regex.isMatch_anchored, Glob.spansAll_iff, Glob.mem_language_behind, ← String.toList_inj]
  simp [Glob.language]

/-- A text without wildcards is compared with addresses as it is, and this is no short cut: its regular expression can be
    read, and it matches exactly the addresses that are the text. -/
theorem compile_agrees_with_regex (s : String) (plain : hasWildcard s = false) :
    ∃ p r, compile s = .ok p ∧ Regex.read (regexText s.toList) = .ok r ∧ ∀ address : String,
      (r.isMatch address.toList = true ↔ address = s) ∧ p.isMatch address = r.isMatch address.toList := by
  obtain ⟨r, read, compiled, matched⟩ := regex_of_plain plain
  refine ⟨exact s, r, compiled, read, fun address => ⟨matched address, ?_⟩⟩
  rw [Bool.eq_iff_iff, matched, isMatch, beq_iff_eq]

/-- Characters that mean something in regular expressions, in front of a line break. -/
theorem compile_agrees_with_regex_special : hasWildcard "/a.b|(c)+$^\\!,\n" = false ∧
    ∃ r, Regex.read (regexText "/a.b|(c)+$^\\!,\n".toList) = .ok r ∧
      r.isMatch "/a.b|(c)+$^\\!,\n".toList = true ∧ r.isMatch "/aXb|(c)+$^\\!,\n".toList = false := by
  have plain : hasWildcard "/a.b|(c)+$^\\!,\n" = false := by decide +kernel
  obtain ⟨p, r, compiled, read, matched⟩ := compile_agrees_with_regex _ plain
  have other : r.isMatch "/aXb|(c)+$^\\!,\n".toList ≠ true := fun found =>
    absurd ((matched _).1.mp found) (by decide +kernel)
  exact ⟨plain, r, read, (matched _).1.mpr rfl, by simpa using other⟩

end OpenSound.Pattern
