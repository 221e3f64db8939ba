import OpenSound.Pattern.Regex

/-!
What it means for a regular expression to match, and that moving positions
through it finds exactly the matches.
-/

namespace OpenSound.Regex

mutual

/-- A word matches an expression where it stands, between what comes before and
    what comes after it in the text. Only the two anchors look at these. -/
def Spans (before after : List Char) : Regex → List Char → Prop
  | start, word => word = [] ∧ before = []
  | finish, word => word = [] ∧ after = []
  | single t, word => ∃ c, word = [c] ∧ t.accepts c = true
  | run t, word => ∀ c ∈ word, t.accepts c = true
  | group r, word => Spans before after r word
  | concat rs, word => SpansAll before after rs word
  | alternate rs, word => SpansAny before after rs word

/-- A word is cut into parts that match the expressions one after another. -/
def SpansAll (before after : List Char) : List Regex → List Char → Prop
  | [], word => word = []
  | r :: rs, word =>
    ∃ front back, word = front ++ back ∧ Spans before (back ++ after) r front ∧ SpansAll (before ++ front) after rs back

/-- A word matches one of the expressions. -/
def SpansAny (before after : List Char) : List Regex → List Char → Prop
  | [], _ => False
  | r :: rs, word => Spans before after r word ∨ SpansAny before after rs word

end

/-- The position after some front of the text is marked. -/
def Marked (marks : List Bool) (front : List Char) : Prop := marks[front.length]? = some true

@[simp] theorem marked_cons_nil (m : Bool) (marks : List Bool) : Marked (m :: marks) [] ↔ m = true := by
  simp [Marked]

@[simp] theorem marked_cons_cons (m : Bool) (marks : List Bool) (c : Char) (front : List Char) :
    Marked (m :: marks) (c :: front) ↔ Marked marks front := by
  simp [Marked]

@[simp] theorem nowhere_length (marks : List Bool) : (nowhere marks).length = marks.length := by
  simp [nowhere]

@[simp] theorem not_marked_nowhere (marks : List Bool) (front : List Char) : ¬Marked (nowhere marks) front := by
  rw [Marked, nowhere, List.getElem?_map]
  cases marks[front.length]? <;> simp

@[simp] theorem atStart_length (marks : List Bool) : (atStart marks).length = marks.length := by
  cases marks <;> simp [atStart]

@[simp] theorem atFinish_length (marks : List Bool) : (atFinish marks).length = marks.length := by
  fun_induction atFinish marks <;> simp_all

@[simp] theorem spread_length (t : CharTest) (reached : Bool) (cs : List Char) (marks : List Bool)
    (sized : marks.length = cs.length + 1) : (spread t reached cs marks).length = marks.length := by
  induction cs generalizing reached marks with
  | nil =>
    cases marks with
    | nil => simp at sized
    | cons m ms => simp_all [spread]
  | cons c cs ih =>
    cases marks with
    | nil => simp at sized
    | cons m ms =>
      have later := ih ((m || reached) && t.accepts c) ms (by simpa using sized)
      simp [spread, later]

mutual

/-- There are as many marks after an expression as before it. -/
theorem advance_length (cs : List Char) (marks : List Bool) (sized : marks.length = cs.length + 1) :
    ∀ r : Regex, (advance cs marks r).length = cs.length + 1
  | start => by simp [advance, sized]
  | finish => by simp [advance, sized]
  | single t => by simp [advance, sized]
  | run t => by simp [advance, spread_length t false cs marks sized, sized]
  | group r => by simpa only [advance] using advance_length cs marks sized r
  | concat rs => by simpa only [advance] using advanceAll_length cs marks sized rs
  | alternate rs => by simpa only [advance] using advanceAny_length cs marks sized rs

private theorem advanceAll_length (cs : List Char) (marks : List Bool) (sized : marks.length = cs.length + 1) :
    ∀ rs : List Regex, (advanceAll cs marks rs).length = cs.length + 1
  | [] => by simpa only [advanceAll] using sized
  | r :: rs => by
    simpa only [advanceAll] using advanceAll_length cs _ (advance_length cs marks sized r) rs

private theorem advanceAny_length (cs : List Char) (marks : List Bool) (sized : marks.length = cs.length + 1) :
    ∀ rs : List Regex, (advanceAny cs marks rs).length = cs.length + 1
  | [] => by simp [advanceAny, sized]
  | r :: rs => by
    simp [advanceAny, advance_length cs marks sized r, advanceAny_length cs marks sized rs]

end

private theorem atStart_marked (marks : List Bool) (front : List Char) :
    Marked (atStart marks) front ↔ front = [] ∧ Marked marks [] := by
  cases marks with
  | nil => simp [atStart, Marked]
  | cons m ms => cases front <;> simp [atStart]

private theorem atFinish_marked (marks : List Bool) (before after : List Char)
    (sized : marks.length = (before ++ after).length + 1) :
    Marked (atFinish marks) before ↔ after = [] ∧ Marked marks before := by
  induction before generalizing marks with
  | nil =>
    obtain ⟨m, ms, rfl⟩ := List.exists_cons_of_length_eq_add_one sized
    cases ms with
    | nil => simp_all [atFinish]
    | cons => cases after <;> simp_all [atFinish]
  | cons c before ih =>
    obtain ⟨m, ms, rfl⟩ := List.exists_cons_of_length_eq_add_one sized
    cases ms with
    | nil => simp at sized
    | cons second rest => simpa [atFinish] using ih (second :: rest) (by simpa using sized)

private theorem single_marked (t : CharTest) (marks : List Bool) (before after : List Char) :
    Marked (false :: List.zipWith (fun m c => m && t.accepts c) marks (before ++ after)) before ↔
      ∃ front word, before = front ++ word ∧ Marked marks front ∧ ∃ c, word = [c] ∧ t.accepts c = true := by
  rcases List.eq_nil_or_concat before with rfl | ⟨front, c, rfl⟩
  · simp
  · rw [List.concat_eq_append]
    have value : Marked (false :: List.zipWith (fun m c => m && t.accepts c) marks (front ++ [c] ++ after))
        (front ++ [c]) ↔ Marked marks front ∧ t.accepts c = true := by
      simp [Marked, List.getElem?_zipWith]
      cases marks[front.length]? <;> simp
    rw [value]
    constructor
    · rintro ⟨marked, accepted⟩
      exact ⟨front, [c], rfl, marked, c, rfl, accepted⟩
    · rintro ⟨other, word, split, marked, d, rfl, accepted⟩
      obtain ⟨rfl, rfl⟩ : front = other ∧ c = d := by simpa using split
      exact ⟨marked, accepted⟩

/-- A run carries a mark over accepted characters, and so it does with the mark that it was given at its front. -/
theorem spread_marked (t : CharTest) (reached : Bool) (marks : List Bool) (before after : List Char)
    (sized : marks.length = (before ++ after).length + 1) :
    Marked (spread t reached (before ++ after) marks) before ↔
      (reached = true ∧ ∀ c ∈ before, t.accepts c = true) ∨
        ∃ front word, before = front ++ word ∧ Marked marks front ∧ ∀ c ∈ word, t.accepts c = true := by
  induction before generalizing reached marks with
  | nil =>
    obtain ⟨m, ms, rfl⟩ := List.exists_cons_of_length_eq_add_one sized
    have opened : Marked (spread t reached ([] ++ after) (m :: ms)) [] ↔ (m || reached) = true := by
      cases after <;> simp [spread]
    rw [opened]
    simp only [List.nil_eq, List.append_eq_nil_iff, Bool.or_eq_true, List.not_mem_nil, false_implies, implies_true,
      and_true]
    constructor
    · rintro (here | earlier)
      · exact .inr ⟨[], [], ⟨rfl, rfl⟩, by simpa using here, by simp⟩
      · exact .inl earlier
    · rintro (earlier | ⟨_, _, ⟨rfl, rfl⟩, marked, -⟩)
      · exact .inr earlier
      · exact .inl (by simpa using marked)
  | cons c before ih =>
    obtain ⟨m, ms, rfl⟩ := List.exists_cons_of_length_eq_add_one sized
    simp only [List.cons_append, spread, marked_cons_cons]
    rw [ih _ ms (by simpa using sized)]
    constructor
    · rintro (⟨carried, accepted⟩ | ⟨front, word, rfl, marked, accepted⟩)
      · simp only [Bool.and_eq_true, Bool.or_eq_true] at carried
        obtain ⟨here | earlier, first⟩ := carried
        · exact .inr ⟨[], c :: before, rfl, by simpa using here, by simpa using ⟨first, accepted⟩⟩
        · exact .inl ⟨earlier, by simpa using ⟨first, accepted⟩⟩
      · exact .inr ⟨c :: front, word, rfl, by simpa using marked, accepted⟩
    · rintro (⟨earlier, accepted⟩ | ⟨front, word, split, marked, accepted⟩)
      · simp only [List.mem_cons, forall_eq_or_imp] at accepted
        exact .inl ⟨by simp [earlier, accepted.1], accepted.2⟩
      · cases front with
        | nil =>
          obtain rfl : c :: before = word := split
          simp only [List.mem_cons, forall_eq_or_imp] at accepted
          exact .inl ⟨by simp [(marked_cons_nil m ms).mp marked, accepted.1], accepted.2⟩
        | cons d front =>
          obtain ⟨rfl, rfl⟩ : c = d ∧ before = front ++ word := by simpa using split
          exact .inr ⟨front, word, rfl, by simpa using marked, accepted⟩

mutual

/-- A position is reached through an expression exactly when a word that matches there leads to it from a mark. -/
theorem advance_marked (before after : List Char) (marks : List Bool)
    (sized : marks.length = (before ++ after).length + 1) :
    ∀ r : Regex, Marked (advance (before ++ after) marks r) before ↔
      ∃ front word, before = front ++ word ∧ Marked marks front ∧ Spans front after r word
  | start => by
    rw [advance, atStart_marked]
    simp only [Spans]
    constructor
    · rintro ⟨rfl, marked⟩
      exact ⟨[], [], rfl, marked, rfl, rfl⟩
    · rintro ⟨front, word, rfl, marked, rfl, rfl⟩
      exact ⟨rfl, marked⟩
  | finish => by
    rw [advance, atFinish_marked marks before after sized]
    simp only [Spans]
    constructor
    · rintro ⟨last, marked⟩
      exact ⟨before, [], by simp, marked, rfl, last⟩
    · rintro ⟨front, word, rfl, marked, rfl, last⟩
      exact ⟨last, by simpa using marked⟩
  | single t => by simpa only [advance, Spans] using single_marked t marks before after
  | run t => by simpa only [advance, Spans, Bool.false_eq_true, false_and, false_or]
      using spread_marked t false marks before after sized
  | group r => by simpa only [advance, Spans] using advance_marked before after marks sized r
  | concat rs => by simpa only [advance, Spans] using advanceAll_marked before after marks sized rs
  | alternate rs => by simpa only [advance, Spans] using advanceAny_marked before after marks sized rs

private theorem advanceAll_marked (before after : List Char) (marks : List Bool)
    (sized : marks.length = (before ++ after).length + 1) :
    ∀ rs : List Regex, Marked (advanceAll (before ++ after) marks rs) before ↔
      ∃ front word, before = front ++ word ∧ Marked marks front ∧ SpansAll front after rs word
  | [] => by
    simp only [advanceAll, SpansAll]
    constructor
    · intro marked
      exact ⟨before, [], by simp, marked, rfl⟩
    · rintro ⟨front, word, rfl, marked, rfl⟩
      simpa using marked
  | r :: rs => by
    rw [advanceAll, advanceAll_marked before after _ (advance_length _ marks sized r) rs]
    simp only [SpansAll]
    constructor
    · rintro ⟨middle, back, rfl, marked, later⟩
      rw [List.append_assoc] at marked sized
      obtain ⟨front, word, rfl, marked, first⟩ := (advance_marked middle (back ++ after) marks sized r).mp marked
      exact ⟨front, word ++ back, by simp, marked, word, back, rfl, first, later⟩
    · rintro ⟨front, _, rfl, marked, word, back, rfl, first, later⟩
      refine ⟨front ++ word, back, by simp, ?_, later⟩
      have reached := (advance_marked (front ++ word) (back ++ after) marks (by simpa using sized) r).mpr
        ⟨front, word, rfl, marked, first⟩
      simpa using reached

private theorem advanceAny_marked (before after : List Char) (marks : List Bool)
    (sized : marks.length = (before ++ after).length + 1) :
    ∀ rs : List Regex, Marked (advanceAny (before ++ after) marks rs) before ↔
      ∃ front word, before = front ++ word ∧ Marked marks front ∧ SpansAny front after rs word
  | [] => by simp [advanceAny, SpansAny]
  | r :: rs => by
    have first := advance_marked before after marks sized r
    have later := advanceAny_marked before after marks sized rs
    have joined : Marked (advanceAny (before ++ after) marks (r :: rs)) before ↔
        Marked (advance (before ++ after) marks r) before ∨ Marked (advanceAny (before ++ after) marks rs) before := by
      have inFirst : before.length < (advance (before ++ after) marks r).length := by
        rw [advance_length _ marks sized r, List.length_append]
        omega
      have inLater : before.length < (advanceAny (before ++ after) marks rs).length := by
        rw [advanceAny_length _ marks sized rs, List.length_append]
        omega
      simp [Marked, advanceAny, List.getElem?_zipWith, List.getElem?_eq_getElem inFirst,
        List.getElem?_eq_getElem inLater]
    rw [joined, first, later]
    simp only [SpansAny]
    constructor
    · rintro (⟨front, word, split, marked, spans⟩ | ⟨front, word, split, marked, spans⟩)
      · exact ⟨front, word, split, marked, .inl spans⟩
      · exact ⟨front, word, split, marked, .inr spans⟩
    · rintro ⟨front, word, split, marked, spans | spans⟩
      · exact .inl ⟨front, word, split, marked, spans⟩
      · exact .inr ⟨front, word, split, marked, spans⟩

end

/-- The search finds a match exactly when some part of the text matches. -/
theorem isMatch_iff (r : Regex) (text : List Char) :
    r.isMatch text = true ↔ ∃ before word after, text = before ++ word ++ after ∧ Spans before after r word := by
  have sized : (true :: text.map fun _ => true).length = text.length + 1 := by simp
  have everywhere (front : List Char) (within : front.length ≤ text.length) :
      Marked (true :: text.map fun _ => true) front := by
    cases front with
    | nil => simp
    | cons c front =>
      have inside : front.length < text.length := within
      rw [marked_cons_cons, Marked, List.getElem?_map, List.getElem?_eq_getElem inside]
      rfl
  unfold isMatch
  simp only [List.any_eq_true, id_eq, exists_eq_right]
  constructor
  · intro reached
    obtain ⟨j, bounded, value⟩ := List.mem_iff_getElem.mp reached
    have within : j ≤ text.length := by
      rw [advance_length text _ sized r] at bounded
      omega
    have split : text = text.take j ++ text.drop j := (List.take_append_drop j text).symm
    have marked : Marked (advance (text.take j ++ text.drop j) (true :: text.map fun _ => true) r) (text.take j) := by
      rw [List.take_append_drop, Marked, List.length_take, Nat.min_eq_left within,
        List.getElem?_eq_getElem bounded, value]
    obtain ⟨front, word, cut, -, spans⟩ := (advance_marked _ _ _ (by simp) r).mp marked
    exact ⟨front, word, text.drop j, by rw [← cut, ← split], spans⟩
  · rintro ⟨front, word, after, rfl, spans⟩
    have marked := (advance_marked (front ++ word) after _ sized r).mpr
      ⟨front, word, rfl, everywhere front (by simp), spans⟩
    exact List.mem_of_getElem? marked

theorem spans_ofConcat (before after : List Char) (rs : List Regex) (word : List Char) :
    Spans before after (ofConcat rs) word ↔ SpansAll before after rs word := by
  fun_cases ofConcat rs with
  | case1 r =>
    simp only [SpansAll]
    constructor
    · intro spans
      exact ⟨word, [], by simp, by simpa using spans, rfl⟩
    · rintro ⟨front, back, rfl, spans, rfl⟩
      simpa using spans
  | case2 => rw [Spans]

theorem spans_ofAlternate (before after : List Char) (rs : List Regex) (word : List Char) :
    Spans before after (ofAlternate rs) word ↔ SpansAny before after rs word := by
  fun_cases ofAlternate rs with
  | case1 r => simp [SpansAny]
  | case2 => rw [Spans]

private theorem spansAll_append (before after : List Char) (rs others : List Regex) (word : List Char) :
    SpansAll before after (rs ++ others) word ↔
      ∃ front back, word = front ++ back ∧ SpansAll before (back ++ after) rs front ∧
        SpansAll (before ++ front) after others back := by
  induction rs generalizing before word with
  | nil =>
    simp only [List.nil_append, SpansAll]
    constructor
    · intro spans
      exact ⟨[], word, rfl, rfl, by simpa using spans⟩
    · rintro ⟨front, back, rfl, rfl, spans⟩
      simpa using spans
  | cons r rs ih =>
    simp only [List.cons_append, SpansAll, ih]
    constructor
    · rintro ⟨first, _, rfl, spans, middle, back, rfl, inner, outer⟩
      exact ⟨first ++ middle, back, by simp, ⟨first, middle, rfl, by simpa using spans, inner⟩, by simpa using outer⟩
    · rintro ⟨_, back, rfl, ⟨first, middle, rfl, spans, inner⟩, outer⟩
      exact ⟨first, middle ++ back, by simp, by simpa using spans, middle, back, rfl, inner, by simpa using outer⟩

/-- Between the two anchors a match is a match of the whole text. -/
theorem isMatch_anchored (rs : List Regex) (text : List Char) :
    (concat (start :: (rs ++ [finish]))).isMatch text = true ↔ SpansAll [] [] rs text := by
  simp only [isMatch_iff, Spans, SpansAll, spansAll_append]
  constructor
  · rintro ⟨_, _, after, rfl, _, _, rfl, ⟨rfl, rfl⟩, front, _, rfl, spans, _, _, rfl, ⟨rfl, last⟩, rfl⟩
    obtain rfl : after = [] := by simpa using last
    simpa using spans
  · intro spans
    exact ⟨[], text, [], by simp, [], text, rfl, ⟨rfl, rfl⟩, text, [], by simp, by simpa using spans, [], [], rfl,
      ⟨rfl, rfl⟩, rfl⟩

end OpenSound.Regex
