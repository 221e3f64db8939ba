import OpenSound.Proofs.Transport.Framing

/-!
# The end of a stream

A stream can end before a frame, inside the length of one, or inside its packet. Reading tells the last from the first,
but takes the second for the first: whatever is left of a length is lost, and nobody is told.
-/

namespace OpenSound

open Wire

namespace Stream

/-- What stands behind the bytes that arrive: the end of the stream, which an empty piece is too, or a reset. -/
def interruption : Stream → StreamFault
  | [] => .unexpectedEnd
  | .reset :: _ => .reset
  | .bytes piece :: rest => if piece = [] then .unexpectedEnd else interruption rest

private theorem IsUnbroken.interruption_eq {s : Stream} (unbroken : s.IsUnbroken) :
    s.interruption = .unexpectedEnd := by
  induction s with
  | nil => rfl
  | cons a rest ih =>
    obtain ⟨⟨piece, inhabited, rfl⟩, others⟩ := List.forall_mem_cons.mp unbroken
    rw [interruption, if_neg inhabited, ih others]

/-- Where more bytes are wanted than arrive, what stands behind them is reported. -/
theorem take_interrupted {s : Stream} {wanted : Nat} (short : s.reach.length < wanted) :
    ∃ rest, take wanted s = (.error s.interruption, rest) := by
  induction s generalizing wanted with
  | nil => exact ⟨[], if_neg (Nat.ne_zero_of_lt short)⟩
  | cons a later ih =>
    have some : wanted ≠ 0 := Nat.ne_zero_of_lt short
    cases a with
    | reset => exact ⟨later, if_neg some⟩
    | bytes piece =>
      rw [take, if_neg some, interruption]
      by_cases empty : piece = []
      · exact ⟨later, by rw [if_pos empty, if_pos empty]⟩
      rw [reach, if_neg empty, List.length_append] at short
      have others : (reach later).length < wanted - piece.length := by omega
      obtain ⟨rest, failed⟩ := ih others
      refine ⟨rest, ?_⟩
      rw [if_neg empty, if_neg (by omega), failed, if_neg empty]

/-- Taking bytes that arrive leaves what stands behind them. -/
theorem interruption_of_take {s rest : Stream} {wanted : Nat} {bytes : List UInt8}
    (taken : take wanted s = (.ok bytes, rest)) : rest.interruption = s.interruption := by
  induction s generalizing wanted bytes with
  | nil =>
    rw [take] at taken
    split at taken <;> cases taken
    rfl
  | cons a later ih =>
    by_cases none : wanted = 0
    · subst none
      have nothing : take 0 (a :: later) = (.ok [], a :: later) := by cases a <;> rfl
      rw [nothing] at taken
      cases taken
      rfl
    cases a with
    | reset =>
      rw [take, if_neg none] at taken
      cases taken
    | bytes piece =>
      rw [take, if_neg none] at taken
      by_cases empty : piece = []
      · rw [if_pos empty] at taken
        cases taken
      rw [if_neg empty] at taken
      rw [interruption, if_neg empty]
      by_cases inside : wanted < piece.length
      · have more : piece.drop wanted ≠ [] := by simpa using inside
        rw [if_pos inside] at taken
        cases taken
        rw [interruption, if_neg more]
      · rw [if_neg inside] at taken
        split at taken
        · rename_i others
          cases taken
          exact ih others
        · cases taken

/-- A stream that ends when some bytes of a length have arrived, but not all of them. -/
def EndsInLength (s : Stream) : Prop :=
  s.interruption = .unexpectedEnd ∧ s.reach ≠ [] ∧ s.reach.length < framePrefixWidth

end Stream

/-- Without a complete length, an end of the stream counts as the end of the packets. -/
theorem readFrame_short {max : Nat} {s : Stream} (short : s.reach.length < framePrefixWidth) :
    (readFrame max s).1 =
      if s.interruption = .unexpectedEnd then .ended else .failed (.stream s.interruption) := by
  obtain ⟨rest, failed⟩ := Stream.take_interrupted short
  rw [readFrame, failed]
  cases s.interruption <;> rfl

/-- With a complete length, no end of the stream counts as the end of the packets. -/
theorem readFrame_ne_ended {max : Nat} {s : Stream} (long : framePrefixWidth ≤ s.reach.length) :
    (readFrame max s).1 ≠ .ended := by
  obtain ⟨body, header, -, -⟩ := Stream.take_of_le long
  rw [readFrame, header]
  dsimp only
  split_ifs
  · simp
  · split <;> simp

theorem readFrame_ended_iff {max : Nat} {s : Stream} :
    (readFrame max s).1 = .ended ↔ s.interruption = .unexpectedEnd ∧ s.reach.length < framePrefixWidth := by
  by_cases short : s.reach.length < framePrefixWidth
  · rw [readFrame_short short, and_iff_left short]
    split_ifs with ends
    · exact iff_of_true rfl ends
    · exact iff_of_false (by simp) ends
  · exact iff_of_false (readFrame_ne_ended (Nat.le_of_not_lt short)) fun ended => short ended.2

/-- A packet that does not arrive whole behind its length is reported as what interrupted it. -/
theorem readFrame_cut {max length : Nat} {s : Stream} {body : List UInt8} (fits : length ≤ max)
    (small : length < UInt32.size) (arrives : s.reach = bigEndian framePrefixWidth length ++ body)
    (cut : body.length < length) : (readFrame max s).1 = .failed (.stream s.interruption) := by
  have width : (bigEndian framePrefixWidth length).length = framePrefixWidth := bigEndian_length ..
  have long : framePrefixWidth ≤ s.reach.length := by rw [arrives, List.length_append, width]; omega
  obtain ⟨rest, header, left, -⟩ := Stream.take_of_le long
  have behind := Stream.interruption_of_take header
  rw [arrives, List.take_left' width] at header
  rw [arrives, List.drop_left' width] at left
  have named : ofBigEndian (bigEndian framePrefixWidth length) = length := by
    rw [ofBigEndian_bigEndian]
    exact Nat.mod_eq_of_lt small
  obtain ⟨last, failed⟩ := Stream.take_interrupted (left ▸ cut)
  simp only [readFrame, header, named, if_neg (Nat.not_lt_of_le fits), failed, behind]

/-- Behind frames that arrive whole, reading comes to the end of the packets exactly where less than a length is left. -/
theorem readFrames_ended_iff {max : Nat} {s : Stream} {packets : List (List UInt8)} {rest : List UInt8}
    (unbroken : s.IsUnbroken) (fits : ∀ packet ∈ packets, Fits max packet)
    (arrives : s.reach = packets.flatMap frame ++ rest) :
    (readFrames max (packets.length + 1) s).map (·.1) = packets.map .packet ++ [.ended] ↔
      rest.length < framePrefixWidth := by
  obtain ⟨last, left, keeps, reads⟩ := readFrames_run fits arrives
  have ended : (readFrame max last).1 = .ended ↔ last.interruption = .unexpectedEnd ∧ last.reach.length < framePrefixWidth :=
    readFrame_ended_iff
  rw [(keeps unbroken).interruption_eq, left] at ended
  rw [reads 1, List.append_cancel_left_eq]
  simpa [readFrames] using ended

/-- What is said of a stream that ends: only where nothing of a frame has arrived is that the end of the packets; inside
    a length, and inside a packet that is not too large, it is an unexpected end. -/
structure EndsAsDocumented (max : Nat) (s : Stream) : Prop where
  clean : (readFrame max s).1 = .ended ↔ s.interruption = .unexpectedEnd ∧ s.reach = []
  inLength : s.EndsInLength → (readFrame max s).1 = .failed (.stream .unexpectedEnd)
  inPacket : s.interruption = .unexpectedEnd → ∀ length body, length ≤ max → length < UInt32.size →
    s.reach = bigEndian framePrefixWidth length ++ body → body.length < length →
    (readFrame max s).1 = .failed (.stream .unexpectedEnd)

/-- This is so exactly for the streams that do not end inside a length. Reading takes those for streams that have come
    to the end of their packets; only a packet that is cut short tells that a stream has ended too early. So a
    connection whose first frames arrive whole seems to be closed behind them if it ends anywhere before the length of
    the next one is complete. -/
theorem endsAsDocumented_iff (max : Nat) (s : Stream) :
    (EndsAsDocumented max s ↔ ¬s.EndsInLength) ∧
    ((readFrame max s).1 = .ended ↔ s.interruption = .unexpectedEnd ∧ s.reach.length < framePrefixWidth) ∧
    (∀ length body, length ≤ max → length < UInt32.size → s.reach = bigEndian framePrefixWidth length ++ body →
      body.length < length → (readFrame max s).1 = .failed (.stream s.interruption)) ∧
    ∀ packets rest, s.IsUnbroken → (∀ packet ∈ packets, Fits max packet) →
      s.reach = List.flatMap frame packets ++ rest →
      ((readFrames max (packets.length + 1) s).map (·.1) = packets.map .packet ++ [.ended] ↔
        rest.length < framePrefixWidth) := by
  refine ⟨⟨fun documented ends => ?_, fun whole => ⟨⟨?_, ?_⟩, fun ends => absurd ends whole, ?_⟩⟩, readFrame_ended_iff,
    fun _ _ fits small arrives cut => readFrame_cut fits small arrives cut,
    fun _ _ unbroken fits arrives => readFrames_ended_iff unbroken fits arrives⟩
  · have ended : (readFrame max s).1 = .ended := readFrame_ended_iff.mpr ⟨ends.1, ends.2.2⟩
    rw [documented.inLength ends] at ended
    cases ended
  · intro ended
    obtain ⟨interrupted, short⟩ := readFrame_ended_iff.mp ended
    exact ⟨interrupted, by_contra fun some => whole ⟨interrupted, some, short⟩⟩
  · rintro ⟨interrupted, nothing⟩
    exact readFrame_ended_iff.mpr ⟨interrupted, by rw [nothing]; decide⟩
  · intro interrupted length body fits small arrives cut
    rw [readFrame_cut fits small arrives cut, interrupted]

/-- A stream that ends behind the first byte of a length has come to its end, as far as reading tells. -/
theorem not_endsAsDocumented_one_byte :
    ¬EndsAsDocumented 1024 [.bytes [0]] ∧ readFrame 1024 [.bytes [0]] = (.ended, []) := by
  have ended : readFrame 1024 [.bytes [0]] = (.ended, []) := by rfl
  refine ⟨fun documented => ?_, ended⟩
  have failed := documented.inLength ⟨rfl, by simp [Stream.reach], by decide⟩
  rw [ended] at failed
  cases failed

end OpenSound
