import OpenSound.Proofs.Wire.Elements
import OpenSound.Transport.Frame

/-!
# Frames on a byte stream

What is read from a stream depends on the bytes that arrive on it before anything interrupts it, and not on the pieces
in which they arrive. A packet is read exactly where a complete frame stands at the front of these bytes. So reading
gives back what was written, and from any stream it gives the packets of the longest run of complete frames.
-/

namespace OpenSound

open Wire

namespace Stream

/-- The bytes that arrive on a stream before it ends or is reset. An empty piece is an end. -/
def reach : Stream → List UInt8
  | [] => []
  | .reset :: _ => []
  | .bytes piece :: rest => if piece = [] then [] else piece ++ reach rest

theorem reach_bytes (piece : List UInt8) : reach [.bytes piece] = piece := by
  simp [reach, eq_comm]

/-- A stream that only ends when everything has arrived. -/
def IsUnbroken (s : Stream) : Prop := ∀ a ∈ s, ∃ piece ≠ [], a = .bytes piece

private theorem reach_length_le (s : Stream) : s.reach.length ≤ s.remaining := by
  induction s with
  | nil => exact Nat.le_refl 0
  | cons a rest ih =>
    cases a with
    | reset => exact Nat.zero_le _
    | bytes piece =>
      rw [reach, remaining]
      split
      · exact Nat.zero_le _
      · rw [List.length_append]
        omega

private theorem IsUnbroken.eq_nil {s : Stream} (unbroken : s.IsUnbroken) (empty : s.reach = []) : s = [] := by
  cases s with
  | nil => rfl
  | cons a rest =>
    obtain ⟨piece, inhabited, rfl⟩ := unbroken a List.mem_cons_self
    rw [reach, if_neg inhabited] at empty
    exact absurd (List.append_eq_nil_iff.mp empty).1 inhabited

/-- Bytes that arrive are taken from the front, in however many pieces they arrive. -/
theorem take_of_le {s : Stream} {wanted : Nat} (enough : wanted ≤ s.reach.length) :
    ∃ rest, take wanted s = (.ok (s.reach.take wanted), rest) ∧ rest.reach = s.reach.drop wanted ∧
      (s.IsUnbroken → rest.IsUnbroken) := by
  induction s generalizing wanted with
  | nil =>
    obtain rfl : wanted = 0 := Nat.le_zero.mp enough
    exact ⟨[], rfl, rfl, id⟩
  | cons a later ih =>
    by_cases none : wanted = 0
    · subst none
      exact ⟨a :: later, by cases a <;> rfl, rfl, id⟩
    cases a with
    | reset => exact absurd (Nat.le_zero.mp enough) none
    | bytes piece =>
      by_cases empty : piece = []
      · rw [reach, if_pos empty] at enough
        exact absurd (Nat.le_zero.mp enough) none
      rw [reach, if_neg empty, List.length_append] at enough
      rw [take, if_neg none, if_neg empty, reach, if_neg empty]
      by_cases inside : wanted < piece.length
      · have more : piece.drop wanted ≠ [] := by simpa using inside
        refine ⟨.bytes (piece.drop wanted) :: later, ?_, ?_, fun unbroken => ?_⟩
        · rw [if_pos inside, List.take_append_of_le_length inside.le]
        · rw [reach, if_neg more, List.drop_append_of_le_length inside.le]
        · exact List.forall_mem_cons.mpr ⟨⟨_, more, rfl⟩, (List.forall_mem_cons.mp unbroken).2⟩
      · have behind : piece.length ≤ wanted := Nat.le_of_not_lt inside
        have others : wanted - piece.length ≤ (reach later).length := by omega
        obtain ⟨rest, taken, left, keeps⟩ := ih others
        refine ⟨rest, ?_, ?_, fun unbroken => keeps (List.forall_mem_cons.mp unbroken).2⟩
        · rw [if_neg inside, taken, List.take_append, List.take_of_length_le behind]
        · rw [left, List.drop_append, List.drop_of_length_le behind, List.nil_append]

/-- More bytes than arrive cannot be taken. -/
theorem take_of_lt {s : Stream} {wanted : Nat} (short : s.reach.length < wanted) :
    ∃ fault rest, take wanted s = (.error fault, rest) ∧ (s.IsUnbroken → fault = .unexpectedEnd ∧ rest = []) := by
  induction s generalizing wanted with
  | nil => exact ⟨.unexpectedEnd, [], if_neg (Nat.ne_zero_of_lt short), fun _ => ⟨rfl, rfl⟩⟩
  | cons a later ih =>
    have some : wanted ≠ 0 := Nat.ne_zero_of_lt short
    cases a with
    | reset =>
      refine ⟨.reset, later, if_neg some, fun unbroken => ?_⟩
      obtain ⟨piece, -, other⟩ := unbroken .reset List.mem_cons_self
      cases other
    | bytes piece =>
      rw [take, if_neg some]
      by_cases empty : piece = []
      · refine ⟨.unexpectedEnd, later, if_pos empty, fun unbroken => ?_⟩
        obtain ⟨_, inhabited, same⟩ := unbroken (.bytes piece) List.mem_cons_self
        cases same
        exact absurd empty inhabited
      rw [reach, if_neg empty, List.length_append] at short
      have others : (reach later).length < wanted - piece.length := by omega
      obtain ⟨fault, rest, failed, ends⟩ := ih others
      refine ⟨fault, rest, ?_, fun unbroken => ends (List.forall_mem_cons.mp unbroken).2⟩
      rw [if_neg empty, if_neg (by omega), failed]

/-- What is taken is a front of what arrives. -/
theorem reach_of_take {s rest : Stream} {wanted : Nat} {bytes : List UInt8}
    (taken : take wanted s = (.ok bytes, rest)) : bytes.length = wanted ∧ s.reach = bytes ++ rest.reach := by
  by_cases enough : wanted ≤ s.reach.length
  · obtain ⟨rest', same, left, -⟩ := take_of_le enough
    rw [same] at taken
    cases taken
    exact ⟨List.length_take_of_le enough, by rw [left, List.take_append_drop]⟩
  · obtain ⟨fault, rest', failed, -⟩ := take_of_lt (Nat.lt_of_not_le enough)
    rw [failed] at taken
    cases taken

end Stream

/-- A packet that a frame can hold and that is at most of a given size. -/
def Fits (max : Nat) (packet : List UInt8) : Prop := packet.length ≤ max ∧ packet.length < UInt32.size

instance (max : Nat) (packet : List UInt8) : Decidable (Fits max packet) :=
  inferInstanceAs (Decidable (packet.length ≤ max ∧ packet.length < UInt32.size))

/-- Bytes that begin with a complete frame of at most a given size. -/
def StartsFramed (max : Nat) (bytes : List UInt8) : Prop :=
  ∃ packet rest, Fits max packet ∧ bytes = frame packet ++ rest

private theorem flatMap_frame (packets : List (List UInt8)) : packets.flatMap frame = sized packets := rfl

private theorem frame_length (packet : List UInt8) : (frame packet).length = 4 + packet.length := by
  rw [frame, List.length_append, bigEndian_length, framePrefixWidth]

private theorem not_startsFramed_nil (max : Nat) : ¬StartsFramed max [] := by
  rintro ⟨packet, rest, -, whole⟩
  have length := congrArg List.length whole
  rw [List.length_append, frame_length, List.length_nil] at length
  omega

/-- A complete frame at the front of what arrives is read as its packet, and what follows it is left. -/
theorem readFrame_framed {max : Nat} {s : Stream} {packet behind : List UInt8} (fits : Fits max packet)
    (arrives : s.reach = frame packet ++ behind) :
    ∃ rest, readFrame max s = (.packet packet, rest) ∧ rest.reach = behind ∧ (s.IsUnbroken → rest.IsUnbroken) := by
  have header : (bigEndian framePrefixWidth packet.length).length = framePrefixWidth := bigEndian_length ..
  rw [frame, List.append_assoc] at arrives
  have enough : framePrefixWidth ≤ s.reach.length := by rw [arrives, List.length_append, header]; omega
  obtain ⟨body, first, body_reach, keeps⟩ := Stream.take_of_le enough
  rw [arrives, List.take_left' header] at first
  rw [arrives, List.drop_left' header] at body_reach
  have enough : packet.length ≤ body.reach.length := by rw [body_reach, List.length_append]; omega
  obtain ⟨rest, second, left, keeps'⟩ := Stream.take_of_le enough
  rw [body_reach, List.take_left] at second
  rw [body_reach, List.drop_left] at left
  have length : ofBigEndian (bigEndian framePrefixWidth packet.length) = packet.length := by
    rw [ofBigEndian_bigEndian]
    exact Nat.mod_eq_of_lt fits.2
  refine ⟨rest, ?_, left, fun unbroken => keeps' (keeps unbroken)⟩
  simp only [readFrame, first, length, if_neg (Nat.not_lt_of_le fits.1), second]

/-- Wherever a packet is read, its frame stood at the front of what arrives. -/
theorem framed_of_readFrame {max : Nat} {s rest : Stream} {packet : List UInt8}
    (read : readFrame max s = (.packet packet, rest)) : Fits max packet ∧ s.reach = frame packet ++ rest.reach := by
  unfold readFrame at read
  split at read
  · cases read
  · cases read
  rename_i header body first
  obtain ⟨width, arrives⟩ := Stream.reach_of_take first
  simp only at read
  split_ifs at read with large
  · cases read
  split at read
  · rename_i packet' rest' second
    cases read
    obtain ⟨length, behind⟩ := Stream.reach_of_take second
    have bound := ofBigEndian_lt header
    have prefixed := bigEndian_ofBigEndian header
    rw [width] at bound prefixed
    refine ⟨⟨length ▸ Nat.le_of_not_lt large, length ▸ bound⟩, ?_⟩
    rw [frame, length, prefixed, arrives, behind, List.append_assoc]
  · cases read

/-- Where no complete frame stands at the front, no packet is read. -/
theorem readFrame_not_packet {max : Nat} {s : Stream} (other : ¬StartsFramed max s.reach) (packet : List UInt8) :
    (readFrame max s).1 ≠ .packet packet := by
  intro read
  obtain ⟨fits, arrives⟩ := framed_of_readFrame (Prod.ext read rfl : readFrame max s = (.packet packet, _))
  exact other ⟨packet, _, fits, arrives⟩

theorem not_startsFramed_of_readFrame {max : Nat} {s : Stream}
    (none : ∀ packet rest, readFrame max s ≠ (.packet packet, rest)) : ¬StartsFramed max s.reach := by
  rintro ⟨packet, behind, fits, arrives⟩
  obtain ⟨rest, read, -⟩ := readFrame_framed fits arrives
  exact none packet rest read

/-! ## The longest run of frames -/

/-- The packets of the longest run of complete frames, each of at most a given size, at the front of some bytes. -/
structure IsLongestRun (max : Nat) (bytes : List UInt8) (packets : List (List UInt8)) : Prop where
  fits : ∀ packet ∈ packets, Fits max packet
  front : packets.flatMap frame <+: bytes
  longest : ∀ others, (∀ packet ∈ others, Fits max packet) → others.flatMap frame <+: bytes → others <+: packets

theorem IsLongestRun.unique {max : Nat} {bytes : List UInt8} {packets others : List (List UInt8)}
    (run : IsLongestRun max bytes packets) (run' : IsLongestRun max bytes others) : packets = others := by
  have front : packets <+: others := run'.longest packets run.fits run.front
  have back : others <+: packets := run.longest others run'.fits run'.front
  exact front.eq_of_length_le back.length_le

/-- A run of frames is the longest exactly if no further frame follows it. -/
theorem isLongestRun_iff {max : Nat} {bytes : List UInt8} {packets : List (List UInt8)} :
    IsLongestRun max bytes packets ↔ (∀ packet ∈ packets, Fits max packet) ∧
      ∃ rest, bytes = packets.flatMap frame ++ rest ∧ ¬StartsFramed max rest := by
  constructor
  · rintro ⟨fits, ⟨rest, rfl⟩, longest⟩
    refine ⟨fits, rest, rfl, ?_⟩
    rintro ⟨packet, behind, fitsNext, rfl⟩
    have longer := longest (packets ++ [packet]) (List.forall_mem_append.mpr ⟨fits, by simpa using fitsNext⟩)
      ⟨behind, by simp⟩
    simpa using longer.length_le
  · rintro ⟨fits, rest, rfl, other⟩
    refine ⟨fits, List.prefix_append .., fun others fits' before => ?_⟩
    have small : ∀ packet ∈ packets, packet.length < UInt32.size := fun packet member => (fits packet member).2
    have small' : ∀ packet ∈ others, packet.length < UInt32.size := fun packet member => (fits' packet member).2
    rcases List.prefix_or_prefix_of_prefix before (List.prefix_append _ rest) with front | longer
    · exact prefix_of_sized_prefix small' small front
    · obtain ⟨more, rfl⟩ := prefix_of_sized_prefix small small' longer
      -- a further packet would have its frame at the front of `rest`
      cases more with
      | nil => exact (List.append_nil packets).symm ▸ List.prefix_rfl
      | cons packet more =>
        obtain ⟨behind, whole⟩ := before
        rw [List.flatMap_append, List.append_assoc] at whole
        refine absurd ⟨packet, more.flatMap frame ++ behind, fits' packet (by simp), ?_⟩ other
        rw [← List.append_cancel_left whole, List.flatMap_cons, List.append_assoc]

theorem IsLongestRun.nil {max : Nat} {bytes : List UInt8} (other : ¬StartsFramed max bytes) :
    IsLongestRun max bytes [] :=
  isLongestRun_iff.mpr ⟨by simp, bytes, rfl, other⟩

/-- The longest run behind some frames continues them. -/
theorem IsLongestRun.append {max : Nat} {rest : List UInt8} {early packets : List (List UInt8)}
    (fits : ∀ packet ∈ early, Fits max packet) (run : IsLongestRun max rest packets) :
    IsLongestRun max (early.flatMap frame ++ rest) (early ++ packets) := by
  obtain ⟨fits', behind, rfl, other⟩ := isLongestRun_iff.mp run
  refine isLongestRun_iff.mpr ⟨List.forall_mem_append.mpr ⟨fits, fits'⟩, behind, ?_, other⟩
  rw [List.flatMap_append, List.append_assoc]

theorem IsLongestRun.cons {max : Nat} {packet rest : List UInt8} {packets : List (List UInt8)}
    (fits : Fits max packet) (run : IsLongestRun max rest packets) :
    IsLongestRun max (frame packet ++ rest) (packet :: packets) := by
  have alone : ∀ p ∈ [packet], Fits max p := List.forall_mem_singleton.mpr fits
  simpa using run.append alone

theorem IsLongestRun.whole {max : Nat} {packets : List (List UInt8)} (fits : ∀ packet ∈ packets, Fits max packet) :
    IsLongestRun max (packets.flatMap frame) packets :=
  isLongestRun_iff.mpr ⟨fits, [], (List.append_nil _).symm, not_startsFramed_nil max⟩

private theorem Stream.packetsWithin_isLongestRun {max steps : Nat} {s : Stream} (enough : s.reach.length ≤ steps) :
    IsLongestRun max s.reach (packetsWithin max steps s) := by
  induction steps generalizing s with
  | zero =>
    rw [packetsWithin, List.length_eq_zero_iff.mp (Nat.le_zero.mp enough)]
    exact .nil (not_startsFramed_nil max)
  | succ steps ih =>
    rw [packetsWithin]
    split
    · rename_i packet rest read
      obtain ⟨fits, arrives⟩ := framed_of_readFrame read
      have shorter : rest.reach.length ≤ steps := by
        rw [arrives, List.length_append, frame_length] at enough
        omega
      rw [arrives]
      exact (ih shorter).cons fits
    · rename_i none
      exact .nil (not_startsFramed_of_readFrame none)

/-- The packets of a stream are those of the longest run of complete frames at its front. -/
theorem Stream.packets_isLongestRun (max : Nat) (s : Stream) : IsLongestRun max s.reach (s.packets max) :=
  packetsWithin_isLongestRun s.reach_length_le

theorem Stream.packets_of_readFrame {max : Nat} {s rest : Stream} {packet : List UInt8}
    (read : readFrame max s = (.packet packet, rest)) : s.packets max = packet :: rest.packets max := by
  obtain ⟨fits, arrives⟩ := framed_of_readFrame read
  have run := (rest.packets_isLongestRun max).cons fits
  rw [← arrives] at run
  exact (s.packets_isLongestRun max).unique run

theorem Stream.packets_of_not_readFrame {max : Nat} {s : Stream}
    (none : ∀ packet rest, readFrame max s ≠ (.packet packet, rest)) : s.packets max = [] :=
  (s.packets_isLongestRun max).unique (.nil (not_startsFramed_of_readFrame none))

theorem exists_longestRun (max : Nat) (bytes : List UInt8) : ∃ packets, IsLongestRun max bytes packets :=
  ⟨_, Stream.reach_bytes bytes ▸ Stream.packets_isLongestRun max [.bytes bytes]⟩

/-- A length that is too large is not the front of a frame. -/
theorem not_startsFramed_of_large {max length : Nat} (large : max < length) (small : length < UInt32.size)
    (rest : List UInt8) : ¬StartsFramed max (bigEndian framePrefixWidth length ++ rest) := by
  rintro ⟨packet, behind, fits, whole⟩
  rw [frame, List.append_assoc] at whole
  have prefixes := (List.append_inj whole (by rw [bigEndian_length, bigEndian_length])).1
  exact absurd fits.1 (Nat.not_le_of_lt (bigEndian_inj small fits.2 prefixes ▸ large))

/-- No frame stands whole in what is only the beginning of one. -/
theorem not_startsFramed_of_cut {packet part : List UInt8} (small : packet.length < UInt32.size)
    (before : part <+: frame packet) (strict : part ≠ frame packet) (max : Nat) : ¬StartsFramed max part := by
  rintro ⟨packet', rest, fits, rfl⟩
  have inside : sized [packet'] <+: sized [packet] := by
    simpa [← flatMap_frame] using (List.prefix_append (frame packet') rest).trans before
  have same := prefix_of_sized_prefix (by simpa using fits.2) (by simpa using small) inside
  obtain rfl : packet' = packet := by simpa using same
  exact strict (before.eq_of_length_le (by simp))

/-- A sink after packets were written to it one after another. -/
def Sink.after (s : Sink) (packets : List (List UInt8)) : Sink :=
  packets.foldl (fun s packet => (writeFrame s packet).2) s

theorem writeFrame_fits {packet : List UInt8} (small : packet.length < UInt32.size) (held : List UInt8) :
    writeFrame ⟨held, none⟩ packet = (.ok (), ⟨held ++ frame packet, none⟩) := by
  rw [writeFrame, if_neg (Nat.not_le_of_lt small)]
  rfl

private theorem writeFrames_fit {packets : List (List UInt8)} (small : ∀ packet ∈ packets, packet.length < UInt32.size)
    (held : List UInt8) :
    (∀ r ∈ writeFrames ⟨held, none⟩ packets, r.1 = .ok ()) ∧
      (⟨held, none⟩ : Sink).after packets = ⟨held ++ packets.flatMap frame, none⟩ := by
  induction packets generalizing held with
  | nil => exact ⟨by simp [writeFrames], by simp [Sink.after]⟩
  | cons packet packets ih =>
    obtain ⟨first, others⟩ := List.forall_mem_cons.mp small
    obtain ⟨written, after⟩ := ih others (held ++ frame packet)
    rw [writeFrames, writeFrame_fits first]
    refine ⟨List.forall_mem_cons.mpr ⟨rfl, written⟩, ?_⟩
    rw [Sink.after, List.foldl_cons, writeFrame_fits first, ← Sink.after, after, List.flatMap_cons, List.append_assoc]

/-- Reading goes through a run of frames packet by packet, and goes on with what follows them. -/
theorem readFrames_run {max : Nat} {packets : List (List UInt8)} {s : Stream} {behind : List UInt8}
    (fits : ∀ packet ∈ packets, Fits max packet) (arrives : s.reach = packets.flatMap frame ++ behind) :
    ∃ rest, rest.reach = behind ∧ (s.IsUnbroken → rest.IsUnbroken) ∧ ∀ more,
      (readFrames max (packets.length + more) s).map (·.1) =
        packets.map .packet ++ (readFrames max more rest).map (·.1) := by
  induction packets generalizing s with
  | nil => exact ⟨s, arrives, id, fun more => by simp⟩
  | cons packet packets ih =>
    obtain ⟨first, others⟩ := List.forall_mem_cons.mp fits
    rw [List.flatMap_cons, List.append_assoc] at arrives
    obtain ⟨next, read, left, keeps⟩ := readFrame_framed first arrives
    obtain ⟨rest, reach, keeps', reads⟩ := ih others left
    refine ⟨rest, reach, fun unbroken => keeps' (keeps unbroken), fun more => ?_⟩
    rw [List.length_cons, Nat.add_right_comm, readFrames, read]
    simp only [List.map_cons, List.cons_append, reads more]

private theorem readFrames_ended (max more : Nat) :
    (readFrames max more []).map (·.1) = List.replicate more .ended := by
  induction more with
  | zero => rfl
  | succ more ih => exact congrArg (FrameOutcome.ended :: ·) ih

/-- Frames are read as they were written, and nothing else is read. Packets that a frame can hold and that are at most
    of the reader's size are all written; however the written bytes arrive, exactly these packets are read from them, in
    order, and then the end again and again. And whatever arrives on a stream, reading comes to an outcome that is no
    packet; the packets read before it fit, written again they are a front of what arrives, and what follows that front
    does not begin with a complete frame of at most the reader's size. -/
theorem readFrames_writeFrames (max : Nat) :
    (∀ packets, (∀ packet ∈ packets, Fits max packet) →
      (∀ r ∈ writeFrames ⟨[], none⟩ packets, r.1 = .ok ()) ∧
      ∀ s : Stream, s.IsUnbroken → s.reach = (Sink.after ⟨[], none⟩ packets).held → ∀ more,
        (readFrames max (packets.length + more) s).map (·.1) =
          packets.map .packet ++ List.replicate more .ended) ∧
    ∀ s : Stream, ∃ packets outcome rest,
      (readFrames max (packets.length + 1) s).map (·.1) = packets.map .packet ++ [outcome] ∧
      (∀ packet, outcome ≠ .packet packet) ∧ (∀ packet ∈ packets, Fits max packet) ∧
      s.reach = (Sink.after ⟨[], none⟩ packets).held ++ rest ∧ ¬StartsFramed max rest := by
  constructor
  · intro packets fits
    obtain ⟨written, after⟩ := writeFrames_fit (fun packet member => (fits packet member).2) []
    refine ⟨written, fun s unbroken arrives more => ?_⟩
    rw [after, List.nil_append, ← List.append_nil (packets.flatMap frame)] at arrives
    obtain ⟨rest, left, keeps, reads⟩ := readFrames_run fits arrives
    rw [reads, (keeps unbroken).eq_nil left, readFrames_ended]
  · intro s
    obtain ⟨fits, behind, arrives, other⟩ := isLongestRun_iff.mp (s.packets_isLongestRun max)
    obtain ⟨-, after⟩ := writeFrames_fit (fun packet member => (fits packet member).2) []
    obtain ⟨rest, left, -, reads⟩ := readFrames_run fits arrives
    refine ⟨s.packets max, (readFrame max rest).1, behind, reads 1, ?_, fits, ?_, other⟩
    · exact readFrame_not_packet (left ▸ other)
    · rw [after, List.nil_append, arrives]

theorem readFrames_writeFrames_pieces :
    let s : Stream := [.bytes [0, 0, 0], .bytes [2, 7, 8, 0, 0, 0, 0, 0], .bytes [0, 0, 4, 0, 0, 0, 0]]
    (readFrames 4 5 s).map (·.1) = [.packet [7, 8], .packet [], .packet [0, 0, 0, 0], .ended, .ended] := by
  intro s
  have unbroken : s.IsUnbroken := by simp [s, Stream.IsUnbroken]
  exact ((readFrames_writeFrames 4).1 [[7, 8], [], [0, 0, 0, 0]] (by decide)).2 s unbroken rfl 2

end OpenSound
