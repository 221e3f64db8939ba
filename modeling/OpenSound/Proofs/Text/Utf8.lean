import Mathlib.Tactic.SplitIfs
import OpenSound.Text.Utf8

/-!
# Bytes of ASCII characters

An ASCII character is one byte, its own code point, and every byte of any other character is above those. So a
text begins with an ASCII character exactly if its bytes do.
-/

namespace OpenSound.Utf8

private theorem encode_eq_flatMap (s : String) : encode s = s.toList.flatMap String.utf8EncodeChar := by
  unfold encode
  rw [← String.utf8Encode_toList, List.utf8Encode, List.data_toByteArray]

/-- A text has a byte at least for each character. -/
theorem length_le_encode (s : String) : s.toList.length ≤ (encode s).length := by
  rw [encode_eq_flatMap]
  induction s.toList with
  | nil => exact Nat.zero_le _
  | cons c cs ih =>
    have some : 0 < (String.utf8EncodeChar c).length := List.length_pos_iff.mpr String.utf8EncodeChar_ne_nil
    rw [List.flatMap_cons, List.length_append, List.length_cons]
    omega

private theorem encodeChar_ascii {c : Char} (ascii : c.toNat < 128) :
    String.utf8EncodeChar c = [UInt8.ofNat c.toNat] := by
  have low : c.toNat ≤ 127 := Nat.le_of_lt_succ ascii
  unfold String.utf8EncodeChar
  rw [Char.toNat_val]
  exact if_pos low

private theorem encodeChar_high {c : Char} (high : 128 ≤ c.toNat) {b : UInt8} (member : b ∈ String.utf8EncodeChar c) :
    128 ≤ b.toNat := by
  have above : ¬c.toNat ≤ 127 := Nat.not_le_of_lt high
  unfold String.utf8EncodeChar at member
  rw [Char.toNat_val] at member
  simp only [if_neg above] at member
  split_ifs at member <;> simp only [List.mem_cons, List.not_mem_nil, or_false] at member
  · rcases member with rfl | rfl <;> rw [UInt8.toNat_ofNat'] <;> omega
  · rcases member with rfl | rfl | rfl <;> rw [UInt8.toNat_ofNat'] <;> omega
  · rcases member with rfl | rfl | rfl | rfl <;> rw [UInt8.toNat_ofNat'] <;> omega

theorem mem_encode_of_mem {s : String} {c : Char} (ascii : c.toNat < 128) (member : c ∈ s.toList) :
    UInt8.ofNat c.toNat ∈ encode s := by
  rw [encode_eq_flatMap, List.mem_flatMap]
  exact ⟨c, member, by rw [encodeChar_ascii ascii]; exact List.mem_singleton.mpr rfl⟩

/-- A text holds an ASCII character exactly if its bytes do. -/
theorem mem_encode_iff {s : String} {c : Char} (ascii : c.toNat < 128) :
    UInt8.ofNat c.toNat ∈ encode s ↔ c ∈ s.toList := by
  refine ⟨fun member => ?_, mem_encode_of_mem ascii⟩
  rw [encode_eq_flatMap, List.mem_flatMap] at member
  obtain ⟨d, inside, byte⟩ := member
  by_cases plain : d.toNat < 128
  · rw [encodeChar_ascii plain, List.mem_singleton] at byte
    have equal := congrArg UInt8.toNat byte
    rw [UInt8.toNat_ofNat', UInt8.toNat_ofNat'] at equal
    obtain rfl : c = d := Char.toNat_inj.mp (by omega)
    exact inside
  · have high := encodeChar_high (Nat.le_of_not_lt plain) byte
    rw [UInt8.toNat_ofNat'] at high
    omega

/-- A text begins with an ASCII character exactly if its bytes do. -/
theorem head?_encode (s : String) {c : Char} (ascii : c.toNat < 128) :
    (encode s).head? = some (UInt8.ofNat c.toNat) ↔ s.toList.head? = some c := by
  rw [encode_eq_flatMap]
  cases s.toList with
  | nil => simp
  | cons d rest =>
    rw [List.flatMap_cons, List.head?_cons]
    by_cases plain : d.toNat < 128
    · rw [encodeChar_ascii plain]
      simp only [List.cons_append, List.head?_cons, Option.some.injEq]
      constructor
      · intro equal
        apply Char.toNat_inj.mp
        have := congrArg UInt8.toNat equal
        rw [UInt8.toNat_ofNat', UInt8.toNat_ofNat'] at this
        omega
      · rintro rfl
        rfl
    · refine iff_of_false ?_ (by rintro ⟨⟩; exact plain ascii)
      intro first
      obtain ⟨b, more, bytes⟩ := List.exists_cons_of_ne_nil (String.utf8EncodeChar_ne_nil (c := d))
      rw [bytes, List.cons_append, List.head?_cons, Option.some.injEq] at first
      have high := encodeChar_high (Nat.le_of_not_lt plain) (b := b) (by rw [bytes]; exact List.mem_cons_self)
      rw [first, UInt8.toNat_ofNat'] at high
      omega

end OpenSound.Utf8
