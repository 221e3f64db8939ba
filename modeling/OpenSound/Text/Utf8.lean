/-!
# Text as UTF-8 bytes

A text and its bytes determine each other. Bytes that are no text are refused with the place of the first fault:
the length of the longest prefix that is text, and how many bytes after it still looked like the start of a
character.
-/

namespace OpenSound.Utf8

/-- Why bytes are no text: a sequence broken by a wrong byte, or one that the end of the data cuts short. -/
inductive Fault where
  | invalid (index width : Nat)
  | incomplete (index : Nat)
  deriving DecidableEq, Repr

namespace Fault

def message : Fault → String
  | invalid index width => s!"invalid utf-8 sequence of {width} bytes from index {index}"
  | incomplete index => s!"incomplete utf-8 byte sequence from index {index}"

end Fault

/-- A byte that may stand after the first of a character. -/
def isContinuation (b : UInt8) : Bool := 0x80 ≤ b && b ≤ 0xbf

/-- The second bytes that may follow the first one of three: no overlong form and no surrogate. -/
def isSecondOfThree (first second : UInt8) : Bool :=
  if first = 0xe0 then 0xa0 ≤ second && second ≤ 0xbf
  else if first = 0xed then 0x80 ≤ second && second ≤ 0x9f
  else isContinuation second

/-- The second bytes that may follow the first one of four: no overlong form and nothing above U+10FFFF. -/
def isSecondOfFour (first second : UInt8) : Bool :=
  if first = 0xf0 then 0x90 ≤ second && second ≤ 0xbf
  else if first = 0xf4 then 0x80 ≤ second && second ≤ 0x8f
  else isContinuation second

/-- The first fault of bytes that start at an index, read character by character. -/
def fault? (index : Nat) : List UInt8 → Option Fault
  | [] => none
  | a :: rest =>
    if a < 0x80 then fault? (index + 1) rest
    else if 0xc2 ≤ a && a ≤ 0xdf then
      match rest with
      | [] => some (.incomplete index)
      | b :: rest => if isContinuation b then fault? (index + 2) rest else some (.invalid index 1)
    else if 0xe0 ≤ a && a ≤ 0xef then
      match rest with
      | [] => some (.incomplete index)
      | [b] => if isSecondOfThree a b then some (.incomplete index) else some (.invalid index 1)
      | b :: c :: rest =>
        if !isSecondOfThree a b then some (.invalid index 1)
        else if isContinuation c then fault? (index + 3) rest else some (.invalid index 2)
    else if 0xf0 ≤ a && a ≤ 0xf4 then
      match rest with
      | [] => some (.incomplete index)
      | [b] => if isSecondOfFour a b then some (.incomplete index) else some (.invalid index 1)
      | [b, c] =>
        if !isSecondOfFour a b then some (.invalid index 1)
        else if isContinuation c then some (.incomplete index) else some (.invalid index 2)
      | b :: c :: d :: rest =>
        if !isSecondOfFour a b then some (.invalid index 1)
        else if !isContinuation c then some (.invalid index 2)
        else if isContinuation d then fault? (index + 4) rest else some (.invalid index 3)
    else some (.invalid index 1)

/-- The bytes of a text. -/
def encode (s : String) : List UInt8 := s.toByteArray.data.toList

/-- The text that some bytes are, or their first fault. -/
def decode (bytes : List UInt8) : Except Fault String :=
  if h : (ByteArray.mk bytes.toArray).validateUTF8 then
    .ok (.ofByteArray (ByteArray.mk bytes.toArray) (ByteArray.validateUTF8_eq_true_iff.1 h))
  else .error ((fault? 0 bytes).getD (.incomplete bytes.length))

@[simp] theorem decode_encode (s : String) : decode (encode s) = .ok s := by
  obtain ⟨⟨bytes⟩, valid⟩ := s
  simp [decode, encode, ByteArray.validateUTF8_eq_true_iff.2 valid]

theorem encode_of_decode {bytes : List UInt8} {s : String} (h : decode bytes = .ok s) : encode s = bytes := by
  unfold decode at h
  split at h
  · cases h; simp [encode]
  · cases h

/-- Bytes are read as a text exactly when they are the bytes of that text. -/
theorem decode_eq_ok_iff {bytes : List UInt8} {s : String} : decode bytes = .ok s ↔ bytes = encode s :=
  ⟨fun h => (encode_of_decode h).symm, fun h => h ▸ decode_encode s⟩

end OpenSound.Utf8
