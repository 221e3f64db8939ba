import OpenSound.Proofs.Wire.Normal

/-!
# What cannot be written

As long as every length fits its field, a packet is refused only because one of its texts holds a zero. The texts are
written in the order in which they stand in the packet, and the error quotes the first one of that kind.
-/

namespace OpenSound

open Wire

namespace Wire

/-- What a writer comes to, whatever the buffer holds. -/
def Writer.ComesTo (w : Writer) (outcome : Except Error Unit) : Prop := ∀ buffer, (w buffer).1 = outcome

private theorem Writer.put_comesTo (bytes : List UInt8) : (Writer.put bytes).ComesTo (.ok ()) := fun _ => rfl

private theorem Writer.fail_comesTo (e : Error) : (Writer.fail e).ComesTo (.error e) := fun _ => rfl

theorem Writer.ComesTo.andThen {first second : Writer} {front back : Except Error Unit} (left : first.ComesTo front)
    (right : second.ComesTo back) : (first.andThen second).ComesTo (front.bind fun _ => back) := by
  intro buffer
  rw [← left buffer, Writer.andThen]
  split
  · rename_i written done
    rw [done]
    exact right written
  · rename_i e written failed
    rw [failed]
    rfl

/-- What writing texts comes to: the first that holds a zero is refused. -/
def refusal (texts : List String) : Except Error Unit :=
  match texts.find? fun s => s.toList.contains '\x00' with
  | some s => .error (.data (.nulInString s))
  | none => .ok ()

private theorem refusal_append (front back : List String) :
    refusal (front ++ back) = (refusal front).bind fun _ => refusal back := by
  unfold refusal
  rw [List.find?_append]
  cases front.find? fun s => s.toList.contains '\x00' <;> rfl

/-- Texts are refused exactly if one of them holds a zero, and then it is the first of these that is quoted. -/
theorem refusal_error_iff {texts : List String} {e : Error} : refusal texts = .error e ↔
    ∃ front s back, texts = front ++ s :: back ∧ (∀ t ∈ front, '\x00' ∉ t.toList) ∧ '\x00' ∈ s.toList ∧
      e = .data (.nulInString s) := by
  unfold refusal
  constructor
  · intro refused
    split at refused
    · rename_i s found
      cases refused
      obtain ⟨zero, front, back, rfl, clean⟩ := List.find?_eq_some_iff_append.mp found
      exact ⟨front, s, back, rfl, by simpa using clean, by simpa using zero, rfl⟩
    · cases refused
  · rintro ⟨front, s, back, rfl, clean, zero, rfl⟩
    have found : (front ++ s :: back).find? (fun s => s.toList.contains '\x00') = some s :=
      List.find?_eq_some_iff_append.mpr ⟨by simpa using zero, front, back, rfl, by simpa using clean⟩
    rw [found]

theorem exists_refusal_iff {texts : List String} :
    (∃ e, refusal texts = .error e) ↔ ∃ s ∈ texts, '\x00' ∈ s.toList := by
  unfold refusal
  constructor
  · rintro ⟨e, refused⟩
    split at refused
    · rename_i s found
      exact ⟨s, List.mem_of_find?_eq_some found, by simpa using List.find?_some found⟩
    · cases refused
  · rintro ⟨s, member, zero⟩
    split
    · exact ⟨_, rfl⟩
    · rename_i none
      have clean := List.find?_eq_none.mp none s member
      exact absurd zero (by simpa using clean)

/-- A text that is short enough to be written. -/
def FitsString (s : String) : Prop := (Utf8.encode s).length + 1 < UInt32.size

instance (s : String) : Decidable (FitsString s) := inferInstanceAs (Decidable (_ < _))

theorem zero_mem_encode_iff {s : String} : 0 ∈ Utf8.encode s ↔ '\x00' ∈ s.toList :=
  Utf8.mem_encode_iff (c := '\x00') (by decide)

private theorem writeString_comesTo {s : String} (fits : FitsString s) : (writeString s).ComesTo (refusal [s]) := by
  unfold writeString refusal
  rw [if_neg (Nat.not_le_of_lt fits), List.find?_singleton]
  by_cases zero : '\x00' ∈ s.toList
  · rw [if_pos (by simpa using zero_mem_encode_iff.mpr zero), if_pos (by simpa using zero)]
    exact Writer.fail_comesTo _
  · rw [if_neg (by simpa using zero_mem_encode_iff.not.mpr zero), if_neg (by simpa using zero)]
    exact Writer.put_comesTo _

end Wire

/-- An argument whose text or blob is short enough to be written. -/
def Argument.Fits : Argument → Prop
  | .string s => FitsString s
  | .blob data => data.length ≤ maxBlob
  | _ => True

instance : DecidablePred Argument.Fits
  | .string s => inferInstanceAs (Decidable (FitsString s))
  | .blob data => inferInstanceAs (Decidable (data.length ≤ maxBlob))
  | .nil | .int32 _ | .float32 _ | .bool _ | .int64 _ | .float64 _ | .timeTag _ => .isTrue trivial

private theorem Wire.writeArgument_comesTo {a : Argument} (fits : a.Fits) :
    (writeArgument a).ComesTo (refusal a.asString?.toList) := by
  cases a with
  | string s => exact writeString_comesTo fits
  | blob data =>
    rw [writeArgument, writeBlob, if_neg (Nat.not_lt_of_le fits)]
    exact Writer.put_comesTo _
  | _ => exact Writer.put_comesTo _

private theorem Wire.writeArguments_comesTo {as : List Argument} (fits : ∀ a ∈ as, a.Fits) :
    (Writer.all (as.map writeArgument)).ComesTo (refusal (as.filterMap Argument.asString?)) := by
  induction as with
  | nil => exact Writer.put_comesTo []
  | cons a as ih =>
    obtain ⟨first, others⟩ := List.forall_mem_cons.mp fits
    have both := (writeArgument_comesTo first).andThen (ih others)
    rw [← refusal_append] at both
    cases text : a.asString? <;> simpa [text, Writer.all] using both

/-- A message whose texts, its tags among them, and blobs are short enough to be written. -/
structure Message.Fits (m : Message) : Prop where
  address : FitsString m.address
  tags : FitsString m.tags
  arguments : ∀ a ∈ m.arguments, a.Fits

private theorem Argument.tag_ne_zero (a : Argument) : a.tag ≠ '\x00' := by
  cases a with
  | bool b => cases b <;> simp [Argument.tag]
  | _ => simp [Argument.tag]

private theorem Message.tags_clean (m : Message) : '\x00' ∉ m.tags.toList := by
  rw [Message.tags, String.toList_ofList, List.mem_cons, List.mem_map]
  rintro (comma | ⟨a, -, tag⟩)
  · exact absurd comma (by decide)
  · exact a.tag_ne_zero tag

private theorem Message.write_comesTo {m : Message} (fits : m.Fits) : m.write.ComesTo (refusal m.strings) := by
  have tags : refusal [m.tags] = .ok () := by
    cases refused : refusal [m.tags] with
    | ok => rfl
    | error e =>
      obtain ⟨front, s, back, whole, -, zero, -⟩ := refusal_error_iff.mp refused
      have member : s ∈ [m.tags] := by
        rw [whole]
        simp
      exact absurd (List.mem_singleton.mp member ▸ zero) m.tags_clean
  have written := (writeString_comesTo fits.address).andThen
    ((writeString_comesTo fits.tags).andThen (writeArguments_comesTo fits.arguments))
  rw [tags] at written
  have texts := refusal_append [m.address] (m.arguments.filterMap Argument.asString?)
  rw [List.singleton_append] at texts
  rw [Message.strings, texts]
  exact written

namespace Packet

mutual

/-- A packet whose texts and blobs are short enough to be written, and so are the encodings of its elements, at any
    depth, as far as there are any. -/
def Fits : Packet → Prop
  | message m => m.Fits
  | bundle _ elements => AllFit elements

def AllFit : List Packet → Prop
  | [] => True
  | p :: ps => p.Fits ∧ (∀ bytes, p.encode = .ok bytes → bytes.length < UInt32.size) ∧ AllFit ps

end

/-- The texts in a packet in the order in which they are written: for each message its address, and then its string
    arguments. -/
def texts (p : Packet) : List String := p.messages.flatMap Message.strings

mutual

private theorem write_comesTo : ∀ p : Packet, p.Fits → Writer.ComesTo p.write (refusal p.texts)
  | message m, fits => by
    rw [texts, messages, List.flatMap_singleton]
    exact Message.write_comesTo fits
  | bundle _ elements, fits => fun _ => writeElements_comesTo elements fits _

private theorem writeElements_comesTo : ∀ ps : List Packet, AllFit ps →
    Writer.ComesTo (writeElements ps) (refusal ((messagesAll ps).flatMap Message.strings))
  | [], _ => fun _ => rfl
  | p :: ps, ⟨fits, small, fitsAll⟩ => fun buffer => by
    have first := p.write_comesTo fits (buffer ++ [0, 0, 0, 0])
    rw [messagesAll, List.flatMap_append, refusal_append, ← texts, ← first, writeElements]
    split
    · rename_i e written failed
      rw [failed]
      rfl
    · rename_i written done
      obtain ⟨writable, rfl⟩ := (p.write_appends _ _).mp done
      have length := small p.wire (encode_iff.mpr ⟨writable, rfl⟩)
      have size : (buffer ++ [0, 0, 0, 0] ++ p.wire).length - buffer.length - 4 = p.wire.length := by simp
      dsimp only
      rw [size, if_neg (Nat.not_le_of_lt length), writeElements_comesTo ps fitsAll, done]
      rfl

end

private theorem encode_eq_refusal {p : Packet} (fits : p.Fits) : p.encode = (refusal p.texts).map fun _ => p.wire := by
  have outcome := p.write_comesTo fits []
  rw [encode, Writer.bytes]
  split
  · rename_i written done
    obtain ⟨-, rfl⟩ := (p.write_appends _ _).mp done
    rw [done] at outcome
    rw [← outcome]
    rfl
  · rename_i e written failed
    rw [failed] at outcome
    rw [← outcome]
    rfl

private theorem encode_error_iff_refusal {p : Packet} (fits : p.Fits) {e : Error} :
    p.encode = .error e ↔ refusal p.texts = .error e := by
  rw [encode_eq_refusal fits]
  cases refusal p.texts <;> simp [Except.map]

end Packet

private theorem Error.message_nulInString (s : String) : (data (.nulInString s)).message =
    "malformed data: string " ++ Quoted.quote s ++ " contains a NUL byte" := by
  show "malformed data: " ++ ("string " ++ Quoted.quote s ++ " contains a NUL byte") =
    ("malformed data: " ++ "string ") ++ Quoted.quote s ++ " contains a NUL byte"
  simp only [String.append_assoc]

/-- Of packets whose lengths fit their fields, just those are not encoded that hold a zero in an address or in a string
    argument, at any depth. The error is malformed data, and quotes the first such text in the order of writing. Nothing
    else of a packet has a say in this: where the texts are the same, so is the error, if there is one. -/
theorem Packet.encode_refused_for_texts (p : Packet) (fits : p.Fits) :
    ((∃ e, p.encode = .error e) ↔ ∃ s ∈ p.texts, '\x00' ∈ s.toList) ∧
    (∀ e, p.encode = .error e ↔ ∃ front s back, p.texts = front ++ s :: back ∧ (∀ t ∈ front, '\x00' ∉ t.toList) ∧
      '\x00' ∈ s.toList ∧ e = .data (.nulInString s)) ∧
    (∀ s, (Error.data (.nulInString s)).kind = .malformedData ∧ (Error.data (.nulInString s)).message =
      "malformed data: string " ++ Quoted.quote s ++ " contains a NUL byte") ∧
    ∀ q : Packet, q.Fits → q.texts = p.texts → ∀ e, q.encode = .error e ↔ p.encode = .error e := by
  refine ⟨?_, fun e => ?_, fun s => ⟨rfl, Error.message_nulInString s⟩, fun q fits' same e => ?_⟩
  · rw [← exists_refusal_iff]
    exact exists_congr fun e => encode_error_iff_refusal fits
  · rw [encode_error_iff_refusal fits, refusal_error_iff]
  · rw [encode_error_iff_refusal fits', encode_error_iff_refusal fits, same]

/-- A packet whose first text with a zero is the address of a message in a nested bundle, behind a blob of zeros, and in
    front of others. -/
theorem Packet.encode_refused_for_texts_nested :
    let p := bundle ⟨0, 0, false⟩ [message ⟨"/a", [.blob [0, 0], .float32 0x7fc00000, .string "x"]⟩,
      bundle .immediate [message ⟨"/b\x00", [.string "\x00"]⟩], message ⟨"/c", [.string "\x00y"]⟩]
    p.encode = .error (.data (.nulInString "/b\x00")) := by
  intro p
  have first : Message.Fits ⟨"/a", [.blob [0, 0], .float32 0x7fc00000, .string "x"]⟩ :=
    ⟨by decide, by decide, by decide⟩
  have second : Message.Fits ⟨"/b\x00", [.string "\x00"]⟩ := ⟨by decide, by decide, by decide⟩
  have third : Message.Fits ⟨"/c", [.string "\x00y"]⟩ := ⟨by decide, by decide, by decide⟩
  have fits : p.Fits := by
    refine ⟨first, ?_, ⟨second, ?_, trivial⟩, ?_, third, ?_, trivial⟩ <;> intro bytes encoded <;> cases encoded
    decide
  have whole : p.texts = ["/a", "x"] ++ "/b\x00" :: ["\x00", "/c", "\x00y"] := rfl
  exact ((Packet.encode_refused_for_texts p fits).2.1 _).mpr ⟨_, _, _, whole, by decide, by decide, rfl⟩

end OpenSound
