import OpenSound.Proofs.Wire.Refusing

/-!
# What a packet weighs

A packet counts for three, each argument for one, and every byte of an address, of a string and of a blob for one. What
the decoder gives never weighs more than the bytes that it was given: each element has bytes of its own behind its size,
and in a message the padded strings pay for the message and for the tags, so that also an argument without a payload
has been paid for.
-/

namespace OpenSound

open Wire

namespace Argument

/-- The data of a blob. -/
def asBlob? : Argument → Option (List UInt8)
  | blob data => some data
  | _ => none

end Argument

/-- The bytes of some texts. -/
def textBytes (texts : List String) : Nat := (texts.map fun s => (Utf8.encode s).length).sum

/-- The bytes of some blobs. -/
def blobBytes (blobs : List (List UInt8)) : Nat := (blobs.map List.length).sum

namespace Packet

mutual

/-- The number of packets in a packet, at any depth; it counts itself. -/
def count : Packet → Nat
  | message _ => 1
  | bundle _ elements => countAll elements + 1

def countAll : List Packet → Nat
  | [] => 0
  | p :: ps => p.count + countAll ps

end

/-- The arguments of all messages in a packet. -/
def arguments (p : Packet) : List Argument := p.messages.flatMap Message.arguments

/-- The blobs in a packet. -/
def blobs (p : Packet) : List (List UInt8) := p.arguments.filterMap Argument.asBlob?

/-- Three for each packet, and one for each argument and each byte of a text or a blob. -/
def weight (p : Packet) : Nat := 3 * p.count + p.arguments.length + textBytes p.texts + blobBytes p.blobs

end Packet

@[simp] theorem textBytes_append (front back : List String) :
    textBytes (front ++ back) = textBytes front + textBytes back := by
  simp [textBytes]

@[simp] theorem blobBytes_append (front back : List (List UInt8)) :
    blobBytes (front ++ back) = blobBytes front + blobBytes back := by
  simp [blobBytes]

/-- A bundle weighs three more than its elements together. -/
theorem Packet.weight_bundle (t : TimeTag) (ps : List Packet) : (bundle t ps).weight = 3 + (ps.map weight).sum := by
  induction ps with
  | nil => rfl
  | cons p ps ih =>
    simp only [weight, count, countAll, texts, blobs, arguments, messages, messagesAll, List.flatMap_append,
      List.filterMap_append, List.length_append, textBytes_append, blobBytes_append, List.map_cons,
      List.sum_cons] at ih ⊢
    omega

namespace Wire

/-- A payload is at least as long as the text or the blob of its argument. -/
theorem Payload.content_le {a : Argument} {bytes : List UInt8} (payload : Payload a bytes) :
    textBytes a.asString?.toList + blobBytes a.asBlob?.toList ≤ bytes.length := by
  cases a with
  | string s =>
    obtain ⟨-, zeros, -, rfl, -⟩ := payload
    simp [Argument.asString?, Argument.asBlob?, textBytes, blobBytes]
  | blob data =>
    obtain ⟨-, filling, -, rfl⟩ := payload
    simp [Argument.asString?, Argument.asBlob?, textBytes, blobBytes]
    omega
  | _ => exact Nat.zero_le _

private theorem Payloads.content_le {as : List Argument} {bytes : List UInt8} (payloads : Payloads as bytes) :
    textBytes (as.filterMap Argument.asString?) + blobBytes (as.filterMap Argument.asBlob?) ≤ bytes.length := by
  induction payloads with
  | nil => exact Nat.zero_le _
  | @cons a as front back payload _ ih =>
    have first := payload.content_le
    rw [List.filterMap_eq_flatMap_toList, List.filterMap_eq_flatMap_toList] at ih ⊢
    rw [List.flatMap_cons, List.flatMap_cons, textBytes_append, blobBytes_append, List.length_append]
    omega

/-- The form of a string is longer than the string's bytes. -/
theorem StringForm.encode_lt {s : String} {bytes : List UInt8} (form : StringForm s bytes) :
    (Utf8.encode s).length < bytes.length := by
  obtain ⟨-, zeros, -, rfl, -⟩ := form
  simp

end Wire

private theorem Message.arguments_lt_tags (m : Message) : m.arguments.length < (Utf8.encode m.tags).length := by
  have letters := Utf8.length_le_encode m.tags
  rw [Message.tags, String.toList_ofList, List.length_cons, List.length_map] at letters
  exact letters

private theorem Message.weight_eq (m : Message) : (Packet.message m).weight =
    3 + m.arguments.length + (Utf8.encode m.address).length +
      (textBytes (m.arguments.filterMap Argument.asString?) + blobBytes (m.arguments.filterMap Argument.asBlob?)) := by
  simp only [Packet.weight, Packet.count, Packet.texts, Packet.blobs, Packet.arguments, Packet.messages,
    List.flatMap_singleton, Message.strings, textBytes, List.map_cons, List.sum_cons]
  omega

/-- Elements together weigh no more than their bytes behind their sizes. -/
theorem Wire.sum_weight_le {children : List (List UInt8)} {ps : List Packet}
    (each : List.Forall₂ (fun child p => p.weight ≤ child.length) children ps) :
    (ps.map Packet.weight).sum ≤ (sized children).length := by
  induction each with
  | nil => exact Nat.zero_le _
  | cons first _ ih =>
    rw [List.map_cons, List.sum_cons, sized_cons, List.length_append, List.length_append]
    omega

/-- Whatever bytes derive weighs no more than these. In a message the final zeros of its strings and the comma of its
    tags pay for the message, and each tag for its argument; a bundle is paid for by its header. -/
theorem Wire.Derives.weight_le {bytes : List UInt8} {p : Packet} (derives : Derives bytes p) :
    p.weight ≤ bytes.length := by
  induction derives using Derives.induction with
  | @message m address tags arguments trailing _ addressForm tagsForm payloads _ =>
    have named := addressForm.encode_lt
    have tagged := tagsForm.encode_lt
    have counted := m.arguments_lt_tags
    have held := payloads.content_le
    rw [m.weight_eq, List.length_append, List.length_append, List.length_append]
    omega
  | @bundle t ps time children timeForm elements aligned each =>
    have inside := sum_weight_le (each.imp fun _ _ holds => holds.2.2)
    have header : bundleHeader.length = 8 := rfl
    rw [Packet.weight_bundle, List.length_append, List.length_append, header]
    omega

/-- What the decoder gives has packets, arguments, texts and blobs only as far as its bytes allow: three times the number
    of packets at all levels, the number of arguments, the bytes of addresses and string arguments and the bytes of blobs
    together are no more than the bytes received. -/
theorem Packet.contents_le_received (bytes : List UInt8) (p : Packet) (read : decode bytes = .ok p) :
    3 * p.count + p.arguments.length + textBytes p.texts + blobBytes p.blobs ≤ bytes.length :=
  (decodeWithin_iff.mp read).1.weight_le

/-- Two arguments without a payload, and an address of three bytes: nothing is left over. -/
theorem Packet.contents_le_received_tags :
    let bytes := [47, 97, 98, 0, 44, 78, 84, 0]
    let p := message ⟨"/ab", [.nil, .bool true]⟩
    decode bytes = .ok p ∧
      3 * p.count + p.arguments.length + textBytes p.texts + blobBytes p.blobs ≤ bytes.length ∧
      3 * p.count + p.arguments.length + textBytes p.texts = bytes.length := by
  intro bytes p
  have read : decode bytes = .ok p := decodeWithin_message_iff.mpr (by decide)
  exact ⟨read, Packet.contents_le_received bytes p read, by decide⟩

end OpenSound
