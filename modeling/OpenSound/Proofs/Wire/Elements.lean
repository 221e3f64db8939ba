import OpenSound.Proofs.Wire.Grammar
import OpenSound.Proofs.Wire.Writing

/-!
# Elements behind their sizes

The elements of a bundle stand one after another, each behind its length. Such bytes can be cut into elements in one
way only, and so can every beginning of them that can be cut at all: it is made of the first elements. With elements
as a list, what bytes derive is shown by one induction over packets, whose elements come with their bytes.
-/

namespace OpenSound

open Wire

namespace Wire

/-- Elements one after another, each behind its size. -/
def sized (children : List (List UInt8)) : List UInt8 :=
  children.flatMap fun child => bigEndian 4 child.length ++ child

@[simp] theorem sized_nil : sized [] = [] := rfl

@[simp] theorem sized_cons (child : List UInt8) (children : List (List UInt8)) :
    sized (child :: children) = bigEndian 4 child.length ++ child ++ sized children := rfl

@[simp] theorem sized_append (front back : List (List UInt8)) : sized (front ++ back) = sized front ++ sized back :=
  List.flatMap_append

/-- The size in front of an element tells it from what follows. -/
theorem sized_cons_inj {child child' rest rest' : List UInt8} (small : child.length < UInt32.size)
    (small' : child'.length < UInt32.size)
    (equal : bigEndian 4 child.length ++ child ++ rest = bigEndian 4 child'.length ++ child' ++ rest') :
    child = child' ∧ rest = rest' := by
  rw [List.append_assoc, List.append_assoc] at equal
  obtain ⟨sizes, behind⟩ := List.append_inj equal (by simp)
  exact List.append_inj behind (bigEndian_inj small small' sizes)

/-- A beginning of elements behind their sizes that can be cut itself is made of the first ones. -/
theorem prefix_of_sized_prefix {front children : List (List UInt8)} (small : ∀ c ∈ front, c.length < UInt32.size)
    (small' : ∀ c ∈ children, c.length < UInt32.size) (before : sized front <+: sized children) :
    front <+: children := by
  induction front generalizing children with
  | nil => exact List.nil_prefix
  | cons child front ih =>
    obtain ⟨smallFirst, smallOthers⟩ := List.forall_mem_cons.mp small
    cases children with
    | nil =>
      have short := before.length_le
      simp at short
    | cons child' children =>
      obtain ⟨smallFirst', smallOthers'⟩ := List.forall_mem_cons.mp small'
      obtain ⟨rest, whole⟩ := before
      rw [sized_cons, sized_cons, List.append_assoc (bigEndian 4 child.length ++ child)] at whole
      obtain ⟨rfl, others⟩ := sized_cons_inj smallFirst smallFirst' whole
      exact (List.prefix_cons_inj child).mpr (ih smallOthers smallOthers' ⟨rest, others⟩)

theorem sized_inj {children children' : List (List UInt8)} (small : ∀ c ∈ children, c.length < UInt32.size)
    (small' : ∀ c ∈ children', c.length < UInt32.size) (equal : sized children = sized children') :
    children = children' := by
  have front : children <+: children' := prefix_of_sized_prefix small small' (equal ▸ List.prefix_rfl)
  have back : children' <+: children := prefix_of_sized_prefix small' small (equal ▸ List.prefix_rfl)
  exact front.eq_of_length_le back.length_le

end Wire

theorem Packet.wireAll_eq_sized (ps : List Packet) : Packet.wireAll ps = sized (ps.map Packet.wire) := by
  induction ps with
  | nil => rfl
  | cons p ps ih => rw [Packet.wireAll, ih, List.map_cons, sized_cons]

theorem Packet.allWritable_iff {ps : List Packet} :
    Packet.AllWritable ps ↔ ∀ p ∈ ps, p.IsWritable ∧ p.wire.length < UInt32.size := by
  induction ps with
  | nil => simp [Packet.AllWritable]
  | cons p ps ih => rw [Packet.AllWritable, ih, List.forall_mem_cons, and_assoc]

namespace Wire

theorem derivesAll_iff {bytes : List UInt8} {ps : List Packet} : DerivesAll bytes ps ↔ ∃ children,
    List.Forall₂ (fun child p => child.length < UInt32.size ∧ Derives child p) children ps ∧ bytes = sized children := by
  induction ps generalizing bytes with
  | nil =>
    constructor
    · intro derives
      cases derives
      exact ⟨[], .nil, rfl⟩
    · rintro ⟨children, each, rfl⟩
      cases each
      exact .nil
  | cons p ps ih =>
    constructor
    · intro derives
      cases derives with
      | @cons _ _ child rest small first others =>
        obtain ⟨children, each, rfl⟩ := ih.mp others
        exact ⟨child :: children, .cons ⟨small, first⟩ each, rfl⟩
    · rintro ⟨_, each, rfl⟩
      cases each with
      | cons first others => exact .cons first.1 first.2 (ih.mpr ⟨_, others, rfl⟩)

/-- Induction over what bytes derive, where the elements of a bundle are a list next to the list of their bytes. -/
theorem Derives.induction {motive : (bytes : List UInt8) → (p : Packet) → Derives bytes p → Prop}
    (message : ∀ {m : Message} {address tags arguments trailing : List UInt8}
      (slash : m.address.toList.head? = some '/') (addressForm : StringForm m.address address)
      (tagsForm : StringForm m.tags tags) (payloads : Payloads m.arguments arguments)
      (aligned : (address ++ tags ++ arguments ++ trailing).length % 4 = 0),
      motive _ _ (.message slash addressForm tagsForm payloads aligned))
    (bundle : ∀ {t : TimeTag} {ps : List Packet} {time : List UInt8} {children : List (List UInt8)}
      (timeForm : TimeTagForm t time) (elements : DerivesAll (sized children) ps)
      (aligned : (bundleHeader ++ time ++ sized children).length % 4 = 0),
      List.Forall₂ (fun child p => child.length < UInt32.size ∧ ∃ derives, motive child p derives) children ps →
      motive _ _ (.bundle timeForm elements aligned))
    {bytes : List UInt8} {p : Packet} (derives : Derives bytes p) : motive bytes p derives := by
  -- the recursor's second motive gathers the bytes of the elements while it goes through them
  refine @Derives.rec motive (fun bytes ps _ => ∃ children, bytes = sized children ∧
    List.Forall₂ (fun child p => child.length < UInt32.size ∧ ∃ derives, motive child p derives) children ps)
    message ?_ ⟨[], rfl, .nil⟩ ?_ bytes p derives
  · rintro t ps time _ timeForm elements aligned ⟨children, rfl, each⟩
    exact bundle timeForm elements aligned each
  · rintro p ps child _ small first others holds ⟨children, rfl, each⟩
    exact ⟨child :: children, rfl, .cons ⟨small, first, holds⟩ each⟩

end Wire

end OpenSound
