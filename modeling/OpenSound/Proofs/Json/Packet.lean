import Mathlib.Data.List.Nodup
import OpenSound.Json.Packet
import OpenSound.Proofs.Json.Text
import OpenSound.Proofs.Packet

/-!
# Packets read back from JSON

What is written as JSON is plain, unless it has a floating point number, and is read back within a depth that follows from
how deep its bundles are nested. So a value that is written as text comes back from that text as it was.
-/

namespace OpenSound

namespace Json

private theorem string?_ofString (s : String) : TextUnit.string? (TextUnit.ofString s) = some s := by
  have chars : (TextUnit.ofString s).all (fun u => u.char?.isSome) = true := by simp [TextUnit.ofString, TextUnit.char?]
  rw [TextUnit.string?, if_pos chars, TextUnit.ofString, List.filterMap_map]
  simp [Function.comp_def, TextUnit.char?]

private theorem isString_ofString (s : String) : IsString (TextUnit.ofString s) := ⟨s.toList, rfl⟩

section

variable {number : Numeral → Prop}

private theorem isPlain_ofInt (integers : ∀ i, number (.ofInt i)) (i : Int) : (ofInt i).IsPlain number := integers i

private theorem isPlain_ofString (s : String) : (ofString s).IsPlain number := isString_ofString s

private theorem isPlain_bool (b : Bool) : (bool b).IsPlain number := trivial

private theorem isPlain_array {α : Type} {write : α → Json} {as : List α} (each : ∀ a ∈ as, (write a).IsPlain number) :
    (array (as.map write)).IsPlain number := by
  rw [IsPlain]
  induction as with
  | nil => trivial
  | cons a as ih =>
    obtain ⟨first, others⟩ := List.forall_mem_cons.mp each
    exact ⟨first, ih others⟩

private theorem isPlain_record {fields : List (String × Json)} (each : ∀ f ∈ fields, f.2.IsPlain number) :
    (record fields).IsPlain number := by
  rw [record, IsPlain]
  induction fields with
  | nil => trivial
  | cons f fields ih =>
    obtain ⟨first, others⟩ := List.forall_mem_cons.mp each
    exact ⟨isString_ofString _, first, ih others⟩

private theorem isPlain_alternative {v : Json} (plain : v.IsPlain number) (name : String) :
    (alternative name v).IsPlain number :=
  isPlain_record (by simpa using plain)

end

/-- The members of a record. -/
def members (fields : List (String × Json)) : List (List TextUnit × Json) :=
  fields.map fun f => (TextUnit.ofString f.1, f.2)

private theorem members_cons (f : String × Json) (fields : List (String × Json)) :
    members (f :: fields) = (TextUnit.ofString f.1, f.2) :: members fields := rfl

/-- A field of a record is found by its name, if no other field has it. -/
theorem member?_members {fields : List (String × Json)} (distinct : (fields.map Prod.fst).Nodup) {f : String × Json}
    (field : f ∈ fields) : member? (members fields) f.1 = some f.2 := by
  have found : (members fields).filter (fun m => TextUnit.string? m.1 == some f.1) =
      [(TextUnit.ofString f.1, f.2)] := by
    induction fields with
    | nil => cases field
    | cons first fields ih =>
      obtain ⟨fresh, others⟩ := List.nodup_cons.mp distinct
      rw [members_cons]
      rcases List.mem_cons.mp field with rfl | later
      · have none : ∀ m ∈ members fields, ¬(TextUnit.string? m.1 == some f.1) = true := by
          intro m member same
          obtain ⟨other, here, rfl⟩ := List.mem_map.mp member
          rw [string?_ofString, beq_iff_eq, Option.some.injEq] at same
          exact fresh (List.mem_map.mpr ⟨other, here, same⟩)
        rw [List.filter_cons_of_pos (by simp [string?_ofString]), List.filter_eq_nil_iff.mpr none]
      · have other : first.1 ≠ f.1 := fun same => fresh (same ▸ List.mem_map_of_mem later)
        rw [List.filter_cons_of_neg (by simp [string?_ofString, other])]
        exact ih others later
  rw [member?, found]

/-- The fields of a record are read by their names, in order. -/
theorem fields?_record {fields : List (String × Json)} {names : List String} (named : fields.map Prod.fst = names)
    (distinct : names.Nodup) : (record fields).fields? names = some (fields.map Prod.snd) := by
  subst named
  have allowed : (members fields).all (isAllowed (fields.map Prod.fst)) = true := by
    simp only [members, List.all_map, List.all_eq_true, Function.comp_apply, isAllowed, string?_ofString]
    intro f here
    simp [List.mem_map_of_mem (f := Prod.fst) here]
  have values (part : List (String × Json)) (inside : part ⊆ fields) :
      namedValues? (members fields) (part.map Prod.fst) = some (part.map Prod.snd) := by
    induction part with
    | nil => rfl
    | cons f part ih =>
      obtain ⟨here, others⟩ := List.cons_subset.mp inside
      simp only [List.map_cons, namedValues?, member?_members distinct here, ih others]
  rw [show record fields = .object (members fields) from rfl, fields?, if_pos allowed, values fields (List.Subset.refl _)]

private theorem variant?_alternative (name : String) (v : Json) : (alternative name v).variant? = some (name, v) := by
  simp only [alternative, record, List.map_cons, List.map_nil, variant?, string?_ofString, Option.map_some]

private theorem readAll?_map {α : Type} {read : Json → Option α} {write : α → Json} {as : List α}
    (each : ∀ a ∈ as, read (write a) = some a) : readAll? read (as.map write) = some as := by
  induction as with
  | nil => rfl
  | cons a as ih =>
    obtain ⟨first, others⟩ := List.forall_mem_cons.mp each
    simp only [List.map_cons, readAll?, first, ih others]

/-- An integer of a range that fits 64 bits is read from its number. -/
theorem int?_ofInt {range : IntegerRange} {i : Int} (inside : range.contains i = true)
    (fits : (IntegerRange.signed 64).least ≤ range.least ∧ range.greatest ≤ (IntegerRange.unsigned 64).greatest) :
    (ofInt i).int? range = some i := by
  obtain ⟨least, greatest⟩ := (IntegerRange.contains_iff _ _).mp inside
  have read := Numeral.integer?_ofInt (Int.le_trans fits.1 least) (Int.le_trans greatest fits.2)
  simp only [ofInt, int?, read, if_pos inside]

/-- A plain value from which something is read, if it may be nested deep enough. -/
structure Holds {α : Type} (read : Nat → Json → Option α) (needed : Nat) (v : Json) (a : α) : Prop where
  plain : v.IsPlain Numeral.IsInteger
  readBack : ∀ {depth}, needed ≤ depth → read depth v = some a

private theorem Holds.mono {α : Type} {read : Nat → Json → Option α} {needed more : Nat} {v : Json} {a : α}
    (holds : Holds read needed v a) (le : needed ≤ more) : Holds read more v a :=
  ⟨holds.plain, fun enough => holds.readBack (Nat.le_trans le enough)⟩

/-- It is also read from the value's text. -/
theorem Holds.decode? {α : Type} {read : Nat → Json → Option α} {needed : Nat} {v : Json} {a : α}
    (holds : Holds read needed v a) (shallow : needed ≤ maxDepth) : Json.decode? read v.text = some a := by
  rw [Json.decode?, parse?_text holds.plain, Option.bind_some, holds.readBack shallow]

end Json

open Json (Holds)

variable {number : Numeral → Prop}

namespace TimeTag

private theorem word?_ofInt (w : UInt32) : word? (.ofInt w.toNat) = some w := by
  rw [word?, Json.int?_ofInt (IntegerRange.contains_unsigned.mpr w.toNat_lt) (by decide)]
  simp

private theorem isPlain_toJson (integers : ∀ i, number (.ofInt i)) (t : TimeTag) : t.toJson.IsPlain number := by
  refine Json.isPlain_record fun f field => ?_
  simp only [List.mem_cons, List.not_mem_nil, or_false] at field
  rcases field with rfl | rfl | rfl
  · exact Json.isPlain_ofInt integers _
  · exact Json.isPlain_ofInt integers _
  · exact Json.isPlain_bool _

/-- The three fields of a time tag are read back, whatever they are. -/
theorem holds_toJson (t : TimeTag) : Holds ofJson? 1 t.toJson t where
  plain := t.isPlain_toJson Numeral.isInteger_ofInt
  readBack := by
    intro depth enough
    obtain ⟨depth, rfl⟩ := Nat.exists_eq_add_of_le' enough
    have fields : t.toJson.fields? fieldNames =
        some [.ofInt t.seconds.toNat, .ofInt t.fraction.toNat, .bool t.isImmediate] :=
      Json.fields?_record rfl (by decide)
    simp only [ofJson?, fields, word?_ofInt, Json.bool?]

end TimeTag

namespace Argument

/-- A floating point argument. -/
def IsFloat : Argument → Prop
  | float32 _ | float64 _ => True
  | _ => False

instance : DecidablePred IsFloat
  | float32 _ | float64 _ => .isTrue trivial
  | nil | int32 _ | string _ | blob _ | bool _ | int64 _ | timeTag _ => .isFalse id

private theorem byte?_ofInt (b : UInt8) : byte? (.ofInt b.toNat) = some b := by
  rw [byte?, Json.int?_ofInt (IntegerRange.contains_unsigned.mpr b.toNat_lt) (by decide)]
  simp

private theorem isPlain_toJson (integers : ∀ i, number (.ofInt i)) {a : Argument}
    (floats : a.IsFloat → a.toJson.IsPlain number) : a.toJson.IsPlain number := by
  cases a with
  | nil => exact Json.isPlain_ofString _
  | float32 bits | float64 bits => exact floats trivial
  | int32 i | int64 i => exact Json.isPlain_alternative (Json.isPlain_ofInt integers _) _
  | string s => exact Json.isPlain_alternative (Json.isPlain_ofString s) _
  | bool b => exact Json.isPlain_alternative (Json.isPlain_bool b) _
  | timeTag t => exact Json.isPlain_alternative (t.isPlain_toJson integers) _
  | blob data =>
    have plain : (Json.array (data.map fun b => Json.ofInt b.toNat)).IsPlain number :=
      Json.isPlain_array fun b _ => Json.isPlain_ofInt integers _
    exact Json.isPlain_alternative plain _

private theorem ofJson?_alternative (depth : Nat) (name : String) (v : Json) :
    ofJson? (depth + 1) (.alternative name v) = ofVariant? depth name v := by
  have variant := Json.variant?_alternative name v
  rw [Json.alternative, Json.record] at variant ⊢
  simp only [ofJson?, variant]

private theorem ofJson?_toJson {a : Argument} (exact : ¬a.IsFloat) (depth : Nat) :
    ofJson? (depth + 2) a.toJson = some a := by
  cases a with
  | nil => simp only [toJson, Json.ofString, ofJson?, Json.string?_ofString, if_true]
  | float32 bits | float64 bits => exact absurd trivial exact
  | int32 i =>
    have inside : (IntegerRange.signed 32).contains i.toInt = true :=
      IntegerRange.contains_signed.mpr ⟨i.le_toInt, i.toInt_lt⟩
    rw [toJson, ofJson?_alternative, ofVariant?, Json.int?_ofInt inside (by decide)]
    simp
  | int64 i =>
    have inside : (IntegerRange.signed 64).contains i.toInt = true :=
      IntegerRange.contains_signed.mpr ⟨i.le_toInt, i.toInt_lt⟩
    rw [toJson, ofJson?_alternative, ofVariant?, Json.int?_ofInt inside (by decide)]
    simp
  | string s =>
    rw [toJson, ofJson?_alternative, ofVariant?, Json.ofString, Json.string?, Json.string?_ofString]
    rfl
  | bool b =>
    rw [toJson, ofJson?_alternative]
    rfl
  | timeTag t =>
    rw [toJson, ofJson?_alternative, ofVariant?, t.holds_toJson.readBack (by omega)]
    rfl
  | blob data =>
    rw [toJson, ofJson?_alternative, ofVariant?, blob?, Json.readAll?_map fun b _ => byte?_ofInt b]
    rfl

/-- An argument that is no floating point number is read back. -/
theorem holds_toJson {a : Argument} (exact : ¬a.IsFloat) : Holds ofJson? 2 a.toJson a where
  plain := isPlain_toJson Numeral.isInteger_ofInt fun float => absurd float exact
  readBack := by
    intro depth enough
    obtain ⟨depth, rfl⟩ := Nat.exists_eq_add_of_le' enough
    exact ofJson?_toJson exact depth

end Argument

namespace Message

/-- A message without floating point arguments. -/
def IsExact (m : Message) : Prop := ∀ a ∈ m.arguments, ¬a.IsFloat

instance (m : Message) : Decidable m.IsExact := inferInstanceAs (Decidable (∀ a ∈ m.arguments, ¬a.IsFloat))

private theorem isPlain_toJson (integers : ∀ i, number (.ofInt i)) {m : Message}
    (floats : ∀ a ∈ m.arguments, a.IsFloat → a.toJson.IsPlain number) : m.toJson.IsPlain number := by
  refine Json.isPlain_record fun f field => ?_
  simp only [List.mem_cons, List.not_mem_nil, or_false] at field
  rcases field with rfl | rfl
  · exact Json.isPlain_ofString _
  · exact Json.isPlain_array fun a here => Argument.isPlain_toJson integers (floats a here)

/-- A message without floating point arguments is read back. -/
theorem holds_toJson {m : Message} (exact : m.IsExact) : Holds ofJson? 4 m.toJson m where
  plain := isPlain_toJson Numeral.isInteger_ofInt fun a here float => absurd float (exact a here)
  readBack := by
    intro depth enough
    obtain ⟨depth, rfl⟩ := Nat.exists_eq_add_of_le' enough
    have fields : m.toJson.fields? fieldNames =
        some [.ofString m.address, .array (m.arguments.map Argument.toJson)] := Json.fields?_record rfl (by decide)
    have arguments : Json.readAll? (Argument.ofJson? (depth + 2)) (m.arguments.map Argument.toJson) = some m.arguments :=
      Json.readAll?_map fun a here => (Argument.holds_toJson (exact a here)).readBack (by omega)
    simp only [ofJson?, fields, Json.ofString, Json.string?, Json.string?_ofString, arguments]

end Message

namespace Packet

private theorem allToJson_eq_map (ps : List Packet) : allToJson ps = ps.map toJson := by
  induction ps with
  | nil => rfl
  | cons p ps ih => rw [allToJson, ih, List.map_cons]

private theorem ofJson?_message (depth : Nat) (v : Json) :
    ofJson? (depth + 1) (.alternative "Message" v) = (Message.ofJson? depth v).map .message := by
  simp only [ofJson?, Json.variant?_alternative]

private theorem ofJson?_bundle (depth : Nat) (v : Json) :
    ofJson? (depth + 3) (.alternative "Bundle" v) =
      (Bundle.ofFields? (depth + 1) (ofJson? depth) v).map Bundle.toPacket := by
  simp only [ofJson?, Json.variant?_alternative]

/-- A packet without floating point arguments. -/
def IsExact (p : Packet) : Prop := ∀ m ∈ p.messages, m.IsExact

instance (p : Packet) : Decidable p.IsExact := inferInstanceAs (Decidable (∀ m ∈ p.messages, m.IsExact))

end Packet

namespace Bundle

private theorem isPlain_toJson (integers : ∀ i, number (.ofInt i)) {b : Bundle}
    (each : ∀ p ∈ b.elements, p.toJson.IsPlain number) : b.toJson.IsPlain number := by
  refine Json.isPlain_record fun f field => ?_
  simp only [List.mem_cons, List.not_mem_nil, or_false] at field
  rcases field with rfl | rfl
  · exact b.timeTag.isPlain_toJson integers
  · rw [Packet.allToJson_eq_map]
    exact Json.isPlain_array each

private theorem ofFields?_toJson {b : Bundle} {depth : Nat} {element : Json → Option Packet}
    (each : ∀ p ∈ b.elements, element p.toJson = some p) : ofFields? (depth + 1) element b.toJson = some b := by
  have fields : b.toJson.fields? fieldNames = some [b.timeTag.toJson, .array (b.elements.map Packet.toJson)] := by
    rw [← Packet.allToJson_eq_map]
    exact Json.fields?_record rfl (by decide)
  simp only [ofFields?, fields, b.timeTag.holds_toJson.readBack (Nat.le_add_left 1 depth), Json.readAll?_map each]

end Bundle

mutual

/-- A packet without floating point arguments is read back. A bundle takes three levels, for the alternative, its record
    and its elements, and a message takes five with a time tag among its arguments. -/
theorem Packet.holds_toJson : ∀ {p : Packet}, p.IsExact → Holds Packet.ofJson? (3 * p.depth + 5) p.toJson p
  | .message m, exact => by
    have holds := Message.holds_toJson (exact m (List.mem_singleton.mpr rfl))
    refine ⟨Json.isPlain_alternative holds.plain _, fun {depth} enough => ?_⟩
    rw [Packet.depth] at enough
    obtain ⟨depth, rfl⟩ : ∃ d, depth = d + 1 := ⟨depth - 1, by omega⟩
    rw [toJson, ofJson?_message, holds.readBack (by omega), Option.map_some]
  | .bundle t ps, exact => by
    have each := Packet.holds_allToJson exact
    have plain : (Bundle.toJson ⟨t, ps⟩).IsPlain Numeral.IsInteger :=
      Bundle.isPlain_toJson Numeral.isInteger_ofInt fun p here => (each p here).plain
    refine ⟨Json.isPlain_alternative plain _, fun {depth} enough => ?_⟩
    rw [Packet.depth] at enough
    obtain ⟨depth, rfl⟩ : ∃ d, depth = d + 3 := ⟨depth - 3, by omega⟩
    have fields : Bundle.ofFields? (depth + 1) (ofJson? depth) (Bundle.toJson ⟨t, ps⟩) = some ⟨t, ps⟩ :=
      Bundle.ofFields?_toJson fun p here => (each p here).readBack (by omega)
    rw [show (bundle t ps).toJson = .alternative "Bundle" (Bundle.toJson ⟨t, ps⟩) from rfl, ofJson?_bundle, fields]
    rfl

private theorem Packet.holds_allToJson : ∀ {ps : List Packet}, (∀ m ∈ Packet.messagesAll ps, m.IsExact) →
    ∀ p ∈ ps, Holds Packet.ofJson? (3 * Packet.depthAll ps + 5) p.toJson p
  | [], _, p, here => by cases here
  | p :: ps, exact, q, here => by
    obtain ⟨first, others⟩ := List.forall_mem_append.mp exact
    rw [Packet.depthAll]
    rcases List.mem_cons.mp here with same | later
    · rw [same]
      exact (Packet.holds_toJson first).mono (by omega)
    · exact (Packet.holds_allToJson others q later).mono (by omega)

end

theorem Bundle.holds_toJson {b : Bundle} (exact : b.toPacket.IsExact) :
    Holds ofJson? (3 * b.toPacket.depth + 5) b.toJson b := by
  have each := Packet.holds_allToJson exact
  refine ⟨isPlain_toJson Numeral.isInteger_ofInt fun p here => (each p here).plain, fun {depth} enough => ?_⟩
  rw [toPacket, Packet.depth] at enough
  obtain ⟨depth, rfl⟩ : ∃ d, depth = d + 2 := ⟨depth - 2, by omega⟩
  rw [ofJson?, ofFields?_toJson fun p here => (each p here).readBack (by omega)]

private theorem Numeral.isDecimal_ofInt (i : Int) : (ofInt i).IsDecimal := ⟨isDigit_toDigits _, nofun, nofun⟩

namespace Decimal

private theorem isDigit_digitList (d : Decimal) :
    ∀ c ∈ d.digitList, c.isDigit = true := Numeral.isDigit_toDigits d.digits

private theorem isDigit_zeros (n : Nat) : ∀ c ∈ zeros n, c.isDigit = true := by
  intro c member
  rw [List.eq_of_mem_replicate member]
  rfl

private theorem isDigit_positional (d : Decimal) :
    (∀ c ∈ d.positional.1, c.isDigit = true) ∧ ∀ c ∈ d.positional.2, c.isDigit = true := by
  have digits := d.isDigit_digitList
  simp only [positional]
  by_cases whole : 0 ≤ d.exponent
  · rw [if_pos whole]
    exact ⟨List.forall_mem_append.mpr ⟨digits, isDigit_zeros _⟩, nofun⟩
  · rw [if_neg whole]
    by_cases split : (-d.exponent).toNat < d.digitList.length
    · rw [if_pos split]
      exact ⟨fun c member => digits c (List.mem_of_mem_take member), fun c member => digits c (List.mem_of_mem_drop member)⟩
    · rw [if_neg split]
      exact ⟨isDigit_zeros 1, List.forall_mem_append.mpr ⟨isDigit_zeros _, digits⟩⟩

end Decimal

private theorem Json.FloatLayout.isDecimal_numeral (l : FloatLayout) (isNegative : Bool) (d : Decimal) :
    (l.numeral isNegative d).IsDecimal := by
  have digits := d.isDigit_digitList
  obtain ⟨whole, fraction⟩ := d.isDigit_positional
  unfold numeral
  by_cases inside : l.least ≤ d.leadingExponent ∧ d.leadingExponent ≤ l.greatest
  · simp only [if_pos inside]
    split
    · rename_i front same
      rw [same] at whole
      exact ⟨whole, Decimal.isDigit_zeros 1, nofun⟩
    · rename_i front behind _ same
      rw [same] at whole fraction
      exact ⟨whole, fraction, nofun⟩
  · simp only [if_neg inside]
    refine ⟨fun c member => digits c (List.mem_of_mem_take member), fun c member => digits c (List.mem_of_mem_drop member), ?_⟩
    intro e written c member
    cases written
    exact Numeral.isDigit_toDigits _ c member

private theorem BinaryFormat.isPlain_toJson (f : BinaryFormat) (layout : Json.FloatLayout) (bits : Nat) :
    (f.toJson layout bits).IsPlain Numeral.IsDecimal := by
  unfold toJson
  split
  · trivial
  · trivial
  · exact ⟨Decimal.isDigit_zeros 1, Decimal.isDigit_zeros 1, nofun⟩
  · exact layout.isDecimal_numeral _ _

private theorem Argument.isPlain_float {a : Argument} (float : a.IsFloat) : a.toJson.IsPlain Numeral.IsDecimal := by
  cases a with
  | float32 bits => exact Json.isPlain_alternative (BinaryFormat.isPlain_toJson _ _ _) _
  | float64 bits => exact Json.isPlain_alternative (BinaryFormat.isPlain_toJson _ _ _) _
  | nil | int32 _ | string _ | blob _ | bool _ | int64 _ | timeTag _ => exact float.elim

/-- The text of a message has no control characters, whatever its arguments are. -/
theorem Message.isVisible_toJson (m : Message) : Json.IsVisible m.toJson.text :=
  Json.isVisible_text (isPlain_toJson Numeral.isDecimal_ofInt fun _ _ float => Argument.isPlain_float float)

end OpenSound
