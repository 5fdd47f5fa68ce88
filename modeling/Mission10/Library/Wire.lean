import Mathlib

/-!
# Packed binary formats

A format writes a value as bytes and reads one from the front of a byte string.
Its laws say that it reads back what it writes and reads nothing else, and that
no value takes more than a fixed number of bytes. Fixed-width little-endian
integers, pairs, arrays and types carried by another format keep the laws.
-/
namespace Wire

/-- Little-endian digits, truncated to the width. -/
def leBytes : ℕ → ℕ → List UInt8
  | 0, _ => []
  | width + 1, value => UInt8.ofNat value :: leBytes width (value / 256)

def leNat : List UInt8 → ℕ
  | [] => 0
  | byte :: bytes => byte.toNat + 256 * leNat bytes

@[simp] theorem length_leBytes (width value : ℕ) : (leBytes width value).length = width := by
  induction width generalizing value with
  | zero => rfl
  | succ width ih => simp [leBytes, ih]

theorem leNat_leBytes {width value : ℕ} (h : value < 256 ^ width) :
    leNat (leBytes width value) = value := by
  induction width generalizing value with
  | zero =>
    rw [Nat.pow_zero] at h
    simp only [leBytes, leNat]
    omega
  | succ width ih =>
    have hdiv : value / 256 < 256 ^ width := by
      rw [Nat.div_lt_iff_lt_mul (by decide), ← Nat.pow_succ]
      exact h
    rw [leBytes, leNat, ih hdiv, UInt8.toNat_ofNat']
    omega

theorem leBytes_leNat (bytes : List UInt8) : leBytes bytes.length (leNat bytes) = bytes := by
  induction bytes with
  | nil => rfl
  | cons byte bytes ih =>
    have hbyte := byte.toNat_lt
    have hhead : UInt8.ofNat (byte.toNat + 256 * leNat bytes) = byte := by
      rw [← UInt8.toNat_inj, UInt8.toNat_ofNat']
      omega
    have htail : (byte.toNat + 256 * leNat bytes) / 256 = leNat bytes := by omega
    rw [List.length_cons, leBytes, leNat, hhead, htail, ih]

theorem leNat_lt (bytes : List UInt8) : leNat bytes < 256 ^ bytes.length := by
  induction bytes with
  | nil => simp [leNat]
  | cons byte bytes ih =>
    have hbyte := byte.toNat_lt
    rw [leNat, List.length_cons, Nat.pow_succ]
    omega

/-- The first `width` bytes and the rest. -/
def takeExact (width : ℕ) (bytes : List UInt8) : Option (List UInt8 × List UInt8) :=
  if width ≤ bytes.length then some (bytes.take width, bytes.drop width) else none

theorem takeExact_append {width : ℕ} {front : List UInt8} (h : front.length = width)
    (rest : List UInt8) : takeExact width (front ++ rest) = some (front, rest) := by
  subst h
  simp [takeExact]

theorem takeExact_some {width : ℕ} {bytes front rest : List UInt8}
    (h : takeExact width bytes = some (front, rest)) :
    front.length = width ∧ bytes = front ++ rest := by
  unfold takeExact at h
  split_ifs at h with hlen
  simp only [Option.some.injEq, Prod.mk.injEq] at h
  obtain ⟨rfl, rfl⟩ := h
  exact ⟨List.length_take_of_le hlen, (List.take_append_drop width bytes).symm⟩

end Wire

/-- A format of the values of one type. -/
class Wire (α : Type) where
  encode : α → List UInt8
  decode : List UInt8 → Option (α × List UInt8)
  maxSize : ℕ

class LawfulWire (α : Type) [Wire α] : Prop where
  decode_encode : ∀ (a : α) (rest : List UInt8),
    Wire.decode (Wire.encode a ++ rest) = some (a, rest)
  encode_of_decode : ∀ {bytes : List UInt8} {a : α} {rest : List UInt8},
    Wire.decode bytes = some (a, rest) → bytes = Wire.encode a ++ rest
  length_le : ∀ a : α, (Wire.encode a).length ≤ Wire.maxSize α

attribute [simp] LawfulWire.decode_encode

namespace Wire

variable {α β : Type}

theorem decode_encode_nil [Wire α] [LawfulWire α] (a : α) :
    decode (encode a) = some (a, []) := by
  simpa using LawfulWire.decode_encode a []

/-- An unsigned integer of `width` bytes. -/
abbrev unsigned (width : ℕ) (toNat : α → ℕ) (ofNat : ℕ → α) : Wire α where
  encode a := leBytes width (toNat a)
  decode bytes := (takeExact width bytes).map fun out => (ofNat (leNat out.1), out.2)
  maxSize := width

theorem unsigned_lawful {width : ℕ} {toNat : α → ℕ} {ofNat : ℕ → α}
    (hlt : ∀ a, toNat a < 256 ^ width) (hof : ∀ a, ofNat (toNat a) = a)
    (hto : ∀ n, n < 256 ^ width → toNat (ofNat n) = n) :
    @LawfulWire α (unsigned width toNat ofNat) := by
  refine @LawfulWire.mk α (unsigned width toNat ofNat) ?_ ?_ ?_
  · intro a rest
    change (takeExact width (leBytes width (toNat a) ++ rest)).map _ = _
    rw [takeExact_append (length_leBytes width _), Option.map_some, leNat_leBytes (hlt a), hof]
  · intro bytes a rest h
    obtain ⟨⟨front, tail⟩, htake, hout⟩ := Option.map_eq_some_iff.mp h
    obtain ⟨hlen, rfl⟩ := takeExact_some htake
    obtain ⟨rfl, rfl⟩ := Prod.mk.inj hout
    have hnat : toNat (ofNat (leNat front)) = leNat front := hto _ (hlen ▸ leNat_lt front)
    change front ++ tail = leBytes width (toNat (ofNat (leNat front))) ++ tail
    rw [hnat, ← hlen, leBytes_leNat]
  · intro a
    exact Nat.le_of_eq (length_leBytes width _)

instance : Wire UInt8 := unsigned 1 UInt8.toNat UInt8.ofNat
instance : Wire UInt16 := unsigned 2 UInt16.toNat UInt16.ofNat
instance : Wire UInt32 := unsigned 4 UInt32.toNat UInt32.ofNat
instance : Wire UInt64 := unsigned 8 UInt64.toNat UInt64.ofNat

instance : LawfulWire UInt8 :=
  unsigned_lawful UInt8.toNat_lt (fun _ => UInt8.ofNat_toNat) fun _ h => UInt8.toNat_ofNat_of_lt' h
instance : LawfulWire UInt16 :=
  unsigned_lawful UInt16.toNat_lt (fun _ => UInt16.ofNat_toNat)
    fun _ h => UInt16.toNat_ofNat_of_lt' h
instance : LawfulWire UInt32 :=
  unsigned_lawful UInt32.toNat_lt (fun _ => UInt32.ofNat_toNat)
    fun _ h => UInt32.toNat_ofNat_of_lt' h
instance : LawfulWire UInt64 :=
  unsigned_lawful UInt64.toNat_lt (fun _ => UInt64.ofNat_toNat)
    fun _ h => UInt64.toNat_ofNat_of_lt' h

theorem encode_uint8 (byte : UInt8) : encode byte = [byte] := by
  simp [encode, leBytes]

/-- Values written in the format of another type; reading may refuse some. -/
abbrev via [Wire β] (wrap : α → β) (unwrap : β → Option α) : Wire α where
  encode a := encode (wrap a)
  decode bytes := (decode bytes).bind fun out => (unwrap out.1).map fun a => (a, out.2)
  maxSize := maxSize β

theorem via_lawful [Wire β] [LawfulWire β] (wrap : α → β) (unwrap : β → Option α)
    (hwrap : ∀ a, unwrap (wrap a) = some a) (hunwrap : ∀ b a, unwrap b = some a → wrap a = b) :
    @LawfulWire α (via wrap unwrap) := by
  refine @LawfulWire.mk α (via wrap unwrap) ?_ ?_ ?_
  · intro a rest
    change (decode (encode (wrap a) ++ rest)).bind _ = _
    simp [hwrap]
  · intro bytes a rest h
    obtain ⟨⟨b, tail⟩, hdecode, hout⟩ := Option.bind_eq_some_iff.mp h
    obtain ⟨a', ha', hpair⟩ := Option.map_eq_some_iff.mp hout
    obtain ⟨rfl, rfl⟩ := Prod.mk.inj hpair
    rw [LawfulWire.encode_of_decode hdecode, ← hunwrap b a' ha']
    rfl
  · intro a
    exact LawfulWire.length_le (wrap a)

theorem decode_via_none [Wire β] (wrap : α → β) (unwrap : β → Option α) {bytes : List UInt8}
    (h : (decode bytes : Option (β × List UInt8)) = none) :
    (via wrap unwrap).decode bytes = none := by
  change (decode bytes : Option (β × List UInt8)).bind _ = none
  rw [h, Option.bind_none]

instance : Wire Int16 := via Int16.toUInt16 fun word => some word.toInt16
instance : Wire Int32 := via Int32.toUInt32 fun word => some word.toInt32

instance : LawfulWire Int16 :=
  via_lawful Int16.toUInt16 (fun word => some word.toInt16)
    (fun x => by rw [Int16.toInt16_toUInt16]) fun word x h => by
    rw [← Option.some.inj h, UInt16.toUInt16_toInt16]
instance : LawfulWire Int32 :=
  via_lawful Int32.toUInt32 (fun word => some word.toInt32)
    (fun x => by rw [Int32.toInt32_toUInt32]) fun word x h => by
    rw [← Option.some.inj h, UInt32.toUInt32_toInt32]

/-- One byte, zero or one. -/
def boolOfByte (byte : UInt8) : Option Bool :=
  if byte = 0 then some false else if byte = 1 then some true else none

instance : Wire Bool := via Bool.toUInt8 boolOfByte

instance : LawfulWire Bool :=
  via_lawful Bool.toUInt8 boolOfByte (by decide) fun byte flag h => by
    unfold boolOfByte at h
    split_ifs at h with h0 h1
    · rw [← Option.some.inj h, h0]; rfl
    · rw [← Option.some.inj h, h1]; rfl

instance [Wire α] [Wire β] : Wire (α × β) where
  encode ab := encode ab.1 ++ encode ab.2
  decode bytes := (decode bytes).bind fun out =>
    (decode out.2).map fun rest => ((out.1, rest.1), rest.2)
  maxSize := maxSize α + maxSize β

theorem encode_pair [Wire α] [Wire β] (a : α) (b : β) :
    encode (a, b) = encode a ++ encode b := rfl

/-- A refused second component refuses the pair. -/
theorem decode_pair_none [Wire α] [LawfulWire α] [Wire β] (a : α) {bytes : List UInt8}
    (h : (decode bytes : Option (β × List UInt8)) = none) :
    (decode (encode a ++ bytes) : Option ((α × β) × List UInt8)) = none := by
  simp only [decode] at h ⊢
  simp [h]

theorem decode_pair_none_left [Wire α] [Wire β] {bytes : List UInt8}
    (h : (decode bytes : Option (α × List UInt8)) = none) :
    (decode bytes : Option ((α × β) × List UInt8)) = none := by
  simp only [decode] at h ⊢
  simp [h]

instance [Wire α] [LawfulWire α] [Wire β] [LawfulWire β] : LawfulWire (α × β) where
  decode_encode := by
    rintro ⟨a, b⟩ rest
    simp [encode_pair, decode]
  encode_of_decode := by
    rintro bytes ⟨a, b⟩ rest h
    obtain ⟨⟨a', middle⟩, ha, hout⟩ := Option.bind_eq_some_iff.mp h
    obtain ⟨⟨b', tail⟩, hb, hpair⟩ := Option.map_eq_some_iff.mp hout
    simp only [Prod.mk.injEq] at hpair
    obtain ⟨⟨rfl, rfl⟩, rfl⟩ := hpair
    have hrest : middle = encode b' ++ tail := LawfulWire.encode_of_decode hb
    rw [LawfulWire.encode_of_decode ha, hrest, encode_pair, List.append_assoc]
  length_le := by
    rintro ⟨a, b⟩
    rw [encode_pair, List.length_append]
    exact Nat.add_le_add (LawfulWire.length_le a) (LawfulWire.length_le b)

/-- A fieldless enumeration: one byte, the position among its variants. -/
abbrev enumeration [DecidableEq α] (variants : List α) : Wire α :=
  via (fun a => UInt8.ofNat (variants.idxOf a)) fun byte => variants[byte.toNat]?

theorem enumeration_lawful [DecidableEq α] {variants : List α} (hall : ∀ a, a ∈ variants)
    (hnodup : variants.Nodup) (hshort : variants.length ≤ 256) :
    @LawfulWire α (enumeration variants) := by
  apply via_lawful
  · intro a
    have hlt := List.idxOf_lt_length_of_mem (hall a)
    have hindex : (UInt8.ofNat (variants.idxOf a)).toNat = variants.idxOf a :=
      UInt8.toNat_ofNat_of_lt' (Nat.lt_of_lt_of_le hlt hshort)
    rw [hindex, List.getElem?_eq_getElem hlt, List.getElem_idxOf]
  · intro byte a h
    obtain ⟨hlt, rfl⟩ := List.getElem?_eq_some_iff.mp h
    rw [hnodup.idxOf_getElem, UInt8.ofNat_toNat]

theorem decode_enumeration_none [DecidableEq α] (variants : List α) {byte : UInt8}
    (h : variants.length ≤ byte.toNat) (rest : List UInt8) :
    (enumeration variants).decode (encode byte ++ rest) = none := by
  change (decode (encode byte ++ rest) : Option (UInt8 × List UInt8)).bind _ = none
  rw [LawfulWire.decode_encode, Option.bind_some, Option.map_eq_none_iff]
  exact List.getElem?_eq_none h

/-- A fixed number of values in order. -/
def decodeMany [Wire α] : ℕ → List UInt8 → Option (List α × List UInt8)
  | 0, bytes => some ([], bytes)
  | count + 1, bytes => (decode bytes).bind fun out =>
      (decodeMany count out.2).map fun rest => (out.1 :: rest.1, rest.2)

theorem decodeMany_encode [Wire α] [LawfulWire α] (items : List α) (rest : List UInt8) :
    decodeMany items.length (items.flatMap encode ++ rest) = some (items, rest) := by
  induction items with
  | nil => rfl
  | cons item items ih => simp [decodeMany, ih]

theorem decodeMany_some [Wire α] [LawfulWire α] {count : ℕ} {bytes rest : List UInt8}
    {items : List α} (h : decodeMany count bytes = some (items, rest)) :
    items.length = count ∧ bytes = items.flatMap encode ++ rest := by
  induction count generalizing bytes items with
  | zero =>
    obtain ⟨rfl, rfl⟩ := Prod.mk.inj (Option.some.inj h)
    exact ⟨rfl, rfl⟩
  | succ count ih =>
    obtain ⟨⟨item, middle⟩, hitem, hout⟩ := Option.bind_eq_some_iff.mp h
    obtain ⟨⟨tail, last⟩, htail, hpair⟩ := Option.map_eq_some_iff.mp hout
    obtain ⟨rfl, rfl⟩ := Prod.mk.inj hpair
    obtain ⟨hlen, hmiddle⟩ := ih htail
    refine ⟨by simp [hlen], ?_⟩
    change middle = tail.flatMap encode ++ last at hmiddle
    rw [LawfulWire.encode_of_decode hitem, hmiddle, List.flatMap_cons, List.append_assoc]

theorem length_flatMap_encode_le [Wire α] [LawfulWire α] (items : List α) :
    (items.flatMap encode).length ≤ items.length * maxSize α := by
  induction items with
  | nil => simp
  | cons item items ih =>
    have hitem := LawfulWire.length_le item
    rw [List.flatMap_cons, List.length_append, List.length_cons, Nat.succ_mul]
    omega

def vectorOfList {count : ℕ} (items : List α) : Option (Vector α count) :=
  if h : items.length = count then some ⟨items.toArray, by simpa using h⟩ else none

instance [Wire α] {count : ℕ} : Wire (Vector α count) where
  encode items := items.toList.flatMap encode
  decode bytes := (decodeMany count bytes).bind fun out =>
    (vectorOfList out.1).map fun items => (items, out.2)
  maxSize := count * maxSize α

theorem encode_vector [Wire α] {count : ℕ} (items : Vector α count) :
    encode items = items.toList.flatMap encode := rfl

instance [Wire α] [LawfulWire α] {count : ℕ} : LawfulWire (Vector α count) where
  decode_encode := by
    intro items rest
    have hmany := decodeMany_encode items.toList rest
    rw [Vector.length_toList] at hmany
    simp only [decode, encode_vector, hmany, vectorOfList, Option.bind_some,
      Vector.length_toList, dite_true, Option.map_some]
    rfl
  encode_of_decode := by
    intro bytes items rest h
    obtain ⟨⟨list, tail⟩, hmany, hout⟩ := Option.bind_eq_some_iff.mp h
    obtain ⟨vector, hvector, hpair⟩ := Option.map_eq_some_iff.mp hout
    obtain ⟨rfl, rfl⟩ := Prod.mk.inj hpair
    obtain ⟨hlen, rfl⟩ := decodeMany_some hmany
    unfold vectorOfList at hvector
    rw [dif_pos hlen, Option.some.injEq] at hvector
    subst hvector
    rfl
  length_le := by
    intro items
    have hlen := length_flatMap_encode_le items.toList
    rwa [Vector.length_toList] at hlen

theorem byte_of_toNat {byte : UInt8} {n : ℕ} (h : byte.toNat = n) : byte = UInt8.ofNat n := by
  rw [← h, UInt8.ofNat_toNat]

theorem length_tagged_le {bound total : ℕ} (tag : UInt8) {bytes : List UInt8}
    (h : bytes.length ≤ bound) (hbound : 1 + bound ≤ total) : (tag :: bytes).length ≤ total := by
  rw [List.length_cons]
  omega

/-- Reads a payload and wraps it in a constructor. -/
def decodeAs [Wire β] (wrap : β → α) (bytes : List UInt8) : Option (α × List UInt8) :=
  (decode bytes).map fun out => (wrap out.1, out.2)

@[simp] theorem decodeAs_encode [Wire β] [LawfulWire β] (wrap : β → α) (b : β)
    (rest : List UInt8) : decodeAs wrap (encode b ++ rest) = some (wrap b, rest) := by
  simp [decodeAs]

theorem decodeAs_some [Wire β] [LawfulWire β] {wrap : β → α} {bytes rest : List UInt8} {a : α}
    (h : decodeAs wrap bytes = some (a, rest)) :
    ∃ b, wrap b = a ∧ bytes = encode b ++ rest := by
  obtain ⟨⟨b, tail⟩, hdecode, hpair⟩ := Option.map_eq_some_iff.mp h
  obtain ⟨rfl, rfl⟩ := Prod.mk.inj hpair
  exact ⟨b, rfl, LawfulWire.encode_of_decode hdecode⟩

end Wire
