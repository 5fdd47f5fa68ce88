import Mathlib.Algebra.Order.Ring.Int
import Mathlib.Tactic.NormNum
import Mission10.Library.Wire

/-!
# Packed records of unbounded integers

A format string without padding is a list of fixed-width little-endian items.
Packing takes integers and fails when one does not fit its item; unpacking needs
exactly the packed length. A machine integer type represents an item when its
wire form is the packed form, which makes records written by the two kinds of
codec interchangeable.
-/
namespace StructFormat

open Wire

structure Item where
  width : ℕ
  signed : Bool
  deriving DecidableEq

namespace Item

def B : Item := ⟨1, false⟩
def h : Item := ⟨2, true⟩
def H : Item := ⟨2, false⟩
def i : Item := ⟨4, true⟩
def I : Item := ⟨4, false⟩
def Q : Item := ⟨8, false⟩

def low (item : Item) : ℤ := if item.signed then -(256 ^ item.width / 2) else 0
def high (item : Item) : ℤ := if item.signed then 256 ^ item.width / 2 else 256 ^ item.width

def pack (item : Item) (value : ℤ) : Option (List UInt8) :=
  if item.low ≤ value ∧ value < item.high then
    some (leBytes item.width (value % 256 ^ item.width).toNat)
  else none

def unpack (item : Item) (bytes : List UInt8) : ℤ :=
  if (leNat bytes : ℤ) < item.high then leNat bytes else leNat bytes - 256 ^ item.width

end Item

def calcsize (items : List Item) : ℕ := (items.map Item.width).sum

/-- Fails when a value does not fit or the numbers of items and values differ. -/
def pack : List Item → List ℤ → Option (List UInt8)
  | [], [] => some []
  | item :: items, value :: values =>
    (item.pack value).bind fun front => (pack items values).map fun rest => front ++ rest
  | _, _ => none

/-- Fails when the length is not the size of the format. -/
def unpack : List Item → List UInt8 → Option (List ℤ)
  | [], [] => some []
  | [], _ :: _ => none
  | item :: items, bytes =>
    (takeExact item.width bytes).bind fun out =>
      (unpack items out.2).map fun values => item.unpack out.1 :: values

/-- Reads the front of a longer string. -/
def unpackFrom (items : List Item) (bytes : List UInt8) : Option (List ℤ) :=
  unpack items (bytes.take (calcsize items))

/-- A machine integer type whose wire form is one packed item. -/
class Represents (α : Type) [Wire α] (item : outParam Item) where
  value : α → ℤ
  pack_value : ∀ a : α, item.pack (value a) = some (encode a)
  unpack_encode : ∀ a : α, item.unpack (encode a) = value a
  length_encode : ∀ a : α, (encode a).length = item.width
  exists_value : ∀ v, item.low ≤ v → v < item.high → ∃ a : α, value a = v

section Records
variable {item : Item} {items : List Item} {value : ℤ} {values : List ℤ}

/-- A packed record begins with the wire form of its first value. -/
theorem pack_cons_some (α : Type) [Wire α] [Represents α item] {bytes : List UInt8}
    (h : pack (item :: items) (value :: values) = some bytes) :
    ∃ (a : α) (rest : List UInt8), Represents.value a = value ∧ pack items values = some rest ∧
      bytes = encode a ++ rest := by
  obtain ⟨front, hfront, hrest⟩ := Option.bind_eq_some_iff.mp h
  obtain ⟨rest, hpack, rfl⟩ := Option.map_eq_some_iff.mp hrest
  have hrange : item.low ≤ value ∧ value < item.high := by
    unfold Item.pack at hfront
    split_ifs at hfront with hrange
    exact hrange
  obtain ⟨a, ha⟩ := Represents.exists_value (α := α) value hrange.1 hrange.2
  have hencode := Represents.pack_value a
  rw [ha, hfront, Option.some.injEq] at hencode
  exact ⟨a, rest, ha, hpack, by rw [hencode]⟩

theorem pack_cons_value {α : Type} [Wire α] [Represents α item] (a : α) {rest : List UInt8}
    (h : pack items values = some rest) :
    pack (item :: items) (Represents.value a :: values) = some (encode a ++ rest) := by
  simp [pack, Represents.pack_value, h]

@[simp] theorem unpack_cons_encode {α : Type} [Wire α] [Represents α item] (a : α)
    (rest : List UInt8) :
    unpack (item :: items) (encode a ++ rest) =
      (unpack items rest).map fun values => Represents.value a :: values := by
  rw [unpack, takeExact_append (Represents.length_encode a), Option.bind_some,
    Represents.unpack_encode]

@[simp] theorem unpack_nil : unpack [] [] = some [] := rfl

@[simp] theorem unpack_singleton_encode {α : Type} [Wire α] [Represents α item] (a : α) :
    unpack [item] (encode a) = some [Represents.value a] := by
  rw [← List.append_nil (encode a), unpack_cons_encode]
  rfl

theorem unpack_replicate {α : Type} [Wire α] [Represents α item] (words : List α) :
    unpack (List.replicate words.length item) (words.flatMap encode) =
      some (words.map Represents.value) := by
  induction words with
  | nil => rfl
  | cons word words ih =>
    rw [List.length_cons, List.replicate_succ, List.flatMap_cons, unpack_cons_encode, ih]
    rfl

/-- The values that an item holds. -/
def Item.Fits (item : Item) (value : ℤ) : Prop := item.low ≤ value ∧ value < item.high

instance (item : Item) (value : ℤ) : Decidable (item.Fits value) :=
  inferInstanceAs (Decidable (_ ∧ _))

theorem Item.pack_some {bytes : List UInt8} (h : item.pack value = some bytes) :
    item.Fits value ∧ bytes.length = item.width := by
  unfold Item.pack at h
  split_ifs at h with hfits
  rw [← Option.some.inj h]
  exact ⟨hfits, length_leBytes _ _⟩

/-- A record packs when every value fits its item. -/
theorem exists_pack_iff :
    (∃ bytes, pack items values = some bytes) ↔ List.Forall₂ Item.Fits items values := by
  induction items generalizing values with
  | nil =>
    cases values with
    | nil => exact iff_of_true ⟨[], rfl⟩ .nil
    | cons value values => exact iff_of_false (fun ⟨_, h⟩ => by cases h) (fun h => by cases h)
  | cons item items ih =>
    cases values with
    | nil => exact iff_of_false (fun ⟨_, h⟩ => by cases h) (fun h => by cases h)
    | cons value values =>
      rw [List.forall₂_cons, ← ih]
      constructor
      · intro ⟨bytes, h⟩
        obtain ⟨front, hfront, hrest⟩ := Option.bind_eq_some_iff.mp h
        obtain ⟨rest, hpack, -⟩ := Option.map_eq_some_iff.mp hrest
        exact ⟨(Item.pack_some hfront).1, rest, hpack⟩
      · intro ⟨hfits, rest, hpack⟩
        refine ⟨leBytes item.width (value % 256 ^ item.width).toNat ++ rest, ?_⟩
        rw [pack, Item.pack, if_pos ⟨hfits.1, hfits.2⟩, hpack]
        rfl

/-- A machine integer fits the item that it represents. -/
theorem Represents.fits {α : Type} [Wire α] [Represents α item] (a : α) :
    item.Fits (Represents.value a) :=
  (Item.pack_some (Represents.pack_value a)).1

theorem length_pack {bytes : List UInt8} (h : pack items values = some bytes) :
    bytes.length = calcsize items := by
  induction items generalizing values bytes with
  | nil =>
    cases values with
    | nil => rw [← Option.some.inj h]; rfl
    | cons value values => cases h
  | cons item items ih =>
    cases values with
    | nil => cases h
    | cons value values =>
      obtain ⟨front, hfront, hrest⟩ := Option.bind_eq_some_iff.mp h
      obtain ⟨rest, hpack, rfl⟩ := Option.map_eq_some_iff.mp hrest
      have hwidth := (Item.pack_some hfront).2
      have hsize := ih hpack
      simp only [calcsize, List.length_append, List.map_cons, List.sum_cons] at *
      omega

theorem unpackFrom_append {front : List UInt8} (h : front.length = calcsize items)
    (rest : List UInt8) : unpackFrom items (front ++ rest) = unpack items front := by
  rw [unpackFrom, List.take_append_of_le_length h.ge, List.take_of_length_le h.le]

end Records

section Instances

theorem Item.pack_unsigned {item : Item} (hsigned : item.signed = false) {n : ℕ}
    (hn : n < 256 ^ item.width) : item.pack n = some (leBytes item.width n) := by
  have hcast : (n : ℤ) < 256 ^ item.width := by exact_mod_cast hn
  have hrange : item.low ≤ (n : ℤ) ∧ (n : ℤ) < item.high := by
    simpa [Item.low, Item.high, hsigned] using hcast
  rw [Item.pack, if_pos hrange, Int.emod_eq_of_lt (by omega) hcast, Int.toNat_natCast]

theorem Item.unpack_unsigned {item : Item} (hsigned : item.signed = false) {n : ℕ}
    (hn : n < 256 ^ item.width) : item.unpack (leBytes item.width n) = n := by
  have hcast : (n : ℤ) < 256 ^ item.width := by exact_mod_cast hn
  rw [Item.unpack, leNat_leBytes hn, if_pos (by simpa [Item.high, hsigned] using hcast)]

theorem Item.exists_unsigned {item : Item} (hsigned : item.signed = false) {v : ℤ}
    (hlow : item.low ≤ v) (hhigh : v < item.high) : ∃ n : ℕ, n < 256 ^ item.width ∧ (n : ℤ) = v := by
  simp only [Item.low, Item.high, hsigned, Bool.false_eq_true, if_false] at hlow hhigh
  have hcast : ((v.toNat : ℕ) : ℤ) = v := Int.toNat_of_nonneg hlow
  refine ⟨v.toNat, ?_, hcast⟩
  have : ((v.toNat : ℕ) : ℤ) < ((256 ^ item.width : ℕ) : ℤ) := by
    rw [hcast]
    exact_mod_cast hhigh
  exact_mod_cast this

instance : Represents UInt8 .B where
  value a := a.toNat
  pack_value a := Item.pack_unsigned rfl a.toNat_lt
  unpack_encode a := Item.unpack_unsigned rfl a.toNat_lt
  length_encode a := length_leBytes 1 _
  exists_value v hlow hhigh := by
    obtain ⟨n, hn, rfl⟩ := Item.exists_unsigned rfl hlow hhigh
    exact ⟨UInt8.ofNat n, by rw [UInt8.toNat_ofNat_of_lt' hn]⟩

instance : Represents UInt16 .H where
  value a := a.toNat
  pack_value a := Item.pack_unsigned rfl a.toNat_lt
  unpack_encode a := Item.unpack_unsigned rfl a.toNat_lt
  length_encode a := length_leBytes 2 _
  exists_value v hlow hhigh := by
    obtain ⟨n, hn, rfl⟩ := Item.exists_unsigned rfl hlow hhigh
    exact ⟨UInt16.ofNat n, by rw [UInt16.toNat_ofNat_of_lt' hn]⟩

instance : Represents UInt32 .I where
  value a := a.toNat
  pack_value a := Item.pack_unsigned rfl a.toNat_lt
  unpack_encode a := Item.unpack_unsigned rfl a.toNat_lt
  length_encode a := length_leBytes 4 _
  exists_value v hlow hhigh := by
    obtain ⟨n, hn, rfl⟩ := Item.exists_unsigned rfl hlow hhigh
    exact ⟨UInt32.ofNat n, by rw [UInt32.toNat_ofNat_of_lt' hn]⟩

instance : Represents UInt64 .Q where
  value a := a.toNat
  pack_value a := Item.pack_unsigned rfl a.toNat_lt
  unpack_encode a := Item.unpack_unsigned rfl a.toNat_lt
  length_encode a := length_leBytes 8 _
  exists_value v hlow hhigh := by
    obtain ⟨n, hn, rfl⟩ := Item.exists_unsigned rfl hlow hhigh
    exact ⟨UInt64.ofNat n, by rw [UInt64.toNat_ofNat_of_lt' hn]⟩

/-- The unsigned word of a signed one. -/
theorem Int16.toNat_toUInt16 (x : Int16) :
    (x.toUInt16.toNat : ℤ) = if 0 ≤ x.toInt then x.toInt else x.toInt + 65536 := by
  have hlt := x.toUInt16.toNat_lt
  have hint : x.toInt = if 2 * x.toUInt16.toNat < 65536 then (x.toUInt16.toNat : ℤ)
      else x.toUInt16.toNat - 65536 := BitVec.toInt_eq_toNat_cond x.toBitVec
  split_ifs at hint ⊢ <;> omega

theorem Int32.toNat_toUInt32 (x : Int32) :
    (x.toUInt32.toNat : ℤ) = if 0 ≤ x.toInt then x.toInt else x.toInt + 4294967296 := by
  have hlt := x.toUInt32.toNat_lt
  have hint : x.toInt = if 2 * x.toUInt32.toNat < 4294967296 then (x.toUInt32.toNat : ℤ)
      else x.toUInt32.toNat - 4294967296 := BitVec.toInt_eq_toNat_cond x.toBitVec
  split_ifs at hint ⊢ <;> omega

instance : Represents Int16 .h where
  value a := a.toInt
  pack_value a := by
    have hnat := Int16.toNat_toUInt16 a
    have hlow := a.le_toInt
    have hhigh := a.toInt_lt
    have hword : a.toInt % 256 ^ 2 = a.toUInt16.toNat := by split_ifs at hnat <;> omega
    have hrange : Item.h.low ≤ a.toInt ∧ a.toInt < Item.h.high := ⟨hlow, hhigh⟩
    rw [Item.pack, if_pos hrange, show Item.h.width = 2 from rfl, hword, Int.toNat_natCast]
    rfl
  unpack_encode a := by
    have hnat := Int16.toNat_toUInt16 a
    have hlow := a.le_toInt
    have hhigh := a.toInt_lt
    change Item.h.unpack (leBytes 2 a.toUInt16.toNat) = _
    rw [Item.unpack, leNat_leBytes a.toUInt16.toNat_lt]
    change (if (a.toUInt16.toNat : ℤ) < 32768 then _ else (a.toUInt16.toNat : ℤ) - 65536) = _
    split_ifs at hnat ⊢ <;> omega
  length_encode a := length_leBytes 2 _
  exists_value v hlow hhigh := ⟨Int16.ofInt v, Int16.toInt_ofInt_of_le hlow hhigh⟩

instance : Represents Int32 .i where
  value a := a.toInt
  pack_value a := by
    have hnat := Int32.toNat_toUInt32 a
    have hlow := a.le_toInt
    have hhigh := a.toInt_lt
    have hword : a.toInt % 256 ^ 4 = a.toUInt32.toNat := by split_ifs at hnat <;> omega
    have hrange : Item.i.low ≤ a.toInt ∧ a.toInt < Item.i.high := ⟨hlow, hhigh⟩
    rw [Item.pack, if_pos hrange, show Item.i.width = 4 from rfl, hword, Int.toNat_natCast]
    rfl
  unpack_encode a := by
    have hnat := Int32.toNat_toUInt32 a
    have hlow := a.le_toInt
    have hhigh := a.toInt_lt
    change Item.i.unpack (leBytes 4 a.toUInt32.toNat) = _
    rw [Item.unpack, leNat_leBytes a.toUInt32.toNat_lt]
    change (if (a.toUInt32.toNat : ℤ) < 2147483648 then _
      else (a.toUInt32.toNat : ℤ) - 4294967296) = _
    split_ifs at hnat ⊢ <;> omega
  length_encode a := length_leBytes 4 _
  exists_value v hlow hhigh := ⟨Int32.ofInt v, Int32.toInt_ofInt_of_le hlow hhigh⟩

end Instances

end StructFormat
