import IDevice.Lib.Mask
import IDevice.Message.Lengths

/-!
# `Message.Capacity` — the capacity field of an array

`SerializeTo` rounds the larger of the default capacity and the size of the items with
`IDEVICE_MEM_ALIGN(.., 0x210)`. The macro clears the bits of `0x210 - 1`, which rounds up to a multiple only
if these are the low bits. Here they are the bits 0 to 3 and bit 9, so with bit 9 set behind the addition the
result falls back by 512 (`roundedSize_add`).
-/

namespace IDevice

open LittleEndian

namespace DTXPrimitiveArray

/-- What `SerializeTo` computes from the size field. -/
def capacityFor (size : UInt64) : UInt64 :=
  memAlign (max kDTXPrimitiveArrayDefaultCapacity size) kDTXPrimitiveArrayCapacityAlignment

theorem capacityField_eq (a : DTXPrimitiveArray) : a.capacityField = capacityFor a.sizeField := rfl

/-- The capacity written for `a` covers the whole structure with its header, and it is no smaller when
    `more` has been appended. -/
structure CapacityCovers (a : DTXPrimitiveArray) (more : List DTXPrimitiveValue) : Prop where
  covers : a.sizeField.toNat + kDTXPrimitiveArrayHeaderSize.toNat ≤ a.capacityField.toNat
  grows : a.capacityField ≤ (more.foldl append a).capacityField

/-- With items of this size bit 9 is clear behind the addition of the macro, or the default covers them. -/
def CoveredSize (size : Nat) : Prop := size ≤ 0x1E0 ∨ 0x1F1 ≤ size ∧ (size - 0x1F1) % 0x400 < 0x200

/-- From one size to the other bit 9 is set, and the result falls back by more than it gains. -/
def FallsBack (size size' : Nat) : Prop :=
  0x1F1 ≤ size ∧ (size - 0x1F1) / 0x400 = (size' - 0x1F1) / 0x400 ∧
    0x200 ≤ (size' - 0x1F1) % 0x400 ∧
    ((size' - 0x1F1) % 0x400 - 0x200) / 0x10 < (size - 0x1F1) % 0x400 / 0x10

instance (size : Nat) : Decidable (CoveredSize size) := by
  unfold CoveredSize
  infer_instance

instance (size size' : Nat) : Decidable (FallsBack size size') := by
  unfold FallsBack
  infer_instance

/-! ## The macro -/

/-- The bits that the macro keeps: all from 10 on, and 4 to 8. -/
theorem complement_alignment :
    (~~~(kDTXPrimitiveArrayCapacityAlignment - 1)).toNat = Mask.ones 10 54 ||| Mask.ones 4 5 := by
  decide

/-- What the macro makes of a size. -/
def roundedSize (size : Nat) : Nat :=
  0x400 * ((max 0x1F0 size + 0x20F) / 0x400) + 0x10 * ((max 0x1F0 size + 0x20F) % 0x200 / 0x10)

/-- **The capacity** as arithmetic. -/
theorem capacityFor_toNat {size : UInt64} (h : size.toNat < 2 ^ 63) :
    (capacityFor size).toNat = roundedSize size.toNat := by
  have hmax : (max kDTXPrimitiveArrayDefaultCapacity size).toNat = max 0x1F0 size.toNat := by
    have hdefault : kDTXPrimitiveArrayDefaultCapacity.toNat = 0x1F0 := rfl
    have hmax : max kDTXPrimitiveArrayDefaultCapacity size =
        if kDTXPrimitiveArrayDefaultCapacity ≤ size then size else kDTXPrimitiveArrayDefaultCapacity := rfl
    rw [hmax]
    by_cases hle : kDTXPrimitiveArrayDefaultCapacity ≤ size
    · rw [if_pos hle]
      rw [UInt64.le_iff_toNat_le, hdefault] at hle
      omega
    · rw [if_neg hle, hdefault]
      rw [UInt64.le_iff_toNat_le, hdefault] at hle
      omega
  have hsum : (max kDTXPrimitiveArrayDefaultCapacity size + kDTXPrimitiveArrayCapacityAlignment - 1).toNat =
      max 0x1F0 size.toNat + 0x20F := by
    have hone : (1 : UInt64).toNat = 1 := rfl
    have halign : kDTXPrimitiveArrayCapacityAlignment.toNat = 0x210 := rfl
    have hadd : (max kDTXPrimitiveArrayDefaultCapacity size +
        kDTXPrimitiveArrayCapacityAlignment).toNat = max 0x1F0 size.toNat + 0x210 := by
      rw [UInt64.toNat_add, hmax, halign]
      omega
    rw [UInt64.toNat_sub_of_le _ _ (by rw [UInt64.le_iff_toNat_le, hadd, hone]; omega), hadd, hone]
    omega
  rw [capacityFor, memAlign, UInt64.toNat_and, hsum, complement_alignment,
    Mask.and_two_runs _ (by decide), roundedSize]
  omega

/-- The default stays as it is. -/
theorem roundedSize_of_le {size : Nat} (h : size ≤ 0x1F0) : roundedSize size = 0x1F0 := by
  rw [roundedSize, Nat.max_eq_left h]

/-- Above the default, the bits 0 to 3 and bit 9 are cleared. -/
theorem roundedSize_add (n : Nat) :
    roundedSize (n + 0x1F1) = 0x400 * (n / 0x400 + 1) + 0x10 * (n % 0x200 / 0x10) := by
  rw [roundedSize, Nat.max_eq_right (by omega)]
  omega

theorem coveredSize_iff (size : Nat) : size + 0x10 ≤ roundedSize size ↔ CoveredSize size := by
  unfold CoveredSize
  by_cases h : size ≤ 0x1F0
  · rw [roundedSize_of_le h]
    omega
  · obtain ⟨n, rfl⟩ : ∃ n, size = n + 0x1F1 := ⟨size - 0x1F1, by omega⟩
    rw [roundedSize_add, Nat.add_sub_cancel]
    omega

/-- From a size that is covered the result is smaller exactly when it falls back. -/
theorem fallsBack_iff {size size' : Nat} (hcovered : CoveredSize size) (hle : size ≤ size') :
    roundedSize size ≤ roundedSize size' ↔ ¬ FallsBack size size' := by
  unfold FallsBack
  by_cases h : size ≤ 0x1F0
  · refine iff_of_true ?_ fun hback => by omega
    rw [roundedSize_of_le h]
    by_cases h' : size' ≤ 0x1F0
    · rw [roundedSize_of_le h']
    · obtain ⟨m, rfl⟩ : ∃ m, size' = m + 0x1F1 := ⟨size' - 0x1F1, by omega⟩
      rw [roundedSize_add]
      omega
  · obtain ⟨n, rfl⟩ : ∃ n, size = n + 0x1F1 := ⟨size - 0x1F1, by omega⟩
    obtain ⟨m, rfl⟩ : ∃ m, size' = m + 0x1F1 := ⟨size' - 0x1F1, by omega⟩
    have hlow : n % 0x400 < 0x200 := by
      rcases hcovered with hsmall | ⟨-, hlow⟩
      · omega
      · rwa [Nat.add_sub_cancel] at hlow
    have hblock : n / 0x400 ≤ m / 0x400 := Nat.div_le_div_right (by omega)
    rw [roundedSize_add, roundedSize_add, Nat.add_sub_cancel, Nat.add_sub_cancel]
    -- bit 9 is clear in `n`
    have hclear : n % 0x200 = n % 0x400 := by omega
    rw [hclear]
    omega

/-! ## Sizes -/

theorem foldl_append_items (a : DTXPrimitiveArray) (more : List DTXPrimitiveValue) :
    (more.foldl append a) = { a with items := a.items ++ more } := by
  induction more generalizing a with
  | nil => simp
  | cons v more ih =>
      rw [List.foldl_cons, ih]
      simp [append]

theorem le_serializedLength_append (a : DTXPrimitiveArray) (more : List DTXPrimitiveValue)
    (h : a.items ≠ []) : a.serializedLength ≤ (more.foldl append a).serializedLength := by
  rw [foldl_append_items, serializedLength_of_ne_nil h, serializedLength_of_ne_nil (by simp [h])]
  simp only [List.map_append, List.sum_append]
  omega

/-- **When the capacity covers the array and grows with it.** -/
theorem capacityCovers_iff {a : DTXPrimitiveArray} {more : List DTXPrimitiveValue} (hitems : a.items ≠ [])
    (hlt : (more.foldl append a).serializedLength < 2 ^ 63) :
    CapacityCovers a more ↔ CoveredSize (a.serializedLength - 16) ∧
      ¬ FallsBack (a.serializedLength - 16) ((more.foldl append a).serializedLength - 16) := by
  have hle := le_serializedLength_append a more hitems
  have hitems' : (more.foldl append a).items ≠ [] := by
    rw [foldl_append_items]
    simp [hitems]
  have hsize := sizeField_toNat hitems (show a.serializedLength < 2 ^ 64 + 16 by omega)
  have hsize' := sizeField_toNat hitems' (show (more.foldl append a).serializedLength < 2 ^ 64 + 16 by omega)
  have hcapacity := capacityFor_toNat (show a.sizeField.toNat < 2 ^ 63 by omega)
  have hcapacity' := capacityFor_toNat (show (more.foldl append a).sizeField.toNat < 2 ^ 63 by omega)
  have hstruct : CapacityCovers a more ↔
      a.sizeField.toNat + 16 ≤ a.capacityField.toNat ∧
        a.capacityField.toNat ≤ (more.foldl append a).capacityField.toNat :=
    ⟨fun h => ⟨h.covers, UInt64.le_iff_toNat_le.mp h.grows⟩,
      fun h => ⟨h.1, UInt64.le_iff_toNat_le.mpr h.2⟩⟩
  rw [hstruct, capacityField_eq, capacityField_eq, hcapacity, hcapacity', ← hsize, ← hsize',
    Nat.add_sub_cancel, Nat.add_sub_cancel, coveredSize_iff]
  exact and_congr_right fun hcovered => fallsBack_iff hcovered (by omega)

/-- A dictionary with one buffer of `n` bytes. -/
def bufferOf (n : Nat) : DTXPrimitiveArray := { items := [.buffer (List.replicate n 0)] }

theorem bufferOf_items_ne_nil (n : Nat) : (bufferOf n).items ≠ [] := List.cons_ne_nil _ _

theorem serializedLength_bufferOf (n : Nat) : (bufferOf n).serializedLength = 28 + n := by
  rw [serializedLength_of_ne_nil (bufferOf_items_ne_nil n)]
  simp [bufferOf, itemLength, DTXPrimitiveValue.getType, DTXPrimitiveValue.hasLength,
    DTXPrimitiveValue.size]
  omega

theorem serializedLength_bufferOf_append (n : Nat) (u : UInt64) :
    ((bufferOf n).append (.integer u)).serializedLength = 44 + n := by
  rw [serializedLength_of_ne_nil (by simp [append])]
  simp [bufferOf, append, itemLength, DTXPrimitiveValue.getType, DTXPrimitiveValue.hasLength,
    DTXPrimitiveValue.size]
  omega

/-- A buffer of `200` bytes, with a number behind it. -/
theorem capacityCovers_iff_bufferOf : CapacityCovers (bufferOf 200) [.integer 0] :=
  (capacityCovers_iff (bufferOf_items_ne_nil 200) (by
    rw [List.foldl_cons, List.foldl_nil, serializedLength_bufferOf_append]
    decide)).mpr (by
      rw [List.foldl_cons, List.foldl_nil, serializedLength_bufferOf, serializedLength_bufferOf_append]
      decide)

/-- Items of `1F0` bytes: the capacity is that of the items, without the header. And items of `3F0` bytes
    with a number of 16 bytes behind them: the capacity falls from `5F0` to `400`. -/
theorem not_capacityCovers_bufferOf :
    ¬ CapacityCovers (bufferOf 0x1E4) [] ∧ ¬ CapacityCovers (bufferOf 0x3E4) [.integer 0] := by
  constructor
  · intro h
    have hsize : (bufferOf 0x1E4).sizeField = 0x1F0 := by
      rw [sizeField, serializedLength_bufferOf]
      rfl
    have hcovers := h.covers
    rw [capacityField_eq, hsize] at hcovers
    exact absurd hcovers (by decide)
  · intro h
    have hsize : (bufferOf 0x3E4).sizeField = 0x3F0 := by
      rw [sizeField, serializedLength_bufferOf]
      rfl
    have hsize' : ((bufferOf 0x3E4).append (.integer 0)).sizeField = 0x400 := by
      rw [sizeField, serializedLength_bufferOf_append]
      rfl
    have hgrows := h.grows
    rw [capacityField_eq, capacityField_eq, hsize, List.foldl_cons, List.foldl_nil, hsize'] at hgrows
    exact absurd hgrows (by decide)

end DTXPrimitiveArray
end IDevice
