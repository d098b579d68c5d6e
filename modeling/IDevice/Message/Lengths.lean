import IDevice.Message.Message

/-!
# `Message.Lengths` — does a message announce as many bytes as it emits?

`SerializedLength` counts the bytes of a value by its type and size; `SerializeTo` goes over the same
values again and emits them. The two traversals differ in two places: `SerializeTo` skips the length
field of a value of size 0, which `SerializedLength` counts, and the length field has 32 bits, so of a
longer value only the rest is emitted.

`LengthsWritten` excludes both. For one value that is `itemWrites_length_eq_iff`; the array and the
message follow by adding up.
-/

namespace IDevice

open LittleEndian

/-- The serializer that keeps all the bytes it is given. -/
def keepBytes : Serializer Bytes := fun emitted bytes => .ok (true, emitted ++ bytes)

theorem calls_keepBytes (emitted : Bytes) (ws : List Bytes) :
    Callback.calls keepBytes emitted ws = .ok (emitted ++ ws.flatten) :=
  Callback.calls_flatten (fun _ _ => rfl) emitted ws

/-! ## One value -/

namespace DTXPrimitiveValue

/-- The length field of the value is written, and holds its whole length. -/
def LengthWritten (v : DTXPrimitiveValue) : Prop :=
  v.hasLength = true → 0 < v.size ∧ v.size < 2 ^ 32

instance (v : DTXPrimitiveValue) : Decidable v.LengthWritten := by
  unfold LengthWritten
  infer_instance

end DTXPrimitiveValue

namespace DTXPrimitiveArray

/-- No value emits more than it is counted for. -/
theorem itemWrites_length_le (asDict : Bool) (item : DTXPrimitiveValue) :
    (itemWrites asDict item).flatten.length ≤ itemLength asDict item := by
  have hmod : (UInt32.ofNat item.size).toNat ≤ item.size := by
    rw [UInt32.toNat_ofNat']
    exact Nat.mod_le _ _
  unfold itemWrites itemLength
  by_cases hnull : item.getType = 0
  · simp [hnull]
  by_cases hsize : item.size = 0 <;> by_cases hlength : item.hasLength <;> cases asDict <;>
    simp [hnull, hsize, hlength] <;> omega

/-- **One value** emits what it is counted for exactly when its length field is written in full. -/
theorem itemWrites_length_eq_iff (asDict : Bool) (item : DTXPrimitiveValue) :
    (itemWrites asDict item).flatten.length = itemLength asDict item ↔ item.LengthWritten := by
  have hmod : (UInt32.ofNat item.size).toNat = item.size % 2 ^ 32 := UInt32.toNat_ofNat'
  unfold itemWrites itemLength DTXPrimitiveValue.LengthWritten
  by_cases hnull : item.getType = 0
  · have hlength : item.hasLength = false := by
      cases item <;> simp_all [DTXPrimitiveValue.getType, DTXPrimitiveValue.hasLength]
    simp [hnull, hlength]
  by_cases hsize : item.size = 0 <;> by_cases hlength : item.hasLength <;> cases asDict <;>
    simp [hnull, hsize, hlength, hmod] <;> omega

/-! ## An array -/

/-- The lengths of all values are written in full. -/
def LengthsWritten (a : DTXPrimitiveArray) : Prop := ∀ item ∈ a.items, item.LengthWritten

instance (a : DTXPrimitiveArray) : Decidable a.LengthsWritten := by
  unfold LengthsWritten
  infer_instance

theorem flatMap_length_le (asDict : Bool) (items : List DTXPrimitiveValue) :
    (items.flatMap (itemWrites asDict)).flatten.length ≤ (items.map (itemLength asDict)).sum := by
  induction items with
  | nil => exact le_rfl
  | cons item items ih =>
      have hitem := itemWrites_length_le asDict item
      simp only [List.flatMap_cons, List.flatten_append, List.length_append, List.map_cons, List.sum_cons]
      omega

theorem flatMap_length_eq_iff (asDict : Bool) (items : List DTXPrimitiveValue) :
    (items.flatMap (itemWrites asDict)).flatten.length = (items.map (itemLength asDict)).sum ↔
      ∀ item ∈ items, item.LengthWritten := by
  induction items with
  | nil => simp
  | cons item items ih =>
      have hitem := itemWrites_length_le asDict item
      have hitems := flatMap_length_le asDict items
      simp only [List.flatMap_cons, List.flatten_append, List.length_append, List.map_cons, List.sum_cons,
        List.forall_mem_cons, ← ih, ← itemWrites_length_eq_iff asDict item]
      omega

theorem writes_flatten (a : DTXPrimitiveArray) :
    a.writes.flatten = toLE 8 a.capacityField.toNat ++ (toLE 8 a.sizeField.toNat ++
      (a.items.flatMap (itemWrites a.asDict)).flatten) := by
  simp [writes]

theorem writes_length (a : DTXPrimitiveArray) :
    a.writes.flatten.length = 16 + (a.items.flatMap (itemWrites a.asDict)).flatten.length := by
  rw [writes_flatten]
  simp only [List.length_append, toLE_length]
  omega

theorem serializedLength_of_ne_nil {a : DTXPrimitiveArray} (h : a.items ≠ []) :
    a.serializedLength = 16 + (a.items.map (itemLength a.asDict)).sum := by
  rw [serializedLength, if_pos h]
  rfl

theorem writes_length_le {a : DTXPrimitiveArray} (h : a.items ≠ []) :
    a.writes.flatten.length ≤ a.serializedLength := by
  have hitems := flatMap_length_le a.asDict a.items
  rw [writes_length, serializedLength_of_ne_nil h]
  omega

/-- **The two traversals of an array** count the same bytes exactly when its lengths are written. -/
theorem writes_length_eq_iff {a : DTXPrimitiveArray} (h : a.items ≠ []) :
    a.writes.flatten.length = a.serializedLength ↔ a.LengthsWritten := by
  rw [writes_length, serializedLength_of_ne_nil h, LengthsWritten, ← flatMap_length_eq_iff a.asDict]
  omega

/-- The `size` field is found at offset 8. -/
theorem field_size (a : DTXPrimitiveArray) (rest : Bytes) :
    field (a.writes.flatten ++ rest) 8 8 = a.sizeField.toNat := by
  have hskip := field_skip (toLE 8 a.capacityField.toNat) (toLE 8 a.sizeField.toNat ++
    ((a.items.flatMap (itemWrites a.asDict)).flatten ++ rest)) 0 8
  rw [toLE_length] at hskip
  rw [writes_flatten, List.append_assoc, List.append_assoc]
  exact hskip.trans (field_toLE a.sizeField.toNat_lt _)

theorem sizeField_toNat {a : DTXPrimitiveArray} (h : a.items ≠ [])
    (hlt : a.serializedLength < 2 ^ 64 + 16) : a.sizeField.toNat + 16 = a.serializedLength := by
  obtain ⟨k, hk⟩ : ∃ k, a.serializedLength = k + 16 := by
    refine ⟨a.serializedLength - 16, ?_⟩
    rw [serializedLength_of_ne_nil h]
    omega
  have hsize : a.sizeField = UInt64.ofNat k := by
    rw [sizeField, hk, UInt64.ofNat_add]
    exact UInt64.add_sub_cancel _ _
  rw [hsize, hk, UInt64.toNat_ofNat_of_lt' (show k < 2 ^ 64 by omega)]

/-- With the serializer that keeps everything, `SerializeTo` emits the writes. -/
theorem serializeTo_keepBytes (a : DTXPrimitiveArray) :
    a.serializeTo keepBytes [] = .ok (true, a.writes.flatten) := by
  rw [serializeTo_eq, calls_keepBytes]
  rfl

/-- No write of an array whose lengths are written is empty. -/
theorem ne_nil_of_mem_writes {a : DTXPrimitiveArray} (h : a.LengthsWritten) {w : Bytes}
    (hw : w ∈ a.writes) : w ≠ [] := by
  have hword {n v : Nat} (hn : 0 < n) : toLE n v ≠ [] := by
    rw [← List.length_pos_iff, toLE_length]
    exact hn
  rcases List.mem_cons.mp hw with rfl | hw
  · exact hword (by decide)
  rcases List.mem_cons.mp hw with rfl | hw
  · exact hword (by decide)
  obtain ⟨item, hitem, hmem⟩ := List.mem_flatMap.mp hw
  have hwritten := h item hitem
  unfold itemWrites at hmem
  by_cases hnull : item.getType = 0
  · rw [if_pos hnull] at hmem
    exact absurd hmem (by simp)
  rw [if_neg hnull] at hmem
  rcases List.mem_append.mp hmem with hmem | hmem
  · rcases List.mem_append.mp hmem with hmem | hmem
    · cases hdict : a.asDict with
      | false => simp [hdict] at hmem
      | true =>
          rw [hdict, if_pos rfl, List.mem_singleton] at hmem
          exact hmem ▸ hword (by decide)
    · exact List.mem_singleton.mp hmem ▸ hword (by decide)
  · by_cases hsize : item.size = 0
    · rw [if_pos hsize] at hmem
      exact absurd hmem (by simp)
    rw [if_neg hsize] at hmem
    by_cases hlength : item.hasLength = true
    · obtain ⟨-, hlt⟩ := hwritten hlength
      rw [if_pos hlength, UInt32.toNat_ofNat_of_lt' hlt] at hmem
      rcases List.mem_cons.mp hmem with rfl | hmem
      · exact hword (by decide)
      · rw [List.mem_singleton.mp hmem, ← List.length_pos_iff, List.length_take,
          DTXPrimitiveValue.content_length]
        omega
    · rw [if_neg hlength] at hmem
      rw [List.mem_singleton.mp hmem, ← List.length_pos_iff, DTXPrimitiveValue.content_length]
      omega

end DTXPrimitiveArray

/-! ## A message -/

namespace DTXMessage

variable {KAValue : Type} (archivedData : KAValue → Bytes)

/-- The bytes of the auxiliary array. -/
def auxiliaryBytes (m : DTXMessage KAValue) : Bytes :=
  if 0 < m.auxiliaryLength then (m.auxiliary.getD {}).writes.flatten else []

/-- The lengths in a message whose objects are archived are written in full. -/
def LengthsWritten (m : DTXMessage KAValue) : Prop :=
  ∀ a, m.auxiliary = some a → a.LengthsWritten ∧ a.serializedLength < 2 ^ 32

/-- The payload header. -/
def payloadHeader (m : DTXMessage KAValue) : Bytes :=
  toLE 4 m.messageType.toNat ++ (toLE 4 m.auxiliaryLength.toNat ++
    toLE 8 (m.auxiliaryLength.toUInt64 + UInt64.ofNat m.payloadSize).toNat)

@[simp] theorem payloadHeader_length (m : DTXMessage KAValue) : m.payloadHeader.length = 16 := by
  simp [payloadHeader]

theorem pieces_flatten (m : DTXMessage KAValue) :
    m.pieces.flatten = m.payloadHeader ++ (m.auxiliaryBytes ++ m.payloadBuffer.getD []) := by
  have hpayload : (if 0 < m.payloadSize then [m.payloadBuffer.getD []] else []).flatten =
      m.payloadBuffer.getD [] := by
    by_cases hpos : 0 < m.payloadSize
    · rw [if_pos hpos, List.flatten_singleton]
    · rw [if_neg hpos]
      exact (List.length_eq_zero_iff.mp (Nat.le_zero.mp (Nat.not_lt.mp hpos))).symm
  have hauxiliary : (if 0 < m.auxiliaryLength then (m.auxiliary.getD {}).writes else []).flatten =
      m.auxiliaryBytes := by
    unfold auxiliaryBytes
    split <;> rfl
  unfold pieces
  rw [List.flatten_append, List.flatten_append, hpayload, hauxiliary]
  simp [payloadHeader]

theorem serialized_eq (m : DTXMessage KAValue) :
    m.serialized archivedData = (m.materialize archivedData).payloadHeader ++
      ((m.materialize archivedData).auxiliaryBytes ++
        (m.materialize archivedData).payloadBuffer.getD []) :=
  pieces_flatten _

/-- The `auxiliary_length` field is found at offset 4. -/
theorem field_auxiliaryLength (m : DTXMessage KAValue) (rest : Bytes) :
    field (m.payloadHeader ++ rest) 4 4 = m.auxiliaryLength.toNat := by
  have hskip := field_skip (toLE 4 m.messageType.toNat) (toLE 4 m.auxiliaryLength.toNat ++
    (toLE 8 (m.auxiliaryLength.toUInt64 + UInt64.ofNat m.payloadSize).toNat ++ rest)) 0 4
  rw [toLE_length] at hskip
  unfold payloadHeader
  rw [List.append_assoc, List.append_assoc]
  exact hskip.trans (field_toLE m.auxiliaryLength.toNat_lt _)

/-- The `total_length` field is found at offset 8. -/
theorem field_totalLength (m : DTXMessage KAValue) (rest : Bytes) :
    field (m.payloadHeader ++ rest) 8 8 =
      (m.auxiliaryLength.toUInt64 + UInt64.ofNat m.payloadSize).toNat := by
  have hskip := field_skip (toLE 4 m.messageType.toNat ++ toLE 4 m.auxiliaryLength.toNat)
    (toLE 8 (m.auxiliaryLength.toUInt64 + UInt64.ofNat m.payloadSize).toNat ++ rest) 0 8
  rw [List.length_append, toLE_length, toLE_length] at hskip
  unfold payloadHeader
  rw [← List.append_assoc (toLE 4 _), List.append_assoc]
  exact hskip.trans (field_toLE (UInt64.toNat_lt _) _)

/-- What the auxiliary array is counted for. -/
def auxiliaryCount (m : DTXMessage KAValue) : Nat := (m.auxiliary.map (·.serializedLength)).getD 0

theorem auxiliaryLength_toNat (m : DTXMessage KAValue) :
    m.auxiliaryLength.toNat = m.auxiliaryCount % 2 ^ 32 := by
  unfold auxiliaryLength auxiliaryCount
  cases m.auxiliary with
  | none => rfl
  | some a => exact UInt32.toNat_ofNat'

theorem auxiliaryLength_pos_iff (m : DTXMessage KAValue) :
    0 < m.auxiliaryLength ↔ 0 < m.auxiliaryCount % 2 ^ 32 := by
  rw [UInt32.lt_iff_toNat_lt, auxiliaryLength_toNat]
  rfl

theorem serializedLength_fst (m : DTXMessage KAValue) :
    (m.serializedLength archivedData).1 =
      16 + (m.materialize archivedData).auxiliaryCount + (m.materialize archivedData).payloadSize := by
  have haux : (m.materialize archivedData).auxiliary =
      (m.maybeSerializeAuxiliaryObjects archivedData).auxiliary := by
    unfold materialize maybeSerializePayloadObject
    split <;> rfl
  rw [auxiliaryCount, haux]
  cases hcase : (m.maybeSerializeAuxiliaryObjects archivedData).auxiliary <;>
    simp [serializedLength, hcase, materialize, kDTXMessagePayloadHeaderSize]

/-- **The auxiliary array** is emitted as it is counted, and the count fits its field, exactly when its
    lengths are written. -/
theorem auxiliaryBytes_length_iff (m : DTXMessage KAValue) :
    m.auxiliaryBytes.length = m.auxiliaryCount ∧ m.auxiliaryCount < 2 ^ 32 ↔ m.LengthsWritten := by
  unfold auxiliaryBytes LengthsWritten
  simp only [auxiliaryLength_pos_iff]
  unfold auxiliaryCount
  cases m.auxiliary with
  | none => simp
  | some a =>
      simp only [Option.map_some, Option.getD_some, Option.some.injEq, forall_eq']
      by_cases hitems : a.items = []
      · have hzero : a.serializedLength = 0 := by
          rw [DTXPrimitiveArray.serializedLength, if_neg (not_not.mpr hitems)]
        simp [hzero, DTXPrimitiveArray.LengthsWritten, hitems]
      · have hlength := DTXPrimitiveArray.serializedLength_of_ne_nil hitems
        rw [← DTXPrimitiveArray.writes_length_eq_iff hitems]
        by_cases hmod : 0 < a.serializedLength % 2 ^ 32
        · rw [if_pos hmod]
        · -- a count that is a multiple of 2 ^ 32 announces no array, and none is written
          rw [if_neg hmod]
          constructor
          · rintro ⟨hnone, -⟩
            rw [List.length_nil] at hnone
            omega
          · rintro ⟨-, hlt⟩
            omega

/-- An array is emitted only when there is one, and it has items. -/
theorem exists_auxiliary_of_pos {m : DTXMessage KAValue} (h : 0 < m.auxiliaryLength) :
    ∃ a, m.auxiliary = some a ∧ a.items ≠ [] := by
  have hpos := (auxiliaryLength_pos_iff m).mp h
  unfold auxiliaryCount at hpos
  cases haux : m.auxiliary with
  | none =>
      rw [haux] at hpos
      exact absurd hpos (by simp)
  | some a =>
      refine ⟨a, rfl, fun hnil => ?_⟩
      have hzero : a.serializedLength = 0 := by
        rw [DTXPrimitiveArray.serializedLength, if_neg (not_not.mpr hnil)]
      rw [haux, Option.map_some, Option.getD_some, hzero] at hpos
      exact absurd hpos (by decide)

theorem auxiliaryBytes_length_le (m : DTXMessage KAValue) : m.auxiliaryBytes.length ≤ m.auxiliaryCount := by
  by_cases hpos : 0 < m.auxiliaryLength
  · obtain ⟨a, haux, hitems⟩ := exists_auxiliary_of_pos hpos
    have hle := DTXPrimitiveArray.writes_length_le hitems
    unfold auxiliaryBytes auxiliaryCount
    rw [if_pos hpos, haux]
    exact hle
  · unfold auxiliaryBytes
    rw [if_neg hpos]
    exact Nat.zero_le _

theorem serialized_length (m : DTXMessage KAValue) :
    (m.serialized archivedData).length = 16 +
      (m.materialize archivedData).auxiliaryBytes.length + (m.materialize archivedData).payloadSize := by
  rw [serialized_eq]
  simp only [List.length_append, payloadHeader_length, payloadSize, Nat.add_assoc]

/-- No message emits more than it announces. -/
theorem serialized_length_le (m : DTXMessage KAValue) :
    (m.serialized archivedData).length ≤ (m.serializedLength archivedData).1 := by
  have hle := (m.materialize archivedData).auxiliaryBytes_length_le
  rw [serialized_length, serializedLength_fst]
  omega

/-- No write of a message that emits what it announces is empty. -/
theorem ne_nil_of_mem_writes {m : DTXMessage KAValue}
    (h : (m.serialized archivedData).length = (m.serializedLength archivedData).1) {w : Bytes}
    (hw : w ∈ m.writes archivedData) : w ≠ [] := by
  have hword {n v : Nat} (hn : 0 < n) : toLE n v ≠ [] := by
    rw [← List.length_pos_iff, toLE_length]
    exact hn
  rw [serialized_length, serializedLength_fst] at h
  unfold writes pieces at hw
  generalize m.materialize archivedData = sent at *
  rcases List.mem_append.mp hw with hw | hw
  · rcases List.mem_append.mp hw with hw | hw
    · simp only [List.mem_cons, List.not_mem_nil, or_false] at hw
      rcases hw with rfl | rfl | rfl <;> exact hword (by decide)
    · by_cases hpos : 0 < sent.auxiliaryLength
      · -- the array is emitted as it is counted, so its lengths are written
        obtain ⟨a, haux, hitems⟩ := exists_auxiliary_of_pos hpos
        rw [if_pos hpos, haux] at hw
        have hbytes : sent.auxiliaryBytes = a.writes.flatten := by
          unfold auxiliaryBytes
          rw [if_pos hpos, haux]
          rfl
        have hcount : sent.auxiliaryCount = a.serializedLength := by
          unfold auxiliaryCount
          rw [haux]
          rfl
        rw [hbytes, hcount] at h
        exact DTXPrimitiveArray.ne_nil_of_mem_writes
          ((DTXPrimitiveArray.writes_length_eq_iff hitems).mp (by omega)) hw
      · rw [if_neg hpos] at hw
        exact absurd hw (by simp)
  · by_cases hpos : 0 < sent.payloadSize
    · rw [if_pos hpos, List.mem_singleton] at hw
      rw [hw]
      exact List.length_pos_iff.mp hpos
    · rw [if_neg hpos] at hw
      exact absurd hw (by simp)

/-- **Every write starts inside the announced length.** -/
theorem write_starts_inside {m : DTXMessage KAValue} {before after : List Bytes} {w : Bytes}
    (h : m.writes archivedData = before ++ w :: after) :
    before.flatten.length < (m.serializedLength archivedData).1 := by
  have hle := m.serialized_length_le archivedData
  have hlength : (m.serialized archivedData).length =
      before.flatten.length + (w.length + after.flatten.length) := by
    unfold serialized
    rw [h, List.flatten_append, List.flatten_cons, List.length_append, List.length_append]
  by_cases hall : (m.serialized archivedData).length = (m.serializedLength archivedData).1
  · have hne := ne_nil_of_mem_writes archivedData hall (w := w) (by rw [h]; simp)
    have hpos := List.length_pos_iff.mpr hne
    omega
  · omega

theorem serializeTo_keepBytes (m : DTXMessage KAValue) :
    m.serializeTo archivedData keepBytes [] =
      .ok (true, m.materialize archivedData, m.serialized archivedData) := by
  rw [serializeTo_eq, calls_keepBytes]
  rfl

end DTXMessage

end IDevice
