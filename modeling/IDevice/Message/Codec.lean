import Mathlib.Algebra.Order.BigOperators.Group.List
import Mathlib.Algebra.Order.Group.Nat
import IDevice.Message.Accepts
import IDevice.Message.Lengths

/-!
# `Message.Codec` — a message comes back from the bytes it emits

What `SerializeTo` emits for an array is in the format of `Message.Entries`: the entries are the values
without the nulls, in a dictionary with an empty key before each (`writes_describes`). The decoder drops
the keys again. A message adds its header in front, so decoding finds the array and the payload where the
two lengths say.
-/

namespace IDevice

open LittleEndian DTXPrimitiveValue

namespace DTXPrimitiveArray

/-- The values are ones that the constructors build, and no string or buffer is empty. -/
def Built (a : DTXPrimitiveArray) : Prop :=
  ∀ v ∈ a.items, v.Constructed ∧ (v.hasLength = true → 0 < v.size)

instance (a : DTXPrimitiveArray) : Decidable a.Built := by
  unfold Built
  infer_instance

/-- The values that are not left out on the way. -/
def keptItems (a : DTXPrimitiveArray) : List DTXPrimitiveValue :=
  a.items.filter fun v => v ≠ .null ∧ v ≠ .emptyKey

/-- The entries for one value. -/
def itemEntries (asDict : Bool) (v : DTXPrimitiveValue) : List DTXPrimitiveValue :=
  if v = .null then [] else (if asDict then [.emptyKey] else []) ++ [v]

/-- The entries of an array. -/
def wireEntries (a : DTXPrimitiveArray) : List DTXPrimitiveValue := a.items.flatMap (itemEntries a.asDict)

/-! ## What is emitted is in the format -/

theorem getType_eq_zero_iff (v : DTXPrimitiveValue) : v.getType = 0 ↔ v = .null := by
  cases v <;> simp [getType]

/-- The bytes of one value are its entries. -/
theorem itemWrites_flatten {v : DTXPrimitiveValue} (h : v.LengthWritten) (asDict : Bool) :
    (itemWrites asDict v).flatten = (itemEntries asDict v).flatMap entry := by
  have hkey : DTXPrimitiveValue.emptyKey.hasLength = false ∧ DTXPrimitiveValue.emptyKey.content = [] :=
    ⟨rfl, rfl⟩
  unfold itemWrites itemEntries
  by_cases hnull : v = .null
  · rw [if_pos ((getType_eq_zero_iff v).mpr hnull), if_pos hnull]
    rfl
  rw [if_neg (mt (getType_eq_zero_iff v).mp hnull), if_neg hnull]
  by_cases hlength : v.hasLength = true
  · -- the length field holds the whole size
    obtain ⟨hpos, hlt⟩ := h hlength
    have hsize : (UInt32.ofNat v.size).toNat = v.size := UInt32.toNat_ofNat_of_lt' hlt
    have htake : v.content.take v.size = v.content := List.take_of_length_le (content_length v).le
    rw [hsize, htake, if_neg hpos.ne', if_pos hlength]
    cases asDict <;> simp [entry, hlength, hkey]
  · by_cases hzero : v.size = 0
    · have hcontent : v.content = [] := List.length_eq_zero_iff.mp ((content_length v).trans hzero)
      rw [if_pos hzero]
      cases asDict <;> simp [entry, hlength, hkey, hcontent]
    · rw [if_neg hzero, if_neg hlength]
      cases asDict <;> simp [entry, hlength, hkey]

theorem flatMap_itemWrites {asDict : Bool} {items : List DTXPrimitiveValue}
    (h : ∀ v ∈ items, v.LengthWritten) :
    (items.flatMap (itemWrites asDict)).flatten =
      (items.flatMap (itemEntries asDict)).flatMap entry := by
  induction items with
  | nil => rfl
  | cons v items ih =>
      have hv := itemWrites_flatten (h v (by simp)) asDict
      have hitems := ih fun v hmem => h v (by simp [hmem])
      rw [List.flatMap_cons, List.flatten_append, hv, hitems, List.flatMap_cons, List.flatMap_append]

/-- No value is larger than its array. -/
theorem size_le_serializedLength {a : DTXPrimitiveArray} {v : DTXPrimitiveValue} (hv : v ∈ a.items) :
    v.size ≤ a.serializedLength := by
  have hitem : v.size ≤ itemLength a.asDict v := by
    unfold itemLength
    by_cases hnull : v.getType = 0
    · rw [(getType_eq_zero_iff v).mp hnull]
      exact Nat.zero_le _
    · rw [if_neg hnull]
      omega
  have hsum : itemLength a.asDict v ≤ (a.items.map (itemLength a.asDict)).sum :=
    List.single_le_sum (fun _ _ => Nat.zero_le _) _ (List.mem_map_of_mem hv)
  rw [serializedLength_of_ne_nil (List.ne_nil_of_mem hv)]
  omega

theorem Built.lengthsWritten {a : DTXPrimitiveArray} (h : a.Built) (hlt : a.serializedLength < 2 ^ 32) :
    a.LengthsWritten := by
  intro v hv hlength
  exact ⟨(h v hv).2 hlength, lt_of_le_of_lt (size_le_serializedLength hv) hlt⟩

theorem wireEntries_onWire {a : DTXPrimitiveArray} (h : a.LengthsWritten) :
    ∀ v ∈ a.wireEntries, v.OnWire := by
  intro v hv
  obtain ⟨item, hitem, hmem⟩ := List.mem_flatMap.mp hv
  unfold itemEntries at hmem
  by_cases hnull : item = .null
  · rw [if_pos hnull] at hmem
    exact absurd hmem (by simp)
  · rw [if_neg hnull] at hmem
    rcases List.mem_append.mp hmem with hkey | hself
    · -- the key in front of a value
      obtain rfl : v = .emptyKey := by
        cases a.asDict <;> simp_all
      exact ⟨by simp, by simp [hasLength]⟩
    · obtain rfl := List.mem_singleton.mp hself
      exact ⟨hnull, fun hlength => (h v hitem hlength).2⟩

/-- **What an array emits is in the format**, with the entries of its values. -/
theorem writes_describes {a : DTXPrimitiveArray} (hitems : a.items ≠ []) (h : a.LengthsWritten)
    (hlt : a.serializedLength < 2 ^ 64 + 16) : Describes a.writes.flatten a.wireEntries := by
  have hlength := (writes_length_eq_iff hitems).mpr h
  have hfield : field a.writes.flatten 8 8 = a.sizeField.toNat := by
    simpa using a.field_size []
  refine ⟨?_, ?_, ?_, wireEntries_onWire h⟩
  · rw [writes_length]
    omega
  · rw [hfield, hlength]
    exact sizeField_toNat hitems hlt
  · rw [writes_flatten, ← List.append_assoc, List.drop_left' (by simp)]
    exact flatMap_itemWrites h

/-! ## The values that come back -/

theorem itemEntries_filter (asDict : Bool) (v : DTXPrimitiveValue) :
    (itemEntries asDict v).filter (· ≠ .emptyKey) = [v].filter fun v => v ≠ .null ∧ v ≠ .emptyKey := by
  unfold itemEntries
  by_cases hnull : v = .null
  · simp [hnull]
  · cases asDict <;> simp [hnull, List.filter_cons]

theorem wireEntries_filter (a : DTXPrimitiveArray) :
    a.wireEntries.filter (· ≠ .emptyKey) = a.keptItems := by
  unfold wireEntries keptItems
  induction a.items with
  | nil => rfl
  | cons v items ih =>
      rw [List.flatMap_cons, List.filter_append, itemEntries_filter, ih, ← List.filter_append]
      rfl

/-- **The decoder returns the values** of the array that was emitted. -/
theorem deserialize_writes {a : DTXPrimitiveArray} (hitems : a.items ≠ []) (h : a.Built)
    (hlt : a.serializedLength < 2 ^ 32) (assertsEnabled : Bool) {m : Memory}
    (hm : m.Shows a.writes.flatten) :
    ∃ reads, deserialize assertsEnabled m a.serializedLength =
      ⟨some { items := a.keptItems }, false, reads⟩ := by
  have hwritten := h.lengthsWritten hlt
  obtain ⟨reads, hd⟩ := deserialize_of_describes assertsEnabled hm
    (writes_describes hitems hwritten (lt_trans hlt (by decide)))
  have hkept : a.wireEntries.filterMap decoded = a.keptItems := by
    rw [filterMap_decoded, wireEntries_filter, map_copied_eq_iff]
    exact fun v hv => (h v (List.mem_of_mem_filter hv)).1
  rw [(writes_length_eq_iff hitems).mpr hwritten, hkept] at hd
  exact ⟨reads, hd⟩

end DTXPrimitiveArray

namespace DTXMessage

variable {KAValue : Type}

/-- The auxiliary array holds values that the constructors build, none of them an empty string or
    buffer, and is shorter than 2 ^ 32 bytes; the size of the payload is a `size_t`. -/
structure Sendable (m : DTXMessage KAValue) : Prop where
  auxiliary : ∀ a, m.auxiliary = some a → a.Built ∧ a.serializedLength < 2 ^ 32
  payload : m.payloadSize < 2 ^ 64

/-- `received` is what comes back of `m`. -/
structure ComesBackAs (m received : DTXMessage KAValue) : Prop where
  messageType : received.messageType = m.messageType
  payload : received.payloadBuffer.getD [] = m.payloadBuffer.getD []
  payloadSize : received.payloadSize = m.payloadSize
  auxiliary : received.auxiliary.map (·.items) =
    if m.auxiliaryCount = 0 then none else m.auxiliary.map (·.keptItems)

theorem Sendable.lengthsWritten {m : DTXMessage KAValue} (h : m.Sendable) : m.LengthsWritten :=
  fun a ha => ⟨(h.auxiliary a ha).1.lengthsWritten (h.auxiliary a ha).2, (h.auxiliary a ha).2⟩

/-- The auxiliary area is decoded to the values of the auxiliary array. -/
theorem deserialize_auxiliary {m : DTXMessage KAValue} (h : m.Sendable) (assertsEnabled : Bool)
    {mem : Memory} (hm : mem.Shows m.auxiliaryBytes) (hpos : 0 < m.auxiliaryCount) :
    ∃ array reads, DTXPrimitiveArray.deserialize assertsEnabled mem m.auxiliaryCount =
      ⟨some array, false, reads⟩ ∧ some array.items = m.auxiliary.map (·.keptItems) := by
  have htoNat := m.auxiliaryLength_toNat
  have hlt := ((m.auxiliaryBytes_length_iff).mpr h.lengthsWritten).2
  have hannounced : 0 < m.auxiliaryLength := by
    rw [UInt32.lt_iff_toNat_lt, htoNat, Nat.mod_eq_of_lt hlt]
    exact hpos
  unfold auxiliaryBytes at hm
  rw [if_pos hannounced] at hm
  unfold auxiliaryCount at hpos hlt ⊢
  cases haux : m.auxiliary with
  | none =>
      rw [haux] at hpos
      exact absurd hpos (by simp)
  | some a =>
      rw [haux] at hpos hlt hm
      have hitems : a.items ≠ [] := by
        intro hnil
        have hzero : a.serializedLength = 0 := by
          rw [DTXPrimitiveArray.serializedLength, if_neg (not_not.mpr hnil)]
        simp [hzero] at hpos
      obtain ⟨reads, hd⟩ := DTXPrimitiveArray.deserialize_writes hitems (h.auxiliary a haux).1 hlt
        assertsEnabled hm
      exact ⟨_, reads, hd, rfl⟩

/-- What a pointer to the bytes of a message shows of its header, its array and its payload. -/
theorem shows_serialized {archivedData : KAValue → Bytes} {m : DTXMessage KAValue} {bytes : Memory}
    (hm : bytes.Shows (m.serialized archivedData)) :
    bytes.Shows (m.materialize archivedData).payloadHeader ∧
    (bytes.after 16).Shows (m.materialize archivedData).auxiliaryBytes ∧
    (bytes.after (16 + (m.materialize archivedData).auxiliaryBytes.length)).Shows
      ((m.materialize archivedData).payloadBuffer.getD []) := by
  rw [serialized_eq] at hm
  obtain ⟨hheader, hrest⟩ := Memory.shows_append.mp hm
  obtain ⟨haux, hpayload⟩ := Memory.shows_append.mp hrest
  rw [payloadHeader_length] at haux hpayload
  rw [Memory.after_after] at hpayload
  exact ⟨hheader, haux, hpayload⟩

/-- The three fields of the header. -/
theorem header_fields {m : DTXMessage KAValue} {bytes : Memory} (hm : bytes.Shows m.payloadHeader) :
    UInt32.ofNat (bytes.word 0x00 4) = m.messageType ∧ readAuxiliaryLength bytes = m.auxiliaryLength ∧
      readTotalLength bytes = m.auxiliaryLength.toUInt64 + UInt64.ofNat m.payloadSize := by
  have hlength := m.payloadHeader_length
  have htype : field m.payloadHeader 0 4 = m.messageType.toNat :=
    field_toLE m.messageType.toNat_lt _
  have haux := m.field_auxiliaryLength []
  have htotal := m.field_totalLength []
  rw [List.append_nil] at haux htotal
  refine ⟨?_, ?_, ?_⟩
  · rw [hm.word_eq_field (by omega), htype, UInt32.ofNat_toNat]
  · rw [readAuxiliaryLength, hm.word_eq_field (by omega), haux, UInt32.ofNat_toNat]
  · rw [readTotalLength, hm.word_eq_field (by omega), htotal, UInt64.ofNat_toNat]

/-- **Decoding what a message emitted.** -/
theorem deserialize_serialized {archivedData unarchive} {m : DTXMessage KAValue}
    (h : (m.materialize archivedData).Sendable) (assertsEnabled : Bool) {bytes : Memory}
    (hm : bytes.Shows (m.serialized archivedData)) (size : Nat) :
    ∃ received, (deserialize unarchive assertsEnabled bytes size).message = some received ∧
      (m.materialize archivedData).ComesBackAs received := by
  obtain ⟨hheader, haux, hpayload⟩ := shows_serialized hm
  obtain ⟨htype, hauxLength, htotal⟩ := header_fields hheader
  obtain ⟨hbytes, hlt⟩ := (auxiliaryBytes_length_iff _).mpr h.lengthsWritten
  have htoNat := (m.materialize archivedData).auxiliaryLength_toNat
  rw [Nat.mod_eq_of_lt hlt] at htoNat
  generalize m.materialize archivedData = sent at *
  have hpayloadLength : readTotalLength bytes - sent.auxiliaryLength.toUInt64 =
      UInt64.ofNat sent.payloadSize := by
    rw [htotal, UInt64.add_comm, UInt64.add_sub_cancel]
  have hsize : (UInt64.ofNat sent.payloadSize).toNat = sent.payloadSize :=
    UInt64.toNat_ofNat_of_lt' h.payload
  have hcontent : (bytes.after (16 + sent.auxiliaryCount)).bytes sent.payloadSize =
      sent.payloadBuffer.getD [] := by
    rw [← hbytes]
    exact hpayload.bytes_eq
  -- the array is missing or comes back with its values
  obtain ⟨array, reads, harray, hitems⟩ : ∃ array reads,
      (if 0 < sent.auxiliaryLength then
        DTXPrimitiveArray.deserialize assertsEnabled (bytes.after kDTXMessagePayloadHeaderSize)
          sent.auxiliaryCount
      else ⟨none, false, []⟩) = ⟨array, false, reads⟩ ∧
      array.map (·.items) =
        if sent.auxiliaryCount = 0 then none else sent.auxiliary.map (·.keptItems) := by
    have hpos : 0 < sent.auxiliaryLength ↔ 0 < sent.auxiliaryCount := by
      rw [UInt32.lt_iff_toNat_lt, htoNat]
      rfl
    by_cases hzero : sent.auxiliaryCount = 0
    · refine ⟨none, [], if_neg (mt hpos.mp (by omega)), ?_⟩
      rw [if_pos hzero]
      rfl
    · obtain ⟨array, reads, hd, hitems⟩ := deserialize_auxiliary h assertsEnabled haux (by omega)
      refine ⟨some array, reads, (if_pos (hpos.mpr (by omega))).trans hd, ?_⟩
      rw [if_neg hzero, ← hitems]
      rfl
  unfold deserialize
  simp only [htype, hauxLength, htoNat, hpayloadLength, harray]
  by_cases hempty : 0 < UInt64.ofNat sent.payloadSize
  · rw [if_pos hempty, hsize]
    refine ⟨_, rfl, rfl, hcontent, ?_, hitems⟩
    exact congrArg List.length hcontent
  · have hnone : sent.payloadBuffer.getD [] = [] := by
      rw [UInt64.lt_iff_toNat_lt, hsize] at hempty
      exact List.length_eq_zero_iff.mp (Nat.le_zero.mp (not_lt.mp hempty))
    rw [if_neg hempty]
    refine ⟨_, rfl, rfl, hnone.symm, ?_, hitems⟩
    exact (congrArg List.length hnone).symm

/-- **The codec round trip.** `SerializeTo` leaves the message with its objects archived, and that is what
    comes back; a message without objects comes back itself. -/
theorem serialize_deserialize {archivedData : KAValue → Bytes} (unarchive : Bytes → KAValue)
    (assertsEnabled : Bool) {m : DTXMessage KAValue} (h : (m.materialize archivedData).Sendable) :
    ∃ emitted, m.serializeTo archivedData keepBytes [] = .ok (true, m.materialize archivedData, emitted) ∧
      ∀ bytes : Memory, bytes.Shows emitted → ∃ received,
        (deserialize unarchive assertsEnabled bytes emitted.length).message = some received ∧
        (m.materialize archivedData).ComesBackAs received ∧
        (m.payloadObject = none → m.auxiliaryObjects = [] → m.ComesBackAs received) := by
  refine ⟨m.serialized archivedData, m.serializeTo_keepBytes archivedData, ?_⟩
  intro bytes hbytes
  obtain ⟨received, hreceived, hback⟩ := deserialize_serialized h assertsEnabled hbytes _
  refine ⟨received, hreceived, hback, ?_⟩
  intro hpayload hobjects
  rwa [materialize_eq_self archivedData hpayload hobjects] at hback

/-- A call with a string, a null and a number, and three bytes of payload. -/
def codecMessage : DTXMessage Unit where
  messageType := 2
  payloadBuffer := some [7, 0, 9]
  auxiliary := some { items := [.string [0x61, 0x62], .null, .integer 5] }

theorem serialize_deserialize_codecMessage :
    ∃ emitted, codecMessage.serializeTo (fun _ => []) keepBytes [] = .ok (true, codecMessage, emitted) ∧
      ∀ bytes : Memory, bytes.Shows emitted → ∃ received,
        (deserialize (fun _ => ()) true bytes emitted.length).message = some received ∧
        received.messageType = 2 ∧ received.payloadBuffer.getD [] = [7, 0, 9] ∧ received.payloadSize = 3 ∧
        received.auxiliary.map (·.items) = some [.string [0x61, 0x62], .integer 5] := by
  have hsendable : (codecMessage.materialize fun _ => []).Sendable := by
    refine ⟨?_, by decide⟩
    intro a ha
    obtain rfl := Option.some.inj ha
    exact ⟨by decide, by decide⟩
  obtain ⟨emitted, hemitted, hback⟩ := serialize_deserialize (fun _ => ()) true hsendable
  refine ⟨emitted, hemitted, ?_⟩
  intro bytes hbytes
  obtain ⟨received, hreceived, -, hback⟩ := hback bytes hbytes
  obtain ⟨htype, hpayload, hsize, haux⟩ := hback rfl rfl
  exact ⟨received, hreceived, htype, hpayload, hsize, haux⟩

end DTXMessage
end IDevice
