import IDevice.Lib.Segments
import IDevice.Message.Capacity
import IDevice.Message.Codec

/-!
# `Message.Reencode` — decoding an array and encoding it again

`Canonical b vs` is the format that `SerializeTo` writes for a dictionary: the header with the capacity it
would compute, and in front of each value an empty key. Decoding such bytes and encoding the array again
drops an empty key that stands for a value, drops the length field of an empty string or buffer, and changes
a string with a byte behind a zero. Everything else comes back: what is emitted for a value is never longer
than what was read for it, so the bytes agree as a whole only if they agree value by value.
-/

namespace IDevice

open LittleEndian DTXPrimitiveValue

namespace DTXPrimitiveArray

/-- The bytes of one value of a dictionary, with its key. -/
def pairBytes (v : DTXPrimitiveValue) : Bytes := DTXPrimitiveValue.emptyKey.entry ++ v.entry

/-- The bytes are a dictionary with the values `vs`, as `SerializeTo` lays it out. -/
structure Canonical (b : Bytes) (vs : List DTXPrimitiveValue) : Prop where
  nonempty : 16 < b.length
  size : field b 8 8 + 16 = b.length
  capacity : field b 0 8 = (capacityFor (UInt64.ofNat (field b 8 8))).toNat
  pairs : b.drop 16 = vs.flatMap pairBytes
  onWire : ∀ v ∈ vs, v.OnWire

/-- The array that is decoded from `b` emits `b`. -/
def Reencodes (assertsEnabled : Bool) (b : Bytes) : Prop :=
  ∀ m : Memory, m.Shows b → ∃ a, (deserialize assertsEnabled m b.length).array = some a ∧
    a.serializeTo keepBytes [] = .ok (true, b)

/-- What is emitted for the value read as `v`. -/
def reemitted (v : DTXPrimitiveValue) : Bytes :=
  if v = .emptyKey then [] else (itemWrites true v.copied).flatten

/-! ## One value -/

theorem copied_size (v : DTXPrimitiveValue) : v.copied.size = v.size := by
  cases v <;> simp [copied, size]

theorem copied_hasLength (v : DTXPrimitiveValue) : v.copied.hasLength = v.hasLength := by
  cases v <;> rfl

theorem copied_eq_null_iff (v : DTXPrimitiveValue) : v.copied = .null ↔ v = .null := by
  cases v <;> simp [copied]

theorem pairBytes_length {v : DTXPrimitiveValue} (hv : v.OnWire) :
    (pairBytes v).length = itemLength true v.copied := by
  have hnull : v.copied.getType ≠ 0 := by
    rw [Ne, getType_eq_zero_iff, copied_eq_null_iff]
    exact hv.1
  have hkey : DTXPrimitiveValue.emptyKey.entry.length = 4 := rfl
  rw [itemLength, if_neg hnull, copied_size, copied_hasLength, pairBytes, List.length_append, hkey, entry]
  cases v.hasLength <;> simp <;> omega

/-- No value is emitted with more bytes than it was read from. -/
theorem reemitted_length_le {v : DTXPrimitiveValue} (hv : v.OnWire) :
    (reemitted v).length ≤ (pairBytes v).length := by
  unfold reemitted
  by_cases hkey : v = .emptyKey
  · rw [if_pos hkey]
    exact Nat.zero_le _
  · rw [if_neg hkey, pairBytes_length hv]
    exact itemWrites_length_le true v.copied

theorem entry_inj_of_size {v w : DTXPrimitiveValue} (hlength : v.hasLength = w.hasLength)
    (hsize : v.size = w.size) (h : v.entry = w.entry) : v.content = w.content := by
  have htail := (List.append_inj h (by simp)).2
  rw [hlength, hsize] at htail
  exact List.append_cancel_left htail

/-- A value is read back from the bytes of its copy only if the copy is the value. -/
theorem copied_entry_eq_iff (v : DTXPrimitiveValue) : v.copied.entry = v.entry ↔ v.Constructed := by
  rw [← copied_eq_iff]
  constructor
  · intro h
    have hcontent := entry_inj_of_size (copied_hasLength v) (copied_size v) h
    cases v with
    | string str => exact congrArg DTXPrimitiveValue.string hcontent
    | _ => rfl
  · intro h
    rw [h]

/-- **One value** is emitted as it was read exactly when it is not an empty key, a constructor can build it
    and its length is not zero. -/
theorem reemitted_eq_iff {v : DTXPrimitiveValue} (hv : v.OnWire) :
    reemitted v = pairBytes v ↔
      v.Constructed ∧ (v.hasLength = true → 0 < v.size) ∧ v ≠ .emptyKey := by
  have hentries : itemEntries true v.copied = [.emptyKey, v.copied] := by
    rw [itemEntries, if_neg (mt (copied_eq_null_iff v).mp hv.1)]
    rfl
  have hwritten : v.copied.LengthWritten ↔ (v.hasLength = true → 0 < v.size) := by
    unfold LengthWritten
    rw [copied_hasLength, copied_size]
    exact ⟨fun h hl => (h hl).1, fun h hl => ⟨h hl, hv.2 hl⟩⟩
  by_cases hkey : v = .emptyKey
  · rw [reemitted, if_pos hkey]
    refine ⟨fun h => ?_, fun h => absurd hkey h.2.2⟩
    have hlength := congrArg List.length h
    rw [pairBytes, List.length_append] at hlength
    have := v.le_entry_length
    simp at hlength
    omega
  rw [reemitted, if_neg hkey]
  constructor
  · intro h
    have hlw : v.copied.LengthWritten := by
      rw [← itemWrites_length_eq_iff true, h, pairBytes_length hv]
    rw [itemWrites_flatten hlw, hentries, pairBytes, List.flatMap_cons, List.flatMap_cons, List.flatMap_nil,
      List.append_nil] at h
    exact ⟨(copied_entry_eq_iff v).mp (List.append_cancel_left h), hwritten.mp hlw, hkey⟩
  · rintro ⟨hconstructed, hpos, -⟩
    rw [itemWrites_flatten (hwritten.mpr hpos), hentries, pairBytes, List.flatMap_cons, List.flatMap_cons,
      List.flatMap_nil, List.append_nil, (copied_entry_eq_iff v).mpr hconstructed]

/-! ## All values -/

theorem Canonical.describes {b : Bytes} {vs : List DTXPrimitiveValue} (h : Canonical b vs) :
    Describes b (vs.flatMap fun v => [.emptyKey, v]) := by
  refine ⟨h.nonempty.le, h.size, ?_, ?_⟩
  · rw [h.pairs, List.flatMap_assoc]
    refine congrArg (vs.flatMap ·) (funext fun v => ?_)
    rw [pairBytes, List.flatMap_cons, List.flatMap_cons, List.flatMap_nil, List.append_nil]
  · intro w hw
    obtain ⟨v, hv, hmem⟩ := List.mem_flatMap.mp hw
    rcases List.mem_cons.mp hmem with rfl | hself
    · exact ⟨by simp, by simp [hasLength]⟩
    · rw [List.mem_singleton.mp hself]
      exact h.onWire v hv

theorem filterMap_decoded_pairs (vs : List DTXPrimitiveValue) :
    (vs.flatMap fun v => [.emptyKey, v]).filterMap decoded = vs.filterMap decoded := by
  induction vs with
  | nil => rfl
  | cons v vs ih =>
      rw [List.flatMap_cons, List.filterMap_append, ih, List.filterMap_cons_none rfl,
        ← List.filterMap_append]
      rfl

/-- What the decoded values emit. -/
theorem flatMap_reemitted (vs : List DTXPrimitiveValue) :
    ((vs.filterMap decoded).flatMap (itemWrites true)).flatten = vs.flatMap reemitted := by
  induction vs with
  | nil => rfl
  | cons v vs ih =>
      by_cases hkey : v = .emptyKey
      · rw [List.filterMap_cons_none (by simp [decoded, hkey]), ih, List.flatMap_cons, reemitted, if_pos hkey,
          List.nil_append]
      · have hsome : v.decoded = some v.copied := if_neg hkey
        rw [List.filterMap_cons_some hsome, List.flatMap_cons, List.flatten_append, ih, List.flatMap_cons,
          reemitted, if_neg hkey]

/-- Sixteen bytes of header, and the rest. -/
theorem eq_header_append {b : Bytes} (h : 16 ≤ b.length) :
    b = toLE 8 (field b 0 8) ++ (toLE 8 (field b 8 8) ++ b.drop 16) := by
  have hfield (off : Nat) (hin : off + 8 ≤ b.length) :
      toLE 8 (field b off 8) = (b.drop off).take 8 := by
    have hlength : ((b.drop off).take 8).length = 8 := by
      rw [List.length_take, List.length_drop]
      omega
    have hround := toLE_ofLE ((b.drop off).take 8)
    rwa [hlength] at hround
  have hrest : (b.drop 8).take 8 ++ b.drop 16 = b.drop 8 := by
    have hdrop : b.drop 16 = (b.drop 8).drop 8 := by rw [List.drop_drop]
    rw [hdrop, List.take_append_drop]
  rw [hfield 0 (by omega), hfield 8 (by omega), hrest, List.drop_zero, List.take_append_drop]

section
variable {b : Bytes} {vs : List DTXPrimitiveValue}

/-- The values are emitted as they were read. -/
theorem Canonical.reemitted_eq_iff (h : Canonical b vs) :
    vs.flatMap reemitted = vs.flatMap pairBytes ↔
      ∀ v ∈ vs, v.Constructed ∧ (v.hasLength = true → 0 < v.size) ∧ v ≠ .emptyKey := by
  rw [Segments.flatMap_eq_iff_of_length_le fun v hv => reemitted_length_le (h.onWire v hv)]
  exact forall₂_congr fun v hv => DTXPrimitiveArray.reemitted_eq_iff (h.onWire v hv)

/-- Behind the header the decoded array emits its values. -/
theorem writes_drop (vs : List DTXPrimitiveValue) :
    (({ items := vs.filterMap decoded } : DTXPrimitiveArray).writes.flatten).drop 16 =
      vs.flatMap reemitted := by
  rw [writes_flatten, ← List.append_assoc, List.drop_left' (by simp), flatMap_reemitted]

/-- With all values the header comes back too: its size is that of the values. -/
theorem Canonical.writes_eq (h : Canonical b vs)
    (hv : ∀ v ∈ vs, v.Constructed ∧ (v.hasLength = true → 0 < v.size) ∧ v ≠ .emptyKey) :
    ({ items := vs.filterMap decoded } : DTXPrimitiveArray).writes.flatten = b := by
  have hdrop := writes_drop vs
  rw [h.reemitted_eq_iff.mpr hv, ← h.pairs] at hdrop
  have hlength := congrArg List.length hdrop
  rw [List.length_drop, List.length_drop] at hlength
  generalize ha : ({ items := vs.filterMap decoded } : DTXPrimitiveArray) = a at hdrop hlength
  have hitems : a.items ≠ [] := by
    intro hnil
    have hnone := a.writes_length
    rw [hnil, List.flatMap_nil, List.flatten_nil, List.length_nil] at hnone
    have := h.nonempty
    omega
  have hwritten : a.LengthsWritten := by
    intro item hitem hl
    rw [← ha] at hitem
    obtain ⟨v, hmem, hdecoded⟩ := List.mem_filterMap.mp hitem
    have hcopied : v.copied = item := by
      rw [decoded, if_neg (hv v hmem).2.2] at hdecoded
      exact Option.some.inj hdecoded
    rw [← hcopied, copied_hasLength] at hl
    rw [← hcopied, copied_size]
    exact ⟨(hv v hmem).2.1 hl, (h.onWire v hmem).2 hl⟩
  -- the size of the header is counted as it was read
  have hcount := (writes_length_eq_iff hitems).mpr hwritten
  have hmin := a.writes_length
  have hsize : a.sizeField = UInt64.ofNat (field b 8 8) := by
    have hsum : a.serializedLength = field b 8 8 + 16 := by
      have := h.nonempty
      have := h.size
      omega
    rw [sizeField, hsum, UInt64.ofNat_add]
    exact UInt64.add_sub_cancel _ _
  have hbody : (a.items.flatMap (itemWrites a.asDict)).flatten = b.drop 16 := by
    rw [← hdrop, writes_flatten, ← List.append_assoc, List.drop_left' (by simp)]
  have hfield : (UInt64.ofNat (field b 8 8)).toNat = field b 8 8 :=
    UInt64.toNat_ofNat_of_lt' (field_lt b 8 8)
  rw [writes_flatten, hbody, capacityField_eq, hsize, ← h.capacity, hfield]
  exact (eq_header_append h.nonempty.le).symm

/-- An array that emits its bytes again emits its values again. -/
theorem Canonical.reemitted_eq (h : Canonical b vs) {assertsEnabled : Bool}
    (hre : Reencodes assertsEnabled b) : vs.flatMap reemitted = vs.flatMap pairBytes := by
  obtain ⟨a, ha, hser⟩ := hre _ (Memory.shows_ofBytes b)
  obtain ⟨reads, hd⟩ := deserialize_of_describes assertsEnabled (Memory.shows_ofBytes b) h.describes
  rw [hd] at ha
  obtain rfl := Option.some.inj ha
  rw [serializeTo_keepBytes, filterMap_decoded_pairs] at hser
  have hbytes := (Prod.mk.inj (Except.ok.inj hser)).2
  rw [← writes_drop, hbytes, h.pairs]

end

/-- **Encoding a decoded dictionary again** gives its bytes exactly when no value is an empty key, no string
    or buffer is empty and no string has a byte behind a zero. -/
theorem reencodes_iff (assertsEnabled : Bool) {b : Bytes} {vs : List DTXPrimitiveValue}
    (h : Canonical b vs) : Reencodes assertsEnabled b ↔
      ∀ v ∈ vs, v.Constructed ∧ (v.hasLength = true → 0 < v.size) ∧ v ≠ .emptyKey := by
  constructor
  · intro hre
    exact h.reemitted_eq_iff.mp (h.reemitted_eq hre)
  · intro hv m hm
    obtain ⟨reads, hd⟩ := deserialize_of_describes assertsEnabled hm h.describes
    refine ⟨_, by rw [hd], ?_⟩
    rw [serializeTo_keepBytes, filterMap_decoded_pairs, h.writes_eq hv]

/-- A string, a number and a buffer with a zero byte as a dictionary. -/
def mixedDictionary : Bytes :=
  toLE 8 0x1F0 ++ toLE 8 45 ++
    [DTXPrimitiveValue.string [0x61, 0x62], .integer 5, .buffer [7, 0, 9]].flatMap pairBytes

theorem reencodes_iff_mixedDictionary : Reencodes true mixedDictionary :=
  (reencodes_iff true
    (show Canonical mixedDictionary [.string [0x61, 0x62], .integer 5, .buffer [7, 0, 9]] from
      ⟨by decide, by decide, by decide, by decide, by decide⟩)).mpr
    (by decide)

/-- The empty string, and a string with a byte behind a zero. -/
def emptyString : Bytes := toLE 8 0x1F0 ++ toLE 8 12 ++ pairBytes (.string [])
def splitString : Bytes := toLE 8 0x1F0 ++ toLE 8 15 ++ pairBytes (.string [0x61, 0, 0x62])

theorem canonical_emptyString : Canonical emptyString [.string []] :=
  ⟨by decide, by decide, by decide, by decide, by decide⟩

theorem canonical_splitString : Canonical splitString [.string [0x61, 0, 0x62]] :=
  ⟨by decide, by decide, by decide, by decide, by decide⟩

/-- Of the first the length is missing, and in the second the last byte becomes a zero. -/
theorem not_reencodes_emptyString : Canonical emptyString [.string []] ∧
    Canonical splitString [.string [0x61, 0, 0x62]] ∧
      ∀ assertsEnabled, ¬ Reencodes assertsEnabled emptyString ∧ ¬ Reencodes assertsEnabled splitString :=
  ⟨canonical_emptyString, canonical_splitString, fun _ =>
    ⟨fun h => absurd (canonical_emptyString.reemitted_eq h) (by decide),
      fun h => absurd (canonical_splitString.reemitted_eq h) (by decide)⟩⟩

end DTXPrimitiveArray
end IDevice
