import IDevice.Message.Entries

/-!
# `Message.Accepts` — which byte strings are accepted as an array?

`DTXPrimitiveArray::Deserialize` checks the size field of the header and nothing behind it: an entry
that is cut off, a length that runs past the end and an unknown type are all accepted, or stop the
program at an assertion. So a byte string is treated as its format says exactly when the header already
rejects it or when it is in the format; and then its strings must be such that copying them with
`strncpy` keeps them.
-/

namespace IDevice

open LittleEndian DTXPrimitiveValue

namespace DTXPrimitiveArray

/-- Decoding `b` returns an array exactly when `b` is in the format, and then the array of its values
    without the empty keys; whatever lies behind `b`. -/
def AcceptsFormat (assertsEnabled : Bool) (b : Bytes) : Prop :=
  ∀ m : Memory, m.Shows b →
    (deserialize assertsEnabled m b.length).aborted = false ∧
    ((deserialize assertsEnabled m b.length).array.isSome = true ↔ ∃ vs, Describes b vs) ∧
    ∀ a, (deserialize assertsEnabled m b.length).array = some a →
      ∃ vs, Describes b vs ∧ a.items = vs.filter (· ≠ .emptyKey)

/-- The check on the header fails: too few bytes for a header, or a size field that does not fit. -/
def HeaderRejected (b : Bytes) : Prop :=
  b.length < 16 ∨ (field b 8 8 + 16) % 2 ^ 64 ≠ b.length % 2 ^ 64

instance (b : Bytes) : Decidable (HeaderRejected b) := by
  unfold HeaderRejected
  infer_instance

/-! ## The header -/

/-- The check of the source in terms of the size field. -/
theorem size_ne_iff {m : Memory} {b : Bytes} (hm : m.Shows b) (hlong : 16 ≤ b.length) :
    UInt64.ofNat (m.word 0x8 8) + kDTXPrimitiveArrayHeaderSize ≠ UInt64.ofNat b.length ↔
      (field b 8 8 + 16) % 2 ^ 64 ≠ b.length % 2 ^ 64 := by
  have hfield : m.word 0x8 8 = field b 0x8 8 := hm.word_eq_field (by omega)
  have hsum : UInt64.ofNat (m.word 0x8 8) + kDTXPrimitiveArrayHeaderSize =
      UInt64.ofNat (field b 8 8 + 16) := by
    rw [hfield]
    exact (UInt64.ofNat_add _ _).symm
  rw [hsum, Ne, ← UInt64.toNat_inj, UInt64.toNat_ofNat', UInt64.toNat_ofNat']

theorem deserialize_of_headerRejected (assertsEnabled : Bool) {m : Memory} {b : Bytes} (hm : m.Shows b)
    (h : HeaderRejected b) : ∃ reads, deserialize assertsEnabled m b.length = ⟨none, false, reads⟩ := by
  unfold deserialize
  by_cases hshort : b.length < kDTXPrimitiveArrayHeaderSize.toNat
  · exact ⟨[], if_pos hshort⟩
  · rw [if_neg hshort]
    have hlong : 16 ≤ b.length := not_lt.mp hshort
    have hsize := h.resolve_left (not_lt.mpr hlong)
    exact ⟨[⟨0x0, 8⟩, ⟨0x8, 8⟩], if_pos ((size_ne_iff hm hlong).mpr hsize)⟩

/-- A byte string in the format passes the check. -/
theorem not_headerRejected_of_describes {b : Bytes} {vs : List DTXPrimitiveValue} (h : Describes b vs) :
    ¬ HeaderRejected b := by
  rintro (hshort | hsize)
  · exact absurd h.header (not_le.mpr hshort)
  · exact hsize (by rw [h.size])

/-! ## Behind the header -/

/-- The loop never gives up: it returns an array unless an assertion fails. -/
theorem deserializeItems_array_isSome {assertsEnabled : Bool} {m : Memory} {bufferSize fuel offset : Nat}
    {items : List DTXPrimitiveValue}
    (h : (deserializeItems assertsEnabled m bufferSize fuel offset items).aborted = false) :
    (deserializeItems assertsEnabled m bufferSize fuel offset items).array.isSome = true := by
  induction fuel generalizing offset items with
  | zero => rfl
  | succ fuel ih =>
      rw [deserializeItems] at h ⊢
      by_cases hlt : offset < bufferSize
      · rw [if_pos hlt] at h ⊢
        cases hitem : deserializeItem m (m.word offset 4) (offset + 4) with
        | some r =>
            rw [hitem] at h
            exact ih h
        | none =>
            rw [hitem] at h
            cases assertsEnabled with
            | true => exact absurd h (by simp)
            | false => exact ih h
      · rw [if_neg hlt]
        rfl

theorem deserialize_array_isSome {assertsEnabled : Bool} {m : Memory} {b : Bytes} (hm : m.Shows b)
    (h : ¬ HeaderRejected b) (hret : (deserialize assertsEnabled m b.length).aborted = false) :
    (deserialize assertsEnabled m b.length).array.isSome = true := by
  have hlong : ¬ b.length < kDTXPrimitiveArrayHeaderSize.toNat := fun hshort => h (.inl hshort)
  have hsize : ¬ UInt64.ofNat (m.word 0x8 8) + kDTXPrimitiveArrayHeaderSize ≠ UInt64.ofNat b.length :=
    fun hne => h (.inr ((size_ne_iff hm (not_lt.mp hlong)).mp hne))
  unfold deserialize at hret ⊢
  rw [if_neg hlong, if_neg hsize] at hret ⊢
  exact deserializeItems_array_isSome hret

/-! ## The values -/

theorem filterMap_decoded (vs : List DTXPrimitiveValue) :
    vs.filterMap decoded = (vs.filter (· ≠ .emptyKey)).map copied := by
  induction vs with
  | nil => rfl
  | cons v vs ih =>
      by_cases hkey : v = .emptyKey
      · simp [decoded, hkey, ih]
      · simp [decoded, hkey, ih]

theorem map_copied_eq_iff (vs : List DTXPrimitiveValue) :
    vs.map copied = vs ↔ ∀ v ∈ vs, v.Constructed := by
  have hid : vs.map copied = vs.map id ↔ ∀ v ∈ vs, v.copied = v := List.map_inj_left
  rw [List.map_id] at hid
  simpa only [copied_eq_iff] using hid

/-- The values come out as they are in the format exactly when constructors can build them. -/
theorem filterMap_decoded_eq_iff (vs : List DTXPrimitiveValue) :
    vs.filterMap decoded = vs.filter (· ≠ .emptyKey) ↔ ∀ v ∈ vs, v.Constructed := by
  rw [filterMap_decoded, map_copied_eq_iff]
  constructor
  · intro h v hv
    by_cases hkey : v = .emptyKey
    · rw [hkey]
      trivial
    · exact h v (by simp [hv, hkey])
  · intro h v hv
    exact h v (List.mem_of_mem_filter hv)

/-- Behind an accepted header an array is returned whatever there is, so it must be in the format. -/
theorem AcceptsFormat.describes {assertsEnabled : Bool} {b : Bytes} (h : AcceptsFormat assertsEnabled b)
    (hheader : ¬ HeaderRejected b) : ∃ vs, Describes b vs ∧ ∀ v ∈ vs, v.Constructed := by
  have hm := Memory.shows_ofBytes b
  obtain ⟨hret, -, hitems⟩ := h _ hm
  obtain ⟨a, ha⟩ := Option.isSome_iff_exists.mp (deserialize_array_isSome hm hheader hret)
  obtain ⟨vs, hvs, hkept⟩ := hitems a ha
  obtain ⟨reads, hd⟩ := deserialize_of_describes assertsEnabled hm hvs
  rw [hd] at ha
  obtain rfl := Option.some.inj ha
  exact ⟨vs, hvs, (filterMap_decoded_eq_iff vs).mp hkept⟩

/-- **What is accepted as an array.** The bytes are treated as the format says exactly when the header is
    already rejected, or when they are in the format with strings that have no byte behind a zero. -/
theorem acceptsFormat_iff (assertsEnabled : Bool) (b : Bytes) :
    AcceptsFormat assertsEnabled b ↔
      HeaderRejected b ∨ ∃ vs, Describes b vs ∧ ∀ v ∈ vs, v.Constructed := by
  constructor
  · intro h
    by_cases hheader : HeaderRejected b
    · exact .inl hheader
    · exact .inr (h.describes hheader)
  · rintro (hheader | ⟨vs, hvs, hconstructed⟩) m hm
    · obtain ⟨reads, hd⟩ := deserialize_of_headerRejected assertsEnabled hm hheader
      rw [hd]
      refine ⟨rfl, ⟨fun hsome => absurd hsome (by simp), ?_⟩, fun a ha => absurd ha (by simp)⟩
      rintro ⟨vs, hvs⟩
      exact absurd hheader (not_headerRejected_of_describes hvs)
    · obtain ⟨reads, hd⟩ := deserialize_of_describes assertsEnabled hm hvs
      rw [hd]
      refine ⟨rfl, ⟨fun _ => ⟨vs, hvs⟩, fun _ => rfl⟩, ?_⟩
      intro a ha
      obtain rfl := Option.some.inj ha
      exact ⟨vs, hvs, (filterMap_decoded_eq_iff vs).mpr hconstructed⟩

/-- A header for four bytes, and a 32-bit number whose value is missing. -/
def truncatedArray : Bytes := toLE 8 0x1F0 ++ toLE 8 4 ++ toLE 4 3

theorem not_acceptsFormat_truncatedArray (assertsEnabled : Bool) :
    ¬ AcceptsFormat assertsEnabled truncatedArray := by
  intro h
  obtain ⟨vs, hvs, -⟩ := h.describes (by decide)
  have hentries : toLE 4 3 = vs.flatMap entry := hvs.entries
  cases vs with
  | nil => exact absurd hentries (by decide)
  | cons v vs =>
      -- an entry with this type has eight bytes, and there are four
      rw [List.flatMap_cons] at hentries
      have hlength := congrArg List.length hentries
      have htype : toLE 4 3 = toLE 4 v.getType.toNat := by
        have htake := congrArg (List.take 4) hentries
        rwa [entry, List.append_assoc, List.take_left' (toLE_length 4 _),
          List.take_of_length_le (by simp)] at htake
      rw [toLE_length, List.length_append] at hlength
      cases v with
      | signedInt32 i32 =>
          have hentry : (signedInt32 i32).entry.length = 8 := by simp [entry, content, hasLength]
          omega
      | _ => exact absurd htype (by simp only [getType]; decide)

/-- The truncated number is read from behind the end, and an array is returned. -/
theorem truncatedArray_accepted :
    ¬ AcceptsFormat false truncatedArray ∧ ¬ AcceptsFormat true truncatedArray :=
  ⟨not_acceptsFormat_truncatedArray false, not_acceptsFormat_truncatedArray true⟩

end DTXPrimitiveArray
end IDevice
