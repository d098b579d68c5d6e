import IDevice.Message.Deserialize

/-!
# `Message.Entries` — the format of a serialized array

An array on the wire is a header of 16 bytes and then one `entry` per value: its type, a length if the
type has one, and its bytes. `Describes b vs` is the format; it is stated without the decoder.

`deserialize_of_describes` is what the decoder makes of it. It drops the empty keys, and it copies a
string with `strncpy`, so a string is kept when it is one that the constructor of a string value can
build (`Constructed`).
-/

namespace IDevice

open LittleEndian

namespace DTXPrimitiveValue

/-- A value on the wire. -/
def entry (v : DTXPrimitiveValue) : Bytes :=
  toLE 4 v.getType.toNat ++ ((if v.hasLength then toLE 4 v.size else []) ++ v.content)

/-- The values that an entry can hold: of a type that is known on the wire, and with a length that fits
    its field. -/
def OnWire (v : DTXPrimitiveValue) : Prop := v ≠ .null ∧ (v.hasLength = true → v.size < 2 ^ 32)

instance (v : DTXPrimitiveValue) : Decidable v.OnWire := by
  unfold OnWire
  infer_instance

/-- The values that the constructors build: the one for strings copies with `strncpy`. -/
def Constructed : DTXPrimitiveValue → Prop
  | string str => Memory.ZeroPadded str
  | _ => True

instance (v : DTXPrimitiveValue) : Decidable v.Constructed := by
  cases v <;> unfold Constructed <;> infer_instance

/-- The value that the decoder constructs from the bytes of `v`. -/
def copied : DTXPrimitiveValue → DTXPrimitiveValue
  | string str => string ((Memory.ofBytes str).strncpy str.length)
  | v => v

/-- What the decoder appends for the entry of `v`: nothing for an empty key. -/
def decoded (v : DTXPrimitiveValue) : Option DTXPrimitiveValue :=
  if v = .emptyKey then none else some v.copied

theorem constructed_string (str : Memory) (length : Nat) : (string (str.strncpy length)).Constructed :=
  Memory.strncpy_zeroPadded str length

/-- **A value survives the copy** exactly when a constructor can build it. -/
theorem copied_eq_iff (v : DTXPrimitiveValue) : v.copied = v ↔ v.Constructed := by
  cases v with
  | string str =>
      have hcopy := (Memory.shows_ofBytes str).strncpy_eq_iff
      simpa [copied, Constructed] using hcopy
  | _ => exact ⟨fun _ => trivial, fun _ => rfl⟩

theorem le_entry_length (v : DTXPrimitiveValue) : 4 ≤ v.entry.length := by
  simp [entry]

theorem getType_toNat_lt (v : DTXPrimitiveValue) : v.getType.toNat < 256 ^ 4 := v.getType.toNat_lt

end DTXPrimitiveValue

open DTXPrimitiveValue

/-- The bytes are an array with the entries `vs`: the size in the header is that of what follows it, and
    what follows are the entries. -/
structure Describes (b : Bytes) (vs : List DTXPrimitiveValue) : Prop where
  header : 16 ≤ b.length
  size : field b 8 8 + 16 = b.length
  entries : b.drop 16 = vs.flatMap entry
  onWire : ∀ v ∈ vs, v.OnWire

namespace DTXPrimitiveArray

/-! ## One entry -/

/-- **One entry** is read as its value, up to its end. -/
theorem deserializeItem_entry {m : Memory} {offset : Nat} {v : DTXPrimitiveValue}
    (h : (m.after offset).Shows v.entry) (hv : v.OnWire) :
    m.word offset 4 = v.getType.toNat ∧
      ∃ reads, deserializeItem m v.getType.toNat (offset + 4) =
        some (v.decoded, offset + v.entry.length, reads) := by
  obtain ⟨htype, hrest⟩ := Memory.shows_append.mp h
  rw [toLE_length, Memory.after_after] at hrest
  refine ⟨htype.word_toLE v.getType_toNat_lt, ?_⟩
  cases v with
  | null => exact absurd rfl hv.1
  | emptyKey => exact ⟨[], rfl⟩
  -- a length and as many bytes, which the constructor copies up to a zero
  | string str =>
      have hshown : (m.after (offset + 4)).Shows (toLE 4 str.length ++ str) := hrest
      obtain ⟨hlength, hcontent⟩ := Memory.shows_append.mp hshown
      rw [toLE_length, Memory.after_after] at hcontent
      have hword : m.word (offset + 4) 4 = str.length := hlength.word_toLE (hv.2 rfl)
      have hcopy := hcontent.strncpy_congr (Memory.shows_ofBytes str)
      refine ⟨[⟨offset + 4, 4⟩, ⟨offset + 4 + 4, (m.after (offset + 4 + 4)).strncpyReads str.length⟩], ?_⟩
      simp only [deserializeItem, getType, decoded, copied, entry, content, size, hasLength]
      simp [hword, hcopy]
      omega
  -- a length and as many bytes, all of which are copied
  | buffer bytes =>
      have hshown : (m.after (offset + 4)).Shows (toLE 4 bytes.length ++ bytes) := hrest
      obtain ⟨hlength, hcontent⟩ := Memory.shows_append.mp hshown
      rw [toLE_length, Memory.after_after] at hcontent
      have hword : m.word (offset + 4) 4 = bytes.length := hlength.word_toLE (hv.2 rfl)
      have hbytes := hcontent.bytes_eq
      refine ⟨[⟨offset + 4, 4⟩, ⟨offset + 4 + 4, bytes.length⟩], ?_⟩
      simp only [deserializeItem, getType, decoded, copied, entry, content, size, hasLength]
      simp [hword, hbytes]
      omega
  -- the rest is a number of four or eight bytes
  | signedInt32 i32 =>
      have hword : m.word (offset + 4) 4 = i32.toUInt32.toNat := hrest.word_toLE (UInt32.toNat_lt _)
      exact ⟨[⟨offset + 4, 4⟩], by simp [deserializeItem, getType, decoded, copied, entry, content,
        hasLength, hword]⟩
  | signedInt64 i64 =>
      have hword : m.word (offset + 4) 8 = i64.toUInt64.toNat := hrest.word_toLE (UInt64.toNat_lt _)
      exact ⟨[⟨offset + 4, 8⟩], by simp [deserializeItem, getType, decoded, copied, entry, content,
        hasLength, hword]⟩
  | float32 bits =>
      have hword : m.word (offset + 4) 4 = bits.toNat := hrest.word_toLE (UInt32.toNat_lt _)
      exact ⟨[⟨offset + 4, 4⟩], by simp [deserializeItem, getType, decoded, copied, entry, content,
        hasLength, hword]⟩
  | float64 bits =>
      have hword : m.word (offset + 4) 8 = bits.toNat := hrest.word_toLE (UInt64.toNat_lt _)
      exact ⟨[⟨offset + 4, 8⟩], by simp [deserializeItem, getType, decoded, copied, entry, content,
        hasLength, hword]⟩
  | integer u =>
      have hword : m.word (offset + 4) 8 = u.toNat := hrest.word_toLE (UInt64.toNat_lt _)
      exact ⟨[⟨offset + 4, 8⟩], by simp [deserializeItem, getType, decoded, copied, entry, content,
        hasLength, hword]⟩

/-! ## All entries -/

/-- **The loop reads the entries** one after the other and ends behind the last. -/
theorem deserializeItems_entries (assertsEnabled : Bool) {m : Memory} {bufferSize : Nat}
    {vs : List DTXPrimitiveValue} (hv : ∀ v ∈ vs, v.OnWire) {fuel offset : Nat}
    (items : List DTXPrimitiveValue) (h : (m.after offset).Shows (vs.flatMap entry))
    (hend : offset + (vs.flatMap entry).length = bufferSize) (hfuel : bufferSize ≤ offset + fuel) :
    ∃ reads, deserializeItems assertsEnabled m bufferSize fuel offset items =
      ⟨some { items := items ++ vs.filterMap decoded }, false, reads⟩ := by
  induction vs generalizing fuel offset items with
  | nil =>
      refine ⟨[], ?_⟩
      have hstop : ¬ offset < bufferSize := by
        simp at hend
        omega
      cases fuel <;> simp [deserializeItems, hstop]
  | cons v vs ih =>
      rw [List.flatMap_cons] at h hend
      rw [List.length_append] at hend
      obtain ⟨hentry, hrest⟩ := Memory.shows_append.mp h
      rw [Memory.after_after] at hrest
      -- the first entry, and the loop behind its end
      obtain ⟨hword, reads, hitem⟩ := deserializeItem_entry hentry (hv v (by simp))
      have hpos := v.le_entry_length
      obtain ⟨fuel, rfl⟩ : ∃ k, fuel = k + 1 := ⟨fuel - 1, by omega⟩
      obtain ⟨reads', hloop⟩ := ih (fun v hmem => hv v (by simp [hmem]))
        (items ++ v.decoded.toList) hrest (by omega) (show bufferSize ≤ offset + v.entry.length + fuel by omega)
      refine ⟨(⟨offset, 4⟩ :: reads) ++ reads', ?_⟩
      have hitems : v.decoded.toList ++ vs.filterMap decoded = (v :: vs).filterMap decoded := by
        cases hd : v.decoded <;> simp [hd]
      rw [deserializeItems, if_pos (by omega), hword, hitem]
      simp only [hloop, ArrayDecoded.after, List.append_assoc, hitems]

/-- **Decoding an array** in the format: its values without the empty keys. -/
theorem deserialize_of_describes (assertsEnabled : Bool) {m : Memory} {b : Bytes}
    {vs : List DTXPrimitiveValue} (hm : m.Shows b) (hb : Describes b vs) :
    ∃ reads, deserialize assertsEnabled m b.length =
      ⟨some { items := vs.filterMap decoded }, false, reads⟩ := by
  have hheader := hb.header
  have hsplit : b = b.take 16 ++ vs.flatMap entry := by rw [← hb.entries, List.take_append_drop]
  have htake : (b.take 16).length = 16 := by
    rw [List.length_take]
    omega
  have hlength : 16 + (vs.flatMap entry).length = b.length := by
    have hsum := congrArg List.length hsplit
    rw [List.length_append, htake] at hsum
    exact hsum.symm
  have hshows : (m.after 16).Shows (vs.flatMap entry) := by
    rw [hsplit] at hm
    have hbehind := (Memory.shows_append.mp hm).2
    rwa [htake] at hbehind
  -- the check of the size passes
  have hsize : UInt64.ofNat (m.word 0x8 8) + kDTXPrimitiveArrayHeaderSize = UInt64.ofNat b.length := by
    have hfield : m.word 0x8 8 = field b 0x8 8 := hm.word_eq_field (by omega)
    rw [hfield, ← hb.size]
    exact (UInt64.ofNat_add _ _).symm
  obtain ⟨reads, hloop⟩ := deserializeItems_entries assertsEnabled hb.onWire [] hshows hlength
    (show b.length ≤ 16 + b.length by omega)
  have hlong : ¬ b.length < kDTXPrimitiveArrayHeaderSize.toNat := not_lt.mpr hheader
  refine ⟨[⟨0x0, 8⟩, ⟨0x8, 8⟩] ++ reads, ?_⟩
  unfold deserialize
  rw [if_neg hlong, if_neg (not_not.mpr hsize)]
  exact congrArg (ArrayDecoded.after _) hloop

end DTXPrimitiveArray
end IDevice
