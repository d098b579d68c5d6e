import IDevice.Lib.Cursor
import IDevice.Message.Codec
import IDevice.Wire.Chunking

/-!
# `Tools.Template` — the binary template and the parser

`tools/DTXMessage.bt` is a second description of the format: a template for a hex editor, which walks over a file of
messages and marks their fields. It goes by what the payload says, while the parser goes by the length in the
header.

`template_agrees` says that on a file of valid fragments, of which the last may be cut, the two take the same
fragments, and that in every whole message the template finds the values that the message was made of.
-/

namespace IDevice

open LittleEndian Scan

/-- The structure named `value`; floats by their bits. -/
inductive TemplateValue where
  | counted (len : UInt32) (bytes : Bytes)
  | int32 (val : Int32)
  | int64 (val : Int64)
  | float (val : UInt32)
  | double (val : UInt64)
  | missing
deriving DecidableEq, Repr

structure TemplateAuxiliary where
  type : UInt32
  value : TemplateValue
deriving DecidableEq, Repr

structure DTXMessagePayloadHeader where
  messageType : UInt32
  auxiliaryLength : UInt32
  totalLength : UInt64
deriving DecidableEq, Repr

structure DTXPrimitiveArrayHeader where
  capacity : UInt64
  size : UInt64
deriving DecidableEq, Repr

/-- What a `struct DTXMessage` has in it besides its header. -/
inductive TemplateBody where
  | whole (payloadHeader : DTXMessagePayloadHeader)
      (auxiliary : Option (DTXPrimitiveArrayHeader × List TemplateAuxiliary)) (payload : Bytes)
  | firstFragment
  | fragment (payload : Bytes)
deriving DecidableEq, Repr

structure TemplateMessage where
  header : DTXMessageHeader
  body : TemplateBody

namespace Template

def header : Scan DTXMessageHeader := do return DTXMessageHeader.decode (← bytes 32)

def payloadHeader : Scan DTXMessagePayloadHeader := do
  let messageType ← word 4
  let auxiliaryLength ← word 4
  let totalLength ← word 8
  return ⟨UInt32.ofNat messageType, UInt32.ofNat auxiliaryLength, UInt64.ofNat totalLength⟩

def primitiveArrayHeader : Scan DTXPrimitiveArrayHeader := do
  let capacity ← word 8
  let size ← word 8
  return ⟨UInt64.ofNat capacity, UInt64.ofNat size⟩

/-- The switch over the type. -/
def value (type : Nat) : Scan TemplateValue :=
  match type with
  | 1 | 2 => do
    let len ← word 4
    let bytes ← bytes len
    return .counted (UInt32.ofNat len) bytes
  | 3 => do return .int32 (UInt32.ofNat (← word 4)).toInt32
  | 4 | 9 => do return .int64 (UInt64.ofNat (← word 8)).toInt64
  | 5 => do return .float (UInt32.ofNat (← word 4))
  | 6 => do return .double (UInt64.ofNat (← word 8))
  | _ => return .missing

/-- The body of the `while` loop. -/
def auxiliary : Scan TemplateAuxiliary := do
  let type ← word 4
  let value ← value type
  return ⟨UInt32.ofNat type, value⟩

/-- `auxiliary_end`, a signed number. -/
def auxiliaryEnd (pos : Nat) (h : DTXPrimitiveArrayHeader) : Int64 := Int64.ofNat pos + h.size.toInt64

def auxiliaries : Scan (DTXPrimitiveArrayHeader × List TemplateAuxiliary) := do
  let h ← primitiveArrayHeader
  let entries ← whileFrom (fun start pos => Int64.ofNat pos < auxiliaryEnd start h) auxiliary
  return (h, entries)

/-- `payload_length`, a signed number too. -/
def payloadLength (h : DTXMessagePayloadHeader) : Int64 := (h.totalLength - h.auxiliaryLength.toUInt64).toInt64

def auxiliariesOf (h : DTXMessagePayloadHeader) : Scan (Option (DTXPrimitiveArrayHeader × List TemplateAuxiliary)) :=
  if 0 < h.auxiliaryLength then some <$> auxiliaries else pure none

def payload (h : DTXMessagePayloadHeader) : Scan Bytes :=
  if 0 < payloadLength h then bytes (payloadLength h).toInt.toNat else pure []

/-- The branch for `fragment_count == 1`. -/
def wholeMessage : Scan TemplateBody := do
  let h ← payloadHeader
  let aux ← auxiliariesOf h
  let payload ← payload h
  return .whole h aux payload

def eatAll : Scan Unit := do seek (← fileSize)

/-- `ParseDTXMessage`; `none` where it returns -1. -/
def parseDTXMessage : Scan (Option TemplateMessage) := do
  let h ← header
  if h.magic ≠ kDTXMessageHeaderMagic ∨ h.messageHeaderSize ≠ 0x20 then
    eatAll
    return none
  else
    let remain := (← fileSize) - (← tell)
    if remain < h.length.toNat then
      eatAll
      return none
    else if h.fragmentCount = 1 then return some ⟨h, ← wholeMessage⟩
    else if h.fragmentIndex = 0 then return some ⟨h, .firstFragment⟩
    else return some ⟨h, .fragment (← bytes h.length.toNat)⟩

/-- The loop over the file. -/
def messages : Nat → Scan (List TemplateMessage)
  | 0 => fun _ _ => none
  | fuel + 1 => do
    if (← tell) < (← fileSize) then
      if (← fileSize) - (← tell) < 0x20 then return []
      else
        match ← parseDTXMessage with
        | none => return []
        | some msg => do
          let rest ← messages fuel
          return msg :: rest
    else return []

/-- The messages that the template finds in a file; `none` where it reads behind the end. -/
def run (file : Bytes) : Option (List TemplateMessage) := (messages (file.length + 1) file 0).map Prod.fst

end Template

/-! ## Values -/

/-- What the template shows of a value. -/
def DTXPrimitiveValue.shown (v : DTXPrimitiveValue) : TemplateAuxiliary where
  type := v.getType
  value := match v with
    | string str => .counted (UInt32.ofNat str.length) str
    | buffer bytes => .counted (UInt32.ofNat bytes.length) bytes
    | signedInt32 i32 => .int32 i32
    | signedInt64 i64 => .int64 i64
    | float32 bits => .float bits
    | float64 bits => .double bits
    | integer u => .int64 u.toInt64
    | null | emptyKey => .missing

namespace Template

variable {limit : Nat}

theorem parses_header (h : DTXMessageHeader) : Parses limit header h.encode h := by
  have hbytes : Parses limit header h.encode (DTXMessageHeader.decode h.encode) := (parses_bytes h.encode).map
  have hdecode := h.decode_encode []
  rw [List.append_nil] at hdecode
  rwa [hdecode] at hbytes

theorem parses_word32 (x : UInt32) : Parses limit (word 4) (toLE 4 x.toNat) x.toNat := parses_word x.toNat_lt

theorem parses_word64 (x : UInt64) : Parses limit (word 8) (toLE 8 x.toNat) x.toNat := parses_word x.toNat_lt

/-- The value behind its type. -/
theorem parses_value {v : DTXPrimitiveValue} (hv : v.OnWire) :
    Parses limit (value v.getType.toNat) ((if v.hasLength then toLE 4 v.size else []) ++ v.content) v.shown.value := by
  cases v with
  | null => exact absurd rfl hv.1
  | emptyKey => exact parses_pure _
  | string str => exact (parses_word (hv.2 rfl)).bind (parses_bytes str).map
  | buffer bytes => exact (parses_word (hv.2 rfl)).bind (parses_bytes bytes).map
  | signedInt32 i32 =>
      have hword : Parses limit (value 3) (toLE 4 i32.toUInt32.toNat)
          (.int32 (UInt32.ofNat i32.toUInt32.toNat).toInt32) := (parses_word32 i32.toUInt32).map
      rwa [UInt32.ofNat_toNat] at hword
  | signedInt64 i64 =>
      have hword : Parses limit (value 4) (toLE 8 i64.toUInt64.toNat)
          (.int64 (UInt64.ofNat i64.toUInt64.toNat).toInt64) := (parses_word64 i64.toUInt64).map
      rwa [UInt64.ofNat_toNat] at hword
  | float32 bits =>
      have hword : Parses limit (value 5) (toLE 4 bits.toNat) (.float (UInt32.ofNat bits.toNat)) :=
        (parses_word32 bits).map
      rwa [UInt32.ofNat_toNat] at hword
  | float64 bits =>
      have hword : Parses limit (value 6) (toLE 8 bits.toNat) (.double (UInt64.ofNat bits.toNat)) :=
        (parses_word64 bits).map
      rwa [UInt64.ofNat_toNat] at hword
  | integer u =>
      have hword : Parses limit (value 9) (toLE 8 u.toNat) (.int64 (UInt64.ofNat u.toNat).toInt64) :=
        (parses_word64 u).map
      rwa [UInt64.ofNat_toNat] at hword

/-- **One entry** is shown as its value. -/
theorem parses_auxiliary {v : DTXPrimitiveValue} (hv : v.OnWire) : Parses limit auxiliary v.entry v.shown := by
  have hentry : Parses limit auxiliary v.entry ⟨UInt32.ofNat v.getType.toNat, v.shown.value⟩ :=
    (parses_word32 v.getType).bind (parses_value hv).map
  rwa [UInt32.ofNat_toNat] at hentry

/-! ## Messages -/

theorem parses_primitiveArrayHeader (capacity size : UInt64) :
    Parses limit primitiveArrayHeader (toLE 8 capacity.toNat ++ toLE 8 size.toNat) ⟨capacity, size⟩ := by
  have hwords : Parses limit primitiveArrayHeader (toLE 8 capacity.toNat ++ toLE 8 size.toNat)
      ⟨UInt64.ofNat capacity.toNat, UInt64.ofNat size.toNat⟩ :=
    (parses_word64 capacity).bind (parses_word64 size).map
  rwa [UInt64.ofNat_toNat, UInt64.ofNat_toNat] at hwords

/-- In a file of less than 2 ^ 63 bytes the signed end is the end. -/
theorem lt_auxiliaryEnd {pos length p : Nat} (capacity : UInt64) (hend : pos + length < 2 ^ 63) (hp : p ≤ pos + length) :
    decide (Int64.ofNat p < auxiliaryEnd pos ⟨capacity, UInt64.ofNat length⟩) = true ↔ p < pos + length := by
  have hsum : auxiliaryEnd pos ⟨capacity, UInt64.ofNat length⟩ = Int64.ofNat (pos + length) := by
    rw [auxiliaryEnd, UInt64.toInt64_ofNat', Int64.ofNat_add]
  rw [hsum, decide_eq_true_iff, Int64.ofNat_lt_iff_lt (Nat.lt_of_le_of_lt hp hend) hend]

/-- **The array** is read entry by entry up to its end. -/
theorem parses_auxiliaries (capacity : UInt64) {vs : List DTXPrimitiveValue} (hvs : ∀ v ∈ vs, v.OnWire) :
    Parses (2 ^ 63) auxiliaries (toLE 8 capacity.toNat ++
      (toLE 8 (UInt64.ofNat (vs.flatMap DTXPrimitiveValue.entry).length).toNat ++
        vs.flatMap DTXPrimitiveValue.entry))
      (⟨capacity, UInt64.ofNat (vs.flatMap DTXPrimitiveValue.entry).length⟩, vs.map DTXPrimitiveValue.shown) := by
  rw [← List.append_assoc, List.flatMap_def]
  refine (parses_primitiveArrayHeader _ _).bind (Parses.map ?_)
  refine parses_whileFrom ?_ ?_ ?_
  · rw [List.forall₂_map_left_iff, List.forall₂_map_right_iff, List.forall₂_same]
    intro v hv
    exact parses_auxiliary (hvs v hv)
  · intro c hc
    obtain ⟨v, -, rfl⟩ := List.mem_map.mp hc
    have hpos := v.le_entry_length
    rintro hnil
    rw [hnil] at hpos
    exact absurd hpos (by decide)
  · intro start pos hend hpos
    exact lt_auxiliaryEnd capacity hend hpos

theorem parses_payloadHeader {KAValue : Type} (m : DTXMessage KAValue) :
    Parses limit payloadHeader m.payloadHeader ⟨m.messageType, m.auxiliaryLength,
      m.auxiliaryLength.toUInt64 + UInt64.ofNat m.payloadSize⟩ := by
  have hwords : Parses limit payloadHeader m.payloadHeader ⟨UInt32.ofNat m.messageType.toNat,
      UInt32.ofNat m.auxiliaryLength.toNat,
      UInt64.ofNat (m.auxiliaryLength.toUInt64 + UInt64.ofNat m.payloadSize).toNat⟩ :=
    (parses_word32 m.messageType).bind ((parses_word32 m.auxiliaryLength).bind (parses_word64 _).map)
  rwa [UInt32.ofNat_toNat, UInt32.ofNat_toNat, UInt64.ofNat_toNat] at hwords

/-- What an array is on the wire, with the fields as they are. -/
theorem parses_writes {a : DTXPrimitiveArray} (hitems : a.items ≠ []) (h : a.LengthsWritten)
    (hlt : a.serializedLength < 2 ^ 32) :
    Parses (2 ^ 63) auxiliaries a.writes.flatten
      (⟨a.capacityField, a.sizeField⟩, a.wireEntries.map DTXPrimitiveValue.shown) := by
  have hentries : (a.items.flatMap (DTXPrimitiveArray.itemWrites a.asDict)).flatten =
      a.wireEntries.flatMap DTXPrimitiveValue.entry := DTXPrimitiveArray.flatMap_itemWrites h
  have hlength := (DTXPrimitiveArray.writes_length_eq_iff hitems).mpr h
  have hsize := DTXPrimitiveArray.sizeField_toNat hitems (by omega)
  rw [DTXPrimitiveArray.writes_length, hentries, ← hsize] at hlength
  have hfield : a.sizeField = UInt64.ofNat (a.wireEntries.flatMap DTXPrimitiveValue.entry).length := by
    rw [show (a.wireEntries.flatMap DTXPrimitiveValue.entry).length = a.sizeField.toNat by omega, UInt64.ofNat_toNat]
  rw [DTXPrimitiveArray.writes_flatten, hentries, hfield]
  exact parses_auxiliaries a.capacityField (DTXPrimitiveArray.wireEntries_onWire h)

end Template

/-- What the template shows of a message whose objects are archived. -/
def DTXMessage.shown {KAValue : Type} (m : DTXMessage KAValue) : TemplateBody :=
  .whole ⟨m.messageType, m.auxiliaryLength, m.auxiliaryLength.toUInt64 + UInt64.ofNat m.payloadSize⟩
    (if 0 < m.auxiliaryLength then
      m.auxiliary.map fun a => (⟨a.capacityField, a.sizeField⟩, a.wireEntries.map DTXPrimitiveValue.shown)
    else none)
    (m.payloadBuffer.getD [])

namespace Template

variable {limit : Nat} {KAValue : Type}

theorem parses_auxiliaryBytes {m : DTXMessage KAValue} (h : m.Sendable) (messageType : UInt32) (totalLength : UInt64) :
    Parses (2 ^ 63) (auxiliariesOf ⟨messageType, m.auxiliaryLength, totalLength⟩) m.auxiliaryBytes
      (if 0 < m.auxiliaryLength then
        m.auxiliary.map fun a => (⟨a.capacityField, a.sizeField⟩, a.wireEntries.map DTXPrimitiveValue.shown)
      else none) := by
  unfold DTXMessage.auxiliaryBytes auxiliariesOf
  by_cases hpos : 0 < m.auxiliaryLength
  · obtain ⟨a, haux, hitems⟩ := DTXMessage.exists_auxiliary_of_pos hpos
    obtain ⟨hwritten, hlt⟩ := h.lengthsWritten a haux
    rw [if_pos hpos, if_pos hpos, if_pos hpos, haux]
    exact (parses_writes hitems hwritten hlt).map
  · rw [if_neg hpos, if_neg hpos, if_neg hpos]
    exact parses_pure none

/-- The payload, whose length is a signed number. -/
theorem parses_payload (messageType auxiliaryLength : UInt32) (b : Bytes) :
    Parses (2 ^ 63) (payload ⟨messageType, auxiliaryLength, auxiliaryLength.toUInt64 + UInt64.ofNat b.length⟩) b b := by
  apply Parses.of_length
  intro hlt
  have hlength : payloadLength ⟨messageType, auxiliaryLength, auxiliaryLength.toUInt64 + UInt64.ofNat b.length⟩ =
      Int64.ofNat b.length := by
    rw [payloadLength, UInt64.add_comm, UInt64.add_sub_cancel, UInt64.toInt64_ofNat']
  have hpos : 0 < Int64.ofNat b.length ↔ 0 < b.length := Int64.ofNat_lt_iff_lt (by decide) hlt
  rw [payload, hlength, Int64.toInt_ofNat_of_lt hlt, Int.toNat_natCast]
  by_cases hempty : b = []
  · rw [hempty, if_neg (by decide)]
    exact parses_pure []
  · rw [if_pos (hpos.mpr (List.length_pos_of_ne_nil hempty))]
    exact parses_bytes b

/-- **A whole message** is shown with the values that it was made of. -/
theorem parses_wholeMessage {archivedData : KAValue → Bytes} {m : DTXMessage KAValue}
    (h : (m.materialize archivedData).Sendable) :
    Parses (2 ^ 63) wholeMessage (m.serialized archivedData) (m.materialize archivedData).shown := by
  rw [DTXMessage.serialized_eq]
  exact (parses_payloadHeader _).bind ((parses_auxiliaryBytes h _ _).bind (parses_payload _ _ _).map)

end Template

/-! ## Files -/

section
variable {KAValue : Type} (archivedData : KAValue → Bytes)

/-- A frame that is a whole message is `m`. -/
def Frame.Carries (f : Frame) (m : DTXMessage KAValue) : Prop :=
  f.header.fragmentCount = 1 → f.payload = m.serialized archivedData ∧ (m.materialize archivedData).Sendable

/-- What the template shows of a frame. -/
def Frame.shown (f : Frame) (m : DTXMessage KAValue) : TemplateMessage where
  header := f.header
  body :=
    if f.header.fragmentCount = 1 then (m.materialize archivedData).shown
    else if f.header.fragmentIndex = 0 then .firstFragment
    else .fragment f.payload

end

namespace Template

variable {KAValue : Type} {archivedData : KAValue → Bytes} {before after : Bytes}

/-- Bytes that the header announces are missing. -/
theorem parseDTXMessage_missing {h : DTXMessageHeader} (hshort : after.length < h.length.toNat)
    (hlimit : (before ++ h.encode ++ after).length < 2 ^ 63) :
    ∃ pos, parseDTXMessage (before ++ h.encode ++ after) before.length = some (none, pos) := by
  have hheader := parses_header h before after hlimit
  have hremain : (before ++ h.encode ++ after).length - (before ++ h.encode).length = after.length := by
    rw [List.length_append, Nat.add_sub_cancel_left]
  rw [parseDTXMessage, bind_apply, hheader, Option.bind_some]
  by_cases hgood : h.magic ≠ kDTXMessageHeaderMagic ∨ h.messageHeaderSize ≠ 0x20
  · rw [if_pos hgood]
    exact ⟨_, rfl⟩
  · rw [if_neg hgood, bind_apply, fileSize_apply, Option.bind_some, bind_apply, tell_apply, Option.bind_some]
    simp only [hremain, if_pos hshort]
    exact ⟨_, rfl⟩

/-- **A frame with all that it announces behind it** is shown, and the next one stands behind it. -/
theorem parseDTXMessage_frame {f : Frame} {m : DTXMessage KAValue} (hm : f.Carries archivedData m)
    (hready : f.announced ≤ (f.bytes ++ after).length) (hlimit : (before ++ f.bytes ++ after).length < 2 ^ 63) :
    parseDTXMessage (before ++ f.bytes ++ after) before.length =
      some (some (f.shown archivedData m), (before ++ f.bytes).length) := by
  rw [Frame.bytes, ← List.append_assoc before] at hlimit ⊢
  have hassoc : before ++ f.header.encode ++ f.payload ++ after = before ++ f.header.encode ++ (f.payload ++ after) :=
    List.append_assoc _ _ _
  have hheader := parses_header f.header before (f.payload ++ after) (by rwa [← hassoc])
  rw [← hassoc] at hheader
  have hgood : ¬(f.header.magic ≠ kDTXMessageHeaderMagic ∨ f.header.messageHeaderSize ≠ 0x20) := by
    rintro (hbad | hbad)
    · exact hbad f.magic
    · exact hbad f.headerSize
  have hremain : ¬(before ++ f.header.encode ++ f.payload ++ after).length - (before ++ f.header.encode).length <
      f.header.length.toNat := by
    rw [Frame.announced, List.length_append, Frame.bytes_length] at hready
    rw [List.length_append, List.length_append]
    omega
  rw [parseDTXMessage, bind_apply, hheader, Option.bind_some, if_neg hgood, bind_apply, fileSize_apply,
    Option.bind_some, bind_apply, tell_apply, Option.bind_some]
  simp only [if_neg hremain]
  unfold Frame.shown
  by_cases hone : f.header.fragmentCount = 1
  · obtain ⟨hpayload, hsendable⟩ := hm hone
    rw [hpayload] at hlimit ⊢
    rw [if_pos hone, if_pos hone, bind_apply, parses_wholeMessage hsendable _ after hlimit]
    rfl
  · rw [if_neg hone, if_neg hone]
    have hlength := f.payload_length
    by_cases hfirst : f.header.fragmentIndex = 0
    · rw [if_pos ⟨hone, hfirst⟩, List.length_eq_zero_iff] at hlength
      rw [if_pos hfirst, if_pos hfirst, hlength, List.append_nil]
      rfl
    · rw [if_neg fun h => hfirst h.2] at hlength
      rw [if_neg hfirst, if_neg hfirst, ← hlength, bind_apply, parses_bytes f.payload _ after hlimit]
      rfl

/-! ### The loop -/

variable {file : Bytes} {pos : Nat}

/-- What is left is not a header. -/
theorem messages_short (h : file.length - pos < 32) (fuel : Nat) : ∃ p, messages (fuel + 1) file pos = some ([], p) := by
  rw [messages, bind_apply, tell_apply, Option.bind_some, bind_apply, fileSize_apply, Option.bind_some]
  by_cases hend : pos < file.length
  · rw [if_pos hend, bind_apply, fileSize_apply, Option.bind_some, bind_apply, tell_apply, Option.bind_some]
    simp only [if_pos h]
    exact ⟨_, rfl⟩
  · rw [if_neg hend]
    exact ⟨_, rfl⟩

theorem messages_header (h : 32 ≤ file.length - pos) (fuel : Nat) :
    messages (fuel + 1) file pos = (parseDTXMessage file pos).bind fun r =>
      (match r.1 with
        | none => pure []
        | some msg => messages fuel >>= fun rest => pure (msg :: rest) : Scan (List TemplateMessage)) file r.2 := by
  rw [messages, bind_apply, tell_apply, Option.bind_some, bind_apply, fileSize_apply, Option.bind_some,
    if_pos (by omega), bind_apply, fileSize_apply, Option.bind_some, bind_apply, tell_apply, Option.bind_some]
  simp only [if_neg (Nat.not_lt.mpr h)]
  rfl

theorem messages_bad {p : Nat} (h : 32 ≤ file.length - pos) (hbad : parseDTXMessage file pos = some (none, p))
    (fuel : Nat) : messages (fuel + 1) file pos = some ([], p) := by
  rw [messages_header h, hbad]
  rfl

theorem messages_cons {p q fuel : Nat} {msg : TemplateMessage} {rest : List TemplateMessage}
    (h : 32 ≤ file.length - pos) (hmsg : parseDTXMessage file pos = some (some msg, p))
    (hrest : messages fuel file p = some (rest, q)) : messages (fuel + 1) file pos = some (msg :: rest, q) := by
  rw [messages_header h, hmsg, Option.bind_some]
  show (messages fuel file p).bind (fun r => some (msg :: r.1, r.2)) = some (msg :: rest, q)
  rw [hrest, Option.bind_some]

/-- At the bytes of a frame that is cut, the template stops. -/
theorem messages_cut {f : Frame} {rest : Bytes} (hrest : rest <+: f.bytes) (hcut : rest ≠ f.bytes)
    (hlimit : (before ++ rest).length < 2 ^ 63) (fuel : Nat) :
    ∃ p, messages (fuel + 1) (before ++ rest) before.length = some ([], p) := by
  have hremain : (before ++ rest).length - before.length = rest.length := by
    rw [List.length_append, Nat.add_sub_cancel_left]
  by_cases h32 : rest.length < 32
  · exact messages_short (by omega) fuel
  · -- the header is whole, and bytes of the payload are missing
    obtain ⟨part, rfl, hpart⟩ : ∃ part, rest = f.header.encode ++ part ∧ part.length < f.payload.length := by
      obtain ⟨missing, hmissing⟩ := hrest
      have hheader : f.header.encode <+: rest := by
        have hwhole : f.header.encode <+: f.bytes := ⟨f.payload, rfl⟩
        refine List.prefix_of_prefix_length_le hwhole ⟨missing, hmissing⟩ ?_
        rw [DTXMessageHeader.encode_length]
        exact Nat.not_lt.mp h32
      obtain ⟨part, rfl⟩ := hheader
      rw [Frame.bytes, List.append_assoc, List.append_cancel_left_eq] at hmissing
      refine ⟨part, rfl, ?_⟩
      rw [← hmissing, List.length_append]
      refine Nat.lt_add_of_pos_right (List.length_pos_of_ne_nil ?_)
      rintro rfl
      rw [List.append_nil] at hmissing
      exact hcut (by rw [Frame.bytes, hmissing])
    have hshort : part.length < f.header.length.toNat := by
      have hlength := f.payload_length
      split at hlength <;> omega
    rw [← List.append_assoc] at hlimit ⊢
    obtain ⟨p, hbad⟩ := parseDTXMessage_missing hshort hlimit
    exact ⟨p, messages_bad (by rw [List.length_append, List.length_append, DTXMessageHeader.encode_length]; omega)
      hbad fuel⟩

open IDevice.Frame DTXMessageParser in
/-- The template and the parser, frame by frame: both take a frame that is ready, and stop at one that is not. -/
theorem messages_frames {f : Frame} {rest : Bytes} (hrest : rest <+: f.bytes) (hcut : rest ≠ f.bytes)
    {fs : List (Frame × DTXMessage KAValue)} (hfs : ∀ p ∈ fs, p.1.Carries archivedData p.2) {t t' : FragmentTable}
    {out : List ParsedMessage} (habsorb : absorbAll t (fs.map Prod.fst) = some (t', out)) (before : Bytes) {fuel : Nat}
    (hlimit : (before ++ (stream (fs.map Prod.fst) ++ rest)).length < 2 ^ 63) (hfuel : fs.length < fuel) :
    ∃ taken later u delivered p, fs = taken ++ later ∧
      absorbAll t (taken.map Prod.fst) = some (u, delivered) ∧
      messages fuel (before ++ (stream (fs.map Prod.fst) ++ rest)) before.length =
        some (taken.map fun p => p.1.shown archivedData p.2, p) ∧
      dtxReader.drain t (stream (fs.map Prod.fst) ++ rest) =
        ⟨u, delivered, stream (later.map Prod.fst) ++ rest, .wait⟩ := by
  induction fs generalizing t out before fuel with
  | nil =>
      obtain ⟨fuel, rfl⟩ : ∃ k, fuel = k + 1 := ⟨fuel - 1, by omega⟩
      obtain ⟨p, hstop⟩ := messages_cut hrest hcut hlimit fuel
      refine ⟨[], [], t, [], p, rfl, rfl, hstop, ?_⟩
      exact Stream.Reader.drain_wait (front_cut t hrest hcut)
  | cons g fs ih =>
      obtain ⟨fuel, rfl⟩ : ∃ k, fuel = k + 1 := ⟨fuel - 1, by omega⟩
      obtain ⟨t₁, out₁, out₂, hg, hbehind, rfl⟩ := absorbAll_cons_eq_some habsorb
      rw [List.map_cons, stream_cons, List.append_assoc] at hlimit ⊢
      have hheader : 32 ≤ (before ++ (g.1.bytes ++ (stream (fs.map Prod.fst) ++ rest))).length - before.length := by
        rw [List.length_append, List.length_append, bytes_length]
        omega
      by_cases hready : g.1.announced ≤ (g.1.bytes ++ (stream (fs.map Prod.fst) ++ rest)).length
      · rw [← List.append_assoc before] at hlimit hheader ⊢
        obtain ⟨taken, later, u, delivered, p, hsplit, htaken, hrun, hdrain⟩ :=
          ih (fun p hp => hfs p (List.mem_cons_of_mem g hp)) hbehind _ hlimit (Nat.lt_of_succ_lt_succ hfuel)
        have hframe := parseDTXMessage_frame (hfs g List.mem_cons_self) hready hlimit
        refine ⟨g :: taken, later, u, out₁ ++ delivered, p, by rw [hsplit, List.cons_append], ?_, ?_, ?_⟩
        · rw [List.map_cons, absorbAll, hg, Option.bind_some, htaken, Option.map_some]
        · exact messages_cons hheader hframe hrun
        · rw [g.1.drain_ready t _ hready hg, hdrain]
          rfl
      · refine ⟨[], g :: fs, t, [], ?_⟩
        have hwait := Stream.Reader.drain_wait (g.1.front_waiting t _ (Nat.not_le.mp hready))
        have hshort : (g.1.payload ++ (stream (fs.map Prod.fst) ++ rest)).length < g.1.header.length.toNat := by
          rw [announced, List.length_append, bytes_length] at hready
          rw [List.length_append]
          omega
        rw [hwait, List.map_cons, stream_cons, List.append_assoc]
        rw [Frame.bytes, List.append_assoc, ← List.append_assoc before] at hlimit hheader ⊢
        obtain ⟨p, hbad⟩ := parseDTXMessage_missing hshort hlimit
        exact ⟨p, rfl, rfl, messages_bad hheader hbad fuel, rfl⟩

end Template

/-! ## The agreement -/

open IDevice.Frame in
/-- **The template and the parser agree** on a file of valid fragments, the last of which may be cut: they take the
    same fragments, and of a whole message the template shows the values that it was made of. -/
theorem template_agrees {KAValue : Type} {archivedData : KAValue → Bytes} {fs : List (Frame × DTXMessage KAValue)}
    (hfs : ∀ p ∈ fs, p.1.Carries archivedData p.2) {t : FragmentTable} {out : List ParsedMessage}
    (habsorb : absorbAll .empty (fs.map Prod.fst) = some (t, out)) {f : Frame} {rest : Bytes}
    (hrest : rest <+: f.bytes) (hcut : rest ≠ f.bytes)
    (hsize : (stream (fs.map Prod.fst) ++ rest).length < 2 ^ 63) :
    ∃ taken later u delivered, fs = taken ++ later ∧
      Template.run (stream (fs.map Prod.fst) ++ rest) = some (taken.map fun p => p.1.shown archivedData p.2) ∧
      absorbAll .empty (taken.map Prod.fst) = some (u, delivered) ∧
      readStream (stream (fs.map Prod.fst) ++ rest) = ⟨u, delivered, stream (later.map Prod.fst) ++ rest, .wait⟩ := by
  have hlength : fs.length ≤ (stream (fs.map Prod.fst)).length := by
    rw [← List.length_map (Prod.fst : Frame × DTXMessage KAValue → Frame), stream, List.length_flatMap,
      ← List.length_map (fun g : Frame => g.bytes.length)]
    refine List.length_le_sum_of_one_le _ ?_
    intro n hn
    obtain ⟨g, -, rfl⟩ := List.mem_map.mp hn
    rw [bytes_length]
    omega
  have hfuel : fs.length < (stream (fs.map Prod.fst) ++ rest).length + 1 := by
    rw [List.length_append]
    omega
  obtain ⟨taken, later, u, delivered, p, hsplit, htaken, hrun, hdrain⟩ :=
    Template.messages_frames hrest hcut hfs habsorb [] hsize hfuel
  refine ⟨taken, later, u, delivered, hsplit, ?_, htaken, hdrain⟩
  rw [Template.run]
  exact congrArg (Option.map Prod.fst) hrun

/-- A call in one fragment, and the first fragment of two. -/
def recordedFrames : List (Frame × DTXMessage Unit) :=
  [({ header := ⟨kDTXMessageHeaderMagic, 32, 0, 1, 65, 1, 0, 0, 0⟩
      payload := DTXMessage.codecMessage.serialized fun _ => []
      magic := rfl
      headerSize := rfl
      bound := by decide
      payload_length := by decide +kernel }, DTXMessage.codecMessage),
    ({ header := ⟨kDTXMessageHeaderMagic, 32, 0, 2, 5, 2, 0, 0, 0⟩
       payload := []
       magic := rfl
       headerSize := rfl
       bound := by decide
       payload_length := by decide }, {})]

/-- The second fragment, of which four bytes are missing. -/
def recordedLast : Frame where
  header := ⟨kDTXMessageHeaderMagic, 32, 1, 2, 5, 2, 0, 0, 0⟩
  payload := [1, 2, 3, 4, 5]
  magic := rfl
  headerSize := rfl
  bound := by decide
  payload_length := by decide

theorem template_agrees_recordedFrames :
    ∃ taken later u delivered, recordedFrames = taken ++ later ∧
      Template.run (Frame.stream (recordedFrames.map Prod.fst) ++ recordedLast.bytes.take 33) =
        some (taken.map fun p => p.1.shown (fun _ => []) p.2) ∧
      Frame.absorbAll .empty (taken.map Prod.fst) = some (u, delivered) ∧
      readStream (Frame.stream (recordedFrames.map Prod.fst) ++ recordedLast.bytes.take 33) =
        ⟨u, delivered, Frame.stream (later.map Prod.fst) ++ recordedLast.bytes.take 33, .wait⟩ := by
  refine template_agrees ?_ rfl (List.take_prefix 33 _) ?_ ?_
  · intro p hp hone
    rcases List.mem_cons.mp hp with rfl | hp
    · refine ⟨rfl, ?_, by decide⟩
      intro a ha
      obtain rfl := Option.some.inj ha
      exact ⟨by decide, by decide⟩
    · obtain rfl := List.mem_singleton.mp hp
      exact absurd hone (by decide)
  · intro heq
    exact absurd (congrArg List.length heq) (by decide)
  · decide +kernel

end IDevice
