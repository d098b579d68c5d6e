import IDevice.Message.Primitive

/-!
# `Message.Message` — `DTXMessage`

A message and its serialization (`dtxmessage.h`, `dtxmessage.cpp`). Objects are archived only when
the message is serialized: `SerializedLength` and `SerializeTo` first replace the placeholders in the
auxiliary array and the missing payload buffer (`materialize`). The archiver is a parameter.

`payload_buffer_` and `payload_size_` are one field, a byte string that may be missing; who owns the
buffer is left out.
-/

namespace IDevice

open LittleEndian

structure DTXMessage (KAValue : Type) where
  payloadObject : Option KAValue := none
  payloadBuffer : Option Bytes := none
  costSize : Nat := 0
  messageType : UInt32 := 2  -- `kSelectorMessageType`, the constructor's default
  auxiliary : Option DTXPrimitiveArray := none
  auxiliaryObjects : List (Nat × KAValue) := []
  identifier : UInt32 := 0
  conversationIndex : UInt32 := 0
  channelCode : UInt32 := 0
  expectsReply : Bool := false
  deserialized : Bool := false

def kInterruptionMessage : UInt32 := 0
def kDataMessageType : UInt32 := 1
def kSelectorMessageType : UInt32 := 2

def kDTXMessagePayloadHeaderSize : Nat := 0x10

namespace DTXMessage

variable {KAValue : Type}

/-- `payload_size_`. -/
def payloadSize (m : DTXMessage KAValue) : Nat := (m.payloadBuffer.getD []).length

def createWithSelector (selector : KAValue) : DTXMessage KAValue where
  messageType := kSelectorMessageType
  payloadObject := some selector
  auxiliary := some {}

def createWithBuffer (buffer : Bytes) : DTXMessage KAValue where
  messageType := kDataMessageType
  payloadBuffer := some buffer
  auxiliary := some {}

def newReply (replyTo : DTXMessage KAValue) : DTXMessage KAValue where
  messageType := kInterruptionMessage
  channelCode := replyTo.channelCode
  identifier := replyTo.identifier
  conversationIndex := replyTo.conversationIndex + 1

/-- `AppendAuxiliary` of a primitive value. -/
def appendAuxiliary (m : DTXMessage KAValue) (aux : DTXPrimitiveValue) : DTXMessage KAValue :=
  { m with auxiliary := m.auxiliary.map (·.append aux) }

/-- `AppendAuxiliary` of an object: a placeholder in the array, and the object under its index. -/
def appendAuxiliaryObject (m : DTXMessage KAValue) (aux : KAValue) : DTXMessage KAValue :=
  match m.auxiliary with
  | none => m
  | some a =>
    { m with auxiliary := some (a.append .null),
             auxiliaryObjects := m.auxiliaryObjects ++ [(a.items.length, aux)] }

variable (archivedData : KAValue → Bytes)

/-- Every placeholder is replaced by the archive of its object. The indexes are those of
    `AppendAuxiliary`, so they lie inside the array (`Placed`). -/
def maybeSerializeAuxiliaryObjects (m : DTXMessage KAValue) : DTXMessage KAValue :=
  { m with
    auxiliary := m.auxiliary.map fun a =>
      { a with items := m.auxiliaryObjects.foldl
                 (fun items it => items.set it.1 (.buffer (archivedData it.2))) a.items }
    auxiliaryObjects := [] }

def maybeSerializePayloadObject (m : DTXMessage KAValue) : DTXMessage KAValue :=
  match m.payloadBuffer, m.payloadObject with
  | none, some object => { m with payloadBuffer := some (archivedData object) }
  | _, _ => m

/-- The declared length, and the message with its objects archived. -/
def serializedLength (m : DTXMessage KAValue) : Nat × DTXMessage KAValue :=
  let length := kDTXMessagePayloadHeaderSize
  let m := m.maybeSerializeAuxiliaryObjects archivedData
  let length := match m.auxiliary with
    | some a => length + a.serializedLength
    | none => length
  let m := m.maybeSerializePayloadObject archivedData
  (length + m.payloadSize, m)

/-- The `aux_len` field. -/
def auxiliaryLength (m : DTXMessage KAValue) : UInt32 :=
  match m.auxiliary with
  | some a => UInt32.ofNat a.serializedLength
  | none => 0

def serializeTo {τ : Type} (m : DTXMessage KAValue) (serializer : Serializer τ) (s : τ) :
    Except Stop (Bool × DTXMessage KAValue × τ) := do
  let s ← Callback.call serializer s (toLE 4 m.messageType.toNat)
  let m := m.maybeSerializeAuxiliaryObjects archivedData
  let auxiliaryLength := m.auxiliaryLength
  let s ← Callback.call serializer s (toLE 4 auxiliaryLength.toNat)
  let m := m.maybeSerializePayloadObject archivedData
  let totalLength := auxiliaryLength.toUInt64 + UInt64.ofNat m.payloadSize
  let s ← Callback.call serializer s (toLE 8 totalLength.toNat)
  let (ret, s) ←
    if 0 < auxiliaryLength then (m.auxiliary.getD {}).serializeTo serializer s else pure (true, s)
  if !ret then return (false, m, s)
  let s ← if 0 < m.payloadSize then Callback.call serializer s (m.payloadBuffer.getD []) else pure s
  return (true, m, s)

/-! ## Placeholders -/

/-- Every object that is not archived yet has its placeholder in the auxiliary array. -/
def Placed (m : DTXMessage KAValue) : Prop :=
  ∀ it ∈ m.auxiliaryObjects, ∃ a, m.auxiliary = some a ∧ a.items[it.1]? = some .null

variable {archivedData}

theorem placed_createWithSelector (selector : KAValue) : (createWithSelector selector).Placed := by
  simp [Placed, createWithSelector]

theorem placed_createWithBuffer (buffer : Bytes) :
    (createWithBuffer buffer : DTXMessage KAValue).Placed := by
  simp [Placed, createWithBuffer]

theorem placed_newReply (replyTo : DTXMessage KAValue) : replyTo.newReply.Placed := by
  simp [Placed, newReply]

/-- Values go behind the placeholders. -/
theorem Placed.appendAuxiliary {m : DTXMessage KAValue} (h : m.Placed) (aux : DTXPrimitiveValue) :
    (m.appendAuxiliary aux).Placed := by
  intro it hit
  obtain ⟨a, ha, hnull⟩ := h it hit
  obtain ⟨hlt, -⟩ := List.getElem?_eq_some_iff.mp hnull
  refine ⟨a.append aux, ?_, ?_⟩
  · simp [DTXMessage.appendAuxiliary, ha]
  · rw [DTXPrimitiveArray.append, List.getElem?_append_left hlt, hnull]

/-- An object comes with a placeholder. -/
theorem Placed.appendAuxiliaryObject {m : DTXMessage KAValue} (h : m.Placed) (aux : KAValue) :
    (m.appendAuxiliaryObject aux).Placed := by
  unfold DTXMessage.appendAuxiliaryObject
  split
  · exact h
  · rename_i a ha
    intro it hit
    refine ⟨a.append .null, rfl, ?_⟩
    rcases List.mem_append.mp hit with hold | hnew
    · obtain ⟨a', ha', hnull⟩ := h it hold
      obtain rfl : a = a' := Option.some.inj (ha.symm.trans ha')
      obtain ⟨hlt, -⟩ := List.getElem?_eq_some_iff.mp hnull
      rw [DTXPrimitiveArray.append, List.getElem?_append_left hlt, hnull]
    · rw [List.mem_singleton.mp hnew, DTXPrimitiveArray.append, List.getElem?_concat_length]

variable (archivedData)

/-! ## The calls that serialization makes -/

/-- The message with its objects archived. -/
def materialize (m : DTXMessage KAValue) : DTXMessage KAValue :=
  (m.maybeSerializeAuxiliaryObjects archivedData).maybeSerializePayloadObject archivedData

/-- The pieces of a message whose objects are archived. -/
def pieces (m : DTXMessage KAValue) : List Bytes :=
  let totalLength := m.auxiliaryLength.toUInt64 + UInt64.ofNat m.payloadSize
  [toLE 4 m.messageType.toNat, toLE 4 m.auxiliaryLength.toNat, toLE 8 totalLength.toNat] ++
    (if 0 < m.auxiliaryLength then (m.auxiliary.getD {}).writes else []) ++
    if 0 < m.payloadSize then [m.payloadBuffer.getD []] else []

/-- The arguments of the calls that `SerializeTo` makes. -/
def writes (m : DTXMessage KAValue) : List Bytes := (m.materialize archivedData).pieces

/-- All the bytes that `SerializeTo` emits. -/
def serialized (m : DTXMessage KAValue) : Bytes := (m.writes archivedData).flatten

@[simp] theorem maybeSerializePayloadObject_auxiliaryLength (m : DTXMessage KAValue) :
    (m.maybeSerializePayloadObject archivedData).auxiliaryLength = m.auxiliaryLength := by
  unfold maybeSerializePayloadObject
  split <;> rfl

@[simp] theorem maybeSerializePayloadObject_messageType (m : DTXMessage KAValue) :
    (m.maybeSerializePayloadObject archivedData).messageType = m.messageType := by
  unfold maybeSerializePayloadObject
  split <;> rfl

@[simp] theorem maybeSerializeAuxiliaryObjects_messageType (m : DTXMessage KAValue) :
    (m.maybeSerializeAuxiliaryObjects archivedData).messageType = m.messageType := rfl

/-- Archiving twice archives once. -/
@[simp] theorem materialize_materialize (m : DTXMessage KAValue) :
    (m.materialize archivedData).materialize archivedData = m.materialize archivedData := by
  unfold materialize maybeSerializePayloadObject maybeSerializeAuxiliaryObjects
  rcases m with ⟨object, buffer, _, _, auxiliary, _, _, _, _, _, _⟩
  cases buffer <;> cases object <;> cases auxiliary <;> rfl

/-- Without objects there is nothing to archive. -/
theorem materialize_eq_self {m : DTXMessage KAValue} (hpayload : m.payloadObject = none)
    (hobjects : m.auxiliaryObjects = []) : m.materialize archivedData = m := by
  rcases m with ⟨object, buffer, _, _, auxiliary, _, _, _, _, _, _⟩
  subst hpayload hobjects
  cases buffer <;> cases auxiliary <;> rfl

@[simp] theorem writes_materialize (m : DTXMessage KAValue) :
    (m.materialize archivedData).writes archivedData = m.writes archivedData := by
  simp [writes]

/-- `SerializedLength` leaves the message with its objects archived. -/
theorem serializedLength_snd (m : DTXMessage KAValue) :
    (m.serializedLength archivedData).2 = m.materialize archivedData := rfl

/-- A message is at least its payload header. -/
theorem le_serializedLength (m : DTXMessage KAValue) : 16 ≤ (m.serializedLength archivedData).1 := by
  simp only [serializedLength, kDTXMessagePayloadHeaderSize]
  split <;> omega

/-- **`SerializeTo` makes the calls `writes`**, whatever the serializer returns. -/
theorem serializeTo_eq {τ : Type} (m : DTXMessage KAValue) (serializer : Serializer τ) (s : τ) :
    m.serializeTo archivedData serializer s =
      Callback.calls serializer s (m.writes archivedData) >>= fun s =>
        pure (true, m.materialize archivedData, s) := by
  have hlength : (m.materialize archivedData).auxiliaryLength =
      (m.maybeSerializeAuxiliaryObjects archivedData).auxiliaryLength := by simp [materialize]
  have htype : (m.materialize archivedData).messageType = m.messageType := by simp [materialize]
  have hmat : (m.maybeSerializeAuxiliaryObjects archivedData).maybeSerializePayloadObject archivedData =
      m.materialize archivedData := rfl
  simp only [serializeTo, writes, pieces, hlength, htype, hmat]
  by_cases haux : 0 < (m.maybeSerializeAuxiliaryObjects archivedData).auxiliaryLength <;>
    by_cases hpayload : 0 < (m.materialize archivedData).payloadSize <;>
    simp [haux, hpayload, DTXPrimitiveArray.serializeTo_eq, Callback.calls_append]

end DTXMessage
end IDevice
