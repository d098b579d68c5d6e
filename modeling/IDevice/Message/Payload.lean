import IDevice.Message.Lengths

/-!
# `Message.Payload` — is the payload that is sent the one set last?

`payload_buffer_` holds the payload that was set as bytes, and it also keeps the archive of
`payload_object_` once the message has been serialized. `MaybeSerializePayloadObject` archives the object
only while there is no buffer. So `SetPayloadObject` has no effect on a message that has a buffer, and
`SetPayloadBuffer` with a null pointer leaves the object to be archived.

Reading changes nothing of what is read next (`payload_readAll`), so what counts is the state in which a
setter is called: `SetterFits` says when it takes effect.
-/

namespace IDevice

/-- The calls that set the payload. A null pointer has size 0. -/
inductive PayloadSetter (KAValue : Type) where
  | setPayloadObject (object : Option KAValue)
  | setPayloadBuffer (buffer : Option Bytes)

/-- The calls that read it. -/
inductive PayloadReader where
  | serializedLength
  | serializeTo

inductive PayloadCall (KAValue : Type) where
  | set (setter : PayloadSetter KAValue)
  | read (reader : PayloadReader)

namespace DTXMessage

variable {KAValue : Type}

def setPayloadObject (m : DTXMessage KAValue) (object : Option KAValue) : DTXMessage KAValue :=
  { m with payloadObject := object }

/-- `SetPayloadBuffer`; a copy shows the same bytes as the buffer it was made of. -/
def setPayloadBuffer (m : DTXMessage KAValue) (buffer : Option Bytes) : DTXMessage KAValue :=
  { m with payloadBuffer := buffer }

def set (m : DTXMessage KAValue) : PayloadSetter KAValue → DTXMessage KAValue
  | .setPayloadObject object => m.setPayloadObject object
  | .setPayloadBuffer buffer => m.setPayloadBuffer buffer

variable (archivedData : KAValue → Bytes)

/-- The message after it was read. -/
def read (m : DTXMessage KAValue) : PayloadReader → DTXMessage KAValue
  | .serializedLength => (m.serializedLength archivedData).2
  | .serializeTo =>
    match m.serializeTo archivedData keepBytes [] with
    | .ok (_, m, _) => m
    | .error _ => m

def call (m : DTXMessage KAValue) : PayloadCall KAValue → DTXMessage KAValue
  | .set setter => m.set setter
  | .read reader => m.read archivedData reader

/-- The message after a sequence of calls. -/
def callAll (m : DTXMessage KAValue) (calls : List (PayloadCall KAValue)) : DTXMessage KAValue :=
  calls.foldl (call archivedData) m

/-- A reader is given `payload`: `SerializeTo` emits it behind the header and the auxiliary values, and
    `SerializedLength` counts it behind them. -/
structure EmitsPayload (m : DTXMessage KAValue) (payload : Bytes) : Prop where
  emitted : ∃ m' front, m.serializeTo archivedData keepBytes [] = .ok (true, m', front ++ payload) ∧
    front.length = 16 + (m.materialize archivedData).auxiliaryBytes.length
  length : (m.serializedLength archivedData).1 =
    16 + (m.materialize archivedData).auxiliaryCount + payload.length

end DTXMessage

section Payload
variable {KAValue : Type} (archivedData : KAValue → Bytes)

/-- The payload that a setter asks for: the bytes, or the archive of the object. -/
def PayloadSetter.payload : PayloadSetter KAValue → Bytes
  | .setPayloadObject object => (object.map archivedData).getD []
  | .setPayloadBuffer buffer => buffer.getD []

/-- Whoever reads after a setter, and however often, is given the payload of that setter. -/
def PayloadIsLast (m : DTXMessage KAValue) (calls : List (PayloadCall KAValue)) : Prop :=
  ∀ before setter (readers : List PayloadReader) after,
    calls = before ++ .set setter :: (readers.map PayloadCall.read ++ after) →
    (m.callAll archivedData (before ++ .set setter :: readers.map PayloadCall.read)).EmitsPayload archivedData
      (setter.payload archivedData)

/-- The setter takes effect on a message in the state `m`: an object, if there is no buffer yet or the
    buffer is its archive, and a null buffer, if there is no object or its archive is empty. -/
def SetterFits (m : DTXMessage KAValue) : PayloadSetter KAValue → Prop
  | .setPayloadObject object =>
    m.payloadBuffer = none ∨ m.payloadBuffer.getD [] = (object.map archivedData).getD []
  | .setPayloadBuffer none => (m.payloadObject.map archivedData).getD [] = []
  | .setPayloadBuffer (some _) => True

/-- Every setter is called on a message on which it takes effect. -/
def SettersFit (m : DTXMessage KAValue) (calls : List (PayloadCall KAValue)) : Prop :=
  ∀ before setter after, calls = before ++ .set setter :: after →
    SetterFits archivedData (m.callAll archivedData before) setter

variable {archivedData} (m : DTXMessage KAValue)

/-- The payload of a message when it is read: the buffer, or the archive of the object. -/
theorem materialize_payloadBuffer : (m.materialize archivedData).payloadBuffer =
    m.payloadBuffer.or (m.payloadObject.map archivedData) := by
  unfold DTXMessage.materialize DTXMessage.maybeSerializePayloadObject
    DTXMessage.maybeSerializeAuxiliaryObjects
  cases m.payloadBuffer <;> cases m.payloadObject <;> rfl

theorem emitsPayload_iff (payload : Bytes) : m.EmitsPayload archivedData payload ↔
    (m.payloadBuffer.or (m.payloadObject.map archivedData)).getD [] = payload := by
  have hcall := m.serializeTo_keepBytes archivedData
  have hbytes := m.serialized_eq archivedData
  rw [← materialize_payloadBuffer]
  constructor
  · rintro ⟨⟨m', front, hemitted, hfront⟩, -⟩
    rw [hcall, hbytes, ← List.append_assoc] at hemitted
    have hsplit := (Prod.mk.inj (Prod.mk.inj (Except.ok.inj hemitted)).2).2
    exact (List.append_inj hsplit (by rw [hfront, List.length_append, DTXMessage.payloadHeader_length])).2
  · rintro rfl
    refine ⟨⟨m.materialize archivedData, (m.materialize archivedData).payloadHeader ++
      (m.materialize archivedData).auxiliaryBytes, ?_, ?_⟩, ?_⟩
    · rw [hcall, hbytes, List.append_assoc]
    · rw [List.length_append, DTXMessage.payloadHeader_length]
    · rw [DTXMessage.serializedLength_fst]
      rfl

/-- Reading leaves the message with its objects archived. -/
theorem read_eq (reader : PayloadReader) : m.read archivedData reader = m.materialize archivedData := by
  cases reader with
  | serializedLength => rfl
  | serializeTo =>
      rw [DTXMessage.read, m.serializeTo_keepBytes]

/-- **Reading does not change** what is read next. -/
theorem emitsPayload_readAll (readers : List PayloadReader) (payload : Bytes) :
    (m.callAll archivedData (readers.map PayloadCall.read)).EmitsPayload archivedData payload ↔
      m.EmitsPayload archivedData payload := by
  induction readers generalizing m with
  | nil => exact Iff.rfl
  | cons reader readers ih =>
      have hstep : m.callAll archivedData ((reader :: readers).map PayloadCall.read) =
          (m.materialize archivedData).callAll archivedData (readers.map PayloadCall.read) := by
        rw [← read_eq m reader]
        rfl
      rw [hstep, ih, emitsPayload_iff, emitsPayload_iff, ← materialize_payloadBuffer,
        ← materialize_payloadBuffer, DTXMessage.materialize_materialize]

/-- **A setter takes effect** exactly when it fits the state it is called in. -/
theorem emitsPayload_set_iff (setter : PayloadSetter KAValue) :
    (m.set setter).EmitsPayload archivedData (setter.payload archivedData) ↔
      SetterFits archivedData m setter := by
  rw [emitsPayload_iff]
  cases setter with
  | setPayloadObject object =>
      show (m.payloadBuffer.or (object.map archivedData)).getD [] = (object.map archivedData).getD [] ↔
        m.payloadBuffer = none ∨ m.payloadBuffer.getD [] = (object.map archivedData).getD []
      cases m.payloadBuffer <;> simp
  | setPayloadBuffer buffer =>
      cases buffer with
      | none => exact Iff.rfl
      | some bytes => exact ⟨fun _ => trivial, fun _ => rfl⟩

/-- **The payload that is sent is the one set last** exactly when every setter takes effect where it is
    called. -/
theorem payloadIsLast_iff (calls : List (PayloadCall KAValue)) :
    PayloadIsLast archivedData m calls ↔ SettersFit archivedData m calls := by
  have hsplit (before : List (PayloadCall KAValue)) (setter : PayloadSetter KAValue)
      (readers : List PayloadReader) :
      m.callAll archivedData (before ++ .set setter :: readers.map PayloadCall.read) =
        ((m.callAll archivedData before).set setter).callAll archivedData (readers.map PayloadCall.read) := by
    simp [DTXMessage.callAll, DTXMessage.call]
  constructor
  · intro h before setter after heq
    have hlast := h before setter [] after heq
    rw [hsplit, emitsPayload_readAll, emitsPayload_set_iff] at hlast
    exact hlast
  · intro h before setter readers after heq
    rw [hsplit, emitsPayload_readAll, emitsPayload_set_iff]
    exact h before setter (readers.map PayloadCall.read ++ after) heq

end Payload

/-- The length of a message is asked, and then another object is set: the archive of the first one is
    sent. -/
theorem not_payloadIsLast_lengthAsked :
    ¬ PayloadIsLast (fun byte : UInt8 => [byte]) (DTXMessage.createWithSelector 1)
      [.read .serializedLength, .set (.setPayloadObject (some 2))] := by
  intro h
  have hlast := h [.read .serializedLength] (.setPayloadObject (some 2)) [] [] rfl
  rw [emitsPayload_iff] at hlast
  exact absurd hlast (by decide)

end IDevice
