import IDevice.Lib.HeapProgram
import IDevice.Message.Deserialize
import IDevice.Message.Payload

/-!
# `Message.Objects` — messages and values as objects in memory

`DTXPrimitiveValue`, `DTXPrimitiveArray` and `DTXMessage` as the objects that they are (`dtxprimitivearray.h`,
`dtxmessage.h`): a union beside its type, pointers, and a flag that says whether a payload buffer is to be freed. The
programs here allocate, move and free as the source does; `Message.Lifetimes` says what that comes to.

Allocations succeed, and the archiver allocates what it returns. A vector reallocates when `grows` says so.
-/

namespace IDevice

open LittleEndian HeapProgram

/-- `DTXPrimitiveValue::Type`. -/
inductive PrimitiveType where
  | kNull
  | kString
  | kBuffer
  | kSignedInt32
  | kSignedInt64
  | kFloat32
  | kFloat64
  | kInteger
  | kEmptyKey
deriving DecidableEq, Repr

def PrimitiveType.toUInt32 : PrimitiveType → UInt32
  | kNull => 0
  | kString => 1
  | kBuffer => 2
  | kSignedInt32 => 3
  | kSignedInt64 => 4
  | kFloat32 => 5
  | kFloat64 => 6
  | kInteger => 9
  | kEmptyKey => 10

/-- The union: the member that was written last. -/
inductive PrimitiveData where
  | unset
  | b (block : Nat)
  | i32 (i : Int32)
  | i64 (i : Int64)
  | f (bits : UInt32)
  | d (bits : UInt64)
  | u (u : UInt64)
deriving DecidableEq, Repr

structure PrimitiveObject where
  d : PrimitiveData := .unset
  s : Nat := 0
  t : PrimitiveType := .kNull
deriving DecidableEq, Repr

/-- Why a program ends without a result. -/
inductive MessageStop where
  /-- `auxiliary_` is null. -/
  | noAuxiliary
  /-- The index of an object lies behind the end of the array. -/
  | outOfRange
  /-- `IDEVICE_ASSERT` while decoding. -/
  | unknownType
  | noMessage
deriving DecidableEq, Repr

abbrev MessageProgram (β : Type) := HeapProgram Bytes MessageStop β

/-! ## Values -/

namespace PrimitiveObject

/-- The constructors. A string is as `strncpy` leaves it, and has a zero behind it. -/
def construct : DTXPrimitiveValue → MessageProgram PrimitiveObject
  | .null => return {}
  | .string str => do
    let b ← malloc (str ++ [0])
    return ⟨.b b, str.length, .kString⟩
  | .buffer bytes => do
    let b ← malloc bytes
    return ⟨.b b, bytes.length, .kBuffer⟩
  | .signedInt32 i32 => return ⟨.i32 i32, 4, .kSignedInt32⟩
  | .signedInt64 i64 => return ⟨.i64 i64, 8, .kSignedInt64⟩
  | .float32 bits => return ⟨.f bits, 4, .kFloat32⟩
  | .float64 bits => return ⟨.d bits, 8, .kFloat64⟩
  | .integer u => return ⟨.u u, 8, .kInteger⟩
  | .emptyKey => return ⟨.unset, 0, .kEmptyKey⟩

/-- The constructor that takes over a buffer. -/
def adopt (block size : Nat) : PrimitiveObject := ⟨.b block, size, .kBuffer⟩

/-- `DTXPRIMITIVEVALUE_MOVE_VALUE`: nothing is freed. -/
def moveValue (this other : PrimitiveObject) : PrimitiveObject where
  t := other.t
  s := other.s
  d :=
    match other.t with
    | .kNull | .kEmptyKey => this.d
    | _ => other.d

/-- What a move leaves behind: the pointer is still in it. -/
def movedFrom (other : PrimitiveObject) : PrimitiveObject := { other with t := .kNull }

/-- The move constructor; the new object, and what it was moved from. -/
def moveConstruct (other : PrimitiveObject) : PrimitiveObject × PrimitiveObject := (moveValue {} other, other.movedFrom)

/-- The destructor. -/
def destroy (o : PrimitiveObject) : MessageProgram Unit :=
  match o.t with
  | .kString | .kBuffer =>
    match o.d with
    | .b block => free block
    | _ => fault
  | _ => return ()

def destroyAll : List PrimitiveObject → MessageProgram Unit
  | [] => return ()
  | o :: os => do
    o.destroy
    destroyAll os

/-- A vector moves its elements to a new place and destroys them in the old one. -/
def relocate : List PrimitiveObject → MessageProgram (List PrimitiveObject)
  | [] => return []
  | o :: os => do
    let (new, old) := o.moveConstruct
    old.destroy
    let news ← relocate os
    return new :: news

/-- `RawData()`, of which the caller takes `Size()` bytes. -/
def rawData (o : PrimitiveObject) : Bytes :=
  match o.d with
  | .i32 i => toLE 4 i.toUInt32.toNat
  | .i64 i => toLE 8 i.toUInt64.toNat
  | .f bits => toLE 4 bits.toNat
  | .d bits => toLE 8 bits.toNat
  | .u u => toLE 8 u.toNat
  | _ => []

/-- `length` bytes from the front of the buffer. -/
def readBuffer (o : PrimitiveObject) (length : Nat) : MessageProgram Bytes :=
  match o.d with
  | .b block => do
    let bytes ← read block
    if bytes.length < length then fault else return bytes.take length
  | _ => fault

end PrimitiveObject

/-! ## Arrays -/

structure ArrayObject where
  items : List PrimitiveObject := []
  asDict : Bool := true

namespace ArrayObject

/-- `emplace_back` makes room for one more. -/
def makeRoom (grows : Nat → Bool) (items : List PrimitiveObject) : MessageProgram (List PrimitiveObject) :=
  if grows items.length then PrimitiveObject.relocate items else return items

/-- `Append` of a temporary, which is constructed for it, moved from and destroyed. -/
def append (grows : Nat → Bool) (a : ArrayObject) (v : DTXPrimitiveValue) : MessageProgram ArrayObject := do
  let temporary ← PrimitiveObject.construct v
  let (new, temporary) := temporary.moveConstruct
  let items ← makeRoom grows a.items
  temporary.destroy
  return { a with items := items ++ [new] }

def appendAll (grows : Nat → Bool) : ArrayObject → List DTXPrimitiveValue → MessageProgram ArrayObject
  | a, [] => return a
  | a, v :: vs => do
    let a ← a.append grows v
    a.appendAll grows vs

/-- What one item adds in the loop of `SerializedLength`. -/
def itemLength (asDict : Bool) (o : PrimitiveObject) : Nat :=
  if o.t = .kNull then 0
  else (if asDict then 4 else 0) + 4 + (if o.t = .kBuffer ∨ o.t = .kString then 4 else 0) + o.s

def serializedLength (a : ArrayObject) : Nat :=
  if a.items ≠ [] then kDTXPrimitiveArrayHeaderSize.toNat + (a.items.map (itemLength a.asDict)).sum else 0

/-- The calls of the loop body of `SerializeTo`. -/
def serializeItem (asDict : Bool) (o : PrimitiveObject) : MessageProgram (List Bytes) :=
  if o.t = .kNull then return []
  else
    let head := (if asDict then [toLE 4 PrimitiveType.kEmptyKey.toUInt32.toNat] else []) ++ [toLE 4 o.t.toUInt32.toNat]
    if o.s = 0 then return head
    else
      match o.t with
      | .kString | .kBuffer => do
        let length := UInt32.ofNat o.s
        let bytes ← o.readBuffer length.toNat
        return head ++ [toLE 4 length.toNat, bytes]
      | .kNull | .kEmptyKey => return head
      | _ => return head ++ [o.rawData.take o.s]

def serializeItems (asDict : Bool) : List PrimitiveObject → MessageProgram (List Bytes)
  | [] => return []
  | o :: os => do
    let first ← serializeItem asDict o
    let rest ← serializeItems asDict os
    return first ++ rest

/-- The calls of `SerializeTo`. -/
def serializeTo (a : ArrayObject) : MessageProgram (List Bytes) := do
  let size := UInt64.ofNat a.serializedLength - kDTXPrimitiveArrayHeaderSize
  let capacity := memAlign (max kDTXPrimitiveArrayDefaultCapacity size) kDTXPrimitiveArrayCapacityAlignment
  let items ← serializeItems a.asDict a.items
  return toLE 8 capacity.toNat :: toLE 8 size.toNat :: items

end ArrayObject

/-! ## Messages -/

/-- `payload_buffer_`: a block of the heap, or memory of the caller. -/
inductive PayloadPointer where
  | null
  | block (b : Nat)
  | callers (bytes : Bytes)
deriving DecidableEq, Repr

structure MessageObject (KAValue : Type) where
  payloadObject : Option KAValue := none
  payloadBuffer : PayloadPointer := .null
  shouldFreePayloadBuffer : Bool := false
  costSize : Nat := 0
  payloadSize : Nat := 0
  messageType : UInt32 := 2
  auxiliary : Option ArrayObject := none
  auxiliaryObjects : List (Nat × KAValue) := []
  identifier : UInt32 := 0
  conversationIndex : UInt32 := 0
  channelCode : UInt32 := 0
  expectsReply : Bool := false
  deserialized : Bool := false

/-- The setters of the fields that own no memory. -/
inductive MessageField (KAValue : Type) where
  | payloadObject (object : Option KAValue)
  | costSize (size : Nat)
  | messageType (type : UInt32)
  | identifier (identifier : UInt32)
  | conversationIndex (index : UInt32)
  | channelCode (code : UInt32)
  | expectsReply (expects : Bool)
  | deserialized (deserialized : Bool)

namespace MessageObject

variable {KAValue : Type} (archivedData : KAValue → Bytes) (grows : Nat → Bool)

def setField (o : MessageObject KAValue) : MessageField KAValue → MessageObject KAValue
  | .payloadObject object => { o with payloadObject := object }
  | .costSize size => { o with costSize := size }
  | .messageType type => { o with messageType := type }
  | .identifier identifier => { o with identifier := identifier }
  | .conversationIndex index => { o with conversationIndex := index }
  | .channelCode code => { o with channelCode := code }
  | .expectsReply expects => { o with expectsReply := expects }
  | .deserialized deserialized => { o with deserialized := deserialized }

/-- `SetPayloadBuffer`; a null pointer has size 0. -/
def setPayloadBuffer (o : MessageObject KAValue) (buffer : Option Bytes) (shouldCopy : Bool) :
    MessageProgram (MessageObject KAValue) :=
  let o := { o with payloadSize := (buffer.getD []).length }
  if shouldCopy then do
    let b ← malloc (buffer.getD [])
    return { o with payloadBuffer := .block b, shouldFreePayloadBuffer := true }
  else
    let payloadBuffer :=
      match buffer with
      | none => .null
      | some bytes => .callers bytes
    return { o with payloadBuffer := payloadBuffer, shouldFreePayloadBuffer := false }

/-- `SetAuxiliary`; the array that was there is deleted. -/
def setAuxiliary (o : MessageObject KAValue) (auxiliary : Option ArrayObject) :
    MessageProgram (MessageObject KAValue) := do
  PrimitiveObject.destroyAll ((o.auxiliary.map ArrayObject.items).getD [])
  return { o with auxiliary := auxiliary }

/-- `AppendAuxiliary` of a primitive value. -/
def appendAuxiliary (o : MessageObject KAValue) (aux : DTXPrimitiveValue) : MessageProgram (MessageObject KAValue) :=
  match o.auxiliary with
  | none => stop .noAuxiliary
  | some a => do
    let a ← a.append grows aux
    return { o with auxiliary := some a }

/-- `AppendAuxiliary` of an object; `insert` keeps what is under an index already. -/
def appendAuxiliaryObject (o : MessageObject KAValue) (aux : KAValue) : MessageProgram (MessageObject KAValue) :=
  match o.auxiliary with
  | none => stop .noAuxiliary
  | some a => do
    let index := a.items.length
    let a ← a.append grows .null
    let auxiliaryObjects :=
      if index ∈ o.auxiliaryObjects.map Prod.fst then o.auxiliaryObjects else o.auxiliaryObjects ++ [(index, aux)]
    return { o with auxiliary := some a, auxiliaryObjects := auxiliaryObjects }

/-- The loop of `MaybeSerializeAuxiliaryObjects`: a value is assigned, and what was there is not freed. -/
def archiveObjects : List PrimitiveObject → List (Nat × KAValue) → MessageProgram (List PrimitiveObject)
  | items, [] => return items
  | items, (index, object) :: objects =>
    match items[index]? with
    | none => stop .outOfRange
    | some item => do
      let buffer ← malloc (archivedData object)
      let temporary := PrimitiveObject.adopt buffer (archivedData object).length
      temporary.movedFrom.destroy
      archiveObjects (items.set index (item.moveValue temporary)) objects

def maybeSerializeAuxiliaryObjects (o : MessageObject KAValue) : MessageProgram (MessageObject KAValue) :=
  if o.auxiliaryObjects = [] then return o
  else
    match o.auxiliary with
    | none => stop .noAuxiliary
    | some a => do
      let items ← archiveObjects archivedData a.items o.auxiliaryObjects
      return { o with auxiliary := some { a with items := items }, auxiliaryObjects := [] }

/-- The flag stays as it is. -/
def maybeSerializePayloadObject (o : MessageObject KAValue) : MessageProgram (MessageObject KAValue) :=
  match o.payloadBuffer, o.payloadObject with
  | .null, some object => do
    let b ← malloc (archivedData object)
    return { o with payloadBuffer := .block b, payloadSize := (archivedData object).length }
  | _, _ => return o

def serializedLength (o : MessageObject KAValue) : MessageProgram (Nat × MessageObject KAValue) := do
  let length := kDTXMessagePayloadHeaderSize
  let o ← o.maybeSerializeAuxiliaryObjects archivedData
  let length := length + (o.auxiliary.map ArrayObject.serializedLength).getD 0
  let o ← o.maybeSerializePayloadObject archivedData
  return (length + o.payloadSize, o)

/-- `payload_size_` bytes behind `payload_buffer_`. -/
def readPayload (o : MessageObject KAValue) : MessageProgram Bytes :=
  match o.payloadBuffer with
  | .null => fault
  | .callers bytes => if bytes.length < o.payloadSize then fault else return bytes.take o.payloadSize
  | .block b => do
    let bytes ← read b
    if bytes.length < o.payloadSize then fault else return bytes.take o.payloadSize

def serializeAuxiliary (auxiliaryLength : UInt32) (o : MessageObject KAValue) : MessageProgram (List Bytes) :=
  if 0 < auxiliaryLength then
    match o.auxiliary with
    | none => fault
    | some a => a.serializeTo
  else return []

def serializePayload (o : MessageObject KAValue) : MessageProgram (List Bytes) :=
  if 0 < o.payloadSize then do
    let bytes ← o.readPayload
    return [bytes]
  else return []

/-- The calls of `SerializeTo`. -/
def serializeTo (o : MessageObject KAValue) : MessageProgram (List Bytes × MessageObject KAValue) := do
  let messageType := o.messageType
  let o ← o.maybeSerializeAuxiliaryObjects archivedData
  let auxiliaryLength := UInt32.ofNat ((o.auxiliary.map ArrayObject.serializedLength).getD 0)
  let o ← o.maybeSerializePayloadObject archivedData
  let totalLength := auxiliaryLength.toUInt64 + UInt64.ofNat o.payloadSize
  let auxiliary ← o.serializeAuxiliary auxiliaryLength
  let payload ← o.serializePayload
  return ([toLE 4 messageType.toNat, toLE 4 auxiliaryLength.toNat, toLE 8 totalLength.toNat] ++ auxiliary ++ payload, o)

/-- The body of the destructor. -/
def freePayload (o : MessageObject KAValue) : MessageProgram Unit :=
  if o.shouldFreePayloadBuffer ∧ o.payloadBuffer ≠ .null then
    match o.payloadBuffer with
    | .block b => free b
    | _ => fault
  else return ()

/-- The destructor, and those of the members. -/
def destroy (o : MessageObject KAValue) : MessageProgram Unit := do
  o.freePayload
  PrimitiveObject.destroyAll ((o.auxiliary.map ArrayObject.items).getD [])

/-! ### The ways to make one -/

def createWithSelector (selector : KAValue) : MessageObject KAValue where
  messageType := kSelectorMessageType
  payloadObject := some selector
  auxiliary := some {}

def createWithBuffer (buffer : Option Bytes) (shouldCopy : Bool) : MessageProgram (MessageObject KAValue) := do
  let o : MessageObject KAValue := { messageType := kDataMessageType }
  let o ← o.setPayloadBuffer buffer shouldCopy
  o.setAuxiliary (some {})

def newReply (replyTo : MessageObject KAValue) : MessageObject KAValue where
  messageType := kInterruptionMessage
  channelCode := replyTo.channelCode
  identifier := replyTo.identifier
  conversationIndex := replyTo.conversationIndex + 1

/-- An array is filled with the values that were read, one after the other. -/
def buildAuxiliary (auxiliary : Option DTXPrimitiveArray) : MessageProgram (Option ArrayObject) :=
  match auxiliary with
  | none => return none
  | some array => do
    let a ← ArrayObject.appendAll grows { asDict := array.asDict } array.items
    return some a

/-- A payload that was read is copied. -/
def copyPayload (o : MessageObject KAValue) (payload : Option Bytes) : MessageProgram (MessageObject KAValue) :=
  match payload with
  | none => return o
  | some bytes => o.setPayloadBuffer (some bytes) true

/-- `Deserialize`, for what was read from the bytes. -/
def deserialize (read : Option (DTXMessage KAValue)) : MessageProgram (MessageObject KAValue) :=
  match read with
  | none => stop .unknownType
  | some m => do
    let auxiliary ← buildAuxiliary grows m.auxiliary
    let o : MessageObject KAValue := { messageType := m.messageType, auxiliary := auxiliary }
    let o ← o.copyPayload m.payloadBuffer
    return { o with payloadObject := m.payloadObject, deserialized := true }

end MessageObject

/-! ## Programs that use messages -/

/-- The ways to make a message that need no other. -/
inductive MessageMaker (KAValue : Type) where
  | construct (messageType : UInt32)
  | createWithSelector (selector : KAValue)
  | createWithBuffer (buffer : Option Bytes) (shouldCopy : Bool)
  | deserialize (bytes : Memory) (size : Nat)

/-- The calls on a message. -/
inductive MessageUpdate (KAValue : Type) where
  | setField (field : MessageField KAValue)
  | setPayloadBuffer (buffer : Option Bytes) (shouldCopy : Bool)
  | setAuxiliary (auxiliary : Option DTXPrimitiveArray)
  | appendAuxiliary (aux : DTXPrimitiveValue)
  | appendAuxiliaryObject (aux : KAValue)
  | serializedLength
  | serializeTo

/-- What a caller is given. -/
inductive MessageAnswer where
  | none
  | length (n : Nat)
  | calls (arguments : List Bytes)
deriving DecidableEq, Repr

/-- A message is known by the number of messages that were made before it. -/
inductive MessageCall (KAValue : Type) where
  | make (maker : MessageMaker KAValue)
  | newReply (replyTo : Nat)
  | update (n : Nat) (update : MessageUpdate KAValue)
  /-- The last `shared_ptr` to it goes. -/
  | destroy (n : Nat)

/-- The messages that were made, and the answers that were given. -/
structure MessageStore (μ : Type) where
  messages : List μ := []
  answers : List MessageAnswer := []

section
variable {KAValue : Type} (archivedData : KAValue → Bytes) (unarchive : Bytes → KAValue) (assertsEnabled : Bool)
  (grows : Nat → Bool)

def MessageMaker.object : MessageMaker KAValue → MessageProgram (MessageObject KAValue)
  | construct messageType => return { messageType := messageType }
  | createWithSelector selector => return MessageObject.createWithSelector selector
  | createWithBuffer buffer shouldCopy => MessageObject.createWithBuffer buffer shouldCopy
  | deserialize bytes size =>
    MessageObject.deserialize grows (DTXMessage.deserialize unarchive assertsEnabled bytes size).message

def MessageObject.update (o : MessageObject KAValue) :
    MessageUpdate KAValue → MessageProgram (MessageAnswer × MessageObject KAValue)
  | .setField field => return (.none, o.setField field)
  | .setPayloadBuffer buffer shouldCopy => do
    let o ← o.setPayloadBuffer buffer shouldCopy
    return (.none, o)
  | .setAuxiliary auxiliary => do
    let auxiliary ← MessageObject.buildAuxiliary grows auxiliary
    let o ← o.setAuxiliary auxiliary
    return (.none, o)
  | .appendAuxiliary aux => do
    let o ← o.appendAuxiliary grows aux
    return (.none, o)
  | .appendAuxiliaryObject aux => do
    let o ← o.appendAuxiliaryObject grows aux
    return (.none, o)
  | .serializedLength => do
    let (n, o) ← o.serializedLength archivedData
    return (.length n, o)
  | .serializeTo => do
    let (arguments, o) ← o.serializeTo archivedData
    return (.calls arguments, o)

namespace MessageStore

/-- The objects; `none` for one that is gone. -/
def object (s : MessageStore (Option (MessageObject KAValue))) (n : Nat) : MessageProgram (MessageObject KAValue) :=
  match s.messages[n]? with
  | some (some o) => return o
  | _ => stop .noMessage

def call (s : MessageStore (Option (MessageObject KAValue))) :
    MessageCall KAValue → MessageProgram (MessageStore (Option (MessageObject KAValue)))
  | .make maker => do
    let o ← maker.object unarchive assertsEnabled grows
    return { s with messages := s.messages ++ [some o] }
  | .newReply replyTo => do
    let o ← s.object replyTo
    return { s with messages := s.messages ++ [some o.newReply] }
  | .update n update => do
    let o ← s.object n
    let (answer, o) ← o.update archivedData grows update
    return { messages := s.messages.set n (some o), answers := s.answers ++ [answer] }
  | .destroy n => do
    let o ← s.object n
    o.destroy
    return { s with messages := s.messages.set n none }

/-- One call after the other. -/
def callAll (s : MessageStore (Option (MessageObject KAValue))) :
    List (MessageCall KAValue) → MessageProgram (MessageStore (Option (MessageObject KAValue)))
  | [] => return s
  | c :: cs => do
    let s ← s.call archivedData unarchive assertsEnabled grows c
    s.callAll cs

end MessageStore
end
end IDevice
