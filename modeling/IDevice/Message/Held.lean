import IDevice.Message.Objects

/-!
# `Message.Held` — messages as values, and who owns their payload

What the programs of `Message.Objects` are for, without a heap: a `HeldMessage` is a message as a value
(`Message.Message`) and who owns its payload buffer. Its functions are those of the value, and say which contents are
in blocks that nobody frees any more. Two things lose blocks: a payload buffer that is overwritten, or was archived
and goes with its message, and a value with a buffer that an archived object is assigned to.
-/

namespace IDevice

open LittleEndian

/-- What is in the block of a value. -/
def DTXPrimitiveValue.blocks : DTXPrimitiveValue → List Bytes
  | string str => [str ++ [0]]
  | buffer bytes => [bytes]
  | _ => []

inductive PayloadOwner where
  | nobody
  /-- The message has a copy. -/
  | copied
  | callers
  /-- The archiver has allocated it, and no one frees it. -/
  | archived
deriving DecidableEq, Repr

structure HeldMessage (KAValue : Type) where
  message : DTXMessage KAValue
  owner : PayloadOwner := .nobody
  /-- It is not destroyed. -/
  live : Bool := true

abbrev MessageLedger (γ : Type) := Ledger Bytes MessageStop γ

namespace DTXMessage

variable {KAValue : Type}

def setField (m : DTXMessage KAValue) : MessageField KAValue → DTXMessage KAValue
  | .payloadObject object => { m with payloadObject := object }
  | .costSize size => { m with costSize := size }
  | .messageType type => { m with messageType := type }
  | .identifier identifier => { m with identifier := identifier }
  | .conversationIndex index => { m with conversationIndex := index }
  | .channelCode code => { m with channelCode := code }
  | .expectsReply expects => { m with expectsReply := expects }
  | .deserialized deserialized => { m with deserialized := deserialized }

end DTXMessage

namespace HeldMessage

variable {KAValue : Type} (archivedData : KAValue → Bytes)

/-- The block behind the payload buffer. -/
def payloadBlocks (m : HeldMessage KAValue) : List Bytes :=
  match m.owner with
  | .copied | .archived => [m.message.payloadBuffer.getD []]
  | _ => []

def setField (m : HeldMessage KAValue) (field : MessageField KAValue) : HeldMessage KAValue :=
  { m with message := m.message.setField field }

def setPayloadBuffer (m : HeldMessage KAValue) (buffer : Option Bytes) (shouldCopy : Bool) :
    MessageLedger (HeldMessage KAValue) := do
  Ledger.lose m.payloadBlocks
  if shouldCopy then
    return { m with message := m.message.setPayloadBuffer (some (buffer.getD [])), owner := .copied }
  else
    return { m with message := m.message.setPayloadBuffer buffer, owner := if buffer.isSome then .callers else .nobody }

def setAuxiliary (m : HeldMessage KAValue) (auxiliary : Option DTXPrimitiveArray) : HeldMessage KAValue :=
  { m with message := { m.message with auxiliary := auxiliary } }

def appendAuxiliary (m : HeldMessage KAValue) (aux : DTXPrimitiveValue) : MessageLedger (HeldMessage KAValue) :=
  match m.message.auxiliary with
  | none => Ledger.stop .noAuxiliary
  | some _ => return { m with message := m.message.appendAuxiliary aux }

def appendAuxiliaryObject (m : HeldMessage KAValue) (aux : KAValue) : MessageLedger (HeldMessage KAValue) :=
  match m.message.auxiliary with
  | none => Ledger.stop .noAuxiliary
  | some a =>
    return { m with message :=
      if a.items.length ∈ m.message.auxiliaryObjects.map Prod.fst then m.message.appendAuxiliary .null
      else m.message.appendAuxiliaryObject aux }

/-- The values that the archived objects are assigned to lose their blocks. -/
def archiveObjects : List DTXPrimitiveValue → List (Nat × KAValue) → MessageLedger (List DTXPrimitiveValue)
  | items, [] => return items
  | items, (index, object) :: objects =>
    match items[index]? with
    | none => Ledger.stop .outOfRange
    | some v => do
      Ledger.lose v.blocks
      archiveObjects (items.set index (.buffer (archivedData object))) objects

def maybeSerializeAuxiliaryObjects (m : HeldMessage KAValue) : MessageLedger (HeldMessage KAValue) :=
  if m.message.auxiliaryObjects = [] then return m
  else
    match m.message.auxiliary with
    | none => Ledger.stop .noAuxiliary
    | some a => do
      let _ ← archiveObjects archivedData a.items m.message.auxiliaryObjects
      return { m with message := m.message.maybeSerializeAuxiliaryObjects archivedData }

def maybeSerializePayloadObject (m : HeldMessage KAValue) : HeldMessage KAValue :=
  { m with
    message := m.message.maybeSerializePayloadObject archivedData
    owner := if m.message.payloadBuffer = none ∧ m.message.payloadObject.isSome then .archived else m.owner }

def serializedLength (m : HeldMessage KAValue) : MessageLedger (Nat × HeldMessage KAValue) := do
  let length := (m.message.serializedLength archivedData).1
  let m ← m.maybeSerializeAuxiliaryObjects archivedData
  return (length, m.maybeSerializePayloadObject archivedData)

def serializeTo (m : HeldMessage KAValue) : MessageLedger (List Bytes × HeldMessage KAValue) := do
  let arguments := m.message.writes archivedData
  let m ← m.maybeSerializeAuxiliaryObjects archivedData
  return (arguments, m.maybeSerializePayloadObject archivedData)

def createWithBuffer (buffer : Option Bytes) (shouldCopy : Bool) : MessageLedger (HeldMessage KAValue) := do
  let m : HeldMessage KAValue := { message := { messageType := kDataMessageType } }
  let m ← m.setPayloadBuffer buffer shouldCopy
  return m.setAuxiliary (some {})

/-- What was read: the type, the values, a payload and its object. -/
def deserialize (read : Option (DTXMessage KAValue)) : MessageLedger (HeldMessage KAValue) :=
  match read with
  | none => Ledger.stop .unknownType
  | some m =>
    return {
      message := { messageType := m.messageType, auxiliary := m.auxiliary, payloadBuffer := m.payloadBuffer,
                   payloadObject := m.payloadObject, deserialized := true }
      owner := if m.payloadBuffer.isSome then .copied else .nobody }

/-- An archive is lost with its message. -/
def destroy (m : HeldMessage KAValue) : MessageLedger Unit := do
  Ledger.lose (if m.owner = .archived then m.payloadBlocks else [])
  return ()

end HeldMessage

section
variable {KAValue : Type} (archivedData : KAValue → Bytes) (unarchive : Bytes → KAValue) (assertsEnabled : Bool)

def MessageMaker.held : MessageMaker KAValue → MessageLedger (HeldMessage KAValue)
  | construct messageType => return { message := { messageType := messageType } }
  | createWithSelector selector => return { message := DTXMessage.createWithSelector selector }
  | createWithBuffer buffer shouldCopy => HeldMessage.createWithBuffer buffer shouldCopy
  | deserialize bytes size =>
    HeldMessage.deserialize (DTXMessage.deserialize unarchive assertsEnabled bytes size).message

def HeldMessage.update (m : HeldMessage KAValue) :
    MessageUpdate KAValue → MessageLedger (MessageAnswer × HeldMessage KAValue)
  | .setField field => return (.none, m.setField field)
  | .setPayloadBuffer buffer shouldCopy => do
    let m ← m.setPayloadBuffer buffer shouldCopy
    return (.none, m)
  | .setAuxiliary auxiliary => return (.none, m.setAuxiliary auxiliary)
  | .appendAuxiliary aux => do
    let m ← m.appendAuxiliary aux
    return (.none, m)
  | .appendAuxiliaryObject aux => do
    let m ← m.appendAuxiliaryObject aux
    return (.none, m)
  | .serializedLength => do
    let (n, m) ← m.serializedLength archivedData
    return (.length n, m)
  | .serializeTo => do
    let (arguments, m) ← m.serializeTo archivedData
    return (.calls arguments, m)

namespace MessageStore

/-- A message that is not destroyed. -/
def held (t : MessageStore (HeldMessage KAValue)) (n : Nat) : MessageLedger (HeldMessage KAValue) :=
  match t.messages[n]? with
  | some m => if m.live then return m else Ledger.stop .noMessage
  | none => Ledger.stop .noMessage

def heldCall (t : MessageStore (HeldMessage KAValue)) :
    MessageCall KAValue → MessageLedger (MessageStore (HeldMessage KAValue))
  | .make maker => do
    let m ← maker.held unarchive assertsEnabled
    return { t with messages := t.messages ++ [m] }
  | .newReply replyTo => do
    let m ← t.held replyTo
    return { t with messages := t.messages ++ [{ message := m.message.newReply }] }
  | .update n update => do
    let m ← t.held n
    let (answer, m) ← m.update archivedData update
    return { messages := t.messages.set n m, answers := t.answers ++ [answer] }
  | .destroy n => do
    let m ← t.held n
    m.destroy
    return { t with messages := t.messages.set n { m with live := false } }

def heldCallAll (t : MessageStore (HeldMessage KAValue)) :
    List (MessageCall KAValue) → MessageLedger (MessageStore (HeldMessage KAValue))
  | [] => return t
  | c :: cs => do
    let t ← t.heldCall archivedData unarchive assertsEnabled c
    t.heldCallAll cs

end MessageStore
end

end IDevice
