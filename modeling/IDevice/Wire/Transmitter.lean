import IDevice.Lib.Binary32
import IDevice.Message.Message

/-!
# `Wire.Transmitter` — `DTXMessageTransmitter`

How a message becomes fragments (`dtxmessagetransmitter.cpp`). The transmitter callback is a state
transformer with a flag. A message in several pieces goes through `Fragmenter`, the locals that the
serializer lambda captures: its buffer collects bytes until a fragment is full.

The lambda's `while` loop need not end and may copy from behind the write it is given, so it runs on
fuel and stops at the first byte that is not there (`Stop`).
-/

namespace IDevice

open LittleEndian

/-- `DTXMessageTransmitter::Transmitter`, with the state it works on. -/
abbrev Transmitter (σ : Type) := σ → Bytes → Bool × σ

/-- A transmitter as the serializer of a message. -/
def Transmitter.serializer {σ : Type} (transmitter : Transmitter σ) : Serializer σ :=
  fun s bytes => .ok (transmitter s bytes)

/-- `FragmentsForLength`, for the suggested fragment size of the transmitter. -/
def fragmentsForLength (suggestedFragmentSize : UInt32) (length : Nat) : UInt32 :=
  if kDTXMessageHeaderSize + 1 ≤ suggestedFragmentSize then
    let payloadSize := (suggestedFragmentSize - kDTXMessageHeaderSize).toNat
    UInt32.ofNat ⌈Binary32.div (Binary32.round length) (Binary32.round payloadSize)⌉₊
  else 1

/-- The local variables of the multi-fragment branch. -/
structure Fragmenter (σ : Type) where
  header : DTXMessageHeader
  buffer : Bytes
  serializedOffset : Nat
  thisFragmentLength : Nat
  sink : σ

namespace Fragmenter

variable {σ : Type} (transmitter : Transmitter σ) (fragmentLength serializedLength : Nat)

/-- `IDEVICE_TRANSMIT_FRAGMENT_IF_BUFFER_FULL`; the flag is `false` where the macro returns `false`. -/
def transmitFragmentIfBufferFull (f : Fragmenter σ) : Bool × Fragmenter σ :=
  if f.thisFragmentLength ≤ f.buffer.length then
    let header := { f.header with fragmentIndex := f.header.fragmentIndex + 1,
                                  length := UInt32.ofNat f.thisFragmentLength }
    let (ret, sink) := transmitter f.sink header.encode
    if !ret then (false, { f with header := header, sink := sink })
    else
      let (ret, sink) := transmitter sink f.buffer
      let serializedOffset := f.serializedOffset + f.buffer.length
      (ret, { header := header, buffer := [], serializedOffset := serializedOffset,
              thisFragmentLength := min fragmentLength (serializedLength - serializedOffset),
              sink := sink })
  else (true, f)

/-- `consume_size`: computed from `size` and not from `size - offset`, so the copy may leave the
    write. -/
def consumeSize (f : Fragmenter σ) (size : Nat) : Nat :=
  min (min size (f.thisFragmentLength - f.buffer.length)) f.thisFragmentLength

/-- The `while (offset < size)` loop of the serializer lambda. -/
def copyLoop (bytes : Bytes) : Nat → Nat → Fragmenter σ → Except Stop (Bool × Fragmenter σ)
  | 0, _, _ => .error .outOfFuel
  | fuel + 1, offset, f =>
    if offset < bytes.length then
      let consumeSize := f.consumeSize bytes.length
      if bytes.length < offset + consumeSize then .error .outOfBounds
      else
        let f := { f with buffer := f.buffer ++ (bytes.drop offset).take consumeSize }
        let (ret, f) := f.transmitFragmentIfBufferFull transmitter fragmentLength serializedLength
        if !ret then .ok (false, f) else copyLoop bytes fuel (offset + consumeSize) f
    else .ok (true, f)

/-- The serializer lambda of the multi-fragment branch. -/
def serializer (fuel : Nat) : Serializer (Fragmenter σ) := fun f bytes =>
  let (ret, f) := f.transmitFragmentIfBufferFull transmitter fragmentLength serializedLength
  if !ret then .ok (false, f) else copyLoop transmitter fragmentLength serializedLength bytes fuel 0 f

end Fragmenter

/-- The header that `TransmitMessage` builds. -/
def messageHeader (serializedLength : Nat) (numberOfPieces : UInt32)
    (routingInfo : DTXMessageRoutingInfo) : DTXMessageHeader where
  magic := kDTXMessageHeaderMagic
  messageHeaderSize := kDTXMessageHeaderSize
  fragmentIndex := 0
  fragmentCount := numberOfPieces.toUInt16
  length := UInt32.ofNat serializedLength
  identifier := routingInfo.msgIdentifier
  conversationIndex := routingInfo.conversationIndex
  channelCode := routingInfo.channelCode
  expectsReply := routingInfo.expectsReply

section
variable {KAValue : Type} (archivedData : KAValue → Bytes)

/-- `TransmitMessage`: the returned flag, the message with its objects archived, and the state of the
    transmitter. -/
def transmitMessage {σ : Type} (fuel : Nat) (suggestedFragmentSize : UInt32)
    (message : DTXMessage KAValue) (routingInfo : DTXMessageRoutingInfo)
    (transmitter : Transmitter σ) (sink : σ) : Except Stop (Bool × DTXMessage KAValue × σ) := do
  let (serializedLength, message) := message.serializedLength archivedData
  let numberOfPieces := fragmentsForLength suggestedFragmentSize serializedLength
  let header := messageHeader serializedLength numberOfPieces routingInfo
  if numberOfPieces = 1 then
    let (_, sink) := transmitter sink header.encode
    let (_, message, sink) ← message.serializeTo archivedData transmitter.serializer sink
    return (true, message, sink)
  else
    let (_, sink) := transmitter sink header.encode
    let fragmentLength := (suggestedFragmentSize - kDTXMessageHeaderSize).toNat
    let fragmenter : Fragmenter σ := ⟨header, [], 0, fragmentLength, sink⟩
    let (_, message, fragmenter) ← message.serializeTo archivedData
      (Fragmenter.serializer transmitter fragmentLength serializedLength fuel) fragmenter
    return (false, message, fragmenter.sink)

/-! ## The two branches -/

theorem calls_serializer {σ : Type} (transmitter : Transmitter σ) (s : σ) (ws : List Bytes) :
    Callback.calls transmitter.serializer s ws = .ok (ws.foldl (fun s w => (transmitter s w).2) s) := by
  induction ws generalizing s with
  | nil => rfl
  | cons w ws ih => exact ih (transmitter s w).2

variable {archivedData}
variable {suggestedFragmentSize : UInt32} {message : DTXMessage KAValue}

/-- In one fragment the header and the writes are handed to the transmitter, and its flags are dropped. -/
theorem transmitMessage_one {σ : Type} (fuel : Nat) (routingInfo : DTXMessageRoutingInfo)
    (transmitter : Transmitter σ) (sink : σ)
    (hone : fragmentsForLength suggestedFragmentSize (message.serializedLength archivedData).1 = 1) :
    transmitMessage archivedData fuel suggestedFragmentSize message routingInfo transmitter sink =
      .ok (true, message.materialize archivedData,
        ((messageHeader (message.serializedLength archivedData).1 1 routingInfo).encode ::
          message.writes archivedData).foldl (fun s w => (transmitter s w).2) sink) := by
  unfold transmitMessage
  simp only [DTXMessage.serializedLength_snd]
  rw [if_pos hone, hone, DTXMessage.serializeTo_eq, DTXMessage.writes_materialize, calls_serializer,
    DTXMessage.materialize_materialize, List.foldl_cons]
  simp only [bind, Except.bind, pure, Except.pure]

/-- In several fragments the writes go through the serializer lambda. -/
theorem transmitMessage_several {σ : Type} (fuel : Nat) (routingInfo : DTXMessageRoutingInfo)
    (transmitter : Transmitter σ) (sink : σ)
    (hne : fragmentsForLength suggestedFragmentSize (message.serializedLength archivedData).1 ≠ 1) :
    transmitMessage archivedData fuel suggestedFragmentSize message routingInfo transmitter sink =
      Callback.calls (Fragmenter.serializer transmitter
          (suggestedFragmentSize - kDTXMessageHeaderSize).toNat
          (message.serializedLength archivedData).1 fuel)
        ⟨messageHeader (message.serializedLength archivedData).1
          (fragmentsForLength suggestedFragmentSize (message.serializedLength archivedData).1) routingInfo,
          [], 0, (suggestedFragmentSize - kDTXMessageHeaderSize).toNat,
          (transmitter sink (messageHeader (message.serializedLength archivedData).1
            (fragmentsForLength suggestedFragmentSize (message.serializedLength archivedData).1)
            routingInfo).encode).2⟩ (message.writes archivedData) >>=
        fun f => pure (false, message.materialize archivedData, f.sink) := by
  unfold transmitMessage
  simp only [DTXMessage.serializedLength_snd]
  rw [if_neg hne, DTXMessage.serializeTo_eq, DTXMessage.writes_materialize,
    DTXMessage.materialize_materialize]
  simp only [bind_assoc, pure_bind]

end

/-- Pieces that are full except the last: `FragmentsForLength` is exact below `2 ^ 24`. -/
theorem fragmentsForLength_eq {suggestedFragmentSize : UInt32} {length k : Nat}
    (h33 : 33 ≤ suggestedFragmentSize.toNat) (hlength : length < 2 ^ 24)
    (hle : length ≤ k * (suggestedFragmentSize.toNat - 32))
    (hlt : (k - 1) * (suggestedFragmentSize.toNat - 32) < length) :
    fragmentsForLength suggestedFragmentSize length = UInt32.ofNat k := by
  have hguard : kDTXMessageHeaderSize + 1 ≤ suggestedFragmentSize := by
    rw [UInt32.le_iff_toNat_le]
    exact h33
  have hpayload : (suggestedFragmentSize - kDTXMessageHeaderSize).toNat =
      suggestedFragmentSize.toNat - 32 := by
    rw [UInt32.toNat_sub_of_le]
    · rfl
    · rw [UInt32.le_iff_toNat_le]
      exact le_trans (by decide) h33
  rw [fragmentsForLength, if_pos hguard]
  simp only [hpayload]
  rw [Binary32.ceil_round_div hlength (by omega) hle hlt]

end IDevice
