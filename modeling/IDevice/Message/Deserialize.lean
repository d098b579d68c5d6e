import IDevice.Lib.Memory
import IDevice.Message.Message

/-!
# `Message.Deserialize` — decoding a received message

`DTXMessage::Deserialize` and `DTXPrimitiveArray::Deserialize` read through a pointer, so they are
functions of a `Memory` and return the windows they read next to their result. An unknown item type
runs into `IDEVICE_ASSERT(false, ..)`: with assertions enabled the program stops there (`aborted`),
without them the loop goes on behind the type.
-/

namespace IDevice

/-- What decoding an array returns, and what it read. -/
structure ArrayDecoded where
  array : Option DTXPrimitiveArray
  aborted : Bool
  reads : List Window

/-- The same result after the reads `ws`. -/
def ArrayDecoded.after (ws : List Window) (d : ArrayDecoded) : ArrayDecoded :=
  { d with reads := ws ++ d.reads }

@[simp] theorem ArrayDecoded.after_reads (ws : List Window) (d : ArrayDecoded) :
    (d.after ws).reads = ws ++ d.reads := rfl

namespace DTXPrimitiveArray

/-- The `switch` over the item type, from behind the type on: the value to append, the next offset and
    the windows read; `none` is the `default` branch. -/
def deserializeItem (buffer : Memory) (type offset : Nat) :
    Option (Option DTXPrimitiveValue × Nat × List Window) :=
  match type with
  | 1 =>
    let length := buffer.word offset 4
    let str := buffer.after (offset + 4)
    some (some (.string (str.strncpy length)), offset + 4 + length,
      [⟨offset, 4⟩, ⟨offset + 4, str.strncpyReads length⟩])
  | 2 =>
    let length := buffer.word offset 4
    some (some (.buffer ((buffer.after (offset + 4)).bytes length)), offset + 4 + length,
      [⟨offset, 4⟩, ⟨offset + 4, length⟩])
  | 3 => some (some (.signedInt32 (UInt32.ofNat (buffer.word offset 4)).toInt32), offset + 4,
      [⟨offset, 4⟩])
  | 4 => some (some (.signedInt64 (UInt64.ofNat (buffer.word offset 8)).toInt64), offset + 8,
      [⟨offset, 8⟩])
  | 5 => some (some (.float32 (UInt32.ofNat (buffer.word offset 4))), offset + 4, [⟨offset, 4⟩])
  | 6 => some (some (.float64 (UInt64.ofNat (buffer.word offset 8))), offset + 8, [⟨offset, 8⟩])
  | 9 => some (some (.integer (UInt64.ofNat (buffer.word offset 8))), offset + 8, [⟨offset, 8⟩])
  | 10 => some (none, offset, [])  -- an empty dictionary key is ignored
  | _ => none

/-- The `while (offset < buffer_size)` loop. Every iteration moves `offset` by four bytes at least, so
    the buffer size bounds the iterations. -/
def deserializeItems (assertsEnabled : Bool) (buffer : Memory) (bufferSize : Nat) :
    Nat → Nat → List DTXPrimitiveValue → ArrayDecoded
  | 0, _, items => ⟨some { items := items }, false, []⟩
  | fuel + 1, offset, items =>
    if offset < bufferSize then
      match deserializeItem buffer (buffer.word offset 4) (offset + 4) with
      | some (value, next, reads) =>
        (deserializeItems assertsEnabled buffer bufferSize fuel next (items ++ value.toList)).after
          (⟨offset, 4⟩ :: reads)
      | none =>
        if assertsEnabled then ⟨none, true, [⟨offset, 4⟩]⟩
        else
          (deserializeItems assertsEnabled buffer bufferSize fuel (offset + 4) items).after
            [⟨offset, 4⟩]
    else ⟨some { items := items }, false, []⟩

def deserialize (assertsEnabled : Bool) (buffer : Memory) (bufferSize : Nat) : ArrayDecoded :=
  if bufferSize < kDTXPrimitiveArrayHeaderSize.toNat then ⟨none, false, []⟩
  else
    let reads := [⟨0x0, 8⟩, ⟨0x8, 8⟩]  -- `capacity` and `size`
    let size := UInt64.ofNat (buffer.word 0x8 8)
    if size + kDTXPrimitiveArrayHeaderSize ≠ UInt64.ofNat bufferSize then ⟨none, false, reads⟩
    else
      (deserializeItems assertsEnabled buffer bufferSize bufferSize
        kDTXPrimitiveArrayHeaderSize.toNat []).after reads

end DTXPrimitiveArray

/-- What decoding a message returns (`none` when an assertion failed), and what it read. -/
structure MessageDecoded (KAValue : Type) where
  message : Option (DTXMessage KAValue)
  payloadLength : UInt64
  reads : List Window

namespace DTXMessage

/-- The `aux_len` field. -/
def readAuxiliaryLength (bytes : Memory) : UInt32 := UInt32.ofNat (bytes.word 0x04 4)

/-- The `total_len` field. -/
def readTotalLength (bytes : Memory) : UInt64 := UInt64.ofNat (bytes.word 0x08 8)

/-- `DTXMessage::Deserialize`; the parameter `size` of the source is not used there either. -/
def deserialize {KAValue : Type} (unarchive : Bytes → KAValue) (assertsEnabled : Bool)
    (bytes : Memory) (_size : Nat) : MessageDecoded KAValue :=
  let messageType := UInt32.ofNat (bytes.word 0x00 4)
  let auxiliaryLength := readAuxiliaryLength bytes
  let totalLength := readTotalLength bytes
  let payloadLength := totalLength - auxiliaryLength.toUInt64
  let payloadOffset := kDTXMessagePayloadHeaderSize + auxiliaryLength.toNat
  let auxiliary :=
    if 0 < auxiliaryLength then
      DTXPrimitiveArray.deserialize assertsEnabled (bytes.after kDTXMessagePayloadHeaderSize)
        auxiliaryLength.toNat
    else ⟨none, false, []⟩
  let reads := [⟨0x00, 4⟩, ⟨0x04, 4⟩, ⟨0x08, 8⟩] ++
    auxiliary.reads.map (Window.shift kDTXMessagePayloadHeaderSize)
  if auxiliary.aborted then ⟨none, payloadLength, reads⟩
  else
    let message : DTXMessage KAValue :=
      { messageType := messageType, auxiliary := auxiliary.array, deserialized := true }
    if 0 < payloadLength then
      let payload := (bytes.after payloadOffset).bytes payloadLength.toNat
      ⟨some { message with payloadBuffer := some payload, payloadObject := some (unarchive payload) },
        payloadLength, reads ++ [⟨payloadOffset, payloadLength.toNat⟩]⟩
    else ⟨some message, payloadLength, reads⟩

end DTXMessage
end IDevice
