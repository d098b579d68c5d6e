import IDevice.Lib.LittleEndian

/-!
# `Wire.Header` — `DTXMessageHeader` and its 32 bytes

The header that starts every fragment (`dtxmessage.h`). On the wire it is the little-endian image of
the C struct; the parser casts a pointer into its buffer (`decode`), the transmitter hands over the
bytes of a local struct (`encode`).
-/

namespace IDevice

open LittleEndian

abbrev Bytes := List UInt8

structure DTXMessageHeader where
  magic : UInt32
  messageHeaderSize : UInt32
  fragmentIndex : UInt16
  fragmentCount : UInt16
  length : UInt32
  identifier : UInt32
  conversationIndex : UInt32
  channelCode : UInt32
  expectsReply : UInt32
deriving DecidableEq, Repr

def kDTXMessageHeaderMagic : UInt32 := 0x1F3D5B79

/-- `sizeof(DTXMessageHeader)`. -/
def kDTXMessageHeaderSize : UInt32 := 32

/-- What the send thread knows about a message besides the message itself. -/
structure DTXMessageRoutingInfo where
  msgIdentifier : UInt32
  conversationIndex : UInt32
  channelCode : UInt32
  expectsReply : UInt32
deriving DecidableEq, Repr

namespace DTXMessageHeader

/-- The bytes of the struct in memory. -/
def encode (h : DTXMessageHeader) : Bytes :=
  toLE 4 h.magic.toNat ++ toLE 4 h.messageHeaderSize.toNat ++ toLE 2 h.fragmentIndex.toNat ++
    toLE 2 h.fragmentCount.toNat ++ toLE 4 h.length.toNat ++ toLE 4 h.identifier.toNat ++
    toLE 4 h.conversationIndex.toNat ++ toLE 4 h.channelCode.toNat ++ toLE 4 h.expectsReply.toNat

/-- The struct that `(DTXMessageHeader*)ptr` shows at the front of `b`. -/
def decode (b : Bytes) : DTXMessageHeader where
  magic := UInt32.ofNat (field b 0x00 4)
  messageHeaderSize := UInt32.ofNat (field b 0x04 4)
  fragmentIndex := UInt16.ofNat (field b 0x08 2)
  fragmentCount := UInt16.ofNat (field b 0x0a 2)
  length := UInt32.ofNat (field b 0x0c 4)
  identifier := UInt32.ofNat (field b 0x10 4)
  conversationIndex := UInt32.ofNat (field b 0x14 4)
  channelCode := UInt32.ofNat (field b 0x18 4)
  expectsReply := UInt32.ofNat (field b 0x1c 4)

@[simp] theorem encode_length (h : DTXMessageHeader) : h.encode.length = 32 := by
  simp [encode]

/-- A complete header is the same whatever follows it. -/
theorem decode_append {b : Bytes} (h : 32 ≤ b.length) (c : Bytes) : decode (b ++ c) = decode b := by
  unfold decode
  simp (disch := omega) only [field_append]

/-- The header is read back from the bytes the transmitter sent, whatever follows them. -/
theorem decode_encode (h : DTXMessageHeader) (c : Bytes) : decode (h.encode ++ c) = h := by
  rw [decode_append (by simp)]
  have h32 (x : UInt32) : x.toNat < 256 ^ 4 := x.toNat_lt
  have h16 (x : UInt16) : x.toNat < 256 ^ 2 := x.toNat_lt
  have skip {w n off v : Nat} (b : Bytes) (hw : w ≤ off) :
      field (toLE w n ++ b) off v = field b (off - w) v := by
    have := field_skip (toLE w n) b (off - w) v
    rwa [toLE_length, Nat.add_sub_cancel' hw] at this
  cases h
  simp only [encode, decode, List.append_assoc, DTXMessageHeader.mk.injEq]
  simp (disch := first | omega | apply h32 | apply h16) [skip, field_toLE]
  rw [← List.append_nil (toLE 4 _), field_toLE (h32 _)]
  simp

end DTXMessageHeader
end IDevice
