import IDevice.Transport.SendThread
import IDevice.Utils.ByteBuffer

/-!
# `Transport.MemorySender` — the send thread over its memory

`SendThread` once more, as it works on memory. The write buffer is one block of 8 KiB, which `malloc` hands out with
anything in it, and which every message finds as the one before has left it. The fragment that is collected is a
`ByteBuffer`, whose vector may throw. Offsets and lengths are `size_t`, and their sums and differences wrap.

`sendThread` (`Transport.SendThread`) is what it is for: it has lists in place of both buffers. `sendThread_refines`
says that the one does what the other does.
-/

namespace IDevice

open Callback

/-- How the send thread ends that does not return: as over lists, or with a fault of its memory. -/
inductive SendFault where
  | stop (s : Stop)
  | memory (fault : MemoryFault)
deriving DecidableEq, Repr

/-- The write buffer; `block` is what `buffer_` points to. -/
structure MemoryTransport where
  block : Bytes
  bufferUsed : UInt64 := 0
  sends : List TransportSend := []

namespace MemoryTransport

variable (accepts : Nat → Bool) (bufferSize : UInt64)

def flush (b : MemoryTransport) : Except SendFault (Bool × MemoryTransport) :=
  if b.bufferUsed = 0 then .ok (true, b)
  else if b.block.length < b.bufferUsed.toNat then .error (.memory .overrun)
  else
    let (ret, sends) := transportSend accepts b.sends (b.block.take b.bufferUsed.toNat)
    .ok (ret, { b with bufferUsed := 0, sends := sends })

/-- `memcpy(buffer_ + buffer_used_, data + offset, len)`. -/
def memcpy (b : MemoryTransport) (data : Bytes) (offset len : UInt64) : Except SendFault MemoryTransport :=
  if data.length < offset.toNat + len.toNat ∨ b.block.length < b.bufferUsed.toNat + len.toNat then
    .error (.memory .overrun)
  else
    let copied := (data.drop offset.toNat).take len.toNat
    .ok { b with block := SparseFile.overlay b.block b.bufferUsed.toNat copied }

/-- The `while (offset < size)` loop. -/
def sendLoop (data : Bytes) : Nat → MemoryTransport → UInt64 → Except SendFault (Bool × MemoryTransport)
  | 0, _, _ => .error (.stop .outOfFuel)
  | fuel + 1, b, offset =>
    let size := UInt64.ofNat data.length
    if offset < size then do
      let len := min (bufferSize - b.bufferUsed) (size - offset)
      let b ← b.memcpy data offset len
      let offset := offset + len
      let b := { b with bufferUsed := b.bufferUsed + len }
      if bufferSize ≤ b.bufferUsed then
        let (ret, b) ← b.flush accepts
        if !ret then .ok (false, b) else sendLoop data fuel b offset
      else sendLoop data fuel b offset
    else .ok (true, b)

/-- `Send`. Every iteration of its loop takes a byte, so the length of the data bounds them. -/
def send (b : MemoryTransport) (data : Bytes) : Except SendFault (Bool × MemoryTransport) :=
  if bufferSize ≤ UInt64.ofNat data.length then do
    let (ret, b) ← b.flush accepts
    if !ret then .ok (false, b)
    else
      let (ret, sends) := transportSend accepts b.sends data
      .ok (ret, { b with sends := sends })
  else sendLoop accepts bufferSize data (data.length + 1) b 0

/-- The destructor. -/
def destroy (b : MemoryTransport) : Except SendFault MemoryTransport :=
  if bufferSize ≤ b.bufferUsed then (b.flush accepts).map Prod.snd else .ok b

end MemoryTransport

/-- The local variables of the multi-fragment branch of `TransmitMessage`. -/
structure MemoryFragmenter (τ : Type) where
  header : DTXMessageHeader
  buffer : ByteBuffer
  serializedOffset : UInt64
  thisFragmentLength : UInt64
  sink : τ

namespace MemoryFragmenter

variable {τ : Type} (transmitter : Callback SendFault τ Bytes) (fragmentLength serializedLength : UInt64)

/-- `IDEVICE_TRANSMIT_FRAGMENT_IF_BUFFER_FULL`. -/
def transmitFragmentIfBufferFull (f : MemoryFragmenter τ) : Except SendFault (Bool × MemoryFragmenter τ) :=
  if f.thisFragmentLength ≤ f.buffer.size then do
    let header := { f.header with fragmentIndex := f.header.fragmentIndex + 1,
                                  length := f.thisFragmentLength.toUInt32 }
    let (ret, sink) ← transmitter f.sink header.encode
    if !ret then .ok (false, { f with header := header, sink := sink })
    else
      let (ret, sink) ← transmitter sink f.buffer.buffer
      let serializedOffset := f.serializedOffset + f.buffer.size
      let buffer ← (f.buffer.resize 0).mapError .memory
      .ok (ret, { header := header, buffer := buffer, serializedOffset := serializedOffset,
                  thisFragmentLength := min fragmentLength (serializedLength - serializedOffset),
                  sink := sink })
  else .ok (true, f)

def consumeSize (f : MemoryFragmenter τ) (size : UInt64) : UInt64 :=
  min (min size (f.thisFragmentLength - f.buffer.size)) f.thisFragmentLength

/-- The `while (offset < size)` loop of the serializer lambda. Nobody looks at what `Append` returns. -/
def copyLoop (bytes : Bytes) : Nat → UInt64 → MemoryFragmenter τ →
    Except SendFault (Bool × MemoryFragmenter τ)
  | 0, _, _ => .error (.stop .outOfFuel)
  | fuel + 1, offset, f =>
    let size := UInt64.ofNat bytes.length
    if offset < size then
      let consumeSize := f.consumeSize size
      if bytes.length < offset.toNat + consumeSize.toNat then .error (.stop .outOfBounds)
      else do
        let (_, buffer) ←
          (f.buffer.append (Memory.ofBytes (bytes.drop offset.toNat)) consumeSize 0).mapError .memory
        let (ret, f) ← transmitFragmentIfBufferFull transmitter fragmentLength serializedLength
          { f with buffer := buffer }
        if !ret then .ok (false, f) else copyLoop bytes fuel (offset + consumeSize) f
    else .ok (true, f)

/-- The serializer lambda of the multi-fragment branch. -/
def serializer (fuel : Nat) : Callback SendFault (MemoryFragmenter τ) Bytes := fun f bytes => do
  let (ret, f) ← f.transmitFragmentIfBufferFull transmitter fragmentLength serializedLength
  if !ret then .ok (false, f)
  else copyLoop transmitter fragmentLength serializedLength bytes fuel 0 f

end MemoryFragmenter

namespace MemorySender

variable {KAValue : Type} (archivedData : KAValue → Bytes)

/-- `TransmitMessage`; `SerializeTo` makes the calls `writes` (`DTXMessage.serializeTo_eq`). -/
def transmitMessage {τ : Type} (fuel : Nat) (suggestedFragmentSize : UInt32) (message : DTXMessage KAValue)
    (routingInfo : DTXMessageRoutingInfo) (transmitter : Callback SendFault τ Bytes) (sink : τ) :
    Except SendFault (Bool × DTXMessage KAValue × τ) := do
  let (length, message) := message.serializedLength archivedData
  let serializedLength := UInt64.ofNat length
  let numberOfPieces := fragmentsForLength suggestedFragmentSize serializedLength.toNat
  let header := messageHeader serializedLength.toNat numberOfPieces routingInfo
  let (_, sink) ← transmitter sink header.encode
  if numberOfPieces = 1 then
    let sink ← Callback.calls transmitter sink (message.writes archivedData)
    return (true, message.materialize archivedData, sink)
  else
    let fragmentLength := (suggestedFragmentSize - kDTXMessageHeaderSize).toUInt64
    let fragmenter : MemoryFragmenter τ := ⟨header, .empty, 0, fragmentLength, sink⟩
    let fragmenter ← Callback.calls
      (MemoryFragmenter.serializer transmitter fragmentLength serializedLength fuel) fragmenter
      (message.writes archivedData)
    return (false, message.materialize archivedData, fragmenter.sink)

/-- The body of the loop of `SendThread`, and what is in `send_buffer` behind it. -/
def sendRound (fuel : Nat) (accepts : Nat → Bool) (sendBuffer : Bytes) (message : DTXMessage KAValue)
    (routingInfo : DTXMessageRoutingInfo) : Except SendFault (SendRound × Bytes) := do
  let size := UInt64.ofNat sendBufferSize
  let (ret, _, bufferedTransport) ← transmitMessage archivedData fuel outgoingFragmentSize message routingInfo
    (MemoryTransport.send accepts size) { block := sendBuffer }
  let (_, bufferedTransport) ← bufferedTransport.flush accepts
  let bufferedTransport ← bufferedTransport.destroy accepts size
  return (⟨ret, bufferedTransport.sends⟩, bufferedTransport.block)

/-- The loop of `SendThread`. -/
def sendThread (fuel : Nat) : (Nat → Bool) → Bytes → List (DTXMessage KAValue × DTXMessageRoutingInfo) →
    Except SendFault (List SendRound)
  | _, _, [] => return []
  | accepts, sendBuffer, (message, routingInfo) :: queue => do
    let (round, sendBuffer) ← sendRound archivedData fuel accepts sendBuffer message routingInfo
    if !round.ret then return [round]
    else
      let rounds ← sendThread fuel (fun i => accepts (round.sends.length + i)) sendBuffer queue
      return round :: rounds

end MemorySender

theorem toNat_min (a b : UInt64) : (min a b).toNat = min a.toNat b.toNat := by
  by_cases h : a ≤ b
  · have hle := UInt64.le_iff_toNat_le.mp h
    rw [show min a b = a from if_pos h, Nat.min_eq_left hle]
  · have hlt := mt UInt64.le_iff_toNat_le.mpr h
    rw [show min a b = b from if_neg h, Nat.min_eq_right (by omega)]

/-! ## The write buffer -/

namespace MemoryTransport

variable {accepts : Nat → Bool} {bufferSize : UInt64}

/-- The block holds the buffer. What is behind it in the block does not matter. -/
structure Holds (m : MemoryTransport) (b : BufferedDTXTransport bufferSize.toNat) : Prop where
  block : m.block.length = bufferSize.toNat
  used : m.bufferUsed.toNat = b.buffer.length
  contents : m.block.take b.buffer.length = b.buffer
  sends : m.sends = b.sends

/-- The same between the calls, where the buffer has room for another byte. -/
structure Shows (m : MemoryTransport) (b : BufferedDTXTransport bufferSize.toNat) : Prop extends m.Holds b where
  room : b.buffer.length < bufferSize.toNat

/-- A block with anything in it shows the empty buffer. -/
theorem shows_create (hsize : 0 < bufferSize.toNat) {block : Bytes} (hblock : block.length = bufferSize.toNat) :
    Shows { block := block } (BufferedDTXTransport.create : BufferedDTXTransport bufferSize.toNat) :=
  ⟨⟨hblock, rfl, rfl, rfl⟩, hsize⟩

/-- **`Flush`** sends what the list has, also when the buffer is full. -/
theorem Holds.flush {m : MemoryTransport} {b : BufferedDTXTransport bufferSize.toNat} (h : m.Holds b)
    (accepts : Nat → Bool) (hsize : 0 < bufferSize.toNat) :
    ∃ m', m.flush accepts = .ok ((b.flush accepts).1, m') ∧ m'.Shows (b.flush accepts).2 := by
  have hle := b.used_le
  have hblock := h.block
  have hused := h.used
  by_cases hempty : b.buffer.length = 0
  · have hzero : m.bufferUsed = 0 := UInt64.toNat_inj.mp (hused.trans hempty)
    refine ⟨m, ?_, ?_⟩
    · rw [MemoryTransport.flush, if_pos hzero, BufferedDTXTransport.flush, if_pos hempty]
    · rw [BufferedDTXTransport.flush, if_pos hempty]
      exact ⟨h, hempty ▸ hsize⟩
  · have hpos : m.bufferUsed ≠ 0 := by
      intro hzero
      rw [hzero] at hused
      exact hempty hused.symm
    refine ⟨{ m with bufferUsed := 0, sends := (transportSend accepts b.sends b.buffer).2 }, ?_, ?_⟩
    · rw [MemoryTransport.flush, if_neg hpos, if_neg (show ¬ m.block.length < m.bufferUsed.toNat by omega),
        BufferedDTXTransport.flush, if_neg hempty, hused, h.contents, h.sends]
    · rw [BufferedDTXTransport.flush, if_neg hempty]
      exact ⟨⟨hblock, rfl, rfl, rfl⟩, hsize⟩

/-- How much is copied: no difference wraps. -/
theorem Shows.toNat_len {m : MemoryTransport} {b : BufferedDTXTransport bufferSize.toNat} (h : m.Shows b)
    {data : Bytes} (hdata : data.length < 2 ^ 64) {offset : UInt64} (hoffset : offset.toNat ≤ data.length) :
    (min (bufferSize - m.bufferUsed) (UInt64.ofNat data.length - offset)).toNat =
      min (bufferSize.toNat - b.buffer.length) (data.drop offset.toNat).length := by
  have hlength : (UInt64.ofNat data.length).toNat = data.length := UInt64.toNat_ofNat_of_lt' hdata
  have hroom := h.room
  have hused := h.used
  rw [toNat_min, UInt64.toNat_sub_of_le, UInt64.toNat_sub_of_le, hlength, hused, List.length_drop]
  · rw [UInt64.le_iff_toNat_le, hlength]
    exact hoffset
  · rw [UInt64.le_iff_toNat_le]
    omega

/-- **One copy** stays in the block and shows the list with what is copied behind it. -/
theorem Shows.memcpy {m : MemoryTransport} {b : BufferedDTXTransport bufferSize.toNat} (h : m.Shows b) {data : Bytes}
    {offset len : UInt64} (hoffset : offset.toNat ≤ data.length)
    (hlen : len.toNat = min (bufferSize.toNat - b.buffer.length) (data.drop offset.toNat).length) :
    ∃ block, m.memcpy data offset len = .ok { m with block := block } ∧ block.length = bufferSize.toNat ∧
      block.take (b.copyIn (data.drop offset.toNat)).buffer.length = (b.copyIn (data.drop offset.toNat)).buffer := by
  have hroom := h.room
  have hused := h.used
  have hblock := h.block
  have hrest := List.length_drop (l := data) (i := offset.toNat)
  have hcopied : ((data.drop offset.toNat).take len.toNat).length = len.toNat := by
    rw [List.length_take]
    omega
  refine ⟨SparseFile.overlay m.block m.bufferUsed.toNat ((data.drop offset.toNat).take len.toNat), ?_, ?_, ?_⟩
  · rw [MemoryTransport.memcpy, if_neg]
    omega
  · rw [SparseFile.overlay_length, hblock]
    omega
  · have hbuffer : (b.copyIn (data.drop offset.toNat)).buffer =
        b.buffer ++ (data.drop offset.toNat).take len.toNat := by
      rw [hlen]
      rfl
    rw [hbuffer, List.length_append, ← hused, SparseFile.take_overlay (by omega), hused, h.contents]

/-- **The loop** over what is behind `offset`. -/
theorem sendLoop_shows (hsize : 0 < bufferSize.toNat) {data : Bytes} (hdata : data.length < 2 ^ 64) (fuel : Nat)
    {m : MemoryTransport} {b : BufferedDTXTransport bufferSize.toNat} (h : m.Shows b) {offset : UInt64}
    (hoffset : offset.toNat ≤ data.length) (hfuel : data.length - offset.toNat < fuel) :
    ∃ m', sendLoop accepts bufferSize data fuel m offset =
        .ok ((b.sendLoop accepts hsize (data.drop offset.toNat)).1, m') ∧
      m'.Shows (b.sendLoop accepts hsize (data.drop offset.toNat)).2 := by
  induction fuel generalizing m b offset with
  | zero => exact absurd hfuel (Nat.not_lt_zero _)
  | succ fuel ih =>
      have hlength : (UInt64.ofNat data.length).toNat = data.length := UInt64.toNat_ofNat_of_lt' hdata
      have hrest := List.length_drop (l := data) (i := offset.toNat)
      rw [sendLoop, BufferedDTXTransport.sendLoop]
      by_cases hend : (data.drop offset.toNat).length = 0
      · have hstop : ¬ offset < UInt64.ofNat data.length := by
          rw [UInt64.lt_iff_toNat_lt, hlength]
          omega
        simp only [if_neg hstop, dif_pos hend]
        exact ⟨m, rfl, h⟩
      have hgo : offset < UInt64.ofNat data.length := by
        rw [UInt64.lt_iff_toNat_lt, hlength]
        omega
      simp only [if_pos hgo, dif_neg hend]
      have hlen := h.toNat_len hdata hoffset
      generalize min (bufferSize - m.bufferUsed) (UInt64.ofNat data.length - offset) = len at hlen ⊢
      obtain ⟨block, hcopy, hblock, hcontents⟩ := h.memcpy hoffset hlen
      have hroom := h.room
      have hused := h.used
      have hbound := bufferSize.toNat_lt
      have hoffset' : (offset + len).toNat = offset.toNat + len.toNat := by
        rw [UInt64.toNat_add, Nat.mod_eq_of_lt]
        omega
      have hused' : (m.bufferUsed + len).toNat = (b.copyIn (data.drop offset.toNat)).buffer.length := by
        rw [UInt64.toNat_add, Nat.mod_eq_of_lt (by omega), BufferedDTXTransport.copyIn, List.length_append,
          List.length_take]
        omega
      have hholds : Holds { m with block := block, bufferUsed := m.bufferUsed + len }
          (b.copyIn (data.drop offset.toNat)) := ⟨hblock, hused', hcontents, h.sends⟩
      have hdrop : (data.drop offset.toNat).drop (min (bufferSize.toNat - b.buffer.length)
          (data.drop offset.toNat).length) = data.drop (offset + len).toNat := by
        rw [← hlen, List.drop_drop, hoffset']
      rw [hcopy]
      simp only [hdrop, bind, Except.bind]
      -- the loop goes on behind the copy, with an empty buffer if the copy has filled it
      by_cases hfull : bufferSize.toNat ≤ (b.copyIn (data.drop offset.toNat)).buffer.length
      · obtain ⟨m', hflushed, hm'⟩ := hholds.flush accepts hsize
        rw [if_pos (UInt64.le_iff_toNat_le.mpr (by rw [hused']; exact hfull)), dif_pos hfull, hflushed]
        cases hret : ((b.copyIn (data.drop offset.toNat)).flush accepts).1 with
        | false => exact ⟨m', rfl, hm'⟩
        | true => exact ih hm' (by omega) (by omega)
      · have hopen : ¬ bufferSize ≤ m.bufferUsed + len := by
          rw [UInt64.le_iff_toNat_le, hused']
          exact hfull
        rw [if_neg hopen, dif_neg hfull]
        have hshows : Shows _ _ := ⟨hholds, Nat.lt_of_not_le hfull⟩
        exact ih hshows (by omega) (by omega)

/-- **`Send`.** -/
theorem send_shows {m : MemoryTransport} {b : BufferedDTXTransport bufferSize.toNat} (h : m.Shows b) {data : Bytes}
    (hdata : data.length < 2 ^ 64) :
    ∃ m', m.send accepts bufferSize data = .ok ((b.send accepts data).1, m') ∧ m'.Shows (b.send accepts data).2 := by
  have hlength : (UInt64.ofNat data.length).toNat = data.length := UInt64.toNat_ofNat_of_lt' hdata
  have hsize : 0 < bufferSize.toNat := Nat.zero_lt_of_lt h.room
  unfold send BufferedDTXTransport.send
  by_cases hlarge : bufferSize.toNat ≤ data.length
  · have hlarge' : bufferSize ≤ UInt64.ofNat data.length := by
      rw [UInt64.le_iff_toNat_le, hlength]
      exact hlarge
    rw [if_pos hlarge', dif_pos hlarge]
    obtain ⟨m', hflush, hm'⟩ := h.flush accepts hsize
    rw [hflush]
    generalize b.flush accepts = flushed at hm' ⊢
    obtain ⟨ret, b₁⟩ := flushed
    cases ret with
    | false => exact ⟨m', rfl, hm'⟩
    | true =>
        refine ⟨{ m' with sends := (transportSend accepts b₁.sends data).2 }, ?_, ?_⟩
        · have hsends : m'.sends = b₁.sends := hm'.sends
          show Except.ok ((transportSend accepts m'.sends data).1,
              { m' with sends := (transportSend accepts m'.sends data).2 }) = .ok (_, _)
          rw [hsends]
          rfl
        · exact ⟨⟨hm'.block, hm'.used, hm'.contents, rfl⟩, hm'.room⟩
  · have hsmall : ¬ bufferSize ≤ UInt64.ofNat data.length := by
      rw [UInt64.le_iff_toNat_le, hlength]
      exact hlarge
    rw [if_neg hsmall, dif_neg hlarge]
    exact sendLoop_shows hsize hdata _ h (Nat.zero_le _) (Nat.lt_succ_self _)

/-- The destructor finds room in the buffer, and does nothing. -/
theorem Shows.destroy {m : MemoryTransport} {b : BufferedDTXTransport bufferSize.toNat} (h : m.Shows b)
    (accepts : Nat → Bool) : m.destroy accepts bufferSize = .ok m := by
  have hroom := h.room
  rw [MemoryTransport.destroy, if_neg]
  rw [UInt64.le_iff_toNat_le, h.used]
  exact Nat.not_le.mpr hroom

end MemoryTransport

/-! ## The fragments -/

/-- A transmitter that works on memory does what another one does, for all that a `size_t` can count. -/
def Simulates {τ σ : Type} (S : τ → σ → Prop) (transmitter' : Callback SendFault τ Bytes)
    (transmitter : Transmitter σ) : Prop :=
  ∀ t s bytes, S t s → bytes.length < 2 ^ 64 →
    ∃ t', transmitter' t bytes = .ok ((transmitter s bytes).1, t') ∧ S t' (transmitter s bytes).2

namespace MemoryFragmenter

variable {τ σ : Type} {S : τ → σ → Prop} {transmitter' : Callback SendFault τ Bytes} {transmitter : Transmitter σ}
  {D L : UInt64} {m : MemoryFragmenter τ} {f : Fragmenter σ}

/-- The locals show those over lists. The piece that is collected lies inside of the message, so that no sum wraps
    and no difference. -/
structure Shows (S : τ → σ → Prop) (D L : UInt64) (m : MemoryFragmenter τ) (f : Fragmenter σ) : Prop where
  header : m.header = f.header
  buffer : m.buffer.buffer = f.buffer
  offset : m.serializedOffset.toNat = f.serializedOffset
  next : m.thisFragmentLength.toNat = f.thisFragmentLength
  sink : S m.sink f.sink
  room : f.buffer.length ≤ f.thisFragmentLength
  short : f.thisFragmentLength ≤ D.toNat
  inside : f.serializedOffset + f.thisFragmentLength ≤ L.toNat

theorem Shows.size (h : Shows S D L m f) : m.buffer.size.toNat = f.buffer.length := by
  rw [ByteBuffer.toNat_size, h.buffer]

theorem Shows.fragmentHeader (h : Shows S D L m f) :
    { m.header with fragmentIndex := m.header.fragmentIndex + 1, length := m.thisFragmentLength.toUInt32 } =
      f.fragmentHeader := by
  rw [Fragmenter.fragmentHeader, h.header, ← h.next]
  rfl

/-- Nothing is collected yet, of a message that is longer than a piece. -/
theorem shows_init (header : DTXMessageHeader) {t : τ} {s : σ} (hsink : S t s) (hle : D.toNat ≤ L.toNat) :
    Shows S D L ⟨header, .empty, 0, D, t⟩ ⟨header, [], 0, D.toNat, s⟩ := by
  refine ⟨rfl, rfl, rfl, rfl, hsink, Nat.zero_le _, le_refl _, ?_⟩
  show 0 + D.toNat ≤ L.toNat
  omega

/-- The length of the next piece: the offset is not behind the end. -/
theorem Shows.toNat_next (h : Shows S D L m f) :
    (m.serializedOffset + m.buffer.size).toNat = f.serializedOffset + f.buffer.length ∧
      (min D (L - (m.serializedOffset + m.buffer.size))).toNat =
        min D.toNat (L.toNat - (f.serializedOffset + f.buffer.length)) := by
  have hroom := h.room
  have hinside := h.inside
  have hoffset := h.offset
  have hsize := h.size
  have hlt := L.toNat_lt
  have hsum : (m.serializedOffset + m.buffer.size).toNat = f.serializedOffset + f.buffer.length := by
    rw [UInt64.toNat_add, Nat.mod_eq_of_lt (by omega)]
    omega
  refine ⟨hsum, ?_⟩
  rw [toNat_min, UInt64.toNat_sub_of_le, hsum]
  rw [UInt64.le_iff_toNat_le, hsum]
  omega

/-- **The macro.** -/
theorem macro_shows (hT : Simulates S transmitter' transmitter) (h : Shows S D L m f) :
    ∃ m', m.transmitFragmentIfBufferFull transmitter' D L =
        .ok ((f.transmitFragmentIfBufferFull transmitter D.toNat L.toNat).1, m') ∧
      Shows S D L m' (f.transmitFragmentIfBufferFull transmitter D.toNat L.toNat).2 := by
  have hroom := h.room
  have hinside := h.inside
  have hlt := L.toNat_lt
  have hdue : m.thisFragmentLength ≤ m.buffer.size ↔ f.thisFragmentLength ≤ f.buffer.length := by
    rw [UInt64.le_iff_toNat_le, h.next, h.size]
  unfold transmitFragmentIfBufferFull
  by_cases hfull : f.thisFragmentLength ≤ f.buffer.length
  · rw [if_pos (hdue.mpr hfull), Fragmenter.transmitFragmentIfBufferFull_due transmitter _ _ hfull]
    simp only [h.fragmentHeader]
    obtain ⟨t₁, hfirst, ht₁⟩ := hT m.sink f.sink f.fragmentHeader.encode h.sink (by
      rw [DTXMessageHeader.encode_length]
      decide)
    rw [hfirst]
    cases hret : (transmitter f.sink f.fragmentHeader.encode).1 with
    | false =>
        refine ⟨{ m with header := f.fragmentHeader, sink := t₁ }, rfl, ?_⟩
        exact ⟨rfl, h.buffer, h.offset, h.next, ht₁, hroom, h.short, hinside⟩
    | true =>
        -- the buffer is sent as it is, and is empty behind that
        obtain ⟨t₂, hsecond, ht₂⟩ := hT t₁ _ f.buffer ht₁ (by omega)
        obtain ⟨buffer, hresize, hempty⟩ := m.buffer.resize_ok (n := 0) (Nat.zero_le _)
        obtain ⟨hsum, hnext⟩ := h.toNat_next
        refine ⟨⟨f.fragmentHeader, buffer, m.serializedOffset + m.buffer.size,
          min D (L - (m.serializedOffset + m.buffer.size)), t₂⟩, ?_, ?_⟩
        · simp only [h.buffer, hsecond, hresize, bind, Except.bind, Except.mapError, Bool.not_true,
            Bool.false_eq_true, if_false, if_true]
        · refine ⟨rfl, ?_, hsum, hnext, ht₂, Nat.zero_le _, Nat.min_le_left _ _, ?_⟩
          · rw [hempty]
            exact List.length_eq_zero_iff.mp (SparseFile.resized_length _ _)
          · show f.serializedOffset + f.buffer.length + min D.toNat _ ≤ L.toNat
            omega
  · rw [if_neg (mt hdue.mp hfull), Fragmenter.transmitFragmentIfBufferFull_open transmitter _ _ (not_le.mp hfull)]
    exact ⟨m, rfl, h⟩

theorem Shows.toNat_consumeSize (h : Shows S D L m f) {size : UInt64} :
    (m.consumeSize size).toNat = f.consumeSize size.toNat := by
  have hle : m.buffer.size ≤ m.thisFragmentLength := by
    rw [UInt64.le_iff_toNat_le, h.next, h.size]
    exact h.room
  rw [consumeSize, toNat_min, toNat_min, UInt64.toNat_sub_of_le _ _ hle, h.next,
    h.size]
  rfl

/-- **A chunk that is appended** leaves the buffer no longer than the piece, and the vector has room for that. -/
theorem Shows.append (h : Shows S D L m f) (hD : D.toNat < 2 ^ 32) {bytes : Bytes} {offset consumeSize : UInt64}
    (hconsume : consumeSize.toNat = f.consumeSize bytes.length)
    (hin : offset.toNat + f.consumeSize bytes.length ≤ bytes.length) :
    ∃ flag buffer, m.buffer.append (Memory.ofBytes (bytes.drop offset.toNat)) consumeSize 0 = .ok (flag, buffer) ∧
      Shows S D L { m with buffer := buffer } (f.copied bytes offset.toNat) := by
  have hshort := h.short
  have hroom := h.room
  have hbuffer : m.buffer.buffer.length = f.buffer.length := congrArg List.length h.buffer
  have hchunk : f.consumeSize bytes.length ≤ f.thisFragmentLength - f.buffer.length := by
    unfold Fragmenter.consumeSize
    omega
  have hmax : vectorMaxSize = 2 ^ 63 - 1 := rfl
  have hfits : ByteBuffer.extent m.buffer.file
      (.append (Memory.ofBytes (bytes.drop offset.toNat)) consumeSize 0) ≤ vectorMaxSize := by
    rw [ByteBuffer.extent, ByteBuffer.size_file]
    split <;> omega
  obtain ⟨flag, buffer, happend, happended⟩ := ByteBuffer.append_ok hfits
  refine ⟨flag, buffer, happend, h.header, ?_, h.offset, h.next, h.sink, ?_, h.short, h.inside⟩
  · rw [happended, h.buffer, Memory.bytes_ofBytes, hconsume]
    · rfl
    · rw [List.length_drop]
      omega
  · rw [Fragmenter.copied_length hin]
    show _ ≤ f.thisFragmentLength
    omega

/-- **The loop**, which may also run out of fuel or leave the write, and then both do. -/
theorem copyLoop_sameEnd (hT : Simulates S transmitter' transmitter) (hD : D.toNat < 2 ^ 32) {bytes : Bytes}
    (hbytes : bytes.length < 2 ^ 64) (fuel : Nat) {offset : UInt64} (h : Shows S D L m f) :
    SameEnd SendFault.stop (fun r' r => r'.1 = r.1 ∧ Shows S D L r'.2 r.2)
      (copyLoop transmitter' D L bytes fuel offset m)
      (f.copyLoop transmitter D.toNat L.toNat bytes fuel offset.toNat) := by
  induction fuel generalizing m f offset with
  | zero => exact .error Stop.outOfFuel
  | succ fuel ih =>
      have hlength : (UInt64.ofNat bytes.length).toNat = bytes.length := UInt64.toNat_ofNat_of_lt' hbytes
      have hconsume : (m.consumeSize (UInt64.ofNat bytes.length)).toNat = f.consumeSize bytes.length := by
        rw [h.toNat_consumeSize, hlength]
      have hmore : offset < UInt64.ofNat bytes.length ↔ offset.toNat < bytes.length := by
        rw [UInt64.lt_iff_toNat_lt, hlength]
      rw [copyLoop]
      by_cases hoff : offset.toNat < bytes.length
      · simp only [if_pos (hmore.mpr hoff), hconsume]
        by_cases hin : offset.toNat + f.consumeSize bytes.length ≤ bytes.length
        · rw [Fragmenter.copyLoop_step transmitter _ _ hoff hin, if_neg (Nat.not_lt.mpr hin)]
          obtain ⟨flag, buffer, happend, hcopied⟩ := h.append hD hconsume hin
          obtain ⟨m', hchecked, hm'⟩ := macro_shows hT hcopied
          have hnext : (offset + m.consumeSize (UInt64.ofNat bytes.length)).toNat =
              offset.toNat + f.consumeSize bytes.length := by
            rw [UInt64.toNat_add, hconsume, Nat.mod_eq_of_lt (by omega)]
          rw [happend]
          simp only [Except.mapError, bind, Except.bind, hchecked]
          cases hret : ((f.copied bytes offset.toNat).transmitFragmentIfBufferFull transmitter D.toNat L.toNat).1 with
          | false => exact .ok ⟨rfl, hm'⟩
          | true =>
              rw [← hnext]
              exact ih hm'
        · rw [Fragmenter.copyLoop, if_pos hoff, if_pos (Nat.not_le.mp hin), if_pos (Nat.not_le.mp hin)]
          exact .error Stop.outOfBounds
      · rw [if_neg (mt hmore.mp hoff), Fragmenter.copyLoop, if_neg hoff]
        exact .ok ⟨rfl, h⟩

/-- **One call** of the serializer lambda. -/
theorem serializer_sameEnd (hT : Simulates S transmitter' transmitter) (hD : D.toNat < 2 ^ 32) {bytes : Bytes}
    (hbytes : bytes.length < 2 ^ 64) (fuel : Nat) (h : Shows S D L m f) :
    SameEnd SendFault.stop (fun r' r => r'.1 = r.1 ∧ Shows S D L r'.2 r.2)
      (serializer transmitter' D L fuel m bytes)
      (Fragmenter.serializer transmitter D.toNat L.toNat fuel f bytes) := by
  obtain ⟨m', hchecked, hm'⟩ := macro_shows hT h
  unfold serializer Fragmenter.serializer
  rw [hchecked]
  simp only [bind, Except.bind]
  cases hret : (f.transmitFragmentIfBufferFull transmitter D.toNat L.toNat).1 with
  | false => exact .ok ⟨rfl, hm'⟩
  | true => exact copyLoop_sameEnd hT hD hbytes fuel hm'

/-- **All calls** of it for a message. -/
theorem calls_serializer_sameEnd (hT : Simulates S transmitter' transmitter) (hD : D.toNat < 2 ^ 32)
    (hle : D.toNat ≤ L.toNat) {ws : List Bytes} (hws : ∀ w ∈ ws, w.length < 2 ^ 64) (fuel : Nat)
    (header : DTXMessageHeader) {t : τ} {s : σ} (hsink : S t s) :
    SameEnd SendFault.stop (Shows S D L)
      (Callback.calls (serializer transmitter' D L fuel) ⟨header, .empty, 0, D, t⟩ ws)
      (Callback.calls (Fragmenter.serializer transmitter D.toNat L.toNat fuel) ⟨header, [], 0, D.toNat, s⟩ ws) := by
  apply calls_sameEnd (Shows S D L)
  · intro m f w hw h
    exact serializer_sameEnd hT hD (hws w hw) fuel h
  · exact shows_init header hsink hle

end MemoryFragmenter

/-! ## The messages -/

namespace MemorySender

variable {KAValue : Type} {archivedData : KAValue → Bytes} {message : DTXMessage KAValue}

/-- No write is longer than the message. -/
theorem write_lt (hlength : (message.serializedLength archivedData).1 < 2 ^ 64) {w : Bytes}
    (hw : w ∈ message.writes archivedData) : w.length < 2 ^ 64 := by
  have hle : w.length ≤ (message.serialized archivedData).length := length_le_flatten hw
  have hserialized := message.serialized_length_le archivedData
  omega

theorem simulates_calls {τ σ : Type} {S : τ → σ → Prop} {transmitter' : Callback SendFault τ Bytes}
    {transmitter : Transmitter σ} (hT : Simulates S transmitter' transmitter) {ws : List Bytes}
    (hws : ∀ w ∈ ws, w.length < 2 ^ 64) {t : τ} {s : σ} (h : S t s) :
    SameEnd SendFault.stop S (Callback.calls transmitter' t ws) (Callback.calls transmitter.serializer s ws) := by
  apply calls_sameEnd S
  · intro t s w hw hS
    obtain ⟨t', hsent, ht'⟩ := hT t s w hS (hws w hw)
    rw [hsent]
    exact .ok ⟨rfl, ht'⟩
  · exact h

/-- **One message**, through a transmitter that does what another one does. -/
theorem transmitMessage_sameEnd {τ σ : Type} {S : τ → σ → Prop} {transmitter' : Callback SendFault τ Bytes}
    {transmitter : Transmitter σ} (hT : Simulates S transmitter' transmitter) (fuel : Nat)
    (suggestedFragmentSize : UInt32) (hlength : (message.serializedLength archivedData).1 < 2 ^ 64)
    (routingInfo : DTXMessageRoutingInfo) {t : τ} {s : σ} (h : S t s) :
    SameEnd SendFault.stop (fun r' r => r'.1 = r.1 ∧ S r'.2.2 r.2.2)
      (transmitMessage archivedData fuel suggestedFragmentSize message routingInfo transmitter' t)
      (IDevice.transmitMessage archivedData fuel suggestedFragmentSize message routingInfo transmitter s) := by
  have hL : (UInt64.ofNat (message.serializedLength archivedData).1).toNat =
      (message.serializedLength archivedData).1 := UInt64.toNat_ofNat_of_lt' hlength
  have hheader (header : DTXMessageHeader) : header.encode.length < 2 ^ 64 := by
    rw [DTXMessageHeader.encode_length]
    decide
  obtain ⟨t₁, hfirst, ht₁⟩ := hT t s
    (messageHeader (message.serializedLength archivedData).1
      (fragmentsForLength suggestedFragmentSize (message.serializedLength archivedData).1) routingInfo).encode
    h (hheader _)
  have hwrites : ∀ w ∈ message.writes archivedData, w.length < 2 ^ 64 := fun w hw => write_lt hlength hw
  unfold transmitMessage
  simp only [hL, DTXMessage.serializedLength_snd, DTXMessage.writes_materialize,
    DTXMessage.materialize_materialize, hfirst]
  by_cases hone : fragmentsForLength suggestedFragmentSize (message.serializedLength archivedData).1 = 1
  · rw [transmitMessage_one fuel routingInfo transmitter s hone, List.foldl_cons]
    rw [hone] at ht₁
    have hcalls := simulates_calls hT hwrites ht₁
    rw [calls_serializer] at hcalls
    simp only [if_pos hone, bind, Except.bind]
    generalize List.foldl (fun s w => (transmitter s w).2) _ (message.writes archivedData) = s' at hcalls ⊢
    generalize Callback.calls transmitter' t₁ (message.writes archivedData) = called at hcalls ⊢
    cases hcalls with
    | ok hS => exact .ok ⟨rfl, hS⟩
  · -- the message is longer than a piece, so that the first piece lies inside of it
    rw [transmitMessage_several fuel routingInfo transmitter s hone]
    have hlong := lt_of_fragmentsForLength_ne_one (Nat.zero_lt_of_lt (message.le_serializedLength archivedData)) hone
    have hD := UInt32.toNat_toUInt64 (suggestedFragmentSize - kDTXMessageHeaderSize)
    have hD32 := (suggestedFragmentSize - kDTXMessageHeaderSize).toNat_lt
    have hcalls := MemoryFragmenter.calls_serializer_sameEnd hT
      (D := (suggestedFragmentSize - kDTXMessageHeaderSize).toUInt64)
      (L := UInt64.ofNat (message.serializedLength archivedData).1) (by omega) (by omega) hwrites fuel
      (messageHeader (message.serializedLength archivedData).1
        (fragmentsForLength suggestedFragmentSize (message.serializedLength archivedData).1) routingInfo) ht₁
    rw [hL, hD] at hcalls
    simp only [if_neg hone]
    exact hcalls.bind fun m f hshows => .ok ⟨rfl, hshows.sink⟩

/-! ## The thread -/

/-- The block shows the write buffer of the thread. -/
def ShowsTransport (m : MemoryTransport) (b : BufferedDTXTransport sendBufferSize) : Prop :=
  @MemoryTransport.Shows (UInt64.ofNat sendBufferSize) m b

theorem simulates_send (accepts : Nat → Bool) :
    Simulates ShowsTransport (MemoryTransport.send accepts (UInt64.ofNat sendBufferSize))
      (BufferedDTXTransport.send accepts) :=
  fun _ _ _ h hdata => MemoryTransport.send_shows h hdata

/-- **A round** does to the transport what it does over lists, whatever the messages before have left in the block. -/
theorem sendRound_sameEnd (fuel : Nat) (accepts : Nat → Bool) {sendBuffer : Bytes}
    (hblock : sendBuffer.length = sendBufferSize) (hlength : (message.serializedLength archivedData).1 < 2 ^ 64)
    (routingInfo : DTXMessageRoutingInfo) :
    SameEnd SendFault.stop (fun r' r => r'.1 = r ∧ r'.2.length = sendBufferSize)
      (sendRound archivedData fuel accepts sendBuffer message routingInfo)
      (IDevice.sendRound archivedData fuel accepts message routingInfo) := by
  have hcreate : ShowsTransport { block := sendBuffer } BufferedDTXTransport.create :=
    MemoryTransport.shows_create (by decide) hblock
  have hsent := transmitMessage_sameEnd (simulates_send accepts) fuel outgoingFragmentSize hlength routingInfo hcreate
  unfold sendRound IDevice.sendRound
  apply hsent.bind
  rintro ⟨ret, message', m⟩ ⟨ret', message'', b⟩ ⟨hret, hshows⟩
  obtain rfl : ret = ret' := hret
  have hm : ShowsTransport m b := hshows
  obtain ⟨m', hflush, hm'⟩ := hm.flush accepts (by decide)
  have hsends : m'.sends = (b.flush accepts).2.sends := hm'.sends
  simp only [hflush, hm'.destroy accepts, destroy_flush accepts b, bind, Except.bind, pure, Except.pure]
  refine .ok ⟨?_, hm'.block⟩
  show (⟨ret, m'.sends⟩ : SendRound) = ⟨ret, _⟩
  rw [hsends]

/-- **The send thread in memory** does what it does over lists. It has no fault of its memory, and of what `malloc`
    or another message has left in the write buffer nothing is sent. -/
theorem sendThread_refines (fuel : Nat) (accepts : Nat → Bool) (undefined : Nat → UInt8)
    {queue : List (DTXMessage KAValue × DTXMessageRoutingInfo)}
    (hlength : ∀ m ∈ queue, (m.1.serializedLength archivedData).1 < 2 ^ 64) :
    sendThread archivedData fuel accepts ((List.range sendBufferSize).map undefined) queue =
      (IDevice.sendThread archivedData fuel accepts queue).mapError SendFault.stop := by
  apply SameEnd.eq_mapError
  have hblock : ((List.range sendBufferSize).map undefined).length = sendBufferSize := by
    rw [List.length_map, List.length_range]
  generalize (List.range sendBufferSize).map undefined = sendBuffer at hblock
  induction queue generalizing accepts sendBuffer with
  | nil => exact .ok rfl
  | cons m queue ih =>
      obtain ⟨message, routingInfo⟩ := m
      have hround := sendRound_sameEnd fuel accepts hblock (hlength _ List.mem_cons_self) routingInfo
      rw [sendThread, IDevice.sendThread]
      apply hround.bind
      rintro ⟨round, sendBuffer'⟩ round' ⟨hsame, hblock'⟩
      obtain rfl : round = round' := hsame
      cases hret : round.ret with
      | false =>
          simp only [hret]
          exact .ok rfl
      | true =>
          simp only [hret]
          have hrest := ih (fun i => accepts (round.sends.length + i))
            (fun m hm => hlength m (List.mem_cons_of_mem _ hm)) sendBuffer' hblock'
          apply hrest.bind
          rintro rounds rounds' rfl
          exact .ok rfl

/-- A message in one fragment, and one that is longer. -/
def shortThenLong : List (DTXMessage Unit × DTXMessageRoutingInfo) :=
  [(bareMessage, ⟨1, 0, 0, 0⟩), (DTXMessage.createWithBuffer (List.replicate 70000 0), ⟨2, 0, 0, 0⟩)]

theorem sendThread_refines_shortThenLong :
    (∀ m ∈ shortThenLong, (m.1.serializedLength fun _ => []).1 < 2 ^ 64) ∧
    sendThread (fun _ => []) 9 (fun _ => true) ((List.range sendBufferSize).map fun _ => 0xCD) shortThenLong =
      (IDevice.sendThread (fun _ => []) 9 (fun _ => true) shortThenLong).mapError SendFault.stop := by
  have hpayload (buffer : Bytes) : ((DTXMessage.createWithBuffer buffer : DTXMessage Unit).serializedLength
      fun _ => []).1 = 16 + buffer.length := rfl
  have hlength : ∀ m ∈ shortThenLong, (m.1.serializedLength fun _ => []).1 < 2 ^ 64 := by
    intro m hm
    simp only [shortThenLong, List.mem_cons, List.not_mem_nil, or_false] at hm
    rcases hm with rfl | rfl
    · decide
    · rw [hpayload, List.length_replicate]
      decide
  exact ⟨hlength, sendThread_refines 9 (fun _ => true) (fun _ => 0xCD) hlength⟩

end MemorySender
end IDevice
