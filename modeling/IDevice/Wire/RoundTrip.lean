import Mathlib.Tactic.Ring
import IDevice.Wire.Frame
import IDevice.Wire.Fragmenter

/-!
# `Wire.RoundTrip` — do the transmitter and the parser speak the same framing?

What `TransmitMessage` hands to a transmitter that always succeeds is fed to a fresh parser.

* A message in one fragment comes back as it was sent.
* For a message in `k ≥ 2` pieces the transmitter sends a header-only first fragment with index 0 and
  the pieces with the indices 1 to `k`, but announces `fragment_count = k`. The parser takes the
  fragment with index `fragment_count - 1` for the last one, so the message it yields, if any, ends one
  piece early.

`Cut` is the invariant of the fragmenting loop: which pieces are sent, and that all of them except the
last are full.
-/

namespace IDevice

open LittleEndian Stream

/-- The transmitter that accepts everything and keeps the bytes. -/
def recordBytes : Transmitter Bytes := fun sent bytes => (true, sent ++ bytes)

/-- The bytes sent for a message make a fresh parser return true and yield exactly that message. -/
def SpeaksSameFraming {KAValue : Type} (archivedData : KAValue → Bytes) (suggestedFragmentSize : UInt32)
    (message : DTXMessage KAValue) (routingInfo : DTXMessageRoutingInfo) : Prop :=
  ∃ fuel ret message' sent p m,
    transmitMessage archivedData fuel suggestedFragmentSize message routingInfo recordBytes [] =
      .ok (ret, message', sent) ∧
    DTXMessageParser.parseIncomingBytes {} sent = some (true, p) ∧ p.parsedMessageQueue = [m] ∧
    m.bytes = message.serialized archivedData ∧ m.identifier = routingInfo.msgIdentifier ∧
    m.conversationIndex = routingInfo.conversationIndex ∧ m.channelCode = routingInfo.channelCode ∧
    m.expectsReply = (routingInfo.expectsReply != 0)

/-- The queue of a fresh parser after one call. -/
theorem parseIncomingBytes_fresh_queue {sent : Bytes} {ret : Bool} {p : DTXMessageParser}
    (h : DTXMessageParser.parseIncomingBytes {} sent = some (ret, p)) :
    p.parsedMessageQueue = (DTXMessageParser.dtxReader.drain FragmentTable.empty sent).out := by
  rw [DTXMessageParser.parseIncomingBytes_eq rfl] at h
  simp only [List.nil_append] at h
  cases hv : (DTXMessageParser.dtxReader.drain FragmentTable.empty sent).verdict <;>
    simp only [hv, Option.some.injEq, Prod.mk.injEq, reduceCtorEq] at h
  · rw [← h.2]
    rfl
  · rw [← h.2]
    rfl

/-- A fresh parser that reads everything returns true. -/
theorem parseIncomingBytes_of_drain {sent : Bytes} {t : FragmentTable} {out : List ParsedMessage}
    (h : DTXMessageParser.dtxReader.drain FragmentTable.empty sent = ⟨t, out, [], .wait⟩) :
    ∃ p, DTXMessageParser.parseIncomingBytes {} sent = some (true, p) ∧ p.parsedMessageQueue = out := by
  have hcall := DTXMessageParser.parseIncomingBytes_eq (p := {}) h
  exact ⟨_, hcall, by simp [DTXMessageParser.advance]⟩

theorem drain_nil (t : FragmentTable) :
    DTXMessageParser.dtxReader.drain t [] = ⟨t, [], [], .wait⟩ :=
  Reader.drain_wait (DTXMessageParser.front_short (by simp))

/-! ## One fragment -/

theorem foldl_recordBytes (sent : Bytes) (ws : List Bytes) :
    ws.foldl (fun sent w => (recordBytes sent w).2) sent = sent ++ ws.flatten := by
  induction ws generalizing sent with
  | nil => simp
  | cons w ws ih => rw [List.foldl_cons, ih, recordBytes, List.flatten_cons, List.append_assoc]

section Single
variable {KAValue : Type} {archivedData : KAValue → Bytes} {suggestedFragmentSize : UInt32}
  {message : DTXMessage KAValue}

/-- The bytes sent for a message in one fragment. -/
theorem transmitMessage_single (fuel : Nat) (routingInfo : DTXMessageRoutingInfo)
    (hone : fragmentsForLength suggestedFragmentSize (message.serializedLength archivedData).1 = 1) :
    transmitMessage archivedData fuel suggestedFragmentSize message routingInfo recordBytes [] =
      .ok (true, message.materialize archivedData,
        (messageHeader (message.serializedLength archivedData).1 1 routingInfo).encode ++
          message.serialized archivedData) := by
  rw [transmitMessage_one fuel routingInfo recordBytes [] hone, foldl_recordBytes, List.nil_append,
    List.flatten_cons, DTXMessage.serialized]

theorem speaksSameFraming_of_single (routingInfo : DTXMessageRoutingInfo)
    (hlength : (message.serialized archivedData).length = (message.serializedLength archivedData).1)
    (hlt : (message.serializedLength archivedData).1 < 2 ^ 24)
    (hone : fragmentsForLength suggestedFragmentSize (message.serializedLength archivedData).1 = 1) :
    SpeaksSameFraming archivedData suggestedFragmentSize message routingInfo := by
  have hsent := transmitMessage_single 0 routingInfo hone
  generalize hL : (message.serializedLength archivedData).1 = L at *
  have htoNat : (messageHeader L 1 routingInfo).length.toNat = L :=
    UInt32.toNat_ofNat_of_lt' (lt_trans hlt (by decide))
  have hbound : 32 + (messageHeader L 1 routingInfo).length.toNat < 2 ^ 32 := by omega
  have hdrain := Frame.drain_single rfl rfl hbound FragmentTable.empty [] rfl (hlength.trans htoNat.symm)
  rw [List.append_nil, drain_nil] at hdrain
  obtain ⟨p, hparse, hqueue⟩ := parseIncomingBytes_of_drain hdrain
  exact ⟨0, _, _, _, p, _, hsent, hparse, hqueue, rfl, rfl, rfl, rfl, rfl⟩

end Single

/-! ## Several fragments: what is sent -/

/-- The header of the piece with index `i` and length `n`. -/
def pieceHeader (header : DTXMessageHeader) (i n : Nat) : DTXMessageHeader :=
  { header with fragmentIndex := UInt16.ofNat i, length := UInt32.ofNat n }

/-- What the header of a piece says, for an index and a length that fit its fields. -/
theorem pieceHeader_fields (header : DTXMessageHeader) {i n : Nat} (hi : 0 < i)
    (hcount : i < header.fragmentCount.toNat) (hn : n < 2 ^ 24) :
    (pieceHeader header i n).length.toNat = n ∧ (pieceHeader header i n).fragmentIndex.toNat = i ∧
      (pieceHeader header i n).fragmentIndex ≠ 0 := by
  have hindex : (pieceHeader header i n).fragmentIndex.toNat = i :=
    UInt16.toNat_ofNat_of_lt' (lt_trans hcount header.fragmentCount.toNat_lt)
  refine ⟨UInt32.toNat_ofNat_of_lt' (lt_trans hn (by decide)), hindex, ?_⟩
  intro hzero
  rw [hzero] at hindex
  exact hi.ne hindex

/-- The fragments of consecutive pieces, the first of them with index `i`. -/
def pieceStream (header : DTXMessageHeader) : Nat → List Bytes → Bytes
  | _, [] => []
  | i, piece :: pieces =>
    (pieceHeader header i piece.length).encode ++ piece ++ pieceStream header (i + 1) pieces

theorem pieceStream_append (header : DTXMessageHeader) (i : Nat) (pieces pieces' : List Bytes) :
    pieceStream header i (pieces ++ pieces') =
      pieceStream header i pieces ++ pieceStream header (i + pieces.length) pieces' := by
  induction pieces generalizing i with
  | nil => simp [pieceStream]
  | cons piece pieces ih =>
      simp only [List.cons_append, pieceStream, ih, List.length_cons, List.append_assoc]
      rw [Nat.add_assoc, Nat.add_comm 1]

theorem length_le_flatten {piece : Bytes} {pieces : List Bytes} (h : piece ∈ pieces) :
    piece.length ≤ pieces.flatten.length := by
  obtain ⟨before, after, rfl⟩ := List.append_of_mem h
  simp only [List.flatten_append, List.flatten_cons, List.length_append]
  omega

theorem flatten_length_of_full {D : Nat} {pieces : List Bytes} (h : ∀ piece ∈ pieces, piece.length = D) :
    pieces.flatten.length = pieces.length * D := by
  induction pieces with
  | nil => simp
  | cons piece pieces ih =>
      have hfirst := h piece (by simp)
      have hrest := ih fun p hp => h p (by simp [hp])
      simp only [List.flatten_cons, List.length_append, List.length_cons, hfirst, hrest]
      ring

/-- The fragmenter has sent `pieces` of a message of length `L`, and every piece that does not reach
    the end of the message is full. -/
structure Cut (header : DTXMessageHeader) (D L : Nat) (f : Fragmenter Bytes) (pieces : List Bytes) :
    Prop where
  sent : f.sink = header.encode ++ pieceStream header 1 pieces
  header : ∃ n, f.header = { header with fragmentIndex := UInt16.ofNat pieces.length, length := n }
  offset : f.serializedOffset = pieces.flatten.length
  offset_le : f.serializedOffset ≤ L
  next : f.thisFragmentLength = min D (L - f.serializedOffset)
  fits : f.buffer.length ≤ f.thisFragmentLength
  full : ∀ before piece after, pieces = before ++ piece :: after → (before.length + 1) * D < L →
    piece.length = D

section Cut
variable {header : DTXMessageHeader} {D L : Nat} {f : Fragmenter Bytes} {pieces : List Bytes}

theorem cut_init (h0 : header.fragmentIndex = 0) (hlt : D < L) :
    Cut header D L ⟨header, [], 0, D, (recordBytes [] header.encode).2⟩ [] := by
  refine ⟨by simp [recordBytes, pieceStream], ⟨header.length, ?_⟩, rfl, Nat.zero_le _, ?_, Nat.zero_le _, ?_⟩
  · cases header
    simpa using h0
  · show D = min D (L - 0)
    omega
  · intro before piece after heq
    simp at heq

/-- A full buffer is handed over as one more fragment. -/
theorem recordBytes_due (hfull : f.thisFragmentLength ≤ f.buffer.length) :
    f.transmitFragmentIfBufferFull recordBytes D L =
      (true, f.emptied D L (f.sink ++ f.fragmentHeader.encode ++ f.buffer)) :=
  Fragmenter.transmitFragmentIfBufferFull_due recordBytes D L hfull

/-- The pieces of a prefix are full when even the last of them does not reach the end of the
    message. -/
theorem Cut.prefix_full (h : Cut header D L f pieces) {before after : List Bytes}
    (heq : pieces = before ++ after) (hlt : before.length * D < L) :
    ∀ piece ∈ before, piece.length = D := by
  intro piece hmem
  obtain ⟨b, a, rfl⟩ := List.append_of_mem hmem
  refine h.full b piece (a ++ after) (by simp [heq]) (lt_of_le_of_lt ?_ hlt)
  apply Nat.mul_le_mul_right
  simp only [List.length_append, List.length_cons]
  omega

/-- The full buffer is one more piece. -/
theorem Cut.emptied (h : Cut header D L f pieces) (hfull : f.thisFragmentLength ≤ f.buffer.length) :
    Cut header D L (f.emptied D L (f.sink ++ f.fragmentHeader.encode ++ f.buffer))
      (pieces ++ [f.buffer]) := by
  have hlen : f.thisFragmentLength = f.buffer.length := le_antisymm hfull h.fits
  obtain ⟨n, hheader⟩ := h.header
  have hnext := h.next
  have hoffset := h.offset
  have hle := h.offset_le
  refine ⟨?_, ?_, ?_, ?_, rfl, Nat.zero_le _, ?_⟩
  · simp [Fragmenter.emptied, Fragmenter.fragmentHeader, h.sent, hheader, pieceStream_append, pieceStream,
      pieceHeader, hlen, Nat.add_comm 1]
  · exact ⟨UInt32.ofNat f.thisFragmentLength,
      by simp [Fragmenter.emptied, Fragmenter.fragmentHeader, hheader]⟩
  · simp [Fragmenter.emptied, hoffset]
  · show f.serializedOffset + f.buffer.length ≤ L
    omega
  · intro before piece after heq hlt
    rcases List.eq_nil_or_concat after with rfl | ⟨after', last, rfl⟩
    · -- the new piece: it is full because the offset is a multiple of the fragment length
      obtain ⟨rfl, hpiece⟩ := List.append_inj' heq rfl
      obtain rfl : f.buffer = piece := by simpa using hpiece
      have hbefore : pieces.length * D < L := lt_of_le_of_lt (Nat.mul_le_mul_right D (by omega)) hlt
      have hflat := flatten_length_of_full (h.prefix_full (List.append_nil _).symm hbefore)
      rw [Nat.add_mul] at hlt
      omega
    · -- a piece that had been sent before
      have heq' : pieces ++ [f.buffer] = (before ++ piece :: after') ++ [last] := by simpa using heq
      exact h.full before piece after' (List.append_inj' heq' rfl).1 hlt

/-- A chunk is copied into the free space of the buffer. -/
theorem Cut.copied (h : Cut header D L f pieces) (bytes : Bytes) (offset : Nat) :
    Cut header D L (f.copied bytes offset) pieces := by
  refine ⟨h.sent, h.header, h.offset, h.offset_le, h.next, ?_, h.full⟩
  have hfits := h.fits
  simp only [Fragmenter.copied, Fragmenter.consumeSize, List.length_append, List.length_take,
    List.length_drop]
  omega

/-- The macro sends the buffer when it is full, and then as one more piece. -/
theorem Cut.transmitFragmentIfBufferFull (h : Cut header D L f pieces) :
    ∃ f' pieces', f.transmitFragmentIfBufferFull recordBytes D L = (true, f') ∧
      Cut header D L f' pieces' := by
  by_cases hfull : f.thisFragmentLength ≤ f.buffer.length
  · exact ⟨_, _, recordBytes_due hfull, h.emptied hfull⟩
  · exact ⟨f, pieces, Fragmenter.transmitFragmentIfBufferFull_open recordBytes D L (not_le.mp hfull), h⟩

theorem Cut.copyLoop (h : Cut header D L f pieces) {bytes : Bytes} {fuel offset : Nat} {ret : Bool}
    {f' : Fragmenter Bytes} (hrun : f.copyLoop recordBytes D L bytes fuel offset = .ok (ret, f')) :
    ∃ pieces', Cut header D L f' pieces' := by
  induction fuel generalizing offset f pieces with
  | zero => cases hrun
  | succ fuel ih =>
      rcases Fragmenter.copyLoop_cases hrun with ⟨-, -, rfl⟩ | ⟨-, -, hnext⟩
      · exact ⟨pieces, h⟩
      · obtain ⟨f₁, pieces₁, hchecked, hcut⟩ := (h.copied bytes offset).transmitFragmentIfBufferFull
        rw [hchecked] at hnext
        rcases hnext with hfalse | ⟨fuel', f₂, hfuel, htrue, hloop⟩
        · cases hfalse
        · cases htrue
          cases hfuel
          exact ih hcut hloop

theorem Cut.serializer (h : Cut header D L f pieces) {bytes : Bytes} {fuel : Nat} {ret : Bool}
    {f' : Fragmenter Bytes}
    (hrun : Fragmenter.serializer recordBytes D L fuel f bytes = .ok (ret, f')) :
    ∃ pieces', Cut header D L f' pieces' := by
  obtain ⟨f₁, pieces₁, hchecked, hcut⟩ := h.transmitFragmentIfBufferFull
  rw [Fragmenter.serializer, hchecked] at hrun
  exact hcut.copyLoop (by simpa using hrun)

end Cut

/-! ## Several fragments: what is read -/

section Read
variable {header : DTXMessageHeader} {D L : Nat}

/-- Pieces before the last index only make the partial message longer. -/
theorem drain_pieceStream (hmagic : header.magic = kDTXMessageHeaderMagic)
    (hsize : header.messageHeaderSize = kDTXMessageHeaderSize) (hcount : header.fragmentCount ≠ 1)
    (rest : Bytes) {t : FragmentTable} {fragmentedBuffer : Bytes} {pieces : List Bytes} {i : Nat}
    (hfound : t header.identifier = some fragmentedBuffer) (hi : 0 < i)
    (hlast : i + pieces.length < header.fragmentCount.toNat)
    (hlen : ∀ piece ∈ pieces, piece.length < 2 ^ 24) :
    DTXMessageParser.dtxReader.drain t (pieceStream header i pieces ++ rest) =
      DTXMessageParser.dtxReader.drain
        (t.set header.identifier (fragmentedBuffer ++ pieces.flatten)) rest := by
  induction pieces generalizing i t fragmentedBuffer with
  | nil =>
      have hset : t.set header.identifier (fragmentedBuffer ++ [].flatten) = t := by
        rw [FragmentTable.set, Function.update_eq_self_iff, hfound, List.flatten_nil, List.append_nil]
      rw [hset]
      rfl
  | cons piece pieces ih =>
      have hpiece := hlen piece (by simp)
      rw [List.length_cons] at hlast
      obtain ⟨hlength, hindex, hne⟩ :=
        pieceHeader_fields header hi (by omega) hpiece
      have hmagic' : (pieceHeader header i piece.length).magic = kDTXMessageHeaderMagic := hmagic
      have hlast' : (pieceHeader header i piece.length).fragmentIndex.toNat + 1 ≠
          (pieceHeader header i piece.length).fragmentCount.toNat := by
        rw [hindex]
        show i + 1 ≠ header.fragmentCount.toNat
        omega
      have hnext : (t.set header.identifier (fragmentedBuffer ++ piece)) header.identifier =
          some (fragmentedBuffer ++ piece) := Function.update_self _ _ _
      have hstep := Frame.drain_continuation hmagic' hsize (by omega) t
        (pieceStream header (i + 1) pieces ++ rest) hcount hne hlength.symm hfound hlast'
      rw [pieceStream, List.append_assoc, hstep]
      show DTXMessageParser.dtxReader.drain (t.set header.identifier (fragmentedBuffer ++ piece)) _ = _
      rw [ih hnext (by omega) (by omega)
        fun p hp => hlen p (by simp [hp])]
      simp only [FragmentTable.set, Function.update_idem, List.flatten_cons, List.append_assoc]

/-- The piece with index `fragment_count - 1` is taken for the last one. -/
theorem drain_pieceStream_last (hmagic : header.magic = kDTXMessageHeaderMagic)
    (hsize : header.messageHeaderSize = kDTXMessageHeaderSize) (hcount : header.fragmentCount ≠ 1)
    (rest : Bytes) {t : FragmentTable} {fragmentedBuffer piece : Bytes} {i : Nat}
    (hfound : t header.identifier = some fragmentedBuffer) (hi : 0 < i)
    (hlast : i + 1 = header.fragmentCount.toNat) (hlen : piece.length < 2 ^ 24) :
    DTXMessageParser.dtxReader.drain t ((pieceHeader header i piece.length).encode ++ piece ++ rest) =
      (DTXMessageParser.dtxReader.drain (t.erase header.identifier) rest).after
        [.setup (pieceHeader header i piece.length) (fragmentedBuffer ++ piece)] := by
  obtain ⟨hlength, hindex, hne⟩ := pieceHeader_fields header hi (by omega) hlen
  have hmagic' : (pieceHeader header i piece.length).magic = kDTXMessageHeaderMagic := hmagic
  have hlast' : (pieceHeader header i piece.length).fragmentIndex.toNat + 1 =
      (pieceHeader header i piece.length).fragmentCount.toNat := by
    rw [hindex]
    exact hlast
  exact Frame.drain_last hmagic' hsize (by omega) t rest hcount hne hlength.symm hfound hlast'

/-- What the parser yields from pieces that begin with all those before the one it takes for the
    last. -/
theorem drain_pieces_head (hmagic : header.magic = kDTXMessageHeaderMagic)
    (hsize : header.messageHeaderSize = kDTXMessageHeaderSize) (hcount : header.fragmentCount ≠ 1)
    {t : FragmentTable} {before after : List Bytes} {piece : Bytes}
    (hbegun : t header.identifier = some [])
    (hbefore : before.length + 2 = header.fragmentCount.toNat)
    (hlen : ∀ p ∈ before ++ piece :: after, p.length < 2 ^ 24) :
    ∃ h', (DTXMessageParser.dtxReader.drain t (pieceStream header 1 (before ++ piece :: after))).out.head? =
      some (.setup h' (before.flatten ++ piece)) := by
  have hgrown : (t.set header.identifier ([] ++ before.flatten)) header.identifier =
      some ([] ++ before.flatten) := Function.update_self _ _ _
  rw [pieceStream_append, drain_pieceStream hmagic hsize hcount _ hbegun Nat.one_pos (by omega)
    fun p hp => hlen p (by simp [hp]), pieceStream, drain_pieceStream_last hmagic hsize hcount _ hgrown
    (by omega) (by omega) (hlen piece (by simp))]
  exact ⟨_, rfl⟩

/-- **The first message of a fragmented transmission is too short**: the parser stops one piece early,
    if it yields a message at all. -/
theorem Cut.head_lt {f : Fragmenter Bytes} {pieces : List Bytes} (h : Cut header D L f pieces)
    (hmagic : header.magic = kDTXMessageHeaderMagic)
    (hsize : header.messageHeaderSize = kDTXMessageHeaderSize) (h0 : header.fragmentIndex = 0)
    (hL : header.length.toNat = L) (hlt : L < 2 ^ 24) (hk : 2 ≤ header.fragmentCount.toNat)
    (hcut : (header.fragmentCount.toNat - 1) * D < L) {m : ParsedMessage}
    (hm : (DTXMessageParser.dtxReader.drain FragmentTable.empty f.sink).out.head? = some m) :
    m.bytes.length < L := by
  have hcount : header.fragmentCount ≠ 1 := by
    intro hone
    rw [hone] at hk
    exact absurd hk (by decide)
  have hlen : ∀ piece ∈ pieces, piece.length < 2 ^ 24 := by
    intro piece hmem
    have hle := length_le_flatten hmem
    have hoff := h.offset_le
    rw [h.offset] at hoff
    omega
  rw [h.sent] at hm
  -- does the stream hold as many bytes as the first header announces?
  by_cases hready : header.length.toNat ≤ (pieceStream header 1 pieces).length
  · rw [Frame.drain_first hmagic hsize (by omega) _ _ hcount h0 hready] at hm
    have hbegun : (FragmentTable.empty.insert header.identifier []) header.identifier = some [] :=
      Function.update_self _ _ _
    by_cases hmany : header.fragmentCount.toNat - 1 ≤ pieces.length
    · -- the pieces up to the one that is taken for the last are all full
      obtain ⟨before, piece, after, heq, hbefore⟩ :
          ∃ before piece after, pieces = before ++ piece :: after ∧
            before.length + 2 = header.fragmentCount.toNat := by
        refine ⟨pieces.take (header.fragmentCount.toNat - 2),
          pieces.get ⟨header.fragmentCount.toNat - 2, by omega⟩,
          pieces.drop (header.fragmentCount.toNat - 2 + 1), ?_, ?_⟩
        · simp
        · rw [List.length_take]
          omega
      have hfull := h.prefix_full (show pieces = (before ++ [piece]) ++ after by simp [heq]) (by
        rw [List.length_append, List.length_singleton]
        rwa [show before.length + 1 = header.fragmentCount.toNat - 1 by omega])
      subst heq
      obtain ⟨h', hhead⟩ := drain_pieces_head hmagic hsize hcount hbegun hbefore hlen
      rw [hhead] at hm
      obtain rfl := Option.some.inj hm
      have hflat := flatten_length_of_full hfull
      rw [List.length_append, List.length_singleton,
        show before.length + 1 = header.fragmentCount.toNat - 1 by omega] at hflat
      show (before.flatten ++ piece).length < L
      simp only [List.flatten_append, List.flatten_cons, List.flatten_nil, List.append_nil] at hflat
      omega
    · -- too few pieces were sent for the parser to find a last one
      have hshort := drain_pieceStream hmagic hsize hcount [] hbegun Nat.one_pos
        (by omega : 1 + pieces.length < _) hlen
      rw [List.append_nil, drain_nil] at hshort
      rw [hshort] at hm
      cases hm
  · -- the parser still waits behind the header that announces the whole message
    rw [Frame.drain_first_waiting hmagic hsize (by omega) _ _ hcount h0 (by omega)] at hm
    cases hm

end Read

/-! ## The two sides together -/

section Framing
variable {KAValue : Type} {archivedData : KAValue → Bytes} {suggestedFragmentSize : UInt32}
  {message : DTXMessage KAValue}

/-- What is sent for a message in several pieces was cut into fragments. -/
theorem transmitMessage_cut {fuel : Nat} {routingInfo : DTXMessageRoutingInfo} {ret : Bool}
    {message' : DTXMessage KAValue} {sent : Bytes} {L : Nat} {k : UInt32}
    (hL : (message.serializedLength archivedData).1 = L)
    (hk : fragmentsForLength suggestedFragmentSize L = k) (hne : k ≠ 1)
    (hlt : (suggestedFragmentSize - kDTXMessageHeaderSize).toNat < L)
    (hrun : transmitMessage archivedData fuel suggestedFragmentSize message routingInfo recordBytes [] =
      .ok (ret, message', sent)) :
    ∃ f pieces, Cut (messageHeader L k routingInfo)
      (suggestedFragmentSize - kDTXMessageHeaderSize).toNat L f pieces ∧ f.sink = sent := by
  rw [← hk] at hne
  rw [← hL] at hne
  rw [transmitMessage_several fuel routingInfo recordBytes [] hne, hL, hk] at hrun
  obtain ⟨f', hcalls, hret⟩ := Callback.bind_eq_ok.mp hrun
  obtain ⟨pieces, hcut⟩ := Callback.calls_invariant
    (fun f => ∃ pieces, Cut (messageHeader L k routingInfo)
      (suggestedFragmentSize - kDTXMessageHeaderSize).toNat L f pieces)
    ⟨[], cut_init rfl hlt⟩ hcalls
    fun _ _ _ _ ⟨_, hcut⟩ hrun => hcut.serializer hrun
  cases hret
  exact ⟨_, pieces, hcut, rfl⟩

/-- A message in several pieces does not come back. -/
theorem not_speaksSameFraming_of_fragmented (routingInfo : DTXMessageRoutingInfo)
    (hlength : (message.serialized archivedData).length = (message.serializedLength archivedData).1)
    (hlt : (message.serializedLength archivedData).1 < 2 ^ 24)
    (hpieces : (fragmentsForLength suggestedFragmentSize
      (message.serializedLength archivedData).1).toNat < 65535)
    (h33 : 33 ≤ suggestedFragmentSize.toNat)
    (hlong : suggestedFragmentSize.toNat < (message.serializedLength archivedData).1 + 32) :
    ¬ SpeaksSameFraming archivedData suggestedFragmentSize message routingInfo := by
  rintro ⟨fuel, ret, message', sent, p, m, hrun, hparse, hqueue, hbytes, -⟩
  generalize hL : (message.serializedLength archivedData).1 = L at *
  have hD := fragmentLength_toNat h33
  obtain ⟨k, hk2, hle, hcut, hcount, hk16⟩ := fragmentsForLength_of_long h33 hlt (by omega)
  generalize hDn : suggestedFragmentSize.toNat - 32 = D at *
  rw [hcount] at hpieces
  rw [hk16] at hpieces
  have hheader : (messageHeader L (UInt32.ofNat k) routingInfo).fragmentCount.toNat = k := by
    show (UInt32.ofNat k).toUInt16.toNat = k
    rw [UInt32.toNat_toUInt16, hk16, Nat.mod_eq_of_lt (by omega)]
  have hne : UInt32.ofNat k ≠ 1 := by
    intro hone
    rw [hone] at hk16
    exact absurd hk16 (by simp; omega)
  obtain ⟨f, pieces, hfrag, rfl⟩ := transmitMessage_cut hL hcount hne (by omega) hrun
  rw [parseIncomingBytes_fresh_queue hparse] at hqueue
  have hshort := hfrag.head_lt rfl rfl rfl (UInt32.toNat_ofNat_of_lt' (lt_trans hlt (by decide))) hlt
    (by omega) (by rwa [hheader, hD]) (by rw [hqueue]; rfl)
  rw [hbytes, hlength] at hshort
  exact absurd hshort (lt_irrefl L)

/-- **Transmitter and parser agree on a message exactly when it fits in one fragment.** -/
theorem speaksSameFraming_iff (routingInfo : DTXMessageRoutingInfo)
    (hlength : (message.serialized archivedData).length = (message.serializedLength archivedData).1)
    (hlt : (message.serializedLength archivedData).1 < 2 ^ 24)
    (hpieces : (fragmentsForLength suggestedFragmentSize
      (message.serializedLength archivedData).1).toNat < 65535) :
    SpeaksSameFraming archivedData suggestedFragmentSize message routingInfo ↔
      suggestedFragmentSize.toNat < 33 ∨
        (message.serializedLength archivedData).1 + 32 ≤ suggestedFragmentSize.toNat := by
  constructor
  · intro h
    by_contra hcond
    exact not_speaksSameFraming_of_fragmented routingInfo hlength hlt hpieces (by omega) (by omega) h
  · intro hcond
    refine speaksSameFraming_of_single routingInfo hlength hlt ?_
    by_cases h33 : suggestedFragmentSize.toNat < 33
    · -- a size with no room for a payload is not looked at
      rw [fragmentsForLength, if_neg]
      rw [UInt32.le_iff_toNat_le]
      exact not_le.mpr h33
    · have hpos : 16 ≤ (message.serializedLength archivedData).1 :=
        DTXMessage.le_serializedLength archivedData message
      exact fragmentsForLength_eq (k := 1) (by omega) hlt (by omega) (by omega)

end Framing

/-- A data message with a payload of eight bytes: 24 bytes when serialized. -/
def smallMessage : DTXMessage Unit := DTXMessage.createWithBuffer (List.replicate 8 0)

/-- With the default fragment size the small message is one fragment. -/
theorem speaksSameFraming_iff_default_size :
    SpeaksSameFraming (fun _ => []) 65536 smallMessage ⟨1, 0, 0, 1⟩ ↔
      (65536 : UInt32).toNat < 33 ∨
        (smallMessage.serializedLength fun _ => []).1 + 32 ≤ (65536 : UInt32).toNat :=
  speaksSameFraming_iff ⟨1, 0, 0, 1⟩ (by decide) (by decide) (by decide +kernel)

/-- With fragments of 48 bytes it is cut into pieces of 16 and 8 bytes, and the parser stops after the
    first. -/
theorem not_speaksSameFraming_two_pieces :
    ¬ SpeaksSameFraming (fun _ => []) 48 smallMessage ⟨1, 0, 0, 1⟩ :=
  not_speaksSameFraming_of_fragmented ⟨1, 0, 0, 1⟩ (by decide) (by decide) (by decide +kernel)
    (by decide) (by decide)

end IDevice
