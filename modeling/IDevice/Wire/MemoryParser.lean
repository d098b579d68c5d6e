import IDevice.Utils.BufferMemory
import IDevice.Utils.ByteBuffer
import IDevice.Wire.Chunking

/-!
# `Wire.MemoryParser` — the parser over its memory

`DTXMessageParser` once more, as it works on memory: the parsing buffer is a `BufferMemory` whose allocations
may fail, a partial message is a `ByteBuffer` whose vector may throw, offsets are `size_t`, and whatever is read
or copied has to lie in the block.

`DTXMessageParser` (`Wire.Parser`) is what it is for: it has a list in place of the block. `run_refines` says that
the one does what the other does, over any calls.
-/

namespace IDevice

open Machine

structure MemoryParser where
  parsingBuffer : BufferMemory := {}
  fragmentedBuffersByIdentifier : UInt32 → Option ByteBuffer := fun _ => none
  parsedMessageQueue : List ParsedMessage := []

namespace MemoryParser

/-- `ParseMessageWithHeader`, with `data` as an offset in the block. Nobody looks at what `Append` returns. -/
def parseMessageWithHeader (p : MemoryParser) (header : DTXMessageHeader) (data size : UInt64) :
    Except MemoryFault (UInt64 × MemoryParser) :=
  let bytes := p.parsingBuffer.block.drop data.toNat
  if header.fragmentCount = 1 then
    if bytes.length < size.toNat then .error .overrun
    else
      let message := ParsedMessage.setup header (bytes.take size.toNat)
      .ok (size, { p with parsedMessageQueue := p.parsedMessageQueue ++ [message] })
  else if header.fragmentIndex = 0 then
    match p.fragmentedBuffersByIdentifier header.identifier with
    | some _ => .ok (0, p)
    | none =>
      let table := Function.update p.fragmentedBuffersByIdentifier header.identifier (some ByteBuffer.empty)
      .ok (0, { p with fragmentedBuffersByIdentifier := table })
  else
    match p.fragmentedBuffersByIdentifier header.identifier with
    | none => .ok (0, p)
    | some fragmentedBuffer =>
      if bytes.length < size.toNat then .error .overrun
      else do
        let (_, fragmentedBuffer) ← fragmentedBuffer.append (Memory.ofBytes bytes) size 0
        if header.fragmentIndex.toNat + 1 = header.fragmentCount.toNat then
          let message := ParsedMessage.setup header fragmentedBuffer.buffer
          let table := Function.update p.fragmentedBuffersByIdentifier header.identifier none
          .ok (size, { p with fragmentedBuffersByIdentifier := table,
                              parsedMessageQueue := p.parsedMessageQueue ++ [message] })
        else
          let table :=
            Function.update p.fragmentedBuffersByIdentifier header.identifier (some fragmentedBuffer)
          .ok (size, { p with fragmentedBuffersByIdentifier := table })

inductive LoopExit where
  | break (p : MemoryParser) (consumedSize : UInt64)
  | returnFalse (p : MemoryParser)

/-- The `while (true)` loop of `ParseIncomingBytes`. -/
def parseLoop (bufferSize : UInt64) : Nat → MemoryParser → UInt64 → Except MemoryFault LoopExit
  | 0, p, consumedSize => .ok (.break p consumedSize)
  | fuel + 1, p, consumedSize =>
    if bufferSize < consumedSize + kDTXMessageHeaderSize.toUInt64 then .ok (.break p consumedSize)
    else
      let ptr := p.parsingBuffer.block.drop consumedSize.toNat
      if ptr.length < kDTXMessageHeaderSize.toNat then .error .overrun
      else
        let header := DTXMessageHeader.decode ptr
        if header.magic ≠ kDTXMessageHeaderMagic then .ok (.returnFalse p)
        else if header.messageHeaderSize ≠ kDTXMessageHeaderSize then .ok (.returnFalse p)
        else
          let messageSizeWithHeader := (header.messageHeaderSize + header.length).toUInt64
          if bufferSize < consumedSize + messageSizeWithHeader then .ok (.break p consumedSize)
          else do
            let (consumedLength, p) ← p.parseMessageWithHeader header
              (consumedSize + kDTXMessageHeaderSize.toUInt64) header.length.toUInt64
            parseLoop bufferSize fuel p (consumedSize + (header.messageHeaderSize.toUInt64 + consumedLength))

/-- `memmove` of the bytes behind the consumed ones, and `SetSize`. -/
def shift (p : MemoryParser) (consumedSize bufferSize : UInt64) : Except MemoryFault MemoryParser :=
  if p.parsingBuffer.block.length < consumedSize.toNat + bufferSize.toNat then .error .overrun
  else
    let memory := p.parsingBuffer.memmove consumedSize.toNat bufferSize.toNat
    .ok { p with parsingBuffer := memory.setSize bufferSize }

/-- `ParseIncomingBytes` behind the copy of the packet. -/
def parseBuffered (p : MemoryParser) : Except MemoryFault (Bool × MemoryParser) := do
  let bufferSize := p.parsingBuffer.size
  match ← parseLoop bufferSize (bufferSize.toNat + 1) p 0 with
  | .returnFalse p => .ok (false, p)
  | .break p consumedSize =>
    if 0 < consumedSize then
      let bufferSize := bufferSize - consumedSize
      if 0 < bufferSize then
        let p ← p.shift consumedSize bufferSize
        .ok (true, p)
      else .ok (true, p)
    else .ok (true, p)

/-- `ParseIncomingBytes`. -/
def parseIncomingBytes (p : MemoryParser) (buffer : Bytes) (answer : AllocAnswer) :
    Except MemoryFault (Bool × MemoryParser) :=
  match p.parsingBuffer.allocate (UInt64.ofNat buffer.length) answer with
  | (none, memory) => .ok (false, { p with parsingBuffer := memory })
  | (some ptr, memory) =>
    if memory.block.length < ptr.toNat + buffer.length then .error .overrun
    else parseBuffered { p with parsingBuffer := memory.memcpy ptr.toNat buffer }

def popAllParsedMessages (p : MemoryParser) : List ParsedMessage × MemoryParser :=
  (p.parsedMessageQueue, { p with parsedMessageQueue := [] })

end MemoryParser

/-! ## Up to a vector that is too long -/

/-- `x` returns a value with `P`, or throws because a partial message does not fit in a vector. -/
def ReturnsOrThrows {α : Type} (x : Except MemoryFault α) (P : α → Prop) : Prop :=
  x = .error .lengthError ∨ ∃ a, x = .ok a ∧ P a

namespace ReturnsOrThrows

variable {α β : Type} {x : Except MemoryFault α} {P : α → Prop}

theorem ok {a : α} (h : P a) : ReturnsOrThrows (.ok a) P := .inr ⟨a, rfl, h⟩

theorem bind {f : α → Except MemoryFault β} {Q : β → Prop} (h : ReturnsOrThrows x P)
    (hf : ∀ a, P a → ReturnsOrThrows (f a) Q) : ReturnsOrThrows (x >>= f) Q := by
  rcases h with rfl | ⟨a, rfl, ha⟩
  · exact .inl rfl
  · exact hf a ha

theorem mono {Q : α → Prop} (h : ReturnsOrThrows x P) (hle : ∀ a, P a → Q a) : ReturnsOrThrows x Q :=
  h.imp_right fun ⟨a, hx, ha⟩ => ⟨a, hx, hle a ha⟩

end ReturnsOrThrows

/-! ## One fragment -/

namespace MemoryParser

/-- The memory `q` shows the lists of `p`. A block is shorter than `2 ^ 63` bytes. -/
structure Refines (q : MemoryParser) (p : DTXMessageParser) : Prop where
  rep : q.parsingBuffer.Rep
  short : q.parsingBuffer.block.length < 2 ^ 63
  contents : q.parsingBuffer.contents = p.parsingBuffer
  table : ∀ identifier, (q.fragmentedBuffersByIdentifier identifier).map ByteBuffer.buffer =
    p.fragmentedBuffersByIdentifier identifier
  queue : q.parsedMessageQueue = p.parsedMessageQueue

section
variable {q : MemoryParser} {p : DTXMessageParser}

/-- `Size()` is the length of the list. -/
theorem Refines.size (h : Refines q p) : q.parsingBuffer.size.toNat = p.parsingBuffer.length := by
  have hle := UInt64.le_iff_toNat_le.mp h.rep.size_le
  have hcapacity := h.rep.capacity
  rw [← h.contents, BufferMemory.contents, List.length_take]
  omega

/-- A window that lies in the list shows the same bytes in the block. -/
theorem Refines.window (h : Refines q p) {offset n : Nat} (hin : n ≤ (p.parsingBuffer.drop offset).length) :
    n ≤ (q.parsingBuffer.block.drop offset).length ∧
      (q.parsingBuffer.block.drop offset).take n = (p.parsingBuffer.drop offset).take n := by
  rw [List.length_drop, ← h.contents, BufferMemory.contents, List.length_take] at hin
  constructor
  · rw [List.length_drop]
    omega
  · rw [← h.contents, BufferMemory.contents, List.drop_take, List.take_take]
    congr 1
    omega

theorem Refines.update (h : Refines q p) (identifier : UInt32) (entry : Option ByteBuffer)
    (queue : List ParsedMessage) :
    Refines
      ⟨q.parsingBuffer, Function.update q.fragmentedBuffersByIdentifier identifier entry,
        q.parsedMessageQueue ++ queue⟩
      ⟨p.parsingBuffer,
        Function.update p.fragmentedBuffersByIdentifier identifier (entry.map ByteBuffer.buffer),
        p.parsedMessageQueue ++ queue⟩ := by
  refine ⟨h.rep, h.short, h.contents, fun k => ?_, by rw [h.queue]⟩
  show (Function.update q.fragmentedBuffersByIdentifier identifier entry k).map ByteBuffer.buffer =
    Function.update p.fragmentedBuffersByIdentifier identifier (entry.map ByteBuffer.buffer) k
  by_cases hk : k = identifier
  · subst hk
    rw [Function.update_self, Function.update_self]
  · rw [Function.update_of_ne hk, Function.update_of_ne hk]
    exact h.table k

/-- The length of a fragment as a `size_t`. -/
theorem toNat_length (header : DTXMessageHeader) : header.length.toUInt64.toNat = header.length.toNat :=
  UInt32.toNat_toUInt64 _

/-- **One fragment**: where the window lies in the list, memory and list change alike. -/
theorem parseMessageWithHeader_refines (h : Refines q p) {header : DTXMessageHeader} {data : UInt64} {n : Nat}
    {p' : DTXMessageParser}
    (hlist : p.parseMessageWithHeader header (p.parsingBuffer.drop data.toNat) header.length.toNat =
      some (n, p')) :
    ReturnsOrThrows (q.parseMessageWithHeader header data header.length.toUInt64) fun r =>
      r.1.toNat = n ∧ Refines r.2 p' ∧ r.2.parsingBuffer = q.parsingBuffer := by
  have hsame := h.table header.identifier
  unfold DTXMessageParser.parseMessageWithHeader at hlist
  unfold parseMessageWithHeader
  rw [toNat_length]
  by_cases hone : header.fragmentCount = 1
  · rw [if_pos hone] at hlist ⊢
    by_cases hshort : (p.parsingBuffer.drop data.toNat).length < header.length.toNat
    · rw [if_pos hshort] at hlist
      cases hlist
    · obtain ⟨hin, hbytes⟩ := h.window (Nat.not_lt.mp hshort)
      rw [if_neg hshort] at hlist
      obtain ⟨rfl, rfl⟩ := Prod.mk.inj (Option.some.inj hlist)
      rw [if_neg (Nat.not_lt.mpr hin), hbytes]
      refine .ok ⟨toNat_length header, ⟨h.rep, h.short, h.contents, h.table, ?_⟩, rfl⟩
      rw [h.queue]
  rw [if_neg hone] at hlist ⊢
  by_cases hfirst : header.fragmentIndex = 0
  · rw [if_pos hfirst] at hlist ⊢
    obtain ⟨rfl, rfl⟩ := Prod.mk.inj (Option.some.inj hlist)
    cases hfound : q.fragmentedBuffersByIdentifier header.identifier with
    | some fragmentedBuffer =>
        rw [hfound] at hsame
        have hkept : p.fragmentedBuffersByIdentifier.insert header.identifier [] =
            p.fragmentedBuffersByIdentifier := by
          rw [FragmentTable.insert, ← hsame]
          rfl
        exact .ok ⟨rfl, hkept.symm ▸ h, rfl⟩
    | none =>
        rw [hfound] at hsame
        have hnew : p.fragmentedBuffersByIdentifier.insert header.identifier [] =
            Function.update p.fragmentedBuffersByIdentifier header.identifier (some []) := by
          rw [FragmentTable.insert, ← hsame]
          rfl
        rw [hnew]
        have hupdate := h.update header.identifier (some ByteBuffer.empty) []
        rw [List.append_nil, List.append_nil] at hupdate
        exact .ok ⟨rfl, hupdate, rfl⟩
  rw [if_neg hfirst] at hlist ⊢
  cases hfound : q.fragmentedBuffersByIdentifier header.identifier with
  | none =>
      rw [hfound] at hsame
      rw [← hsame] at hlist
      obtain ⟨rfl, rfl⟩ := Prod.mk.inj (Option.some.inj hlist)
      exact .ok ⟨rfl, h, rfl⟩
  | some fragmentedBuffer =>
      rw [hfound] at hsame
      rw [← hsame] at hlist
      simp only [Option.map_some] at hlist
      by_cases hshort : (p.parsingBuffer.drop data.toNat).length < header.length.toNat
      · rw [if_pos hshort] at hlist
        cases hlist
      obtain ⟨hin, hbytes⟩ := h.window (Nat.not_lt.mp hshort)
      rw [if_neg hshort] at hlist
      simp only [if_neg (Nat.not_lt.mpr hin)]
      have hlt : header.length.toUInt64.toNat < 2 ^ 32 := by
        rw [toNat_length]
        exact header.length.toNat_lt
      have happend := fragmentedBuffer.append_eq
        (Memory.ofBytes (q.parsingBuffer.block.drop data.toNat)) 0 hlt
      rw [toNat_length, Memory.bytes_ofBytes hin, hbytes] at happend
      rcases happend with hthrow | ⟨flag, fragmentedBuffer', happend, hbuffer⟩
      · exact .inl (by rw [hthrow]; rfl)
      · rw [happend]
        show ReturnsOrThrows (if _ then _ else _) _
        by_cases hlast : header.fragmentIndex.toNat + 1 = header.fragmentCount.toNat
        · rw [if_pos hlast] at hlist ⊢
          obtain ⟨rfl, rfl⟩ := Prod.mk.inj (Option.some.inj hlist)
          rw [← hbuffer]
          exact .ok ⟨toNat_length header, h.update header.identifier none [_], rfl⟩
        · rw [if_neg hlast] at hlist ⊢
          obtain ⟨rfl, rfl⟩ := Prod.mk.inj (Option.some.inj hlist)
          rw [← hbuffer]
          have hupdate := h.update header.identifier (some fragmentedBuffer') []
          rw [List.append_nil, List.append_nil] at hupdate
          exact .ok ⟨toNat_length header, hupdate, rfl⟩

/-! ## The loop -/

/-- Only the first 32 bytes are the header. -/
theorem decode_take {b : Bytes} (h : 32 ≤ b.length) :
    DTXMessageHeader.decode (b.take 32) = DTXMessageHeader.decode b := by
  have happend := DTXMessageHeader.decode_append (b := b.take 32) (by rw [List.length_take]; omega) (b.drop 32)
  rw [List.take_append_drop] at happend
  exact happend.symm

/-- A fragment takes no more bytes than there are, and does not touch the parsing buffer. -/
theorem parseMessageWithHeader_keeps {header : DTXMessageHeader} {data : Bytes} {n : Nat}
    {p' : DTXMessageParser} (h : p.parseMessageWithHeader header data header.length.toNat = some (n, p')) :
    p'.parsingBuffer = p.parsingBuffer ∧ n ≤ data.length := by
  rw [DTXMessageParser.parseMessageWithHeader_eq] at h
  obtain ⟨r, habsorb, hr⟩ := Option.map_eq_some_iff.mp h
  obtain ⟨rfl, rfl⟩ := Prod.mk.inj hr
  exact ⟨rfl, DTXMessageParser.absorb_le habsorb⟩

/-- The loop ends where the loop over the list ends. -/
def LoopExit.Refines (q : MemoryParser) : LoopExit → DTXMessageParser.LoopExit → Prop
  | .break q' consumedSize, .break p' consumedSize' =>
    consumedSize.toNat = consumedSize' ∧ consumedSize' ≤ p'.parsingBuffer.length ∧ q'.Refines p' ∧
      q'.parsingBuffer = q.parsingBuffer
  | .returnFalse q', .returnFalse p' => q'.Refines p'
  | _, _ => False

theorem LoopExit.Refines.of_buffer {q q' : MemoryParser} {e : LoopExit} {e' : DTXMessageParser.LoopExit}
    (h : e.Refines q' e') (hbuffer : q'.parsingBuffer = q.parsingBuffer) : e.Refines q e' := by
  cases e <;> cases e'
  · exact ⟨h.1, h.2.1, h.2.2.1, h.2.2.2.trans hbuffer⟩
  all_goals exact h

/-- **The loop**, from the bytes behind `consumed_size` on. No sum wraps, as the block is shorter than
    `2 ^ 63` bytes. -/
theorem parseLoop_refines (fuel : Nat) (h : Refines q p) {consumedSize : UInt64}
    (hle : consumedSize.toNat ≤ p.parsingBuffer.length)
    (hlist : DTXMessageParser.parseLoop fuel p consumedSize.toNat ≠ .overrun) :
    ReturnsOrThrows (parseLoop q.parsingBuffer.size fuel q consumedSize) fun e =>
      e.Refines q (DTXMessageParser.parseLoop fuel p consumedSize.toNat) := by
  induction fuel generalizing q p consumedSize with
  | zero => exact .ok ⟨rfl, hle, h, rfl⟩
  | succ fuel ih =>
      have hsize := h.size
      have hblock : p.parsingBuffer.length ≤ q.parsingBuffer.block.length := by
        rw [← h.contents, BufferMemory.contents, List.length_take]
        omega
      have hshort := h.short
      have hkSize : kDTXMessageHeaderSize.toNat = 32 := rfl
      have hkSize64 : kDTXMessageHeaderSize.toUInt64.toNat = 32 := rfl
      have hheader : (consumedSize + kDTXMessageHeaderSize.toUInt64).toNat = consumedSize.toNat + 32 := by
        rw [UInt64.toNat_add, hkSize64, Nat.mod_eq_of_lt (by omega)]
      have hlt : q.parsingBuffer.size < consumedSize + kDTXMessageHeaderSize.toUInt64 ↔
          p.parsingBuffer.length < consumedSize.toNat + kDTXMessageHeaderSize.toNat := by
        rw [UInt64.lt_iff_toNat_lt, hsize, hheader, hkSize]
      rw [DTXMessageParser.parseLoop] at hlist ⊢
      rw [parseLoop]
      simp only [hlt]
      by_cases hA : p.parsingBuffer.length < consumedSize.toNat + kDTXMessageHeaderSize.toNat
      · rw [if_pos hA, if_pos hA]
        exact .ok ⟨rfl, hle, h, rfl⟩
      rw [if_neg hA] at hlist
      rw [if_neg hA, if_neg hA]
      have hwindow := h.window (n := 32) (show 32 ≤ (p.parsingBuffer.drop consumedSize.toNat).length by
        rw [List.length_drop]
        omega)
      have hin : ¬ (q.parsingBuffer.block.drop consumedSize.toNat).length < kDTXMessageHeaderSize.toNat := by
        rw [hkSize]
        exact Nat.not_lt.mpr hwindow.1
      have hdecode : DTXMessageHeader.decode (q.parsingBuffer.block.drop consumedSize.toNat) =
          DTXMessageHeader.decode (p.parsingBuffer.drop consumedSize.toNat) := by
        rw [← decode_take hwindow.1, hwindow.2, decode_take]
        rw [List.length_drop]
        omega
      simp only [if_neg hin, hdecode]
      dsimp only at hlist ⊢
      generalize DTXMessageHeader.decode (p.parsingBuffer.drop consumedSize.toNat) = header at hlist ⊢
      by_cases hmagic : header.magic ≠ kDTXMessageHeaderMagic
      · rw [if_pos hmagic, if_pos hmagic]
        exact .ok h
      rw [if_neg hmagic] at hlist
      rw [if_neg hmagic, if_neg hmagic]
      by_cases hhsize : header.messageHeaderSize ≠ kDTXMessageHeaderSize
      · rw [if_pos hhsize, if_pos hhsize]
        exact .ok h
      rw [if_neg hhsize] at hlist
      rw [if_neg hhsize, if_neg hhsize]
      have hmessage64 : (header.messageHeaderSize + header.length).toUInt64.toNat =
          (header.messageHeaderSize + header.length).toNat := UInt32.toNat_toUInt64 _
      have hmessage := (header.messageHeaderSize + header.length).toNat_lt
      have hsum : (consumedSize + (header.messageHeaderSize + header.length).toUInt64).toNat =
          consumedSize.toNat + (header.messageHeaderSize + header.length).toNat := by
        rw [UInt64.toNat_add, hmessage64, Nat.mod_eq_of_lt (by omega)]
      have hlt' : q.parsingBuffer.size < consumedSize + (header.messageHeaderSize + header.length).toUInt64 ↔
          p.parsingBuffer.length <
            consumedSize.toNat + (header.messageHeaderSize + header.length).toNat := by
        rw [UInt64.lt_iff_toNat_lt, hsize, hsum]
      simp only [hlt']
      by_cases hB : p.parsingBuffer.length <
          consumedSize.toNat + (header.messageHeaderSize + header.length).toNat
      · rw [if_pos hB, if_pos hB]
        exact .ok ⟨rfl, hle, h, rfl⟩
      rw [if_neg hB] at hlist
      rw [if_neg hB, if_neg hB]
      have hdrop : (p.parsingBuffer.drop consumedSize.toNat).drop kDTXMessageHeaderSize.toNat =
          p.parsingBuffer.drop (consumedSize + kDTXMessageHeaderSize.toUInt64).toNat := by
        rw [List.drop_drop, hheader, hkSize]
      rw [hdrop] at hlist ⊢
      cases hfragment : p.parseMessageWithHeader header
          (p.parsingBuffer.drop (consumedSize + kDTXMessageHeaderSize.toUInt64).toNat)
          header.length.toNat with
      | none => exact absurd (by rw [hfragment]) hlist
      | some r =>
          obtain ⟨n, p'⟩ := r
          rw [hfragment] at hlist
          -- the list-level parser keeps its buffer, and takes no more than is there
          obtain ⟨hkept, htaken⟩ := parseMessageWithHeader_keeps hfragment
          rw [List.length_drop, hheader] at htaken
          refine (parseMessageWithHeader_refines h hfragment).bind fun r hr => ?_
          obtain ⟨m, q'⟩ := r
          obtain ⟨hm, hrefines, hbuffer⟩ := hr
          have hnext : (consumedSize + (header.messageHeaderSize.toUInt64 + m)).toNat =
              consumedSize.toNat + (header.messageHeaderSize.toNat + n) := by
            rw [UInt64.toNat_add, UInt64.toNat_add, hm, UInt32.toNat_toUInt64, not_not.mp hhsize, hkSize,
              Nat.mod_eq_of_lt (a := 32 + n) (by omega), Nat.mod_eq_of_lt (by omega)]
          have hle' : (consumedSize + (header.messageHeaderSize.toUInt64 + m)).toNat ≤
              p'.parsingBuffer.length := by
            rw [hnext, hkept, not_not.mp hhsize, hkSize]
            omega
          have hrest := ih hrefines hle' (by rwa [hnext])
          rw [hnext, hbuffer] at hrest
          refine hrest.mono fun e he => ?_
          exact he.of_buffer hbuffer

/-! ## One call -/

/-- `memmove` stays in the block. -/
theorem length_memmove {s : BufferMemory} {offset len : Nat} (h : offset + len ≤ s.block.length) :
    (s.memmove offset len).block.length = s.block.length := by
  unfold BufferMemory.memmove BufferMemory.block at *
  obtain ⟨buffer, size, capacity⟩ := s
  cases buffer with
  | none => rfl
  | some block =>
      simp only [Option.getD_some] at h
      simp only [Option.map_some, Option.getD_some, List.length_append, List.length_take, List.length_drop]
      omega

theorem length_memcpy {s : BufferMemory} {offset : Nat} {data : Bytes}
    (h : offset + data.length ≤ s.block.length) : (s.memcpy offset data).block.length = s.block.length := by
  unfold BufferMemory.memcpy BufferMemory.block at *
  obtain ⟨buffer, size, capacity⟩ := s
  cases buffer with
  | none => rfl
  | some block =>
      simp only [Option.getD_some] at h
      simp only [Option.map_some, Option.getD_some, List.length_append, List.length_take, List.length_drop]
      omega

/-- The consumed bytes are shifted out of block and list. -/
theorem shift_refines (h : Refines q p) {consumedSize : UInt64}
    (hle : consumedSize.toNat ≤ p.parsingBuffer.length) :
    ∃ q', q.shift consumedSize (q.parsingBuffer.size - consumedSize) = .ok q' ∧
      q'.Refines { p with parsingBuffer := p.parsingBuffer.drop consumedSize.toNat } := by
  have hsize := h.size
  have hle64 : consumedSize ≤ q.parsingBuffer.size := UInt64.le_iff_toNat_le.mpr (by rw [hsize]; exact hle)
  have hrest : (q.parsingBuffer.size - consumedSize).toNat = q.parsingBuffer.size.toNat - consumedSize.toNat :=
    UInt64.toNat_sub_of_le _ _ hle64
  have hcapacity := UInt64.le_iff_toNat_le.mp h.rep.size_le
  have hblock := h.rep.capacity
  have hroom : consumedSize.toNat + (q.parsingBuffer.size - consumedSize).toNat ≤
      q.parsingBuffer.block.length := by
    rw [hrest]
    omega
  refine ⟨_, if_neg (Nat.not_lt.mpr hroom), ⟨?_, ?_⟩, ?_, ?_, h.table, h.queue⟩
  · show q.parsingBuffer.size - consumedSize ≤ q.parsingBuffer.capacity
    rw [UInt64.le_iff_toNat_le, hrest]
    omega
  · exact (length_memmove hroom).trans hblock
  · exact (length_memmove hroom).symm ▸ h.short
  · rw [h.rep.contents_shift (by rw [hrest]; omega), h.contents]

/-- The part of `ParseIncomingBytes` behind the copy of the packet. -/
theorem parseBuffered_refines (h : Refines q p) {flag : Bool} {p' : DTXMessageParser}
    (hlist : p.parseIncomingBytes [] = some (flag, p')) :
    ReturnsOrThrows q.parseBuffered fun r => r.1 = flag ∧ r.2.Refines p' := by
  have hsize := h.size
  simp only [DTXMessageParser.parseIncomingBytes, List.append_nil] at hlist
  have hzero : (0 : UInt64).toNat = 0 := rfl
  have hloop := parseLoop_refines (p.parsingBuffer.length + 1) h (hzero ▸ Nat.zero_le _)
  rw [hzero] at hloop
  unfold parseBuffered
  simp only [hsize]
  refine (hloop ?_).bind fun e he => ?_
  · intro hover
    rw [hover] at hlist
    cases hlist
  cases hexit : DTXMessageParser.parseLoop (p.parsingBuffer.length + 1) p 0 with
  | overrun =>
      rw [hexit] at hlist
      cases hlist
  | returnFalse p'' =>
      rw [hexit] at hlist he
      obtain ⟨rfl, rfl⟩ := Prod.mk.inj (Option.some.inj hlist)
      cases e with
      | «break» _ _ => exact he.elim
      | returnFalse q' => exact .ok ⟨rfl, he⟩
  | «break» p'' consumedSize' =>
      rw [hexit] at hlist he
      cases e with
      | returnFalse _ => exact he.elim
      | «break» q' consumedSize =>
          obtain ⟨rfl, hle, hrefines, hbuffer⟩ := he
          have hsize' := hrefines.size
          rw [hbuffer, hsize] at hsize'
          have hpos : 0 < consumedSize ↔ 0 < consumedSize.toNat := UInt64.lt_iff_toNat_lt
          have hle64 : consumedSize ≤ q.parsingBuffer.size := UInt64.le_iff_toNat_le.mpr (by omega)
          have hleft : 0 < q.parsingBuffer.size - consumedSize ↔
              0 < p.parsingBuffer.length - consumedSize.toNat := by
            rw [UInt64.lt_iff_toNat_lt, UInt64.toNat_sub_of_le _ _ hle64, hsize]
            rfl
          simp only [hpos, hleft]
          simp only at hlist
          by_cases hconsumed : 0 < consumedSize.toNat
          · rw [if_pos hconsumed] at hlist ⊢
            by_cases hmore : 0 < p.parsingBuffer.length - consumedSize.toNat
            · rw [if_pos hmore] at hlist ⊢
              obtain ⟨rfl, rfl⟩ := Prod.mk.inj (Option.some.inj hlist)
              obtain ⟨q'', hshift, hrefines'⟩ := shift_refines hrefines hle
              rw [hbuffer] at hshift
              rw [hshift]
              exact .ok ⟨rfl, hrefines'⟩
            · rw [if_neg hmore] at hlist ⊢
              obtain ⟨rfl, rfl⟩ := Prod.mk.inj (Option.some.inj hlist)
              exact .ok ⟨rfl, hrefines⟩
          · rw [if_neg hconsumed] at hlist ⊢
            obtain ⟨rfl, rfl⟩ := Prod.mk.inj (Option.some.inj hlist)
            exact .ok ⟨rfl, hrefines⟩

/-- There is memory for the packet: the parsing buffer has room, or grows to less than `2 ^ 63` bytes, or has no
    block yet that a failure could lose. -/
def Room (q : MemoryParser) (buffer : Bytes) (answer : AllocAnswer) : Prop :=
  buffer.length < 2 ^ 63 ∧
    (q.parsingBuffer.capacity - q.parsingBuffer.size < UInt64.ofNat buffer.length →
      answer.isSome = true ∧ q.parsingBuffer.size.toNat + buffer.length + 127 < 2 ^ 63 ∨
        answer = none ∧ q.parsingBuffer.buffer = none)

instance (q : MemoryParser) (buffer : Bytes) (answer : AllocAnswer) : Decidable (q.Room buffer answer) :=
  inferInstanceAs (Decidable (_ ∧ (_ → _ ∧ _ ∨ _ ∧ _)))

/-- `Allocate` returns a pointer. -/
def Takes (q : MemoryParser) (buffer : Bytes) (answer : AllocAnswer) : Prop :=
  (q.parsingBuffer.allocate (UInt64.ofNat buffer.length) answer).1.isSome = true

instance (q : MemoryParser) (buffer : Bytes) (answer : AllocAnswer) : Decidable (q.Takes buffer answer) :=
  inferInstanceAs (Decidable (_ = true))

theorem toNat_packet {buffer : Bytes} (h : buffer.length < 2 ^ 63) :
    (UInt64.ofNat buffer.length).toNat = buffer.length := by
  rw [UInt64.toNat_ofNat', Nat.mod_eq_of_lt (by omega)]

/-- What `Allocate` does for a packet that there is memory for. -/
theorem Refines.allocateKeeps (h : Refines q p) {buffer : Bytes} {answer : AllocAnswer}
    (hroom : q.Room buffer answer) :
    q.parsingBuffer.AllocateKeeps (UInt64.ofNat buffer.length) answer := by
  refine (h.rep.allocateKeeps_iff answer).mpr fun hgrow => (hroom.2 hgrow).imp_left fun hgrows => ?_
  rw [toNat_packet hroom.1]
  exact ⟨hgrows.1, by omega⟩

/-- The block stays shorter than `2 ^ 63` bytes. -/
theorem Refines.short_allocate (h : Refines q p) {buffer : Bytes} {answer : AllocAnswer}
    (hroom : q.Room buffer answer) :
    (q.parsingBuffer.allocate (UInt64.ofNat buffer.length) answer).2.block.length < 2 ^ 63 := by
  by_cases hgrow : q.parsingBuffer.capacity - q.parsingBuffer.size < UInt64.ofNat buffer.length
  · rcases hroom.2 hgrow with ⟨hsome, hlt⟩ | ⟨rfl, hnone⟩
    · obtain ⟨undefined, rfl⟩ := Option.isSome_iff_exists.mp hsome
      obtain ⟨block, heq, hlength, -⟩ := BufferMemory.allocate_grows undefined hgrow
      have halign := BufferMemory.memAlign_128 (q.parsingBuffer.size + UInt64.ofNat buffer.length)
      have hsum : (q.parsingBuffer.size + UInt64.ofNat buffer.length).toNat =
          q.parsingBuffer.size.toNat + buffer.length := by
        rw [UInt64.toNat_add, toNat_packet hroom.1, Nat.mod_eq_of_lt (by omega)]
      rw [heq]
      show block.length < _
      omega
    · rw [BufferMemory.allocate_fails hgrow]
      exact Nat.pow_pos (by decide)
  · rw [BufferMemory.allocate_fits answer hgrow]
    exact h.short

/-- The packet is copied behind the bytes that are used. -/
theorem memcpy_refines (h : Refines q p) {buffer : Bytes} {answer : AllocAnswer} (hroom : q.Room buffer answer)
    {offset : UInt64} {memory : BufferMemory}
    (halloc : q.parsingBuffer.allocate (UInt64.ofNat buffer.length) answer = (some offset, memory)) :
    offset.toNat + buffer.length ≤ memory.block.length ∧
      Refines { q with parsingBuffer := memory.memcpy offset.toNat buffer }
        { p with parsingBuffer := p.parsingBuffer ++ buffer } := by
  have hkeeps := h.allocateKeeps hroom
  have hshort := h.short_allocate hroom
  have hfst : (q.parsingBuffer.allocate (UInt64.ofNat buffer.length) answer).1 = some offset := by rw [halloc]
  have hcontents := hkeeps.contents_append hfst (toNat_packet hroom.1).symm
  have hrep := hkeeps.rep
  obtain ⟨rfl, -, hin, -⟩ := hkeeps.success offset hfst
  rw [halloc] at hshort hcontents hrep hin
  rw [toNat_packet hroom.1] at hin
  refine ⟨hin, ⟨hrep.size_le, (length_memcpy hin).trans hrep.capacity⟩, ?_, ?_, h.table, h.queue⟩
  · exact (length_memcpy hin).symm ▸ hshort
  · rw [hcontents, h.contents]

/-- A packet that finds no memory is refused, and nothing changes. -/
theorem parseIncomingBytes_refused (h : Refines q p) {buffer : Bytes} {answer : AllocAnswer}
    (hroom : q.Room buffer answer) (htakes : ¬ q.Takes buffer answer) :
    q.parseIncomingBytes buffer answer = .ok (false, q) := by
  cases halloc : q.parsingBuffer.allocate (UInt64.ofNat buffer.length) answer with
  | mk ptr memory =>
      cases ptr with
      | some _ => exact absurd (by rw [Takes, halloc]; rfl) htakes
      | none =>
          have hsame := (h.allocateKeeps hroom).failure (by rw [halloc])
          rw [halloc] at hsame
          obtain rfl : memory = q.parsingBuffer := hsame
          rw [parseIncomingBytes, halloc]

/-- **One call** with a packet that finds memory. -/
theorem parseIncomingBytes_refines (h : Refines q p) {buffer : Bytes} {answer : AllocAnswer}
    (hroom : q.Room buffer answer) (htakes : q.Takes buffer answer) {flag : Bool} {p' : DTXMessageParser}
    (hlist : p.parseIncomingBytes buffer = some (flag, p')) :
    ReturnsOrThrows (q.parseIncomingBytes buffer answer) fun r => r.1 = flag ∧ r.2.Refines p' := by
  cases halloc : q.parsingBuffer.allocate (UInt64.ofNat buffer.length) answer with
  | mk ptr memory =>
      cases ptr with
      | none =>
          rw [Takes, halloc] at htakes
          cases htakes
      | some offset =>
          obtain ⟨hin, hrefines⟩ := memcpy_refines h hroom halloc
          rw [parseIncomingBytes, halloc]
          simp only [if_neg (Nat.not_lt.mpr hin)]
          refine parseBuffered_refines hrefines ?_
          rw [← hlist]
          simp only [DTXMessageParser.parseIncomingBytes, List.append_nil]

end
end MemoryParser

/-! ## Runs -/

/-- What a caller does with the parser, and how the allocation of a packet goes. -/
inductive MemoryCall where
  | parse (chunk : Bytes) (answer : AllocAnswer)
  | pop

/-- What `ParseIncomingBytes` returned, and whether there was a block for the packet. -/
structure PacketAnswer where
  taken : Bool
  returned : Bool
deriving DecidableEq

structure MemoryRun where
  parser : MemoryParser := {}
  delivered : List ParsedMessage := []
  answers : List PacketAnswer := []

namespace MemoryRun

def step (r : MemoryRun) : MemoryCall → Except MemoryFault MemoryRun
  | .parse chunk answer =>
    (r.parser.parseIncomingBytes chunk answer).map fun res =>
      { r with parser := res.2, answers := r.answers ++ [⟨r.parser.Takes chunk answer, res.1⟩] }
  | .pop =>
    let (messages, parser) := r.parser.popAllParsedMessages
    .ok { r with parser := parser, delivered := r.delivered ++ messages }

def run (r : MemoryRun) : List MemoryCall → Except MemoryFault MemoryRun
  | [] => .ok r
  | c :: calls => do
    let r ← r.step c
    r.run calls

/-- There is memory for the packet of a call. -/
def CallRoom (r : MemoryRun) : MemoryCall → Prop
  | .parse chunk answer => r.parser.Room chunk answer
  | .pop => True

/-- The call as a call of the parser over lists: a packet that is refused is none. -/
def callTaken (r : MemoryRun) : MemoryCall → List ParserCall
  | .parse chunk answer => if r.parser.Takes chunk answer then [.parse chunk] else []
  | .pop => [.pop]

/-- There is memory for every packet of the run. -/
def Room (r : MemoryRun) : List MemoryCall → Prop
  | [] => True
  | c :: calls =>
    r.CallRoom c ∧
      match r.step c with
      | .ok r => r.Room calls
      | .error _ => True

instance decidableCallRoom (r : MemoryRun) : ∀ c, Decidable (r.CallRoom c)
  | .parse chunk answer => inferInstanceAs (Decidable (r.parser.Room chunk answer))
  | .pop => isTrue trivial

instance decidableRoom : ∀ (r : MemoryRun) (calls : List MemoryCall), Decidable (r.Room calls)
  | _, [] => isTrue trivial
  | r, c :: calls =>
    have : Decidable (match r.step c with
        | .ok r => r.Room calls
        | .error _ => True) :=
      match r.step c with
      | .ok r => decidableRoom r calls
      | .error _ => isTrue trivial
    inferInstanceAs (Decidable (r.CallRoom c ∧ _))

/-- The calls of the run but for the packets that are refused. -/
def taken (r : MemoryRun) : List MemoryCall → List ParserCall
  | [] => []
  | c :: calls =>
    r.callTaken c ++
      match r.step c with
      | .ok r => r.taken calls
      | .error _ => []

/-- The run over lists has the same messages and, for the packets that are taken, the same answers; a packet
    that is refused is answered with false. -/
structure Refines (r : MemoryRun) (s : ParserRun) : Prop where
  parser : r.parser.Refines s.parser
  delivered : r.delivered = s.delivered
  answers : (r.answers.filter (·.taken)).map (·.returned) = s.answers
  refused : ∀ a ∈ r.answers, a.taken = false → a.returned = false

theorem refines_init : ({} : MemoryRun).Refines {} :=
  ⟨⟨BufferMemory.rep_init, by decide, rfl, fun _ => rfl, rfl⟩, rfl, rfl, by simp⟩

/-- One more answer. -/
theorem refused_append {answers : List PacketAnswer} {a : PacketAnswer}
    (h : ∀ b ∈ answers, b.taken = false → b.returned = false) (ha : a.taken = false → a.returned = false) :
    ∀ b ∈ answers ++ [a], b.taken = false → b.returned = false := by
  intro b hb
  rcases List.mem_append.mp hb with hold | hnew
  · exact h b hold
  · rw [List.mem_singleton.mp hnew]
    exact ha

/-- One call of the run. -/
theorem step_refines {r : MemoryRun} {s s' : ParserRun} {c : MemoryCall} (h : r.Refines s) (hroom : r.CallRoom c)
    (hlist : exec ParserRun.step s (r.callTaken c) = some s') :
    ReturnsOrThrows (r.step c) fun r' => r'.Refines s' := by
  cases c with
  | pop =>
      obtain ⟨s₁, hpop, hnil⟩ := exec_cons_eq_some.mp hlist
      obtain rfl := Option.some.inj hpop
      obtain rfl := Option.some.inj hnil
      refine .ok ⟨⟨h.parser.rep, h.parser.short, h.parser.contents, h.parser.table, rfl⟩, ?_, h.answers,
        h.refused⟩
      show r.delivered ++ r.parser.parsedMessageQueue = s.delivered ++ s.parser.parsedMessageQueue
      rw [h.delivered, h.parser.queue]
  | parse chunk answer =>
      rw [callTaken] at hlist
      rw [step]
      by_cases htakes : r.parser.Takes chunk answer
      · rw [if_pos htakes] at hlist
        obtain ⟨s₁, hparse, hnil⟩ := exec_cons_eq_some.mp hlist
        obtain rfl := Option.some.inj hnil
        obtain ⟨⟨flag, p'⟩, hcall, rfl⟩ := Option.map_eq_some_iff.mp hparse
        rcases MemoryParser.parseIncomingBytes_refines h.parser hroom htakes hcall with hthrow | ⟨res, hok, hres⟩
        · exact .inl (by rw [hthrow]; rfl)
        · rw [hok]
          refine .ok ⟨hres.2, h.delivered, ?_, refused_append h.refused ?_⟩
          · simp [List.filter_append, htakes, h.answers, hres.1]
          · simp [htakes]
      · rw [if_neg htakes] at hlist
        obtain rfl := Option.some.inj hlist
        rw [MemoryParser.parseIncomingBytes_refused h.parser hroom htakes]
        refine .ok ⟨h.parser, h.delivered, ?_, refused_append h.refused fun _ => rfl⟩
        simp [List.filter_append, htakes, h.answers]

/-- **Any calls**: the memory shows what the lists are and gives the same answers, as long as no window leaves
    the list and there is memory for the packets; the only other end is that a partial message gets too long for
    a vector. -/
theorem run_refines {r : MemoryRun} {s s' : ParserRun} (calls : List MemoryCall) (h : r.Refines s)
    (hroom : r.Room calls) (hlist : exec ParserRun.step s (r.taken calls) = some s') :
    ReturnsOrThrows (r.run calls) fun r' => r'.Refines s' := by
  induction calls generalizing r s with
  | nil =>
      obtain rfl := Option.some.inj hlist
      exact .ok h
  | cons c calls ih =>
      obtain ⟨s₁, hfirst, hrest⟩ := exec_append_eq_some.mp hlist
      rw [run]
      rcases step_refines h hroom.1 hfirst with hthrow | ⟨r', hok, hr'⟩
      · exact .inl (by rw [hthrow]; rfl)
      · have hroom' := hroom.2
        rw [hok] at hroom' hrest
        rw [hok]
        exact ih hr' hroom' hrest

/-- A frame in two packets, with a failed allocation in front of them. -/
def twoPackets : List MemoryCall :=
  [.parse ((emptyMessageFrame 1).take 20) none, .parse ((emptyMessageFrame 1).take 20) (some fun _ => 7),
    .parse ((emptyMessageFrame 1).drop 20 ++ [0x79]) none, .pop]

theorem run_refines_twoPackets :
    ∃ s', exec ParserRun.step {} (({} : MemoryRun).taken twoPackets) = some s' ∧ s'.delivered.length = 1 ∧
      s'.answers = [true, true] ∧
      ReturnsOrThrows (({} : MemoryRun).run twoPackets) fun r' => r'.Refines s' := by
  have hroom : ({} : MemoryRun).Room twoPackets := by decide +kernel
  have hlist : ((exec ParserRun.step {} (({} : MemoryRun).taken twoPackets)).map fun s =>
      (s.delivered.length, s.answers)) = some (1, [true, true]) := by decide +kernel
  obtain ⟨s', hs', heq⟩ := Option.map_eq_some_iff.mp hlist
  obtain ⟨hdelivered, hanswers⟩ := Prod.mk.inj heq
  exact ⟨s', hs', hdelivered, hanswers, run_refines twoPackets refines_init hroom hs'⟩

end MemoryRun
end IDevice
