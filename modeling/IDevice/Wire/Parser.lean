import IDevice.Wire.Header
import IDevice.Lib.Stream

/-!
# `Wire.Parser` — `DTXMessageParser`

The incremental parser of `dtxmessageparser.cpp`. Its state is the part of `parsing_buffer_` below
`Size()`, the partial messages keyed by identifier, and the queue of parsed messages. Allocations are
taken to succeed.

`DTXMessage::Deserialize(bytes, size)` is called in two places and its result is only stored, so a parsed
message is recorded by the byte string it is deserialized from, together with the fields that the parser
sets on it.

The second half shows that the parser *is* a stream reader: `dtxReader` is its loop body as a
`Stream.Reader`, and `parseIncomingBytes_eq` gives the result of a call as one `drain`.
-/

namespace IDevice

/-- A parsed message: the bytes handed to `DTXMessage::Deserialize`, and what
    `IDEVICE_SETUP_DTXMESSAGE_WITH_HREADER` and `SetCostSize` store in the result. -/
structure ParsedMessage where
  bytes : Bytes
  identifier : UInt32
  conversationIndex : UInt32
  channelCode : UInt32
  expectsReply : Bool
  costSize : Nat
deriving DecidableEq, Repr

def ParsedMessage.setup (header : DTXMessageHeader) (bytes : Bytes) : ParsedMessage where
  bytes := bytes
  identifier := header.identifier
  conversationIndex := header.conversationIndex
  channelCode := header.channelCode
  expectsReply := header.expectsReply != 0
  costSize := kDTXMessageHeaderSize.toNat + bytes.length

/-- `std::unordered_map<uint32_t, ByteBuffer>`. -/
abbrev FragmentTable := UInt32 → Option Bytes

namespace FragmentTable

def empty : FragmentTable := fun _ => none

/-- `unordered_map::insert`: an entry that exists is kept. -/
def insert (t : FragmentTable) (identifier : UInt32) (buffer : Bytes) : FragmentTable :=
  match t identifier with
  | some _ => t
  | none => Function.update t identifier (some buffer)

def set (t : FragmentTable) (identifier : UInt32) (buffer : Bytes) : FragmentTable :=
  Function.update t identifier (some buffer)

def erase (t : FragmentTable) (identifier : UInt32) : FragmentTable :=
  Function.update t identifier none

end FragmentTable

structure DTXMessageParser where
  parsingBuffer : Bytes := []
  fragmentedBuffersByIdentifier : FragmentTable := FragmentTable.empty
  parsedMessageQueue : List ParsedMessage := []

namespace DTXMessageParser

/-- `ParseMessageWithHeader`: how many of the bytes after the header are consumed. `data` is the parsing
    buffer from `data` on; `none` means that the window of `size` bytes leaves the parsing buffer. -/
def parseMessageWithHeader (p : DTXMessageParser) (header : DTXMessageHeader) (data : Bytes)
    (size : Nat) : Option (Nat × DTXMessageParser) :=
  if header.fragmentCount = 1 then
    if data.length < size then none
    else
      let message := ParsedMessage.setup header (data.take size)
      some (size, { p with parsedMessageQueue := p.parsedMessageQueue ++ [message] })
  else if header.fragmentIndex = 0 then
    let table := p.fragmentedBuffersByIdentifier.insert header.identifier []
    some (0, { p with fragmentedBuffersByIdentifier := table })
  else
    match p.fragmentedBuffersByIdentifier header.identifier with
    | none => some (0, p)
    | some fragmentedBuffer =>
      if data.length < size then none
      else
        let fragmentedBuffer := fragmentedBuffer ++ data.take size
        -- `fragment_count - 1` is computed in `int`, so a count of 0 has no last fragment
        if header.fragmentIndex.toNat + 1 = header.fragmentCount.toNat then
          let message := ParsedMessage.setup header fragmentedBuffer
          let table := p.fragmentedBuffersByIdentifier.erase header.identifier
          some (size, { p with fragmentedBuffersByIdentifier := table,
                               parsedMessageQueue := p.parsedMessageQueue ++ [message] })
        else
          let table := p.fragmentedBuffersByIdentifier.set header.identifier fragmentedBuffer
          some (size, { p with fragmentedBuffersByIdentifier := table })

/-- How the loop of `ParseIncomingBytes` ends. -/
inductive LoopExit where
  | break (p : DTXMessageParser) (consumedSize : Nat)
  | returnFalse (p : DTXMessageParser)
  | overrun

/-- The `while (true)` loop of `ParseIncomingBytes`. Every iteration that continues consumes a header,
    so the number of buffered bytes bounds the iterations. -/
def parseLoop : Nat → DTXMessageParser → Nat → LoopExit
  | 0, p, consumedSize => .break p consumedSize
  | fuel + 1, p, consumedSize =>
    let bufferSize := p.parsingBuffer.length
    if bufferSize < consumedSize + kDTXMessageHeaderSize.toNat then .break p consumedSize  -- Case A
    else
      let ptr := p.parsingBuffer.drop consumedSize
      let header := DTXMessageHeader.decode ptr
      if header.magic ≠ kDTXMessageHeaderMagic then .returnFalse p
      else if header.messageHeaderSize ≠ kDTXMessageHeaderSize then .returnFalse p
      else
        -- the sum of two `uint32_t`, which wraps
        let messageSizeWithHeader := (header.messageHeaderSize + header.length).toNat
        if bufferSize < consumedSize + messageSizeWithHeader then .break p consumedSize  -- Case B
        else
          match parseMessageWithHeader p header (ptr.drop kDTXMessageHeaderSize.toNat)
              header.length.toNat with
          | none => .overrun
          | some (consumedLength, p) =>
            parseLoop fuel p (consumedSize + (header.messageHeaderSize.toNat + consumedLength))

/-- `ParseIncomingBytes`: the returned flag and the parser after the call, `none` if the call reads
    past the parsing buffer. -/
def parseIncomingBytes (p : DTXMessageParser) (buffer : Bytes) : Option (Bool × DTXMessageParser) :=
  let p := { p with parsingBuffer := p.parsingBuffer ++ buffer }
  let bufferSize := p.parsingBuffer.length
  match parseLoop (bufferSize + 1) p 0 with
  | .overrun => none
  | .returnFalse p => some (false, p)
  | .break p consumedSize =>
    if 0 < consumedSize then
      if 0 < bufferSize - consumedSize then
        some (true, { p with parsingBuffer := p.parsingBuffer.drop consumedSize })
      else
        some (true, p)  -- nothing is left, and nothing is moved or resized
    else
      some (true, p)

def popAllParsedMessages (p : DTXMessageParser) : List ParsedMessage × DTXMessageParser :=
  (p.parsedMessageQueue, { p with parsedMessageQueue := [] })

/-! ## The parser as a stream reader -/

/-- What one fragment does to the partial messages, and the message it completes. -/
def absorb (t : FragmentTable) (header : DTXMessageHeader) (data : Bytes) :
    Option (Nat × FragmentTable × List ParsedMessage) :=
  (parseMessageWithHeader { fragmentedBuffersByIdentifier := t } header data header.length.toNat).map
    fun r => (r.1, r.2.fragmentedBuffersByIdentifier, r.2.parsedMessageQueue)

/-- The loop body of `ParseIncomingBytes` on the bytes from `consumed_size` on. -/
def front (t : FragmentTable) (b : Bytes) : Stream.Front FragmentTable ParsedMessage :=
  let header := DTXMessageHeader.decode b
  if b.length < 32 then .wait
  else if header.magic ≠ kDTXMessageHeaderMagic then .reject
  else if header.messageHeaderSize ≠ kDTXMessageHeaderSize then .reject
  else if b.length < (header.messageHeaderSize + header.length).toNat then .wait
  else
    match absorb t header (b.drop 32) with
    | none => .stuck
    | some (n, t', out) => .take (32 + n) t' out

/-- `ParseMessageWithHeader` touches the partial messages and the queue as `absorb` says, and nothing
    else. -/
theorem parseMessageWithHeader_eq (p : DTXMessageParser) (header : DTXMessageHeader) (data : Bytes) :
    parseMessageWithHeader p header data header.length.toNat =
      (absorb p.fragmentedBuffersByIdentifier header data).map fun r =>
        (r.1, { p with fragmentedBuffersByIdentifier := r.2.1,
                       parsedMessageQueue := p.parsedMessageQueue ++ r.2.2 }) := by
  unfold absorb parseMessageWithHeader
  by_cases hcount : header.fragmentCount = 1
  · by_cases hlen : data.length < header.length.toNat <;> simp [hcount, hlen]
  · by_cases hindex : header.fragmentIndex = 0
    · simp [hcount, hindex]
    · simp only [hcount, hindex, if_false]
      cases p.fragmentedBuffersByIdentifier header.identifier with
      | none => simp
      | some fragmentedBuffer =>
          by_cases hlen : data.length < header.length.toNat
          · simp [hlen]
          · by_cases hlast : header.fragmentIndex.toNat + 1 = header.fragmentCount.toNat <;>
              simp [hlen, hlast]

/-- A fragment takes no more than its announced length, and no more than there is. -/
theorem absorb_le {t t' : FragmentTable} {header : DTXMessageHeader} {data : Bytes} {n : Nat}
    {out : List ParsedMessage} (h : absorb t header data = some (n, t', out)) : n ≤ data.length := by
  unfold absorb parseMessageWithHeader at h
  simp only [Option.map_eq_some_iff] at h
  obtain ⟨r, hr, heq⟩ := h
  have hn : r.1 = n := congrArg Prod.fst heq
  subst hn
  split at hr
  · split at hr
    · cases hr
    · cases hr; simp only; omega
  · split at hr
    · cases hr; simp
    · -- a continuation fragment
      split at hr
      · cases hr; simp
      · split at hr
        · cases hr
        · split at hr <;> (cases hr; simp only; omega)

/-- Bytes behind the window of a fragment do not matter. -/
theorem absorb_append {t t' : FragmentTable} {header : DTXMessageHeader} {data : Bytes} {n : Nat}
    {out : List ParsedMessage} (c : Bytes) (h : absorb t header data = some (n, t', out)) :
    absorb t header (data ++ c) = some (n, t', out) := by
  rw [← h]
  unfold absorb parseMessageWithHeader at h ⊢
  by_cases hlen : data.length < header.length.toNat
  · -- the window leaves the data, so only the branches that do not look at it are left
    by_cases hcount : header.fragmentCount = 1
    · simp [hcount, hlen] at h
    · by_cases hindex : header.fragmentIndex = 0
      · simp [hcount, hindex]
      · simp only [hcount, hindex, if_false] at h ⊢
        cases hfound : t header.identifier with
        | none => simp
        | some fragmentedBuffer => simp [hfound, hlen] at h
  · have hlen' : ¬ (data ++ c).length < header.length.toNat := by
      simp only [List.length_append]
      omega
    have htake : (data ++ c).take header.length.toNat = data.take header.length.toNat :=
      List.take_append_of_le_length (by omega)
    simp only [hlen, hlen', htake]

/-- **The parser's loop body is an incremental reader.** -/
def dtxReader : Stream.Reader FragmentTable UInt8 ParsedMessage where
  front := front
  take_pos := by
    intro t b n t' out h
    unfold front at h
    grind
  take_le := by
    intro t b n t' out h
    unfold front at h
    simp only at h
    split_ifs at h with h32
    split at h
    · cases h
    · next n' t'' out' habsorb =>
      have hle := absorb_le habsorb
      cases h
      simp only [List.length_drop] at hle
      omega
  take_append := by
    intro t b n t' out c h
    unfold front at h ⊢
    simp only at h ⊢
    split_ifs at h with h32 hmagic hsize hlen
    split at h
    · cases h
    · next n' t'' out' habsorb =>
      have h32' : 32 ≤ b.length := by omega
      rw [DTXMessageHeader.decode_append h32', if_neg (by simp; omega), if_neg hmagic, if_neg hsize,
        if_neg (by simp only [List.length_append]; omega), List.drop_append_of_le_length h32',
        absorb_append c habsorb]
      exact h
  reject_append := by
    intro t b c h
    unfold front at h ⊢
    simp only at h ⊢
    split_ifs at h with h32 hmagic hsize hlen
    · rw [DTXMessageHeader.decode_append (by omega), if_neg (by simp; omega), if_pos hmagic]
    · rw [DTXMessageHeader.decode_append (by omega), if_neg (by simp; omega), if_neg hmagic,
        if_pos hsize]
    · split at h <;> cases h

/-! ### The front, case by case -/

section Front
variable {t : FragmentTable} {b : Bytes}

/-- Case A: the header is incomplete. -/
theorem front_short (h : b.length < 32) : dtxReader.front t b = .wait := by
  simp [dtxReader, front, h]

theorem front_badMagic (h : ¬ b.length < 32)
    (hmagic : (DTXMessageHeader.decode b).magic ≠ kDTXMessageHeaderMagic) :
    dtxReader.front t b = .reject := by
  simp [dtxReader, front, h, hmagic]

theorem front_badSize (h : ¬ b.length < 32)
    (hmagic : ¬ (DTXMessageHeader.decode b).magic ≠ kDTXMessageHeaderMagic)
    (hsize : (DTXMessageHeader.decode b).messageHeaderSize ≠ kDTXMessageHeaderSize) :
    dtxReader.front t b = .reject := by
  simp only [dtxReader, front]
  rw [if_neg h, if_neg hmagic, if_pos hsize]

/-- Case B: the header is complete and good, and fewer bytes than it announces have arrived. -/
theorem front_partial {header : DTXMessageHeader} (hh : DTXMessageHeader.decode b = header)
    (h : ¬ b.length < 32) (hmagic : ¬ header.magic ≠ kDTXMessageHeaderMagic)
    (hsize : ¬ header.messageHeaderSize ≠ kDTXMessageHeaderSize)
    (hlen : b.length < (header.messageHeaderSize + header.length).toNat) :
    dtxReader.front t b = .wait := by
  simp only [dtxReader, front]
  rw [hh, if_neg h, if_neg hmagic, if_neg hsize, if_pos hlen]

/-- Case C: a good header with all the bytes it announces. -/
theorem front_complete {header : DTXMessageHeader} (hh : DTXMessageHeader.decode b = header)
    (h : ¬ b.length < 32) (hmagic : ¬ header.magic ≠ kDTXMessageHeaderMagic)
    (hsize : ¬ header.messageHeaderSize ≠ kDTXMessageHeaderSize)
    (hlen : ¬ b.length < (header.messageHeaderSize + header.length).toNat) :
    dtxReader.front t b =
      match absorb t header (b.drop 32) with
      | none => .stuck
      | some (n, t', out) => .take (32 + n) t' out := by
  simp only [dtxReader, front]
  rw [hh, if_neg h, if_neg hmagic, if_neg hsize, if_neg hlen]

end Front

/-! ## One call is one `drain` -/

/-- A parser whose loop has read on: new partial messages, and more messages in the queue. -/
def advance (p : DTXMessageParser) (t : FragmentTable) (out : List ParsedMessage) : DTXMessageParser :=
  { p with fragmentedBuffersByIdentifier := t, parsedMessageQueue := p.parsedMessageQueue ++ out }

theorem advance_advance (p : DTXMessageParser) (t t' : FragmentTable) (out out' : List ParsedMessage) :
    (p.advance t out).advance t' out' = p.advance t' (out ++ out') := by
  simp [advance]

/-- The exit of the loop that started with `p` at `consumedSize` and drained the rest of the buffer. -/
def exitOf (p : DTXMessageParser) (d : Stream.Drained FragmentTable UInt8 ParsedMessage) : LoopExit :=
  match d.verdict with
  | .wait => .break (p.advance d.state d.out) (p.parsingBuffer.length - d.rest.length)
  | .reject => .returnFalse (p.advance d.state d.out)
  | .stuck => .overrun

theorem exitOf_after (p : DTXMessageParser) (t : FragmentTable) (out : List ParsedMessage)
    (d : Stream.Drained FragmentTable UInt8 ParsedMessage) :
    exitOf (p.advance t out) d = exitOf p (d.after out) := by
  unfold exitOf
  simp only [advance_advance, Stream.Drained.after_verdict, Stream.Drained.after_state,
    Stream.Drained.after_out, Stream.Drained.after_rest]
  rfl

/-- The loop is the reader's `drain` of the bytes from `consumed_size` on. -/
theorem parseLoop_eq (fuel : Nat) (p : DTXMessageParser) {consumedSize : Nat}
    (hle : consumedSize ≤ p.parsingBuffer.length) :
    parseLoop fuel p consumedSize =
      exitOf p (dtxReader.drainFuel fuel p.fragmentedBuffersByIdentifier
        (p.parsingBuffer.drop consumedSize)) := by
  induction fuel generalizing p consumedSize with
  | zero =>
      simp only [parseLoop, Stream.Reader.drainFuel, exitOf, advance, List.append_nil,
        List.length_drop, Nat.sub_sub_self hle]
  | succ fuel ih =>
      have hexit : p.parsingBuffer.length - (p.parsingBuffer.drop consumedSize).length = consumedSize := by
        simp only [List.length_drop]
        omega
      have hwait : exitOf p ⟨p.fragmentedBuffersByIdentifier, [], p.parsingBuffer.drop consumedSize,
          .wait⟩ = .break p consumedSize := by
        simp only [exitOf, advance, List.append_nil, hexit]
      have hreject : exitOf p ⟨p.fragmentedBuffersByIdentifier, [], p.parsingBuffer.drop consumedSize,
          .reject⟩ = .returnFalse p := by
        simp only [exitOf, advance, List.append_nil]
      have hsize32 : kDTXMessageHeaderSize.toNat = 32 := rfl
      have hlen32 : (p.parsingBuffer.drop consumedSize).length =
          p.parsingBuffer.length - consumedSize := List.length_drop
      simp only [parseLoop, hsize32]
      -- Case A: the header is not complete
      by_cases hA : p.parsingBuffer.length < consumedSize + 32
      · rw [if_pos hA, Stream.Reader.drainFuel, front_short (by omega)]
        exact hwait.symm
      have h32 : ¬ (p.parsingBuffer.drop consumedSize).length < 32 := by omega
      rw [if_neg hA]
      generalize hh : DTXMessageHeader.decode (p.parsingBuffer.drop consumedSize) = header
      by_cases hmagic : header.magic ≠ kDTXMessageHeaderMagic
      · rw [if_pos hmagic, Stream.Reader.drainFuel, front_badMagic h32 (hh ▸ hmagic)]
        exact hreject.symm
      rw [if_neg hmagic]
      by_cases hsize : header.messageHeaderSize ≠ kDTXMessageHeaderSize
      · rw [if_pos hsize, Stream.Reader.drainFuel, front_badSize h32 (hh ▸ hmagic) (hh ▸ hsize)]
        exact hreject.symm
      rw [if_neg hsize]
      -- Case B: the payload is not complete
      by_cases hB : p.parsingBuffer.length <
          consumedSize + (header.messageHeaderSize + header.length).toNat
      · rw [if_pos hB, Stream.Reader.drainFuel, front_partial hh h32 hmagic hsize (by omega)]
        exact hwait.symm
      -- Case C: a header with its payload, which is what the reader takes as one piece
      rw [if_neg hB, parseMessageWithHeader_eq, Stream.Reader.drainFuel,
        front_complete hh h32 hmagic hsize (by omega)]
      cases habsorb : absorb p.fragmentedBuffersByIdentifier header
          ((p.parsingBuffer.drop consumedSize).drop 32) with
      | none => rfl
      | some r =>
          obtain ⟨n, t, out⟩ := r
          have hn := absorb_le habsorb
          simp only [List.length_drop] at hn
          have hhsize : header.messageHeaderSize.toNat = 32 := by
            rw [not_not.mp hsize]
            rfl
          have hle' : consumedSize + (32 + n) ≤ (p.advance t out).parsingBuffer.length := by
            show _ ≤ p.parsingBuffer.length
            omega
          have hnext := ih (p.advance t out) hle'
          rw [exitOf_after] at hnext
          simp only [Option.map_some, hhsize, List.drop_drop]
          exact hnext

/-- What the call leaves in the parsing buffer: the unread rest, but the whole buffer when there is no
    rest. -/
def leftover (b rest : Bytes) : Bytes := if rest = [] then b else rest

/-- **A call of `ParseIncomingBytes` is one `drain`** of the buffered and the new bytes. -/
theorem parseIncomingBytes_eq {p : DTXMessageParser} {buffer : Bytes}
    {d : Stream.Drained FragmentTable UInt8 ParsedMessage}
    (hd : dtxReader.drain p.fragmentedBuffersByIdentifier (p.parsingBuffer ++ buffer) = d) :
    parseIncomingBytes p buffer =
      match d.verdict with
      | .wait => some (true, { p.advance d.state d.out with
          parsingBuffer := leftover (p.parsingBuffer ++ buffer) d.rest })
      | .reject => some (false, { p.advance d.state d.out with
          parsingBuffer := p.parsingBuffer ++ buffer })
      | .stuck => none := by
  have hloop : parseLoop ((p.parsingBuffer ++ buffer).length + 1)
      { p with parsingBuffer := p.parsingBuffer ++ buffer } 0 =
        exitOf { p with parsingBuffer := p.parsingBuffer ++ buffer } d :=
    hd ▸ parseLoop_eq _ _ (Nat.zero_le _)
  simp only [parseIncomingBytes, hloop]
  -- what is consumed is in front of what the reader leaves
  obtain ⟨front, hfront⟩ := hd ▸ dtxReader.drain_rest_suffix p.fragmentedBuffersByIdentifier
    (p.parsingBuffer ++ buffer)
  have hsplit : (p.parsingBuffer ++ buffer).length = front.length + d.rest.length := by
    rw [← hfront, List.length_append]
  cases hv : d.verdict with
  | reject => simp [exitOf, hv, advance]
  | stuck => simp [exitOf, hv]
  | wait =>
      have hdrop : (p.parsingBuffer ++ buffer).drop front.length = d.rest := by
        rw [← hfront]
        simp
      simp only [exitOf, hv, advance, leftover]
      rw [hsplit, Nat.add_sub_cancel]
      by_cases hpos : 0 < front.length
      · -- Case D: the rest is moved to the front, unless there is none
        by_cases hrest : d.rest = []
        · simp [hpos, hrest]
        · have hlen : 0 < d.rest.length := List.length_pos_of_ne_nil hrest
          simp [hpos, hrest, hdrop, hlen]
      · -- nothing was consumed: the rest is the whole buffer
        have hnil : front = [] := List.length_eq_zero_iff.mp (by omega)
        have hall : d.rest = p.parsingBuffer ++ buffer := by simpa [hnil] using hfront
        simp [hnil, hall]

end DTXMessageParser
end IDevice
