import Mathlib.Data.Prod.Lex
import IDevice.Lib.StdSort
import IDevice.Wire.Received

/-!
# `Tools.Decoder` — the decoder of dump files

`tools/decoder.cpp` reads files of messages, in pieces of 8 KiB, and prints what the parser finds in them, ordered by
identifier. A limit stops the reading of a file when so many messages are parsed, and then the printing.

`decodeDtxmsgDumpFile_spec` is about one file: of the messages of the whole file the decoder has the first, all of
them or at least as many as the limit. That is so as long as no piece but the last ends where everything is consumed
(`PiecesEndInside`). `decoderMain_prints` says which messages are printed and in what order.
-/

namespace IDevice

open Machine Stream StdSort

namespace Decoder

/-- `buffer_size`. -/
def bufferSize : Nat := 8 * 1024

/-- `limit != -1 && count >= limit`, where the `int` becomes a `size_t`. -/
def reached (limit : Int32) (count : Nat) : Bool :=
  limit ≠ -1 ∧ limit.toInt64.toUInt64.toNat ≤ count

/-- The `while (true)` loop of `decode_dtxmsg_dump_file`, on what is left of the file. Every piece that is parsed
    takes a byte, so the length of the file bounds the iterations; `none` is that of the parser. -/
def decodeLoop (limit : Int32) : Nat → DTXMessageParser → Bytes → Option DTXMessageParser
  | 0, parser, _ => some parser
  | fuel + 1, parser, f =>
    if reached limit parser.parsedMessageQueue.length then some parser
    else
      let buffer := f.take bufferSize
      if buffer = [] then some parser  -- EOF
      else
        match parser.parseIncomingBytes buffer with
        | none => none
        | some (false, parser) => some parser
        | some (true, parser) => decodeLoop limit fuel parser (f.drop bufferSize)

/-- `decode_dtxmsg_dump_file`; `none` is a file that cannot be opened. -/
def decodeDtxmsgDumpFile (limit : Int32) : Option Bytes → Option (List ParsedMessage)
  | none => some []
  | some f => (decodeLoop limit (f.length + 1) {} f).map fun parser => parser.popAllParsedMessages.1

/-- The comparator of `decoder_main`. -/
def comesBefore (a b : ParsedMessage) : Bool :=
  if a.identifier ≠ b.identifier then a.identifier < b.identifier else a.conversationIndex < b.conversationIndex

/-- The loop that prints: the messages that it dumps, when `msg_count` are dumped already. -/
def dumpLoop (limit : Int32) (msgCount : Nat) : List ParsedMessage → List ParsedMessage
  | [] => []
  | msg :: messages => if reached limit msgCount then [] else msg :: dumpLoop limit (msgCount + 1) messages

/-- The loop over the files. -/
def decodeFiles (limit : Int32) (messages : List ParsedMessage) : List (Option Bytes) → Option (List ParsedMessage)
  | [] => some messages
  | file :: dumpFile => do
    let subvec ← decodeDtxmsgDumpFile limit file
    decodeFiles limit (messages ++ subvec) dumpFile

/-- `decoder_main`: the messages it dumps, one after the other. -/
def decoderMain (sorter : Sorter ParsedMessage) (limit : Int32) (dumpFile : List (Option Bytes)) :
    Option (List ParsedMessage) :=
  (decodeFiles limit [] dumpFile).map fun messages => dumpLoop limit 0 (sorter.sort comesBefore messages)

/-! ## The order -/

theorem comesBefore_iff {a b : ParsedMessage} :
    comesBefore a b = true ↔ a.identifier < b.identifier ∨
      a.identifier = b.identifier ∧ a.conversationIndex < b.conversationIndex := by
  unfold comesBefore
  by_cases hsame : a.identifier = b.identifier
  · simp [hsame]
  · simp [hsame]

/-- The comparator is a strict weak ordering, as `std::sort` needs it. -/
theorem strictWeakOrder_comesBefore : StrictWeakOrder comesBefore := by
  apply StrictWeakOrder.ofKey fun m : ParsedMessage => toLex (m.identifier.toNat, m.conversationIndex.toNat)
  intro a b
  rw [comesBefore_iff, Prod.Lex.toLex_lt_toLex, UInt32.lt_iff_toNat_lt, UInt32.lt_iff_toNat_lt, UInt32.toNat_inj]

/-! ## The pieces of a file -/

/-- The pieces that are read of `f`, behind `read`: in none of them a frame needs bytes from behind it, and none but
    the last ends where everything read is consumed. -/
structure PiecesEndInside (read f : Bytes) : Prop where
  notStuck : ∀ n, (readStream (read ++ f.take (n * bufferSize))).verdict ≠ .stuck
  inside : ∀ n, 0 < n → n * bufferSize < f.length → unconsumed (read ++ f.take (n * bufferSize)) ≠ []

theorem take_piece (f : Bytes) (n : Nat) :
    f.take bufferSize ++ (f.drop bufferSize).take (n * bufferSize) = f.take ((n + 1) * bufferSize) := by
  rw [← List.take_add, Nat.succ_mul, Nat.add_comm]

/-- Behind the first piece. -/
theorem PiecesEndInside.tail {read f : Bytes} (h : PiecesEndInside read f) :
    PiecesEndInside (read ++ f.take bufferSize) (f.drop bufferSize) := by
  refine ⟨?_, ?_⟩
  · intro n
    rw [List.append_assoc, take_piece]
    exact h.notStuck (n + 1)
  · intro n hn hmore
    rw [List.append_assoc, take_piece]
    apply h.inside (n + 1) (Nat.succ_pos n)
    rw [List.length_drop] at hmore
    rw [Nat.succ_mul]
    omega

theorem PiecesEndInside.first {read f : Bytes} (h : PiecesEndInside read f) :
    (readStream (read ++ f.take bufferSize)).verdict ≠ .stuck := by
  have hfirst := h.notStuck 1
  rwa [Nat.one_mul] at hfirst

/-- A file that is read in one piece. -/
theorem piecesEndInside_of_short {f : Bytes} (hshort : f.length ≤ bufferSize)
    (hnotStuck : (readStream f).verdict ≠ .stuck) : PiecesEndInside [] f := by
  refine ⟨?_, ?_⟩
  · intro n
    rw [List.nil_append]
    cases n with
    | zero =>
        rw [Nat.zero_mul, List.take_zero]
        exact inStep_init.notStuck
    | succ n =>
        rwa [List.take_of_length_le]
        exact hshort.trans (Nat.le_mul_of_pos_left _ (Nat.succ_pos n))
  · intro n hn hmore
    have := Nat.le_mul_of_pos_left bufferSize hn
    omega

/-- Where the loop is, when `read` is read and `f` is left: the messages are those of `read`, and the parser is in
    step unless this is the end. -/
structure Reading (read f : Bytes) (parser : DTXMessageParser) : Prop where
  messages : parser.parsedMessageQueue = (readStream read).out
  inStep : f ≠ [] → InStep read { parser := parser }

/-- One piece: the loop goes on, or the parser has met a header that it rejects. -/
theorem parse_piece {read piece : Bytes} {parser : DTXMessageParser} (h : InStep read { parser := parser })
    (hnotStuck : (readStream (read ++ piece)).verdict ≠ .stuck) :
    ∃ ret parser', parser.parseIncomingBytes piece = some (ret, parser') ∧
      parser'.parsedMessageQueue = (readStream (read ++ piece)).out ∧
      if ret then unconsumed (read ++ piece) ≠ [] → InStep (read ++ piece) { parser := parser' }
      else (readStream (read ++ piece)).verdict = .reject := by
  have happend := readStream_append h.notStuck piece
  have hbuffer : parser.parsingBuffer = unconsumed read := h.buffer
  have htable : parser.fragmentedBuffersByIdentifier = (readStream read).state := h.table
  have hqueue : parser.parsedMessageQueue = (readStream read).out := h.messages
  generalize hd : DTXMessageParser.dtxReader.drain (readStream read).state (unconsumed read ++ piece) = d at happend
  rw [← hbuffer, ← htable] at hd
  have hcall := DTXMessageParser.parseIncomingBytes_eq hd
  rw [unconsumed, happend]
  rw [happend, Drained.after_verdict] at hnotStuck
  have hout : parser.parsedMessageQueue ++ d.out = (d.after (readStream read).out).out := by
    rw [hqueue, Drained.after_out]
  cases hv : d.verdict with
  | stuck => exact absurd hv hnotStuck
  | reject =>
      rw [hv] at hcall
      exact ⟨false, _, hcall, hout, hv⟩
  | wait =>
      rw [hv] at hcall
      refine ⟨true, _, hcall, hout, ?_⟩
      intro hrest
      refine ⟨?_, ?_, ?_, ?_⟩
      · rw [unconsumed, happend]
        exact if_neg hrest
      · rw [happend]
        rfl
      · rw [happend]
        exact hout
      · rw [happend, Drained.after_verdict, hv]
        decide

/-- **The loop over the pieces**: it ends with the first messages of the file, all of them unless the limit is
    reached. -/
theorem decodeLoop_spec (limit : Int32) {fuel : Nat} {read f : Bytes} {parser : DTXMessageParser}
    (h : Reading read f parser) (hpieces : PiecesEndInside read f) (hfuel : f.length < fuel) :
    ∃ parser', decodeLoop limit fuel parser f = some parser' ∧
      parser'.parsedMessageQueue <+: (readStream (read ++ f)).out ∧
      (parser'.parsedMessageQueue = (readStream (read ++ f)).out ∨
        reached limit parser'.parsedMessageQueue.length = true) := by
  induction fuel generalizing read f parser with
  | zero => exact absurd hfuel (Nat.not_lt_zero _)
  | succ fuel ih =>
      rw [decodeLoop]
      by_cases hreached : reached limit parser.parsedMessageQueue.length = true
      · rw [if_pos hreached]
        refine ⟨parser, rfl, ?_, .inr hreached⟩
        rw [h.messages]
        by_cases hend : f = []
        · have hwhole : read ++ f = read := by rw [hend, List.append_nil]
          exact hwhole.symm ▸ List.prefix_rfl
        · exact readStream_out_isPrefix (List.prefix_append _ _) (h.inStep hend).notStuck
      rw [if_neg hreached]
      by_cases hend : f = []
      · subst hend
        rw [List.append_nil]
        exact ⟨parser, rfl, h.messages ▸ List.prefix_rfl, .inl h.messages⟩
      -- another piece
      have hpiece : f.take bufferSize ≠ [] := by
        rw [ne_eq, List.take_eq_nil_iff]
        rintro (hzero | hnil)
        · cases hzero
        · exact hend hnil
      obtain ⟨ret, parser', hcall, hmessages, hret⟩ := parse_piece (h.inStep hend) hpieces.first
      have hsplit : read ++ f = read ++ f.take bufferSize ++ f.drop bufferSize := by
        rw [List.append_assoc, List.take_append_drop]
      simp only [if_neg hpiece, hcall]
      cases ret with
      | false =>
          -- the rest of the file is not read, and the parser would not read on either
          have hsame := Reader.drain_append_reject _ _ (f.drop bufferSize) hret
          rw [hsplit]
          exact ⟨parser', rfl, hmessages ▸ hsame ▸ List.prefix_rfl, .inl (hmessages.trans hsame.symm)⟩
      | true =>
          have hreading : Reading (read ++ f.take bufferSize) (f.drop bufferSize) parser' := by
            refine ⟨hmessages, ?_⟩
            intro hmore
            apply hret
            have hinside := hpieces.inside 1 Nat.one_pos
            rw [Nat.one_mul] at hinside
            apply hinside
            rw [ne_eq, List.drop_eq_nil_iff] at hmore
            exact Nat.not_le.mp hmore
          rw [hsplit]
          apply ih hreading hpieces.tail
          rw [List.length_drop]
          have := List.length_pos_iff.mpr hend
          have hsize : bufferSize = 8192 := rfl
          omega

/-! ## All files -/

/-- The messages that a file consists of; one that cannot be opened has none. -/
def messagesOf (file : Option Bytes) : List ParsedMessage := (readStream (file.getD [])).out

/-- The first messages of a file, all of them unless the limit is reached. -/
def FirstMessages (limit : Int32) (file : Option Bytes) (messages : List ParsedMessage) : Prop :=
  messages <+: messagesOf file ∧ (messages = messagesOf file ∨ reached limit messages.length = true)

theorem decodeDtxmsgDumpFile_spec (limit : Int32) {file : Option Bytes}
    (hpieces : PiecesEndInside [] (file.getD [])) :
    ∃ messages, decodeDtxmsgDumpFile limit file = some messages ∧ FirstMessages limit file messages := by
  cases file with
  | none => exact ⟨[], rfl, List.nil_prefix, .inl inStep_init.messages⟩
  | some f =>
      have hfile : PiecesEndInside [] f := hpieces
      obtain ⟨parser, hloop, hfirst⟩ :=
        decodeLoop_spec limit ⟨inStep_init.messages, fun _ => inStep_init⟩ hfile (Nat.lt_add_one f.length)
      refine ⟨parser.parsedMessageQueue, ?_, hfirst⟩
      rw [decodeDtxmsgDumpFile, hloop]
      rfl

theorem reached_noLimit (count : Nat) : reached (-1) count = false := rfl

theorem dumpLoop_noLimit (msgCount : Nat) (messages : List ParsedMessage) :
    dumpLoop (-1) msgCount messages = messages := by
  induction messages generalizing msgCount with
  | nil => rfl
  | cons msg messages ih =>
      rw [dumpLoop, reached_noLimit, if_neg Bool.false_ne_true, ih]

/-- One file, of which all messages are printed. -/
theorem decoderMain_noLimit (sorter : Sorter ParsedMessage) {f : Bytes} (hpieces : PiecesEndInside [] f) :
    decoderMain sorter (-1) [some f] = some (sorter.sort comesBefore (readStream f).out) := by
  have hfile : PiecesEndInside [] ((some f).getD []) := hpieces
  obtain ⟨messages, hdecode, -, hall⟩ := decodeDtxmsgDumpFile_spec (-1) hfile
  have hmessages : messages = (readStream f).out := by
    rcases hall with hall | hreached
    · exact hall
    · rw [reached_noLimit] at hreached
      cases hreached
  rw [decoderMain, decodeFiles, hdecode, hmessages]
  exact congrArg some (dumpLoop_noLimit 0 _)

end Decoder
end IDevice
