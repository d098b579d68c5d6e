import IDevice.Session.Model
import IDevice.Wire.BadFrame

/-!
# `Session.Corrupt` — the messages in front of a bad frame

The parsing thread over the packets of a stream that ends with a bad frame. When `ParseIncomingBytes`
returns false the thread leaves its loop without looking at the parser's queue, and the call has not
shifted out what it consumed: a message that is completed in the call that meets the bad header is not
routed, and a later call enqueues it again.

`messagesSurvive_iff` says that this is the only way to lose one, for packets that do not end at rest; what
happens to a stream when a packet does is the subject of `Wire.Chunking`.
-/

namespace IDevice

open Stream Machine

namespace ParsingRun

/-- The loop of the parsing thread. It routes the messages it pops, one after the other, and a rejected
    packet ends it. -/
def run : ParsingRun → List Bytes → Option ParsingRun
  | r, [] => some r
  | r, packet :: packets =>
    if r.failed then some r else (r.round packet).bind fun res => run res.2 packets

/-- The run as one of `Wire.Chunking`: what was popped is what was delivered. -/
def calls (r : ParsingRun) : ParserRun where
  parser := r.parser
  delivered := r.parsed

end ParsingRun

/-- The thread routes each message in front of the bad frame once. -/
def RoutedOnce (s : CorruptStream) (packets : List Bytes) : Prop :=
  ∃ r, ParsingRun.run {} packets = some r ∧ r.parsed = s.out

/-- After a call that returned false, no later call of the parser enqueues a message. -/
def NotRepeated (packets : List Bytes) : Prop :=
  ∀ r, ParsingRun.run {} packets = some r → r.failed = true → ∀ later : List ParserCall,
    ∃ r', exec ParserRun.step { parser := r.parser } later = some r' ∧
      r'.messages = r.parser.parsedMessageQueue

/-- The messages in front of the bad frame are neither lost nor repeated. -/
structure MessagesSurvive (s : CorruptStream) (packets : List Bytes) : Prop where
  routedOnce : RoutedOnce s packets
  notRepeated : NotRepeated packets

/-- No packet ends where everything received so far is consumed. -/
def NoPacketEndsAtRest (s : CorruptStream) (packets : List Bytes) : Prop :=
  ∀ before after, packets = before ++ after → before ≠ [] → ¬ s.AtRest before.flatten

/-- Between two packets all messages are complete and the bad header has not been met. -/
def CompletedBeforeMet (s : CorruptStream) (packets : List Bytes) : Prop :=
  ∃ before after, packets = before ++ after ∧ s.Completed before.flatten ∧ ¬ s.Met before.flatten

/-! ## One round -/

section Round
variable {received packet : Bytes} {r : ParsingRun}

/-- The call of a round, for a thread that is in step with the reader of the whole stream. -/
theorem call_inStep (h : InStep received r.calls)
    (hstuck : (readStream (received ++ packet)).verdict ≠ .stuck) :
    ∃ ret q, r.parser.parseIncomingBytes packet = some (ret, q) ∧
      (ret = true ↔ (readStream (received ++ packet)).verdict = .wait) ∧
      q.fragmentedBuffersByIdentifier = (readStream (received ++ packet)).state ∧
      r.parsed ++ q.parsedMessageQueue = (readStream (received ++ packet)).out ∧
      q.parsingBuffer =
        if (readStream (received ++ packet)).verdict = .wait then
          DTXMessageParser.leftover (unconsumed received ++ packet) (unconsumed (received ++ packet))
        else unconsumed received ++ packet := by
  have hstep := step_parse packet h
  have hrun : ∃ r', r.calls.step (.parse packet) = some r' ∧
      r'.parser.fragmentedBuffersByIdentifier = (readStream (received ++ packet)).state ∧
      r'.messages = (readStream (received ++ packet)).out ∧
      r'.parser.parsingBuffer =
        if (readStream (received ++ packet)).verdict = .wait then
          DTXMessageParser.leftover (unconsumed received ++ packet) (unconsumed (received ++ packet))
        else unconsumed received ++ packet := by
    cases hv : (readStream (received ++ packet)).verdict with
    | stuck => exact absurd hv hstuck
    | wait =>
        simp only [hv] at hstep
        exact hstep
    | reject =>
        simp only [hv] at hstep
        exact hstep
  obtain ⟨r', hr', htable, hmessages, hbuffer⟩ := hrun
  obtain ⟨⟨ret, q⟩, hq, rfl⟩ := Option.map_eq_some_iff.mp hr'
  refine ⟨ret, q, hq, ?_, htable, hmessages, hbuffer⟩
  -- the flag is the verdict of the reader
  have hverdict : (DTXMessageParser.dtxReader.drain r.calls.parser.fragmentedBuffersByIdentifier
      (r.calls.parser.parsingBuffer ++ packet)).verdict = (readStream (received ++ packet)).verdict := by
    rw [h.table, h.buffer, readStream_append h.notStuck packet]
    rfl
  rw [DTXMessageParser.parseIncomingBytes_eq rfl, hverdict] at hq
  cases hv : (readStream (received ++ packet)).verdict with
  | stuck => exact absurd hv hstuck
  | wait =>
      rw [hv] at hq
      obtain ⟨rfl, -⟩ := Prod.mk.inj (Option.some.inj hq)
      simp
  | reject =>
      rw [hv] at hq
      obtain ⟨rfl, -⟩ := Prod.mk.inj (Option.some.inj hq)
      simp

/-- A round that leaves something unread keeps the thread in step, and its parser's queue is empty. -/
theorem round_wait (h : InStep received r.calls)
    (hwait : (readStream (received ++ packet)).verdict = .wait)
    (hrest : unconsumed (received ++ packet) ≠ []) :
    ∃ messages r', r.round packet = some (messages, r') ∧ r'.failed = r.failed ∧
      InStep (received ++ packet) r'.calls ∧ r'.parser.parsedMessageQueue = [] := by
  have hnotStuck : (readStream (received ++ packet)).verdict ≠ .stuck := by
    rw [hwait]
    simp
  obtain ⟨ret, q, hcall, hret, htable, hmessages, hbuffer⟩ := call_inStep h hnotStuck
  obtain rfl : ret = true := hret.mpr hwait
  refine ⟨q.parsedMessageQueue, { r with
    parser := { q with parsedMessageQueue := [] }, parsed := r.parsed ++ q.parsedMessageQueue },
    ?_, rfl, ⟨?_, htable, ?_, by rw [hwait]; simp⟩, rfl⟩
  · unfold ParsingRun.round
    rw [hcall]
    rfl
  · rw [if_pos hwait, DTXMessageParser.leftover, if_neg hrest] at hbuffer
    exact hbuffer
  · simpa [ParserRun.messages, ParsingRun.calls] using hmessages

/-- The round that meets the bad header routes nothing, and the parser keeps all that it was given. -/
theorem round_reject (h : InStep received r.calls) (hqueue : r.parser.parsedMessageQueue = [])
    (hreject : (readStream (received ++ packet)).verdict = .reject) :
    ∃ r', r.round packet = some ([], r') ∧ r'.failed = true ∧
      r'.parsed = (readStream received).out ∧
      r'.parser.fragmentedBuffersByIdentifier = (readStream (received ++ packet)).state ∧
      r'.parser.parsingBuffer = unconsumed received ++ packet := by
  have hnotStuck : (readStream (received ++ packet)).verdict ≠ .stuck := by
    rw [hreject]
    simp
  obtain ⟨ret, q, hcall, hret, htable, -, hbuffer⟩ := call_inStep h hnotStuck
  obtain rfl : ret = false := by
    rw [← Bool.not_eq_true, hret, hreject]
    simp
  refine ⟨{ r with parser := q, failed := true }, ?_, rfl, ?_, htable, ?_⟩
  · unfold ParsingRun.round
    rw [hcall]
  · have hmessages : r.parsed ++ r.parser.parsedMessageQueue = (readStream received).out := h.messages
    rwa [hqueue, List.append_nil] at hmessages
  · rw [hreject] at hbuffer
    exact hbuffer

end Round

/-! ## Whole runs -/

section Run
variable {s : CorruptStream}

/-- A round met the bad header: what was routed before it, and what the parser has kept. -/
structure Rejected (received : Bytes) (packet : Bytes) (r : ParsingRun) : Prop where
  wait : (readStream received).verdict = .wait
  reject : (readStream (received ++ packet)).verdict = .reject
  failed : r.failed = true
  parsed : r.parsed = (readStream received).out
  table : r.parser.fragmentedBuffersByIdentifier = (readStream (received ++ packet)).state
  buffer : r.parser.parsingBuffer = unconsumed received ++ packet

/-- The packets are read one after the other: either all of them, or up to the one that shows the bad
    header. -/
theorem run_cases {received : Bytes} {r : ParsingRun} {packets : List Bytes}
    (h : InStep received r.calls) (hqueue : r.parser.parsedMessageQueue = []) (hfailed : r.failed = false)
    (hwait : (readStream received).verdict = .wait) (hstream : received ++ packets.flatten <+: s.bytes)
    (hrest : ∀ before after, packets = before ++ after → before ≠ [] →
      ¬ s.AtRest (received ++ before.flatten)) :
    ∃ r', r.run packets = some r' ∧
      ((r'.failed = false ∧ r'.parsed = (readStream (received ++ packets.flatten)).out ∧
          (readStream (received ++ packets.flatten)).verdict = .wait) ∨
        ∃ before packet after, packets = before ++ packet :: after ∧
          Rejected (received ++ before.flatten) packet r') := by
  induction packets generalizing received r with
  | nil =>
      refine ⟨r, rfl, .inl ⟨hfailed, ?_, ?_⟩⟩
      · have hmessages : r.parsed ++ r.parser.parsedMessageQueue = (readStream received).out := h.messages
        rw [hqueue, List.append_nil] at hmessages
        rw [List.flatten_nil, List.append_nil, hmessages]
      · rwa [List.flatten_nil, List.append_nil]
  | cons packet packets ih =>
      rw [List.flatten_cons, ← List.append_assoc] at hstream
      have hprefix : received ++ packet <+: s.bytes := (List.prefix_append _ _).trans hstream
      cases hv : (readStream (received ++ packet)).verdict with
      -- a stream with complete lengths never makes the reader read past its end
      | stuck => exact absurd hv (CorruptStream.readStream_not_stuck hprefix)
      | reject =>
          -- the packet shows the bad header: the call returns false, and the run ends here
          obtain ⟨r', hround, hfailed', hparsed, htable, hbuffer⟩ := round_reject h hqueue hv
          refine ⟨r', ?_, .inr ⟨[], packet, packets, rfl, ?_⟩⟩
          · rw [ParsingRun.run, hfailed, hround]
            cases packets <;> simp [ParsingRun.run, hfailed']
          · rw [List.flatten_nil, List.append_nil]
            exact ⟨hwait, hv, hfailed', hparsed, htable, hbuffer⟩
      | wait =>
          -- the packet does not end at rest, so what was consumed is shifted out
          have hne := CorruptStream.unconsumed_ne_nil hprefix (by
            have := hrest [packet] packets rfl (by simp)
            rwa [List.flatten_singleton] at this)
          obtain ⟨messages, r₁, hround, hfailed₁, h₁, hqueue₁⟩ := round_wait h hv hne
          obtain ⟨r', hrun, hcases⟩ := ih h₁ hqueue₁ (hfailed₁.trans hfailed) hv hstream (by
            intro before after heq hbefore
            have := hrest (packet :: before) after (by rw [heq]; rfl) (List.cons_ne_nil _ _)
            rwa [List.flatten_cons, ← List.append_assoc] at this)
          refine ⟨r', ?_, ?_⟩
          · rw [ParsingRun.run, hfailed, hround]
            exact hrun
          · rw [List.flatten_cons, ← List.append_assoc]
            refine hcases.imp_right ?_
            rintro ⟨before, packet', after, rfl, hrejected⟩
            refine ⟨packet :: before, packet', after, rfl, ?_⟩
            rwa [List.flatten_cons, ← List.append_assoc]

/-- Later calls of a parser whose buffer is spent enqueue nothing. -/
theorem Spent.exec {r : ParserRun} (h : Spent r.parser) (later : List ParserCall) :
    ∃ r', Machine.exec ParserRun.step r later = some r' ∧ r'.messages = r.messages := by
  induction later generalizing r with
  | nil => exact ⟨r, rfl, rfl⟩
  | cons call later ih =>
      have hcall : ∃ r₁, r.step call = some r₁ ∧ r₁.messages = r.messages ∧ Spent r₁.parser := by
        cases call with
        | pop =>
            refine ⟨_, rfl, ?_, h⟩
            simp [ParserRun.messages]
        | parse chunk =>
            obtain ⟨q, hq, hqueue, hspent⟩ := h.parseIncomingBytes chunk
            refine ⟨{ r with parser := q, answers := r.answers ++ [false] }, ?_, ?_, hspent⟩
            · rw [ParserRun.step, hq]
              rfl
            · rw [ParserRun.messages, hqueue, ParserRun.messages]
      obtain ⟨r₁, hr₁, hmessages, hspent⟩ := hcall
      obtain ⟨r', hr', hmessages'⟩ := ih hspent
      exact ⟨r', exec_cons_eq_some.mpr ⟨r₁, hr₁, hr'⟩, hmessages'.trans hmessages⟩

/-- The packets in front of the one that shows the bad header complete all messages, if any packets do
    before the header is met. -/
theorem completed_of_completedBeforeMet {packets before after : List Bytes} {packet : Bytes}
    (hsplit : packets = before ++ packet :: after) (h : CompletedBeforeMet s packets)
    (hmet : s.Met (before.flatten ++ packet)) : s.Completed before.flatten := by
  obtain ⟨before', after', hsplit', hcompleted, hnot⟩ := h
  rcases List.append_eq_append_iff.mp (hsplit.symm.trans hsplit') with
    ⟨more, rfl, hmore⟩ | ⟨more, rfl, hmore⟩
  · -- the packets of `before'` would show the bad header too, if there were more of them
    cases more with
    | nil => rwa [List.append_nil] at hcompleted
    | cons packet' more =>
        obtain ⟨rfl, -⟩ := List.cons.inj hmore
        refine absurd (hmet.mono more.flatten) ?_
        rwa [List.flatten_append, List.flatten_cons, ← List.append_assoc] at hnot
  · -- `before` goes on behind `before'`
    rw [List.flatten_append]
    exact hcompleted.mono _

section Division
variable {packets : List Bytes} (hdivision : packets.flatten = s.bytes)
include hdivision

theorem flatten_isPrefix_bytes {before after : List Bytes} (hsplit : packets = before ++ after) :
    before.flatten <+: s.bytes := by
  rw [← hdivision, hsplit, List.flatten_append]
  exact List.prefix_append _ _

/-- **Messages in front of a bad frame survive exactly when they are complete before the packet that
    shows its header.** -/
theorem messagesSurvive_iff (hrest : NoPacketEndsAtRest s packets) :
    MessagesSurvive s packets ↔ CompletedBeforeMet s packets := by
  have hinit : (readStream []).verdict = .wait := by
    rw [readStream, Reader.drain_wait (DTXMessageParser.front_short (by simp))]
  obtain ⟨r, hrun, hcases⟩ := run_cases (s := s) (r := {}) inStep_init rfl rfl hinit
    (by rw [List.nil_append, hdivision]) hrest
  rcases hcases with ⟨hfailed, hparsed, hwait⟩ | ⟨before, packet, after, rfl, hrejected⟩
  · -- no packet was rejected
    rw [List.nil_append] at hparsed hwait
    have hall : packets.flatten <+: s.bytes := flatten_isPrefix_bytes hdivision (List.append_nil _).symm
    constructor
    · rintro ⟨⟨r', hrun', hout⟩, -⟩
      obtain rfl := Option.some.inj (hrun.symm.trans hrun')
      refine ⟨packets, [], (List.append_nil _).symm,
        (CorruptStream.completed_iff hall).mpr (hparsed.symm.trans hout), ?_⟩
      rw [CorruptStream.met_iff hall, hwait]
      simp
    · rintro ⟨before, after, rfl, hcompleted, -⟩
      have hcompleted' := hcompleted.mono after.flatten
      rw [← List.flatten_append] at hcompleted'
      refine ⟨⟨r, hrun, hparsed.trans ((CorruptStream.completed_iff hall).mp hcompleted')⟩, ?_⟩
      intro r' hrun' hfailed'
      obtain rfl := Option.some.inj (hrun.symm.trans hrun')
      rw [hfailed] at hfailed'
      cases hfailed'
  · rw [List.nil_append] at hrejected
    -- `packet` shows the bad header: what has been parsed is what `before` completes
    have hbefore : before.flatten <+: s.bytes := flatten_isPrefix_bytes hdivision rfl
    have hwith : before.flatten ++ packet <+: s.bytes := by
      have hsplit : before ++ packet :: after = (before ++ [packet]) ++ after := by simp
      have hflatten := flatten_isPrefix_bytes hdivision hsplit
      rwa [List.flatten_append, List.flatten_singleton] at hflatten
    have hmet := (CorruptStream.met_iff hwith).mpr hrejected.reject
    constructor
    · rintro ⟨⟨r', hrun', hout⟩, -⟩
      obtain rfl := Option.some.inj (hrun.symm.trans hrun')
      refine ⟨before, packet :: after, rfl,
        (CorruptStream.completed_iff hbefore).mpr (hrejected.parsed.symm.trans hout), ?_⟩
      rw [CorruptStream.met_iff hbefore, hrejected.wait]
      simp
    · intro h
      have hcompleted := completed_of_completedBeforeMet rfl h hmet
      refine ⟨⟨r, hrun, hrejected.parsed.trans ((CorruptStream.completed_iff hbefore).mp hcompleted)⟩, ?_⟩
      intro r' hrun' _ later
      obtain rfl := Option.some.inj (hrun.symm.trans hrun')
      have hspent := CorruptStream.spent hwith hcompleted hmet hrejected.buffer hrejected.table
      exact Spent.exec (r := { parser := r.parser }) hspent later

end Division
end Run

/-- The frame of a message without auxiliary and payload, and a header of zeros. -/
def oneMessage : CorruptStream where
  frames := [{
    header := ⟨kDTXMessageHeaderMagic, kDTXMessageHeaderSize, 0, 1, 16, 1, 0, 0, 0⟩
    payload := List.replicate 16 0
    magic := rfl
    headerSize := rfl
    bound := by decide
    payload_length := by decide }]
  table := FragmentTable.empty
  out := [⟨List.replicate 16 0, 1, 0, 0, false, 48⟩]
  valid := rfl
  bad := ⟨List.replicate 32 0, by decide, .inl (by decide)⟩

/-- The message survives when the bad header is cut. -/
theorem messagesSurvive_headerCut :
    MessagesSurvive oneMessage [oneMessage.bytes.take 58, oneMessage.bytes.drop 58] := by
  have hframes : (Frame.stream oneMessage.frames).length = 48 := by decide
  have hfirst : (oneMessage.bytes.take 58).length = 58 := by decide
  refine (messagesSurvive_iff (by decide) ?_).mpr
    ⟨[oneMessage.bytes.take 58], [oneMessage.bytes.drop 58], rfl, ?_, ?_⟩
  · rintro (_ | ⟨first, before⟩) after hsplit hne hrest
    · exact hne rfl
    · obtain ⟨rfl, -⟩ := List.cons.inj hsplit
      have hle := hrest.length_le
      rw [List.flatten_cons, List.length_append, hfirst, hframes] at hle
      omega
  · exact ⟨oneMessage.frames, [], List.replicate 10 0, FragmentTable.empty, rfl, by decide,
      ⟨by decide, trivial⟩, rfl⟩
  · rintro ⟨rest, hsplit, -, h32⟩
    have hlen := congrArg List.length hsplit
    rw [List.flatten_singleton, List.length_append, hfirst, hframes] at hlen
    omega

/-- In one packet with the bad frame the message is not routed, and it is enqueued again by the next
    call. -/
theorem not_messagesSurvive_samePacket :
    [oneMessage.bytes].flatten = oneMessage.bytes ∧ ¬ RoutedOnce oneMessage [oneMessage.bytes] ∧
      ¬ NotRepeated [oneMessage.bytes] := by
  obtain ⟨r, hr, hobs⟩ := Option.map_eq_some_iff.mp
    (show (ParsingRun.run {} [oneMessage.bytes]).map (fun r => (r.parsed, r.failed,
        r.parser.parsedMessageQueue.length,
        (exec ParserRun.step { parser := r.parser } [.parse [0]]).map (·.messages.length))) =
      some ([], true, 1, some 2) by decide +kernel)
  obtain ⟨hparsed, hfailed, hqueue, hagain⟩ := by simpa only [Prod.mk.injEq] using hobs
  refine ⟨List.flatten_singleton, ?_, ?_⟩
  · rintro ⟨r', hr', hout⟩
    obtain rfl := Option.some.inj (hr.symm.trans hr')
    rw [hparsed] at hout
    cases hout
  · intro h
    obtain ⟨r', hr', hmessages⟩ := h r hr hfailed [.parse [0]]
    rw [hr', Option.map_some, hmessages, hqueue] at hagain
    exact absurd hagain (by decide)

end IDevice
