import IDevice.Message.Codec
import IDevice.Connection.Replies
import IDevice.Transport.Broken
import IDevice.Wire.Received

/-!
# `Connection.OnTheWire` — from a call to the device

The way of a message through the whole sending side: a caller or `ReplyMessage` pushes it, the send thread takes it
from the queue and transmits it through the write buffer, and the transport takes the bytes until it breaks. At
the other end a device reads what has arrived of them, in chunks.

`device_reads` says, for every interleaving, every such transport and every division into chunks, that the device
has read the messages of the first calls in the order of their pushes, each of them once and as the call made it.
Messages are those that fit in one fragment; the others do not come back from their own framing
(`Wire.RoundTrip`).
-/

namespace IDevice

open Machine Stream BufferedDTXTransport

/-! ## What has been transmitted -/

section
variable {KAValue : Type} (archivedData : KAValue → Bytes)

/-- The message holds what its constructors build, and fits in one fragment. -/
structure DTXMessage.FitsFragment (m : DTXMessage KAValue) : Prop where
  sendable : (m.materialize archivedData).Sendable
  short : (m.serializedLength archivedData).1 + 32 ≤ outgoingFragmentSize.toNat

/-- It emits as many bytes as it declares. -/
theorem DTXMessage.FitsFragment.declared {archivedData : KAValue → Bytes} {m : DTXMessage KAValue}
    (h : m.FitsFragment archivedData) :
    (m.serialized archivedData).length = (m.serializedLength archivedData).1 := by
  obtain ⟨hbytes, -⟩ := (auxiliaryBytes_length_iff _).mpr h.sendable.lengthsWritten
  rw [serialized_length, serializedLength_fst, hbytes]

theorem DTXMessage.FitsFragment.one {archivedData : KAValue → Bytes} {m : DTXMessage KAValue}
    (h : m.FitsFragment archivedData) :
    fragmentsForLength outgoingFragmentSize (m.serializedLength archivedData).1 = 1 := by
  have hshort := h.short
  have hpos := m.le_serializedLength archivedData
  have hsize : outgoingFragmentSize.toNat = 65536 := rfl
  rw [hsize] at hshort
  refine fragmentsForLength_eq (k := 1) ?_ ?_ ?_ ?_
  · rw [hsize]
    omega
  · omega
  · rw [hsize]
    omega
  · rw [Nat.sub_self, Nat.zero_mul]
    omega

/-- The device has the message as the call made it, and decodes it to what was in it. -/
structure Call.Arrives (x : Call KAValue) (m : ParsedMessage) : Prop where
  bytes : m.bytes = x.message.serialized archivedData
  decoded : ∀ (unarchive : Bytes → KAValue) assertsEnabled (memory : Memory), memory.Shows m.bytes →
    ∃ received, (DTXMessage.deserialize unarchive assertsEnabled memory m.bytes.length).message = some received ∧
      (x.message.materialize archivedData).ComesBackAs received
  identifier : m.identifier = x.routingInfo.msgIdentifier
  conversationIndex : m.conversationIndex = x.message.conversationIndex
  channelCode : m.channelCode = x.message.channelCode
  expectsReply : m.expectsReply = x.kind.hasCallback

namespace Connection

/-- What the send thread has taken from the queue. -/
def transmissions (s : Connection KAValue) : List (DTXMessage KAValue × DTXMessageRoutingInfo) :=
  s.sent.filterMap fun e => (s.calls[e.call]?).map fun x => (x.message, x.routingInfo)

/-- What the device has read is the messages of these calls, one after the other. -/
def ReadsCalls (s : Connection KAValue) (cs : List Nat) (messages : List ParsedMessage) : Prop :=
  List.Forall₂ (fun c m => ∃ x, s.calls[c]? = some x ∧ x.Arrives archivedData m) cs messages

/-- The bytes of all that the send thread has taken. -/
def onTheWire (s : Connection KAValue) : Bytes := (s.transmissions.map (frameBytes archivedData)).flatten

/-- Of the messages that the send thread has taken the first `k` are wholly in these bytes, and the one behind
    them is not. -/
def GotThrough (s : Connection KAValue) (bytes : Bytes) (k : Nat) : Prop :=
  Segments.WholePieces (s.transmissions.map (frameBytes archivedData)) bytes k

/-- What a device reads of the bytes that the transport has accepted, or of the beginning of them. -/
structure DeviceReads (s : Connection KAValue) (accepted : Bytes) : Prop where
  /-- No call is on the wire twice. -/
  once : s.outgoing.Nodup
  reads : ∀ calls, fed calls <+: accepted → (∀ chunk, .parse chunk ∈ calls → chunk ≠ []) → OnlyEndsAtRest calls →
    ∃ r k, exec ParserRun.step {} calls = some r ∧
      k ≤ s.sent.length ∧ s.GotThrough archivedData (fed calls) k ∧
      s.ReadsCalls archivedData (s.outgoing.take k) r.messages ∧
      (fed calls = s.onTheWire archivedData → k = s.sent.length)

end Connection
end

namespace Connection

variable {KAValue : Type} {archivedData : KAValue → Bytes} {s t : Connection KAValue}

/-- What is queued is a call's own message, with a routing info made from it, and no call is queued twice. -/
structure Outgoing (archivedData : KAValue → Bytes) (s : Connection KAValue) : Prop where
  queued : ∀ q ∈ s.sendQueue, ∃ x, s.calls[q.call]? = some x ∧ q = ⟨x.message, x.routingInfo, q.call⟩
  sent : ∀ e ∈ s.sent, ∃ x, s.calls[e.call]? = some x ∧
    e.header = transmittedHeader archivedData ⟨x.message, x.routingInfo, e.call⟩
  routing : ∀ x ∈ s.calls, x.routingInfo.channelCode = x.message.channelCode ∧
    x.routingInfo.conversationIndex = x.message.conversationIndex
  once : s.outgoing.Nodup

theorem outgoing_init : Outgoing archivedData ({} : Connection KAValue) := by
  refine ⟨?_, ?_, ?_, List.nodup_nil⟩
  · intro q hq
    cases hq
  · intro e he
    cases he
  · intro x hx
    cases hx

/-- The queue and what is sent stay. -/
theorem Outgoing.of_eq (h : Outgoing archivedData s) (hbefore : s.calls <+: t.calls)
    (hrouting : ∀ x ∈ t.calls, x.routingInfo.channelCode = x.message.channelCode ∧
      x.routingInfo.conversationIndex = x.message.conversationIndex)
    (hqueue : t.sendQueue = s.sendQueue) (hsent : t.sent = s.sent) : Outgoing archivedData t := by
  refine ⟨?_, ?_, hrouting, ?_⟩
  · rw [hqueue]
    intro q hq
    obtain ⟨x, hx, heq⟩ := h.queued q hq
    exact ⟨x, getElem?_of_isPrefix hbefore hx, heq⟩
  · rw [hsent]
    intro e he
    obtain ⟨x, hx, heq⟩ := h.sent e he
    exact ⟨x, getElem?_of_isPrefix hbefore hx, heq⟩
  · rw [outgoing, hqueue, hsent]
    exact h.once

/-- A new call, whose routing info is made from its message. -/
theorem Outgoing.takeIdentifier (h : Outgoing archivedData s) (kind : CallKind) (message : DTXMessage KAValue) :
    Outgoing archivedData (s.takeIdentifier kind message) := by
  refine h.of_eq (List.prefix_append _ _) ?_ rfl rfl
  intro x hx
  rcases List.mem_append.mp hx with hx | hx
  · exact h.routing x hx
  · rw [List.mem_singleton.mp hx]
    exact ⟨rfl, rfl⟩

theorem outgoing_pushMessage (c : Nat) (x : Call KAValue) : (s.pushMessage c x).outgoing = s.outgoing ++ [c] := by
  simp [outgoing, pushMessage]

/-- A call that has not pushed its message yet pushes it. -/
theorem Outgoing.pushMessage (h : Outgoing archivedData s) (hrec : Recorded s) {c : Nat} {x : Call KAValue}
    (hx : s.calls[c]? = some x) (htaken : s.stage c = .taken) : Outgoing archivedData (s.pushMessage c x) := by
  refine ⟨?_, h.sent, h.routing, ?_⟩
  · intro q hq
    rcases List.mem_append.mp hq with hq | hq
    · exact h.queued q hq
    · rw [List.mem_singleton.mp hq]
      exact ⟨x, hx, rfl⟩
  · rw [outgoing_pushMessage]
    refine List.nodup_append.mpr ⟨h.once, List.nodup_singleton c, ?_⟩
    rintro c' hc' _ hmem rfl
    rw [List.mem_singleton.mp hmem] at hc'
    exact hrec.pushed_of_outgoing hc' htaken

/-- The first message of the queue is transmitted. -/
theorem outgoing_transmit {q : Queued KAValue} {rest : List (Queued KAValue)} {e : Sent} (hq : s.sendQueue = q :: rest)
    (he : e.call = q.call) : ({ s with sendQueue := rest, sent := s.sent ++ [e] } : Connection KAValue).outgoing =
      s.outgoing := by
  rw [outgoing, outgoing, hq, List.map_append, List.append_assoc, List.map_singleton, List.map_cons, he]
  rfl

theorem outgoing_step {a : Label KAValue} (hrec : Recorded s) (h : Outgoing archivedData s)
    (hstep : step archivedData s a = some t) : Outgoing archivedData t := by
  have hkeeps := keeps_step hstep
  have hc := step_cases hstep
  cases a with
  | take kind message =>
      obtain ⟨-, rfl⟩ := hc
      exact h.takeIdentifier kind message
  | push c =>
      obtain ⟨x, hx, -, htaken, rfl⟩ := hc
      exact h.pushMessage hrec hx htaken
  | transmit =>
      obtain ⟨q, rest, hq, rfl⟩ := hc
      refine ⟨fun q' hq' => h.queued q' ?_, ?_, h.routing, ?_⟩
      · rw [hq]
        exact List.mem_cons_of_mem q hq'
      · intro e he
        rcases List.mem_append.mp he with he | he
        · exact h.sent e he
        · -- the message that is transmitted is the one that was queued
          obtain ⟨x, hx, heq⟩ := h.queued q (hq ▸ List.mem_cons_self)
          rw [List.mem_singleton.mp he]
          exact ⟨x, hx, congrArg (transmittedHeader archivedData) heq⟩
      · rw [outgoing_transmit hq rfl]
        exact h.once
  | replyTake =>
      obtain ⟨m, rest, maxId, -, rfl⟩ := hc
      have htake := h.takeIdentifier (.reply (s.routed.length - 1)) (DTXMessage.newReply m.toMessage)
      exact ⟨htake.queued, htake.sent, htake.routing, htake.once⟩
  | replyPush =>
      obtain ⟨c, m, rest, maxId, x, hp, hx, rfl⟩ := hc
      have hpush := h.pushMessage hrec hx (hrec.replying c m rest maxId hp).1
      exact ⟨hpush.queued, hpush.sent, hpush.routing, hpush.once⟩
  | _ =>
      refine h.of_eq (calls_isPrefix hstep) ?_ (hkeeps.sendQueue rfl) (hkeeps.sent rfl)
      rw [hkeeps.calls rfl]
      exact h.routing

theorem outgoing_run {as : List (Label KAValue)} (hrun : exec (step archivedData) {} as = some s) :
    Recorded s ∧ Outgoing archivedData s :=
  exec_invariant (fun s => Recorded s ∧ Outgoing archivedData s) ⟨recorded_init, outgoing_init⟩ hrun
    fun _ _ _ h hstep => ⟨recorded_step h.1 hstep, outgoing_step h.1 h.2 hstep⟩

/-- Pushes only come at the end. -/
theorem outgoing_isPrefix {a : Label KAValue} (hstep : step archivedData s a = some t) :
    s.outgoing <+: t.outgoing := by
  have hkeeps := keeps_step hstep
  have hc := step_cases hstep
  cases a with
  | push c =>
      obtain ⟨x, -, -, -, rfl⟩ := hc
      rw [outgoing_pushMessage]
      exact List.prefix_append _ _
  | replyPush =>
      obtain ⟨c, m, rest, maxId, x, -, -, rfl⟩ := hc
      show s.outgoing <+: (s.pushMessage c x).outgoing
      rw [outgoing_pushMessage]
      exact List.prefix_append _ _
  | transmit =>
      obtain ⟨q, rest, hq, rfl⟩ := hc
      rw [outgoing_transmit hq rfl]
  | _ => rw [outgoing, outgoing, hkeeps.sendQueue rfl, hkeeps.sent rfl]

/-- Where the messages of the calls come from: from the users, and from `NewReply`. -/
theorem calls_exec {as : List (Label KAValue)} (hrun : exec (step archivedData) s as = some t) :
    ∀ x ∈ t.calls, x ∈ s.calls ∨ (∃ kind, .take kind x.message ∈ as) ∨
      ∃ m : Incoming, x.message = DTXMessage.newReply m.toMessage := by
  induction as generalizing s with
  | nil =>
      obtain rfl := Option.some.inj hrun
      exact fun x hx => .inl hx
  | cons a as ih =>
      obtain ⟨m, ha, has⟩ := exec_cons_eq_some.mp hrun
      intro x hx
      rcases ih has x hx with hx | ⟨kind, hmem⟩ | hreply
      · rcases calls_step ha with heq | ⟨kind, message, rfl, -, rfl⟩ | ⟨-, m, rest, maxId, -, rfl⟩
        · exact .inl (heq ▸ hx)
        · rcases List.mem_append.mp hx with hx | hx
          · exact .inl hx
          · rw [List.mem_singleton.mp hx]
            exact .inr (.inl ⟨kind, List.mem_cons_self⟩)
        · rcases List.mem_append.mp hx with hx | hx
          · exact .inl hx
          · rw [List.mem_singleton.mp hx]
            exact .inr (.inr ⟨m, rfl⟩)
      · exact .inr (.inl ⟨kind, List.mem_cons_of_mem a hmem⟩)
      · exact .inr (.inr hreply)

/-! ## The whole way -/

/-- A reply is a payload header and nothing else. -/
theorem fitsFragment_newReply (m : Incoming) :
    (DTXMessage.newReply m.toMessage : DTXMessage KAValue).FitsFragment archivedData :=
  ⟨⟨nofun, show 0 < 2 ^ 64 by decide⟩, show 16 + 32 ≤ 65536 by decide⟩

/-- The message of a call as a fragment, which the device reads as what the call made. -/
theorem exists_frame {x : Call KAValue} (hfits : x.message.FitsFragment archivedData)
    (hrouting : x.routingInfo.channelCode = x.message.channelCode ∧
      x.routingInfo.conversationIndex = x.message.conversationIndex)
    (hexpects : x.routingInfo.expectsReply = if x.kind.hasCallback then 1 else 0) :
    ∃ f : Frame, f.header.fragmentCount = 1 ∧ f.bytes = frameBytes archivedData (x.message, x.routingInfo) ∧
      x.Arrives archivedData f.message := by
  have hshort := hfits.short
  have hlength : (messageHeader (x.message.serializedLength archivedData).1 1 x.routingInfo).length.toNat =
      (x.message.serializedLength archivedData).1 :=
    UInt32.toNat_ofNat_of_lt' (lt_of_le_of_lt (Nat.le_add_right _ 32) (lt_of_le_of_lt hshort (by decide)))
  refine ⟨⟨messageHeader (x.message.serializedLength archivedData).1 1 x.routingInfo,
    x.message.serialized archivedData, rfl, rfl, ?_, ?_⟩, rfl, rfl, ?_⟩
  · rw [hlength, Nat.add_comm]
    exact lt_of_le_of_lt hshort (by decide)
  · rw [if_neg fun h => h.1 rfl, hlength]
    exact hfits.declared
  · refine ⟨rfl, fun unarchive assertsEnabled memory hshows => ?_, rfl, hrouting.2, hrouting.1, ?_⟩
    · exact DTXMessage.deserialize_serialized hfits.sendable assertsEnabled hshows _
    show (x.routingInfo.expectsReply != 0) = x.kind.hasCallback
    rw [hexpects]
    cases x.kind.hasCallback <;> rfl

/-- The transmissions as fragments. -/
theorem exists_frames (h : ∀ x ∈ s.calls, ∃ f : Frame, f.header.fragmentCount = 1 ∧
    f.bytes = frameBytes archivedData (x.message, x.routingInfo) ∧ x.Arrives archivedData f.message)
    (es : List Sent) (hes : ∀ e ∈ es, ∃ x, s.calls[e.call]? = some x) :
    ∃ fs : List Frame, (∀ f ∈ fs, f.header.fragmentCount = 1) ∧
      (es.filterMap fun e => (s.calls[e.call]?).map fun x => (x.message, x.routingInfo)).map
        (frameBytes archivedData) = fs.map Frame.bytes ∧
      s.ReadsCalls archivedData (es.map (·.call)) (fs.map Frame.message) := by
  induction es with
  | nil => exact ⟨[], fun _ hf => absurd hf List.not_mem_nil, rfl, .nil⟩
  | cons e es ih =>
      obtain ⟨x, hx⟩ := hes e List.mem_cons_self
      obtain ⟨f, hone, hbytes, harrives⟩ := h x (List.mem_of_getElem? hx)
      obtain ⟨fs, hones, hframes, hreads⟩ := ih fun e' he' => hes e' (List.mem_cons_of_mem e he')
      refine ⟨f :: fs, List.forall_mem_cons.mpr ⟨hone, hones⟩, ?_, .cons ⟨x, hx, harrives⟩ hreads⟩
      rw [List.filterMap_cons, hx, Option.map_some, List.map_cons, hframes, List.map_cons, hbytes]

/-- The session on the wire: the fragments, the rounds of the send thread, and what the transport has accepted. -/
structure Transmitted (archivedData : KAValue → Bytes) (s : Connection KAValue) (fuel : Nat) (accepts : Nat → Bool)
    (fs : List Frame) (rounds : List SendRound) : Prop where
  single : ∀ f ∈ fs, f.header.fragmentCount = 1
  frames : s.transmissions.map (frameBytes archivedData) = fs.map Frame.bytes
  reads : s.ReadsCalls archivedData (s.sent.map (·.call)) (fs.map Frame.message)
  ran : sendThread archivedData fuel accepts s.transmissions = .ok rounds
  accepted : acceptedBytes (rounds.flatMap SendRound.sends) <+: s.onTheWire archivedData
  all : (∀ i, accepts i = true) → acceptedBytes (rounds.flatMap SendRound.sends) = s.onTheWire archivedData

theorem exists_transmitted {as : List (Label KAValue)} (hrun : exec (step archivedData) {} as = some s)
    (hfits : ∀ kind message, .take kind message ∈ as → message.FitsFragment archivedData)
    {accepts : Nat → Bool} (hanti : Antitone accepts) (fuel : Nat) :
    ∃ fs rounds, s.Transmitted archivedData fuel accepts fs rounds := by
  obtain ⟨hrec, hout⟩ := outgoing_run hrun
  have hcalls : ∀ x ∈ s.calls, x.message.FitsFragment archivedData := by
    intro x hx
    rcases calls_exec hrun x hx with hnone | ⟨kind, hmem⟩ | ⟨m, hm⟩
    · exact absurd hnone List.not_mem_nil
    · exact hfits kind x.message hmem
    · rw [hm]
      exact fitsFragment_newReply m
  have hframe := fun x hx => exists_frame (hcalls x hx) (hout.routing x hx) (hrec.expects x hx)
  have hone : ∀ q ∈ s.transmissions,
      fragmentsForLength outgoingFragmentSize (q.1.serializedLength archivedData).1 = 1 := by
    intro q hq
    obtain ⟨e, -, he⟩ := List.mem_filterMap.mp hq
    obtain ⟨x, hx, rfl⟩ := Option.map_eq_some_iff.mp he
    exact (hcalls x (List.mem_of_getElem? hx)).one
  obtain ⟨fs, hones, hframes, hreads⟩ := exists_frames hframe s.sent fun e he =>
    (hout.sent e he).imp fun _ hx => hx.1
  obtain ⟨rounds, hrounds, hbegins, hall, -⟩ := sendThread_isPrefix hanti fuel hone
  exact ⟨fs, rounds, hones, hframes, hreads, hrounds, hbegins, hall⟩

/-- There is a fragment for each message. -/
theorem Transmitted.length_eq {fuel : Nat} {accepts : Nat → Bool} {fs : List Frame} {rounds : List SendRound}
    (h : s.Transmitted archivedData fuel accepts fs rounds) : fs.length = s.sent.length := by
  have hlength := h.reads.length_eq
  rwa [List.length_map, List.length_map, eq_comm] at hlength

/-- The beginning of what has been transmitted: the device reads the messages that have got through. -/
theorem Transmitted.readStream {fuel : Nat} {accepts : Nat → Bool} {fs : List Frame} {rounds : List SendRound}
    (h : s.Transmitted archivedData fuel accepts fs rounds) {received : Bytes}
    (hreceived : received <+: acceptedBytes (rounds.flatMap SendRound.sends)) :
    ∃ k ≤ s.sent.length, s.GotThrough archivedData received k ∧
      (IDevice.readStream received).out = (fs.take k).map Frame.message ∧
      (IDevice.readStream received).verdict = .wait := by
  have hstream : s.onTheWire archivedData = Frame.stream fs := by
    rw [onTheWire, h.frames, Frame.stream, List.flatMap_def]
  obtain ⟨k, hwhole, hmessages, hverdict⟩ :=
    Frame.readStream_isPrefix h.single (hreceived.trans (hstream ▸ h.accepted))
  have hk := hwhole.le
  rw [List.length_map, h.length_eq] at hk
  rw [← h.frames] at hwhole
  exact ⟨k, hk, hwhole, hmessages, hverdict⟩

/-- All messages have got through when all bytes have. -/
theorem Transmitted.eq_length {fuel : Nat} {accepts : Nat → Bool} {fs : List Frame} {rounds : List SendRound}
    (h : s.Transmitted archivedData fuel accepts fs rounds) {k : Nat}
    (hk : s.GotThrough archivedData (s.onTheWire archivedData) k) : k = s.sent.length := by
  have heq := Segments.WholePieces.eq_length hk
  rwa [h.frames, List.length_map, h.length_eq] at heq

/-- The first fragments are the messages of the first calls. -/
theorem Transmitted.reads_take {fuel : Nat} {accepts : Nat → Bool} {fs : List Frame} {rounds : List SendRound}
    (h : s.Transmitted archivedData fuel accepts fs rounds) {k : Nat} (hk : k ≤ s.sent.length) :
    s.ReadsCalls archivedData (s.outgoing.take k) ((fs.take k).map Frame.message) := by
  rw [outgoing, List.take_append_of_le_length (by rwa [List.length_map]), List.map_take]
  exact List.forall₂_take k h.reads

/-- **The device reads the messages of the first calls**, in the order of their pushes, whatever the threads and
    the transport do. -/
theorem device_reads {as : List (Label KAValue)} (hrun : exec (step archivedData) {} as = some s)
    (hfits : ∀ kind message, .take kind message ∈ as → message.FitsFragment archivedData)
    {accepts : Nat → Bool} (hanti : Antitone accepts) (fuel : Nat) :
    (∀ before after m, as = before ++ after → exec (step archivedData) {} before = some m →
      m.outgoing <+: s.outgoing) ∧
    ∃ rounds, sendThread archivedData fuel accepts s.transmissions = .ok rounds ∧
      DeviceReads archivedData s (acceptedBytes (rounds.flatMap SendRound.sends)) ∧
      ((∀ i, accepts i = true) → acceptedBytes (rounds.flatMap SendRound.sends) = s.onTheWire archivedData) := by
  obtain ⟨fs, rounds, htransmitted⟩ := exists_transmitted hrun hfits hanti fuel
  refine ⟨?_, rounds, htransmitted.ran, ⟨(outgoing_run hrun).2.once, ?_⟩, htransmitted.all⟩
  · rintro before after m rfl hbefore
    obtain ⟨m', hm', hafter⟩ := exec_append_eq_some.mp hrun
    obtain rfl := Option.some.inj (hbefore.symm.trans hm')
    exact exec_invariant (fun t => m.outgoing <+: t.outgoing) List.prefix_rfl hafter
      fun _ _ _ h hstep => h.trans (outgoing_isPrefix hstep)
  · intro calls hfed hne hrest
    obtain ⟨k, hk, hthrough, hmessages, hverdict⟩ := htransmitted.readStream hfed
    obtain ⟨r, hr, hread⟩ := exec_messages hne hrest (by
      rw [hverdict]
      exact fun h => nomatch h)
    refine ⟨r, k, hr, hk, hthrough, ?_, ?_⟩
    · rw [hread, hmessages]
      exact htransmitted.reads_take hk
    · intro hall
      apply htransmitted.eq_length
      rwa [hall] at hthrough

/-- Two users, of whom the second is the first to push. -/
def pushedCrosswise : List (Label Unit) :=
  [.take (.async false) smallMessage, .take (.async true) bareMessage, .push 1, .transmit, .push 0, .transmit]

theorem fits_pushedCrosswise : ∀ kind message, .take kind message ∈ pushedCrosswise →
    message.FitsFragment fun _ => [] := by
  intro kind message hmem
  simp only [pushedCrosswise, List.mem_cons, Label.take.injEq, reduceCtorEq, List.not_mem_nil, or_false] at hmem
  obtain ⟨-, rfl⟩ | ⟨-, rfl⟩ := hmem
  · refine ⟨⟨?_, by decide⟩, by decide⟩
    intro a ha
    obtain rfl := Option.some.inj ha
    exact ⟨by decide, by decide⟩
  · exact ⟨⟨nofun, by decide⟩, by decide⟩

/-- The transport breaks behind the first message. -/
theorem device_reads_pushedCrosswise : ∃ s : Connection Unit,
    exec (step fun _ => []) {} pushedCrosswise = some s ∧ s.outgoing = [1, 0] ∧ s.sent.length = 2 ∧
    (∀ before after m, pushedCrosswise = before ++ after → exec (step fun _ => []) {} before = some m →
      m.outgoing <+: s.outgoing) ∧
    ∃ rounds, sendThread (fun _ => []) 0 (fun i => decide (i < 1)) s.transmissions = .ok rounds ∧
      DeviceReads (fun _ => []) s (acceptedBytes (rounds.flatMap SendRound.sends)) ∧
      ((∀ i, decide (i < 1) = true) →
        acceptedBytes (rounds.flatMap SendRound.sends) = s.onTheWire fun _ => []) := by
  have hrun : exec (step fun _ => []) {} pushedCrosswise = some _ := rfl
  refine ⟨_, rfl, rfl, rfl, device_reads hrun fits_pushedCrosswise ?_ 0⟩
  intro i j hij
  show decide (j < 1) ≤ decide (i < 1)
  by_cases hj : j < 1
  · rw [decide_eq_true hj, decide_eq_true (lt_of_le_of_lt hij hj)]
  · rw [decide_eq_false hj]
    exact Bool.false_le _

end Connection
end IDevice
