import IDevice.Transport.Fragments

/-!
# `Transport.SendThread` — is a rejected message treated as sent?

The loop of `DTXConnection::SendThread` (`dtxconnection.cpp`) gives every message a write buffer of its
own, flushes it and looks only at what `TransmitMessage` returned. For a message in one fragment that is
always `true`, so a failure is never seen; in several fragments it is always `false`, so the thread
disconnects after any such message, but it may go on with the same message after a failure.

`rejectedNeverSent_iff` says for every queue and every transport when no rejected message is treated as
sent: one condition on the answers for each message that is handled (`FailuresNoticed`).
-/

namespace IDevice

open BufferedDTXTransport

/-- `send_buffer_size`. -/
def sendBufferSize : Nat := 8 * 1024

/-- `suggested_fragment_size_` of `outgoing_transmitter_`, which keeps its default. -/
def outgoingFragmentSize : UInt32 := 64 * 1024

/-- What became of a message: the flag on which the thread disconnects or goes on, and the calls of the
    transport. -/
structure SendRound where
  ret : Bool
  sends : List TransportSend
deriving DecidableEq

section
variable {KAValue : Type} (archivedData : KAValue → Bytes)

/-- The body of the loop for a message from the queue. The result of the flush is not looked at. -/
def sendRound (fuel : Nat) (accepts : Nat → Bool) (message : DTXMessage KAValue)
    (routingInfo : DTXMessageRoutingInfo) : Except Stop SendRound := do
  let (ret, _, bufferedTransport) ← transmitMessage archivedData fuel outgoingFragmentSize message
    routingInfo (send accepts) (create : BufferedDTXTransport sendBufferSize)
  let (_, bufferedTransport) := bufferedTransport.flush accepts
  let bufferedTransport := bufferedTransport.destroy accepts
  return ⟨ret, bufferedTransport.sends⟩

/-- The loop, for the messages that it takes from the queue; `accepts` are the answers of the transport
    from its next call on. After a round with the flag `false` the thread disconnects and ends. -/
def sendThread (fuel : Nat) :
    (Nat → Bool) → List (DTXMessage KAValue × DTXMessageRoutingInfo) → Except Stop (List SendRound)
  | _, [] => return []
  | accepts, (message, routingInfo) :: queue => do
    let round ← sendRound archivedData fuel accepts message routingInfo
    if !round.ret then return [round]
    else
      let rounds ← sendThread fuel (fun i => accepts (round.sends.length + i)) queue
      return round :: rounds

/-- What is handed over for a message if nothing is rejected. -/
def Transmission (message : DTXMessage KAValue × DTXMessageRoutingInfo) (bytes : Bytes) : Prop :=
  ∃ fuel ret message', transmitMessage archivedData fuel outgoingFragmentSize message.1 message.2
    recordBytes [] = .ok (ret, message', bytes)

/-- No rejected message is treated as sent. -/
structure RejectedNeverSent (queue : List (DTXMessage KAValue × DTXMessageRoutingInfo))
    (rounds : List SendRound) : Prop where
  /-- A call that fails is the last one, and the thread disconnects after this message. -/
  stops : ∀ before round after, rounds = before ++ round :: after →
    ∀ sent c rest, round.sends = sent ++ ⟨c, false⟩ :: rest → round.ret = false ∧ rest = [] ∧ after = []
  /-- What is accepted is a prefix of the transmissions of the messages that are handled. -/
  isPrefix : ∀ transmissions,
    List.Forall₂ (Transmission archivedData) (queue.take rounds.length) transmissions →
    acceptedBytes (rounds.flatMap SendRound.sends) <+: transmissions.flatten

/-- The chunks that a message in one fragment hands to the transport if nothing is rejected. -/
def messageChunks (message : DTXMessage KAValue) (routingInfo : DTXMessageRoutingInfo) : List Bytes :=
  chunks sendBufferSize []
    ((messageHeader (message.serializedLength archivedData).1 1 routingInfo).encode ::
      message.writes archivedData)

/-- The failures that the thread gets to see or that do no harm: none for a message in one fragment, and
    for the first message in several fragments, which is the last that is handled, only a failure behind
    which the writes do not fill another piece. -/
def FailuresNoticed :
    (Nat → Bool) → List (DTXMessage KAValue × DTXMessageRoutingInfo) → Prop
  | _, [] => True
  | accepts, (message, routingInfo) :: queue =>
    if fragmentsForLength outgoingFragmentSize (message.serializedLength archivedData).1 = 1 then
      (∀ i < (messageChunks archivedData message routingInfo).length, accepts i = true) ∧
        FailuresNoticed (fun i => accepts ((messageChunks archivedData message routingInfo).length + i)) queue
    else
      QuietFrom accepts (outgoingFragmentSize - kDTXMessageHeaderSize).toNat
        (message.serializedLength archivedData).1 0 (message.writes archivedData)

end

/-! ## One message -/

section Round
variable {KAValue : Type} {archivedData : KAValue → Bytes} {fuel : Nat} {accepts : Nat → Bool}
  {message : DTXMessage KAValue} {routingInfo : DTXMessageRoutingInfo} {round : SendRound}

/-- Behind the flush there is nothing left for the destructor. -/
theorem destroy_flush (accepts : Nat → Bool) (b : BufferedDTXTransport sendBufferSize) :
    (b.flush accepts).2.destroy accepts = (b.flush accepts).2 := by
  unfold destroy
  rw [flush_buffer, if_neg]
  decide

theorem sendRound_one (fuel : Nat) (accepts : Nat → Bool) (routingInfo : DTXMessageRoutingInfo)
    (hone : fragmentsForLength outgoingFragmentSize (message.serializedLength archivedData).1 = 1) :
    sendRound archivedData fuel accepts message routingInfo =
      .ok ⟨true, (create.writeAll accepts
        ((messageHeader (message.serializedLength archivedData).1 1 routingInfo).encode ::
          message.writes archivedData) : BufferedDTXTransport sendBufferSize).sends⟩ := by
  unfold sendRound
  rw [transmitMessage_one fuel routingInfo (send accepts) create hone]
  simp only [bind, Except.bind, pure, Except.pure, destroy_flush]
  rfl

theorem write_lt_of_one
    (hone : fragmentsForLength outgoingFragmentSize (message.serializedLength archivedData).1 = 1)
    {w : Bytes} (hw : w ∈ message.writes archivedData) : w.length < 2 ^ 32 := by
  have hlt := lt_of_fragmentsForLength_one (show 33 ≤ outgoingFragmentSize.toNat by decide) (by decide) hone
  have hle : w.length ≤ (message.serialized archivedData).length := length_le_flatten hw
  have hserialized := message.serialized_length_le archivedData
  omega

/-- **A message in one fragment** never makes the thread disconnect. Its calls are accepted, or one of
    them has failed. -/
theorem sendRound_one_cases
    (hone : fragmentsForLength outgoingFragmentSize (message.serializedLength archivedData).1 = 1)
    (hrun : sendRound archivedData fuel accepts message routingInfo = .ok round) :
    round.ret = true ∧
      ((∀ i < (messageChunks archivedData message routingInfo).length, accepts i = true) ∧
          round.sends = (messageChunks archivedData message routingInfo).map (⟨·, true⟩) ∨
        ¬ (∀ i < (messageChunks archivedData message routingInfo).length, accepts i = true) ∧
          ∃ c, ⟨c, false⟩ ∈ round.sends) := by
  rw [sendRound_one fuel accepts routingInfo hone] at hrun
  obtain rfl := Except.ok.inj hrun
  have hwrites : ∀ w ∈ (messageHeader (message.serializedLength archivedData).1 1 routingInfo).encode ::
      message.writes archivedData, w.length < 2 ^ 32 := by
    intro w hw
    rcases List.mem_cons.mp hw with rfl | hw
    · rw [DTXMessageHeader.encode_length]
      decide
    · exact write_lt_of_one hone hw
  have h32 : sendBufferSize < 2 ^ 32 := by decide
  refine ⟨rfl, ?_⟩
  rcases writeAll_create accepts h32 hwrites with ⟨haccepts, hsends⟩ | ⟨⟨i, hi, hrefused⟩, hmem⟩
  · exact .inl ⟨haccepts, hsends⟩
  · exact .inr ⟨fun hall => absurd (hall i hi) (by simp [hrefused]), hmem⟩

/-- A message that is shorter than the buffer takes one call, in the final flush, whose answer is not
    looked at. -/
theorem sendRound_small (fuel : Nat) (accepts : Nat → Bool) (routingInfo : DTXMessageRoutingInfo)
    (hone : fragmentsForLength outgoingFragmentSize (message.serializedLength archivedData).1 = 1)
    (hsmall : 32 + (message.serialized archivedData).length < sendBufferSize) :
    sendRound archivedData fuel accepts message routingInfo =
      .ok ⟨true, [⟨(messageHeader (message.serializedLength archivedData).1 1 routingInfo).encode ++
        message.serialized archivedData, accepts 0⟩]⟩ := by
  have hflatten : ((messageHeader (message.serializedLength archivedData).1 1 routingInfo).encode ::
      message.writes archivedData).flatten =
        (messageHeader (message.serializedLength archivedData).1 1 routingInfo).encode ++
          message.serialized archivedData := List.flatten_cons
  have hbuffer : (create : BufferedDTXTransport sendBufferSize).buffer = [] := rfl
  have hsends : (create : BufferedDTXTransport sendBufferSize).sends = [] := rfl
  have h32 : sendBufferSize < 2 ^ 32 := by decide
  rw [sendRound_one fuel accepts routingInfo hone, writeAll_small accepts h32]
  · rw [hflatten, hsends, hbuffer, List.nil_append, List.nil_append, List.length_nil]
  · rw [hflatten, hbuffer, List.length_append, DTXMessageHeader.encode_length, List.length_nil]
    omega
  · rw [hflatten]
    apply List.ne_nil_of_length_pos
    rw [List.length_append, List.length_append, DTXMessageHeader.encode_length]
    omega

/-- In one fragment the chunks are the transmission. -/
theorem transmission_one_iff
    (hone : fragmentsForLength outgoingFragmentSize (message.serializedLength archivedData).1 = 1)
    {bytes : Bytes} : Transmission archivedData (message, routingInfo) bytes ↔
      bytes = (messageChunks archivedData message routingInfo).flatten := by
  have hflatten : (messageChunks archivedData message routingInfo).flatten =
      (messageHeader (message.serializedLength archivedData).1 1 routingInfo).encode ++
        message.serialized archivedData := by
    rw [messageChunks, chunks_flatten, List.nil_append, List.flatten_cons, DTXMessage.serialized]
  rw [hflatten]
  constructor
  · rintro ⟨fuel, ret, message', hrun⟩
    rw [transmitMessage_single fuel routingInfo hone] at hrun
    cases hrun
    rfl
  · rintro rfl
    exact ⟨0, _, _, transmitMessage_single 0 routingInfo hone⟩

/-- **A message in several fragments** always makes the thread disconnect, and the question is whether a
    call comes after one that failed. -/
theorem sendRound_several
    (hne : fragmentsForLength outgoingFragmentSize (message.serializedLength archivedData).1 ≠ 1)
    (hrun : sendRound archivedData fuel accepts message routingInfo = .ok round) :
    round.ret = false ∧
      (StopsAtFailure round.sends ↔
        QuietFrom accepts (outgoingFragmentSize - kDTXMessageHeaderSize).toNat
          (message.serializedLength archivedData).1 0 (message.writes archivedData)) ∧
      (StopsAtFailure round.sends → ∀ bytes, Transmission archivedData (message, routingInfo) bytes →
        acceptedBytes round.sends <+: bytes) := by
  have hpos : 0 < (message.serializedLength archivedData).1 :=
    lt_of_lt_of_le (by decide) (message.le_serializedLength archivedData)
  obtain ⟨hD, hlong⟩ := lt_of_fragmentsForLength_ne_one hpos hne
  generalize hsize : (outgoingFragmentSize - kDTXMessageHeaderSize).toNat = D at *
  have hDvalue : D = 65504 := by
    rw [← hsize]
    decide
  unfold sendRound at hrun
  rw [transmitMessage_several fuel routingInfo (send accepts) create hne, hsize] at hrun
  obtain ⟨⟨ret, message', b⟩, hbody, hround⟩ := Callback.bind_eq_ok.mp hrun
  obtain ⟨f, hcalls, hret⟩ := Callback.bind_eq_ok.mp hbody
  cases hret
  simp only [destroy_flush] at hround
  obtain rfl := Except.ok.inj hround
  -- the run against a transport that only records is the reference
  obtain ⟨hstart, hghost⟩ := sending_start accepts (messageHeader (message.serializedLength archivedData).1
    (fragmentsForLength outgoingFragmentSize (message.serializedLength archivedData).1) routingInfo) hD hlong
    (show 64 < sendBufferSize by decide)
  obtain ⟨hiff, haccepted⟩ := hstart.calls (by decide) (by decide) (by rw [hDvalue]; decide)
    (by rw [hDvalue]; decide)
    (fun before w after heq => by
      rw [Nat.zero_add]
      exact DTXMessage.write_starts_inside archivedData heq)
    (by
      rw [Nat.zero_add]
      exact message.serialized_length_le archivedData) hcalls
  refine ⟨rfl, hiff, fun hstops bytes htransmission => ?_⟩
  obtain ⟨fuel', ret', message'', hother⟩ := htransmission
  rw [transmitMessage_several fuel' routingInfo recordBytes [] hne, hsize] at hother
  obtain ⟨g, hgcalls, hgret⟩ := Callback.bind_eq_ok.mp hother
  cases hgret
  rw [← hghost] at hgcalls
  exact haccepted hstops fuel' g hgcalls

end Round

/-! ## The whole queue -/

section Thread
variable {KAValue : Type} {archivedData : KAValue → Bytes} {fuel : Nat} {accepts : Nat → Bool}
  {message : DTXMessage KAValue} {routingInfo : DTXMessageRoutingInfo}
  {queue : List (DTXMessage KAValue × DTXMessageRoutingInfo)} {round : SendRound} {rounds : List SendRound}

/-- What one pass of the loop is: the thread ends, or goes on with the rest of the queue. -/
theorem sendThread_cases
    (hrun : sendThread archivedData fuel accepts ((message, routingInfo) :: queue) = .ok rounds) :
    ∃ round, sendRound archivedData fuel accepts message routingInfo = .ok round ∧
      (round.ret = false ∧ rounds = [round] ∨
        round.ret = true ∧ ∃ rest, rounds = round :: rest ∧
          sendThread archivedData fuel (fun i => accepts (round.sends.length + i)) queue = .ok rest) := by
  unfold sendThread at hrun
  obtain ⟨round, hround, hnext⟩ := Callback.bind_eq_ok.mp hrun
  refine ⟨round, hround, ?_⟩
  cases hret : round.ret with
  | false =>
      simp only [hret, Bool.not_false, if_true] at hnext
      exact .inl ⟨rfl, (Except.ok.inj hnext).symm⟩
  | true =>
      simp only [hret, Bool.not_true, Bool.false_eq_true, if_false] at hnext
      obtain ⟨rest, hrest, hpure⟩ := Callback.bind_eq_ok.mp hnext
      exact .inr ⟨rfl, rest, (Except.ok.inj hpure).symm, hrest⟩

theorem sendThread_nil : sendThread archivedData fuel accepts [] = .ok [] := by
  unfold sendThread
  rfl

theorem sendThread_cons {sends : List TransportSend}
    (h : sendRound archivedData fuel accepts message routingInfo = .ok ⟨true, sends⟩)
    (hrest : sendThread archivedData fuel (fun i => accepts (sends.length + i)) queue = .ok rounds) :
    sendThread archivedData fuel accepts ((message, routingInfo) :: queue) = .ok (⟨true, sends⟩ :: rounds) := by
  rw [sendThread, h]
  simp only [bind, Except.bind, Bool.not_true, Bool.false_eq_true, if_false, hrest]
  rfl

/-- The messages behind one whose chunks were all accepted. -/
theorem rejectedNeverSent_cons
    (hone : fragmentsForLength outgoingFragmentSize (message.serializedLength archivedData).1 = 1)
    (hsends : round.sends = (messageChunks archivedData message routingInfo).map (⟨·, true⟩)) :
    RejectedNeverSent archivedData ((message, routingInfo) :: queue) (round :: rounds) ↔
      RejectedNeverSent archivedData queue rounds := by
  have haccepted : acceptedBytes round.sends = (messageChunks archivedData message routingInfo).flatten := by
    rw [hsends, acceptedBytes_accepted]
  have htransmission : Transmission archivedData (message, routingInfo)
      (messageChunks archivedData message routingInfo).flatten := (transmission_one_iff hone).mpr rfl
  constructor
  · intro h
    refine ⟨fun before round' after heq => ?_, fun transmissions hall => ?_⟩
    · exact h.stops (round :: before) round' after (by rw [heq, List.cons_append])
    · have hwhole := h.isPrefix (_ :: transmissions) (.cons htransmission hall)
      rw [List.flatMap_cons, acceptedBytes_append, haccepted, List.flatten_cons] at hwhole
      exact (List.prefix_append_right_inj _).mp hwhole
  · intro h
    refine ⟨fun before round' after heq => ?_, fun transmissions hall => ?_⟩
    · cases before with
      | nil =>
          obtain ⟨rfl, -⟩ := List.cons.inj heq
          intro sent c rest hsent
          have hmem : (⟨c, false⟩ : TransportSend) ∈ round.sends := by simp [hsent]
          rw [hsends] at hmem
          obtain ⟨c', -, hfalse⟩ := List.mem_map.mp hmem
          exact absurd (congrArg TransportSend.accepted hfalse) (by simp)
      | cons first before =>
          obtain ⟨-, htail⟩ := List.cons.inj heq
          exact h.stops before round' after htail
    · cases hall with
      | cons hfirst hrest =>
          rw [(transmission_one_iff hone).mp hfirst, List.flatMap_cons, acceptedBytes_append, haccepted,
            List.flatten_cons]
          exact (List.prefix_append_right_inj _).mpr (h.isPrefix _ hrest)

/-- A message in several fragments is the last one. -/
theorem rejectedNeverSent_last
    (hne : fragmentsForLength outgoingFragmentSize (message.serializedLength archivedData).1 ≠ 1)
    (hrun : sendRound archivedData fuel accepts message routingInfo = .ok round) :
    RejectedNeverSent archivedData ((message, routingInfo) :: queue) [round] ↔
      StopsAtFailure round.sends := by
  obtain ⟨hret, -, haccepted⟩ := sendRound_several hne hrun
  constructor
  · intro h sent c rest hsent
    exact (h.stops [] round [] rfl sent c rest hsent).2.1
  · intro h
    refine ⟨fun before round' after heq sent c rest hsent => ?_, fun transmissions hall => ?_⟩
    · obtain ⟨rfl, rfl, rfl⟩ : before = [] ∧ round' = round ∧ after = [] := by
        cases before with
        | nil => simpa using heq.symm
        | cons first before => simp at heq
      exact ⟨hret, h sent c rest hsent, rfl⟩
    · cases hall with
      | cons hfirst hrest =>
          cases hrest
          simpa using haccepted h _ hfirst

/-- **No rejected message is treated as sent** exactly when the failures are noticed or harmless. -/
theorem rejectedNeverSent_iff (hrun : sendThread archivedData fuel accepts queue = .ok rounds) :
    RejectedNeverSent archivedData queue rounds ↔ FailuresNoticed archivedData accepts queue := by
  induction queue generalizing accepts rounds with
  | nil =>
      obtain rfl := Except.ok.inj hrun
      refine ⟨fun _ => trivial, fun _ => ⟨fun before round after heq => ?_, fun transmissions _ => ?_⟩⟩
      · simp at heq
      · exact List.nil_prefix
  | cons first queue ih =>
      obtain ⟨message, routingInfo⟩ := first
      obtain ⟨round, hround, hnext⟩ := sendThread_cases hrun
      unfold FailuresNoticed
      by_cases hone : fragmentsForLength outgoingFragmentSize (message.serializedLength archivedData).1 = 1
      · obtain ⟨hret, hcases⟩ := sendRound_one_cases hone hround
        rw [if_pos hone]
        rcases hnext with ⟨hfalse, -⟩ | ⟨-, rest, rfl, hrest⟩
        · -- a message in one fragment never ends the thread
          rw [hret] at hfalse
          cases hfalse
        · rcases hcases with ⟨haccepts, hsends⟩ | ⟨hrefused, c, hmem⟩
          · have hlength : round.sends.length = (messageChunks archivedData message routingInfo).length := by
              rw [hsends, List.length_map]
            rw [hlength] at hrest
            rw [rejectedNeverSent_cons hone hsends, ih hrest, and_iff_right haccepts]
          · -- the thread has not seen the failure
            refine ⟨fun h => ?_, fun h => absurd h.1 hrefused⟩
            obtain ⟨sent, behind, hsplit⟩ := List.append_of_mem hmem
            have hfalse := (h.stops [] round rest rfl sent c behind hsplit).1
            rw [hret] at hfalse
            cases hfalse
      · rw [if_neg hone]
        -- a message in several fragments ends the thread, so it is the last
        have hseveral := sendRound_several hone hround
        rcases hnext with ⟨-, rfl⟩ | ⟨htrue, -⟩
        · exact (rejectedNeverSent_last hone hround).trans hseveral.2.1
        · rw [hseveral.1] at htrue
          cases htrue

end Thread

/-- What a message without arguments and payload makes of the transport. -/
theorem sendRound_bareMessage (accepts : Nat → Bool) (identifier : UInt32) :
    sendRound (fun _ => []) 0 accepts bareMessage ⟨identifier, 0, 0, 0⟩ =
      .ok ⟨true, [⟨(messageHeader 16 1 ⟨identifier, 0, 0, 0⟩).encode ++ List.replicate 16 0, accepts 0⟩]⟩ :=
  sendRound_small 0 accepts _ (by decide +kernel) (by decide)

/-- Two messages, and a transport that breaks behind them. -/
theorem rejectedNeverSent_iff_twoMessages :
    ∃ rounds, sendThread (fun _ => []) 0 (fun i => decide (i < 2))
        [(bareMessage, ⟨1, 0, 0, 0⟩), (bareMessage, ⟨2, 0, 0, 0⟩)] = .ok rounds ∧
      rounds.map SendRound.ret = [true, true] ∧
      RejectedNeverSent (fun _ => []) [(bareMessage, ⟨1, 0, 0, 0⟩), (bareMessage, ⟨2, 0, 0, 0⟩)] rounds := by
  have hrun := sendThread_cons (sendRound_bareMessage (fun i => decide (i < 2)) 1)
    (sendThread_cons (sendRound_bareMessage _ 2) sendThread_nil)
  refine ⟨_, hrun, rfl, (rejectedNeverSent_iff hrun).mpr ?_⟩
  have hone : fragmentsForLength outgoingFragmentSize (bareMessage.serializedLength fun _ => []).1 = 1 := by
    decide +kernel
  have hfirst : (messageChunks (fun _ => []) bareMessage ⟨1, 0, 0, 0⟩).length = 1 := by decide +kernel
  have hsecond : (messageChunks (fun _ => []) bareMessage ⟨2, 0, 0, 0⟩).length = 1 := by decide +kernel
  simp only [FailuresNoticed, if_pos hone, hfirst, hsecond, and_true]
  decide

/-- The only call for the first message is rejected; the thread goes on, and the second message is
    accepted. -/
theorem not_rejectedNeverSent_flushFails :
    ∃ rounds, sendThread (fun _ => []) 0 (fun i => i ≠ 0)
        [(bareMessage, ⟨1, 0, 0, 0⟩), (bareMessage, ⟨2, 0, 0, 0⟩)] = .ok rounds ∧
      rounds =
        [⟨true, [⟨(messageHeader 16 1 ⟨1, 0, 0, 0⟩).encode ++ List.replicate 16 0, false⟩]⟩,
          ⟨true, [⟨(messageHeader 16 1 ⟨2, 0, 0, 0⟩).encode ++ List.replicate 16 0, true⟩]⟩] ∧
      ¬ RejectedNeverSent (fun _ => [])
        [(bareMessage, ⟨1, 0, 0, 0⟩), (bareMessage, ⟨2, 0, 0, 0⟩)] rounds := by
  refine ⟨_, sendThread_cons (sendRound_bareMessage _ 1)
    (sendThread_cons (sendRound_bareMessage _ 2) sendThread_nil), rfl, ?_⟩
  intro h
  have hstops := h.stops [] _ _ rfl [] _ [] rfl
  exact absurd hstops.1 (by simp)

end IDevice
