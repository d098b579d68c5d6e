import IDevice.Connection.Identifiers
import IDevice.Connection.OnTheWire
import IDevice.Threads.PacketFlow
import IDevice.Tools.Decoder

/-!
# `Tools.Recording` — a session that is recorded and decoded

With `DEBUG_DTXTRANSPORT` the transport of a connection can sit behind a proxy, which writes to two files what the
transport has sent and what it has received. `recorded_calls` says what the decoder makes of the first: whatever the
order in which the users' pushes and the send thread got their turns, and wherever the transport broke, it prints the
calls whose messages have got through, each of them once, in the order in which they were made. `received_printed` is
about the second: every message that the parsing thread has handed on is among those that are printed.
-/

namespace IDevice

open Machine StdSort BufferedDTXTransport

/-- The files of a `DebugProxyTransport`. -/
structure DebugProxyTransport where
  transmitOutfile : Bytes := []
  receivedOutfile : Bytes := []

namespace DebugProxyTransport

/-- `Send`, when the proxied transport has answered so: the caller gets the same answer. -/
def send (p : DebugProxyTransport) (answered : TransportSend) : DebugProxyTransport :=
  if answered.accepted then { p with transmitOutfile := p.transmitOutfile ++ answered.bytes } else p

/-- `Receive` and `ReceiveWithTimeout`, when the proxied transport has succeeded and written these bytes. -/
def receive (p : DebugProxyTransport) (bytes : Bytes) : DebugProxyTransport :=
  { p with receivedOutfile := p.receivedOutfile ++ bytes }

/-- The file after these calls. -/
def record (sends : List TransportSend) : Bytes := (sends.foldl send {}).transmitOutfile

theorem transmitOutfile_send (p : DebugProxyTransport) (answered : TransportSend) :
    (p.send answered).transmitOutfile = p.transmitOutfile ++ acceptedBytes [answered] := by
  obtain ⟨bytes, accepted⟩ := answered
  cases accepted with
  | false => exact (List.append_nil _).symm
  | true =>
      show p.transmitOutfile ++ bytes = p.transmitOutfile ++ (bytes ++ [])
      rw [List.append_nil]

theorem foldl_send (p : DebugProxyTransport) (sends : List TransportSend) :
    (sends.foldl send p).transmitOutfile = p.transmitOutfile ++ acceptedBytes sends := by
  induction sends generalizing p with
  | nil => exact (List.append_nil _).symm
  | cons answered sends ih =>
      rw [List.foldl_cons, ih, transmitOutfile_send, List.append_assoc, ← acceptedBytes_append, List.singleton_append]

/-- The other file after these calls. -/
def recordReceived (received : List Bytes) : Bytes := (received.foldl receive {}).receivedOutfile

theorem foldl_receive (p : DebugProxyTransport) (received : List Bytes) :
    (received.foldl receive p).receivedOutfile = p.receivedOutfile ++ received.flatten := by
  induction received generalizing p with
  | nil => exact (List.append_nil _).symm
  | cons bytes received ih =>
      rw [List.foldl_cons, ih, List.flatten_cons, ← List.append_assoc]
      rfl

theorem recordReceived_eq (received : List Bytes) : recordReceived received = received.flatten :=
  foldl_receive {} received

theorem record_eq (sends : List TransportSend) : record sends = acceptedBytes sends := foldl_send {} sends

end DebugProxyTransport

namespace Connection

open DebugProxyTransport Decoder

variable {KAValue : Type} {archivedData : KAValue → Bytes} {s : Connection KAValue}

/-- Calls have their identifiers in the order in which they were made. -/
theorem ascending_exec {as : List (Label KAValue)} (hguard : Follows (step archivedData) CounterAhead {} as)
    (hrun : exec (step archivedData) {} as = some s) (hfew : s.calls.length < 2 ^ 32) :
    s.calls.Pairwise fun x y => x.identifier < y.identifier := by
  have hinv := follows_invariant (fun s => s.calls.length < 2 ^ 32 → Ascending s) (fun _ => ascending_init) hguard
    hrun fun s a t hs hg hstep hlt =>
      ascending_step (hs (Nat.lt_of_le_of_lt (calls_isPrefix hstep).length_le hlt)) hg hlt hstep
  exact (hinv hfew).ascending

/-- The messages of two calls come in the order of the calls. -/
theorem comesBefore_of_lt (hascending : s.calls.Pairwise fun x y => x.identifier < y.identifier) {c d : Nat}
    {m n : ParsedMessage} (hc : ∃ x, s.calls[c]? = some x ∧ x.Arrives archivedData m)
    (hd : ∃ y, s.calls[d]? = some y ∧ y.Arrives archivedData n) (hlt : c < d) : comesBefore m n = true := by
  obtain ⟨x, hx, hm⟩ := hc
  obtain ⟨y, hy, hn⟩ := hd
  obtain ⟨hcl, rfl⟩ := List.getElem?_eq_some_iff.mp hx
  obtain ⟨hdl, rfl⟩ := List.getElem?_eq_some_iff.mp hy
  rw [comesBefore_iff, hm.identifier, hn.identifier]
  exact .inl (List.pairwise_iff_getElem.mp hascending c d hcl hdl hlt)

/-- **The recording decodes to the calls**, in the order in which they were made. -/
theorem recorded_calls {as : List (Label KAValue)} (hguard : Follows (step archivedData) CounterAhead {} as)
    (hrun : exec (step archivedData) {} as = some s) (hfew : s.calls.length < 2 ^ 32)
    (hfits : ∀ kind message, .take kind message ∈ as → message.FitsFragment archivedData)
    {accepts : Nat → Bool} (hanti : Antitone accepts) (fuel : Nat) (sorter : Sorter ParsedMessage) :
    ∃ rounds file, sendThread archivedData fuel accepts s.transmissions = .ok rounds ∧
      file = record (rounds.flatMap SendRound.sends) ∧
      ((∀ i, accepts i = true) → file = s.onTheWire archivedData) ∧
      ((∀ n, 0 < n → n * bufferSize < file.length → unconsumed (file.take (n * bufferSize)) ≠ []) →
        ∃ k cs printed, k ≤ s.sent.length ∧ s.GotThrough archivedData file k ∧
          cs.Perm (s.outgoing.take k) ∧ cs.Pairwise (· < ·) ∧
          decoderMain sorter (-1) [some file] = some printed ∧ s.ReadsCalls archivedData cs printed ∧
          ((∀ i, accepts i = true) → k = s.sent.length)) := by
  obtain ⟨fs, rounds, htransmitted⟩ := exists_transmitted hrun hfits hanti fuel
  refine ⟨rounds, _, htransmitted.ran, rfl, ?_⟩
  rw [record_eq]
  refine ⟨htransmitted.all, ?_⟩
  generalize hfile : acceptedBytes (rounds.flatMap SendRound.sends) = file
  intro hinside
  have haccepted : file <+: acceptedBytes (rounds.flatMap SendRound.sends) := ⟨[], by rw [List.append_nil, hfile]⟩
  have hpieces : PiecesEndInside [] file := by
    refine ⟨?_, hinside⟩
    intro n
    obtain ⟨k, -, -, -, hverdict⟩ := htransmitted.readStream ((List.take_prefix (n * bufferSize) file).trans haccepted)
    rw [List.nil_append, hverdict]
    decide
  obtain ⟨k, hk, hthrough, hmessages, -⟩ := htransmitted.readStream haccepted
  have honce : (s.outgoing.take k).Nodup := (outgoing_run hrun).2.once.sublist (List.take_sublist k _)
  have hless := fun c d m n => @comesBefore_of_lt _ archivedData s (ascending_exec hguard hrun hfew) c d m n
  obtain ⟨cs, hperm, hascending, hreads⟩ :=
    sorter.sort_forall₂ strictWeakOrder_comesBefore hless (htransmitted.reads_take hk) honce
  refine ⟨k, cs, _, hk, hthrough, hperm, hascending, ?_, hreads, ?_⟩
  · rw [decoderMain_noLimit sorter hpieces, hmessages]
  · intro haccepts
    apply htransmitted.eq_length
    rwa [← htransmitted.all haccepts, hfile]

/-- The second user is the first to push, and the decoder prints the first one's message first. -/
theorem recorded_calls_pushedCrosswise : ∃ (s : Connection Unit) (rounds : List SendRound) (file : Bytes)
    (printed : List ParsedMessage), exec (step fun _ => []) {} pushedCrosswise = some s ∧ s.outgoing = [1, 0] ∧
    sendThread (fun _ => []) 0 (fun _ => true) s.transmissions = .ok rounds ∧
    file = record (rounds.flatMap SendRound.sends) ∧ s.GotThrough (fun _ => []) file 2 ∧
    decoderMain stable (-1) [some file] = some printed ∧ s.ReadsCalls (fun _ => []) [0, 1] printed := by
  have hguard : Follows (step fun _ => []) CounterAhead {} pushedCrosswise := by decide +kernel
  obtain ⟨s, hs, hstate⟩ := Option.map_eq_some_iff.mp
    (show (exec (step fun _ => []) ({} : Connection Unit) pushedCrosswise).map (fun s =>
        (s.outgoing, s.calls.length, s.sent.length, (s.onTheWire fun _ => []).length)) = some ([1, 0], 2, 2, 104) by
      decide +kernel)
  obtain ⟨hout, hlengths⟩ := Prod.mk.inj hstate
  obtain ⟨hcalls, hlengths⟩ := Prod.mk.inj hlengths
  obtain ⟨hsent, hwire⟩ := Prod.mk.inj hlengths
  have hfew : s.calls.length < 2 ^ 32 := by
    rw [hcalls]
    decide
  obtain ⟨rounds, file, hran, hfile, hall, hdecodes⟩ :=
    recorded_calls hguard hs hfew fits_pushedCrosswise (fun _ _ _ => le_refl true) 0 stable
  have hshort : file.length = 104 := by rw [hall fun _ => rfl, hwire]
  obtain ⟨k, cs, printed, -, hthrough, hperm, hascending, hprints, hreads, hwhole⟩ := hdecodes (by
    intro n hn hmore
    have := Nat.le_mul_of_pos_left bufferSize hn
    have hsize : bufferSize = 8192 := rfl
    omega)
  obtain rfl : k = 2 := (hwhole fun _ => rfl).trans hsent
  rw [hout] at hperm
  have hcs : cs = [0, 1] := by
    refine List.Perm.eq_of_pairwise ?_ hascending (by decide) (hperm.trans (List.Perm.swap 0 1 []))
    intro c d _ _ hlt hgt
    exact absurd hlt (Nat.lt_asymm hgt)
  exact ⟨s, rounds, file, printed, hs, hout, hran, hfile, hthrough, hprints, hcs ▸ hreads⟩

end Connection

namespace Packets

open DebugProxyTransport Decoder

variable {s : Packets}

/-- **The recording has what was parsed**: of a connection that stays up the decoder prints all messages that the
    parsing thread has had from the parser. -/
theorem received_printed {ls : List PacketLabel} (h : exec step {} ls = some s) {r q : Nat} (hsteady : s.Steady r q)
    (sorter : Sorter ParsedMessage) (hpieces : PiecesEndInside [] (recordReceived (s.received.map Prod.snd))) :
    ∃ run printed, exec ParserRun.step {} s.parserCalls = some run ∧
      decoderMain sorter (-1) [some (recordReceived (s.received.map Prod.snd))] = some printed ∧
      run.messages.Subperm printed ∧ Sorted comesBefore printed := by
  have hbegins := parsed_prefix h hsteady.receives hsteady.parses hsteady.kept
  obtain ⟨run, hrun, hmessages⟩ :=
    exec_messages (parserCalls_ne_nil hbegins) hsteady.onlyEndsAtRest hsteady.notStuck
  refine ⟨run, _, hrun, decoderMain_noLimit sorter hpieces, ?_, sorter.sorted strictWeakOrder_comesBefore _⟩
  have hprinted := sorter.perm strictWeakOrder_comesBefore
    (readStream (recordReceived (s.received.map Prod.snd))).out
  apply List.Subperm.trans _ hprinted.symm.subperm
  rw [hmessages, recordReceived_eq]
  exact (readStream_out_isPrefix (fed_isPrefix hbegins) hsteady.notStuck).sublist.subperm

theorem received_printed_oneParsed : ∃ s run printed, exec step {} oneParsed = some s ∧
    exec ParserRun.step {} s.parserCalls = some run ∧
    decoderMain stable (-1) [some (recordReceived (s.received.map Prod.snd))] = some printed ∧
    run.messages.Subperm printed ∧ Sorted comesBefore printed := by
  obtain ⟨s, hs, -, hreceived, hsteady⟩ := steady_oneParsed
  have hpieces : PiecesEndInside [] (recordReceived (s.received.map Prod.snd)) := by
    rw [hreceived]
    exact piecesEndInside_of_short (by decide) (by decide +kernel)
  obtain ⟨run, printed, hprinted⟩ := received_printed hs hsteady stable hpieces
  exact ⟨s, run, printed, hs, hprinted⟩

end Packets
end IDevice
