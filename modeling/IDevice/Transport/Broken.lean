import Mathlib.Order.Monotone.Defs
import IDevice.Transport.SendThread

/-!
# `Transport.Broken` — what has got through when the transport breaks

A socket that has failed does not come back: the answers of the transport are antitone. The flags that the
transmitter and the send thread drop then do no harm to the bytes: what is accepted, over the writes of a message
(`Through`) and over the whole loop of the thread, is a prefix of what would have been sent. For messages in one
fragment that is the concatenation of their frames (`sendThread_isPrefix`).
-/

namespace IDevice

open BufferedDTXTransport

/-- The bytes of a message in one fragment. -/
def frameBytes {KAValue : Type} (archivedData : KAValue → Bytes)
    (q : DTXMessage KAValue × DTXMessageRoutingInfo) : Bytes :=
  (messageHeader (q.1.serializedLength archivedData).1 1 q.2).encode ++ q.1.serialized archivedData

namespace BufferedDTXTransport

variable {bufferSize : Nat} {accepts : Nat → Bool} {b b' : BufferedDTXTransport bufferSize} {data : Bytes}

theorem refused_of_le (hanti : Antitone accepts) {n m : Nat} (hn : accepts n = false) (hle : n ≤ m) :
    accepts m = false := by
  have hanswer := hanti hle
  rw [hn] at hanswer
  cases hm : accepts m with
  | false => rfl
  | true =>
      rw [hm] at hanswer
      exact absurd hanswer (by decide)

/-- The transport is broken, behind these bytes. -/
def BrokenBehind (accepts : Nat → Bool) (b : BufferedDTXTransport bufferSize) (bytes : Bytes) : Prop :=
  accepts b.sends.length = false ∧ acceptedBytes b.sends = bytes

/-- A broken transport accepts nothing more. -/
theorem BrokenBehind.handed {cs : List Bytes} {left bytes : Bytes} {ret : Bool} (hanti : Antitone accepts)
    (hbroken : BrokenBehind accepts b bytes) (h : Handed accepts b cs left ret b') :
    BrokenBehind accepts b' bytes := by
  obtain ⟨hrefused, rfl⟩ := hbroken
  -- a call with a first chunk fails at that
  have hfirst {xs : List Bytes} (hxs : ∀ i < xs.length, accepts (b.sends.length + i) = true) : xs = [] := by
    cases xs with
    | nil => rfl
    | cons x xs =>
        have htrue := hxs 0 (Nat.succ_pos _)
        rw [Nat.add_zero, hrefused] at htrue
        cases htrue
  cases h with
  | delivered haccepts hsends _ =>
      obtain rfl := hfirst haccepts
      rw [List.map_nil, List.append_nil] at hsends
      rw [BrokenBehind, hsends]
      exact ⟨hrefused, rfl⟩
  | @refused _ before c after _ hbefore _ hsends _ =>
      obtain rfl := hfirst hbefore
      rw [List.map_nil, List.append_nil] at hsends
      rw [BrokenBehind, hsends]
      refine ⟨refused_of_le hanti hrefused ?_, ?_⟩
      · rw [List.length_append]
        exact Nat.le_add_right _ _
      · rw [acceptedBytes_append, acceptedBytes_refused, List.append_nil]

/-- Behind the writes of `data`: all of it is accepted or buffered, or the transport is broken, behind the
    beginning of it. -/
inductive Through (accepts : Nat → Bool) (b : BufferedDTXTransport bufferSize) (data : Bytes) : Prop where
  | whole : b.written = data → Through accepts b data
  | broken {bytes : Bytes} : bytes <+: data → BrokenBehind accepts b bytes → Through accepts b data

/-- One more call, which hands over what was buffered and the new bytes. -/
theorem Through.handed {cs : List Bytes} {left w : Bytes} {ret : Bool} (hanti : Antitone accepts)
    (h : Through accepts b data) (hbytes : cs.flatten ++ left = b.buffer ++ w)
    (hhanded : Handed accepts b cs left ret b') : Through accepts b' (data ++ w) := by
  cases h with
  | broken hbegins hbroken => exact .broken (hbegins.trans (List.prefix_append _ _)) (hbroken.handed hanti hhanded)
  | whole hwhole =>
      have hdata : data ++ w = acceptedBytes b.sends ++ cs.flatten ++ left := by
        rw [← hwhole, written, List.append_assoc, ← hbytes, List.append_assoc]
      rw [hdata]
      have hisPrefix := hhanded.acceptedBytes_isPrefix
      cases hhanded with
      | delivered _ hsends hbuffer =>
          apply Through.whole
          rw [written, hbuffer, hsends, acceptedBytes_append, acceptedBytes_accepted]
      | @refused _ before c after _ _ hrefused hsends _ =>
          refine .broken (hisPrefix.trans (List.prefix_append _ _)) ⟨refused_of_le hanti hrefused ?_, rfl⟩
          rw [hsends, List.length_append, List.length_append, List.length_map]
          exact Nat.le_add_right _ _

/-- **Writes whose flags are dropped**, and the flush behind them: an invariant that every call keeps. -/
theorem writeAll_invariant (Inv : BufferedDTXTransport bufferSize → Bytes → Prop) (h32 : bufferSize < 2 ^ 32)
    (hkeeps : ∀ b b' cs left data w ret, Inv b data → cs.flatten ++ left = b.buffer ++ w →
      Handed accepts b cs left ret b' → Inv b' (data ++ w))
    (hroom : b.HasRoom) (data : Bytes) (h : Inv b data) {ws : List Bytes} (hws : ∀ w ∈ ws, w.length < 2 ^ 32) :
    Inv (b.writeAll accepts ws) (data ++ ws.flatten) := by
  induction ws generalizing b data with
  | nil =>
      refine hkeeps _ _ _ _ _ _ _ h ?_ (flush_handed accepts h32 b)
      cases b.buffer <;> simp
  | cons w ws ih =>
      have hw := hws w List.mem_cons_self
      have hsend := hkeeps _ _ _ _ _ _ _ h (split_flatten bufferSize b.buffer w) (send_handed accepts h32 hroom hw)
      have hrest := ih (send_hasRoom accepts h32 hroom hw) _ hsend fun v hv => hws v (List.mem_cons_of_mem w hv)
      rwa [List.append_assoc, ← List.flatten_cons] at hrest

end BufferedDTXTransport

/-! ## The send thread -/

section Thread
variable {KAValue : Type} {archivedData : KAValue → Bytes} {fuel : Nat} {accepts : Nat → Bool}
  {queue : List (DTXMessage KAValue × DTXMessageRoutingInfo)}

theorem header_write_lt {message : DTXMessage KAValue} (routingInfo : DTXMessageRoutingInfo)
    (hone : fragmentsForLength outgoingFragmentSize (message.serializedLength archivedData).1 = 1) :
    ∀ w ∈ (messageHeader (message.serializedLength archivedData).1 1 routingInfo).encode ::
      message.writes archivedData, w.length < 2 ^ 32 := by
  intro w hw
  rcases List.mem_cons.mp hw with rfl | hw
  · rw [DTXMessageHeader.encode_length]
    exact Nat.lt_of_lt_of_le (m := 33) (by omega) (by omega)
  · exact write_lt_of_one hone hw

/-- What has got through of one message: if not all of it, the transport is broken; if it was broken before,
    nothing. -/
theorem sendRound_through (hanti : Antitone accepts) (fuel : Nat) {message : DTXMessage KAValue}
    (routingInfo : DTXMessageRoutingInfo)
    (hone : fragmentsForLength outgoingFragmentSize (message.serializedLength archivedData).1 = 1) :
    ∃ sends, sendRound archivedData fuel accepts message routingInfo = .ok ⟨true, sends⟩ ∧
      (acceptedBytes sends = frameBytes archivedData (message, routingInfo) ∨
        accepts sends.length = false ∧
          acceptedBytes sends <+: frameBytes archivedData (message, routingInfo)) ∧
      (accepts 0 = false → acceptedBytes sends = []) := by
  have h32 : sendBufferSize < 2 ^ 32 := by decide
  have hwrites := header_write_lt routingInfo hone
  have hroom : (create : BufferedDTXTransport sendBufferSize).HasRoom := .inl rfl
  have hempty : (create : BufferedDTXTransport sendBufferSize).written = [] := rfl
  refine ⟨_, sendRound_one fuel accepts routingInfo hone, ?_, fun hbroken => ?_⟩
  · have hthrough := writeAll_invariant (Through accepts) h32
      (fun _ _ _ _ _ _ _ h hbytes hhanded => h.handed hanti hbytes hhanded) hroom [] (.whole hempty) hwrites
    rw [List.nil_append, List.flatten_cons] at hthrough
    cases hthrough with
    | whole hwritten =>
        left
        rw [written, writeAll, flush_buffer, List.append_nil] at hwritten
        exact hwritten
    | broken hbegins hbroken => exact .inr ⟨hbroken.1, hbroken.2 ▸ hbegins⟩
  · have hkept := writeAll_invariant (fun b _ => BrokenBehind accepts b []) h32
      (fun _ _ _ _ _ _ _ h _ hhanded => h.handed hanti hhanded) hroom [] ⟨hbroken, rfl⟩ hwrites
    exact hkept.2

/-- **The loop of the send thread** over messages in one fragment: what is accepted is a prefix of their frames,
    all of them if the transport never fails, and nothing if it was broken from the start. -/
theorem sendThread_isPrefix (hanti : Antitone accepts) (fuel : Nat)
    (hone : ∀ q ∈ queue, fragmentsForLength outgoingFragmentSize (q.1.serializedLength archivedData).1 = 1) :
    ∃ rounds, sendThread archivedData fuel accepts queue = .ok rounds ∧
      acceptedBytes (rounds.flatMap SendRound.sends) <+: (queue.map (frameBytes archivedData)).flatten ∧
      ((∀ i, accepts i = true) →
        acceptedBytes (rounds.flatMap SendRound.sends) = (queue.map (frameBytes archivedData)).flatten) ∧
      (accepts 0 = false → acceptedBytes (rounds.flatMap SendRound.sends) = []) := by
  induction queue generalizing accepts with
  | nil => exact ⟨[], sendThread_nil, List.prefix_rfl, fun _ => rfl, fun _ => rfl⟩
  | cons q queue ih =>
      obtain ⟨message, routingInfo⟩ := q
      obtain ⟨sends, hround, hthrough, hnone⟩ :=
        sendRound_through hanti fuel routingInfo (hone (message, routingInfo) List.mem_cons_self)
      have hshift : Antitone fun i => accepts (sends.length + i) :=
        fun i j hij => hanti (Nat.add_le_add_left hij _)
      obtain ⟨rounds, hrounds, hbegins, hall, hrest⟩ :=
        ih hshift fun q hq => hone q (List.mem_cons_of_mem _ hq)
      refine ⟨_, sendThread_cons hround hrounds, ?_⟩
      simp only [List.flatMap_cons, acceptedBytes_append, List.map_cons, List.flatten_cons]
      refine ⟨?_, fun haccepts => ?_, fun hbroken => ?_⟩
      · rcases hthrough with hwhole | ⟨hbroken, hpart⟩
        · rw [hwhole]
          exact (List.prefix_append_right_inj _).mpr hbegins
        · -- nothing comes behind the part
          rw [hrest hbroken, List.append_nil]
          exact hpart.trans (List.prefix_append _ _)
      · rcases hthrough with hwhole | ⟨hbroken, -⟩
        · rw [hwhole, hall fun i => haccepts _]
        · rw [haccepts] at hbroken
          cases hbroken
      · rw [hnone hbroken, hrest (refused_of_le hanti hbroken (Nat.zero_le _)), List.append_nil]

end Thread
end IDevice
