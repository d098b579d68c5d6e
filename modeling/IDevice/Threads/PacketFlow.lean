import IDevice.Threads.Ownership
import IDevice.Wire.Received

/-!
# `Threads.PacketFlow` — the parser is fed what was received

The bytes on their way: from the transport into a packet, with the packet through the queue, and out of its block
into the parser. `Effect` is what a step does to them, without the heap; `Flow` is what holds of every run.

Each thread keeps the order of its packets, and the queue keeps that of the pushes. So with one receive thread and
one parsing thread, and nothing cleared, the parser is fed the received bytes in order, cut as they were received,
and the messages are the beginning of those of the whole stream (`parsed_messages`).
-/

namespace IDevice

open Machine

namespace PacketThread

/-- What has been received and is still to be pushed. -/
def toPush : PacketThread → List Bytes
  | .receive (.received p) => [p.bytes].filter (· ≠ [])
  | _ => []

/-- What has been taken and is still to be parsed. -/
def toParse : PacketThread → List Bytes
  | .parsing (.parsing p) => [p.bytes]
  | _ => []

def kind : PacketThread → Worker
  | .receive _ => .receive
  | .parsing _ => .parsing

/-- A packet that is received into has nothing in it. -/
def Idle : PacketThread → Prop
  | .receive (.check (some p)) | .receive (.receiving p) => p.bytes = []
  | _ => True

end PacketThread

namespace Packets

variable {s s' : Packets} {n m : Nat}

/-! ## What a step does -/

/-- What a step does but for heap and lost blocks. -/
inductive Effect (s : Packets) : Packets → Prop where
  | start (t : PacketThread) (hpush : t.toPush = []) (hparse : t.toParse = []) (hidle : t.Idle) :
      Effect s { s with threads := s.threads ++ [t] }
  | move (n : Nat) (t t' : PacketThread) (ht : s.threads[n]? = some t) (hpush : t'.toPush = t.toPush)
      (hparse : t'.toParse = t.toParse) (hkind : t'.kind = t.kind) (hidle : t'.Idle) (heap : Heap Bytes)
      (lost : List Nat) : Effect s { s with heap := heap, lost := lost, threads := s.threads.set n t' }
  | receive (n : Nat) (p : Packet) (bytes : Bytes) (ht : s.threads[n]? = some (.receive (.receiving p)))
      (heap : Heap Bytes) :
      Effect s { s with heap := heap, received := s.received ++ [(n, bytes)],
                        threads := s.threads.set n (.receive (.received (p.receive bytes))) }
  | push (n : Nat) (p : Packet) (q : BlockingQueue Actor Packet)
      (ht : s.threads[n]? = some (.receive (.received p))) (hbytes : p.bytes ≠ [])
      (hqueue : q.queue = s.receiveQueue.queue ++ [p]) (hleft : q.left = s.receiveQueue.left) :
      Effect s { s with receiveQueue := q, pushed := s.pushed ++ [(n, p.bytes)],
                        threads := s.threads.set n (.receive (.check none)) }
  | call (n : Nat) (pc : ParsingPc) (q : BlockingQueue Actor Packet) (outcome : QueueOutcome Packet)
      (ht : s.threads[n]? = some (.parsing pc)) (hparse : (PacketThread.parsing pc).toParse = [])
      (htakes : TakesNext s.receiveQueue q (some n) outcome) :
      Effect s { s with receiveQueue := q, threads := s.threads.set n (.parsing (afterCall outcome)) }
  | parse (n : Nat) (p : Packet) (ret : Bool) (ht : s.threads[n]? = some (.parsing (.parsing p))) :
      Effect s { s with parsed := s.parsed ++ [(n, p.bytes)],
                        threads := s.threads.set n (.parsing (.freeing p ret)) }
  | clear (q : BlockingQueue Actor Packet) (heap : Heap Bytes) (hqueue : q.queue = [])
      (hleft : q.left = s.receiveQueue.left ++ s.receiveQueue.queue.map .dropped) :
      Effect s { s with heap := heap, receiveQueue := q }

/-- Every packet is filled. -/
theorem Owns.filled (h : s.Owns) {t : PacketThread} (ht : s.threads[n]? = some t) {p : Packet} (hp : p ∈ t.held) :
    ∃ block, s.heap.block p.buffer = some block ∧ Filled p block := by
  refine h.owned.good p (List.mem_append_left _ ?_)
  exact List.mem_flatMap.mpr ⟨t, List.mem_of_getElem? ht, hp⟩

theorem effect_queueCall {pc : ParsingPc} (ht : s.threads[n]? = some (.parsing pc))
    (hparse : (PacketThread.parsing pc).toParse = []) {l : QueueLabel Actor Packet}
    (hconsumer : l.consumer = some (some n)) (h : s.queueCall n l = some s') : Effect s s' := by
  obtain ⟨⟨q, outcome⟩, hact, rfl⟩ := Option.map_eq_some_iff.mp h
  exact .call n pc q outcome ht hparse (takesNext_of_act hconsumer hact)

/-- The packet that a thread frees. -/
theorem Owns.freePacket_eq (h : s.Owns) {t : PacketThread} (ht : s.threads[n]? = some t) {p : Packet}
    (hp : p ∈ t.held) : ∃ heap, s.freePacket p = { s with heap := heap } := by
  obtain ⟨block, hblock, -⟩ := h.filled ht hp
  obtain ⟨heap, hfree, -⟩ := Heap.free_eq hblock
  refine ⟨heap, ?_⟩
  rw [Packets.freePacket, hfree]

theorem effect_enter (hidle : ∀ t ∈ s.threads, t.Idle) {undefined : Nat → UInt8}
    (h : s.enter n undefined = some s') : Effect s s' := by
  unfold enter at h
  split at h
  · next ht =>
    obtain rfl := Option.some.inj h
    exact .move n _ (.receive (.receiving { buffer := s.heap.next })) ht rfl rfl rfl rfl _ _
  · next p ht =>
    obtain rfl := Option.some.inj h
    have hempty : p.bytes = [] := hidle _ (List.mem_of_getElem? ht)
    exact .move n _ (.receive (.receiving p)) ht rfl rfl rfl hempty _ _
  · next ht => exact effect_queueCall ht rfl rfl h
  · cases h

theorem effect_stop (h : s.stop n = some s') : Effect s s' := by
  unfold stop at h
  split at h
  · next p ht =>
    obtain rfl := Option.some.inj h
    exact .move n _ (.receive (.leaving p)) ht rfl rfl rfl trivial _ _
  · next ht =>
    obtain rfl := Option.some.inj h
    exact .move n _ (.parsing .exited) ht rfl rfl rfl trivial _ _
  · cases h

theorem effect_disconnected (h : s.disconnected n = some s') : Effect s s' := by
  unfold disconnected at h
  split at h
  · next ht =>
    obtain rfl := Option.some.inj h
    exact .move n _ (.receive .exited) ht rfl rfl rfl trivial _ _
  · next ht =>
    obtain rfl := Option.some.inj h
    exact .move n _ (.parsing .exited) ht rfl rfl rfl trivial _ _
  · cases h

theorem Owns.effect_receive (hs : s.Owns) {bytes : Bytes} (h : s.receive n bytes = some s') : Effect s s' := by
  unfold Packets.receive at h
  split at h
  · next p ht =>
    by_cases hle : bytes.length ≤ kReceiveBufferSize
    · obtain ⟨block, hblock, -⟩ := hs.filled ht (List.mem_singleton_self p)
      obtain ⟨heap, hmodify, -⟩ := Heap.modify_eq hblock fun block => bytes ++ block.drop bytes.length
      rw [if_pos hle, hmodify] at h
      obtain rfl := Option.some.inj h
      exact .receive n p bytes ht heap
    · rw [if_neg hle] at h
      cases h
  · cases h

theorem Owns.effect_push (hs : s.Owns) (h : s.push n = some s') : Effect s s' := by
  unfold Packets.push at h
  split at h
  · next p ht =>
    obtain ⟨block, -, hfilled⟩ := hs.filled ht (List.mem_singleton_self p)
    have hsize : 0 < p.size ↔ p.bytes ≠ [] := by
      rw [UInt64.lt_iff_toNat_lt, hfilled.size, ← List.length_pos_iff]
      exact Iff.rfl
    by_cases hpos : 0 < p.size
    · rw [if_pos hpos] at h
      obtain ⟨⟨q, outcome⟩, hact, rfl⟩ := Option.map_eq_some_iff.mp h
      obtain ⟨hqueue, hleft⟩ := act_push hact
      exact .push n p q ht (hsize.mp hpos) hqueue hleft
    · rw [if_neg hpos] at h
      obtain rfl := Option.some.inj h
      have hempty : p.bytes = [] := by
        by_contra hne
        exact hpos (hsize.mpr hne)
      refine .move n _ (.receive (.check (some p))) ht ?_ rfl rfl hempty _ _
      simp [PacketThread.toPush, hempty]
  · cases h

theorem Owns.effect_parse (hs : s.Owns) {ret : Bool} (h : s.parse n ret = some s') : Effect s s' := by
  unfold Packets.parse at h
  split at h
  · next p ht =>
    obtain ⟨block, hblock, hfilled⟩ := hs.filled ht (List.mem_singleton_self p)
    have hin : ¬ block.length < p.bytes.length := by
      rw [hfilled.block_length]
      exact Nat.not_lt.mpr hfilled.length_le
    rw [hblock] at h
    simp only [hfilled.size, if_neg hin, hfilled.take] at h
    obtain rfl := Option.some.inj h
    exact .parse n p ret ht
  · cases h

theorem Owns.effect_free (hs : s.Owns) (h : s.free n = some s') : Effect s s' := by
  unfold Packets.free at h
  split at h
  · next p ret ht =>
    obtain rfl := Option.some.inj h
    obtain ⟨heap, hfree⟩ := hs.freePacket_eq ht (List.mem_singleton_self p)
    rw [hfree]
    cases ret with
    | true => exact .move n _ (.parsing .check) ht rfl rfl rfl trivial heap _
    | false => exact .move n _ (.parsing .exited) ht rfl rfl rfl trivial heap _
  · next p ht =>
    obtain rfl := Option.some.inj h
    obtain ⟨heap, hfree⟩ := hs.freePacket_eq ht (List.mem_singleton_self p)
    rw [hfree]
    exact .move n _ (.receive .exited) ht rfl rfl rfl trivial heap _
  · next ht =>
    obtain rfl := Option.some.inj h
    exact .move n _ (.receive .exited) ht rfl rfl rfl trivial _ _
  · cases h

theorem Owns.effect_clear (hs : s.Owns) {a : Actor} (h : s.clear a = some s') : Effect s s' := by
  obtain ⟨⟨q, outcome⟩, hact, rfl⟩ := Option.map_eq_some_iff.mp h
  obtain ⟨hqueue, hleft⟩ := act_clear hact
  have hswap : (s.receiveQueue.queue ++ s.threads.flatMap PacketThread.held).Perm s.packets :=
    List.perm_append_comm
  obtain ⟨heap, hfree, -⟩ := (hs.owned.perm hswap).freeAll
  simp only [hfree]
  exact .clear q heap hqueue hleft

/-- **What a step does** to the bytes on their way. -/
theorem Owns.effect (hs : s.Owns) (hidle : ∀ t ∈ s.threads, t.Idle) {l : PacketLabel} (h : s.step l = some s') :
    Effect s s' := by
  have hrun : ¬ s.fault.isSome = true := by
    rw [hs.noFault]
    exact Bool.false_ne_true
  unfold Packets.step at h
  rw [if_neg hrun] at h
  cases l with
  | startReceiveThread =>
      obtain rfl := Option.some.inj h
      exact .start _ rfl rfl trivial
  | startParsingThread =>
      obtain rfl := Option.some.inj h
      exact .start _ rfl rfl trivial
  | enter n undefined => exact effect_enter hidle h
  | stop n => exact effect_stop h
  | disconnected n => exact effect_disconnected h
  | receive n bytes => exact hs.effect_receive h
  | receiveTimeout n =>
      simp only at h
      split at h
      · next p ht =>
        obtain rfl := Option.some.inj h
        have hempty : p.bytes = [] := hidle _ (List.mem_of_getElem? ht)
        refine .move n _ (.receive (.received p)) ht ?_ rfl rfl trivial _ _
        simp [PacketThread.toPush, hempty]
      · cases h
  | receiveFails n =>
      simp only at h
      split at h
      · next p ht =>
        obtain rfl := Option.some.inj h
        exact .move n _ (.receive (.leaving (some p))) ht rfl rfl rfl trivial _ _
      · cases h
  | push n => exact hs.effect_push h
  | wake n =>
      simp only at h
      split at h
      · next ht => exact effect_queueCall ht rfl rfl h
      · cases h
  | timeout n =>
      simp only at h
      split at h
      · next ht => exact effect_queueCall ht rfl rfl h
      · cases h
  | take n =>
      simp only at h
      split at h
      · next ht => exact effect_queueCall ht rfl rfl h
      · cases h
  | parse n ret => exact hs.effect_parse h
  | free n => exact hs.effect_free h
  | clear a => exact hs.effect_clear h

/-! ## What holds of every run -/

/-- The entries of one thread. -/
def ofThread (n : Nat) (log : List (Nat × Bytes)) : List Bytes :=
  log.filterMap fun e => if e.1 = n then some e.2 else none

/-- What one thread has taken out of the queue. -/
def takenBy (n : Nat) (left : List (Departure Actor Packet)) : List Bytes :=
  left.filterMap fun
    | .taken a p => if a = some n then some p.bytes else none
    | .dropped _ => none

/-- A value of one thread; there is none for a thread that has not been started. -/
def perThread (threads : List PacketThread) (f : PacketThread → List Bytes) (n : Nat) : List Bytes :=
  (threads[n]?).elim [] f

structure Flow (s : Packets) : Prop where
  idle : ∀ t ∈ s.threads, t.Idle
  /-- What a thread has received it has pushed, in order, but for a packet that it is about to push. -/
  pushes : ∀ n, (ofThread n s.received).filter (· ≠ []) =
    ofThread n s.pushed ++ perThread s.threads PacketThread.toPush n
  /-- What left the queue, and behind it what is queued, is what was pushed. -/
  order : (s.receiveQueue.left.map Departure.element ++ s.receiveQueue.queue).map Packet.bytes =
    s.pushed.map Prod.snd
  /-- What a thread has taken it has parsed, in order, but for a packet that it is about to parse. -/
  takes : ∀ n, takenBy n s.receiveQueue.left =
    ofThread n s.parsed ++ perThread s.threads PacketThread.toParse n

theorem ofThread_concat (n m : Nat) (log : List (Nat × Bytes)) (bytes : Bytes) :
    ofThread n (log ++ [(m, bytes)]) = ofThread n log ++ if m = n then [bytes] else [] := by
  unfold ofThread
  rw [List.filterMap_append]
  by_cases h : m = n
  · simp [h]
  · simp [h]

section
variable {threads : List PacketThread} {t : PacketThread} (f : PacketThread → List Bytes)

/-- A thread moves: the values of the others stay. -/
theorem perThread_set (ht : threads[n]? = some t) (t' : PacketThread) (m : Nat) :
    perThread (threads.set n t') f m = if n = m then f t' else perThread threads f m := by
  have hlt := (List.getElem?_eq_some_iff.mp ht).1
  unfold perThread
  by_cases h : n = m
  · subst h
    rw [if_pos rfl, List.getElem?_set_self hlt]
    rfl
  · rw [if_neg h, List.getElem?_set_ne h]

theorem perThread_eq (ht : threads[n]? = some t) : perThread threads f n = f t := by
  rw [perThread, ht]
  rfl

/-- A thread moves and keeps its value. -/
theorem perThread_set_same (ht : threads[n]? = some t) (t' : PacketThread) (hf : f t' = f t) (m : Nat) :
    perThread (threads.set n t') f m = perThread threads f m := by
  rw [perThread_set f ht]
  by_cases h : n = m
  · subst h
    rw [if_pos rfl, hf, perThread_eq f ht]
  · rw [if_neg h]

theorem perThread_concat (hf : f t = []) (m : Nat) : perThread (threads ++ [t]) f m = perThread threads f m := by
  unfold perThread
  rcases Nat.lt_trichotomy m threads.length with hlt | rfl | hgt
  · rw [List.getElem?_append_left hlt]
  · rw [List.getElem?_concat_length, List.getElem?_eq_none (Nat.le_refl _)]
    exact hf
  · rw [List.getElem?_eq_none (by simp; omega), List.getElem?_eq_none (by omega)]

end

theorem idle_set {threads : List PacketThread} (h : ∀ t ∈ threads, t.Idle) {t' : PacketThread} (ht' : t'.Idle) :
    ∀ t ∈ threads.set n t', t.Idle := by
  intro t hmem
  rcases List.mem_or_eq_of_mem_set hmem with hmem | rfl
  · exact h t hmem
  · exact ht'

theorem elements_taken (a : Actor) (items : List Packet) :
    (items.map fun p => (.taken a p : Departure Actor Packet)).map Departure.element = items := by
  rw [List.map_map]
  exact List.map_id items

theorem elements_dropped (items : List Packet) :
    (items.map fun p => (.dropped p : Departure Actor Packet)).map Departure.element = items := by
  rw [List.map_map]
  exact List.map_id items

theorem takenBy_append (n : Nat) (left left' : List (Departure Actor Packet)) :
    takenBy n (left ++ left') = takenBy n left ++ takenBy n left' := List.filterMap_append

theorem takenBy_dropped (n : Nat) (queue : List Packet) :
    takenBy n (queue.map fun p => (.dropped p : Departure Actor Packet)) = [] := by
  simp [takenBy]

/-- A section of the queue that thread `n` runs. -/
theorem takenBy_taken (m : Nat) (pc : ParsingPc) (hheld : (PacketThread.parsing pc).held.map Packet.bytes =
      (PacketThread.parsing pc).toParse) :
    takenBy m ((PacketThread.parsing pc).held.map (.taken (some n))) =
      if n = m then (PacketThread.parsing pc).toParse else [] := by
  rw [← hheld]
  unfold takenBy
  rw [List.filterMap_map]
  by_cases h : n = m
  · rw [if_pos h]
    simp [h]
  · rw [if_neg h]
    simp [h]

/-- **Every step keeps the flow.** -/
theorem Flow.effect (h : s.Flow) (he : Effect s s') : s'.Flow := by
  cases he with
  | start t hpush hparse hidle =>
      refine ⟨fun t' hmem => ?_, fun m => ?_, h.order, fun m => ?_⟩
      · rcases List.mem_append.mp hmem with hmem | hmem
        · exact h.idle t' hmem
        · exact List.mem_singleton.mp hmem ▸ hidle
      · exact (h.pushes m).trans (congrArg _ (perThread_concat _ hpush m).symm)
      · exact (h.takes m).trans (congrArg _ (perThread_concat _ hparse m).symm)
  | move n t t' ht hpush hparse hkind hidle heap lost =>
      refine ⟨idle_set h.idle hidle, fun m => ?_, h.order, fun m => ?_⟩
      · exact (h.pushes m).trans (congrArg _ (perThread_set_same _ ht t' hpush m).symm)
      · exact (h.takes m).trans (congrArg _ (perThread_set_same _ ht t' hparse m).symm)
  | receive n p bytes ht heap =>
      refine ⟨idle_set h.idle trivial, fun m => ?_, h.order, fun m => ?_⟩
      · show (ofThread m (s.received ++ [(n, bytes)])).filter (· ≠ []) =
          ofThread m s.pushed ++ perThread (s.threads.set n _) PacketThread.toPush m
        rw [ofThread_concat, List.filter_append, h.pushes m, perThread_set _ ht]
        by_cases hm : n = m
        · subst hm
          rw [if_pos rfl, if_pos rfl, perThread_eq _ ht, List.append_assoc]
          rfl
        · rw [if_neg hm, if_neg hm, List.filter_nil, List.append_nil]
      · exact (h.takes m).trans
          (congrArg _ (perThread_set_same _ ht (.receive (.received (p.receive bytes))) rfl m).symm)
  | push n p q ht hbytes hqueue hleft =>
      refine ⟨idle_set h.idle trivial, fun m => ?_, ?_, fun m => ?_⟩
      · show (ofThread m s.received).filter (· ≠ []) =
          ofThread m (s.pushed ++ [(n, p.bytes)]) ++ perThread (s.threads.set n _) PacketThread.toPush m
        rw [h.pushes m, ofThread_concat, perThread_set _ ht, List.append_assoc]
        by_cases hm : n = m
        · subst hm
          rw [if_pos rfl, if_pos rfl, perThread_eq _ ht]
          simp [PacketThread.toPush, hbytes]
        · rw [if_neg hm, if_neg hm, List.nil_append]
      · show (q.left.map Departure.element ++ q.queue).map Packet.bytes =
          (s.pushed ++ [(n, p.bytes)]).map Prod.snd
        rw [hqueue, hleft, ← List.append_assoc, List.map_append, h.order, List.map_append]
        rfl
      · show takenBy m q.left = ofThread m s.parsed ++ perThread (s.threads.set n _) PacketThread.toParse m
        rw [hleft, h.takes m, perThread_set_same _ ht (.receive (.check none)) rfl]
  | call n pc q outcome ht hparse htakes =>
      obtain ⟨hqueue, hleft⟩ := htakes
      have hheld : (PacketThread.parsing (afterCall outcome)).held.map Packet.bytes =
          (PacketThread.parsing (afterCall outcome)).toParse := by
        rcases outcome with _ | _ | _ | ⟨_ | _⟩ <;> rfl
      refine ⟨idle_set h.idle trivial, fun m => ?_, ?_, fun m => ?_⟩
      · exact (h.pushes m).trans
          (congrArg _ (perThread_set_same _ ht (.parsing (afterCall outcome)) rfl m).symm)
      · have hall : q.left.map Departure.element ++ q.queue =
            s.receiveQueue.left.map Departure.element ++ s.receiveQueue.queue := by
          rw [hleft, List.map_append, elements_taken, List.append_assoc, hqueue]
        exact (congrArg (List.map Packet.bytes) hall).trans h.order
      · show takenBy m q.left = ofThread m s.parsed ++ perThread (s.threads.set n _) PacketThread.toParse m
        rw [hleft, takenBy_append, h.takes m, perThread_set _ ht, takenBy_taken m _ hheld]
        by_cases hm : n = m
        · subst hm
          rw [if_pos rfl, if_pos rfl, perThread_eq _ ht, hparse, List.append_nil]
        · rw [if_neg hm, if_neg hm, List.append_nil]
  | parse n p ret ht =>
      refine ⟨idle_set h.idle trivial, fun m => ?_, h.order, fun m => ?_⟩
      · exact (h.pushes m).trans (congrArg _ (perThread_set_same _ ht (.parsing (.freeing p ret)) rfl m).symm)
      · show takenBy m s.receiveQueue.left =
          ofThread m (s.parsed ++ [(n, p.bytes)]) ++ perThread (s.threads.set n _) PacketThread.toParse m
        rw [h.takes m, ofThread_concat, perThread_set _ ht, List.append_assoc]
        by_cases hm : n = m
        · subst hm
          rw [if_pos rfl, if_pos rfl, perThread_eq _ ht]
          rfl
        · rw [if_neg hm, if_neg hm, List.nil_append]
  | clear q heap hqueue hleft =>
      refine ⟨h.idle, h.pushes, ?_, fun m => ?_⟩
      · have hall : q.left.map Departure.element ++ q.queue =
            s.receiveQueue.left.map Departure.element ++ s.receiveQueue.queue := by
          rw [hqueue, hleft, List.append_nil, List.map_append, elements_dropped]
        exact (congrArg (List.map Packet.bytes) hall).trans h.order
      · show takenBy m q.left = _
        rw [hleft, takenBy_append, takenBy_dropped, List.append_nil]
        exact h.takes m

theorem flow_init : ({} : Packets).Flow :=
  ⟨fun _ hmem => absurd hmem List.not_mem_nil, fun _ => rfl, rfl, fun _ => rfl⟩

/-- **The flow holds of every run.** -/
theorem flow_exec {ls : List PacketLabel} (h : exec step {} ls = some s) : s.Flow :=
  (exec_invariant (fun s => s.Owns ∧ s.Flow) ⟨owns_init, flow_init⟩ h
    fun _ _ _ hs hstep => ⟨hs.1.step hstep, hs.2.effect (hs.1.effect hs.2.idle hstep)⟩).2

/-! ## One receive thread and one parsing thread -/

/-- The thread has been started, to do this. -/
def IsKind (s : Packets) (n : Nat) (k : Worker) : Prop := ∃ t, s.threads[n]? = some t ∧ t.kind = k

/-- Who did what. -/
structure Kinds (s : Packets) : Prop where
  received : ∀ e ∈ s.received, s.IsKind e.1 .receive
  pushed : ∀ e ∈ s.pushed, s.IsKind e.1 .receive
  parsed : ∀ e ∈ s.parsed, s.IsKind e.1 .parsing
  taken : ∀ a p, .taken a p ∈ s.receiveQueue.left → ∃ n, a = some n ∧ s.IsKind n .parsing

theorem isKind_set {threads : List PacketThread} {t : PacketThread} (ht : threads[n]? = some t)
    (t' : PacketThread) (hkind : t'.kind = t.kind) {k : Worker} (h : ∃ u, threads[m]? = some u ∧ u.kind = k) :
    ∃ u, (threads.set n t')[m]? = some u ∧ u.kind = k := by
  obtain ⟨u, hu, hk⟩ := h
  by_cases hm : n = m
  · subst hm
    obtain rfl := Option.some.inj (ht.symm.trans hu)
    exact ⟨t', List.getElem?_set_self (List.getElem?_eq_some_iff.mp ht).1, hkind.trans hk⟩
  · exact ⟨u, (List.getElem?_set_ne hm).trans hu, hk⟩

/-- A thread stays what it is. -/
theorem IsKind.effect {k : Worker} (h : s.IsKind n k) (he : Effect s s') : s'.IsKind n k := by
  cases he with
  | start t hpush hparse hidle =>
      obtain ⟨u, hu, hk⟩ := h
      refine ⟨u, ?_, hk⟩
      show (s.threads ++ [t])[n]? = some u
      rw [List.getElem?_append_left (List.getElem?_eq_some_iff.mp hu).1, hu]
  | move m t t' ht hpush hparse hkind => exact isKind_set ht t' hkind h
  | receive m p bytes ht => exact isKind_set ht (.receive (.received (p.receive bytes))) rfl h
  | push m p q ht => exact isKind_set ht (.receive (.check none)) rfl h
  | call m pc q outcome ht => exact isKind_set ht (.parsing (afterCall outcome)) rfl h
  | parse m p ret ht => exact isKind_set ht (.parsing (.freeing p ret)) rfl h
  | clear => exact h

theorem Kinds.effect (h : s.Kinds) (he : Effect s s') : s'.Kinds := by
  have hkept {n : Nat} {k : Worker} (hk : s.IsKind n k) : s'.IsKind n k := hk.effect he
  -- an entry of a log is an old one, or the new one of the thread that moves
  have hlog {log : List (Nat × Bytes)} {k : Worker} (hold : ∀ e ∈ log, s.IsKind e.1 k) {n : Nat} {bytes : Bytes}
      (hn : s.IsKind n k) : ∀ e ∈ log ++ [(n, bytes)], s'.IsKind e.1 k := by
    intro e hmem
    rcases List.mem_append.mp hmem with hmem | hmem
    · exact hkept (hold e hmem)
    · rw [List.mem_singleton.mp hmem]
      exact hkept hn
  have hreceived := fun e hmem => hkept (h.received e hmem)
  have hpushed := fun e hmem => hkept (h.pushed e hmem)
  have hparsed := fun e hmem => hkept (h.parsed e hmem)
  have htaken (a : Actor) (p : Packet) (hmem : .taken a p ∈ s.receiveQueue.left) :
      ∃ n, a = some n ∧ s'.IsKind n .parsing :=
    (h.taken a p hmem).imp fun n hn => ⟨hn.1, hkept hn.2⟩
  cases he with
  | start => exact ⟨hreceived, hpushed, hparsed, htaken⟩
  | move => exact ⟨hreceived, hpushed, hparsed, htaken⟩
  | receive n p bytes ht => exact ⟨hlog h.received ⟨_, ht, rfl⟩, hpushed, hparsed, htaken⟩
  | push n p q ht hbytes hqueue hleft =>
      refine ⟨hreceived, hlog h.pushed ⟨_, ht, rfl⟩, hparsed, fun a p' hmem => ?_⟩
      rw [hleft] at hmem
      exact htaken a p' hmem
  | call n pc q outcome ht hparse htakes =>
      refine ⟨hreceived, hpushed, hparsed, fun a p hmem => ?_⟩
      rw [htakes.2] at hmem
      rcases List.mem_append.mp hmem with hmem | hmem
      · exact htaken a p hmem
      · obtain ⟨p', -, heq⟩ := List.mem_map.mp hmem
        obtain ⟨rfl, -⟩ := Departure.taken.inj heq
        exact ⟨n, rfl, hkept ⟨_, ht, rfl⟩⟩
  | parse n p ret ht => exact ⟨hreceived, hpushed, hlog h.parsed ⟨_, ht, rfl⟩, htaken⟩
  | clear q heap hqueue hleft =>
      refine ⟨hreceived, hpushed, hparsed, fun a p hmem => ?_⟩
      rw [hleft] at hmem
      rcases List.mem_append.mp hmem with hmem | hmem
      · exact htaken a p hmem
      · obtain ⟨p', -, heq⟩ := List.mem_map.mp hmem
        cases heq

theorem kinds_exec {ls : List PacketLabel} (h : exec step {} ls = some s) : s.Kinds := by
  have hinit : ({} : Packets).Kinds :=
    ⟨fun _ hmem => absurd hmem List.not_mem_nil, fun _ hmem => absurd hmem List.not_mem_nil,
      fun _ hmem => absurd hmem List.not_mem_nil, fun _ _ hmem => absurd hmem List.not_mem_nil⟩
  refine (exec_invariant (fun s => s.Owns ∧ s.Flow ∧ s.Kinds) ⟨owns_init, flow_init, hinit⟩ h ?_).2.2
  rintro s l t ⟨howns, hflow, hkinds⟩ hstep
  have he := howns.effect hflow.idle hstep
  exact ⟨howns.step hstep, hflow.effect he, hkinds.effect he⟩

/-- A log of one thread. -/
theorem ofThread_all {log : List (Nat × Bytes)} (h : ∀ e ∈ log, e.1 = n) : ofThread n log = log.map Prod.snd := by
  induction log with
  | nil => rfl
  | cons e log ih =>
      have htail := ih fun e' hmem => h e' (List.mem_cons_of_mem _ hmem)
      have hhead := h e List.mem_cons_self
      unfold ofThread at htail ⊢
      rw [List.filterMap_cons, if_pos hhead, htail]
      rfl

/-- What one thread has taken, when nothing is dropped and nobody else takes. -/
theorem takenBy_all {left : List (Departure Actor Packet)} (h : ∀ d ∈ left, ∃ p, d = .taken (some n) p) :
    takenBy n left = (left.map Departure.element).map Packet.bytes := by
  induction left with
  | nil => rfl
  | cons d left ih =>
      have htail := ih fun d' hmem => h d' (List.mem_cons_of_mem _ hmem)
      obtain ⟨p, rfl⟩ := h d List.mem_cons_self
      show takenBy n ([.taken (some n) p] ++ left) = _
      rw [takenBy_append, htail]
      simp [takenBy, Departure.element]

/-- The parser is fed what was received, in order and cut alike, as long as there is one receive thread and
    one parsing thread and `Clear` finds nothing. -/
theorem parsed_prefix {ls : List PacketLabel} (h : exec step {} ls = some s) {r q : Nat}
    (hr : ∀ n, s.IsKind n .receive → n = r) (hq : ∀ n, s.IsKind n .parsing → n = q)
    (hclear : ∀ p, .dropped p ∉ s.receiveQueue.left) :
    s.parsed.map Prod.snd <+: (s.received.map Prod.snd).filter (· ≠ []) := by
  have hflow := flow_exec h
  have hkinds := kinds_exec h
  have hleft : ∀ d ∈ s.receiveQueue.left, ∃ p, d = .taken (some q) p := by
    intro d hmem
    cases d with
    | taken a p =>
        obtain ⟨n, rfl, hn⟩ := hkinds.taken a p hmem
        exact ⟨p, by rw [hq n hn]⟩
    | dropped p => exact absurd hmem (hclear p)
  have hreceived := ofThread_all fun e hmem => hr e.1 (hkinds.received e hmem)
  have hpushed := ofThread_all fun e hmem => hr e.1 (hkinds.pushed e hmem)
  have hparsed := ofThread_all fun e hmem => hq e.1 (hkinds.parsed e hmem)
  have hpushes := hflow.pushes r
  have htakes := hflow.takes q
  have horder := hflow.order
  rw [hreceived, hpushed, ← horder, List.map_append, ← takenBy_all hleft, htakes, hparsed] at hpushes
  rw [hpushes, List.append_assoc, List.append_assoc]
  exact List.prefix_append _ _

/-- What a parsing thread does with the parser, a packet after the other. -/
def parserCalls (s : Packets) : List ParserCall := s.parsed.flatMap fun e => [.parse e.2, .pop]

theorem fed_parserCalls (s : Packets) : fed s.parserCalls = (s.parsed.map Prod.snd).flatten := by
  unfold parserCalls
  induction s.parsed with
  | nil => rfl
  | cons e parsed ih =>
      rw [List.flatMap_cons, fed_append, ih]
      simp [fed, ParserCall.bytes]

theorem flatten_filter_ne_nil (chunks : List Bytes) : (chunks.filter (· ≠ [])).flatten = chunks.flatten := by
  induction chunks with
  | nil => rfl
  | cons c chunks ih =>
      by_cases hc : c = []
      · rw [List.filter_cons_of_neg (by simpa using hc), ih, hc, List.flatten_cons, List.nil_append]
      · rw [List.filter_cons_of_pos (by simpa using hc), List.flatten_cons, ih, List.flatten_cons]

/-- No packet that is parsed is empty. -/
theorem parserCalls_ne_nil (h : s.parsed.map Prod.snd <+: (s.received.map Prod.snd).filter (· ≠ [])) :
    ∀ chunk, .parse chunk ∈ s.parserCalls → chunk ≠ [] := by
  intro chunk hmem
  obtain ⟨e, he, hcall⟩ := List.mem_flatMap.mp hmem
  obtain rfl : chunk = e.2 := by simpa using hcall
  have hreceived := h.subset (List.mem_map_of_mem he)
  simpa using List.of_mem_filter hreceived

/-- The parser is fed the beginning of what was received. -/
theorem fed_isPrefix (h : s.parsed.map Prod.snd <+: (s.received.map Prod.snd).filter (· ≠ [])) :
    fed s.parserCalls <+: (s.received.map Prod.snd).flatten := by
  rw [fed_parserCalls, ← flatten_filter_ne_nil (s.received.map Prod.snd)]
  obtain ⟨later, hlater⟩ := h
  rw [← hlater, List.flatten_append]
  exact List.prefix_append _ _

/-- One connection that stays up: there is one receive thread and one parsing thread, `Clear` finds nothing, and no
    packet but the last ends where everything received is consumed. -/
structure Steady (s : Packets) (r q : Nat) : Prop where
  receives : ∀ n, s.IsKind n .receive → n = r
  parses : ∀ n, s.IsKind n .parsing → n = q
  kept : ∀ p, .dropped p ∉ s.receiveQueue.left
  onlyEndsAtRest : OnlyEndsAtRest s.parserCalls
  notStuck : (readStream (fed s.parserCalls)).verdict ≠ .stuck

/-- **From the transport to the messages**: on a connection that stays up the parser is fed what was received, in order
    and cut alike, and the messages are the beginning of those that the whole stream reads as. -/
theorem parsed_messages {ls : List PacketLabel} (h : exec step {} ls = some s) {r q : Nat} (hsteady : s.Steady r q) :
    s.parsed.map Prod.snd <+: (s.received.map Prod.snd).filter (· ≠ []) ∧
    ∃ run, exec ParserRun.step {} s.parserCalls = some run ∧
      run.messages <+: (readStream (s.received.map Prod.snd).flatten).out := by
  have hbegins := parsed_prefix h hsteady.receives hsteady.parses hsteady.kept
  obtain ⟨run, hrun, hmessages⟩ :=
    exec_messages (parserCalls_ne_nil hbegins) hsteady.onlyEndsAtRest hsteady.notStuck
  refine ⟨hbegins, run, hrun, ?_⟩
  rw [hmessages]
  exact readStream_out_isPrefix (fed_isPrefix hbegins) hsteady.notStuck

/-- A frame and the first byte of the next, in one packet on its way through. -/
def oneParsed : List PacketLabel :=
  [.startReceiveThread, .startParsingThread, .enter 0 fun _ => 0, .receive 0 (emptyMessageFrame 1 ++ [0x79]), .push 0,
    .enter 1 fun _ => 0, .take 1, .parse 1 true, .enter 0 fun _ => 0, .receive 0 []]

theorem steady_oneParsed : ∃ s, exec step {} oneParsed = some s ∧ s.parsed = [(1, emptyMessageFrame 1 ++ [0x79])] ∧
    s.received = [(0, emptyMessageFrame 1 ++ [0x79]), (0, [])] ∧ s.Steady 0 1 := by
  have hrun : (exec step {} oneParsed).map (fun s => (s.parsed, s.threads.map PacketThread.kind, s.receiveQueue.left)) =
      some ([(1, emptyMessageFrame 1 ++ [0x79])], [.receive, .parsing],
        [.taken (some 1) ⟨0, 49, emptyMessageFrame 1 ++ [0x79]⟩]) := by decide +kernel
  have hpackets : (exec step {} oneParsed).map (fun s => s.received) =
      some [(0, emptyMessageFrame 1 ++ [0x79]), (0, [])] := by decide +kernel
  obtain ⟨s, hs, hsame⟩ := Option.map_eq_some_iff.mp hrun
  obtain ⟨hparsed, hrest⟩ := Prod.mk.inj hsame
  obtain ⟨hkinds, hleft⟩ := Prod.mk.inj hrest
  rw [hs] at hpackets
  have hreceived := Option.some.inj hpackets
  have hcalls : s.parserCalls = [.parse (emptyMessageFrame 1 ++ [0x79]), .pop] := by
    rw [parserCalls, hparsed]
    rfl
  have hkind {n : Nat} {k : Worker} (h : s.IsKind n k) : [Worker.receive, .parsing][n]? = some k := by
    obtain ⟨t, ht, hk⟩ := h
    rw [← hkinds, List.getElem?_map, ht, ← hk]
    rfl
  refine ⟨s, hs, hparsed, hreceived, ?_, ?_, ?_, ?_, ?_⟩
  · intro n h
    have hn := hkind h
    rcases n with _ | _ | n
    · rfl
    · cases hn
    · cases hn
  · intro n h
    have hn := hkind h
    rcases n with _ | _ | n
    · cases hn
    · rfl
    · cases hn
  · intro p hmem
    rw [hleft] at hmem
    cases List.mem_singleton.mp hmem
  · -- nothing but a pop comes behind the only chunk
    rw [hcalls]
    rintro (_ | ⟨c, before⟩) chunk after heq hfollow
    · obtain ⟨-, rfl⟩ := List.cons.inj heq
      exact absurd rfl hfollow
    · obtain ⟨-, htail⟩ := List.cons.inj heq
      rcases before with _ | ⟨c', before⟩
      · cases (List.cons.inj htail).1
      · exact absurd (List.cons.inj htail).2 (by simp)
  · rw [hcalls]
    decide +kernel

theorem parsed_messages_oneParsed :
    ∃ s, exec step {} oneParsed = some s ∧ s.parsed = [(1, emptyMessageFrame 1 ++ [0x79])] ∧
      (s.parsed.map Prod.snd <+: (s.received.map Prod.snd).filter (· ≠ []) ∧
      ∃ run, exec ParserRun.step {} s.parserCalls = some run ∧
        run.messages <+: (readStream (s.received.map Prod.snd).flatten).out) := by
  obtain ⟨s, hs, hparsed, -, hsteady⟩ := steady_oneParsed
  exact ⟨s, hs, hparsed, parsed_messages hs hsteady⟩

end Packets
end IDevice
