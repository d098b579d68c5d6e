import IDevice.Threads.Packets

/-!
# `Threads.Ownership` — every packet has one owner

`Owns` is the invariant: every allocated buffer is that of exactly one packet, which a thread holds or the queue
contains, or it is lost; and it has the received bytes in front. A step moves packets (`owned_moveTo`), or does
one thing to the block of a packet that its thread holds, which the rules of `Lib.Heap` are for.

`noFault` is memory safety, `heap_empty` says when nothing leaks, and `conveyed` that the parser is fed what was
received, thread by thread and in the order of the queue.
-/

namespace IDevice

open Machine

namespace Packets

variable {s s' : Packets} {n : Nat}

/-- The packets that a thread holds, and those in the queue. -/
def packets (s : Packets) : List Packet := s.threads.flatMap PacketThread.held ++ s.receiveQueue.queue

/-- The block has the bytes that were received in front, and `size` is how many. -/
structure Filled (p : Packet) (block : Bytes) : Prop where
  block_length : block.length = kReceiveBufferSize
  size : p.size.toNat = p.bytes.length
  length_le : p.bytes.length ≤ kReceiveBufferSize
  take : block.take p.bytes.length = p.bytes

structure Owns (s : Packets) : Prop where
  owned : s.heap.Owned Packet.buffer Filled s.packets s.lost
  noFault : s.fault = none

/-! ## What a step moves -/

/-- The packets of one thread, the queue, and all others. -/
theorem packets_perm {t : PacketThread} (ht : s.threads[n]? = some t) :
    ∃ rest, s.packets.Perm (t.held ++ s.receiveQueue.queue ++ rest) ∧
      ∀ t' queue, ((s.threads.set n t').flatMap PacketThread.held ++ queue).Perm (t'.held ++ queue ++ rest) := by
  obtain ⟨rest, hall, hset⟩ := Heap.exists_flatMap_set PacketThread.held ht
  have hswap (xs queue : List Packet) : (xs ++ rest ++ queue).Perm (xs ++ queue ++ rest) := by
    rw [List.append_assoc, List.append_assoc]
    exact List.perm_append_comm.append_left xs
  exact ⟨rest, (hall.append_right _).trans (hswap _ _),
    fun t' queue => ((hset t').append_right queue).trans (hswap _ _)⟩

/-- Packets move between a thread and the queue, and the heap stays as it is. -/
theorem Owns.move (h : s.Owns) {t t' : PacketThread} (ht : s.threads[n]? = some t) {queue : List Packet}
    (hmove : (t'.held ++ queue).Perm (t.held ++ s.receiveQueue.queue)) :
    s.heap.Owned Packet.buffer Filled ((s.threads.set n t').flatMap PacketThread.held ++ queue) s.lost := by
  obtain ⟨rest, hall, hset⟩ := packets_perm ht
  exact h.owned.perm ((hset t' queue).trans ((hmove.append_right rest).trans hall.symm))

/-- A thread that keeps what it holds, and does nothing to the queue. -/
theorem Owns.moveTo (h : s.Owns) {t t' : PacketThread} (ht : s.threads[n]? = some t) (hheld : t'.held = t.held) :
    (s.moveTo n t').Owns :=
  ⟨h.move ht (hheld ▸ List.Perm.refl _), h.noFault⟩

/-! ## The queue -/

theorem act_push {q q' : BlockingQueue Actor Packet} {a : Actor} {p : Packet} {outcome : QueueOutcome Packet}
    (h : q.act (.push a p) = some (q', outcome)) : q'.queue = q.queue ++ [p] ∧ q'.left = q.left := by
  simp only [BlockingQueue.act] at h
  split at h
  · obtain ⟨rfl, -⟩ := Prod.mk.inj (Option.some.inj h)
    exact ⟨rfl, rfl⟩
  · cases h

theorem act_clear {q q' : BlockingQueue Actor Packet} {a : Actor} {outcome : QueueOutcome Packet}
    (h : q.act (.clear a) = some (q', outcome)) :
    q'.queue = [] ∧ q'.left = q.left ++ q.queue.map .dropped := by
  simp only [BlockingQueue.act] at h
  split at h
  · obtain ⟨rfl, -⟩ := Prod.mk.inj (Option.some.inj h)
    exact ⟨rfl, rfl⟩
  · cases h

/-- A section of the queue that a parsing thread runs takes the first packet, or none. -/
def TakesNext (q q' : BlockingQueue Actor Packet) (a : Actor) (outcome : QueueOutcome Packet) : Prop :=
  (PacketThread.parsing (afterCall outcome)).held ++ q'.queue = q.queue ∧
    q'.left = q.left ++ (PacketThread.parsing (afterCall outcome)).held.map (.taken a)

theorem takesNext_take (q : BlockingQueue Actor Packet) (a : Actor) : TakesNext q (q.take a).1 a (q.take a).2 := by
  unfold TakesNext BlockingQueue.take
  cases hqueue : q.queue with
  | nil => exact ⟨hqueue, (List.append_nil _).symm⟩
  | cons p queue => exact ⟨rfl, rfl⟩

theorem takesNext_waitToTake (q : BlockingQueue Actor Packet) (a : Actor) :
    TakesNext q (q.waitToTake a).1 a (q.waitToTake a).2 := by
  unfold TakesNext BlockingQueue.waitToTake
  cases hqueue : q.queue with
  | nil => exact ⟨hqueue, (List.append_nil _).symm⟩
  | cons p queue => exact ⟨hqueue, (List.append_nil _).symm⟩

theorem takesNext_of_act {q q' : BlockingQueue Actor Packet} {l : QueueLabel Actor Packet} {a : Actor}
    {outcome : QueueOutcome Packet} (hconsumer : l.consumer = some a) (h : q.act l = some (q', outcome)) :
    TakesNext q q' a outcome := by
  have htake := takesNext_take q a
  have hwait := takesNext_waitToTake q a
  cases l with
  | push | clear => cases hconsumer
  | take thread =>
      obtain rfl := Option.some.inj hconsumer
      simp only [BlockingQueue.act] at h
      split at h
      · rwa [Option.some.inj h] at htake
      · cases h
  | waitToTake thread =>
      obtain rfl := Option.some.inj hconsumer
      simp only [BlockingQueue.act] at h
      split at h
      · rwa [Option.some.inj h] at hwait
      · cases h
  | wake thread =>
      obtain rfl := Option.some.inj hconsumer
      simp only [BlockingQueue.act] at h
      split at h
      · cases h
      · rwa [Option.some.inj h] at htake
      · rwa [Option.some.inj h] at hwait
  | timeout thread =>
      obtain rfl := Option.some.inj hconsumer
      simp only [BlockingQueue.act] at h
      split at h
      · obtain ⟨rfl, rfl⟩ := Prod.mk.inj (Option.some.inj h)
        exact ⟨rfl, (List.append_nil _).symm⟩
      · cases h

theorem Owns.queueCall (h : s.Owns) {pc : ParsingPc} (ht : s.threads[n]? = some (.parsing pc))
    (hheld : (PacketThread.parsing pc).held = []) {l : QueueLabel Actor Packet} {a : Actor}
    (hconsumer : l.consumer = some a) (hstep : s.queueCall n l = some s') : s'.Owns := by
  obtain ⟨⟨q, outcome⟩, hact, rfl⟩ := Option.map_eq_some_iff.mp hstep
  obtain ⟨hqueue, -⟩ := takesNext_of_act hconsumer hact
  have hmove : ((PacketThread.parsing (afterCall outcome)).held ++ q.queue).Perm
      ((PacketThread.parsing pc).held ++ s.receiveQueue.queue) := by
    rw [hheld, hqueue]
    exact List.Perm.refl _
  exact ⟨h.move ht hmove, h.noFault⟩

/-! ## What a step does to a block -/

theorem length_undefined (undefined : Nat → UInt8) :
    ((List.range kReceiveBufferSize).map undefined).length = kReceiveBufferSize := by
  rw [List.length_map, List.length_range]

/-- A packet with a new buffer. -/
theorem filled_new (b : Nat) (undefined : Nat → UInt8) :
    Filled { buffer := b } ((List.range kReceiveBufferSize).map undefined) :=
  ⟨length_undefined undefined, rfl, Nat.zero_le _, rfl⟩

/-- `size` is at most `0x4000`, so its high half is zero when the low half is written. -/
theorem filled_receive {p : Packet} {block bytes : Bytes} (h : Filled p block)
    (hle : bytes.length ≤ kReceiveBufferSize) :
    Filled (p.receive bytes) (bytes ++ block.drop bytes.length) := by
  have hk : kReceiveBufferSize = 16384 := rfl
  have hold := h.size
  have hold' := h.length_le
  refine ⟨?_, ?_, hle, List.take_left' rfl⟩
  · rw [List.length_append, List.length_drop, h.block_length]
    omega
  · have hhigh : p.size / 0x100000000 * 0x100000000 = 0 := by
      have hdiv : p.size / 0x100000000 = 0 := UInt64.toNat_inj.mp (by
        rw [UInt64.toNat_div]
        exact Nat.div_eq_of_lt (by
          show p.size.toNat < 4294967296
          omega))
      rw [hdiv]
      rfl
    show (p.size / 0x100000000 * 0x100000000 + (UInt32.ofNat bytes.length).toUInt64).toNat = bytes.length
    rw [hhigh, UInt64.zero_add, UInt32.toNat_toUInt64, UInt32.toNat_ofNat', Nat.mod_eq_of_lt (by omega)]

theorem Owns.enter (h : s.Owns) {undefined : Nat → UInt8} (hstep : s.enter n undefined = some s') : s'.Owns := by
  unfold Packets.enter at hstep
  split at hstep
  · next ht =>
    obtain rfl := Option.some.inj hstep
    obtain ⟨rest, hall, hset⟩ := packets_perm ht
    have hnew := h.owned.malloc (i := { buffer := s.heap.next }) rfl (filled_new s.heap.next undefined)
    refine ⟨hnew.perm ((hset _ _).trans ?_), h.noFault⟩
    exact (hall.symm).cons _
  · next p ht =>
    obtain rfl := Option.some.inj hstep
    exact h.moveTo ht rfl
  · next ht => exact h.queueCall ht rfl rfl hstep
  · cases hstep

theorem Owns.stop (h : s.Owns) (hstep : s.stop n = some s') : s'.Owns := by
  unfold Packets.stop at hstep
  split at hstep
  · next ht =>
    obtain rfl := Option.some.inj hstep
    exact h.moveTo ht rfl
  · next ht =>
    obtain rfl := Option.some.inj hstep
    exact h.moveTo ht rfl
  · cases hstep

theorem Owns.disconnected (h : s.Owns) (hstep : s.disconnected n = some s') : s'.Owns := by
  unfold Packets.disconnected at hstep
  split at hstep
  · next p ht =>
    obtain rfl := Option.some.inj hstep
    obtain ⟨rest, hall, hset⟩ := packets_perm ht
    cases p with
    | none =>
        rw [Option.toList_none, List.map_nil, List.append_nil]
        exact ⟨h.owned.perm ((hset _ _).trans hall.symm), h.noFault⟩
    | some p => exact ⟨((h.owned.perm hall.symm).lose).perm (hset _ _), h.noFault⟩
  · next ht =>
    obtain rfl := Option.some.inj hstep
    exact h.moveTo ht rfl
  · cases hstep

theorem Owns.receive (h : s.Owns) {bytes : Bytes} (hstep : s.receive n bytes = some s') : s'.Owns := by
  unfold Packets.receive at hstep
  split at hstep
  · next p ht =>
    obtain ⟨rest, hall, hset⟩ := packets_perm ht
    by_cases hle : bytes.length ≤ kReceiveBufferSize
    · obtain ⟨heap, hmodify, hheap⟩ := (h.owned.perm hall.symm).modify (p.receive_buffer bytes)
        (fun block => bytes ++ block.drop bytes.length) fun block hblock => filled_receive hblock hle
      rw [if_pos hle, hmodify] at hstep
      obtain rfl := Option.some.inj hstep
      exact ⟨hheap.perm (hset _ _), h.noFault⟩
    · rw [if_neg hle] at hstep
      cases hstep
  · cases hstep

theorem Owns.push (h : s.Owns) (hstep : s.push n = some s') : s'.Owns := by
  unfold Packets.push at hstep
  split at hstep
  · next p ht =>
    split at hstep
    · obtain ⟨⟨q, outcome⟩, hact, rfl⟩ := Option.map_eq_some_iff.mp hstep
      obtain ⟨hqueue, -⟩ := act_push hact
      have hmove : ((PacketThread.receive (.check none)).held ++ q.queue).Perm
          ((PacketThread.receive (.received p)).held ++ s.receiveQueue.queue) := by
        rw [hqueue]
        show (s.receiveQueue.queue ++ [p]).Perm ([p] ++ s.receiveQueue.queue)
        exact List.perm_append_comm
      exact ⟨h.move ht hmove, h.noFault⟩
    · obtain rfl := Option.some.inj hstep
      exact h.moveTo ht rfl
  · cases hstep

/-- The packet of a thread is freed. -/
theorem Owns.freePacket (h : s.Owns) {p : Packet} {t t' : PacketThread} (ht : s.threads[n]? = some t)
    (hheld : t.held = [p]) (hheld' : t'.held = []) : ((s.freePacket p).moveTo n t').Owns := by
  obtain ⟨rest, hall, hset⟩ := packets_perm ht
  rw [hheld] at hall
  obtain ⟨heap, hfree, hheap⟩ := (h.owned.perm hall.symm).free
  have hset' := hset t' s.receiveQueue.queue
  rw [hheld'] at hset'
  rw [Packets.freePacket, hfree]
  exact ⟨hheap.perm hset', h.noFault⟩

theorem Owns.free (h : s.Owns) (hstep : s.free n = some s') : s'.Owns := by
  unfold Packets.free at hstep
  split at hstep
  · next p ret ht =>
    obtain rfl := Option.some.inj hstep
    exact h.freePacket ht rfl (by cases ret <;> rfl)
  · next p ht =>
    obtain rfl := Option.some.inj hstep
    exact h.freePacket ht rfl rfl
  · next ht =>
    obtain rfl := Option.some.inj hstep
    exact h.moveTo ht rfl
  · cases hstep

theorem Owns.parse (h : s.Owns) {ret : Bool} (hstep : s.parse n ret = some s') : s'.Owns := by
  unfold Packets.parse at hstep
  split at hstep
  · next p ht =>
    obtain ⟨rest, hall, -⟩ := packets_perm ht
    obtain ⟨block, hblock, hfilled⟩ := h.owned.good p (hall.mem_iff.mpr (List.mem_cons_self ..))
    have hin : ¬ block.length < p.size.toNat := by
      rw [hfilled.block_length, hfilled.size]
      exact Nat.not_lt.mpr hfilled.length_le
    rw [hblock] at hstep
    simp only [if_neg hin] at hstep
    obtain rfl := Option.some.inj hstep
    exact ⟨h.move ht (List.Perm.refl _), h.noFault⟩
  · cases hstep

theorem Owns.clear (h : s.Owns) {a : Actor} (hstep : s.clear a = some s') : s'.Owns := by
  obtain ⟨⟨q, outcome⟩, hact, rfl⟩ := Option.map_eq_some_iff.mp hstep
  obtain ⟨hqueue, -⟩ := act_clear hact
  have hswap : (s.receiveQueue.queue ++ s.threads.flatMap PacketThread.held).Perm s.packets :=
    List.perm_append_comm
  obtain ⟨heap, hfree, hheap⟩ := (h.owned.perm hswap).freeAll
  simp only [hfree]
  refine ⟨?_, h.noFault⟩
  unfold packets
  rwa [hqueue, List.append_nil]

/-! ## Runs -/

theorem Owns.start (h : s.Owns) {t : PacketThread} (hheld : t.held = []) :
    ({ s with threads := s.threads ++ [t] } : Packets).Owns := by
  have hsame : ({ s with threads := s.threads ++ [t] } : Packets).packets = s.packets := by
    simp [packets, hheld]
  exact ⟨hsame ▸ h.owned, h.noFault⟩

/-- **Every step keeps the owners.** -/
theorem Owns.step {l : PacketLabel} (h : s.Owns) (hstep : s.step l = some s') : s'.Owns := by
  have hrun : ¬ s.fault.isSome = true := by
    rw [h.noFault]
    exact Bool.false_ne_true
  unfold Packets.step at hstep
  rw [if_neg hrun] at hstep
  cases l with
  | startReceiveThread =>
      obtain rfl := Option.some.inj hstep
      exact h.start rfl
  | startParsingThread =>
      obtain rfl := Option.some.inj hstep
      exact h.start rfl
  | enter n undefined => exact h.enter hstep
  | stop n => exact h.stop hstep
  | disconnected n => exact h.disconnected hstep
  | receive n bytes => exact h.receive hstep
  | receiveTimeout n =>
      simp only at hstep
      split at hstep
      · next p ht =>
        obtain rfl := Option.some.inj hstep
        exact h.moveTo ht rfl
      · cases hstep
  | receiveFails n =>
      simp only at hstep
      split at hstep
      · next p ht =>
        obtain rfl := Option.some.inj hstep
        exact h.moveTo ht rfl
      · cases hstep
  | push n => exact h.push hstep
  | wake n =>
      simp only at hstep
      split at hstep
      · next ht => exact h.queueCall ht rfl rfl hstep
      · cases hstep
  | timeout n =>
      simp only at hstep
      split at hstep
      · next ht => exact h.queueCall ht rfl rfl hstep
      · cases hstep
  | take n =>
      simp only at hstep
      split at hstep
      · next ht => exact h.queueCall ht rfl rfl hstep
      · cases hstep
  | parse n ret => exact h.parse hstep
  | free n => exact h.free hstep
  | clear a => exact h.clear hstep

theorem owns_init : ({} : Packets).Owns := ⟨Heap.owned_empty, rfl⟩

theorem owns_exec {ls : List PacketLabel} (h : exec step {} ls = some s) : s.Owns :=
  exec_invariant Owns owns_init h fun _ _ _ howns hstep => howns.step hstep

/-! ## What is lost -/

theorem lost_queueCall {l : QueueLabel Actor Packet} (h : s.queueCall n l = some s') : s'.lost = s.lost := by
  obtain ⟨r, -, rfl⟩ := Option.map_eq_some_iff.mp h
  rfl

theorem lost_freePacket (s : Packets) (p : Packet) : (s.freePacket p).lost = s.lost := by
  unfold freePacket
  split <;> rfl

theorem lost_push (h : s.push n = some s') : s'.lost = s.lost := by
  unfold push at h
  split at h
  · split at h
    · obtain ⟨r, -, rfl⟩ := Option.map_eq_some_iff.mp h
      rfl
    · obtain rfl := Option.some.inj h
      rfl
  · cases h

theorem lost_clear {a : Actor} (h : s.clear a = some s') : s'.lost = s.lost := by
  obtain ⟨r, -, rfl⟩ := Option.map_eq_some_iff.mp h
  simp only
  split <;> rfl

/-- Only the `return` of a thread that finds the transport disconnected loses a block. -/
theorem lost_step {l : PacketLabel} (hl : ∀ n, l ≠ .disconnected n) (h : s.step l = some s') :
    s'.lost = s.lost := by
  have hcall := fun n l => @lost_queueCall s s' n l
  have hfree := lost_freePacket s
  have hpush := fun n => @lost_push s s' n
  have hclear := fun a => @lost_clear s s' a
  cases l with
  | disconnected n => exact absurd rfl (hl n)
  | startReceiveThread => grind [Packets.step]
  | startParsingThread => grind [Packets.step]
  | enter n undefined => grind [Packets.step, Packets.enter, Packets.moveTo]
  | stop n => grind [Packets.step, Packets.stop, Packets.moveTo]
  | receive n bytes => grind [Packets.step, Packets.receive, Packets.moveTo]
  | receiveTimeout n => grind [Packets.step, Packets.moveTo]
  | receiveFails n => grind [Packets.step, Packets.moveTo]
  | push n => grind [Packets.step]
  | wake n => grind [Packets.step]
  | timeout n => grind [Packets.step]
  | take n => grind [Packets.step]
  | parse n ret => grind [Packets.step, Packets.parse, Packets.moveTo]
  | free n => grind [Packets.step, Packets.free, Packets.moveTo]
  | clear a => grind [Packets.step]

theorem lost_exec {ls : List PacketLabel} (hls : ∀ n, .disconnected n ∉ ls) (h : exec step s ls = some s') :
    s'.lost = s.lost := by
  induction ls generalizing s with
  | nil => rw [Option.some.inj h]
  | cons l ls ih =>
      obtain ⟨t, hl, hrest⟩ := exec_cons_eq_some.mp h
      rw [ih (fun n hmem => hls n (List.mem_cons_of_mem _ hmem)) hrest]
      exact lost_step (fun n heq => hls n (heq ▸ List.mem_cons_self)) hl

/-- What a run may leave behind on the heap. -/
structure Accounted (ls : List PacketLabel) (s : Packets) : Prop where
  /-- No buffer is freed twice or used after it is freed, and no read leaves it. -/
  noFault : s.fault = none
  /-- An allocated buffer is that of one packet, which one thread holds or the queue contains; or it is lost. -/
  once : ∀ b, (s.packets.map Packet.buffer ++ s.lost).count b = if (s.heap.block b).isSome then 1 else 0
  /-- Without packets nothing is allocated, unless a thread has found the transport disconnected. -/
  noLeak : (∀ n, .disconnected n ∉ ls) → s.packets = [] → ∀ b, s.heap.block b = none

/-- **Packets are freed once**, in whatever order the threads move. -/
theorem accounted {ls : List PacketLabel} (h : exec step {} ls = some s) : Accounted ls s := by
  have howns := owns_exec h
  refine ⟨howns.noFault, howns.owned.once, fun hls hnone => ?_⟩
  have howned := howns.owned
  rw [hnone, lost_exec hls h] at howned
  exact howned.none

/-- A packet is pushed and taken, another one is pushed and freed by `Clear`, and a third one is lost. -/
def takenClearedLost : List PacketLabel :=
  [.startReceiveThread, .startParsingThread, .enter 1 fun _ => 0, .enter 0 fun _ => 0, .receive 0 [1, 2], .push 0,
    .wake 1, .take 1, .enter 0 fun _ => 0, .receive 0 [3], .push 0, .clear none, .enter 0 fun _ => 0,
    .receiveTimeout 0, .push 0, .disconnected 0]

theorem accounted_takenClearedLost :
    ∃ s, exec step {} takenClearedLost = some s ∧ Accounted takenClearedLost s ∧
      s.packets.map Packet.bytes = [[1, 2]] ∧ s.lost = [2] :=
  ⟨_, rfl, accounted rfl, rfl, rfl⟩

end Packets
end IDevice
