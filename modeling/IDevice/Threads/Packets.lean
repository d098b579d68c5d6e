import IDevice.Lib.Heap
import IDevice.Queue.BlockingQueue
import IDevice.Threads.Model
import IDevice.Wire.Header

/-!
# `Threads.Packets` — who frees the packets

A receive thread allocates the buffer of a packet and pushes it into the receive queue; a parsing thread takes
it, feeds the parser, and frees it. `Disconnect` frees what is still queued, and a receive thread that leaves its
loop frees what it has not pushed. The threads move in any order, and there may be any number of them, those of
an earlier session too.

The heap notices a double free and a use after a free (`fault`). Allocations succeed, and the transport writes
no more bytes than it is told to. Ghost fields say what was received, pushed and parsed, and by which thread.
-/

namespace IDevice

open Machine

/-- `Packet`, with the number of the block behind `buffer`. -/
structure Packet where
  buffer : Nat
  size : UInt64 := 0
  /-- What has been received into it. -/
  bytes : Bytes := []
deriving DecidableEq, Repr

def kReceiveBufferSize : Nat := 16 * 1024

/-- `ReceiveWithTimeout` writes its result through a `uint32_t*`, so into the low half of `size`. -/
def Packet.receive (p : Packet) (bytes : Bytes) : Packet :=
  { p with size := p.size / 0x100000000 * 0x100000000 + (UInt32.ofNat bytes.length).toUInt64, bytes := bytes }

@[simp] theorem Packet.receive_buffer (p : Packet) (bytes : Bytes) : (p.receive bytes).buffer = p.buffer := by
  cases p
  rfl

/-- Where `ReceiveThread` is, and its `receive_packet`. -/
inductive ReceivePc where
  /-- At the test of its loop. -/
  | check (p : Option Packet)
  | receiving (p : Packet)
  | received (p : Packet)
  /-- Behind its loop. -/
  | leaving (p : Option Packet)
  | exited
deriving DecidableEq, Repr

/-- Where `ParsingThread` is, and its `packet`. -/
inductive ParsingPc where
  | check
  /-- In a wait of `WaitToTake` or `Take`. -/
  | waiting
  /-- `WaitToTake` has returned true. -/
  | ready
  | parsing (p : Packet)
  | freeing (p : Packet) (ret : Bool)
  | exited
deriving DecidableEq, Repr

inductive PacketThread where
  | receive (pc : ReceivePc)
  | parsing (pc : ParsingPc)
deriving DecidableEq, Repr

/-- The packet in the thread's variable. -/
def PacketThread.held : PacketThread → List Packet
  | .receive (.check p) | .receive (.leaving p) => p.toList
  | .receive (.receiving p) | .receive (.received p) => [p]
  | .parsing (.parsing p) | .parsing (.freeing p _) => [p]
  | _ => []

inductive PacketFault where
  | doubleFree
  | useAfterFree
  | overrun
deriving DecidableEq, Repr

structure Packets where
  heap : Heap Bytes := Heap.empty
  threads : List PacketThread := []
  receiveQueue : BlockingQueue Actor Packet := {}
  fault : Option PacketFault := none
  /-- The blocks whose last pointer is gone. -/
  lost : List Nat := []
  received : List (Nat × Bytes) := []
  pushed : List (Nat × Bytes) := []
  parsed : List (Nat × Bytes) := []

inductive PacketLabel where
  | startReceiveThread
  | startParsingThread
  /-- The loop body is entered, as the flag is set and the transport is connected; what a new buffer has in it. -/
  | enter (n : Nat) (undefined : Nat → UInt8)
  /-- The flag is cleared, and the loop is left. -/
  | stop (n : Nat)
  /-- `if (!IsConnected()) return`. -/
  | disconnected (n : Nat)
  /-- `ReceiveWithTimeout` returns true, having written some bytes. -/
  | receive (n : Nat) (bytes : Bytes)
  /-- It returns true and has written nothing, not even how much it was. -/
  | receiveTimeout (n : Nat)
  | receiveFails (n : Nat)
  /-- `if (receive_packet->size > 0)`, and `Push`. -/
  | push (n : Nat)
  /-- A wait of a parsing thread ends. -/
  | wake (n : Nat)
  | timeout (n : Nat)
  | take (n : Nat)
  /-- `ParseIncomingBytes`, and what it returns. -/
  | parse (n : Nat) (ret : Bool)
  | free (n : Nat)
  /-- `receive_queue_.Clear` of a `Disconnect`. -/
  | clear (a : Actor)

namespace Packets

def moveTo (s : Packets) (n : Nat) (t : PacketThread) : Packets := { s with threads := s.threads.set n t }

/-- Where a parsing thread goes on behind a section of the queue. -/
def afterCall : QueueOutcome Packet → ParsingPc
  | .waits => .waiting
  | .ready true => .ready
  | .ready false => .check
  | .took p => .parsing p
  | .returned => .check

/-- A section of the queue that a parsing thread runs. -/
def queueCall (s : Packets) (n : Nat) (l : QueueLabel Actor Packet) : Option Packets :=
  (s.receiveQueue.act l).map fun (q, outcome) =>
    { s with receiveQueue := q }.moveTo n (.parsing (afterCall outcome))

/-- `free(packet->buffer)`. -/
def freePacket (s : Packets) (p : Packet) : Packets :=
  match s.heap.free p.buffer with
  | none => { s with fault := some .doubleFree }
  | some heap => { s with heap := heap }

def enter (s : Packets) (n : Nat) (undefined : Nat → UInt8) : Option Packets :=
  match s.threads[n]? with
  | some (.receive (.check none)) =>
    let heap := s.heap.malloc ((List.range kReceiveBufferSize).map undefined)
    some ({ s with heap := heap }.moveTo n (.receive (.receiving { buffer := s.heap.next })))
  | some (.receive (.check (some p))) => some (s.moveTo n (.receive (.receiving p)))
  | some (.parsing .check) => s.queueCall n (.waitToTake (some n))
  | _ => none

def stop (s : Packets) (n : Nat) : Option Packets :=
  match s.threads[n]? with
  | some (.receive (.check p)) => some (s.moveTo n (.receive (.leaving p)))
  | some (.parsing .check) => some (s.moveTo n (.parsing .exited))
  | _ => none

/-- The `return` does not pass the `free` behind the loop. -/
def disconnected (s : Packets) (n : Nat) : Option Packets :=
  match s.threads[n]? with
  | some (.receive (.check p)) =>
    some ({ s with lost := s.lost ++ p.toList.map Packet.buffer }.moveTo n (.receive .exited))
  | some (.parsing .check) => some (s.moveTo n (.parsing .exited))
  | _ => none

def receive (s : Packets) (n : Nat) (bytes : Bytes) : Option Packets :=
  match s.threads[n]? with
  | some (.receive (.receiving p)) =>
    if bytes.length ≤ kReceiveBufferSize then
      match s.heap.modify p.buffer fun block => bytes ++ block.drop bytes.length with
      | none => some { s with fault := some .useAfterFree }
      | some heap =>
        some ({ s with heap := heap, received := s.received ++ [(n, bytes)] }.moveTo n
          (.receive (.received (p.receive bytes))))
    else none
  | _ => none

def push (s : Packets) (n : Nat) : Option Packets :=
  match s.threads[n]? with
  | some (.receive (.received p)) =>
    if 0 < p.size then
      (s.receiveQueue.act (.push (some n) p)).map fun (q, _) =>
        { s with receiveQueue := q, pushed := s.pushed ++ [(n, p.bytes)] }.moveTo n (.receive (.check none))
    else some (s.moveTo n (.receive (.check (some p))))
  | _ => none

def parse (s : Packets) (n : Nat) (ret : Bool) : Option Packets :=
  match s.threads[n]? with
  | some (.parsing (.parsing p)) =>
    match s.heap.block p.buffer with
    | none => some { s with fault := some .useAfterFree }
    | some block =>
      if block.length < p.size.toNat then some { s with fault := some .overrun }
      else some ({ s with parsed := s.parsed ++ [(n, block.take p.size.toNat)] }.moveTo n
        (.parsing (.freeing p ret)))
  | _ => none

def free (s : Packets) (n : Nat) : Option Packets :=
  match s.threads[n]? with
  | some (.parsing (.freeing p ret)) =>
    some ((s.freePacket p).moveTo n (.parsing (if ret then .check else .exited)))
  | some (.receive (.leaving (some p))) => some ((s.freePacket p).moveTo n (.receive .exited))
  | some (.receive (.leaving none)) => some (s.moveTo n (.receive .exited))
  | _ => none

/-- `Clear` with a destructor that frees the buffers. -/
def clear (s : Packets) (a : Actor) : Option Packets :=
  (s.receiveQueue.act (.clear a)).map fun (q, _) =>
    match s.heap.freeAll (s.receiveQueue.queue.map Packet.buffer) with
    | none => { s with fault := some .doubleFree }
    | some heap => { s with heap := heap, receiveQueue := q }

def step (s : Packets) (l : PacketLabel) : Option Packets :=
  if s.fault.isSome then none
  else
    match l with
    | .startReceiveThread => some { s with threads := s.threads ++ [.receive (.check none)] }
    | .startParsingThread => some { s with threads := s.threads ++ [.parsing .check] }
    | .enter n undefined => s.enter n undefined
    | .stop n => s.stop n
    | .disconnected n => s.disconnected n
    | .receive n bytes => s.receive n bytes
    | .receiveTimeout n =>
      match s.threads[n]? with
      | some (.receive (.receiving p)) => some (s.moveTo n (.receive (.received p)))
      | _ => none
    | .receiveFails n =>
      match s.threads[n]? with
      | some (.receive (.receiving p)) => some (s.moveTo n (.receive (.leaving (some p))))
      | _ => none
    | .push n => s.push n
    | .wake n =>
      match s.threads[n]? with
      | some (.parsing .waiting) => s.queueCall n (.wake (some n))
      | _ => none
    | .timeout n =>
      match s.threads[n]? with
      | some (.parsing .waiting) => s.queueCall n (.timeout (some n))
      | _ => none
    | .take n =>
      match s.threads[n]? with
      | some (.parsing .ready) => s.queueCall n (.take (some n))
      | _ => none
    | .parse n ret => s.parse n ret
    | .free n => s.free n
    | .clear a => s.clear a

end Packets
end IDevice
