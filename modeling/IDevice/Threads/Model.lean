import Mathlib.Logic.Function.Basic
import IDevice.Lib.Machine

/-!
# `Threads.Model` — `Connect`, `Disconnect` and the three worker threads

The part of `DTXConnection` that starts and joins its threads, as a machine. `IDEVICE_START_THREAD` and
`IDEVICE_STOP_THREAD` are taken apart into their atomic steps, and whoever runs them (the owner of the
connection, or a worker that disconnects after an error) has a program counter; a label names who moves
next. What the workers do besides is left out: a worker tests its flag, is somewhere in its loop body, and
leaves it by itself, by the flag, or by calling `Disconnect`.

A step that the language does not allow ends the process: it sets `fault`, and nothing moves any more.
-/

namespace IDevice

/-- The worker threads of a connection. -/
inductive Worker where
  | send
  | receive
  | parsing
deriving DecidableEq, Repr

/-- The owner of the connection, or the worker thread with this number. -/
abbrev Actor := Option Nat

/-- How far the thread behind a `std::thread` has been joined. -/
inductive JoinState where
  | joinable
  | joining
  | joined
deriving DecidableEq, Repr

/-- A `std::thread` that a worker handle owns. -/
structure Handle where
  thread : Nat
  state : JoinState
deriving DecidableEq, Repr

/-- What ends the process: a thread joins itself, a `std::thread` is joined twice, a null handle is
    dereferenced, or a handle that owns a joinable thread is overwritten. -/
inductive Fault where
  | selfJoin (k : Worker)
  | joinedTwice (k : Worker)
  | nullHandle (k : Worker)
  | overwritten (k : Worker)
deriving DecidableEq, Repr

/-- Where an actor is. -/
inductive Pc where
  /-- The owner outside `Connect` and `Disconnect`, or a thread that does not exist yet. -/
  | outside
  /-- A worker at the test of its `while` loop. -/
  | check
  /-- A worker in the body of its loop. -/
  | body
  | exited
  /-- `stop_flag.store(true)`. -/
  | startFlag (k : Worker)
  /-- `std::make_unique<std::thread>(..)`. -/
  | startThread (k : Worker)
  /-- The assignment of the new thread to `thread_var`. -/
  | assign (k : Worker) (n : Nat)
  /-- `if (stop_flag.load())`. -/
  | stopLoad (k : Worker)
  /-- `stop_flag.store(false)`. -/
  | stopStore (k : Worker)
  /-- `thread_var->join()`, up to the wait. -/
  | join (k : Worker)
  /-- Waiting for the thread to exit. -/
  | wait (k : Worker)
  /-- `thread_var = nullptr`. -/
  | reset (k : Worker)
  /-- The rest of `Disconnect`. -/
  | closing
deriving DecidableEq, Repr

/-- The threads of a connection. -/
structure Threads where
  running : Worker → Bool := fun _ => false
  handle : Worker → Option Handle := fun _ => none
  pc : Actor → Pc := fun _ => .outside
  /-- How many threads have been created. -/
  count : Nat := 0
  /-- What each of them runs. -/
  worker : Nat → Worker := fun _ => .send
  fault : Option Fault := none

inductive ThreadLabel where
  /-- The owner calls `Connect`, and the transport connects. -/
  | connect
  /-- The owner calls `Disconnect`. -/
  | disconnect
  /-- A worker tests its flag, or comes back to the test. -/
  | loop (n : Nat)
  /-- A worker leaves its loop: not connected, or a receive that failed. -/
  | leave (n : Nat)
  /-- A worker meets an error and calls `Disconnect`. -/
  | fail (n : Nat)
  /-- The next step of `Connect` or `Disconnect`. -/
  | advance (a : Actor)
deriving DecidableEq, Repr

namespace Threads

def moveTo (s : Threads) (a : Actor) (p : Pc) : Threads := { s with pc := Function.update s.pc a p }

/-- Where `Connect` goes on after it has started a worker. -/
def afterStart : Worker → Pc
  | .send => .startFlag .parsing
  | .parsing => .startFlag .receive
  | .receive => .outside

/-- Where `Disconnect` goes on after it has stopped a worker. -/
def afterStop : Worker → Pc
  | .send => .stopLoad .receive
  | .receive => .stopLoad .parsing
  | .parsing => .closing

/-- A handle is assigned: a joinable thread in it is destroyed, which ends the process. -/
def assignHandle (s : Threads) (k : Worker) (h : Option Handle) : Threads :=
  match s.handle k with
  | some ⟨_, .joined⟩ => { s with handle := Function.update s.handle k h }
  | some _ => { s with fault := some (.overwritten k) }
  | none => { s with handle := Function.update s.handle k h }

/-- The next step of `Connect` or `Disconnect` for an actor inside one of them. -/
def advance (s : Threads) (a : Actor) : Option Threads :=
  match s.pc a with
  | .startFlag k =>
    some ({ s with running := Function.update s.running k true }.moveTo a (.startThread k))
  | .startThread k =>
    -- the thread runs before its handle is assigned
    let n := s.count
    some (({ s with count := n + 1, worker := Function.update s.worker n k }.moveTo (some n) .check).moveTo
      a (.assign k n))
  | .assign k n => some ((s.assignHandle k (some ⟨n, .joinable⟩)).moveTo a (afterStart k))
  | .stopLoad k => some (s.moveTo a (if s.running k then .stopStore k else afterStop k))
  | .stopStore k =>
    some ({ s with running := Function.update s.running k false }.moveTo a (.join k))
  | .join k =>
    match s.handle k with
    | none => some { s with fault := some (.nullHandle k) }
    | some h =>
      if a = some h.thread then some { s with fault := some (.selfJoin k) }
      else if h.state ≠ .joinable then some { s with fault := some (.joinedTwice k) }
      else some ({ s with
        handle := Function.update s.handle k (some { h with state := .joining }) }.moveTo a (.wait k))
  | .wait k =>
    match s.handle k with
    | none => none
    | some h =>
      if s.pc (some h.thread) = .exited then
        some ({ s with
          handle := Function.update s.handle k (some { h with state := .joined }) }.moveTo a (.reset k))
      else none
  | .reset k => some ((s.assignHandle k none).moveTo a (afterStop k))
  | .closing => some (s.moveTo a (if a = none then .outside else .exited))
  | _ => none

def step (s : Threads) (l : ThreadLabel) : Option Threads :=
  if s.fault.isSome then none
  else
    match l with
    | .connect => if s.pc none = .outside then some (s.moveTo none (.startFlag .send)) else none
    | .disconnect => if s.pc none = .outside then some (s.moveTo none (.stopLoad .send)) else none
    | .loop n =>
      match s.pc (some n) with
      | .check => some (s.moveTo (some n) (if s.running (s.worker n) then .body else .exited))
      | .body => some (s.moveTo (some n) .check)
      | _ => none
    | .leave n => if s.pc (some n) = .body then some (s.moveTo (some n) .exited) else none
    | .fail n =>
      -- the receive thread does not disconnect
      if s.pc (some n) = .body ∧ s.worker n ≠ .receive then
        some (s.moveTo (some n) (.stopLoad .send))
      else none
    | .advance a => s.advance a

end Threads
end IDevice
