import Mathlib.Data.List.Basic
import IDevice.Lib.Machine

/-!
# `Queue.BlockingQueue` — `BlockingQueue<T>`

The queue between the threads of a connection (`blockingqueue.h`), for any number of threads. A section is
what a thread does while it holds the mutex: a whole call, or the part of a call from one wait on
`not_empty_` to the next. Which thread runs, whether a waiting thread wakes up without a notification, and
when a timeout elapses is the choice of the run.

`Delivery` is what holds of every run: nothing is lost, doubled or overtaken, no thread sleeps beside a
queue that is not empty, and who has been told that there is something to take need not wait for it.
-/

namespace IDevice

open Machine

/-- A thread on `not_empty_`: no notification has reached it, or one has. -/
inductive Waiting where
  | parked
  | notified
deriving DecidableEq, Repr

/-- Where a thread is. -/
inductive QueuePc where
  | outside
  /-- In `not_empty_.wait` of `Take`. -/
  | taking (w : Waiting)
  /-- In `not_empty_.wait_for` of `WaitToTake`. -/
  | waitingToTake (w : Waiting)
deriving DecidableEq, Repr

/-- How an element left the queue. -/
inductive Departure (τ T : Type) where
  | taken (thread : τ) (element : T)
  | dropped (element : T)
deriving DecidableEq, Repr

def Departure.element {τ T : Type} : Departure τ T → T
  | .taken _ element => element
  | .dropped element => element

/-- What a section does for its thread: it waits, or the call returns. -/
inductive QueueOutcome (T : Type) where
  | waits
  | returned
  | took (element : T)
  | ready (notEmpty : Bool)
deriving DecidableEq, Repr

inductive QueueLabel (τ T : Type) where
  | push (thread : τ) (data : T)
  | take (thread : τ)
  | waitToTake (thread : τ)
  /-- The thread's wait ends, by a notification or spuriously. -/
  | wake (thread : τ)
  /-- The thread's `wait_for` returns `std::cv_status::timeout`. -/
  | timeout (thread : τ)
  | clear (thread : τ)
deriving DecidableEq, Repr

structure BlockingQueue (τ T : Type) where
  queue : List T := []
  pc : τ → QueuePc := fun _ => .outside
  /-- What has left the queue, in order. -/
  left : List (Departure τ T) := []

namespace BlockingQueue

variable {τ T : Type} [DecidableEq τ]

def goto (q : BlockingQueue τ T) (thread : τ) (pc : QueuePc) : BlockingQueue τ T :=
  { q with pc := Function.update q.pc thread pc }

@[simp] theorem goto_queue (q : BlockingQueue τ T) (thread : τ) (pc : QueuePc) :
    (q.goto thread pc).queue = q.queue := rfl

/-- `not_empty_.notify_all()`. -/
def notifyAll (q : BlockingQueue τ T) : BlockingQueue τ T :=
  { q with pc := fun thread =>
      match q.pc thread with
      | .outside => .outside
      | .taking _ => .taking .notified
      | .waitingToTake _ => .waitingToTake .notified }

/-- `Push`. -/
def push (q : BlockingQueue τ T) (data : T) : BlockingQueue τ T :=
  notifyAll { q with queue := q.queue ++ [data] }

/-- `Take`, from a test of the loop on. -/
def take (q : BlockingQueue τ T) (thread : τ) : BlockingQueue τ T × QueueOutcome T :=
  match q.queue with
  | [] => (q.goto thread (.taking .parked), .waits)
  | data :: rest =>
    let q := { q with queue := rest, left := q.left ++ [Departure.taken thread data] }
    (q.goto thread .outside, .took data)

/-- `WaitToTake`, from a test of the loop on. -/
def waitToTake (q : BlockingQueue τ T) (thread : τ) : BlockingQueue τ T × QueueOutcome T :=
  match q.queue with
  | [] => (q.goto thread (.waitingToTake .parked), .waits)
  | _ :: _ => (q.goto thread .outside, .ready true)

/-- `Clear`. -/
def clear (q : BlockingQueue τ T) : BlockingQueue τ T :=
  { q with queue := [], left := q.left ++ q.queue.map .dropped }

/-- A section and its outcome. A thread calls the queue only when no other call of it is under way. -/
def act (q : BlockingQueue τ T) : QueueLabel τ T → Option (BlockingQueue τ T × QueueOutcome T)
  | .push thread data => if q.pc thread = .outside then some (q.push data, .returned) else none
  | .take thread => if q.pc thread = .outside then some (q.take thread) else none
  | .waitToTake thread => if q.pc thread = .outside then some (q.waitToTake thread) else none
  | .wake thread =>
    match q.pc thread with
    | .outside => none
    | .taking _ => some (q.take thread)
    | .waitingToTake _ => some (q.waitToTake thread)
  | .timeout thread =>
    match q.pc thread with
    | .waitingToTake _ => some (q.goto thread .outside, .ready false)
    | _ => none
  | .clear thread => if q.pc thread = .outside then some (q.clear, .returned) else none

def step (q : BlockingQueue τ T) (l : QueueLabel τ T) : Option (BlockingQueue τ T) :=
  (q.act l).map (·.1)

/-- The thread waits, and no notification has reached it. -/
def Parked (q : BlockingQueue τ T) (thread : τ) : Prop :=
  q.pc thread = .taking .parked ∨ q.pc thread = .waitingToTake .parked

end BlockingQueue

namespace QueueLabel

variable {τ T : Type}

/-- The element that is pushed. -/
def pushed : QueueLabel τ T → Option T
  | .push _ data => some data
  | _ => none

/-- The thread that takes, or waits to. -/
def consumer : QueueLabel τ T → Option τ
  | .take thread | .waitToTake thread | .wake thread | .timeout thread => some thread
  | .push .. | .clear _ => none

def clears : QueueLabel τ T → Bool
  | .clear _ => true
  | _ => false

end QueueLabel

namespace BlockingQueue

variable {τ T : Type} [DecidableEq τ] {q q' : BlockingQueue τ T}

/-- What a run `ls` that has led to `q` has delivered. -/
structure Delivery (ls : List (QueueLabel τ T)) (q : BlockingQueue τ T) : Prop where
  /-- What was taken or dropped, and behind it what is still queued, are the pushed elements in order. -/
  exactlyOnce : q.left.map Departure.element ++ q.queue = ls.filterMap QueueLabel.pushed
  noLostWakeUp : ∀ thread, q.Parked thread → q.queue = []
  /-- After `WaitToTake` has returned true to the only consumer, its next `Take` returns at once. -/
  takesAtOnce : ∀ thread before call between q₁ q₂, ls = before ++ call :: between →
    exec step {} before = some q₁ → call.consumer = some thread → q₁.act call = some (q₂, .ready true) →
    (∀ l ∈ between, ∀ other, l.consumer = some other → other = thread) →
    (∀ l ∈ between, l.clears = false) → .take thread ∉ between →
    ∃ q' data, q.act (.take thread) = some (q', .took data)

/-! ## What a section can do -/

/-- The sections: a push, a test of the loop of `Take` or of `WaitToTake`, a timeout, and `Clear`. -/
theorem step_cases {l : QueueLabel τ T} (h : q.step l = some q') :
    (∃ thread data, l = .push thread data ∧ q' = q.push data) ∨
    (∃ thread, (l = .take thread ∧ q.pc thread = .outside ∨ l = .wake thread ∧ q.pc thread ≠ .outside) ∧
      q' = (q.take thread).1) ∨
    (∃ thread, l.consumer = some thread ∧ l.pushed = none ∧ q' = (q.waitToTake thread).1) ∨
    (∃ thread, l = .timeout thread ∧ q.pc thread ≠ .outside ∧ q' = q.goto thread .outside) ∨
    ∃ thread, l = .clear thread ∧ q' = q.clear := by
  unfold BlockingQueue.step at h
  obtain ⟨⟨q₁, outcome⟩, hact, rfl⟩ := Option.map_eq_some_iff.mp h
  cases l with
  | push thread data =>
      simp only [act] at hact
      split at hact
      · cases hact
        exact .inl ⟨thread, data, rfl, rfl⟩
      · cases hact
  | take thread =>
      simp only [act] at hact
      split at hact
      · next hpc =>
        obtain heq := Option.some.inj hact
        exact .inr (.inl ⟨thread, .inl ⟨rfl, hpc⟩, by rw [heq]⟩)
      · cases hact
  | waitToTake thread =>
      simp only [act] at hact
      split at hact
      · obtain heq := Option.some.inj hact
        exact .inr (.inr (.inl ⟨thread, rfl, rfl, by rw [heq]⟩))
      · cases hact
  | wake thread =>
      simp only [act] at hact
      split at hact
      · cases hact
      · next hpc =>
        obtain heq := Option.some.inj hact
        exact .inr (.inl ⟨thread, .inr ⟨rfl, by simp [hpc]⟩, by rw [heq]⟩)
      · obtain heq := Option.some.inj hact
        exact .inr (.inr (.inl ⟨thread, rfl, rfl, by rw [heq]⟩))
  | timeout thread =>
      simp only [act] at hact
      split at hact
      · next hpc =>
        cases hact
        exact .inr (.inr (.inr (.inl ⟨thread, rfl, by simp [hpc], rfl⟩)))
      · cases hact
  | clear thread =>
      simp only [act] at hact
      split at hact
      · cases hact
        exact .inr (.inr (.inr (.inr ⟨thread, rfl, rfl⟩)))
      · cases hact

/-- A test of the loop of `Take`. -/
theorem take_cases (q : BlockingQueue τ T) (thread : τ) :
    (q.queue = [] ∧ (q.take thread).1 = q.goto thread (.taking .parked)) ∨
    ∃ data rest, q.queue = data :: rest ∧ (q.take thread).1 =
      { q with queue := rest, left := q.left ++ [.taken thread data],
               pc := Function.update q.pc thread .outside } := by
  unfold BlockingQueue.take
  cases hq : q.queue with
  | nil => exact .inl ⟨rfl, rfl⟩
  | cons data rest => exact .inr ⟨data, rest, rfl, rfl⟩

/-- A test of the loop of `WaitToTake`. -/
theorem waitToTake_cases (q : BlockingQueue τ T) (thread : τ) :
    (q.queue = [] ∧ (q.waitToTake thread).1 = q.goto thread (.waitingToTake .parked)) ∨
    (q.queue ≠ [] ∧ (q.waitToTake thread).1 = q.goto thread .outside) := by
  unfold BlockingQueue.waitToTake
  cases hq : q.queue with
  | nil => exact .inl ⟨rfl, rfl⟩
  | cons data rest => exact .inr ⟨List.cons_ne_nil _ _, rfl⟩

/-! ## Nothing is lost, doubled or overtaken -/

/-- What has left the queue, and what is in it. -/
def throughput (q : BlockingQueue τ T) : List T := q.left.map Departure.element ++ q.queue

omit [DecidableEq τ] in
theorem throughput_push (q : BlockingQueue τ T) (data : T) :
    throughput (q.push data) = throughput q ++ [data] := by
  simp [throughput, push, notifyAll]

omit [DecidableEq τ] in
theorem throughput_clear (q : BlockingQueue τ T) : throughput q.clear = throughput q := by
  have hdropped : (Departure.element ∘ fun x : T => (Departure.dropped x : Departure τ T)) = id := rfl
  simp [throughput, clear, hdropped]

theorem throughput_take (q : BlockingQueue τ T) (thread : τ) :
    throughput (q.take thread).1 = throughput q := by
  obtain ⟨-, heq⟩ | ⟨data, rest, hqueue, heq⟩ := take_cases q thread
  · rw [heq]
    rfl
  · rw [heq]
    simp [throughput, hqueue, Departure.element]

theorem throughput_waitToTake (q : BlockingQueue τ T) (thread : τ) :
    throughput (q.waitToTake thread).1 = throughput q := by
  obtain ⟨-, heq⟩ | ⟨-, heq⟩ := waitToTake_cases q thread
  · rw [heq]
    rfl
  · rw [heq]
    rfl

/-- A section adds what it pushes, and otherwise only moves elements from the queue to those that left. -/
theorem throughput_step {l : QueueLabel τ T} (h : q.step l = some q') :
    throughput q' = throughput q ++ l.pushed.toList := by
  obtain ⟨thread, data, rfl, rfl⟩ | ⟨thread, hl, rfl⟩ | ⟨thread, -, hpushed, rfl⟩ |
    ⟨thread, rfl, -, rfl⟩ | ⟨thread, rfl, rfl⟩ := step_cases h
  · exact throughput_push q data
  · rw [throughput_take]
    rcases hl with ⟨rfl, -⟩ | ⟨rfl, -⟩
    · exact (List.append_nil _).symm
    · exact (List.append_nil _).symm
  · rw [throughput_waitToTake, hpushed]
    exact (List.append_nil _).symm
  · exact (List.append_nil _).symm
  · rw [throughput_clear]
    exact (List.append_nil _).symm

theorem throughput_exec {ls : List (QueueLabel τ T)} (h : exec step q ls = some q') :
    throughput q' = throughput q ++ ls.filterMap QueueLabel.pushed := by
  induction ls generalizing q with
  | nil =>
      obtain rfl := Option.some.inj h
      exact (List.append_nil _).symm
  | cons l ls ih =>
      obtain ⟨q₁, hl, hls⟩ := exec_cons_eq_some.mp h
      rw [ih hls, throughput_step hl, List.append_assoc]
      cases hpushed : l.pushed <;> simp [hpushed]

/-! ## No lost wake-up -/

/-- Only beside an empty queue does a thread sleep that no notification has reached. -/
def Awake (q : BlockingQueue τ T) : Prop := ∀ thread, q.Parked thread → q.queue = []

/-- A thread that leaves the queue, or goes to sleep beside an empty one. -/
theorem Awake.goto (h : Awake q) (thread : τ) {pc : QueuePc}
    (hpc : q.queue = [] ∨ pc = .outside) : Awake (q.goto thread pc) := by
  intro other hparked
  rcases hpc with hempty | rfl
  · exact hempty
  · refine h other ?_
    by_cases heq : other = thread
    · subst heq
      simp [Parked, BlockingQueue.goto] at hparked
    · simpa [Parked, BlockingQueue.goto, heq] using hparked

omit [DecidableEq τ] in
/-- `notify_all` reaches everyone. -/
theorem not_parked_push (q : BlockingQueue τ T) (data : T) (thread : τ) :
    ¬ (q.push data).Parked thread := by
  unfold Parked push notifyAll
  cases hpc : q.pc thread <;> simp [hpc]

theorem Awake.take (h : Awake q) (thread : τ) : Awake (q.take thread).1 := by
  obtain ⟨hempty, heq⟩ | ⟨data, rest, hqueue, heq⟩ := take_cases q thread
  · rw [heq]
    exact h.goto thread (.inl hempty)
  · -- the queue was not empty, so nobody was parked
    rw [heq]
    intro other hparked
    have hgoto : Awake (q.goto thread .outside) := h.goto thread (.inr rfl)
    have hother := hgoto other hparked
    exact absurd (hqueue.symm.trans hother) (List.cons_ne_nil _ _)

theorem Awake.waitToTake (h : Awake q) (thread : τ) : Awake (q.waitToTake thread).1 := by
  obtain ⟨hempty, heq⟩ | ⟨-, heq⟩ := waitToTake_cases q thread
  · rw [heq]
    exact h.goto thread (.inl hempty)
  · rw [heq]
    exact h.goto thread (.inr rfl)

theorem Awake.step {l : QueueLabel τ T} (h : Awake q) (hstep : q.step l = some q') : Awake q' := by
  obtain ⟨thread, data, -, rfl⟩ | ⟨thread, -, rfl⟩ | ⟨thread, -, -, rfl⟩ | ⟨thread, -, -, rfl⟩ |
    ⟨thread, -, rfl⟩ := step_cases hstep
  · exact fun other hparked => absurd hparked (not_parked_push q data other)
  · exact h.take thread
  · exact h.waitToTake thread
  · exact h.goto thread (.inr rfl)
  · exact fun _ _ => rfl

/-! ## The only consumer -/

/-- There is something to take, and the thread is in no call. -/
def Ready (q : BlockingQueue τ T) (thread : τ) : Prop := q.queue ≠ [] ∧ q.pc thread = .outside

/-- `WaitToTake` returns true only when there is something to take. -/
theorem ready_of_act {l : QueueLabel τ T} {thread : τ} (hconsumer : l.consumer = some thread)
    (h : q.act l = some (q', .ready true)) : Ready q' thread := by
  have hwait (hq : q.waitToTake thread = (q', .ready true)) : Ready q' thread := by
    unfold BlockingQueue.waitToTake at hq
    cases hqueue : q.queue with
    | nil => simp [hqueue] at hq
    | cons data rest =>
        rw [hqueue] at hq
        obtain ⟨rfl, -⟩ := Prod.mk.inj hq
        exact ⟨by simp [hqueue], Function.update_self ..⟩
  -- `Take` never reports that something is there
  have htake : q.take thread ≠ (q', .ready true) := by
    unfold BlockingQueue.take
    cases q.queue <;> simp
  cases l with
  | push | clear => cases hconsumer
  | take thread =>
      obtain rfl := Option.some.inj hconsumer
      simp only [act] at h
      split at h
      · exact absurd (Option.some.inj h) htake
      · cases h
  | waitToTake thread =>
      obtain rfl := Option.some.inj hconsumer
      simp only [act] at h
      split at h
      · exact hwait (Option.some.inj h)
      · cases h
  | wake thread =>
      obtain rfl := Option.some.inj hconsumer
      simp only [act] at h
      split at h
      · cases h
      · exact absurd (Option.some.inj h) htake
      · exact hwait (Option.some.inj h)
  | timeout thread =>
      simp only [act] at h
      split at h
      · cases h
      · cases h

/-- Without `Clear` and without another consumer, what is ready stays so until it is taken. -/
theorem Ready.step {l : QueueLabel τ T} {thread : τ} (h : Ready q thread) (hstep : q.step l = some q')
    (honly : ∀ other, l.consumer = some other → other = thread) (hclear : l.clears = false)
    (htake : l ≠ .take thread) : Ready q' thread := by
  obtain ⟨other, data, -, rfl⟩ | ⟨other, hl, rfl⟩ | ⟨other, hconsumer, -, rfl⟩ | ⟨other, rfl, hpc, -⟩ |
    ⟨other, rfl, -⟩ := step_cases hstep
  · refine ⟨by simp [push, notifyAll], ?_⟩
    simp [push, notifyAll, h.2]
  · -- the consumer does not take, and is not waiting
    rcases hl with ⟨rfl, -⟩ | ⟨rfl, hpc⟩
    · exact absurd (congrArg QueueLabel.take (honly other rfl)) htake
    · obtain rfl := honly other rfl
      exact absurd h.2 hpc
  · obtain rfl := honly other hconsumer
    obtain ⟨hempty, -⟩ | ⟨-, heq⟩ := waitToTake_cases q other
    · exact absurd hempty h.1
    · rw [heq]
      exact ⟨h.1, Function.update_self ..⟩
  · obtain rfl := honly other rfl
    exact absurd h.2 hpc
  · cases hclear

theorem Ready.exec {ls : List (QueueLabel τ T)} {thread : τ} (h : Ready q thread)
    (hexec : Machine.exec BlockingQueue.step q ls = some q')
    (honly : ∀ l ∈ ls, ∀ other, l.consumer = some other → other = thread)
    (hclear : ∀ l ∈ ls, l.clears = false) (htake : .take thread ∉ ls) : Ready q' thread := by
  induction ls generalizing q with
  | nil => exact Option.some.inj hexec ▸ h
  | cons l ls ih =>
      obtain ⟨q₁, hl, hls⟩ := exec_cons_eq_some.mp hexec
      have h₁ := h.step hl (honly l (by simp)) (hclear l (by simp)) fun heq => htake (by simp [heq])
      exact ih h₁ hls (fun l' hl' => honly l' (by simp [hl'])) (fun l' hl' => hclear l' (by simp [hl']))
        fun hmem => htake (by simp [hmem])

theorem Ready.take {thread : τ} (h : Ready q thread) :
    ∃ q' data, q.act (.take thread) = some (q', .took data) := by
  obtain ⟨data, rest, hqueue⟩ := List.exists_cons_of_ne_nil h.1
  have htake : (q.take thread).2 = .took data := by
    rw [BlockingQueue.take, hqueue]
  exact ⟨(q.take thread).1, data, by rw [act, if_pos h.2, ← htake]⟩

/-- **A `BlockingQueue` delivers** every element once and in order, without lost wake-ups. -/
theorem delivery {ls : List (QueueLabel τ T)} (h : exec step {} ls = some q) : Delivery ls q := by
  refine ⟨?_, ?_, ?_⟩
  · exact throughput_exec h
  · refine exec_invariant Awake ?_ h fun _ _ _ hawake hstep => hawake.step hstep
    exact fun _ _ => rfl
  · intro thread before call between q₁ q₂ hls hbefore hconsumer hact honly hclear htake
    rw [hls, exec_append_eq_some] at h
    obtain ⟨q₁', hq₁', hrest⟩ := h
    obtain rfl := Option.some.inj (hbefore.symm.trans hq₁')
    obtain ⟨q₂', hcall, hbetween⟩ := exec_cons_eq_some.mp hrest
    rw [BlockingQueue.step, hact] at hcall
    obtain rfl := Option.some.inj hcall
    exact ((ready_of_act hconsumer hact).exec hbetween honly hclear htake).take

/-- A consumer that comes too early, is woken by a push, and takes. -/
theorem delivery_takenAfterPush :
    ∃ q, exec step ({} : BlockingQueue Bool Nat)
        [.waitToTake true, .push false 7, .wake true, .push false 8, .take true] = some q ∧
      Delivery [.waitToTake true, .push false 7, .wake true, .push false 8, .take true] q ∧
      q.left = [.taken true 7] ∧ q.queue = [8] :=
  ⟨_, rfl, delivery rfl, rfl, rfl⟩

end BlockingQueue
end IDevice
