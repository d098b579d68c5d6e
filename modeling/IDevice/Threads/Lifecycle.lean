import IDevice.Threads.Model

/-!
# `Threads.Lifecycle` — when threads are joined safely

Seen from one worker, the machine is a `Slot`: its flag, its handle, and what each actor is just doing with
it. The life of a worker is a `Situation`: stopped, being started, up, or being stopped by one actor. Each
step of `IDEVICE_START_THREAD` and `IDEVICE_STOP_THREAD` leads from one situation to another, provided that
those on one worker do not get into each other's way; `Orderly` says so for the whole machine, and
`noFault_of_orderly` is the result.
-/

namespace IDevice

/-- How far an actor has come in stopping a worker whose flag it has found set. -/
inductive StopPhase where
  | storing
  | joining
  | waiting
  | resetting
deriving DecidableEq, Repr

/-- The handle of a worker that is being stopped. -/
def StopPhase.handle : StopPhase → JoinState
  | storing => .joinable
  | joining => .joinable
  | waiting => .joining
  | resetting => .joined

/-- What an actor is doing with a worker: between setting the flag and assigning the handle, or between
    finding the flag set and having reset the handle. -/
inductive Phase where
  | starting
  | stop (p : StopPhase)
deriving DecidableEq, Repr

/-- What an actor is doing with the worker `k`. -/
def Pc.phase (k : Worker) : Pc → Option Phase
  | startThread j => if j = k then some .starting else none
  | assign j _ => if j = k then some .starting else none
  | stopStore j => if j = k then some (.stop .storing) else none
  | join j => if j = k then some (.stop .joining) else none
  | wait j => if j = k then some (.stop .waiting) else none
  | reset j => if j = k then some (.stop .resetting) else none
  | _ => none

/-- One worker: its flag, the state of its handle, and who is doing what with it. -/
@[ext]
structure Slot where
  running : Bool
  handle : Option JoinState
  phase : Actor → Option Phase

/-- The life of a worker. -/
inductive Situation where
  | stopped
  /-- The owner has set the flag, and assigns the handle next. -/
  | starting
  /-- Meanwhile another worker has found the flag set, and perhaps has cleared it. -/
  | startingStopped (n : Nat) (cleared : Bool)
  | up
  | stopping (a : Actor) (p : StopPhase)

namespace Situation

/-- What a situation looks like. -/
def slot : Situation → Slot
  | stopped => ⟨false, none, fun _ => none⟩
  | starting => ⟨true, none, fun b => if b = none then some .starting else none⟩
  | startingStopped n cleared =>
    ⟨!cleared, none, fun b => if b = none then some .starting
      else if b = some n then some (.stop (if cleared then .joining else .storing)) else none⟩
  | up => ⟨true, some .joinable, fun _ => none⟩
  | stopping a p => ⟨p = .storing, some p.handle, fun b => if b = a then some (.stop p) else none⟩

/-- Who is stopping a worker is alone with it, or the owner is just starting it. -/
theorem eq_of_phase {sit : Situation} {a : Actor} {p : StopPhase} (h : sit.slot.phase a = some (.stop p)) :
    (∃ n cleared, sit = .startingStopped n cleared ∧ a = some n ∧
      p = if cleared then .joining else .storing) ∨ sit = .stopping a p := by
  cases sit with
  | stopped => cases h
  | starting => simp [slot] at h
  | startingStopped n cleared =>
      simp only [slot] at h
      split at h
      · cases h
      · split at h
        · next ha =>
          injection h with h
          injection h with h
          exact .inl ⟨n, cleared, rfl, ha, h.symm⟩
        · cases h
  | up => cases h
  | stopping a' p' =>
      simp only [slot] at h
      split at h
      · next ha =>
        injection h with h
        injection h with h
        exact .inr (by rw [ha, h])
      · cases h

end Situation

namespace Slot

/-- The worker is in some situation of its life. -/
def Ok (σ : Slot) : Prop := ∃ sit : Situation, σ = sit.slot

def setPhase (σ : Slot) (a : Actor) (p : Option Phase) : Slot :=
  { σ with phase := Function.update σ.phase a p }

variable {σ : Slot} {a : Actor}

/-- The flag is set when it was clear and nobody was stopping the worker. -/
theorem Ok.startFlag (h : σ.Ok) (hrunning : σ.running = false) (hnone : ∀ b, σ.phase b = none) :
    ({ σ with running := true }.setPhase none (some .starting)).Ok := by
  obtain ⟨sit, rfl⟩ := h
  cases sit with
  | stopped =>
      refine ⟨.starting, Slot.ext rfl rfl ?_⟩
      funext b
      simp [setPhase, Situation.slot, Function.update_apply]
  | starting => cases hrunning
  | startingStopped n cleared => simpa [Situation.slot] using hnone none
  | up => cases hrunning
  | stopping a p => simpa [Situation.slot] using hnone a

/-- The new thread is assigned to a handle that is null. -/
theorem Ok.assign (h : σ.Ok) (hphase : σ.phase none = some .starting) :
    σ.handle = none ∧ ({ σ with handle := some .joinable }.setPhase none none).Ok := by
  obtain ⟨sit, rfl⟩ := h
  cases sit with
  | stopped => cases hphase
  | starting =>
      refine ⟨rfl, .up, Slot.ext rfl rfl ?_⟩
      funext b
      by_cases hb : b = none <;> simp [setPhase, Situation.slot, hb]
  | startingStopped n cleared =>
      cases cleared with
      | false =>
          refine ⟨rfl, .stopping (some n) .storing, Slot.ext rfl rfl ?_⟩
          funext b
          by_cases hb : b = none <;> simp [setPhase, Situation.slot, hb]
      | true =>
          refine ⟨rfl, .stopping (some n) .joining, Slot.ext rfl rfl ?_⟩
          funext b
          by_cases hb : b = none <;> simp [setPhase, Situation.slot, hb]
  | up => cases hphase
  | stopping a p => simp [Situation.slot] at hphase

/-- The flag is found set, while nobody is about to clear it. -/
theorem Ok.found (h : σ.Ok) (hrunning : σ.running = true)
    (halone : ∀ b, σ.phase b ≠ some (.stop .storing)) (hnone : σ.phase a = none) :
    (σ.setPhase a (some (.stop .storing))).Ok := by
  obtain ⟨sit, rfl⟩ := h
  cases sit with
  | stopped => cases hrunning
  | starting =>
      cases a with
      | none => cases hnone
      | some n =>
          -- the flag is set before the handle is assigned, so a worker can find it set already
          refine ⟨.startingStopped n false, Slot.ext rfl rfl ?_⟩
          funext b
          by_cases hb : b = some n <;> simp [setPhase, Situation.slot, hb]
  | startingStopped n cleared =>
      cases cleared with
      | false =>
          -- two actors would clear the flag
          exact absurd (by simp [Situation.slot]) (halone (some n))
      | true => cases hrunning
  | up =>
      refine ⟨.stopping a .storing, Slot.ext rfl rfl ?_⟩
      funext b
      simp [setPhase, Situation.slot, Function.update_apply]
  | stopping a' p =>
      obtain rfl : p = .storing := by simpa [Situation.slot] using hrunning
      exact absurd (by simp [Situation.slot]) (halone a')

/-- The flag is cleared. -/
theorem Ok.store (h : σ.Ok) (hphase : σ.phase a = some (.stop .storing)) :
    ({ σ with running := false }.setPhase a (some (.stop .joining))).Ok := by
  obtain ⟨sit, rfl⟩ := h
  rcases Situation.eq_of_phase hphase with ⟨n, cleared, rfl, rfl, hcleared⟩ | rfl
  · cases cleared with
    | false =>
        refine ⟨.startingStopped n true, Slot.ext rfl rfl ?_⟩
        funext b
        by_cases hb : b = some n <;> simp [setPhase, Situation.slot, hb]
    | true => cases hcleared
  · refine ⟨.stopping a .joining, Slot.ext rfl rfl ?_⟩
    funext b
    by_cases hb : b = a <;> simp [setPhase, Situation.slot, hb]

/-- The join begins when the worker is not just being started. -/
theorem Ok.join (h : σ.Ok) (hphase : σ.phase a = some (.stop .joining))
    (hstarting : σ.phase none ≠ some .starting) :
    σ.handle = some .joinable ∧
      ({ σ with handle := some .joining }.setPhase a (some (.stop .waiting))).Ok := by
  obtain ⟨sit, rfl⟩ := h
  rcases Situation.eq_of_phase hphase with ⟨n, cleared, rfl, -, -⟩ | rfl
  · -- the handle is not assigned yet
    exact absurd rfl hstarting
  · refine ⟨rfl, .stopping a .waiting, Slot.ext rfl rfl ?_⟩
    funext b
    by_cases hb : b = a <;> simp [setPhase, Situation.slot, hb]

/-- The thread has exited. -/
theorem Ok.wait (h : σ.Ok) (hphase : σ.phase a = some (.stop .waiting)) :
    ({ σ with handle := some .joined }.setPhase a (some (.stop .resetting))).Ok := by
  obtain ⟨sit, rfl⟩ := h
  rcases Situation.eq_of_phase hphase with ⟨n, cleared, rfl, -, hp⟩ | rfl
  · cases cleared <;> cases hp
  · refine ⟨.stopping a .resetting, Slot.ext rfl rfl ?_⟩
    funext b
    by_cases hb : b = a <;> simp [setPhase, Situation.slot, hb]

/-- The handle is reset when its thread has been joined. -/
theorem Ok.reset (h : σ.Ok) (hphase : σ.phase a = some (.stop .resetting)) :
    σ.handle = some .joined ∧ ({ σ with handle := none }.setPhase a none).Ok := by
  obtain ⟨sit, rfl⟩ := h
  rcases Situation.eq_of_phase hphase with ⟨n, cleared, rfl, -, hp⟩ | rfl
  · cases cleared <;> cases hp
  · refine ⟨rfl, .stopped, Slot.ext rfl rfl ?_⟩
    funext b
    by_cases hb : b = a <;> simp [setPhase, Situation.slot, hb]

end Slot
namespace Threads

variable {s t : Threads} {a : Actor} {p : Pc} {k : Worker}

def slot (s : Threads) (k : Worker) : Slot :=
  ⟨s.running k, (s.handle k).map (·.state), fun a => (s.pc a).phase k⟩

/-- The owner and the threads that have been created. -/
def actors (s : Threads) : List Actor := none :: (List.range s.count).map some

/-- A worker is started when its flag is clear and nobody is stopping it. A flag that is found set is not
    about to be cleared by somebody else, and not the actor's own. No thread is joined while its worker is
    just being started. -/
def Orderly (s : Threads) : ThreadLabel → Prop
  | .advance a =>
    match s.pc a with
    | .startFlag k => s.running k = false ∧ ∀ b ∈ s.actors, (s.pc b).phase k = none
    | .stopLoad k => s.running k = true →
        (∀ b ∈ s.actors, s.pc b ≠ .stopStore k) ∧ a.map s.worker ≠ some k
    | .join k => (s.pc none).phase k ≠ some .starting
    | _ => True
  | _ => True

instance (s : Threads) (l : ThreadLabel) : Decidable (Orderly s l) := by
  rcases l with ⟨⟩ <;> dsimp only [Orderly]
  case advance a => rcases s.pc a with ⟨⟩ <;> infer_instance
  all_goals infer_instance

/-- Every worker is in some situation of its life, and nobody starts or stops what is not theirs to. -/
structure Safe (s : Threads) : Prop where
  fault : s.fault = none
  slot : ∀ k, (s.slot k).Ok
  owner : ∀ n k, s.pc (some n) ≠ .startFlag k ∧ (s.pc (some n)).phase k ≠ some .starting
  other : ∀ n k p, (s.pc (some n)).phase k = some p → s.worker n ≠ k
  owns : ∀ k h, s.handle k = some h → s.worker h.thread = k ∧ h.thread < s.count
  created : ∀ n, s.count ≤ n → s.pc (some n) = .outside
  assigning : ∀ a k n, s.pc a = .assign k n → s.worker n = k ∧ n < s.count

theorem safe_init : Safe {} := by
  refine ⟨rfl, fun _ => ⟨.stopped, rfl⟩, ?_, ?_, ?_, ?_, ?_⟩ <;> simp [Pc.phase]

theorem Safe.lt_count (h : Safe s) {n : Nat} (hpc : s.pc (some n) ≠ .outside) : n < s.count := by
  by_contra hge
  exact hpc (h.created n (Nat.not_lt.mp hge))

/-- What holds of the actors holds of everybody. -/
theorem Safe.forall_actor (h : Safe s) {q : Pc → Prop} (hq : ∀ b ∈ s.actors, q (s.pc b))
    (houtside : q .outside) (b : Actor) : q (s.pc b) := by
  cases b with
  | none => exact hq none (by simp [actors])
  | some n =>
      by_cases hn : n < s.count
      · exact hq (some n) (by simp [actors, hn])
      · rw [h.created n (Nat.not_lt.mp hn)]
        exact houtside

theorem slot_moveTo (r : Worker → Bool) (d : Worker → Option Handle) (a : Actor) (p : Pc) (k : Worker) :
    ({ s with running := r, handle := d }.moveTo a p).slot k =
      (⟨r k, (d k).map (·.state), fun b => (s.pc b).phase k⟩ : Slot).setPhase a (p.phase k) := by
  refine Slot.ext rfl rfl ?_
  funext b
  simp only [slot, moveTo, Slot.setPhase, Function.update_apply]
  split <;> rfl

/-- A step that does nothing with the worker. -/
theorem slot_moveTo_of_eq {r : Worker → Bool} {d : Worker → Option Handle} (hr : r k = s.running k)
    (hh : d k = s.handle k) (hp : p.phase k = (s.pc a).phase k) :
    ({ s with running := r, handle := d }.moveTo a p).slot k = s.slot k := by
  rw [slot_moveTo, hr, hh, hp]
  exact Slot.ext rfl rfl (Function.update_eq_self _ _)

/-- A step of an actor that creates no thread. -/
theorem Safe.move (h : Safe s) {r : Worker → Bool} {d : Worker → Option Handle}
    (hactor : ∀ n, a = some n → n < s.count ∧ ∀ k, p ≠ .startFlag k ∧ p.phase k ≠ some .starting ∧
      ∀ q, p.phase k = some q → s.worker n ≠ k)
    (hassign : ∀ k n, p ≠ .assign k n)
    (hslot : ∀ k, (({ s with running := r, handle := d }.moveTo a p).slot k).Ok)
    (howns : ∀ k h, d k = some h → s.worker h.thread = k ∧ h.thread < s.count) :
    Safe ({ s with running := r, handle := d }.moveTo a p) := by
  refine ⟨h.fault, hslot, ?_, ?_, howns, ?_, ?_⟩
  · intro n k
    -- everybody else is where they were
    by_cases hn : some n = a
    · subst hn
      simpa [moveTo] using ⟨((hactor n rfl).2 k).1, ((hactor n rfl).2 k).2.1⟩
    · simpa [moveTo, Function.update_of_ne hn] using h.owner n k
  · intro n k q
    by_cases hn : some n = a
    · subst hn
      simpa [moveTo] using ((hactor n rfl).2 k).2.2 q
    · simpa [moveTo, Function.update_of_ne hn] using h.other n k q
  · intro n hn
    have hne : some n ≠ a := fun heq => absurd (hactor n heq.symm).1 (Nat.not_lt.mpr hn)
    simpa [moveTo, Function.update_of_ne hne] using h.created n hn
  · intro b k n
    by_cases hb : b = a
    · subst hb
      intro hp
      exact absurd (by simpa [moveTo] using hp) (hassign k n)
    · simpa [moveTo, Function.update_of_ne hb] using h.assigning b k n

/-- A step of an actor that does nothing with any worker. -/
theorem Safe.quiet (h : Safe s) (ha : ∀ k, (s.pc a).phase k = none) (hp : ∀ k, p.phase k = none)
    (hactor : ∀ n, a = some n → s.pc a ≠ .outside ∧ ∀ k, p ≠ .startFlag k) : Safe (s.moveTo a p) := by
  have hassign : ∀ k n, p ≠ .assign k n := by
    rintro k n rfl
    simpa [Pc.phase] using hp k
  refine h.move (r := s.running) (d := s.handle) ?_ hassign ?_ h.owns
  · rintro n rfl
    exact ⟨h.lt_count (hactor n rfl).1, fun k => ⟨(hactor n rfl).2 k, by simp [hp], by simp [hp]⟩⟩
  · intro k
    rw [slot_moveTo_of_eq rfl rfl ((hp k).trans (ha k).symm)]
    exact h.slot k

theorem eq_stopStore_of_phase {q : Pc} (h : q.phase k = some (.stop .storing)) : q = .stopStore k := by
  cases q <;> simp_all [Pc.phase]

/-- Assigning a handle that owns no joinable thread. -/
theorem assignHandle_eq {h : Option Handle}
    (hh : (s.handle k).map (·.state) = none ∨ (s.handle k).map (·.state) = some .joined) :
    s.assignHandle k h = { s with handle := Function.update s.handle k h } := by
  unfold assignHandle
  cases hk : s.handle k with
  | none => rfl
  | some h' =>
      obtain ⟨n, state⟩ := h'
      rw [hk] at hh
      rcases hh with hh | hh
      · cases hh
      · obtain rfl : state = .joined := Option.some.inj hh
        rfl

/-- Only the owner starts workers. -/
theorem Safe.eq_none (h : Safe s)
    (hpc : (∃ k, s.pc a = .startFlag k) ∨ ∃ k, (s.pc a).phase k = some .starting) : a = none := by
  cases a with
  | none => rfl
  | some n =>
      rcases hpc with ⟨k, hk⟩ | ⟨k, hk⟩
      · exact absurd hk (h.owner n k).1
      · exact absurd hk (h.owner n k).2

theorem Safe.startFlag (h : Safe s) (hpc : s.pc a = .startFlag k)
    (hguard : s.running k = false ∧ ∀ b ∈ s.actors, (s.pc b).phase k = none) :
    Safe ({ s with running := Function.update s.running k true }.moveTo a (.startThread k)) := by
  obtain rfl := h.eq_none (.inl ⟨k, hpc⟩)
  refine h.move (d := s.handle) (by simp) (by simp) ?_ h.owns
  intro j
  by_cases hj : j = k
  · subst hj
    rw [slot_moveTo, Function.update_self]
    simp only [Pc.phase, if_true]
    exact (h.slot j).startFlag hguard.1
      (h.forall_actor (q := fun p => p.phase j = none) hguard.2 rfl)
  · rw [slot_moveTo_of_eq (Function.update_of_ne hj _ _) rfl (by simp [Pc.phase, hpc, Ne.symm hj])]
    exact h.slot j

theorem Safe.assign (h : Safe s) {n : Nat} (hpc : s.pc a = .assign k n) :
    Safe ((s.assignHandle k (some ⟨n, .joinable⟩)).moveTo a (afterStart k)) := by
  have hphase : (s.pc a).phase k = some .starting := by simp [hpc, Pc.phase]
  obtain rfl := h.eq_none (.inr ⟨k, hphase⟩)
  -- the slot is empty, so nothing joinable is overwritten
  obtain ⟨hnull, hok⟩ := (h.slot k).assign hphase
  rw [assignHandle_eq (.inl hnull)]
  refine h.move (r := s.running) (by simp) (by cases k <;> simp [afterStart]) ?_ ?_
  · intro j
    by_cases hj : j = k
    · -- the assigned slot
      subst hj
      rw [slot_moveTo, Function.update_self]
      have hafter : (afterStart j).phase j = none := by cases j <;> rfl
      rw [hafter]
      exact hok
    · rw [slot_moveTo_of_eq rfl (Function.update_of_ne hj _ _)
        (by cases k <;> simp_all [Pc.phase, afterStart, Ne.symm hj])]
      exact h.slot j
  · intro j h' hj
    rw [Function.update_apply] at hj
    split at hj
    · next heq =>
      obtain rfl := Option.some.inj hj
      exact heq ▸ h.assigning none k n hpc
    · exact h.owns j h' hj

/-- The new thread is nobody yet. -/
theorem Safe.startThread (h : Safe s) (hpc : s.pc a = .startThread k) :
    Safe (({ s with count := s.count + 1, worker := Function.update s.worker s.count k }.moveTo
      (some s.count) .check).moveTo a (.assign k s.count)) := by
  have hphase : (s.pc a).phase k = some .starting := by simp [hpc, Pc.phase]
  obtain rfl := h.eq_none (.inr ⟨k, hphase⟩)
  have hnew : s.pc (some s.count) = .outside := h.created _ (Nat.le_refl _)
  have hworker : ∀ n, n < s.count → Function.update s.worker s.count k n = s.worker n :=
    fun n hn => Function.update_of_ne (Nat.ne_of_lt hn) _ _
  have hpcs : ∀ n, (Function.update (Function.update s.pc (some s.count) .check) none
      (.assign k s.count)) (some n) = if n = s.count then .check else s.pc (some n) := by
    intro n
    simp [Function.update_apply]
  refine ⟨h.fault, ?_, ?_, ?_, ?_, ?_, ?_⟩
  · -- the owner still starts the worker, and the new thread does nothing with any
    intro j
    have hslot : (({ s with count := s.count + 1, worker := Function.update s.worker s.count k }.moveTo
        (some s.count) .check).moveTo none (.assign k s.count)).slot j = s.slot j := by
      refine Slot.ext rfl rfl ?_
      funext b
      cases b with
      | none => simp [Threads.slot, moveTo, hpc, Pc.phase]
      | some n =>
          simp only [Threads.slot, moveTo, hpcs]
          split
          · next hn => simp [hn, hnew, Pc.phase]
          · rfl
    rw [hslot]
    exact h.slot j
  · -- what a worker does: the new thread starts nothing
    intro n j
    simp only [moveTo, hpcs]
    split
    · simp [Pc.phase]
    · exact h.owner n j
  · -- it stops nothing either
    intro n j q
    simp only [moveTo, hpcs]
    split
    · simp [Pc.phase]
    · next hn =>
      rw [Function.update_of_ne hn]
      exact h.other n j q
  · -- the handles belong to older threads
    intro j h' hj
    obtain ⟨how, hlt⟩ := h.owns j h' hj
    exact ⟨(hworker _ hlt).trans how, Nat.lt_succ_of_lt hlt⟩
  · intro n hn
    simp only [moveTo, hpcs]
    rw [if_neg (Nat.ne_of_gt hn)]
    exact h.created n (Nat.le_of_lt hn)
  · -- the owner is about to keep the handle of the new thread
    intro b j n hb
    cases b with
    | none =>
        obtain ⟨rfl, rfl⟩ := Pc.assign.inj (show Pc.assign k s.count = .assign j n from by
          simpa [moveTo] using hb)
        exact ⟨Function.update_self _ _ _, Nat.lt_succ_self _⟩
    | some m =>
        simp only [moveTo, hpcs] at hb
        split at hb
        · cases hb
        · obtain ⟨how, hlt⟩ := h.assigning _ j n hb
          exact ⟨(hworker _ hlt).trans how, Nat.lt_succ_of_lt hlt⟩

theorem Safe.found (h : Safe s) (hpc : s.pc a = .stopLoad k) (hrunning : s.running k = true)
    (halone : ∀ b ∈ s.actors, s.pc b ≠ .stopStore k) (hself : a.map s.worker ≠ some k) :
    Safe (s.moveTo a (.stopStore k)) := by
  refine h.move (r := s.running) (d := s.handle) ?_ (by simp) ?_ h.owns
  · rintro n rfl
    refine ⟨h.lt_count (by simp [hpc]), fun j => ⟨by simp, ?_, ?_⟩⟩
    · simp only [Pc.phase]
      split <;> simp
    · intro q hq heq
      simp only [Pc.phase] at hq
      split at hq
      · next hkj => exact hself (by rw [Option.map_some, heq, hkj])
      · cases hq
  · intro j
    by_cases hj : j = k
    · -- nobody else stores to this flag
      subst hj
      rw [slot_moveTo]
      simp only [Pc.phase, if_true]
      refine (h.slot j).found hrunning ?_ (by simp [Threads.slot, hpc, Pc.phase])
      intro b hb
      exact h.forall_actor (q := fun p => p ≠ .stopStore j) halone (by simp) b (eq_stopStore_of_phase hb)
    · rw [slot_moveTo_of_eq rfl rfl (by simp [Pc.phase, hpc, Ne.symm hj])]
      exact h.slot j

/-- The steps of a stop after the flag has been found set. -/
theorem Safe.stop (h : Safe s) {q : StopPhase} (hphase : (s.pc a).phase k = some (.stop q))
    {r : Worker → Bool} {d : Worker → Option Handle}
    (hstart : ∀ j, p ≠ .startFlag j ∧ p.phase j ≠ some .starting)
    (hothers : ∀ j, j ≠ k → p.phase j = none ∧ (s.pc a).phase j = none ∧ r j = s.running j ∧
      d j = s.handle j)
    (hslot : (({ s with running := r, handle := d }.moveTo a p).slot k).Ok)
    (howns : ∀ h, d k = some h → ∃ h', s.handle k = some h' ∧ h'.thread = h.thread) :
    Safe ({ s with running := r, handle := d }.moveTo a p) := by
  have hassign : ∀ j n, p ≠ .assign j n := by
    rintro j n rfl
    simpa [Pc.phase] using (hstart j).2
  refine h.move ?_ hassign ?_ ?_
  · -- the actor is a thread that exists, and what it stops is what it stopped before
    rintro n rfl
    have hpc : s.pc (some n) ≠ .outside := fun hpc => by simp [hpc, Pc.phase] at hphase
    refine ⟨h.lt_count hpc, fun j => ⟨(hstart j).1, (hstart j).2, ?_⟩⟩
    intro q' hq'
    by_cases hj : j = k
    · exact hj ▸ h.other n k _ hphase
    · rw [(hothers j hj).1] at hq'
      cases hq'
  · intro j
    by_cases hj : j = k
    · exact hj ▸ hslot
    · obtain ⟨hp, ha, hr, hd⟩ := hothers j hj
      rw [slot_moveTo_of_eq hr hd (hp.trans ha.symm)]
      exact h.slot j
  · intro j h' hj'
    by_cases hj : j = k
    · subst hj
      obtain ⟨h'', hh, heq⟩ := howns h' hj'
      exact heq ▸ h.owns j h'' hh
    · exact h.owns j h' ((hothers j hj).2.2.2 ▸ hj')

theorem Safe.store (h : Safe s) (hpc : s.pc a = .stopStore k) :
    Safe ({ s with running := Function.update s.running k false }.moveTo a (.join k)) := by
  have hphase : (s.pc a).phase k = some (.stop .storing) := by simp [hpc, Pc.phase]
  refine h.stop (d := s.handle) hphase ?_ ?_ ?_ fun h' hh => ⟨h', hh, rfl⟩
  · intro j
    simp only [Pc.phase]
    split <;> simp
  · intro j hj
    exact ⟨by simp [Pc.phase, Ne.symm hj], by simp [hpc, Pc.phase, Ne.symm hj],
      Function.update_of_ne hj _ _, rfl⟩
  · rw [slot_moveTo, Function.update_self]
    simp only [Pc.phase, if_true]
    exact (h.slot k).store hphase

/-- The join finds a joinable thread, which is another one. -/
theorem Safe.join (h : Safe s) (hpc : s.pc a = .join k) (hguard : (s.pc none).phase k ≠ some .starting) :
    ∃ h', s.handle k = some h' ∧ h'.state = .joinable ∧ a ≠ some h'.thread ∧
      Safe ({ s with
        handle := Function.update s.handle k (some { h' with state := .joining }) }.moveTo a (.wait k)) := by
  have hphase : (s.pc a).phase k = some (.stop .joining) := by simp [hpc, Pc.phase]
  obtain ⟨hhandle, hok⟩ := (h.slot k).join hphase hguard
  obtain ⟨h', hh, hstate⟩ := Option.map_eq_some_iff.mp hhandle
  refine ⟨h', hh, hstate, ?_, ?_⟩
  · -- the thread in the handle runs this worker, and a worker does not stop itself
    rintro rfl
    exact h.other h'.thread k _ hphase (h.owns k h' hh).1
  · refine h.stop (r := s.running) hphase ?_ ?_ ?_ ?_
    · intro j
      simp only [Pc.phase]
      split <;> simp
    · intro j hj
      exact ⟨by simp [Pc.phase, Ne.symm hj], by simp [hpc, Pc.phase, Ne.symm hj], rfl,
        Function.update_of_ne hj _ _⟩
    · rw [slot_moveTo, Function.update_self]
      simp only [Pc.phase, if_true]
      exact hok
    · intro h'' hh''
      rw [Function.update_self] at hh''
      obtain rfl := Option.some.inj hh''
      exact ⟨h', hh, rfl⟩

theorem Safe.wait (h : Safe s) (hpc : s.pc a = .wait k) {h' : Handle} (hh : s.handle k = some h') :
    Safe ({ s with
      handle := Function.update s.handle k (some { h' with state := .joined }) }.moveTo a (.reset k)) := by
  have hphase : (s.pc a).phase k = some (.stop .waiting) := by simp [hpc, Pc.phase]
  refine h.stop (r := s.running) hphase ?_ ?_ ?_ ?_
  · intro j
    simp only [Pc.phase]
    split <;> simp
  · intro j hj
    exact ⟨by simp [Pc.phase, Ne.symm hj], by simp [hpc, Pc.phase, Ne.symm hj], rfl,
      Function.update_of_ne hj _ _⟩
  · rw [slot_moveTo, Function.update_self]
    simp only [Pc.phase, if_true]
    exact (h.slot k).wait hphase
  · intro h'' hh''
    rw [Function.update_self] at hh''
    obtain rfl := Option.some.inj hh''
    exact ⟨h', hh, rfl⟩

theorem Safe.reset (h : Safe s) (hpc : s.pc a = .reset k) :
    Safe ((s.assignHandle k none).moveTo a (afterStop k)) := by
  have hphase : (s.pc a).phase k = some (.stop .resetting) := by simp [hpc, Pc.phase]
  obtain ⟨hjoined, hok⟩ := (h.slot k).reset hphase
  have hafter : ∀ j, (afterStop k).phase j = none := by
    intro j
    cases k <;> rfl
  rw [assignHandle_eq (.inr hjoined)]
  refine h.stop (r := s.running) hphase ?_ ?_ ?_ (by simp)
  · intro j
    exact ⟨by cases k <;> simp [afterStop], by simp [hafter]⟩
  · intro j hj
    exact ⟨hafter j, by simp [hpc, Pc.phase, Ne.symm hj], rfl, Function.update_of_ne hj _ _⟩
  · rw [slot_moveTo, Function.update_self, hafter]
    exact hok

theorem safe_advance (h : Safe s) (hguard : Orderly s (.advance a)) (hstep : s.advance a = some t) :
    Safe t := by
  cases hpc : s.pc a with
  | startFlag k =>
      simp only [Orderly, hpc] at hguard
      simp only [advance, hpc, Option.some.injEq] at hstep
      exact hstep ▸ h.startFlag hpc hguard
  | startThread k =>
      simp only [advance, hpc, Option.some.injEq] at hstep
      exact hstep ▸ h.startThread hpc
  | assign k n =>
      simp only [advance, hpc, Option.some.injEq] at hstep
      exact hstep ▸ h.assign hpc
  | stopLoad k =>
      simp only [Orderly, hpc] at hguard
      simp only [advance, hpc, Option.some.injEq] at hstep
      cases hrunning : s.running k with
      | true =>
          rw [hrunning, if_pos rfl] at hstep
          exact hstep ▸ h.found hpc hrunning (hguard hrunning).1 (hguard hrunning).2
      | false =>
          rw [hrunning, if_neg Bool.false_ne_true] at hstep
          -- the flag is clear, and `Disconnect` goes on to the next worker
          exact hstep ▸ h.quiet (by simp [hpc, Pc.phase]) (by cases k <;> simp [afterStop, Pc.phase])
            fun n _ => ⟨by simp [hpc], by cases k <;> simp [afterStop]⟩
  | stopStore k =>
      simp only [advance, hpc, Option.some.injEq] at hstep
      exact hstep ▸ h.store hpc
  | join k =>
      simp only [Orderly, hpc] at hguard
      obtain ⟨h', hh, hstate, hself, hsafe⟩ := h.join hpc hguard
      simp only [advance, hpc, hh, if_neg hself, hstate, ne_eq, not_true_eq_false, if_false,
        Option.some.injEq] at hstep
      exact hstep ▸ hsafe
  | wait k =>
      simp only [advance, hpc] at hstep
      split at hstep
      · cases hstep
      · next h' hh =>
        split at hstep
        · exact Option.some.inj hstep ▸ h.wait hpc hh
        · cases hstep
  | reset k =>
      simp only [advance, hpc, Option.some.injEq] at hstep
      exact hstep ▸ h.reset hpc
  | closing =>
      simp only [advance, hpc, Option.some.injEq] at hstep
      refine hstep ▸ h.quiet (by simp [hpc, Pc.phase]) ?_ fun n hn => ⟨by simp [hpc], ?_⟩
      · intro k
        split <;> rfl
      · intro k
        split <;> simp
  | outside => simp [advance, hpc] at hstep
  | check => simp [advance, hpc] at hstep
  | body => simp [advance, hpc] at hstep
  | exited => simp [advance, hpc] at hstep

theorem safe_step {l : ThreadLabel} (h : Safe s) (hguard : Orderly s l) (hstep : step s l = some t) :
    Safe t := by
  simp only [step, h.fault, Option.isSome_none, Bool.false_eq_true, if_false] at hstep
  cases l with
  | connect =>
      simp only at hstep
      split at hstep
      · next hpc =>
        exact Option.some.inj hstep ▸ h.quiet (by simp [hpc, Pc.phase]) (by simp [Pc.phase]) (by simp)
      · cases hstep
  | disconnect =>
      simp only at hstep
      split at hstep
      · next hpc =>
        exact Option.some.inj hstep ▸ h.quiet (by simp [hpc, Pc.phase]) (by simp [Pc.phase]) (by simp)
      · cases hstep
  | loop n =>
      simp only at hstep
      split at hstep
      · next hpc =>
        refine Option.some.inj hstep ▸ h.quiet (by simp [hpc, Pc.phase]) ?_ fun m hm => ⟨by simp [hpc], ?_⟩
        · intro k
          split <;> rfl
        · intro k
          split <;> simp
      · next hpc =>
        exact Option.some.inj hstep ▸ h.quiet (by simp [hpc, Pc.phase]) (by simp [Pc.phase]) (by simp [hpc])
      · cases hstep
  | leave n =>
      simp only at hstep
      split at hstep
      · next hpc =>
        exact Option.some.inj hstep ▸ h.quiet (by simp [hpc, Pc.phase]) (by simp [Pc.phase]) (by simp [hpc])
      · cases hstep
  | fail n =>
      simp only at hstep
      split at hstep
      · next hpc =>
        exact Option.some.inj hstep ▸ h.quiet (by simp [hpc.1, Pc.phase]) (by simp [Pc.phase])
          (by simp [hpc.1])
      · cases hstep
  | advance a => exact safe_advance h hguard hstep

/-- **Threads are joined safely** in a run in which starts and stops of one worker do not get into each
    other's way, and no worker stops itself. -/
theorem noFault_of_orderly {ls : List ThreadLabel} (hguard : Machine.Follows step Orderly {} ls)
    (hrun : Machine.exec step {} ls = some s) : s.fault = none :=
  (Machine.follows_invariant Safe safe_init hguard hrun fun _ _ _ h hg hstep => safe_step h hg hstep).fault

/-- The owner disconnects, and the send thread does so too, while the owner waits for it; then the owner
    connects again. -/
def disconnectTwice : List ThreadLabel :=
  .connect :: List.replicate 9 (.advance none) ++ [.loop 0, .loop 1, .loop 2, .disconnect] ++
    List.replicate 3 (.advance none) ++ .fail 0 :: List.replicate 4 (.advance (some 0)) ++
    .leave 2 :: List.replicate 5 (.advance (some 0)) ++
    .leave 1 :: List.replicate 3 (.advance (some 0)) ++ List.replicate 5 (.advance none) ++
    .connect :: List.replicate 9 (.advance none)

theorem noFault_disconnectTwice : ∃ s, Machine.exec step {} disconnectTwice = some s ∧
    s.count = 6 ∧ s.fault = none := by
  obtain ⟨s, hs, hcount⟩ := Option.map_eq_some_iff.mp
    (show (Machine.exec step {} disconnectTwice).map (·.count) = some 6 by decide +kernel)
  exact ⟨s, hs, hcount, noFault_of_orderly (by decide +kernel) hs⟩

/-! ## What goes wrong otherwise -/

/-- A worker that finds its own flag set joins itself. -/
theorem selfJoin_of_own_flag (hfault : s.fault = none) {n : Nat} {state : JoinState}
    (hpc : s.pc (some n) = .stopLoad k) (hrunning : s.running k = true)
    (hhandle : s.handle k = some ⟨n, state⟩) :
    ∃ t, Machine.exec step s (List.replicate 3 (.advance (some n))) = some t ∧
      t.fault = some (.selfJoin k) := by
  simp [Machine.exec, step, advance, moveTo, List.replicate, hfault, hpc, hrunning, hhandle]

/-- Two actors that are about to clear the same flag join the same thread. -/
theorem joinedTwice_of_two (hfault : s.fault = none) {b : Actor} {n : Nat} (hab : a ≠ b)
    (ha : s.pc a = .stopStore k) (hb : s.pc b = .stopStore k) (hhandle : s.handle k = some ⟨n, .joinable⟩)
    (han : a ≠ some n) (hbn : b ≠ some n) :
    ∃ t, Machine.exec step s [.advance a, .advance b, .advance a, .advance b] = some t ∧
      t.fault = some (.joinedTwice k) := by
  simp [Machine.exec, step, advance, moveTo, hfault, ha, hb, hab, hab.symm, hhandle, han, hbn]

/-- A worker that is started while its handle owns a joinable thread. -/
theorem overwritten_of_start (hfault : s.fault = none) {n : Nat} (hpc : s.pc none = .startFlag k)
    (hhandle : s.handle k = some ⟨n, .joinable⟩) :
    ∃ t, Machine.exec step s (List.replicate 3 (.advance none)) = some t ∧
      t.fault = some (.overwritten k) := by
  simp [Machine.exec, step, advance, moveTo, assignHandle, List.replicate, hfault, hpc, hhandle]

/-- The send thread meets an error while the connection is up. -/
def sendFails : List ThreadLabel :=
  .connect :: List.replicate 9 (.advance none) ++ [.loop 0, .fail 0] ++ List.replicate 3 (.advance (some 0))

/-- It joins itself. -/
theorem fault_sendFails : ∃ s, Machine.exec step {} sendFails = some s ∧ s.fault ≠ none := by
  obtain ⟨s, hs, hfault⟩ := Option.map_eq_some_iff.mp
    (show (Machine.exec step {} sendFails).map (·.fault) = some (some (.selfJoin .send)) by
      decide +kernel)
  exact ⟨s, hs, by simp [hfault]⟩

end Threads
end IDevice
