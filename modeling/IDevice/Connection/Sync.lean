import IDevice.Connection.Handlers

/-!
# `Connection.Sync` — `SendMessageSync` and its timeout

The test `timeout_ms != -1` chooses the branches the wrong way round: a finite timeout waits for ever, and
only the wait that should last for ever times out; the callback then outlives the frame of the call. None
of this shows in a run in which no wait elapses before its reply (`honoursTimeouts_of_repliesInTime`), and
each of it shows as soon as one does (`not_honoursTimeouts_of_elapsed`).
-/

namespace IDevice
namespace Connection

variable {KAValue : Type} {archivedData : KAValue → Bytes} {s t : Connection KAValue}

theorem waitsFor_eq_some {c : Nat} {timeoutMs : UInt32} (h : s.waitsFor c = some timeoutMs) :
    ∃ x, s.calls[c]? = some x ∧ x.kind = .sync timeoutMs := by
  unfold waitsFor at h
  split at h
  · next x hx =>
    refine ⟨x, hx, ?_⟩
    split at h
    · next timeoutMs' hkind =>
      split at h
      · rw [hkind, Option.some.inj h]
      · cases h
    · cases h
  · cases h

/-- What is expected of `SendMessageSync`. -/
structure HonoursTimeouts (archivedData : KAValue → Bytes) (s : Connection KAValue) : Prop where
  /-- `nullptr` is returned after a finite wait that has elapsed without a reply. -/
  null : ∀ c, s.returned c = some false → ∃ x timeoutMs, s.calls[c]? = some x ∧
    x.kind = .sync timeoutMs ∧ timeoutMs ≠ waitForever ∧ s.elapsed c = true ∧ s.invoked c = false
  /-- After a finite wait that has elapsed without a reply the call can return `nullptr`. -/
  enabled : ∀ c timeoutMs, s.waitsFor c = some timeoutMs → timeoutMs ≠ waitForever →
    s.elapsed c = true → s.invoked c = false → ∃ u, step archivedData s (.returnNull c) = some u
  /-- No callback is invoked whose call has returned. -/
  gone : ∀ d ∈ s.routed, d.late = false

/-- A wait elapses when the reply has been delivered. -/
def RepliesInTime (s : Connection KAValue) : Label KAValue → Prop
  | .elapse c => s.invoked c = true
  | _ => True

instance (s : Connection KAValue) (a : Label KAValue) : Decidable (RepliesInTime s a) := by
  rcases a with ⟨⟩ <;> dsimp only [RepliesInTime] <;> infer_instance

/-- Every wait that has elapsed, and every call that has returned, has its reply. -/
structure Replied (s : Connection KAValue) : Prop where
  elapsed : ∀ c, s.elapsed c = true → s.invoked c = true
  returned : ∀ c b, s.returned c = some b → b = true ∧ s.invoked c = true
  gone : ∀ d ∈ s.routed, d.late = false

theorem replied_init : Replied ({} : Connection KAValue) := by
  constructor <;> simp

theorem Replied.of_eq (h : Replied s) (helapsed : t.elapsed = s.elapsed)
    (hreturned : t.returned = s.returned) (hinvoked : t.invoked = s.invoked)
    (hrouted : t.routed = s.routed) : Replied t := by
  refine ⟨?_, ?_, ?_⟩
  · rw [helapsed, hinvoked]
    exact h.elapsed
  · rw [hreturned, hinvoked]
    exact h.returned
  · rw [hrouted]
    exact h.gone

/-- A callback is invoked before its call returns: the handler of a call that has returned is the one
    that is just being erased. -/
theorem Replied.routeMessage (hvalid : Valid s) (h : Replied s) {m : Incoming} {rest : List Incoming}
    {maxId : UInt32} (hp : s.parsing = .batch (m :: rest) maxId) :
    Replied (s.routeMessage m rest maxId) := by
  have hinvoked : ∀ c, s.invoked c = true → (s.routeMessage m rest maxId).invoked c = true :=
    fun c hi => (invoked_routeMessage m rest maxId c).mpr (.inl hi)
  refine ⟨fun c he => hinvoked c (h.elapsed c he),
    fun c b hr => ⟨(h.returned c b hr).1, hinvoked c (h.returned c b hr).2⟩, ?_⟩
  intro d hd
  rcases List.mem_append.mp hd with hd | hd
  · exact h.gone d hd
  · obtain rfl := List.mem_singleton.mp hd
    cases hk : s.handlersByIdentifier m.key with
    | none => rfl
    | some c =>
        simp only
        cases hr : s.returned c with
        | none => rfl
        | some b =>
            -- the call has its reply, so its handler is being erased, and the thread is not here
            obtain ⟨m', rest', maxId', hp', -⟩ := hvalid.handled.spent _ c hk (h.returned c b hr).2
            rw [hp] at hp'
            cases hp'

theorem replied_step {a : Label KAValue} (hvalid : Valid s) (h : Replied s) (hguard : RepliesInTime s a)
    (hstep : step archivedData s a = some t) : Replied t := by
  have hkeeps := keeps_step hstep
  have hc := step_cases hstep
  cases a with
  | elapse c =>
      obtain ⟨-, rfl⟩ := hc
      refine ⟨?_, h.returned, h.gone⟩
      intro c' he
      simp only [Function.update_apply] at he
      split at he
      · next heq => exact heq ▸ hguard
      · exact h.elapsed c' he
  | returnNull c =>
      obtain ⟨-, helapsed, hno, -⟩ := hc
      -- a time that has elapsed has found the reply there
      rw [h.elapsed c helapsed] at hno
      cases hno
  | returnReply c =>
      obtain ⟨-, hi, rfl⟩ := hc
      refine ⟨h.elapsed, ?_, h.gone⟩
      intro c' b hr
      simp only [Function.update_apply] at hr
      split at hr
      · next heq =>
        obtain rfl := Option.some.inj hr
        exact ⟨rfl, heq ▸ hi⟩
      · exact h.returned c' b hr
  | route => obtain ⟨m, rest, maxId, hp, rfl⟩ := hc; exact h.routeMessage hvalid hp
  | _ =>
      exact h.of_eq (hkeeps.elapsed rfl) (hkeeps.returned rfl) (hkeeps.invoked rfl) (hkeeps.routed rfl)

theorem Replied.honoursTimeouts (h : Replied s) : HonoursTimeouts archivedData s where
  null := by
    intro c hr
    cases (h.returned c false hr).1
  enabled := by
    intro c timeoutMs _ _ helapsed hno
    rw [h.elapsed c helapsed] at hno
    cases hno
  gone := h.gone

/-- **Synchronous calls honour their timeout** in a run in which every reply comes in time. -/
theorem honoursTimeouts_of_repliesInTime {as : List (Label KAValue)}
    (hguard : Machine.Follows (step archivedData) RepliesInTime {} as)
    (hrun : Machine.exec (step archivedData) {} as = some s) : HonoursTimeouts archivedData s := by
  have hinv := Machine.follows_invariant (fun s => Valid s ∧ Replied s) ⟨valid_init, replied_init⟩ hguard hrun
    fun s a t hs hg hstep => ⟨valid_step hs.1 hstep, replied_step hs.1 hs.2 hg hstep⟩
  exact hinv.2.honoursTimeouts

/-- The call with the finite timeout and the one that waits for ever get their replies; one reply comes
    before its wait has elapsed, the other one is fetched after. -/
def repliedInTime : List (Label Unit) :=
  [.take (.sync 1000) {}, .push 0, .insert 0, .transmit, .answer 0 1 false, .batch 1, .route, .elapse 0,
    .finish, .returnReply 0, .load, .compareExchange false,
    .take (.sync waitForever) {}, .push 1, .insert 1, .transmit, .answer 1 1 false, .batch 1, .route,
    .returnReply 1, .finish]

theorem honoursTimeouts_repliedInTime : ∃ s : Connection Unit,
    Machine.exec (step fun _ => []) {} repliedInTime = some s ∧
    s.returned 0 = some true ∧ s.returned 1 = some true ∧ HonoursTimeouts (fun _ => []) s := by
  obtain ⟨s, hs, hreturned⟩ := Option.map_eq_some_iff.mp
    (show (Machine.exec (step fun _ => []) {} repliedInTime).map (fun s => (s.returned 0, s.returned 1)) =
      some (some true, some true) by decide +kernel)
  injection hreturned with h0 h1
  exact ⟨s, hs, h0, h1, honoursTimeouts_of_repliesInTime (by decide +kernel) hs⟩

/-- The condition is exact: a wait that has elapsed without a reply either is finite and cannot return,
    or should last for ever and can. -/
theorem not_honoursTimeouts_of_elapsed {c : Nat} {timeoutMs : UInt32}
    (hwait : s.waitsFor c = some timeoutMs) (helapsed : s.elapsed c = true) (hno : s.invoked c = false) :
    ¬ HonoursTimeouts archivedData s ∨
      ∃ u, step archivedData s (.returnNull c) = some u ∧ ¬ HonoursTimeouts archivedData u := by
  by_cases hfinite : timeoutMs = waitForever
  · subst hfinite
    refine .inr ⟨{ s with returned := Function.update s.returned c (some false) }, ?_, ?_⟩
    · simp only [step]
      rw [if_pos ⟨hwait, helapsed, by simp [hno]⟩]
    · intro h
      obtain ⟨x, timeoutMs, hx, hkind, hne, -⟩ := h.null c (Function.update_self ..)
      obtain ⟨y, hy, hyk⟩ := waitsFor_eq_some hwait
      obtain rfl := Option.some.inj (hx.symm.trans hy)
      rw [hkind] at hyk
      injection hyk with hyk
      exact hne hyk
  · refine .inl fun h => ?_
    obtain ⟨u, hu⟩ := h.enabled c timeoutMs hwait hfinite helapsed hno
    have hforever := (step_cases hu).1
    rw [hwait] at hforever
    exact hfinite (Option.some.inj hforever)

/-- A finite wait elapses without a reply. -/
def elapsedWithoutReply : List (Label Unit) := [.take (.sync 1000) {}, .push 0, .insert 0, .elapse 0]

/-- A wait that should last for ever elapses, the call returns `nullptr`, and then the reply comes. -/
def repliedTooLate : List (Label Unit) :=
  [.take (.sync waitForever) {}, .push 0, .insert 0, .transmit, .elapse 0, .returnNull 0, .answer 0 1 false,
    .batch 1, .route]

/-- The first call does not return `nullptr`, and the second one's callback outlives its frame. -/
theorem not_honoursTimeouts_elapsedWithoutReply :
    (∃ s : Connection Unit, Machine.exec (step fun _ => []) {} elapsedWithoutReply = some s ∧
      ¬ HonoursTimeouts (fun _ => []) s) ∧
    ∃ s : Connection Unit, Machine.exec (step fun _ => []) {} repliedTooLate = some s ∧
      ¬ HonoursTimeouts (fun _ => []) s := by
  constructor
  · obtain ⟨s, hs, hwait⟩ := Option.map_eq_some_iff.mp
      (show (Machine.exec (step fun _ => []) {} elapsedWithoutReply).map
        (fun s => (s.waitsFor 0, s.elapsed 0, s.invoked 0)) = some (some 1000, true, false) by
          decide +kernel)
    simp only [Prod.mk.injEq] at hwait
    refine ⟨s, hs, fun h => ?_⟩
    obtain ⟨u, hu⟩ := h.enabled 0 1000 hwait.1 (by decide) hwait.2.1 hwait.2.2
    have hforever := (step_cases hu).1
    rw [hwait.1] at hforever
    exact absurd hforever (by decide)
  · obtain ⟨s, hs, hrouted⟩ := Option.map_eq_some_iff.mp
      (show (Machine.exec (step fun _ => []) {} repliedTooLate).map (·.routed) =
        some [⟨⟨1, 1, 0, false, some 0⟩, .callback 0, true⟩] by decide +kernel)
    refine ⟨s, hs, fun h => ?_⟩
    have hlate := h.gone ⟨⟨1, 1, 0, false, some 0⟩, .callback 0, true⟩ (by rw [hrouted]; simp)
    cases hlate

end Connection
end IDevice
