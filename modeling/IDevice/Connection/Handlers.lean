import IDevice.Connection.Invariant

/-!
# `Connection.Handlers` — which handlers are registered

`Handled` is the invariant of `_handlers_by_identifier_`: a registered handler stands under the key of
its call, which is through with `SendMessageAsync`; and once its callback has been invoked it is about to
be erased. It holds in every run, whatever the interleaving.
-/

namespace IDevice
namespace Connection

variable {KAValue : Type} {archivedData : KAValue → Bytes} {s t : Connection KAValue}

structure Handled (s : Connection KAValue) : Prop where
  handler : ∀ k c, s.handlersByIdentifier k = some c → s.stage c = .done ∧
    ∃ x, s.calls[c]? = some x ∧ x.kind.hasCallback = true ∧ x.key = k
  spent : ∀ k c, s.handlersByIdentifier k = some c → s.invoked c = true →
    ∃ m rest maxId, s.parsing = .invoked m (some c) rest maxId ∧ m.key = k
  pushed : ∀ c, s.stage c = .pushed → ∃ x, s.calls[c]? = some x ∧ x.kind.hasCallback = true
  invoked : ∀ c, s.invoked c = true → s.stage c = .done
  delivered : ∀ c, s.invoked c = true ↔ ∃ d ∈ s.routed, d.receiver = .callback c

theorem handled_init : Handled ({} : Connection KAValue) := by
  constructor <;> simp

/-- The invariant looks at the handlers, the calls, and what has been routed. -/
theorem Handled.of_eq (h : Handled s) (hbefore : s.calls <+: t.calls) (hstage : t.stage = s.stage)
    (hhandlers : t.handlersByIdentifier = s.handlersByIdentifier) (hinvoked : t.invoked = s.invoked)
    (hrouted : t.routed = s.routed)
    (hparsing : ∀ m f rest maxId, s.parsing = .invoked m f rest maxId →
      t.parsing = .invoked m f rest maxId) : Handled t := by
  refine ⟨?_, ?_, ?_, ?_, ?_⟩
  · intro k c hk
    obtain ⟨hs, x, hx, hr⟩ := h.handler k c (hhandlers ▸ hk)
    exact ⟨hstage ▸ hs, x, getElem?_of_isPrefix hbefore hx, hr⟩
  · intro k c hk hi
    obtain ⟨m, rest, maxId, hp, hm⟩ := h.spent k c (hhandlers ▸ hk) (hinvoked ▸ hi)
    exact ⟨m, rest, maxId, hparsing _ _ _ _ hp, hm⟩
  · intro c hc
    obtain ⟨x, hx, hr⟩ := h.pushed c (hstage ▸ hc)
    exact ⟨x, getElem?_of_isPrefix hbefore hx, hr⟩
  · rw [hinvoked, hstage]
    exact h.invoked
  · rw [hinvoked, hrouted]
    exact h.delivered

/-- Pushing a message touches no handler. -/
theorem Handled.pushMessage (h : Handled s) {c : Nat} {x : Call KAValue} (hx : s.calls[c]? = some x)
    (htaken : s.stage c = .taken) : Handled (s.pushMessage c x) := by
  have hdone : ∀ c', s.stage c' = .done → (s.pushMessage c x).stage c' = .done := by
    intro c' hc'
    have hne : c' ≠ c := by
      rintro rfl
      rw [htaken] at hc'
      cases hc'
    exact (Function.update_of_ne hne _ _).trans hc'
  refine ⟨fun k c' hk => ⟨hdone c' (h.handler k c' hk).1, (h.handler k c' hk).2⟩, h.spent, ?_,
    fun c' hi => hdone c' (h.invoked c' hi), h.delivered⟩
  intro c' hc'
  by_cases hcc : c' = c
  · subst hcc
    refine ⟨x, hx, ?_⟩
    by_contra hno
    simp [Connection.pushMessage, hno] at hc'
  · exact h.pushed c' ((Function.update_of_ne hcc _ _).symm.trans hc')

theorem insertHandler_apply (c : Nat) (x : Call KAValue) (k : UInt64) :
    (s.insertHandler c x).handlersByIdentifier k =
      if k = x.key ∧ s.handlersByIdentifier x.key = none then some c
      else s.handlersByIdentifier k := by
  simp only [insertHandler]
  cases hk : s.handlersByIdentifier x.key with
  | none => simp [Function.update_apply]
  | some f => simp

/-- The handler that is inserted belongs to a call whose callback has not been invoked. -/
theorem Handled.insertHandler (h : Handled s) {c : Nat} {x : Call KAValue} (hx : s.calls[c]? = some x)
    (hpushed : s.stage c = .pushed) : Handled (s.insertHandler c x) := by
  have hdone : ∀ c', s.stage c' = .done → (s.insertHandler c x).stage c' = .done := by
    intro c' hc'
    simp only [Connection.insertHandler, Function.update_apply]
    split
    · rfl
    · exact hc'
  have hhas : x.kind.hasCallback = true := by
    obtain ⟨y, hy, hr⟩ := h.pushed c hpushed
    rwa [Option.some.inj (hx.symm.trans hy)]
  refine ⟨?_, ?_, ?_, fun c' hi => hdone c' (h.invoked c' hi), h.delivered⟩
  · intro k c' hk
    rw [insertHandler_apply] at hk
    split at hk
    · -- the new entry is that of the call
      next hcond =>
      obtain rfl := Option.some.inj hk
      exact ⟨Function.update_self .., x, hx, hhas, hcond.1.symm⟩
    · exact ⟨hdone c' (h.handler k c' hk).1, (h.handler k c' hk).2⟩
  · intro k c' hk hi
    rw [insertHandler_apply] at hk
    split at hk
    · -- a callback is not invoked before its handler is inserted
      obtain rfl := Option.some.inj hk
      have := h.invoked c hi
      rw [hpushed] at this
      cases this
    · exact h.spent k c' hk hi
  · intro c' hc'
    have hne : c' ≠ c := by
      rintro rfl
      simp [Connection.insertHandler] at hc'
    exact h.pushed c' ((Function.update_of_ne hne _ _).symm.trans hc')

/-- A routed message invokes the handler under its key, if there is one. -/
theorem invoked_routeMessage (m : Incoming) (rest : List Incoming) (maxId : UInt32) (c : Nat) :
    (s.routeMessage m rest maxId).invoked c = true ↔
      s.invoked c = true ∨ s.handlersByIdentifier m.key = some c := by
  simp only [routeMessage]
  cases hk : s.handlersByIdentifier m.key with
  | none => simp
  | some f =>
      by_cases hcf : c = f
      · simp [hcf]
      · simp [Function.update_of_ne hcf, Ne.symm hcf]

theorem Handled.routeMessage (h : Handled s) {m : Incoming} {rest : List Incoming} {maxId : UInt32}
    (hp : s.parsing = .batch (m :: rest) maxId) : Handled (s.routeMessage m rest maxId) := by
  -- between two messages no entry is left of a callback that has been invoked
  have hfresh : ∀ k c, s.handlersByIdentifier k = some c → ¬ s.invoked c = true := by
    intro k c hk hi
    obtain ⟨m', rest', maxId', hp', -⟩ := h.spent k c hk hi
    rw [hp] at hp'
    cases hp'
  refine ⟨h.handler, ?_, h.pushed, ?_, ?_⟩
  · intro k c hk hi
    rcases (invoked_routeMessage m rest maxId c).mp hi with hi | hm
    · exact absurd hi (hfresh k c hk)
    · -- a call stands under its own key only
      obtain ⟨-, x, hx, -, hxk⟩ := h.handler k c hk
      obtain ⟨-, y, hy, -, hym⟩ := h.handler m.key c hm
      obtain rfl := Option.some.inj (hx.symm.trans hy)
      refine ⟨m, rest, maxId, ?_, hym.symm.trans hxk⟩
      simp only [Connection.routeMessage, hm]
  · intro c hi
    rcases (invoked_routeMessage m rest maxId c).mp hi with hi | hm
    · exact h.invoked c hi
    · exact (h.handler m.key c hm).1
  · intro c
    rw [invoked_routeMessage, h.delivered]
    simp only [Connection.routeMessage, List.mem_append, List.mem_singleton, or_and_right, exists_or,
      exists_eq_left, receiver]
    refine or_congr_right ?_
    cases s.handlersByIdentifier m.key with
    | none => simp only [reduceCtorEq, false_iff]; split <;> simp
    | some f => simp

theorem Handled.finishRoute (h : Handled s) {m : Incoming} {found : Option Nat} {rest : List Incoming}
    {maxId : UInt32} (hp : s.parsing = .invoked m found rest maxId) :
    Handled (s.finishRoute m found rest maxId) := by
  have hkept : ∀ k c, (s.finishRoute m found rest maxId).handlersByIdentifier k = some c →
      s.handlersByIdentifier k = some c ∧ ¬ (found.isSome ∧ k = m.key) := by
    intro k c hk
    simp only [Connection.finishRoute] at hk
    split at hk
    · next hfound =>
      rw [Function.update_apply] at hk
      split at hk
      · cases hk
      · next hne => exact ⟨hk, fun hc => hne hc.2⟩
    · next hfound => exact ⟨hk, fun hc => hfound hc.1⟩
  refine ⟨fun k c hk => h.handler k c (hkept k c hk).1, ?_, h.pushed, h.invoked, h.delivered⟩
  intro k c hk hi
  obtain ⟨hks, hno⟩ := hkept k c hk
  obtain ⟨m', rest', maxId', hp', hm'⟩ := h.spent k c hks hi
  rw [hp] at hp'
  injection hp' with hmm hf
  exact absurd ⟨by simp [hf], by rw [hmm, hm']⟩ hno

theorem handled_step {a : Label KAValue} (hrec : Recorded s) (h : Handled s)
    (hstep : step archivedData s a = some t) : Handled t := by
  have hbefore := calls_isPrefix hstep
  have hkeeps := keeps_step hstep
  have hc := step_cases hstep
  cases a with
  | push c => obtain ⟨x, hx, -, htaken, rfl⟩ := hc; exact h.pushMessage hx htaken
  | insert c => obtain ⟨x, hx, hpushed, rfl⟩ := hc; exact h.insertHandler hx hpushed
  | route => obtain ⟨m, rest, maxId, hp, rfl⟩ := hc; exact h.routeMessage hp
  | finish => obtain ⟨m, found, rest, maxId, hp, rfl⟩ := hc; exact h.finishRoute hp
  | replyPush =>
      obtain ⟨c, m, rest, maxId, x, hp, hx, rfl⟩ := hc
      have hpush := h.pushMessage hx (hrec.replying c m rest maxId hp).1
      exact hpush.of_eq List.prefix_rfl rfl rfl rfl rfl (by simp [pushMessage, hp])
  | replyTake =>
      obtain ⟨m, rest, maxId, hp, rfl⟩ := hc
      exact h.of_eq hbefore rfl rfl rfl rfl (by simp [hp])
  | batch n => obtain ⟨hp, rfl⟩ := hc; exact h.of_eq hbefore rfl rfl rfl rfl (by simp [hp])
  | load => obtain ⟨maxId, hp, rfl⟩ := hc; exact h.of_eq hbefore rfl rfl rfl rfl (by simp [hp])
  | compareExchange spurious =>
      obtain ⟨prev, maxId, hp, ⟨-, -, rfl⟩ | ⟨-, rfl⟩ | ⟨-, rfl⟩⟩ := hc <;>
        exact h.of_eq hbefore rfl rfl rfl rfl (by simp [hp])
  | _ =>
      exact h.of_eq hbefore (hkeeps.stage rfl) (hkeeps.handlers rfl) (hkeeps.invoked rfl)
        (hkeeps.routed rfl) fun _ _ _ _ hp => (hkeeps.parsing rfl).trans hp

/-- Only an insertion puts a call into the table. -/
theorem handlers_step {a : Label KAValue} (hstep : step archivedData s a = some t) {k : UInt64} {c : Nat}
    (hk : t.handlersByIdentifier k = some c) :
    s.handlersByIdentifier k = some c ∨ s.stage c = .pushed := by
  have hkeeps := keeps_step hstep
  have hc := step_cases hstep
  cases a with
  | insert c' =>
      obtain ⟨x, -, hpushed, rfl⟩ := hc
      rw [insertHandler_apply] at hk
      split at hk
      · obtain rfl := Option.some.inj hk
        exact .inr hpushed
      · exact .inl hk
  | finish =>
      obtain ⟨m, found, rest, maxId, -, rfl⟩ := hc
      refine .inl ?_
      simp only [finishRoute] at hk
      split at hk
      · rw [Function.update_apply] at hk
        split at hk
        · cases hk
        · exact hk
      · exact hk
  | _ => exact .inl (hkeeps.handlers rfl ▸ hk)

/-! ## Together -/

/-- What holds in every state of a connection. -/
structure Valid (s : Connection KAValue) : Prop where
  recorded : Recorded s
  received : Received s
  handled : Handled s

theorem valid_init : Valid ({} : Connection KAValue) := ⟨recorded_init, received_init, handled_init⟩

theorem valid_step {a : Label KAValue} (h : Valid s) (hstep : step archivedData s a = some t) : Valid t where
  recorded := recorded_step h.recorded hstep
  received := received_keeps h.recorded h.received hstep
  handled := handled_step h.recorded h.handled hstep

/-- **Every state that a run reaches is valid.** -/
theorem valid_run {as : List (Label KAValue)} (h : Machine.exec (step archivedData) {} as = some s) :
    Valid s :=
  Machine.exec_invariant Valid valid_init h fun _ _ _ hs hstep => valid_step hs hstep

end Connection
end IDevice
