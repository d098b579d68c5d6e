import IDevice.Connection.Step

/-!
# `Connection.Invariant` — what holds in every state of a connection

Two invariants that every step keeps, whatever the callers, the device and the scheduler do:

* `Recorded` — what is queued or sent belongs to a call that has pushed it, and carries its routing
  info;
* `Received` — every message that answers a call carries the call's key, and a call is answered at
  most once.
-/

namespace IDevice
namespace Connection

variable {KAValue : Type} {archivedData : KAValue → Bytes} {s t : Connection KAValue}

/-! ## What is queued and sent -/

/-- What is queued or sent belongs to a call that has pushed it, and carries the call's routing info. -/
structure Recorded (s : Connection KAValue) : Prop where
  queued : ∀ q ∈ s.sendQueue, s.stage q.call ≠ .taken ∧
    ∃ x, s.calls[q.call]? = some x ∧ q.routingInfo = x.routingInfo
  sent : ∀ e ∈ s.sent, s.stage e.call ≠ .taken ∧ ∃ x length pieces, s.calls[e.call]? = some x ∧
    e.header = messageHeader length pieces x.routingInfo
  expects : ∀ x ∈ s.calls, x.routingInfo.expectsReply = if x.kind.hasCallback then 1 else 0
  fresh : ∀ c, s.calls.length ≤ c → s.stage c = .taken
  replying : ∀ c m rest maxId, s.parsing = .replyTaken c m rest maxId → s.stage c = .taken ∧
    ∃ x, s.calls[c]? = some x ∧ x.kind = .reply (s.routed.length - 1)

theorem recorded_init : Recorded ({} : Connection KAValue) := by
  constructor <;> simp

/-- Taking an identifier adds a call. -/
theorem Recorded.takeIdentifier (h : Recorded s) (kind : CallKind) (message : DTXMessage KAValue) :
    Recorded (s.takeIdentifier kind message) := by
  have hbefore : s.calls <+: (s.takeIdentifier kind message).calls := List.prefix_append _ _
  refine ⟨?_, ?_, ?_, ?_, ?_⟩
  · intro q hq
    obtain ⟨hs, x, hx, hr⟩ := h.queued q hq
    exact ⟨hs, x, getElem?_of_isPrefix hbefore hx, hr⟩
  · intro e he
    obtain ⟨hs, x, length, pieces, hx, hr⟩ := h.sent e he
    exact ⟨hs, x, length, pieces, getElem?_of_isPrefix hbefore hx, hr⟩
  · intro x hx
    rcases List.mem_append.mp hx with hx | hx
    · exact h.expects x hx
    · rw [List.mem_singleton.mp hx]
  · intro c hc
    exact h.fresh c (le_trans hbefore.length_le hc)
  · intro c m rest maxId hp
    obtain ⟨hs, x, hx, hr⟩ := h.replying c m rest maxId hp
    exact ⟨hs, x, getElem?_of_isPrefix hbefore hx, hr⟩

/-- A call pushes its message, which is not the one that `ReplyMessage` is about to push. -/
theorem Recorded.pushMessage (h : Recorded s) {c : Nat} {x : Call KAValue} (hx : s.calls[c]? = some x)
    (hother : ∀ c' m rest maxId, s.parsing = .replyTaken c' m rest maxId → c' ≠ c) :
    Recorded (s.pushMessage c x) := by
  have hpushed : ∀ c', s.stage c' ≠ .taken ∨ c' = c → (s.pushMessage c x).stage c' ≠ .taken := by
    intro c' hc'
    simp only [Connection.pushMessage, Function.update_apply]
    split
    · split <;> simp
    · next hne => exact hc'.resolve_right hne
  refine ⟨?_, ?_, h.expects, ?_, ?_⟩
  · intro q hq
    rcases List.mem_append.mp hq with hq | hq
    · exact ⟨hpushed _ (.inl (h.queued q hq).1), (h.queued q hq).2⟩
    · rw [List.mem_singleton.mp hq]
      exact ⟨hpushed _ (.inr rfl), x, hx, rfl⟩
  · intro e he
    exact ⟨hpushed _ (.inl (h.sent e he).1), (h.sent e he).2⟩
  · intro c' hc'
    have hlt : c < s.calls.length := (List.getElem?_eq_some_iff.mp hx).1
    exact (Function.update_of_ne (Nat.ne_of_gt (lt_of_lt_of_le hlt hc')) _ _).trans (h.fresh c' hc')
  · intro c' m rest maxId hp
    obtain ⟨hs, hr⟩ := h.replying c' m rest maxId hp
    exact ⟨(Function.update_of_ne (hother c' m rest maxId hp) _ _).trans hs, hr⟩

/-- The invariant looks at the queue, the calls, and the reply that is being sent. -/
theorem Recorded.of_eq (h : Recorded s) (hqueue : t.sendQueue = s.sendQueue) (hsent : t.sent = s.sent)
    (hcalls : t.calls = s.calls) (hstage : t.stage = s.stage)
    (hreplying : ∀ c m rest maxId, t.parsing = .replyTaken c m rest maxId →
      s.parsing = .replyTaken c m rest maxId ∧ t.routed = s.routed) : Recorded t := by
  refine ⟨?_, ?_, ?_, ?_, ?_⟩
  · rw [hqueue, hcalls, hstage]
    exact h.queued
  · rw [hsent, hcalls, hstage]
    exact h.sent
  · rw [hcalls]
    exact h.expects
  · rw [hcalls, hstage]
    exact h.fresh
  · intro c m rest maxId hp
    obtain ⟨hps, hrouted⟩ := hreplying c m rest maxId hp
    rw [hcalls, hstage, hrouted]
    exact h.replying c m rest maxId hps

/-- The handler that is inserted belongs to a call that has pushed its message. -/
theorem Recorded.insertHandler (h : Recorded s) {c : Nat} {x : Call KAValue} (hx : s.calls[c]? = some x)
    (hpushed : s.stage c = .pushed) : Recorded (s.insertHandler c x) := by
  have hdone : ∀ c', s.stage c' ≠ .taken → (s.insertHandler c x).stage c' ≠ .taken := by
    intro c' hc'
    simp only [Connection.insertHandler, Function.update_apply]
    split
    · simp
    · exact hc'
  refine ⟨fun q hq => ⟨hdone _ (h.queued q hq).1, (h.queued q hq).2⟩,
    fun e he => ⟨hdone _ (h.sent e he).1, (h.sent e he).2⟩, h.expects, ?_, ?_⟩
  · intro c' hc'
    have hlt : c < s.calls.length := (List.getElem?_eq_some_iff.mp hx).1
    exact (Function.update_of_ne (Nat.ne_of_gt (lt_of_lt_of_le hlt hc')) _ _).trans (h.fresh c' hc')
  · intro c' m rest maxId hp
    obtain ⟨hs, hr⟩ := h.replying c' m rest maxId hp
    have hne : c' ≠ c := by
      rintro rfl
      rw [hs] at hpushed
      cases hpushed
    exact ⟨(Function.update_of_ne hne _ _).trans hs, hr⟩

theorem recorded_step {a : Label KAValue} (h : Recorded s) (hstep : step archivedData s a = some t) :
    Recorded t := by
  have hkeeps := keeps_step hstep
  have hc := step_cases hstep
  cases a with
  | take kind message => obtain ⟨-, rfl⟩ := hc; exact h.takeIdentifier kind message
  | push c =>
      obtain ⟨x, hx, hkind, -, rfl⟩ := hc
      refine h.pushMessage hx ?_
      -- the parsing thread is about to push a reply, and this call is none
      rintro c' m rest maxId hp rfl
      obtain ⟨-, y, hy, hr⟩ := h.replying c' m rest maxId hp
      exact hkind _ (Option.some.inj (hx.symm.trans hy) ▸ hr)
  | insert c => obtain ⟨x, hx, hpushed, rfl⟩ := hc; exact h.insertHandler hx hpushed
  | transmit =>
      obtain ⟨q, rest, hq, rfl⟩ := hc
      refine ⟨fun q' hq' => h.queued q' (by simp [hq, hq']), ?_, h.expects, h.fresh, h.replying⟩
      intro e he
      rcases List.mem_append.mp he with he | he
      · exact h.sent e he
      · obtain ⟨hs, x, hx, hr⟩ := h.queued q (by simp [hq])
        rw [List.mem_singleton.mp he]
        exact ⟨hs, x, _, _, hx, congrArg (messageHeader _ _) hr⟩
  | replyTake =>
      obtain ⟨m, rest, maxId, hp, rfl⟩ := hc
      have htake := h.takeIdentifier (.reply (s.routed.length - 1)) (DTXMessage.newReply m.toMessage)
      refine ⟨htake.queued, htake.sent, htake.expects, htake.fresh, ?_⟩
      rintro c m' rest' maxId' ⟨⟩
      exact ⟨h.fresh _ le_rfl, _, List.getElem?_concat_length, rfl⟩
  | replyPush =>
      obtain ⟨c, m, rest, maxId, x, hp, hx, rfl⟩ := hc
      -- the reply is pushed by the parsing thread itself, which then is not about to push any more
      have hidle : Recorded { s with parsing := .idle } := h.of_eq rfl rfl rfl rfl (by simp)
      exact (hidle.pushMessage hx (by simp)).of_eq rfl rfl rfl rfl (by simp)
  | finish =>
      obtain ⟨m, found, rest, maxId, -, rfl⟩ := hc
      refine h.of_eq rfl rfl rfl rfl ?_
      intro c m' rest' maxId' hp
      simp only [finishRoute] at hp
      split at hp <;> cases hp
  | batch n => obtain ⟨-, rfl⟩ := hc; exact h.of_eq rfl rfl rfl rfl (by simp)
  | route => obtain ⟨m, rest, maxId, -, rfl⟩ := hc; exact h.of_eq rfl rfl rfl rfl (by simp [routeMessage])
  | load => obtain ⟨maxId, -, rfl⟩ := hc; exact h.of_eq rfl rfl rfl rfl (by simp)
  | compareExchange spurious =>
      obtain ⟨prev, maxId, -, ⟨-, -, rfl⟩ | ⟨-, rfl⟩ | ⟨-, rfl⟩⟩ := hc <;>
        exact h.of_eq rfl rfl rfl rfl (by simp)
  | _ =>
      exact h.of_eq (hkeeps.sendQueue rfl) (hkeeps.sent rfl) (hkeeps.calls rfl) (hkeeps.stage rfl)
        fun _ _ _ _ hp => ⟨(hkeeps.parsing rfl).symm.trans hp, hkeeps.routed rfl⟩

/-- A step adds no call that has pushed its message. -/
theorem Recorded.getElem?_eq (h : Recorded s) {l : List (Call KAValue)} (hbefore : s.calls <+: l) {c : Nat}
    (hc : s.stage c ≠ .taken) : l[c]? = s.calls[c]? := by
  have hlt : c < s.calls.length := by
    by_contra hge
    exact hc (h.fresh c (not_lt.mp hge))
  rw [List.getElem?_eq_getElem hlt]
  exact getElem?_of_isPrefix hbefore (List.getElem?_eq_getElem hlt)

/-- A call never goes back in `SendMessageAsync`. -/
theorem stage_step {a : Label KAValue} (h : Recorded s) (hstep : step archivedData s a = some t) (c : Nat) :
    (s.stage c ≠ .taken → t.stage c ≠ .taken) ∧ (s.stage c = .done → t.stage c = .done) := by
  have hkeeps := keeps_step hstep
  have hc := step_cases hstep
  cases a with
  | push c' =>
      obtain ⟨x, -, -, htaken, rfl⟩ := hc
      by_cases hcc : c = c'
      · subst hcc
        simp [htaken]
      · simp [pushMessage, Function.update_of_ne hcc]
  | insert c' =>
      obtain ⟨x, -, -, rfl⟩ := hc
      by_cases hcc : c = c'
      · subst hcc
        simp [insertHandler]
      · simp [insertHandler, Function.update_of_ne hcc]
  | replyPush =>
      obtain ⟨c', m, rest, maxId, x, hp, -, rfl⟩ := hc
      have htaken := (h.replying c' m rest maxId hp).1
      by_cases hcc : c = c'
      · subst hcc
        simp [htaken]
      · simp [pushMessage, Function.update_of_ne hcc]
  | _ =>
      rw [hkeeps.stage rfl]
      exact ⟨id, id⟩

/-- A call with a callback pushes its message in the step `push`. -/
theorem pushed_step {a : Label KAValue} (h : Recorded s) (hstep : step archivedData s a = some t) {c : Nat}
    {x : Call KAValue} (hx : t.calls[c]? = some x) (hhas : x.kind.hasCallback = true)
    (hpushed : t.stage c ≠ .taken) : s.stage c ≠ .taken ∨ a = .push c := by
  have hkeeps := keeps_step hstep
  have hc := step_cases hstep
  cases a with
  | push c' =>
      obtain ⟨y, -, -, -, rfl⟩ := hc
      by_cases hcc : c = c'
      · exact .inr (hcc ▸ rfl)
      · exact .inl (by rwa [← Function.update_of_ne hcc _ s.stage])
  | insert c' =>
      obtain ⟨y, -, hstage, rfl⟩ := hc
      by_cases hcc : c = c'
      · exact .inl (by simp [hcc, hstage])
      · exact .inl (by rwa [← Function.update_of_ne hcc _ s.stage])
  | replyPush =>
      obtain ⟨c', m, rest, maxId, y, hp, hy, rfl⟩ := hc
      -- the call that `ReplyMessage` pushes has no callback
      have hne : c ≠ c' := by
        rintro rfl
        obtain ⟨-, z, hz, hkind⟩ := h.replying c m rest maxId hp
        rw [Option.some.inj (hx.symm.trans hz), hkind] at hhas
        cases hhas
      exact .inl (by rwa [← Function.update_of_ne hne _ s.stage])
  | _ => exact .inl (hkeeps.stage rfl ▸ hpushed)

/-! ## What has been received -/

end Connection

namespace Parsing

/-- The popped messages that are still to route. -/
def rest : Parsing → List Incoming
  | batch rest _ => rest
  | invoked _ _ rest _ => rest
  | replying _ rest _ => rest
  | replyTaken _ _ rest _ => rest
  | _ => []

end Parsing

namespace Connection

variable {KAValue : Type} {archivedData : KAValue → Bytes} {s t : Connection KAValue}

/-- All messages of the session in the order in which they are routed: those that are routed, those
    that are popped, and those that have arrived. -/
def received (s : Connection KAValue) : List Incoming :=
  s.routed.map (·.message) ++ (s.parsing.rest ++ s.arrived)

/-- A step moves messages on, or one more message arrives. -/
theorem received_step {a : Label KAValue} (h : step archivedData s a = some t) :
    match a with
    | .answer c conversationIndex expectsReply => ∃ e ∈ s.sent, e.call = c ∧
        e.header.expectsReply ≠ 0 ∧ s.answered c = false ∧
        t.answered = Function.update s.answered c true ∧
        t.received = s.received ++ [⟨e.header.identifier, conversationIndex, e.header.channelCode,
          expectsReply, some c⟩]
    | .initiate m => t.answered = s.answered ∧ t.received = s.received ++ [{ m with answers := none }]
    | _ => t.answered = s.answered ∧ t.received = s.received := by
  have hkeeps := keeps_step h
  have hc := step_cases h
  cases a with
  | answer c conversationIndex expectsReply =>
      obtain ⟨e, he, hcall, hexp, hans, rfl⟩ := hc
      exact ⟨e, he, hcall, hexp, hans, rfl, by simp [received]⟩
  | initiate m => obtain rfl : t = _ := hc; exact ⟨rfl, by simp [received]⟩
  | batch n =>
      obtain ⟨hidle, rfl⟩ := hc
      exact ⟨rfl, by simp [received, Parsing.rest, hidle]⟩
  | route =>
      obtain ⟨m, rest, maxId, hp, rfl⟩ := hc
      exact ⟨rfl, by simp [received, routeMessage, Parsing.rest, hp]⟩
  | finish =>
      obtain ⟨m, found, rest, maxId, hp, rfl⟩ := hc
      refine ⟨rfl, ?_⟩
      cases he : m.expectsReply <;> simp [received, finishRoute, Parsing.rest, hp, he]
  | replyTake =>
      obtain ⟨m, rest, maxId, hp, rfl⟩ := hc
      exact ⟨rfl, by simp [received, takeIdentifier, Parsing.rest, hp]⟩
  | replyPush =>
      obtain ⟨c, m, rest, maxId, x, hp, -, rfl⟩ := hc
      exact ⟨rfl, by simp [received, pushMessage, Parsing.rest, hp]⟩
  | load =>
      obtain ⟨maxId, hp, rfl⟩ := hc
      exact ⟨rfl, by simp [received, Parsing.rest, hp]⟩
  | compareExchange spurious =>
      obtain ⟨prev, maxId, hp, ⟨-, -, rfl⟩ | ⟨-, rfl⟩ | ⟨-, rfl⟩⟩ := hc <;>
        exact ⟨rfl, by simp [received, Parsing.rest, hp]⟩
  | _ =>
      refine ⟨hkeeps.answered rfl, ?_⟩
      rw [received, received, hkeeps.routed rfl, hkeeps.parsing rfl, hkeeps.arrived rfl]

/-- A message that answers a call carries the key of the call, which has been pushed, and a call is
    answered at most once. -/
structure Received (s : Connection KAValue) : Prop where
  nodup : (s.received.filterMap (·.answers)).Nodup
  answers : ∀ m ∈ s.received, ∀ c, m.answers = some c → s.answered c = true ∧ s.stage c ≠ .taken ∧
    ∃ x, s.calls[c]? = some x ∧ x.kind.hasCallback = true ∧ m.key = x.key

theorem received_init : Received ({} : Connection KAValue) := by
  constructor <;> simp [received, Parsing.rest]

/-- A step under which no message arrives keeps the invariant. -/
theorem Received.of_eq (h : Received s) (hbefore : s.calls <+: t.calls)
    (hstage : ∀ c, s.stage c ≠ .taken → t.stage c ≠ .taken) (hans : t.answered = s.answered)
    (heq : t.received = s.received) : Received t := by
  refine ⟨heq ▸ h.nodup, ?_⟩
  intro m hm c hc
  obtain ⟨ha, hs, x, hx, hr⟩ := h.answers m (heq ▸ hm) c hc
  exact ⟨hans ▸ ha, hstage c hs, x, getElem?_of_isPrefix hbefore hx, hr⟩

theorem received_keeps {a : Label KAValue} (hrec : Recorded s) (h : Received s)
    (hstep : step archivedData s a = some t) : Received t := by
  have hbefore := calls_isPrefix hstep
  have hstage : ∀ c, s.stage c ≠ .taken → t.stage c ≠ .taken := fun c => (stage_step hrec hstep c).1
  have hr := received_step hstep
  cases a with
  | answer c conversationIndex expectsReply =>
      obtain ⟨e, he, rfl, hexp, hans, hupdate, heq⟩ := hr
      obtain ⟨hpushed, x, length, pieces, hx, hheader⟩ := hrec.sent e he
      refine ⟨?_, ?_⟩
      · -- what had been received answers other calls: this one was not answered yet
        rw [heq, List.filterMap_append]
        refine List.nodup_append.mpr ⟨h.nodup, by simp, ?_⟩
        intro c hc c' hc' hcc
        obtain ⟨m, hm, hmc⟩ := List.mem_filterMap.mp hc
        obtain rfl : c' = e.call := by simpa [eq_comm] using hc'
        have := (h.answers m hm c hmc).1
        rw [hcc, hans] at this
        cases this
      · intro m hm c hmc
        rw [heq] at hm
        rcases List.mem_append.mp hm with hm | hm
        · obtain ⟨ha, hs, y, hy, hrest⟩ := h.answers m hm c hmc
          refine ⟨?_, hstage c hs, y, getElem?_of_isPrefix hbefore hy, hrest⟩
          rw [hupdate, Function.update_apply]
          split
          · rfl
          · exact ha
        · -- the answer has the key of the transmitted header, which is that of the call
          obtain rfl := List.mem_singleton.mp hm
          obtain rfl : e.call = c := by simpa using hmc
          refine ⟨by rw [hupdate, Function.update_self], hstage _ hpushed, x,
            getElem?_of_isPrefix hbefore hx, ?_, ?_⟩
          · by_contra hno
            have hx' := hrec.expects x (List.mem_of_getElem? hx)
            rw [if_neg hno] at hx'
            exact hexp (by rw [hheader]; exact hx')
          · rw [hheader]
            rfl
  | initiate m =>
      obtain ⟨hans, heq⟩ := hr
      refine ⟨by simpa [heq] using h.nodup, ?_⟩
      intro m' hm c hmc
      rw [heq] at hm
      rcases List.mem_append.mp hm with hm | hm
      · obtain ⟨ha, hs, x, hx, hrest⟩ := h.answers m' hm c hmc
        exact ⟨hans ▸ ha, hstage c hs, x, getElem?_of_isPrefix hbefore hx, hrest⟩
      · rw [List.mem_singleton.mp hm] at hmc
        cases hmc
  | _ => exact h.of_eq hbefore hstage hr.1 hr.2

/-- The answer to the call has been routed. -/
def AnswerRouted (s : Connection KAValue) (c : Nat) : Prop := ∃ d ∈ s.routed, d.message.answers = some c

instance (s : Connection KAValue) (c : Nat) : Decidable (s.AnswerRouted c) :=
  inferInstanceAs (Decidable (∃ d ∈ s.routed, d.message.answers = some c))

theorem AnswerRouted.step {a : Label KAValue} {c : Nat} (h : s.AnswerRouted c)
    (hstep : step archivedData s a = some t) : t.AnswerRouted c := by
  obtain ⟨d, hd, hdc⟩ := h
  exact ⟨d, (routed_isPrefix hstep).subset hd, hdc⟩

/-- The message that is routed next is not the second answer to a call. -/
theorem Received.not_answerRouted (h : Received s) {m : Incoming} {rest : List Incoming} {maxId : UInt32}
    (hp : s.parsing = .batch (m :: rest) maxId) {c : Nat} (hm : m.answers = some c) :
    ¬ s.AnswerRouted c := by
  rintro ⟨d, hd, hdc⟩
  have hnodup := h.nodup
  rw [received, hp, List.filterMap_append] at hnodup
  -- the call would have an answer on either side
  have hleft : c ∈ (s.routed.map (·.message)).filterMap (·.answers) :=
    List.mem_filterMap.mpr ⟨d.message, List.mem_map_of_mem hd, hdc⟩
  have hright : c ∈ (Parsing.rest (.batch (m :: rest) maxId) ++ s.arrived).filterMap (·.answers) :=
    List.mem_filterMap.mpr ⟨m, by simp [Parsing.rest], hm⟩
  exact (List.nodup_append.mp hnodup).2.2 c hleft c hright rfl

theorem mem_received_of_batch {m : Incoming} {rest : List Incoming} {maxId : UInt32}
    (hp : s.parsing = .batch (m :: rest) maxId) : m ∈ s.received := by
  simp [received, hp, Parsing.rest]

end Connection
end IDevice
