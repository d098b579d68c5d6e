import IDevice.Connection.Handlers

/-!
# `Connection.Identifiers` — fresh message identifiers

`next_msg_identifier_` is advanced by every `SendMessageAsync` and, at the end of a batch, raised to the
largest identifier of the batch plus one. Identifiers then ascend and lie above those of the messages of
the finished batches (`Ascending`), with three exceptions: the messages of the batch that is being routed,
a message with the largest identifier, for which the sum is 0, and a counter that has come round.
`freshIdentifiers_of_counterAhead` excludes them.
-/

namespace IDevice

/-- The identifier is the low half of the key. -/
theorem dtxMessageIdentifier_toUInt32 (channelCode msgIdentifier : UInt32) :
    (dtxMessageIdentifier channelCode msgIdentifier).toUInt32 = msgIdentifier := by
  have hshift : (channelCode.toUInt64 <<< 32).toUInt32 = 0 := by
    apply UInt32.toNat.inj
    simp [Nat.shiftLeft_eq]
  rw [dtxMessageIdentifier, UInt64.toUInt32_or, hshift]
  simp

/-- The largest identifier. -/
def maxIdentifier : UInt32 := 0xFFFFFFFF

theorem lt_add_one_of_lt {a b : UInt32} (hb : b ≠ maxIdentifier) (h : a < b) : a < b + 1 := by
  unfold maxIdentifier at hb
  grind

theorem lt_add_one_of_le {a b : UInt32} (hb : b ≠ maxIdentifier) (h : a ≤ b) : a < b + 1 := by
  unfold maxIdentifier at hb
  grind

theorem max_eq_ite (a b : UInt32) : max a b = if a ≤ b then b else a := rfl

/-- The largest identifier of the batch, as far as the loop of the parsing thread has come. -/
def Parsing.batchMax : Parsing → Option UInt32
  | idle => none
  | batch _ maxId => some maxId
  | invoked m _ _ maxId => some (max maxId m.identifier)
  | replying m _ maxId => some (max maxId m.identifier)
  | replyTaken _ m _ maxId => some (max maxId m.identifier)
  | setMax _ maxId => some maxId

/-- The identifier under which a call sends its message. -/
def Call.identifier {KAValue : Type} (x : Call KAValue) : UInt32 := x.routingInfo.msgIdentifier

namespace Connection

variable {KAValue : Type} {archivedData : KAValue → Bytes} {s t : Connection KAValue}

/-- What is expected of outgoing identifiers. -/
structure FreshIdentifiers (s : Connection KAValue) : Prop where
  /-- No two messages with a callback have the same identifier. -/
  distinct : ∀ (i j : Nat) (x y : Call KAValue), s.calls[i]? = some x → s.calls[j]? = some y →
    x.kind.hasCallback = true → y.kind.hasCallback = true → x.identifier = y.identifier → i = j
  /-- No insertion of a handler is refused. -/
  accepted : ∀ (c : Nat) (x : Call KAValue), s.calls[c]? = some x → s.stage c = .pushed →
    s.handlersByIdentifier x.key = none
  /-- An identifier is greater than those of the messages that had been routed before. -/
  above : ∀ x ∈ s.calls, ∀ d ∈ s.routed.take x.routedBefore, d.message.identifier < x.identifier

/-- The counter can be used: it has not come round, no message has carried the largest identifier, and
    the messages of the batch that is not finished have smaller ones. -/
def Ahead (s : Connection KAValue) : Prop :=
  (∀ x ∈ s.calls, x.identifier ≠ maxIdentifier) ∧ (∀ d ∈ s.routed, d.message.identifier ≠ maxIdentifier) ∧
    ∀ d ∈ s.routed.drop s.settledCount, d.message.identifier < s.nextMsgIdentifier

instance (s : Connection KAValue) : Decidable (Ahead s) := by
  unfold Ahead
  infer_instance

/-- An identifier is taken from a counter that can be used, unless `2 ^ 32` messages have been sent. -/
def CounterAhead (s : Connection KAValue) : Label KAValue → Prop
  | .take _ _ => s.calls.length + 1 < 2 ^ 32 → Ahead s
  | .replyTake => s.calls.length + 1 < 2 ^ 32 → Ahead s
  | _ => True

instance (s : Connection KAValue) (a : Label KAValue) : Decidable (CounterAhead s a) := by
  rcases a with ⟨⟩ <;> dsimp only [CounterAhead] <;> infer_instance

/-- Identifiers ascend, and the counter is above them and above those of the finished batches, as long as
    it has not come round. -/
structure Ascending (s : Connection KAValue) : Prop where
  le : s.settledCount ≤ s.routed.length
  idle : s.parsing.batchMax = none → s.settledCount = s.routed.length
  batch : ∀ maxId, s.parsing.batchMax = some maxId →
    (∀ d ∈ s.routed.drop s.settledCount, d.message.identifier ≤ maxId) ∧
      ((∀ d ∈ s.routed, d.message.identifier ≠ maxIdentifier) → maxId ≠ maxIdentifier)
  ascending : s.calls.Pairwise fun x y => x.identifier < y.identifier
  below : (∀ x ∈ s.calls, x.identifier ≠ maxIdentifier) → ∀ x ∈ s.calls,
    x.identifier < s.nextMsgIdentifier
  settled : (∀ x ∈ s.calls, x.identifier ≠ maxIdentifier) →
    (∀ d ∈ s.routed, d.message.identifier ≠ maxIdentifier) → ∀ d ∈ s.routed.take s.settledCount,
      d.message.identifier < s.nextMsgIdentifier
  prev : (∀ x ∈ s.calls, x.identifier ≠ maxIdentifier) → ∀ prevValue maxId,
    s.parsing = .setMax prevValue maxId → prevValue ≤ s.nextMsgIdentifier
  above : ∀ x ∈ s.calls, x.routedBefore ≤ s.routed.length ∧
    ∀ d ∈ s.routed.take x.routedBefore, d.message.identifier < x.identifier

theorem ascending_init : Ascending ({} : Connection KAValue) := by
  constructor <;> simp [Parsing.batchMax]

/-- Steps that neither take an identifier nor route, nor raise the counter. -/
theorem Ascending.of_eq (h : Ascending s) (hcalls : t.calls = s.calls)
    (hcounter : t.nextMsgIdentifier = s.nextMsgIdentifier) (hrouted : t.routed = s.routed)
    (hsettled : t.settledCount = s.settledCount) (hmax : t.parsing.batchMax = s.parsing.batchMax)
    (hprev : ∀ prevValue maxId, t.parsing = .setMax prevValue maxId →
      s.parsing = .setMax prevValue maxId) : Ascending t := by
  refine ⟨?_, ?_, ?_, ?_, ?_, ?_, ?_, ?_⟩
  · rw [hsettled, hrouted]; exact h.le
  · rw [hmax, hsettled, hrouted]; exact h.idle
  · rw [hmax, hsettled, hrouted]; exact h.batch
  · rw [hcalls]; exact h.ascending
  · rw [hcalls, hcounter]; exact h.below
  · rw [hcalls, hcounter, hrouted, hsettled]; exact h.settled
  · rw [hcalls, hcounter]
    exact fun hno prevValue maxId hp => h.prev hno prevValue maxId (hprev prevValue maxId hp)
  · rw [hcalls, hrouted]; exact h.above

/-- An identifier taken from a counter that can be used. -/
theorem Ascending.takeIdentifier (h : Ascending s) (hahead : Ahead s) (kind : CallKind)
    (message : DTXMessage KAValue) : Ascending (s.takeIdentifier kind message) := by
  obtain ⟨hcalls, hrouted, hbatch⟩ := hahead
  have hbelow := h.below hcalls
  have hsettled := h.settled hcalls hrouted
  have hcounter : (∀ y ∈ (s.takeIdentifier kind message).calls, y.identifier ≠ maxIdentifier) →
      s.nextMsgIdentifier ≠ maxIdentifier :=
    fun hno => hno _ (List.mem_append_right _ (List.mem_singleton_self _))
  refine ⟨h.le, h.idle, h.batch, ?_, ?_, ?_, ?_, ?_⟩
  · refine List.pairwise_append.mpr ⟨h.ascending, List.pairwise_singleton _ _, ?_⟩
    intro x hx y hy
    rw [List.mem_singleton.mp hy]
    exact hbelow x hx
  · intro hno x hx
    rcases List.mem_append.mp hx with hx | hx
    · exact lt_add_one_of_lt (hcounter hno) (hbelow x hx)
    · rw [List.mem_singleton.mp hx]
      exact lt_add_one_of_le (hcounter hno) (UInt32.le_refl _)
  · intro hno _ d hd
    exact lt_add_one_of_lt (hcounter hno) (hsettled d hd)
  · intro hno prevValue maxId hp
    exact UInt32.le_of_lt (lt_add_one_of_le (hcounter hno) (h.prev hcalls prevValue maxId hp))
  · intro x hx
    rcases List.mem_append.mp hx with hx | hx
    · exact h.above x hx
    · rw [List.mem_singleton.mp hx]
      -- all routed messages: those of the finished batches, and those of the batch
      refine ⟨Nat.le_refl _, fun d hd => ?_⟩
      have hd' : d ∈ s.routed.take s.settledCount ++ s.routed.drop s.settledCount := by
        rw [List.take_append_drop]
        exact List.mem_of_mem_take hd
      rcases List.mem_append.mp hd' with hd' | hd'
      · exact hsettled d hd'
      · exact hbatch d hd'

/-- The routed message belongs to the batch. -/
theorem Ascending.routeMessage (h : Ascending s) {m : Incoming} {rest : List Incoming} {maxId : UInt32}
    (hp : s.parsing = .batch (m :: rest) maxId) : Ascending (s.routeMessage m rest maxId) := by
  obtain ⟨hle, hne⟩ := h.batch maxId (by rw [hp]; rfl)
  refine ⟨?_, by simp [Connection.routeMessage, Parsing.batchMax], ?_, h.ascending, h.below, ?_,
    by simp [Connection.routeMessage], ?_⟩
  · simp only [Connection.routeMessage, List.length_append]
    exact Nat.le_add_right_of_le h.le
  · intro maxId' hmax
    obtain rfl : max maxId m.identifier = maxId' := Option.some.inj hmax
    refine ⟨?_, fun hno => ?_⟩
    · -- the maximum covers the messages before, and the new one
      intro d hd
      simp only [Connection.routeMessage, List.drop_append_of_le_length h.le] at hd
      rcases List.mem_append.mp hd with hd | hd
      · have := hle d hd
        grind [max_eq_ite]
      · rw [List.mem_singleton.mp hd]
        grind [max_eq_ite]
    · have hm : m.identifier ≠ maxIdentifier :=
        hno _ (List.mem_append_right _ (List.mem_singleton_self _))
      have hmaxId := hne fun d hd => hno d (List.mem_append_left _ hd)
      grind [max_eq_ite]
  · -- the settled messages are the same
    intro hno hrouted d hd
    simp only [Connection.routeMessage, List.take_append_of_le_length h.le] at hd
    exact h.settled hno (fun d hd => hrouted d (List.mem_append_left _ hd)) d hd
  · intro x hx
    obtain ⟨hbefore, habove⟩ := h.above x hx
    refine ⟨?_, fun d hd => ?_⟩
    · simp only [Connection.routeMessage, List.length_append]
      exact Nat.le_add_right_of_le hbefore
    · simp only [Connection.routeMessage, List.take_append_of_le_length hbefore] at hd
      exact habove d hd

/-- The end of a batch, where the counter is above the batch. -/
theorem Ascending.settle (h : Ascending s) {maxId : UInt32} (hmax : s.parsing.batchMax = some maxId)
    (hcalls : t.calls = s.calls) (hrouted : t.routed = s.routed) (hidle : t.parsing = .idle)
    (hsettled : t.settledCount = s.routed.length)
    (hcounter : (∀ x ∈ s.calls, x.identifier ≠ maxIdentifier) → maxId ≠ maxIdentifier →
      maxId < t.nextMsgIdentifier)
    (hgrows : (∀ x ∈ s.calls, x.identifier ≠ maxIdentifier) → s.nextMsgIdentifier ≤ t.nextMsgIdentifier) :
    Ascending t := by
  obtain ⟨hle, hne⟩ := h.batch maxId hmax
  refine ⟨?_, ?_, ?_, ?_, ?_, ?_, ?_, ?_⟩
  · rw [hsettled, hrouted]
  · intro _
    rw [hsettled, hrouted]
  · simp [hidle, Parsing.batchMax]
  · rw [hcalls]
    exact h.ascending
  · rw [hcalls]
    exact fun hno x hx => UInt32.lt_of_lt_of_le (h.below hno x hx) (hgrows hno)
  · rw [hcalls, hrouted]
    intro hno hrouted d hd
    have hd' : d ∈ s.routed.take s.settledCount ++ s.routed.drop s.settledCount := by
      rw [List.take_append_drop]
      exact List.mem_of_mem_take hd
    -- a routed message was settled before, or belongs to the batch
    rcases List.mem_append.mp hd' with hd' | hd'
    · exact UInt32.lt_of_lt_of_le (h.settled hno hrouted d hd') (hgrows hno)
    · exact UInt32.lt_of_le_of_lt (hle d hd') (hcounter hno (hne hrouted))
  · simp [hidle]
  · rw [hcalls, hrouted]
    exact h.above

theorem ascending_step {a : Label KAValue} (h : Ascending s)
    (hguard : CounterAhead s a) (hlength : t.calls.length < 2 ^ 32)
    (hstep : step archivedData s a = some t) : Ascending t := by
  have hkeeps := keeps_step hstep
  have hc := step_cases hstep
  cases a with
  | take kind message =>
      obtain ⟨-, rfl⟩ := hc
      exact h.takeIdentifier (hguard (by simpa [takeIdentifier] using hlength)) kind message
  | replyTake =>
      obtain ⟨m, rest, maxId, hp, rfl⟩ := hc
      have htake := h.takeIdentifier (hguard (by simpa [takeIdentifier] using hlength))
        (.reply (s.routed.length - 1)) (DTXMessage.newReply m.toMessage)
      refine ⟨htake.le, by simp [Parsing.batchMax], ?_, htake.ascending, htake.below, htake.settled,
        by simp, htake.above⟩
      intro maxId' hmax
      exact htake.batch maxId' (by simpa [takeIdentifier, hp, Parsing.batchMax] using hmax)
  | route => obtain ⟨m, rest, maxId, hp, rfl⟩ := hc; exact h.routeMessage hp
  | finish =>
      obtain ⟨m, found, rest, maxId, hp, rfl⟩ := hc
      refine h.of_eq rfl rfl rfl rfl ?_ ?_ <;>
        cases he : m.expectsReply <;> simp [finishRoute, he, hp, Parsing.batchMax]
  | replyPush =>
      obtain ⟨c, m, rest, maxId, x, hp, -, rfl⟩ := hc
      exact h.of_eq rfl rfl rfl rfl (by rw [hp]; rfl) (by simp)
  | batch n =>
      obtain ⟨hp, rfl⟩ := hc
      -- outside a batch everything routed is settled
      have hidle := h.idle (by rw [hp]; rfl)
      refine ⟨h.le, by simp [Parsing.batchMax], ?_, h.ascending, h.below, h.settled, by simp, h.above⟩
      intro maxId hmax
      obtain rfl : 0 = maxId := Option.some.inj hmax
      exact ⟨by simp [hidle], fun _ => by decide⟩
  | load =>
      obtain ⟨maxId, hp, rfl⟩ := hc
      refine ⟨h.le, by simp [Parsing.batchMax], ?_, h.ascending, h.below, h.settled, ?_, h.above⟩
      · intro maxId' hmax
        exact h.batch maxId' (by rw [hp]; exact hmax)
      · rintro - prevValue maxId' ⟨⟩
        exact UInt32.le_refl _
  | compareExchange spurious =>
      obtain ⟨prev, maxId, hp, ⟨hlt, hprev, rfl⟩ | ⟨-, rfl⟩ | ⟨hge, rfl⟩⟩ := hc
      · -- the counter is raised
        have hmax : s.parsing.batchMax = some maxId := by rw [hp]; rfl
        refine h.settle hmax rfl rfl rfl rfl ?_ ?_
        · exact fun _ hne => lt_add_one_of_le hne (UInt32.le_refl _)
        · exact fun _ => hprev ▸ UInt32.le_of_lt hlt
      · -- the exchange has failed, and the loop has read the counter again
        refine ⟨h.le, by simp [Parsing.batchMax], ?_, h.ascending, h.below, h.settled, ?_, h.above⟩
        · intro maxId' hmax
          exact h.batch maxId' (by rw [hp]; exact hmax)
        · rintro - prevValue maxId' ⟨⟩
          exact UInt32.le_refl _
      · -- the counter has been there already, and has not come down since
        have hmax : s.parsing.batchMax = some maxId := by rw [hp]; rfl
        refine h.settle hmax rfl rfl rfl rfl ?_ fun _ => UInt32.le_refl _
        intro hno hne
        exact UInt32.lt_of_lt_of_le (lt_add_one_of_le hne (UInt32.le_refl _))
          (UInt32.le_trans (UInt32.not_lt.mp hge) (h.prev hno prev maxId hp))
  | _ =>
      have hparsing := hkeeps.parsing rfl
      exact h.of_eq (hkeeps.calls rfl) (hkeeps.counter rfl) (hkeeps.routed rfl) (hkeeps.settled rfl)
        (congrArg Parsing.batchMax hparsing) fun _ _ hp => hparsing.symm.trans hp

theorem Ascending.freshIdentifiers (hvalid : Valid s) (h : Ascending s) : FreshIdentifiers s := by
  have hdistinct : ∀ (i j : Nat) (x y : Call KAValue), s.calls[i]? = some x → s.calls[j]? = some y →
      x.identifier = y.identifier → i = j := by
    intro i j x y hx hy heq
    obtain ⟨hi, rfl⟩ := List.getElem?_eq_some_iff.mp hx
    obtain ⟨hj, rfl⟩ := List.getElem?_eq_some_iff.mp hy
    have hpairs := List.pairwise_iff_getElem.mp h.ascending
    rcases Nat.lt_trichotomy i j with hlt | rfl | hgt
    · exact absurd heq (UInt32.ne_of_lt (hpairs i j hi hj hlt))
    · rfl
    · exact absurd heq.symm (UInt32.ne_of_lt (hpairs j i hj hi hgt))
  refine ⟨fun i j x y hx hy _ _ => hdistinct i j x y hx hy, ?_, fun x hx => (h.above x hx).2⟩
  intro c x hx hpushed
  cases hk : s.handlersByIdentifier x.key with
  | none => rfl
  | some f =>
      -- the key determines the identifier, and so the call, which is not through yet
      obtain ⟨hdone, y, hy, -, hkey⟩ := hvalid.handled.handler _ _ hk
      have hids := congrArg UInt64.toUInt32 hkey
      simp only [Call.key, dtxMessageIdentifier_toUInt32] at hids
      obtain rfl := hdistinct f c y x hy hx hids
      rw [hpushed] at hdone
      cases hdone

/-- **Outgoing identifiers are fresh** in a run in which every one is taken from a counter that can be
    used, as long as fewer than `2 ^ 32` messages have been sent. -/
theorem freshIdentifiers_of_counterAhead {as : List (Label KAValue)}
    (hguard : Machine.Follows (step archivedData) CounterAhead {} as)
    (hrun : Machine.exec (step archivedData) {} as = some s) (hfew : s.calls.length < 2 ^ 32) :
    FreshIdentifiers s := by
  have hinv := Machine.follows_invariant (fun s => Valid s ∧ (s.calls.length < 2 ^ 32 → Ascending s))
    ⟨valid_init, fun _ => ascending_init⟩ hguard hrun fun s a t hs hg hstep =>
      ⟨valid_step hs.1 hstep, fun hlt =>
        ascending_step (hs.2 (Nat.lt_of_le_of_lt (calls_isPrefix hstep).length_le hlt)) hg hlt hstep⟩
  exact (hinv.2 hfew).freshIdentifiers hinv.1

/-- The condition on the messages is exact: an identifier that is taken while the counter is not above a
    routed message is not fresh. -/
theorem not_freshIdentifiers_takeIdentifier {d : Delivery} (hd : d ∈ s.routed)
    (hle : s.nextMsgIdentifier ≤ d.message.identifier) (kind : CallKind) (message : DTXMessage KAValue) :
    ¬ FreshIdentifiers (s.takeIdentifier kind message) := by
  intro h
  have hlt := h.above _ (List.mem_append_right _ (List.mem_singleton_self _)) d
    (by simpa [takeIdentifier] using hd)
  exact UInt32.not_lt.mpr hle hlt

/-- A batch with the identifier 5 is finished, then two requests are sent, the second one while a message
    with the identifier 6 is routed. -/
def requestsAfterBatch : List (Label Unit) :=
  [.initiate ⟨5, 0, 0, false, none⟩, .batch 1, .route, .finish, .load, .compareExchange false,
    .take (.async true) {}, .push 0, .insert 0, .transmit, .answer 0 1 false, .batch 1, .route,
    .take (.sync 0) {}, .push 1, .insert 1]

theorem freshIdentifiers_requestsAfterBatch : ∃ s : Connection Unit,
    Machine.exec (step fun _ => []) {} requestsAfterBatch = some s ∧
    s.calls.map (·.identifier) = [6, 7] ∧ FreshIdentifiers s := by
  obtain ⟨s, hs, hids⟩ := Option.map_eq_some_iff.mp
    (show (Machine.exec (step fun _ => []) {} requestsAfterBatch).map (·.calls.map (·.identifier)) =
      some [6, 7] by decide +kernel)
  have hlength : s.calls.length < 2 ^ 32 := by
    have := congrArg List.length hids
    rw [List.length_map] at this
    rw [this]
    decide
  exact ⟨s, hs, hids, freshIdentifiers_of_counterAhead (by decide +kernel) hs hlength⟩

/-- A request is sent while the batch with the identifier 5 is routed. -/
def requestInsideBatch : List (Label Unit) :=
  [.initiate ⟨5, 0, 0, false, none⟩, .batch 1, .route, .take (.async true) {}]

/-- The device raises the counter to its largest value, and it comes round. -/
def counterComesRound : List (Label Unit) :=
  [.take (.async true) {}, .initiate ⟨0xFFFFFFFE, 0, 0, false, none⟩, .batch 1, .route, .finish, .load,
    .compareExchange false, .take (.async true) {}, .take (.async true) {}, .take (.async true) {}]

/-- The first request gets the identifier 1 after a message with the identifier 5, and in the second run
    the last request gets the identifier of the first. -/
theorem not_freshIdentifiers_requestInsideBatch :
    (∃ s : Connection Unit, Machine.exec (step fun _ => []) {} requestInsideBatch = some s ∧
      s.calls.length < 2 ^ 32 ∧ ¬ FreshIdentifiers s) ∧
    ∃ s : Connection Unit, Machine.exec (step fun _ => []) {} counterComesRound = some s ∧
      s.calls.length < 2 ^ 32 ∧ ¬ FreshIdentifiers s := by
  constructor
  · obtain ⟨s, hs, hobs⟩ := Option.map_eq_some_iff.mp
      (show (Machine.exec (step fun _ => []) {} requestInsideBatch).map (fun s => s.calls.map fun x =>
        (x.identifier, (s.routed.take x.routedBefore).map (·.message.identifier))) = some [(1, [5])] by
          decide +kernel)
    obtain ⟨x, hx, hpair⟩ := List.map_eq_singleton_iff.mp hobs
    injection hpair with hid htake
    obtain ⟨d, hd, h5⟩ := List.map_eq_singleton_iff.mp htake
    refine ⟨s, hs, by simp [hx], fun h => ?_⟩
    have hlt := h.above x (by simp [hx]) d (by simp [hd])
    rw [hid, h5] at hlt
    exact absurd hlt (by decide)
  · obtain ⟨s, hs, hobs⟩ := Option.map_eq_some_iff.mp
      (show (Machine.exec (step fun _ => []) {} counterComesRound).map (fun s =>
        (s.calls.length, s.calls[0]?.map fun x => (x.identifier, x.kind),
          s.calls[3]?.map fun x => (x.identifier, x.kind))) =
        some (4, some (1, .async true), some (1, .async true)) by decide +kernel)
    simp only [Prod.mk.injEq] at hobs
    obtain ⟨hlength, h0, h3⟩ := hobs
    obtain ⟨x, hx, hxp⟩ := Option.map_eq_some_iff.mp h0
    obtain ⟨y, hy, hyp⟩ := Option.map_eq_some_iff.mp h3
    injection hxp with hxid hxkind
    injection hyp with hyid hykind
    refine ⟨s, hs, by rw [hlength]; decide, fun h => ?_⟩
    have heq := h.distinct 0 3 x y hx hy (by rw [hxkind]; rfl) (by rw [hykind]; rfl) (hxid.trans hyid.symm)
    cases heq

end Connection
end IDevice
