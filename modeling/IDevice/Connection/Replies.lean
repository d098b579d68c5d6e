import IDevice.Connection.Invariant

/-!
# `Connection.Replies` — what `ReplyMessage` sends

In every run each routed message that expects a reply gets exactly one, on its channel and with the next
conversation index (`replies_run`). Its identifier is another matter: `NewReply` copies it from the
message, but the header is built from the routing info, for which `SendMessageAsync` takes a new one. The
reply carries the message's identifier only where the counter happens to be there
(`repliesContinue_of_counterAtReply`).
-/

namespace IDevice

namespace Parsing

/-- The message that the loop body is about, which is the last routed one. -/
def current : Parsing → Option Incoming
  | invoked m _ _ _ => some m
  | replying m _ _ => some m
  | replyTaken _ m _ _ => some m
  | _ => none

/-- The loop body is inside `ReplyMessage`. -/
def mustReply : Parsing → Bool
  | replying .. => true
  | replyTaken .. => true
  | _ => false

end Parsing

namespace Connection

variable {KAValue : Type} {archivedData : KAValue → Bytes} {s t : Connection KAValue}

/-- The calls that have pushed their message, in this order. -/
def outgoing (s : Connection KAValue) : List Nat := s.sent.map (·.call) ++ s.sendQueue.map (·.call)

/-- How many replies to the routed message with this position have been queued. -/
def repliesTo (s : Connection KAValue) (i : Nat) : Nat :=
  s.outgoing.countP fun c => s.calls[c]?.map (·.kind) = some (.reply i)

/-- The routed messages that the loop of the parsing thread is through with. -/
def handledCount (s : Connection KAValue) : Nat :=
  if s.parsing.current.isSome then s.routed.length - 1 else s.routed.length

/-- What is expected of `ReplyMessage`. -/
structure RepliesContinue (s : Connection KAValue) : Prop where
  queued : ∀ i d, s.routed[i]? = some d →
    s.repliesTo i = if d.message.expectsReply = true ∧ i < s.handledCount then 1 else 0
  header : ∀ e ∈ s.sent, ∀ x i d, s.calls[e.call]? = some x → x.kind = .reply i →
    s.routed[i]? = some d → e.header.identifier = d.message.identifier ∧
      e.header.channelCode = d.message.channelCode ∧
      e.header.conversationIndex = d.message.conversationIndex + 1 ∧ e.header.expectsReply = 0

/-- `ReplyMessage` takes its identifier when the counter stands at the identifier of the message. -/
def CounterAtReply (s : Connection KAValue) : Label KAValue → Prop
  | .replyTake =>
    match s.parsing with
    | .replying m _ _ => s.nextMsgIdentifier = m.identifier
    | _ => True
  | _ => True

instance (s : Connection KAValue) (a : Label KAValue) : Decidable (CounterAtReply s a) := by
  rcases a with ⟨⟩ <;> dsimp only [CounterAtReply]
  case replyTake => rcases s.parsing with ⟨⟩ <;> infer_instance
  all_goals infer_instance

/-- Replies belong to routed messages, and there is one for each that expects it. -/
structure Replies (s : Connection KAValue) : Prop where
  reply : ∀ (c : Nat) (x : Call KAValue) i, s.calls[c]? = some x → x.kind = .reply i → ∃ d,
    s.routed[i]? = some d ∧ x.routingInfo.channelCode = d.message.channelCode ∧
      x.routingInfo.conversationIndex = d.message.conversationIndex + 1
  queued : ∀ i d, s.routed[i]? = some d →
    s.repliesTo i = if d.message.expectsReply = true ∧ i < s.handledCount then 1 else 0
  about : ∀ m, s.parsing.current = some m →
    (∃ d, s.routed[s.routed.length - 1]? = some d ∧ d.message = m) ∧
      (s.parsing.mustReply = true → m.expectsReply = true)

theorem replies_init : Replies ({} : Connection KAValue) := by
  constructor <;> simp [Parsing.current]

theorem Recorded.pushed_of_outgoing (h : Recorded s) {c : Nat} (hc : c ∈ s.outgoing) :
    s.stage c ≠ .taken := by
  rcases List.mem_append.mp hc with hc | hc
  · obtain ⟨e, he, rfl⟩ := List.mem_map.mp hc
    exact (h.sent e he).1
  · obtain ⟨q, hq, rfl⟩ := List.mem_map.mp hc
    exact (h.queued q hq).1

theorem repliesTo_eq (hcalls : ∀ c ∈ s.outgoing, t.calls[c]? = s.calls[c]?)
    (hout : t.outgoing = s.outgoing) (i : Nat) : t.repliesTo i = s.repliesTo i := by
  unfold repliesTo
  rw [hout]
  exact List.countP_congr fun c hc => by rw [hcalls c hc]

theorem repliesTo_takeIdentifier (hrec : Recorded s) (kind : CallKind) (message : DTXMessage KAValue)
    (i : Nat) : (s.takeIdentifier kind message).repliesTo i = s.repliesTo i :=
  repliesTo_eq (t := s.takeIdentifier kind message)
    (fun _ hc => hrec.getElem?_eq (List.prefix_append _ _) (hrec.pushed_of_outgoing hc)) rfl i

/-- A push adds a reply where the call is one. -/
theorem repliesTo_pushMessage {c : Nat} {x : Call KAValue} (hx : s.calls[c]? = some x) (i : Nat) :
    (s.pushMessage c x).repliesTo i = s.repliesTo i + if x.kind = .reply i then 1 else 0 := by
  have hout : (s.pushMessage c x).outgoing = s.outgoing ++ [c] := by
    simp [outgoing, pushMessage]
  unfold repliesTo
  rw [hout, List.countP_append]
  simp [pushMessage, hx, List.countP_singleton]

/-- Steps outside the loop body and the send queue. -/
theorem Replies.of_eq (h : Replies s) (hcalls : t.calls = s.calls) (hout : t.outgoing = s.outgoing)
    (hrouted : t.routed = s.routed) (hcurrent : t.parsing.current = s.parsing.current)
    (hmust : t.parsing.mustReply = s.parsing.mustReply) : Replies t := by
  refine ⟨?_, ?_, ?_⟩
  · rw [hcalls, hrouted]
    exact h.reply
  · intro i d hd
    rw [repliesTo_eq (fun c _ => by rw [hcalls]) hout, handledCount, hcurrent, hrouted]
    exact h.queued i d (hrouted ▸ hd)
  · intro m hm
    rw [hrouted, hmust]
    exact h.about m (hcurrent ▸ hm)

/-- A new call that is no reply. -/
theorem replies_take (hrec : Recorded s) (h : Replies s) {kind : CallKind}
    (hkind : ∀ n, kind ≠ .reply n) (message : DTXMessage KAValue) :
    Replies (s.takeIdentifier kind message) := by
  refine ⟨?_, fun i d hd => (repliesTo_takeIdentifier hrec kind message i).trans (h.queued i d hd), h.about⟩
  intro c x i hx hk
  rcases getElem?_concat_eq_some.mp hx with hx | ⟨-, rfl⟩
  · exact h.reply c x i hx hk
  · exact absurd hk (hkind i)

/-- The routed message has no reply yet. -/
theorem Replies.routeMessage (h : Replies s) {m : Incoming} {rest : List Incoming} {maxId : UInt32}
    (hp : s.parsing = .batch (m :: rest) maxId) : Replies (s.routeMessage m rest maxId) := by
  have hcount : (s.routeMessage m rest maxId).handledCount = s.handledCount := by
    simp [handledCount, Connection.routeMessage, hp, Parsing.current]
  refine ⟨?_, ?_, ?_⟩
  · intro c x i hx hk
    obtain ⟨d, hd, hr⟩ := h.reply c x i hx hk
    exact ⟨d, getElem?_of_isPrefix (List.prefix_append _ _) hd, hr⟩
  · intro i d hd
    rw [hcount]
    rcases getElem?_concat_eq_some.mp hd with hd | ⟨rfl, rfl⟩
    · exact h.queued i d hd
    · -- replies belong to messages that have been routed, and this one has not
      have hlen : s.handledCount = s.routed.length := by simp [handledCount, hp, Parsing.current]
      rw [hlen, if_neg (fun hc => lt_irrefl _ hc.2)]
      refine List.countP_eq_zero.mpr ?_
      intro c _ hc
      obtain ⟨x, hx, hk⟩ := Option.map_eq_some_iff.mp (of_decide_eq_true hc)
      obtain ⟨d, hd, -⟩ := h.reply c x _ hx hk
      exact absurd (List.getElem?_eq_some_iff.mp hd).1 (lt_irrefl _)
  · intro m' hm'
    obtain rfl : m = m' := Option.some.inj hm'
    exact ⟨⟨_, getElem?_concat_eq_some.mpr (.inr ⟨by simp [Connection.routeMessage], rfl⟩), rfl⟩,
      by simp [Connection.routeMessage, Parsing.mustReply]⟩

theorem Replies.finishRoute (h : Replies s) {m : Incoming} {found : Option Nat} {rest : List Incoming}
    {maxId : UInt32} (hp : s.parsing = .invoked m found rest maxId) :
    Replies (s.finishRoute m found rest maxId) := by
  obtain ⟨⟨d, hd, rfl⟩, -⟩ := h.about m (by rw [hp]; rfl)
  have hcount : s.handledCount = s.routed.length - 1 := by simp [handledCount, hp, Parsing.current]
  refine ⟨h.reply, ?_, ?_⟩
  · intro i d' hd'
    refine (h.queued i d' hd').trans ?_
    cases he : d.message.expectsReply with
    | true => simp [handledCount, Connection.finishRoute, hp, he, Parsing.current]
    | false =>
        -- the message counts as handled now, and expects nothing
        have hcount' : (s.finishRoute d.message found rest maxId).handledCount = s.routed.length := by
          simp [handledCount, Connection.finishRoute, he, Parsing.current]
        rw [hcount, hcount']
        refine if_congr (and_congr_right fun he' => ?_) rfl rfl
        have hlt : i < s.routed.length := (List.getElem?_eq_some_iff.mp hd').1
        have hne : i ≠ s.routed.length - 1 := by
          rintro rfl
          rw [Option.some.inj (hd'.symm.trans hd), he] at he'
          cases he'
        omega
  · intro m' hm'
    cases he : d.message.expectsReply with
    | true =>
        simp only [Connection.finishRoute, he, if_true, Parsing.current, Option.some.injEq] at hm'
        exact ⟨⟨d, hd, hm'⟩, fun _ => hm' ▸ he⟩
    | false => simp [Connection.finishRoute, he, Parsing.current] at hm'

/-- `NewReply` and the routing info keep the channel and count the conversation on. -/
theorem replies_replyTake (hrec : Recorded s) (h : Replies s) {m : Incoming} {rest : List Incoming}
    {maxId : UInt32} (hp : s.parsing = .replying m rest maxId) :
    Replies { s.takeIdentifier (.reply (s.routed.length - 1)) (DTXMessage.newReply m.toMessage) with
      parsing := .replyTaken s.calls.length m rest maxId } := by
  obtain ⟨⟨d, hd, rfl⟩, hmust⟩ := h.about m (by rw [hp]; rfl)
  rw [hp] at hmust
  refine ⟨?_, ?_, ?_⟩
  · intro c x i hx hk
    rcases getElem?_concat_eq_some.mp hx with hx | ⟨-, rfl⟩
    · exact h.reply c x i hx hk
    · obtain rfl : s.routed.length - 1 = i := CallKind.reply.inj hk
      exact ⟨d, hd, rfl, rfl⟩
  · intro i d' hd'
    refine (repliesTo_takeIdentifier hrec _ _ i).trans ?_
    simpa [handledCount, hp, Parsing.current, takeIdentifier] using h.queued i d' hd'
  · intro m' hm'
    obtain rfl : d.message = m' := Option.some.inj hm'
    exact ⟨⟨d, hd, rfl⟩, fun _ => hmust rfl⟩

/-- The reply is queued, and the loop is through with the message. -/
theorem replies_replyPush (hrec : Recorded s) (h : Replies s) {c : Nat} {m : Incoming}
    {rest : List Incoming} {maxId maxId' : UInt32} {x : Call KAValue}
    (hp : s.parsing = .replyTaken c m rest maxId) (hx : s.calls[c]? = some x) :
    Replies { s.pushMessage c x with parsing := .batch rest maxId' } := by
  obtain ⟨⟨d, hd, rfl⟩, hmust⟩ := h.about m (by rw [hp]; rfl)
  rw [hp] at hmust
  obtain ⟨-, y, hy, hkind⟩ := hrec.replying c d.message rest maxId hp
  obtain rfl := Option.some.inj (hx.symm.trans hy)
  have hcount : s.handledCount = s.routed.length - 1 := by simp [handledCount, hp, Parsing.current]
  refine ⟨h.reply, ?_, by simp [Parsing.current]⟩
  intro i d' hd'
  refine (repliesTo_pushMessage hx i).trans ?_
  have hlt : i < s.routed.length := (List.getElem?_eq_some_iff.mp hd').1
  rw [h.queued i d' hd', hcount, hkind]
  simp only [handledCount, Parsing.current, pushMessage, Option.isSome_none, Bool.false_eq_true, if_false,
    CallKind.reply.injEq]
  by_cases hi : i = s.routed.length - 1
  · -- the reply that is being queued
    subst hi
    obtain rfl := Option.some.inj (hd'.symm.trans hd)
    simp [hmust rfl, hlt]
  · have hlt' : i < s.routed.length - 1 := by omega
    simp [hlt, hlt', Ne.symm hi]

theorem replies_step {a : Label KAValue} (hrec : Recorded s) (h : Replies s)
    (hstep : step archivedData s a = some t) : Replies t := by
  have hkeeps := keeps_step hstep
  have hc := step_cases hstep
  cases a with
  | take kind message => obtain ⟨hkind, rfl⟩ := hc; exact replies_take hrec h hkind message
  | push c =>
      obtain ⟨x, hx, hkind, -, rfl⟩ := hc
      refine ⟨h.reply, fun i d hd => ?_, h.about⟩
      rw [repliesTo_pushMessage hx, if_neg (hkind i)]
      exact h.queued i d hd
  | transmit =>
      obtain ⟨q, rest, hq, rfl⟩ := hc
      exact h.of_eq rfl (by simp [outgoing, hq]) rfl rfl rfl
  | route => obtain ⟨m, rest, maxId, hp, rfl⟩ := hc; exact h.routeMessage hp
  | finish => obtain ⟨m, found, rest, maxId, hp, rfl⟩ := hc; exact h.finishRoute hp
  | replyTake => obtain ⟨m, rest, maxId, hp, rfl⟩ := hc; exact replies_replyTake hrec h hp
  | replyPush => obtain ⟨c, m, rest, maxId, x, hp, hx, rfl⟩ := hc; exact replies_replyPush hrec h hp hx
  | batch n => obtain ⟨hp, rfl⟩ := hc; exact h.of_eq rfl rfl rfl (by rw [hp]; rfl) (by rw [hp]; rfl)
  | load =>
      obtain ⟨maxId, hp, rfl⟩ := hc
      exact h.of_eq rfl rfl rfl (by rw [hp]; rfl) (by rw [hp]; rfl)
  | compareExchange spurious =>
      obtain ⟨prev, maxId, hp, ⟨-, -, rfl⟩ | ⟨-, rfl⟩ | ⟨-, rfl⟩⟩ := hc <;>
        exact h.of_eq rfl rfl rfl (by rw [hp]; rfl) (by rw [hp]; rfl)
  | _ =>
      have hparsing := hkeeps.parsing rfl
      have hout : t.outgoing = s.outgoing := by
        rw [outgoing, outgoing, hkeeps.sent rfl, hkeeps.sendQueue rfl]
      exact h.of_eq (hkeeps.calls rfl) hout (hkeeps.routed rfl)
        (congrArg Parsing.current hparsing) (congrArg Parsing.mustReply hparsing)

/-- **Every run replies once**: one reply to each handled message that expects one, on its channel and
    with the next conversation index. -/
theorem replies_run {as : List (Label KAValue)} (hrun : Machine.exec (step archivedData) {} as = some s) :
    Recorded s ∧ Replies s :=
  Machine.exec_invariant (fun s => Recorded s ∧ Replies s) ⟨recorded_init, replies_init⟩ hrun
    fun _ _ _ hs hstep => ⟨recorded_step hs.1 hstep, replies_step hs.1 hs.2 hstep⟩

/-! ## The identifier of a reply -/

/-- The identifier of a reply is that of the message. -/
def SameIdentifier (s : Connection KAValue) : Prop :=
  ∀ (c : Nat) (x : Call KAValue) i d, s.calls[c]? = some x → x.kind = .reply i → s.routed[i]? = some d →
    x.routingInfo.msgIdentifier = d.message.identifier

theorem sameIdentifier_step {a : Label KAValue} (hreplies : Replies s) (h : SameIdentifier s)
    (hguard : CounterAtReply s a) (hstep : step archivedData s a = some t) : SameIdentifier t := by
  -- a reply that was there belongs to a message that was there
  have hold : ∀ (c : Nat) (x : Call KAValue) i d, s.calls[c]? = some x → x.kind = .reply i →
      t.routed[i]? = some d → x.routingInfo.msgIdentifier = d.message.identifier := by
    intro c x i d hx hk hd
    obtain ⟨d', hd', -⟩ := hreplies.reply c x i hx hk
    obtain rfl := Option.some.inj (hd.symm.trans (getElem?_of_isPrefix (routed_isPrefix hstep) hd'))
    exact h c x i d hx hk hd'
  intro c x i d hx hk hd
  rcases calls_step hstep with heq | ⟨kind, message, rfl, hkind, rfl⟩ | ⟨rfl, m, rest, maxId, hp, rfl⟩
  · exact hold c x i d (heq ▸ hx) hk hd
  · rcases getElem?_concat_eq_some.mp hx with hx | ⟨-, rfl⟩
    · exact hold c x i d hx hk hd
    · exact absurd hk (hkind i)
  · rcases getElem?_concat_eq_some.mp hx with hx | ⟨-, rfl⟩
    · exact hold c x i d hx hk hd
    · obtain rfl : s.routed.length - 1 = i := CallKind.reply.inj hk
      obtain ⟨⟨d', hd', rfl⟩, -⟩ := hreplies.about m (by rw [hp]; rfl)
      obtain rfl := Option.some.inj (hd.symm.trans hd')
      simp only [CounterAtReply, hp] at hguard
      exact hguard

theorem Replies.repliesContinue (hrec : Recorded s) (h : Replies s) (hsame : SameIdentifier s) :
    RepliesContinue s := by
  refine ⟨h.queued, ?_⟩
  intro e he x i d hx hk hd
  obtain ⟨-, y, length, pieces, hy, hheader⟩ := hrec.sent e he
  obtain rfl := Option.some.inj (hx.symm.trans hy)
  obtain ⟨d', hd', hchannel, hconversation⟩ := h.reply e.call x i hx hk
  obtain rfl := Option.some.inj (hd.symm.trans hd')
  have hexpects := hrec.expects x (List.mem_of_getElem? hx)
  rw [hk] at hexpects
  rw [hheader]
  exact ⟨hsame e.call x i d hx hk hd, hchannel, hconversation, hexpects⟩

/-- **Replies continue the conversation they answer** in a run in which the counter stands at the
    identifier of the message whenever a reply takes it. -/
theorem repliesContinue_of_counterAtReply {as : List (Label KAValue)}
    (hguard : Machine.Follows (step archivedData) CounterAtReply {} as)
    (hrun : Machine.exec (step archivedData) {} as = some s) : RepliesContinue s := by
  have hinv := Machine.follows_invariant (fun s => (Recorded s ∧ Replies s) ∧ SameIdentifier s)
    ⟨⟨recorded_init, replies_init⟩, by simp [SameIdentifier]⟩ hguard hrun fun s a t hs hg hstep =>
      ⟨⟨recorded_step hs.1.1 hstep, replies_step hs.1.1 hs.1.2 hstep⟩,
        sameIdentifier_step hs.1.2 hs.2 hg hstep⟩
  exact hinv.1.2.repliesContinue hinv.1.1 hinv.2

/-- What is queued is transmitted after what is queued before it. -/
theorem exec_transmit (archivedData : KAValue → Bytes) {s : Connection KAValue}
    {before after : List (Queued KAValue)} {q : Queued KAValue} (hq : s.sendQueue = before ++ q :: after) :
    ∃ u, Machine.exec (step archivedData) s (List.replicate (before.length + 1) .transmit) = some u ∧
      u.calls = s.calls ∧ u.routed = s.routed ∧ ⟨transmittedHeader archivedData q, q.call⟩ ∈ u.sent := by
  induction before generalizing s with
  | nil =>
      refine ⟨{ s with sendQueue := after, sent := s.sent ++ [⟨transmittedHeader archivedData q, q.call⟩] },
        ?_, rfl, rfl, by simp⟩
      rw [List.nil_append] at hq
      simp [Machine.exec, step, hq]
  | cons q' before ih =>
      rw [List.cons_append] at hq
      obtain ⟨u, hu, hcalls, hrouted, hsent⟩ := ih
        (s := { s with sendQueue := before ++ q :: after,
                       sent := s.sent ++ [⟨transmittedHeader archivedData q', q'.call⟩] }) rfl
      refine ⟨u, ?_, hcalls, hrouted, hsent⟩
      rw [List.length_cons, List.replicate_succ, Machine.exec_cons_eq_some]
      exact ⟨_, by simp only [step, hq], hu⟩

/-- The condition is exact: a reply that takes another identifier is transmitted under it. -/
theorem exec_not_repliesContinue (hreplies : Replies s) {m : Incoming} {rest : List Incoming}
    {maxId : UInt32} (hp : s.parsing = .replying m rest maxId) (hne : s.nextMsgIdentifier ≠ m.identifier) :
    ∃ as u, Machine.exec (step archivedData) s (.replyTake :: .replyPush :: as) = some u ∧
      ¬ RepliesContinue u := by
  obtain ⟨⟨d, hd, rfl⟩, -⟩ := hreplies.about m (by rw [hp]; rfl)
  obtain ⟨t, ht⟩ : ∃ t, step archivedData s .replyTake = some t := by simp [step, hp]
  obtain ⟨m', rest', maxId', hp', heq⟩ := step_cases ht
  obtain ⟨rfl, rfl, rfl⟩ := Parsing.replying.inj (hp.symm.trans hp')
  have hparsing : t.parsing = .replyTaken s.calls.length d.message rest maxId := by rw [heq]
  have hrouted : t.routed = s.routed := by rw [heq]; rfl
  obtain ⟨x, hx, hkind, hid⟩ : ∃ x, t.calls[s.calls.length]? = some x ∧
      x.kind = .reply (s.routed.length - 1) ∧ x.routingInfo.msgIdentifier = s.nextMsgIdentifier := by
    rw [heq]
    exact ⟨_, List.getElem?_concat_length, rfl, rfl⟩
  have hpush : step archivedData t .replyPush = some { t.pushMessage s.calls.length x with
      parsing := .batch rest (max maxId d.message.identifier) } := by
    simp only [step, hparsing, hx]
  have hqueue : Connection.sendQueue { t.pushMessage s.calls.length x with
      parsing := .batch rest (max maxId d.message.identifier) } =
    t.sendQueue ++ [⟨x.message, x.routingInfo, s.calls.length⟩] := rfl
  -- the send thread transmits what is queued, the reply last
  obtain ⟨u, hu, hcalls', hrouted', hsent⟩ := exec_transmit archivedData hqueue
  refine ⟨_, u, Machine.exec_cons_eq_some.mpr ⟨_, ht, Machine.exec_cons_eq_some.mpr ⟨_, hpush, hu⟩⟩, ?_⟩
  intro h
  have hux : u.calls[s.calls.length]? = some x := by rw [hcalls']; exact hx
  have hud : u.routed[s.routed.length - 1]? = some d := by rw [hrouted', ← hd, ← hrouted]; rfl
  have hheader := (h.header _ hsent x _ d hux hkind hud).1
  exact hne (hid.symm.trans hheader)

/-- The first message of the session comes from the device and expects a reply; one that does not
    follows. -/
def replyToFirst : List (Label Unit) :=
  [.initiate ⟨1, 5, 2, true, none⟩, .initiate ⟨9, 0, 2, false, none⟩, .batch 2, .route, .finish, .replyTake,
    .replyPush, .route, .finish, .transmit]

theorem repliesContinue_replyToFirst : ∃ s : Connection Unit,
    Machine.exec (step fun _ => []) {} replyToFirst = some s ∧
    (s.repliesTo 0, s.repliesTo 1, s.sent.map (·.header.identifier)) = (1, 0, [1]) ∧
    RepliesContinue s := by
  obtain ⟨s, hs, hsent⟩ := Option.map_eq_some_iff.mp
    (show (Machine.exec (step fun _ => []) {} replyToFirst).map
      (fun s => (s.repliesTo 0, s.repliesTo 1, s.sent.map (·.header.identifier))) = some (1, 0, [1]) by
        decide +kernel)
  exact ⟨s, hs, hsent, repliesContinue_of_counterAtReply (by decide +kernel) hs⟩

/-- A message with another identifier than the counter's expects a reply. -/
def replyToOther : List (Label Unit) :=
  [.initiate ⟨7, 0, 0, true, none⟩, .batch 1, .route, .finish, .replyTake, .replyPush, .transmit]

/-- The reply to message 7 is sent under the identifier 1. -/
theorem not_repliesContinue_replyToOther : ∃ s : Connection Unit,
    Machine.exec (step fun _ => []) {} replyToOther = some s ∧ ¬ RepliesContinue s := by
  obtain ⟨s, hs, hobs⟩ := Option.map_eq_some_iff.mp
    (show (Machine.exec (step fun _ => []) {} replyToOther).map
      (fun s => (s.sent.map fun e => (e.header.identifier, e.call), s.calls.map (·.kind),
        s.routed.map (·.message.identifier))) = some ([(1, 0)], [.reply 0], [7]) by decide +kernel)
  simp only [Prod.mk.injEq] at hobs
  obtain ⟨hsent, hcalls, hrouted⟩ := hobs
  refine ⟨s, hs, fun h => ?_⟩
  obtain ⟨e, hse, he⟩ := List.map_eq_singleton_iff.mp hsent
  obtain ⟨x, hsx, hx⟩ := List.map_eq_singleton_iff.mp hcalls
  obtain ⟨d, hsd, hd⟩ := List.map_eq_singleton_iff.mp hrouted
  injection he with hid hcall
  have hheader := h.header e (by rw [hse]; simp) x 0 d (by rw [hsx, hcall]; rfl) hx (by rw [hsd]; rfl)
  rw [hid, hd] at hheader
  exact absurd hheader.1 (by decide)

end Connection
end IDevice
