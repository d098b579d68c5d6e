import IDevice.Connection.Handlers

/-!
# `Connection.Routing` — the reply and the callback it is routed to

`RouteMessage` finds a callback by channel code and identifier, in the table into which
`SendMessageAsync` inserts it *after* it has pushed the message. Two things can therefore go wrong, and
the two halves of this module say when they do not:

* the answer is routed before the handler is inserted, or the insertion is refused
  (`repliesFound_of_registersFirst`);
* a message that is no answer, or the answer to another call, carries the key of a registered handler
  (`ownReplies_of_keysApart`).
-/

namespace IDevice
namespace Connection

variable {KAValue : Type} {archivedData : KAValue → Bytes} {s t : Connection KAValue}

/-! ## No reply is lost -/

/-- Every routed answer has gone to the callback of the call that it answers. -/
def RepliesFound (s : Connection KAValue) : Prop :=
  ∀ d ∈ s.routed, ∀ c, d.message.answers = some c → d.receiver = .callback c

/-- A handler is inserted where no other one stands, and before the answer is routed. A message that is
    no answer finds no handler. -/
def RegistersFirst (s : Connection KAValue) : Label KAValue → Prop
  | .insert c =>
    match s.calls[c]? with
    | some x => s.handlersByIdentifier x.key = none
    | none => True
  | .route =>
    match s.parsing with
    | .batch (m :: _) _ =>
      match m.answers with
      | some c => s.stage c = .done
      | none => s.handlersByIdentifier m.key = none
    | _ => True
  | _ => True

instance (s : Connection KAValue) (a : Label KAValue) : Decidable (RegistersFirst s a) := by
  rcases a with ⟨⟩ <;> dsimp only [RegistersFirst]
  case insert c => rcases s.calls[c]? with ⟨⟩ <;> infer_instance
  case route =>
    rcases s.parsing with _ | ⟨_ | ⟨m, _⟩, _⟩ <;> try infer_instance
    dsimp only
    rcases m.answers with ⟨⟩ <;> infer_instance
  all_goals infer_instance

/-- A call that is through with `SendMessageAsync` has its handler in the table until its answer has
    been routed. -/
structure Registered (s : Connection KAValue) : Prop where
  registered : ∀ c x, s.calls[c]? = some x → x.kind.hasCallback = true → s.stage c = .done →
    s.AnswerRouted c ∨ s.handlersByIdentifier x.key = some c
  erasing : ∀ m c rest maxId, s.parsing = .invoked m (some c) rest maxId →
    s.AnswerRouted c ∧ s.handlersByIdentifier m.key = some c
  found : RepliesFound s

theorem registered_init : Registered ({} : Connection KAValue) := by
  constructor <;> simp [RepliesFound]

/-- The invariant looks at the handlers, at the calls that have pushed, and at what has been routed. -/
theorem Registered.of_eq (h : Registered s)
    (hcalls : ∀ c, s.stage c ≠ .taken → t.calls[c]? = s.calls[c]?) (hstage : t.stage = s.stage)
    (hhandlers : t.handlersByIdentifier = s.handlersByIdentifier) (hrouted : t.routed = s.routed)
    (hparsing : ∀ m f rest maxId, t.parsing = .invoked m f rest maxId →
      s.parsing = .invoked m f rest maxId) : Registered t := by
  have hanswer : ∀ c, s.AnswerRouted c → t.AnswerRouted c := by
    intro c hc
    simpa only [AnswerRouted, hrouted] using hc
  refine ⟨?_, ?_, ?_⟩
  · intro c x hx hhas hdone
    rw [hstage] at hdone
    rw [hcalls c (by simp [hdone])] at hx
    rw [hhandlers]
    exact (h.registered c x hx hhas hdone).imp_left (hanswer c)
  · intro m c rest maxId hp
    rw [hhandlers]
    exact ⟨hanswer c (h.erasing m c rest maxId (hparsing _ _ _ _ hp)).1,
      (h.erasing m c rest maxId (hparsing _ _ _ _ hp)).2⟩
  · intro d hd
    exact h.found d (hrouted ▸ hd)

/-- A call with a callback is not through when it has pushed its message. -/
theorem Registered.pushMessage (h : Registered s) {c : Nat} {x : Call KAValue}
    (hx : s.calls[c]? = some x) : Registered (s.pushMessage c x) := by
  refine ⟨?_, h.erasing, h.found⟩
  intro c' y hy hhas hdone
  by_cases hcc : c' = c
  · subst hcc
    obtain rfl := Option.some.inj (hx.symm.trans hy)
    simp [Connection.pushMessage, hhas] at hdone
  · exact h.registered c' y hy hhas ((Function.update_of_ne hcc _ _).symm.trans hdone)

theorem Registered.insertHandler (h : Registered s) {c : Nat} {x : Call KAValue}
    (hx : s.calls[c]? = some x) (hfree : s.handlersByIdentifier x.key = none) :
    Registered (s.insertHandler c x) := by
  have hkept : ∀ k f, s.handlersByIdentifier k = some f →
      (s.insertHandler c x).handlersByIdentifier k = some f := by
    intro k f hk
    rw [insertHandler_apply, if_neg, hk]
    rintro ⟨rfl, -⟩
    rw [hfree] at hk
    cases hk
  refine ⟨?_, fun m f rest maxId hp => ?_, h.found⟩
  · intro c' y hy hhas hdone
    by_cases hcc : c' = c
    · subst hcc
      obtain rfl := Option.some.inj (hx.symm.trans hy)
      exact .inr (by rw [insertHandler_apply, if_pos ⟨rfl, hfree⟩])
    · exact (h.registered c' y hy hhas ((Function.update_of_ne hcc _ _).symm.trans hdone)).imp_right
        (hkept _ _)
  · exact ⟨(h.erasing m f rest maxId hp).1, hkept _ _ (h.erasing m f rest maxId hp).2⟩

/-- The step that counts: the handler under the key of an answer is the one of the call it answers. -/
theorem Registered.routeMessage (hvalid : Valid s) (h : Registered s) {m : Incoming}
    {rest : List Incoming} {maxId : UInt32} (hp : s.parsing = .batch (m :: rest) maxId)
    (hguard : RegistersFirst s .route) : Registered (s.routeMessage m rest maxId) := by
  simp only [RegistersFirst, hp] at hguard
  have hanswer : ∀ c, s.AnswerRouted c → (s.routeMessage m rest maxId).AnswerRouted c := by
    rintro c ⟨d, hd, hdc⟩
    exact ⟨d, List.mem_append_left _ hd, hdc⟩
  -- the answer carries the key of its call, and it is the first one
  have hown : ∀ c, m.answers = some c → s.handlersByIdentifier m.key = some c := by
    intro c hm
    rw [hm] at hguard
    obtain ⟨-, -, x, hx, hhas, hkey⟩ := hvalid.received.answers m (mem_received_of_batch hp) c hm
    rw [hkey]
    exact (h.registered c x hx hhas hguard).resolve_left (hvalid.received.not_answerRouted hp hm)
  refine ⟨?_, ?_, ?_⟩
  · intro c x hx hhas hdone
    exact (h.registered c x hx hhas hdone).imp_left (hanswer c)
  · intro m' f rest' maxId' hp'
    injection hp' with hmm hf
    subst hmm
    refine ⟨?_, hf⟩
    cases hm : m.answers with
    | none =>
        rw [hm, hf] at hguard
        cases hguard
    | some c =>
        obtain rfl := Option.some.inj ((hown c hm).symm.trans hf)
        exact ⟨_, List.mem_append_right _ (List.mem_singleton_self _), hm⟩
  · intro d hd c hdc
    rcases List.mem_append.mp hd with hd | hd
    · exact h.found d hd c hdc
    · obtain rfl := List.mem_singleton.mp hd
      simp only [receiver, hown c hdc]

theorem Registered.finishRoute (h : Registered s) {m : Incoming} {found : Option Nat}
    {rest : List Incoming} {maxId : UInt32} (hp : s.parsing = .invoked m found rest maxId) :
    Registered (s.finishRoute m found rest maxId) := by
  refine ⟨?_, ?_, h.found⟩
  · intro c x hx hhas hdone
    by_cases hanswer : s.AnswerRouted c
    · exact .inl hanswer
    have hc := (h.registered c x hx hhas hdone).resolve_left hanswer
    refine .inr ?_
    cases found with
    | none => exact hc
    | some f =>
        -- the handler that is erased is the one whose answer has been routed
        have hne : x.key ≠ m.key := by
          intro hkey
          obtain ⟨hf, hm⟩ := h.erasing m f rest maxId hp
          obtain rfl := Option.some.inj ((hkey ▸ hc).symm.trans hm)
          exact hanswer hf
        simp only [Connection.finishRoute, Option.isSome_some, if_true]
        rw [Function.update_of_ne hne, hc]
  · intro m' f rest' maxId' hp'
    simp only [Connection.finishRoute] at hp'
    split at hp' <;> cases hp'

theorem registered_step {a : Label KAValue} (hvalid : Valid s) (h : Registered s)
    (hguard : RegistersFirst s a) (hstep : step archivedData s a = some t) : Registered t := by
  have hcalls : ∀ c, s.stage c ≠ .taken → t.calls[c]? = s.calls[c]? :=
    fun c => hvalid.recorded.getElem?_eq (calls_isPrefix hstep)
  have hkeeps := keeps_step hstep
  have hc := step_cases hstep
  cases a with
  | push c => obtain ⟨x, hx, -, -, rfl⟩ := hc; exact h.pushMessage hx
  | insert c =>
      obtain ⟨x, hx, -, rfl⟩ := hc
      simp only [RegistersFirst, hx] at hguard
      exact h.insertHandler hx hguard
  | route => obtain ⟨m, rest, maxId, hp, rfl⟩ := hc; exact h.routeMessage hvalid hp hguard
  | finish => obtain ⟨m, found, rest, maxId, hp, rfl⟩ := hc; exact h.finishRoute hp
  | replyPush =>
      obtain ⟨c, m, rest, maxId, x, -, hx, rfl⟩ := hc
      exact (h.pushMessage hx).of_eq (fun _ _ => rfl) rfl rfl rfl (by simp)
  | replyTake => obtain ⟨m, rest, maxId, -, rfl⟩ := hc; exact h.of_eq hcalls rfl rfl rfl (by simp)
  | batch n => obtain ⟨-, rfl⟩ := hc; exact h.of_eq hcalls rfl rfl rfl (by simp)
  | load => obtain ⟨maxId, -, rfl⟩ := hc; exact h.of_eq hcalls rfl rfl rfl (by simp)
  | compareExchange spurious =>
      obtain ⟨prev, maxId, -, ⟨-, -, rfl⟩ | ⟨-, rfl⟩ | ⟨-, rfl⟩⟩ := hc <;>
        exact h.of_eq hcalls rfl rfl rfl (by simp)
  | _ =>
      exact h.of_eq hcalls (hkeeps.stage rfl) (hkeeps.handlers rfl) (hkeeps.routed rfl)
        fun _ _ _ _ hp => (hkeeps.parsing rfl).symm.trans hp

/-- **No reply is lost** in a run in which every handler is inserted before its answer is routed, and
    under a key of its own. -/
theorem repliesFound_of_registersFirst {as : List (Label KAValue)}
    (hguard : Machine.Follows (step archivedData) RegistersFirst {} as)
    (hrun : Machine.exec (step archivedData) {} as = some s) : RepliesFound s := by
  have hinv := Machine.follows_invariant (fun s => Valid s ∧ Registered s) ⟨valid_init, registered_init⟩ hguard
    hrun fun s a t hs hg hstep => ⟨valid_step hs.1 hstep, registered_step hs.1 hs.2 hg hstep⟩
  exact hinv.2.found

/-- The condition is exact where an answer is routed: before the insertion its callback is not found. -/
theorem not_repliesFound_routeMessage (hvalid : Valid s) {m : Incoming} {rest : List Incoming}
    {maxId : UInt32} {c : Nat} (hm : m.answers = some c) (hstage : s.stage c ≠ .done) :
    ¬ RepliesFound (s.routeMessage m rest maxId) := by
  intro hfound
  have hreceiver : s.receiver m = .callback c :=
    hfound _ (List.mem_append_right _ (List.mem_singleton_self _)) c hm
  rw [receiver] at hreceiver
  cases hk : s.handlersByIdentifier m.key with
  | none =>
      rw [hk] at hreceiver
      simp only at hreceiver
      split at hreceiver <;> cases hreceiver
  | some f =>
      rw [hk] at hreceiver
      injection hreceiver with hf
      exact hstage (hf ▸ (hvalid.handled.handler _ _ hk).1)

/-- The handler is inserted, then the answer arrives. -/
def insertFirst : List (Label Unit) :=
  [.take (.async true) {}, .push 0, .transmit, .insert 0, .answer 0 1 false, .batch 1, .route, .finish]

theorem repliesFound_insertFirst : ∃ s : Connection Unit,
    Machine.exec (step fun _ => []) {} insertFirst = some s ∧ s.routed.length = 1 ∧ RepliesFound s := by
  obtain ⟨s, hs, hrouted⟩ := Option.map_eq_some_iff.mp
    (show (Machine.exec (step fun _ => []) {} insertFirst).map (·.routed.length) = some 1 by
      decide +kernel)
  exact ⟨s, hs, hrouted, repliesFound_of_registersFirst (by decide +kernel) hs⟩

/-- The answer overtakes the insertion. -/
def routeFirst : List (Label Unit) :=
  [.take (.async true) {}, .push 0, .transmit, .answer 0 1 false, .batch 1, .route, .finish, .insert 0]

/-- The answer is dropped, and its handler comes too late. -/
theorem not_repliesFound_routeFirst : ∃ s : Connection Unit,
    Machine.exec (step fun _ => []) {} routeFirst = some s ∧ ¬ RepliesFound s := by
  obtain ⟨s, hs, hrouted⟩ := Option.map_eq_some_iff.mp
    (show (Machine.exec (step fun _ => []) {} routeFirst).map (·.routed) =
      some [⟨⟨1, 1, 0, false, some 0⟩, .dropped, false⟩] by decide +kernel)
  refine ⟨s, hs, ?_⟩
  intro hfound
  have hreceiver := hfound ⟨⟨1, 1, 0, false, some 0⟩, .dropped, false⟩ (by rw [hrouted]; simp) 0 rfl
  cases hreceiver

/-! ## A callback receives its own reply -/

/-- Whatever a callback has been invoked with is the answer to its call. -/
def OwnReplies (s : Connection KAValue) : Prop :=
  ∀ d ∈ s.routed, ∀ c, d.receiver = .callback c → d.message.answers = some c

/-- A call with a callback and this key has been pushed and is not over: not through with
    `SendMessageAsync`, not yet answered, or still in the table. -/
def inFlight (s : Connection KAValue) (k : UInt64) (c : Nat) : Prop :=
  match s.calls[c]? with
  | some x => x.kind.hasCallback = true ∧ x.key = k ∧ s.stage c ≠ .taken ∧
      ¬ (s.stage c = .done ∧ s.AnswerRouted c ∧ s.handlersByIdentifier k ≠ some c)
  | none => False

instance (s : Connection KAValue) (k : UInt64) (c : Nat) : Decidable (s.inFlight k c) := by
  unfold inFlight
  split <;> infer_instance

/-- A request is pushed when no other one with its key is in flight, and a message that is no answer
    finds no handler. -/
def KeysApart (s : Connection KAValue) : Label KAValue → Prop
  | .push c =>
    match s.calls[c]? with
    | some x => ∀ r < s.calls.length, ¬ s.inFlight x.key r
    | none => True
  | .route =>
    match s.parsing with
    | .batch (m :: _) _ => m.answers = none → s.handlersByIdentifier m.key = none
    | _ => True
  | _ => True

instance (s : Connection KAValue) (a : Label KAValue) : Decidable (KeysApart s a) := by
  rcases a with ⟨⟩ <;> dsimp only [KeysApart]
  case push c => rcases s.calls[c]? with ⟨⟩ <;> infer_instance
  case route => rcases s.parsing with _ | ⟨_ | ⟨_, _⟩, _⟩ <;> infer_instance
  all_goals infer_instance

theorem inFlight_iff {k : UInt64} {c : Nat} : s.inFlight k c ↔ ∃ x, s.calls[c]? = some x ∧
    x.kind.hasCallback = true ∧ x.key = k ∧ s.stage c ≠ .taken ∧
      ¬ (s.stage c = .done ∧ s.AnswerRouted c ∧ s.handlersByIdentifier k ≠ some c) := by
  unfold inFlight
  cases s.calls[c]? <;> simp

theorem lt_of_inFlight {k : UInt64} {c : Nat} (h : s.inFlight k c) : c < s.calls.length := by
  obtain ⟨x, hx, -⟩ := inFlight_iff.mp h
  exact (List.getElem?_eq_some_iff.mp hx).1

/-- A call comes into flight by its push. -/
theorem inFlight_step {a : Label KAValue} (hrec : Recorded s) (hstep : step archivedData s a = some t)
    {k : UInt64} {c : Nat} (h : t.inFlight k c) : s.inFlight k c ∨ a = .push c := by
  obtain ⟨x, hx, hhas, hkey, hpushed, hover⟩ := inFlight_iff.mp h
  rcases pushed_step hrec hstep hx hhas hpushed with hs | hpush
  · rw [hrec.getElem?_eq (calls_isPrefix hstep) hs] at hx
    refine .inl (inFlight_iff.mpr ⟨x, hx, hhas, hkey, hs, ?_⟩)
    rintro ⟨hdone, hanswer, hfree⟩
    refine hover ⟨(stage_step hrec hstep c).2 hdone, hanswer.step hstep, fun hk => ?_⟩
    rcases handlers_step hstep hk with hk | hstage
    · exact hfree hk
    · rw [hdone] at hstage
      cases hstage
  · exact .inr hpush

/-- At most one call of a key is in flight. -/
structure Apart (s : Connection KAValue) : Prop where
  apart : ∀ k c r, s.inFlight k c → s.inFlight k r → c = r
  own : OwnReplies s

theorem apart_init : Apart ({} : Connection KAValue) := by
  constructor <;> simp [inFlight, OwnReplies]

/-- The step that counts: a handler that is found belongs to the call that the message answers. -/
theorem Apart.own_routeMessage (hvalid : Valid s) (h : Apart s) {m : Incoming} {rest : List Incoming}
    {maxId : UInt32} (hp : s.parsing = .batch (m :: rest) maxId) (hguard : KeysApart s .route) :
    OwnReplies (s.routeMessage m rest maxId) := by
  simp only [KeysApart, hp] at hguard
  intro d hd c hdc
  rcases List.mem_append.mp hd with hd | hd
  · exact h.own d hd c hdc
  obtain rfl := List.mem_singleton.mp hd
  have hfound : s.handlersByIdentifier m.key = some c := by
    simp only [receiver] at hdc
    cases hk : s.handlersByIdentifier m.key with
    | none => rw [hk] at hdc; simp only at hdc; split at hdc <;> cases hdc
    | some f => rw [hk] at hdc; injection hdc with hf; rw [hf]
  have hc : s.inFlight m.key c := by
    obtain ⟨hdone, x, hx, hhas, hkey⟩ := hvalid.handled.handler _ _ hfound
    exact inFlight_iff.mpr ⟨x, hx, hhas, hkey, by simp [hdone], fun hover => hover.2.2 hfound⟩
  cases hm : m.answers with
  | none =>
      -- a message that the device started finds no handler
      rw [hguard hm] at hfound
      cases hfound
  | some r =>
      -- the call it answers is in flight under the same key, and there is only one
      obtain ⟨-, hpushed, y, hy, hhas, hkey⟩ :=
        hvalid.received.answers m (mem_received_of_batch hp) r hm
      have hr : s.inFlight m.key r := inFlight_iff.mpr ⟨y, hy, hhas, hkey.symm, hpushed,
        fun hover => hvalid.received.not_answerRouted hp hm hover.2.1⟩
      rw [h.apart _ _ _ hc hr]

/-- A call that comes into flight is then the only one of its key. -/
theorem KeysApart.not_inFlight {c r : Nat} {k : UInt64} (hguard : KeysApart s (.push c))
    (hstep : step archivedData s (.push c) = some t) (hc : t.inFlight k c) : ¬ s.inFlight k r := by
  obtain ⟨x, hx, -, -, rfl⟩ := step_cases hstep
  obtain ⟨y, hy, -, hkey, -⟩ := inFlight_iff.mp hc
  obtain rfl := Option.some.inj (hx.symm.trans hy)
  simp only [KeysApart, hx, hkey] at hguard
  exact fun hr => hguard r (lt_of_inFlight hr) hr

theorem apart_step {a : Label KAValue} (hvalid : Valid s) (h : Apart s) (hguard : KeysApart s a)
    (hstep : step archivedData s a = some t) : Apart t := by
  refine ⟨?_, ?_⟩
  · intro k c r hc hr
    rcases inFlight_step hvalid.recorded hstep hc with hsc | rfl
    · rcases inFlight_step hvalid.recorded hstep hr with hsr | rfl
      · exact h.apart k c r hsc hsr
      · exact absurd hsc (hguard.not_inFlight hstep hr)
    · rcases inFlight_step hvalid.recorded hstep hr with hsr | hsr
      · exact absurd hsr (hguard.not_inFlight hstep hc)
      · injection hsr
  · rcases routed_step hstep with heq | ⟨rfl, m, rest, maxId, hp, rfl⟩
    · exact fun d hd => h.own d (heq ▸ hd)
    · exact h.own_routeMessage hvalid hp hguard

/-- **A callback only receives the reply to its own request** in a run in which requests in flight have
    different keys and a message that the device starts carries none of them. -/
theorem ownReplies_of_keysApart {as : List (Label KAValue)}
    (hguard : Machine.Follows (step archivedData) KeysApart {} as)
    (hrun : Machine.exec (step archivedData) {} as = some s) : OwnReplies s := by
  have hinv := Machine.follows_invariant (fun s => Valid s ∧ Apart s) ⟨valid_init, apart_init⟩ hguard hrun
    fun s a t hs hg hstep => ⟨valid_step hs.1 hstep, apart_step hs.1 hs.2 hg hstep⟩
  exact hinv.2.own

/-- Two requests are answered in the order in which they did not leave. -/
def answeredCrosswise : List (Label Unit) :=
  [.take (.async true) {}, .take (.sync 0) {}, .push 1, .insert 1, .push 0, .insert 0, .transmit, .transmit,
    .initiate ⟨7, 0, 0, false, none⟩, .answer 0 1 false, .answer 1 1 false, .batch 3, .route, .finish,
    .route, .finish, .route, .finish]

theorem ownReplies_answeredCrosswise : ∃ s : Connection Unit,
    Machine.exec (step fun _ => []) {} answeredCrosswise = some s ∧
    s.routed.map (·.receiver) = [.dropped, .callback 0, .callback 1] ∧ OwnReplies s := by
  obtain ⟨s, hs, hrouted⟩ := Option.map_eq_some_iff.mp
    (show (Machine.exec (step fun _ => []) {} answeredCrosswise).map (·.routed.map (·.receiver)) =
      some [.dropped, .callback 0, .callback 1] by decide +kernel)
  exact ⟨s, hs, hrouted, ownReplies_of_keysApart (by decide +kernel) hs⟩

/-- The device starts a conversation under the identifier of a pending request. -/
def startedUnderPendingKey : List (Label Unit) :=
  [.take (.async true) {}, .push 0, .insert 0, .transmit, .initiate ⟨1, 0, 0, false, none⟩, .batch 1, .route]

/-- The callback is invoked with the message that starts the conversation. -/
theorem not_ownReplies_startedUnderPendingKey : ∃ s : Connection Unit,
    Machine.exec (step fun _ => []) {} startedUnderPendingKey = some s ∧ ¬ OwnReplies s := by
  obtain ⟨s, hs, hrouted⟩ := Option.map_eq_some_iff.mp
    (show (Machine.exec (step fun _ => []) {} startedUnderPendingKey).map (·.routed) =
      some [⟨⟨1, 0, 0, false, none⟩, .callback 0, false⟩] by decide +kernel)
  refine ⟨s, hs, ?_⟩
  intro hown
  have hanswers := hown ⟨⟨1, 0, 0, false, none⟩, .callback 0, false⟩ (by rw [hrouted]; simp) 0 rfl
  cases hanswers

end Connection
end IDevice
