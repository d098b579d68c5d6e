import IDevice.Connection.Identifiers

/-!
# `Connection.Pending` — the callbacks that are still pending

A callback is pending from the end of `SendMessageAsync` until it is invoked. As long as the identifier
counter has not come round, no two calls have the same identifier (`Counting`), so no insertion into
`_handlers_by_identifier_` is refused and no entry is erased for another one: `RouteMessage` finds a
callback exactly if one is pending under the channel code and the identifier of the message
(`found_iff_pending`).

That a callback is invoked at most once holds in every run (`Table.once`).
-/

namespace IDevice

/-- The channel code is the upper half of the key, and the identifier the lower half. -/
theorem dtxMessageIdentifier_toNat (channelCode msgIdentifier : UInt32) :
    (dtxMessageIdentifier channelCode msgIdentifier).toNat =
      channelCode.toNat * 2 ^ 32 + msgIdentifier.toNat := by
  have hcode := channelCode.toNat_lt
  have hidentifier := msgIdentifier.toNat_lt
  have hshift : channelCode.toNat <<< 32 < 2 ^ 64 := by
    rw [Nat.shiftLeft_eq]
    omega
  rw [dtxMessageIdentifier, UInt64.toNat_or, UInt64.toNat_shiftLeft, UInt32.toNat_toUInt64,
    UInt32.toNat_toUInt64]
  show channelCode.toNat <<< 32 % 2 ^ 64 ||| msgIdentifier.toNat = _
  rw [Nat.mod_eq_of_lt hshift, ← Nat.shiftLeft_add_eq_or_of_lt hidentifier, Nat.shiftLeft_eq]

/-- The key determines the channel code and the identifier. -/
theorem dtxMessageIdentifier_inj {channelCode channelCode' identifier identifier' : UInt32} :
    dtxMessageIdentifier channelCode identifier = dtxMessageIdentifier channelCode' identifier' ↔
      channelCode = channelCode' ∧ identifier = identifier' := by
  refine ⟨fun h => ?_, fun ⟨hcode, hidentifier⟩ => by rw [hcode, hidentifier]⟩
  have hkey := congrArg UInt64.toNat h
  rw [dtxMessageIdentifier_toNat, dtxMessageIdentifier_toNat] at hkey
  have h₁ := identifier.toNat_lt
  have h₂ := identifier'.toNat_lt
  exact ⟨UInt32.toNat.inj (by omega), UInt32.toNat.inj (by omega)⟩

namespace Connection

variable {KAValue : Type} {archivedData : KAValue → Bytes} {s t : Connection KAValue}

/-! ## Identifiers do not repeat -/

/-- The counter has not come round. -/
def Unwrapped (s : Connection KAValue) : Prop := ∀ x ∈ s.calls, x.identifier ≠ maxIdentifier

/-- Until the counter comes round, identifiers ascend, and the counter is above them. -/
structure Counting (s : Connection KAValue) : Prop where
  ascending : Unwrapped s → s.calls.Pairwise fun x y => x.identifier < y.identifier
  below : Unwrapped s → ∀ x ∈ s.calls, x.identifier < s.nextMsgIdentifier

theorem counting_init : Counting ({} : Connection KAValue) := by
  constructor <;> simp

/-- The counter is only ever raised. -/
theorem Counting.of_le (h : Counting s) (hcalls : t.calls = s.calls)
    (hle : s.nextMsgIdentifier ≤ t.nextMsgIdentifier) : Counting t := by
  have hbefore (hno : Unwrapped t) : Unwrapped s := by
    unfold Unwrapped at hno
    rwa [hcalls] at hno
  refine ⟨fun hno => ?_, fun hno => ?_⟩
  · rw [hcalls]
    exact h.ascending (hbefore hno)
  · rw [hcalls]
    exact fun x hx => UInt32.lt_of_lt_of_le (h.below (hbefore hno) x hx) hle

theorem Counting.takeIdentifier (h : Counting s) (kind : CallKind) (message : DTXMessage KAValue) :
    Counting (s.takeIdentifier kind message) := by
  have hbefore (hno : Unwrapped (s.takeIdentifier kind message)) : Unwrapped s :=
    fun x hx => hno x (List.mem_append_left _ hx)
  have hcounter (hno : Unwrapped (s.takeIdentifier kind message)) : s.nextMsgIdentifier ≠ maxIdentifier :=
    hno _ (List.mem_append_right _ (List.mem_singleton_self _))
  refine ⟨fun hno => ?_, fun hno x hx => ?_⟩
  · refine List.pairwise_append.mpr ⟨h.ascending (hbefore hno), List.pairwise_singleton _ _, ?_⟩
    intro x hx y hy
    rw [List.mem_singleton.mp hy]
    exact h.below (hbefore hno) x hx
  · rcases List.mem_append.mp hx with hx | hx
    · exact lt_add_one_of_lt (hcounter hno) (h.below (hbefore hno) x hx)
    · rw [List.mem_singleton.mp hx]
      exact lt_add_one_of_le (hcounter hno) (UInt32.le_refl _)

theorem counting_step {a : Label KAValue} (h : Counting s) (hstep : step archivedData s a = some t) :
    Counting t := by
  have hkeeps := keeps_step hstep
  have hc := step_cases hstep
  cases a with
  | take kind message => obtain ⟨-, rfl⟩ := hc; exact h.takeIdentifier kind message
  | replyTake =>
      obtain ⟨m, rest, maxId, -, rfl⟩ := hc
      exact (h.takeIdentifier _ _).of_le rfl (UInt32.le_refl _)
  | compareExchange spurious =>
      obtain ⟨prev, maxId, -, ⟨hlt, heq, rfl⟩ | ⟨-, rfl⟩ | ⟨-, rfl⟩⟩ := hc
      · exact h.of_le rfl (UInt32.le_of_lt (heq ▸ hlt))
      · exact h.of_le rfl (UInt32.le_refl _)
      · exact h.of_le rfl (UInt32.le_refl _)
  | _ => exact h.of_le (hkeeps.calls rfl) (hkeeps.counter rfl ▸ UInt32.le_refl _)

/-- No two calls stand under the same key. -/
theorem Counting.key_inj (h : Counting s) (hno : Unwrapped s) {c c' : Nat} {x x' : Call KAValue}
    (hx : s.calls[c]? = some x) (hx' : s.calls[c']? = some x') (hkey : x.key = x'.key) : c = c' := by
  have hpair := h.ascending hno
  rw [List.pairwise_iff_getElem] at hpair
  obtain ⟨hc, rfl⟩ := List.getElem?_eq_some_iff.mp hx
  obtain ⟨hc', rfl⟩ := List.getElem?_eq_some_iff.mp hx'
  have hidentifier : s.calls[c].identifier = s.calls[c'].identifier :=
    (dtxMessageIdentifier_inj.mp hkey).2
  rcases lt_trichotomy c c' with hlt | heq | hgt
  · exact absurd (hidentifier ▸ hpair c c' hc hc' hlt) (UInt32.lt_irrefl _)
  · exact heq
  · exact absurd (hidentifier ▸ hpair c' c hc' hc hgt) (UInt32.lt_irrefl _)

/-! ## The table holds the pending callbacks -/

/-- The callback of the call is registered under the channel code and the identifier of the message, and
    has not been invoked. -/
def Pending (s : Connection KAValue) (m : Incoming) (c : Nat) : Prop :=
  ∃ x, s.calls[c]? = some x ∧ x.kind.hasCallback = true ∧ s.stage c = .done ∧ s.invoked c = false ∧
    x.routingInfo.channelCode = m.channelCode ∧ x.routingInfo.msgIdentifier = m.identifier

/-- A callback that has been registered and not been invoked is in the table, unless the counter has come
    round; and none has been handed two messages. -/
structure Table (s : Connection KAValue) : Prop where
  registered : Unwrapped s → ∀ c x, s.calls[c]? = some x → x.kind.hasCallback = true →
    s.stage c = .done → s.invoked c = false → s.handlersByIdentifier x.key = some c
  erasing : ∀ m c rest maxId, s.parsing = .invoked m (some c) rest maxId → s.invoked c = true ∧
    s.handlersByIdentifier m.key = some c
  once : ∀ c, s.routed.countP (·.receiver = .callback c) ≤ 1

theorem table_init : Table ({} : Connection KAValue) := by
  constructor <;> simp

/-- The invariant looks at the handlers, at the calls that have pushed, and at what has been routed. -/
theorem Table.of_eq (h : Table s) (hrec : Recorded s) (hbefore : s.calls <+: t.calls)
    (hstage : t.stage = s.stage) (hhandlers : t.handlersByIdentifier = s.handlersByIdentifier)
    (hinvoked : t.invoked = s.invoked) (hrouted : t.routed = s.routed)
    (hparsing : ∀ m f rest maxId, t.parsing = .invoked m f rest maxId →
      s.parsing = .invoked m f rest maxId) : Table t := by
  refine ⟨?_, ?_, ?_⟩
  · intro hno c x hx hhas hdone hinv
    rw [hstage] at hdone
    rw [hinvoked] at hinv
    rw [hrec.getElem?_eq hbefore (by simp [hdone])] at hx
    rw [hhandlers]
    exact h.registered (fun y hy => hno y (hbefore.subset hy)) c x hx hhas hdone hinv
  · intro m c rest maxId hp
    rw [hinvoked, hhandlers]
    exact h.erasing m c rest maxId (hparsing _ _ _ _ hp)
  · rw [hrouted]
    exact h.once

/-- A call with a callback is not through when it has pushed its message. -/
theorem Table.pushMessage (h : Table s) {c : Nat} {x : Call KAValue} (hx : s.calls[c]? = some x) :
    Table (s.pushMessage c x) := by
  refine ⟨?_, h.erasing, h.once⟩
  intro hno c' y hy hhas hdone hinv
  by_cases hcc : c' = c
  · subst hcc
    obtain rfl := Option.some.inj (hx.symm.trans hy)
    simp [Connection.pushMessage, hhas] at hdone
  · exact h.registered hno c' y hy hhas ((Function.update_of_ne hcc _ _).symm.trans hdone) hinv

/-- An entry stays where it is when another handler is inserted. -/
theorem insertHandler_kept {k : UInt64} {c f : Nat} {x : Call KAValue}
    (hk : s.handlersByIdentifier k = some f) :
    (s.insertHandler c x).handlersByIdentifier k = some f := by
  rw [insertHandler_apply, if_neg, hk]
  rintro ⟨rfl, hnone⟩
  rw [hk] at hnone
  cases hnone

/-- **No insertion is refused**: no other call stands under the key. -/
theorem Table.insertHandler (h : Table s) (hvalid : Valid s) (hcount : Counting s) {c : Nat}
    {x : Call KAValue} (hx : s.calls[c]? = some x) (hpushed : s.stage c = .pushed) :
    Table (s.insertHandler c x) := by
  refine ⟨?_, fun m f rest maxId hp => ?_, h.once⟩
  · intro hno c' y hy hhas hdone hinv
    by_cases hcc : c' = c
    · subst hcc
      obtain rfl := Option.some.inj (hx.symm.trans hy)
      have hfree : s.handlersByIdentifier x.key = none := by
        by_contra hsome
        obtain ⟨f, hf⟩ := Option.ne_none_iff_exists'.mp hsome
        obtain ⟨hdone', z, hz, -, hkey⟩ := hvalid.handled.handler _ f hf
        obtain rfl := hcount.key_inj hno hz hx hkey
        rw [hpushed] at hdone'
        cases hdone'
      rw [insertHandler_apply, if_pos ⟨rfl, hfree⟩]
    · exact insertHandler_kept
        (h.registered hno c' y hy hhas ((Function.update_of_ne hcc _ _).symm.trans hdone) hinv)
  · exact ⟨(h.erasing m f rest maxId hp).1, insertHandler_kept (h.erasing m f rest maxId hp).2⟩

/-- The parsing thread is about to route, so no callback that is in the table has been invoked. -/
theorem Valid.not_invoked (hvalid : Valid s) {m : Incoming} {rest : List Incoming} {maxId : UInt32}
    (hp : s.parsing = .batch (m :: rest) maxId) {k : UInt64} {c : Nat}
    (hk : s.handlersByIdentifier k = some c) : s.invoked c = false := by
  by_contra hinv
  obtain ⟨m', rest', maxId', hp', -⟩ := hvalid.handled.spent k c hk (by simpa using hinv)
  rw [hp] at hp'
  cases hp'

theorem receiver_eq_callback {m : Incoming} {c : Nat} :
    s.receiver m = .callback c ↔ s.handlersByIdentifier m.key = some c := by
  unfold receiver
  cases s.handlersByIdentifier m.key with
  | some f => simp
  | none =>
      simp only [reduceCtorEq, iff_false]
      split <;> simp

/-- **A callback is invoked at most once**: when it is found, no message has been handed to it. -/
theorem Table.routeMessage (h : Table s) (hvalid : Valid s) {m : Incoming} {rest : List Incoming}
    {maxId : UInt32} (hp : s.parsing = .batch (m :: rest) maxId) :
    Table (s.routeMessage m rest maxId) := by
  refine ⟨?_, ?_, ?_⟩
  · -- an entry that is there after the routing was there before
    intro hno c x hx hhas hdone hinv
    refine h.registered hno c x hx hhas hdone ?_
    by_contra hinv'
    have := (invoked_routeMessage m rest maxId c).mpr (.inl (by simpa using hinv'))
    rw [hinv] at this
    cases this
  · intro m' c rest' maxId' hp'
    simp only [Connection.routeMessage, Parsing.invoked.injEq] at hp'
    obtain ⟨rfl, hfound, -, -⟩ := hp'
    exact ⟨(invoked_routeMessage m rest maxId c).mpr (.inr hfound), hfound⟩
  · intro c
    show List.countP _ (s.routed ++ [_]) ≤ 1
    rw [List.countP_append]
    by_cases hc : s.receiver m = .callback c
    · -- the callback is still pending
      have hfresh := hvalid.not_invoked hp (receiver_eq_callback.mp hc)
      have hzero : s.routed.countP (·.receiver = .callback c) = 0 := by
        rw [List.countP_eq_zero]
        intro d hd hdc
        have := (hvalid.handled.delivered c).mpr ⟨d, hd, by simpa using hdc⟩
        rw [hfresh] at this
        cases this
      rw [hzero]
      simp [hc]
    · simpa [hc] using h.once c

theorem Table.finishRoute (h : Table s) {m : Incoming} {found : Option Nat} {rest : List Incoming}
    {maxId : UInt32} (hp : s.parsing = .invoked m found rest maxId) : Table (s.finishRoute m found rest maxId) := by
  refine ⟨?_, ?_, h.once⟩
  · intro hno c x hx hhas hdone hinv
    have hk := h.registered hno c x hx hhas hdone hinv
    simp only [Connection.finishRoute]
    split
    · next hfound =>
      obtain ⟨f, rfl⟩ := Option.isSome_iff_exists.mp hfound
      obtain ⟨hinv', hf⟩ := h.erasing m f rest maxId hp
      rw [Function.update_of_ne, hk]
      -- what is erased is the entry of the callback that has been invoked
      intro hkey
      rw [hkey, hf] at hk
      obtain rfl := Option.some.inj hk
      have hinv : s.invoked f = false := hinv
      rw [hinv'] at hinv
      cases hinv
    · exact hk
  · intro m' c rest' maxId' hp'
    simp only [Connection.finishRoute] at hp'
    split at hp' <;> cases hp'

theorem table_step {a : Label KAValue} (hvalid : Valid s) (hcount : Counting s) (h : Table s)
    (hstep : step archivedData s a = some t) : Table t := by
  have hbefore := calls_isPrefix hstep
  have hkeeps := keeps_step hstep
  have hc := step_cases hstep
  have hrec := hvalid.recorded
  cases a with
  | push c => obtain ⟨x, hx, -, -, rfl⟩ := hc; exact h.pushMessage hx
  | insert c => obtain ⟨x, hx, hpushed, rfl⟩ := hc; exact h.insertHandler hvalid hcount hx hpushed
  | route => obtain ⟨m, rest, maxId, hp, rfl⟩ := hc; exact h.routeMessage hvalid hp
  | finish => obtain ⟨m, found, rest, maxId, hp, rfl⟩ := hc; exact h.finishRoute hp
  | replyTake =>
      obtain ⟨m, rest, maxId, hp, rfl⟩ := hc
      exact h.of_eq hrec hbefore rfl rfl rfl rfl (by simp)
  | replyPush =>
      obtain ⟨c, m, rest, maxId, x, hp, hx, rfl⟩ := hc
      exact ⟨(h.pushMessage hx).registered, by simp, h.once⟩
  | batch n => obtain ⟨-, rfl⟩ := hc; exact h.of_eq hrec hbefore rfl rfl rfl rfl (by simp)
  | load => obtain ⟨maxId, -, rfl⟩ := hc; exact h.of_eq hrec hbefore rfl rfl rfl rfl (by simp)
  | compareExchange spurious =>
      obtain ⟨prev, maxId, -, ⟨-, -, rfl⟩ | ⟨-, rfl⟩ | ⟨-, rfl⟩⟩ := hc <;>
        exact h.of_eq hrec hbefore rfl rfl rfl rfl (by simp)
  | _ =>
      exact h.of_eq hrec hbefore (hkeeps.stage rfl) (hkeeps.handlers rfl) (hkeeps.invoked rfl)
        (hkeeps.routed rfl) fun _ _ _ _ hp => (hkeeps.parsing rfl).symm.trans hp

/-- What holds of the table in every state of a connection. -/
structure Tabled (s : Connection KAValue) : Prop where
  valid : Valid s
  counting : Counting s
  table : Table s

theorem tabled_step {a : Label KAValue} (h : Tabled s) (hstep : step archivedData s a = some t) :
    Tabled t where
  valid := valid_step h.valid hstep
  counting := counting_step h.counting hstep
  table := table_step h.valid h.counting h.table hstep

theorem tabled_run {as : List (Label KAValue)} (h : Machine.exec (step archivedData) {} as = some s) :
    Tabled s :=
  Machine.exec_invariant Tabled ⟨valid_init, counting_init, table_init⟩ h
    fun _ _ _ hs hstep => tabled_step hs hstep

theorem calls_isPrefix_exec {as : List (Label KAValue)}
    (h : Machine.exec (step archivedData) s as = some t) : s.calls <+: t.calls := by
  induction as generalizing s with
  | nil => exact Option.some.inj h ▸ List.prefix_rfl
  | cons a as ih =>
      obtain ⟨u, ha, has⟩ := Machine.exec_cons_eq_some.mp h
      exact (calls_isPrefix ha).trans (ih has)

/-- **`RouteMessage` finds the pending callback**, and nothing else. -/
theorem Tabled.found_iff_pending (h : Tabled s) (hno : Unwrapped s) {m : Incoming}
    {rest : List Incoming} {maxId : UInt32} (hp : s.parsing = .batch (m :: rest) maxId) {c : Nat} :
    s.handlersByIdentifier m.key = some c ↔ s.Pending m c := by
  constructor
  · intro hk
    obtain ⟨hdone, x, hx, hhas, hkey⟩ := h.valid.handled.handler _ c hk
    exact ⟨x, hx, hhas, hdone, h.valid.not_invoked hp hk, dtxMessageIdentifier_inj.mp hkey⟩
  · rintro ⟨x, hx, hhas, hdone, hinv, hkey⟩
    rw [← h.table.registered hno c x hx hhas hdone hinv]
    exact congrArg _ (dtxMessageIdentifier_inj.mpr hkey).symm

end Connection
end IDevice
