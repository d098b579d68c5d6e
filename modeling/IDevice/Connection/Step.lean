import IDevice.Connection.Model

/-!
# `Connection.Step` — what a step does, and what it leaves alone

`step_cases` says once what each step can do, guards included. `Label.writes` is the table of the parts of
a connection that a step writes, and `keeps_step` says that all other parts stay; the invariants only have
to look at the steps that write something they speak of.
-/

namespace IDevice

/-- The parts of a connection. -/
inductive Field where
  | counter
  | sendQueue
  | handlers
  | channels
  | parsing
  | arrived
  | calls
  | stage
  | answered
  | waits
  | sent
  | routed
  | settled
deriving DecidableEq

/-- The parts that a step writes; `waits` is `elapsed` and `returned`, and `routed` is also `invoked`. -/
def Label.writes {KAValue : Type} : Label KAValue → List Field
  | .take .. => [.counter, .calls]
  | .push _ => [.sendQueue, .stage]
  | .insert _ => [.handlers, .stage]
  | .elapse _ => [.waits]
  | .returnNull _ => [.waits]
  | .returnReply _ => [.waits]
  | .setMessageHandler .. => [.channels]
  | .transmit => [.sendQueue, .sent]
  | .answer .. => [.answered, .arrived]
  | .initiate _ => [.arrived]
  | .batch _ => [.arrived, .parsing]
  | .route => [.parsing, .routed]
  | .finish => [.handlers, .parsing]
  | .replyTake => [.counter, .calls, .parsing]
  | .replyPush => [.sendQueue, .stage, .parsing]
  | .load => [.parsing]
  | .compareExchange _ => [.counter, .parsing, .settled]

namespace Connection

variable {KAValue : Type} {archivedData : KAValue → Bytes} {s t : Connection KAValue}

/-- What a step can do. -/
theorem step_cases {a : Label KAValue} (h : step archivedData s a = some t) :
    match a with
    | .take kind message => (∀ n, kind ≠ .reply n) ∧ t = s.takeIdentifier kind message
    | .push c => ∃ x, s.calls[c]? = some x ∧ (∀ n, x.kind ≠ .reply n) ∧ s.stage c = .taken ∧
        t = s.pushMessage c x
    | .insert c => ∃ x, s.calls[c]? = some x ∧ s.stage c = .pushed ∧ t = s.insertHandler c x
    | .elapse c => (s.waitsFor c).isSome ∧ t = { s with elapsed := Function.update s.elapsed c true }
    | .returnNull c => s.waitsFor c = some waitForever ∧ s.elapsed c ∧ s.invoked c = false ∧
        t = { s with returned := Function.update s.returned c (some false) }
    | .returnReply c => (s.waitsFor c).isSome ∧ s.invoked c ∧
        t = { s with returned := Function.update s.returned c (some true) }
    | .setMessageHandler code present =>
        t = { s with messageHandlers := Function.update s.messageHandlers code present }
    | .transmit => ∃ q rest, s.sendQueue = q :: rest ∧
        t = { s with sendQueue := rest, sent := s.sent ++ [⟨transmittedHeader archivedData q, q.call⟩] }
    | .answer c conversationIndex expectsReply => ∃ e ∈ s.sent, e.call = c ∧
        e.header.expectsReply ≠ 0 ∧ s.answered c = false ∧
        t = { s with answered := Function.update s.answered c true,
                     arrived := s.arrived ++ [⟨e.header.identifier, conversationIndex,
                       e.header.channelCode, expectsReply, some c⟩] }
    | .initiate m => t = { s with arrived := s.arrived ++ [{ m with answers := none }] }
    | .batch n => s.parsing = .idle ∧
        t = { s with parsing := .batch (s.arrived.take n) 0, arrived := s.arrived.drop n }
    | .route => ∃ m rest maxId, s.parsing = .batch (m :: rest) maxId ∧ t = s.routeMessage m rest maxId
    | .finish => ∃ m found rest maxId, s.parsing = .invoked m found rest maxId ∧
        t = s.finishRoute m found rest maxId
    | .replyTake => ∃ m rest maxId, s.parsing = .replying m rest maxId ∧
        t = { s.takeIdentifier (.reply (s.routed.length - 1)) (DTXMessage.newReply m.toMessage) with
          parsing := .replyTaken s.calls.length m rest maxId }
    | .replyPush => ∃ c m rest maxId x, s.parsing = .replyTaken c m rest maxId ∧ s.calls[c]? = some x ∧
        t = { s.pushMessage c x with parsing := .batch rest (max maxId m.identifier) }
    | .load => ∃ maxId, s.parsing = .batch [] maxId ∧
        t = { s with parsing := .setMax s.nextMsgIdentifier maxId }
    | .compareExchange _ => ∃ prev maxId, s.parsing = .setMax prev maxId ∧
        ((prev < maxId + 1 ∧ s.nextMsgIdentifier = prev ∧
            t = { s with nextMsgIdentifier := maxId + 1, parsing := .idle,
                         settledCount := s.routed.length }) ∨
          (prev < maxId + 1 ∧ t = { s with parsing := .setMax s.nextMsgIdentifier maxId }) ∨
          (¬ prev < maxId + 1 ∧ t = { s with parsing := .idle, settledCount := s.routed.length })) := by
  cases a with
  | take kind message =>
      cases kind with
      | async callback => exact ⟨fun n => CallKind.noConfusion, (Option.some.inj h).symm⟩
      | sync timeoutMs => exact ⟨fun n => CallKind.noConfusion, (Option.some.inj h).symm⟩
      | reply n => cases h
  | push c =>
      simp only [step] at h
      split at h
      · next x hx =>
        split at h
        · cases h
        · next hkind =>
          split at h
          · next hstage => exact ⟨x, hx, fun n hn => hkind n hn, hstage, (Option.some.inj h).symm⟩
          · cases h
      · cases h
  | insert c =>
      simp only [step] at h
      split at h
      · next x hx =>
        split at h
        · next hstage => exact ⟨x, hx, hstage, (Option.some.inj h).symm⟩
        · cases h
      · cases h
  | elapse c =>
      simp only [step] at h
      split at h
      · next w hw => exact ⟨by simp [hw], (Option.some.inj h).symm⟩
      · cases h
  | returnNull c =>
      simp only [step] at h
      split at h
      · next hc => exact ⟨hc.1, hc.2.1, by simpa using hc.2.2, (Option.some.inj h).symm⟩
      · cases h
  | returnReply c =>
      simp only [step] at h
      split at h
      · next hc => exact ⟨hc.1, hc.2, (Option.some.inj h).symm⟩
      · cases h
  | setMessageHandler code present => exact (Option.some.inj h).symm
  | transmit =>
      simp only [step] at h
      split at h
      · next q rest hq => exact ⟨q, rest, hq, (Option.some.inj h).symm⟩
      · cases h
  | answer c conversationIndex expectsReply =>
      simp only [step] at h
      split at h
      · next e he =>
        split at h
        · next hc =>
          have hcall := List.find?_some he
          exact ⟨e, List.mem_of_find?_eq_some he, by simpa using hcall, hc.1, hc.2,
            (Option.some.inj h).symm⟩
        · cases h
      · cases h
  | initiate m => exact (Option.some.inj h).symm
  | batch n =>
      simp only [step] at h
      split at h
      · next hidle => exact ⟨hidle, (Option.some.inj h).symm⟩
      · cases h
  | route =>
      simp only [step] at h
      split at h
      · next m rest maxId hp => exact ⟨m, rest, maxId, hp, (Option.some.inj h).symm⟩
      · cases h
  | finish =>
      simp only [step] at h
      split at h
      · next m found rest maxId hp => exact ⟨m, found, rest, maxId, hp, (Option.some.inj h).symm⟩
      · cases h
  | replyTake =>
      simp only [step] at h
      split at h
      · next m rest maxId hp => exact ⟨m, rest, maxId, hp, (Option.some.inj h).symm⟩
      · cases h
  | replyPush =>
      simp only [step] at h
      split at h
      · next c m rest maxId hp =>
        split at h
        · next x hx => exact ⟨c, m, rest, maxId, x, hp, hx, (Option.some.inj h).symm⟩
        · cases h
      · cases h
  | load =>
      simp only [step] at h
      split at h
      · next maxId hp => exact ⟨maxId, hp, (Option.some.inj h).symm⟩
      · cases h
  | compareExchange spurious =>
      simp only [step] at h
      split at h
      · next prev maxId hp =>
        refine ⟨prev, maxId, hp, ?_⟩
        split at h
        · next hlt =>
          split at h
          · next heq => exact .inl ⟨hlt, heq.1, (Option.some.inj h).symm⟩
          · exact .inr (.inl ⟨hlt, (Option.some.inj h).symm⟩)
        · next hge => exact .inr (.inr ⟨hge, (Option.some.inj h).symm⟩)
      · cases h

/-! ## What a step leaves alone -/

/-- `t` has all parts of `s` that are not written. -/
structure Keeps (written : List Field) (s t : Connection KAValue) : Prop where
  counter : written.contains .counter = false → t.nextMsgIdentifier = s.nextMsgIdentifier
  sendQueue : written.contains .sendQueue = false → t.sendQueue = s.sendQueue
  handlers : written.contains .handlers = false → t.handlersByIdentifier = s.handlersByIdentifier
  channels : written.contains .channels = false → t.messageHandlers = s.messageHandlers
  parsing : written.contains .parsing = false → t.parsing = s.parsing
  arrived : written.contains .arrived = false → t.arrived = s.arrived
  calls : written.contains .calls = false → t.calls = s.calls
  stage : written.contains .stage = false → t.stage = s.stage
  answered : written.contains .answered = false → t.answered = s.answered
  elapsed : written.contains .waits = false → t.elapsed = s.elapsed
  returned : written.contains .waits = false → t.returned = s.returned
  sent : written.contains .sent = false → t.sent = s.sent
  routed : written.contains .routed = false → t.routed = s.routed
  invoked : written.contains .routed = false → t.invoked = s.invoked
  settled : written.contains .settled = false → t.settledCount = s.settledCount

theorem keeps_step {a : Label KAValue} (h : step archivedData s a = some t) : Keeps a.writes s t := by
  have hc := step_cases h
  cases a with
  | take kind message =>
      obtain ⟨-, rfl⟩ := hc
      constructor <;> first | exact fun _ => rfl | exact fun h => nomatch h
  | push c =>
      obtain ⟨x, -, -, -, rfl⟩ := hc
      constructor <;> first | exact fun _ => rfl | exact fun h => nomatch h
  | insert c =>
      obtain ⟨x, -, -, rfl⟩ := hc
      constructor <;> first | exact fun _ => rfl | exact fun h => nomatch h
  | elapse c =>
      obtain ⟨-, rfl⟩ := hc
      constructor <;> first | exact fun _ => rfl | exact fun h => nomatch h
  | returnNull c =>
      obtain ⟨-, -, -, rfl⟩ := hc
      constructor <;> first | exact fun _ => rfl | exact fun h => nomatch h
  | returnReply c =>
      obtain ⟨-, -, rfl⟩ := hc
      constructor <;> first | exact fun _ => rfl | exact fun h => nomatch h
  | setMessageHandler code present =>
      obtain rfl : t = _ := hc
      constructor <;> first | exact fun _ => rfl | exact fun h => nomatch h
  | transmit =>
      obtain ⟨q, rest, -, rfl⟩ := hc
      constructor <;> first | exact fun _ => rfl | exact fun h => nomatch h
  | answer c conversationIndex expectsReply =>
      obtain ⟨e, -, -, -, -, rfl⟩ := hc
      constructor <;> first | exact fun _ => rfl | exact fun h => nomatch h
  | initiate m =>
      obtain rfl : t = _ := hc
      constructor <;> first | exact fun _ => rfl | exact fun h => nomatch h
  | batch n =>
      obtain ⟨-, rfl⟩ := hc
      constructor <;> first | exact fun _ => rfl | exact fun h => nomatch h
  | route =>
      obtain ⟨m, rest, maxId, -, rfl⟩ := hc
      constructor <;> first | exact fun _ => rfl | exact fun h => nomatch h
  | finish =>
      obtain ⟨m, found, rest, maxId, -, rfl⟩ := hc
      constructor <;> first | exact fun _ => rfl | exact fun h => nomatch h
  | replyTake =>
      obtain ⟨m, rest, maxId, -, rfl⟩ := hc
      constructor <;> first | exact fun _ => rfl | exact fun h => nomatch h
  | replyPush =>
      obtain ⟨c, m, rest, maxId, x, -, -, rfl⟩ := hc
      constructor <;> first | exact fun _ => rfl | exact fun h => nomatch h
  | load =>
      obtain ⟨maxId, -, rfl⟩ := hc
      constructor <;> first | exact fun _ => rfl | exact fun h => nomatch h
  | compareExchange spurious =>
      obtain ⟨prev, maxId, -, ⟨-, -, rfl⟩ | ⟨-, rfl⟩ | ⟨-, rfl⟩⟩ := hc <;>
        constructor <;> first | exact fun _ => rfl | exact fun h => nomatch h

/-- A call begins by taking an identifier, a user's or a reply. -/
theorem calls_step {a : Label KAValue} (h : step archivedData s a = some t) :
    t.calls = s.calls ∨
      (∃ kind message, a = .take kind message ∧ (∀ n, kind ≠ .reply n) ∧
        t = s.takeIdentifier kind message) ∨
      (a = .replyTake ∧ ∃ m rest maxId, s.parsing = .replying m rest maxId ∧
        t = { s.takeIdentifier (.reply (s.routed.length - 1)) (DTXMessage.newReply m.toMessage) with
          parsing := .replyTaken s.calls.length m rest maxId }) := by
  have hkeeps := keeps_step h
  have hc := step_cases h
  cases a with
  | take kind message => exact .inr (.inl ⟨kind, message, rfl, hc⟩)
  | replyTake => exact .inr (.inr ⟨rfl, hc⟩)
  | _ => exact .inl (hkeeps.calls rfl)

theorem calls_isPrefix {a : Label KAValue} (h : step archivedData s a = some t) : s.calls <+: t.calls := by
  rcases calls_step h with heq | ⟨kind, message, -, -, rfl⟩ | ⟨-, m, rest, maxId, -, rfl⟩
  · rw [heq]
  · exact List.prefix_append _ _
  · exact List.prefix_append _ _

/-- A message is routed by `RouteMessage`, and by nothing else. -/
theorem routed_step {a : Label KAValue} (h : step archivedData s a = some t) :
    t.routed = s.routed ∨ a = .route ∧ ∃ m rest maxId, s.parsing = .batch (m :: rest) maxId ∧
      t = s.routeMessage m rest maxId := by
  have hkeeps := keeps_step h
  have hc := step_cases h
  cases a with
  | route => exact .inr ⟨rfl, hc⟩
  | _ => exact .inl (hkeeps.routed rfl)

theorem routed_isPrefix {a : Label KAValue} (h : step archivedData s a = some t) : s.routed <+: t.routed := by
  rcases routed_step h with heq | ⟨-, m, rest, maxId, -, rfl⟩
  · rw [heq]
  · exact List.prefix_append _ _

theorem getElem?_of_isPrefix {α : Type} {l l' : List α} {c : Nat} {x : α} (h : l <+: l')
    (hx : l[c]? = some x) : l'[c]? = some x := by
  obtain ⟨r, rfl⟩ := h
  rw [List.getElem?_append_left (List.getElem?_eq_some_iff.mp hx).1, hx]

theorem getElem?_concat_eq_some {α : Type} {l : List α} {a x : α} {c : Nat} :
    (l ++ [a])[c]? = some x ↔ l[c]? = some x ∨ c = l.length ∧ x = a := by
  rcases lt_trichotomy c l.length with hlt | rfl | hgt
  · rw [List.getElem?_append_left hlt]
    exact ⟨.inl, fun h => h.resolve_right fun hc => absurd hc.1 (Nat.ne_of_lt hlt)⟩
  · simp [eq_comm]
  · rw [List.getElem?_eq_none (by simpa [Nat.succ_le_iff] using hgt), List.getElem?_eq_none (Nat.le_of_lt hgt)]
    simp [Nat.ne_of_gt hgt]

end Connection
end IDevice
