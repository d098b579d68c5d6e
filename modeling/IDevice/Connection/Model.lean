import IDevice.Lib.Machine
import IDevice.Wire.Transmitter

/-!
# `Connection.Model` — `DTXConnection` as a machine

The connection while it is up (`dtxconnection.cpp`): callers inside `SendMessageAsync` and
`SendMessageSync`, the send thread, the parsing thread, and the device. A label names the next atomic
step of one of them, so a list of labels is an interleaving.

* A caller takes an identifier (`take`), pushes onto the send queue (`push`) and, if it gave a callback,
  inserts the handler (`insert`). A synchronous caller then waits (`elapse`, `returnNull`,
  `returnReply`).
* The parsing thread pops what has been parsed (`batch`), routes message by message (`route`, and
  `finish` when the receiver has returned), replies where a reply is expected (`replyTake`,
  `replyPush`), and raises the identifier counter (`load`, `compareExchange`).
* The device answers a request (`answer`) or starts a conversation (`initiate`).

Reply callbacks are named by the call that registered them. What calls and messages are for is kept in
ghost fields (`Incoming.answers`, `Call.routedBefore`, `answered`, `invoked`, `sent`, `routed`), at
which the code of the connection does not look; only `invoked` has a counterpart, the promise of a
synchronous call. The handler tables are finite maps: races on them are left out.
-/

namespace IDevice

/-- A parsed message, as far as the connection looks at it, and the call it answers. -/
structure Incoming where
  identifier : UInt32
  conversationIndex : UInt32
  channelCode : UInt32
  expectsReply : Bool
  answers : Option Nat := none
deriving DecidableEq, Repr

/-- Who runs `SendMessageAsync`: a user, `SendMessageSync`, or `ReplyMessage` for the message with the
    given position among the routed ones. -/
inductive CallKind where
  | async (callback : Bool)
  | sync (timeoutMs : UInt32)
  | reply (routed : Nat)
deriving DecidableEq, Repr

/-- `callback != nullptr`. -/
def CallKind.hasCallback : CallKind → Bool
  | async callback => callback
  | sync _ => true
  | reply _ => false

/-- One execution of `SendMessageAsync`. -/
structure Call (KAValue : Type) where
  kind : CallKind
  message : DTXMessage KAValue
  routingInfo : DTXMessageRoutingInfo
  /-- How many messages had been routed when the identifier was taken. -/
  routedBefore : Nat

/-- How far a call has come inside `SendMessageAsync`. -/
inductive Stage where
  | taken
  | pushed
  | done
deriving DecidableEq, Repr

/-- `IDEVICE_DTXMESSAGE_IDENTIFIER`. -/
def dtxMessageIdentifier (channelCode msgIdentifier : UInt32) : UInt64 :=
  channelCode.toUInt64 <<< 32 ||| msgIdentifier.toUInt64

def Call.key {KAValue : Type} (x : Call KAValue) : UInt64 :=
  dtxMessageIdentifier x.routingInfo.channelCode x.routingInfo.msgIdentifier

def Incoming.key (m : Incoming) : UInt64 := dtxMessageIdentifier m.channelCode m.identifier

/-- The message object that the parser made. -/
def Incoming.toMessage {KAValue : Type} (m : Incoming) : DTXMessage KAValue where
  identifier := m.identifier
  conversationIndex := m.conversationIndex
  channelCode := m.channelCode
  expectsReply := m.expectsReply
  deserialized := true

/-- Who gets a routed message. -/
inductive Receiver where
  | callback (call : Nat)
  | channel (code : UInt32)
  | dropped
deriving DecidableEq, Repr

/-- A routed message; `late` if it went to the callback of a call that had already returned. -/
structure Delivery where
  message : Incoming
  receiver : Receiver
  late : Bool
deriving DecidableEq, Repr

/-- The program counter of the parsing thread. -/
inductive Parsing where
  | idle
  /-- In the loop over the popped messages: those still to route, and `max_msg_identifier`. -/
  | batch (rest : List Incoming) (maxMsgIdentifier : UInt32)
  /-- Inside `RouteMessage`, the receiver has returned; `found` if it was a reply callback. -/
  | invoked (m : Incoming) (found : Option Nat) (rest : List Incoming) (maxMsgIdentifier : UInt32)
  | replying (m : Incoming) (rest : List Incoming) (maxMsgIdentifier : UInt32)
  | replyTaken (call : Nat) (m : Incoming) (rest : List Incoming) (maxMsgIdentifier : UInt32)
  /-- In the loop of `IDEVICE_ATOMIC_SET_MAX`. -/
  | setMax (prevValue maxMsgIdentifier : UInt32)
deriving DecidableEq, Repr

/-- A transmitted message: the header of its first fragment, whose routing fields all its fragments
    have, and the call that sent it. -/
structure Sent where
  header : DTXMessageHeader
  call : Nat

/-- An entry of the send queue. -/
structure Queued (KAValue : Type) where
  message : DTXMessage KAValue
  routingInfo : DTXMessageRoutingInfo
  call : Nat

structure Connection (KAValue : Type) where
  nextMsgIdentifier : UInt32 := 1
  sendQueue : List (Queued KAValue) := []
  handlersByIdentifier : UInt64 → Option Nat := fun _ => none
  /-- The codes of the open channels that have a message handler. -/
  messageHandlers : UInt32 → Bool := fun _ => false
  parsing : Parsing := .idle
  /-- What is parsed and not yet popped, and what is still on its way. -/
  arrived : List Incoming := []
  /-- The executions of `SendMessageAsync`, in the order in which they took their identifiers. -/
  calls : List (Call KAValue) := []
  stage : Nat → Stage := fun _ => .taken
  /-- The calls that the device has answered. -/
  answered : Nat → Bool := fun _ => false
  /-- The calls whose callback has been invoked; for a synchronous call, its promise is set. -/
  invoked : Nat → Bool := fun _ => false
  /-- The synchronous calls whose wait has elapsed. -/
  elapsed : Nat → Bool := fun _ => false
  /-- The synchronous calls that have returned: with a reply, or with `nullptr`. -/
  returned : Nat → Option Bool := fun _ => none
  sent : List Sent := []
  routed : List Delivery := []
  /-- How many messages were routed in the batches that are over. -/
  settledCount : Nat := 0

inductive Label (KAValue : Type) where
  | take (kind : CallKind) (message : DTXMessage KAValue)
  | push (c : Nat)
  | insert (c : Nat)
  | elapse (c : Nat)
  | returnNull (c : Nat)
  | returnReply (c : Nat)
  | setMessageHandler (code : UInt32) (present : Bool)
  | transmit
  | answer (c : Nat) (conversationIndex : UInt32) (expectsReply : Bool)
  | initiate (m : Incoming)
  | batch (n : Nat)
  | route
  | finish
  | replyTake
  | replyPush
  | load
  | compareExchange (spurious : Bool)

namespace Connection

variable {KAValue : Type} (archivedData : KAValue → Bytes)

/-! ## `SendMessageAsync` -/

/-- `next_msg_identifier_.fetch_add(1)` and the routing info. -/
def takeIdentifier (s : Connection KAValue) (kind : CallKind) (message : DTXMessage KAValue) :
    Connection KAValue :=
  { s with
    nextMsgIdentifier := s.nextMsgIdentifier + 1
    calls := s.calls ++ [
      { kind := kind
        message := message
        routingInfo :=
          { msgIdentifier := s.nextMsgIdentifier
            channelCode := message.channelCode
            conversationIndex := message.conversationIndex
            expectsReply := if kind.hasCallback then 1 else 0 }
        routedBefore := s.routed.length }] }

/-- `send_queue_.Push(..)`; a call without a callback is through then. -/
def pushMessage (s : Connection KAValue) (c : Nat) (x : Call KAValue) : Connection KAValue :=
  { s with
    sendQueue := s.sendQueue ++ [⟨x.message, x.routingInfo, c⟩]
    stage := Function.update s.stage c (if x.kind.hasCallback then .pushed else .done) }

/-- `_handlers_by_identifier_.insert(..)`, which keeps an entry that exists. -/
def insertHandler (s : Connection KAValue) (c : Nat) (x : Call KAValue) : Connection KAValue :=
  { s with
    handlersByIdentifier := match s.handlersByIdentifier x.key with
      | some _ => s.handlersByIdentifier
      | none => Function.update s.handlersByIdentifier x.key (some c)
    stage := Function.update s.stage c .done }

/-! ## The send thread -/

/-- The suggested fragment size of the connection's transmitter, which nobody sets. -/
def suggestedFragmentSize : UInt32 := 64 * 1024

/-- The header that `TransmitMessage` builds for a queued message. -/
def transmittedHeader (q : Queued KAValue) : DTXMessageHeader :=
  let length := (q.message.serializedLength archivedData).1
  messageHeader length (fragmentsForLength suggestedFragmentSize length) q.routingInfo

/-! ## `RouteMessage` -/

/-- `std::abs(static_cast<int32_t>(channel_code))`, wrapping for the least value. -/
def absChannelCode (channelCode : UInt32) : UInt32 := channelCode.toInt32.abs.toUInt32

/-- Where `RouteMessage` sends a message. -/
def receiver (s : Connection KAValue) (m : Incoming) : Receiver :=
  match s.handlersByIdentifier m.key with
  | some c => .callback c
  | none =>
    let code := absChannelCode m.channelCode
    if s.messageHandlers code then .channel code else .dropped

/-- `RouteMessage` up to the return of the receiver. -/
def routeMessage (s : Connection KAValue) (m : Incoming) (rest : List Incoming)
    (maxMsgIdentifier : UInt32) : Connection KAValue :=
  { s with
    parsing := .invoked m (s.handlersByIdentifier m.key) rest maxMsgIdentifier
    invoked := match s.handlersByIdentifier m.key with
      | some c => Function.update s.invoked c true
      | none => s.invoked
    routed := s.routed ++ [
      { message := m
        receiver := s.receiver m
        late := match s.handlersByIdentifier m.key with
          | some c => (s.returned c).isSome
          | none => false }] }

/-- The end of `RouteMessage`: the handler that was invoked is erased. -/
def finishRoute (s : Connection KAValue) (m : Incoming) (found : Option Nat) (rest : List Incoming)
    (maxMsgIdentifier : UInt32) : Connection KAValue :=
  { s with
    handlersByIdentifier :=
      if found.isSome then Function.update s.handlersByIdentifier m.key none
      else s.handlersByIdentifier
    parsing := if m.expectsReply then .replying m rest maxMsgIdentifier
      else .batch rest (max maxMsgIdentifier m.identifier) }

/-! ## The steps -/

/-- `SendMessageSync` waits for ever. -/
def waitForever : UInt32 := 0xFFFFFFFF

/-- The call is a synchronous one that waits. -/
def waitsFor (s : Connection KAValue) (c : Nat) : Option UInt32 :=
  match s.calls[c]? with
  | some x =>
    match x.kind with
    | .sync timeoutMs =>
      if s.stage c = .done ∧ s.returned c = none then some timeoutMs else none
    | _ => none
  | none => none

def step (s : Connection KAValue) : Label KAValue → Option (Connection KAValue)
  | .take kind message =>
    match kind with
    | .reply _ => none
    | _ => some (s.takeIdentifier kind message)
  | .push c =>
    match s.calls[c]? with
    | some x =>
      match x.kind with
      | .reply _ => none
      | _ => if s.stage c = .taken then some (s.pushMessage c x) else none
    | none => none
  | .insert c =>
    match s.calls[c]? with
    | some x => if s.stage c = .pushed then some (s.insertHandler c x) else none
    | none => none
  | .elapse c =>
    match s.waitsFor c with
    | some _ => some { s with elapsed := Function.update s.elapsed c true }
    | none => none
  | .returnNull c =>
    -- only the `wait_for` of the second branch can time out
    if s.waitsFor c = some waitForever ∧ s.elapsed c ∧ ¬ s.invoked c then
      some { s with returned := Function.update s.returned c (some false) }
    else none
  | .returnReply c =>
    if (s.waitsFor c).isSome ∧ s.invoked c then
      some { s with returned := Function.update s.returned c (some true) }
    else none
  | .setMessageHandler code present =>
    some { s with messageHandlers := Function.update s.messageHandlers code present }
  | .transmit =>
    match s.sendQueue with
    | q :: rest => some { s with sendQueue := rest,
                                 sent := s.sent ++ [⟨transmittedHeader archivedData q, q.call⟩] }
    | [] => none
  | .answer c conversationIndex expectsReply =>
    match s.sent.find? (·.call = c) with
    | some e =>
      if e.header.expectsReply ≠ 0 ∧ s.answered c = false then
        some { s with
          answered := Function.update s.answered c true
          arrived := s.arrived ++ [⟨e.header.identifier, conversationIndex, e.header.channelCode,
            expectsReply, some c⟩] }
      else none
    | none => none
  | .initiate m => some { s with arrived := s.arrived ++ [{ m with answers := none }] }
  | .batch n =>
    match s.parsing with
    | .idle => some { s with parsing := .batch (s.arrived.take n) 0, arrived := s.arrived.drop n }
    | _ => none
  | .route =>
    match s.parsing with
    | .batch (m :: rest) maxMsgIdentifier => some (s.routeMessage m rest maxMsgIdentifier)
    | _ => none
  | .finish =>
    match s.parsing with
    | .invoked m found rest maxMsgIdentifier => some (s.finishRoute m found rest maxMsgIdentifier)
    | _ => none
  | .replyTake =>
    match s.parsing with
    | .replying m rest maxMsgIdentifier =>
      some { s.takeIdentifier (.reply (s.routed.length - 1)) (DTXMessage.newReply m.toMessage) with
        parsing := .replyTaken s.calls.length m rest maxMsgIdentifier }
    | _ => none
  | .replyPush =>
    match s.parsing with
    | .replyTaken c m rest maxMsgIdentifier =>
      match s.calls[c]? with
      | some x => some { s.pushMessage c x with
          parsing := .batch rest (max maxMsgIdentifier m.identifier) }
      | none => none
    | _ => none
  | .load =>
    match s.parsing with
    | .batch [] maxMsgIdentifier =>
      some { s with parsing := .setMax s.nextMsgIdentifier maxMsgIdentifier }
    | _ => none
  | .compareExchange spurious =>
    match s.parsing with
    | .setMax prevValue maxMsgIdentifier =>
      if prevValue < maxMsgIdentifier + 1 then
        if s.nextMsgIdentifier = prevValue ∧ ¬ spurious then
          some { s with nextMsgIdentifier := maxMsgIdentifier + 1, parsing := .idle,
                        settledCount := s.routed.length }
        else some { s with parsing := .setMax s.nextMsgIdentifier maxMsgIdentifier }
      else some { s with parsing := .idle, settledCount := s.routed.length }
    | _ => none

end Connection
end IDevice
