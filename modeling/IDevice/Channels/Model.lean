import IDevice.Connection.Pending

/-!
# `Channels.Model` — the channels of a connection

`MakeChannelWithIdentifier`, `CancelChannel` and the part of `RouteMessage` that looks at
`channels_by_code_`, around the machine of `Connection.Model`. Making a channel takes a code
(`fetchChannelCode`) and inserts the channel (`insertChannel`); the request that follows, like the one
with which `CancelChannel` begins, is a synchronous call of the connection (`connection`). Cancelling ends
with the erasure of the code (`eraseChannel`). A user has a channel once it is inserted, and then sets
its handler (`setMessageHandler`) and sends on it (`sendOn`).

The connection below knows channels only as the set of codes with a handler. `view` is that connection,
with the set read off the channels, and `exec_view` says that a run of this machine is one of it.

Message handlers are named by numbers, `none` is `nullptr`. `dispatched` is a ghost field: what
`RouteMessage` has handed to whom.
-/

namespace IDevice

/-- How far a channel has come. -/
inductive ChannelStage where
  /-- It has its code, and is not in `channels_by_code_` yet. -/
  | created
  | opened
  /-- `CancelChannel` has erased its code. -/
  | canceled
deriving DecidableEq, Repr

structure DTXChannel where
  channelIdentifier : UInt32
  messageHandler : Option Nat := none
  stage : ChannelStage := .created
deriving DecidableEq, Repr

/-- Who gets a routed message. -/
inductive Recipient where
  | callback (call : Nat)
  | handler (channel : Nat) (handler : Nat)
  | nobody
deriving DecidableEq, Repr

structure Dispatch where
  message : Incoming
  recipient : Recipient
deriving DecidableEq, Repr

structure ChannelConnection (KAValue : Type) where
  connection : Connection KAValue := {}
  nextChannelCode : UInt32 := 1
  /-- `std::unordered_map<ChannelIdentifier, std::shared_ptr<DTXChannel>>`. -/
  channelsByCode : UInt32 → Option Nat := fun _ => none
  /-- The channels, in the order in which they took their codes. -/
  channels : List DTXChannel := []
  dispatched : List Dispatch := []

inductive ChannelLabel (KAValue : Type) where
  | connection (label : Label KAValue)
  | fetchChannelCode
  | insertChannel (channel : Nat)
  | setMessageHandler (channel : Nat) (handler : Option Nat)
  | sendOn (channel : Nat) (kind : CallKind) (message : DTXMessage KAValue)
  | eraseChannel (channel : Nat)

namespace ChannelConnection

variable {KAValue : Type} (archivedData : KAValue → Bytes)

/-- The channel under a code in `channels_by_code_`, and its message handler, if it has one. -/
def messageHandler (s : ChannelConnection KAValue) (code : UInt32) : Option (Nat × Nat) :=
  (s.channelsByCode code).bind fun i =>
    (s.channels[i]?).bind fun channel => channel.messageHandler.map fun handler => (i, handler)

/-- Where `RouteMessage` sends a message. -/
def recipient (s : ChannelConnection KAValue) (m : Incoming) : Recipient :=
  match s.connection.handlersByIdentifier m.key with
  | some c => .callback c
  | none =>
    match s.messageHandler (Connection.absChannelCode m.channelCode) with
    | some (i, handler) => .handler i handler
    | none => .nobody

/-- The connection, with the codes that have a handler. -/
def view (s : ChannelConnection KAValue) : Connection KAValue :=
  { s.connection with messageHandlers := fun code => (s.messageHandler code).isSome }

/-- What a step of the connection hands over. -/
def dispatchedBy (s : ChannelConnection KAValue) (label : Label KAValue) : List Dispatch :=
  match label, s.connection.parsing with
  | .route, .batch (m :: _) _ => [⟨m, s.recipient m⟩]
  | _, _ => []

/-- A step of the connection. -/
def run (s : ChannelConnection KAValue) (label : Label KAValue) : Option (ChannelConnection KAValue) :=
  (Connection.step archivedData s.view label).map fun connection =>
    { s with connection := connection, dispatched := s.dispatched ++ s.dispatchedBy label }

def setChannel (s : ChannelConnection KAValue) (i : Nat) (channel : DTXChannel) :
    ChannelConnection KAValue :=
  { s with channels := s.channels.set i channel }

/-- `next_channel_code_.fetch_add(1)` and the new channel. -/
def fetchChannelCode (s : ChannelConnection KAValue) : ChannelConnection KAValue :=
  { s with nextChannelCode := s.nextChannelCode + 1
           channels := s.channels ++ [{ channelIdentifier := s.nextChannelCode }] }

/-- `channels_by_code_.insert(..)`, which keeps an entry that exists. -/
def insertChannel (s : ChannelConnection KAValue) (i : Nat) (channel : DTXChannel) :
    ChannelConnection KAValue :=
  { s.setChannel i { channel with stage := .opened } with
    channelsByCode := match s.channelsByCode channel.channelIdentifier with
      | some _ => s.channelsByCode
      | none => Function.update s.channelsByCode channel.channelIdentifier (some i) }

/-- `channels_by_code_.erase(channel.ChannelIdentifier())`. -/
def eraseChannel (s : ChannelConnection KAValue) (i : Nat) (channel : DTXChannel) :
    ChannelConnection KAValue :=
  { s.setChannel i { channel with stage := .canceled } with
    channelsByCode := Function.update s.channelsByCode channel.channelIdentifier none }

/-- The channel, once its user has it. -/
def usable (s : ChannelConnection KAValue) (i : Nat) : Option DTXChannel :=
  (s.channels[i]?).filter (·.stage ≠ .created)

def step (s : ChannelConnection KAValue) : ChannelLabel KAValue → Option (ChannelConnection KAValue)
  | .connection label =>
    match label with
    | .setMessageHandler .. => none
    | _ => s.run archivedData label
  | .fetchChannelCode => some s.fetchChannelCode
  | .insertChannel i =>
    match s.channels[i]? with
    | some channel => if channel.stage = .created then some (s.insertChannel i channel) else none
    | none => none
  | .setMessageHandler i handler =>
    (s.usable i).map fun channel => s.setChannel i { channel with messageHandler := handler }
  | .sendOn i kind message =>
    -- `msg->SetChannelCode(channel_identifier_)`
    (s.usable i).bind fun channel =>
      s.run archivedData (.take kind { message with channelCode := channel.channelIdentifier })
  | .eraseChannel i => (s.usable i).map fun channel => s.eraseChannel i channel

/-! ## What a step can do -/

variable {archivedData} {s t : ChannelConnection KAValue}

theorem usable_eq_some {i : Nat} {channel : DTXChannel} :
    s.usable i = some channel ↔ s.channels[i]? = some channel ∧ channel.stage ≠ .created := by
  simp [usable, Option.filter_eq_some_iff]

/-- What a step can do. -/
theorem step_cases {l : ChannelLabel KAValue} (h : step archivedData s l = some t) :
    match l with
    | .connection label => (∀ code present, label ≠ .setMessageHandler code present) ∧
        ∃ c, Connection.step archivedData s.view label = some c ∧
          t = { s with connection := c, dispatched := s.dispatched ++ s.dispatchedBy label }
    | .fetchChannelCode => t = s.fetchChannelCode
    | .insertChannel i => ∃ channel, s.channels[i]? = some channel ∧ channel.stage = .created ∧
        t = s.insertChannel i channel
    | .setMessageHandler i handler => ∃ channel, s.channels[i]? = some channel ∧
        channel.stage ≠ .created ∧ t = s.setChannel i { channel with messageHandler := handler }
    | .sendOn _ kind _ => ∃ message c, Connection.step archivedData s.view (.take kind message) = some c ∧
        t = { s with connection := c }
    | .eraseChannel i => ∃ channel, s.channels[i]? = some channel ∧ channel.stage ≠ .created ∧
        t = s.eraseChannel i channel := by
  cases l with
  | connection label =>
      have hlabel (code : UInt32) (present : Bool) : label ≠ .setMessageHandler code present := by
        rintro rfl
        cases h
      have hrun : s.run archivedData label = some t := by
        simp only [step] at h
        exact h
      obtain ⟨c, hc, rfl⟩ := Option.map_eq_some_iff.mp hrun
      exact ⟨hlabel, c, hc, rfl⟩
  | fetchChannelCode => exact (Option.some.inj h).symm
  | insertChannel i =>
      simp only [step] at h
      split at h
      · next channel hchannel =>
        split at h
        · next hstage => exact ⟨channel, hchannel, hstage, (Option.some.inj h).symm⟩
        · cases h
      · cases h
  | setMessageHandler i handler =>
      obtain ⟨channel, hchannel, rfl⟩ := Option.map_eq_some_iff.mp h
      obtain ⟨hi, hstage⟩ := usable_eq_some.mp hchannel
      exact ⟨channel, hi, hstage, rfl⟩
  | sendOn i kind message =>
      obtain ⟨channel, -, hrun⟩ := Option.bind_eq_some_iff.mp h
      obtain ⟨c, hc, rfl⟩ := Option.map_eq_some_iff.mp hrun
      refine ⟨_, c, hc, ?_⟩
      simp [dispatchedBy]
  | eraseChannel i =>
      obtain ⟨channel, hchannel, rfl⟩ := Option.map_eq_some_iff.mp h
      obtain ⟨hi, hstage⟩ := usable_eq_some.mp hchannel
      exact ⟨channel, hi, hstage, rfl⟩

end ChannelConnection
end IDevice
