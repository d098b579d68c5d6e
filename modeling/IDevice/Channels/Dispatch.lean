import IDevice.Channels.Model

/-!
# `Channels.Dispatch` — who gets a routed message

`ChannelTable` is the invariant of `channels_by_code_`: what stands there is an open channel under its
code, and, since no code is handed out twice among the first `2 ^ 31`, every open channel stands there.
With `Connection.found_iff_pending` for the callbacks it follows that the receiver of a message is the only
one that is entitled to it (`entitled_iff`).
-/

namespace IDevice
namespace ChannelConnection

open Machine

variable {KAValue : Type} {archivedData : KAValue → Bytes} {s t : ChannelConnection KAValue}

/-- `std::abs` of the signed channel code, where the least value stands for itself. -/
theorem absChannelCode_toNat (channelCode : UInt32) :
    (Connection.absChannelCode channelCode).toNat = channelCode.toInt32.toInt.natAbs := by
  show channelCode.toBitVec.abs.toNat = channelCode.toBitVec.toInt.natAbs
  rw [BitVec.toNat_abs, BitVec.toInt_eq_msb_cond]
  have hlt := channelCode.toBitVec.isLt
  split
  · omega
  · omega

/-! ## The channels -/

structure ChannelTable (s : ChannelConnection KAValue) : Prop where
  next : s.nextChannelCode = UInt32.ofNat (s.channels.length + 1)
  codes : ∀ i channel, s.channels[i]? = some channel →
    channel.channelIdentifier = UInt32.ofNat (i + 1)
  found : ∀ code i, s.channelsByCode code = some i → ∃ channel, s.channels[i]? = some channel ∧
    channel.channelIdentifier = code ∧ channel.stage = .opened
  listed : s.channels.length < 2 ^ 31 → ∀ i channel, s.channels[i]? = some channel →
    channel.stage = .opened → s.channelsByCode channel.channelIdentifier = some i

theorem channelTable_init : ChannelTable ({} : ChannelConnection KAValue) := by
  constructor <;> simp

/-- The first `2 ^ 31` channels have different codes. -/
theorem ChannelTable.code_inj (h : ChannelTable s) (hfew : s.channels.length < 2 ^ 31) {i j : Nat}
    {channel channel' : DTXChannel} (hi : s.channels[i]? = some channel)
    (hj : s.channels[j]? = some channel')
    (hcode : channel.channelIdentifier = channel'.channelIdentifier) : i = j := by
  have hilt := (List.getElem?_eq_some_iff.mp hi).1
  have hjlt := (List.getElem?_eq_some_iff.mp hj).1
  rw [h.codes i channel hi, h.codes j channel' hj] at hcode
  have hnat := congrArg UInt32.toNat hcode
  have hsize : UInt32.size = 2 ^ 32 := rfl
  rw [UInt32.toNat_ofNat_of_lt' (by omega), UInt32.toNat_ofNat_of_lt' (by omega)] at hnat
  omega

/-- The channel at a place that holds one is replaced. -/
theorem setChannel_getElem? {i : Nat} {channel : DTXChannel} (hi : s.channels[i]? = some channel)
    (channel' : DTXChannel) (j : Nat) :
    (s.setChannel i channel').channels[j]? = if j = i then some channel' else s.channels[j]? := by
  have hlt := (List.getElem?_eq_some_iff.mp hi).1
  unfold setChannel
  rw [List.getElem?_set]
  by_cases hji : j = i
  · subst hji
    rw [if_pos rfl, if_pos rfl, if_pos hlt]
  · rw [if_neg (Ne.symm hji), if_neg hji]

theorem setChannel_length (s : ChannelConnection KAValue) (i : Nat) (channel : DTXChannel) :
    (s.setChannel i channel).channels.length = s.channels.length := List.length_set

theorem ChannelTable.of_eq (h : ChannelTable s) (hnext : t.nextChannelCode = s.nextChannelCode)
    (hcodes : t.channelsByCode = s.channelsByCode) (hchannels : t.channels = s.channels) :
    ChannelTable t := by
  refine ⟨?_, ?_, ?_, ?_⟩
  · rw [hnext, hchannels]
    exact h.next
  · rw [hchannels]
    exact h.codes
  · rw [hcodes, hchannels]
    exact h.found
  · rw [hcodes, hchannels]
    exact h.listed

theorem ChannelTable.fetchChannelCode (h : ChannelTable s) : ChannelTable s.fetchChannelCode := by
  have hold {i : Nat} {channel : DTXChannel} (hi : s.channels[i]? = some channel) :
      s.fetchChannelCode.channels[i]? = some channel :=
    Connection.getElem?_of_isPrefix (List.prefix_append _ _) hi
  refine ⟨?_, ?_, ?_, ?_⟩
  · show s.nextChannelCode + 1 = UInt32.ofNat ((s.channels ++ [_]).length + 1)
    rw [h.next, List.length_append, List.length_singleton]
    exact (UInt32.ofNat_add _ _).symm
  · intro i channel hi
    rcases Connection.getElem?_concat_eq_some.mp hi with hi | ⟨rfl, rfl⟩
    · exact h.codes i channel hi
    · exact h.next
  · intro code i hcode
    obtain ⟨channel, hi, hrest⟩ := h.found code i hcode
    exact ⟨channel, hold hi, hrest⟩
  · intro hfew i channel hi hopened
    rcases Connection.getElem?_concat_eq_some.mp hi with hi | ⟨rfl, rfl⟩
    · refine h.listed (lt_of_le_of_lt ?_ hfew) i channel hi hopened
      exact List.IsPrefix.length_le (List.prefix_append _ _)
    · cases hopened

/-- A channel that keeps its code is replaced. -/
theorem ChannelTable.codes_setChannel (h : ChannelTable s) {i : Nat} {channel : DTXChannel}
    (hi : s.channels[i]? = some channel) (channel' : DTXChannel)
    (hcode : channel'.channelIdentifier = channel.channelIdentifier) (j : Nat) (channel'' : DTXChannel)
    (hj : (s.setChannel i channel').channels[j]? = some channel'') :
    channel''.channelIdentifier = UInt32.ofNat (j + 1) := by
  rw [setChannel_getElem? hi] at hj
  split at hj
  · next hji =>
    subst hji
    obtain rfl := Option.some.inj hj
    rw [hcode]
    exact h.codes j channel hi
  · exact h.codes j channel'' hj

/-- The code of a channel that is not open is free, among the first `2 ^ 31`. -/
theorem ChannelTable.code_free (h : ChannelTable s) (hfew : s.channels.length < 2 ^ 31) {i : Nat}
    {channel : DTXChannel} (hi : s.channels[i]? = some channel) (hclosed : channel.stage ≠ .opened) :
    s.channelsByCode channel.channelIdentifier = none := by
  by_contra hsome
  obtain ⟨j, hj⟩ := Option.ne_none_iff_exists'.mp hsome
  obtain ⟨channel', hj', hcode, hopened⟩ := h.found _ j hj
  obtain rfl := h.code_inj hfew hj' hi hcode
  obtain rfl := Option.some.inj (hi.symm.trans hj')
  exact hclosed hopened

theorem ChannelTable.insertChannel (h : ChannelTable s) {i : Nat} {channel : DTXChannel}
    (hi : s.channels[i]? = some channel) (hcreated : channel.stage = .created) :
    ChannelTable (s.insertChannel i channel) := by
  have hlookup (j : Nat) : (s.insertChannel i channel).channels[j]? =
      if j = i then some { channel with stage := .opened } else s.channels[j]? := setChannel_getElem? hi _ j
  have htable (code : UInt32) : (s.insertChannel i channel).channelsByCode code =
      if code = channel.channelIdentifier ∧ s.channelsByCode channel.channelIdentifier = none then some i
      else s.channelsByCode code := by
    unfold ChannelConnection.insertChannel
    cases hfree : s.channelsByCode channel.channelIdentifier with
    | none => by_cases hcode : code = channel.channelIdentifier <;> simp [hcode]
    | some j => simp
  refine ⟨?_, h.codes_setChannel hi { channel with stage := .opened } rfl, ?_, ?_⟩
  · show s.nextChannelCode = UInt32.ofNat ((s.setChannel i _).channels.length + 1)
    rw [setChannel_length]
    exact h.next
  · intro code j hj
    rw [htable] at hj
    rw [hlookup]
    split at hj
    · next hcond =>
      obtain rfl := Option.some.inj hj
      exact ⟨_, if_pos rfl, hcond.1.symm, rfl⟩
    · obtain ⟨channel', hj', hcode, hopened⟩ := h.found code j hj
      -- a channel in the table has been opened, and this one was not
      have hne : j ≠ i := by
        rintro rfl
        obtain rfl := Option.some.inj (hi.symm.trans hj')
        rw [hcreated] at hopened
        cases hopened
      exact ⟨channel', by rw [if_neg hne, hj'], hcode, hopened⟩
  · intro hfew j channel' hj hopened
    have hfew : s.channels.length < 2 ^ 31 := by
      rwa [← setChannel_length s i { channel with stage := .opened }]
    -- as long as the codes do not come round the code of the new channel is free
    have hfree := h.code_free hfew hi (by rw [hcreated]; simp)
    rw [hlookup] at hj
    rw [htable]
    split at hj
    · next hji =>
      obtain rfl := Option.some.inj hj
      rw [if_pos ⟨rfl, hfree⟩, hji]
    · next hji =>
      have hlisted := h.listed hfew j channel' hj hopened
      rw [if_neg, hlisted]
      rintro ⟨hcode, -⟩
      rw [hcode, hfree] at hlisted
      cases hlisted

/-- The handler of a channel does not bear on the table. -/
theorem ChannelTable.setHandler (h : ChannelTable s) {i : Nat} {channel : DTXChannel}
    (hi : s.channels[i]? = some channel) (handler : Option Nat) :
    ChannelTable (s.setChannel i { channel with messageHandler := handler }) := by
  have hlookup (j : Nat) : (s.setChannel i { channel with messageHandler := handler }).channels[j]? =
      if j = i then some { channel with messageHandler := handler } else s.channels[j]? :=
    setChannel_getElem? hi _ j
  refine ⟨?_, h.codes_setChannel hi { channel with messageHandler := handler } rfl, ?_, ?_⟩
  · rw [setChannel_length]
    exact h.next
  · intro code j hj
    obtain ⟨channel', hj', hcode, hopened⟩ := h.found code j hj
    rw [hlookup]
    by_cases hji : j = i
    · subst hji
      obtain rfl := Option.some.inj (hi.symm.trans hj')
      exact ⟨_, if_pos rfl, hcode, hopened⟩
    · exact ⟨channel', by rw [if_neg hji, hj'], hcode, hopened⟩
  · intro hfew j channel' hj hopened
    rw [setChannel_length] at hfew
    rw [hlookup] at hj
    split at hj
    · next hji =>
      obtain rfl := Option.some.inj hj
      rw [hji]
      exact h.listed hfew i channel hi hopened
    · exact h.listed hfew j channel' hj hopened

theorem ChannelTable.eraseChannel (h : ChannelTable s) {i : Nat} {channel : DTXChannel}
    (hi : s.channels[i]? = some channel) : ChannelTable (s.eraseChannel i channel) := by
  have hlookup (j : Nat) : (s.eraseChannel i channel).channels[j]? =
      if j = i then some { channel with stage := .canceled } else s.channels[j]? :=
    setChannel_getElem? hi _ j
  refine ⟨?_, h.codes_setChannel hi { channel with stage := .canceled } rfl, ?_, ?_⟩
  · show s.nextChannelCode = UInt32.ofNat ((s.setChannel i _).channels.length + 1)
    rw [setChannel_length]
    exact h.next
  · intro code j hj
    simp only [ChannelConnection.eraseChannel, Function.update_apply] at hj
    split at hj
    · cases hj
    · next hne =>
      obtain ⟨channel', hj', hcode, hopened⟩ := h.found code j hj
      have hji : j ≠ i := by
        rintro rfl
        obtain rfl := Option.some.inj (hi.symm.trans hj')
        exact hne hcode.symm
      exact ⟨channel', by rw [hlookup, if_neg hji, hj'], hcode, hopened⟩
  · intro hfew j channel' hj hopened
    have hfew : s.channels.length < 2 ^ 31 := by
      rwa [← setChannel_length s i { channel with stage := .canceled }]
    rw [hlookup] at hj
    split at hj
    · obtain rfl := Option.some.inj hj
      cases hopened
    · next hji =>
      -- the code that is erased is another one
      have hcode : channel'.channelIdentifier ≠ channel.channelIdentifier :=
        fun hcode => hji (h.code_inj hfew hj hi hcode)
      exact (Function.update_of_ne hcode _ _).trans (h.listed hfew j channel' hj hopened)

theorem channels_length_step {l : ChannelLabel KAValue} (hstep : step archivedData s l = some t) :
    s.channels.length ≤ t.channels.length := by
  have hc := step_cases hstep
  cases l with
  | connection label => obtain ⟨-, c, -, rfl⟩ := hc; exact le_rfl
  | fetchChannelCode =>
      obtain rfl : t = _ := hc
      exact List.IsPrefix.length_le (List.prefix_append _ _)
  | insertChannel i => obtain ⟨channel, -, -, rfl⟩ := hc; exact (setChannel_length s i _).ge
  | setMessageHandler i handler => obtain ⟨channel, -, -, rfl⟩ := hc; exact (setChannel_length s i _).ge
  | sendOn i kind message => obtain ⟨message', c, -, rfl⟩ := hc; exact le_rfl
  | eraseChannel i => obtain ⟨channel, -, -, rfl⟩ := hc; exact (setChannel_length s i _).ge

theorem channelTable_step {l : ChannelLabel KAValue} (h : ChannelTable s)
    (hstep : step archivedData s l = some t) : ChannelTable t := by
  have hc := step_cases hstep
  cases l with
  | connection label => obtain ⟨-, c, -, rfl⟩ := hc; exact h.of_eq rfl rfl rfl
  | fetchChannelCode => obtain rfl : t = _ := hc; exact h.fetchChannelCode
  | insertChannel i => obtain ⟨channel, hi, hcreated, rfl⟩ := hc; exact h.insertChannel hi hcreated
  | setMessageHandler i handler => obtain ⟨channel, hi, -, rfl⟩ := hc; exact h.setHandler hi handler
  | sendOn i kind message => obtain ⟨message', c, -, rfl⟩ := hc; exact h.of_eq rfl rfl rfl
  | eraseChannel i => obtain ⟨channel, hi, -, rfl⟩ := hc; exact h.eraseChannel hi

/-! ## The connection below -/

/-- The handler under a code depends on the entry of the code and the channel that stands there. -/
theorem messageHandler_congr {code : UInt32} (hcode : t.channelsByCode code = s.channelsByCode code)
    (hchannels : ∀ i, s.channelsByCode code = some i → t.channels[i]? = s.channels[i]?) :
    t.messageHandler code = s.messageHandler code := by
  unfold messageHandler
  rw [hcode]
  cases hfound : s.channelsByCode code with
  | none => rfl
  | some i => rw [Option.bind_some, Option.bind_some, hchannels i hfound]

/-- A step that changes what stands under one code is a change of that code's handler below. -/
theorem exec_setMessageHandler (code : UInt32) (hconnection : t.connection = s.connection)
    (hother : ∀ code', code' ≠ code → t.messageHandler code' = s.messageHandler code') :
    ∃ as, exec (Connection.step archivedData) s.view as = some t.view := by
  refine ⟨[.setMessageHandler code (t.messageHandler code).isSome], exec_cons_eq_some.mpr ⟨_, rfl, ?_⟩⟩
  unfold view
  rw [hconnection]
  refine congrArg (fun handlers => some { s.connection with messageHandlers := handlers }) ?_
  funext code'
  by_cases hcode : code' = code
  · rw [hcode]
    exact Function.update_self ..
  · rw [hother code' hcode]
    exact Function.update_of_ne hcode _ _

/-- A channel is looked at under its own code only. -/
theorem ChannelTable.other_channel (h : ChannelTable s) {i : Nat} {channel : DTXChannel}
    (hi : s.channels[i]? = some channel) {code : UInt32} (hcode : code ≠ channel.channelIdentifier)
    (channel' : DTXChannel) (j : Nat) (hj : s.channelsByCode code = some j) :
    (s.setChannel i channel').channels[j]? = s.channels[j]? := by
  rw [setChannel_getElem? hi, if_neg]
  rintro rfl
  obtain ⟨channel'', hj', hcode', -⟩ := h.found code j hj
  obtain rfl := Option.some.inj (hi.symm.trans hj')
  exact hcode hcode'.symm

/-- **A step is one of the connection below**, or none. -/
theorem exec_view_step {l : ChannelLabel KAValue} (h : ChannelTable s)
    (hstep : step archivedData s l = some t) :
    ∃ as, exec (Connection.step archivedData) s.view as = some t.view := by
  have hc := step_cases hstep
  -- a step of the connection leaves the channels alone
  have hrun {label : Label KAValue} {c : Connection KAValue}
      (hlabel : ∀ code present, label ≠ .setMessageHandler code present)
      (hlower : Connection.step archivedData s.view label = some c)
      (hview : t.view = { c with messageHandlers := s.view.messageHandlers }) :
      ∃ as, exec (Connection.step archivedData) s.view as = some t.view := by
    refine ⟨[label], exec_cons_eq_some.mpr ⟨c, hlower, ?_⟩⟩
    have hkeeps : c.messageHandlers = s.view.messageHandlers := by
      cases label with
      | setMessageHandler code present => exact absurd rfl (hlabel code present)
      | _ => exact (Connection.keeps_step hlower).channels rfl
    rw [hview, ← hkeeps]
    rfl
  cases l with
  | connection label =>
      obtain ⟨hlabel, c, hlower, rfl⟩ := hc
      exact hrun hlabel hlower rfl
  | sendOn i kind message =>
      obtain ⟨message', c, hlower, rfl⟩ := hc
      exact hrun (fun _ _ => by simp) hlower rfl
  | fetchChannelCode =>
      obtain rfl : t = _ := hc
      have hsame (code : UInt32) : s.fetchChannelCode.messageHandler code = s.messageHandler code := by
        refine messageHandler_congr rfl fun i hi => ?_
        obtain ⟨channel, hchannel, -⟩ := h.found code i hi
        rw [hchannel]
        exact Connection.getElem?_of_isPrefix (List.prefix_append _ _) hchannel
      refine ⟨[], congrArg some ?_⟩
      unfold view
      simp only [hsame]
      rfl
  | insertChannel i =>
      obtain ⟨channel, hi, -, rfl⟩ := hc
      refine exec_setMessageHandler channel.channelIdentifier rfl fun code hcode => ?_
      refine messageHandler_congr ?_ (h.other_channel hi hcode _)
      unfold ChannelConnection.insertChannel
      cases s.channelsByCode channel.channelIdentifier with
      | none => exact Function.update_of_ne hcode _ _
      | some j => rfl
  | setMessageHandler i handler =>
      obtain ⟨channel, hi, -, rfl⟩ := hc
      exact exec_setMessageHandler channel.channelIdentifier rfl fun code hcode =>
        messageHandler_congr rfl (h.other_channel hi hcode _)
  | eraseChannel i =>
      obtain ⟨channel, hi, -, rfl⟩ := hc
      refine exec_setMessageHandler channel.channelIdentifier rfl fun code hcode => ?_
      exact messageHandler_congr (Function.update_of_ne hcode _ _) (h.other_channel hi hcode _)

/-- **A run is one of the connection below**, and its channels only become more. -/
theorem exec_view {ls : List (ChannelLabel KAValue)} (h : ChannelTable s)
    (hexec : exec (step archivedData) s ls = some t) :
    ChannelTable t ∧ s.channels.length ≤ t.channels.length ∧
      ∃ as, exec (Connection.step archivedData) s.view as = some t.view := by
  induction ls generalizing s with
  | nil =>
      obtain rfl := Option.some.inj hexec
      exact ⟨h, le_rfl, [], rfl⟩
  | cons l ls ih =>
      obtain ⟨u, hl, hls⟩ := exec_cons_eq_some.mp hexec
      obtain ⟨as, has⟩ := exec_view_step h hl
      obtain ⟨ht, hle, bs, hbs⟩ := ih (channelTable_step h hl) hls
      exact ⟨ht, (channels_length_step hl).trans hle, as ++ bs, exec_append_eq_some.mpr ⟨_, has, hbs⟩⟩

/-! ## Who is entitled to a message -/

/-- An open channel whose code is the absolute value of the message's signed channel code. -/
def Addressed (s : ChannelConnection KAValue) (m : Incoming) (i : Nat) (channel : DTXChannel) : Prop :=
  s.channels[i]? = some channel ∧ channel.stage = .opened ∧
    channel.channelIdentifier.toNat = m.channelCode.toInt32.toInt.natAbs

/-- The pending callback under the message's channel code and identifier, otherwise the handler of the
    channel that is addressed, otherwise nobody. -/
def Entitled (s : ChannelConnection KAValue) (m : Incoming) : Recipient → Prop
  | .callback c => s.connection.Pending m c
  | .handler i handler => (∀ c, ¬ s.connection.Pending m c) ∧
      ∃ channel, s.Addressed m i channel ∧ channel.messageHandler = some handler
  | .nobody => (∀ c, ¬ s.connection.Pending m c) ∧
      ∀ i channel, s.Addressed m i channel → channel.messageHandler = none

/-- `RouteMessage` finds the handler of the channel that is addressed. -/
theorem ChannelTable.messageHandler_eq_some (h : ChannelTable s) (hfew : s.channels.length < 2 ^ 31)
    {m : Incoming} {i handler : Nat} :
    s.messageHandler (Connection.absChannelCode m.channelCode) = some (i, handler) ↔
      ∃ channel, s.Addressed m i channel ∧ channel.messageHandler = some handler := by
  simp only [messageHandler, Option.bind_eq_some_iff, Option.map_eq_some_iff, Prod.mk.injEq]
  constructor
  · rintro ⟨j, hj, channel, hchannel, handler', hhandler, rfl, rfl⟩
    obtain ⟨channel', hj', hcode, hopened⟩ := h.found _ j hj
    obtain rfl := Option.some.inj (hchannel.symm.trans hj')
    exact ⟨channel, ⟨hchannel, hopened, by rw [hcode, absChannelCode_toNat]⟩, hhandler⟩
  · rintro ⟨channel, ⟨hchannel, hopened, hcode⟩, hhandler⟩
    rw [← absChannelCode_toNat] at hcode
    rw [← UInt32.toNat.inj hcode]
    exact ⟨i, h.listed hfew i channel hchannel hopened, channel, hchannel, handler, hhandler, rfl, rfl⟩

/-- **The receiver of a message is the only one that is entitled to it.** -/
theorem entitled_iff (htabled : Connection.Tabled s.view) (hno : Connection.Unwrapped s.connection)
    (htable : ChannelTable s) (hfew : s.channels.length < 2 ^ 31) {m : Incoming} {rest : List Incoming}
    {maxId : UInt32} (hp : s.connection.parsing = .batch (m :: rest) maxId) (r : Recipient) :
    s.Entitled m r ↔ r = s.recipient m := by
  have hpending (c : Nat) : s.connection.Pending m c ↔ s.connection.handlersByIdentifier m.key = some c :=
    (htabled.found_iff_pending hno hp).symm
  have hfound (i handler : Nat) : (∃ channel, s.Addressed m i channel ∧
      channel.messageHandler = some handler) ↔
        s.messageHandler (Connection.absChannelCode m.channelCode) = some (i, handler) :=
    (htable.messageHandler_eq_some hfew).symm
  have hnobody : (∀ i channel, s.Addressed m i channel → channel.messageHandler = none) ↔
      s.messageHandler (Connection.absChannelCode m.channelCode) = none := by
    rw [Option.eq_none_iff_forall_ne_some]
    constructor
    · rintro h ⟨i, handler⟩ hsome
      obtain ⟨channel, haddressed, hhandler⟩ := (hfound i handler).mpr hsome
      rw [h i channel haddressed] at hhandler
      cases hhandler
    · intro h i channel haddressed
      by_contra hsome
      obtain ⟨handler, hhandler⟩ := Option.ne_none_iff_exists'.mp hsome
      exact h (i, handler) ((hfound i handler).mp ⟨channel, haddressed, hhandler⟩)
  -- the receiver is chosen in the order callback, handler, nobody
  unfold recipient
  cases r with
  | callback c =>
      rw [Entitled, hpending]
      cases s.connection.handlersByIdentifier m.key with
      | some c' => simp [eq_comm]
      | none => cases s.messageHandler (Connection.absChannelCode m.channelCode) <;> simp
  | handler i handler =>
      rw [Entitled, hfound]
      simp only [hpending]
      cases s.connection.handlersByIdentifier m.key with
      | some c' => simp
      | none =>
          cases s.messageHandler (Connection.absChannelCode m.channelCode) with
          | some found => simp [Prod.ext_iff, eq_comm]
          | none => simp
  | nobody =>
      rw [Entitled, hnobody]
      simp only [hpending]
      cases s.connection.handlersByIdentifier m.key with
      | some c' => simp
      | none => cases s.messageHandler (Connection.absChannelCode m.channelCode) <;> simp

/-! ## What has been dispatched -/

/-- The receiver, as the connection below knows it. -/
def Dispatch.receiver (d : Dispatch) : Receiver :=
  match d.recipient with
  | .callback c => .callback c
  | .handler _ _ => .channel (Connection.absChannelCode d.message.channelCode)
  | .nobody => .dropped

theorem receiver_recipient (m : Incoming) :
    Dispatch.receiver ⟨m, s.recipient m⟩ = s.view.receiver m := by
  have hhandlers : s.view.handlersByIdentifier = s.connection.handlersByIdentifier := rfl
  have hpresent (code : UInt32) : s.view.messageHandlers code = (s.messageHandler code).isSome := rfl
  unfold Dispatch.receiver recipient Connection.receiver
  simp only [hhandlers, hpresent]
  cases s.connection.handlersByIdentifier m.key with
  | some c => rfl
  | none => cases s.messageHandler (Connection.absChannelCode m.channelCode) <;> rfl

theorem dispatchedBy_route {m : Incoming} {rest : List Incoming} {maxId : UInt32}
    (hp : s.connection.parsing = .batch (m :: rest) maxId) :
    s.dispatchedBy .route = [⟨m, s.recipient m⟩] := by
  simp only [dispatchedBy, hp]

theorem eq_of_mem_dispatchedBy {label : Label KAValue} {d : Dispatch} (hd : d ∈ s.dispatchedBy label) :
    d.recipient = s.recipient d.message := by
  unfold dispatchedBy at hd
  split at hd
  · rw [List.mem_singleton.mp hd]
  · cases hd

theorem found_of_recipient {m : Incoming} {i handler : Nat} (h : s.recipient m = .handler i handler) :
    ∃ code, s.channelsByCode code = some i := by
  refine ⟨Connection.absChannelCode m.channelCode, ?_⟩
  unfold recipient messageHandler at h
  cases hk : s.connection.handlersByIdentifier m.key with
  | some c => simp [hk] at h
  | none =>
      cases hfound : s.channelsByCode (Connection.absChannelCode m.channelCode) with
      | none => simp [hk, hfound] at h
      | some j =>
          simp only [hk, hfound, Option.bind_some] at h
          split at h
          · next j' handler' hsome =>
            simp only [Option.bind_eq_some_iff, Option.map_eq_some_iff, Prod.mk.injEq] at hsome
            obtain ⟨channel, -, handler'', -, rfl, -⟩ := hsome
            obtain ⟨rfl, -⟩ := Recipient.handler.inj h
            rfl
          · cases h

/-- The connection below routes what is dispatched, and to whom. -/
def Agrees (s : ChannelConnection KAValue) : Prop :=
  s.dispatched.map (fun d => (d.message, Dispatch.receiver d)) =
    s.connection.routed.map fun d => (d.message, d.receiver)

theorem agrees_run {label : Label KAValue} {c : Connection KAValue} (h : Agrees s)
    (hlower : Connection.step archivedData s.view label = some c) :
    Agrees { s with connection := c, dispatched := s.dispatched ++ s.dispatchedBy label } := by
  unfold Agrees at *
  rw [List.map_append, h]
  have hkeeps := Connection.keeps_step hlower
  have hc := Connection.step_cases hlower
  cases label with
  | route =>
      obtain ⟨m, rest, maxId, hp, rfl⟩ := hc
      rw [dispatchedBy_route hp, List.map_singleton, receiver_recipient]
      show _ = List.map _ (s.connection.routed ++ [_])
      rw [List.map_append]
      rfl
  | _ => exact (List.append_nil _).trans (congrArg _ (hkeeps.routed rfl).symm)

theorem agrees_step {l : ChannelLabel KAValue} (h : Agrees s) (hstep : step archivedData s l = some t) :
    Agrees t := by
  have hc := step_cases hstep
  cases l with
  | connection label => obtain ⟨-, c, hlower, rfl⟩ := hc; exact agrees_run h hlower
  | sendOn i kind message =>
      obtain ⟨message', c, hlower, rfl⟩ := hc
      have := agrees_run h hlower
      rwa [show s.dispatchedBy (.take kind message') = [] from rfl, List.append_nil] at this
  | fetchChannelCode => obtain rfl : t = _ := hc; exact h
  | insertChannel i => obtain ⟨channel, -, -, rfl⟩ := hc; exact h
  | setMessageHandler i handler => obtain ⟨channel, -, -, rfl⟩ := hc; exact h
  | eraseChannel i => obtain ⟨channel, -, -, rfl⟩ := hc; exact h

theorem Agrees.message_eq (h : Agrees s) :
    s.dispatched.map (·.message) = s.connection.routed.map (·.message) := by
  have := congrArg (List.map Prod.fst) h
  simpa only [List.map_map, Function.comp_def] using this

/-- A callback is handed as many messages as below. -/
theorem Agrees.countP_callback (h : Agrees s) (c : Nat) :
    s.dispatched.countP (·.recipient = .callback c) =
      s.connection.routed.countP (·.receiver = .callback c) := by
  have hreceiver (d : Dispatch) : Dispatch.receiver d = .callback c ↔ d.recipient = .callback c := by
    unfold Dispatch.receiver
    cases d.recipient <;> simp
  have hcount := congrArg (List.countP fun e => decide (e.2 = Receiver.callback c)) h
  rw [List.countP_map, List.countP_map] at hcount
  simpa only [Function.comp_def, hreceiver] using hcount

/-! ## Channels that are canceled -/

def Canceled (s : ChannelConnection KAValue) (i : Nat) : Prop :=
  ∃ channel, s.channels[i]? = some channel ∧ channel.stage = .canceled

/-- A canceled channel stays canceled. -/
theorem canceled_step {l : ChannelLabel KAValue} {i : Nat} (h : Canceled s i)
    (hstep : step archivedData s l = some t) : Canceled t i := by
  have hc := step_cases hstep
  obtain ⟨channel, hi, hcanceled⟩ := h
  -- another channel is written, or this one with the same stage
  have hset {j : Nat} {channel' : DTXChannel} (hj : s.channels[j]? = some channel')
      (channel'' : DTXChannel) (hkept : channel'.stage = .canceled → channel''.stage = .canceled)
      (ht : t.channels = (s.setChannel j channel'').channels) : Canceled t i := by
    unfold Canceled
    rw [ht, setChannel_getElem? hj]
    by_cases hij : i = j
    · subst hij
      obtain rfl := Option.some.inj (hi.symm.trans hj)
      exact ⟨channel'', if_pos rfl, hkept hcanceled⟩
    · exact ⟨channel, by rw [if_neg hij, hi], hcanceled⟩
  cases l with
  | connection label => obtain ⟨-, c, -, rfl⟩ := hc; exact ⟨channel, hi, hcanceled⟩
  | sendOn j kind message => obtain ⟨message', c, -, rfl⟩ := hc; exact ⟨channel, hi, hcanceled⟩
  | fetchChannelCode =>
      obtain rfl : t = _ := hc
      exact ⟨channel, Connection.getElem?_of_isPrefix (List.prefix_append _ _) hi, hcanceled⟩
  | insertChannel j =>
      obtain ⟨channel', hj, hcreated, rfl⟩ := hc
      refine hset hj _ (fun hstage => ?_) rfl
      rw [hcreated] at hstage
      cases hstage
  | setMessageHandler j handler =>
      obtain ⟨channel', hj, -, rfl⟩ := hc
      exact hset hj { channel' with messageHandler := handler } id rfl
  | eraseChannel j =>
      obtain ⟨channel', hj, -, rfl⟩ := hc
      exact hset hj _ (fun _ => rfl) rfl

/-- Nothing is handed to the handler of a canceled channel. -/
theorem dispatched_step {l : ChannelLabel KAValue} {i : Nat} (htable : ChannelTable s)
    (h : Canceled s i) (hstep : step archivedData s l = some t) :
    ∃ later, t.dispatched = s.dispatched ++ later ∧
      ∀ d ∈ later, ∀ handler, d.recipient ≠ .handler i handler := by
  have hc := step_cases hstep
  have hnone (hsame : t.dispatched = s.dispatched) : ∃ later, t.dispatched = s.dispatched ++ later ∧
      ∀ d ∈ later, ∀ handler, d.recipient ≠ .handler i handler :=
    ⟨[], by rw [hsame, List.append_nil], by simp⟩
  cases l with
  | connection label =>
      obtain ⟨-, c, -, rfl⟩ := hc
      refine ⟨s.dispatchedBy label, rfl, ?_⟩
      intro d hd handler hrecipient
      rw [eq_of_mem_dispatchedBy hd] at hrecipient
      -- what stands in the table is open
      obtain ⟨code, hcode⟩ := found_of_recipient hrecipient
      obtain ⟨channel, hi, hcanceled⟩ := h
      obtain ⟨channel', hi', -, hopened⟩ := htable.found code i hcode
      obtain rfl := Option.some.inj (hi.symm.trans hi')
      rw [hcanceled] at hopened
      cases hopened
  | sendOn j kind message => obtain ⟨message', c, -, rfl⟩ := hc; exact hnone rfl
  | fetchChannelCode => obtain rfl : t = _ := hc; exact hnone rfl
  | insertChannel j => obtain ⟨channel', -, -, rfl⟩ := hc; exact hnone rfl
  | setMessageHandler j handler => obtain ⟨channel', -, -, rfl⟩ := hc; exact hnone rfl
  | eraseChannel j => obtain ⟨channel', -, -, rfl⟩ := hc; exact hnone rfl

theorem dispatched_exec {ls : List (ChannelLabel KAValue)} {i : Nat} (htable : ChannelTable s)
    (h : Canceled s i) (hexec : exec (step archivedData) s ls = some t) :
    ∃ later, t.dispatched = s.dispatched ++ later ∧
      ∀ d ∈ later, ∀ handler, d.recipient ≠ .handler i handler := by
  induction ls generalizing s with
  | nil =>
      obtain rfl := Option.some.inj hexec
      exact ⟨[], (List.append_nil _).symm, by simp⟩
  | cons l ls ih =>
      obtain ⟨u, hl, hls⟩ := exec_cons_eq_some.mp hexec
      obtain ⟨later₁, hlater₁, hnot₁⟩ := dispatched_step htable h hl
      obtain ⟨later₂, hlater₂, hnot₂⟩ := ih (channelTable_step htable hl) (canceled_step h hl) hls
      refine ⟨later₁ ++ later₂, by rw [hlater₂, hlater₁, List.append_assoc], ?_⟩
      intro d hd
      rcases List.mem_append.mp hd with hd | hd
      · exact hnot₁ d hd
      · exact hnot₂ d hd

theorem canceled_eraseChannel {i : Nat} (hstep : step archivedData s (.eraseChannel i) = some t) :
    Canceled t i := by
  obtain ⟨channel, hi, -, rfl⟩ := step_cases hstep
  exact ⟨{ channel with stage := .canceled }, (setChannel_getElem? hi _ i).trans (if_pos rfl), rfl⟩

/-! ## Whole runs -/

/-- What a run `ls` that has led to `t` has dispatched. -/
structure DispatchDiscipline (archivedData : KAValue → Bytes) (ls : List (ChannelLabel KAValue))
    (t : ChannelConnection KAValue) : Prop where
  /-- A routed message is handed to the only receiver that is entitled to it. -/
  entitled : ∀ before after s s', ls = before ++ .connection .route :: after →
    exec (step archivedData) {} before = some s → step archivedData s (.connection .route) = some s' →
    ∃ m r, s'.dispatched = s.dispatched ++ [⟨m, r⟩] ∧ ∀ r', s.Entitled m r' ↔ r' = r
  routed : t.dispatched.map (·.message) = t.connection.routed.map (·.message)
  /-- A callback is invoked at most once. -/
  once : ∀ c, t.dispatched.countP (·.recipient = .callback c) ≤ 1
  /-- Nothing is handed to the handler of a channel after its cancellation. -/
  canceled : ∀ before after s i, ls = before ++ .eraseChannel i :: after →
    exec (step archivedData) {} (before ++ [.eraseChannel i]) = some s →
    ∃ later, t.dispatched = s.dispatched ++ later ∧
      ∀ d ∈ later, ∀ handler, d.recipient ≠ .handler i handler

/-- The connection below a reachable state is reachable. -/
theorem tabled_exec {ls : List (ChannelLabel KAValue)} (hexec : exec (step archivedData) {} ls = some t) :
    ChannelTable t ∧ Connection.Tabled t.view := by
  obtain ⟨htable, -, as, has⟩ := exec_view channelTable_init hexec
  exact ⟨htable, Connection.tabled_run has⟩

/-- **Dispatch discipline.** In every run in which the identifier counter does not come round and fewer
    than `2 ^ 31` channel codes are handed out, messages go to who is entitled to them. -/
theorem dispatchDiscipline {ls : List (ChannelLabel KAValue)}
    (hexec : exec (step archivedData) {} ls = some t) (hno : Connection.Unwrapped t.connection)
    (hfew : t.channels.length < 2 ^ 31) : DispatchDiscipline archivedData ls t := by
  have hagrees : Agrees t := by
    refine exec_invariant Agrees ?_ hexec fun _ _ _ h hstep => agrees_step h hstep
    unfold Agrees
    rfl
  obtain ⟨-, htabled⟩ := tabled_exec hexec
  refine ⟨?_, hagrees.message_eq, ?_, ?_⟩
  · intro before after s s' hls hbefore hroute
    rw [hls, exec_append_eq_some] at hexec
    obtain ⟨s₁, hs₁, hafter⟩ := hexec
    obtain rfl := Option.some.inj (hbefore.symm.trans hs₁)
    obtain ⟨htable, hbelow⟩ := tabled_exec hbefore
    obtain ⟨-, hle, as, has⟩ := exec_view htable hafter
    obtain ⟨-, c, hlower, rfl⟩ := step_cases hroute
    obtain ⟨m, rest, maxId, hp, -⟩ := Connection.step_cases hlower
    have hunwrapped : Connection.Unwrapped s.connection :=
      fun x hx => hno x ((Connection.calls_isPrefix_exec has).subset hx)
    refine ⟨m, s.recipient m, ?_, entitled_iff hbelow hunwrapped htable (by omega) hp⟩
    rw [dispatchedBy_route hp]
  · intro c
    rw [hagrees.countP_callback]
    exact htabled.table.once c
  · intro before after s i hls hbefore
    have hsplit : ls = (before ++ [.eraseChannel i]) ++ after := by simp [hls]
    rw [hsplit, exec_append_eq_some] at hexec
    obtain ⟨s₁, hs₁, hafter⟩ := hexec
    obtain rfl := Option.some.inj (hbefore.symm.trans hs₁)
    obtain ⟨u, -, hlast⟩ := exec_append_eq_some.mp hbefore
    obtain ⟨v, hv, hnil⟩ := exec_cons_eq_some.mp hlast
    obtain rfl := Option.some.inj hnil
    exact dispatched_exec (tabled_exec hbefore).1 (canceled_eraseChannel hv) hafter

/-- A reply, a message for the channel, and one for the channel after its cancellation. -/
def replyChannelCanceled : List (ChannelLabel Unit) :=
  [.fetchChannelCode, .insertChannel 0, .setMessageHandler 0 (some 9), .sendOn 0 (.async true) {},
    .connection (.push 0), .connection (.insert 0), .connection .transmit,
    .connection (.answer 0 1 false), .connection (.initiate ⟨7, 0, 0xFFFFFFFF, false, none⟩),
    .connection (.initiate ⟨8, 0, 1, false, none⟩), .connection (.batch 3),
    .connection .route, .connection .finish, .connection .route, .connection .finish, .eraseChannel 0,
    .connection .route, .connection .finish]

theorem dispatchDiscipline_replyChannelCanceled : ∃ t : ChannelConnection Unit,
    exec (step fun _ => []) {} replyChannelCanceled = some t ∧
      DispatchDiscipline (fun _ => []) replyChannelCanceled t ∧
      t.dispatched.map (·.recipient) = [.callback 0, .handler 0 9, .nobody] := by
  obtain ⟨t, ht, hobs⟩ := Option.map_eq_some_iff.mp
    (show (exec (step fun _ => []) {} replyChannelCanceled).map (fun t =>
        (t.dispatched.map (·.recipient), t.channels.length, t.connection.calls.map (·.identifier))) =
      some ([.callback 0, .handler 0 9, .nobody], 1, [1]) by decide +kernel)
  obtain ⟨hdispatched, hlength, hcalls⟩ := by simpa only [Prod.mk.injEq] using hobs
  refine ⟨t, ht, dispatchDiscipline ht ?_ (by rw [hlength]; decide), hdispatched⟩
  intro x hx
  have hmem := List.mem_map_of_mem (f := (·.identifier)) hx
  rw [hcalls] at hmem
  rw [List.mem_singleton.mp hmem]
  decide

end ChannelConnection
end IDevice
