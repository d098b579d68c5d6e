import IDevice.Connection.Pending
import IDevice.Lib.UnorderedMap

/-!
# `Connection.Reentrancy` — callbacks that register callbacks

`RouteMessage` keeps the iterator of the handler it has found, invokes the callback, and erases the handler
through the iterator. The callback runs on the same thread and may call `SendMessageAsync`, which inserts
into the same `unordered_map`. Here the table is one with buckets (`Lib.UnorderedMap`), so an insertion may
rehash it and leave the iterator invalid; `handlersByIdentifier_insert` and `handlersByIdentifier_erase`
say that it is the finite map of `Connection.Model` otherwise.

The erasure is defined, and the table is what it should be, exactly when the keys that the callback
registers are new and there is room for them. New they are as long as the identifier counter has not come
round (`nodup_of_counterAhead`); whether there is room depends on the fill level alone.
-/

namespace IDevice

/-- A call of `SendMessageAsync`, as far as the table is concerned. -/
structure AsyncCall (ReplyHandler : Type) where
  channelCode : UInt32
  callback : Option ReplyHandler

/-- The identifier counter and the table of the handlers. -/
structure HandlerTable (ReplyHandler : Type) where
  nextMsgIdentifier : UInt32
  handlersByIdentifier : UnorderedMap UInt64 ReplyHandler

namespace HandlerTable

variable {ReplyHandler : Type} (rehash : Nat → Nat)

def sendMessageAsync (s : HandlerTable ReplyHandler) (call : AsyncCall ReplyHandler) :
    HandlerTable ReplyHandler :=
  let msgIdentifier := s.nextMsgIdentifier
  let s := { s with nextMsgIdentifier := s.nextMsgIdentifier + 1 }
  match call.callback with
  | none => s
  | some callback =>
    let replyIdentifier := dtxMessageIdentifier call.channelCode msgIdentifier
    { s with handlersByIdentifier := s.handlersByIdentifier.insert rehash replyIdentifier callback }

/-- `RouteMessage`, where `invoke` lists the calls that a callback makes and `messageHandlers` those that
    the handler of a channel makes; `none` when a handler is erased through an invalid iterator. -/
def routeMessage (invoke : ReplyHandler → Incoming → List (AsyncCall ReplyHandler))
    (messageHandlers : UInt32 → Option (Incoming → List (AsyncCall ReplyHandler)))
    (s : HandlerTable ReplyHandler) (m : Incoming) : Option (HandlerTable ReplyHandler) :=
  match s.handlersByIdentifier.find m.key with
  | some (callbackFound, callback) =>
    let s := (invoke callback m).foldl (sendMessageAsync rehash) s
    (s.handlersByIdentifier.erase callbackFound).map fun table =>
      { s with handlersByIdentifier := table }
  | none =>
    match messageHandlers (Connection.absChannelCode m.channelCode) with
    | some handler => some ((handler m).foldl (sendMessageAsync rehash) s)
    | none => some s

/-- The entries that a sequence of calls registers. -/
def registered (next : UInt32) : List (AsyncCall ReplyHandler) → List (UInt64 × ReplyHandler)
  | [] => []
  | call :: calls =>
    (call.callback.map fun callback => (dtxMessageIdentifier call.channelCode next, callback)).toList ++
      registered (next + 1) calls

/-- Routing `m` to a callback that makes `calls` is defined, and leaves the old table without the invoked
    handler and with those that the callback registered. -/
def ToleratesRegistration (invoke : ReplyHandler → Incoming → List (AsyncCall ReplyHandler))
    (messageHandlers : UInt32 → Option (Incoming → List (AsyncCall ReplyHandler)))
    (s : HandlerTable ReplyHandler) (m : Incoming) (calls : List (AsyncCall ReplyHandler)) : Prop :=
  ∃ s', routeMessage rehash invoke messageHandlers s m = some s' ∧
    s'.handlersByIdentifier.entries.Perm
      (s.handlersByIdentifier.entries.filter (fun entry => entry.1 ≠ m.key) ++
        registered s.nextMsgIdentifier calls)

variable {rehash} {invoke : ReplyHandler → Incoming → List (AsyncCall ReplyHandler)}
  {messageHandlers : UInt32 → Option (Incoming → List (AsyncCall ReplyHandler))}
  {s : HandlerTable ReplyHandler} {m : Incoming} {callback : ReplyHandler}

/-! ## The finite map of the connection -/

section FiniteMap
variable {KAValue : Type} {connection : Connection KAValue} {table table' : UnorderedMap UInt64 Nat}

theorem handlersByIdentifier_insert (h : connection.handlersByIdentifier = table.lookup) (c : Nat)
    (x : Call KAValue) :
    (connection.insertHandler c x).handlersByIdentifier = (table.insert rehash x.key c).lookup := by
  rw [UnorderedMap.lookup_insert, Connection.insertHandler, h]
  cases table.lookup x.key <;> rfl

theorem handlersByIdentifier_erase (h : connection.handlersByIdentifier = table.lookup)
    (herase : table.erase ⟨m.key, table.rehashes⟩ = some table') (c : Nat) (rest : List Incoming)
    (maxMsgIdentifier : UInt32) :
    (connection.finishRoute m (some c) rest maxMsgIdentifier).handlersByIdentifier = table'.lookup := by
  rw [UnorderedMap.lookup_erase herase, Connection.finishRoute, h]
  rfl

end FiniteMap

/-! ## What a callback does to the table -/

theorem handlers_sendAll (s : HandlerTable ReplyHandler) (calls : List (AsyncCall ReplyHandler)) :
    (calls.foldl (sendMessageAsync rehash) s).handlersByIdentifier =
      s.handlersByIdentifier.insertAll rehash (registered s.nextMsgIdentifier calls) := by
  induction calls generalizing s with
  | nil => rfl
  | cons call calls ih =>
      rw [List.foldl_cons, ih, registered]
      cases hcallback : call.callback with
      | none => simp [sendMessageAsync, hcallback]
      | some callback => simp [sendMessageAsync, hcallback, UnorderedMap.insertAll]

/-- Where a handler is found, routing is defined as long as the table is not rehashed. -/
theorem routeMessage_found (hfound : s.handlersByIdentifier.lookup m.key = some callback) :
    routeMessage rehash invoke messageHandlers s m =
      (((invoke callback m).foldl (sendMessageAsync rehash) s).handlersByIdentifier.erase
        ⟨m.key, s.handlersByIdentifier.rehashes⟩).map fun table =>
          { (invoke callback m).foldl (sendMessageAsync rehash) s with handlersByIdentifier := table } := by
  simp only [routeMessage, UnorderedMap.find, hfound, Option.map_some]

/-- **Routing tolerates the registrations** exactly when they all take effect and rehash nothing. -/
theorem toleratesRegistration_iff_kept (hfound : s.handlersByIdentifier.lookup m.key = some callback) :
    ToleratesRegistration rehash invoke messageHandlers s m (invoke callback m) ↔
      (s.handlersByIdentifier.insertAll rehash
          (registered s.nextMsgIdentifier (invoke callback m))).rehashes =
        s.handlersByIdentifier.rehashes ∧
      (s.handlersByIdentifier.insertAll rehash
          (registered s.nextMsgIdentifier (invoke callback m))).entries =
        s.handlersByIdentifier.entries ++ registered s.nextMsgIdentifier (invoke callback m) := by
  have hmem : m.key ∈ s.handlersByIdentifier.keys :=
    UnorderedMap.mem_keys_iff.mpr (by simp [hfound])
  unfold ToleratesRegistration
  rw [routeMessage_found hfound, handlers_sendAll]
  generalize registered s.nextMsgIdentifier (invoke callback m) = more
  constructor
  · rintro ⟨s', hroute, hperm⟩
    obtain ⟨table, herase, rfl⟩ := Option.map_eq_some_iff.mp hroute
    obtain ⟨added, hsublist, hentries⟩ : ∃ added, added.Sublist more ∧
        (s.handlersByIdentifier.insertAll rehash more).entries = s.handlersByIdentifier.entries ++ added :=
      UnorderedMap.exists_sublist_insertAll
    unfold UnorderedMap.erase at herase
    split at herase
    · next hvalid =>
      obtain rfl := Option.some.inj herase
      refine ⟨hvalid.1.symm, ?_⟩
      -- an entry that was not added would be missing in the end
      have hcount := hperm.length_eq
      simp only [hentries, List.filter_append, List.length_append] at hcount
      have hle := List.length_filter_le (fun entry : UInt64 × ReplyHandler => decide (entry.1 ≠ m.key)) added
      rw [hentries, hsublist.eq_of_length_le (by omega)]
    · cases herase
  · rintro ⟨hkept, hentries⟩
    have hnodup := (s.handlersByIdentifier.insertAll rehash more).nodup
    rw [hentries, List.map_append] at hnodup
    have hothers : more.filter (fun entry => entry.1 ≠ m.key) = more := by
      refine List.filter_eq_self.mpr fun entry hentry => ?_
      have hne := (List.nodup_append.mp hnodup).2.2 m.key hmem entry.1 (List.mem_map_of_mem hentry)
      simpa using hne.symm
    have hthere : m.key ∈ (s.handlersByIdentifier.insertAll rehash more).keys := by
      rw [UnorderedMap.keys, hentries, List.map_append]
      exact List.mem_append_left _ hmem
    refine ⟨_, Option.map_eq_some_iff.mpr ⟨_, if_pos ⟨hkept.symm, hthere⟩, rfl⟩, ?_⟩
    show (List.filter _ (s.handlersByIdentifier.insertAll rehash more).entries).Perm _
    rw [hentries, List.filter_append, hothers]

/-! ## Which keys are new -/

/-- The registered keys carry identifiers from the counter on, and none twice, until it comes round. -/
theorem registered_spec {next : UInt32} {calls : List (AsyncCall ReplyHandler)}
    (hbound : next.toNat + calls.length < 2 ^ 32) :
    ((registered next calls).map Prod.fst).Nodup ∧ ∀ key ∈ (registered next calls).map Prod.fst,
      ∃ channelCode identifier, key = dtxMessageIdentifier channelCode identifier ∧
        next.toNat ≤ identifier.toNat := by
  induction calls generalizing next with
  | nil => exact ⟨List.nodup_nil, fun key hkey => absurd hkey List.not_mem_nil⟩
  | cons call calls ih =>
      rw [List.length_cons] at hbound
      have hnext : (next + 1).toNat = next.toNat + 1 := by
        rw [UInt32.toNat_add]
        exact Nat.mod_eq_of_lt (show next.toNat + 1 < 2 ^ 32 by omega)
      have hlen : (next + 1).toNat + calls.length < 2 ^ 32 := by omega
      obtain ⟨hnodup, hkeys⟩ := ih hlen
      have hlater : ∀ key ∈ (registered (next + 1) calls).map Prod.fst,
          ∃ channelCode identifier, key = dtxMessageIdentifier channelCode identifier ∧
            next.toNat < identifier.toNat := by
        intro key hkey
        obtain ⟨channelCode, identifier, rfl, hle⟩ := hkeys key hkey
        exact ⟨channelCode, identifier, rfl, by omega⟩
      rw [registered]
      cases call.callback with
      | none =>
          refine ⟨hnodup, fun key hkey => ?_⟩
          obtain ⟨channelCode, identifier, rfl, hlt⟩ := hlater key hkey
          exact ⟨channelCode, identifier, rfl, hlt.le⟩
      | some callback =>
          rw [Option.map_some, Option.toList_some, List.singleton_append, List.map_cons]
          refine ⟨List.nodup_cons.mpr ⟨fun hmem => ?_, hnodup⟩, fun key hkey => ?_⟩
          · obtain ⟨channelCode, identifier, heq, hlt⟩ := hlater _ hmem
            rw [(dtxMessageIdentifier_inj.mp heq).2] at hlt
            exact lt_irrefl _ hlt
          · rcases List.mem_cons.mp hkey with rfl | hkey
            · exact ⟨_, _, rfl, le_refl _⟩
            · obtain ⟨channelCode, identifier, rfl, hlt⟩ := hlater key hkey
              exact ⟨channelCode, identifier, rfl, hlt.le⟩

/-- Every handler stands under an identifier that the counter has passed. -/
def CounterAhead (s : HandlerTable ReplyHandler) : Prop :=
  ∀ key ∈ s.handlersByIdentifier.keys, ∃ channelCode identifier,
    key = dtxMessageIdentifier channelCode identifier ∧
      identifier.toNat < s.nextMsgIdentifier.toNat

/-- **The registered keys are new** as long as the counter is ahead and does not come round. -/
theorem nodup_of_counterAhead (hahead : s.CounterAhead) {calls : List (AsyncCall ReplyHandler)}
    (hbound : s.nextMsgIdentifier.toNat + calls.length < 2 ^ 32) :
    ((s.handlersByIdentifier.entries ++ registered s.nextMsgIdentifier calls).map Prod.fst).Nodup := by
  obtain ⟨hnodup, hkeys⟩ := registered_spec hbound
  rw [List.map_append]
  refine List.nodup_append.mpr ⟨s.handlersByIdentifier.nodup, hnodup, fun key hold key' hnew heq => ?_⟩
  subst heq
  obtain ⟨channelCode, identifier, rfl, hlt⟩ := hahead key hold
  obtain ⟨channelCode', identifier', hkey, hle⟩ := hkeys _ hnew
  rw [(dtxMessageIdentifier_inj.mp hkey).2] at hlt
  omega

/-! ## When registrations are tolerated -/

/-- While the counter is ahead, registrations are tolerated exactly when there is room for them. -/
theorem toleratesRegistration_iff_hasRoom (hahead : s.CounterAhead)
    (hfound : s.handlersByIdentifier.lookup m.key = some callback)
    (hbound : s.nextMsgIdentifier.toNat + (invoke callback m).length < 2 ^ 32) :
    ToleratesRegistration rehash invoke messageHandlers s m (invoke callback m) ↔
      s.handlersByIdentifier.HasRoom (registered s.nextMsgIdentifier (invoke callback m)).length := by
  rw [toleratesRegistration_iff_kept hfound, UnorderedMap.insertAll_kept_iff]
  exact and_iff_right (nodup_of_counterAhead hahead hbound)

/-- **Routing tolerates registrations by the callback** exactly when all their keys are new and there is
    room for them in the table. -/
theorem toleratesRegistration_iff (hfound : s.handlersByIdentifier.lookup m.key = some callback) :
    ToleratesRegistration rehash invoke messageHandlers s m (invoke callback m) ↔
      ((s.handlersByIdentifier.entries ++
          registered s.nextMsgIdentifier (invoke callback m)).map Prod.fst).Nodup ∧
        s.handlersByIdentifier.HasRoom (registered s.nextMsgIdentifier (invoke callback m)).length :=
  (toleratesRegistration_iff_kept hfound).trans UnorderedMap.insertAll_kept_iff

/-- Handlers wait for the replies to the messages 1 to 13 of channel 1. -/
def thirteenHandlers (bucketCount : Nat) : HandlerTable Unit where
  nextMsgIdentifier := 14
  handlersByIdentifier :=
    { entries := (List.range 13).map fun i => (dtxMessageIdentifier 1 (UInt32.ofNat (i + 1)), ())
      nodup := by decide
      bucketCount := bucketCount }

/-- The reply to message 5. -/
def replyToFive : Incoming := ⟨5, 1, 1, false, none⟩

/-- A callback that sends another message, whose reply it waits for. -/
def sendAgain (_ : Unit) (_ : Incoming) : List (AsyncCall Unit) := [⟨1, some ()⟩]

theorem toleratesRegistration_iff_room :
    ToleratesRegistration (fun n => 2 * n) sendAgain (fun _ => none) (thirteenHandlers 29) replyToFive
        (sendAgain () replyToFive) ↔
      (((thirteenHandlers 29).handlersByIdentifier.entries ++
          registered 14 (sendAgain () replyToFive)).map Prod.fst).Nodup ∧
        (thirteenHandlers 29).handlersByIdentifier.HasRoom
          (registered 14 (sendAgain () replyToFive)).length :=
  toleratesRegistration_iff
    (show (thirteenHandlers 29).handlersByIdentifier.lookup replyToFive.key = some () by decide)

/-- With 13 handlers in 13 buckets the callback's own handler rehashes the table. -/
theorem not_toleratesRegistration_full :
    ¬ ToleratesRegistration (fun n => 2 * n) sendAgain (fun _ => none) (thirteenHandlers 13) replyToFive
        (sendAgain () replyToFive) := by
  intro h
  have hfound : (thirteenHandlers 13).handlersByIdentifier.lookup replyToFive.key = some () := by decide
  have hroom := (UnorderedMap.insertAll_kept_iff.mp ((toleratesRegistration_iff_kept hfound).mp h)).2
  rcases hroom with hzero | hholds
  · exact absurd hzero (by decide)
  · have hle : ((14 : Nat) : ℚ) ≤ 1 * ((13 : Nat) : ℚ) := hholds
    rw [one_mul, Nat.cast_le] at hle
    omega

end HandlerTable
end IDevice
