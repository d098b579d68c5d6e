import IDevice.Message.HeldValues

/-!
# `Message.Lifetimes` — what the messages keep, free and lose

`callAll_ledger` says what any sequence of calls on any number of messages comes to: no block is freed twice or used
after it was freed, the messages and what they emit are those of the values, and every allocated block is that of one
live message, or lost.
-/

namespace IDevice

open LittleEndian HeapProgram Heap

/-! ## Messages -/

/-- The pointer and the flag beside the payload and its owner. -/
inductive PayloadHolds : PayloadPointer → Bool → Option Bytes → PayloadOwner → List (Nat × Bytes) → Prop where
  | nobody : PayloadHolds .null false none .nobody []
  | copied (b : Nat) (bytes : Bytes) : PayloadHolds (.block b) true (some bytes) .copied [(b, bytes)]
  | callers (bytes : Bytes) : PayloadHolds (.callers bytes) false (some bytes) .callers []
  | archived (b : Nat) (bytes : Bytes) : PayloadHolds (.block b) false (some bytes) .archived [(b, bytes)]

inductive AuxiliaryHolds : Option ArrayObject → Option DTXPrimitiveArray → List (Nat × Bytes) → Prop where
  | none : AuxiliaryHolds none none []
  | some {a : ArrayObject} {d : DTXPrimitiveArray} {b : List (Nat × Bytes)} (array : a.Holds d b) :
      AuxiliaryHolds (some a) (some d) b

section
variable {KAValue : Type}

/-- The fields of an object, with its payload and its array as values. -/
def MessageObject.toMessage (o : MessageObject KAValue) (payload : Option Bytes) (auxiliary : Option DTXPrimitiveArray) :
    DTXMessage KAValue where
  payloadObject := o.payloadObject
  payloadBuffer := payload
  costSize := o.costSize
  messageType := o.messageType
  auxiliary := auxiliary
  auxiliaryObjects := o.auxiliaryObjects
  identifier := o.identifier
  conversationIndex := o.conversationIndex
  channelCode := o.channelCode
  expectsReply := o.expectsReply
  deserialized := o.deserialized

/-- The object is this message, and has these blocks. -/
inductive MessageObject.Holds : MessageObject KAValue → HeldMessage KAValue → List (Nat × Bytes) → Prop where
  | intro {o : MessageObject KAValue} {payload : Option Bytes} {owner : PayloadOwner} {p a : List (Nat × Bytes)}
      {auxiliary : Option DTXPrimitiveArray}
      (hpayload : PayloadHolds o.payloadBuffer o.shouldFreePayloadBuffer payload owner p)
      (hsize : o.payloadSize = (payload.getD []).length) (harray : AuxiliaryHolds o.auxiliary auxiliary a) :
      Holds o ⟨o.toMessage payload auxiliary, owner, true⟩ (p ++ a)

end

theorem PayloadHolds.blocks {KAValue : Type} {x : PayloadPointer} {shouldFree : Bool} {m : HeldMessage KAValue}
    {p : List (Nat × Bytes)} (h : PayloadHolds x shouldFree m.message.payloadBuffer m.owner p) :
    m.payloadBlocks = p.map Prod.snd := by
  unfold HeldMessage.payloadBlocks
  generalize m.message.payloadBuffer = payload at h ⊢
  generalize m.owner = owner at h ⊢
  cases h <;> rfl

theorem AuxiliaryHolds.destroy {x : Option ArrayObject} {d : Option DTXPrimitiveArray} {b : List (Nat × Bytes)}
    (h : AuxiliaryHolds x d b) : Implements b (PrimitiveObject.destroyAll ((x.map ArrayObject.items).getD []))
      (pure ()) fun _ _ blocks => blocks = [] := by
  cases h with
  | none => exact implements_pure rfl
  | some array => exact PrimitiveObject.destroyAll_implements array.items

theorem AuxiliaryHolds.serializedLength {x : Option ArrayObject} {d : Option DTXPrimitiveArray} {b : List (Nat × Bytes)}
    (h : AuxiliaryHolds x d b) :
    (x.map ArrayObject.serializedLength).getD 0 = (d.map DTXPrimitiveArray.serializedLength).getD 0 := by
  cases h with
  | none => rfl
  | some array => exact array.serializedLength

namespace MessageObject

variable {KAValue : Type} {archivedData : KAValue → Bytes} {grows : Nat → Bool} {o : MessageObject KAValue}
  {m : HeldMessage KAValue} {b : List (Nat × Bytes)}

theorem holds_of {payload : Option Bytes} {owner : PayloadOwner} {p a : List (Nat × Bytes)}
    {auxiliary : Option DTXPrimitiveArray}
    (hpayload : PayloadHolds o.payloadBuffer o.shouldFreePayloadBuffer payload owner p)
    (hsize : o.payloadSize = (payload.getD []).length) (harray : AuxiliaryHolds o.auxiliary auxiliary a)
    (hm : m = ⟨o.toMessage payload auxiliary, owner, true⟩) (hb : b = p ++ a) : o.Holds m b := by
  subst hm hb
  exact .intro hpayload hsize harray

theorem Holds.setField (h : o.Holds m b) (field : MessageField KAValue) :
    (o.setField field).Holds (m.setField field) b := by
  cases h with
  | intro hpayload hsize harray => cases field <;> exact .intro hpayload hsize harray

/-- **A payload buffer that is overwritten** is lost when it was a block. -/
theorem setPayloadBuffer_implements (h : o.Holds m b) (buffer : Option Bytes) (shouldCopy : Bool) :
    Implements b (o.setPayloadBuffer buffer shouldCopy) (m.setPayloadBuffer buffer shouldCopy) Holds := by
  cases h with
  | @intro payload owner p a auxiliary hpayload hsize harray =>
      unfold HeldMessage.setPayloadBuffer
      rw [PayloadHolds.blocks hpayload]
      refine Implements.lose ?_
      cases shouldCopy with
      | true =>
          refine Implements.bind_pure (implements_malloc (buffer.getD [])) (.refl a) ?_
          rintro block blocks rfl
          exact implements_pure (holds_of (.copied block (buffer.getD [])) rfl harray rfl rfl)
      | false =>
          cases buffer with
          | none => exact implements_pure (holds_of .nobody rfl harray rfl rfl)
          | some bytes => exact implements_pure (holds_of (.callers bytes) rfl harray rfl rfl)

theorem setAuxiliary_implements (h : o.Holds m b) {x : Option ArrayObject} {d : Option DTXPrimitiveArray}
    {own : List (Nat × Bytes)} (hx : AuxiliaryHolds x d own) :
    Implements (b ++ own) (o.setAuxiliary x) (pure (m.setAuxiliary d)) Holds := by
  cases h with
  | @intro payload owner p a auxiliary hpayload hsize harray =>
      have hperm : (p ++ a ++ own).Perm (a ++ (p ++ own)) := by
        rw [List.append_assoc]
        exact List.perm_append_comm_assoc p a own
      refine Implements.bind_pure harray.destroy hperm ?_
      rintro _ blocks rfl
      exact implements_pure (holds_of hpayload hsize hx rfl rfl)

theorem appendAuxiliary_implements (h : o.Holds m b) (aux : DTXPrimitiveValue) :
    Implements b (o.appendAuxiliary grows aux) (m.appendAuxiliary aux) Holds := by
  cases h with
  | @intro payload owner p a auxiliary hpayload hsize harray =>
      unfold appendAuxiliary
      generalize hx : o.auxiliary = x at harray
      cases harray with
      | none => exact implements_stop MessageStop.noAuxiliary
      | some array =>
          refine Implements.bind_pure (ArrayObject.append_implements array aux) List.perm_append_comm ?_
          intro a' blocks ha'
          exact Implements.perm (implements_pure (holds_of hpayload hsize (.some ha') rfl rfl)) List.perm_append_comm

theorem appendAuxiliaryObject_implements (h : o.Holds m b) (aux : KAValue) :
    Implements b (o.appendAuxiliaryObject grows aux) (m.appendAuxiliaryObject aux) Holds := by
  cases h with
  | @intro payload owner p a auxiliary hpayload hsize harray =>
      unfold appendAuxiliaryObject
      generalize hx : o.auxiliary = x at harray
      cases harray with
      | none => exact implements_stop MessageStop.noAuxiliary
      | @some x d _ array =>
          have hlength : x.items.length = d.items.length := array.items.length_eq
          refine Implements.bind_pure (ArrayObject.append_implements array .null) List.perm_append_comm ?_
          intro a' blocks ha'
          refine Implements.perm (implements_pure ?_) List.perm_append_comm
          rw [hlength]
          refine holds_of hpayload hsize (.some ha') ?_ rfl
          show HeldMessage.mk (if d.items.length ∈ o.auxiliaryObjects.map Prod.fst then _ else _) owner true = _
          by_cases hmem : d.items.length ∈ o.auxiliaryObjects.map Prod.fst
          · rw [if_pos hmem]
            simp only [if_pos hmem]
            rfl
          · rw [if_neg hmem]
            simp only [if_neg hmem]
            rfl

variable (archivedData) in
/-- **Objects that are archived**: what they are assigned to is lost. -/
theorem archiveObjects_implements {os : List PrimitiveObject} {vs : List DTXPrimitiveValue}
    (h : Each PrimitiveObject.Holds os vs b) (objects : List (Nat × KAValue)) :
    Implements b (archiveObjects archivedData os objects) (HeldMessage.archiveObjects archivedData vs objects)
      (Each PrimitiveObject.Holds) := by
  induction objects generalizing os vs b with
  | nil => exact implements_pure h
  | cons it objects ih =>
      obtain ⟨index, object⟩ := it
      unfold archiveObjects HeldMessage.archiveObjects
      cases hv : vs[index]? with
      | none =>
          have ho : os[index]? = none := by
            rw [List.getElem?_eq_none_iff] at hv ⊢
            rwa [h.length_eq]
          rw [ho]
          exact implements_stop MessageStop.outOfRange
      | some v =>
          obtain ⟨item, own, others, ho, hitem, hperm, hset⟩ := h.split hv
          rw [ho]
          refine Implements.perm ?_ hperm
          simp only [hitem.blocks]
          refine Implements.lose ?_
          refine Implements.bind_pure (implements_malloc (archivedData object)) (.refl others) ?_
          rintro buffer blocks rfl
          have hadopted : (PrimitiveObject.adopt buffer (archivedData object).length).Holds
              (.buffer (archivedData object)) [(buffer, archivedData object)] := .buffer buffer _
          obtain ⟨b', heach, hperm'⟩ := hset _ _ _ (hadopted.moveValue item)
          exact Implements.perm (ih heach) hperm'.symm

/-- They end up where the list of values has them. -/
theorem archiveObjects_eq {vs vs' : List DTXPrimitiveValue} {objects : List (Nat × KAValue)} {gone : List Bytes}
    (h : HeldMessage.archiveObjects archivedData vs objects = .ok (vs', gone)) :
    objects.foldl (fun items it => items.set it.1 (.buffer (archivedData it.2))) vs = vs' := by
  induction objects generalizing vs gone with
  | nil => exact (Prod.mk.inj (Except.ok.inj h)).1
  | cons it objects ih =>
      obtain ⟨index, object⟩ := it
      unfold HeldMessage.archiveObjects at h
      cases hv : vs[index]? with
      | none =>
          rw [hv] at h
          cases h
      | some v =>
          rw [hv] at h
          obtain ⟨_, _, later, -, hrest, -⟩ := Ledger.exists_of_bind h
          exact ih hrest

/-- The message is the one with its objects archived. -/
theorem maybeSerializeAuxiliaryObjects_message {m m' : HeldMessage KAValue} {gone : List Bytes}
    (h : m.maybeSerializeAuxiliaryObjects archivedData = .ok (m', gone)) :
    m'.message = m.message.maybeSerializeAuxiliaryObjects archivedData := by
  unfold HeldMessage.maybeSerializeAuxiliaryObjects at h
  by_cases hnil : m.message.auxiliaryObjects = []
  · rw [if_pos hnil] at h
    obtain ⟨rfl, -⟩ := Prod.mk.inj (Except.ok.inj h)
    unfold DTXMessage.maybeSerializeAuxiliaryObjects
    obtain ⟨⟨_, _, _, _, auxiliary, _, _, _, _, _, _⟩, _, _⟩ := m
    cases hnil
    cases auxiliary <;> rfl
  · rw [if_neg hnil] at h
    cases haux : m.message.auxiliary with
    | none =>
        rw [haux] at h
        cases h
    | some a =>
        rw [haux] at h
        obtain ⟨_, _, _, -, hlast, -⟩ := Ledger.exists_of_bind h
        obtain ⟨rfl, -⟩ := Prod.mk.inj (Except.ok.inj hlast)
        rfl

variable (archivedData) in
theorem maybeSerializeAuxiliaryObjects_implements (h : o.Holds m b) :
    Implements b (o.maybeSerializeAuxiliaryObjects archivedData) (m.maybeSerializeAuxiliaryObjects archivedData)
      Holds := by
  cases h with
  | @intro payload owner p a auxiliary hpayload hsize harray =>
      unfold maybeSerializeAuxiliaryObjects HeldMessage.maybeSerializeAuxiliaryObjects
      by_cases hnil : o.auxiliaryObjects = []
      · rw [if_pos hnil, if_pos (show (o.toMessage payload auxiliary).auxiliaryObjects = [] from hnil)]
        exact implements_pure (.intro hpayload hsize harray)
      · rw [if_neg hnil, if_neg (show (o.toMessage payload auxiliary).auxiliaryObjects ≠ [] from hnil)]
        generalize hx : o.auxiliary = x at harray
        cases harray with
        | none => exact implements_stop MessageStop.noAuxiliary
        | @some x d _ array =>
            have harchive := archiveObjects_implements archivedData array.items o.auxiliaryObjects
            refine Implements.bind_frame (harchive.returned fun vs gone => archiveObjects_eq) List.perm_append_comm ?_
            rintro items vs blocks ⟨hvs, hitems⟩
            refine Implements.perm (implements_pure ?_) List.perm_append_comm
            refine holds_of hpayload hsize (.some (d := { d with items := vs }) ⟨array.asDict, hitems⟩) ?_ rfl
            rw [← hvs]
            rfl

/-- With a buffer, or without an object, nothing is archived. -/
theorem maybeSerializePayloadObject_of (h : m.message.payloadBuffer ≠ none ∨ m.message.payloadObject = none) :
    m.maybeSerializePayloadObject archivedData = m := by
  obtain ⟨⟨object, buffer, _, _, _, _, _, _, _, _, _⟩, owner, live⟩ := m
  cases buffer with
  | some bytes => rfl
  | none =>
      rcases h with h | h
      · exact absurd rfl h
      · cases h
        rfl

/-- **The archive of the payload object** is a block that the message does not own. -/
theorem maybeSerializePayloadObject_implements (h : o.Holds m b) :
    Implements b (o.maybeSerializePayloadObject archivedData) (pure (m.maybeSerializePayloadObject archivedData))
      Holds := by
  cases h with
  | @intro payload owner p a auxiliary hpayload hsize harray =>
      have hheld := MessageObject.Holds.intro hpayload hsize harray
      unfold maybeSerializePayloadObject
      generalize hx : o.payloadBuffer = x at hpayload
      generalize hf : o.shouldFreePayloadBuffer = f at hpayload
      cases hpayload with
      | nobody =>
          cases hobject : o.payloadObject with
          | none =>
              rw [maybeSerializePayloadObject_of (.inr hobject)]
              exact implements_pure hheld
          | some object =>
              refine Implements.bind_pure (implements_malloc (archivedData object)) (.refl a) ?_
              rintro block blocks rfl
              refine implements_pure (holds_of (.archived block (archivedData object)) rfl harray ?_ rfl)
              unfold HeldMessage.maybeSerializePayloadObject DTXMessage.maybeSerializePayloadObject toMessage
              simp only [hobject]
              rfl
      | copied block bytes =>
          rw [maybeSerializePayloadObject_of (.inl (Option.some_ne_none bytes))]
          exact implements_pure hheld
      | callers bytes =>
          rw [maybeSerializePayloadObject_of (.inl (Option.some_ne_none bytes))]
          exact implements_pure hheld
      | archived block bytes =>
          rw [maybeSerializePayloadObject_of (.inl (Option.some_ne_none bytes))]
          exact implements_pure hheld

/-! ### Serialization -/

theorem Holds.payloadSize (h : o.Holds m b) : o.payloadSize = m.message.payloadSize := by
  cases h with
  | intro _ hsize _ => exact hsize

theorem Holds.auxiliaryCount (h : o.Holds m b) :
    (o.auxiliary.map ArrayObject.serializedLength).getD 0 = m.message.auxiliaryCount := by
  cases h with
  | intro _ _ harray => exact harray.serializedLength

theorem Holds.messageType (h : o.Holds m b) : o.messageType = m.message.messageType := by
  cases h
  rfl

theorem maybeSerializePayloadObject_auxiliaryCount (m : DTXMessage KAValue) :
    (m.maybeSerializePayloadObject archivedData).auxiliaryCount = m.auxiliaryCount := by
  unfold DTXMessage.maybeSerializePayloadObject
  split <;> rfl

theorem auxiliaryLength_eq (m : DTXMessage KAValue) : UInt32.ofNat m.auxiliaryCount = m.auxiliaryLength := by
  unfold DTXMessage.auxiliaryCount DTXMessage.auxiliaryLength
  cases m.auxiliary <;> rfl

theorem serializeAuxiliary_implements (h : o.Holds m b) :
    Implements b (o.serializeAuxiliary m.message.auxiliaryLength)
      (pure (if 0 < m.message.auxiliaryLength then (m.message.auxiliary.getD {}).writes else [])) (Keeps b) := by
  cases h with
  | @intro payload owner p a auxiliary hpayload hsize harray =>
      unfold serializeAuxiliary
      generalize hx : o.auxiliary = x at harray
      cases harray with
      | none => exact implements_pure ⟨rfl, rfl⟩
      | @some x d _ array =>
          by_cases hpos : 0 < (o.toMessage payload (some d)).auxiliaryLength
          · rw [if_pos hpos, if_pos hpos]
            exact (ArrayObject.serializeTo_implements array).keep List.perm_append_comm
          · rw [if_neg hpos, if_neg hpos]
            exact implements_pure ⟨rfl, rfl⟩

theorem readBlock_implements (block : Nat) (bytes : Bytes) :
    Implements [(block, bytes)] (read block >>= fun bytes' =>
        if bytes'.length < bytes.length then fault else pure (bytes'.take bytes.length) : MessageProgram Bytes)
      (pure bytes) (Keeps [(block, bytes)]) := by
  refine Implements.bind_pure_all (implements_read block bytes) ?_
  rintro _ _ ⟨rfl, rfl⟩
  rw [if_neg (Nat.lt_irrefl _), List.take_length]
  exact implements_pure ⟨rfl, rfl⟩

theorem readPayload_implements (h : o.Holds m b) (hpos : 0 < m.message.payloadSize) :
    Implements b o.readPayload (pure (m.message.payloadBuffer.getD [])) (Keeps b) := by
  cases h with
  | @intro payload owner p a auxiliary hpayload hsize harray =>
      unfold readPayload
      rw [hsize]
      generalize hx : o.payloadBuffer = x at hpayload
      generalize o.shouldFreePayloadBuffer = f at hpayload
      cases hpayload with
      | nobody => exact absurd hpos (Nat.lt_irrefl 0)
      | copied block bytes => exact (readBlock_implements block bytes).keep (.refl _)
      | archived block bytes => exact (readBlock_implements block bytes).keep (.refl _)
      | callers bytes =>
          show Implements a (if bytes.length < bytes.length then fault else pure (bytes.take bytes.length))
            (pure bytes) (Keeps a)
          rw [if_neg (Nat.lt_irrefl _), List.take_length]
          exact implements_pure ⟨rfl, rfl⟩

theorem serializePayload_implements (h : o.Holds m b) :
    Implements b o.serializePayload
      (pure (if 0 < m.message.payloadSize then [m.message.payloadBuffer.getD []] else [])) (Keeps b) := by
  unfold serializePayload
  rw [h.payloadSize]
  by_cases hpos : 0 < m.message.payloadSize
  · rw [if_pos hpos, if_pos hpos]
    refine Implements.bind_pure_all (readPayload_implements h hpos) ?_
    rintro _ _ ⟨rfl, rfl⟩
    exact implements_pure ⟨rfl, rfl⟩
  · rw [if_neg hpos, if_neg hpos]
    exact implements_pure ⟨rfl, rfl⟩

/-- The archived payload goes where the list of pieces has it. -/
theorem maybeSerializePayloadObject_message (m : HeldMessage KAValue) {message : DTXMessage KAValue}
    (h : m.message = message.maybeSerializeAuxiliaryObjects archivedData) :
    (m.maybeSerializePayloadObject archivedData).message = message.materialize archivedData := by
  show m.message.maybeSerializePayloadObject archivedData = _
  rw [h]
  rfl

theorem serializedLength_implements (h : o.Holds m b) :
    Implements b (o.serializedLength archivedData) (m.serializedLength archivedData)
      fun r r' blocks => r.1 = r'.1 ∧ r.2.Holds r'.2 blocks := by
  unfold serializedLength HeldMessage.serializedLength
  have haux := maybeSerializeAuxiliaryObjects_implements archivedData h
  refine Implements.bind (haux.returned fun m' gone => maybeSerializeAuxiliaryObjects_message) ?_
  rintro o₁ m₁ blocks ⟨hm₁, ho₁⟩
  refine Implements.bind_pure_all (maybeSerializePayloadObject_implements ho₁) ?_
  intro o₂ blocks₂ ho₂
  refine implements_pure ⟨?_, ho₂⟩
  show kDTXMessagePayloadHeaderSize + _ + _ = _
  rw [ho₁.auxiliaryCount, ho₂.payloadSize, maybeSerializePayloadObject_message m₁ hm₁,
    DTXMessage.serializedLength_fst, hm₁, DTXMessage.materialize, maybeSerializePayloadObject_auxiliaryCount]
  rfl

theorem serializeTo_implements (h : o.Holds m b) :
    Implements b (o.serializeTo archivedData) (m.serializeTo archivedData)
      fun r r' blocks => r.1 = r'.1 ∧ r.2.Holds r'.2 blocks := by
  unfold serializeTo HeldMessage.serializeTo
  have haux := maybeSerializeAuxiliaryObjects_implements archivedData h
  refine Implements.bind (haux.returned fun m' gone => maybeSerializeAuxiliaryObjects_message) ?_
  rintro o₁ m₁ blocks ⟨hm₁, ho₁⟩
  refine Implements.bind_pure_all (maybeSerializePayloadObject_implements ho₁) ?_
  intro o₂ blocks₂ ho₂
  have hmessage := maybeSerializePayloadObject_message m₁ hm₁
  have hlength : UInt32.ofNat ((o₁.auxiliary.map ArrayObject.serializedLength).getD 0) =
      (m₁.maybeSerializePayloadObject archivedData).message.auxiliaryLength := by
    rw [ho₁.auxiliaryCount, auxiliaryLength_eq]
    exact (DTXMessage.maybeSerializePayloadObject_auxiliaryLength archivedData m₁.message).symm
  simp only [hlength]
  refine Implements.bind_pure_all (serializeAuxiliary_implements ho₂) ?_
  rintro _ _ ⟨rfl, rfl⟩
  refine Implements.bind_pure_all (serializePayload_implements ho₂) ?_
  rintro _ _ ⟨rfl, rfl⟩
  refine implements_pure ⟨?_, ho₂⟩
  have htype : (m.message.materialize archivedData).messageType = m.message.messageType := by
    simp [DTXMessage.materialize]
  rw [ho₂.payloadSize, h.messageType, hmessage, ← htype]
  rfl

/-! ### Beginning and end -/

/-- **A message that is destroyed** frees its copy and its values, and loses an archive. -/
theorem destroy_implements (h : o.Holds m b) : Implements b o.destroy m.destroy fun _ _ blocks => blocks = [] := by
  cases h with
  | @intro payload owner p a auxiliary hpayload hsize harray =>
      have hvalues := harray.destroy
      unfold destroy freePayload HeldMessage.destroy
      generalize o.payloadBuffer = x at hpayload
      generalize o.shouldFreePayloadBuffer = f at hpayload
      cases hpayload with
      | nobody => exact hvalues.lose_none
      | callers bytes => exact hvalues.lose_none
      | copied block bytes =>
          refine Implements.lose_none ?_
          refine Implements.bind_pure (implements_free block bytes) (.refl _) ?_
          rintro _ blocks rfl
          exact hvalues
      | archived block bytes =>
          show Implements ([(block, bytes)] ++ a) _ (Ledger.lose ([(block, bytes)].map Prod.snd) >>= fun _ => pure ()) _
          exact hvalues.lose

theorem buildAuxiliary_implements (auxiliary : Option DTXPrimitiveArray) :
    Implements [] (buildAuxiliary grows auxiliary) (pure auxiliary) AuxiliaryHolds := by
  unfold buildAuxiliary
  cases auxiliary with
  | none => exact implements_pure .none
  | some array =>
      have hempty : ArrayObject.Holds { asDict := array.asDict } { asDict := array.asDict } [] := ⟨rfl, .nil⟩
      refine Implements.bind_pure_all (ArrayObject.appendAll_implements hempty array.items) ?_
      intro a blocks ha
      exact implements_pure (.some ha)

theorem createWithBuffer_implements (buffer : Option Bytes) (shouldCopy : Bool) :
    Implements [] (createWithBuffer buffer shouldCopy : MessageProgram (MessageObject KAValue))
      (HeldMessage.createWithBuffer buffer shouldCopy) Holds := by
  have hnew : Holds { messageType := kDataMessageType }
      ({ message := { messageType := kDataMessageType } } : HeldMessage KAValue) [] := holds_of .nobody rfl .none rfl rfl
  refine Implements.bind (setPayloadBuffer_implements hnew buffer shouldCopy) ?_
  intro o m blocks ho
  have hset := setAuxiliary_implements ho (.some (a := {}) (d := {}) ⟨rfl, .nil⟩)
  rwa [List.append_nil] at hset

/-- The first payload of a message replaces none. -/
theorem copyPayload_implements (h : o.Holds m b) (hnobody : m.owner = .nobody) (hnone : m.message.payloadBuffer = none)
    (payload : Option Bytes) :
    Implements b (o.copyPayload payload)
      (pure { m with message := m.message.setPayloadBuffer payload,
                     owner := if payload.isSome then .copied else .nobody })
      Holds := by
  unfold copyPayload
  cases payload with
  | none =>
      have hm : { m with message := m.message.setPayloadBuffer none, owner := PayloadOwner.nobody } = m := by
        obtain ⟨⟨_, _, _, _, _, _, _, _, _, _, _⟩, _, _⟩ := m
        cases hnobody
        cases hnone
        rfl
      show Implements b (pure o) (pure { m with message := m.message.setPayloadBuffer none, owner := .nobody }) Holds
      rw [hm]
      exact implements_pure h
  | some bytes =>
      have hlose : m.payloadBlocks = [] := by
        unfold HeldMessage.payloadBlocks
        rw [hnobody]
      have hset : m.setPayloadBuffer (some bytes) true =
          pure { m with message := m.message.setPayloadBuffer (some bytes), owner := .copied } := by
        unfold HeldMessage.setPayloadBuffer
        rw [hlose]
        exact Ledger.pure_bind () _
      have hcopy := setPayloadBuffer_implements h (some bytes) true
      rw [hset] at hcopy
      exact hcopy

theorem deserialize_implements (read : Option (DTXMessage KAValue)) :
    Implements [] (deserialize grows read) (HeldMessage.deserialize read) Holds := by
  unfold deserialize HeldMessage.deserialize
  cases read with
  | none => exact implements_stop MessageStop.unknownType
  | some m =>
      refine Implements.bind_pure_all (buildAuxiliary_implements m.auxiliary) ?_
      intro x blocks hx
      have hnew : Holds { messageType := m.messageType, auxiliary := x }
          ({ message := { messageType := m.messageType, auxiliary := m.auxiliary } } : HeldMessage KAValue) blocks :=
        holds_of .nobody rfl hx rfl rfl
      refine Implements.bind_pure_all (copyPayload_implements hnew rfl rfl m.payloadBuffer) ?_
      intro o blocks' ho
      exact implements_pure ((ho.setField (.payloadObject m.payloadObject)).setField (.deserialized true))

theorem newReply_holds (h : o.Holds m b) : o.newReply.Holds ⟨m.message.newReply, .nobody, true⟩ [] := by
  cases h
  exact holds_of .nobody rfl .none rfl rfl

end MessageObject

/-! ## Programs that use messages -/

section
variable {KAValue : Type} {archivedData : KAValue → Bytes} {unarchive : Bytes → KAValue} {assertsEnabled : Bool}
  {grows : Nat → Bool}

theorem MessageMaker.object_implements (maker : MessageMaker KAValue) :
    Implements [] (maker.object unarchive assertsEnabled grows) (maker.held unarchive assertsEnabled)
      MessageObject.Holds := by
  cases maker with
  | construct messageType => exact implements_pure (MessageObject.holds_of .nobody rfl .none rfl rfl)
  | createWithSelector selector =>
      have hempty : AuxiliaryHolds (some {}) (some {}) [] := .some ⟨rfl, .nil⟩
      exact implements_pure (MessageObject.holds_of .nobody rfl hempty rfl rfl)
  | createWithBuffer buffer shouldCopy => exact MessageObject.createWithBuffer_implements buffer shouldCopy
  | deserialize bytes size => exact MessageObject.deserialize_implements _

theorem MessageObject.update_implements {o : MessageObject KAValue} {m : HeldMessage KAValue} {b : List (Nat × Bytes)}
    (h : o.Holds m b) (update : MessageUpdate KAValue) :
    Implements b (o.update archivedData grows update) (m.update archivedData update)
      fun r r' blocks => r.1 = r'.1 ∧ r.2.Holds r'.2 blocks := by
  cases update with
  | setField field => exact implements_pure ⟨rfl, h.setField field⟩
  | setPayloadBuffer buffer shouldCopy =>
      refine Implements.bind (setPayloadBuffer_implements h buffer shouldCopy) ?_
      intro o m blocks ho
      exact implements_pure ⟨rfl, ho⟩
  | setAuxiliary auxiliary =>
      refine Implements.bind_pure (buildAuxiliary_implements auxiliary) (.refl b) ?_
      intro x own hx
      refine Implements.bind_pure_all ((setAuxiliary_implements h hx).perm List.perm_append_comm) ?_
      intro o blocks ho
      exact implements_pure ⟨rfl, ho⟩
  | appendAuxiliary aux =>
      refine Implements.bind (appendAuxiliary_implements h aux) ?_
      intro o m blocks ho
      exact implements_pure ⟨rfl, ho⟩
  | appendAuxiliaryObject aux =>
      refine Implements.bind (appendAuxiliaryObject_implements h aux) ?_
      intro o m blocks ho
      exact implements_pure ⟨rfl, ho⟩
  | serializedLength =>
      refine Implements.bind (serializedLength_implements h) ?_
      rintro ⟨n, o⟩ ⟨n', m⟩ blocks ⟨hn, ho⟩
      exact implements_pure ⟨congrArg MessageAnswer.length hn, ho⟩
  | serializeTo =>
      refine Implements.bind (serializeTo_implements h) ?_
      rintro ⟨arguments, o⟩ ⟨arguments', m⟩ blocks ⟨harguments, ho⟩
      exact implements_pure ⟨congrArg MessageAnswer.calls harguments, ho⟩

/-- The place of a message: its object, or nothing once it is destroyed. -/
inductive SlotHolds : Option (MessageObject KAValue) → HeldMessage KAValue → List (Nat × Bytes) → Prop where
  | live {o : MessageObject KAValue} {m : HeldMessage KAValue} {b : List (Nat × Bytes)} (object : o.Holds m b) :
      SlotHolds (some o) m b
  | gone {m : HeldMessage KAValue} (dead : m.live = false) : SlotHolds none m []

/-- The objects are these messages, and their blocks those of the messages. -/
structure StoreHolds (s : MessageStore (Option (MessageObject KAValue))) (t : MessageStore (HeldMessage KAValue))
    (b : List (Nat × Bytes)) : Prop where
  messages : Each SlotHolds s.messages t.messages b
  answers : s.answers = t.answers

end

namespace MessageStore

variable {KAValue : Type} {archivedData : KAValue → Bytes} {unarchive : Bytes → KAValue} {assertsEnabled : Bool}
  {grows : Nat → Bool} {s : MessageStore (Option (MessageObject KAValue))} {t : MessageStore (HeldMessage KAValue)}
  {b : List (Nat × Bytes)}

/-- A message that is found has some of the blocks, and may be replaced. -/
def Found (s : MessageStore (Option (MessageObject KAValue))) (t : MessageStore (HeldMessage KAValue)) (n : Nat)
    (b : List (Nat × Bytes)) (o : MessageObject KAValue) (m : HeldMessage KAValue) : Prop :=
  ∃ own others, o.Holds m own ∧ b.Perm (own ++ others) ∧ ∀ slot m' own', SlotHolds slot m' own' →
    ∃ b', Each SlotHolds (s.messages.set n slot) (t.messages.set n m') b' ∧ b'.Perm (own' ++ others)

theorem object_implements (h : StoreHolds s t b) (n : Nat) :
    Implements b (s.object n) (t.held n) fun o m blocks => blocks = b ∧ Found s t n b o m := by
  unfold object held
  cases hm : t.messages[n]? with
  | none =>
      have ho : s.messages[n]? = none := by
        rw [List.getElem?_eq_none_iff] at hm ⊢
        rwa [h.messages.length_eq]
      rw [ho]
      exact implements_stop MessageStop.noMessage
  | some m =>
      obtain ⟨slot, own, others, hslot, hholds, hperm, hset⟩ := h.messages.split hm
      rw [hslot]
      cases hholds with
      | gone dead =>
          simp only [dead]
          exact implements_stop MessageStop.noMessage
      | live object =>
          have hlive : m.live = true := by
            cases object
            rfl
          simp only [hlive]
          exact implements_pure ⟨rfl, own, others, object, hperm, hset⟩

theorem call_implements (h : StoreHolds s t b) (c : MessageCall KAValue) :
    Implements b (s.call archivedData unarchive assertsEnabled grows c)
      (t.heldCall archivedData unarchive assertsEnabled c) StoreHolds := by
  cases c with
  | make maker =>
      refine Implements.bind_frame maker.object_implements (.refl b) ?_
      intro o m blocks ho
      refine Implements.perm (implements_pure ⟨?_, h.answers⟩) List.perm_append_comm
      exact h.messages.append (each_singleton (.live ho))
  | newReply replyTo =>
      refine Implements.bind (object_implements h replyTo) ?_
      rintro o m _ ⟨rfl, own, others, ho, -, -⟩
      have hreply := h.messages.append (each_singleton (SlotHolds.live (MessageObject.newReply_holds ho)))
      rw [List.append_nil] at hreply
      exact implements_pure ⟨hreply, h.answers⟩
  | update n update =>
      refine Implements.bind (object_implements h n) ?_
      rintro o m _ ⟨rfl, own, others, ho, hperm, hset⟩
      refine Implements.bind_frame (MessageObject.update_implements ho update) hperm ?_
      rintro ⟨answer, o'⟩ ⟨answer', m'⟩ own' ⟨hanswer, ho'⟩
      obtain ⟨b', heach, hperm'⟩ := hset (some o') m' own' (.live ho')
      refine Implements.perm (implements_pure ⟨heach, ?_⟩) hperm'.symm
      rw [h.answers, show answer = answer' from hanswer]
  | destroy n =>
      refine Implements.bind (object_implements h n) ?_
      rintro o m _ ⟨rfl, own, others, ho, hperm, hset⟩
      refine Implements.bind_frame (MessageObject.destroy_implements ho) hperm ?_
      rintro _ _ blocks rfl
      obtain ⟨b', heach, hperm'⟩ := hset none { m with live := false } [] (.gone rfl)
      exact Implements.perm (implements_pure ⟨heach, h.answers⟩) hperm'.symm

theorem callAll_implements (h : StoreHolds s t b) (cs : List (MessageCall KAValue)) :
    Implements b (s.callAll archivedData unarchive assertsEnabled grows cs)
      (t.heldCallAll archivedData unarchive assertsEnabled cs) StoreHolds := by
  induction cs generalizing s t b with
  | nil => exact implements_pure h
  | cons c cs ih =>
      refine Implements.bind (call_implements h c) ?_
      intro s' t' b' h'
      exact ih h'

/-- The calls stop where the ledger says so. -/
theorem callAll_stops {cs : List (MessageCall KAValue)} {e : MessageStop}
    (hstops : heldCallAll archivedData unarchive assertsEnabled {} cs = .error e) :
    callAll archivedData unarchive assertsEnabled grows {} cs Heap.empty = .error (.stop e) := by
  have himplements : Implements [] (callAll archivedData unarchive assertsEnabled grows {} cs)
      (heldCallAll archivedData unarchive assertsEnabled {} cs) StoreHolds := callAll_implements ⟨.nil, rfl⟩ cs
  have hrun := himplements Heap.empty [] [] has_empty
  rw [hstops] at hrun
  generalize callAll archivedData unarchive assertsEnabled grows {} cs Heap.empty = r at hrun ⊢
  cases hrun with
  | stop _ => rfl

/-- Otherwise they leave the messages of the ledger, and allocated are their blocks and the lost ones. -/
theorem callAll_allocated {cs : List (MessageCall KAValue)} {t : MessageStore (HeldMessage KAValue)} {gone : List Bytes}
    (hheld : heldCallAll archivedData unarchive assertsEnabled {} cs = .ok (t, gone)) :
    ∃ s heap blocks, ∃ lost : List (Nat × Bytes),
      callAll archivedData unarchive assertsEnabled grows {} cs Heap.empty = .ok (s, heap) ∧
      StoreHolds s t blocks ∧ lost.map Prod.snd = gone ∧ heap.Has blocks (lost.map Prod.fst) := by
  have himplements : Implements [] (callAll archivedData unarchive assertsEnabled grows {} cs)
      (heldCallAll archivedData unarchive assertsEnabled {} cs) StoreHolds := callAll_implements ⟨.nil, rfl⟩ cs
  have hrun := himplements Heap.empty [] [] has_empty
  rw [hheld] at hrun
  generalize callAll archivedData unarchive assertsEnabled grows {} cs Heap.empty = r at hrun ⊢
  cases hrun with
  | @ok s heap _ blocks lost hholds hhas =>
      rw [List.append_nil, List.nil_append] at hhas
      exact ⟨s, heap, blocks, lost, rfl, hholds, rfl, hhas⟩

/-- **The lifetimes of messages.** Any calls on any messages stop where the ledger says so, or leave the messages of
    the ledger, with its answers; what is allocated then are their blocks and those that the ledger has lost. -/
theorem callAll_ledger (archivedData : KAValue → Bytes) (unarchive : Bytes → KAValue) (assertsEnabled : Bool)
    (grows : Nat → Bool) (calls : List (MessageCall KAValue)) :
    (∀ e, heldCallAll archivedData unarchive assertsEnabled {} calls = .error e →
      callAll archivedData unarchive assertsEnabled grows {} calls Heap.empty = .error (.stop e)) ∧
    ∀ t gone, heldCallAll archivedData unarchive assertsEnabled {} calls = .ok (t, gone) →
      ∃ s heap blocks, ∃ lost : List (Nat × Bytes),
        callAll archivedData unarchive assertsEnabled grows {} calls Heap.empty = .ok (s, heap) ∧
        StoreHolds s t blocks ∧ lost.map Prod.snd = gone ∧ heap.Has blocks (lost.map Prod.fst) :=
  ⟨fun _ hstops => callAll_stops hstops, fun _ _ hheld => callAll_allocated hheld⟩

end MessageStore
end IDevice
