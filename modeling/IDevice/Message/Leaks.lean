import Mathlib.Data.List.Nodup
import IDevice.Message.Lifetimes

/-!
# `Message.Leaks` — what is left when all messages are destroyed

A program that sets no payload buffer and no array after a message was made: it makes messages, appends arguments,
asks for lengths, serializes, decodes what it receives, and destroys. `only_archives_leak` says what is allocated when
all its messages are destroyed: the archive of the payload object of each message that was serialized, and nothing
else.
-/

namespace IDevice

open HeapProgram Heap

variable {KAValue : Type} {archivedData : KAValue → Bytes} {unarchive : Bytes → KAValue} {assertsEnabled : Bool}

/-- The call replaces no payload buffer and no array. -/
def MessageCall.KeepsBuffers : MessageCall KAValue → Prop
  | .update _ (.setPayloadBuffer _ _) => False
  | .update _ (.setAuxiliary _) => False
  | _ => True

instance (c : MessageCall KAValue) : Decidable c.KeepsBuffers := by
  unfold MessageCall.KeepsBuffers
  split <;> infer_instance

namespace HeldMessage

/-- Each object to be archived has a placeholder of its own. -/
structure Sound (m : HeldMessage KAValue) : Prop where
  placed : m.message.Placed
  once : (m.message.auxiliaryObjects.map Prod.fst).Nodup

/-- What a destroyed message has lost. -/
def leak (m : HeldMessage KAValue) : List Bytes := if m.live = false ∧ m.owner = .archived then m.payloadBlocks else []

theorem leak_of_live {m : HeldMessage KAValue} (h : m.live = true) : m.leak = [] := by
  unfold leak
  rw [h]
  rfl

theorem sound_of_nil {m : HeldMessage KAValue} (h : m.message.auxiliaryObjects = []) : m.Sound := by
  refine ⟨?_, ?_⟩
  · intro it hit
    rw [h] at hit
    cases hit
  · rw [h]
    exact List.nodup_nil

/-- Only the array and the objects matter. -/
theorem Sound.congr {m m' : HeldMessage KAValue} (h : m.Sound) (harray : m'.message.auxiliary = m.message.auxiliary)
    (hobjects : m'.message.auxiliaryObjects = m.message.auxiliaryObjects) : m'.Sound := by
  refine ⟨?_, ?_⟩
  · intro it hit
    rw [harray]
    rw [hobjects] at hit
    exact h.placed it hit
  · rw [hobjects]
    exact h.once

/-! ## One message -/

/-- A placeholder has no block to lose. -/
theorem archiveObjects_placed {vs : List DTXPrimitiveValue} {objects : List (Nat × KAValue)}
    (hplaced : ∀ it ∈ objects, vs[it.1]? = some .null) (hnodup : (objects.map Prod.fst).Nodup) :
    ∃ vs', archiveObjects archivedData vs objects = pure vs' := by
  induction objects generalizing vs with
  | nil => exact ⟨vs, rfl⟩
  | cons it objects ih =>
      rw [List.map_cons, List.nodup_cons] at hnodup
      have hnull := hplaced it List.mem_cons_self
      have hothers : ∀ it' ∈ objects, (vs.set it.1 (.buffer (archivedData it.2)))[it'.1]? = some .null := by
        intro it' hit'
        rw [List.getElem?_set_ne]
        · exact hplaced it' (List.mem_cons_of_mem _ hit')
        · intro heq
          exact hnodup.1 (heq ▸ List.mem_map_of_mem hit')
      obtain ⟨vs', hrest⟩ := ih hothers hnodup.2
      refine ⟨vs', ?_⟩
      unfold archiveObjects
      simp only [hnull]
      exact (Ledger.pure_bind () _).trans hrest

theorem Sound.maybeSerializeAuxiliaryObjects {m : HeldMessage KAValue} (h : m.Sound) :
    ∃ m', m.maybeSerializeAuxiliaryObjects archivedData = pure m' ∧ m'.Sound ∧ m'.live = m.live := by
  unfold HeldMessage.maybeSerializeAuxiliaryObjects
  by_cases hnil : m.message.auxiliaryObjects = []
  · rw [if_pos hnil]
    exact ⟨m, rfl, h, rfl⟩
  · rw [if_neg hnil]
    -- the objects are in the array that the first of them is in
    obtain ⟨it, hit⟩ := List.exists_mem_of_ne_nil _ hnil
    obtain ⟨a, ha, -⟩ := h.placed it hit
    have hplaced : ∀ it ∈ m.message.auxiliaryObjects, a.items[it.1]? = some .null := by
      intro it hit
      obtain ⟨a', ha', hnull⟩ := h.placed it hit
      rw [ha] at ha'
      rwa [Option.some.inj ha']
    obtain ⟨vs, hvs⟩ : ∃ vs, archiveObjects archivedData a.items m.message.auxiliaryObjects = pure vs :=
      archiveObjects_placed hplaced h.once
    refine ⟨{ m with message := m.message.maybeSerializeAuxiliaryObjects archivedData }, ?_, sound_of_nil rfl, rfl⟩
    simp only [ha, hvs]
    exact Ledger.pure_bind vs _

theorem Sound.maybeSerializePayloadObject {m : HeldMessage KAValue} (h : m.Sound) :
    (m.maybeSerializePayloadObject archivedData).Sound := by
  unfold HeldMessage.maybeSerializePayloadObject DTXMessage.maybeSerializePayloadObject
  split <;> exact h.congr rfl rfl

theorem Sound.appendAuxiliary {m m' : HeldMessage KAValue} (h : m.Sound) {aux : DTXPrimitiveValue} {gone : List Bytes}
    (hrun : m.appendAuxiliary aux = .ok (m', gone)) : gone = [] ∧ m'.Sound ∧ m'.live = m.live := by
  unfold HeldMessage.appendAuxiliary at hrun
  cases ha : m.message.auxiliary with
  | none =>
      rw [ha] at hrun
      cases hrun
  | some a =>
      rw [ha] at hrun
      obtain ⟨rfl, rfl⟩ := Prod.mk.inj (Except.ok.inj hrun)
      exact ⟨rfl, ⟨h.placed.appendAuxiliary aux, h.once⟩, rfl⟩

theorem Sound.appendAuxiliaryObject {m m' : HeldMessage KAValue} (h : m.Sound) {aux : KAValue} {gone : List Bytes}
    (hrun : m.appendAuxiliaryObject aux = .ok (m', gone)) : gone = [] ∧ m'.Sound ∧ m'.live = m.live := by
  unfold HeldMessage.appendAuxiliaryObject at hrun
  cases ha : m.message.auxiliary with
  | none =>
      rw [ha] at hrun
      cases hrun
  | some a =>
      rw [ha] at hrun
      obtain ⟨rfl, rfl⟩ := Prod.mk.inj (Except.ok.inj hrun)
      -- the placeholders that are there lie in front of the new one
      have hnew : a.items.length ∉ m.message.auxiliaryObjects.map Prod.fst := by
        intro hmem
        obtain ⟨it, hit, hindex⟩ := List.mem_map.mp hmem
        obtain ⟨a', ha', hnull⟩ := h.placed it hit
        rw [ha] at ha'
        obtain rfl := Option.some.inj ha'
        rw [hindex, List.getElem?_eq_none (Nat.le_refl _)] at hnull
        cases hnull
      refine ⟨rfl, ?_, rfl⟩
      simp only [if_neg hnew]
      refine ⟨h.placed.appendAuxiliaryObject aux, ?_⟩
      unfold DTXMessage.appendAuxiliaryObject
      simp only [ha, List.map_append, List.map_cons, List.map_nil]
      rw [List.nodup_append]
      refine ⟨h.once, List.pairwise_singleton _ _, ?_⟩
      intro index hindex index' hindex' heq
      rw [List.mem_singleton.mp hindex'] at heq
      exact hnew (heq ▸ hindex)

/-- The calls that serialize. -/
theorem Sound.serialized {m : HeldMessage KAValue} (h : m.Sound) {β : Type} (x : β) :
    ∃ m', (m.maybeSerializeAuxiliaryObjects archivedData >>= fun m =>
      pure (x, m.maybeSerializePayloadObject archivedData)) = pure (x, m') ∧ m'.Sound ∧ m'.live = m.live := by
  obtain ⟨m₁, hm₁, hsound, hlive⟩ : ∃ m₁, m.maybeSerializeAuxiliaryObjects archivedData = pure m₁ ∧ m₁.Sound ∧
      m₁.live = m.live := h.maybeSerializeAuxiliaryObjects
  rw [hm₁, Ledger.pure_bind]
  exact ⟨_, rfl, hsound.maybeSerializePayloadObject, hlive⟩

/-- **A call that replaces no buffer** loses none. -/
theorem Sound.update {m m' : HeldMessage KAValue} (h : m.Sound) {n : Nat} {update : MessageUpdate KAValue}
    (hkeeps : (MessageCall.update n update).KeepsBuffers) {answer : MessageAnswer} {gone : List Bytes}
    (hrun : m.update archivedData update = .ok ((answer, m'), gone)) : gone = [] ∧ m'.Sound ∧ m'.live = m.live := by
  cases update with
  | setPayloadBuffer buffer shouldCopy => exact hkeeps.elim
  | setAuxiliary auxiliary => exact hkeeps.elim
  | setField field =>
      obtain ⟨heq, rfl⟩ := Ledger.pure_eq_ok hrun
      cases heq
      exact ⟨rfl, h.congr (by cases field <;> rfl) (by cases field <;> rfl), rfl⟩
  | appendAuxiliary aux =>
      obtain ⟨m₁, hm₁, heq⟩ := Ledger.exists_of_bind_pure hrun
      cases heq
      exact h.appendAuxiliary hm₁
  | appendAuxiliaryObject aux =>
      obtain ⟨m₁, hm₁, heq⟩ := Ledger.exists_of_bind_pure hrun
      cases heq
      exact h.appendAuxiliaryObject hm₁
  | serializedLength =>
      obtain ⟨m₁, hm₁, hsound⟩ := h.serialized (m.message.serializedLength archivedData).1
      obtain ⟨r, hr, heq⟩ := Ledger.exists_of_bind_pure hrun
      obtain ⟨rfl, rfl⟩ := Ledger.pure_eq_ok (hm₁.symm.trans hr)
      cases heq
      exact ⟨rfl, hsound⟩
  | serializeTo =>
      obtain ⟨m₁, hm₁, hsound⟩ := h.serialized (m.message.writes archivedData)
      obtain ⟨r, hr, heq⟩ := Ledger.exists_of_bind_pure hrun
      obtain ⟨rfl, rfl⟩ := Ledger.pure_eq_ok (hm₁.symm.trans hr)
      cases heq
      exact ⟨rfl, hsound⟩

/-- A new message. -/
theorem sound_held {maker : MessageMaker KAValue} {m : HeldMessage KAValue} {gone : List Bytes}
    (hrun : maker.held unarchive assertsEnabled = .ok (m, gone)) : gone = [] ∧ m.Sound ∧ m.live = true := by
  cases maker with
  | construct messageType =>
      obtain ⟨rfl, rfl⟩ := Ledger.pure_eq_ok hrun
      exact ⟨rfl, sound_of_nil rfl, rfl⟩
  | createWithSelector selector =>
      obtain ⟨rfl, rfl⟩ := Ledger.pure_eq_ok hrun
      exact ⟨rfl, sound_of_nil rfl, rfl⟩
  | createWithBuffer buffer shouldCopy =>
      cases shouldCopy <;>
        · obtain ⟨rfl, rfl⟩ := Prod.mk.inj (Except.ok.inj hrun)
          exact ⟨rfl, sound_of_nil rfl, rfl⟩
  | deserialize bytes size =>
      have hread : HeldMessage.deserialize (DTXMessage.deserialize unarchive assertsEnabled bytes size).message =
          .ok (m, gone) := hrun
      generalize (DTXMessage.deserialize unarchive assertsEnabled bytes size).message = read at hread
      cases read with
      | none => cases hread
      | some received =>
          obtain ⟨rfl, rfl⟩ := Ledger.pure_eq_ok hread
          exact ⟨rfl, sound_of_nil rfl, rfl⟩

end HeldMessage

/-! ## All messages -/

/-- What is lost is what the destroyed messages have leaked. -/
structure OnlyArchives (t : MessageStore (HeldMessage KAValue)) (gone : List Bytes) : Prop where
  sound : ∀ m ∈ t.messages, m.Sound
  lost : gone.Perm (t.messages.flatMap HeldMessage.leak)

section
variable {t : MessageStore (HeldMessage KAValue)} {gone : List Bytes}

/-- Another message. -/
theorem OnlyArchives.push (h : OnlyArchives t gone) {m : HeldMessage KAValue} (hm : m.Sound) (hlive : m.live = true)
    (answers : List MessageAnswer) : OnlyArchives { messages := t.messages ++ [m], answers := answers } gone := by
  refine ⟨?_, ?_⟩
  · intro m' hm'
    rcases List.mem_append.mp hm' with hold | hnew
    · exact h.sound m' hold
    · rwa [List.mem_singleton.mp hnew]
  · rw [List.flatMap_append, List.flatMap_singleton, HeldMessage.leak_of_live hlive, List.append_nil]
    exact h.lost

/-- A live message is replaced. -/
theorem OnlyArchives.set (h : OnlyArchives t gone) {n : Nat} {m m' : HeldMessage KAValue}
    (hm : t.messages[n]? = some m) (hlive : m.live = true) (hm' : m'.Sound) (answers : List MessageAnswer) :
    OnlyArchives { messages := t.messages.set n m', answers := answers } (gone ++ m'.leak) := by
  refine ⟨?_, ?_⟩
  · intro x hx
    rcases List.mem_or_eq_of_mem_set hx with hold | rfl
    · exact h.sound x hold
    · exact hm'
  · obtain ⟨others, hold, hset⟩ := exists_flatMap_set HeldMessage.leak hm
    rw [HeldMessage.leak_of_live hlive, List.nil_append] at hold
    exact ((h.lost.trans hold).append_right m'.leak).trans (List.perm_append_comm.trans (hset m').symm)

end

namespace MessageStore

variable {t t' : MessageStore (HeldMessage KAValue)} {gone gone' : List Bytes}

theorem held_eq {n : Nat} {m : HeldMessage KAValue} (h : t.held n = .ok (m, gone)) :
    t.messages[n]? = some m ∧ m.live = true ∧ gone = [] := by
  unfold held at h
  cases hm : t.messages[n]? with
  | none =>
      rw [hm] at h
      cases h
  | some m₁ =>
      rw [hm] at h
      cases hlive : m₁.live with
      | false =>
          simp only [hlive] at h
          cases h
      | true =>
          simp only [hlive] at h
          obtain ⟨rfl, rfl⟩ := Ledger.pure_eq_ok h
          exact ⟨rfl, hlive, rfl⟩

theorem onlyArchives_call (h : OnlyArchives t gone) {c : MessageCall KAValue} (hkeeps : c.KeepsBuffers)
    (hrun : t.heldCall archivedData unarchive assertsEnabled c = .ok (t', gone')) : OnlyArchives t' (gone ++ gone') := by
  cases c with
  | make maker =>
      obtain ⟨m, hm, rfl⟩ := Ledger.exists_of_bind_pure hrun
      obtain ⟨rfl, hsound, hlive⟩ := HeldMessage.sound_held hm
      rw [List.append_nil]
      exact h.push hsound hlive t.answers
  | newReply replyTo =>
      obtain ⟨m, hm, rfl⟩ := Ledger.exists_of_bind_pure hrun
      obtain ⟨-, -, rfl⟩ := held_eq hm
      rw [List.append_nil]
      exact h.push (HeldMessage.sound_of_nil rfl) rfl t.answers
  | update n update =>
      obtain ⟨m, first, later, hm, hlast, rfl⟩ := Ledger.exists_of_bind hrun
      obtain ⟨hget, hlive, rfl⟩ := held_eq hm
      obtain ⟨⟨answer, m'⟩, hm', rfl⟩ := Ledger.exists_of_bind_pure hlast
      obtain ⟨rfl, hsound, hlive'⟩ := (h.sound m (List.mem_of_getElem? hget)).update hkeeps hm'
      have hset := h.set hget hlive hsound (t.answers ++ [answer])
      rw [HeldMessage.leak_of_live (hlive'.trans hlive)] at hset
      exact hset
  | destroy n =>
      obtain ⟨m, first, later, hm, hlast, rfl⟩ := Ledger.exists_of_bind hrun
      obtain ⟨hget, hlive, rfl⟩ := held_eq hm
      obtain ⟨_, hdestroy, rfl⟩ := Ledger.exists_of_bind_pure hlast
      obtain ⟨_, hlose, -⟩ := Ledger.exists_of_bind_pure hdestroy
      obtain ⟨-, rfl⟩ := Prod.mk.inj (Except.ok.inj hlose)
      have hdead : HeldMessage.Sound { m with live := false } := (h.sound m (List.mem_of_getElem? hget)).congr rfl rfl
      have hleak : HeldMessage.leak { m with live := false } = if m.owner = .archived then m.payloadBlocks else [] := by
        unfold HeldMessage.leak
        simp only [true_and]
        rfl
      have hset := h.set hget hlive hdead t.answers
      rw [hleak] at hset
      exact hset

theorem onlyArchives_callAll (h : OnlyArchives t gone) {calls : List (MessageCall KAValue)}
    (hkeeps : ∀ c ∈ calls, c.KeepsBuffers)
    (hrun : t.heldCallAll archivedData unarchive assertsEnabled calls = .ok (t', gone')) :
    OnlyArchives t' (gone ++ gone') := by
  induction calls generalizing t gone gone' with
  | nil =>
      obtain ⟨rfl, rfl⟩ := Ledger.pure_eq_ok hrun
      rw [List.append_nil]
      exact h
  | cons c calls ih =>
      obtain ⟨t₁, first, later, hc, hrest, rfl⟩ := Ledger.exists_of_bind hrun
      have hfirst := onlyArchives_call h (hkeeps c List.mem_cons_self) hc
      rw [← List.append_assoc]
      exact ih hfirst (fun c hc => hkeeps c (List.mem_cons_of_mem _ hc)) hrest

theorem leak_of_dead {ms : List (HeldMessage KAValue)} (hdead : ∀ m ∈ ms, m.live = false) :
    ms.flatMap HeldMessage.leak =
      (ms.filter fun m => m.owner = .archived).map fun m => m.message.payloadBuffer.getD [] := by
  induction ms with
  | nil => rfl
  | cons m ms ih =>
      rw [List.flatMap_cons, ih fun m hm => hdead m (List.mem_cons_of_mem _ hm)]
      unfold HeldMessage.leak HeldMessage.payloadBlocks
      by_cases howner : m.owner = .archived
      · rw [List.filter_cons_of_pos (by simp [howner]), if_pos ⟨hdead m List.mem_cons_self, howner⟩, howner]
        rfl
      · rw [List.filter_cons_of_neg (by simp [howner]), if_neg fun h => howner h.2, List.nil_append]

/-- Destroyed messages have no blocks. -/
theorem blocks_of_dead {slots : List (Option (MessageObject KAValue))} {ms : List (HeldMessage KAValue)}
    {b : List (Nat × Bytes)} (h : Each SlotHolds slots ms b) (hdead : ∀ m ∈ ms, m.live = false) : b = [] := by
  induction h with
  | nil => rfl
  | @cons slot m slots ms own others head _ ih =>
      rw [ih fun m hm => hdead m (List.mem_cons_of_mem _ hm), List.append_nil]
      cases head with
      | gone _ => rfl
      | live object =>
          cases object
          cases hdead _ List.mem_cons_self

/-- **Only archives leak.** When every message of such a program is destroyed, the blocks that are still allocated are
    those with the archives that the messages had as their payload, one for each such message. -/
theorem only_archives_leak (grows : Nat → Bool) {calls : List (MessageCall KAValue)}
    (hkeeps : ∀ c ∈ calls, c.KeepsBuffers) {t : MessageStore (HeldMessage KAValue)} {gone : List Bytes}
    (hrun : heldCallAll archivedData unarchive assertsEnabled {} calls = .ok (t, gone))
    (hdead : ∀ m ∈ t.messages, m.live = false) :
    ∃ s heap, ∃ lost : List (Nat × Bytes),
      callAll archivedData unarchive assertsEnabled grows {} calls Heap.empty = .ok (s, heap) ∧
      (lost.map Prod.fst).Nodup ∧ (∀ b, (heap.block b).isSome ↔ b ∈ lost.map Prod.fst) ∧
      (lost.map Prod.snd).Perm ((t.messages.filter fun m => m.owner = .archived).map fun m =>
        m.message.payloadBuffer.getD []) := by
  obtain ⟨s, heap, blocks, lost, hok, hholds, hgone, hhas⟩ := callAll_allocated hrun
  obtain rfl := blocks_of_dead hholds.messages hdead
  have hinit : OnlyArchives ({} : MessageStore (HeldMessage KAValue)) [] := ⟨nofun, .refl []⟩
  have honly := onlyArchives_callAll hinit hkeeps hrun
  rw [List.nil_append, ← hgone] at honly
  have honce (b : Nat) : (lost.map Prod.fst).count b = if (heap.block b).isSome then 1 else 0 := hhas.once b
  refine ⟨s, heap, lost, hok, ?_, ?_, ?_⟩
  · rw [List.nodup_iff_count_le_one]
    intro b
    rw [honce b]
    split <;> decide
  · intro b
    rw [← List.count_pos_iff, honce b]
    split <;> simp [*]
  · rw [← leak_of_dead hdead]
    exact honly.lost

/-- A call with a string and an object is serialized, a reply is made to it, and both are destroyed. -/
def callAndReply : List (MessageCall UInt8) :=
  [.make (.createWithSelector 5), .update 0 (.appendAuxiliary (.string [0x61])), .update 0 (.appendAuxiliaryObject 6),
    .update 0 .serializedLength, .update 0 .serializeTo, .newReply 0, .destroy 0, .destroy 1]

theorem only_archives_leak_callAndReply :
    ∃ s heap, ∃ lost : List (Nat × Bytes),
      callAll (fun byte : UInt8 => [byte]) (fun _ => 0) true (fun _ => true) {} callAndReply Heap.empty = .ok (s, heap) ∧
      (lost.map Prod.fst).Nodup ∧ (∀ b, (heap.block b).isSome ↔ b ∈ lost.map Prod.fst) ∧
      (lost.map Prod.snd).Perm [[5]] := by
  have hrun : heldCallAll (fun byte : UInt8 => [byte]) (fun _ => 0) true {} callAndReply = .ok (_, _) := rfl
  exact only_archives_leak (fun _ => true) (by decide) hrun (by decide)

end MessageStore
end IDevice
