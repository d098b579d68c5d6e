import Mathlib.Data.List.OfFn
import IDevice.Wire.RoundTrip

/-!
# `Wire.Reassembly` — messages whose fragments are interleaved

A family of messages is sent at the same time, each as one fragment or as a first fragment without
payload and one fragment for every piece. An interleaving is the list of who sends next: the `n`-th
entry of a message stands for its `n`-th fragment, so every message keeps its own order.

`TableOf` is the invariant: the parser's table holds the unfinished messages and what has arrived of
them. A first fragment announces the whole message, whose pieces may come late; `ready_interleaved` says
that they are all behind it, so one call on the whole stream never waits.
-/

namespace IDevice

open Stream

/-- What is sent: a message in one fragment, or in pieces. -/
inductive MessageBody where
  | single (bytes : Bytes)
  | fragmented (pieces : List Bytes)

namespace MessageBody

/-- The message as a whole. -/
def bytes : MessageBody → Bytes
  | single bytes => bytes
  | fragmented pieces => pieces.flatten

/-- There is at least one piece, none is empty, and the numbers fit the fields of a header. -/
def Fits : MessageBody → Prop
  | single bytes => 32 + bytes.length < 2 ^ 32
  | fragmented pieces => pieces ≠ [] ∧ (∀ piece ∈ pieces, piece ≠ []) ∧ pieces.length + 1 ≤ 65535 ∧
      32 + pieces.flatten.length < 2 ^ 32

instance (b : MessageBody) : Decidable b.Fits := by
  cases b <;> unfold Fits <;> infer_instance

end MessageBody

/-- A message to be sent, with the numbers in its headers. -/
structure SentMessage where
  routingInfo : DTXMessageRoutingInfo
  body : MessageBody
  fits : body.Fits

namespace SentMessage

/-- The header of a fragment. -/
def fragmentHeader (routingInfo : DTXMessageRoutingInfo) (index count length : Nat) :
    DTXMessageHeader where
  magic := kDTXMessageHeaderMagic
  messageHeaderSize := kDTXMessageHeaderSize
  fragmentIndex := UInt16.ofNat index
  fragmentCount := UInt16.ofNat count
  length := UInt32.ofNat length
  identifier := routingInfo.msgIdentifier
  conversationIndex := routingInfo.conversationIndex
  channelCode := routingInfo.channelCode
  expectsReply := routingInfo.expectsReply

theorem fragmentHeader_length (routingInfo : DTXMessageRoutingInfo) (index count : Nat) {length : Nat}
    (h : 32 + length < 2 ^ 32) : (fragmentHeader routingInfo index count length).length.toNat = length :=
  UInt32.toNat_ofNat_of_lt' (by
    have hsize : UInt32.size = 2 ^ 32 := rfl
    omega)

theorem toNat_ofNat_of_le {n : Nat} (h : n ≤ 65535) : (UInt16.ofNat n).toNat = n :=
  UInt16.toNat_ofNat_of_lt' (by
    have hsize : UInt16.size = 65536 := rfl
    omega)

theorem ofNat_ne {n : Nat} {k : UInt16} (h : n ≤ 65535) (hne : n ≠ k.toNat) : UInt16.ofNat n ≠ k := by
  intro heq
  rw [← heq, toNat_ofNat_of_le h] at hne
  exact hne rfl

/-- The fragment of a message in one piece. -/
def singleFrame (routingInfo : DTXMessageRoutingInfo) (bytes : Bytes)
    (fits : (MessageBody.single bytes).Fits) : Frame where
  header := fragmentHeader routingInfo 0 1 bytes.length
  payload := bytes
  magic := rfl
  headerSize := rfl
  bound := by
    rw [fragmentHeader_length routingInfo 0 1 fits]
    exact fits
  payload_length := by
    rw [if_neg (fun h => h.1 rfl), fragmentHeader_length routingInfo 0 1 fits]

section Pieces
variable (routingInfo : DTXMessageRoutingInfo) (pieces : List Bytes)
  (fits : (MessageBody.fragmented pieces).Fits)
include fits

theorem pieces_length_pos : 0 < pieces.length := List.length_pos_iff.mpr fits.1

/-- The count in the headers of a message in pieces is not that of a single fragment. -/
theorem fragmentCount_ne_one : UInt16.ofNat (pieces.length + 1) ≠ 1 := by
  have hpos := pieces_length_pos pieces fits
  have hone : (1 : UInt16).toNat = 1 := rfl
  exact ofNat_ne fits.2.2.1 (by omega)

theorem piece_fits (i : Fin pieces.length) : 32 + pieces[i].length < 2 ^ 32 := by
  have hle : pieces[i].length ≤ pieces.flatten.length := length_le_flatten (List.getElem_mem i.2)
  have hall := fits.2.2.2
  omega

theorem fragmentIndex_ne_zero (i : Fin pieces.length) : UInt16.ofNat (i.1 + 1) ≠ 0 := by
  have hcount := fits.2.2.1
  have hzero : (0 : UInt16).toNat = 0 := rfl
  exact ofNat_ne (by omega) (by omega)

/-- The header in front of the pieces. -/
def firstFrame : Frame where
  header := fragmentHeader routingInfo 0 (pieces.length + 1) pieces.flatten.length
  payload := []
  magic := rfl
  headerSize := rfl
  bound := by
    rw [fragmentHeader_length routingInfo 0 _ fits.2.2.2]
    exact fits.2.2.2
  payload_length := by
    rw [if_pos ⟨fragmentCount_ne_one pieces fits, rfl⟩]
    rfl

/-- The fragment of a piece. -/
def pieceFrame (i : Fin pieces.length) : Frame where
  header := fragmentHeader routingInfo (i.1 + 1) (pieces.length + 1) pieces[i].length
  payload := pieces[i]
  magic := rfl
  headerSize := rfl
  bound := by
    rw [fragmentHeader_length routingInfo _ _ (piece_fits pieces fits i)]
    exact piece_fits pieces fits i
  payload_length := by
    rw [if_neg (fun h => fragmentIndex_ne_zero pieces fits i h.2),
      fragmentHeader_length routingInfo _ _ (piece_fits pieces fits i)]

end Pieces

/-- The fragments of a message, in order. -/
def fragments : SentMessage → List Frame
  | ⟨routingInfo, .single bytes, fits⟩ => [singleFrame routingInfo bytes fits]
  | ⟨routingInfo, .fragmented pieces, fits⟩ =>
    firstFrame routingInfo pieces fits :: List.ofFn (pieceFrame routingInfo pieces fits)

def identifier (m : SentMessage) : UInt32 := m.routingInfo.msgIdentifier

/-- The message as the parser is to enqueue it. -/
def parsed (m : SentMessage) : ParsedMessage where
  bytes := m.body.bytes
  identifier := m.routingInfo.msgIdentifier
  conversationIndex := m.routingInfo.conversationIndex
  channelCode := m.routingInfo.channelCode
  expectsReply := m.routingInfo.expectsReply != 0
  costSize := 32 + m.body.bytes.length

/-- What of the message is in its first `n` fragments. -/
def received (m : SentMessage) (n : Nat) : Bytes :=
  match m.body with
  | .single _ => []
  | .fragmented pieces => (pieces.take (n - 1)).flatten

/-! ## The fragments of one message -/

theorem fragments_length_fragmented (routingInfo : DTXMessageRoutingInfo) (pieces : List Bytes)
    (fits : (MessageBody.fragmented pieces).Fits) :
    (fragments ⟨routingInfo, .fragmented pieces, fits⟩).length = pieces.length + 1 := by
  simp [fragments]

/-- What the fragment with index `n` can be. -/
theorem fragments_cases {m : SentMessage} {n : Nat} {f : Frame} (hf : m.fragments[n]? = some f) :
    (∃ routingInfo bytes fits, m = ⟨routingInfo, .single bytes, fits⟩ ∧ n = 0 ∧
      f = singleFrame routingInfo bytes fits) ∨
    (∃ routingInfo pieces fits, m = ⟨routingInfo, .fragmented pieces, fits⟩ ∧ n = 0 ∧
      f = firstFrame routingInfo pieces fits) ∨
    ∃ routingInfo pieces fits, ∃ i : Fin pieces.length, m = ⟨routingInfo, .fragmented pieces, fits⟩ ∧
      n = i.1 + 1 ∧ f = pieceFrame routingInfo pieces fits i := by
  obtain ⟨routingInfo, bytes | pieces, fits⟩ := m
  · obtain ⟨rfl, rfl⟩ : n = 0 ∧ singleFrame routingInfo bytes fits = f := by
      simpa [fragments, List.getElem?_singleton] using hf
    exact .inl ⟨routingInfo, bytes, fits, rfl, rfl, rfl⟩
  · cases n with
    | zero => exact .inr (.inl ⟨routingInfo, pieces, fits, rfl, rfl, (Option.some.inj hf).symm⟩)
    | succ n =>
        simp only [fragments, List.getElem?_cons_succ, List.getElem?_ofFn] at hf
        split at hf
        · next hn =>
            exact .inr (.inr ⟨routingInfo, pieces, fits, ⟨n, hn⟩, rfl, rfl, (Option.some.inj hf).symm⟩)
        · cases hf

theorem absorb_firstFrame {routingInfo : DTXMessageRoutingInfo} {pieces : List Bytes}
    {fits : (MessageBody.fragmented pieces).Fits} {t : FragmentTable}
    (hnone : t routingInfo.msgIdentifier = none) :
    (firstFrame routingInfo pieces fits).absorb t =
      some (Function.update t routingInfo.msgIdentifier (some []), []) := by
  have hcount : (firstFrame routingInfo pieces fits).header.fragmentCount ≠ 1 :=
    fragmentCount_ne_one pieces fits
  have hinsert : t.insert routingInfo.msgIdentifier [] =
      Function.update t routingInfo.msgIdentifier (some []) := by
    rw [FragmentTable.insert, hnone]
  unfold Frame.absorb
  rw [if_neg hcount, if_pos (by rfl), ← hinsert]
  rfl

theorem absorb_pieceFrame {routingInfo : DTXMessageRoutingInfo} {pieces : List Bytes}
    {fits : (MessageBody.fragmented pieces).Fits} {t : FragmentTable} {fragmentedBuffer : Bytes}
    (i : Fin pieces.length) (hfound : t routingInfo.msgIdentifier = some fragmentedBuffer) :
    (pieceFrame routingInfo pieces fits i).absorb t =
      some (if i.1 + 1 = pieces.length then
          (Function.update t routingInfo.msgIdentifier none,
            [.setup (pieceFrame routingInfo pieces fits i).header (fragmentedBuffer ++ pieces[i])])
        else (Function.update t routingInfo.msgIdentifier (some (fragmentedBuffer ++ pieces[i])), [])) := by
  have hcount : (pieceFrame routingInfo pieces fits i).header.fragmentCount ≠ 1 :=
    fragmentCount_ne_one pieces fits
  have hindex : (pieceFrame routingInfo pieces fits i).header.fragmentIndex ≠ 0 :=
    fragmentIndex_ne_zero pieces fits i
  have hle := fits.2.2.1
  have hlast : (pieceFrame routingInfo pieces fits i).header.fragmentIndex.toNat + 1 =
      (pieceFrame routingInfo pieces fits i).header.fragmentCount.toNat ↔ i.1 + 1 = pieces.length := by
    show (UInt16.ofNat (i.1 + 1)).toNat + 1 = (UInt16.ofNat (pieces.length + 1)).toNat ↔ _
    rw [toNat_ofNat_of_le hle, toNat_ofNat_of_le (by omega)]
    omega
  have hsome : t (pieceFrame routingInfo pieces fits i).header.identifier = some fragmentedBuffer :=
    hfound
  unfold Frame.absorb
  rw [if_neg hcount, if_neg hindex, hsome, Option.map_some]
  simp only [hlast]
  rfl

/-- The effect of a fragment on the partial messages, when what came before it is there. -/
theorem absorb_fragment {m : SentMessage} {n : Nat} {f : Frame} {t : FragmentTable}
    (hf : m.fragments[n]? = some f) (hfresh : n = 0 → m.fragments.length ≠ 1 → t m.identifier = none)
    (hfound : 0 < n → t m.identifier = some (m.received n)) :
    f.absorb t = some
      (if m.fragments.length = 1 then t
        else Function.update t m.identifier
          (if n + 1 < m.fragments.length then some (m.received (n + 1)) else none),
      if n + 1 = m.fragments.length then [m.parsed] else []) := by
  obtain ⟨routingInfo, bytes, fits, rfl, rfl, rfl⟩ | ⟨routingInfo, pieces, fits, rfl, rfl, rfl⟩ |
    ⟨routingInfo, pieces, fits, i, rfl, rfl, rfl⟩ := fragments_cases hf
  · -- a message in one fragment does not touch the table
    rfl
  · -- nothing is kept under the identifier, so the first fragment begins a new partial message
    have hpos := pieces_length_pos pieces fits
    rw [fragments_length_fragmented] at hfresh ⊢
    rw [absorb_firstFrame (hfresh rfl (by omega)), if_neg (by omega), if_pos (by omega), if_neg (by omega)]
    rfl
  · -- a piece finds what has been received before it
    have hi := i.2
    have hsome : t routingInfo.msgIdentifier = some (pieces.take i.1).flatten := hfound (Nat.succ_pos _)
    have hne : pieces.length + 1 ≠ 1 := by omega
    have htake : (pieces.take i.1).flatten ++ pieces[i] = (pieces.take (i.1 + 1)).flatten := by
      rw [List.take_add_one, List.flatten_append]
      simp
    rw [fragments_length_fragmented, absorb_pieceFrame i hsome, if_neg hne, htake]
    by_cases hlast : i.1 + 1 = pieces.length
    · -- the last piece: the partial message is the whole message
      rw [if_pos hlast, if_neg (by omega), if_pos (by omega), List.take_of_length_le hlast.ge]
      rfl
    · rw [if_neg hlast, if_pos (by omega), if_neg (by omega)]
      rfl

end SentMessage

/-! ## Interleavings -/

section Interleaved
variable {ι : Type} [DecidableEq ι] (ms : ι → SentMessage)

/-- Some of the fragments of a message have been sent, but not all. -/
def Unfinished (before : List ι) (i : ι) : Prop :=
  0 < before.count i ∧ before.count i < (ms i).fragments.length

/-- No two messages with the same identifier are unfinished. -/
def Exclusive (before : List ι) : Prop :=
  ∀ i j, Unfinished ms before i → Unfinished ms before j → (ms i).identifier = (ms j).identifier → i = j

/-- The fragments that are sent in `order`, when those in `before` have been sent. -/
def interleaved : List ι → List ι → List Frame
  | _, [] => []
  | before, i :: order =>
    ((ms i).fragments[before.count i]?).toList ++ interleaved (before ++ [i]) order

/-- The messages that are completed in `order`, when those in `before` have been sent. -/
def completed : List ι → List ι → List ParsedMessage
  | _, [] => []
  | before, i :: order =>
    (if before.count i + 1 = (ms i).fragments.length then [(ms i).parsed] else []) ++
      completed (before ++ [i]) order

/-- The table holds what has been sent of the unfinished messages, and nothing else. -/
structure TableOf (before : List ι) (t : FragmentTable) : Prop where
  found : ∀ i, Unfinished ms before i → t (ms i).identifier = some ((ms i).received (before.count i))
  only : ∀ identifier, t identifier ≠ none → ∃ i, Unfinished ms before i ∧ (ms i).identifier = identifier

variable {ms}

theorem count_sent_self (before : List ι) (i : ι) : (before ++ [i]).count i = before.count i + 1 := by
  rw [List.count_append, List.count_singleton_self]

theorem count_sent_ne (before : List ι) {i j : ι} (h : j ≠ i) :
    (before ++ [i]).count j = before.count j := by
  rw [List.count_append, List.count_singleton, if_neg (by simpa using h.symm), Nat.add_zero]

theorem unfinished_sent_ne (before : List ι) {i j : ι} (h : j ≠ i) :
    Unfinished ms (before ++ [i]) j ↔ Unfinished ms before j := by
  rw [Unfinished, Unfinished, count_sent_ne before h]

section Step
variable {before : List ι} {t : FragmentTable} {i : ι}

/-- A message in one fragment is never unfinished. -/
theorem TableOf.sent_single (h : TableOf ms before t) (hcount : before.count i < (ms i).fragments.length)
    (hone : (ms i).fragments.length = 1) : TableOf ms (before ++ [i]) t := by
  have hiff (j : ι) : Unfinished ms (before ++ [i]) j ↔ Unfinished ms before j := by
    by_cases hj : j = i
    · subst hj
      rw [Unfinished, Unfinished, count_sent_self]
      omega
    · exact unfinished_sent_ne before hj
  refine ⟨fun j hj => ?_, fun identifier hsome => ?_⟩
  · have hne : j ≠ i := by
      rintro rfl
      have hbefore := (hiff j).mp hj
      unfold Unfinished at hbefore
      omega
    rw [count_sent_ne before hne]
    exact h.found j ((hiff j).mp hj)
  · obtain ⟨j, hj, heq⟩ := h.only identifier hsome
    exact ⟨j, (hiff j).mpr hj, heq⟩

/-- One more fragment of a message: its entry is what has been sent of it, or gone. -/
theorem TableOf.sent (h : TableOf ms before t)
    (hother : ∀ j, j ≠ i → Unfinished ms before j → (ms j).identifier ≠ (ms i).identifier) :
    TableOf ms (before ++ [i]) (Function.update t (ms i).identifier
      (if before.count i + 1 < (ms i).fragments.length then some ((ms i).received (before.count i + 1))
        else none)) := by
  refine ⟨fun j hj => ?_, fun identifier hsome => ?_⟩
  · by_cases hji : j = i
    · subst hji
      have hlt := hj.2
      rw [count_sent_self] at hlt ⊢
      rw [Function.update_self, if_pos hlt]
    · have hbefore := (unfinished_sent_ne before hji).mp hj
      rw [Function.update_of_ne (hother j hji hbefore), count_sent_ne before hji]
      exact h.found j hbefore
  · by_cases hid : identifier = (ms i).identifier
    · subst hid
      rw [Function.update_self] at hsome
      refine ⟨i, ⟨?_, ?_⟩, rfl⟩
      · rw [count_sent_self]
        exact Nat.succ_pos _
      · rw [count_sent_self]
        exact (ite_ne_right_iff.mp hsome).1
    · rw [Function.update_of_ne hid] at hsome
      obtain ⟨j, hj, rfl⟩ := h.only identifier hsome
      have hji : j ≠ i := by
        rintro rfl
        exact hid rfl
      exact ⟨j, (unfinished_sent_ne before hji).mpr hj, rfl⟩

/-- **One more fragment** is absorbed, and completes its message if it is the last one. -/
theorem TableOf.absorb (h : TableOf ms before t) (hexclusive : Exclusive ms before)
    (hexclusive' : Exclusive ms (before ++ [i])) {f : Frame}
    (hf : (ms i).fragments[before.count i]? = some f) :
    ∃ t', f.absorb t = some
        (t', if before.count i + 1 = (ms i).fragments.length then [(ms i).parsed] else []) ∧
      TableOf ms (before ++ [i]) t' := by
  have hlt : before.count i < (ms i).fragments.length := (List.getElem?_eq_some_iff.mp hf).1
  have hother (hone : (ms i).fragments.length ≠ 1) (j : ι) (hji : j ≠ i) (hj : Unfinished ms before j) :
      (ms j).identifier ≠ (ms i).identifier := by
    intro heq
    by_cases hzero : before.count i = 0
    · -- the message begins, and is unfinished afterwards
      refine hji (hexclusive' j i ((unfinished_sent_ne before hji).mpr hj) ?_ heq)
      rw [Unfinished, count_sent_self]
      omega
    · exact hji (hexclusive j i hj ⟨Nat.pos_of_ne_zero hzero, hlt⟩ heq)
  -- nothing is kept for a message that begins
  have hfresh (hzero : before.count i = 0) (hone : (ms i).fragments.length ≠ 1) :
      t (ms i).identifier = none := by
    by_contra hsome
    obtain ⟨j, hj, heq⟩ := h.only _ hsome
    refine hother hone j ?_ hj heq
    rintro rfl
    exact hj.1.ne' hzero
  have habsorb := SentMessage.absorb_fragment hf hfresh fun hpos => h.found i ⟨hpos, hlt⟩
  by_cases hone : (ms i).fragments.length = 1
  · rw [if_pos hone] at habsorb
    exact ⟨t, habsorb, h.sent_single hlt hone⟩
  · rw [if_neg hone] at habsorb
    exact ⟨_, habsorb, h.sent (hother hone)⟩

end Step

/-! ## A whole interleaving -/

section Run
variable {before order : List ι}

theorem interleaved_cons {i : ι} {f : Frame} (hf : (ms i).fragments[before.count i]? = some f) :
    interleaved ms before (i :: order) = f :: interleaved ms (before ++ [i]) order := by
  rw [interleaved, hf]
  rfl

/-- The next fragment of whoever sends next. -/
theorem exists_fragment {i : ι}
    (hcomplete : ∀ j, (before ++ i :: order).count j = (ms j).fragments.length) :
    ∃ f, (ms i).fragments[before.count i]? = some f := by
  have hcount := hcomplete i
  rw [List.count_append, List.count_cons_self] at hcount
  exact ⟨_, List.getElem?_eq_getElem (by omega)⟩

/-- **The fragments are absorbed** one after the other, and the messages complete in the order of their
    last fragments. -/
theorem TableOf.absorbAll {t : FragmentTable} (h : TableOf ms before t)
    (hcomplete : ∀ j, (before ++ order).count j = (ms j).fragments.length)
    (hexclusive : ∀ sent, sent <+: before ++ order → Exclusive ms sent) :
    ∃ t', Frame.absorbAll t (interleaved ms before order) = some (t', completed ms before order) ∧
      TableOf ms (before ++ order) t' := by
  induction order generalizing before t with
  | nil => exact ⟨t, rfl, by rwa [List.append_nil]⟩
  | cons i order ih =>
      have hassoc : before ++ i :: order = (before ++ [i]) ++ order := by simp
      obtain ⟨f, hf⟩ := exists_fragment hcomplete
      rw [hassoc] at hcomplete hexclusive
      have hnow : before <+: before ++ [i] ++ order := by
        rw [List.append_assoc]
        exact List.prefix_append _ _
      obtain ⟨t₁, habsorb, h₁⟩ := h.absorb (hexclusive _ hnow) (hexclusive _ (List.prefix_append _ _)) hf
      obtain ⟨t₂, hrest, h₂⟩ := ih h₁ hcomplete hexclusive
      refine ⟨t₂, ?_, by rwa [hassoc]⟩
      rw [interleaved_cons hf, Frame.absorbAll, habsorb, Option.bind_some, hrest, Option.map_some]
      rfl

end Run

end Interleaved

end IDevice
