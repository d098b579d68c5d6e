import Mathlib.Data.List.DropRight
import IDevice.Wire.Framing

/-!
# `Wire.Afresh` — does a first fragment begin its message afresh?

Frame by frame, `ParseMessageWithHeader` collects the payloads of the continuation fragments of an
identifier, and the last fragment hands what is collected to `DTXMessage::Deserialize`. A first fragment
goes into the table with `unordered_map::insert`, which keeps an entry that exists. So when a message is
abandoned and its identifier used again, the entry still holds what was received of the old message.

The history of an identifier is read off the list of frames: `partialMessage` are the frames since the
fragment that began the entry, `sinceFirst` those behind the latest first fragment. `table_foldl` is the
invariant, and the bytes handed over are the right ones exactly when nothing is `abandoned` between the
two.
-/

namespace IDevice

open DTXMessageParser

namespace Frame

/-- The first fragment of a message in several fragments. -/
def IsFirst (identifier : UInt32) (f : Frame) : Prop :=
  f.header.fragmentCount ≠ 1 ∧ f.header.fragmentIndex = 0 ∧ f.header.identifier = identifier

/-- A fragment behind the first one. -/
def IsContinuation (identifier : UInt32) (f : Frame) : Prop :=
  f.header.fragmentCount ≠ 1 ∧ f.header.fragmentIndex ≠ 0 ∧ f.header.identifier = identifier

/-- The continuation fragment with index `fragment_count - 1`. -/
def IsLast (identifier : UInt32) (f : Frame) : Prop :=
  f.header.fragmentCount ≠ 1 ∧ f.header.fragmentIndex.toNat + 1 = f.header.fragmentCount.toNat ∧
    f.header.identifier = identifier

instance (identifier : UInt32) (f : Frame) : Decidable (f.IsFirst identifier) := by
  unfold IsFirst
  infer_instance

instance (identifier : UInt32) (f : Frame) : Decidable (f.IsContinuation identifier) := by
  unfold IsContinuation
  infer_instance

instance (identifier : UInt32) (f : Frame) : Decidable (f.IsLast identifier) := by
  unfold IsLast
  infer_instance

variable {identifier : UInt32} {f : Frame}

theorem IsFirst.not_continuation (h : f.IsFirst identifier) : ¬ f.IsContinuation identifier :=
  fun hcontinuation => hcontinuation.2.1 h.2.1

/-- A last fragment is a continuation: with a single fragment it is not one of several. -/
theorem IsLast.continuation (h : f.IsLast identifier) : f.IsContinuation identifier := by
  obtain ⟨hcount, hlast, hidentifier⟩ := h
  refine ⟨hcount, fun hindex => hcount ?_, hidentifier⟩
  rw [hindex] at hlast
  exact UInt16.toNat.inj hlast.symm

theorem IsLast.not_first (h : f.IsLast identifier) : ¬ f.IsFirst identifier :=
  fun hfirst => hfirst.not_continuation h.continuation

end Frame

/-! ## The history of an identifier -/

section History
variable (identifier : UInt32)

/-- The payloads of the continuation fragments, one behind the other. -/
def payloads (fs : List Frame) : Bytes :=
  (fs.filter fun f => f.IsContinuation identifier).flatMap Frame.payload

/-- The frames behind the latest first fragment. -/
def sinceFirst (fs : List Frame) : List Frame := fs.rtakeWhile fun f => ¬ f.IsFirst identifier

/-- The frames since the fragment that began the message that is not complete: the earliest first fragment
    behind the latest last one. -/
def partialMessage (fs : List Frame) : List Frame :=
  (fs.rtakeWhile fun f => ¬ f.IsLast identifier).dropWhile fun f => ¬ f.IsFirst identifier

/-- What was received of the message before its latest first fragment. -/
def abandoned (fs : List Frame) : Bytes :=
  payloads identifier ((partialMessage identifier fs).rdropWhile fun f => ¬ f.IsFirst identifier)

/-- The byte strings that the frame `f` hands to `DTXMessage::Deserialize`. -/
def deserialized (p : DTXMessageParser) (f : Frame) : List Bytes :=
  ((p.parseFrame f).parsedMessageQueue.drop p.parsedMessageQueue.length).map ParsedMessage.bytes

/-- A last fragment of a message that has begun hands over what was received behind the latest first
    fragment, and nothing else; when none has begun nothing is handed over. -/
def BeginsAfresh (fs : List Frame) : Prop :=
  ∀ before f after, fs = before ++ f :: after → f.IsLast identifier →
    deserialized (before.foldl parseFrame {}) f =
      if partialMessage identifier before = [] then []
      else [payloads identifier (sinceFirst identifier (before ++ [f]))]

/-- Whenever a last fragment comes, nothing was received of its message before the latest first
    fragment. -/
def NothingAbandoned (fs : List Frame) : Prop :=
  ∀ before f after, fs = before ++ f :: after → f.IsLast identifier → abandoned identifier before = []

variable {identifier} (fs : List Frame) {f : Frame}

theorem payloads_snoc : payloads identifier (fs ++ [f]) =
    payloads identifier fs ++ if f.IsContinuation identifier then f.payload else [] := by
  unfold payloads
  by_cases h : f.IsContinuation identifier <;> simp [h]

theorem sinceFirst_snoc : sinceFirst identifier (fs ++ [f]) =
    if f.IsFirst identifier then [] else sinceFirst identifier fs ++ [f] := by
  unfold sinceFirst
  by_cases h : f.IsFirst identifier <;> simp [h]

/-- One more frame: a last fragment ends the message, a first one begins it unless it has begun. -/
theorem partialMessage_snoc : partialMessage identifier (fs ++ [f]) =
    if f.IsLast identifier then []
    else if partialMessage identifier fs = [] ∧ ¬ f.IsFirst identifier then []
    else partialMessage identifier fs ++ [f] := by
  unfold partialMessage
  by_cases hlast : f.IsLast identifier
  · simp [hlast]
  rw [if_neg hlast, List.rtakeWhile_concat, if_pos (by simpa using hlast), List.dropWhile_append]
  by_cases hnil : (fs.rtakeWhile fun f => ¬ f.IsLast identifier).dropWhile
      (fun f => ¬ f.IsFirst identifier) = []
  · rw [hnil]
    by_cases hfirst : f.IsFirst identifier <;> simp [hfirst]
  · rw [if_neg (by rwa [List.isEmpty_iff]), if_neg fun h => hnil h.1]

/-- What is collected of a message: the abandoned part, and what came behind the latest first fragment. -/
theorem payloads_partialMessage (h : partialMessage identifier fs ≠ []) :
    payloads identifier (partialMessage identifier fs) =
      abandoned identifier fs ++ payloads identifier (sinceFirst identifier fs) := by
  induction fs using List.reverseRecOn with
  | nil => exact absurd rfl h
  | append_singleton fs f ih =>
      rw [partialMessage_snoc] at h
      split_ifs at h with hlast hnil
      · exact absurd rfl h
      · exact absurd rfl h
      rw [abandoned, partialMessage_snoc, if_neg hlast, if_neg hnil, sinceFirst_snoc]
      by_cases hfirst : f.IsFirst identifier
      · -- a first fragment: all that was collected is abandoned
        rw [if_pos hfirst, List.rdropWhile_concat_neg _ _ _ (by simpa using hfirst)]
        exact (List.append_nil _).symm
      · rw [if_neg hfirst, List.rdropWhile_concat_pos _ _ _ (by simpa using hfirst), payloads_snoc,
          payloads_snoc, ih fun hempty => hnil ⟨hempty, hfirst⟩, abandoned, List.append_assoc]

end History

/-! ## One frame -/

section Step
variable {identifier : UInt32} (p : DTXMessageParser) (f : Frame)

/-- `ParseMessageWithHeader` does with the payload of a frame what `Frame.absorb` says; an orphan changes
    nothing. -/
theorem parseFrame_eq : p.parseFrame f =
    ((f.absorb p.fragmentedBuffersByIdentifier).map fun r => p.advance r.1 r.2).getD p := by
  have hlen := f.payload_length
  unfold parseFrame parseMessageWithHeader Frame.absorb
  by_cases hcount : f.header.fragmentCount = 1
  · rw [if_neg (by simp [hcount])] at hlen
    simp [hcount, ← hlen, advance]
  by_cases hindex : f.header.fragmentIndex = 0
  · simp [hcount, hindex, advance]
  rw [if_neg (by simp [hindex])] at hlen
  simp only [hcount, hindex, if_false]
  cases p.fragmentedBuffersByIdentifier f.header.identifier with
  | none => rfl
  | some buffer =>
      by_cases hlast : f.header.fragmentIndex.toNat + 1 = f.header.fragmentCount.toNat <;>
        simp [← hlen, hlast, advance]

theorem getD_insert (t : FragmentTable) (identifier : UInt32) :
    (t.insert identifier []) identifier = some ((t identifier).getD []) := by
  rw [FragmentTable.insert]
  cases hfound : t identifier <;> simp [hfound]

theorem insert_of_ne {t : FragmentTable} {identifier key : UInt32} (h : key ≠ identifier) :
    (t.insert identifier []) key = t key := by
  rw [FragmentTable.insert]
  cases t identifier <;> simp [h]

/-- The entry of an identifier after a frame. -/
theorem table_parseFrame : (p.parseFrame f).fragmentedBuffersByIdentifier identifier =
    if f.IsFirst identifier then some ((p.fragmentedBuffersByIdentifier identifier).getD [])
    else if f.IsLast identifier then none
    else if f.IsContinuation identifier then
      (p.fragmentedBuffersByIdentifier identifier).map (· ++ f.payload)
    else p.fragmentedBuffersByIdentifier identifier := by
  rw [parseFrame_eq]
  unfold Frame.absorb Frame.IsFirst Frame.IsLast Frame.IsContinuation
  by_cases hcount : f.header.fragmentCount = 1
  · simp [hcount, advance]
  by_cases hid : f.header.identifier = identifier
  · subst hid
    by_cases hindex : f.header.fragmentIndex = 0
    · simp [hcount, hindex, advance, getD_insert]
    · by_cases hlast : f.header.fragmentIndex.toNat + 1 = f.header.fragmentCount.toNat <;>
        cases hfound : p.fragmentedBuffersByIdentifier f.header.identifier <;>
        simp [hcount, hindex, hlast, hfound, advance, FragmentTable.erase, FragmentTable.set]
  · -- the entry of another identifier
    have hne : identifier ≠ f.header.identifier := fun h => hid h.symm
    by_cases hindex : f.header.fragmentIndex = 0
    · simp [hcount, hindex, hid, advance, insert_of_ne hne]
    · by_cases hlast : f.header.fragmentIndex.toNat + 1 = f.header.fragmentCount.toNat <;>
        cases p.fragmentedBuffersByIdentifier f.header.identifier <;>
        simp [hcount, hindex, hid, hlast, hne, advance, FragmentTable.erase, FragmentTable.set]

/-- What a last fragment hands over: what is collected under its identifier, and its payload. -/
theorem deserialized_last (h : f.IsLast identifier) :
    deserialized p f =
      ((p.fragmentedBuffersByIdentifier identifier).map (· ++ f.payload)).toList := by
  obtain ⟨hcount, hindex, rfl⟩ := h.continuation
  rw [deserialized, parseFrame_eq, Frame.absorb, if_neg hcount, if_neg hindex]
  cases p.fragmentedBuffersByIdentifier f.header.identifier with
  | none => simp
  | some buffer => simp [h.2.1, advance, ParsedMessage.setup]

end Step

/-! ## All frames -/

/-- **What the table holds** of an identifier: the payloads since its message began. -/
theorem table_foldl (identifier : UInt32) (fs : List Frame) :
    (fs.foldl parseFrame {}).fragmentedBuffersByIdentifier identifier =
      if partialMessage identifier fs = [] then none
      else some (payloads identifier (partialMessage identifier fs)) := by
  induction fs using List.reverseRecOn with
  | nil => rfl
  | append_singleton fs f ih =>
      rw [List.foldl_append, List.foldl_cons, List.foldl_nil, table_parseFrame, ih, partialMessage_snoc]
      by_cases hlast : f.IsLast identifier
      · simp [hlast, hlast.not_first]
      by_cases hfirst : f.IsFirst identifier
      · by_cases hnil : partialMessage identifier fs = []
        · simp [hlast, hfirst, hnil, payloads, hfirst.not_continuation]
        · simp [hlast, hfirst, hnil, payloads_snoc, hfirst.not_continuation]
      · by_cases hnil : partialMessage identifier fs = []
        · simp [hlast, hfirst, hnil]
        · by_cases hcontinuation : f.IsContinuation identifier <;>
            simp [hlast, hfirst, hnil, payloads_snoc, hcontinuation]

/-- **A first fragment begins its message afresh** exactly when nothing of an abandoned message is in the
    way. -/
theorem beginsAfresh_iff (identifier : UInt32) (fs : List Frame) :
    BeginsAfresh identifier fs ↔ NothingAbandoned identifier fs := by
  unfold BeginsAfresh NothingAbandoned
  refine forall_congr' fun before => forall_congr' fun f => forall_congr' fun after =>
    forall_congr' fun _ => forall_congr' fun hlast => ?_
  rw [deserialized_last _ f hlast, table_foldl, sinceFirst_snoc, if_neg hlast.not_first, payloads_snoc,
    if_pos hlast.continuation]
  by_cases hnil : partialMessage identifier before = []
  · simp [hnil, abandoned, payloads]
  · rw [if_neg hnil, if_neg hnil, payloads_partialMessage before hnil]
    simp

/-- Message 7 is abandoned behind its second fragment, and begun again. -/
def abandonedFrames : List Frame :=
  [fragmentOfThree 0 3 [] (by decide) (by decide), fragmentOfThree 1 1 [1] (by decide) (by decide),
    fragmentOfThree 0 3 [] (by decide) (by decide), fragmentOfThree 2 1 [2] (by decide) (by decide)]

/-- The byte of the abandoned message is handed over with the new one. -/
theorem not_beginsAfresh_abandoned : ¬ BeginsAfresh 7 abandonedFrames := by
  intro h
  have hhanded := h _ (fragmentOfThree 2 1 [2] (by decide) (by decide)) []
    (List.dropLast_append_getLast (by decide : abandonedFrames ≠ [])).symm (by decide)
  revert hhanded
  decide

end IDevice
