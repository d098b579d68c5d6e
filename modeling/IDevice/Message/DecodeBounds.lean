import IDevice.Message.Deserialize

/-!
# `Message.DecodeBounds` — when decoding stays inside the message

`DTXMessage::Deserialize` does not look at the size it is given, so the lengths a message carries are
all that keeps it inside. `WellNested` is the condition on the bytes: the payload header is complete,
the auxiliary area is no longer than the whole, every entry that the walk over the auxiliary area
reaches is complete (`Walk`), and the payload ends inside the message.

The proof follows one entry (`deserializeItem_spec`), then the loop in both directions
(`walk_of_inside`, `inside_of_walk`).
-/

namespace IDevice

open LittleEndian

/-- Every byte read has an index below the length of the message, and the payload length is the
    difference of the two lengths, not wrapped around; whatever lies behind the message. -/
def DecodesInside {KAValue : Type} (unarchive : Bytes → KAValue) (assertsEnabled : Bool) (b : Bytes) :
    Prop :=
  ∀ bytes : Memory, bytes.Shows b →
    (∀ w ∈ (DTXMessage.deserialize unarchive assertsEnabled bytes b.length).reads, w.Inside b.length) ∧
    (DTXMessage.deserialize unarchive assertsEnabled bytes b.length).payloadLength.toNat +
      (DTXMessage.readAuxiliaryLength bytes).toNat = (DTXMessage.readTotalLength bytes).toNat

/-- What follows an item type. -/
inductive EntryKind where
  | text
  | bytes
  | fixed (width : Nat)
  | unknown
deriving DecidableEq, Repr

namespace EntryKind

def ofType : Nat → EntryKind
  | 1 => text
  | 2 => bytes
  | 3 => fixed 4
  | 4 => fixed 8
  | 5 => fixed 4
  | 6 => fixed 8
  | 9 => fixed 8
  | 10 => fixed 0
  | _ => unknown

/-- Where the entry at `off` ends. -/
def next (b : Bytes) (off : Nat) : EntryKind → Nat
  | text => off + 8 + field b (off + 4) 4
  | bytes => off + 8 + field b (off + 4) 4
  | fixed width => off + 4 + width
  | unknown => off + 4

/-- The entry at `off`, whose type lies inside the message, is complete. Of a string that is too long
    only the bytes up to its first zero are needed. -/
def Complete (b : Bytes) (off : Nat) : EntryKind → Prop
  | text => off + 8 ≤ b.length ∧
      (off + 8 + field b (off + 4) 4 ≤ b.length ∨ 0 ∈ (b.drop (off + 8)).take (field b (off + 4) 4))
  | bytes => off + 8 ≤ b.length ∧ off + 8 + field b (off + 4) 4 ≤ b.length
  | fixed width => off + 4 + width ≤ b.length
  | unknown => True

theorem le_next (b : Bytes) (off : Nat) (kind : EntryKind) : off + 4 ≤ kind.next b off := by
  cases kind <;> simp only [next] <;> omega

end EntryKind

/-- The entries from `off` on up to `stop` are complete, and the walk over them ends with the failure of
    an assertion or without. -/
inductive Walk (assertsEnabled : Bool) (b : Bytes) (stop : Nat) : Nat → Bool → Prop
  | done {off} : stop ≤ off → Walk assertsEnabled b stop off false
  | abort {off} : off < stop → off + 4 ≤ b.length →
      EntryKind.ofType (field b off 4) = .unknown → assertsEnabled = true →
      Walk assertsEnabled b stop off true
  | entry {off aborted} : off < stop → off + 4 ≤ b.length →
      (EntryKind.ofType (field b off 4)).Complete b off →
      (EntryKind.ofType (field b off 4) = .unknown → assertsEnabled = false) →
      Walk assertsEnabled b stop ((EntryKind.ofType (field b off 4)).next b off) aborted →
      Walk assertsEnabled b stop off aborted

/-- The `aux_len` field of a message. -/
def auxLen (b : Bytes) : Nat := field b 4 4

/-- The `total_len` field of a message. -/
def totalLen (b : Bytes) : Nat := field b 8 8

/-- The header of the auxiliary array announces the length of the auxiliary area. -/
def ArrayHeaderFits (b : Bytes) : Prop := (field b 24 8 + 16) % 2 ^ 64 = auxLen b

instance (b : Bytes) : Decidable (ArrayHeaderFits b) := by
  unfold ArrayHeaderFits
  infer_instance

/-- The auxiliary area is complete as far as it is read. -/
inductive AuxiliaryComplete (assertsEnabled : Bool) (b : Bytes) : Bool → Prop
  | short : auxLen b < 16 → AuxiliaryComplete assertsEnabled b false
  | mismatch : 16 ≤ auxLen b → 32 ≤ b.length → ¬ ArrayHeaderFits b →
      AuxiliaryComplete assertsEnabled b false
  | walk {aborted} : 16 ≤ auxLen b → 32 ≤ b.length → ArrayHeaderFits b →
      Walk assertsEnabled b (16 + auxLen b) 32 aborted → AuxiliaryComplete assertsEnabled b aborted

/-- The lengths of the message are consistent with each other and with its size. -/
structure WellNested (assertsEnabled : Bool) (b : Bytes) : Prop where
  header : 16 ≤ b.length
  auxiliary_le : auxLen b ≤ totalLen b
  /-- Unless an assertion fails before, the payload is read too. -/
  parts : ∃ aborted, AuxiliaryComplete assertsEnabled b aborted ∧
    (aborted = false → auxLen b < totalLen b → 16 + totalLen b ≤ b.length)

/-! ## One entry -/

section Entry
variable {m : Memory} {b : Bytes} (h : m.Shows b)
include h

/-- A window inside the message, seen from the auxiliary area. -/
theorem word_after_eq_field {offset w : Nat} (hin : 16 + offset + w ≤ b.length) :
    (m.after 16).word offset w = field b (16 + offset) w := by
  rw [Memory.after_word, h.word_eq_field hin]

/-- `strncpy` reads inside the message when the string does, or a zero ends it. -/
theorem strncpyReads_inside_iff {off n : Nat} (hoff : off ≤ b.length) :
    (∀ i, off ≤ i → i < off + (m.after off).strncpyReads n → i < b.length) ↔
      off + n ≤ b.length ∨ 0 ∈ (b.drop off).take n := by
  have hwindow := Window.inside_iff (n := b.length) (w := ⟨off, (m.after off).strncpyReads n⟩)
  have hle : (m.after off).strncpyReads n = 0 ∨ off + (m.after off).strncpyReads n ≤ b.length ↔
      (m.after off).strncpyReads n ≤ b.length - off := by omega
  have hmem : 0 ∈ (b.drop off).take n ↔
      ∃ i, i < b.length - off ∧ i < n ∧ (m.after off) i = 0 := by
    rw [List.mem_iff_getElem]
    constructor
    · rintro ⟨i, hi, hzero⟩
      have hlen : i < n ∧ i < b.length - off := by
        simp only [List.length_take, List.length_drop] at hi
        omega
      refine ⟨i, hlen.2, hlen.1, ?_⟩
      have hval := h (off + i) (by omega)
      simp only [List.getElem_take, List.getElem_drop] at hzero
      rw [Memory.after, hval, hzero]
    · rintro ⟨i, hi, hn, hzero⟩
      have hval := h (off + i) (by omega)
      refine ⟨i, by simp only [List.length_take, List.length_drop]; omega, ?_⟩
      simp only [List.getElem_take, List.getElem_drop]
      rw [← hval]
      exact hzero
  rw [hmem]
  exact hwindow.trans (hle.trans ((Memory.strncpyReads_le_iff _ _ _).trans (by
    have hlen : n ≤ b.length - off ↔ off + n ≤ b.length := by omega
    rw [hlen])))

/-- **One entry.** Its reads lie inside the message exactly when it is complete, and a complete entry
    ends where its kind says. -/
theorem deserializeItem_spec {offset : Nat} (hoff : 16 + offset + 4 ≤ b.length) (type : Nat) :
    match DTXPrimitiveArray.deserializeItem (m.after 16) type (offset + 4) with
    | none => EntryKind.ofType type = .unknown
    | some (_, next, reads) => EntryKind.ofType type ≠ .unknown ∧
        ((∀ w ∈ reads, (w.shift 16).Inside b.length) ↔
          (EntryKind.ofType type).Complete b (16 + offset)) ∧
        ((EntryKind.ofType type).Complete b (16 + offset) →
          16 + next = (EntryKind.ofType type).next b (16 + offset)) := by
  have hfixed {width : Nat} (hpos : 0 < width) :
      (∀ w ∈ [(⟨offset + 4, width⟩ : Window)], (w.shift 16).Inside b.length) ↔
        16 + offset + 4 + width ≤ b.length := by
    simp only [List.mem_singleton, forall_eq, Window.shift, Window.inside_iff]
    omega
  have hlength (hin : 16 + offset + 8 ≤ b.length) :
      (m.after 16).word (offset + 4) 4 = field b (16 + offset + 4) 4 := by
    rw [word_after_eq_field h (by omega), Nat.add_assoc 16]
  have hnumber {width : Nat} : 16 + (offset + 4 + width) = 16 + offset + 4 + width := by omega
  match type with
  | 1 =>
      -- the length is read first, and then what `strncpy` needs of the string
      refine ⟨by decide, ?_, ?_⟩
      · simp only [List.mem_cons, List.not_mem_nil, or_false, forall_eq_or_imp, forall_eq, Window.shift]
        constructor
        · rintro ⟨h1, h2⟩
          have hin : 16 + offset + 8 ≤ b.length := by
            have h1' : 4 = 0 ∨ 16 + (offset + 4) + 4 ≤ b.length := Window.inside_iff.mp h1
            omega
          rw [hlength hin, Memory.after_after,
            show 16 + (offset + 4 + 4) = 16 + offset + 8 by omega] at h2
          exact ⟨hin, (strncpyReads_inside_iff h hin).mp h2⟩
        · rintro ⟨hin, hstr⟩
          rw [hlength hin, Memory.after_after, show 16 + (offset + 4 + 4) = 16 + offset + 8 by omega]
          refine ⟨Window.inside_iff.mpr (.inr ?_), (strncpyReads_inside_iff h hin).mpr hstr⟩
          show 16 + (offset + 4) + 4 ≤ b.length
          omega
      · rintro ⟨hin, -⟩
        show 16 + (offset + 4 + 4 + _) = 16 + offset + 8 + _
        rw [hlength hin]
        omega
  | 2 =>
      refine ⟨by decide, ?_, ?_⟩
      · simp only [List.mem_cons, List.not_mem_nil, or_false, forall_eq_or_imp, forall_eq, Window.shift,
          Window.inside_iff]
        constructor
        · rintro ⟨h1, h2⟩
          have hin : 16 + offset + 8 ≤ b.length := by omega
          rw [hlength hin] at h2
          exact ⟨hin, by omega⟩
        · rintro ⟨hin, hbytes⟩
          rw [hlength hin]
          omega
      · rintro ⟨hin, -⟩
        show 16 + (offset + 4 + 4 + _) = 16 + offset + 8 + _
        rw [hlength hin]
        omega
  | 3 => exact ⟨by decide, hfixed (by decide), fun _ => hnumber⟩
  | 4 => exact ⟨by decide, hfixed (by decide), fun _ => hnumber⟩
  | 5 => exact ⟨by decide, hfixed (by decide), fun _ => hnumber⟩
  | 6 => exact ⟨by decide, hfixed (by decide), fun _ => hnumber⟩
  | 9 => exact ⟨by decide, hfixed (by decide), fun _ => hnumber⟩
  | 10 =>
      -- an empty key reads nothing behind its type
      refine ⟨by decide, ?_, fun _ => (Nat.add_assoc 16 offset 4).symm⟩
      simp only [List.not_mem_nil, false_implies, implies_true, true_iff]
      exact hoff
  | 0 => rfl
  | 7 => rfl
  | 8 => rfl
  | type + 11 => rfl

end Entry

/-! ## The loop -/

section Loop
variable {m : Memory} {b : Bytes} (h : m.Shows b) {assertsEnabled : Bool} {bufferSize : Nat}
include h

/-- Reads inside the message follow a walk over complete entries. -/
theorem walk_of_inside {fuel offset : Nat} {items : List DTXPrimitiveValue}
    (hfuel : bufferSize ≤ offset + fuel) {d : ArrayDecoded}
    (hd : DTXPrimitiveArray.deserializeItems assertsEnabled (m.after 16) bufferSize fuel offset items = d)
    (hin : ∀ w ∈ d.reads, (w.shift 16).Inside b.length) :
    Walk assertsEnabled b (16 + bufferSize) (16 + offset) d.aborted := by
  induction fuel generalizing offset items d with
  | zero =>
      subst hd
      exact .done (by omega)
  | succ fuel ih =>
      rw [DTXPrimitiveArray.deserializeItems] at hd
      by_cases hlt : offset < bufferSize
      · rw [if_pos hlt] at hd
        have htype (hmem : (⟨offset, 4⟩ : Window) ∈ d.reads) : 16 + offset + 4 ≤ b.length := by
          have h4 : 4 = 0 ∨ 16 + offset + 4 ≤ b.length := Window.inside_iff.mp (hin _ hmem)
          omega
        cases hitem : DTXPrimitiveArray.deserializeItem (m.after 16) ((m.after 16).word offset 4)
            (offset + 4) with
        | none =>
            -- an unknown type ends the walk, or is skipped when assertions are off
            rw [hitem] at hd
            have hoff : 16 + offset + 4 ≤ b.length := by
              refine htype ?_
              cases assertsEnabled <;> simp [← hd]
            rw [word_after_eq_field h hoff] at hitem
            have hunknown := deserializeItem_spec h hoff (field b (16 + offset) 4)
            rw [hitem] at hunknown
            by_cases hasserts : assertsEnabled = true
            · obtain rfl : ⟨none, true, [⟨offset, 4⟩]⟩ = d := by simpa [hasserts] using hd
              exact .abort (by omega) hoff hunknown hasserts
            · obtain rfl : assertsEnabled = false := by simpa using hasserts
              subst hd
              have hrest := ih (show bufferSize ≤ offset + 4 + fuel by omega) rfl
                fun w hw => hin w (List.mem_append_right _ hw)
              refine .entry (by omega) hoff (hunknown ▸ trivial) (fun _ => rfl) ?_
              rw [hunknown]
              exact hrest
        | some r =>
            obtain ⟨value, next, reads⟩ := r
            rw [hitem] at hd
            subst hd
            have hoff := htype (by simp)
            rw [word_after_eq_field h hoff] at hitem
            have hspec := deserializeItem_spec h hoff (field b (16 + offset) 4)
            rw [hitem] at hspec
            obtain ⟨hknown, hcomplete, hnext⟩ := hspec
            have hc := hcomplete.mp fun w hw => hin w (by simp [hw])
            have hle := EntryKind.le_next b (16 + offset) (EntryKind.ofType (field b (16 + offset) 4))
            rw [← hnext hc] at hle
            have hrest := ih (show bufferSize ≤ next + fuel by omega) rfl
              fun w hw => hin w (List.mem_append_right _ hw)
            rw [hnext hc] at hrest
            exact .entry (by omega) hoff hc (fun hu => absurd hu hknown) hrest
      · rw [if_neg hlt] at hd
        subst hd
        exact .done (by omega)

/-- The loop reads inside the message when the walk goes over complete entries, and they end alike. -/
theorem inside_of_walk {fuel offset off : Nat} {items : List DTXPrimitiveValue} {aborted : Bool}
    (hwalk : Walk assertsEnabled b (16 + bufferSize) off aborted) (hoffset : 16 + offset = off)
    (hfuel : bufferSize ≤ offset + fuel) {d : ArrayDecoded}
    (hd : DTXPrimitiveArray.deserializeItems assertsEnabled (m.after 16) bufferSize fuel offset items = d) :
    d.aborted = aborted ∧ ∀ w ∈ d.reads, (w.shift 16).Inside b.length := by
  induction hwalk generalizing fuel offset items d with
  | done hstop =>
      subst hd
      cases fuel with
      | zero => simp [DTXPrimitiveArray.deserializeItems]
      | succ fuel =>
          rw [DTXPrimitiveArray.deserializeItems, if_neg (by omega)]
          simp
  | abort hlt hoff hunknown hasserts =>
      subst hoffset
      -- the type is unknown, and the assertion ends the decoding
      obtain ⟨fuel, rfl⟩ : ∃ k, fuel = k + 1 := ⟨fuel - 1, by omega⟩
      rw [DTXPrimitiveArray.deserializeItems, if_pos (by omega), word_after_eq_field h hoff] at hd
      -- the type is read at `offset`, and the walk knows whether it is one of the format
      have hspec := deserializeItem_spec h hoff (field b (16 + offset) 4)
      cases hitem : DTXPrimitiveArray.deserializeItem (m.after 16) (field b (16 + offset) 4)
          (offset + 4) with
      | none =>
          obtain rfl : ⟨none, true, [⟨offset, 4⟩]⟩ = d := by simpa [hitem, hasserts] using hd
          simpa using Window.inside_iff.mpr (.inr hoff)
      | some r =>
          rw [hitem] at hspec
          exact absurd hunknown hspec.1
  | entry hlt hoff hcomplete hunknown hrest ih =>
      subst hoffset
      obtain ⟨fuel, rfl⟩ : ∃ k, fuel = k + 1 := ⟨fuel - 1, by omega⟩
      have hle := EntryKind.le_next b (16 + offset) (EntryKind.ofType (field b (16 + offset) 4))
      have htype : ((⟨offset, 4⟩ : Window).shift 16).Inside b.length := Window.inside_iff.mpr (.inr hoff)
      rw [DTXPrimitiveArray.deserializeItems, if_pos (by omega), word_after_eq_field h hoff] at hd
      have hspec := deserializeItem_spec h hoff (field b (16 + offset) 4)
      cases hitem : DTXPrimitiveArray.deserializeItem (m.after 16) (field b (16 + offset) 4)
          (offset + 4) with
      | none =>
          rw [hitem] at hspec hd
          have hnext : 16 + (offset + 4) =
              (EntryKind.ofType (field b (16 + offset) 4)).next b (16 + offset) := by
            rw [hspec]
            rfl
          -- an unknown type without assertions: only the type is skipped
          obtain rfl := hunknown hspec
          subst hd
          obtain ⟨haborted, hreads⟩ := ih hnext (show bufferSize ≤ offset + 4 + fuel by omega) rfl
          refine ⟨haborted, fun w hw => ?_⟩
          rcases List.mem_cons.mp hw with rfl | hw
          · exact htype
          · exact hreads w hw
      | some r =>
          obtain ⟨value, next, reads⟩ := r
          rw [hitem] at hspec hd
          -- a known type: its windows lie inside because the entry is complete
          obtain ⟨-, hreads, hnext⟩ := hspec
          rw [← hnext hcomplete] at hle
          subst hd
          obtain ⟨haborted, hrest⟩ :=
            ih (hnext hcomplete) (show bufferSize ≤ next + fuel by omega) rfl
          refine ⟨haborted, fun w hw => ?_⟩
          rcases List.mem_append.mp hw with hw | hw
          · rcases List.mem_cons.mp hw with rfl | hw
            · exact htype
            · exact hreads.mpr hcomplete w hw
          · exact hrest w hw

end Loop

/-! ## The auxiliary area -/

/-- The two fields of a complete array header are read inside the message. -/
theorem deserialize_reads_inside_iff {b : Bytes} (hhead : 32 ≤ b.length) (reads : List Window) :
    (∀ w ∈ (⟨0, 8⟩ : Window) :: ⟨8, 8⟩ :: reads, (w.shift 16).Inside b.length) ↔
      ∀ w ∈ reads, (w.shift 16).Inside b.length := by
  constructor
  · intro hin w hw
    exact hin w (by simp [hw])
  · intro hin w hw
    rcases List.mem_cons.mp hw with rfl | hw
    · exact Window.inside_iff.mpr (.inr (show 16 + 0 + 8 ≤ b.length by omega))
    · rcases List.mem_cons.mp hw with rfl | hw
      · exact Window.inside_iff.mpr (.inr hhead)
      · exact hin w hw

section Auxiliary
variable {m : Memory} {b : Bytes} (h : m.Shows b) {assertsEnabled : Bool}
include h

/-- The test of the `size` field, on a complete array header. -/
theorem sizeField_eq_iff (hhead : 32 ≤ b.length) :
    UInt64.ofNat ((m.after 16).word 8 8) + kDTXPrimitiveArrayHeaderSize = UInt64.ofNat (auxLen b) ↔
      ArrayHeaderFits b := by
  have hsize : field b 24 8 < 2 ^ 64 := field_lt b 24 8
  have haux : auxLen b < 2 ^ 32 := field_lt b 4 4
  have h16 : kDTXPrimitiveArrayHeaderSize.toNat = 16 := rfl
  rw [word_after_eq_field h (by omega), ← UInt64.toNat_inj, UInt64.toNat_add, UInt64.toNat_ofNat',
    UInt64.toNat_ofNat', h16, Nat.mod_eq_of_lt hsize, Nat.mod_eq_of_lt (by omega : auxLen b < 2 ^ 64)]
  rfl

/-- Decoding the array reads inside the message exactly when the auxiliary area is complete. -/
theorem auxiliary_inside_iff {d : ArrayDecoded}
    (hd : DTXPrimitiveArray.deserialize assertsEnabled (m.after 16) (auxLen b) = d) (aborted : Bool) :
    (d.aborted = aborted ∧ ∀ w ∈ d.reads, (w.shift 16).Inside b.length) ↔
      AuxiliaryComplete assertsEnabled b aborted := by
  have h16 : kDTXPrimitiveArrayHeaderSize.toNat = 16 := rfl
  rw [DTXPrimitiveArray.deserialize, h16] at hd
  by_cases hshort : auxLen b < 16
  · rw [if_pos hshort] at hd
    subst hd
    constructor
    · rintro ⟨rfl, -⟩
      exact .short hshort
    · rintro (_ | hlong | hlong)
      · simp
      · omega
      · omega
  rw [if_neg hshort] at hd
  -- the header of the array is read in any case
  have hheader (hin : ∀ w ∈ d.reads, (w.shift 16).Inside b.length) : 32 ≤ b.length := by
    have hmem : (⟨8, 8⟩ : Window) ∈ d.reads := by
      simp only at hd
      split at hd <;> (subst hd; simp)
    have := Window.inside_iff.mp (hin _ hmem)
    simp only [Window.shift] at this
    omega
  by_cases hhead : 32 ≤ b.length
  · by_cases hfits : ArrayHeaderFits b
    · simp only [(sizeField_eq_iff h hhead).mpr hfits, ne_eq, not_true_eq_false, if_false] at hd
      generalize hitems : DTXPrimitiveArray.deserializeItems assertsEnabled (m.after 16) (auxLen b)
        (auxLen b) 16 [] = items at hd
      subst hd
      show (items.aborted = aborted ∧ _) ↔ _
      rw [ArrayDecoded.after_reads, List.cons_append, List.cons_append, List.nil_append,
        deserialize_reads_inside_iff hhead]
      constructor
      · rintro ⟨rfl, hin⟩
        exact .walk (by omega) hhead hfits (walk_of_inside h (by omega) hitems hin)
      · rintro (hlt | ⟨-, -, hmis⟩ | ⟨-, -, -, hwalk⟩)
        · omega
        · exact absurd hfits hmis
        · exact inside_of_walk h hwalk rfl (by omega) hitems
    · -- only the header has been read
      simp only [ne_eq, (sizeField_eq_iff h hhead).not.mpr hfits, not_false_eq_true, if_true] at hd
      subst hd
      rw [deserialize_reads_inside_iff hhead]
      constructor
      · rintro ⟨rfl, -⟩
        exact .mismatch (by omega) hhead hfits
      · rintro (hlt | - | ⟨-, -, hfit, -⟩)
        · omega
        · simp
        · exact absurd hfit hfits
  · constructor
    · rintro ⟨-, hin⟩
      exact absurd (hheader hin) hhead
    · rintro (hlt | ⟨-, hlong⟩ | ⟨-, hlong⟩)
      · omega
      · exact absurd hlong hhead
      · exact absurd hlong hhead

end Auxiliary

/-! ## The message -/

section Message
variable {m : Memory} {b : Bytes} (h : m.Shows b) {assertsEnabled : Bool}
include h

theorem readAuxiliaryLength_toNat (hhead : 16 ≤ b.length) :
    (DTXMessage.readAuxiliaryLength m).toNat = auxLen b := by
  rw [DTXMessage.readAuxiliaryLength, h.word_eq_field (by omega), UInt32.toNat_ofNat']
  exact Nat.mod_eq_of_lt (field_lt b 4 4)

theorem readTotalLength_toNat (hhead : 16 ≤ b.length) :
    (DTXMessage.readTotalLength m).toNat = totalLen b := by
  rw [DTXMessage.readTotalLength, h.word_eq_field (by omega), UInt64.toNat_ofNat']
  exact Nat.mod_eq_of_lt (field_lt b 8 8)

/-- The difference that is the payload length does not wrap where the auxiliary area is no longer than the
    whole. -/
theorem payloadLength_toNat (hhead : 16 ≤ b.length) (hle : auxLen b ≤ totalLen b) :
    (DTXMessage.readTotalLength m - (DTXMessage.readAuxiliaryLength m).toUInt64).toNat =
      totalLen b - auxLen b := by
  have htotal := readTotalLength_toNat h hhead
  have haux64 : (DTXMessage.readAuxiliaryLength m).toUInt64.toNat = auxLen b :=
    readAuxiliaryLength_toNat h hhead
  rw [UInt64.toNat_sub_of_le, htotal, haux64]
  rwa [UInt64.le_iff_toNat_le, htotal, haux64]

/-- An auxiliary area of length 0 is not decoded, which is as if it had been. -/
theorem deserializeAuxiliary_eq (hhead : 16 ≤ b.length) :
    (if 0 < DTXMessage.readAuxiliaryLength m then
      DTXPrimitiveArray.deserialize assertsEnabled (m.after kDTXMessagePayloadHeaderSize)
        (DTXMessage.readAuxiliaryLength m).toNat else ⟨none, false, []⟩) =
      DTXPrimitiveArray.deserialize assertsEnabled (m.after 16) (auxLen b) := by
  have haux := readAuxiliaryLength_toNat h hhead
  by_cases hpos : 0 < DTXMessage.readAuxiliaryLength m
  · rw [if_pos hpos, haux]
    rfl
  · have hzero : auxLen b = 0 := by
      rw [UInt32.lt_iff_toNat_lt, haux] at hpos
      exact Nat.eq_zero_of_not_pos hpos
    rw [if_neg hpos, hzero]
    rfl

/-- The parts of a message, seen from the decoded array. -/
theorem parts_iff {d : ArrayDecoded}
    (hd : DTXPrimitiveArray.deserialize assertsEnabled (m.after 16) (auxLen b) = d) {payload : Prop} :
    (∃ aborted, AuxiliaryComplete assertsEnabled b aborted ∧ (aborted = false → payload)) ↔
      (∀ w ∈ d.reads, (w.shift 16).Inside b.length) ∧ (d.aborted = false → payload) := by
  constructor
  · rintro ⟨aborted, hc, hrest⟩
    obtain ⟨rfl, hin⟩ := (auxiliary_inside_iff h hd aborted).mpr hc
    exact ⟨hin, hrest⟩
  · rintro ⟨hin, hrest⟩
    exact ⟨d.aborted, (auxiliary_inside_iff h hd d.aborted).mp ⟨rfl, hin⟩, hrest⟩

omit h in
/-- The three fields that are read of a complete payload header. -/
theorem fields_inside_iff (hhead : 16 ≤ b.length) (auxReads reads : List Window) :
    (∀ w ∈ [(⟨0, 4⟩ : Window), ⟨4, 4⟩, ⟨8, 8⟩] ++ auxReads.map (Window.shift 16) ++ reads,
        w.Inside b.length) ↔
      (∀ w ∈ auxReads, (w.shift 16).Inside b.length) ∧ ∀ w ∈ reads, w.Inside b.length := by
  have hfields : ∀ w ∈ [(⟨0, 4⟩ : Window), ⟨4, 4⟩, ⟨8, 8⟩], w.Inside b.length := by
    simp only [List.mem_cons, List.not_mem_nil, or_false, forall_eq_or_imp, forall_eq,
      Window.inside_iff]
    omega
  simp only [List.mem_append, or_imp, forall_and, List.mem_map, forall_exists_index, and_imp,
    forall_apply_eq_imp_iff₂]
  exact ⟨fun hin => ⟨hin.1.2, hin.2⟩, fun hin => ⟨⟨hfields, hin.1⟩, hin.2⟩⟩

/-- The payload is read as one window, if there is one. -/
theorem payload_inside_iff (hhead : 16 ≤ b.length) (hpos : auxLen b < totalLen b) :
    (∀ w ∈ [(⟨kDTXMessagePayloadHeaderSize + (DTXMessage.readAuxiliaryLength m).toNat,
        (DTXMessage.readTotalLength m - (DTXMessage.readAuxiliaryLength m).toUInt64).toNat⟩ : Window)],
        w.Inside b.length) ↔ 16 + totalLen b ≤ b.length := by
  simp only [List.mem_singleton, forall_eq, Window.inside_iff, payloadLength_toNat h hhead (Nat.le_of_lt hpos),
    readAuxiliaryLength_toNat h hhead, kDTXMessagePayloadHeaderSize]
  omega

/-- The reads of a message whose payload header is complete. -/
theorem message_inside_iff {KAValue : Type} (unarchive : Bytes → KAValue) (hhead : 16 ≤ b.length)
    (hle : auxLen b ≤ totalLen b) (size : Nat) :
    (∀ w ∈ (DTXMessage.deserialize unarchive assertsEnabled m size).reads, w.Inside b.length) ↔
      ∃ aborted, AuxiliaryComplete assertsEnabled b aborted ∧
        (aborted = false → auxLen b < totalLen b → 16 + totalLen b ≤ b.length) := by
  generalize hd : DTXPrimitiveArray.deserialize assertsEnabled (m.after 16) (auxLen b) = d
  have haux := (deserializeAuxiliary_eq h hhead).trans hd
  have hpayload := payloadLength_toNat h hhead hle
  rw [parts_iff h hd]
  have hnil := fields_inside_iff hhead d.reads []
  simp only [List.append_nil, List.not_mem_nil, false_implies, implies_true, and_true] at hnil
  simp only [DTXMessage.deserialize, haux]
  by_cases haborted : d.aborted = true
  · -- an assertion failed: the payload is not read
    simp only [haborted, if_true, Bool.true_eq_false, false_implies, and_true]
    exact hnil
  · have hfalse : d.aborted = false := by simpa using haborted
    simp only [hfalse, Bool.false_eq_true, if_false, true_implies]
    by_cases hpos : auxLen b < totalLen b
    · have hpos64 : 0 < DTXMessage.readTotalLength m - (DTXMessage.readAuxiliaryLength m).toUInt64 := by
        rw [UInt64.lt_iff_toNat_lt, hpayload]
        exact Nat.sub_pos_of_lt hpos
      simp only [if_pos hpos64, hpos, true_implies]
      exact (fields_inside_iff hhead _ _).trans (and_congr_right fun _ => payload_inside_iff h hhead hpos)
    · -- there is no payload
      have hzero : ¬ 0 < DTXMessage.readTotalLength m - (DTXMessage.readAuxiliaryLength m).toUInt64 := by
        rw [UInt64.lt_iff_toNat_lt, hpayload]
        exact not_lt.mpr (Nat.le_of_eq (Nat.sub_eq_zero_of_le (not_lt.mp hpos)))
      simp only [if_neg hzero, hpos, false_implies, and_true]
      exact hnil

end Message

/-- The first three fields are read from every message. -/
theorem header_of_inside {KAValue : Type} {unarchive : Bytes → KAValue} {assertsEnabled : Bool}
    {m : Memory} {size n : Nat}
    (hin : ∀ w ∈ (DTXMessage.deserialize unarchive assertsEnabled m size).reads, w.Inside n) :
    16 ≤ n := by
  have hmem : (⟨8, 8⟩ : Window) ∈ (DTXMessage.deserialize unarchive assertsEnabled m size).reads := by
    simp only [DTXMessage.deserialize]
    split_ifs <;> simp
  have hwindow : 8 = 0 ∨ 8 + 8 ≤ n := Window.inside_iff.mp (hin _ hmem)
  omega

/-- The payload length does not wrap exactly when the auxiliary area is no longer than the whole. -/
theorem payloadLength_iff {KAValue : Type} (unarchive : Bytes → KAValue) (assertsEnabled : Bool)
    {m : Memory} {b : Bytes} (h : m.Shows b) (hhead : 16 ≤ b.length) (size : Nat) :
    (DTXMessage.deserialize unarchive assertsEnabled m size).payloadLength.toNat +
        (DTXMessage.readAuxiliaryLength m).toNat = (DTXMessage.readTotalLength m).toNat ↔
      auxLen b ≤ totalLen b := by
  have hlength : (DTXMessage.deserialize unarchive assertsEnabled m size).payloadLength =
      DTXMessage.readTotalLength m - (DTXMessage.readAuxiliaryLength m).toUInt64 := by
    simp only [DTXMessage.deserialize]
    split_ifs <;> rfl
  rw [hlength, readAuxiliaryLength_toNat h hhead, readTotalLength_toNat h hhead]
  constructor
  · intro hsum
    omega
  · intro hle
    rw [payloadLength_toNat h hhead hle, Nat.sub_add_cancel hle]

/-- **Decoding stays inside the message exactly when its lengths are consistent.** -/
theorem decodesInside_iff {KAValue : Type} (unarchive : Bytes → KAValue) (assertsEnabled : Bool)
    (b : Bytes) : DecodesInside unarchive assertsEnabled b ↔ WellNested assertsEnabled b := by
  constructor
  · intro hall
    have hshows := Memory.shows_ofBytes b
    obtain ⟨hin, hlength⟩ := hall _ hshows
    have hhead := header_of_inside hin
    have hle := (payloadLength_iff unarchive assertsEnabled hshows hhead b.length).mp hlength
    exact ⟨hhead, hle, (message_inside_iff hshows unarchive hhead hle b.length).mp hin⟩
  · intro hnested m hshows
    refine ⟨?_, ?_⟩
    · exact (message_inside_iff hshows unarchive hnested.header hnested.auxiliary_le b.length).mpr
        hnested.parts
    · exact (payloadLength_iff unarchive assertsEnabled hshows hnested.header b.length).mpr
        hnested.auxiliary_le

/-- A fragment of length 0 makes the parser decode the empty message: sixteen bytes are read of it. -/
theorem not_decodesInside_empty : ¬ DecodesInside (fun _ => ()) true [] := by
  intro hall
  obtain ⟨hin, -⟩ := hall (Memory.ofBytes []) (Memory.shows_ofBytes [])
  have h16 := header_of_inside hin
  exact absurd h16 (by decide)

end IDevice
