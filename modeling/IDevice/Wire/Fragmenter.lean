import Mathlib.Tactic.Ring
import IDevice.Wire.Transmitter

/-!
# `Wire.Fragmenter` — the positions of the fragmenting loop

How far the loop of the serializer lambda has come does not depend on what the transmitter does with the
fragments, as long as it accepts them. `Fragmenter.At D L n pos` says that `n` pieces of a message of
length `L` are sent, each of length `D` but for the last, and `pos` bytes are taken over.

One iteration copies a chunk (`copied`). Either the buffer stays open (`At.copied_open`), or the next
piece is due and ends exactly where the chunk ends (`At.copied_due`). Which writes make a call at all does
not depend on the answers either (`calls_quiet_or_called`).
-/

namespace IDevice

/-- Where the `j`-th piece of a message of length `L` ends. -/
def pieceEnd (D L j : Nat) : Nat := min (j * D) L

/-! ## The number of fragments -/

/-- The length of the pieces, for a suggested size that leaves room for a payload. -/
theorem fragmentLength_toNat {suggestedFragmentSize : UInt32} (h33 : 33 ≤ suggestedFragmentSize.toNat) :
    (suggestedFragmentSize - kDTXMessageHeaderSize).toNat = suggestedFragmentSize.toNat - 32 :=
  UInt32.toNat_sub_of_le _ _ (UInt32.le_iff_toNat_le.mpr (le_trans (by decide) h33))

/-- More than one fragment is only sent for a message that is longer than one. -/
theorem lt_of_fragmentsForLength_ne_one {suggestedFragmentSize : UInt32} {length : Nat}
    (hpos : 0 < length) (h : fragmentsForLength suggestedFragmentSize length ≠ 1) :
    0 < (suggestedFragmentSize - kDTXMessageHeaderSize).toNat ∧
      (suggestedFragmentSize - kDTXMessageHeaderSize).toNat < length := by
  unfold fragmentsForLength at h
  by_cases hguard : kDTXMessageHeaderSize + 1 ≤ suggestedFragmentSize
  · rw [if_pos hguard] at h
    refine ⟨?_, ?_⟩
    · have h33 : 33 ≤ suggestedFragmentSize.toNat := UInt32.le_iff_toNat_le.mp hguard
      rw [fragmentLength_toNat h33]
      omega
    · by_contra hle
      simp only [Binary32.ceil_round_div_of_le hpos (not_lt.mp hle)] at h
      exact h rfl
  · rw [if_neg hguard] at h
    exact absurd rfl h

/-- Only a message below `2 ^ 24` is sent in one fragment, for a suggested size that is not too large. -/
theorem lt_of_fragmentsForLength_one {suggestedFragmentSize : UInt32} {length : Nat}
    (h33 : 33 ≤ suggestedFragmentSize.toNat) (hsmall : suggestedFragmentSize.toNat ≤ 2 ^ 23)
    (h : fragmentsForLength suggestedFragmentSize length = 1) : length < 2 ^ 24 := by
  by_contra hlong
  have hguard : kDTXMessageHeaderSize + 1 ≤ suggestedFragmentSize := UInt32.le_iff_toNat_le.mpr h33
  unfold fragmentsForLength at h
  rw [if_pos hguard] at h
  have hone := congrArg UInt32.toNat h
  rw [UInt32.toNat_ofNat', fragmentLength_toNat h33] at hone
  exact Binary32.ceil_div_mod_ne_one (by omega) (not_lt.mp hlong) (by omega) hone

/-- The number of pieces of a message that is longer than one is the exact ceiling, and at least 2. -/
theorem fragmentsForLength_of_long {suggestedFragmentSize : UInt32} {length : Nat}
    (h33 : 33 ≤ suggestedFragmentSize.toNat) (hlt : length < 2 ^ 24)
    (hlong : suggestedFragmentSize.toNat - 32 < length) :
    ∃ k, 2 ≤ k ∧ length ≤ k * (suggestedFragmentSize.toNat - 32) ∧
      (k - 1) * (suggestedFragmentSize.toNat - 32) < length ∧
      fragmentsForLength suggestedFragmentSize length = UInt32.ofNat k ∧ (UInt32.ofNat k).toNat = k := by
  generalize hD : suggestedFragmentSize.toNat - 32 = D at *
  obtain ⟨k, hk2, hle, hcut⟩ : ∃ k, 2 ≤ k ∧ length ≤ k * D ∧ (k - 1) * D < length := by
    have hfloor := Nat.div_mul_le_self (length + D - 1) D
    have hceil := Nat.lt_div_mul_add (a := length + D - 1) (b := D) (by omega)
    generalize (length + D - 1) / D = k at hfloor hceil
    refine ⟨k, ?_, by omega, ?_⟩
    · by_contra hk
      have := Nat.mul_le_mul_right D (show k ≤ 1 by omega)
      omega
    · rw [Nat.sub_mul]
      omega
  refine ⟨k, hk2, hle, hcut, fragmentsForLength_eq h33 hlt (by rwa [hD]) (by rwa [hD]), ?_⟩
  apply UInt32.toNat_ofNat_of_lt'
  have hmul := Nat.mul_le_mul_left (k - 1) (show 1 ≤ D by omega)
  have hsize : UInt32.size = 2 ^ 32 := rfl
  omega

namespace Fragmenter

variable {σ : Type}

/-- The header of the fragment that is due. -/
def fragmentHeader (f : Fragmenter σ) : DTXMessageHeader :=
  { f.header with fragmentIndex := f.header.fragmentIndex + 1,
                  length := UInt32.ofNat f.thisFragmentLength }

/-- The locals when the transmitter has refused the header. -/
def refused (f : Fragmenter σ) (sink : σ) : Fragmenter σ :=
  { f with header := f.fragmentHeader, sink := sink }

/-- The locals when the fragment has been handed over. -/
def emptied (D L : Nat) (f : Fragmenter σ) (sink : σ) : Fragmenter σ :=
  { header := f.fragmentHeader, buffer := [], serializedOffset := f.serializedOffset + f.buffer.length,
    thisFragmentLength := min D (L - (f.serializedOffset + f.buffer.length)), sink := sink }

/-- The locals after a chunk of the write is copied. -/
def copied (bytes : Bytes) (offset : Nat) (f : Fragmenter σ) : Fragmenter σ :=
  { f with buffer := f.buffer ++ (bytes.drop offset).take (f.consumeSize bytes.length) }

/-! ## The macro -/

theorem transmitFragmentIfBufferFull_open (transmitter : Transmitter σ) (D L : Nat) {f : Fragmenter σ}
    (h : f.buffer.length < f.thisFragmentLength) :
    f.transmitFragmentIfBufferFull transmitter D L = (true, f) := by
  unfold transmitFragmentIfBufferFull
  rw [if_neg (not_le.mpr h)]

theorem transmitFragmentIfBufferFull_due (transmitter : Transmitter σ) (D L : Nat) {f : Fragmenter σ}
    (h : f.thisFragmentLength ≤ f.buffer.length) :
    f.transmitFragmentIfBufferFull transmitter D L =
      if (transmitter f.sink f.fragmentHeader.encode).1 then
        ((transmitter (transmitter f.sink f.fragmentHeader.encode).2 f.buffer).1,
          f.emptied D L (transmitter (transmitter f.sink f.fragmentHeader.encode).2 f.buffer).2)
      else (false, f.refused (transmitter f.sink f.fragmentHeader.encode).2) := by
  unfold transmitFragmentIfBufferFull
  rw [if_pos h]
  cases hret : (transmitter f.sink f.fragmentHeader.encode).1 <;>
    simp only [fragmentHeader] at hret <;> simp [hret, refused, emptied, fragmentHeader]

theorem copied_length {f : Fragmenter σ} {bytes : Bytes} {offset : Nat}
    (hin : offset + f.consumeSize bytes.length ≤ bytes.length) :
    (f.copied bytes offset).buffer.length = f.buffer.length + f.consumeSize bytes.length := by
  unfold copied
  rw [List.length_append, List.length_take, List.length_drop]
  omega

/-- One iteration of the loop that does not leave the write. -/
theorem copyLoop_step (transmitter : Transmitter σ) (D L : Nat) {bytes : Bytes} {fuel offset : Nat}
    {f : Fragmenter σ} (hoff : offset < bytes.length)
    (hin : offset + f.consumeSize bytes.length ≤ bytes.length) :
    f.copyLoop transmitter D L bytes (fuel + 1) offset =
      if ((f.copied bytes offset).transmitFragmentIfBufferFull transmitter D L).1 then
        ((f.copied bytes offset).transmitFragmentIfBufferFull transmitter D L).2.copyLoop transmitter D L
          bytes fuel (offset + f.consumeSize bytes.length)
      else
        .ok (false, ((f.copied bytes offset).transmitFragmentIfBufferFull transmitter D L).2) := by
  rw [copyLoop, if_pos hoff, if_neg (not_lt.mpr hin)]
  have hcopied : ({ f with buffer := f.buffer ++ (bytes.drop offset).take (f.consumeSize bytes.length) }
      : Fragmenter σ) = f.copied bytes offset := rfl
  simp only [hcopied]
  cases ((f.copied bytes offset).transmitFragmentIfBufferFull transmitter D L).1 <;> simp

/-- **What a run of the loop is**: it is at the end of the write, or a chunk inside the write is copied
    and the macro fails, or it succeeds and the loop goes on. -/
theorem copyLoop_cases {transmitter : Transmitter σ} {D L : Nat} {bytes : Bytes} {fuel offset : Nat}
    {f f' : Fragmenter σ} {ret : Bool}
    (h : f.copyLoop transmitter D L bytes fuel offset = .ok (ret, f')) :
    (bytes.length ≤ offset ∧ ret = true ∧ f' = f) ∨
    (offset < bytes.length ∧ offset + f.consumeSize bytes.length ≤ bytes.length ∧
      ((f.copied bytes offset).transmitFragmentIfBufferFull transmitter D L = (false, f') ∨
        ∃ fuel' f₁, fuel = fuel' + 1 ∧
          (f.copied bytes offset).transmitFragmentIfBufferFull transmitter D L = (true, f₁) ∧
          f₁.copyLoop transmitter D L bytes fuel' (offset + f.consumeSize bytes.length) =
            .ok (ret, f'))) := by
  cases fuel with
  | zero => cases h
  | succ fuel =>
      by_cases hoff : offset < bytes.length
      · by_cases hin : offset + f.consumeSize bytes.length ≤ bytes.length
        · rw [copyLoop_step transmitter D L hoff hin] at h
          refine .inr ⟨hoff, hin, ?_⟩
          cases hchecked : (f.copied bytes offset).transmitFragmentIfBufferFull transmitter D L with
          | mk accepted f₁ =>
              rw [hchecked] at h
              cases accepted with
              | false =>
                  obtain rfl : f₁ = f' := by simpa using (Prod.mk.inj (Except.ok.inj h)).2
                  exact .inl rfl
              | true => exact .inr ⟨fuel, f₁, rfl, rfl, h⟩
        · rw [copyLoop, if_pos hoff, if_pos (not_le.mp hin)] at h
          cases h
      · rw [copyLoop, if_neg hoff] at h
        cases h
        exact .inl ⟨not_lt.mp hoff, rfl, rfl⟩

/-- What a call of the serializer lambda is: the macro, and the loop if it succeeds. -/
theorem serializer_cases {transmitter : Transmitter σ} {D L fuel : Nat} {bytes : Bytes}
    {f f' : Fragmenter σ} {ret : Bool}
    (h : serializer transmitter D L fuel f bytes = .ok (ret, f')) :
    f.transmitFragmentIfBufferFull transmitter D L = (false, f') ∨
      ∃ f₁, f.transmitFragmentIfBufferFull transmitter D L = (true, f₁) ∧
        f₁.copyLoop transmitter D L bytes fuel 0 = .ok (ret, f') := by
  unfold serializer at h
  cases hchecked : f.transmitFragmentIfBufferFull transmitter D L with
  | mk accepted f₁ =>
      rw [hchecked] at h
      cases accepted with
      | false =>
          obtain rfl : f₁ = f' := by simpa using (Prod.mk.inj (Except.ok.inj h)).2
          exact .inl rfl
      | true => exact .inr ⟨f₁, rfl, h⟩

/-! ## Writes that make no call

`Called` is a property of the transmitter's state that every call establishes for a header, and that every
call keeps. -/

section Called
variable {transmitter : Transmitter σ} {Called : σ → Prop} {D L : Nat} {f f' : Fragmenter σ}
  {fuel offset : Nat} {bytes : Bytes} {ret : Bool}

theorem macro_keeps (hkeep : ∀ s bytes, Called s → Called (transmitter s bytes).2) (h : Called f.sink) :
    Called (f.transmitFragmentIfBufferFull transmitter D L).2.sink := by
  by_cases hopen : f.buffer.length < f.thisFragmentLength
  · rwa [transmitFragmentIfBufferFull_open transmitter D L hopen]
  · rw [transmitFragmentIfBufferFull_due transmitter D L (not_lt.mp hopen)]
    split
    · exact hkeep _ _ (hkeep _ _ h)
    · exact hkeep _ _ h

theorem copyLoop_keeps (hkeep : ∀ s bytes, Called s → Called (transmitter s bytes).2) (h : Called f.sink)
    (hrun : f.copyLoop transmitter D L bytes fuel offset = .ok (ret, f')) : Called f'.sink := by
  induction fuel generalizing offset f with
  | zero => cases hrun
  | succ fuel ih =>
      rcases copyLoop_cases hrun with ⟨-, -, rfl⟩ | ⟨-, -, hnext⟩
      · exact h
      · have hchecked := macro_keeps (D := D) (L := L) (f := f.copied bytes offset) hkeep h
        rcases hnext with hfalse | ⟨fuel', f₁, hfuel, htrue, hloop⟩
        · rwa [hfalse] at hchecked
        · rw [htrue] at hchecked
          cases hfuel
          exact ih hchecked hloop

theorem serializer_keeps (hkeep : ∀ s bytes, Called s → Called (transmitter s bytes).2) (h : Called f.sink)
    (hrun : serializer transmitter D L fuel f bytes = .ok (ret, f')) : Called f'.sink := by
  have hchecked := macro_keeps (D := D) (L := L) hkeep h
  rcases serializer_cases hrun with hfalse | ⟨f₁, htrue, hloop⟩
  · rwa [hfalse] at hchecked
  · rw [htrue] at hchecked
    exact copyLoop_keeps hkeep hchecked hloop

/-- The macro on a full buffer makes a call. -/
theorem macro_called (hfirst : ∀ header : DTXMessageHeader, Called (transmitter f.sink header.encode).2)
    (hkeep : ∀ s bytes, Called s → Called (transmitter s bytes).2)
    (hdue : f.thisFragmentLength ≤ f.buffer.length) :
    Called (f.transmitFragmentIfBufferFull transmitter D L).2.sink := by
  rw [transmitFragmentIfBufferFull_due transmitter D L hdue]
  split
  · exact hkeep _ _ (hfirst f.fragmentHeader)
  · exact hfirst f.fragmentHeader

/-- A write that leaves room in the buffer makes no call. -/
theorem serializer_quiet (hroom : f.buffer.length + bytes.length < f.thisFragmentLength)
    (hrun : serializer transmitter D L fuel f bytes = .ok (ret, f')) :
    f'.sink = f.sink ∧ f'.thisFragmentLength = f.thisFragmentLength ∧
      f'.buffer.length = f.buffer.length + bytes.length := by
  have hopen := transmitFragmentIfBufferFull_open transmitter D L
    (show f.buffer.length < f.thisFragmentLength by omega)
  have hconsume : f.consumeSize bytes.length = bytes.length := by
    unfold consumeSize
    omega
  -- the buffer is not full before the chunk, and not behind it
  rcases serializer_cases hrun with hfalse | ⟨f₁, htrue, hloop⟩
  · rw [hopen] at hfalse
    cases hfalse
  · rw [hopen] at htrue
    cases htrue
    rcases copyLoop_cases hloop with ⟨hempty, -, rfl⟩ | ⟨-, hin, hnext⟩
    · exact ⟨rfl, rfl, by omega⟩
    · have hlength := copied_length hin
      have hstill := transmitFragmentIfBufferFull_open transmitter D L
        (f := f.copied bytes 0) (show (f.copied bytes 0).buffer.length < f.thisFragmentLength by omega)
      rw [hstill] at hnext
      rcases hnext with hfalse | ⟨fuel', f₂, -, hchecked, hrest⟩
      · cases hfalse
      · cases hchecked
        rcases copyLoop_cases hrest with ⟨-, -, rfl⟩ | ⟨hlt, -, -⟩
        · exact ⟨rfl, rfl, by omega⟩
        · omega

/-- A write that finds the buffer full, or fills it, makes a call. -/
theorem serializer_called (hfirst : ∀ header : DTXMessageHeader, Called (transmitter f.sink header.encode).2)
    (hkeep : ∀ s bytes, Called s → Called (transmitter s bytes).2)
    (hfull : f.thisFragmentLength ≤ f.buffer.length + bytes.length)
    (hrun : serializer transmitter D L fuel f bytes = .ok (ret, f')) : Called f'.sink := by
  -- the buffer is full already, or the first chunk fills it
  by_cases hdue : f.thisFragmentLength ≤ f.buffer.length
  · have hcalled := macro_called (D := D) (L := L) hfirst hkeep hdue
    rcases serializer_cases hrun with hchecked | ⟨f₁, hchecked, hloop⟩
    · rwa [hchecked] at hcalled
    · rw [hchecked] at hcalled
      exact copyLoop_keeps hkeep hcalled hloop
  · have hopen := transmitFragmentIfBufferFull_open transmitter D L (not_le.mp hdue)
    have hconsume : f.consumeSize bytes.length = f.thisFragmentLength - f.buffer.length := by
      unfold consumeSize
      omega
    rcases serializer_cases hrun with hfalse | ⟨f₁, htrue, hloop⟩
    · rw [hopen] at hfalse
      cases hfalse
    · rw [hopen] at htrue
      cases htrue
      rcases copyLoop_cases hloop with ⟨hempty, -, -⟩ | ⟨-, hin, hnext⟩
      · omega
      · have hlength := copied_length hin
        have hcalled := macro_called (D := D) (L := L) (f := f.copied bytes 0) hfirst hkeep
          (show f.thisFragmentLength ≤ (f.copied bytes 0).buffer.length by omega)
        rcases hnext with hchecked | ⟨fuel', f₂, -, hchecked, hrest⟩
        · rwa [hchecked] at hcalled
        · rw [hchecked] at hcalled
          exact copyLoop_keeps hkeep hcalled hrest

/-- **No more calls.** Writes that leave room in the buffer, or of which there are none, make no call, and
    all others do. -/
theorem calls_quiet_or_called (Called : σ → Prop) {ws : List Bytes}
    (hfirst : ∀ header : DTXMessageHeader, Called (transmitter f.sink header.encode).2)
    (hkeep : ∀ s bytes, Called s → Called (transmitter s bytes).2)
    (hrun : Callback.calls (serializer transmitter D L fuel) f ws = .ok f') :
    (ws = [] ∨ f.buffer.length + ws.flatten.length < f.thisFragmentLength) ∧ f'.sink = f.sink ∨
      ¬ (ws = [] ∨ f.buffer.length + ws.flatten.length < f.thisFragmentLength) ∧ Called f'.sink := by
  induction ws generalizing f with
  | nil =>
      cases hrun
      exact .inl ⟨.inl rfl, rfl⟩
  | cons w ws ih =>
      obtain ⟨f₁, hcall, hrest⟩ := Callback.bind_eq_ok.mp hrun
      obtain ⟨ret, hser⟩ := Callback.call_eq_ok.mp hcall
      rw [List.flatten_cons, List.length_append]
      by_cases hroom : f.buffer.length + w.length < f.thisFragmentLength
      · -- the write leaves room, so it depends on the ones behind it
        obtain ⟨hsink, hnext, hlength⟩ := serializer_quiet hroom hser
        have hcases := ih (by rwa [hsink]) hrest
        rw [hsink, hnext, hlength] at hcases
        rcases hcases with ⟨hquiet, hsame⟩ | ⟨hloud, hcalled⟩
        · refine .inl ⟨.inr ?_, hsame⟩
          rcases hquiet with rfl | hlt
          · simpa using hroom
          · omega
        · refine .inr ⟨?_, hcalled⟩
          rintro (hnil | hlt)
          · cases hnil
          · exact hloud (.inr (by omega))
      · -- once there is a call, there is no way back
        have hcalled := Callback.calls_invariant (fun g : Fragmenter σ => Called g.sink)
          (serializer_called hfirst hkeep (not_lt.mp hroom) hser) hrest
          fun g bytes ret g' hg hstep => serializer_keeps hkeep hg hstep
        refine .inr ⟨?_, hcalled⟩
        rintro (hnil | hlt)
        · cases hnil
        · omega

end Called

/-! ## The positions -/

/-- `n` pieces are sent and `pos` bytes are taken over; unless the whole message is sent, the buffer has
    room for another byte of the next piece. -/
structure At (D L n pos : Nat) (f : Fragmenter σ) : Prop where
  started : (n - 1) * D < L
  offset : f.serializedOffset = pieceEnd D L n
  next : f.thisFragmentLength = min D (L - f.serializedOffset)
  position : f.serializedOffset + f.buffer.length = pos
  room : f.buffer.length < f.thisFragmentLength ∨ pos = L ∧ f.buffer = []

section At
variable {D L n pos : Nat} {f : Fragmenter σ}

theorem At.init (header : DTXMessageHeader) (sink : σ) (hD : 0 < D) (hlt : D < L) :
    At D L 0 0 (⟨header, [], 0, D, sink⟩ : Fragmenter σ) := by
  refine ⟨by omega, by simp [pieceEnd], ?_, rfl, .inl hD⟩
  show D = min D (L - 0)
  omega

theorem At.le (h : At D L n pos f) : pos ≤ L := by
  have hoffset := h.offset
  have hnext := h.next
  have hposition := h.position
  have hend : pieceEnd D L n ≤ L := Nat.min_le_right _ _
  rcases h.room with hroom | ⟨rfl, -⟩ <;> omega

/-- Before the end the pieces that are sent are full, and the buffer has room. -/
theorem At.before_end (h : At D L n pos f) (hlt : pos < L) :
    f.serializedOffset = n * D ∧ f.buffer.length < f.thisFragmentLength := by
  have hoffset : f.serializedOffset = min (n * D) L := h.offset
  have hposition := h.position
  refine ⟨by omega, ?_⟩
  rcases h.room with hroom | ⟨rfl, -⟩
  · exact hroom
  · exact absurd hlt (lt_irrefl _)

/-- Where the buffer is empty the last piece ends. -/
theorem At.position_of_empty (h : At D L n pos f) (hempty : f.buffer = []) : pos = pieceEnd D L n := by
  have hoffset := h.offset
  have hposition := h.position
  rw [hempty, List.length_nil] at hposition
  omega

/-- The pieces that have ended are among those sent. -/
theorem At.le_of_pieceEnd_le (h : At D L n pos f) {j : Nat} (hj : (j - 1) * D < L)
    (hend : pieceEnd D L j ≤ pos) : j ≤ n := by
  have hpiece : pieceEnd D L j = min (j * D) L := rfl
  have hsent : f.serializedOffset = min (n * D) L := h.offset
  have hnext := h.next
  have hposition := h.position
  by_contra hlt
  have hmul : n * D ≤ (j - 1) * D := Nat.mul_le_mul_right D (by omega)
  have hlast : (j - 1) * D + D = j * D := by
    rw [← Nat.succ_mul]
    congr 1
    omega
  rcases h.room with hroom | ⟨rfl, hempty⟩
  · omega
  · rw [hempty, List.length_nil] at hposition
    omega

theorem At.consumeSize (h : At D L n pos f) (hlt : pos < L) (size : Nat) :
    f.consumeSize size = min size (f.thisFragmentLength - f.buffer.length) := by
  have hroom := (h.before_end hlt).2
  unfold Fragmenter.consumeSize
  omega

/-- **A chunk that does not fill the buffer.** -/
theorem At.copied_open (h : At D L n pos f) {bytes : Bytes} {offset : Nat}
    (hin : offset + f.consumeSize bytes.length ≤ bytes.length)
    (hopen : (f.copied bytes offset).buffer.length < f.thisFragmentLength) :
    At D L n (pos + f.consumeSize bytes.length) (f.copied bytes offset) := by
  refine ⟨h.started, h.offset, h.next, ?_, .inl hopen⟩
  have hlength := copied_length hin
  have hposition := h.position
  show f.serializedOffset + (f.copied bytes offset).buffer.length = _
  omega

/-- **A chunk that fills the buffer** ends where the next piece ends. -/
theorem At.copied_due (h : At D L n pos f) (hlt : pos < L) {bytes : Bytes} {offset : Nat}
    (hin : offset + f.consumeSize bytes.length ≤ bytes.length)
    (hdue : f.thisFragmentLength ≤ (f.copied bytes offset).buffer.length) :
    pos + f.consumeSize bytes.length = pieceEnd D L (n + 1) ∧ n * D < L ∧
      ∀ sink, At D L (n + 1) (pos + f.consumeSize bytes.length)
        ((f.copied bytes offset).emptied D L sink) := by
  obtain ⟨hoffset, hroom⟩ := h.before_end hlt
  have hlength := copied_length hin
  have hconsume := h.consumeSize hlt bytes.length
  have hnext := h.next
  have hposition := h.position
  have hmul : (n + 1) * D = n * D + D := by ring
  have hend : pieceEnd D L (n + 1) = min (n * D + D) L := by rw [pieceEnd, hmul]
  -- the buffer is filled to the end of the fragment, and no further
  have hpos : pos + f.consumeSize bytes.length = pieceEnd D L (n + 1) := by omega
  refine ⟨hpos, by omega, fun sink => ⟨?_, ?_, rfl, ?_, ?_⟩⟩
  · rw [Nat.add_sub_cancel]
    omega
  · show f.serializedOffset + (f.copied bytes offset).buffer.length = _
    omega
  · show f.serializedOffset + (f.copied bytes offset).buffer.length + 0 = _
    omega
  · -- there is room again unless this was the last piece
    by_cases hlast : pos + f.consumeSize bytes.length = L
    · exact .inr ⟨hlast, rfl⟩
    · refine .inl ?_
      show 0 < min D (L - (f.serializedOffset + (f.copied bytes offset).buffer.length))
      omega

end At
end Fragmenter
end IDevice
