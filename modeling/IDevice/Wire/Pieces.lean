import IDevice.Message.Lengths
import IDevice.Wire.RoundTrip

/-!
# `Wire.Pieces` — when is a message cut exactly into its pieces?

The loop of the serializer lambda computes the size of a chunk from the size of the whole write and not
from what is left of it. The first chunk of a write is right, and so is every chunk that is a whole
piece; what is wrong is the last chunk of a write that has crossed the end of a piece and does not reach
the next one. `WriteFits` is the condition under which a write has no such chunk.

`CutUpTo` is the invariant: the pieces that are sent and the buffer are the bytes taken over so far. The
loop keeps it and ends, when the writes fit (`CutUpTo.calls_of_fits`), and otherwise copies from behind a
write (`CutUpTo.fits_of_calls`).
-/

namespace IDevice

/-- A write of `s` bytes at position `p` of the message stays inside the piece it starts in, or ends
    where a piece ends. -/
def WriteFits (D L p s : Nat) : Prop := p % D + s ≤ D ∨ D ∣ p + s ∨ p + s = L

instance (D L p s : Nat) : Decidable (WriteFits D L p s) := by
  unfold WriteFits
  infer_instance

/-- All writes of the message fit, the first of them at position `p`. -/
def WritesFit (D L p : Nat) (ws : List Bytes) : Prop :=
  ∀ before w after, ws = before ++ w :: after → WriteFits D L (p + before.flatten.length) w.length

theorem writesFit_cons {D L p : Nat} {w : Bytes} {ws : List Bytes} :
    WritesFit D L p (w :: ws) ↔ WriteFits D L p w.length ∧ WritesFit D L (p + w.length) ws := by
  unfold WritesFit
  constructor
  · intro h
    refine ⟨h [] w ws rfl, fun before v after heq => ?_⟩
    have hfits := h (w :: before) v after (by rw [heq, List.cons_append])
    rwa [List.flatten_cons, List.length_append, ← Nat.add_assoc] at hfits
  · rintro ⟨hw, hws⟩ before v after heq
    cases before with
    | nil =>
        obtain ⟨rfl, -⟩ := List.cons.inj heq
        exact hw
    | cons u before =>
        obtain ⟨rfl, htail⟩ := List.cons.inj heq
        rw [List.flatten_cons, List.length_append, ← Nat.add_assoc]
        exact hws before v after htail

/-- The message `b` is cut into `pieces` of length `D`, the last one perhaps shorter, and the headers of
    their fragments say their numbers and lengths. -/
structure CutInto (header : DTXMessageHeader) (D : Nat) (b : Bytes) (pieces : List Bytes) : Prop where
  content : pieces.flatten = b
  count : pieces.length = (b.length + D - 1) / D
  full : ∀ piece ∈ pieces.dropLast, piece.length = D
  nonempty : ∀ piece ∈ pieces, piece ≠ []
  headers : ∀ i piece, pieces[i]? = some piece →
    (pieceHeader header (i + 1) piece.length).fragmentIndex.toNat = i + 1 ∧
      (pieceHeader header (i + 1) piece.length).length.toNat = piece.length

/-- `TransmitMessage` ends without copying from behind a write, and sends a header with index 0 and the
    length of the message, and then the fragments of the pieces it is cut into. -/
def FragmentsExactly {KAValue : Type} (archivedData : KAValue → Bytes) (suggestedFragmentSize : UInt32)
    (message : DTXMessage KAValue) (routingInfo : DTXMessageRoutingInfo) : Prop :=
  ∃ fuel ret message' sent header pieces,
    transmitMessage archivedData fuel suggestedFragmentSize message routingInfo recordBytes [] =
      .ok (ret, message', sent) ∧
    sent = header.encode ++ pieceStream header 1 pieces ∧ header.fragmentIndex = 0 ∧
    header.length.toNat = (message.serializedLength archivedData).1 ∧
    CutInto header (suggestedFragmentSize.toNat - 32) (message.serialized archivedData) pieces

/-! ## The invariant -/

/-- The first bytes of the message, `done`, are in the pieces that are sent and in the buffer. -/
structure CutUpTo (header : DTXMessageHeader) (D L : Nat) (done : Bytes) (f : Fragmenter Bytes)
    (pieces : List Bytes) : Prop where
  cut : Cut header D L f pieces
  positions : f.At D L pieces.length done.length
  content : pieces.flatten ++ f.buffer = done

section Loop
variable {header : DTXMessageHeader} {D L : Nat} {done bytes : Bytes} {f : Fragmenter Bytes}
  {pieces : List Bytes} {offset : Nat}

theorem take_chunk (done bytes : Bytes) (offset n : Nat) :
    done ++ bytes.take (offset + n) = done ++ bytes.take offset ++ (bytes.drop offset).take n := by
  rw [List.take_add, List.append_assoc]

theorem length_done (done : Bytes) (hle : offset ≤ bytes.length) :
    (done ++ bytes.take offset).length = done.length + offset := by
  rw [List.length_append, List.length_take, Nat.min_eq_left hle]

/-- A chunk that leaves the piece open. -/
theorem CutUpTo.copied_open (h : CutUpTo header D L (done ++ bytes.take offset) f pieces)
    (hle : offset ≤ bytes.length) (hin : offset + f.consumeSize bytes.length ≤ bytes.length)
    (hopen : (f.copied bytes offset).buffer.length < f.thisFragmentLength) :
    CutUpTo header D L (done ++ bytes.take (offset + f.consumeSize bytes.length))
      (f.copied bytes offset) pieces := by
  have hpositions := h.positions.copied_open hin hopen
  refine ⟨h.cut.copied bytes offset, ?_, ?_⟩
  · rw [length_done done hle, Nat.add_assoc] at hpositions
    rw [length_done done hin]
    exact hpositions
  · rw [take_chunk, ← h.content, List.append_assoc]
    rfl

/-- A chunk that completes a piece. -/
theorem CutUpTo.copied_due (h : CutUpTo header D L (done ++ bytes.take offset) f pieces)
    (hlt : offset < bytes.length) (hend : done.length + bytes.length ≤ L)
    (hin : offset + f.consumeSize bytes.length ≤ bytes.length)
    (hdue : f.thisFragmentLength ≤ (f.copied bytes offset).buffer.length) :
    ∃ f₁ pieces₁, (f.copied bytes offset).transmitFragmentIfBufferFull recordBytes D L = (true, f₁) ∧
      f₁.buffer = [] ∧
      CutUpTo header D L (done ++ bytes.take (offset + f.consumeSize bytes.length)) f₁ pieces₁ := by
  have hdone := length_done done hlt.le
  obtain ⟨-, -, hempty⟩ := h.positions.copied_due (by omega) hin hdue
  refine ⟨_, _, recordBytes_due hdue, rfl, (h.cut.copied bytes offset).emptied hdue, ?_, ?_⟩
  · have hpositions := hempty ((f.copied bytes offset).sink ++
      (f.copied bytes offset).fragmentHeader.encode ++ (f.copied bytes offset).buffer)
    rw [hdone, Nat.add_assoc] at hpositions
    rw [length_done done hin, List.length_append, List.length_singleton]
    exact hpositions
  · rw [take_chunk, ← h.content, List.flatten_append, List.flatten_singleton]
    show pieces.flatten ++ (f.buffer ++ (bytes.drop offset).take (f.consumeSize bytes.length)) ++ [] = _
    rw [List.append_nil, List.append_assoc]

/-! ## One write -/

/-- What is copied in the middle of a write, where a piece starts: a whole piece. -/
theorem CutUpTo.consumeSize_aligned (h : CutUpTo header D L (done ++ bytes.take offset) f pieces)
    (hempty : f.buffer = []) (hlt : offset < bytes.length) (hend : done.length + bytes.length ≤ L) :
    f.consumeSize bytes.length = min bytes.length (min D (L - (done.length + offset))) ∧
      (f.thisFragmentLength = min D (L - (done.length + offset))) := by
  have hdone := length_done done hlt.le
  have hposition := h.positions.position
  have hnext := h.positions.next
  have hconsume := h.positions.consumeSize (by omega) bytes.length
  rw [hempty, List.length_nil] at hposition hconsume
  constructor <;> omega

/-- Where a write ends on an empty buffer, it ends with a piece. -/
theorem CutUpTo.aligned_end (h : CutUpTo header D L (done ++ bytes) f pieces) (hempty : f.buffer = []) :
    D ∣ done.length + bytes.length ∨ done.length + bytes.length = L := by
  have hposition := h.positions.position_of_empty hempty
  rw [List.length_append, pieceEnd] at hposition
  rcases Nat.le_total (pieces.length * D) L with hle | hle
  · left
    rw [hposition, Nat.min_eq_left hle]
    exact Nat.dvd_mul_left D _
  · right
    rw [hposition, Nat.min_eq_right hle]

/-- Where a piece starts in the middle of a write, its number of bytes divides the position. -/
theorem CutUpTo.aligned_dvd (h : CutUpTo header D L (done ++ bytes.take offset) f pieces)
    (hempty : f.buffer = []) (hlt : offset < bytes.length) (hend : done.length + bytes.length ≤ L) :
    D ∣ done.length + offset := by
  have hposition := h.positions.position_of_empty hempty
  rw [length_done done hlt.le, pieceEnd] at hposition
  have hmul : done.length + offset = pieces.length * D := by omega
  rw [hmul]
  exact Nat.dvd_mul_left D _

/-- **The rest of a write**, from where a piece starts: it is copied inside the write only when it ends
    with a piece. -/
theorem CutUpTo.fits_of_copyLoop {fuel : Nat} {ret : Bool} {f' : Fragmenter Bytes}
    (h : CutUpTo header D L (done ++ bytes.take offset) f pieces) (hempty : f.buffer = [])
    (hpos : 0 < offset) (hle : offset ≤ bytes.length)
    (hend : done.length + bytes.length ≤ L)
    (hrun : f.copyLoop recordBytes D L bytes fuel offset = .ok (ret, f')) :
    (D ∣ done.length + bytes.length ∨ done.length + bytes.length = L) ∧
      ∃ pieces', CutUpTo header D L (done ++ bytes) f' pieces' := by
  induction fuel generalizing offset f pieces with
  | zero => cases hrun
  | succ fuel ih =>
      rcases Fragmenter.copyLoop_cases hrun with ⟨hstop, -, rfl⟩ | ⟨hlt, hin, hnext⟩
      · rw [List.take_of_length_le hstop] at h
        exact ⟨h.aligned_end hempty, pieces, h⟩
      · -- from the start of a piece a chunk is a whole piece, or the end of the message
        obtain ⟨hconsume, hfragment⟩ := h.consumeSize_aligned hempty hlt hend
        have hlength := Fragmenter.copied_length hin
        rw [hempty, List.length_nil] at hlength
        obtain ⟨f₁, pieces₁, hchecked, hempty₁, hcut⟩ := h.copied_due hlt hend hin (by omega)
        rw [hchecked] at hnext
        rcases hnext with hfalse | ⟨fuel', f₂, hfuel, htrue, hloop⟩
        · cases hfalse
        · cases htrue
          cases hfuel
          exact ih hcut hempty₁ (by omega) hin hloop

/-- The rest of a write that ends with a piece is copied to its end. -/
theorem CutUpTo.copyLoop_of_fits {fuel : Nat}
    (h : CutUpTo header D L (done ++ bytes.take offset) f pieces) (hempty : f.buffer = [])
    (hD : 0 < D) (hle : offset ≤ bytes.length) (hend : done.length + bytes.length ≤ L)
    (hfits : D ∣ done.length + bytes.length ∨ done.length + bytes.length = L)
    (hfuel : bytes.length - offset < fuel) :
    ∃ f' pieces', f.copyLoop recordBytes D L bytes fuel offset = .ok (true, f') ∧
      CutUpTo header D L (done ++ bytes) f' pieces' := by
  induction fuel generalizing offset f pieces with
  | zero => omega
  | succ fuel ih =>
      by_cases hlt : offset < bytes.length
      · obtain ⟨hconsume, hfragment⟩ := h.consumeSize_aligned hempty hlt hend
        -- a whole piece is left of the write
        have hpiece : min D (L - (done.length + offset)) ≤ bytes.length - offset := by
          rcases hfits with hdvd | hlast
          · have hrest := Nat.dvd_sub hdvd (h.aligned_dvd hempty hlt hend)
            rw [Nat.add_sub_add_left] at hrest
            have := Nat.le_of_dvd (by omega) hrest
            omega
          · omega
        have hin : offset + f.consumeSize bytes.length ≤ bytes.length := by omega
        have hlength := Fragmenter.copied_length hin
        rw [hempty, List.length_nil] at hlength
        obtain ⟨f₁, pieces₁, hchecked, hempty₁, hcut⟩ := h.copied_due hlt hend hin (by omega)
        obtain ⟨f', pieces', hloop, hcut'⟩ := ih hcut hempty₁ hin (by omega)
        refine ⟨f', pieces', ?_, hcut'⟩
        rw [Fragmenter.copyLoop_step recordBytes D L hlt hin, hchecked]
        exact hloop
      · rw [List.take_of_length_le (not_lt.mp hlt)] at h
        refine ⟨f, pieces, ?_, h⟩
        rw [Fragmenter.copyLoop, if_neg hlt]

/-- At the start of a write the buffer holds what the position leaves over. -/
theorem CutUpTo.buffer_length (h : CutUpTo header D L done f pieces) (hlt : done.length < L) :
    done.length % D = f.buffer.length := by
  obtain ⟨hoffset, hroom⟩ := h.positions.before_end hlt
  have hposition := h.positions.position
  have hnext := h.positions.next
  rw [← hposition, hoffset, Nat.mul_comm, Nat.mul_add_mod, Nat.mod_eq_of_lt (by omega)]

/-- The first chunk of a write leaves the piece open only when it is the whole write. -/
theorem CutUpTo.copied_whole (h : CutUpTo header D L done f pieces) (hlt : done.length < L)
    (hin : 0 + f.consumeSize bytes.length ≤ bytes.length)
    (hopen : (f.copied bytes 0).buffer.length < f.thisFragmentLength) :
    0 + f.consumeSize bytes.length = bytes.length ∧
      CutUpTo header D L (done ++ bytes) (f.copied bytes 0) pieces := by
  have hroom := (h.positions.before_end hlt).2
  have hconsume := h.positions.consumeSize hlt bytes.length
  have hlength := Fragmenter.copied_length hin
  have hwhole : 0 + f.consumeSize bytes.length = bytes.length := by omega
  have hstart : CutUpTo header D L (done ++ bytes.take 0) f pieces := by
    rwa [List.take_zero, List.append_nil]
  have hcopied := hstart.copied_open (Nat.zero_le _) hin hopen
  rw [hwhole, List.take_length] at hcopied
  exact ⟨hwhole, hcopied⟩

/-- **One write** is taken over without leaving it only when it fits .. -/
theorem CutUpTo.fits_of_serializer {fuel : Nat} {ret : Bool} {f' : Fragmenter Bytes}
    (h : CutUpTo header D L done f pieces) (hne : bytes ≠ []) (hend : done.length + bytes.length ≤ L)
    (hrun : Fragmenter.serializer recordBytes D L fuel f bytes = .ok (ret, f')) :
    WriteFits D L done.length bytes.length ∧ ∃ pieces', CutUpTo header D L (done ++ bytes) f' pieces' := by
  have hpos := List.length_pos_iff.mpr hne
  have hbuffer := h.buffer_length (by omega)
  have hroom := (h.positions.before_end (by omega)).2
  have hnext := h.positions.next
  have hconsume := h.positions.consumeSize (by omega) bytes.length
  have hstart : CutUpTo header D L (done ++ bytes.take 0) f pieces := by
    rwa [List.take_zero, List.append_nil]
  have hopen := Fragmenter.transmitFragmentIfBufferFull_open recordBytes D L hroom
  rcases Fragmenter.serializer_cases hrun with hfalse | ⟨f₁, htrue, hloop⟩
  · rw [hopen] at hfalse
    cases hfalse
  rw [hopen] at htrue
  cases htrue
  rcases Fragmenter.copyLoop_cases hloop with ⟨hempty, -, -⟩ | ⟨hlt, hin, hnext'⟩
  · omega
  have hlength := Fragmenter.copied_length hin
  by_cases hleft : (f.copied bytes 0).buffer.length < f.thisFragmentLength
  · -- the whole write goes into the open piece
    obtain ⟨hwhole, hcopied⟩ := h.copied_whole (by omega) hin hleft
    rw [Fragmenter.transmitFragmentIfBufferFull_open recordBytes D L hleft] at hnext'
    rcases hnext' with hfalse | ⟨fuel', f₂, -, htrue, hrest⟩
    · cases hfalse
    · cases htrue
      rcases Fragmenter.copyLoop_cases hrest with ⟨-, -, rfl⟩ | ⟨hmore, -, -⟩
      · exact ⟨.inl (by omega), pieces, hcopied⟩
      · omega
  · -- the write completes the piece, and the rest starts a new one
    obtain ⟨f₂, pieces₂, hchecked, hempty₂, hcut⟩ := hstart.copied_due hlt hend hin (not_lt.mp hleft)
    rw [hchecked] at hnext'
    rcases hnext' with hfalse | ⟨fuel', f₃, -, htrue, hrest⟩
    · cases hfalse
    · cases htrue
      obtain ⟨hfits, hdone⟩ := hcut.fits_of_copyLoop hempty₂ (by omega) hin hend hrest
      exact ⟨.inr hfits, hdone⟩

/-- .. and a write that fits is taken over. -/
theorem CutUpTo.serializer_of_fits {fuel : Nat} (h : CutUpTo header D L done f pieces)
    (hne : bytes ≠ []) (hend : done.length + bytes.length ≤ L)
    (hfits : WriteFits D L done.length bytes.length) (hfuel : bytes.length < fuel) :
    ∃ f' pieces', Fragmenter.serializer recordBytes D L fuel f bytes = .ok (true, f') ∧
      CutUpTo header D L (done ++ bytes) f' pieces' := by
  have hpos := List.length_pos_iff.mpr hne
  have hbuffer := h.buffer_length (by omega)
  obtain ⟨hoffset, hroom⟩ := h.positions.before_end (by omega)
  have hposition := h.positions.position
  have hnext := h.positions.next
  have hconsume := h.positions.consumeSize (by omega) bytes.length
  have hstart : CutUpTo header D L (done ++ bytes.take 0) f pieces := by
    rwa [List.take_zero, List.append_nil]
  have hin : 0 + f.consumeSize bytes.length ≤ bytes.length := by omega
  have hlength := Fragmenter.copied_length hin
  obtain ⟨fuel, rfl⟩ : ∃ k, fuel = k + 1 := ⟨fuel - 1, by omega⟩
  unfold Fragmenter.serializer
  rw [Fragmenter.transmitFragmentIfBufferFull_open recordBytes D L hroom]
  simp only [Bool.not_true, Bool.false_eq_true, if_false]
  rw [Fragmenter.copyLoop_step recordBytes D L hpos hin]
  by_cases hleft : (f.copied bytes 0).buffer.length < f.thisFragmentLength
  · obtain ⟨hwhole, hcopied⟩ := h.copied_whole (by omega) hin hleft
    rw [Fragmenter.transmitFragmentIfBufferFull_open recordBytes D L hleft, hwhole]
    obtain ⟨fuel, rfl⟩ : ∃ k, fuel = k + 1 := ⟨fuel - 1, by omega⟩
    refine ⟨_, pieces, ?_, hcopied⟩
    rw [if_pos rfl, Fragmenter.copyLoop, if_neg (lt_irrefl _)]
  · obtain ⟨f₂, pieces₂, hchecked, hempty₂, hcut⟩ := hstart.copied_due hpos hend hin (not_lt.mp hleft)
    -- a write that stays in its piece completes it with its last byte
    have haligned : D ∣ done.length + bytes.length ∨ done.length + bytes.length = L := by
      rcases hfits with hinside | hends
      · by_cases hfull : f.thisFragmentLength = D
        · left
          have hmul : done.length + bytes.length = (pieces.length + 1) * D := by
            rw [Nat.add_mul]
            omega
          rw [hmul]
          exact Nat.dvd_mul_left D _
        · right
          omega
      · exact hends
    obtain ⟨f', pieces', hloop, hdone⟩ := hcut.copyLoop_of_fits hempty₂ (by omega) hin hend
      haligned (show bytes.length - (0 + f.consumeSize bytes.length) < fuel by omega)
    rw [hchecked]
    exact ⟨f', pieces', hloop, hdone⟩

/-! ## All writes -/

theorem CutUpTo.fits_of_calls {fuel : Nat} {ws : List Bytes} {f' : Fragmenter Bytes}
    (h : CutUpTo header D L done f pieces) (hne : ∀ w ∈ ws, w ≠ [])
    (hend : done.length + ws.flatten.length ≤ L)
    (hrun : Callback.calls (Fragmenter.serializer recordBytes D L fuel) f ws = .ok f') :
    WritesFit D L done.length ws ∧ ∃ pieces', CutUpTo header D L (done ++ ws.flatten) f' pieces' := by
  induction ws generalizing done f pieces with
  | nil =>
      cases hrun
      refine ⟨fun before w after heq => ?_, pieces, by simpa using h⟩
      simp at heq
  | cons w ws ih =>
      obtain ⟨f₁, hcall, hrest⟩ := Callback.bind_eq_ok.mp hrun
      obtain ⟨ret, hser⟩ := Callback.call_eq_ok.mp hcall
      rw [List.flatten_cons, List.length_append] at hend
      obtain ⟨hfits, pieces₁, hcut⟩ := h.fits_of_serializer (hne w (by simp)) (by omega) hser
      obtain ⟨hfit, hdone⟩ := ih hcut (fun v hv => hne v (by simp [hv]))
        (by rw [List.length_append]; omega) hrest
      rw [List.length_append] at hfit
      rw [List.append_assoc] at hdone
      exact ⟨writesFit_cons.mpr ⟨hfits, hfit⟩, hdone⟩

theorem CutUpTo.calls_of_fits {fuel : Nat} {ws : List Bytes} (h : CutUpTo header D L done f pieces)
    (hne : ∀ w ∈ ws, w ≠ []) (hend : done.length + ws.flatten.length ≤ L)
    (hfits : WritesFit D L done.length ws) (hfuel : L < fuel) :
    ∃ f' pieces', Callback.calls (Fragmenter.serializer recordBytes D L fuel) f ws = .ok f' ∧
      CutUpTo header D L (done ++ ws.flatten) f' pieces' := by
  induction ws generalizing done f pieces with
  | nil => exact ⟨f, pieces, rfl, by simpa using h⟩
  | cons w ws ih =>
      obtain ⟨hw, hws⟩ := writesFit_cons.mp hfits
      rw [List.flatten_cons, List.length_append] at hend
      obtain ⟨f₁, pieces₁, hser, hcut⟩ := h.serializer_of_fits (hne w (by simp)) (by omega) hw
        (show w.length < fuel by omega)
      obtain ⟨f', pieces', hrest, hdone⟩ := ih hcut (fun v hv => hne v (by simp [hv]))
        (by rw [List.length_append]; omega) (by rwa [List.length_append])
      have hcall : Callback.call (Fragmenter.serializer recordBytes D L fuel) f w = .ok f₁ :=
        Callback.call_eq_ok.mpr ⟨true, hser⟩
      refine ⟨f', pieces', ?_, by rwa [List.append_assoc] at hdone⟩
      rw [Callback.calls_cons, hcall]
      exact hrest

/-- **At the end of the message** it is cut into its pieces. -/
theorem CutUpTo.cutInto (h : CutUpTo header D L done f pieces) (hdone : done.length = L) (hD : 0 < D)
    (hlt : L < 2 ^ 24) (hcount : (L + D - 1) / D ≤ 65535) : CutInto header D done pieces := by
  have hstarted := h.positions.started
  have hoffset : f.serializedOffset = min (pieces.length * D) L := h.positions.offset
  have hposition := h.positions.position
  have hnext := h.positions.next
  have hempty : f.buffer = [] := by
    rcases h.positions.room with hroom | ⟨-, hempty⟩
    · omega
    · exact hempty
  have hcontent : pieces.flatten = done := by
    rw [← h.content, hempty, List.append_nil]
  rw [hempty, List.length_nil] at hposition
  -- every piece but the last starts a whole piece before the end
  have hfull : ∀ piece ∈ pieces.dropLast, piece.length = D := by
    intro piece hmem
    obtain ⟨before, after, hsplit⟩ := List.append_of_mem hmem
    have hlast : pieces.dropLast.length = pieces.length - 1 := List.length_dropLast
    rw [hsplit, List.length_append, List.length_cons] at hlast
    have hne : pieces ≠ [] := by
      rintro rfl
      simp at hmem
    refine h.cut.full before piece (after ++ [pieces.getLast hne]) ?_ ?_
    · calc pieces = pieces.dropLast ++ [pieces.getLast hne] := (List.dropLast_append_getLast hne).symm
        _ = _ := by rw [hsplit, List.append_assoc, List.cons_append]
    · exact lt_of_le_of_lt (Nat.mul_le_mul_right D (by omega)) hstarted
  have hpieces : pieces.length = (L + D - 1) / D := by
    have hsub : (pieces.length - 1) * D + D = pieces.length * D ∨ pieces.length = 0 := by
      rcases Nat.eq_zero_or_pos pieces.length with hzero | hpos
      · exact .inr hzero
      · left
        rw [← Nat.succ_mul]
        congr 1
        omega
    symm
    apply Nat.div_eq_of_lt_le
    · rcases hsub with hsub | hzero
      · omega
      · rw [hzero, Nat.zero_mul]
        omega
    · rw [Nat.succ_mul]
      omega
  have hnonempty : ∀ piece ∈ pieces, piece ≠ [] := by
    intro piece hmem
    have hne := List.ne_nil_of_mem hmem
    rw [← List.dropLast_append_getLast hne, List.mem_append, List.mem_singleton] at hmem
    rcases hmem with hmem | rfl
    · rw [← List.length_pos_iff, hfull piece hmem]
      exact hD
    · -- the pieces before the last do not hold the message
      have hflat := congrArg List.length hcontent
      rw [← List.dropLast_append_getLast hne, List.flatten_append, List.flatten_singleton,
        List.length_append, flatten_length_of_full hfull, List.length_dropLast, hdone] at hflat
      rw [← List.length_pos_iff]
      omega
  refine ⟨hcontent, by rw [hdone]; exact hpieces, hfull, hnonempty, ?_⟩
  intro i piece hi
  have hindex : i < pieces.length := (List.getElem?_eq_some_iff.mp hi).1
  have hlength : piece.length ≤ L := by
    rw [← hdone, ← hcontent]
    exact length_le_flatten (List.mem_of_getElem? hi)
  constructor
  · show (UInt16.ofNat (i + 1)).toNat = i + 1
    exact UInt16.toNat_ofNat_of_lt' (by
      have hsize : UInt16.size = 65536 := rfl
      omega)
  · show (UInt32.ofNat piece.length).toNat = piece.length
    exact UInt32.toNat_ofNat_of_lt' (by
      have hsize : UInt32.size = 2 ^ 32 := rfl
      omega)

end Loop

/-! ## `TransmitMessage` -/

section Message
variable {KAValue : Type} {archivedData : KAValue → Bytes} {suggestedFragmentSize : UInt32}
  {message : DTXMessage KAValue}

/-- Running out on several fragments is running the serializer lambda over the writes. -/
theorem transmitMessage_fragmented_iff {fuel : Nat} {routingInfo : DTXMessageRoutingInfo} {sent : Bytes}
    (hne : fragmentsForLength suggestedFragmentSize (message.serializedLength archivedData).1 ≠ 1) :
    (∃ ret message', transmitMessage archivedData fuel suggestedFragmentSize message routingInfo
      recordBytes [] = .ok (ret, message', sent)) ↔
    ∃ f, Callback.calls (Fragmenter.serializer recordBytes
        (suggestedFragmentSize - kDTXMessageHeaderSize).toNat (message.serializedLength archivedData).1 fuel)
      ⟨messageHeader (message.serializedLength archivedData).1
        (fragmentsForLength suggestedFragmentSize (message.serializedLength archivedData).1) routingInfo,
        [], 0, (suggestedFragmentSize - kDTXMessageHeaderSize).toNat,
        (recordBytes [] (messageHeader (message.serializedLength archivedData).1
          (fragmentsForLength suggestedFragmentSize (message.serializedLength archivedData).1)
          routingInfo).encode).2⟩ (message.writes archivedData) = .ok f ∧ f.sink = sent := by
  rw [transmitMessage_several fuel routingInfo recordBytes [] hne]
  constructor
  · rintro ⟨ret, message', hrun⟩
    obtain ⟨f, hcalls, hret⟩ := Callback.bind_eq_ok.mp hrun
    cases hret
    exact ⟨f, hcalls, rfl⟩
  · rintro ⟨f, hcalls, rfl⟩
    exact ⟨false, _, by rw [hcalls]; rfl⟩

theorem fragmentsForLength_ne_one {length : Nat} (h33 : 33 ≤ suggestedFragmentSize.toNat)
    (hlt : length < 2 ^ 24) (hlong : suggestedFragmentSize.toNat - 32 < length) :
    fragmentsForLength suggestedFragmentSize length ≠ 1 := by
  obtain ⟨k, hk2, -, -, hfragments, hk⟩ := fragmentsForLength_of_long h33 hlt hlong
  rw [hfragments]
  intro hone
  have h1 : (1 : UInt32).toNat = 1 := rfl
  rw [hone] at hk
  omega

/-- The invariant holds behind the first header. -/
theorem CutUpTo.init {D L : Nat} (k : UInt32) (routingInfo : DTXMessageRoutingInfo) (hD : 0 < D)
    (hlong : D < L) :
    CutUpTo (messageHeader L k routingInfo) D L []
      ⟨messageHeader L k routingInfo, [], 0, D, (recordBytes [] (messageHeader L k routingInfo).encode).2⟩
      [] :=
  ⟨cut_init rfl hlong, Fragmenter.At.init _ _ hD hlong, rfl⟩

section
variable (routingInfo : DTXMessageRoutingInfo) (h33 : 33 ≤ suggestedFragmentSize.toNat)
  (hlong : suggestedFragmentSize.toNat - 32 < (message.serializedLength archivedData).1)
  (hlength : (message.serialized archivedData).length = (message.serializedLength archivedData).1)
  (hlt : (message.serializedLength archivedData).1 < 2 ^ 24)
include h33 hlong hlength hlt

theorem writesFit_of_fragmentsExactly
    (h : FragmentsExactly archivedData suggestedFragmentSize message routingInfo) :
    WritesFit (suggestedFragmentSize.toNat - 32) (message.serializedLength archivedData).1 0
      (message.writes archivedData) := by
  obtain ⟨fuel, ret, message', sent, header, pieces, hrun, -⟩ := h
  obtain ⟨f, hcalls, -⟩ := (transmitMessage_fragmented_iff
    (fragmentsForLength_ne_one h33 hlt hlong)).mp ⟨ret, message', hrun⟩
  rw [fragmentLength_toNat h33] at hcalls
  have hstart := CutUpTo.init (fragmentsForLength suggestedFragmentSize
    (message.serializedLength archivedData).1) routingInfo (by omega) hlong
  have hend : ([] : Bytes).length + (message.writes archivedData).flatten.length ≤
      (message.serializedLength archivedData).1 := by
    rw [List.length_nil, Nat.zero_add]
    exact hlength.le
  exact (hstart.fits_of_calls (fun w hw => DTXMessage.ne_nil_of_mem_writes archivedData hlength hw)
    hend hcalls).1

theorem fragmentsExactly_of_writesFit
    (hcount : ((message.serializedLength archivedData).1 + (suggestedFragmentSize.toNat - 32) - 1) /
      (suggestedFragmentSize.toNat - 32) ≤ 65535)
    (h : WritesFit (suggestedFragmentSize.toNat - 32) (message.serializedLength archivedData).1 0
      (message.writes archivedData)) :
    FragmentsExactly archivedData suggestedFragmentSize message routingInfo := by
  have hstart := CutUpTo.init (fragmentsForLength suggestedFragmentSize
    (message.serializedLength archivedData).1) routingInfo (by omega) hlong
  have hend : ([] : Bytes).length + (message.writes archivedData).flatten.length ≤
      (message.serializedLength archivedData).1 := by
    rw [List.length_nil, Nat.zero_add]
    exact hlength.le
  obtain ⟨f, pieces, hcalls, hcut⟩ := hstart.calls_of_fits
    (fun w hw => DTXMessage.ne_nil_of_mem_writes archivedData hlength hw) hend h (Nat.lt_succ_self _)
  rw [← fragmentLength_toNat h33] at hcalls
  obtain ⟨ret, message', hrun⟩ := (transmitMessage_fragmented_iff
    (fragmentsForLength_ne_one h33 hlt hlong)).mpr ⟨f, hcalls, rfl⟩
  rw [List.nil_append] at hcut
  exact ⟨_, ret, message', f.sink, _, pieces, hrun, hcut.cut.sent, rfl,
    UInt32.toNat_ofNat_of_lt' (lt_trans hlt (by decide)), hcut.cutInto hlength (by omega) hlt hcount⟩

/-- **A message is cut exactly into its pieces** when every write stays in the piece it starts in or
    ends with a piece, and then only. -/
theorem fragmentsExactly_iff
    (hcount : ((message.serializedLength archivedData).1 + (suggestedFragmentSize.toNat - 32) - 1) /
      (suggestedFragmentSize.toNat - 32) ≤ 65535) :
    FragmentsExactly archivedData suggestedFragmentSize message routingInfo ↔
      WritesFit (suggestedFragmentSize.toNat - 32) (message.serializedLength archivedData).1 0
        (message.writes archivedData) :=
  ⟨writesFit_of_fragmentsExactly routingInfo h33 hlong hlength hlt,
    fragmentsExactly_of_writesFit routingInfo h33 hlong hlength hlt hcount⟩

end
end Message

/-- In pieces of eight bytes the first two fields of the small message fill the first piece, and the
    other writes are a piece each. -/
theorem fragmentsExactly_iff_smallMessage :
    FragmentsExactly (fun _ => []) 40 smallMessage ⟨1, 0, 0, 1⟩ ↔
      WritesFit ((40 : UInt32).toNat - 32) (smallMessage.serializedLength fun _ => []).1 0
        (smallMessage.writes fun _ => []) :=
  fragmentsExactly_iff ⟨1, 0, 0, 1⟩ (by decide) (by decide) (by decide) (by decide) (by decide)

/-- In pieces of five bytes the second field crosses the end of the first piece. -/
theorem not_fragmentsExactly_smallMessage :
    ¬ FragmentsExactly (fun _ => []) 37 smallMessage ⟨1, 0, 0, 1⟩ := by
  intro h
  have hfits := writesFit_of_fragmentsExactly ⟨1, 0, 0, 1⟩ (by decide) (by decide) (by decide)
    (by decide) h
  exact absurd (hfits [[1, 0, 0, 0]] [0, 0, 0, 0] _ rfl) (by decide)

end IDevice
