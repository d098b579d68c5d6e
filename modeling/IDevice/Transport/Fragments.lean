import IDevice.Transport.Buffered
import IDevice.Wire.Reports
import IDevice.Wire.RoundTrip

/-!
# `Transport.Fragments` — fragments behind the write buffer

A message in several pieces goes through the write buffer: every piece is a header, which is buffered,
and a payload. A payload as long as the buffer takes two calls of the transport, one for what is buffered
and one for itself, so the calls for piece `j` are those with the numbers `2 * j - 2` and `2 * j - 1`. A
shorter payload is the end of the message.

`Sending` is the invariant until a call fails. After that the piece is dropped, and so is the rest of the
write in which it ends (`Halted`); whether the transport is called again depends on the writes that
follow (`QuietFrom`). Next to the run goes the one whose transmitter accepts everything: the two agree
until the failure, and from then on the bytes of the other one only become more.
-/

namespace IDevice

open BufferedDTXTransport

/-- No call comes after one that failed. -/
def StopsAtFailure (sends : List TransportSend) : Prop :=
  ∀ sent c rest, sends = sent ++ ⟨c, false⟩ :: rest → rest = []

/-- From position `pos` on: if the first call that fails is one for a piece that ends in the writes, the
    writes behind the one in which it ends do not fill another piece. -/
def QuietFrom (accepts : Nat → Bool) (D L pos : Nat) (ws : List Bytes) : Prop :=
  ∀ i, FirstFails accepts i → pos < pieceEnd D L (i / 2 + 1) →
    pieceEnd D L (i / 2 + 1) ≤ pos + ws.flatten.length →
    restAfter (pieceEnd D L (i / 2 + 1) - pos) ws = [] ∨
      (restAfter (pieceEnd D L (i / 2 + 1) - pos) ws).flatten.length < min D (L - pieceEnd D L (i / 2 + 1))

theorem stopsAtFailure_of_accepted {sends : List TransportSend} (h : ∀ s ∈ sends, s.accepted = true) :
    StopsAtFailure sends := by
  rintro sent c rest rfl
  exact absurd (h ⟨c, false⟩ (by simp)) (by simp)

theorem stopsAtFailure_snoc {sends : List TransportSend} (h : ∀ s ∈ sends, s.accepted = true)
    (s : TransportSend) : StopsAtFailure (sends ++ [s]) := by
  intro sent c rest heq
  rcases List.eq_nil_or_concat rest with rfl | ⟨rest, last, rfl⟩
  · rfl
  · -- the failure would be among the accepted calls
    have heq' : sends ++ [s] = (sent ++ TransportSend.mk c false :: rest) ++ [last] := by simpa using heq
    have hsends := (List.append_inj' heq' rfl).1
    exact absurd (h ⟨c, false⟩ (by simp [hsends])) (by simp)

theorem not_stopsAtFailure {sends sends' : List TransportSend} {c : Bytes}
    (hsends : sends ++ [⟨c, false⟩] <+: sends') (hlt : sends.length + 1 < sends'.length) :
    ¬ StopsAtFailure sends' := by
  obtain ⟨rest, rfl⟩ := hsends
  intro h
  obtain rfl := h sends c rest (by simp)
  simp at hlt

section Loop
variable {bufferSize : Nat} {accepts : Nat → Bool} {D L n pos : Nat}
  {f f' : Fragmenter (BufferedDTXTransport bufferSize)}

/-- The fragmenter of the run that accepts everything. -/
def ghost (f : Fragmenter (BufferedDTXTransport bufferSize)) : Fragmenter Bytes :=
  ⟨f.header, f.buffer, f.serializedOffset, f.thisFragmentLength, f.sink.written⟩

/-- No call has failed: `n` pieces are sent and `pos` bytes are taken over. -/
structure Sending (accepts : Nat → Bool) (D L n pos : Nat)
    (f : Fragmenter (BufferedDTXTransport bufferSize)) : Prop where
  positions : f.At D L n pos
  room : f.sink.HasRoom
  clean : ∀ s ∈ f.sink.sends, s.accepted = true
  accepted : ∀ i < f.sink.sends.length, accepts i = true
  level : pos < L → f.sink.sends.length = 2 * n ∧ f.sink.buffer.length ≤ 32

/-- The last call failed, for piece `j`, and nothing is left in the buffers. -/
structure Halted (accepts : Nat → Bool) (D L j : Nat) (f : Fragmenter (BufferedDTXTransport bufferSize)) :
    Prop where
  refused : ∃ sends c, f.sink.sends = sends ++ [⟨c, false⟩] ∧ (∀ s ∈ sends, s.accepted = true) ∧
    FirstFails accepts sends.length ∧ sends.length / 2 + 1 = j
  sinkEmpty : f.sink.buffer = []
  empty : f.buffer = []
  next : f.thisFragmentLength = min D (L - pieceEnd D L j)

/-! ## One piece -/

/-- The header of a piece is buffered, and its payload follows it. -/
theorem send_piece (accepts : Nat → Bool) (h32 : bufferSize < 2 ^ 32) (h64 : 64 < bufferSize)
    {b : BufferedDTXTransport bufferSize} (hsmall : b.buffer.length ≤ 32) (header : DTXMessageHeader)
    {payload : Bytes} (hpayload : payload.length < 2 ^ 32) :
    (b.send accepts header.encode).1 = true ∧
    Handed accepts b (split bufferSize (b.buffer ++ header.encode) payload).1
      (split bufferSize (b.buffer ++ header.encode) payload).2
      ((b.send accepts header.encode).2.send accepts payload).1
      ((b.send accepts header.encode).2.send accepts payload).2 := by
  have hfits : b.buffer.length + header.encode.length < bufferSize := by
    rw [DTXMessageHeader.encode_length]
    omega
  obtain ⟨hret, hsends, hbuffer⟩ := send_small accepts hfits
  refine ⟨hret, ?_⟩
  have hroom : (b.send accepts header.encode).2.HasRoom := by
    right
    rwa [hbuffer, List.length_append]
  have hhanded := send_handed accepts h32 hroom hpayload
  rw [hbuffer] at hhanded
  have hheader : Handed accepts b [] (b.buffer ++ header.encode) true (b.send accepts header.encode).2 :=
    .delivered (by simp) (by simpa using hsends) hbuffer
  exact hheader.append hhanded

/-- The macro on a full buffer hands over the header and the buffer. -/
theorem macro_piece (accepts : Nat → Bool) (h32 : bufferSize < 2 ^ 32) (h64 : 64 < bufferSize) (D L : Nat)
    (hsmall : f.sink.buffer.length ≤ 32) (hpayload : f.buffer.length < 2 ^ 32)
    (hdue : f.thisFragmentLength ≤ f.buffer.length) :
    ∃ ret b', f.transmitFragmentIfBufferFull (send accepts) D L = (ret, f.emptied D L b') ∧
      Handed accepts f.sink (split bufferSize (f.sink.buffer ++ f.fragmentHeader.encode) f.buffer).1
        (split bufferSize (f.sink.buffer ++ f.fragmentHeader.encode) f.buffer).2 ret b' := by
  obtain ⟨hheader, hhanded⟩ := send_piece accepts h32 h64 hsmall f.fragmentHeader hpayload
  refine ⟨_, _, ?_, hhanded⟩
  rw [Fragmenter.transmitFragmentIfBufferFull_due (send accepts) D L hdue, if_pos hheader]

/-- **The piece that is due**: it is sent, or a call for it fails. -/
theorem Sending.piece (h : Sending accepts D L n pos f) (h32 : bufferSize < 2 ^ 32)
    (h64 : 64 < bufferSize) (hD : bufferSize ≤ D) (hD32 : D < 2 ^ 32) (hlt : pos < L) {bytes : Bytes}
    {offset : Nat} (hin : offset + f.consumeSize bytes.length ≤ bytes.length)
    (hdue : f.thisFragmentLength ≤ (f.copied bytes offset).buffer.length) :
    ∃ ret b', (f.copied bytes offset).transmitFragmentIfBufferFull (send accepts) D L =
        (ret, (f.copied bytes offset).emptied D L b') ∧
      (ret = true → Sending accepts D L (n + 1) (pos + f.consumeSize bytes.length)
          ((f.copied bytes offset).emptied D L b') ∧
        b'.written = f.sink.written ++ (f.copied bytes offset).fragmentHeader.encode ++
          (f.copied bytes offset).buffer) ∧
      (ret = false → Halted accepts D L (n + 1) ((f.copied bytes offset).emptied D L b') ∧
        acceptedBytes b'.sends <+: f.sink.written ++ (f.copied bytes offset).fragmentHeader.encode ++
          (f.copied bytes offset).buffer) := by
  obtain ⟨hpiece, hn, hempty⟩ := h.positions.copied_due hlt hin hdue
  obtain ⟨hoffset, hroom⟩ := h.positions.before_end hlt
  have hlength := Fragmenter.copied_length hin
  have hconsume := h.positions.consumeSize hlt bytes.length
  have hnext := h.positions.next
  have hend : pieceEnd D L (n + 1) = min (n * D + D) L := by rw [pieceEnd, Nat.succ_mul]
  obtain ⟨hsends, hsmall⟩ := h.level hlt
  obtain ⟨ret, b', hchecked, hhanded⟩ := macro_piece accepts (f := f.copied bytes offset) h32 h64 D L hsmall
    (by omega) hdue
  refine ⟨ret, b', hchecked, ?_⟩
  generalize hg : f.copied bytes offset = g at *
  have hsink : g.sink = f.sink := by
    rw [← hg]
    rfl
  rw [hsink] at hhanded
  have hne : f.sink.buffer ++ g.fragmentHeader.encode ≠ [] := by
    apply List.ne_nil_of_length_pos
    rw [List.length_append, DTXMessageHeader.encode_length]
    omega
  obtain ⟨hlong, htwo⟩ := split_length bufferSize hne g.buffer
  have hflatten := split_flatten bufferSize (f.sink.buffer ++ g.fragmentHeader.encode) g.buffer
  have haccepted := hhanded.acceptedBytes_isPrefix
  have hroom' := hhanded.hasRoom (split_room bufferSize _ _)
  generalize split bufferSize (f.sink.buffer ++ g.fragmentHeader.encode) g.buffer = cut at *
  have hbytes : f.sink.written ++ g.fragmentHeader.encode ++ g.buffer =
      acceptedBytes f.sink.sends ++ cut.1.flatten ++ cut.2 := by
    rw [List.append_assoc (acceptedBytes f.sink.sends), hflatten]
    simp [written]
  rw [hbytes]
  cases hhanded with
  | delivered haccepts hsent hbuffer =>
      have hcount : b'.sends.length = 2 * n + cut.1.length := by simp [hsent, hsends]
      refine ⟨fun _ => ⟨⟨hempty b', hroom', ?_, ?_, ?_⟩, ?_⟩, fun hfalse => absurd hfalse (by simp)⟩
      · show ∀ s ∈ b'.sends, s.accepted = true
        rw [hsent]
        intro s hs
        rcases List.mem_append.mp hs with hold | hnew
        · exact h.clean s hold
        · obtain ⟨c, -, rfl⟩ := List.mem_map.mp hnew
          rfl
      · show ∀ i < b'.sends.length, accepts i = true
        intro i hi
        by_cases hold : i < f.sink.sends.length
        · exact h.accepted i hold
        · have hnew := haccepts (i - f.sink.sends.length) (by omega)
          rwa [Nat.add_sub_cancel' (not_lt.mp hold)] at hnew
      · intro hmore
        show b'.sends.length = 2 * (n + 1) ∧ b'.buffer.length ≤ 32
        -- a payload that is shorter than the buffer is the end of the message
        obtain ⟨htwo, hnone⟩ := hlong (by omega)
        rw [hbuffer, hnone, List.length_nil]
        omega
      · show acceptedBytes b'.sends ++ b'.buffer = _
        rw [hsent, acceptedBytes_append, acceptedBytes_accepted, hbuffer]
  | @refused _ before c after hcs hbefore hrefused hsent hbuffer =>
      refine ⟨fun htrue => absurd htrue (by simp), fun _ => ⟨⟨?_, hbuffer, rfl, ?_⟩, ?_⟩⟩
      · have hlt2 : before.length < 2 := by
          rw [hcs, List.length_append, List.length_cons] at htwo
          omega
        refine ⟨f.sink.sends ++ before.map (TransportSend.mk · true), c, hsent, ?_, ?_, ?_⟩
        · intro s hs
          rcases List.mem_append.mp hs with hold | hnew
          · exact h.clean s hold
          · obtain ⟨c, -, rfl⟩ := List.mem_map.mp hnew
            rfl
        · rw [List.length_append, List.length_map]
          refine ⟨hrefused, fun i hi => ?_⟩
          by_cases hold : i < f.sink.sends.length
          · exact h.accepted i hold
          · have hnew := hbefore (i - f.sink.sends.length) (by omega)
            rwa [Nat.add_sub_cancel' (not_lt.mp hold)] at hnew
        · rw [List.length_append, List.length_map, hsends]
          omega
      · show min D (L - (g.serializedOffset + g.buffer.length)) = _
        have hsame : g.serializedOffset = f.serializedOffset := by
          rw [← hg]
          rfl
        omega
      · exact haccepted.trans (List.prefix_append _ _)

/-! ## One write -/

/-- Where a write that is taken over from position `pos` to position `stop` leaves the fragmenter, and
    what the run that accepts everything, if it ends like `Other`, has sent. -/
inductive Reached (accepts : Nat → Bool) (D L pos stop : Nat)
    (f : Fragmenter (BufferedDTXTransport bufferSize)) (Other : Fragmenter Bytes → Prop) : Prop
  | sending {m} : Sending accepts D L m stop f → (∀ g, Other g → g = ghost f) →
      Reached accepts D L pos stop f Other
  | halted {j} : pos < pieceEnd D L j → pieceEnd D L j ≤ stop → Halted accepts D L j f →
      (∀ g, Other g → acceptedBytes f.sink.sends <+: g.sink) → Reached accepts D L pos stop f Other

theorem Reached.mono {pos' stop : Nat} {Other Other' : Fragmenter Bytes → Prop}
    (h : Reached accepts D L pos' stop f Other') (hpos : pos ≤ pos') (hother : ∀ g, Other g → Other' g) :
    Reached accepts D L pos stop f Other := by
  cases h with
  | sending hsending hsame => exact .sending hsending fun g hg => hsame g (hother g hg)
  | halted hlo hhi hhalted hsent => exact .halted (by omega) hhi hhalted fun g hg => hsent g (hother g hg)

/-- The bytes of the run that accepts everything only become more. -/
theorem recordBytes_keeps (sent : Bytes) :
    ∀ s bytes, sent <+: s → sent <+: (recordBytes s bytes).2 :=
  fun _ bytes h => h.trans (List.prefix_append _ bytes)

theorem copyLoop_isPrefix {g g' : Fragmenter Bytes} {fuel offset : Nat} {bytes : Bytes} {ret : Bool}
    (h : g.copyLoop recordBytes D L bytes fuel offset = .ok (ret, g')) : g.sink <+: g'.sink :=
  Fragmenter.copyLoop_keeps (recordBytes_keeps g.sink) List.prefix_rfl h

/-- That run takes the next step of the loop. -/
theorem copyLoop_recordBytes {g g' : Fragmenter Bytes} {fuel offset : Nat} {bytes : Bytes} {ret : Bool}
    (hlt : offset < bytes.length)
    (h : g.copyLoop recordBytes D L bytes fuel offset = .ok (ret, g')) :
    ∃ fuel', ((g.copied bytes offset).transmitFragmentIfBufferFull recordBytes D L).2.copyLoop
      recordBytes D L bytes fuel' (offset + g.consumeSize bytes.length) = .ok (ret, g') := by
  have htrue : ((g.copied bytes offset).transmitFragmentIfBufferFull recordBytes D L).1 = true := by
    by_cases hdue : (g.copied bytes offset).thisFragmentLength ≤ (g.copied bytes offset).buffer.length
    · rw [recordBytes_due hdue]
    · rw [Fragmenter.transmitFragmentIfBufferFull_open recordBytes D L (not_le.mp hdue)]
  rcases Fragmenter.copyLoop_cases h with ⟨hstop, -⟩ | ⟨-, -, hfalse | ⟨fuel', g₁, -, hchecked, hloop⟩⟩
  · omega
  · rw [hfalse] at htrue
    cases htrue
  · rw [hchecked]
    exact ⟨fuel', hloop⟩

theorem calls_isPrefix {g g' : Fragmenter Bytes} {fuel : Nat} {ws : List Bytes}
    (h : Callback.calls (Fragmenter.serializer recordBytes D L fuel) g ws = .ok g') : g.sink <+: g'.sink :=
  Callback.calls_invariant (fun g' => g.sink <+: g'.sink) List.prefix_rfl h
    fun _ _ _ _ hg hstep => Fragmenter.serializer_keeps (recordBytes_keeps g.sink) hg hstep

section
variable (h32 : bufferSize < 2 ^ 32) (h64 : 64 < bufferSize) (hD : bufferSize ≤ D) (hD32 : D < 2 ^ 32)
include h32 h64 hD hD32

/-- **The loop up to the first failure.** -/
theorem Sending.copyLoop {start fuel offset : Nat} {bytes : Bytes} {ret : Bool}
    (h : Sending accepts D L n (start + offset) f) (hoff : offset ≤ bytes.length)
    (hend : start + bytes.length ≤ L)
    (hrun : f.copyLoop (send accepts) D L bytes fuel offset = .ok (ret, f')) :
    Reached accepts D L (start + offset) (start + bytes.length) f' fun g =>
      ∃ fuel ret, (ghost f).copyLoop recordBytes D L bytes fuel offset = .ok (ret, g) := by
  induction fuel generalizing n offset f with
  | zero => cases hrun
  | succ fuel ih =>
      rcases Fragmenter.copyLoop_cases hrun with ⟨hstop, -, rfl⟩ | ⟨hlt, hin, hnext⟩
      · -- the loop has come to the end of the write, and so has every other run of it
        obtain rfl : offset = bytes.length := by omega
        refine .sending h ?_
        rintro g ⟨fuel', ret, hother⟩
        rcases Fragmenter.copyLoop_cases hother with ⟨-, -, rfl⟩ | ⟨hlt, -⟩
        · rfl
        · exact absurd hlt (lt_irrefl _)
      · have hpos : start + offset < L := by omega
        by_cases hopen : (f.copied bytes offset).buffer.length < f.thisFragmentLength
        · -- the chunk does not fill the buffer
          have hcopied := h.positions.copied_open hin hopen
          rw [Fragmenter.transmitFragmentIfBufferFull_open (send accepts) D L hopen] at hnext
          have hother := Fragmenter.transmitFragmentIfBufferFull_open recordBytes D L
            (f := (ghost f).copied bytes offset) hopen
          rcases hnext with hfalse | ⟨fuel', f₁, hfuel, hchecked, hloop⟩
          · cases hfalse
          · cases hchecked
            cases hfuel
            rw [Nat.add_assoc] at hcopied
            have hreached := ih ⟨hcopied, h.room, h.clean, h.accepted, fun _ => h.level hpos⟩ hin hloop
            refine hreached.mono (by omega) ?_
            rintro g ⟨fuel', ret, hg⟩
            obtain ⟨fuel'', hg⟩ := copyLoop_recordBytes hlt hg
            rw [hother] at hg
            exact ⟨fuel'', ret, hg⟩
        · -- the chunk fills it, and the piece is due
          obtain ⟨ret', b', hchecked, hsent, hfailed⟩ := h.piece h32 h64 hD hD32 hpos hin (not_lt.mp hopen)
          obtain ⟨hpiece, -, -⟩ := h.positions.copied_due hpos hin (not_lt.mp hopen)
          have hroom := (h.positions.before_end hpos).2
          have hconsume := h.positions.consumeSize hpos bytes.length
          have hother := recordBytes_due (D := D) (L := L) (f := (ghost f).copied bytes offset)
            (not_lt.mp hopen)
          cases ret' with
          | true =>
              -- the piece is accepted, and the reference run has sent the same bytes
              obtain ⟨hsending, hwritten⟩ := hsent rfl
              have hghost : ghost ((f.copied bytes offset).emptied D L b') =
                  ((ghost f).copied bytes offset).emptied D L (((ghost f).copied bytes offset).sink ++
                    ((ghost f).copied bytes offset).fragmentHeader.encode ++
                    ((ghost f).copied bytes offset).buffer) := by
                unfold ghost Fragmenter.emptied
                simp only [hwritten]
                rfl
              rcases hnext with hfalse | ⟨fuel', f₁, hfuel, htrue, hloop⟩
              · rw [hchecked] at hfalse
                cases hfalse
              · rw [hchecked] at htrue
                cases htrue
                cases hfuel
                rw [Nat.add_assoc] at hsending
                refine (ih hsending hin hloop).mono (by omega) ?_
                rintro g ⟨fuel', ret, hg⟩
                obtain ⟨fuel'', hg⟩ := copyLoop_recordBytes hlt hg
                rw [hother, ← hghost] at hg
                exact ⟨fuel'', ret, hg⟩
          | false =>
              -- the piece is refused, and what was accepted is a prefix of what the reference sends
              obtain ⟨hhalted, haccepted⟩ := hfailed rfl
              rcases hnext with hfalse | ⟨fuel', f₁, hfuel, htrue, hloop⟩
              · rw [hchecked] at hfalse
                cases hfalse
                refine .halted (by omega) (by omega) hhalted ?_
                rintro g ⟨fuel', ret, hg⟩
                obtain ⟨fuel'', hg⟩ := copyLoop_recordBytes hlt hg
                rw [hother] at hg
                exact haccepted.trans (copyLoop_isPrefix hg)
              · rw [hchecked] at htrue
                cases htrue

theorem Sending.serializer {fuel : Nat} {bytes : Bytes} {ret : Bool} (h : Sending accepts D L n pos f)
    (hlt : pos < L) (hend : pos + bytes.length ≤ L)
    (hrun : Fragmenter.serializer (send accepts) D L fuel f bytes = .ok (ret, f')) :
    Reached accepts D L pos (pos + bytes.length) f' fun g =>
      ∃ fuel ret, Fragmenter.serializer recordBytes D L fuel (ghost f) bytes = .ok (ret, g) := by
  have hroom := (h.positions.before_end hlt).2
  have hopen := Fragmenter.transmitFragmentIfBufferFull_open (send accepts) D L hroom
  have hother := Fragmenter.transmitFragmentIfBufferFull_open recordBytes D L (f := ghost f) hroom
  rcases Fragmenter.serializer_cases hrun with hchecked | ⟨f₁, hchecked, hloop⟩
  · rw [hopen] at hchecked
    cases hchecked
  · rw [hopen] at hchecked
    cases hchecked
    have hzero : Sending accepts D L n (pos + 0) f := h
    refine (hzero.copyLoop h32 h64 hD hD32 (Nat.zero_le _) hend hloop).mono (Nat.le_refl _) ?_
    rintro g ⟨fuel', ret, hg⟩
    unfold Fragmenter.serializer at hg
    rw [hother] at hg
    exact ⟨fuel', ret, hg⟩

end

/-! ## The whole message -/

/-- The flush at the end stops at its failure, if no call has failed before. -/
theorem stopsAtFailure_flush (accepts : Nat → Bool) (h32 : bufferSize < 2 ^ 32)
    {b : BufferedDTXTransport bufferSize}
    (hclean : ∀ s ∈ b.sends, s.accepted = true) : StopsAtFailure (b.flush accepts).2.sends := by
  have hflush := flush_handed accepts h32 b
  generalize (b.flush accepts).1 = ret, (b.flush accepts).2 = b' at hflush
  have hmap {cs : List Bytes} : ∀ s ∈ b.sends ++ cs.map (TransportSend.mk · true), s.accepted = true := by
    intro s hs
    rcases List.mem_append.mp hs with hold | hnew
    · exact hclean s hold
    · obtain ⟨c, -, rfl⟩ := List.mem_map.mp hnew
      rfl
  cases hflush with
  | delivered _ hsends _ =>
      rw [hsends]
      exact stopsAtFailure_of_accepted hmap
  | refused _ _ _ hsends _ =>
      rw [hsends]
      exact stopsAtFailure_snoc hmap _

theorem acceptedBytes_flush_isPrefix (accepts : Nat → Bool) (h32 : bufferSize < 2 ^ 32)
    (b : BufferedDTXTransport bufferSize) : acceptedBytes (b.flush accepts).2.sends <+: b.written := by
  have haccepted := (flush_handed accepts h32 b).acceptedBytes_isPrefix
  have hflatten : (if b.buffer = [] then [] else [b.buffer]).flatten = b.buffer := by
    by_cases hempty : b.buffer = []
    · rw [if_pos hempty, hempty]
      rfl
    · rw [if_neg hempty, List.flatten_singleton]
  rwa [hflatten] at haccepted

/-- A write in which no call fails changes nothing. -/
theorem Sending.quietFrom_cons {w : Bytes} {ws : List Bytes} (hD : 0 < D)
    (h : Sending accepts D L n (pos + w.length) f) (hws : ws ≠ [] → pos + w.length < L) :
    QuietFrom accepts D L pos (w :: ws) ↔ QuietFrom accepts D L (pos + w.length) ws := by
  have hrest {e : Nat} (he : pos + w.length < e) :
      restAfter (e - pos) (w :: ws) = restAfter (e - (pos + w.length)) ws := by
    rw [restAfter_cons_of_lt ws (by omega), Nat.sub_sub]
  constructor
  · intro hquiet i hi hlo hhi
    have hfails := hquiet i hi (by omega) (by rw [List.flatten_cons, List.length_append]; omega)
    rwa [hrest hlo] at hfails
  · intro hquiet i hi hlo hhi
    rw [List.flatten_cons, List.length_append] at hhi
    -- does the piece of the failed call end in this write?
    by_cases hhere : pieceEnd D L (i / 2 + 1) ≤ pos + w.length
    · rw [restAfter_cons_of_le ws (by omega)]
      by_cases hnil : ws = []
      · exact .inl hnil
      · -- the calls for the pieces that have ended were accepted
        have hlt := hws hnil
        have hj : pieceEnd D L (i / 2 + 1) = min ((i / 2 + 1) * D) L := rfl
        have hmul : (i / 2 + 1) * D = i / 2 * D + D := Nat.succ_mul _ _
        have hle := h.positions.le_of_pieceEnd_le (show (i / 2 + 1 - 1) * D < L by
          rw [Nat.add_sub_cancel]
          omega) hhere
        have hcalls := (h.level hlt).1
        exact absurd (h.accepted i (by omega)) (by simp [hi.1])
    · rw [hrest (not_le.mp hhere)]
      exact hquiet i hi (not_le.mp hhere) (by omega)

/-- What the condition comes to when a call for a piece that ends in the write has failed. -/
theorem Halted.quietFrom_cons {j : Nat} {w : Bytes} {ws : List Bytes} (h : Halted accepts D L j f)
    (hlo : pos < pieceEnd D L j) (hhi : pieceEnd D L j ≤ pos + w.length) :
    QuietFrom accepts D L pos (w :: ws) ↔ ws = [] ∨ f.buffer.length + ws.flatten.length < f.thisFragmentLength := by
  obtain ⟨sends, c, -, -, hfails, rfl⟩ := h.refused
  have hrest : restAfter (pieceEnd D L (sends.length / 2 + 1) - pos) (w :: ws) = ws :=
    restAfter_cons_of_le ws (by omega)
  rw [h.empty, h.next, List.length_nil, Nat.zero_add]
  constructor
  · intro hquiet
    have hthis := hquiet sends.length hfails hlo (by rw [List.flatten_cons, List.length_append]; omega)
    rwa [hrest] at hthis
  · intro hthis i hi _ _
    obtain rfl := hi.unique hfails
    rwa [hrest]

/-- Writes behind a failure call the transport again, and if not before then in the flush, unless they
    make no call at all. -/
theorem Halted.calls_iff {fuel j : Nat} {ws : List Bytes} (h : Halted accepts D L j f)
    (hrun : Callback.calls (Fragmenter.serializer (send accepts) D L fuel) f ws = .ok f') :
    (StopsAtFailure (f'.sink.flush accepts).2.sends ↔
      ws = [] ∨ f.buffer.length + ws.flatten.length < f.thisFragmentLength) ∧
    (StopsAtFailure (f'.sink.flush accepts).2.sends →
      (f'.sink.flush accepts).2.sends = f.sink.sends) := by
  obtain ⟨sends, c, hsends, hclean, -, -⟩ := h.refused
  -- the calls of the first run are kept, and something is buffered or was handed over since
  let Called (b : BufferedDTXTransport bufferSize) : Prop :=
    f.sink.sends <+: b.sends ∧ (b.buffer ≠ [] ∨ f.sink.sends.length < b.sends.length)
  have hfirst (header : DTXMessageHeader) : Called (f.sink.send accepts header.encode).2 := by
    refine ⟨send_isPrefix accepts f.sink header.encode, send_progress accepts f.sink (.inr ?_)⟩
    exact List.ne_nil_of_length_pos (by simp)
  have hkeep (b : BufferedDTXTransport bufferSize) (bytes : Bytes) (hb : Called b) :
      Called (b.send accepts bytes).2 := by
    have hmore := send_isPrefix accepts b bytes
    refine ⟨hb.1.trans hmore, ?_⟩
    rcases hb.2 with hbuffer | hlt
    · exact (send_progress accepts b (.inl hbuffer)).imp_right (lt_of_le_of_lt hb.1.length_le)
    · exact .inr (lt_of_lt_of_le hlt hmore.length_le)
  rcases Fragmenter.calls_quiet_or_called Called hfirst hkeep hrun with ⟨hquiet, hsame⟩ | ⟨hloud, hcalled⟩
  · have hflush : f'.sink.flush accepts = (true, f.sink) := by
      rw [hsame]
      exact flush_empty accepts h.sinkEmpty
    rw [hflush]
    refine ⟨⟨fun _ => hquiet, fun _ => ?_⟩, fun _ => rfl⟩
    show StopsAtFailure f.sink.sends
    rw [hsends]
    exact stopsAtFailure_snoc hclean _
  · have hnot : ¬ StopsAtFailure (f'.sink.flush accepts).2.sends := by
      have hmore := flush_isPrefix accepts f'.sink
      have hlt : f.sink.sends.length < (f'.sink.flush accepts).2.sends.length := by
        rcases hcalled.2 with hbuffer | hlt
        · exact lt_of_le_of_lt hcalled.1.length_le (flush_lt accepts hbuffer)
        · exact lt_of_lt_of_le hlt hmore.length_le
      rw [hsends, List.length_append, List.length_singleton] at hlt
      exact not_stopsAtFailure (hsends ▸ hcalled.1.trans hmore) hlt
    exact ⟨⟨fun h => absurd h hnot, fun h => absurd h hloud⟩, fun h => absurd h hnot⟩

/-- **The writes of a message**, and the flush behind them. -/
theorem Sending.calls (h32 : bufferSize < 2 ^ 32) (h64 : 64 < bufferSize) (hD : bufferSize ≤ D)
    (hD32 : D < 2 ^ 32) {fuel : Nat} {ws : List Bytes} (h : Sending accepts D L n pos f)
    (hstart : ∀ before w after, ws = before ++ w :: after → pos + before.flatten.length < L)
    (hend : pos + ws.flatten.length ≤ L)
    (hrun : Callback.calls (Fragmenter.serializer (send accepts) D L fuel) f ws = .ok f') :
    (StopsAtFailure (f'.sink.flush accepts).2.sends ↔ QuietFrom accepts D L pos ws) ∧
    (StopsAtFailure (f'.sink.flush accepts).2.sends → ∀ fuel' g,
      Callback.calls (Fragmenter.serializer recordBytes D L fuel') (ghost f) ws = .ok g →
      acceptedBytes (f'.sink.flush accepts).2.sends <+: g.sink) := by
  induction ws generalizing n pos f with
  | nil =>
      -- only the flush is left
      cases hrun
      have hstops := stopsAtFailure_flush accepts h32 h.clean
      refine ⟨⟨fun _ i _ hlo hhi => ?_, fun _ => hstops⟩, fun _ _ g hg => ?_⟩
      · rw [List.flatten_nil, List.length_nil] at hhi
        omega
      · cases hg
        exact acceptedBytes_flush_isPrefix accepts h32 f'.sink
  | cons w ws ih =>
      obtain ⟨f₁, hcall, hrest⟩ := Callback.bind_eq_ok.mp hrun
      obtain ⟨ret, hser⟩ := Callback.call_eq_ok.mp hcall
      have hlt : pos < L := by simpa using hstart [] w ws rfl
      rw [List.flatten_cons, List.length_append] at hend
      have hnext : ∀ before v after, ws = before ++ v :: after →
          pos + w.length + before.flatten.length < L := by
        intro before v after heq
        have := hstart (w :: before) v after (by rw [heq, List.cons_append])
        rw [List.flatten_cons, List.length_append] at this
        omega
      cases h.serializer h32 h64 hD hD32 hlt (by omega) hser with
      | sending hsending hsame =>
          -- no call of this write has failed
          obtain ⟨hiff, haccepted⟩ := ih hsending hnext (by omega) hrest
          have hmore : ws ≠ [] → pos + w.length < L := by
            intro hne
            obtain ⟨v, vs, rfl⟩ := List.exists_cons_of_ne_nil hne
            simpa using hnext [] v vs rfl
          refine ⟨hiff.trans (hsending.quietFrom_cons (by omega) hmore).symm, fun hstops fuel' g hg => ?_⟩
          obtain ⟨g₁, hgcall, hgrest⟩ := Callback.bind_eq_ok.mp hg
          obtain ⟨gret, hgser⟩ := Callback.call_eq_ok.mp hgcall
          obtain rfl := hsame g₁ ⟨fuel', gret, hgser⟩
          exact haccepted hstops fuel' g hgrest
      | halted hlo hhi hhalted hsent =>
          -- a call of this write has failed, so no later write may make one
          obtain ⟨hiff, hsame⟩ := hhalted.calls_iff hrest
          refine ⟨hiff.trans (hhalted.quietFrom_cons hlo hhi).symm, fun hstops fuel' g hg => ?_⟩
          obtain ⟨g₁, hgcall, hgrest⟩ := Callback.bind_eq_ok.mp hg
          obtain ⟨gret, hgser⟩ := Callback.call_eq_ok.mp hgcall
          rw [hsame hstops]
          exact (hsent g₁ ⟨fuel', gret, hgser⟩).trans (calls_isPrefix hgrest)

/-- Behind the first header, which is buffered. -/
theorem sending_start (accepts : Nat → Bool) (header : DTXMessageHeader) (hD : 0 < D) (hlong : D < L)
    (h64 : 64 < bufferSize) :
    let f : Fragmenter (BufferedDTXTransport bufferSize) :=
      ⟨header, [], 0, D, (create.send accepts header.encode).2⟩
    Sending accepts D L 0 0 f ∧ ghost f = ⟨header, [], 0, D, (recordBytes [] header.encode).2⟩ := by
  have hsends : (create : BufferedDTXTransport bufferSize).sends = [] := rfl
  have hbuffer : (create : BufferedDTXTransport bufferSize).buffer = [] := rfl
  have hsmall : (create : BufferedDTXTransport bufferSize).buffer.length + header.encode.length <
      bufferSize := by
    rw [hbuffer, List.length_nil, DTXMessageHeader.encode_length]
    omega
  -- the header fits into the empty buffer, so no call is made for it
  obtain ⟨-, hsent, hheld⟩ := send_small accepts hsmall
  rw [hsends] at hsent
  rw [hbuffer, List.nil_append] at hheld
  intro f
  have hnone : f.sink.sends = [] := hsent
  have hheader : f.sink.buffer = header.encode := hheld
  refine ⟨⟨Fragmenter.At.init header _ hD hlong, .inr ?_, ?_, ?_, fun _ => ?_⟩, ?_⟩
  · rw [hheader, DTXMessageHeader.encode_length]
    omega
  · rw [hnone]
    simp
  · rw [hnone]
    simp
  · rw [hnone, hheader, DTXMessageHeader.encode_length]
    simp
  · show (⟨header, [], 0, D, acceptedBytes f.sink.sends ++ f.sink.buffer⟩ : Fragmenter Bytes) = _
    rw [hnone, hheader]
    rfl

end Loop
end IDevice
