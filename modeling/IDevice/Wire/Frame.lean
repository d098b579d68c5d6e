import IDevice.Wire.Parser

/-!
# `Wire.Frame` — what the parser does with well-formed fragments

A `Frame` is a fragment as the protocol has it: a good header and the payload that belongs to it. The
first fragment of a message in several pieces is a header alone, whose length field announces the whole
message; the parser nevertheless waits until that many bytes have followed (`Ready`).

`Frame.absorb` is the effect of a frame on the partial messages, and `drain_frames` reads a whole list
of frames off the front of a stream.
-/

namespace IDevice

open Stream

/-- A well-formed fragment. -/
structure Frame where
  header : DTXMessageHeader
  payload : Bytes
  magic : header.magic = kDTXMessageHeaderMagic
  headerSize : header.messageHeaderSize = kDTXMessageHeaderSize
  bound : 32 + header.length.toNat < 2 ^ 32
  payload_length : payload.length =
    if header.fragmentCount ≠ 1 ∧ header.fragmentIndex = 0 then 0 else header.length.toNat

namespace Frame

def bytes (f : Frame) : Bytes := f.header.encode ++ f.payload

/-- The bytes of frames that follow each other. -/
def stream (fs : List Frame) : Bytes := fs.flatMap bytes

/-- How many bytes must have followed the start of the frame before the parser looks at it. -/
def announced (f : Frame) : Nat := 32 + f.header.length.toNat

/-- The effect of a frame on the partial messages, and the message it completes. A continuation
    fragment whose message has not begun has none. -/
def absorb (t : FragmentTable) (f : Frame) : Option (FragmentTable × List ParsedMessage) :=
  if f.header.fragmentCount = 1 then some (t, [.setup f.header f.payload])
  else if f.header.fragmentIndex = 0 then some (t.insert f.header.identifier [], [])
  else
    (t f.header.identifier).map fun fragmentedBuffer =>
      if f.header.fragmentIndex.toNat + 1 = f.header.fragmentCount.toNat then
        (t.erase f.header.identifier, [.setup f.header (fragmentedBuffer ++ f.payload)])
      else (t.set f.header.identifier (fragmentedBuffer ++ f.payload), [])

/-- The effect of a list of frames. -/
def absorbAll : FragmentTable → List Frame → Option (FragmentTable × List ParsedMessage)
  | t, [] => some (t, [])
  | t, f :: fs =>
    (f.absorb t).bind fun r => (absorbAll r.1 fs).map fun r' => (r'.1, r.2 ++ r'.2)

/-- Every frame has all the bytes it announces behind it. -/
def Ready (rest : Bytes) : List Frame → Prop
  | [] => True
  | f :: fs => f.announced ≤ (stream (f :: fs) ++ rest).length ∧ Ready rest fs

@[simp] theorem stream_nil : stream [] = [] := rfl

@[simp] theorem stream_cons (f : Frame) (fs : List Frame) : stream (f :: fs) = f.bytes ++ stream fs := by
  simp [stream]

theorem bytes_length (f : Frame) : f.bytes.length = 32 + f.payload.length := by simp [bytes]

theorem bytes_length_le (f : Frame) : f.bytes.length ≤ f.announced := by
  rw [bytes_length, f.payload_length, announced]
  split <;> omega

/-- A frame with a payload of the announced length is ready once it is complete. -/
theorem announced_eq (f : Frame) (h : ¬ (f.header.fragmentCount ≠ 1 ∧ f.header.fragmentIndex = 0)) :
    f.announced = f.bytes.length := by
  rw [bytes_length, f.payload_length, if_neg h, announced]

section Front
variable (f : Frame) (t : FragmentTable) (rest : Bytes)

theorem decode_bytes : DTXMessageHeader.decode (f.bytes ++ rest) = f.header := by
  rw [bytes, List.append_assoc, DTXMessageHeader.decode_encode]

/-- The parser's sum of two `uint32_t` does not wrap on a frame. -/
theorem announced_toNat :
    (f.header.messageHeaderSize + f.header.length).toNat = f.announced := by
  have hbound := f.bound
  rw [f.headerSize, UInt32.toNat_add]
  have h32 : kDTXMessageHeaderSize.toNat = 32 := rfl
  rw [h32, Nat.mod_eq_of_lt hbound, announced]

theorem front_waiting (h : (f.bytes ++ rest).length < f.announced) :
    DTXMessageParser.dtxReader.front t (f.bytes ++ rest) = .wait := by
  by_cases h32 : (f.bytes ++ rest).length < 32
  · exact DTXMessageParser.front_short h32
  · exact DTXMessageParser.front_partial (f.decode_bytes rest) h32 (by simp [f.magic])
      (by simp [f.headerSize]) (by rwa [f.announced_toNat])

/-- A frame that is ready is taken off the front. -/
theorem front_ready {t' : FragmentTable} {out : List ParsedMessage}
    (hready : f.announced ≤ (f.bytes ++ rest).length) (habsorb : f.absorb t = some (t', out)) :
    DTXMessageParser.dtxReader.front t (f.bytes ++ rest) = .take f.bytes.length t' out := by
  have hdrop : (f.bytes ++ rest).drop 32 = f.payload ++ rest := by
    rw [bytes, List.append_assoc, List.drop_append_of_le_length (by simp)]
    simp
  have h32 : ¬ (f.bytes ++ rest).length < 32 := by
    rw [List.length_append, bytes_length]
    omega
  rw [DTXMessageParser.front_complete (f.decode_bytes rest) h32 (by simp [f.magic])
    (by simp [f.headerSize]) (by rw [f.announced_toNat]; omega), hdrop]
  -- all that the frame announces is there, so no window leaves the data
  rw [announced, List.length_append, bytes_length] at hready
  have hwindow : ¬ (f.payload ++ rest).length < f.header.length.toNat := by
    rw [List.length_append]
    omega
  have hlen := f.payload_length
  unfold absorb at habsorb
  simp only [DTXMessageParser.absorb, DTXMessageParser.parseMessageWithHeader, if_neg hwindow]
  by_cases hcount : f.header.fragmentCount = 1
  · -- a single fragment
    rw [if_neg (by simp [hcount])] at hlen
    have htake : (f.payload ++ rest).take f.header.length.toNat = f.payload := by simp [← hlen]
    simp only [hcount, if_true, Option.some.injEq, Prod.mk.injEq] at habsorb
    obtain ⟨rfl, rfl⟩ := habsorb
    simp [hcount, htake, bytes_length, hlen]
  · by_cases hindex : f.header.fragmentIndex = 0
    · -- a first fragment
      rw [if_pos ⟨hcount, hindex⟩] at hlen
      simp only [hcount, hindex, if_true, if_false, Option.some.injEq, Prod.mk.injEq] at habsorb
      obtain ⟨rfl, rfl⟩ := habsorb
      simp [hcount, hindex, bytes_length, hlen]
    · -- a continuation of a message that has begun
      rw [if_neg (by simp [hindex])] at hlen
      have htake : (f.payload ++ rest).take f.header.length.toNat = f.payload := by simp [← hlen]
      simp only [hcount, hindex, if_false, Option.map_eq_some_iff] at habsorb
      obtain ⟨fragmentedBuffer, hfound, heq⟩ := habsorb
      by_cases hlast : f.header.fragmentIndex.toNat + 1 = f.header.fragmentCount.toNat
      · simp only [hlast, if_true, Prod.mk.injEq] at heq
        obtain ⟨rfl, rfl⟩ := heq
        simp [hcount, hindex, hfound, hlast, htake, bytes_length, hlen]
      · simp only [hlast, if_false, Prod.mk.injEq] at heq
        obtain ⟨rfl, rfl⟩ := heq
        simp [hcount, hindex, hfound, hlast, htake, bytes_length, hlen]

theorem drain_ready {t' : FragmentTable} {out : List ParsedMessage}
    (hready : f.announced ≤ (f.bytes ++ rest).length) (habsorb : f.absorb t = some (t', out)) :
    DTXMessageParser.dtxReader.drain t (f.bytes ++ rest) =
      (DTXMessageParser.dtxReader.drain t' rest).after out := by
  rw [Reader.drain_take (f.front_ready t rest hready habsorb)]
  simp

end Front

/-- The frames of a list whose effect is known, one after the other. -/
theorem absorbAll_cons_eq_some {t t' : FragmentTable} {f : Frame} {fs : List Frame}
    {out : List ParsedMessage} (h : absorbAll t (f :: fs) = some (t', out)) :
    ∃ t₁ out₁ out₂, f.absorb t = some (t₁, out₁) ∧ absorbAll t₁ fs = some (t', out₂) ∧
      out = out₁ ++ out₂ := by
  simp only [absorbAll, Option.bind_eq_some_iff, Option.map_eq_some_iff] at h
  obtain ⟨⟨t₁, out₁⟩, hf, ⟨t₂, out₂⟩, hfs, heq⟩ := h
  obtain ⟨rfl, rfl⟩ := Prod.mk.inj heq
  exact ⟨t₁, out₁, out₂, hf, hfs, rfl⟩

/-- **Frames are read off the front of a stream**, one after the other. -/
theorem drain_frames {fs : List Frame} {t t' : FragmentTable} {out : List ParsedMessage} {rest : Bytes}
    (hready : Ready rest fs) (habsorb : absorbAll t fs = some (t', out)) :
    DTXMessageParser.dtxReader.drain t (stream fs ++ rest) =
      (DTXMessageParser.dtxReader.drain t' rest).after out := by
  induction fs generalizing t out with
  | nil =>
      obtain ⟨rfl, rfl⟩ : t = t' ∧ [] = out := by simpa [absorbAll] using habsorb
      simp
  | cons f fs ih =>
      obtain ⟨m, out₁, out₂, hf, hfs, rfl⟩ := absorbAll_cons_eq_some habsorb
      obtain ⟨hfirst, hrest⟩ := hready
      rw [stream_cons, List.append_assoc] at hfirst ⊢
      rw [f.drain_ready t _ hfirst hf, ih hrest hfs, Drained.after_after]

/-! ## A stream that is cut -/

/-- The parser waits for the rest of a frame that is cut. -/
theorem front_cut {f : Frame} {rest : Bytes} (t : FragmentTable) (hrest : rest <+: f.bytes)
    (hcut : rest ≠ f.bytes) : DTXMessageParser.dtxReader.front t rest = .wait := by
  obtain ⟨missing, hmissing⟩ := hrest
  have hlen : rest.length < f.bytes.length := by
    rw [← hmissing, List.length_append]
    have hpos : missing ≠ [] := by
      rintro rfl
      exact hcut (by simpa using hmissing)
    exact Nat.lt_add_of_pos_right (List.length_pos_of_ne_nil hpos)
  by_cases h32 : rest.length < 32
  · exact DTXMessageParser.front_short h32
  · -- the header is there, so the parser knows how much is missing
    have hheader : DTXMessageHeader.decode rest = f.header := by
      rw [← DTXMessageHeader.decode_append (Nat.not_lt.mp h32) missing, hmissing]
      simpa using f.decode_bytes []
    refine DTXMessageParser.front_partial hheader h32 (by simp [f.magic]) (by simp [f.headerSize]) ?_
    rw [f.announced_toNat]
    exact Nat.lt_of_lt_of_le hlen f.bytes_length_le

/-- A stream of valid frames, the last one cut, is consumed as a whole exactly if nothing is cut and every
    frame has all the bytes it announces behind it. -/
theorem drain_cut {fs : List Frame} {f : Frame} {t t' : FragmentTable} {out : List ParsedMessage}
    {rest : Bytes} (habsorb : absorbAll t fs = some (t', out)) (hrest : rest <+: f.bytes)
    (hcut : rest ≠ f.bytes) :
    (DTXMessageParser.dtxReader.drain t (stream fs ++ rest)).verdict = .wait ∧
      ((DTXMessageParser.dtxReader.drain t (stream fs ++ rest)).rest = [] ↔ rest = [] ∧ Ready [] fs) := by
  induction fs generalizing t out with
  | nil =>
      rw [stream_nil, List.nil_append, Reader.drain_wait (front_cut t hrest hcut)]
      simp [Ready]
  | cons g fs ih =>
      obtain ⟨m, out₁, out₂, hg, hfs, rfl⟩ := absorbAll_cons_eq_some habsorb
      rw [stream_cons, List.append_assoc]
      by_cases hready : g.announced ≤ (g.bytes ++ (stream fs ++ rest)).length
      · obtain ⟨hverdict, hiff⟩ := ih hfs
        rw [g.drain_ready t _ hready hg, Drained.after_verdict, Drained.after_rest, hiff]
        refine ⟨hverdict, and_congr_right ?_⟩
        rintro rfl
        simpa [Ready] using fun _ => hready
      · -- the parser does not come to the frames behind `g`
        rw [Reader.drain_wait (g.front_waiting t _ (Nat.not_le.mp hready))]
        refine ⟨rfl, ?_, ?_⟩
        · intro hnil
          have := congrArg List.length hnil
          simp [bytes_length] at this
        · rintro ⟨rfl, hfirst, -⟩
          exact absurd (by simpa using hfirst) hready

/-! ## The three kinds of fragments -/

section Kinds
variable {header : DTXMessageHeader} {payload : Bytes} (hmagic : header.magic = kDTXMessageHeaderMagic)
  (hsize : header.messageHeaderSize = kDTXMessageHeaderSize) (hbound : 32 + header.length.toNat < 2 ^ 32)
  (t : FragmentTable) (rest : Bytes)
include hmagic hsize hbound

/-- A fragment that is a whole message. -/
theorem drain_single (hcount : header.fragmentCount = 1) (hlen : payload.length = header.length.toNat) :
    DTXMessageParser.dtxReader.drain t (header.encode ++ payload ++ rest) =
      (DTXMessageParser.dtxReader.drain t rest).after [.setup header payload] := by
  let f : Frame := ⟨header, payload, hmagic, hsize, hbound, by rw [hlen, if_neg (by simp [hcount])]⟩
  refine f.drain_ready t rest ?_ (if_pos hcount)
  rw [f.announced_eq (fun h => h.1 hcount), List.length_append]
  omega

/-- The first of several fragments, with all that it announces behind it. -/
theorem drain_first (hcount : header.fragmentCount ≠ 1) (hindex : header.fragmentIndex = 0)
    (hready : header.length.toNat ≤ rest.length) :
    DTXMessageParser.dtxReader.drain t (header.encode ++ rest) =
      DTXMessageParser.dtxReader.drain (t.insert header.identifier []) rest := by
  let f : Frame := ⟨header, [], hmagic, hsize, hbound, by rw [if_pos ⟨hcount, hindex⟩, List.length_nil]⟩
  have habsorb : f.absorb t = some (t.insert header.identifier [], []) := by
    rw [absorb, if_neg hcount, if_pos hindex]
  have hdrain := f.drain_ready t rest (by
    rw [List.length_append, f.bytes_length]
    show 32 + header.length.toNat ≤ 32 + 0 + rest.length
    omega) habsorb
  rwa [bytes, List.append_nil, Drained.after_nil] at hdrain

/-- The first of several fragments, while bytes that it announces are missing. -/
theorem drain_first_waiting (hcount : header.fragmentCount ≠ 1) (hindex : header.fragmentIndex = 0)
    (hwait : rest.length < header.length.toNat) :
    DTXMessageParser.dtxReader.drain t (header.encode ++ rest) =
      ⟨t, [], header.encode ++ rest, .wait⟩ := by
  let f : Frame := ⟨header, [], hmagic, hsize, hbound, by rw [if_pos ⟨hcount, hindex⟩, List.length_nil]⟩
  have hfront := f.front_waiting t rest (by
    rw [List.length_append, f.bytes_length]
    show 32 + 0 + rest.length < 32 + header.length.toNat
    omega)
  rw [bytes, List.append_nil] at hfront
  exact Reader.drain_wait hfront

/-- A continuation that is not the last one. -/
theorem drain_continuation {fragmentedBuffer : Bytes} (hcount : header.fragmentCount ≠ 1)
    (hindex : header.fragmentIndex ≠ 0) (hlen : payload.length = header.length.toNat)
    (hfound : t header.identifier = some fragmentedBuffer)
    (hlast : header.fragmentIndex.toNat + 1 ≠ header.fragmentCount.toNat) :
    DTXMessageParser.dtxReader.drain t (header.encode ++ payload ++ rest) =
      DTXMessageParser.dtxReader.drain (t.set header.identifier (fragmentedBuffer ++ payload)) rest := by
  let f : Frame := ⟨header, payload, hmagic, hsize, hbound, by rw [hlen, if_neg (by simp [hindex])]⟩
  have habsorb : f.absorb t =
      some (t.set header.identifier (fragmentedBuffer ++ payload), []) := by
    rw [absorb, if_neg hcount, if_neg hindex, hfound, Option.map_some, if_neg hlast]
  have hdrain := f.drain_ready t rest (by
    rw [f.announced_eq (fun h => hindex h.2), List.length_append]
    omega) habsorb
  rwa [Drained.after_nil] at hdrain

/-- The last continuation completes the message. -/
theorem drain_last {fragmentedBuffer : Bytes} (hcount : header.fragmentCount ≠ 1)
    (hindex : header.fragmentIndex ≠ 0) (hlen : payload.length = header.length.toNat)
    (hfound : t header.identifier = some fragmentedBuffer)
    (hlast : header.fragmentIndex.toNat + 1 = header.fragmentCount.toNat) :
    DTXMessageParser.dtxReader.drain t (header.encode ++ payload ++ rest) =
      (DTXMessageParser.dtxReader.drain (t.erase header.identifier) rest).after
        [.setup header (fragmentedBuffer ++ payload)] := by
  let f : Frame := ⟨header, payload, hmagic, hsize, hbound, by rw [hlen, if_neg (by simp [hindex])]⟩
  have habsorb : f.absorb t = some (t.erase header.identifier,
      [.setup header (fragmentedBuffer ++ payload)]) := by
    rw [absorb, if_neg hcount, if_neg hindex, hfound, Option.map_some, if_pos hlast]
  refine f.drain_ready t rest ?_ habsorb
  rw [f.announced_eq (fun h => hindex h.2), List.length_append]
  omega

end Kinds

end Frame
end IDevice
