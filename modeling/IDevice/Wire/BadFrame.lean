import IDevice.Wire.Chunking

/-!
# `Wire.BadFrame` — valid frames and a bad one behind them

The streams here are valid frames followed by a header with a bad magic or size. `readStream_received`
says where the reader is once some of the stream has been received: it has taken a list of the frames, and
it waits, unless the bad header is complete and there is no frame in front of it.

A call that meets the bad header returns false and shifts nothing, so the frames it has read stay in the
parsing buffer. `Spent` is what keeps a later call from reading a message out of them a second time: none
of them completes one.
-/

namespace IDevice

open Stream

namespace Frame

theorem stream_append (fs gs : List Frame) : stream (fs ++ gs) = stream fs ++ stream gs :=
  List.flatMap_append

theorem Ready.mono {rest more : Bytes} {fs : List Frame} (h : Ready rest fs) :
    Ready (rest ++ more) fs := by
  induction fs with
  | nil => trivial
  | cons f fs ih =>
      refine ⟨?_, ih h.2⟩
      have hfirst := h.1
      simp only [List.length_append] at hfirst ⊢
      omega

theorem ready_append {rest : Bytes} {fs gs : List Frame} :
    Ready rest (fs ++ gs) ↔ Ready (stream gs ++ rest) fs ∧ Ready rest gs := by
  induction fs with
  | nil => simp [Ready]
  | cons f fs ih =>
      simp only [List.cons_append, Ready, ih, stream_cons, stream_append, List.append_assoc, and_assoc]

/-! ## Frames that complete no message -/

/-- Every message that has begun in `t` has begun in `u`. -/
def Begun (t u : FragmentTable) : Prop := ∀ identifier, t identifier ≠ none → u identifier ≠ none

theorem insert_ne_none {t : FragmentTable} {identifier key : UInt32} {buffer : Bytes} :
    t.insert identifier buffer key ≠ none ↔ key = identifier ∨ t key ≠ none := by
  rw [FragmentTable.insert]
  cases hfound : t identifier with
  | none => by_cases hkey : key = identifier <;> simp [hkey]
  | some _ =>
      refine ⟨.inr, ?_⟩
      rintro (rfl | h)
      · simp [hfound]
      · exact h

theorem set_ne_none {t : FragmentTable} {identifier key : UInt32} {buffer : Bytes} :
    t.set identifier buffer key ≠ none ↔ key = identifier ∨ t key ≠ none := by
  by_cases hkey : key = identifier <;> simp [FragmentTable.set, hkey]

/-- A frame that completes no message does not end one either, and has the same kind of effect where more
    messages have begun. -/
theorem absorb_of_begun {t t' u : FragmentTable} {f : Frame} (h : f.absorb t = some (t', []))
    (hbegun : Begun t u) :
    Begun t t' ∧ ∃ u', f.absorb u = some (u', []) ∧ Begun t' u' := by
  unfold absorb at h ⊢
  by_cases hcount : f.header.fragmentCount = 1
  · simp [hcount] at h
  rw [if_neg hcount] at h ⊢
  by_cases hindex : f.header.fragmentIndex = 0
  · -- a first fragment
    rw [if_pos hindex] at h ⊢
    obtain ⟨rfl, -⟩ := Prod.mk.inj (Option.some.inj h)
    refine ⟨fun key hkey => insert_ne_none.mpr (.inr hkey), _, rfl, fun key hkey => ?_⟩
    exact insert_ne_none.mpr ((insert_ne_none.mp hkey).imp_right (hbegun key))
  · -- a continuation that is not the last one
    rw [if_neg hindex] at h ⊢
    obtain ⟨buffer, hfound, heq⟩ := Option.map_eq_some_iff.mp h
    obtain ⟨buffer', hfound'⟩ := Option.ne_none_iff_exists'.mp
      (hbegun _ (Option.ne_none_iff_exists'.mpr ⟨buffer, hfound⟩))
    split at heq
    · cases heq
    · next hlast =>
      obtain ⟨rfl, -⟩ := Prod.mk.inj heq
      rw [hfound', Option.map_some, if_neg hlast]
      refine ⟨fun key hkey => set_ne_none.mpr (.inr hkey), _, rfl, fun key hkey => ?_⟩
      exact set_ne_none.mpr ((set_ne_none.mp hkey).imp_right (hbegun key))

theorem absorbAll_of_begun {t t' u : FragmentTable} {fs : List Frame}
    (h : absorbAll t fs = some (t', [])) (hbegun : Begun t u) :
    Begun t t' ∧ ∃ u', absorbAll u fs = some (u', []) := by
  induction fs generalizing t u with
  | nil =>
      obtain ⟨rfl, -⟩ := Prod.mk.inj (Option.some.inj h)
      exact ⟨fun _ hkey => hkey, u, rfl⟩
  | cons f fs ih =>
      obtain ⟨t₁, out₁, out₂, hf, hfs, hout⟩ := absorbAll_cons_eq_some h
      obtain ⟨rfl, rfl⟩ := List.append_eq_nil_iff.mp hout.symm
      obtain ⟨hkept, u₁, hf', hbegun'⟩ := absorb_of_begun hf hbegun
      obtain ⟨hkept', u₂, hfs'⟩ := ih hfs hbegun'
      refine ⟨fun key hkey => hkept' key (hkept key hkey), u₂, ?_⟩
      rw [absorbAll, hf', Option.bind_some, hfs']
      rfl

/-- Frames that complete no message complete none when they are read again. -/
theorem absorbAll_again {t t' : FragmentTable} {fs : List Frame} (h : absorbAll t fs = some (t', [])) :
    ∃ t'', absorbAll t' fs = some (t'', []) :=
  (absorbAll_of_begun h (absorbAll_of_begun h fun _ hkey => hkey).1).2

end Frame

/-- A frame whose header has a bad magic or header size. -/
structure BadFrame where
  bytes : Bytes
  complete : 32 ≤ bytes.length
  bad : (DTXMessageHeader.decode bytes).magic ≠ kDTXMessageHeaderMagic ∨
    (DTXMessageHeader.decode bytes).messageHeaderSize ≠ kDTXMessageHeaderSize

namespace BadFrame

variable (bad : BadFrame)

/-- The parser rejects the frame as soon as its header is there. -/
theorem front_reject (t : FragmentTable) {rest : Bytes} (hrest : rest <+: bad.bytes)
    (h32 : 32 ≤ rest.length) : DTXMessageParser.dtxReader.front t rest = .reject := by
  obtain ⟨missing, hmissing⟩ := hrest
  have hheader : DTXMessageHeader.decode rest = DTXMessageHeader.decode bad.bytes := by
    rw [← hmissing, DTXMessageHeader.decode_append h32]
  have hbad := bad.bad
  rw [← hheader] at hbad
  by_cases hmagic : (DTXMessageHeader.decode rest).magic ≠ kDTXMessageHeaderMagic
  · exact DTXMessageParser.front_badMagic (not_lt.mpr h32) hmagic
  · exact DTXMessageParser.front_badSize (not_lt.mpr h32) hmagic (hbad.resolve_left hmagic)

/-- Why the reader stops behind the frames it has taken, with `rest` to read. -/
def verdict (later : List Frame) (rest : Bytes) : Verdict :=
  if later = [] ∧ 32 ≤ rest.length then .reject else .wait

/-- **Where the reader is** in the part of the stream that has been received: it has taken the frames in
    `taken`, has `rest` in front of it, and rejects if that is the bad header. -/
theorem drain_received {fs : List Frame} {t t' : FragmentTable} {out : List ParsedMessage}
    {received : Bytes} (habsorb : Frame.absorbAll t fs = some (t', out))
    (hreceived : received <+: Frame.stream fs ++ bad.bytes) :
    ∃ taken later rest t₁ out₁ out₂, fs = taken ++ later ∧ received = Frame.stream taken ++ rest ∧
      Frame.Ready rest taken ∧ Frame.absorbAll t taken = some (t₁, out₁) ∧
      Frame.absorbAll t₁ later = some (t', out₂) ∧ out = out₁ ++ out₂ ∧
      DTXMessageParser.dtxReader.drain t received = ⟨t₁, out₁, rest, verdict later rest⟩ := by
  induction fs generalizing t out received with
  | nil =>
      obtain ⟨rfl, rfl⟩ : t = t' ∧ [] = out := by simpa [Frame.absorbAll] using habsorb
      rw [Frame.stream_nil, List.nil_append] at hreceived
      refine ⟨[], [], received, t, [], [], rfl, rfl, trivial, rfl, rfl, rfl, ?_⟩
      -- only the bad frame is left: it is rejected once its header is complete
      by_cases h32 : 32 ≤ received.length
      · rw [Reader.drain_reject (bad.front_reject t hreceived h32), verdict, if_pos ⟨rfl, h32⟩]
      · rw [Reader.drain_wait (DTXMessageParser.front_short (not_le.mp h32)), verdict,
          if_neg fun h => h32 h.2]
  | cons f fs ih =>
      obtain ⟨t₁, out₁, out₂, hf, hfs, rfl⟩ := Frame.absorbAll_cons_eq_some habsorb
      rw [Frame.stream_cons, List.append_assoc] at hreceived
      by_cases hready : f.bytes <+: received ∧ f.announced ≤ received.length
      · -- the frame is there, with all that it announces
        obtain ⟨⟨more, rfl⟩, hready⟩ := hready
        obtain ⟨taken, later, rest, t₂, out₃, out₄, rfl, rfl, htaken, habs, hlater, rfl, hdrain⟩ :=
          ih hfs ((List.prefix_append_right_inj _).mp hreceived)
        refine ⟨f :: taken, later, rest, t₂, out₁ ++ out₃, out₄, rfl, ?_, ⟨?_, htaken⟩, ?_, hlater,
          ?_, ?_⟩
        · rw [Frame.stream_cons, List.append_assoc]
        · rwa [Frame.stream_cons, List.append_assoc]
        · rw [Frame.absorbAll, hf, Option.bind_some, habs]
          rfl
        · rw [List.append_assoc]
        · rw [f.drain_ready t _ hready hf, hdrain]
          rfl
      · -- the parser waits for the rest of the frame, or for the bytes it announces
        refine ⟨[], f :: fs, received, t, [], out₁ ++ out₂, rfl, rfl, trivial, rfl, habsorb, rfl, ?_⟩
        rw [verdict, if_neg fun h => List.cons_ne_nil _ _ h.1]
        apply Reader.drain_wait
        rcases List.prefix_or_prefix_of_prefix hreceived (List.prefix_append _ _) with hcut | hwhole
        · by_cases heq : received = f.bytes
          · subst heq
            have hlt : ¬ f.announced ≤ f.bytes.length := fun h => hready ⟨List.prefix_refl _, h⟩
            have hwait := f.front_waiting t [] (by simpa using hlt)
            rwa [List.append_nil] at hwait
          · exact Frame.front_cut t hcut heq
        · obtain ⟨more, rfl⟩ := hwhole
          exact f.front_waiting t more (not_le.mp fun h => hready ⟨List.prefix_append _ _, h⟩)

end BadFrame

/-! ## A stream that ends with a bad frame -/

/-- Valid frames, which complete the messages in `out`, and a bad one behind them. -/
structure CorruptStream where
  frames : List Frame
  table : FragmentTable
  out : List ParsedMessage
  valid : Frame.absorbAll FragmentTable.empty frames = some (table, out)
  bad : BadFrame

namespace CorruptStream

variable (s : CorruptStream)

def bytes : Bytes := Frame.stream s.frames ++ s.bad.bytes

/-- The frames that complete the messages have been received, and behind every first fragment among the
    frames the bytes that it announces. -/
def Completed (received : Bytes) : Prop :=
  ∃ taken later rest t, s.frames = taken ++ later ∧ received = Frame.stream taken ++ rest ∧
    Frame.Ready rest taken ∧ Frame.absorbAll FragmentTable.empty taken = some (t, s.out)

/-- The bad header has been received, and behind every first fragment the bytes that it announces. -/
def Met (received : Bytes) : Prop :=
  ∃ rest, received = Frame.stream s.frames ++ rest ∧ Frame.Ready rest s.frames ∧ 32 ≤ rest.length

/-- What has been received ends behind a frame, and no first fragment waits for more. -/
def AtRest (received : Bytes) : Prop :=
  ∃ taken later, s.frames = taken ++ later ∧ received = Frame.stream taken ∧ Frame.Ready [] taken

variable {s} {received : Bytes}

theorem Completed.mono (h : s.Completed received) (more : Bytes) : s.Completed (received ++ more) := by
  obtain ⟨taken, later, rest, t, hframes, rfl, hready, habsorb⟩ := h
  exact ⟨taken, later, rest ++ more, t, hframes, List.append_assoc _ _ _, hready.mono, habsorb⟩

theorem Met.mono (h : s.Met received) (more : Bytes) : s.Met (received ++ more) := by
  obtain ⟨rest, rfl, hready, h32⟩ := h
  refine ⟨rest ++ more, List.append_assoc _ _ _, hready.mono, ?_⟩
  rw [List.length_append]
  omega

/-- What is at rest ends in front of the bad frame. -/
theorem AtRest.length_le (h : s.AtRest received) : received.length ≤ (Frame.stream s.frames).length := by
  obtain ⟨taken, later, hframes, rfl, -⟩ := h
  rw [hframes, Frame.stream_append, List.length_append]
  exact Nat.le_add_right _ _

theorem readStream_not_stuck (hreceived : received <+: s.bytes) :
    (readStream received).verdict ≠ .stuck := by
  obtain ⟨taken, later, rest, t₁, out₁, out₂, -, -, -, -, -, -, hdrain⟩ :=
    s.bad.drain_received s.valid hreceived
  unfold readStream
  rw [hdrain]
  show BadFrame.verdict later rest ≠ .stuck
  unfold BadFrame.verdict
  split <;> simp

/-- The reader has met the bad header exactly when it rejects. -/
theorem met_iff (hreceived : received <+: s.bytes) :
    s.Met received ↔ (readStream received).verdict = .reject := by
  constructor
  · rintro ⟨rest, rfl, hready, h32⟩
    have hrest : rest <+: s.bad.bytes := (List.prefix_append_right_inj _).mp hreceived
    unfold readStream
    rw [Frame.drain_frames hready s.valid, Reader.drain_reject (s.bad.front_reject _ hrest h32)]
    rfl
  · obtain ⟨taken, later, rest, t₁, out₁, out₂, hframes, hsplit, hready, -, -, -, hdrain⟩ :=
      s.bad.drain_received s.valid hreceived
    unfold readStream
    rw [hdrain]
    intro hreject
    obtain ⟨rfl, h32⟩ : later = [] ∧ 32 ≤ rest.length := by
      by_contra hwait
      exact absurd ((if_neg hwait).symm.trans hreject) (by simp)
    rw [List.append_nil] at hframes
    subst hframes
    exact ⟨rest, hsplit, hready, h32⟩

/-- The reader has delivered all messages exactly when they are complete. -/
theorem completed_iff (hreceived : received <+: s.bytes) :
    s.Completed received ↔ (readStream received).out = s.out := by
  obtain ⟨taken, later, rest, t₁, out₁, out₂, hframes, hsplit, hready, habsorb, -, hout, hdrain⟩ :=
    s.bad.drain_received s.valid hreceived
  constructor
  · rintro ⟨taken', later', rest', t, -, rfl, hready', habsorb'⟩
    have hread := Frame.drain_frames hready' habsorb'
    have hlen := congrArg (fun d => d.out.length) (hread.symm.trans hdrain)
    simp only [Drained.after_out, List.length_append] at hlen
    have hnil : out₂ = [] := by
      rw [hout, List.length_append] at hlen
      exact List.length_eq_zero_iff.mp (by omega)
    unfold readStream
    rw [hdrain, hout, hnil, List.append_nil]
  · intro heq
    have hall : out₁ = s.out := by
      rw [← heq, readStream, hdrain]
    exact ⟨taken, later, rest, t₁, hframes, hsplit, hready, hall ▸ habsorb⟩

/-- The reader keeps something unless what has been received is at rest. -/
theorem unconsumed_ne_nil (hreceived : received <+: s.bytes) (hrest : ¬ s.AtRest received) :
    unconsumed received ≠ [] := by
  obtain ⟨taken, later, rest, t₁, out₁, out₂, hframes, hsplit, hready, -, -, -, hdrain⟩ :=
    s.bad.drain_received s.valid hreceived
  unfold unconsumed readStream
  rw [hdrain]
  rintro rfl
  exact hrest ⟨taken, later, hframes, by rwa [List.append_nil] at hsplit, hready⟩

end CorruptStream

/-! ## After the call that meets the bad header -/

/-- The parsing buffer of a parser that has met a bad header: the frames in front of the header complete
    no message. -/
def Spent (p : DTXMessageParser) : Prop :=
  ∃ fs rest t, p.parsingBuffer = Frame.stream fs ++ rest ∧ Frame.Ready rest fs ∧
    (∀ t, DTXMessageParser.dtxReader.front t rest = .reject) ∧
    Frame.absorbAll t fs = some (p.fragmentedBuffersByIdentifier, [])

/-- **A message that was complete before the bad header came is not read again.** -/
theorem CorruptStream.spent {s : CorruptStream} {received packet : Bytes} {p : DTXMessageParser}
    (hreceived : received ++ packet <+: s.bytes) (hcompleted : s.Completed received)
    (hmet : s.Met (received ++ packet)) (hbuffer : p.parsingBuffer = unconsumed received ++ packet)
    (htable : p.fragmentedBuffersByIdentifier = (readStream (received ++ packet)).state) : Spent p := by
  have hbefore : received <+: s.bytes := (List.prefix_append _ _).trans hreceived
  obtain ⟨taken, later, rest₁, t₁, out₁, out₂, hframes, rfl, -, -, hlater, hout, hdrain⟩ :=
    s.bad.drain_received s.valid hbefore
  obtain ⟨rest, hsplit, hready, h32⟩ := hmet
  have hread := (completed_iff hbefore).mp hcompleted
  rw [readStream, hdrain] at hread
  -- nothing is completed by the frames that the last call read
  obtain rfl : out₂ = [] := by
    rw [← show out₁ = s.out from hread] at hout
    exact List.self_eq_append_right.mp hout
  have hrest : rest <+: s.bad.bytes := by
    rw [hsplit] at hreceived
    exact (List.prefix_append_right_inj _).mp hreceived
  have hwindow : rest₁ ++ packet = Frame.stream later ++ rest := by
    rw [hframes, Frame.stream_append, List.append_assoc, List.append_assoc] at hsplit
    exact List.append_cancel_left hsplit
  have hstate : (readStream (Frame.stream taken ++ rest₁ ++ packet)).state = s.table := by
    rw [hsplit, readStream, Frame.drain_frames hready s.valid,
      Reader.drain_reject (s.bad.front_reject _ hrest h32)]
    rfl
  rw [hframes] at hready
  refine ⟨later, rest, t₁, ?_, (Frame.ready_append.mp hready).2,
    fun t => s.bad.front_reject t hrest h32, ?_⟩
  · rw [hbuffer, unconsumed, readStream, hdrain, ← hwindow]
  · rwa [htable, hstate]

/-- A later call enqueues nothing. -/
theorem Spent.parseIncomingBytes {p : DTXMessageParser} (h : Spent p) (chunk : Bytes) :
    ∃ q, p.parseIncomingBytes chunk = some (false, q) ∧
      q.parsedMessageQueue = p.parsedMessageQueue ∧ Spent q := by
  obtain ⟨fs, rest, t, hbuffer, hready, hreject, habsorb⟩ := h
  obtain ⟨t', hagain⟩ := Frame.absorbAll_again habsorb
  have hreject' (t : FragmentTable) : DTXMessageParser.dtxReader.front t (rest ++ chunk) = .reject :=
    DTXMessageParser.dtxReader.reject_append chunk (hreject t)
  have hdrain : DTXMessageParser.dtxReader.drain p.fragmentedBuffersByIdentifier
      (p.parsingBuffer ++ chunk) = ⟨t', [], rest ++ chunk, .reject⟩ := by
    rw [hbuffer, List.append_assoc, Frame.drain_frames hready.mono hagain,
      Reader.drain_reject (hreject' t'), Drained.after_nil]
  refine ⟨_, DTXMessageParser.parseIncomingBytes_eq hdrain, ?_, fs, rest ++ chunk,
    p.fragmentedBuffersByIdentifier, ?_, hready.mono, hreject', hagain⟩
  · exact List.append_nil _
  · show p.parsingBuffer ++ chunk = _
    rw [hbuffer, List.append_assoc]

end IDevice
