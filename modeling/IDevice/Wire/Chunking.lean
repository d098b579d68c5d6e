import Mathlib.Data.List.Induction
import IDevice.Lib.Machine
import IDevice.Wire.Frame

/-!
# `Wire.Chunking` — feeding the parser a stream in pieces

A caller of the parser feeds chunks and pops parsed messages, in any order. `ChunkingIndependent` says
that this delivers what one call on the whole stream delivers, and that the parsing buffer always holds
the part of the stream that is not consumed yet.

The code meets it exactly when `NoCallEndsAtRest`: `ParseIncomingBytes` shifts the consumed bytes out of
the buffer only if something is left behind them, so a call that consumes everything leaves a buffer
that the next call reads a second time (`leftover`). For a stream of valid frames
`endsInsideFrame_iff_of_frames` says what that means for the place of the cut.
-/

namespace IDevice

open Stream Machine

/-- What a caller does with the parser. -/
inductive ParserCall where
  | parse (chunk : Bytes)
  | pop
deriving DecidableEq

/-- The bytes a call feeds. -/
def ParserCall.bytes : ParserCall → Bytes
  | .parse chunk => chunk
  | .pop => []

/-- The stream that a list of calls feeds. -/
def fed (calls : List ParserCall) : Bytes := calls.flatMap ParserCall.bytes

/-- The parser, the messages its caller has popped so far, and what its calls of `ParseIncomingBytes` have
    returned. -/
structure ParserRun where
  parser : DTXMessageParser := {}
  delivered : List ParsedMessage := []
  answers : List Bool := []

namespace ParserRun

def step (r : ParserRun) : ParserCall → Option ParserRun
  | .parse chunk =>
    (r.parser.parseIncomingBytes chunk).map fun res =>
      { r with parser := res.2, answers := r.answers ++ [res.1] }
  | .pop =>
    let (messages, parser) := r.parser.popAllParsedMessages
    some { r with parser := parser, delivered := r.delivered ++ messages }

/-- All messages of the run: those popped and those still queued. -/
def messages (r : ParserRun) : List ParsedMessage := r.delivered ++ r.parser.parsedMessageQueue

end ParserRun

/-- Reading a stream from a fresh parser's state. -/
def readStream (stream : Bytes) : Drained FragmentTable UInt8 ParsedMessage :=
  DTXMessageParser.dtxReader.drain FragmentTable.empty stream

/-- The part of the stream that is not consumed once `stream` has arrived. -/
def unconsumed (stream : Bytes) : Bytes := (readStream stream).rest

/-- Chunking independence of the calls of one caller. -/
structure ChunkingIndependent (calls : List ParserCall) : Prop where
  /-- The messages are those of one call on the whole stream, in the same order. -/
  delivers : ∃ whole r, DTXMessageParser.parseIncomingBytes {} (fed calls) = some whole ∧
    exec ParserRun.step {} calls = some r ∧ r.messages = whole.2.parsedMessageQueue
  /-- After each call the parsing buffer is the not yet consumed suffix of the stream. -/
  buffers : ∀ before after, calls = before ++ after →
    ∃ r, exec ParserRun.step {} before = some r ∧ r.parser.parsingBuffer = unconsumed (fed before)

/-- The chunk that arrives after `old` does not end where everything is consumed; if it shows a bad
    header, no frame before that header is consumed in the same call, and no window leaves the buffer. -/
def EndsInsideFrame (old chunk : Bytes) : Prop :=
  match (readStream (old ++ chunk)).verdict with
  | .wait => unconsumed (old ++ chunk) ≠ []
  | .reject => unconsumed (old ++ chunk) = unconsumed old ++ chunk
  | .stuck => False

instance (old chunk : Bytes) : Decidable (EndsInsideFrame old chunk) := by
  unfold EndsInsideFrame
  cases (readStream (old ++ chunk)).verdict <;> infer_instance

/-- No call, the last one included, ends where everything received so far is consumed. -/
def NoCallEndsAtRest (calls : List ParserCall) : Prop :=
  ∀ before chunk after, calls = before ++ .parse chunk :: after → EndsInsideFrame (fed before) chunk

/-! ## The calls of a run, one after the other -/

@[simp] theorem fed_nil : fed [] = [] := rfl

@[simp] theorem fed_append (before after : List ParserCall) :
    fed (before ++ after) = fed before ++ fed after := by simp [fed]

@[simp] theorem fed_parse (chunk : Bytes) : fed [.parse chunk] = chunk := by
  simp [fed, ParserCall.bytes]

@[simp] theorem fed_pop : fed [.pop] = [] := rfl

/-- The run is where the reader of the whole stream is: it has delivered or queued the same messages,
    holds the same partial messages, and its buffer is the unconsumed suffix. -/
structure InStep (stream : Bytes) (r : ParserRun) : Prop where
  buffer : r.parser.parsingBuffer = unconsumed stream
  table : r.parser.fragmentedBuffersByIdentifier = (readStream stream).state
  messages : r.messages = (readStream stream).out
  notStuck : (readStream stream).verdict ≠ .stuck

theorem inStep_init : InStep [] {} := by
  have hwait : readStream [] = ⟨FragmentTable.empty, [], [], .wait⟩ :=
    Reader.drain_wait (DTXMessageParser.front_short (by simp))
  constructor <;> simp [unconsumed, hwait, ParserRun.messages]

/-- What the next chunk makes of a reader that has read `stream`. -/
theorem readStream_append {stream : Bytes} (h : (readStream stream).verdict ≠ .stuck) (chunk : Bytes) :
    readStream (stream ++ chunk) =
      (DTXMessageParser.dtxReader.drain (readStream stream).state
        (unconsumed stream ++ chunk)).after (readStream stream).out :=
  Reader.drain_append _ _ _ h

theorem step_pop {stream : Bytes} {r : ParserRun} (h : InStep stream r) :
    ∃ r', r.step .pop = some r' ∧ InStep stream r' := by
  refine ⟨_, rfl, h.buffer, h.table, ?_, h.notStuck⟩
  simpa [ParserRun.messages, DTXMessageParser.popAllParsedMessages] using h.messages

/-- One call of `ParseIncomingBytes` of a run that is in step: what the buffer is afterwards depends on
    the verdict of the reader of the whole stream. -/
theorem step_parse {stream : Bytes} (chunk : Bytes) {r : ParserRun} (h : InStep stream r) :
    match (readStream (stream ++ chunk)).verdict with
    | .stuck => r.step (.parse chunk) = none
    | verdict => ∃ r', r.step (.parse chunk) = some r' ∧
        r'.parser.fragmentedBuffersByIdentifier = (readStream (stream ++ chunk)).state ∧
        r'.messages = (readStream (stream ++ chunk)).out ∧
        r'.parser.parsingBuffer =
          if verdict = .wait then
            DTXMessageParser.leftover (unconsumed stream ++ chunk) (unconsumed (stream ++ chunk))
          else unconsumed stream ++ chunk := by
  have happ := readStream_append h.notStuck chunk
  generalize hd : DTXMessageParser.dtxReader.drain (readStream stream).state
    (unconsumed stream ++ chunk) = d at happ
  rw [← h.buffer, ← h.table] at hd
  have hcall := DTXMessageParser.parseIncomingBytes_eq hd
  rw [h.buffer] at hcall
  have hmsgs : r.delivered ++ (r.parser.parsedMessageQueue ++ d.out) = (readStream (stream ++ chunk)).out := by
    rw [happ, Drained.after_out, ← h.messages, ParserRun.messages, List.append_assoc]
  have hrest : unconsumed (stream ++ chunk) = d.rest := by
    rw [unconsumed, happ, Drained.after_rest]
  have hstate : d.state = (readStream (stream ++ chunk)).state := by
    rw [happ, Drained.after_state]
  rw [show (readStream (stream ++ chunk)).verdict = d.verdict by rw [happ, Drained.after_verdict], hrest]
  simp only [ParserRun.step, hcall]
  cases hv : d.verdict with
  | stuck => rfl
  | wait => exact ⟨_, rfl, hstate, hmsgs, by simp⟩
  | reject => exact ⟨_, rfl, hstate, hmsgs, by simp⟩

theorem exec_snoc {before : List ParserCall} {c : ParserCall} {r r' : ParserRun}
    (h : exec ParserRun.step {} before = some r) (hc : r.step c = some r') :
    exec ParserRun.step {} (before ++ [c]) = some r' :=
  exec_append_eq_some.mpr ⟨r, h, exec_cons_eq_some.mpr ⟨r', hc, rfl⟩⟩

/-- A call that ends inside a frame keeps the run in step. -/
theorem step_parse_inStep {stream chunk : Bytes} {r : ParserRun} (h : InStep stream r)
    (hends : EndsInsideFrame stream chunk) :
    ∃ r', r.step (.parse chunk) = some r' ∧ InStep (stream ++ chunk) r' := by
  have hstep := step_parse chunk h
  unfold EndsInsideFrame at hends
  cases hv : (readStream (stream ++ chunk)).verdict with
  | stuck => simp [hv] at hends
  | wait =>
      simp only [hv] at hends hstep
      obtain ⟨r', hr', htable, hmsgs, hbuf⟩ := hstep
      refine ⟨r', hr', ?_, htable, hmsgs, by simp [hv]⟩
      simpa [DTXMessageParser.leftover, hends] using hbuf
  | reject =>
      simp only [hv] at hends hstep
      obtain ⟨r', hr', htable, hmsgs, hbuf⟩ := hstep
      refine ⟨r', hr', ?_, htable, hmsgs, by simp [hv]⟩
      rw [hends]
      simpa using hbuf

/-- A nonempty chunk after which the buffer holds the unconsumed suffix ended inside a frame. -/
theorem endsInsideFrame_of_buffer {stream chunk : Bytes} {r r' : ParserRun} (h : InStep stream r)
    (hne : chunk ≠ []) (hr' : r.step (.parse chunk) = some r')
    (hbuf : r'.parser.parsingBuffer = unconsumed (stream ++ chunk)) : EndsInsideFrame stream chunk := by
  have hstep := step_parse chunk h
  unfold EndsInsideFrame
  cases hv : (readStream (stream ++ chunk)).verdict with
  | stuck => simp [hv, hr'] at hstep
  | wait =>
      simp only [hv] at hstep ⊢
      obtain ⟨r'', hr'', -, -, hbuf'⟩ := hstep
      obtain rfl := Option.some.inj (hr'.symm.trans hr'')
      intro hrest
      simp [hbuf, hrest, DTXMessageParser.leftover, hne] at hbuf'
  | reject =>
      simp only [hv] at hstep ⊢
      obtain ⟨r'', hr'', -, -, hbuf'⟩ := hstep
      obtain rfl := Option.some.inj (hr'.symm.trans hr'')
      simpa [hbuf] using hbuf'

/-! ## Whole runs -/

/-- Runs whose calls all end inside a frame stay in step with the reader. -/
theorem exec_inStep (calls : List ParserCall)
    (h : NoCallEndsAtRest calls) : ∃ r, exec ParserRun.step {} calls = some r ∧ InStep (fed calls) r := by
  induction calls using List.reverseRecOn with
  | nil => exact ⟨{}, rfl, inStep_init⟩
  | append_singleton before c ih =>
      obtain ⟨r, hr, hin⟩ := ih fun b chunk a heq =>
        h b chunk (a ++ [c]) (by simp [heq])
      cases c with
      | pop =>
          obtain ⟨r', hr', hin'⟩ := step_pop hin
          exact ⟨r', exec_snoc hr hr', by simpa using hin'⟩
      | parse chunk =>
          obtain ⟨r', hr', hin'⟩ := step_parse_inStep hin (h before chunk [] rfl)
          exact ⟨r', exec_snoc hr hr', by simpa using hin'⟩

/-- The messages of one call on the whole stream. -/
theorem parseIncomingBytes_fresh {stream : Bytes} (h : (readStream stream).verdict ≠ .stuck) :
    ∃ whole, DTXMessageParser.parseIncomingBytes {} stream = some whole ∧
      whole.2.parsedMessageQueue = (readStream stream).out := by
  have hstep := step_parse stream inStep_init
  simp only [List.nil_append] at hstep
  have hrun : ∃ r', ParserRun.step {} (.parse stream) = some r' ∧
      r'.messages = (readStream stream).out := by
    cases hv : (readStream stream).verdict with
    | stuck => exact absurd hv h
    | wait =>
        simp only [hv] at hstep
        obtain ⟨r', hr', -, hmsgs, -⟩ := hstep
        exact ⟨r', hr', hmsgs⟩
    | reject =>
        simp only [hv] at hstep
        obtain ⟨r', hr', -, hmsgs, -⟩ := hstep
        exact ⟨r', hr', hmsgs⟩
  obtain ⟨r', hr', hmsgs⟩ := hrun
  obtain ⟨whole, hwhole, rfl⟩ := Option.map_eq_some_iff.mp hr'
  exact ⟨whole, hwhole, by simpa [ParserRun.messages] using hmsgs⟩

/-- Where the buffer is the unconsumed suffix after each call, each call ended inside a frame. -/
theorem noCallEndsAtRest_of_buffers (calls : List ParserCall)
    (hne : ∀ chunk, .parse chunk ∈ calls → chunk ≠ [])
    (hbuf : ∀ before after, calls = before ++ after →
      ∃ r, exec ParserRun.step {} before = some r ∧
        r.parser.parsingBuffer = unconsumed (fed before)) : NoCallEndsAtRest calls := by
  induction calls using List.reverseRecOn with
  | nil =>
      intro before chunk after heq
      simp at heq
  | append_singleton earlier c ih =>
      have hearlier : NoCallEndsAtRest earlier :=
        ih (fun chunk hmem => hne chunk (by simp [hmem]))
          fun before after heq => hbuf before (after ++ [c]) (by simp [heq])
      intro before chunk after heq
      rcases List.eq_nil_or_concat after with rfl | ⟨after', c', rfl⟩
      · -- the last call of the list
        obtain ⟨rfl, hc⟩ := List.append_inj' heq rfl
        obtain rfl : c = .parse chunk := by simpa using hc
        obtain ⟨r, hr, hin⟩ := exec_inStep earlier hearlier
        obtain ⟨r', hr', hbuf'⟩ := hbuf (earlier ++ [.parse chunk]) [] (by simp)
        obtain ⟨m, hm, hlast⟩ := exec_append_eq_some.mp hr'
        obtain rfl := Option.some.inj (hr.symm.trans hm)
        obtain ⟨n, hn, hnil⟩ := exec_cons_eq_some.mp hlast
        obtain rfl := Option.some.inj hnil
        exact endsInsideFrame_of_buffer hin (hne chunk (by simp)) hn (by simpa using hbuf')
      · have heq' : earlier ++ [c] = (before ++ .parse chunk :: after') ++ [c'] := by
          simpa using heq
        exact hearlier before chunk after' (List.append_inj' heq' rfl).1

/-- **Chunking independence holds exactly when no call ends with everything consumed.** -/
theorem chunkingIndependent_iff (calls : List ParserCall)
    (hne : ∀ chunk, .parse chunk ∈ calls → chunk ≠ []) :
    ChunkingIndependent calls ↔ NoCallEndsAtRest calls := by
  constructor
  · intro h
    exact noCallEndsAtRest_of_buffers calls hne h.buffers
  · -- the run stays in step, and one call on the whole stream gives what the reader gives
    intro h
    obtain ⟨r, hr, hin⟩ := exec_inStep calls h
    obtain ⟨whole, hwhole, hqueue⟩ := parseIncomingBytes_fresh hin.notStuck
    refine ⟨⟨whole, r, hwhole, hr, hin.messages.trans hqueue.symm⟩, ?_⟩
    intro before after heq
    obtain ⟨r', hr', hin'⟩ := exec_inStep before fun b chunk a hb =>
      h b chunk (a ++ after) (by simp [heq, hb])
    exact ⟨r', hr', hin'.buffer⟩

/-- In a stream of valid frames, the last one cut, a chunk ends where everything is consumed exactly if it
    ends behind a frame, and every first fragment has all the bytes it announces. -/
theorem endsInsideFrame_iff_of_frames {old chunk rest : Bytes} {fs : List Frame} {f : Frame}
    {t : FragmentTable} {out : List ParsedMessage}
    (habsorb : Frame.absorbAll FragmentTable.empty fs = some (t, out)) (hrest : rest <+: f.bytes)
    (hcut : rest ≠ f.bytes) (hstream : old ++ chunk = Frame.stream fs ++ rest) :
    EndsInsideFrame old chunk ↔ ¬ (rest = [] ∧ Frame.Ready [] fs) := by
  obtain ⟨hverdict, hiff⟩ := Frame.drain_cut habsorb hrest hcut
  unfold EndsInsideFrame unconsumed readStream
  rw [hstream, hverdict]
  exact not_congr hiff

/-- The frame of a message without auxiliary and payload. -/
def emptyMessageFrame (identifier : UInt32) : Bytes :=
  DTXMessageHeader.encode ⟨kDTXMessageHeaderMagic, kDTXMessageHeaderSize, 0, 1, 16, identifier, 0, 0, 0⟩ ++
    List.replicate 16 0

/-- A cut inside the header and one behind the frame. -/
theorem chunkingIndependent_iff_header_cut :
    let calls := [.parse ((emptyMessageFrame 1).take 20), .pop,
      .parse ((emptyMessageFrame 1).drop 20 ++ [0x79])]
    ChunkingIndependent calls ↔ NoCallEndsAtRest calls :=
  chunkingIndependent_iff _ (by
    simp only [List.mem_cons, ParserCall.parse.injEq, reduceCtorEq, List.not_mem_nil, or_false,
      false_or]
    rintro chunk (rfl | rfl) <;> decide)

/-- Two complete frames, one in each call: the second call parses the first frame again. -/
theorem not_chunkingIndependent_frame_cut :
    ¬ ChunkingIndependent [.parse (emptyMessageFrame 1), .parse (emptyMessageFrame 2)] := by
  intro h
  obtain ⟨whole, r, hwhole, hr, hmsgs⟩ := h.delivers
  have hfirst : (DTXMessageParser.parseIncomingBytes {}
      (fed [.parse (emptyMessageFrame 1), .parse (emptyMessageFrame 2)])).map
        (fun w => w.2.parsedMessageQueue.map (·.identifier)) = some [1, 2] := by decide +kernel
  have htwice : (exec ParserRun.step {} [.parse (emptyMessageFrame 1), .parse (emptyMessageFrame 2)]).map
      (fun r => r.messages.map (·.identifier)) = some [1, 1, 2] := by decide +kernel
  rw [hwhole, Option.map_some, ← hmsgs] at hfirst
  rw [hr, Option.map_some, hfirst] at htwice
  exact absurd htwice (by decide)

end IDevice
