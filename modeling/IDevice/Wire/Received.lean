import IDevice.Lib.Segments
import IDevice.Wire.Chunking

/-!
# `Wire.Received` — what has been read when only the beginning of a stream is there

Two facts about a parser that has received some of a stream. What it has delivered is the beginning of what the
whole stream reads as, and for a stream of messages in one fragment each, it is the messages whose fragments have
arrived. A caller that passes non-empty chunks may end where everything is consumed in its last call
(`OnlyEndsAtRest`): the bytes that the parser then keeps do no harm before the next one.
-/

namespace IDevice

open Machine Stream

/-! ## Chunks that do not end where a frame does -/

/-- What a beginning of a stream reads as. -/
theorem readStream_out_isPrefix {received stream : Bytes} (h : received <+: stream)
    (hnotStuck : (readStream received).verdict ≠ .stuck) : (readStream received).out <+: (readStream stream).out := by
  obtain ⟨later, rfl⟩ := h
  rw [readStream_append hnotStuck, Drained.after_out]
  exact List.prefix_append _ _

/-- No call ends where everything received is consumed while more bytes follow. -/
def OnlyEndsAtRest (calls : List ParserCall) : Prop :=
  ∀ before chunk after, calls = before ++ .parse chunk :: after → fed after ≠ [] → EndsInsideFrame (fed before) chunk

/-- What such calls have delivered or queued is what the whole stream reads as. -/
theorem exec_messages {calls : List ParserCall} (hne : ∀ chunk, .parse chunk ∈ calls → chunk ≠ [])
    (hrest : OnlyEndsAtRest calls) (hnotStuck : (readStream (fed calls)).verdict ≠ .stuck) :
    ∃ r, exec ParserRun.step {} calls = some r ∧ r.messages = (readStream (fed calls)).out := by
  induction calls using List.reverseRecOn with
  | nil => exact ⟨{}, rfl, inStep_init.messages⟩
  | append_singleton before c ih =>
      cases c with
      | pop =>
          have hfed : fed (before ++ [.pop]) = fed before := by rw [fed_append, fed_pop, List.append_nil]
          rw [hfed] at hnotStuck ⊢
          obtain ⟨r, hr, hmessages⟩ := ih (fun chunk hmem => hne chunk (List.mem_append_left _ hmem))
            (fun b chunk a heq hfollow => by
              refine hrest b chunk (a ++ [.pop]) (by rw [heq, List.append_assoc, List.cons_append]) ?_
              rwa [fed_append, fed_pop, List.append_nil]) hnotStuck
          refine ⟨_, exec_snoc hr rfl, ?_⟩
          rw [← hmessages]
          simp [ParserRun.messages]
      | parse chunk =>
          -- bytes follow all the calls before, so they keep the run in step
          have hchunk := hne chunk (List.mem_append_right _ List.mem_cons_self)
          obtain ⟨r, hr, hin⟩ := exec_inStep before fun b chunk' a heq => by
            refine hrest b chunk' (a ++ [.parse chunk]) (by rw [heq, List.append_assoc, List.cons_append]) ?_
            rw [fed_append, fed_parse]
            exact List.append_ne_nil_of_right_ne_nil _ hchunk
          have hstep := step_parse chunk hin
          rw [fed_append, fed_parse] at hnotStuck ⊢
          cases hv : (readStream (fed before ++ chunk)).verdict with
          | stuck => exact absurd hv hnotStuck
          | wait =>
              rw [hv] at hstep
              obtain ⟨r', hr', -, hmessages, -⟩ := hstep
              exact ⟨r', exec_snoc hr hr', hmessages⟩
          | reject =>
              rw [hv] at hstep
              obtain ⟨r', hr', -, hmessages, -⟩ := hstep
              exact ⟨r', exec_snoc hr hr', hmessages⟩

/-! ## A stream of whole messages -/

namespace Frame

variable {fs : List Frame}

/-- The message that a fragment is on its own. -/
def message (f : Frame) : ParsedMessage := .setup f.header f.payload

theorem absorbAll_single (t : FragmentTable) (hone : ∀ f ∈ fs, f.header.fragmentCount = 1) :
    absorbAll t fs = some (t, fs.map message) := by
  induction fs with
  | nil => rfl
  | cons f fs ih =>
      have hf : f.absorb t = some (t, [f.message]) := if_pos (hone f List.mem_cons_self)
      have hfs := ih fun g hg => hone g (List.mem_cons_of_mem f hg)
      rw [absorbAll, hf, Option.bind_some, hfs, Option.map_some]
      rfl

theorem ready_single (rest : Bytes) (hone : ∀ f ∈ fs, f.header.fragmentCount = 1) : Ready rest fs := by
  induction fs with
  | nil => trivial
  | cons f fs ih =>
      refine ⟨?_, ih fun g hg => hone g (List.mem_cons_of_mem f hg)⟩
      rw [f.announced_eq fun h => h.1 (hone f List.mem_cons_self), stream_cons, List.append_assoc,
        List.length_append]
      exact Nat.le_add_right _ _

/-- **The beginning of a stream of whole messages** reads as the messages that are wholly in it. -/
theorem readStream_isPrefix (hone : ∀ f ∈ fs, f.header.fragmentCount = 1) {received : Bytes}
    (hreceived : received <+: stream fs) :
    ∃ k, Segments.WholePieces (fs.map bytes) received k ∧
      (readStream received).out = (fs.take k).map message ∧ (readStream received).verdict = .wait := by
  rw [stream, List.flatMap_def] at hreceived
  obtain ⟨k, rest, hk, rfl, hrest⟩ := Segments.exists_take_of_isPrefix_flatten hreceived
  refine ⟨k, Segments.wholePieces_take_append hk hrest, ?_⟩
  have hfirst : ∀ f ∈ fs.take k, f.header.fragmentCount = 1 := fun f hf => hone f (List.mem_of_mem_take hf)
  -- what is behind the whole frames is too short to be one
  have hwait : DTXMessageParser.dtxReader.front FragmentTable.empty rest = .wait := by
    rcases hrest with ⟨rfl, -⟩ | ⟨bytes, hbytes, hpart, hne⟩
    · exact DTXMessageParser.front_short (by simp)
    · rw [List.getElem?_map, Option.map_eq_some_iff] at hbytes
      obtain ⟨f, -, rfl⟩ := hbytes
      exact front_cut _ hpart hne
  have hread : readStream (stream (fs.take k) ++ rest) =
      ⟨FragmentTable.empty, (fs.take k).map message, rest, .wait⟩ := by
    rw [readStream, drain_frames (ready_single rest hfirst) (absorbAll_single _ hfirst), Reader.drain_wait hwait,
      Drained.after, List.append_nil]
  rw [stream, List.flatMap_def, List.map_take] at hread
  rw [hread]
  exact ⟨rfl, rfl⟩

end Frame

end IDevice
