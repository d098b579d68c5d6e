import Mathlib.Data.List.Induction
import IDevice.Lib.Segments
import IDevice.Transport.Buffered

/-!
# `Transport.Refines` — writing through the buffer is writing

A user of `BufferedDTXTransport` writes and flushes. Written directly, its data would reach the transport in
the order in which it is given. `RefinesDirect` says that the buffer changes nothing about that: what the
transport has accepted and what is buffered are together the data given so far.

A call keeps that (`call_written_iff`) because `split` loses no bytes, and so does a run (`run_written`).
What does lose bytes is the size of `IDTXTransport::Send`, which has 32 bits: of a buffer with 4 GiB or more
only the rest is handed over (`FlushFits`).
-/

namespace IDevice

/-- What a user of the buffer does. -/
inductive TransportCall where
  | send (data : Bytes)
  | flush

namespace TransportCall

/-- The data a call gives. -/
def data : TransportCall → Bytes
  | send data => data
  | flush => []

/-- The data has a size below `2 ^ 32`. -/
def Sized (c : TransportCall) : Prop := c.data.length < 2 ^ 32

end TransportCall

/-- A `memcpy` of the loop: the offsets in the buffer and in the data, and the number of bytes. -/
structure Copy where
  used : Nat
  offset : Nat
  len : Nat

namespace BufferedDTXTransport

variable {bufferSize : Nat} (accepts : Nat → Bool)

def call (b : BufferedDTXTransport bufferSize) : TransportCall → Bool × BufferedDTXTransport bufferSize
  | .send data => b.send accepts data
  | .flush => b.flush accepts

/-- Calls one after the other, and whether all of them returned true. -/
def callAll (b : BufferedDTXTransport bufferSize) : List TransportCall → Bool × BufferedDTXTransport bufferSize
  | [] => (true, b)
  | c :: cs =>
    let (ret, b) := b.call accepts c
    let (rets, b) := callAll b cs
    (ret && rets, b)

/-- The copies of the `while` loop, from `offset` on. -/
def sendLoopCopies (hsize : 0 < bufferSize) (b : BufferedDTXTransport bufferSize) (data : Bytes)
    (offset : Nat) : List Copy :=
  if _hdata : data.length = 0 then []
  else
    let len := min (bufferSize - b.buffer.length) data.length
    ⟨b.buffer.length, offset, len⟩ ::
      if _hfull : bufferSize ≤ (b.copyIn data).buffer.length then
        if (b.copyIn data).flush accepts |>.1 then
          sendLoopCopies hsize ((b.copyIn data).flush accepts).2 (data.drop len) (offset + len)
        else []
      else sendLoopCopies hsize (b.copyIn data) (data.drop len) (offset + len)
termination_by (data.length, b.buffer.length)
decreasing_by
  · simp only [Prod.lex_def, flush_buffer, List.length_drop, List.length_nil]
    have := b.used_le
    omega
  · simp only [Prod.lex_def, List.length_drop]
    simp only [copyIn, List.length_append, List.length_take] at _hfull
    omega

theorem pos_of_not_le_length {data : Bytes} (h : ¬ bufferSize ≤ data.length) : 0 < bufferSize := by
  omega

/-- The copies of a call. -/
def copies (b : BufferedDTXTransport bufferSize) : TransportCall → List Copy
  | .send data =>
    if hlarge : bufferSize ≤ data.length then []
    else b.sendLoopCopies accepts (pos_of_not_le_length hlarge) data 0
  | .flush => []

/-- The data given by calls. -/
def given (calls : List TransportCall) : Bytes := calls.flatMap TransportCall.data

/-- The calls of a user on a buffer that is empty. -/
def run (bufferSize : Nat) (calls : List TransportCall) : Bool × BufferedDTXTransport bufferSize :=
  create.callAll accepts calls

/-- The buffer changes nothing about the data that is given by `calls`. -/
structure RefinesDirect (bufferSize : Nat) (calls : List TransportCall) : Prop where
  used_le : (run accepts bufferSize calls).2.buffer.length ≤ bufferSize
  /-- No copy leaves the buffer or the data. -/
  copies : ∀ before c after, calls = before ++ c :: after →
    ∀ copy ∈ (run accepts bufferSize before).2.copies accepts c,
      copy.used + copy.len ≤ bufferSize ∧ copy.offset + copy.len ≤ c.data.length
  /-- What the transport has accepted, and behind it the buffer, is what was given. -/
  bytes : (run accepts bufferSize calls).1 = true → (run accepts bufferSize calls).2.written = given calls
  /-- After a flush the transport has accepted everything. -/
  flushed : ∀ before, calls = before ++ [.flush] → (run accepts bufferSize calls).1 = true →
    acceptedBytes (run accepts bufferSize calls).2.sends = given calls

/-- The call does not flush a buffer with `2 ^ 32` bytes or more. -/
def FlushFits (b : BufferedDTXTransport bufferSize) : TransportCall → Prop
  | .flush => b.buffer.length < 2 ^ 32
  | .send data =>
    if bufferSize ≤ data.length then b.buffer.length < 2 ^ 32
    else bufferSize ≤ b.buffer.length + data.length → bufferSize < 2 ^ 32

/-! ## One call -/

/-- The chunks that a call hands over when none is refused, and what it leaves in the buffer. -/
def handedOver (b : BufferedDTXTransport bufferSize) : TransportCall → List Bytes × Bytes
  | .send data => split bufferSize b.buffer data
  | .flush => (if b.buffer = [] then [] else [b.buffer], [])

section
variable {b : BufferedDTXTransport bufferSize} (c : TransportCall)

theorem handedOver_flatten :
    (b.handedOver c).1.flatten ++ (b.handedOver c).2 = b.buffer ++ c.data := by
  cases c with
  | send data => exact split_flatten bufferSize b.buffer data
  | flush =>
      simp only [handedOver, TransportCall.data, List.append_nil]
      by_cases hempty : b.buffer = []
      · rw [if_pos hempty, hempty, List.flatten_nil]
      · rw [if_neg hempty, List.flatten_singleton]

theorem call_handed (hroom : b.HasRoom) :
    Handed accepts b ((b.handedOver c).1.map cut) (b.handedOver c).2 (b.call accepts c).1
      (b.call accepts c).2 := by
  cases c with
  | send data => exact send_handed_cut accepts hroom data
  | flush => exact flush_handed_cut accepts b

theorem call_hasRoom (hroom : b.HasRoom) : (b.call accepts c).2.HasRoom := by
  refine (call_handed accepts c hroom).hasRoom ?_
  cases c with
  | send data => exact split_room bufferSize b.buffer data
  | flush => exact .inl rfl

/-- The chunks of a call fit the size of the transport's `Send` exactly when what it flushes does. -/
theorem handedOver_fit_iff (hsized : c.Sized) :
    (∀ chunk ∈ (b.handedOver c).1, chunk.length < 2 ^ 32) ↔ b.FlushFits c := by
  have hbuffer (P : Bytes → Prop) (hnil : P []) :
      (∀ chunk ∈ (if b.buffer = [] then [] else [b.buffer]), P chunk) ↔ P b.buffer := by
    by_cases hempty : b.buffer = []
    · simp [hempty, hnil]
    · simp [hempty]
  cases c with
  | flush => exact hbuffer (·.length < 2 ^ 32) (by decide)
  | send data =>
      simp only [handedOver, split, FlushFits]
      by_cases hlarge : bufferSize ≤ data.length
      · simp only [if_pos hlarge, List.forall_mem_append, List.forall_mem_singleton]
        rw [hbuffer (·.length < 2 ^ 32) (by decide)]
        exact and_iff_left hsized
      · simp only [if_neg hlarge]
        by_cases hfull : bufferSize ≤ b.buffer.length + data.length
        · have hlength : (b.buffer ++ data.take (bufferSize - b.buffer.length)).length = bufferSize := by
            have := b.used_le
            rw [List.length_append, List.length_take]
            omega
          rw [if_pos hfull, List.forall_mem_singleton, hlength]
          exact ⟨fun h _ => h, fun h => h hfull⟩
        · simp [hfull]

/-- **A call that succeeds** has only moved bytes exactly when what it flushes fits the transport. -/
theorem call_written_iff (hroom : b.HasRoom) (hsized : c.Sized) (hret : (b.call accepts c).1 = true) :
    (b.call accepts c).2.written = b.written ++ c.data ↔ b.FlushFits c := by
  have hhanded := call_handed accepts c hroom
  have hflatten := b.handedOver_flatten c
  rw [hret] at hhanded
  generalize hb : (b.call accepts c).2 = b' at hhanded
  cases hhanded with
  | delivered _ hsends hleft =>
      rw [written, written, hsends, hleft, acceptedBytes_append, acceptedBytes_accepted, List.append_assoc,
        List.append_assoc, ← hflatten, List.append_right_inj, List.append_left_inj,
        Segments.flatten_map_eq_iff_of_length_le fun chunk _ => cut_length_le chunk,
        ← handedOver_fit_iff c hsized]
      exact forall₂_congr fun chunk _ => cut_eq_iff chunk

end

/-! ## All calls -/

theorem callAll_append (b : BufferedDTXTransport bufferSize) (before after : List TransportCall) :
    b.callAll accepts (before ++ after) =
      ((b.callAll accepts before).1 && ((b.callAll accepts before).2.callAll accepts after).1,
        ((b.callAll accepts before).2.callAll accepts after).2) := by
  induction before generalizing b with
  | nil => simp [callAll]
  | cons c before ih =>
      simp only [List.cons_append, callAll, ih, Bool.and_assoc]

theorem run_concat (before : List TransportCall) (c : TransportCall) :
    run accepts bufferSize (before ++ [c]) =
      ((run accepts bufferSize before).1 && ((run accepts bufferSize before).2.call accepts c).1,
        ((run accepts bufferSize before).2.call accepts c).2) := by
  rw [run, callAll_append]
  simp [callAll, run]

theorem run_hasRoom (calls : List TransportCall) : (run accepts bufferSize calls).2.HasRoom := by
  induction calls using List.reverseRecOn with
  | nil => exact .inl rfl
  | append_singleton before c ih =>
      rw [run_concat]
      exact call_hasRoom accepts c ih

/-- The copies of the loop stay between the offset and the end of the data. -/
theorem sendLoopCopies_inside (hsize : 0 < bufferSize) (b : BufferedDTXTransport bufferSize) (data : Bytes)
    (offset : Nat) : ∀ copy ∈ b.sendLoopCopies accepts hsize data offset,
      copy.used + copy.len ≤ bufferSize ∧ copy.offset + copy.len ≤ offset + data.length := by
  fun_induction sendLoopCopies accepts hsize b data offset with
  | case1 => simp
  | case2 b data offset hdata len hflushed hopen =>
      have hused := b.used_le
      have hrest : offset + len + (data.drop len).length = offset + data.length := by
        rw [List.length_drop]
        omega
      rw [List.forall_mem_cons]
      refine ⟨⟨by show b.buffer.length + len ≤ bufferSize; omega,
        by show offset + len ≤ offset + data.length; omega⟩, ?_⟩
      rw [hrest] at hflushed hopen
      split
      · split
        · exact hflushed
        · simp
      · exact hopen ‹_›

theorem copies_inside (b : BufferedDTXTransport bufferSize) (c : TransportCall) :
    ∀ copy ∈ b.copies accepts c, copy.used + copy.len ≤ bufferSize ∧
      copy.offset + copy.len ≤ c.data.length := by
  cases c with
  | flush => simp [copies]
  | send data =>
      unfold copies
      by_cases hlarge : bufferSize ≤ data.length
      · simp [hlarge]
      · have hloop := sendLoopCopies_inside accepts (show 0 < bufferSize by omega) b data 0
        rw [Nat.zero_add] at hloop
        simp only [dif_neg hlarge]
        exact hloop

theorem given_concat (before : List TransportCall) (c : TransportCall) :
    given (before ++ [c]) = given before ++ c.data := by
  simp [given]

/-- As long as all calls return true and all flushes fit, nothing is lost. -/
theorem run_written {calls : List TransportCall} (hsized : ∀ c ∈ calls, c.Sized)
    (hfits : ∀ before c after, calls = before ++ c :: after →
      (run accepts bufferSize (before ++ [c])).1 = true → (run accepts bufferSize before).2.FlushFits c)
    (hret : (run accepts bufferSize calls).1 = true) :
    (run accepts bufferSize calls).2.written = given calls := by
  induction calls using List.reverseRecOn with
  | nil => rfl
  | append_singleton before c ih =>
      have hfit := hfits before c [] rfl hret
      rw [run_concat, Bool.and_eq_true] at hret
      have hbefore := ih (fun x hx => hsized x (by simp [hx]))
        (fun earlier x later heq => hfits earlier x (later ++ [c]) (by simp [heq])) hret.1
      have hstep := (call_written_iff accepts c (run_hasRoom accepts before) (hsized c (by simp)) hret.2).mpr hfit
      rw [run_concat, hstep, hbefore, given_concat]

/-- A call behind which nothing is lost flushes what fits. -/
theorem RefinesDirect.flushFits {before : List TransportCall} {c : TransportCall}
    (h : RefinesDirect accepts bufferSize before) (h' : RefinesDirect accepts bufferSize (before ++ [c]))
    (hsized : c.Sized) (hret : (run accepts bufferSize (before ++ [c])).1 = true) :
    (run accepts bufferSize before).2.FlushFits c := by
  have hafter := h'.bytes hret
  rw [run_concat, Bool.and_eq_true] at hret
  rw [run_concat, given_concat, ← h.bytes hret.1] at hafter
  exact (call_written_iff accepts c (run_hasRoom accepts before) hsized hret.2).mp hafter

/-- **Buffered writing refines direct writing** exactly as long as no call flushes 4 GiB or more. -/
theorem refinesDirect_iff {calls : List TransportCall} (hsized : ∀ c ∈ calls, c.Sized) :
    (∀ before, before <+: calls → RefinesDirect accepts bufferSize before) ↔
      ∀ before c after, calls = before ++ c :: after →
        (run accepts bufferSize (before ++ [c])).1 = true →
        (run accepts bufferSize before).2.FlushFits c := by
  constructor
  · rintro h before c after rfl hret
    exact (h before (List.prefix_append _ _)).flushFits accepts (h (before ++ [c]) ⟨after, by simp⟩)
      (hsized c (by simp)) hret
  · rintro hfits before ⟨after, rfl⟩
    have hearlier : ∀ c ∈ before, c.Sized := fun c hc => hsized c (List.mem_append_left _ hc)
    have hbytes := run_written accepts hearlier
      (fun earlier c later heq => hfits earlier c (later ++ after) (by simp [heq]))
    refine ⟨(run accepts bufferSize before).2.used_le, ?_, hbytes, ?_⟩
    · intro earlier c later _ copy hcopy
      exact copies_inside accepts _ c copy hcopy
    · rintro earlier rfl hret
      rw [← hbytes hret, written, run_concat]
      simp [call, flush_buffer]

/-- A buffer of less than 4 GiB always fits. -/
theorem flushFits_of_lt (h : bufferSize < 2 ^ 32) (b : BufferedDTXTransport bufferSize)
    (c : TransportCall) : b.FlushFits c := by
  have hused := b.used_le
  cases c with
  | flush => exact lt_of_le_of_lt hused h
  | send data =>
      by_cases hlarge : bufferSize ≤ data.length
      · simp only [FlushFits, if_pos hlarge]
        exact lt_of_le_of_lt hused h
      · simp only [FlushFits, if_neg hlarge]
        exact fun _ => h

/-- The buffer of the send thread, with a write that fills it. -/
theorem refinesDirect_iff_sendThread :
    RefinesDirect (fun _ => true) 8192 [.send (List.replicate 8000 1), .send [2, 3], .flush] :=
  have hsized : ∀ c ∈ [TransportCall.send (List.replicate 8000 1), .send [2, 3], .flush], c.Sized := by
    simp only [List.forall_mem_cons, TransportCall.Sized, TransportCall.data, List.length_replicate]
    exact ⟨by decide, by decide, by decide, by simp⟩
  (refinesDirect_iff (fun _ => true) hsized).mpr
    (fun before c _ _ _ => flushFits_of_lt (by decide) _ c) _ (List.prefix_refl _)

/-- No call fails on a transport that accepts everything. -/
theorem run_accepted (calls : List TransportCall) : (run (fun _ => true) bufferSize calls).1 = true := by
  induction calls using List.reverseRecOn with
  | nil => rfl
  | append_singleton before c ih =>
      have hhanded := call_handed (fun _ => true) c
        (run_hasRoom (fun _ => true) before : (run _ bufferSize before).2.HasRoom)
      rw [run_concat, ih, Bool.true_and]
      generalize ((run (fun _ => true) bufferSize before).2.call (fun _ => true) c).1 = ret at hhanded ⊢
      cases hhanded with
      | delivered _ _ _ => rfl
      | refused _ _ hrefused _ _ => exact absurd hrefused (by simp)

/-- Two writes, of `n` bytes and of one. -/
def twoWrites (n : Nat) : List TransportCall := [.send (List.replicate n 0), .send [0]]

/-- Two writes that fill the buffer lose nothing only if it has less than 4 GiB. -/
theorem lt_of_refinesDirect_twoWrites {n : Nat} (hsize : bufferSize = n + 1) (hn : 0 < n)
    (h : ∀ before, before <+: twoWrites n → RefinesDirect (fun _ => true) bufferSize before) :
    bufferSize < 2 ^ 32 := by
  have hlength : (List.replicate n (0 : UInt8)).length = n := List.length_replicate
  have hsized : (TransportCall.send [0]).Sized := by
    unfold TransportCall.Sized
    decide
  have hfits := (h [.send (List.replicate n 0)] ⟨[.send [0]], rfl⟩).flushFits (fun _ => true)
    (h (twoWrites n) List.prefix_rfl) hsized (run_accepted _)
  obtain ⟨-, -, hbuffer⟩ := send_small (b := (create : BufferedDTXTransport bufferSize)) (fun _ => true)
    (show ([] : Bytes).length + (List.replicate n (0 : UInt8)).length < bufferSize by
      rw [hlength, List.length_nil]
      omega)
  have hfirst : (run (fun _ => true) bufferSize [.send (List.replicate n 0)]).2.buffer =
      List.replicate n 0 := hbuffer
  simp only [FlushFits, hfirst, hlength, List.length_singleton] at hfits
  rw [if_neg (by omega)] at hfits
  exact hfits (by omega)

/-- A buffer of 4 GiB that is filled by two writes: the transport is called with a size of 0. -/
theorem not_refinesDirect_fullBuffer : (∀ c ∈ twoWrites (2 ^ 32 - 1), c.Sized) ∧
    ¬ ∀ before, before <+: twoWrites (2 ^ 32 - 1) → RefinesDirect (fun _ => true) (2 ^ 32) before := by
  constructor
  · simp only [twoWrites, List.forall_mem_cons, TransportCall.Sized, TransportCall.data,
      List.length_replicate]
    exact ⟨by decide, by decide, by simp⟩
  · intro h
    exact absurd (lt_of_refinesDirect_twoWrites (n := 2 ^ 32 - 1) (by decide) (by decide) h) (lt_irrefl _)

end BufferedDTXTransport
end IDevice
