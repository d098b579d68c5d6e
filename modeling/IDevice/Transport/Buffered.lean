import Mathlib.Order.Basic
import IDevice.Wire.Header

/-!
# `Transport.Buffered` — `BufferedDTXTransport`

The write buffer between the transmitter and the transport (`dtxtransport.h`). The transport is what it
answers: its `i`-th `Send` succeeds, and has then taken all its bytes, exactly if `accepts i`.

A write does one of three things: it goes into the free space (`sendLoop_small`), it fills the buffer and
leaves the rest of itself there (`sendLoop_crossing`), or it is as long as the buffer and goes to the
transport behind what was buffered. `split` says which chunks that makes, and `Handed` what becomes of them:
a write that succeeds hands over all of them, and one that fails ends with the one that was refused and
leaves the buffer empty.
-/

namespace IDevice

/-- A call of the transport's `Send`: its bytes, and whether they were accepted. -/
structure TransportSend where
  bytes : Bytes
  accepted : Bool
deriving DecidableEq

/-- `IDTXTransport::Send` behind the calls `sends`; the size is a `uint32_t`. -/
def transportSend (accepts : Nat → Bool) (sends : List TransportSend) (data : Bytes) :
    Bool × List TransportSend :=
  let ret := accepts sends.length
  (ret, sends ++ [⟨data.take (UInt32.ofNat data.length).toNat, ret⟩])

/-- The bytes that the transport has accepted. -/
def acceptedBytes (sends : List TransportSend) : Bytes :=
  (sends.filter TransportSend.accepted).flatMap TransportSend.bytes

@[simp] theorem acceptedBytes_append (sends sends' : List TransportSend) :
    acceptedBytes (sends ++ sends') = acceptedBytes sends ++ acceptedBytes sends' := by
  simp [acceptedBytes]

@[simp] theorem acceptedBytes_refused (data : Bytes) : acceptedBytes [⟨data, false⟩] = [] := rfl

@[simp] theorem acceptedBytes_accepted (cs : List Bytes) :
    acceptedBytes (cs.map (⟨·, true⟩)) = cs.flatten := by
  induction cs with
  | nil => rfl
  | cons c cs ih =>
      rw [List.map_cons, List.flatten_cons, ← ih]
      rfl

/-- The write buffer and the transport behind it. `buffer` is the first `buffer_used_` bytes. -/
structure BufferedDTXTransport (bufferSize : Nat) where
  buffer : Bytes := []
  sends : List TransportSend := []
  used_le : buffer.length ≤ bufferSize := by simp

namespace BufferedDTXTransport

variable {bufferSize : Nat} (accepts : Nat → Bool)

/-- The constructor: an empty buffer, in front of a transport whose calls are counted from here. -/
def create : BufferedDTXTransport bufferSize := {}

/-- Whatever the transport answers, the buffer is empty afterwards. -/
def flush (b : BufferedDTXTransport bufferSize) : Bool × BufferedDTXTransport bufferSize :=
  if b.buffer.length = 0 then (true, b)
  else
    let (ret, sends) := transportSend accepts b.sends b.buffer
    (ret, { sends := sends })

/-- The `memcpy` of the loop, with as many bytes as there is room for. -/
def copyIn (b : BufferedDTXTransport bufferSize) (data : Bytes) : BufferedDTXTransport bufferSize where
  buffer := b.buffer ++ data.take (min (bufferSize - b.buffer.length) data.length)
  sends := b.sends
  used_le := by
    have := b.used_le
    rw [List.length_append, List.length_take]
    omega

theorem flush_buffer (b : BufferedDTXTransport bufferSize) : (b.flush accepts).2.buffer = [] := by
  unfold flush
  split
  · exact List.length_eq_zero_iff.mp ‹_›
  · rfl

/-- The `while (offset < size)` loop, with what is left of the data. It is entered for less data than the
    buffer can hold, so the buffer is not of size 0. -/
def sendLoop (hsize : 0 < bufferSize) (b : BufferedDTXTransport bufferSize) (data : Bytes) :
    Bool × BufferedDTXTransport bufferSize :=
  if _hdata : data.length = 0 then (true, b)
  else
    let rest := data.drop (min (bufferSize - b.buffer.length) data.length)
    if _hfull : bufferSize ≤ (b.copyIn data).buffer.length then
      if (b.copyIn data).flush accepts |>.1 then
        sendLoop hsize ((b.copyIn data).flush accepts).2 rest
      else (false, ((b.copyIn data).flush accepts).2)
    else sendLoop hsize (b.copyIn data) rest
termination_by (data.length, b.buffer.length)
decreasing_by
  · simp only [Prod.lex_def, flush_buffer, List.length_drop, List.length_nil]
    have := b.used_le
    omega
  · simp only [Prod.lex_def, List.length_drop]
    simp only [copyIn, List.length_append, List.length_take] at _hfull
    omega

/-- `Send`. -/
def send (b : BufferedDTXTransport bufferSize) (data : Bytes) : Bool × BufferedDTXTransport bufferSize :=
  if hlarge : bufferSize ≤ data.length then
    let (ret, b) := b.flush accepts
    if !ret then (false, b)
    else
      let (ret, sends) := transportSend accepts b.sends data
      (ret, { b with sends := sends })
  else b.sendLoop accepts (by omega) data

/-- The destructor. -/
def destroy (b : BufferedDTXTransport bufferSize) : BufferedDTXTransport bufferSize :=
  if bufferSize ≤ b.buffer.length then (b.flush accepts).2 else b

/-- The bytes that are accepted and those that are still buffered. -/
def written (b : BufferedDTXTransport bufferSize) : Bytes := acceptedBytes b.sends ++ b.buffer

/-! ## What a write hands over -/

/-- The chunks that a write hands to the transport when none is refused, and what it leaves in the
    buffer. -/
def split (bufferSize : Nat) (buffer data : Bytes) : List Bytes × Bytes :=
  if bufferSize ≤ data.length then ((if buffer = [] then [] else [buffer]) ++ [data], [])
  else if bufferSize ≤ buffer.length + data.length then
    ([buffer ++ data.take (bufferSize - buffer.length)], data.drop (bufferSize - buffer.length))
  else ([], buffer ++ data)

/-- The chunks of several writes and of the flush behind them. -/
def chunks (bufferSize : Nat) : Bytes → List Bytes → List Bytes
  | buffer, [] => if buffer = [] then [] else [buffer]
  | buffer, w :: ws => (split bufferSize buffer w).1 ++ chunks bufferSize (split bufferSize buffer w).2 ws

/-- Between the calls the buffer is not full. -/
def HasRoom (b : BufferedDTXTransport bufferSize) : Prop := b.buffer = [] ∨ b.buffer.length < bufferSize

/-- A call that hands over the chunks `cs` and leaves `left` in the buffer, or stops at a chunk that is
    refused, and then leaves nothing. -/
inductive Handed (b : BufferedDTXTransport bufferSize) (cs : List Bytes) (left : Bytes) :
    Bool → BufferedDTXTransport bufferSize → Prop
  | delivered {b'} : (∀ i < cs.length, accepts (b.sends.length + i) = true) →
      b'.sends = b.sends ++ cs.map (⟨·, true⟩) → b'.buffer = left → Handed b cs left true b'
  | refused {b' before c after} : cs = before ++ c :: after →
      (∀ i < before.length, accepts (b.sends.length + i) = true) →
      accepts (b.sends.length + before.length) = false →
      b'.sends = b.sends ++ before.map (⟨·, true⟩) ++ [⟨c, false⟩] → b'.buffer = [] →
      Handed b cs left false b'

/-- A call that hands over a single chunk. -/
theorem handed_singleton {b b' : BufferedDTXTransport bufferSize} {c left : Bytes} {ret : Bool}
    (hret : ret = accepts b.sends.length) (hsends : b'.sends = b.sends ++ [⟨c, ret⟩])
    (hbuffer : b'.buffer = if ret then left else []) : Handed accepts b [c] left ret b' := by
  cases ret with
  | true =>
      refine .delivered (fun i hi => ?_) hsends hbuffer
      obtain rfl : i = 0 := by simpa using hi
      exact hret.symm
  | false => exact .refused (List.nil_append [c]).symm (by simp) hret.symm (by simpa using hsends) hbuffer

variable {accepts}

/-- A call behind one that succeeds. -/
theorem Handed.append {b b₁ b₂ : BufferedDTXTransport bufferSize} {cs cs' : List Bytes}
    {left left' : Bytes} {ret : Bool} (h : Handed accepts b cs left true b₁)
    (h' : Handed accepts b₁ cs' left' ret b₂) : Handed accepts b (cs ++ cs') left' ret b₂ := by
  cases h with
  | delivered haccepts hsends _ =>
      have hlength : b₁.sends.length = b.sends.length + cs.length := by simp [hsends]
      -- a chunk of the second call comes behind all those of the first
      have hboth {n : Nat} (hn : ∀ i < n, accepts (b₁.sends.length + i) = true) :
          ∀ i < cs.length + n, accepts (b.sends.length + i) = true := by
        intro i hi
        by_cases hfirst : i < cs.length
        · exact haccepts i hfirst
        · have hlater := hn (i - cs.length) (by omega)
          rwa [hlength, show b.sends.length + cs.length + (i - cs.length) = b.sends.length + i by omega]
            at hlater
      cases h' with
      | delivered haccepts' hsends' hbuffer =>
          refine .delivered ?_ (by simp [hsends', hsends]) hbuffer
          rw [List.length_append]
          exact hboth haccepts'
      | refused hcs hbefore hrefused hsends' hbuffer =>
          refine .refused (by rw [hcs, ← List.append_assoc]) ?_ ?_ (by simp [hsends', hsends]) hbuffer
          · rw [List.length_append]
            exact hboth hbefore
          · rwa [List.length_append, ← Nat.add_assoc, ← hlength]

/-- A call that is not made because the one in front of it fails. -/
theorem Handed.append_refused {b b₁ : BufferedDTXTransport bufferSize} {cs : List Bytes} {left : Bytes}
    (h : Handed accepts b cs left false b₁) (cs' : List Bytes) (left' : Bytes) :
    Handed accepts b (cs ++ cs') left' false b₁ := by
  cases h with
  | refused hcs hbefore hrefused hsends hbuffer =>
      exact .refused (by rw [hcs, List.append_assoc, List.cons_append]) hbefore hrefused hsends hbuffer

variable (accepts)

/-- What reaches the transport of a chunk: its `Send` has 32 bits for the size. -/
def cut (c : Bytes) : Bytes := c.take (UInt32.ofNat c.length).toNat

theorem cut_length_le (c : Bytes) : (cut c).length ≤ c.length := by
  rw [cut, List.length_take]
  exact Nat.min_le_right _ _

/-- Chunks of less than 4 GiB arrive as a whole, and only these. -/
theorem cut_eq_iff (c : Bytes) : cut c = c ↔ c.length < 2 ^ 32 := by
  constructor
  · intro h
    have hlength := congrArg List.length h
    have hmod : (UInt32.ofNat c.length).toNat = c.length % 2 ^ 32 := UInt32.toNat_ofNat'
    rw [cut, List.length_take, hmod] at hlength
    omega
  · intro h
    rw [cut, UInt32.toNat_ofNat_of_lt' h, List.take_length]

theorem map_cut_eq {cs : List Bytes} (h : ∀ c ∈ cs, c.length < 2 ^ 32) : cs.map cut = cs := by
  calc cs.map cut = cs.map id := List.map_congr_left fun c hc => (cut_eq_iff c).mpr (h c hc)
    _ = cs := List.map_id cs

theorem transportSend_eq (sends : List TransportSend) {data : Bytes} (h : data.length < 2 ^ 32) :
    transportSend accepts sends data =
      (accepts sends.length, sends ++ [⟨data, accepts sends.length⟩]) := by
  show (_, sends ++ [⟨cut data, _⟩]) = _
  rw [(cut_eq_iff data).mpr h]

/-- **`Flush`** hands over the buffer, if there is anything in it. -/
theorem flush_handed_cut (b : BufferedDTXTransport bufferSize) :
    Handed accepts b ((if b.buffer = [] then [] else [b.buffer]).map cut) [] (b.flush accepts).1
      (b.flush accepts).2 := by
  unfold flush
  by_cases hempty : b.buffer = []
  · rw [if_pos hempty, if_pos (by simpa using hempty)]
    exact .delivered (by simp) (by simp) hempty
  · rw [if_neg hempty, if_neg (by simpa using hempty)]
    exact handed_singleton accepts rfl rfl (by simp)

/-- A buffer below 4 GiB reaches the transport as a whole. -/
theorem flush_handed (h32 : bufferSize < 2 ^ 32) (b : BufferedDTXTransport bufferSize) :
    Handed accepts b (if b.buffer = [] then [] else [b.buffer]) [] (b.flush accepts).1
      (b.flush accepts).2 := by
  have hhanded := flush_handed_cut accepts b
  rwa [map_cut_eq] at hhanded
  intro c hc
  have hused := b.used_le
  by_cases hempty : b.buffer = []
  · rw [if_pos hempty] at hc
    exact absurd hc (by simp)
  · rw [if_neg hempty] at hc
    rw [List.mem_singleton.mp hc]
    omega

theorem flush_empty {b : BufferedDTXTransport bufferSize} (h : b.buffer = []) :
    b.flush accepts = (true, b) := by
  unfold flush
  rw [if_pos (by simpa using h)]

theorem sendLoop_nil (hsize : 0 < bufferSize) (b : BufferedDTXTransport bufferSize) :
    b.sendLoop accepts hsize [] = (true, b) := by
  rw [sendLoop]
  rfl

/-- Data that leaves room in the buffer is copied in one go. -/
theorem sendLoop_small {b : BufferedDTXTransport bufferSize} {data : Bytes} (hsize : 0 < bufferSize)
    (h : b.buffer.length + data.length < bufferSize) :
    ∃ b', b.sendLoop accepts hsize data = (true, b') ∧ b'.sends = b.sends ∧ b'.buffer = b.buffer ++ data := by
  by_cases hdata : data.length = 0
  · obtain rfl := List.length_eq_zero_iff.mp hdata
    exact ⟨b, sendLoop_nil accepts hsize b, rfl, by simp⟩
  · have hmin : min (bufferSize - b.buffer.length) data.length = data.length := by omega
    have hbuffer : (b.copyIn data).buffer = b.buffer ++ data := by
      simp only [copyIn, hmin, List.take_length]
    have hopen : ¬ bufferSize ≤ (b.copyIn data).buffer.length := by
      rw [hbuffer, List.length_append]
      omega
    refine ⟨b.copyIn data, ?_, rfl, hbuffer⟩
    rw [sendLoop, dif_neg hdata, dif_neg hopen, hmin, List.drop_length, sendLoop_nil]

/-- Data that fills the buffer makes one call, and the rest of it is copied if that call succeeds. -/
theorem sendLoop_crossing {b : BufferedDTXTransport bufferSize} {data : Bytes} (hsize : 0 < bufferSize)
    (hroom : b.buffer.length < bufferSize) (hlt : data.length < bufferSize)
    (h : bufferSize ≤ b.buffer.length + data.length) :
    Handed accepts b [cut (b.buffer ++ data.take (bufferSize - b.buffer.length))]
      (data.drop (bufferSize - b.buffer.length)) (b.sendLoop accepts hsize data).1
      (b.sendLoop accepts hsize data).2 := by
  have hmin : min (bufferSize - b.buffer.length) data.length = bufferSize - b.buffer.length := by omega
  have hbuffer : (b.copyIn data).buffer = b.buffer ++ data.take (bufferSize - b.buffer.length) := by
    simp only [copyIn, hmin]
  have hlength : (b.copyIn data).buffer.length = bufferSize := by
    rw [hbuffer, List.length_append, List.length_take]
    omega
  have hflush : (b.copyIn data).flush accepts = (accepts b.sends.length,
      { sends := b.sends ++
          [⟨cut (b.buffer ++ data.take (bufferSize - b.buffer.length)), accepts b.sends.length⟩] }) := by
    unfold flush
    rw [if_neg (show ¬ (b.copyIn data).buffer.length = 0 by omega), hbuffer]
    rfl
  rw [sendLoop, dif_neg (show ¬ data.length = 0 by omega), dif_pos hlength.ge, hflush, hmin]
  cases hret : accepts b.sends.length with
  | false => exact handed_singleton accepts hret.symm rfl rfl
  | true =>
      have hrest : ([] : Bytes).length + (data.drop (bufferSize - b.buffer.length)).length < bufferSize := by
        rw [List.length_nil, List.length_drop]
        omega
      obtain ⟨b', hloop, hsends, hleft⟩ := sendLoop_small accepts (b := { sends := b.sends ++
        [⟨cut (b.buffer ++ data.take (bufferSize - b.buffer.length)), true⟩] }) hsize hrest
      simp only [if_true, hloop]
      exact handed_singleton accepts hret.symm hsends (by simpa using hleft)

/-- **`Send`** hands over the chunks of `split`, and keeps what is left of them. -/
theorem send_handed_cut {b : BufferedDTXTransport bufferSize} (hroom : b.HasRoom) (data : Bytes) :
    Handed accepts b ((split bufferSize b.buffer data).1.map cut) (split bufferSize b.buffer data).2
      (b.send accepts data).1 (b.send accepts data).2 := by
  unfold send split
  by_cases hlarge : bufferSize ≤ data.length
  · rw [dif_pos hlarge, if_pos hlarge]
    have hflush := flush_handed_cut accepts b
    cases hres : b.flush accepts with
    | mk ret b₁ =>
        rw [hres] at hflush
        rw [List.map_append]
        cases ret with
        | false => exact hflush.append_refused ([data].map cut) []
        | true =>
            apply hflush.append
            simp only [Bool.not_true, Bool.false_eq_true, if_false]
            refine handed_singleton accepts rfl rfl ?_
            cases hflush with
            | delivered _ _ hbuffer => simpa using hbuffer
  · rw [dif_neg hlarge, if_neg hlarge]
    have hopen : b.buffer.length < bufferSize := by
      rcases hroom with hempty | hlt
      · rw [hempty, List.length_nil]
        omega
      · exact hlt
    by_cases hfull : bufferSize ≤ b.buffer.length + data.length
    · rw [if_pos hfull]
      exact sendLoop_crossing accepts (by omega) hopen (not_le.mp hlarge) hfull
    · obtain ⟨b', hloop, hsends, hleft⟩ :=
        sendLoop_small accepts (show 0 < bufferSize by omega) (not_le.mp hfull)
      rw [if_neg hfull, hloop]
      exact .delivered (by simp) (by simpa using hsends) hleft

/-- No chunk is longer than the buffer or the data. -/
theorem split_length_le {b : BufferedDTXTransport bufferSize} {data c : Bytes}
    (h : c ∈ (split bufferSize b.buffer data).1) : c.length ≤ bufferSize ∨ c.length ≤ data.length := by
  have hused := b.used_le
  unfold split at h
  by_cases hlarge : bufferSize ≤ data.length
  · rw [if_pos hlarge] at h
    rcases List.mem_append.mp h with hbuffer | hdata
    · left
      by_cases hempty : b.buffer = []
      · rw [if_pos hempty] at hbuffer
        exact absurd hbuffer (by simp)
      · rw [if_neg hempty] at hbuffer
        rw [List.mem_singleton.mp hbuffer]
        exact hused
    · right
      rw [List.mem_singleton.mp hdata]
  · rw [if_neg hlarge] at h
    left
    by_cases hfull : bufferSize ≤ b.buffer.length + data.length
    · rw [if_pos hfull] at h
      rw [List.mem_singleton.mp h, List.length_append, List.length_take]
      omega
    · rw [if_neg hfull] at h
      exact absurd h (by simp)

/-- The chunks of a buffer below 4 GiB reach the transport as a whole. -/
theorem send_handed (h32 : bufferSize < 2 ^ 32) {b : BufferedDTXTransport bufferSize} (hroom : b.HasRoom)
    {data : Bytes} (hdata : data.length < 2 ^ 32) :
    Handed accepts b (split bufferSize b.buffer data).1 (split bufferSize b.buffer data).2
      (b.send accepts data).1 (b.send accepts data).2 := by
  have hhanded := send_handed_cut accepts hroom data
  rwa [map_cut_eq fun c hc => (split_length_le hc).elim (by omega) (by omega)] at hhanded

/-! ## What the calls keep -/

section
variable {b b' : BufferedDTXTransport bufferSize} {cs : List Bytes} {left data : Bytes} {ret : Bool}

/-- No bytes are lost between the chunks and what is left. -/
theorem split_flatten (bufferSize : Nat) (buffer data : Bytes) :
    (split bufferSize buffer data).1.flatten ++ (split bufferSize buffer data).2 = buffer ++ data := by
  unfold split
  by_cases hlarge : bufferSize ≤ data.length
  · rw [if_pos hlarge]
    cases buffer <;> simp
  · rw [if_neg hlarge]
    by_cases hfull : bufferSize ≤ buffer.length + data.length
    · rw [if_pos hfull]
      simp
    · rw [if_neg hfull]
      simp

theorem chunks_flatten (bufferSize : Nat) (buffer : Bytes) (ws : List Bytes) :
    (chunks bufferSize buffer ws).flatten = buffer ++ ws.flatten := by
  induction ws generalizing buffer with
  | nil =>
      unfold chunks
      cases buffer <;> simp
  | cons w ws ih =>
      rw [chunks, List.flatten_append, ih, ← List.append_assoc, split_flatten, List.flatten_cons,
        List.append_assoc]

/-- What a write leaves does not fill the buffer. -/
theorem split_room (bufferSize : Nat) (buffer data : Bytes) :
    (split bufferSize buffer data).2 = [] ∨ (split bufferSize buffer data).2.length < bufferSize := by
  unfold split
  by_cases hlarge : bufferSize ≤ data.length
  · rw [if_pos hlarge]
    exact .inl rfl
  · rw [if_neg hlarge]
    right
    by_cases hfull : bufferSize ≤ buffer.length + data.length
    · rw [if_pos hfull]
      show (data.drop (bufferSize - buffer.length)).length < bufferSize
      rw [List.length_drop]
      omega
    · rw [if_neg hfull]
      show (buffer ++ data).length < bufferSize
      rw [List.length_append]
      exact not_le.mp hfull

/-- A write that fits in the free space makes no call. -/
theorem send_small (h : b.buffer.length + data.length < bufferSize) :
    (b.send accepts data).1 = true ∧ (b.send accepts data).2.sends = b.sends ∧
      (b.send accepts data).2.buffer = b.buffer ++ data := by
  obtain ⟨b', hloop, hsends, hbuffer⟩ := sendLoop_small accepts (show 0 < bufferSize by omega) h
  unfold send
  rw [dif_neg (by omega), hloop]
  exact ⟨rfl, hsends, hbuffer⟩

/-- A write behind a buffer that holds something hands over two chunks if it is long, and one at most if
    it is not. -/
theorem split_length (bufferSize : Nat) {buffer : Bytes} (hbuffer : buffer ≠ []) (data : Bytes) :
    (bufferSize ≤ data.length →
      (split bufferSize buffer data).1.length = 2 ∧ (split bufferSize buffer data).2 = []) ∧
    (split bufferSize buffer data).1.length ≤ 2 := by
  unfold split
  rw [if_neg hbuffer]
  by_cases hlarge : bufferSize ≤ data.length
  · rw [if_pos hlarge]
    simp
  · rw [if_neg hlarge]
    refine ⟨fun h => absurd h hlarge, ?_⟩
    split <;> simp

variable {accepts}

theorem Handed.hasRoom (h : Handed accepts b cs left ret b') (hleft : left = [] ∨ left.length < bufferSize) :
    b'.HasRoom := by
  cases h with
  | delivered _ _ hbuffer => rwa [HasRoom, hbuffer]
  | refused _ _ _ _ hbuffer => exact .inl hbuffer

/-- The accepted bytes are the first bytes of what is handed over. -/
theorem Handed.acceptedBytes_isPrefix (h : Handed accepts b cs left ret b') :
    acceptedBytes b'.sends <+: acceptedBytes b.sends ++ cs.flatten := by
  cases h with
  | delivered _ hsends _ =>
      have heq : acceptedBytes b'.sends = acceptedBytes b.sends ++ cs.flatten := by
        rw [hsends, acceptedBytes_append, acceptedBytes_accepted]
      exact heq ▸ List.prefix_rfl
  | refused hcs _ _ hsends _ =>
      rw [hsends, acceptedBytes_append, acceptedBytes_append, acceptedBytes_accepted,
        acceptedBytes_refused, List.append_nil, hcs, List.flatten_append, ← List.append_assoc]
      exact List.prefix_append _ _

variable (accepts)

theorem send_hasRoom (h32 : bufferSize < 2 ^ 32) (hroom : b.HasRoom) (hdata : data.length < 2 ^ 32) :
    (b.send accepts data).2.HasRoom :=
  (send_handed accepts h32 hroom hdata).hasRoom (split_room bufferSize b.buffer data)

/-! ## Calls that go on after a failure -/

theorem flush_isPrefix (b : BufferedDTXTransport bufferSize) : b.sends <+: (b.flush accepts).2.sends := by
  unfold flush
  split
  · exact List.prefix_rfl
  · exact List.prefix_append _ _

theorem sendLoop_isPrefix (hsize : 0 < bufferSize) (b : BufferedDTXTransport bufferSize) (data : Bytes) :
    b.sends <+: (b.sendLoop accepts hsize data).2.sends := by
  fun_induction sendLoop accepts hsize b data with
  | case1 => exact List.prefix_rfl
  | case2 b data _ _ hfull _ ih => exact (flush_isPrefix accepts (b.copyIn data)).trans ih
  | case3 b data _ _ hfull => exact flush_isPrefix accepts (b.copyIn data)
  | case4 b data _ _ _ ih => exact ih

/-- Calls are only added. -/
theorem send_isPrefix (b : BufferedDTXTransport bufferSize) (data : Bytes) :
    b.sends <+: (b.send accepts data).2.sends := by
  unfold send
  split
  · have hflush := flush_isPrefix accepts b
    cases hres : b.flush accepts with
    | mk ret b₁ =>
        rw [hres] at hflush
        cases ret with
        | false => exact hflush
        | true => exact hflush.trans (List.prefix_append _ _)
  · exact sendLoop_isPrefix accepts _ b data

/-- The flush of a buffer that holds something is a call. -/
theorem flush_lt (h : b.buffer ≠ []) : b.sends.length < (b.flush accepts).2.sends.length := by
  unfold flush transportSend
  rw [if_neg (by simpa using h)]
  simp

theorem sendLoop_progress (hsize : 0 < bufferSize) (b : BufferedDTXTransport bufferSize) (data : Bytes)
    (h : b.buffer ≠ [] ∨ data ≠ []) :
    (b.sendLoop accepts hsize data).2.buffer ≠ [] ∨
      b.sends.length < (b.sendLoop accepts hsize data).2.sends.length := by
  fun_induction sendLoop accepts hsize b data with
  | case1 b data hdata =>
      rcases h with hbuffer | hne
      · exact .inl hbuffer
      · exact absurd (List.length_eq_zero_iff.mp hdata) hne
  | case2 b data _ rest hfull _ ih =>
      right
      have hflush : b.sends.length < ((b.copyIn data).flush accepts).2.sends.length :=
        flush_lt accepts (b := b.copyIn data) (List.ne_nil_of_length_pos (by omega))
      exact lt_of_lt_of_le hflush (sendLoop_isPrefix accepts hsize _ rest).length_le
  | case3 b data _ _ hfull =>
      right
      exact flush_lt accepts (b := b.copyIn data) (List.ne_nil_of_length_pos (by omega))
  | case4 b data hdata rest hopen ih =>
      apply ih
      left
      apply List.ne_nil_of_length_pos
      unfold copyIn
      rw [List.length_append, List.length_take]
      rcases h with hbuffer | hne
      · have := List.length_pos_iff.mpr hbuffer
        omega
      · have := List.length_pos_iff.mpr hne
        omega

/-- **Bytes do not vanish silently**: they are buffered, or there was a call. -/
theorem send_progress (b : BufferedDTXTransport bufferSize) (h : b.buffer ≠ [] ∨ data ≠ []) :
    (b.send accepts data).2.buffer ≠ [] ∨
      b.sends.length < (b.send accepts data).2.sends.length := by
  unfold send
  split
  · right
    by_cases hbuffer : b.buffer = []
    · simp [flush_empty accepts hbuffer, transportSend]
    · have hflush := flush_lt accepts hbuffer
      cases hres : b.flush accepts with
      | mk ret b₁ =>
          rw [hres] at hflush
          cases ret with
          | false => exact hflush
          | true =>
              refine lt_trans hflush ?_
              simp [transportSend]
  · exact sendLoop_progress accepts _ b data h

/-- Writes whose flags are dropped, and the flush behind them. -/
def writeAll (accepts : Nat → Bool) (b : BufferedDTXTransport bufferSize) (ws : List Bytes) :
    BufferedDTXTransport bufferSize :=
  ((ws.foldl (fun b w => (b.send accepts w).2) b).flush accepts).2

theorem writeAll_cons (b : BufferedDTXTransport bufferSize) (w : Bytes) (ws : List Bytes) :
    b.writeAll accepts (w :: ws) = (b.send accepts w).2.writeAll accepts ws := rfl

theorem writeAll_isPrefix (b : BufferedDTXTransport bufferSize) (ws : List Bytes) :
    b.sends <+: (b.writeAll accepts ws).sends := by
  induction ws generalizing b with
  | nil => exact flush_isPrefix accepts b
  | cons w ws ih => exact (send_isPrefix accepts b w).trans (ih (b.send accepts w).2)

/-- **Writes whose flags are dropped**: when none of their chunks is refused they hand over exactly
    these, and otherwise one of the calls failed. -/
theorem writeAll_sends (h32 : bufferSize < 2 ^ 32) (hroom : b.HasRoom) {ws : List Bytes}
    (hws : ∀ w ∈ ws, w.length < 2 ^ 32) :
    (∀ i < (chunks bufferSize b.buffer ws).length, accepts (b.sends.length + i) = true) ∧
      (b.writeAll accepts ws).sends = b.sends ++ (chunks bufferSize b.buffer ws).map (⟨·, true⟩) ∨
    (∃ i < (chunks bufferSize b.buffer ws).length, accepts (b.sends.length + i) = false) ∧
      ∃ c, ⟨c, false⟩ ∈ (b.writeAll accepts ws).sends := by
  induction ws generalizing b with
  | nil =>
      have hflush := flush_handed accepts h32 b
      rw [chunks]
      show _ ∧ (b.flush accepts).2.sends = _ ∨ _ ∧ ∃ c, _ ∈ (b.flush accepts).2.sends
      generalize (b.flush accepts).1 = ret, (b.flush accepts).2 = b' at hflush
      cases hflush with
      | delivered haccepts hsends _ => exact .inl ⟨haccepts, hsends⟩
      | @refused _ before c after hcs _ hrefused hsends _ =>
          refine .inr ⟨⟨before.length, ?_, hrefused⟩, c, by simp [hsends]⟩
          rw [hcs, List.length_append, List.length_cons]
          omega
  | cons w ws ih =>
      have hsend := send_handed accepts h32 hroom (hws w (by simp))
      have hroom' := send_hasRoom accepts h32 hroom (hws w (by simp))
      have hrest := ih hroom' fun v hv => hws v (by simp [hv])
      have hlater := writeAll_isPrefix accepts (b.send accepts w).2 ws
      rw [writeAll_cons, chunks, List.length_append]
      generalize (b.send accepts w).1 = ret, (b.send accepts w).2 = b' at *
      cases hsend with
      | delivered haccepts hsends hbuffer =>
          have hlength : b'.sends.length = b.sends.length + (split bufferSize b.buffer w).1.length := by
            simp [hsends]
          rw [hbuffer] at hrest
          rcases hrest with ⟨haccepts', hsends'⟩ | ⟨⟨i, hi, hrefused⟩, c, hmem⟩
          · left
            refine ⟨?_, by rw [hsends', hsends, List.append_assoc, List.map_append]⟩
            intro i hi
            by_cases hfirst : i < (split bufferSize b.buffer w).1.length
            · exact haccepts i hfirst
            · have hnext := haccepts' (i - (split bufferSize b.buffer w).1.length) (by omega)
              rwa [hlength, Nat.add_assoc, Nat.add_sub_cancel' (not_lt.mp hfirst)] at hnext
          · right
            refine ⟨⟨(split bufferSize b.buffer w).1.length + i, by omega, ?_⟩, c, hmem⟩
            rwa [hlength, Nat.add_assoc] at hrefused
      | @refused _ before c after hcs _ hrefused hsends _ =>
          -- the calls behind the failure do not take it back
          refine .inr ⟨⟨before.length, ?_, hrefused⟩, c, hlater.subset (by simp [hsends])⟩
          rw [hcs, List.length_append, List.length_cons]
          omega

/-- Writes that fit in the free space together only reach the transport in the flush. -/
theorem writeAll_small (h32 : bufferSize < 2 ^ 32) {ws : List Bytes}
    (hroom : b.buffer.length + ws.flatten.length < bufferSize) (hne : b.buffer ++ ws.flatten ≠ []) :
    (b.writeAll accepts ws).sends =
      b.sends ++ [⟨b.buffer ++ ws.flatten, accepts b.sends.length⟩] := by
  induction ws generalizing b with
  | nil =>
      rw [List.flatten_nil, List.append_nil] at *
      show (b.flush accepts).2.sends = _
      unfold flush
      rw [if_neg (by simpa using hne), transportSend_eq accepts b.sends (by simp at hroom; omega)]
  | cons w ws ih =>
      rw [List.flatten_cons, List.length_append] at hroom
      obtain ⟨-, hsends, hbuffer⟩ := send_small accepts (show b.buffer.length + w.length < bufferSize by omega)
      have hrest : (b.send accepts w).2.buffer.length + ws.flatten.length < bufferSize := by
        rw [hbuffer, List.length_append]
        omega
      have hmore : (b.send accepts w).2.buffer ++ ws.flatten ≠ [] := by
        rwa [hbuffer, List.append_assoc, ← List.flatten_cons]
      rw [writeAll_cons, ih hrest hmore, hsends, hbuffer, List.append_assoc, ← List.flatten_cons]

/-- The same for a buffer that is empty, with the calls counted from zero. -/
theorem writeAll_create (h32 : bufferSize < 2 ^ 32) {ws : List Bytes} (hws : ∀ w ∈ ws, w.length < 2 ^ 32) :
    (∀ i < (chunks bufferSize [] ws).length, accepts i = true) ∧
      (create.writeAll accepts ws : BufferedDTXTransport bufferSize).sends =
        (chunks bufferSize [] ws).map (⟨·, true⟩) ∨
    (∃ i < (chunks bufferSize [] ws).length, accepts i = false) ∧
      ∃ c, ⟨c, false⟩ ∈ (create.writeAll accepts ws : BufferedDTXTransport bufferSize).sends := by
  have hroom : (create : BufferedDTXTransport bufferSize).HasRoom := .inl rfl
  have hbuffer : (create : BufferedDTXTransport bufferSize).buffer = [] := rfl
  have hsends : (create : BufferedDTXTransport bufferSize).sends = [] := rfl
  have hcases := writeAll_sends accepts h32 hroom hws
  simpa only [hbuffer, hsends, List.length_nil, Nat.zero_add, List.nil_append] using hcases

end
end BufferedDTXTransport
end IDevice
