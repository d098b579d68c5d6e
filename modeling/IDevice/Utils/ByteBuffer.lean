import IDevice.Lib.Memory
import IDevice.Lib.SparseFile
import IDevice.Wire.Header

/-!
# `Utils.ByteBuffer` — the vector under a partial message

`ByteBuffer` (`bytebuffer.h`) is a `std::vector<uint8_t>` that can be written at any offset. Its sums are sums
of `size_t`, which wrap, and a vector that would get longer than `max_size()` throws; both ends of a call are
a `MemoryFault`. Memory for a vector that may be that long is there.

What it is for is said by `SparseFile`: `run_eq` has the answers of any list of calls, and where the first
fault is, from the file alone.
-/

namespace IDevice

/-- `max_size()` of a `std::vector<uint8_t>`. -/
def vectorMaxSize : Nat := 2 ^ 63 - 1

/-- How a call ends that does not return. -/
inductive MemoryFault where
  /-- `std::length_error`, from `resize`. -/
  | lengthError
  /-- A copy outside of the memory that is there. -/
  | overrun
deriving DecidableEq, Repr

/-- `buffer` is what `buffer_` points to. -/
structure ByteBuffer where
  buffer : Bytes
  length_le : buffer.length ≤ vectorMaxSize

namespace ByteBuffer

/-- A new buffer. -/
def empty : ByteBuffer := ⟨[], Nat.zero_le _⟩

/-- `Size()`. -/
def size (s : ByteBuffer) : UInt64 := UInt64.ofNat s.buffer.length

theorem resized_length_le {b : Bytes} {n : Nat} (h : n ≤ vectorMaxSize) :
    (SparseFile.resized 0 b n).length ≤ vectorMaxSize := by
  rwa [SparseFile.resized_length]

theorem overlay_length_le (s : ByteBuffer) {offset : Nat} {data : Bytes}
    (h : offset + data.length ≤ s.buffer.length) :
    (SparseFile.overlay s.buffer offset data).length ≤ vectorMaxSize := by
  rw [SparseFile.overlay_length h]
  exact s.length_le

def resize (s : ByteBuffer) (newSize : UInt64) : Except MemoryFault ByteBuffer :=
  if h : newSize.toNat ≤ vectorMaxSize then
    .ok ⟨SparseFile.resized 0 s.buffer newSize.toNat, resized_length_le h⟩
  else .error .lengthError

/-- `memcpy(GetBuffer(offset), data, ..)`. -/
def memcpy (s : ByteBuffer) (offset : UInt64) (data : Bytes) : Except MemoryFault ByteBuffer :=
  if h : offset.toNat + data.length ≤ s.buffer.length then
    .ok ⟨SparseFile.overlay s.buffer offset.toNat data, s.overlay_length_le h⟩
  else .error .overrun

/-- `Write`: the flag, `*size_written` if it is set, and the buffer. A vector that has the bytes from `ptr`
    on has storage, so `ptr` is not null. -/
def write (s : ByteBuffer) (buffer : Memory) (sizeToWrite offset : UInt64) :
    Except MemoryFault (Bool × Option UInt64 × ByteBuffer) :=
  if sizeToWrite ≠ 0 then do
    let newSize := offset + sizeToWrite
    let s ← if s.size < newSize then s.resize newSize else .ok s
    let s ← s.memcpy offset (buffer.bytes sizeToWrite.toNat)
    .ok (true, some sizeToWrite, s)
  else .ok (true, none, s)

/-- `Append`; `sizeWritten` is what its local variable, which has no initializer, happens to be. -/
def append (s : ByteBuffer) (buffer : Memory) (bufferSize sizeWritten : UInt64) :
    Except MemoryFault (Bool × ByteBuffer) := do
  let (ok, written, s) ← s.write buffer bufferSize s.size
  .ok (ok && bufferSize == written.getD sizeWritten, s)

/-- `Read`: the flag, the bytes copied, and `*size_read`. -/
def read (s : ByteBuffer) (sizeToRead offset : UInt64) : Bool × Bytes × UInt64 :=
  let bufSize := s.size
  if offset < bufSize then
    let remaining := bufSize - offset
    let sizeToRead := if remaining ≤ sizeToRead then remaining else sizeToRead
    (true, (s.buffer.drop offset.toNat).take sizeToRead.toNat, sizeToRead)
  else (true, [], 0)

/-! ## Runs -/

inductive Call where
  | read (sizeToRead offset : UInt64)
  | write (buffer : Memory) (sizeToWrite offset : UInt64)
  | append (buffer : Memory) (bufferSize sizeWritten : UInt64)
  | resize (newSize : UInt64)

/-- What the caller of a method gets: the flag, the bytes in its own buffer, and the out parameter. -/
structure Answer where
  flag : Bool
  bytes : Bytes
  size : Option UInt64
deriving DecidableEq, Repr

def call (s : ByteBuffer) : Call → Except MemoryFault (Answer × ByteBuffer)
  | .read sizeToRead offset =>
    let (flag, bytes, sizeRead) := s.read sizeToRead offset
    .ok (⟨flag, bytes, some sizeRead⟩, s)
  | .write buffer sizeToWrite offset =>
    (s.write buffer sizeToWrite offset).map fun r => (⟨r.1, [], r.2.1⟩, r.2.2)
  | .append buffer bufferSize sizeWritten =>
    (s.append buffer bufferSize sizeWritten).map fun r => (⟨r.1, [], none⟩, r.2)
  | .resize newSize => (s.resize newSize).map fun s => (⟨true, [], none⟩, s)

def run (s : ByteBuffer) : List Call → Except MemoryFault (List Answer × ByteBuffer)
  | [] => .ok ([], s)
  | c :: calls => do
    let (answer, s) ← s.call c
    let (answers, s) ← s.run calls
    .ok (answer :: answers, s)

/-! ## What it is for: a file of bytes -/

abbrev File := SparseFile UInt8 0

def file (s : ByteBuffer) : File := SparseFile.ofList s.buffer

/-- The answer of a call, and what it does to a file. -/
def answer (f : File) : Call → Answer × File
  | .read sizeToRead offset =>
    let bytes := f.read offset.toNat sizeToRead.toNat
    (⟨true, bytes, some (UInt64.ofNat bytes.length)⟩, f)
  | .write buffer sizeToWrite offset =>
    (⟨true, [], if sizeToWrite = 0 then none else some sizeToWrite⟩,
      f.write offset.toNat (buffer.bytes sizeToWrite.toNat))
  | .append buffer bufferSize sizeWritten =>
    (⟨bufferSize ≠ 0 ∨ sizeWritten = 0, [], none⟩, f.write f.size (buffer.bytes bufferSize.toNat))
  | .resize newSize => (⟨true, [], none⟩, f.resize newSize.toNat)

/-- How long the file has to be for a call. -/
def extent (f : File) : Call → Nat
  | .read _ _ => 0
  | .write _ sizeToWrite offset => if sizeToWrite = 0 then 0 else offset.toNat + sizeToWrite.toNat
  | .append _ bufferSize _ => if bufferSize = 0 then 0 else f.size + bufferSize.toNat
  | .resize newSize => newSize.toNat

/-- A call on a file whose length is bounded. Behind that it throws, unless the sum wraps to a length that a
    vector may have: then it copies to where no vector is. -/
def fileCall (f : File) (c : Call) : Except MemoryFault (Answer × File) :=
  if extent f c ≤ vectorMaxSize then .ok (answer f c)
  else .error (if vectorMaxSize < extent f c % 2 ^ 64 then .lengthError else .overrun)

def fileRun (f : File) : List Call → Except MemoryFault (List Answer × File)
  | [] => .ok ([], f)
  | c :: calls => do
    let (answer, f) ← fileCall f c
    let (answers, f) ← fileRun f calls
    .ok (answer :: answers, f)

/-! ## One call -/

theorem toNat_size (s : ByteBuffer) : s.size.toNat = s.buffer.length := by
  have hle := s.length_le
  unfold vectorMaxSize at hle
  rw [size, UInt64.toNat_ofNat', Nat.mod_eq_of_lt (by omega)]

theorem toNat_ne_zero {n : UInt64} (h : n ≠ 0) : n.toNat ≠ 0 := fun hzero => h (UInt64.toNat_inj.mp hzero)

/-- A copy into a vector that has room for it. -/
theorem memcpy_ok (s : ByteBuffer) (offset : UInt64) (data : Bytes)
    (h : offset.toNat + data.length ≤ s.buffer.length) :
    ∃ t, s.memcpy offset data = .ok t ∧ t.buffer = SparseFile.overlay s.buffer offset.toNat data :=
  ⟨_, dif_pos h, rfl⟩

theorem memcpy_overrun {s : ByteBuffer} {offset : UInt64} {data : Bytes}
    (h : s.buffer.length < offset.toNat + data.length) : s.memcpy offset data = .error .overrun :=
  dif_neg (Nat.not_le.mpr h)

theorem resize_ok (s : ByteBuffer) {n : UInt64} (h : n.toNat ≤ vectorMaxSize) :
    ∃ t, s.resize n = .ok t ∧ t.buffer = SparseFile.resized 0 s.buffer n.toNat := ⟨_, dif_pos h, rfl⟩

theorem resize_error (s : ByteBuffer) {n : UInt64} (h : vectorMaxSize < n.toNat) :
    s.resize n = .error .lengthError := dif_neg (Nat.not_le.mpr h)

section
variable {n offset : UInt64}

theorem write_zero (s : ByteBuffer) (buffer : Memory) (offset : UInt64) :
    s.write buffer 0 offset = .ok (true, none, s) := rfl

/-- The sum of `Write` when it does not wrap. -/
theorem toNat_newSize (h : offset.toNat + n.toNat < 2 ^ 64) : (offset + n).toNat = offset.toNat + n.toNat := by
  rw [UInt64.toNat_add, Nat.mod_eq_of_lt h]

/-- A write whose end is not behind the longest vector. -/
theorem write_ok (s : ByteBuffer) (buffer : Memory) (hn : n ≠ 0)
    (hfits : offset.toNat + n.toNat ≤ vectorMaxSize) :
    ∃ t, s.write buffer n offset = .ok (true, some n, t) ∧
      t.file = s.file.write offset.toNat (buffer.bytes n.toNat) := by
  have hmax : vectorMaxSize = 2 ^ 63 - 1 := rfl
  have hnew : (offset + n).toNat = offset.toNat + n.toNat := toNat_newSize (by omega)
  have hlen : (buffer.bytes n.toNat).length = n.toNat := buffer.bytes_length n.toNat
  have hys : (buffer.bytes n.toNat).length ≠ 0 := by
    rw [hlen]
    exact toNat_ne_zero hn
  have hfile := SparseFile.ofList_write (0 : UInt8) s.buffer offset.toNat hys
  have hsmall : s.size < offset + n ↔ s.buffer.length < offset.toNat + n.toNat := by
    rw [UInt64.lt_iff_toNat_lt, toNat_size, hnew]
  rw [hlen] at hfile
  by_cases hgrow : s.size < offset + n
  · obtain ⟨s', hresize, hs'⟩ := s.resize_ok (n := offset + n) (by rw [hnew]; exact hfits)
    rw [hnew] at hs'
    obtain ⟨t, hcopy, ht⟩ := memcpy_ok s' offset (buffer.bytes n.toNat) (by
      rw [hs', SparseFile.resized_length, hlen])
    refine ⟨t, ?_, ?_⟩
    · simp only [write, if_pos hn, if_pos hgrow, hresize, hcopy, bind, Except.bind]
    · rw [if_pos (hsmall.mp hgrow)] at hfile
      rw [file, ht, hs', file, hfile]
  · obtain ⟨t, hcopy, ht⟩ := memcpy_ok s offset (buffer.bytes n.toNat) (by
      rw [hlen]
      exact Nat.not_lt.mp (mt hsmall.mpr hgrow))
    refine ⟨t, ?_, ?_⟩
    · simp only [write, if_pos hn, if_neg hgrow, hcopy, bind, Except.bind]
    · rw [if_neg (mt hsmall.mpr hgrow)] at hfile
      rw [file, ht, file, hfile]

/-- A write whose end is behind it. -/
theorem write_fault (s : ByteBuffer) (buffer : Memory) (hn : n ≠ 0)
    (hfits : ¬ offset.toNat + n.toNat ≤ vectorMaxSize) :
    s.write buffer n offset = .error
      (if vectorMaxSize < (offset.toNat + n.toNat) % 2 ^ 64 then .lengthError else .overrun) := by
  have hle := s.length_le
  have hn64 := n.toNat_lt
  have hsum : (offset + n).toNat = (offset.toNat + n.toNat) % 2 ^ 64 := UInt64.toNat_add _ _
  by_cases hlong : vectorMaxSize < (offset.toNat + n.toNat) % 2 ^ 64
  · have hgrow : s.size < offset + n := by
      rw [UInt64.lt_iff_toNat_lt, toNat_size]
      omega
    have hresize := s.resize_error (n := offset + n) (by omega)
    rw [if_pos hlong]
    simp only [write, if_pos hn, if_pos hgrow, hresize, bind, Except.bind]
  · -- the sum has wrapped, and the copy leaves the vector whether it is resized or not
    rw [if_neg hlong]
    by_cases hgrow : s.size < offset + n
    · obtain ⟨s', hresize, hs'⟩ := s.resize_ok (n := offset + n) (by omega)
      have hcopy : s'.memcpy offset (buffer.bytes n.toNat) = .error .overrun := memcpy_overrun (by
        rw [hs', SparseFile.resized_length, buffer.bytes_length]
        omega)
      simp only [write, if_pos hn, if_pos hgrow, hresize, hcopy, bind, Except.bind]
    · have hcopy : s.memcpy offset (buffer.bytes n.toNat) = .error .overrun := memcpy_overrun (by
        rw [buffer.bytes_length]
        omega)
      simp only [write, if_pos hn, if_neg hgrow, hcopy, bind, Except.bind]

theorem read_eq (s : ByteBuffer) (n offset : UInt64) :
    s.read n offset = (true, s.file.read offset.toNat n.toNat,
      UInt64.ofNat (s.file.read offset.toNat n.toNat).length) := by
  have hsize := s.toNat_size
  have hlt := s.size.toNat_lt
  rw [file, SparseFile.read_ofList]
  unfold read
  by_cases hin : offset < s.size
  · have hin' := UInt64.lt_iff_toNat_lt.mp hin
    have hremaining : (s.size - offset).toNat = s.buffer.length - offset.toNat := by
      rw [UInt64.toNat_sub_of_le _ _ (UInt64.le_of_lt hin), hsize]
    have hmin : (if s.size - offset ≤ n then s.size - offset else n).toNat =
        ((s.buffer.drop offset.toNat).take n.toNat).length := by
      rw [List.length_take, List.length_drop]
      split
      · next h =>
          rw [UInt64.le_iff_toNat_le, hremaining] at h
          omega
      · next h =>
          rw [UInt64.le_iff_toNat_le, hremaining] at h
          omega
    simp only [if_pos hin, Prod.mk.injEq, true_and]
    refine ⟨?_, UInt64.toNat_inj.mp ?_⟩
    · rw [hmin, List.length_take, List.take_eq_take_iff]
      omega
    · rw [hmin, UInt64.toNat_ofNat', Nat.mod_eq_of_lt]
      rw [List.length_take, List.length_drop]
      omega
  · rw [UInt64.lt_iff_toNat_lt, hsize] at hin
    have hnil : s.buffer.drop offset.toNat = [] := List.drop_eq_nil_of_le (by omega)
    rw [if_neg (by rwa [UInt64.lt_iff_toNat_lt, hsize]), hnil, List.take_nil]
    rfl

end

theorem size_file (s : ByteBuffer) : s.file.size = s.buffer.length := rfl

/-- **One call** does to the buffer what it does to the file. -/
theorem call_refines (s : ByteBuffer) (c : Call) :
    (s.call c).map (Prod.map id file) = fileCall s.file c := by
  cases c with
  | read n offset =>
      rw [fileCall, extent, if_pos (Nat.zero_le _), call, answer, s.read_eq n offset]
      rfl
  | write buffer n offset =>
      by_cases hn : n = 0
      · subst hn
        have hfile : s.file.write offset.toNat (buffer.bytes (0 : UInt64).toNat) = s.file :=
          SparseFile.ofList_write_nil (buffer.bytes_length _)
        rw [fileCall, extent, if_pos rfl, if_pos (Nat.zero_le _), call, write_zero, answer, hfile]
        rfl
      · rw [fileCall, extent, if_neg hn, call, answer, if_neg hn]
        by_cases hfits : offset.toNat + n.toNat ≤ vectorMaxSize
        · obtain ⟨t, hwrite, ht⟩ := s.write_ok buffer hn hfits
          rw [if_pos hfits, hwrite, ← ht]
          rfl
        · rw [if_neg hfits, s.write_fault buffer hn hfits]
          rfl
  | append buffer n garbage =>
      have hsize : s.size.toNat = s.file.size := s.toNat_size
      by_cases hn : n = 0
      · subst hn
        have hfile : s.file.write s.file.size (buffer.bytes (0 : UInt64).toNat) = s.file :=
          SparseFile.ofList_write_nil (buffer.bytes_length _)
        have hflag : (true && (0 : UInt64) == garbage) = decide ((0 : UInt64) ≠ 0 ∨ garbage = 0) := by
          rw [Bool.true_and, Bool.eq_iff_iff, beq_iff_eq, decide_eq_true_iff, eq_comm]
          simp
        rw [fileCall, extent, if_pos rfl, if_pos (Nat.zero_le _), call, append, write_zero, answer, hfile,
          ← hflag]
        rfl
      · rw [fileCall, extent, if_neg hn, call, append, answer]
        by_cases hfits : s.size.toNat + n.toNat ≤ vectorMaxSize
        · obtain ⟨t, hwrite, ht⟩ := s.write_ok buffer hn hfits
          rw [hsize] at hfits ht
          have hflag : (true && n == n) = decide (n ≠ 0 ∨ garbage = 0) := by simp [hn]
          rw [if_pos hfits, hwrite, ← ht, ← hflag]
          rfl
        · have hfault := s.write_fault buffer hn hfits
          rw [hsize] at hfits hfault
          rw [if_neg hfits, hfault]
          rfl
  | resize n =>
      rw [fileCall, extent, call, answer]
      by_cases hfits : n.toNat ≤ vectorMaxSize
      · obtain ⟨t, hresize, ht⟩ := s.resize_ok hfits
        rw [if_pos hfits, hresize, file, SparseFile.ofList_resize, ← ht]
        rfl
      · rw [if_neg hfits, s.resize_error (Nat.not_le.mp hfits), if_pos]
        · rfl
        · rw [Nat.mod_eq_of_lt n.toNat_lt]
          exact Nat.not_le.mp hfits

/-- The file after a call that comes back. -/
theorem call_file {s t : ByteBuffer} {c : Call} {a : Answer} (h : s.call c = .ok (a, t)) :
    t.file = (answer s.file c).2 := by
  have hcall := s.call_refines c
  rw [h, fileCall] at hcall
  by_cases hfits : extent s.file c ≤ vectorMaxSize
  · rw [if_pos hfits] at hcall
    exact congrArg Prod.snd (Except.ok.inj hcall)
  · rw [if_neg hfits] at hcall
    cases hcall

/-- Bytes that are appended to a vector with room for them. -/
theorem append_ok {s : ByteBuffer} {buffer : Memory} {n garbage : UInt64}
    (hfits : extent s.file (.append buffer n garbage) ≤ vectorMaxSize) :
    ∃ flag t, s.append buffer n garbage = .ok (flag, t) ∧ t.buffer = s.buffer ++ buffer.bytes n.toNat := by
  have hcall := s.call_refines (.append buffer n garbage)
  rw [call, fileCall, if_pos hfits] at hcall
  cases happend : s.append buffer n garbage with
  | error fault =>
      rw [happend] at hcall
      cases hcall
  | ok r =>
      rw [happend] at hcall
      have hfile : r.2.file = s.file.write s.file.size (buffer.bytes n.toNat) :=
        congrArg Prod.snd (Except.ok.inj hcall)
      refine ⟨r.1, r.2, rfl, SparseFile.ofList_injective (0 : UInt8) ?_⟩
      exact hfile.trans (SparseFile.ofList_append 0 s.buffer _)

/-- What the parser does with a partial message: the bytes are appended, unless the vector would be too long. -/
theorem append_eq (s : ByteBuffer) (buffer : Memory) {n : UInt64} (garbage : UInt64) (hn : n.toNat < 2 ^ 32) :
    s.append buffer n garbage = .error .lengthError ∨
      ∃ flag t, s.append buffer n garbage = .ok (flag, t) ∧ t.buffer = s.buffer ++ buffer.bytes n.toNat := by
  have hle := s.length_le
  have hmax : vectorMaxSize = 2 ^ 63 - 1 := rfl
  have hextent : extent s.file (.append buffer n garbage) < 2 ^ 64 := by
    rw [extent, size_file]
    split <;> omega
  by_cases hfits : extent s.file (.append buffer n garbage) ≤ vectorMaxSize
  · exact .inr (append_ok hfits)
  · left
    have hcall := s.call_refines (.append buffer n garbage)
    rw [call, fileCall, if_neg hfits, Nat.mod_eq_of_lt hextent, if_pos (Nat.not_le.mp hfits)] at hcall
    cases happend : s.append buffer n garbage with
    | error fault =>
        rw [happend] at hcall
        exact congrArg Except.error (Except.error.inj hcall)
    | ok r =>
        rw [happend] at hcall
        cases hcall

/-- **Any list of calls** has the answers that the file says, and the first fault where the file says. -/
theorem run_eq (s : ByteBuffer) (calls : List Call) :
    (s.run calls).map (Prod.map id file) = fileRun s.file calls := by
  induction calls generalizing s with
  | nil => rfl
  | cons c calls ih =>
      have hcall := s.call_refines c
      rw [run, fileRun, ← hcall]
      cases hc : s.call c with
      | error fault => rfl
      | ok r =>
          obtain ⟨answer, t⟩ := r
          have hrest := ih t
          simp only [bind, Except.bind, Except.map, Prod.map_apply, id_eq]
          rw [← hrest]
          cases t.run calls <;> rfl

/-! ## What is written stays -/

/-- The call leaves the `n` bytes from `offset` on as they are. -/
def Call.LeavesAlone (offset n : Nat) : Call → Prop
  | .read _ _ => True
  | .write _ sizeToWrite offset' =>
    sizeToWrite = 0 ∨ offset'.toNat + sizeToWrite.toNat ≤ offset ∨ offset + n ≤ offset'.toNat
  | .append _ _ _ => True
  | .resize newSize => offset + n ≤ newSize.toNat

/-- A range of the file that a call leaves alone. -/
theorem answer_leavesAlone {f : File} {c : Call} {offset n : Nat} (hin : offset + n ≤ f.size)
    (h : c.LeavesAlone offset n) :
    offset + n ≤ (answer f c).2.size ∧ (answer f c).2.read offset n = f.read offset n := by
  cases c with
  | read _ _ => exact ⟨hin, rfl⟩
  | write buffer m offset' =>
      have hlen : (buffer.bytes m.toNat).length = m.toNat := buffer.bytes_length _
      refine ⟨hin.trans (f.size_le_write _ _), f.read_write_disjoint hin ?_⟩
      have hapart : m = 0 ∨ offset'.toNat + m.toNat ≤ offset ∨ offset + n ≤ offset'.toNat := h
      rw [hlen]
      exact hapart.imp_left (congrArg UInt64.toNat)
  | append buffer m _ =>
      exact ⟨hin.trans (f.size_le_write _ _), f.read_write_disjoint hin (.inr (.inr hin))⟩
  | resize m => exact ⟨h, f.read_resize hin h⟩

theorem run_leavesAlone {s t : ByteBuffer} {calls : List Call} {answers : List Answer} {offset n : Nat}
    (hin : offset + n ≤ s.file.size) (h : ∀ c ∈ calls, c.LeavesAlone offset n) (hrun : s.run calls = .ok (answers, t)) :
    t.file.read offset n = s.file.read offset n := by
  induction calls generalizing s answers with
  | nil =>
      obtain ⟨-, rfl⟩ := Prod.mk.inj (Except.ok.inj hrun)
      rfl
  | cons c calls ih =>
      obtain ⟨hin', hread⟩ := answer_leavesAlone hin (h c List.mem_cons_self)
      rw [run] at hrun
      cases hc : s.call c with
      | error fault =>
          simp only [bind, Except.bind, hc] at hrun
          cases hrun
      | ok r =>
          obtain ⟨a, s'⟩ := r
          rw [← call_file hc] at hin' hread
          cases hrest : s'.run calls with
          | error fault =>
              simp only [bind, Except.bind, hc, hrest] at hrun
              cases hrun
          | ok r =>
              simp only [bind, Except.bind, hc, hrest] at hrun
              obtain ⟨-, rfl⟩ := Prod.mk.inj (Except.ok.inj hrun)
              exact (ih hin' (fun c' hc' => h c' (List.mem_cons_of_mem _ hc')) hrest).trans hread

/-- **What is written stays** until a call writes over it or cuts it off: it is read back after any calls that
    leave it alone. -/
theorem read_of_written {s t u : ByteBuffer} {buffer : Memory} {n offset : UInt64} {written : Option UInt64}
    (calls : List Call) {answers : List Answer} (hwrite : s.write buffer n offset = .ok (true, written, t))
    (hrun : t.run calls = .ok (answers, u)) (halone : ∀ c ∈ calls, c.LeavesAlone offset.toNat n.toNat) :
    u.read n offset = (true, buffer.bytes n.toNat, n) := by
  have hlen : (buffer.bytes n.toNat).length = n.toNat := buffer.bytes_length _
  suffices hread : u.file.read offset.toNat n.toNat = buffer.bytes n.toNat by
    rw [u.read_eq, hread, hlen, UInt64.ofNat_toNat]
  by_cases hn : n = 0
  · subst hn
    exact List.eq_nil_of_length_eq_zero (by simp)
  · by_cases hfits : offset.toNat + n.toNat ≤ vectorMaxSize
    · obtain ⟨t', hwrite', ht⟩ := s.write_ok buffer hn hfits
      obtain ⟨-, -, rfl⟩ : true = true ∧ some n = written ∧ t' = t := by
        rw [hwrite] at hwrite'
        simpa [eq_comm] using Except.ok.inj hwrite'
      have hback := s.file.read_write_same offset.toNat (buffer.bytes n.toNat)
      rw [← ht, hlen] at hback
      refine (run_leavesAlone ?_ halone hrun).trans hback
      have hin : ((t'.file.read offset.toNat n.toNat)).length = n.toNat := by rw [hback, hlen]
      rw [SparseFile.read_length] at hin
      have := toNat_ne_zero hn
      omega
    · rw [s.write_fault buffer hn hfits] at hwrite
      cases hwrite

/-- Two bytes behind a gap, then one behind them and one over the gap. -/
theorem read_of_written_behindGap :
    read ⟨[0, 9, 0, 5, 6, 7], by decide⟩ 2 3 = (true, [5, 6], 2) :=
  have hwrite : empty.write (Memory.ofBytes [5, 6]) 2 3 =
      .ok (true, some 2, ⟨[0, 0, 0, 5, 6], by decide⟩) := rfl
  read_of_written [.append (Memory.ofBytes [7]) 1 0, .write (Memory.ofBytes [9]) 1 1, .resize 6] hwrite rfl
    (by
      intro c hc
      simp only [List.mem_cons, List.not_mem_nil, or_false] at hc
      rcases hc with rfl | rfl | rfl
      · trivial
      · exact .inr (.inl (by decide))
      · show _ ≤ _
        decide)

end ByteBuffer
end IDevice
