import IDevice.Lib.Machine
import IDevice.Lib.Mask
import IDevice.Message.Primitive

/-!
# `Utils.BufferMemory` — the growing buffer under the parser

`BufferMemory` (`bytebuffer.h`) keeps a block of memory, how much of it is used and how long it is. Whether
an allocation succeeds is not up to the code, so `malloc` and `realloc` come with an answer: `none` when they
fail, and otherwise what the bytes that they do not define happen to be.

`Rep` is the representation invariant and `AllocateKeeps` what a call of `Allocate` should do to it. Two
things break it: `Reserve` overwrites `buffer_` with the null pointer of a failed `realloc`, and neither the sum
`size_ + req_size` nor the rounding is checked for an overflow.
-/

namespace IDevice

/-- The answer of `malloc` or `realloc`: the undefined bytes of the block, unless it fails. -/
abbrev AllocAnswer := Option (Nat → UInt8)

/-- `malloc(n)`. -/
def malloc (n : Nat) (answer : AllocAnswer) : Option Bytes := answer.map fun undefined => (List.range n).map undefined

/-- `realloc(block, n)`, which keeps the bytes that both blocks have. -/
def realloc (block : Bytes) (n : Nat) (answer : AllocAnswer) : Option Bytes :=
  answer.map fun undefined => block.take n ++ (List.range (n - block.length)).map undefined

/-- `buffer` is the block that `buffer_` points to, with all its bytes. -/
structure BufferMemory where
  buffer : Option Bytes := none
  size : UInt64 := 0
  capacity : UInt64 := 0

namespace BufferMemory

/-- The bytes behind `buffer_`. -/
def block (s : BufferMemory) : Bytes := s.buffer.getD []

def reserve (s : BufferMemory) (capacity : UInt64) (answer : AllocAnswer) : Bool × BufferMemory :=
  let newCapacity := memAlign capacity 128
  let buffer := match s.buffer with
    | none => malloc newCapacity.toNat answer
    | some block => realloc block newCapacity.toNat answer
  match buffer with
  | some block => (true, { s with buffer := some block, capacity := newCapacity })
  | none => (false, { s with buffer := none })

/-- `buffer_ + size_`, as an offset from `buffer_`; `none` is the null pointer. -/
def ptr (s : BufferMemory) : Option UInt64 :=
  if s.buffer = none ∧ s.size = 0 then none else some s.size

def allocate (s : BufferMemory) (reqSize : UInt64) (answer : AllocAnswer) : Option UInt64 × BufferMemory :=
  if s.capacity - s.size < reqSize then
    match s.reserve (s.size + reqSize) answer with
    | (false, s) => (none, s)
    | (true, s) => (s.ptr, { s with size := s.size + reqSize })
  else (s.ptr, { s with size := s.size + reqSize })

def setSize (s : BufferMemory) (size : UInt64) : BufferMemory := { s with size := size }

/-! ## What it should do -/

/-- The representation invariant. -/
structure Rep (s : BufferMemory) : Prop where
  size_le : s.size ≤ s.capacity
  /-- The capacity is the size of the block, and 0 without a block. -/
  capacity : s.block.length = s.capacity.toNat

/-- A call of `Allocate` keeps the invariant; when it succeeds there is room for the bytes behind those that
    were there before, and when it fails nothing has changed. -/
structure AllocateKeeps (s : BufferMemory) (reqSize : UInt64) (answer : AllocAnswer) : Prop where
  rep : (s.allocate reqSize answer).2.Rep
  success : ∀ offset, (s.allocate reqSize answer).1 = some offset →
    offset = s.size ∧ (s.allocate reqSize answer).2.size.toNat = s.size.toNat + reqSize.toNat ∧
      s.size.toNat + reqSize.toNat ≤ (s.allocate reqSize answer).2.block.length ∧
      (s.allocate reqSize answer).2.block.take s.size.toNat = s.block.take s.size.toNat
  failure : (s.allocate reqSize answer).1 = none → (s.allocate reqSize answer).2 = s

/-- The calls of the parser. -/
inductive Call where
  | allocate (reqSize : UInt64) (answer : AllocAnswer)
  | setSize (size : UInt64)

/-- `SetSize` is called with at most `Size()`. -/
def step (s : BufferMemory) : Call → Option BufferMemory
  | .allocate reqSize answer => some (s.allocate reqSize answer).2
  | .setSize size => if size ≤ s.size then some (s.setSize size) else none

/-- The call does what it should. -/
def Keeps (s : BufferMemory) : Call → Prop
  | .allocate reqSize answer => s.AllocateKeeps reqSize answer
  | .setSize size => size ≤ s.size → (s.setSize size).Rep

/-- The buffer does not have to grow; or it grows without an overflow and the allocation succeeds; or there is
    no block yet and the allocation fails. -/
def CanGrow (s : BufferMemory) : Call → Prop
  | .allocate reqSize answer => s.capacity - s.size < reqSize →
      answer.isSome = true ∧ s.size.toNat + reqSize.toNat + 127 < 2 ^ 64 ∨ answer = none ∧ s.buffer = none
  | .setSize _ => True

/-! ## `Reserve` -/

theorem memAlign_128 (v : UInt64) : (memAlign v 128).toNat = 128 * ((v.toNat + 127) % 2 ^ 64 / 128) := by
  have hmask : (~~~((128 : UInt64) - 1)).toNat = Mask.ones 7 57 := by decide
  have hsum : (v + 128 - 1).toNat = (v.toNat + 127) % 2 ^ 64 := by
    have hone : (1 : UInt64).toNat = 1 := rfl
    have halign : (128 : UInt64).toNat = 128 := rfl
    rw [UInt64.toNat_sub, UInt64.toNat_add, hone, halign]
    omega
  rw [memAlign, UInt64.toNat_and, hsum, hmask, Mask.and_ones]
  omega

section
variable {s : BufferMemory} {capacity : UInt64} {undefined : Nat → UInt8}

theorem reserve_none (s : BufferMemory) (capacity : UInt64) :
    s.reserve capacity none = (false, { s with buffer := none }) := by
  unfold reserve malloc realloc
  cases s.buffer <;> rfl

/-- A new block has the bytes of the old one as far as both go. -/
theorem reserve_some (s : BufferMemory) (capacity : UInt64) (undefined : Nat → UInt8) :
    ∃ block, s.reserve capacity (some undefined) =
        (true, { s with buffer := some block, capacity := memAlign capacity 128 }) ∧
      block.length = (memAlign capacity 128).toNat ∧
      ∀ n ≤ s.block.length, n ≤ block.length → block.take n = s.block.take n := by
  unfold reserve malloc realloc BufferMemory.block
  cases hbuffer : s.buffer with
  | none =>
      refine ⟨_, rfl, by simp, fun n hn _ => ?_⟩
      obtain rfl : n = 0 := by simpa using hn
      simp
  | some old =>
      refine ⟨_, rfl, ?_, fun n hn hn' => ?_⟩
      · rw [List.length_append, List.length_take, List.length_map, List.length_range]
        omega
      · simp only [Option.getD_some] at hn ⊢
        rw [List.length_append, List.length_take, List.length_map, List.length_range] at hn'
        rw [List.take_append_of_le_length (by rw [List.length_take]; omega), List.take_take,
          Nat.min_eq_left (by omega)]

end

/-! ## `Allocate` -/

section
variable {s : BufferMemory} {n : UInt64}

theorem allocate_fits (answer : AllocAnswer) (h : ¬ s.capacity - s.size < n) :
    s.allocate n answer = (s.ptr, { s with size := s.size + n }) := if_neg h

theorem allocate_fails (h : s.capacity - s.size < n) :
    s.allocate n none = (none, { s with buffer := none }) := by
  rw [allocate, if_pos h, reserve_none]

theorem allocate_grows (undefined : Nat → UInt8) (h : s.capacity - s.size < n) :
    ∃ block, s.allocate n (some undefined) = (some s.size,
        { buffer := some block, size := s.size + n, capacity := memAlign (s.size + n) 128 }) ∧
      block.length = (memAlign (s.size + n) 128).toNat ∧
      ∀ k ≤ s.block.length, k ≤ block.length → block.take k = s.block.take k := by
  obtain ⟨block, hreserve, hlength, htake⟩ := reserve_some s (s.size + n) undefined
  refine ⟨block, ?_, hlength, htake⟩
  rw [allocate, if_pos h, hreserve]
  simp [ptr]

/-- The comparison of `Allocate`, which does not wrap. -/
theorem Rep.lt_iff (h : s.Rep) : s.capacity - s.size < n ↔ s.capacity.toNat < s.size.toNat + n.toNat := by
  have hle := UInt64.le_iff_toNat_le.mp h.size_le
  rw [UInt64.lt_iff_toNat_lt, UInt64.toNat_sub_of_le _ _ h.size_le]
  omega

/-- Bytes for which there is room. -/
theorem Rep.keeps_fits (h : s.Rep) (answer : AllocAnswer) (hfits : ¬ s.capacity - s.size < n) :
    s.AllocateKeeps n answer := by
  have hroom := mt h.lt_iff.mpr hfits
  have hlt := s.capacity.toNat_lt
  have hsum : (s.size + n).toNat = s.size.toNat + n.toNat := by
    rw [UInt64.toNat_add]
    omega
  have hcapacity := h.capacity
  have heq := allocate_fits answer hfits
  refine ⟨?_, ?_, ?_⟩
  · rw [heq]
    exact ⟨UInt64.le_iff_toNat_le.mpr (by
      show (s.size + n).toNat ≤ s.capacity.toNat
      omega), hcapacity⟩
  · intro offset hoffset
    rw [heq] at hoffset ⊢
    have hsize : offset = s.size := by
      unfold ptr at hoffset
      split at hoffset
      · exact absurd hoffset (by simp)
      · exact (Option.some.inj hoffset).symm
    have hblock : ({ s with size := s.size + n } : BufferMemory).block = s.block := rfl
    exact ⟨hsize, hsum, by rw [hblock]; omega, by rw [hblock]⟩
  · intro hnull
    rw [heq] at hnull ⊢
    -- without a block there is no capacity, so nothing is asked for
    have hnone : s.buffer = none ∧ s.size = 0 := by
      by_contra hno
      exact absurd hnull (by simp [ptr, hno])
    have hblock : s.block.length = 0 := by simp [block, hnone.1]
    obtain rfl : n = 0 := UInt64.toNat_inj.mp (by
      have : (0 : UInt64).toNat = 0 := rfl
      omega)
    rw [UInt64.add_zero]

/-- A failure is clean exactly when there is no block that could be lost. -/
theorem Rep.keeps_fails_iff (h : s.Rep) (hgrow : s.capacity - s.size < n) :
    s.AllocateKeeps n none ↔ s.buffer = none := by
  have heq := allocate_fails hgrow
  constructor
  · intro hkeeps
    have hsame := hkeeps.failure (by rw [heq])
    rw [heq] at hsame
    exact (congrArg BufferMemory.buffer hsame).symm
  · intro hnone
    have hsame : ({ s with buffer := none } : BufferMemory) = s := by
      cases s
      exact congrArg (BufferMemory.mk · _ _) hnone.symm
    rw [hsame] at heq
    refine ⟨by rwa [heq], fun offset hoffset => ?_, fun _ => by rw [heq]⟩
    rw [heq] at hoffset
    exact absurd hoffset (by simp)

/-- The buffer grows as it should exactly when nothing overflows. -/
theorem Rep.keeps_grows_iff (h : s.Rep) (undefined : Nat → UInt8) (hgrow : s.capacity - s.size < n) :
    s.AllocateKeeps n (some undefined) ↔ s.size.toNat + n.toNat + 127 < 2 ^ 64 := by
  obtain ⟨block, heq, hlength, htake⟩ := allocate_grows undefined hgrow
  have halign := memAlign_128 (s.size + n)
  have hgrow' := h.lt_iff.mp hgrow
  have hle := UInt64.le_iff_toNat_le.mp h.size_le
  have hcapacity := h.capacity
  have hadd : (s.size + n).toNat = (s.size.toNat + n.toNat) % 2 ^ 64 := UInt64.toNat_add _ _
  constructor
  · intro hkeeps
    -- the room that is promised lies in a block whose size has wrapped, unless nothing overflows
    obtain ⟨-, -, hroom, -⟩ := hkeeps.success s.size (by rw [heq])
    rw [heq] at hroom
    have hblock : s.size.toNat + n.toNat ≤ block.length := hroom
    omega
  · intro hlt
    refine ⟨?_, ?_, ?_⟩
    · rw [heq]
      exact ⟨UInt64.le_iff_toNat_le.mpr (by
        show (s.size + n).toNat ≤ (memAlign (s.size + n) 128).toNat
        omega), hlength⟩
    · intro offset hoffset
      rw [heq] at hoffset ⊢
      refine ⟨(Option.some.inj hoffset).symm, ?_, ?_, htake _ (by omega) (by omega)⟩
      · show (s.size + n).toNat = _
        omega
      · show _ ≤ block.length
        omega
    · intro hnull
      rw [heq] at hnull
      exact absurd hnull (by simp)

/-- **One call of `Allocate`** does what it should exactly when the buffer can grow. -/
theorem Rep.allocateKeeps_iff (h : s.Rep) (answer : AllocAnswer) :
    s.AllocateKeeps n answer ↔ s.CanGrow (.allocate n answer) := by
  unfold CanGrow
  by_cases hgrow : s.capacity - s.size < n
  · cases answer with
    | none => simp [h.keeps_fails_iff hgrow, hgrow]
    | some undefined => simp [h.keeps_grows_iff undefined hgrow, hgrow]
  · exact iff_of_true (h.keeps_fits answer hgrow) fun hlt => absurd hlt hgrow

theorem Rep.setSize (h : s.Rep) {size : UInt64} (hle : size ≤ s.size) : (s.setSize size).Rep :=
  ⟨UInt64.le_trans hle h.size_le, h.capacity⟩

theorem Rep.keeps_iff (h : s.Rep) (c : Call) : s.Keeps c ↔ s.CanGrow c := by
  cases c with
  | allocate n answer => exact h.allocateKeeps_iff answer
  | setSize size => exact iff_of_true (fun hle => h.setSize hle) trivial

theorem Rep.of_keeps {t : BufferMemory} {c : Call} (hkeeps : s.Keeps c) (hstep : s.step c = some t) : t.Rep := by
  cases c with
  | allocate n answer =>
      obtain rfl := Option.some.inj hstep
      exact hkeeps.rep
  | setSize size =>
      have hset : (if size ≤ s.size then some (s.setSize size) else none) = some t := hstep
      split at hset
      · obtain rfl := Option.some.inj hset
        exact hkeeps ‹_›
      · cases hset

end

/-! ## All calls -/

theorem rep_init : ({} : BufferMemory).Rep := ⟨by decide, rfl⟩

/-- **Every call of a run does what it should** exactly when the buffer can grow in every call. -/
theorem keeps_iff_canGrow (calls : List Call) :
    Machine.Follows step Keeps {} calls ↔ Machine.Follows step CanGrow {} calls :=
  Machine.follows_congr Rep (fun _ c h => h.keeps_iff c)
    (fun _ _ _ _ hkeeps hstep => Rep.of_keeps hkeeps hstep) rep_init

/-- A second allocation of 100 bytes for which `realloc` fails: the block of the first one is lost. And one of
    `2 ^ 64 - 1` bytes behind 100: the sum wraps, and the call succeeds. -/
theorem not_keeps_reallocFails :
    ¬ Machine.Follows step Keeps {} [.allocate 100 (some fun _ => 0), .allocate 100 none] ∧
    ¬ Machine.Follows step Keeps {}
        [.allocate 100 (some fun _ => 0), .allocate (0 - 1) (some fun _ => 0)] := by
  have hrep : (({} : BufferMemory).allocate 100 (some fun _ => 0)).2.Rep :=
    ((rep_init.keeps_iff (.allocate 100 _)).mpr fun _ => .inl ⟨rfl, by decide⟩).rep
  constructor
  · rintro ⟨-, hkeeps, -⟩
    have hlost := (hrep.keeps_fails_iff (by decide)).mp hkeeps
    exact absurd hlost (by simp [allocate, reserve, malloc])
  · rintro ⟨-, hkeeps, -⟩
    exact absurd ((hrep.keeps_grows_iff _ (by decide)).mp hkeeps) (by decide)

/-! ## The bytes -/

/-- The bytes that are used. -/
def contents (s : BufferMemory) : Bytes := s.block.take s.size.toNat

/-- `memcpy(GetPtr(offset), data, ..)`. -/
def memcpy (s : BufferMemory) (offset : Nat) (data : Bytes) : BufferMemory :=
  { s with buffer := s.buffer.map fun block => block.take offset ++ data ++ block.drop (offset + data.length) }

/-- `memmove(GetPtr(0), GetPtr(offset), len)`. -/
def memmove (s : BufferMemory) (offset len : Nat) : BufferMemory :=
  { s with buffer := s.buffer.map fun block => (block.drop offset).take len ++ block.drop len }

/-- **What `ParseIncomingBytes` does first**: it appends a packet to the bytes that are used. -/
theorem AllocateKeeps.contents_append {s : BufferMemory} {n : UInt64} {answer : AllocAnswer} {offset : UInt64}
    (h : s.AllocateKeeps n answer) (hsuccess : (s.allocate n answer).1 = some offset) {data : Bytes}
    (hdata : data.length = n.toNat) :
    ((s.allocate n answer).2.memcpy offset.toNat data).contents = s.contents ++ data := by
  obtain ⟨rfl, hsize, hroom, hkept⟩ := h.success offset hsuccess
  generalize (s.allocate n answer).2 = t at hsize hroom hkept
  have hblock : (t.memcpy s.size.toNat data).block =
      t.block.take s.size.toNat ++ data ++ t.block.drop (s.size.toNat + data.length) := by
    cases hbuffer : t.buffer with
    | none =>
        have hempty : t.block = [] := by simp [block, hbuffer]
        rw [hempty] at hroom
        have : data = [] := List.length_eq_zero_iff.mp (by
          rw [List.length_nil] at hroom
          omega)
        simp [memcpy, block, hbuffer, this]
    | some old => simp [memcpy, block, hbuffer]
  have hfront : (t.block.take s.size.toNat ++ data).length = t.size.toNat := by
    rw [List.length_append, List.length_take, hdata, hsize]
    omega
  have hsame : (t.memcpy s.size.toNat data).size = t.size := rfl
  rw [contents, hblock, hsame, ← hfront, List.take_left', hkept, contents]
  rfl

/-- **What it does last**: it moves the bytes behind the consumed ones to the front. -/
theorem Rep.contents_shift {s : BufferMemory} (h : s.Rep) {consumed rest : UInt64}
    (hsplit : consumed.toNat + rest.toNat = s.size.toNat) :
    ((s.memmove consumed.toNat rest.toNat).setSize rest).contents = s.contents.drop consumed.toNat := by
  have hle := UInt64.le_iff_toNat_le.mp h.size_le
  have hcapacity := h.capacity
  have hblock : (s.memmove consumed.toNat rest.toNat).block =
      (s.block.drop consumed.toNat).take rest.toNat ++ s.block.drop rest.toNat := by
    cases hbuffer : s.buffer <;> simp [memmove, block, hbuffer]
  have hlength : ((s.block.drop consumed.toNat).take rest.toNat).length = rest.toNat := by
    rw [List.length_take, List.length_drop]
    omega
  show ((s.memmove consumed.toNat rest.toNat).block).take rest.toNat = _
  rw [hblock, List.take_left' hlength, contents, List.drop_take]
  congr 1
  omega

end BufferMemory
end IDevice
