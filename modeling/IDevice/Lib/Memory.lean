import IDevice.Lib.LittleEndian

/-!
# `Lib.Memory` — reading through a pointer

A pointer that is only read is a function from offsets to bytes (`Memory`), with no end: code that does
not check a length reads whatever is there. What it reads is recorded as a list of `Window`s, and
`Inside n` says that a window lies in the first `n` bytes.

`m.Shows b` says that the memory begins with the bytes `b`. A read inside `b` is then a field of `b`
(`word_eq_field`), whatever lies behind. `strncpy` stops at the first zero byte, so it may read less
than it is told to (`strncpyReads_le_iff`).
-/

open LittleEndian

/-- The bytes at and behind a pointer. -/
abbrev Memory := Nat → UInt8

namespace Memory

/-- The pointer `m + k`. -/
def after (m : Memory) (k : Nat) : Memory := fun i => m (k + i)

/-- The first `n` bytes. -/
def bytes (m : Memory) (n : Nat) : List UInt8 := (List.range n).map m

/-- The little-endian word of `w` bytes at offset `off`. -/
def word (m : Memory) (off w : Nat) : Nat := ofLE ((m.after off).bytes w)

/-- The memory begins with `b`. -/
def Shows (m : Memory) (b : List UInt8) : Prop := ∀ i (h : i < b.length), m i = b[i]

/-- The memory that shows `b` and is zero behind it. -/
def ofBytes (b : List UInt8) : Memory := fun i => b.getD i 0

@[simp] theorem bytes_length (m : Memory) (n : Nat) : (m.bytes n).length = n := by simp [bytes]

theorem after_after (m : Memory) (j k : Nat) : (m.after j).after k = m.after (j + k) := by
  funext i
  simp [after, Nat.add_assoc]

theorem after_word (m : Memory) (k off w : Nat) : (m.after k).word off w = m.word (k + off) w := by
  rw [word, after_after, word]

theorem shows_ofBytes (b : List UInt8) : (ofBytes b).Shows b := by
  intro i hi
  simp [ofBytes, List.getD_eq_getElem?_getD, hi]

theorem Shows.bytes_after {m : Memory} {b : List UInt8} (h : m.Shows b) {off n : Nat}
    (hin : off + n ≤ b.length) : (m.after off).bytes n = (b.drop off).take n := by
  apply List.ext_getElem
  · simp only [bytes_length, List.length_take, List.length_drop]
    omega
  · intro i h1 h2
    rw [bytes_length] at h1
    simp [bytes, after, h (off + i) (by omega)]

/-- A word that lies inside `b` is a field of `b`. -/
theorem Shows.word_eq_field {m : Memory} {b : List UInt8} (h : m.Shows b) {off w : Nat}
    (hin : off + w ≤ b.length) : m.word off w = field b off w := by
  rw [word, h.bytes_after hin, field]

/-- The bytes shown are the bytes read. -/
theorem Shows.bytes_eq {m : Memory} {b : List UInt8} (h : m.Shows b) : m.bytes b.length = b := by
  have hzero : m.after 0 = m := funext fun i => congrArg m (Nat.zero_add i)
  have hall := h.bytes_after (show 0 + b.length ≤ b.length by omega)
  rwa [hzero, List.drop_zero, List.take_length] at hall

/-- The bytes copied from the front of a block. -/
theorem bytes_ofBytes {b : List UInt8} {n : Nat} (h : n ≤ b.length) : (ofBytes b).bytes n = b.take n := by
  have hzero : (ofBytes b).after 0 = ofBytes b := funext fun i => congrArg (ofBytes b) (Nat.zero_add i)
  have hall := (shows_ofBytes b).bytes_after (show 0 + n ≤ b.length by omega)
  rwa [hzero, List.drop_zero] at hall

/-- Bytes one behind the other are shown one behind the other. -/
theorem shows_append {m : Memory} {b t : List UInt8} :
    m.Shows (b ++ t) ↔ m.Shows b ∧ (m.after b.length).Shows t := by
  constructor
  · intro h
    refine ⟨fun i hi => ?_, fun i hi => ?_⟩
    · rw [h i (by rw [List.length_append]; omega), List.getElem_append_left hi]
    · rw [after, h (b.length + i) (by rw [List.length_append]; omega),
        List.getElem_append_right (by omega)]
      simp
  · rintro ⟨hb, hc⟩ i hi
    by_cases hlt : i < b.length
    · rw [List.getElem_append_left hlt]
      exact hb i hlt
    · obtain ⟨j, rfl⟩ : ∃ j, i = b.length + j := ⟨i - b.length, by omega⟩
      rw [List.length_append] at hi
      rw [List.getElem_append_right (by omega)]
      have hval : m (b.length + j) = t[j] := hc j (by omega)
      simpa using hval

theorem shows_cons {m : Memory} {x : UInt8} {b : List UInt8} :
    m.Shows (x :: b) ↔ m 0 = x ∧ (m.after 1).Shows b := by
  have hone : m.Shows [x] ↔ m 0 = x := by
    constructor
    · intro h
      exact h 0 (by simp)
    · intro h i hi
      obtain rfl : i = 0 := by simpa using hi
      exact h
  have happend := shows_append (m := m) (b := [x]) (t := b)
  rwa [hone] at happend

/-- A word shown is read back. -/
theorem Shows.word_toLE {m : Memory} {off w n : Nat} (h : (m.after off).Shows (toLE w n))
    (hn : n < 256 ^ w) : m.word off w = n := by
  have hbytes := h.bytes_eq
  rw [toLE_length] at hbytes
  rw [word, hbytes, ofLE_toLE_of_lt hn]

/-! ## C strings -/

/-- What `strncpy(d, m, n)` writes: the bytes before the first zero, and zeros behind them. -/
def strncpy (m : Memory) : Nat → List UInt8
  | 0 => []
  | n + 1 => if m 0 = 0 then List.replicate (n + 1) 0 else m 0 :: (m.after 1).strncpy n

/-- How many bytes `strncpy(d, m, n)` reads. -/
def strncpyReads (m : Memory) : Nat → Nat
  | 0 => 0
  | n + 1 => if m 0 = 0 then 1 else 1 + (m.after 1).strncpyReads n

@[simp] theorem strncpy_length (m : Memory) (n : Nat) : (m.strncpy n).length = n := by
  induction n generalizing m with
  | zero => rfl
  | succ n ih =>
      rw [strncpy]
      split
      · simp
      · simp [ih]

/-- Behind the first zero of `b` there are only zeros. -/
def ZeroPadded (b : List UInt8) : Prop := ∀ x ∈ b.dropWhile (· ≠ 0), x = 0

instance (b : List UInt8) : Decidable (ZeroPadded b) :=
  show Decidable (∀ x ∈ b.dropWhile (· ≠ 0), x = 0) from List.decidableBAll _ _

theorem zeroPadded_cons {x : UInt8} {b : List UInt8} :
    ZeroPadded (x :: b) ↔ if x = 0 then ∀ y ∈ b, y = 0 else ZeroPadded b := by
  unfold ZeroPadded
  by_cases hx : x = 0
  · simp [hx]
  · simp [hx]

/-- What `strncpy` writes has no byte behind a zero. -/
theorem strncpy_zeroPadded (m : Memory) (n : Nat) : ZeroPadded (m.strncpy n) := by
  induction n generalizing m with
  | zero => simp [strncpy, ZeroPadded]
  | succ n ih =>
      rw [strncpy]
      by_cases hzero : m 0 = 0
      · rw [if_pos hzero, List.replicate_succ, zeroPadded_cons, if_pos rfl]
        exact fun y hy => List.eq_of_mem_replicate hy
      · rw [if_neg hzero, zeroPadded_cons, if_neg hzero]
        exact ih (m.after 1)

/-- **`strncpy` copies the bytes shown** unless one of them lies behind a zero. -/
theorem Shows.strncpy_eq_iff {m : Memory} {b : List UInt8} (h : m.Shows b) :
    m.strncpy b.length = b ↔ ZeroPadded b := by
  induction b generalizing m with
  | nil => simp [strncpy, ZeroPadded]
  | cons x b ih =>
      obtain ⟨hx, hb⟩ := shows_cons.mp h
      rw [List.length_cons, strncpy, hx, zeroPadded_cons]
      by_cases hzero : x = 0
      · have hall : List.replicate b.length 0 = b ↔ ∀ y ∈ b, y = 0 := by
          rw [eq_comm, List.eq_replicate_iff]
          simp
        rw [if_pos hzero, if_pos hzero, hzero, List.replicate_succ, List.cons.injEq, hall]
        simp
      · rw [if_neg hzero, if_neg hzero, List.cons.injEq, ih hb]
        simp

/-- `strncpy` only depends on the bytes it may read. -/
theorem Shows.strncpy_congr {m m' : Memory} {b : List UInt8} (h : m.Shows b) (h' : m'.Shows b) :
    m.strncpy b.length = m'.strncpy b.length := by
  induction b generalizing m m' with
  | nil => rfl
  | cons x b ih =>
      obtain ⟨hx, hb⟩ := shows_cons.mp h
      obtain ⟨hx', hb'⟩ := shows_cons.mp h'
      rw [List.length_cons, strncpy, strncpy, hx, hx', ih hb hb']

/-- `strncpy` stays in the first `r` bytes when it has no more to read, or meets a zero there. -/
theorem strncpyReads_le_iff (m : Memory) (n r : Nat) :
    m.strncpyReads n ≤ r ↔ n ≤ r ∨ ∃ i, i < r ∧ i < n ∧ m i = 0 := by
  induction n generalizing m r with
  | zero => simp [strncpyReads]
  | succ n ih =>
      rw [strncpyReads]
      by_cases hzero : m 0 = 0
      · rw [if_pos hzero]
        constructor
        · intro hr
          exact .inr ⟨0, by omega, by omega, hzero⟩
        · rintro (hr | ⟨i, hi, -, -⟩) <;> omega
      · rw [if_neg hzero]
        cases r with
        | zero => simp
        | succ r =>
            have hstep : 1 + (m.after 1).strncpyReads n ≤ r + 1 ↔ (m.after 1).strncpyReads n ≤ r := by
              omega
            rw [hstep, ih]
            constructor
            · rintro (hr | ⟨i, hir, hin, hi⟩)
              · exact .inl (by omega)
              · exact .inr ⟨1 + i, by omega, by omega, hi⟩
            · rintro (hr | ⟨i, hir, hin, hi⟩)
              · exact .inl (by omega)
              · -- the first byte is not the zero
                obtain ⟨j, rfl⟩ : ∃ j, i = 1 + j :=
                  ⟨i - 1, by
                    have : i ≠ 0 := fun h => hzero (h ▸ hi)
                    omega⟩
                exact .inr ⟨j, by omega, by omega, hi⟩

end Memory

/-- A read of `length` bytes from `offset` on. -/
structure Window where
  offset : Nat
  length : Nat
deriving DecidableEq, Repr

namespace Window

/-- The same window seen from a pointer that lies `k` bytes before. -/
def shift (k : Nat) (w : Window) : Window := ⟨k + w.offset, w.length⟩

/-- Every byte of the window has an index below `n`. -/
def Inside (n : Nat) (w : Window) : Prop := ∀ i, w.offset ≤ i → i < w.offset + w.length → i < n

theorem inside_iff {n : Nat} {w : Window} : w.Inside n ↔ w.length = 0 ∨ w.offset + w.length ≤ n := by
  constructor
  · intro h
    by_cases hzero : w.length = 0
    · exact .inl hzero
    · have := h (w.offset + w.length - 1) (by omega) (by omega)
      exact .inr (by omega)
  · rintro (hzero | hle) i h1 h2 <;> omega

end Window
