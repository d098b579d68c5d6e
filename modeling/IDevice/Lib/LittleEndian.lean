import Mathlib.Algebra.Ring.Nat

/-!
# `Lib.LittleEndian` — fixed-width little-endian fields of a byte string

`toLE w n` writes a natural number as `w` bytes, `ofLE` reads bytes back, and `field b off w` is the
value of the `w`-byte field at offset `off` of `b`. The lemmas say what a decoder and an encoder need:
the two round trips, and that a field is found again in any string that contains it.
-/

namespace LittleEndian

/-- The `w` low-order bytes of `n`, least significant first. -/
def toLE : Nat → Nat → List UInt8
  | 0, _ => []
  | w + 1, n => UInt8.ofNat n :: toLE w (n / 256)

/-- The number whose bytes, least significant first, are given. -/
def ofLE : List UInt8 → Nat
  | [] => 0
  | b :: bs => b.toNat + 256 * ofLE bs

@[simp] theorem toLE_length (w n : Nat) : (toLE w n).length = w := by
  induction w generalizing n with
  | zero => rfl
  | succ w ih => simp [toLE, ih]

theorem ofLE_toLE (w n : Nat) : ofLE (toLE w n) = n % 256 ^ w := by
  induction w generalizing n with
  | zero => simp [toLE, ofLE, Nat.mod_one]
  | succ w ih =>
      have hpow : 256 ^ (w + 1) = 256 * 256 ^ w := Nat.pow_succ'
      rw [hpow, Nat.mod_mul, toLE, ofLE, ih, UInt8.toNat_ofNat']

theorem ofLE_toLE_of_lt {w n : Nat} (h : n < 256 ^ w) : ofLE (toLE w n) = n := by
  rw [ofLE_toLE, Nat.mod_eq_of_lt h]

theorem ofLE_lt (b : List UInt8) : ofLE b < 256 ^ b.length := by
  induction b with
  | nil => simp [ofLE]
  | cons x b ih =>
      have hx : x.toNat < 256 := x.toNat_lt
      simp only [ofLE, List.length_cons, Nat.pow_succ]
      omega

theorem toLE_ofLE (b : List UInt8) : toLE b.length (ofLE b) = b := by
  induction b with
  | nil => rfl
  | cons x b ih =>
      have hx : x.toNat < 256 := x.toNat_lt
      have hdiv : (x.toNat + 256 * ofLE b) / 256 = ofLE b := by omega
      have hlow : UInt8.ofNat (x.toNat + 256 * ofLE b) = x := by
        apply UInt8.toNat_inj.mp
        rw [UInt8.toNat_ofNat']
        omega
      simp only [List.length_cons, toLE, ofLE, hdiv, ih, hlow]

/-! ## Fields at an offset -/

/-- The value of the `w` bytes at offset `off`. -/
def field (b : List UInt8) (off w : Nat) : Nat := ofLE ((b.drop off).take w)

theorem field_lt (b : List UInt8) (off w : Nat) : field b off w < 256 ^ w := by
  refine lt_of_lt_of_le (ofLE_lt _) (Nat.pow_le_pow_right (by decide) ?_)
  simp only [List.length_take]
  exact Nat.min_le_left _ _

/-- A field that lies inside `b` is the same in every longer string. -/
theorem field_append {b : List UInt8} {off w : Nat} (h : off + w ≤ b.length) (c : List UInt8) :
    field (b ++ c) off w = field b off w := by
  unfold field
  rw [List.drop_append_of_le_length (by omega), List.take_append_of_le_length (by simp; omega)]

/-- Fields behind a prefix are the fields of what follows the prefix. -/
theorem field_skip (a b : List UInt8) (off w : Nat) :
    field (a ++ b) (a.length + off) w = field b off w := by
  unfold field
  rw [List.drop_append, List.drop_eq_nil_of_le (by omega)]
  simp

/-- A field written at the front is read back. -/
theorem field_toLE {w n : Nat} (h : n < 256 ^ w) (c : List UInt8) :
    field (toLE w n ++ c) 0 w = n := by
  rw [field_append (by simp)]
  unfold field
  rw [List.drop_zero, List.take_of_length_le (by simp), ofLE_toLE_of_lt h]

end LittleEndian
