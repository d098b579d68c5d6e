import Mathlib.Data.List.GetD
import Mathlib.Algebra.Order.Group.Nat

/-!
# `Lib.SparseFile` — values at offsets

A file has a size and a value in every cell, which is blank from its size on. A write behind the end leaves a
gap of blanks in front of it, and a file that is made shorter forgets what was behind.

A list is such a file (`ofList`), and what the operations do to it is what they do to the file: `overlay`
writes and `resized` resizes. `read_write_same`, `read_write_disjoint` and `read_resize` say what is read after
one operation, so what a run of operations leaves alone follows by induction.
-/

/-- A file of values of type `α`. -/
structure SparseFile (α : Type*) (blank : α) where
  size : Nat
  cell : Nat → α
  blank_of_le : ∀ i, size ≤ i → cell i = blank

namespace SparseFile

variable {α : Type*} {blank : α}

theorem ext_cells {f g : SparseFile α blank} (hsize : f.size = g.size) (hcell : ∀ i, f.cell i = g.cell i) :
    f = g := by
  obtain ⟨size, cell, hblank⟩ := f
  obtain ⟨size', cell', hblank'⟩ := g
  obtain rfl : size = size' := hsize
  obtain rfl : cell = cell' := funext hcell
  rfl

/-- The cells from `offset` on that a list of `n` values covers. -/
def Covers (offset n i : Nat) : Prop := offset ≤ i ∧ i < offset + n

instance (offset n i : Nat) : Decidable (Covers offset n i) := inferInstanceAs (Decidable (_ ∧ _))

/-- Write `xs` from `offset` on; a file does not grow when there is nothing to write. -/
def write (f : SparseFile α blank) (offset : Nat) (xs : List α) : SparseFile α blank where
  size := if xs.length = 0 then f.size else max f.size (offset + xs.length)
  cell := fun i => if Covers offset xs.length i then xs.getD (i - offset) blank else f.cell i
  blank_of_le := by
    intro i hi
    by_cases hempty : xs.length = 0
    · rw [if_pos hempty] at hi
      rw [if_neg (by unfold Covers; omega)]
      exact f.blank_of_le i hi
    · rw [if_neg hempty] at hi
      rw [if_neg (by unfold Covers; omega)]
      exact f.blank_of_le i (by omega)

def resize (f : SparseFile α blank) (n : Nat) : SparseFile α blank where
  size := n
  cell := fun i => if i < n then f.cell i else blank
  blank_of_le := fun _ hi => if_neg (Nat.not_lt.mpr hi)

/-- Read `n` values from `offset` on, or fewer when the file ends before. -/
def read (f : SparseFile α blank) (offset n : Nat) : List α :=
  (List.range (min n (f.size - offset))).map fun i => f.cell (offset + i)

@[simp] theorem read_length (f : SparseFile α blank) (offset n : Nat) :
    (f.read offset n).length = min n (f.size - offset) := by
  simp [read]

/-! ## Reading after an operation -/

/-- Two files of which a range is in both, with the same values there. -/
theorem read_congr {f g : SparseFile α blank} {offset n : Nat} (hf : offset + n ≤ f.size)
    (hg : offset + n ≤ g.size) (hcell : ∀ i, Covers offset n i → f.cell i = g.cell i) :
    f.read offset n = g.read offset n := by
  have hlen (h : SparseFile α blank) (hh : offset + n ≤ h.size) : min n (h.size - offset) = n := by omega
  unfold read
  rw [hlen f hf, hlen g hg]
  refine List.map_congr_left fun i hi => hcell _ ?_
  have := List.mem_range.mp hi
  exact ⟨Nat.le_add_right _ _, by omega⟩

/-- **What is written is read back.** -/
theorem read_write_same (f : SparseFile α blank) (offset : Nat) (xs : List α) :
    (f.write offset xs).read offset xs.length = xs := by
  apply List.ext_getElem
  · rw [read_length]
    show min _ ((if xs.length = 0 then f.size else max f.size (offset + xs.length)) - offset) = _
    split <;> omega
  · intro i hi hi'
    have hcover : Covers offset xs.length (offset + i) := ⟨Nat.le_add_right _ _, by omega⟩
    simp [read, write, hcover, hi']

theorem size_le_write (f : SparseFile α blank) (offset : Nat) (xs : List α) :
    f.size ≤ (f.write offset xs).size := by
  show _ ≤ if xs.length = 0 then f.size else max f.size (offset + xs.length)
  split <;> omega

/-- A write that does not meet a range leaves it as it is. -/
theorem read_write_disjoint (f : SparseFile α blank) {offset n : Nat} (hin : offset + n ≤ f.size)
    {offset' : Nat} {xs : List α} (h : xs.length = 0 ∨ offset' + xs.length ≤ offset ∨ offset + n ≤ offset') :
    (f.write offset' xs).read offset n = f.read offset n := by
  refine read_congr (hin.trans (f.size_le_write offset' xs)) hin fun i hi => if_neg ?_
  unfold Covers at hi ⊢
  omega

/-- A range in front of the new end is left as it is. -/
theorem read_resize (f : SparseFile α blank) {offset n size : Nat} (hin : offset + n ≤ f.size)
    (hsize : offset + n ≤ size) : (f.resize size).read offset n = f.read offset n := by
  refine read_congr hsize hin fun i hi => if_pos ?_
  unfold Covers at hi
  omega

/-! ## Lists -/

def ofList (xs : List α) : SparseFile α blank where
  size := xs.length
  cell := fun i => xs.getD i blank
  blank_of_le := fun _ hi => List.getD_eq_default _ _ hi

/-- `xs`, cut or filled up to `n` values. -/
def resized (blank : α) (xs : List α) (n : Nat) : List α := xs.take n ++ List.replicate (n - xs.length) blank

/-- `xs` with `ys` written over the values from `offset` on, which are in `xs`. -/
def overlay (xs : List α) (offset : Nat) (ys : List α) : List α :=
  xs.take offset ++ ys ++ xs.drop (offset + ys.length)

@[simp] theorem resized_length (xs : List α) (n : Nat) : (resized blank xs n).length = n := by
  simp only [resized, List.length_append, List.length_take, List.length_replicate]
  omega

theorem overlay_length {xs ys : List α} {offset : Nat} (h : offset + ys.length ≤ xs.length) :
    (overlay xs offset ys).length = xs.length := by
  simp only [overlay, List.length_append, List.length_take, List.length_drop]
  omega

theorem take_overlay {xs ys : List α} {offset : Nat} (h : offset ≤ xs.length) :
    (overlay xs offset ys).take (offset + ys.length) = xs.take offset ++ ys := by
  have hlength : (xs.take offset ++ ys).length = offset + ys.length := by
    rw [List.length_append, List.length_take]
    omega
  rw [overlay, ← hlength, List.take_left]

theorem getD_resized (xs : List α) (n i : Nat) :
    (resized blank xs n).getD i blank = if i < n then xs.getD i blank else blank := by
  unfold resized
  by_cases hi : i < n
  · rw [if_pos hi]
    by_cases hxs : i < xs.length
    · rw [List.getD_append _ _ _ _ (by rw [List.length_take]; omega)]
      simp [List.getD_eq_getElem?_getD, List.getElem?_take_of_lt hi]
    · rw [List.getD_append_right _ _ _ _ (by rw [List.length_take]; omega),
        List.getD_eq_default _ _ (Nat.not_lt.mp hxs)]
      simp only [List.getD_eq_getElem?_getD, List.getElem?_replicate]
      split <;> rfl
  · rw [if_neg hi, List.getD_eq_default]
    simp only [List.length_append, List.length_take, List.length_replicate]
    omega

theorem getD_overlay {xs ys : List α} {offset : Nat} (h : offset + ys.length ≤ xs.length) (i : Nat) :
    (overlay xs offset ys).getD i blank =
      if Covers offset ys.length i then ys.getD (i - offset) blank else xs.getD i blank := by
  have htake : (xs.take offset).length = offset := by
    rw [List.length_take]
    omega
  unfold overlay
  rw [List.append_assoc]
  by_cases hfront : i < offset
  · rw [List.getD_append _ _ _ _ (by omega), if_neg (by unfold Covers; omega)]
    simp [List.getD_eq_getElem?_getD, List.getElem?_take_of_lt hfront]
  · rw [List.getD_append_right _ _ _ _ (by omega), htake]
    by_cases hin : i < offset + ys.length
    · rw [List.getD_append _ _ _ _ (by omega), if_pos ⟨by omega, hin⟩]
    · rw [List.getD_append_right _ _ _ _ (by omega), if_neg (by unfold Covers; omega)]
      simp only [List.getD_eq_getElem?_getD, List.getElem?_drop]
      congr 2
      omega

theorem ofList_resize (xs : List α) (n : Nat) :
    (ofList xs : SparseFile α blank).resize n = ofList (resized blank xs n) := by
  refine ext_cells (resized_length xs n).symm fun i => ?_
  exact (getD_resized xs n i).symm

/-- A write to a list: it is made long enough first. -/
theorem ofList_write (blank : α) (xs : List α) (offset : Nat) {ys : List α} (hys : ys.length ≠ 0) :
    (ofList xs : SparseFile α blank).write offset ys =
      ofList (overlay (if xs.length < offset + ys.length then resized blank xs (offset + ys.length) else xs)
        offset ys) := by
  by_cases hgrow : xs.length < offset + ys.length
  · rw [if_pos hgrow]
    have hroom : offset + ys.length ≤ (resized blank xs (offset + ys.length)).length := by
      rw [resized_length]
    refine ext_cells ?_ fun i => ?_
    · show (if ys.length = 0 then xs.length else max xs.length (offset + ys.length)) =
        (overlay (resized blank xs (offset + ys.length)) offset ys).length
      rw [if_neg hys, overlay_length hroom, resized_length]
      omega
    · show (if Covers offset ys.length i then ys.getD (i - offset) blank else xs.getD i blank) =
        (overlay (resized blank xs (offset + ys.length)) offset ys).getD i blank
      rw [getD_overlay hroom, getD_resized]
      by_cases hlt : i < offset + ys.length
      · rw [if_pos hlt]
      · rw [if_neg hlt, List.getD_eq_default xs _ (by omega)]
  · rw [if_neg hgrow]
    have hroom := Nat.not_lt.mp hgrow
    refine ext_cells ?_ fun i => (getD_overlay hroom i).symm
    show (if ys.length = 0 then xs.length else max xs.length (offset + ys.length)) = (overlay xs offset ys).length
    rw [if_neg hys, overlay_length hroom]
    omega

theorem ofList_write_nil {xs ys : List α} {offset : Nat} (hys : ys.length = 0) :
    (ofList xs : SparseFile α blank).write offset ys = ofList xs := by
  refine ext_cells (if_pos hys) fun i => if_neg ?_
  unfold Covers
  omega

theorem read_ofList (xs : List α) (offset n : Nat) :
    (ofList xs : SparseFile α blank).read offset n = (xs.drop offset).take n := by
  apply List.ext_getElem
  · rw [read_length, List.length_take, List.length_drop]
    rfl
  · intro i hi hi'
    rw [List.length_take, List.length_drop] at hi'
    have hlt : offset + i < xs.length := by omega
    simp [read, ofList, hlt]

/-- To write behind a list is to append. -/
theorem ofList_append (blank : α) (xs ys : List α) :
    (ofList xs : SparseFile α blank).write xs.length ys = ofList (xs ++ ys) := by
  by_cases hys : ys.length = 0
  · rw [ofList_write_nil hys, List.eq_nil_of_length_eq_zero hys, List.append_nil]
  · rw [ofList_write blank xs xs.length hys, if_pos (by omega)]
    have hresized : resized blank xs (xs.length + ys.length) = xs ++ List.replicate ys.length blank := by
      rw [resized, List.take_of_length_le (by omega), Nat.add_sub_cancel_left]
    rw [hresized, overlay, List.take_left' rfl, List.drop_of_length_le (by simp), List.append_nil]

theorem ofList_injective (blank : α) {xs ys : List α} (h : (ofList xs : SparseFile α blank) = ofList ys) : xs = ys := by
  have hread (zs : List α) : (ofList zs : SparseFile α blank).read 0 (ofList zs : SparseFile α blank).size = zs := by
    rw [read_ofList, List.drop_zero]
    exact List.take_length
  rw [← hread xs, h, hread ys]

end SparseFile
