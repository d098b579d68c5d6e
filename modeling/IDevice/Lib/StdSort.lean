import Mathlib.Data.List.Perm.Basic
import Mathlib.Order.Lattice

/-!
# `Lib.StdSort` — sorting with a comparator

`std::sort` is what its documentation says of it: if the comparator is a strict weak ordering, the elements are the
same afterwards, and none is less than one in front of it. Elements of which neither is less than the other come in
any order.

`sort_forall₂` is for elements that stand for something else, whose order the comparator has: they are sorted when
what they stand for is.
-/

namespace StdSort

variable {α β : Type*} {comp : α → α → Bool}

/-- What the comparator has to be. -/
structure StrictWeakOrder (comp : α → α → Bool) : Prop where
  irrefl (a : α) : comp a a = false
  trans {a b c : α} : comp a b = true → comp b c = true → comp a c = true
  notLess_trans {a b c : α} : comp a b = false → comp b c = false → comp a c = false

/-- The comparison of a key. -/
theorem StrictWeakOrder.ofKey {κ : Type*} [LinearOrder κ] (key : α → κ)
    (hkey : ∀ a b, comp a b = true ↔ key a < key b) : StrictWeakOrder comp := by
  have hnot (a b : α) : comp a b = false ↔ key b ≤ key a := by
    rw [← Bool.not_eq_true, hkey a b, not_lt]
  refine ⟨?_, ?_, ?_⟩
  · intro a
    rw [hnot a a]
  · intro a b c hab hbc
    rw [hkey] at hab hbc ⊢
    exact lt_trans hab hbc
  · intro a b c hab hbc
    rw [hnot] at hab hbc ⊢
    exact le_trans hbc hab

/-- No element is less than one in front of it. -/
def Sorted (comp : α → α → Bool) (xs : List α) : Prop := xs.Pairwise fun a b => comp b a = false

/-- An implementation of `std::sort`. -/
structure Sorter (α : Type*) where
  sort : (α → α → Bool) → List α → List α
  perm {comp : α → α → Bool} (h : StrictWeakOrder comp) (xs : List α) : (sort comp xs).Perm xs
  sorted {comp : α → α → Bool} (h : StrictWeakOrder comp) (xs : List α) : Sorted comp (sort comp xs)

/-- One that keeps the order of equivalent elements. -/
def stable : Sorter α where
  sort comp xs := xs.mergeSort fun a b => !comp b a
  perm _ xs := xs.mergeSort_perm _
  sorted := by
    intro comp h xs
    have htotal (a b : α) : (!comp b a || !comp a b) = true := by
      cases hba : comp b a with
      | false => rfl
      | true =>
          cases hab : comp a b with
          | false => rfl
          | true =>
              have haa := h.trans hab hba
              rw [h.irrefl a] at haa
              cases haa
    have htrans (a b c : α) : (!comp b a) = true → (!comp c b) = true → (!comp c a) = true := by
      intro hab hbc
      rw [Bool.not_eq_true'] at hab hbc ⊢
      exact h.notLess_trans hbc hab
    apply (List.pairwise_mergeSort htrans htotal xs).imp
    intro a b hab
    rwa [Bool.not_eq_true'] at hab

/-! ## What the elements stand for -/

variable [LinearOrder β] {R : β → α → Prop}

/-- A sorted list stands for one in ascending order. -/
theorem Sorted.ascending (hcomp : ∀ c d x y, R c x → R d y → c < d → comp x y = true) {cs : List β} {xs : List α}
    (hR : List.Forall₂ R cs xs) (hsorted : Sorted comp xs) (hnodup : cs.Nodup) : cs.Pairwise (· < ·) := by
  induction hR with
  | nil => exact List.Pairwise.nil
  | @cons c x cs xs hhead htail ih =>
      obtain ⟨hfirst, hrest⟩ := List.pairwise_cons.mp hsorted
      obtain ⟨hnew, hothers⟩ := List.nodup_cons.mp hnodup
      apply List.pairwise_cons.mpr
      refine ⟨?_, ih hrest hothers⟩
      intro d hd
      obtain ⟨i, hi, rfl⟩ := List.mem_iff_getElem.mp hd
      have hlength := htail.length_eq
      have hstands : R cs[i] xs[i] := htail.get hi (hlength ▸ hi)
      -- if it were less, so would be what stands for it
      rcases lt_trichotomy c cs[i] with hlt | heq | hgt
      · exact hlt
      · exact absurd (heq ▸ hd) hnew
      · have hless := hcomp _ _ _ _ hstands hhead hgt
        rw [hfirst _ (List.getElem_mem _)] at hless
        cases hless

/-- **Sorting what stands for something** sorts that. -/
theorem Sorter.sort_forall₂ (s : Sorter α) (hweak : StrictWeakOrder comp)
    (hcomp : ∀ c d x y, R c x → R d y → c < d → comp x y = true) {cs : List β} {xs : List α}
    (hR : List.Forall₂ R cs xs) (hnodup : cs.Nodup) :
    ∃ cs', cs'.Perm cs ∧ cs'.Pairwise (· < ·) ∧ List.Forall₂ R cs' (s.sort comp xs) := by
  obtain ⟨cs', hR', hperm⟩ := List.perm_comp_forall₂ (s.perm hweak xs) hR.flip
  refine ⟨cs', hperm, ?_, hR'.flip⟩
  exact (s.sorted hweak xs).ascending hcomp hR'.flip (hperm.symm.nodup hnodup)

end StdSort
