import Mathlib.Data.List.Perm.Basic

/-!
# `Lib.Patch` — a list that is completed later

A list is built with placeholders, and the entries that belong there are kept aside as patches, each with
its index. `Completes patches xs target` says that `xs` is `target` but for the places that have a patch.
Then writing the patches gives `target` (`applyAll_eq`), in whatever order they are written (`perm`).
-/

namespace Patch

variable {α : Type*}

/-- Write every patch at its index. -/
def applyAll (xs : List α) (patches : List (Nat × α)) : List α :=
  patches.foldl (fun xs patch => xs.set patch.1 patch.2) xs

/-- The patches are entries of `target`, and what has no patch is in place. -/
structure Completes (patches : List (Nat × α)) (xs target : List α) : Prop where
  length : xs.length = target.length
  right : ∀ patch ∈ patches, target[patch.1]? = some patch.2
  rest : ∀ i, (∃ patch ∈ patches, patch.1 = i) ∨ xs[i]? = target[i]?

variable {patches : List (Nat × α)} {xs target : List α}

/-- A list that is complete. -/
theorem completes_self (xs : List α) : Completes [] xs xs :=
  ⟨rfl, fun _ hmem => absurd hmem List.not_mem_nil, fun _ => .inr rfl⟩

/-- One patch is written. -/
theorem Completes.tail {patch : Nat × α} (h : Completes (patch :: patches) xs target) :
    Completes patches (xs.set patch.1 patch.2) target := by
  have hright := h.right patch List.mem_cons_self
  refine ⟨by rw [List.length_set, h.length], fun p hp => h.right p (List.mem_cons_of_mem _ hp), ?_⟩
  intro i
  by_cases hi : patch.1 = i
  · subst hi
    have hlt : patch.1 < xs.length := by
      rw [h.length]
      exact (List.getElem?_eq_some_iff.mp hright).1
    exact .inr (by rw [List.getElem?_set_self hlt, hright])
  · rw [List.getElem?_set_ne hi]
    refine (h.rest i).imp_left ?_
    rintro ⟨p, hp, hpi⟩
    rcases List.mem_cons.mp hp with rfl | hp
    · exact absurd hpi hi
    · exact ⟨p, hp, hpi⟩

/-- **All patches are written.** -/
theorem Completes.applyAll_eq (h : Completes patches xs target) : applyAll xs patches = target := by
  induction patches generalizing xs with
  | nil =>
      refine List.ext_getElem? fun i => (h.rest i).resolve_left ?_
      rintro ⟨patch, hmem, -⟩
      exact absurd hmem List.not_mem_nil
  | cons patch patches ih => exact ih h.tail

/-- The order of the patches does not matter. -/
theorem Completes.perm {patches' : List (Nat × α)} (h : Completes patches xs target)
    (hperm : patches'.Perm patches) : Completes patches' xs target := by
  refine ⟨h.length, fun patch hmem => h.right patch (hperm.mem_iff.mp hmem), fun i => ?_⟩
  refine (h.rest i).imp_left ?_
  rintro ⟨patch, hmem, hi⟩
  exact ⟨patch, hperm.mem_iff.mpr hmem, hi⟩

theorem getElem?_concat_congr {ys : List α} (hlen : xs.length = ys.length) {i : Nat}
    (h : xs[i]? = ys[i]?) (x : α) : (xs ++ [x])[i]? = (ys ++ [x])[i]? := by
  rcases Nat.lt_or_ge i xs.length with hlt | hge
  · rw [List.getElem?_append_left hlt, List.getElem?_append_left (by omega), h]
  · rw [List.getElem?_append_right hge, List.getElem?_append_right (by omega), hlen]

theorem getElem?_append_of_eq_some {i : Nat} {x : α} (h : xs[i]? = some x) (ys : List α) :
    (xs ++ ys)[i]? = some x := by
  rw [List.getElem?_append_left (List.getElem?_eq_some_iff.mp h).1, h]

/-- An entry is added that is in place at once. -/
theorem Completes.concat (h : Completes patches xs target) (x : α) :
    Completes patches (xs ++ [x]) (target ++ [x]) := by
  refine ⟨?_, fun patch hmem => getElem?_append_of_eq_some (h.right patch hmem) _, fun i => ?_⟩
  · rw [List.length_append, List.length_append, h.length]
  · exact (h.rest i).imp_right fun hi => getElem?_concat_congr h.length hi x

/-- A placeholder is added, and a patch for it. -/
theorem Completes.concat_patch (h : Completes patches xs target) (placeholder x : α) :
    Completes (patches ++ [(xs.length, x)]) (xs ++ [placeholder]) (target ++ [x]) := by
  refine ⟨?_, fun patch hmem => ?_, fun i => ?_⟩
  · simp [h.length]
  · rcases List.mem_append.mp hmem with hold | hnew
    · exact getElem?_append_of_eq_some (h.right patch hold) _
    · rw [List.mem_singleton.mp hnew, h.length, List.getElem?_concat_length]
  · by_cases hi : xs.length = i
    · exact .inl ⟨(xs.length, x), by simp, hi⟩
    · rcases h.rest i with ⟨patch, hmem, hpi⟩ | heq
      · exact .inl ⟨patch, List.mem_append_left _ hmem, hpi⟩
      · right
        rcases Nat.lt_or_ge i xs.length with hlt | hge
        · rw [List.getElem?_append_left hlt, List.getElem?_append_left (by rw [← h.length]; exact hlt),
            heq]
        · rw [List.getElem?_eq_none (by simp; omega), List.getElem?_eq_none (by simp [← h.length]; omega)]

end Patch
