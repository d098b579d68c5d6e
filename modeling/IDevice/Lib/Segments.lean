import Mathlib.Algebra.Order.BigOperators.Group.List
import Mathlib.Algebra.Order.Group.Nat

/-!
# `Lib.Segments` — lists made of pieces

Two lists that are made piece by piece, of which one has no longer piece anywhere, are the same only if their
pieces are: a piece that is too short cannot be made up for. A prefix of a list made of pieces is some of the
pieces and a part of the next (`exists_take_of_isPrefix_flatten`); those are the pieces that are wholly in it
(`WholePieces`).
-/

namespace Segments

variable {α β : Type*}

/-- Pieces of which none is longer are together the same only if each is the same. -/
theorem flatMap_eq_iff_of_length_le {f g : α → List β} {xs : List α}
    (hle : ∀ x ∈ xs, (f x).length ≤ (g x).length) :
    xs.flatMap f = xs.flatMap g ↔ ∀ x ∈ xs, f x = g x := by
  induction xs with
  | nil => simp
  | cons x xs ih =>
      have hx := hle x (by simp)
      have hxs := fun y hy => hle y (List.mem_cons_of_mem x hy)
      have hrest : (xs.flatMap f).length ≤ (xs.flatMap g).length := by
        rw [List.length_flatMap, List.length_flatMap]
        exact List.sum_le_sum hxs
      rw [List.flatMap_cons, List.flatMap_cons, List.forall_mem_cons, ← ih hxs]
      constructor
      · intro h
        have hlength := congrArg List.length h
        rw [List.length_append, List.length_append] at hlength
        exact List.append_inj h (by omega)
      · rintro ⟨hx, hxs⟩
        rw [hx, hxs]

/-- Pieces that are shortened are together the same only if none is shortened. -/
theorem flatten_map_eq_iff_of_length_le {f : List β → List β} {xs : List (List β)}
    (hle : ∀ x ∈ xs, (f x).length ≤ x.length) :
    (xs.map f).flatten = xs.flatten ↔ ∀ x ∈ xs, f x = x := by
  have hiff := flatMap_eq_iff_of_length_le (g := id) hle
  rwa [List.flatMap_def, List.flatMap_def, List.map_id] at hiff

/-- The first `k` pieces are wholly in `p`, and the one behind them is not. -/
structure WholePieces (xs : List (List β)) (p : List β) (k : Nat) : Prop where
  le : k ≤ xs.length
  begins : (xs.take k).flatten <+: p
  stops : k < xs.length → ¬ (xs.take (k + 1)).flatten <+: p

/-- All the pieces are wholly in what they make. -/
theorem WholePieces.eq_length {xs : List (List β)} {k : Nat} (h : WholePieces xs xs.flatten k) : k = xs.length := by
  by_contra hne
  apply h.stops (lt_of_le_of_ne h.le hne)
  have hsplit := congrArg List.flatten (List.take_append_drop (k + 1) xs)
  rw [List.flatten_append] at hsplit
  exact ⟨_, hsplit⟩

/-- Whole pieces, and a part of the one behind them. -/
theorem exists_take_of_isPrefix_flatten {xs : List (List β)} {p : List β} (h : p <+: xs.flatten) :
    ∃ k rest, k ≤ xs.length ∧ p = (xs.take k).flatten ++ rest ∧
      (rest = [] ∧ k = xs.length ∨ ∃ x, xs[k]? = some x ∧ rest <+: x ∧ rest ≠ x) := by
  induction xs generalizing p with
  | nil =>
      refine ⟨0, [], Nat.le_refl 0, ?_, .inl ⟨rfl, rfl⟩⟩
      exact List.prefix_nil.mp h
  | cons x xs ih =>
      rw [List.flatten_cons] at h
      by_cases hwhole : x <+: p
      · obtain ⟨q, rfl⟩ := hwhole
        obtain ⟨k, rest, hk, hq, hrest⟩ := ih ((List.prefix_append_right_inj x).mp h)
        refine ⟨k + 1, rest, Nat.succ_le_succ hk, ?_, hrest.imp_left ?_⟩
        · rw [List.take_succ_cons, List.flatten_cons, List.append_assoc, ← hq]
        · exact fun hall => ⟨hall.1, congrArg Nat.succ hall.2⟩
      · -- the prefix ends inside the first piece
        have hpart : p <+: x := (List.prefix_or_prefix_of_prefix h (List.prefix_append x _)).resolve_right hwhole
        refine ⟨0, p, Nat.zero_le _, rfl, .inr ⟨x, rfl, hpart, ?_⟩⟩
        rintro rfl
        exact hwhole List.prefix_rfl

/-- What is only a part of the next piece has no more whole pieces. -/
theorem wholePieces_take_append {xs : List (List β)} {rest : List β} {k : Nat} (hk : k ≤ xs.length)
    (hrest : rest = [] ∧ k = xs.length ∨ ∃ x, xs[k]? = some x ∧ rest <+: x ∧ rest ≠ x) :
    WholePieces xs ((xs.take k).flatten ++ rest) k := by
  refine ⟨hk, List.prefix_append _ _, ?_⟩
  intro hlt hnext
  rcases hrest with ⟨-, rfl⟩ | ⟨x, hx, hpart, hne⟩
  · exact absurd hlt (Nat.lt_irrefl _)
  · rw [List.take_add_one, hx, Option.toList_some, List.flatten_append, List.flatten_singleton,
      List.prefix_append_right_inj] at hnext
    exact hne (hpart.eq_of_length_le hnext.length_le)

end Segments
