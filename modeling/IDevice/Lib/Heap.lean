import Mathlib.Data.List.Count
import Mathlib.Data.List.Perm.Basic
import Mathlib.Logic.Function.Basic

/-!
# `Lib.Heap` — blocks and who owns them

A heap numbers its blocks, and no number is used twice: to free or to use a block that is not allocated any more
is seen as such.

`Owned h key good items lost` is the discipline of a program that keeps its pointers in `items`: every allocated
block is that of exactly one item, with a content that is `good` for it, or nobody has a pointer to it any more
(`lost`). One rule for each thing that can be done to a block says how the items change; `Owned.perm` is for
pointers that are only moved.
-/

structure Heap (α : Type*) where
  block : Nat → Option α
  next : Nat
  none_of_le : ∀ b, next ≤ b → block b = none

namespace Heap

variable {α ι : Type*}

def empty : Heap α := ⟨fun _ => none, 0, fun _ _ => rfl⟩

theorem none_of_le_malloc (h : Heap α) (x : α) :
    ∀ b, h.next + 1 ≤ b → Function.update h.block h.next (some x) b = none := by
  intro b hb
  rw [Function.update_of_ne (by omega)]
  exact h.none_of_le b (by omega)

/-- A new block, which has the number `next`. -/
def malloc (h : Heap α) (x : α) : Heap α :=
  ⟨Function.update h.block h.next (some x), h.next + 1, h.none_of_le_malloc x⟩

theorem lt_next {h : Heap α} {b : Nat} {x : α} (hb : h.block b = some x) : b < h.next := by
  by_contra hle
  rw [h.none_of_le b (by omega)] at hb
  cases hb

theorem none_of_le_update (h : Heap α) {b : Nat} {x : α} (hb : h.block b = some x) (y : Option α) :
    ∀ c, h.next ≤ c → Function.update h.block b y c = none := by
  intro c hc
  have := lt_next hb
  rw [Function.update_of_ne (by omega)]
  exact h.none_of_le c hc

/-- `none` when the block is not allocated. -/
def free (h : Heap α) (b : Nat) : Option (Heap α) :=
  match hb : h.block b with
  | none => none
  | some _ => some ⟨Function.update h.block b none, h.next, h.none_of_le_update hb none⟩

/-- The content of a block is changed; `none` when it is not allocated. -/
def modify (h : Heap α) (b : Nat) (f : α → α) : Option (Heap α) :=
  match hb : h.block b with
  | none => none
  | some x => some ⟨Function.update h.block b (some (f x)), h.next, h.none_of_le_update hb _⟩

/-- Free one block after the other. -/
def freeAll : Heap α → List Nat → Option (Heap α)
  | h, [] => some h
  | h, b :: bs => (h.free b).bind fun h => h.freeAll bs

theorem free_eq {h : Heap α} {b : Nat} {x : α} (hb : h.block b = some x) :
    ∃ h', h.free b = some h' ∧ h'.block = Function.update h.block b none := by
  unfold free
  split
  · next hnone =>
      rw [hb] at hnone
      cases hnone
  · exact ⟨_, rfl, rfl⟩

theorem modify_eq {h : Heap α} {b : Nat} {x : α} (hb : h.block b = some x) (f : α → α) :
    ∃ h', h.modify b f = some h' ∧ h'.block = Function.update h.block b (some (f x)) := by
  unfold modify
  split
  · next hnone =>
      rw [hb] at hnone
      cases hnone
  · next y hy =>
      rw [hb] at hy
      obtain rfl := Option.some.inj hy
      exact ⟨_, rfl, rfl⟩

/-! ## Ownership -/

/-- Every allocated block is that of one item or lost, and the items find in their blocks what they should. -/
structure Owned (h : Heap α) (key : ι → Nat) (good : ι → α → Prop) (items : List ι) (lost : List Nat) : Prop where
  once : ∀ b, (items.map key ++ lost).count b = if (h.block b).isSome then 1 else 0
  good : ∀ i ∈ items, ∃ x, h.block (key i) = some x ∧ good i x

variable {h : Heap α} {key : ι → Nat} {good : ι → α → Prop} {items items' : List ι} {lost : List Nat}

theorem owned_empty : (empty : Heap α).Owned key good [] [] := ⟨fun _ => rfl, fun _ hmem => nomatch hmem⟩

/-- Pointers are moved. -/
theorem Owned.perm (ho : h.Owned key good items lost) (hperm : items'.Perm items) :
    h.Owned key good items' lost := by
  refine ⟨fun b => ?_, fun i hi => ho.good i (hperm.mem_iff.mp hi)⟩
  rw [← ho.once b, List.count_append, List.count_append, (hperm.map key).count_eq b]

/-- A block that an item has is no other item's. -/
theorem Owned.key_ne {i : ι} (ho : h.Owned key good (i :: items) lost) :
    (∀ j ∈ items, key j ≠ key i) ∧ key i ∉ lost := by
  have honce := ho.once (key i)
  have hle : (if (h.block (key i)).isSome then 1 else 0) ≤ 1 := by split <;> omega
  rw [List.map_cons, List.cons_append, List.count_cons_self, List.count_append] at honce
  constructor
  · intro j hj heq
    have := List.count_pos_iff.mpr (heq ▸ List.mem_map_of_mem (f := key) hj)
    omega
  · intro hmem
    have := List.count_pos_iff.mpr hmem
    omega

theorem Owned.malloc (ho : h.Owned key good items lost) {i : ι} {x : α} (hkey : key i = h.next) (hgood : good i x) :
    (h.malloc x).Owned key good (i :: items) lost := by
  have hnew : (h.malloc x).block (key i) = some x := by
    rw [hkey]
    exact Function.update_self ..
  have hold (b : Nat) (hb : b ≠ key i) : (h.malloc x).block b = h.block b := by
    rw [hkey] at hb
    exact Function.update_of_ne hb ..
  constructor
  · intro b
    have honce := ho.once b
    rw [List.map_cons, List.cons_append]
    by_cases hb : b = key i
    · subst hb
      rw [hkey, h.none_of_le _ (Nat.le_refl _)] at honce
      rw [List.count_cons_self, hnew, hkey, honce]
      rfl
    · rw [List.count_cons_of_ne (Ne.symm hb), hold b hb, honce]
  · intro j hj
    rcases List.mem_cons.mp hj with rfl | hj
    · exact ⟨x, hnew, hgood⟩
    · obtain ⟨y, hy, hgy⟩ := ho.good j hj
      refine ⟨y, ?_, hgy⟩
      rw [hold (key j)]
      · exact hy
      · intro heq
        rw [heq, hkey, h.none_of_le _ (Nat.le_refl _)] at hy
        cases hy

/-- The first item frees its block. -/
theorem Owned.free {i : ι} (ho : h.Owned key good (i :: items) lost) :
    ∃ h', h.free (key i) = some h' ∧ h'.Owned key good items lost := by
  obtain ⟨x, hx, -⟩ := ho.good i List.mem_cons_self
  obtain ⟨hne, hlost⟩ := ho.key_ne
  obtain ⟨h', hfree, hblock⟩ := free_eq hx
  refine ⟨h', hfree, fun b => ?_, fun j hj => ?_⟩
  · have honce := ho.once b
    rw [List.map_cons, List.cons_append] at honce
    rw [hblock]
    by_cases hb : b = key i
    · subst hb
      rw [Function.update_self]
      refine List.count_eq_zero.mpr fun hmem => ?_
      rcases List.mem_append.mp hmem with hmem | hmem
      · obtain ⟨j, hj, heq⟩ := List.mem_map.mp hmem
        exact hne j hj heq
      · exact hlost hmem
    · rw [Function.update_of_ne hb, ← honce, List.count_cons_of_ne (Ne.symm hb)]
  · rw [hblock, Function.update_of_ne (hne j hj)]
    exact ho.good j (List.mem_cons_of_mem _ hj)

/-- The first item changes its block. -/
theorem Owned.modify {i i' : ι} (ho : h.Owned key good (i :: items) lost) (hkey : key i' = key i) (f : α → α)
    (hgood : ∀ x, good i x → good i' (f x)) :
    ∃ h', h.modify (key i) f = some h' ∧ h'.Owned key good (i' :: items) lost := by
  obtain ⟨x, hx, hgx⟩ := ho.good i List.mem_cons_self
  obtain ⟨hne, -⟩ := ho.key_ne
  obtain ⟨h', hmodify, hblock⟩ := modify_eq hx f
  refine ⟨h', hmodify, fun b => ?_, fun j hj => ?_⟩
  · rw [List.map_cons, hkey, ← List.map_cons, ho.once b, hblock]
    by_cases hb : b = key i
    · subst hb
      rw [Function.update_self, hx]
      rfl
    · rw [Function.update_of_ne hb]
  · rw [hblock]
    rcases List.mem_cons.mp hj with rfl | hj
    · refine ⟨f x, ?_, hgood x hgx⟩
      rw [hkey, Function.update_self]
    · rw [Function.update_of_ne (hne j hj)]
      exact ho.good j (List.mem_cons_of_mem _ hj)

/-- The pointer of the first item is forgotten. -/
theorem Owned.lose {i : ι} (ho : h.Owned key good (i :: items) lost) :
    h.Owned key good items (lost ++ [key i]) := by
  refine ⟨fun b => ?_, fun j hj => ho.good j (List.mem_cons_of_mem _ hj)⟩
  rw [← ho.once b]
  simp only [List.map_cons, List.count_append, List.count_cons, List.count_nil]
  omega

/-- All blocks of some items are freed. -/
theorem Owned.freeAll {freed : List ι} (ho : h.Owned key good (freed ++ items) lost) :
    ∃ h', h.freeAll (freed.map key) = some h' ∧ h'.Owned key good items lost := by
  induction freed generalizing h with
  | nil => exact ⟨h, rfl, ho⟩
  | cons i freed ih =>
      obtain ⟨h₁, hfree, ho₁⟩ := ho.free
      obtain ⟨h', hrest, ho'⟩ := ih ho₁
      refine ⟨h', ?_, ho'⟩
      rw [List.map_cons, Heap.freeAll, hfree]
      exact hrest

/-- Without items and without lost blocks nothing is allocated. -/
theorem Owned.none (ho : h.Owned key good [] []) (b : Nat) : h.block b = .none := by
  have honce := ho.once b
  cases hb : h.block b with
  | none => rfl
  | some x =>
      rw [hb] at honce
      cases honce

/-! ## Items that are kept in a list of places -/

/-- One place changes: its items, and those of all others. -/
theorem exists_flatMap_set {β : Type*} (f : β → List ι) {xs : List β} {n : Nat} {y : β} (hy : xs[n]? = some y) :
    ∃ rest, (xs.flatMap f).Perm (f y ++ rest) ∧ ∀ x, ((xs.set n x).flatMap f).Perm (f x ++ rest) := by
  obtain ⟨hn, hget⟩ := List.getElem?_eq_some_iff.mp hy
  have hmove (x : β) : ((xs.take n ++ x :: xs.drop (n + 1)).flatMap f).Perm
      (f x ++ ((xs.take n).flatMap f ++ (xs.drop (n + 1)).flatMap f)) := by
    rw [List.flatMap_append, List.flatMap_cons, ← List.append_assoc, ← List.append_assoc]
    exact (List.perm_append_comm).append_right _
  refine ⟨(xs.take n).flatMap f ++ (xs.drop (n + 1)).flatMap f, ?_, fun x => ?_⟩
  · have hall := hmove y
    rwa [← hget, List.getElem_cons_drop, List.take_append_drop, hget] at hall
  · rw [List.set_eq_take_append_cons_drop, if_pos hn]
    exact hmove x

end Heap
