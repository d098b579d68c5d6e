import Mathlib.Algebra.Order.Ring.Rat
import Mathlib.Data.List.Nodup

/-!
# `Lib.UnorderedMap` — a hash table and the iterators into it

What the standard says of `std::unordered_map`, as far as iterators are concerned: an insertion that
pushes the number of elements above `max_load_factor()` times `bucket_count()` rehashes the table, and a
rehash invalidates every iterator. Where an element lies is left out, so the table is the list of its
entries, the number of buckets, and how often it has been rehashed. An iterator remembers the last number;
to erase through one that is not valid any more is undefined (`none`).

`insertAll_kept_iff` says when a sequence of insertions all take effect and leave the iterators valid.
-/

structure UnorderedMap (κ ν : Type) where
  entries : List (κ × ν) := []
  nodup : (entries.map Prod.fst).Nodup
  bucketCount : Nat := 1
  maxLoadFactor : ℚ := 1
  rehashes : Nat := 0

namespace UnorderedMap

/-- An iterator to the element with a key. -/
structure Iterator (κ : Type) where
  key : κ
  rehashes : Nat
deriving DecidableEq

variable {κ ν : Type}

def keys (t : UnorderedMap κ ν) : List κ := t.entries.map Prod.fst

/-- The table may hold `n` elements without being rehashed. -/
def Holds (t : UnorderedMap κ ν) (n : Nat) : Prop := (n : ℚ) ≤ t.maxLoadFactor * t.bucketCount

instance (t : UnorderedMap κ ν) (n : Nat) : Decidable (t.Holds n) := by
  unfold Holds
  infer_instance

theorem Holds.mono {t : UnorderedMap κ ν} {n m : Nat} (h : t.Holds n) (hle : m ≤ n) : t.Holds m := by
  unfold Holds at h ⊢
  have hcast : (m : ℚ) ≤ n := by exact_mod_cast hle
  exact hcast.trans h

/-- There is room for `n` more elements. -/
def HasRoom (t : UnorderedMap κ ν) (n : Nat) : Prop := n = 0 ∨ t.Holds (t.entries.length + n)

/-- Where one element finds no room, more find none. -/
theorem not_hasRoom_succ {t : UnorderedMap κ ν} (h : ¬ t.Holds (t.entries.length + 1)) (n : Nat) :
    ¬ t.HasRoom (n + 1) := by
  rintro (hzero | hholds)
  · exact absurd hzero (Nat.succ_ne_zero _)
  · exact h (hholds.mono (by omega))

/-- A key that exists already is a key twice. -/
theorem not_nodup_of_mem {t : UnorderedMap κ ν} {entry : κ × ν} {more : List (κ × ν)}
    (h : entry.1 ∈ t.keys) :
    ¬ ((t.entries ++ entry :: more).map Prod.fst).Nodup := by
  intro hnodup
  rw [List.map_append, List.map_cons] at hnodup
  exact (List.nodup_append.mp hnodup).2.2 _ h _ List.mem_cons_self rfl

variable [DecidableEq κ]

def lookup (t : UnorderedMap κ ν) (key : κ) : Option ν :=
  (t.entries.find? fun entry => entry.1 = key).map Prod.snd

/-- `find`: the iterator, and the value behind it. -/
def find (t : UnorderedMap κ ν) (key : κ) : Option (Iterator κ × ν) :=
  (t.lookup key).map fun value => (⟨key, t.rehashes⟩, value)

/-- `insert`, which keeps an element that exists; `rehash` is the number of buckets after a rehash. -/
def insert (rehash : Nat → Nat) (t : UnorderedMap κ ν) (key : κ) (value : ν) : UnorderedMap κ ν :=
  if h : key ∈ t.keys then t
  else
    { entries := t.entries ++ [(key, value)]
      nodup := by
        rw [List.map_append]
        refine List.nodup_append.mpr ⟨t.nodup, List.nodup_singleton _, fun a ha b hb hab => h ?_⟩
        have hkey : b = key := List.mem_singleton.mp hb
        rwa [← hkey, ← hab]
      bucketCount := if t.Holds (t.entries.length + 1) then t.bucketCount else rehash t.bucketCount
      maxLoadFactor := t.maxLoadFactor
      rehashes := if t.Holds (t.entries.length + 1) then t.rehashes else t.rehashes + 1 }

/-- `erase(iterator)`. -/
def erase (t : UnorderedMap κ ν) (it : Iterator κ) : Option (UnorderedMap κ ν) :=
  if it.rehashes = t.rehashes ∧ it.key ∈ t.keys then
    some { t with
      entries := t.entries.filter fun entry => entry.1 ≠ it.key
      nodup := List.Nodup.sublist (List.filter_sublist.map _) t.nodup }
  else none

/-- Insert one after the other. -/
def insertAll (rehash : Nat → Nat) (t : UnorderedMap κ ν) (more : List (κ × ν)) : UnorderedMap κ ν :=
  more.foldl (fun t entry => t.insert rehash entry.1 entry.2) t

variable {rehash : Nat → Nat} {t : UnorderedMap κ ν} {key : κ} {value : ν} {more : List (κ × ν)}

theorem insert_of_mem (h : key ∈ t.keys) : t.insert rehash key value = t := dif_pos h

theorem entries_insert (h : key ∉ t.keys) :
    (t.insert rehash key value).entries = t.entries ++ [(key, value)] := by
  rw [insert, dif_neg h]

theorem rehashes_insert (h : key ∉ t.keys) : (t.insert rehash key value).rehashes =
    if t.Holds (t.entries.length + 1) then t.rehashes else t.rehashes + 1 := by
  rw [insert, dif_neg h]

/-- An insertion that finds room leaves the bounds of the table as they are. -/
theorem holds_insert (h : key ∉ t.keys) (hroom : t.Holds (t.entries.length + 1)) (n : Nat) :
    (t.insert rehash key value).Holds n ↔ t.Holds n := by
  rw [insert, dif_neg h]
  show (n : ℚ) ≤ t.maxLoadFactor *
    (if t.Holds (t.entries.length + 1) then t.bucketCount else rehash t.bucketCount : Nat) ↔ _
  rw [if_pos hroom]
  rfl

theorem rehashes_le_insert : t.rehashes ≤ (t.insert rehash key value).rehashes := by
  by_cases h : key ∈ t.keys
  · rw [insert_of_mem h]
  · rw [rehashes_insert h]
    split <;> omega

theorem rehashes_le_insertAll : t.rehashes ≤ (t.insertAll rehash more).rehashes := by
  induction more generalizing t with
  | nil => exact Nat.le_refl _
  | cons entry more ih => exact Nat.le_trans rehashes_le_insert ih

/-- What is inserted is added behind the entries, except where a key exists already. -/
theorem exists_sublist_insertAll :
    ∃ added, added.Sublist more ∧ (t.insertAll rehash more).entries = t.entries ++ added := by
  induction more generalizing t with
  | nil => exact ⟨[], List.Sublist.slnil, (List.append_nil _).symm⟩
  | cons entry more ih =>
      obtain ⟨added, hsublist, hentries⟩ := ih (t := t.insert rehash entry.1 entry.2)
      by_cases h : entry.1 ∈ t.keys
      · rw [insert_of_mem h] at hentries
        exact ⟨added, hsublist.cons _, by rw [insertAll, List.foldl_cons, insert_of_mem h]; exact hentries⟩
      · rw [entries_insert h, List.append_assoc] at hentries
        exact ⟨entry :: added, hsublist.cons_cons _, hentries⟩

/-- Behind an insertion that finds room there is room for one element less. -/
theorem hasRoom_insert (h : key ∉ t.keys) (hroom : t.Holds (t.entries.length + 1)) (n : Nat) :
    (t.insert rehash key value).HasRoom n ↔ t.HasRoom (n + 1) := by
  unfold HasRoom
  rw [entries_insert h, List.length_append, List.length_singleton, holds_insert h hroom, Nat.add_assoc,
    Nat.add_comm 1]
  constructor
  · rintro (rfl | hholds)
    · exact .inr hroom
    · exact .inr hholds
  · intro hroom'
    exact .inr (hroom'.resolve_left (Nat.succ_ne_zero _))

/-- **Insertions that all take effect and rehash nothing** are those of new keys, for which there is
    room. -/
theorem insertAll_kept_iff :
    (t.insertAll rehash more).rehashes = t.rehashes ∧
        (t.insertAll rehash more).entries = t.entries ++ more ↔
      ((t.entries ++ more).map Prod.fst).Nodup ∧ t.HasRoom more.length := by
  induction more generalizing t with
  | nil =>
      refine ⟨fun _ => ⟨by rw [List.append_nil]; exact t.nodup, .inl rfl⟩, fun _ => ⟨rfl, ?_⟩⟩
      exact (List.append_nil _).symm
  | cons entry more ih =>
      have hnext := ih (t := t.insert rehash entry.1 entry.2)
      have hfold : t.insertAll rehash (entry :: more) =
          (t.insert rehash entry.1 entry.2).insertAll rehash more := rfl
      by_cases hmem : entry.1 ∈ t.keys
      · -- the first key exists already: neither side holds
        constructor
        · rintro ⟨-, hentries⟩
          exact absurd (hentries ▸ (t.insertAll rehash (entry :: more)).nodup) (not_nodup_of_mem hmem)
        · rintro ⟨hnodup, -⟩
          exact absurd hnodup (not_nodup_of_mem hmem)
      · have hassoc : t.entries ++ entry :: more = t.entries ++ [entry] ++ more := by simp
        rw [entries_insert hmem, ← hassoc] at hnext
        by_cases hroom : t.Holds (t.entries.length + 1)
        · -- the first insertion finds room, so the table is the same but for the new entry
          rw [rehashes_insert hmem, if_pos hroom, hasRoom_insert hmem hroom] at hnext
          rw [hfold, hnext, List.length_cons]
        · -- the first insertion rehashes the table, and no later one takes that back
          constructor
          · rintro ⟨hkept, -⟩
            have hle : (t.insert rehash entry.1 entry.2).rehashes ≤
                ((t.insert rehash entry.1 entry.2).insertAll rehash more).rehashes :=
              rehashes_le_insertAll
            rw [rehashes_insert hmem, if_neg hroom, ← hfold, hkept] at hle
            omega
          · rintro ⟨-, hhasRoom⟩
            exact absurd hhasRoom (not_hasRoom_succ hroom _)

/-! ## The table as a finite map -/

theorem mem_keys_iff : key ∈ t.keys ↔ t.lookup key ≠ none := by
  rw [lookup, Ne, Option.map_eq_none_iff, List.find?_eq_none, keys]
  simp

theorem lookup_insert : (t.insert rehash key value).lookup =
    if t.lookup key = none then Function.update t.lookup key (some value) else t.lookup := by
  by_cases h : key ∈ t.keys
  · rw [insert_of_mem h, if_neg (mem_keys_iff.mp h)]
  · have hnone : t.lookup key = none := not_not.mp (mt mem_keys_iff.mpr h)
    rw [if_pos hnone]
    funext k
    have hentries : (t.insert rehash key value).lookup k =
        ((t.entries ++ [(key, value)]).find? fun entry => entry.1 = k).map Prod.snd := by
      rw [lookup, entries_insert h]
    rw [hentries, List.find?_append]
    by_cases hk : k = key
    · subst hk
      rw [lookup, Option.map_eq_none_iff] at hnone
      simp [hnone]
    · rw [Function.update_of_ne hk]
      have hlast : [(key, value)].find? (fun entry => entry.1 = k) = none := by
        simpa using fun h => hk h.symm
      rw [hlast, Option.or_none, lookup]

theorem lookup_erase {t' : UnorderedMap κ ν} {it : Iterator κ} (h : t.erase it = some t') :
    t'.lookup = Function.update t.lookup it.key none := by
  unfold erase at h
  split at h
  · obtain rfl := Option.some.inj h
    funext k
    by_cases hk : k = it.key
    · subst hk
      simp [lookup, List.find?_filter]
    · rw [Function.update_of_ne hk, lookup, lookup]
      simp only [List.find?_filter]
      congr 2
      funext entry
      by_cases hentry : entry.1 = k
      · simp [hentry, hk]
      · simp [hentry]
  · cases h

end UnorderedMap
