import Mathlib.Algebra.BigOperators.Group.List.Basic
import Mathlib.Data.List.Forall2
import IDevice.Lib.LittleEndian

/-!
# `Lib.Cursor` — reading a file from front to back

A `Scan` reads from a file at a position, which it moves; it fails when it reads behind the end. `Parses limit p b x`
says that wherever the bytes `b` stand in a file shorter than `limit`, `p` reads `x` from them and stops behind them.
The rules follow the scan: a `bind` parses the bytes of its two parts, a loop those of its rounds.
-/

/-- A file and a position; the value and the position behind it. -/
def Scan (α : Type) := List UInt8 → Nat → Option (α × Nat)

namespace Scan

open LittleEndian

variable {α β : Type}

instance : Monad Scan where
  pure x := fun _ pos => some (x, pos)
  bind p f := fun file pos => (p file pos).bind fun r => f r.1 file r.2

def tell : Scan Nat := fun _ pos => some (pos, pos)

def fileSize : Scan Nat := fun file pos => some (file.length, pos)

def seek (pos : Nat) : Scan Unit := fun _ _ => some ((), pos)

/-- The next `n` bytes. -/
def bytes (n : Nat) : Scan (List UInt8) := fun file pos =>
  if pos + n ≤ file.length then some ((file.drop pos).take n, pos + n) else none

/-- The next `w` bytes as a number. -/
def word (w : Nat) : Scan Nat := do return ofLE (← bytes w)

/-- `while (cond(FTell())) body`, with at most `fuel` rounds. -/
def whileTell (cond : Nat → Bool) (body : Scan α) : Nat → Scan (List α)
  | 0 => fun _ _ => none
  | fuel + 1 => do
    if cond (← tell) then
      let x ← body
      let xs ← whileTell cond body fuel
      return x :: xs
    else return []

/-- The loop from here on, with a condition on where it started and where it is. One round for each byte of the
    file is enough when no round reads nothing. -/
def whileFrom (cond : Nat → Nat → Bool) (body : Scan α) : Scan (List α) := do
  let pos ← tell
  let size ← fileSize
  whileTell (cond pos) body (size + 1)

@[simp] theorem pure_apply (x : α) (file : List UInt8) (pos : Nat) : (pure x : Scan α) file pos = some (x, pos) := rfl

@[simp] theorem bind_apply (p : Scan α) (f : α → Scan β) (file : List UInt8) (pos : Nat) :
    (p >>= f) file pos = (p file pos).bind fun r => f r.1 file r.2 := rfl

@[simp] theorem tell_apply (file : List UInt8) (pos : Nat) : tell file pos = some (pos, pos) := rfl

@[simp] theorem fileSize_apply (file : List UInt8) (pos : Nat) : fileSize file pos = some (file.length, pos) := rfl

variable {limit : Nat}

/-- `p` reads `x` from the bytes `b`, wherever they stand. -/
def Parses (limit : Nat) (p : Scan α) (b : List UInt8) (x : α) : Prop :=
  ∀ before after, (before ++ b ++ after).length < limit →
    p (before ++ b ++ after) before.length = some (x, (before ++ b).length)

theorem parses_pure (x : α) : Parses limit (pure x) [] x := by
  intro before after hlimit
  rw [pure_apply, List.append_nil]

theorem Parses.bind {p : Scan α} {f : α → Scan β} {b c : List UInt8} {x : α} {y : β} (hp : Parses limit p b x)
    (hf : Parses limit (f x) c y) : Parses limit (p >>= f) (b ++ c) y := by
  intro before after hlimit
  rw [← List.append_assoc before b c] at hlimit ⊢
  have hrest := hf (before ++ b) after hlimit
  rw [List.append_assoc (before ++ b) c after] at hlimit
  have hfirst := hp before (c ++ after) hlimit
  rw [bind_apply, List.append_assoc (before ++ b) c after, hfirst, Option.bind_some,
    ← List.append_assoc (before ++ b) c after, hrest]

/-- A last step that reads nothing. -/
theorem Parses.map {p : Scan α} {f : α → β} {b : List UInt8} {x : α} (hp : Parses limit p b x) :
    Parses limit (p >>= fun x => pure (f x)) b (f x) := by
  have hboth := hp.bind (f := fun x => pure (f x)) (parses_pure (f x))
  rwa [List.append_nil] at hboth

/-- The bytes stand in a file, so they are not longer than one. -/
theorem Parses.of_length {p : Scan α} {b : List UInt8} {x : α} (h : b.length < limit → Parses limit p b x) :
    Parses limit p b x := by
  intro before after hlimit
  refine h ?_ before after hlimit
  rw [List.length_append, List.length_append] at hlimit
  omega

theorem parses_bytes (b : List UInt8) : Parses limit (bytes b.length) b b := by
  intro before after _
  unfold bytes
  rw [if_pos, List.append_assoc, List.drop_left, List.take_left, List.length_append]
  rw [List.length_append, List.length_append]
  exact Nat.le_add_right _ _

theorem parses_word {w n : Nat} (h : n < 256 ^ w) : Parses limit (word w) (toLE w n) n := by
  have hbytes : Parses limit (bytes (toLE w n).length >>= fun b => pure (ofLE b)) (toLE w n) (ofLE (toLE w n)) :=
    (parses_bytes (toLE w n)).map
  rwa [toLE_length, ofLE_toLE_of_lt h] at hbytes

theorem whileTell_stop {cond : Nat → Bool} {file : List UInt8} {pos : Nat} (h : cond pos = false) (body : Scan α)
    (fuel : Nat) : whileTell cond body (fuel + 1) file pos = some ([], pos) := by
  rw [whileTell, bind_apply, tell_apply, Option.bind_some]
  simp [h]

theorem whileTell_round {cond : Nat → Bool} {file : List UInt8} {pos : Nat} (h : cond pos = true) (body : Scan α)
    (fuel : Nat) : whileTell cond body (fuel + 1) file pos = (body file pos).bind fun r =>
      (whileTell cond body fuel file r.2).map fun rs => (r.1 :: rs.1, rs.2) := by
  rw [whileTell, bind_apply, tell_apply, Option.bind_some]
  simp only [h, if_true, bind_apply, pure_apply]
  cases body file pos with
  | none => rfl
  | some r =>
      rw [Option.bind_some, Option.bind_some, Option.map_eq_bind]
      rfl

/-- **The rounds of a loop**, while the condition holds in front of each and no longer behind the last. -/
theorem whileTell_eq (cond : Nat → Bool) {body : Scan α} {chunks : List (List UInt8)} {xs : List α}
    (hbody : List.Forall₂ (Parses limit body) chunks xs) (hne : ∀ c ∈ chunks, c ≠ []) {before after : List UInt8}
    (fuel : Nat) (hlimit : (before ++ chunks.flatten ++ after).length < limit)
    (hcond : ∀ pos, before.length ≤ pos → pos ≤ before.length + chunks.flatten.length →
      (cond pos = true ↔ pos < before.length + chunks.flatten.length))
    (hfuel : chunks.length < fuel) :
    whileTell cond body fuel (before ++ chunks.flatten ++ after) before.length =
      some (xs, before.length + chunks.flatten.length) := by
  induction hbody generalizing before fuel with
  | nil =>
      obtain ⟨fuel, rfl⟩ : ∃ k, fuel = k + 1 := ⟨fuel - 1, by omega⟩
      have hstop := hcond before.length (Nat.le_refl _) (Nat.le_add_right _ _)
      rw [List.flatten_nil, List.length_nil, Nat.add_zero] at hstop ⊢
      exact whileTell_stop (Bool.eq_false_iff.mpr fun h => Nat.lt_irrefl _ (hstop.mp h)) body fuel
  | @cons c x chunks xs hc hrest ih =>
      obtain ⟨fuel, rfl⟩ : ∃ k, fuel = k + 1 := ⟨fuel - 1, by omega⟩
      rw [List.flatten_cons, ← List.append_assoc before c] at hlimit ⊢
      rw [List.flatten_cons, List.length_append] at hcond
      have hpos : 0 < c.length := List.length_pos_of_ne_nil (hne c List.mem_cons_self)
      have hgo := (hcond before.length (Nat.le_refl _) (by omega)).mpr (by omega)
      have hloop := ih (fun d hd => hne d (List.mem_cons_of_mem c hd)) fuel hlimit (fun pos hle hge => by
          rw [List.length_append] at hle hge ⊢
          have hiff := hcond pos (by omega) (by omega)
          rw [hiff]
          omega) (Nat.lt_of_succ_lt_succ hfuel)
      rw [List.append_assoc (before ++ c)] at hlimit hloop ⊢
      rw [whileTell_round hgo, hc before (chunks.flatten ++ after) hlimit, Option.bind_some, hloop, Option.map_some,
        List.length_append, List.length_append, Nat.add_assoc]

/-- **A loop that ends a given number of bytes behind its start** parses its rounds. -/
theorem parses_whileFrom {cond : Nat → Nat → Bool} {body : Scan α} {chunks : List (List UInt8)} {xs : List α}
    (hbody : List.Forall₂ (Parses limit body) chunks xs) (hne : ∀ c ∈ chunks, c ≠ [])
    (hcond : ∀ start pos, start + chunks.flatten.length < limit → pos ≤ start + chunks.flatten.length →
      (cond start pos = true ↔ pos < start + chunks.flatten.length)) :
    Parses limit (whileFrom cond body) chunks.flatten xs := by
  intro before after hlimit
  have hlength : (before ++ chunks.flatten ++ after).length =
      before.length + chunks.flatten.length + after.length := by
    rw [List.length_append, List.length_append]
  have hcount : chunks.length ≤ chunks.flatten.length := by
    rw [List.length_flatten, ← List.length_map (List.length (α := UInt8))]
    refine List.length_le_sum_of_one_le _ ?_
    intro n hn
    obtain ⟨c, hc, rfl⟩ := List.mem_map.mp hn
    exact List.length_pos_of_ne_nil (hne c hc)
  have hloop := whileTell_eq (cond before.length) hbody hne ((before ++ chunks.flatten ++ after).length + 1) hlimit
    (fun pos _ hpos => hcond before.length pos (by omega) hpos) (by omega)
  rw [whileFrom, bind_apply, tell_apply, Option.bind_some, bind_apply, fileSize_apply, Option.bind_some, hloop,
    List.length_append]

end Scan
