import Mathlib.Data.List.Basic

/-!
# `Lib.Stream` — readers that consume a stream piece by piece

An incremental reader looks at the front of the bytes it holds and either waits for more, or takes a
piece off the front (moving its state and delivering something), or rejects the input. `drain` lets it
take all it can. What makes such a reader usable on a stream that arrives in chunks is a law about its
front alone: *a piece that can be taken is taken in the same way when more bytes follow it*. From that
law `drain_append` derives that draining a prefix, and then its leftover together with what arrives
later, is draining everything at once.

`stuck` is the verdict of a reader that would read past the bytes it holds; no law constrains it.
-/

namespace Stream

variable {σ β ω : Type*}

/-- What a reader does with the bytes at the front of its buffer. -/
inductive Front (σ ω : Type*) where
  | wait
  | reject
  | stuck
  | take (n : Nat) (next : σ) (out : List ω)

/-- A reader, with the two laws that make it incremental: it takes a nonempty piece of what it holds,
    and neither a piece nor a rejection is revised when more bytes arrive. -/
structure Reader (σ β ω : Type*) where
  front : σ → List β → Front σ ω
  take_pos {s b n t out} : front s b = .take n t out → 0 < n
  take_le {s b n t out} : front s b = .take n t out → n ≤ b.length
  take_append {s b n t out} (c : List β) : front s b = .take n t out → front s (b ++ c) = .take n t out
  reject_append {s b} (c : List β) : front s b = .reject → front s (b ++ c) = .reject

/-- Why a reader stopped. -/
inductive Verdict where
  | wait
  | reject
  | stuck
deriving DecidableEq, Repr

/-- The result of draining: the reader's state, what it delivered, and the bytes it left. -/
structure Drained (σ β ω : Type*) where
  state : σ
  out : List ω
  rest : List β
  verdict : Verdict

/-- `d` with `out` delivered before. -/
def Drained.after (out : List ω) (d : Drained σ β ω) : Drained σ β ω := { d with out := out ++ d.out }

@[simp] theorem Drained.after_nil (d : Drained σ β ω) : d.after [] = d := rfl
@[simp] theorem Drained.after_state (out : List ω) (d : Drained σ β ω) :
    (d.after out).state = d.state := rfl
@[simp] theorem Drained.after_out (out : List ω) (d : Drained σ β ω) :
    (d.after out).out = out ++ d.out := rfl
@[simp] theorem Drained.after_rest (out : List ω) (d : Drained σ β ω) :
    (d.after out).rest = d.rest := rfl
@[simp] theorem Drained.after_verdict (out : List ω) (d : Drained σ β ω) :
    (d.after out).verdict = d.verdict := rfl
theorem Drained.after_after (out out' : List ω) (d : Drained σ β ω) :
    (d.after out').after out = d.after (out ++ out') := by
  simp [Drained.after]

namespace Reader

variable (R : Reader σ β ω)

/-- Take pieces off the front until the reader stops, at most `fuel` of them. -/
def drainFuel : Nat → σ → List β → Drained σ β ω
  | 0, s, b => ⟨s, [], b, .wait⟩
  | fuel + 1, s, b =>
    match R.front s b with
    | .wait => ⟨s, [], b, .wait⟩
    | .reject => ⟨s, [], b, .reject⟩
    | .stuck => ⟨s, [], b, .stuck⟩
    | .take n t out => (drainFuel fuel t (b.drop n)).after out

/-- Take pieces off the front until the reader stops; a buffer has no more pieces than bytes. -/
def drain (s : σ) (b : List β) : Drained σ β ω := R.drainFuel (b.length + 1) s b

/-! ## `drain` unfolded once -/

/-- Fuel beyond the number of bytes changes nothing. -/
theorem drainFuel_of_lt {fuel fuel' : Nat} {s : σ} {b : List β} (h : b.length < fuel)
    (h' : b.length < fuel') : R.drainFuel fuel s b = R.drainFuel fuel' s b := by
  induction fuel generalizing fuel' s b with
  | zero => omega
  | succ fuel ih =>
      obtain ⟨fuel', rfl⟩ : ∃ k, fuel' = k + 1 := ⟨fuel' - 1, by omega⟩
      cases hf : R.front s b with
      | wait => simp [drainFuel, hf]
      | reject => simp [drainFuel, hf]
      | stuck => simp [drainFuel, hf]
      | take n t out =>
          have hn := R.take_pos hf
          have hle := R.take_le hf
          have hlen : (b.drop n).length < fuel ∧ (b.drop n).length < fuel' := by
            simp only [List.length_drop]
            omega
          simp only [drainFuel, hf]
          rw [ih hlen.1 hlen.2]

variable {R}

theorem drain_wait {s : σ} {b : List β} (h : R.front s b = .wait) :
    R.drain s b = ⟨s, [], b, .wait⟩ := by
  simp [drain, drainFuel, h]

theorem drain_reject {s : σ} {b : List β} (h : R.front s b = .reject) :
    R.drain s b = ⟨s, [], b, .reject⟩ := by
  simp [drain, drainFuel, h]

theorem drain_stuck {s : σ} {b : List β} (h : R.front s b = .stuck) :
    R.drain s b = ⟨s, [], b, .stuck⟩ := by
  simp [drain, drainFuel, h]

theorem drain_take {s t : σ} {b : List β} {n : Nat} {out : List ω}
    (h : R.front s b = .take n t out) : R.drain s b = (R.drain t (b.drop n)).after out := by
  have hn := R.take_pos h
  have hle := R.take_le h
  have hlen : (b.drop n).length < b.length := by
    simp only [List.length_drop]
    omega
  calc R.drain s b = (R.drainFuel b.length t (b.drop n)).after out := by
        simp only [drain, drainFuel, h]
    _ = (R.drain t (b.drop n)).after out := by
        rw [R.drainFuel_of_lt hlen (Nat.lt_succ_self _), drain]

/-- The induction that `drain` follows: one case per verdict of the front. -/
theorem drain_induction {motive : σ → List β → Prop}
    (wait : ∀ s b, R.front s b = .wait → motive s b)
    (reject : ∀ s b, R.front s b = .reject → motive s b)
    (stuck : ∀ s b, R.front s b = .stuck → motive s b)
    (take : ∀ s b n t out, R.front s b = .take n t out → motive t (b.drop n) → motive s b)
    (s : σ) (b : List β) : motive s b := by
  induction hk : b.length using Nat.strongRecOn generalizing s b with
  | ind k ih =>
      cases hf : R.front s b with
      | wait => exact wait s b hf
      | reject => exact reject s b hf
      | stuck => exact stuck s b hf
      | take n t out =>
          have hn := R.take_pos hf
          have hle := R.take_le hf
          refine take s b n t out hf (ih (b.drop n).length ?_ t _ rfl)
          simp only [List.length_drop]
          omega

/-! ## What a drain leaves -/

/-- The leftover is a suffix of the input. -/
theorem drain_rest_suffix (s : σ) (b : List β) : (R.drain s b).rest <:+ b := by
  induction s, b using R.drain_induction with
  | wait s b h => simp [drain_wait h]
  | reject s b h => simp [drain_reject h]
  | stuck s b h => simp [drain_stuck h]
  | take s b n t out h ih =>
      rw [drain_take h]
      exact ih.trans (List.drop_suffix n b)

/-- **Chunking.** Unless the reader got stuck, the bytes that arrive later are read as if they had been
    there from the start: after a wait the reader resumes with its leftover, after a rejection it reads
    nothing more. -/
theorem drain_append (s : σ) (b c : List β) (h : (R.drain s b).verdict ≠ .stuck) :
    R.drain s (b ++ c) =
      (R.drain (R.drain s b).state ((R.drain s b).rest ++ c)).after (R.drain s b).out := by
  induction s, b using R.drain_induction with
  | wait s b hf => simp [drain_wait hf]
  | reject s b hf => simp [drain_reject hf]
  | stuck s b hf => simp [drain_stuck hf] at h
  | take s b n t out hf ih =>
      have hle := R.take_le hf
      rw [drain_take hf] at h
      rw [drain_take (R.take_append c hf), drain_take hf, List.drop_append_of_le_length hle, ih h]
      simp [Drained.after_after]

/-- Behind a rejection nothing more is delivered. -/
theorem drain_append_reject (s : σ) (b c : List β) (h : (R.drain s b).verdict = .reject) :
    (R.drain s (b ++ c)).out = (R.drain s b).out := by
  induction s, b using R.drain_induction with
  | wait s b hf => simp [drain_wait hf] at h
  | reject s b hf => rw [drain_reject hf, drain_reject (R.reject_append c hf)]
  | stuck s b hf => simp [drain_stuck hf] at h
  | take s b n t out hf ih =>
      have hle := R.take_le hf
      rw [drain_take hf] at h
      rw [drain_take (R.take_append c hf), drain_take hf, List.drop_append_of_le_length hle, Drained.after_out,
        Drained.after_out, ih h]

end Reader
end Stream
