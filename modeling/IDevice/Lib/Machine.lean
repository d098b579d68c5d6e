import Mathlib.Logic.Basic

/-!
# `Lib.Machine` — runs of a labelled machine

A machine is a partial step function `step : σ → α → Option σ`: in state `s` the action `a` is either
not enabled (`none`) or leads to one state. Whatever is nondeterministic (which thread moves, what the
peer sends) is part of the action, so an interleaving is a list of actions and `exec` runs it.

* `exec_invariant` is the induction over a run, made once: an invariant that every step keeps holds in
  every state a run reaches;
* `Follows guard` says that every action of a run is taken in a state that allows it, and
  `follows_invariant` is the same induction for such runs; `follows_congr` compares two guards.
-/

namespace Machine

variable {σ α : Type*} (step : σ → α → Option σ)

/-- The state a list of actions leads to, if every one of them is enabled in its turn. -/
def exec : σ → List α → Option σ
  | s, [] => some s
  | s, a :: as =>
    match step s a with
    | none => none
    | some t => exec t as

/-- Every action of the run is allowed by `guard` in the state it is taken in. -/
def Follows (guard : σ → α → Prop) : σ → List α → Prop
  | _, [] => True
  | s, a :: as =>
    guard s a ∧
      match step s a with
      | none => True
      | some t => Follows guard t as

instance decidableFollows {guard : σ → α → Prop} [∀ s a, Decidable (guard s a)] :
    ∀ s as, Decidable (Follows step guard s as)
  | _, [] => isTrue trivial
  | s, a :: as =>
    have : Decidable (match step s a with
        | none => True
        | some t => Follows step guard t as) :=
      match step s a with
      | none => isTrue trivial
      | some t => decidableFollows t as
    inferInstanceAs (Decidable (guard s a ∧ _))

variable {step}

@[simp] theorem exec_nil (s : σ) : exec step s [] = some s := rfl

theorem exec_cons_eq_some {s t : σ} {a : α} {as : List α} :
    exec step s (a :: as) = some t ↔ ∃ m, step s a = some m ∧ exec step m as = some t := by
  cases h : step s a <;> simp [exec, h]

theorem exec_append_eq_some {s t : σ} {as bs : List α} :
    exec step s (as ++ bs) = some t ↔ ∃ m, exec step s as = some m ∧ exec step m bs = some t := by
  induction as generalizing s with
  | nil => simp
  | cons a as ih =>
      simp only [List.cons_append, exec_cons_eq_some, ih]
      constructor
      · rintro ⟨m, ha, n, has, hbs⟩
        exact ⟨n, ⟨m, ha, has⟩, hbs⟩
      · rintro ⟨n, ⟨m, ha, has⟩, hbs⟩
        exact ⟨m, ha, n, has, hbs⟩

theorem follows_cons {guard : σ → α → Prop} {s m : σ} {a : α} {as : List α}
    (h : Follows step guard s (a :: as)) (hm : step s a = some m) :
    guard s a ∧ Follows step guard m as := by
  obtain ⟨hguard, hrest⟩ := h
  rw [hm] at hrest
  exact ⟨hguard, hrest⟩

/-- **Guarded runs keep an invariant** that every allowed step keeps. -/
theorem follows_invariant {guard : σ → α → Prop} (Inv : σ → Prop) {as : List α} {s t : σ} (hs : Inv s)
    (hg : Follows step guard s as) (ht : exec step s as = some t)
    (hstep : ∀ s a t, Inv s → guard s a → step s a = some t → Inv t) : Inv t := by
  induction as generalizing s with
  | nil => exact Option.some.inj ht ▸ hs
  | cons a as ih =>
      obtain ⟨m, ha, has⟩ := exec_cons_eq_some.mp ht
      obtain ⟨hguard, hrest⟩ := follows_cons hg ha
      exact ih (hstep s a m hs hguard ha) hrest has

/-- **Two guards** that agree where an invariant holds allow the same runs, when the steps that they allow
    keep it. -/
theorem follows_congr {guard guard' : σ → α → Prop} (Inv : σ → Prop)
    (hguard : ∀ s a, Inv s → (guard s a ↔ guard' s a))
    (hstep : ∀ s a t, Inv s → guard s a → step s a = some t → Inv t) {as : List α} {s : σ} (hs : Inv s) :
    Follows step guard s as ↔ Follows step guard' s as := by
  induction as generalizing s with
  | nil => exact Iff.rfl
  | cons a as ih =>
      cases ha : step s a with
      | none => simp only [Follows, ha, hguard s a hs]
      | some t =>
          simp only [Follows, ha, ← hguard s a hs]
          exact and_congr_right fun hallowed => ih (hstep s a t hs hallowed ha)

/-- **Runs keep an invariant** that every step keeps. -/
theorem exec_invariant (Inv : σ → Prop) {as : List α} {s t : σ} (hs : Inv s)
    (ht : exec step s as = some t) (hstep : ∀ s a t, Inv s → step s a = some t → Inv t) : Inv t := by
  induction as generalizing s with
  | nil => exact Option.some.inj ht ▸ hs
  | cons a as ih =>
      obtain ⟨m, ha, has⟩ := exec_cons_eq_some.mp ht
      exact ih (hstep s a m hs ha) has

end Machine
