import Mathlib.Data.List.Basic

/-!
# `Lib.Callback` — code that makes calls to a callback

A callback takes an argument, works on a state and returns a flag; it may also fail to return, for a
reason of type `ε`. A producer that ignores the flags makes the same calls whatever they are, so all it
does is determined by the list of its arguments: `calls f s ws` is the state after the calls `ws`.

* `calls_invariant` is the induction over the calls, made once;
* `calls_flatten` is the result of a callback that only writes its arguments down;
* `calls_sameEnd` is for two callbacks of which one does what the other does, on a state of its own.
-/

/-- A callback on arguments `β` that works on a state `τ`. -/
abbrev Callback (ε τ β : Type) := τ → β → Except ε (Bool × τ)

namespace Callback

variable {ε τ β : Type}

/-- One call whose flag is dropped. -/
def call (f : Callback ε τ β) (s : τ) (w : β) : Except ε τ := (f s w).map Prod.snd

/-- The calls `ws`, one after the other, their flags dropped. -/
def calls (f : Callback ε τ β) : τ → List β → Except ε τ
  | s, [] => pure s
  | s, w :: ws => call f s w >>= fun s => calls f s ws

theorem bind_eq_ok {α α' : Type} {x : Except ε α} {g : α → Except ε α'} {b : α'} :
    (x >>= g) = .ok b ↔ ∃ a, x = .ok a ∧ g a = .ok b := by
  cases x <;> simp [bind, Except.bind]

theorem call_eq_ok {f : Callback ε τ β} {s t : τ} {w : β} :
    call f s w = .ok t ↔ ∃ r, f s w = .ok (r, t) := by
  cases h : f s w with
  | error e => simp [call, h, Except.map]
  | ok res => cases res; simp [call, h, Except.map]

@[simp] theorem calls_nil (f : Callback ε τ β) (s : τ) : calls f s [] = pure s := rfl

@[simp] theorem calls_cons (f : Callback ε τ β) (s : τ) (w : β) (ws : List β) :
    calls f s (w :: ws) = call f s w >>= fun s => calls f s ws := rfl

theorem calls_append (f : Callback ε τ β) (s : τ) (ws ws' : List β) :
    calls f s (ws ++ ws') = calls f s ws >>= fun s => calls f s ws' := by
  induction ws generalizing s with
  | nil => rfl
  | cons w ws ih =>
      simp only [List.cons_append, calls_cons, ih]
      cases call f s w <;> rfl

/-- **Calls keep an invariant** that every call that returns keeps. -/
theorem calls_invariant {f : Callback ε τ β} (Inv : τ → Prop) {ws : List β} {s t : τ} (hs : Inv s)
    (ht : calls f s ws = .ok t) (hstep : ∀ s w r t, Inv s → f s w = .ok (r, t) → Inv t) : Inv t := by
  induction ws generalizing s with
  | nil => exact Except.ok.inj ht ▸ hs
  | cons w ws ih =>
      obtain ⟨m, hcall, hrest⟩ := bind_eq_ok.mp ht
      obtain ⟨r, hf⟩ := call_eq_ok.mp hcall
      exact ih (hstep s w r m hs hf) hrest

/-- A callback that succeeds and writes its arguments down has written all of them down. -/
theorem calls_flatten {γ : Type} {f : Callback ε (List γ) (List γ)}
    (hf : ∀ s w, f s w = .ok (true, s ++ w)) (s : List γ) (ws : List (List γ)) :
    calls f s ws = .ok (s ++ ws.flatten) := by
  induction ws generalizing s with
  | nil =>
      rw [List.flatten_nil, List.append_nil]
      rfl
  | cons w ws ih =>
      have hcall : call f s w = .ok (s ++ w) := call_eq_ok.mpr ⟨true, hf s w⟩
      rw [calls_cons, hcall]
      show calls f (s ++ w) ws = _
      rw [ih, List.flatten_cons, List.append_assoc]

/-! ## Two callbacks that do the same -/

/-- Both fail, for a reason that is the same after `lift`, or both return what is related. -/
inductive SameEnd {ε' α' α : Type} (lift : ε → ε') (R : α' → α → Prop) : Except ε' α' → Except ε α → Prop
  | error (e : ε) : SameEnd lift R (.error (lift e)) (.error e)
  | ok {a' : α'} {a : α} : R a' a → SameEnd lift R (.ok a') (.ok a)

section SameEnd
variable {ε' α' α γ' γ τ' : Type} {lift : ε → ε'} {R : α' → α → Prop} {x' : Except ε' α'} {x : Except ε α}

theorem SameEnd.bind {Q : γ' → γ → Prop} {f' : α' → Except ε' γ'} {f : α → Except ε γ} (h : SameEnd lift R x' x)
    (hf : ∀ a' a, R a' a → SameEnd lift Q (f' a') (f a)) : SameEnd lift Q (x' >>= f') (x >>= f) := by
  cases h with
  | error e => exact .error e
  | ok hR => exact hf _ _ hR

theorem SameEnd.eq_mapError {x' : Except ε' α} (h : SameEnd lift (· = ·) x' x) : x' = x.mapError lift := by
  cases h with
  | error e => rfl
  | ok hR =>
      subst hR
      rfl

/-- **Calls end alike** when each of them does, with the same flag. -/
theorem calls_sameEnd {f' : Callback ε' τ' β} {f : Callback ε τ β} (S : τ' → τ → Prop) {ws : List β}
    (hcall : ∀ t s, ∀ w ∈ ws, S t s → SameEnd lift (fun r' r => r'.1 = r.1 ∧ S r'.2 r.2) (f' t w) (f s w))
    {t : τ'} {s : τ} (h : S t s) : SameEnd lift S (calls f' t ws) (calls f s ws) := by
  induction ws generalizing t s with
  | nil => exact .ok h
  | cons w ws ih =>
      have hfirst : SameEnd lift S (call f' t w) (call f s w) := by
        have hends := hcall t s w List.mem_cons_self h
        unfold call
        generalize f' t w = r' at hends
        generalize f s w = r at hends
        cases hends with
        | error e => exact .error e
        | ok hR => exact .ok hR.2
      rw [calls_cons, calls_cons]
      apply hfirst.bind
      intro t' s' h'
      exact ih (fun t s w' hw' => hcall t s w' (List.mem_cons_of_mem w hw')) h'

end SameEnd

end Callback
