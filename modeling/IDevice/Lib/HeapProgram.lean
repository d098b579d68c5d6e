import IDevice.Lib.Heap

/-!
# `Lib.HeapProgram` — programs on a heap, and what they come to

A `HeapProgram` allocates, reads and frees the blocks of a heap. It fails at a block that is not allocated
(`fault`), and it may stop for reasons of its own. A `Ledger` says what it comes to without a heap: why it stops, or
what it returns and what was in the blocks that nobody has a pointer to any more.

`Implements before p a R` says that with the blocks `before`, and whatever else is on the heap, `p` comes to `a`;
`R` says how what it returns lies on the heap, and in which blocks. Such statements follow the program: there is a
rule for `bind`, one for each access to the heap, and one for blocks that are forgotten.
-/

/-- Why a program on a heap does not return. -/
inductive HeapError (ε : Type) where
  | fault
  | stop (e : ε)
deriving DecidableEq, Repr

def HeapProgram (α ε β : Type) := Heap α → Except (HeapError ε) (β × Heap α)

/-- What a program returns, and the contents of the blocks that it loses. -/
def Ledger (α ε γ : Type) := Except ε (γ × List α)

variable {α β β' γ γ' ε : Type}

namespace HeapProgram

instance : Monad (HeapProgram α ε) where
  pure x := fun h => .ok (x, h)
  bind p f := fun h => (p h).bind fun r => f r.1 r.2

def malloc (x : α) : HeapProgram α ε Nat := fun h => .ok (h.next, h.malloc x)

def free (b : Nat) : HeapProgram α ε Unit := fun h =>
  match h.free b with
  | none => .error .fault
  | some h => .ok ((), h)

def read (b : Nat) : HeapProgram α ε α := fun h =>
  match h.block b with
  | none => .error .fault
  | some x => .ok (x, h)

def fault : HeapProgram α ε β := fun _ => .error .fault

def stop (e : ε) : HeapProgram α ε β := fun _ => .error (.stop e)

theorem bind_ok {p : HeapProgram α ε β} {h h' : Heap α} {x : β} (hp : p h = .ok (x, h'))
    (f : β → HeapProgram α ε β') :
    (p >>= f) h = f x h' := by
  show (p h).bind (fun r => f r.1 r.2) = f x h'
  rw [hp]
  rfl

theorem bind_error {p : HeapProgram α ε β} {h : Heap α} {e : HeapError ε} (hp : p h = .error e)
    (f : β → HeapProgram α ε β') : (p >>= f) h = .error e := by
  show (p h).bind (fun r => f r.1 r.2) = .error e
  rw [hp]
  rfl

end HeapProgram

namespace Ledger

instance : Monad (Ledger α ε) where
  pure x := .ok (x, [])
  bind a f := Except.bind a fun r => (f r.1).map fun r' => (r'.1, r.2 ++ r'.2)

def lose (lost : List α) : Ledger α ε Unit := .ok ((), lost)

def stop (e : ε) : Ledger α ε γ := .error e

theorem bind_ok {a : Ledger α ε γ} {y : γ} {gone : List α} (ha : a = .ok (y, gone)) (f : γ → Ledger α ε γ') :
    a >>= f = Except.map (fun r => (r.1, gone ++ r.2)) (f y) := by
  rw [ha]
  rfl

theorem exists_of_bind {a : Ledger α ε γ} {f : γ → Ledger α ε γ'} {y : γ'} {lost : List α}
    (h : a >>= f = .ok (y, lost)) : ∃ x gone later, a = .ok (x, gone) ∧ f x = .ok (y, later) ∧ lost = gone ++ later := by
  cases a with
  | error e => cases h
  | ok r =>
      rw [bind_ok (a := .ok r) rfl] at h
      cases hf : f r.1 with
      | error e =>
          rw [hf] at h
          cases h
      | ok r' =>
          rw [hf] at h
          obtain ⟨rfl, rfl⟩ := Prod.mk.inj (Except.ok.inj h)
          exact ⟨r.1, r.2, r'.2, rfl, hf, rfl⟩

theorem pure_eq_ok {x y : γ} {lost : List α} (h : (pure x : Ledger α ε γ) = .ok (y, lost)) : x = y ∧ lost = [] := by
  obtain ⟨hx, hlost⟩ := Prod.mk.inj (Except.ok.inj h)
  exact ⟨hx, hlost.symm⟩

/-- A last step that loses nothing. -/
theorem exists_of_bind_pure {a : Ledger α ε γ} {f : γ → γ'} {y : γ'} {lost : List α}
    (h : a >>= (fun x => pure (f x)) = .ok (y, lost)) : ∃ x, a = .ok (x, lost) ∧ f x = y := by
  obtain ⟨x, gone, later, ha, hf, rfl⟩ := exists_of_bind h
  obtain ⟨hy, rfl⟩ := pure_eq_ok hf
  rw [List.append_nil]
  exact ⟨x, ha, hy⟩

theorem pure_bind (y : γ) (f : γ → Ledger α ε γ') : pure y >>= f = f y := by
  rw [bind_ok (a := pure y) rfl]
  cases f y <;> rfl

theorem bind_error {a : Ledger α ε γ} {e : ε} (ha : a = .error e) (f : γ → Ledger α ε γ') : a >>= f = .error e := by
  rw [ha]
  rfl

end Ledger

namespace Heap

/-- The allocated blocks are these, with their contents, and the lost ones. -/
def Has (h : Heap α) (blocks : List (Nat × α)) (lost : List Nat) : Prop :=
  h.Owned Prod.fst (fun b x => x = b.2) blocks lost

theorem has_empty : (empty : Heap α).Has [] [] := owned_empty

/-- The result of a program beside what it should come to: what it returns lies on the heap, and beside it what was
    there before. -/
inductive ComesTo (R : β → γ → List (Nat × α) → Prop) (frame : List (Nat × α)) (lost : List Nat) :
    Except (HeapError ε) (β × Heap α) → Ledger α ε γ → Prop where
  | stop (e : ε) : ComesTo R frame lost (.error (.stop e)) (.error e)
  | ok {x : β} {h : Heap α} {y : γ} {blocks gone : List (Nat × α)} (related : R x y blocks)
      (has : h.Has (blocks ++ frame) (lost ++ gone.map Prod.fst)) :
      ComesTo R frame lost (.ok (x, h)) (.ok (y, gone.map Prod.snd))

/-- With the blocks `before`, and others, `p` comes to `a`. -/
def Implements (before : List (Nat × α)) (p : HeapProgram α ε β) (a : Ledger α ε γ)
    (R : β → γ → List (Nat × α) → Prop) : Prop :=
  ∀ (h : Heap α) frame lost, h.Has (before ++ frame) lost → ComesTo R frame lost (p h) a

variable {before after other gone : List (Nat × α)} {p : HeapProgram α ε β} {a : Ledger α ε γ}
  {R : β → γ → List (Nat × α) → Prop} {S : β' → γ' → List (Nat × α) → Prop}

/-- No block is lost. -/
theorem ComesTo.kept {frame : List (Nat × α)} {lost : List Nat} {x : β} {h : Heap α} {y : γ} {blocks : List (Nat × α)}
    (related : R x y blocks) (has : h.Has (blocks ++ frame) lost) :
    ComesTo (ε := ε) R frame lost (.ok (x, h)) (pure y) := by
  rw [← List.append_nil lost] at has
  exact @ComesTo.ok _ _ _ _ _ _ _ _ _ _ _ [] related has

theorem implements_pure {x : β} {y : γ} (h : R x y before) :
    Implements before (pure x : HeapProgram α ε β) (pure y) R := by
  intro heap frame lost hhas
  exact .kept h hhas

theorem implements_stop (e : ε) : Implements before (HeapProgram.stop e : HeapProgram α ε β) (Ledger.stop e) R := by
  intro heap frame lost _
  exact .stop e

/-- One after the other. -/
theorem Implements.bind {f : β → HeapProgram α ε β'} {g : γ → Ledger α ε γ'} (hp : Implements before p a R)
    (hf : ∀ x y blocks, R x y blocks → Implements blocks (f x) (g y) S) :
    Implements before (p >>= f) (a >>= g) S := by
  intro heap frame lost hhas
  have hfirst := hp heap frame lost hhas
  generalize hrun : p heap = r at hfirst
  cases hfirst with
  | stop e =>
      rw [HeapProgram.bind_error hrun]
      exact .stop e
  | @ok x heap₁ y blocks gone₁ hR hhas₁ =>
      rw [HeapProgram.bind_ok hrun, Ledger.bind_ok rfl]
      have hsecond := hf x y blocks hR heap₁ frame _ hhas₁
      generalize g y = b at hsecond
      generalize f x heap₁ = r' at hsecond
      cases hsecond with
      | stop e => exact .stop e
      | @ok x' heap₂ y' blocks' gone₂ hS hhas₂ =>
          rw [List.append_assoc, ← List.map_append] at hhas₂
          have hboth := ComesTo.ok (ε := ε) hS hhas₂
          rwa [List.map_append] at hboth

/-- What is known of the result may be said in another way, and of the blocks in another order. -/
theorem Implements.mono {R' : β → γ → List (Nat × α) → Prop} (hp : Implements before p a R)
    (h : ∀ x y blocks, R x y blocks → ∃ blocks', blocks'.Perm blocks ∧ R' x y blocks') : Implements before p a R' := by
  intro heap frame lost hhas
  have hrun := hp heap frame lost hhas
  generalize p heap = r at hrun
  cases hrun with
  | stop e => exact .stop e
  | ok hR hhas' =>
      obtain ⟨blocks', hperm, hR'⟩ := h _ _ _ hR
      exact .ok hR' (Owned.perm hhas' (hperm.append_right frame))

/-- The order of the blocks does not matter. -/
theorem Implements.perm (hp : Implements after p a R) (hperm : before.Perm after) : Implements before p a R := by
  intro heap frame lost hhas
  exact hp heap frame lost (Owned.perm hhas (hperm.symm.append_right frame))

/-- **The frame rule**: what the program does not use stays. -/
theorem Implements.frame (hp : Implements before p a R) (other : List (Nat × α)) :
    Implements (before ++ other) p a fun x y blocks => ∃ own, blocks = own ++ other ∧ R x y own := by
  intro heap frame lost hhas
  rw [List.append_assoc] at hhas
  have hrun := hp heap (other ++ frame) lost hhas
  generalize p heap = r at hrun
  cases hrun with
  | stop e => exact .stop e
  | ok hR hhas' =>
      rw [← List.append_assoc] at hhas'
      exact .ok ⟨_, rfl, hR⟩ hhas'

/-- A part of the program that uses a part of the blocks. -/
theorem Implements.bind_frame {f : β → HeapProgram α ε β'} {g : γ → Ledger α ε γ'} (hp : Implements after p a R)
    (hperm : before.Perm (after ++ other))
    (hf : ∀ x y blocks, R x y blocks → Implements (blocks ++ other) (f x) (g y) S) :
    Implements before (p >>= f) (a >>= g) S := by
  refine Implements.perm (Implements.bind (hp.frame other) ?_) hperm
  rintro x y blocks ⟨own, rfl, hR⟩
  exact hf x y own hR

/-- What the ledger says of the result is known too. -/
theorem Implements.returned (hp : Implements before p a R) {Q : γ → Prop} (hQ : ∀ y gone, a = .ok (y, gone) → Q y) :
    Implements before p a fun x y blocks => Q y ∧ R x y blocks := by
  intro heap frame lost hhas
  have hrun := hp heap frame lost hhas
  generalize p heap = r at hrun
  cases hrun with
  | stop e => exact .stop e
  | ok hR hhas' => exact .ok ⟨hQ _ _ rfl, hR⟩ hhas'

/-- A part of the program that loses nothing. -/
theorem Implements.bind_pure {f : β → HeapProgram α ε β'} {y : γ} {b : Ledger α ε γ'}
    (hp : Implements after p (pure y) R) (hperm : before.Perm (after ++ other))
    (hf : ∀ x blocks, R x y blocks → Implements (blocks ++ other) (f x) b S) : Implements before (p >>= f) b S := by
  have hreturned := hp.returned (Q := fun y' => y' = y) fun y' gone heq => (Prod.mk.inj (Except.ok.inj heq)).1.symm
  rw [← Ledger.pure_bind y fun _ => b]
  refine hreturned.bind_frame hperm ?_
  rintro x y' blocks ⟨rfl, hR⟩
  exact hf x blocks hR

/-- The same for a part that uses all the blocks. -/
theorem Implements.bind_pure_all {f : β → HeapProgram α ε β'} {y : γ} {b : Ledger α ε γ'}
    (hp : Implements before p (pure y) R) (hf : ∀ x blocks, R x y blocks → Implements blocks (f x) b S) :
    Implements before (p >>= f) b S := by
  have hperm : before.Perm (before ++ []) := by rw [List.append_nil]
  refine hp.bind_pure hperm ?_
  intro x blocks hR
  rw [List.append_nil]
  exact hf x blocks hR

/-- A program that returns what the ledger says, and leaves the blocks as they are. -/
def Keeps (blocks : List (Nat × α)) (x y : β) (after : List (Nat × α)) : Prop := x = y ∧ after = blocks

theorem Implements.keep {a : Ledger α ε β} (hp : Implements after p a (Keeps after))
    (hperm : before.Perm (after ++ other)) : Implements before p a (Keeps before) := by
  refine Implements.mono (Implements.perm (hp.frame other) hperm) ?_
  rintro x y blocks ⟨own, rfl, rfl, rfl⟩
  exact ⟨before, hperm, rfl, rfl⟩

theorem Has.lose {h : Heap α} {lost : List Nat} (hhas : h.Has (gone ++ before) lost) :
    h.Has before (lost ++ gone.map Prod.fst) := by
  induction gone generalizing lost with
  | nil => rwa [List.map_nil, List.append_nil]
  | cons b gone ih =>
      have hless := ih (Owned.lose hhas)
      rwa [List.append_assoc] at hless

/-- Blocks whose pointers are forgotten. -/
theorem Implements.lose (hp : Implements before p a R) :
    Implements (gone ++ before) p (Ledger.lose (gone.map Prod.snd) >>= fun _ => a) R := by
  intro heap frame lost hhas
  rw [List.append_assoc] at hhas
  have hrun := hp heap frame _ hhas.lose
  have hlose : (Ledger.lose (gone.map Prod.snd) : Ledger α ε Unit) = .ok ((), gone.map Prod.snd) := rfl
  rw [Ledger.bind_ok hlose]
  generalize p heap = r at hrun
  cases hrun with
  | stop e => exact .stop e
  | ok hR hhas' =>
      rw [List.append_assoc, ← List.map_append] at hhas'
      have hboth := ComesTo.ok (ε := ε) hR hhas'
      rwa [List.map_append] at hboth

theorem Implements.lose_none (hp : Implements before p a R) :
    Implements before p (Ledger.lose [] >>= fun _ => a) R := by
  show Implements ([] ++ before) p (Ledger.lose (([] : List (Nat × α)).map Prod.snd) >>= fun _ => a) R
  exact hp.lose

/-! ## The heap -/

theorem implements_malloc (x : α) : Implements [] (HeapProgram.malloc x : HeapProgram α ε Nat) (pure ())
    fun b _ blocks => blocks = [(b, x)] := by
  intro heap frame lost hhas
  refine ComesTo.kept rfl ?_
  exact Owned.malloc hhas rfl rfl

theorem implements_free (b : Nat) (x : α) : Implements [(b, x)] (HeapProgram.free b : HeapProgram α ε Unit) (pure ())
    fun _ _ blocks => blocks = [] := by
  intro heap frame lost hhas
  obtain ⟨heap', hfree, hhas'⟩ := Owned.free hhas
  have hrun : (HeapProgram.free b : HeapProgram α ε Unit) heap = .ok ((), heap') := by
    rw [HeapProgram.free, show heap.free b = some heap' from hfree]
  rw [hrun]
  exact .kept rfl hhas'

theorem implements_read (b : Nat) (x : α) :
    Implements [(b, x)] (HeapProgram.read b : HeapProgram α ε α) (pure x) (Keeps [(b, x)]) := by
  intro heap frame lost hhas
  obtain ⟨y, hy, hcontent⟩ := hhas.good (b, x) List.mem_cons_self
  have hrun : (HeapProgram.read b : HeapProgram α ε α) heap = .ok (y, heap) := by
    rw [HeapProgram.read, show heap.block b = some y from hy]
  rw [hrun]
  exact .kept ⟨hcontent, rfl⟩ hhas

/-! ## Lists -/

/-- Things that lie on the heap one beside the other. -/
inductive Each (R : β → γ → List (Nat × α) → Prop) : List β → List γ → List (Nat × α) → Prop where
  | nil : Each R [] [] []
  | cons {x : β} {y : γ} {xs : List β} {ys : List γ} {b bs : List (Nat × α)} (head : R x y b) (tail : Each R xs ys bs) :
      Each R (x :: xs) (y :: ys) (b ++ bs)

theorem Each.length_eq {xs : List β} {ys : List γ} {b : List (Nat × α)} (h : Each R xs ys b) :
    xs.length = ys.length := by
  induction h with
  | nil => rfl
  | cons _ _ ih => rw [List.length_cons, List.length_cons, ih]

/-- What is read off them without the heap. -/
theorem Each.map_eq {μ : Type} {f : β → μ} {g : γ → μ} {xs : List β} {ys : List γ} {b : List (Nat × α)}
    (h : Each R xs ys b) (hfg : ∀ x y b, R x y b → f x = g y) : xs.map f = ys.map g := by
  induction h with
  | nil => rfl
  | cons head _ ih => rw [List.map_cons, List.map_cons, hfg _ _ _ head, ih]

theorem Each.append {xs xs' : List β} {ys ys' : List γ} {b b' : List (Nat × α)} (h : Each R xs ys b)
    (h' : Each R xs' ys' b') : Each R (xs ++ xs') (ys ++ ys') (b ++ b') := by
  induction h with
  | nil => exact h'
  | cons head _ ih =>
      rw [List.append_assoc]
      exact .cons head ih

theorem each_singleton {x : β} {y : γ} {b : List (Nat × α)} (h : R x y b) : Each R [x] [y] b := by
  have heach := Each.cons h .nil
  rwa [List.append_nil] at heach

/-- **One of them**, and what becomes of the list when another is put in its place. -/
theorem Each.split {xs : List β} {ys : List γ} {b : List (Nat × α)} (h : Each R xs ys b) {n : Nat} {y : γ}
    (hy : ys[n]? = some y) :
    ∃ x own others, xs[n]? = some x ∧ R x y own ∧ b.Perm (own ++ others) ∧
      ∀ x' y' own', R x' y' own' → ∃ b', Each R (xs.set n x') (ys.set n y') b' ∧ b'.Perm (own' ++ others) := by
  induction h generalizing n with
  | nil => cases hy
  | @cons x y₁ xs ys b bs head tail ih =>
      cases n with
      | zero =>
          obtain rfl := Option.some.inj hy
          exact ⟨x, b, bs, rfl, head, .refl _, fun x' y' own' h' => ⟨_, .cons h' tail, .refl _⟩⟩
      | succ n =>
          obtain ⟨x₁, own, others, hx, hR, hperm, hset⟩ := ih hy
          refine ⟨x₁, own, b ++ others, hx, hR, ?_, ?_⟩
          · exact (hperm.append_left b).trans (List.perm_append_comm_assoc b own others)
          · intro x' y' own' h'
            obtain ⟨b', heach, hperm'⟩ := hset x' y' own' h'
            exact ⟨b ++ b', .cons head heach, (hperm'.append_left b).trans (List.perm_append_comm_assoc b own' others)⟩

end Heap
