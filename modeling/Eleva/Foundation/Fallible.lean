import Mathlib.Data.List.Basic

/-!
# Foundation - Computations that write and throw

A service method changes a store in several writes and may throw between two of
them.  Throwing does not undo the writes already made: only a transaction does.
{lit}`Fallible` keeps exactly that distinction, and the rules below say what such a
computation does without unfolding the monad.

Main results:

- Theorems {lit}`Fallible.bind_eq_ok` and {lit}`Fallible.bind_eq_error`: how a sequence
  of two steps returns and how it throws.
- Theorem {lit}`Fallible.transaction_error`: a transaction that throws leaves the
  state as it was.
- Definition {lit}`Fallible.Keeps` with its rules: an invariant that every step
  keeps, whether it returns or throws, is kept by the whole computation.
- Definition {lit}`Fallible.BlindAt` with its rules: a computation that returns or
  throws the same from two states, and leaves related states.
-/

namespace Eleva
namespace Foundation

/-- A computation over a state {lit}`σ` that returns a value or throws an error, in
both cases with the state reached so far. -/
def Fallible (σ ε α : Type) : Type :=
  σ → Except ε α × σ

namespace Fallible

variable {σ ε α β : Type}

/-- Run the next step on the value and the state of the first. -/
protected def bind (x : Fallible σ ε α) (f : α → Fallible σ ε β) : Fallible σ ε β := fun s =>
  match x s with
  | (.ok a, s') => f a s'
  | (.error e, s') => (.error e, s')

instance : Monad (Fallible σ ε) where
  pure a := fun s => (.ok a, s)
  bind := Fallible.bind

/-- Stop with an error; what was written stays written. -/
def throw (e : ε) : Fallible σ ε α := fun s => (.error e, s)

/-- Stop with an error when the condition holds. -/
def throwIf (c : Bool) (e : ε) : Fallible σ ε Unit := fun s =>
  if c then (.error e, s) else (.ok (), s)

/-- A computation that only reads the state. -/
def reads (f : σ → Except ε α) : Fallible σ ε α := fun s => (f s, s)

/-- Replace the state. -/
def modify (f : σ → σ) : Fallible σ ε Unit := fun s => (.ok (), f s)

/-- Catch every error of {lit}`x` and go on with {lit}`handler`; writes made before
the error stay. -/
def orElse (x : Fallible σ ε α) (handler : Fallible σ ε α) : Fallible σ ε α := fun s =>
  match x s with
  | (.ok a, s') => (.ok a, s')
  | (.error _, s') => handler s'

/-- Run {lit}`x` as a transaction: an error restores the state from before it. -/
def transaction (x : Fallible σ ε α) : Fallible σ ε α := fun s =>
  match x s with
  | (.ok a, s') => (.ok a, s')
  | (.error e, _) => (.error e, s)

/-! ## How each step runs -/

@[simp]
theorem pure_apply (a : α) (s : σ) : (pure a : Fallible σ ε α) s = (.ok a, s) :=
  rfl

@[simp]
theorem throw_apply (e : ε) (s : σ) : (throw e : Fallible σ ε α) s = (.error e, s) :=
  rfl

@[simp]
theorem reads_apply (f : σ → Except ε α) (s : σ) : reads f s = (f s, s) :=
  rfl

@[simp]
theorem modify_apply (f : σ → σ) (s : σ) :
    (modify f : Fallible σ ε Unit) s = (.ok (), f s) :=
  rfl

theorem bind_apply (x : Fallible σ ε α) (f : α → Fallible σ ε β) (s : σ) :
    (x >>= f) s =
      match x s with
      | (.ok a, s') => f a s'
      | (.error e, s') => (.error e, s') :=
  rfl

theorem bind_of_ok {x : Fallible σ ε α} {f : α → Fallible σ ε β} {s s' : σ} {a : α}
    (h : x s = (.ok a, s')) : (x >>= f) s = f a s' := by
  rw [bind_apply, h]

/-- What follows a step depends on what the step does only. -/
theorem bind_congr_apply {x y : Fallible σ ε α} {s : σ} (h : x s = y s)
    (f : α → Fallible σ ε β) : (x >>= f) s = (y >>= f) s := by
  rw [bind_apply, bind_apply, h]

theorem bind_of_error {x : Fallible σ ε α} {f : α → Fallible σ ε β} {s s' : σ} {e : ε}
    (h : x s = (.error e, s')) : (x >>= f) s = (.error e, s') := by
  rw [bind_apply, h]

/-- A sequence returns exactly when both steps return. -/
theorem bind_eq_ok {x : Fallible σ ε α} {f : α → Fallible σ ε β} {s s'' : σ} {b : β} :
    (x >>= f) s = (.ok b, s'') ↔
      ∃ a s', x s = (.ok a, s') ∧ f a s' = (.ok b, s'') := by
  rw [bind_apply]
  constructor
  · intro h
    split at h <;> rename_i hx
    · exact ⟨_, _, hx, h⟩
    · simp at h
  · rintro ⟨a, s', hx, hf⟩
    rw [hx]
    exact hf

/-- A sequence throws in its first step or, after that returned, in its second. -/
theorem bind_eq_error {x : Fallible σ ε α} {f : α → Fallible σ ε β} {s s'' : σ} {e : ε} :
    (x >>= f) s = (.error e, s'') ↔
      x s = (.error e, s'') ∨ ∃ a s', x s = (.ok a, s') ∧ f a s' = (.error e, s'') := by
  rw [bind_apply]
  constructor
  · intro h
    split at h <;> rename_i hx
    · exact Or.inr ⟨_, _, hx, h⟩
    · cases h
      exact Or.inl hx
  · rintro (hx | ⟨a, s', hx, hf⟩)
    · rw [hx]
    · rw [hx]
      exact hf

/-- A run whose outcome passes a test on returned values has returned. -/
theorem returned_of_any {run : Except ε α × σ} {p : α → Bool}
    (h : run.1.toOption.any p = true) : ∃ a s, run = (.ok a, s) ∧ p a = true := by
  rcases run with ⟨result, s⟩
  cases result with
  | error e => simp [Except.toOption] at h
  | ok a => exact ⟨a, s, rfl, h⟩

theorem throwIf_eq_ok {c : Bool} {e : ε} {s s' : σ} {u : Unit} :
    (throwIf c e : Fallible σ ε Unit) s = (.ok u, s') ↔ c = false ∧ s' = s := by
  unfold throwIf
  cases c <;> simp [eq_comm]

/-- A check that throws changes nothing. -/
theorem throwIf_error {c : Bool} {e e' : ε} {s s' : σ}
    (h : (throwIf c e : Fallible σ ε Unit) s = (.error e', s')) : s' = s := by
  unfold throwIf at h
  split at h <;> cases h
  rfl

/-- A check that passes goes on. -/
theorem throwIf_false_bind (e : ε) (f : Unit → Fallible σ ε α) (s : σ) :
    (throwIf false e >>= f) s = f () s :=
  rfl

/-- What goes on after a check returns exactly when the check passes and it returns. -/
theorem throwIf_bind_eq_ok {c : Bool} {e : ε} {f : Unit → Fallible σ ε α} {s s' : σ} {a : α} :
    (throwIf c e >>= f) s = (.ok a, s') ↔ c = false ∧ f () s = (.ok a, s') := by
  cases c with
  | false => exact ⟨fun h => ⟨rfl, h⟩, fun h => h.2⟩
  | true =>
      constructor
      · intro h
        cases h
      · rintro ⟨h, _⟩
        cases h

theorem reads_eq_ok {f : σ → Except ε α} {s s' : σ} {a : α} :
    reads f s = (.ok a, s') ↔ f s = .ok a ∧ s' = s := by
  simp [reads_apply, Prod.ext_iff, eq_comm (a := s)]

/-- Reading a known value is passing it on. -/
theorem reads_ok_bind (a : α) (f : α → Fallible σ ε β) (s : σ) :
    (reads (fun _ => .ok a) >>= f) s = f a s :=
  rfl

theorem transaction_eq_ok {x : Fallible σ ε α} {s s' : σ} {a : α} :
    transaction x s = (.ok a, s') ↔ x s = (.ok a, s') := by
  unfold transaction
  split <;> rename_i hx
  · rw [hx]
  · rw [hx]
    simp

/-- Catching every error and going on with a value always returns. -/
theorem orElse_pure_returns (x : Fallible σ ε α) (b : α) (s : σ) :
    ∃ a, orElse x (pure b) s = (.ok a, (x s).2) := by
  unfold orElse
  cases hx : x s with
  | mk result s' =>
      cases result with
      | ok a => exact ⟨a, rfl⟩
      | error e => exact ⟨b, rfl⟩

/-- The writes of a caught statement stay, whether it returns or throws. -/
theorem orElse_pure_state (x : Fallible σ ε α) (b : α) (s : σ) :
    (orElse x (pure b) s).2 = (x s).2 := by
  rcases orElse_pure_returns x b s with ⟨_, hreturn⟩
  rw [hreturn]

theorem orElse_pure_ne_error {x : Fallible σ ε α} {b : α} {s s' : σ} {e : ε} :
    orElse x (pure b) s ≠ (.error e, s') := by
  rcases orElse_pure_returns x b s with ⟨a, hreturn⟩
  rw [hreturn]
  intro h
  cases h

/-- A transaction that throws has written nothing. -/
theorem transaction_error {x : Fallible σ ε α} {s s' : σ} {e : ε}
    (h : transaction x s = (.error e, s')) : s' = s := by
  unfold transaction at h
  split at h
  · simp at h
  · cases h
    rfl

/-! ## Computations that throw -/

/-- From {lit}`s`, {lit}`x` throws. -/
def ThrowsAt (x : Fallible σ ε α) (s : σ) : Prop :=
  ∃ e, (x s).1 = .error e

/-- A computation throws where its second part throws wherever the first part returns. -/
theorem ThrowsAt.bind {x : Fallible σ ε α} {f : α → Fallible σ ε β} {s : σ}
    (h : ∀ a s', x s = (.ok a, s') → (f a).ThrowsAt s') : (x >>= f).ThrowsAt s := by
  rcases hx : x s with ⟨e | a, s'⟩
  · exact ⟨e, by rw [bind_of_error hx]⟩
  · rcases h a s' hx with ⟨e, he⟩
    exact ⟨e, by rw [bind_of_ok hx, he]⟩

/-- A transaction that throws, and what it leaves. -/
theorem ThrowsAt.transaction {x : Fallible σ ε α} {s : σ} (h : x.ThrowsAt s) :
    ∃ e, transaction x s = (.error e, s) := by
  rcases h with ⟨e, he⟩
  rcases hx : x s with ⟨e' | a, s'⟩
  · exact ⟨e', by unfold Fallible.transaction; rw [hx]⟩
  · rw [hx] at he
    cases he

/-! ## Computations that write all or nothing -/

/-- {lit}`x` leaves the state. -/
def ReadsOnly (x : Fallible σ ε α) : Prop :=
  ∀ s, (x s).2 = s

/-- Where {lit}`x` throws, it has left the state. -/
def Atomic (x : Fallible σ ε α) : Prop :=
  ∀ s e s', x s = (.error e, s') → s' = s

theorem ReadsOnly.pure (a : α) : ReadsOnly (pure a : Fallible σ ε α) :=
  fun _ => rfl

theorem ReadsOnly.throw (e : ε) : ReadsOnly (throw e : Fallible σ ε α) :=
  fun _ => rfl

theorem ReadsOnly.throwIf (c : Bool) (e : ε) :
    ReadsOnly (throwIf c e : Fallible σ ε Unit) := by
  intro s
  cases c <;> rfl

theorem ReadsOnly.reads (f : σ → Except ε α) : ReadsOnly (reads f) :=
  fun _ => rfl

theorem ReadsOnly.bind {x : Fallible σ ε α} {f : α → Fallible σ ε β} (hx : ReadsOnly x)
    (hf : ∀ a, ReadsOnly (f a)) : ReadsOnly (x >>= f) := by
  intro s
  have hmid := hx s
  rw [bind_apply]
  split <;> rename_i hrun
  · rw [hrun] at hmid
    rw [hf _ _, ← hmid]
  · rw [hrun] at hmid
    exact hmid

/-- What a computation that leaves the state has returned, it returned from the state. -/
theorem ReadsOnly.state_eq {x : Fallible σ ε α} (hx : ReadsOnly x) {s s' : σ}
    {r : Except ε α} (h : x s = (r, s')) : s' = s := by
  have hstate := hx s
  rw [h] at hstate
  exact hstate

theorem ReadsOnly.atomic {x : Fallible σ ε α} (hx : ReadsOnly x) : Atomic x :=
  fun _ _ _ h => hx.state_eq h

theorem Atomic.transaction (x : Fallible σ ε α) : Atomic (transaction x) :=
  fun _ _ _ h => transaction_error h

/-- Reading first keeps a computation atomic. -/
theorem Atomic.bind {x : Fallible σ ε α} {f : α → Fallible σ ε β} (hx : ReadsOnly x)
    (hf : ∀ a, Atomic (f a)) : Atomic (x >>= f) := by
  intro s e s' h
  rcases bind_eq_error.mp h with hfail | ⟨a, s₁, hread, hrest⟩
  · exact hx.state_eq hfail
  · rw [hf a _ _ _ hrest, hx.state_eq hread]

/-- Going on without anything that throws keeps a computation atomic. -/
theorem Atomic.bind_returns {x : Fallible σ ε α} {f : α → Fallible σ ε β} (hx : Atomic x)
    (hf : ∀ a s e s', f a s ≠ (.error e, s')) : Atomic (x >>= f) := by
  intro s e s' h
  rcases bind_eq_error.mp h with hfail | ⟨a, s₁, _, hrest⟩
  · exact hx _ _ _ hfail
  · exact absurd hrest (hf a _ _ _)

/-- Answering with a value after an atomic computation. -/
theorem Atomic.bind_pure {x : Fallible σ ε α} {g : α → β} (hx : Atomic x) :
    Atomic (x >>= fun a => Pure.pure (g a)) :=
  hx.bind_returns fun _ _ _ _ h => by cases h

/-! ## Invariants kept whether a computation returns or throws -/

/-- {lit}`x` keeps {lit}`I`, also when it throws. -/
def Keeps (I : σ → Prop) (x : Fallible σ ε α) : Prop :=
  ∀ s, I s → I (x s).2

variable {I : σ → Prop}

/-- A computation that never changes the state leaves it. -/
theorem Keeps.state_eq {x : Fallible σ ε α} {s : σ} (hx : Keeps (fun s' => s' = s) x) :
    (x s).2 = s :=
  hx s rfl

theorem Keeps.pure (a : α) : Keeps I (pure a : Fallible σ ε α) :=
  fun _ hs => hs

theorem Keeps.throw (e : ε) : Keeps I (throw e : Fallible σ ε α) :=
  fun _ hs => hs

theorem Keeps.throwIf (c : Bool) (e : ε) : Keeps I (throwIf c e : Fallible σ ε Unit) := by
  intro s hs
  unfold Fallible.throwIf
  split <;> exact hs

theorem Keeps.reads (f : σ → Except ε α) : Keeps I (reads f) :=
  fun _ hs => hs

/-- A computation that leaves every state keeps every invariant. -/
theorem Keeps.of_unchanged {x : Fallible σ ε α} (hx : ∀ s, (x s).2 = s) : Keeps I x := by
  intro s hs
  rw [hx s]
  exact hs

theorem Keeps.modify {f : σ → σ} (hf : ∀ s, I s → I (f s)) :
    Keeps I (modify f : Fallible σ ε Unit) :=
  fun s hs => hf s hs

theorem Keeps.bind {x : Fallible σ ε α} {f : α → Fallible σ ε β}
    (hx : Keeps I x) (hf : ∀ a, Keeps I (f a)) : Keeps I (x >>= f) := by
  intro s hs
  have hmid := hx s hs
  rw [bind_apply]
  split <;> rename_i hrun
  · rw [hrun] at hmid
    exact hf _ _ hmid
  · rw [hrun] at hmid
    exact hmid

theorem Keeps.orElse {x handler : Fallible σ ε α} (hx : Keeps I x) (hh : Keeps I handler) :
    Keeps I (orElse x handler) := by
  intro s hs
  have hmid := hx s hs
  unfold Fallible.orElse
  split <;> rename_i hrun
  · rw [hrun] at hmid
    exact hmid
  · rw [hrun] at hmid
    exact hh _ hmid

theorem Keeps.transaction {x : Fallible σ ε α} (hx : Keeps I x) : Keeps I (transaction x) := by
  intro s hs
  have hmid := hx s hs
  unfold Fallible.transaction
  split <;> rename_i hrun
  · rw [hrun] at hmid
    exact hmid
  · exact hs

theorem Keeps.ite {c : Prop} [Decidable c] {x y : Fallible σ ε α}
    (hx : c → Keeps I x) (hy : ¬c → Keeps I y) : Keeps I (if c then x else y) := by
  split <;> rename_i hc
  · exact hx hc
  · exact hy hc

/-! ## Computations that cannot tell related states apart -/

/-- From {lit}`s` and {lit}`t`, {lit}`x` returns or throws the same and leaves states
related by {lit}`Rel`. -/
def BlindAt (Rel : σ → σ → Prop) (x : Fallible σ ε α) (s t : σ) : Prop :=
  (x s).1 = (x t).1 ∧ Rel (x s).2 (x t).2

variable {Rel : σ → σ → Prop} {s t : σ}

theorem BlindAt.pure (hst : Rel s t) (a : α) : BlindAt Rel (pure a : Fallible σ ε α) s t :=
  ⟨rfl, hst⟩

theorem BlindAt.throw (hst : Rel s t) (e : ε) :
    BlindAt Rel (throw e : Fallible σ ε α) s t :=
  ⟨rfl, hst⟩

theorem BlindAt.reads (hst : Rel s t) (r : Except ε α) :
    BlindAt Rel (reads fun _ => r) s t :=
  ⟨rfl, hst⟩

theorem BlindAt.throwIf (hst : Rel s t) (c : Bool) (e : ε) :
    BlindAt Rel (throwIf c e : Fallible σ ε Unit) s t := by
  unfold Fallible.throwIf BlindAt
  cases c <;> exact ⟨rfl, hst⟩

/-- Two steps in a row: what the second does may depend on the states the first
left. -/
theorem BlindAt.bind {x : Fallible σ ε α} {f : α → Fallible σ ε β}
    (hx : BlindAt Rel x s t)
    (hf : ∀ a s' t', x s = (.ok a, s') → x t = (.ok a, t') → Rel s' t' →
      BlindAt Rel (f a) s' t') : BlindAt Rel (x >>= f) s t := by
  rcases hx with ⟨hanswer, hnext⟩
  cases hs : x s with
  | mk r s' =>
      cases ht : x t with
      | mk r' t' =>
          rw [hs, ht] at hanswer hnext
          simp only at hanswer hnext
          subst hanswer
          cases r with
          | ok a =>
              have h := hf a s' t' hs ht hnext
              unfold BlindAt at h ⊢
              rwa [bind_of_ok hs, bind_of_ok ht]
          | error e =>
              unfold BlindAt
              rw [bind_of_error hs, bind_of_error ht]
              exact ⟨rfl, hnext⟩

end Fallible

end Foundation
end Eleva
