import Eleva.Foundation.Fallible
import Eleva.Foundation.Interleaving

/-!
# Foundation - Programs of atomic steps

A program makes atomic steps on a shared state, one after another, and between two of them other
programs may make theirs.  A program that runs alone is an ordinary computation.  The rules below
say what a program keeps whatever the others do, as long as they move the state as agreed.

Main results:

- Theorems {lit}`Prog.alone_bind` and {lit}`Prog.alone_atomic`: a program that runs alone.
- Definition {lit}`Prog.Meets` with its rules: what holds where a program ends, among others that
  keep to a discipline.
- Definition {lit}`Prog.gather`: programs side by side inside one program.
- Theorems {lit}`Prog.threads_results` and {lit}`Prog.threads_inv`: programs that keep to a
  discipline keep its invariant in every interleaving whose steps are all admitted, and return
  what is said of them.
-/

namespace Eleva
namespace Foundation

/-- A program with atomic steps on a state {lit}`σ`, each with a label that says what it is
about. -/
inductive Prog (L σ ε α : Type) where
  | done (result : Except ε α)
  | step (label : L) (state : σ → σ) (next : σ → Prog L σ ε α)

namespace Prog

variable {L σ ε α β : Type}

/-- Go on with what a program returned. -/
protected def bind : Prog L σ ε α → (α → Prog L σ ε β) → Prog L σ ε β
  | done (.ok a), f => f a
  | done (.error e), _ => done (.error e)
  | step label state next, f => step label state fun s => (next s).bind f

instance : Monad (Prog L σ ε) where
  pure a := done (.ok a)
  bind := Prog.bind

/-- Stop with an error. -/
def throw (e : ε) : Prog L σ ε α :=
  done (.error e)

/-- Stop with an error when the condition holds. -/
def throwIf (c : Bool) (e : ε) : Prog L σ ε Unit :=
  if c then throw e else pure ()

/-- The value that was found, or an error. -/
def orThrow (e : ε) : Option α → Prog L σ ε α
  | none => throw e
  | some a => pure a

/-- Go on with {lit}`handler` where the program stops with an error. -/
def orElse : Prog L σ ε α → (ε → Prog L σ ε α) → Prog L σ ε α
  | done (.ok a), _ => done (.ok a)
  | done (.error e), handler => handler e
  | step label state next, handler => step label state fun s => (next s).orElse handler

/-- Programs side by side, none of which stops with an error: the schedule says which one makes
the next step, and where it ends they go on one after another. -/
def gather : List ℕ → List (Prog L σ ε Unit) → Prog L σ ε Unit
  | [], tasks => tasks.foldr (fun task rest => task.bind fun _ => rest) (done (.ok ()))
  | i :: schedule, tasks =>
      match tasks[i]? with
      | some (step label state next) =>
          step label state fun s => gather schedule (tasks.set i (next s))
      | _ => gather schedule tasks

/-- A computation as one atomic step. -/
def atomic (label : L) (x : Fallible σ ε α) : Prog L σ ε α :=
  step label (fun s => (x s).2) fun s => done (x s).1

theorem bind_assoc {γ : Type} (p : Prog L σ ε α) (f : α → Prog L σ ε β) (g : β → Prog L σ ε γ) :
    p >>= f >>= g = p >>= fun a => f a >>= g := by
  induction p with
  | done result => cases result <;> rfl
  | step label state next ih => exact congrArg (step label state) (funext ih)

/-! ## A program that runs alone -/

/-- The computation that a program is when nothing comes between its steps. -/
def alone : Prog L σ ε α → Fallible σ ε α
  | done result, s => (result, s)
  | step _ state next, s => (next s).alone (state s)

@[simp]
theorem alone_pure (a : α) : (pure a : Prog L σ ε α).alone = pure a :=
  rfl

@[simp]
theorem alone_throw (e : ε) : (throw e : Prog L σ ε α).alone = Fallible.throw e :=
  rfl

@[simp]
theorem alone_throwIf (c : Bool) (e : ε) :
    (throwIf c e : Prog L σ ε Unit).alone = Fallible.throwIf c e := by
  funext s
  cases c <;> rfl

@[simp]
theorem alone_atomic (label : L) (x : Fallible σ ε α) : (atomic label x).alone = x :=
  rfl

@[simp]
theorem alone_bind (p : Prog L σ ε α) (f : α → Prog L σ ε β) :
    (p >>= f).alone = p.alone >>= fun a => (f a).alone := by
  funext s
  induction p generalizing s with
  | done result => cases result <;> rfl
  | step label state next ih => exact ih s (state s)

@[simp]
theorem alone_ite {c : Prop} [Decidable c] (p q : Prog L σ ε α) :
    (if c then p else q).alone = if c then p.alone else q.alone := by
  split <;> rfl

/-! ## Programs that only read -/

/-- Every step of the program leaves the state. -/
def ReadsOnly : Prog L σ ε α → Prop
  | done _ => True
  | step _ state next => (∀ s, state s = s) ∧ ∀ s, (next s).ReadsOnly

theorem ReadsOnly.pure (a : α) : (pure a : Prog L σ ε α).ReadsOnly :=
  trivial

theorem ReadsOnly.throw (e : ε) : (throw e : Prog L σ ε α).ReadsOnly :=
  trivial

theorem ReadsOnly.throwIf (c : Bool) (e : ε) : (throwIf c e : Prog L σ ε Unit).ReadsOnly := by
  cases c <;> trivial

theorem ReadsOnly.orThrow (e : ε) (found : Option α) :
    (orThrow e found : Prog L σ ε α).ReadsOnly := by
  cases found <;> trivial

theorem ReadsOnly.atomic {label : L} {x : Fallible σ ε α} (hx : Fallible.ReadsOnly x) :
    (Prog.atomic label x).ReadsOnly :=
  ⟨hx, fun _ => trivial⟩

theorem ReadsOnly.bind {p : Prog L σ ε α} {f : α → Prog L σ ε β} (hp : p.ReadsOnly)
    (hf : ∀ a, (f a).ReadsOnly) : (p >>= f).ReadsOnly := by
  induction p with
  | done result =>
      cases result with
      | ok a => exact hf a
      | error e => trivial
  | step label state next ih => exact ⟨hp.1, fun s => ih s (hp.2 s)⟩

/-! ## A discipline between programs -/

end Prog

/-- What programs agree on: an invariant, how a step may move the state, and in which states a
step with a label is admitted. -/
structure Discipline (L σ : Type) where
  Inv : σ → Prop
  Moves : σ → σ → Prop
  Admits : L → σ → Prop
  refl : ∀ s, Moves s s
  trans : ∀ s t u, Moves s t → Moves t u → Moves s u

namespace Prog

variable {L σ ε α β : Type} (D : Discipline L σ)

/-- From {lit}`s` on, and whatever the others do in between, the admitted steps of the program
keep to the discipline, and {lit}`post` holds where the program ends. -/
def Meets : Prog L σ ε α → σ → (Except ε α → σ → Prop) → Prop
  | done result, s, post => post result s
  | step label state next, s, post => ∀ s', D.Moves s s' → D.Inv s' → D.Admits label s' →
      (D.Inv (state s') ∧ D.Moves s' (state s')) ∧ (next s').Meets (state s') post

/-- The admitted steps of the program keep to the discipline. -/
def Safe (p : Prog L σ ε α) (s : σ) : Prop :=
  p.Meets D s fun _ _ => True

variable {D} {s : σ} {post post' : Except ε α → σ → Prop}

theorem Meets.mono {p : Prog L σ ε α} (h : p.Meets D s post)
    (himp : ∀ r t, post r t → post' r t) : p.Meets D s post' := by
  induction p generalizing s with
  | done result => exact himp _ _ h
  | step label state next ih =>
      intro s' hmoves hinv hadmits
      rcases h s' hmoves hinv hadmits with ⟨hkeeps, hnext⟩
      exact ⟨hkeeps, ih s' hnext⟩

/-- One program after another. -/
theorem Meets.bind {p : Prog L σ ε α} {f : α → Prog L σ ε β} {post : Except ε β → σ → Prop}
    (h : p.Meets D s fun r t => match r with
      | .ok a => (f a).Meets D t post
      | .error e => post (.error e) t) : (p >>= f).Meets D s post := by
  induction p generalizing s with
  | done result => cases result <;> exact h
  | step label state next ih =>
      intro s' hmoves hinv hadmits
      rcases h s' hmoves hinv hadmits with ⟨hkeeps, hnext⟩
      exact ⟨hkeeps, ih s' hnext⟩

/-- An atomic step. -/
theorem Meets.atomic {label : L} {x : Fallible σ ε α}
    (h : ∀ s', D.Moves s s' → D.Inv s' → D.Admits label s' →
      (D.Inv (x s').2 ∧ D.Moves s' (x s').2) ∧ post (x s').1 (x s').2) :
    (Prog.atomic label x).Meets D s post :=
  h

/-- An atomic step that only reads. -/
theorem Meets.read {label : L} {x : Fallible σ ε α} (hx : Fallible.ReadsOnly x)
    (h : ∀ s', D.Moves s s' → D.Inv s' → post (x s').1 s') :
    (Prog.atomic label x).Meets D s post := by
  refine Meets.atomic fun s' hmoves hinv _ => ?_
  rw [hx s']
  exact ⟨⟨hinv, D.refl s'⟩, h s' hmoves hinv⟩

/-- A program that only reads ends where the others have moved the state. -/
theorem Meets.of_readsOnly {p : Prog L σ ε α} (hp : p.ReadsOnly) :
    p.Meets D s fun _ t => D.Moves s t := by
  induction p generalizing s with
  | done result => exact D.refl s
  | step label state next ih =>
      intro s' hmoves hinv _
      rw [hp.1 s']
      refine ⟨⟨hinv, D.refl s'⟩, (ih s' (hp.2 s')).mono fun _ t ht => ?_⟩
      exact D.trans _ _ _ hmoves ht

/-- A program of whose end only the result is said goes on from where the others have moved the
state. -/
theorem Meets.rely {p : Prog L σ ε α} {returns : Except ε α → Prop}
    (h : p.Meets D s fun r _ => returns r) {s' : σ} (hmoves : D.Moves s s') :
    p.Meets D s' fun r _ => returns r := by
  cases p with
  | done result => exact h
  | step label state next =>
      intro t ht hinv hadmits
      exact h t (D.trans _ _ _ hmoves ht) hinv hadmits

/-- A safe program goes on from where the others have moved the state. -/
theorem Safe.rely {p : Prog L σ ε α} (h : p.Safe D s) {s' : σ} (hmoves : D.Moves s s') :
    p.Safe D s' :=
  Meets.rely h hmoves

/-- A program ends where it and the others have moved the state. -/
theorem Meets.moved {p : Prog L σ ε α} (h : p.Meets D s post) :
    p.Meets D s fun r t => post r t ∧ D.Moves s t := by
  induction p generalizing s with
  | done result => exact ⟨h, D.refl s⟩
  | step label state next ih =>
      intro s' hmoves hinv hadmits
      rcases h s' hmoves hinv hadmits with ⟨hkeeps, hnext⟩
      refine ⟨hkeeps, (ih s' hnext).mono fun r t ht => ⟨ht.1, ?_⟩⟩
      exact D.trans _ _ _ (D.trans _ _ _ hmoves hkeeps.2) ht.2

theorem Safe.pure (a : α) : (pure a : Prog L σ ε α).Safe D s :=
  trivial

theorem Safe.throw (e : ε) : (throw e : Prog L σ ε α).Safe D s :=
  trivial

/-- A safe program whose result is dropped. -/
theorem Safe.discard {p : Prog L σ ε α} (h : p.Safe D s) :
    (p >>= fun _ => (Pure.pure () : Prog L σ ε Unit)).Safe D s := by
  refine Meets.bind (h.mono fun r t _ => ?_)
  cases r <;> trivial

/-- A step, and then a program that is safe from where the step returned. -/
theorem Safe.step {label : L} {x : Fallible σ ε α} {f : α → Prog L σ ε β}
    (h : ∀ s', D.Moves s s' → D.Inv s' → D.Admits label s' →
      (D.Inv (x s').2 ∧ D.Moves s' (x s').2) ∧
        ∀ a, (x s').1 = .ok a → (f a).Safe D (x s').2) :
    (atomic label x >>= f).Safe D s := by
  refine Meets.bind (Meets.atomic fun s' hmoves hinv hadmits => ?_)
  rcases h s' hmoves hinv hadmits with ⟨hkeeps, hnext⟩
  refine ⟨hkeeps, ?_⟩
  rcases hresult : (x s').1 with e | a
  · trivial
  · exact hnext a hresult

/-- A step after which the program returns whatever the step returned. -/
theorem Safe.last {label : L} {x : Fallible σ ε α} {f : α → Prog L σ ε β}
    (hf : ∀ a t, (f a).Safe D t)
    (h : ∀ s', D.Moves s s' → D.Inv s' → D.Admits label s' →
      D.Inv (x s').2 ∧ D.Moves s' (x s').2) : (Prog.atomic label x >>= f).Safe D s :=
  Safe.step fun s' hmoves hinv hadmits => ⟨h s' hmoves hinv hadmits, fun a _ => hf a _⟩

/-- A step that only reads, and then a program that is safe from where it returned. -/
theorem Safe.read {label : L} {x : Fallible σ ε α} {f : α → Prog L σ ε β}
    (hx : Fallible.ReadsOnly x)
    (h : ∀ s' a, D.Moves s s' → D.Inv s' → x s' = (.ok a, s') → (f a).Safe D s') :
    (atomic label x >>= f).Safe D s := by
  refine Safe.step fun s' hmoves hinv _ => ?_
  rw [hx s']
  exact ⟨⟨hinv, D.refl s'⟩, fun a ha => h s' a hmoves hinv (Prod.ext ha (hx s'))⟩

/-- A program that only reads, and then one that is safe wherever the others have moved the
state. -/
theorem Safe.after {p : Prog L σ ε α} {f : α → Prog L σ ε β} (hp : p.ReadsOnly)
    (h : ∀ t a, D.Moves s t → (f a).Safe D t) : (p >>= f).Safe D s := by
  refine Meets.bind ((Meets.of_readsOnly hp).mono fun r t ht => ?_)
  cases r with
  | ok a => exact h t a ht
  | error e => trivial

theorem Safe.throwIf {c : Bool} {e : ε} {f : Unit → Prog L σ ε β}
    (h : c = false → (f ()).Safe D s) : (Prog.throwIf c e >>= f).Safe D s := by
  cases c with
  | true => trivial
  | false => exact h rfl

/-- A safe program, and then one that is safe wherever the first may have moved the state. -/
theorem Safe.andThen {p : Prog L σ ε α} {f : α → Prog L σ ε β} (hp : p.Safe D s)
    (hf : ∀ a t, D.Moves s t → (f a).Safe D t) : (p >>= f).Safe D s := by
  refine Meets.bind (hp.moved.mono fun r t ht => ?_)
  cases r with
  | ok a => exact hf a t ht.2
  | error e => trivial

theorem Safe.orElse {p : Prog L σ ε α} {handler : ε → Prog L σ ε α} (hp : p.Safe D s)
    (hhandler : ∀ e t, D.Moves s t → (handler e).Safe D t) : (p.orElse handler).Safe D s := by
  induction p generalizing s with
  | done result =>
      cases result with
      | ok a => trivial
      | error e => exact hhandler e s (D.refl s)
  | step label state next ih =>
      intro s' hmoves hinv hadmits
      rcases hp s' hmoves hinv hadmits with ⟨hkeeps, hnext⟩
      refine ⟨hkeeps, ih s' hnext fun e t ht => hhandler e t ?_⟩
      exact D.trans _ _ _ (D.trans _ _ _ hmoves hkeeps.2) ht

/-- Programs that are safe, side by side. -/
theorem Safe.gather {tasks : List (Prog L σ ε Unit)} (schedule : List ℕ)
    (h : ∀ task ∈ tasks, task.Safe D s) : (Prog.gather schedule tasks).Safe D s := by
  induction schedule generalizing tasks s with
  | nil =>
      unfold Prog.gather
      induction tasks generalizing s with
      | nil => trivial
      | cons task rest ih =>
          refine Safe.andThen (h task List.mem_cons_self) fun _ t ht => ih fun other hother => ?_
          exact (h other (List.mem_cons_of_mem _ hother)).rely ht
  | cons i schedule ih =>
      unfold Prog.gather
      split <;> rename_i hnext
      · intro s' hmoves hinv hadmits
        have hmem := List.mem_of_getElem? hnext
        rcases h _ hmem s' hmoves hinv hadmits with ⟨hkeeps, hrest⟩
        refine ⟨hkeeps, ih fun other hother => ?_⟩
        rcases List.mem_or_eq_of_mem_set hother with hold | rfl
        · exact (h other hold).rely (D.trans _ _ _ hmoves hkeeps.2)
        · exact hrest
      · exact ih h

/-! ## Interleavings -/

variable {ι : Type}

/-- The programs as calls: the schedule says which one makes its next step. -/
def threads (ι L σ ε α : Type) : CallSystem ι Unit σ (Prog L σ ε α) where
  next _ _ s p :=
    match p with
    | done result => (s, done result)
    | step _ state next => (state s, next s)

/-- The next step of the scheduled program is admitted. -/
def Admitted (D : Discipline L σ) (c : Config ι σ (Prog L σ ε α)) (l : ι × Unit) : Prop :=
  match c.phase l.1 with
  | done _ => True
  | step label _ _ => D.Admits label c.shared

instance decidableAdmitted [∀ l s, Decidable (D.Admits l s)]
    (c : Config ι σ (Prog L σ ε α)) (l : ι × Unit) : Decidable (Admitted D c l) :=
  match h : c.phase l.1 with
  | done _ => isTrue (by unfold Admitted; rw [h]; trivial)
  | step label _ _ => decidable_of_iff (D.Admits label c.shared) (by unfold Admitted; rw [h])

variable [DecidableEq ι]

/-- Programs that keep to a discipline keep its invariant in every interleaving whose steps are
all admitted, and return what is said of them. -/
theorem threads_results {programs : ι → Prog L σ ε α} {returns : ι → Except ε α → Prop}
    (hinv : D.Inv s) (hmeets : ∀ i, (programs i).Meets D s fun r _ => returns i r)
    {schedule : List (ι × Unit)}
    (hall : (threads ι L σ ε α).EachStep (Admitted D) ⟨s, programs⟩ schedule) :
    let c := (threads ι L σ ε α).run ⟨s, programs⟩ schedule
    D.Inv c.shared ∧ ∀ i r, c.phase i = done r → returns i r := by
  have hrun := (threads ι L σ ε α).run_induction
    (I := fun c => D.Inv c.shared ∧
      ∀ i, (c.phase i).Meets D c.shared fun r _ => returns i r) (fun c l hc hl => ?_)
    ⟨hinv, hmeets⟩ hall
  · refine ⟨hrun.1, fun i r hr => ?_⟩
    have hend := hrun.2 i
    rw [hr] at hend
    exact hend
  rcases hc with ⟨hinv, hmeets⟩
  unfold Admitted at hl
  cases hphase : c.phase l.1 with
  | done result =>
      have hshared : ((threads ι L σ ε α).step c l).shared = c.shared := by
        simp [threads, hphase]
      rw [hshared]
      refine ⟨hinv, fun i => ?_⟩
      by_cases hi : i = l.1
      · subst hi
        rw [CallSystem.step_phase_self, hphase]
        have hend := hmeets l.1
        rw [hphase] at hend
        exact hend
      · rw [CallSystem.step_phase_of_ne _ _ _ hi]
        exact hmeets i
  | step label state next =>
      rw [hphase] at hl
      have hown := hmeets l.1
      rw [hphase] at hown
      rcases hown c.shared (D.refl _) hinv hl with ⟨⟨hinv', hmoves⟩, hnext⟩
      have hshared : ((threads ι L σ ε α).step c l).shared = state c.shared := by
        simp [threads, hphase]
      rw [hshared]
      refine ⟨hinv', fun i => ?_⟩
      by_cases hi : i = l.1
      · subst hi
        rw [CallSystem.step_phase_self, hphase]
        exact hnext
      · rw [CallSystem.step_phase_of_ne _ _ _ hi]
        exact (hmeets i).rely hmoves

/-- Programs that keep to a discipline keep its invariant in every interleaving whose steps are
all admitted. -/
theorem threads_inv {programs : ι → Prog L σ ε α} (hinv : D.Inv s)
    (hsafe : ∀ i, (programs i).Safe D s) {schedule : List (ι × Unit)}
    (hall : (threads ι L σ ε α).EachStep (Admitted D) ⟨s, programs⟩ schedule) :
    D.Inv ((threads ι L σ ε α).run ⟨s, programs⟩ schedule).shared :=
  (threads_results hinv hsafe hall).1

end Prog

end Foundation
end Eleva
