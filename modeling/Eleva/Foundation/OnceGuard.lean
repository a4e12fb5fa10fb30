import Eleva.Foundation.Interleaving

/-!
# Foundation - Work that a marker admits once

Calls that share a key first look whether the marker of the key is set, do their work
when it is not, and set the marker afterwards.  The look and the setting are different
steps, so the marker alone does not keep two calls apart.

Main results:

- Theorem {lit}`OnceGuard.inv_step`: what one safe step preserves, with which at most one call
  with a key gets past the look.
-/

namespace Eleva
namespace Foundation

/-- How a call stands to its marker: it has not looked yet, it found the marker unset, it
has set the marker, or it has ended without work that counts. -/
inductive Stage where
  | before
  | inside
  | marked
  | left
deriving DecidableEq, Repr

/-- A call that got past the look and has not withdrawn. -/
def Stage.active (stage : Stage) : Prop :=
  stage = .inside ∨ stage = .marked

/-- How the calls of a system use markers: the key of a call, the stage of a phase, whether
a marker is stored, and whether a look in this step sees it. -/
structure OnceGuard {ι A S P : Type} (sys : CallSystem ι A S P) (κ : Type) where
  key : ι → Option κ
  stage : P → Stage
  stored : S → κ → Prop
  seen : Config ι S P → ι × A → κ → Prop

namespace OnceGuard

variable {ι A S P κ : Type} [DecidableEq ι] {sys : CallSystem ι A S P}

/-- The step is a look that finds the marker unset. -/
def Enters (g : OnceGuard sys κ) (c : Config ι S P) (l : ι × A) : Prop :=
  g.stage (c.phase l.1) = .before ∧ g.stage ((sys.step c l).phase l.1) = .inside

/-- Under an invariant of the system, the calls look before they work and set the marker
after it. -/
structure Lawful (g : OnceGuard sys κ) (I : Config ι S P → Prop) : Prop where
  keeps : ∀ c l, I c → I (sys.step c l)
  unseen : ∀ c l k, I c → g.Enters c l → g.key l.1 = some k → ¬g.seen c l k
  inside : ∀ c l k, I c → g.key l.1 = some k →
    g.stage ((sys.step c l).phase l.1) = .inside →
      g.stage (c.phase l.1) = .before ∨ g.stage (c.phase l.1) = .inside
  marked : ∀ c l k, I c → g.key l.1 = some k →
    g.stage ((sys.step c l).phase l.1) = .marked →
      g.stage (c.phase l.1) = .marked ∨
        g.stage (c.phase l.1) = .inside ∧ g.stored (sys.step c l).shared k

/-- A step that keeps the calls of a key apart: nobody is inside when a call enters, a
marker that was set stays stored, and a look sees it. -/
structure Safe (g : OnceGuard sys κ) (c : Config ι S P) (l : ι × A) : Prop where
  alone : g.Enters c l → ∀ j k, g.key l.1 = some k → g.key j = some k → j ≠ l.1 →
    g.stage (c.phase j) ≠ .inside
  kept : ∀ j k, g.key j = some k → g.stage (c.phase j) = .marked → g.stored c.shared k →
    g.stored (sys.step c l).shared k
  fresh : g.Enters c l → ∀ j k, g.key l.1 = some k → g.key j = some k →
    g.stage (c.phase j) = .marked → g.stored c.shared k → g.seen c l k

/-- At most one call of a key is active, and the marker of a call that has set it is
stored. -/
structure Inv (g : OnceGuard sys κ) (c : Config ι S P) : Prop where
  unique : ∀ i j k, g.key i = some k → g.key j = some k → (g.stage (c.phase i)).active →
    (g.stage (c.phase j)).active → i = j
  stored : ∀ j k, g.key j = some k → g.stage (c.phase j) = .marked → g.stored c.shared k

variable {g : OnceGuard sys κ} {I : Config ι S P → Prop}

/-- No other call of the key is active when a call enters. -/
theorem not_active_of_enters (hlawful : g.Lawful I) {c : Config ι S P} {l : ι × A}
    (hI : I c) (hinv : g.Inv c) (hsafe : g.Safe c l) (henters : g.Enters c l) {j : ι} {k : κ}
    (hl : g.key l.1 = some k) (hj : g.key j = some k) (hne : j ≠ l.1) :
    ¬(g.stage (c.phase j)).active := by
  rintro (hinside | hmarked)
  · exact hsafe.alone henters j k hl hj hne hinside
  · have hstored := hinv.stored j k hj hmarked
    exact hlawful.unseen c l k hI henters hl (hsafe.fresh henters j k hl hj hmarked hstored)

/-- A call that is active after a step was active before it or has just entered. -/
theorem active_of_step (hlawful : g.Lawful I) {c : Config ι S P} {l : ι × A} {k : κ}
    (hI : I c) (hl : g.key l.1 = some k)
    (hactive : (g.stage ((sys.step c l).phase l.1)).active) :
    (g.stage (c.phase l.1)).active ∨ g.Enters c l := by
  rcases hactive with hinside | hmarked
  · rcases hlawful.inside c l k hI hl hinside with hbefore | hstill
    · exact Or.inr ⟨hbefore, hinside⟩
    · exact Or.inl (Or.inl hstill)
  · rcases hlawful.marked c l k hI hl hmarked with hstill | ⟨hwas, _⟩
    · exact Or.inl (Or.inr hstill)
    · exact Or.inl (Or.inl hwas)

/-- What a safe step preserves. -/
theorem inv_step (hlawful : g.Lawful I) {c : Config ι S P} {l : ι × A} (hI : I c)
    (hinv : g.Inv c) (hsafe : g.Safe c l) : g.Inv (sys.step c l) := by
  have hother : ∀ j, j ≠ l.1 → (sys.step c l).phase j = c.phase j :=
    fun j hj => CallSystem.step_phase_of_ne sys c l hj
  -- The moving call cannot become active beside another one.
  have hmoving : ∀ j k, g.key l.1 = some k → g.key j = some k →
      (g.stage ((sys.step c l).phase l.1)).active → (g.stage (c.phase j)).active →
        l.1 = j := by
    intro j k hl hj hactive hactive'
    by_cases hne : j = l.1
    · exact hne.symm
    · rcases active_of_step hlawful hI hl hactive with hwas | henters
      · exact hinv.unique l.1 j k hl hj hwas hactive'
      · exact absurd hactive' (not_active_of_enters hlawful hI hinv hsafe henters hl hj hne)
  constructor
  · intro i j k hi hj hai haj
    by_cases hil : i = l.1
    · subst hil
      by_cases hjl : j = l.1
      · exact hjl.symm
      · rw [hother j hjl] at haj
        exact hmoving j k hi hj hai haj
    · rw [hother i hil] at hai
      by_cases hjl : j = l.1
      · subst hjl
        exact (hmoving i k hj hi haj hai).symm
      · rw [hother j hjl] at haj
        exact hinv.unique i j k hi hj hai haj
  · intro j k hj hmarked
    by_cases hjl : j = l.1
    · subst hjl
      rcases hlawful.marked c l k hI hj hmarked with hstill | ⟨_, hset⟩
      · exact hsafe.kept l.1 k hj hstill (hinv.stored l.1 k hj hstill)
      · exact hset
    · rw [hother j hjl] at hmarked
      exact hsafe.kept j k hj hmarked (hinv.stored j k hj hmarked)

omit [DecidableEq ι] in
/-- Before any call has looked, nothing is to be kept. -/
theorem inv_start {c : Config ι S P} (hstart : ∀ i, g.stage (c.phase i) = .before) :
    g.Inv c := by
  have hidle : ∀ i, ¬(g.stage (c.phase i)).active := by
    intro i hactive
    rcases hactive with h | h <;> rw [hstart i] at h <;> cases h
  constructor
  · intro i j k _ _ hai _
    exact absurd hai (hidle i)
  · intro j k _ hmarked
    exact absurd (Or.inr hmarked) (hidle j)

end OnceGuard

end Foundation
end Eleva
