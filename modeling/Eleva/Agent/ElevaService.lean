import Mathlib.Data.List.Basic
import Mathlib.Logic.Function.Basic
import Eleva.Database.Client

/-!
# Agent - Approvals

{lit}`ElevaService` keeps the approvals of actions in a map: an approval is recorded,
revoked and marked as executed, each time with a new snapshot of its record.

What an approval is for is said over the history of an agent: what was approved, revoked,
marked as executed and executed, in order.  An action stands approved when it was approved
and not revoked since.

Main results:

- Theorem {lit}`standing_append`: what one event does to the standing of an action.
- Theorems {lit}`Consistent.recordApproval`, {lit}`Consistent.revokeApproval` and
  {lit}`Consistent.markExecuted`: the map agrees with the history after each call: it holds an
  action as approved exactly when the action stands approved.
-/

namespace Eleva
namespace Agent

open Database

/-! ## What happens -/

/-- What happens around an agent. -/
inductive AgentEvent where
  | recorded (actionId : String)
  | revoked (actionId : String)
  | markedExecuted (actionId : String)
  /-- A tool is executed for a request that may name an approval. -/
  | executed (tool : String) (requiresApproval : Bool) (approvalActionId : Option String)
deriving DecidableEq, Repr

/-- Whether an event uses the approval of an action up. -/
def AgentEvent.uses (actionId : String) : AgentEvent → Bool
  | .markedExecuted id => id == actionId
  | .executed _ _ id => id == some actionId
  | _ => false

/-- An action that was approved and not revoked since. -/
def Standing (history : List AgentEvent) (actionId : String) : Prop :=
  ∃ before after, history = before ++ .recorded actionId :: after ∧ .revoked actionId ∉ after

/-- An action whose approval was used. -/
def Used (history : List AgentEvent) (actionId : String) : Prop :=
  ∃ event ∈ history, event.uses actionId

/-- After one more event an action stands approved if the event is its approval, or if it did
so before and the event does not revoke it. -/
theorem standing_append {history : List AgentEvent} {event : AgentEvent} {actionId : String} :
    Standing (history ++ [event]) actionId ↔
      event = .recorded actionId ∨ Standing history actionId ∧ event ≠ .revoked actionId := by
  constructor
  · rintro ⟨before, after, hhistory, hrevoked⟩
    rcases List.eq_nil_or_concat after with rfl | ⟨rest, last, rfl⟩
    · exact Or.inl (List.append_inj_right' hhistory rfl |> List.singleton_inj.mp)
    · rw [List.concat_eq_append, ← List.cons_append, ← List.append_assoc] at hhistory
      have hlast : event = last := List.singleton_inj.mp (List.append_inj_right' hhistory rfl)
      rw [List.concat_eq_append, List.mem_append, List.mem_singleton, not_or] at hrevoked
      refine Or.inr ⟨⟨before, rest, List.append_inj_left' hhistory rfl, hrevoked.1⟩, ?_⟩
      rw [hlast]
      exact Ne.symm hrevoked.2
  · rintro (rfl | ⟨⟨before, after, rfl, hrevoked⟩, hevent⟩)
    · exact ⟨history, [], rfl, List.not_mem_nil⟩
    · refine ⟨before, after ++ [event], by simp, ?_⟩
      rw [List.mem_append, List.mem_singleton, not_or]
      exact ⟨hrevoked, Ne.symm hevent⟩

/-! ## The map of approvals -/

/-- The record of an approval. -/
structure ApprovalRecord where
  approved : Bool
  revokedAt : Option Timestamp := none
  capability : Option String := none
  requestedAt : Option Timestamp := none
  approvedAt : Option Timestamp := none
  executedAt : Option Timestamp := none
deriving DecidableEq, Repr

/-- {lit}`this.approvals`. -/
abbrev Approvals := String → Option ApprovalRecord

/-- {lit}`recordApproval`. -/
def recordApproval (now : Timestamp) (actionId capability : String) (approvals : Approvals) :
    Bool × Approvals :=
  (true, Function.update approvals actionId (some {
    approved := true
    capability := some capability
    requestedAt := some now
    approvedAt := some now }))

/-- {lit}`revokeApproval`. -/
def revokeApproval (now : Timestamp) (actionId : String) (approvals : Approvals) :
    Bool × Approvals :=
  match approvals actionId with
  | none => (false, approvals)
  | some existing =>
      (true, Function.update approvals actionId
        (some { existing with approved := false, revokedAt := some now }))

/-- {lit}`markExecuted`. -/
def markExecuted (now : Timestamp) (actionId : String) (approvals : Approvals) :
    Bool × Approvals :=
  match approvals actionId with
  | none => (false, approvals)
  | some existing =>
      (true, Function.update approvals actionId (some { existing with executedAt := some now }))

/-- {lit}`isApproved`. -/
def isApproved (approvals : Approvals) (actionId : String) : Bool :=
  (approvals actionId).any fun approval => approval.approved && approval.revokedAt.isNone

/-- {lit}`AgentApprovalResponse`, with the times before they are written as texts. -/
structure AgentApprovalResponse where
  actionId : String
  approved : Bool
  capability : Option String := none
  approvedAt : Option Timestamp := none
  revokedAt : Option Timestamp := none
  executedAt : Option Timestamp := none
deriving DecidableEq, Repr

/-- {lit}`getApproval`. -/
def getApproval (approvals : Approvals) (actionId : String) : AgentApprovalResponse :=
  match approvals actionId with
  | none => { actionId := actionId, approved := false }
  | some record =>
      { actionId := actionId
        approved := record.approved
        capability := record.capability
        approvedAt := record.approvedAt
        revokedAt := record.revokedAt
        executedAt := record.executedAt }

/-! ## The map and the history -/

/-- The map of approvals agrees with the history: no record is both approved and revoked, and
the approved actions are those that stand approved. -/
structure Consistent (approvals : Approvals) (history : List AgentEvent) : Prop where
  notRevoked : ∀ actionId record, approvals actionId = some record → record.approved = true →
    record.revokedAt = none
  standing : ∀ actionId, isApproved approvals actionId = true ↔ Standing history actionId

namespace Consistent

variable {approvals : Approvals} {history : List AgentEvent} {now : Timestamp}
  {actionId : String}

/-- Without records nothing was approved. -/
theorem empty : Consistent (fun _ => none) [] where
  notRevoked := fun _ _ h => by cases h
  standing actionId := by
    refine ⟨fun h => (Bool.false_ne_true h).elim, ?_⟩
    rintro ⟨before, after, hnil, _⟩
    simp at hnil

/-- The response of an approval says what {lit}`isApproved` does. -/
theorem getApproval_approved (h : Consistent approvals history) (actionId : String) :
    (getApproval approvals actionId).approved = isApproved approvals actionId := by
  unfold getApproval isApproved
  cases hrecord : approvals actionId with
  | none => rfl
  | some record =>
      cases happroved : record.approved with
      | false => simp [happroved]
      | true => simp [happroved, h.notRevoked actionId record hrecord happroved]

/-- An event that is neither an approval nor a revocation, with an update that keeps what the
record says about both, keeps the agreement. -/
theorem of_unrelated {approvals' : Approvals} {event : AgentEvent}
    (h : Consistent approvals history)
    (hsame : ∀ id, (approvals' id).map (fun r => (r.approved, r.revokedAt)) =
      (approvals id).map (fun r => (r.approved, r.revokedAt)))
    (hrecorded : ∀ id, event ≠ .recorded id) (hrevoked : ∀ id, event ≠ .revoked id) :
    Consistent approvals' (history ++ [event]) := by
  have happroved : ∀ id, isApproved approvals' id = isApproved approvals id := by
    intro id
    have hid := hsame id
    unfold isApproved
    cases hold : approvals id <;> cases hnew : approvals' id <;> simp_all
  constructor
  · intro id record hrecord hap
    have hid := hsame id
    rw [hrecord] at hid
    cases hold : approvals id with
    | none => simp [hold] at hid
    | some old =>
        rw [hold] at hid
        simp only [Option.map_some, Option.some.injEq, Prod.mk.injEq] at hid
        rw [hid.2]
        exact h.notRevoked id old hold (hid.1 ▸ hap)
  · intro id
    rw [happroved id, h.standing id, standing_append]
    simp [hrecorded id, hrevoked id]

/-- Recording an approval. -/
theorem recordApproval (h : Consistent approvals history) (capability : String) :
    Consistent (Agent.recordApproval now actionId capability approvals).2
      (history ++ [.recorded actionId]) := by
  constructor
  · intro id record hrecord happroved
    by_cases hid : id = actionId
    · subst hid
      simp only [Agent.recordApproval, Function.update_self, Option.some.injEq] at hrecord
      rw [← hrecord]
    · simp only [Agent.recordApproval, Function.update_of_ne hid] at hrecord
      exact h.notRevoked id record hrecord happroved
  · intro id
    rw [standing_append]
    by_cases hid : id = actionId
    · subst hid
      simp [isApproved, Agent.recordApproval]
    · have hsame : isApproved (Agent.recordApproval now actionId capability approvals).2 id =
          isApproved approvals id := by
        simp [isApproved, Agent.recordApproval, Function.update_of_ne hid]
      rw [hsame, h.standing id]
      simp [Ne.symm hid]

/-- Revoking an approval, or one that is not there. -/
theorem revokeApproval (h : Consistent approvals history) :
    Consistent (Agent.revokeApproval now actionId approvals).2
      (history ++ [.revoked actionId]) := by
  unfold Agent.revokeApproval
  cases hrecord : approvals actionId with
  | none =>
      constructor
      · exact h.notRevoked
      · intro id
        rw [standing_append, h.standing id]
        by_cases hid : id = actionId
        · subst hid
          have hnot : ¬ Standing history id := by
            rw [← h.standing id]
            simp [isApproved, hrecord]
          simp [hnot]
        · simp [Ne.symm hid]
  | some existing =>
      constructor
      · intro id record hnew happroved
        by_cases hid : id = actionId
        · subst hid
          simp only [Function.update_self, Option.some.injEq] at hnew
          rw [← hnew] at happroved
          cases happroved
        · simp only [Function.update_of_ne hid] at hnew
          exact h.notRevoked id record hnew happroved
      · intro id
        rw [standing_append]
        by_cases hid : id = actionId
        · subst hid
          simp [isApproved]
        · have hsame : isApproved (Function.update approvals actionId
              (some { existing with approved := false, revokedAt := some now })) id =
              isApproved approvals id := by
            simp [isApproved, Function.update_of_ne hid]
          rw [hsame, h.standing id]
          simp [Ne.symm hid]

/-- Marking an approval as executed. -/
theorem markExecuted (h : Consistent approvals history) :
    Consistent (Agent.markExecuted now actionId approvals).2
      (history ++ [.markedExecuted actionId]) := by
  refine h.of_unrelated (fun id => ?_) (fun _ => by simp) fun _ => by simp
  unfold Agent.markExecuted
  cases hrecord : approvals actionId with
  | none => rfl
  | some existing =>
      by_cases hid : id = actionId
      · subst hid
        simp [hrecord]
      · simp [Function.update_of_ne hid]

end Consistent

end Agent
end Eleva
