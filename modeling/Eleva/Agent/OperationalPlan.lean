import Eleva.Agent.ElevaService
import Eleva.Foundation.Fallible
import Eleva.Foundation.Machine
import Eleva.Foundation.Text

/-!
# Agent - Operational plans

A plan whose tasks sound dangerous needs an approval: {lit}`buildOperationalPlan` records one
under a generated action id, {lit}`approveM6Plan` marks the plan as approved, and
{lit}`executeM6Plan` executes an approved plan whose approval stands, lets a verifier look at it
and keeps the verdict in its status.

A run is any sequence of these calls and of revocations, with any ids and verifiers.

Main results:

- Theorem {lit}`executeM6Plan_history`: what an execution adds to the history.
- Theorem {lit}`plans_run_once`: in every state of a run that approves no executed plan again,
  every plan was executed at most once and only after its approval, with no revocation of its
  action in between.
- Theorem {lit}`verified_plan_runs_again`: a plan that was executed and verified is approved and
  executed again.
-/

namespace Eleva
namespace Agent

open Foundation Database

/-! ## Plans -/

inductive PlanStatus where
  | pending | approved | denied | executed | verified | failed
deriving DecidableEq, Repr

structure PlanTask where
  name : String
  description : String
  dependencies : List String := []
deriving DecidableEq, Repr

/-- What a plan is built from. -/
structure PlanInput where
  insightId : Option String := none
  recommendationId : Option String := none
  situationId : Option String := none
  objective : String
  affectedComponents : List String := []
  tasks : List PlanTask
  dependencies : List String := []
  verificationRequirements : List String := []
  abortOrRollbackCriteria : List String := []
deriving DecidableEq, Repr

/-- {lit}`OperationalPlan`. -/
structure OperationalPlan extends PlanInput where
  planId : String
  m6ApprovalRequired : Bool
  m6ActionId : Option String
  approvalStatus : PlanStatus
  createdAt : Timestamp
deriving DecidableEq, Repr

/-- What happens to plans. -/
inductive PlanEvent where
  | approved (planId : String)
  | revoked (actionId : String)
  | executed (planId actionId : String)
deriving DecidableEq, Repr

/-- The plans and the approvals.  The history is what happened so far; nothing reads it. -/
structure PlanWorld where
  plans : String → Option OperationalPlan := fun _ => none
  approvals : Approvals := fun _ => none
  history : List PlanEvent := []

/-- A method of the business intelligence service; errors by their message. -/
abbrev Planning (α : Type) := Fallible PlanWorld String α

/-- The ids that a new plan gets, the time, and lower case. -/
structure PlanEnv where
  planId : String
  actionId : String
  now : Timestamp
  toLowerCase : String → String

def sensitiveKeywords : List String :=
  ["deploy", "database", "migration", "payment", "billing", "security", "production"]

/-- {lit}`requiresM6Approval`. -/
def requiresM6Approval (toLowerCase : String → String) (tasks : List PlanTask) : Bool :=
  tasks.any fun task => sensitiveKeywords.any fun keyword =>
    includes (toLowerCase (task.name ++ " " ++ task.description)) keyword

/-- The plan that {lit}`buildOperationalPlan` builds. -/
def builtPlan (env : PlanEnv) (input : PlanInput) : OperationalPlan :=
  let m6ApprovalRequired := requiresM6Approval env.toLowerCase input.tasks
  { input with
    planId := env.planId
    m6ApprovalRequired := m6ApprovalRequired
    m6ActionId := if m6ApprovalRequired then some env.actionId else none
    approvalStatus := if m6ApprovalRequired then .pending else .approved
    createdAt := env.now }

/-- {lit}`this.plans.set(plan.planId, plan)`. -/
def setPlan (planId : String) (plan : OperationalPlan) : Planning Unit :=
  Fallible.modify fun w => { w with plans := Function.update w.plans planId (some plan) }

/-- {lit}`buildOperationalPlan`. -/
def buildOperationalPlan (env : PlanEnv) (input : PlanInput) : Planning OperationalPlan := do
  let plan := builtPlan env input
  setPlan env.planId plan
  Fallible.modify fun w =>
    if plan.m6ApprovalRequired then
      { w with approvals :=
          (recordApproval env.now env.actionId "PROJECT_MANAGEMENT" w.approvals).2 }
    else w
  pure plan

/-- {lit}`requirePlan`. -/
def requirePlan (planId : String) : Planning OperationalPlan :=
  Fallible.reads fun w =>
    match w.plans planId with
    | some plan => .ok plan
    | none => .error ("Operational plan [" ++ planId ++ "] was not found.")

/-- The plan of an action: the checks that an approval and an execution begin with. -/
def planOfAction (planId actionId : String) : Planning OperationalPlan := do
  let plan ← requirePlan planId
  Fallible.throwIf (!plan.m6ApprovalRequired)
    ("Plan [" ++ planId ++ "] does not require M6 approval.")
  Fallible.throwIf (plan.m6ActionId != some actionId)
    ("Action ID [" ++ actionId ++ "] does not match plan [" ++ planId ++ "].")
  pure plan

/-- {lit}`approveM6Plan`. -/
def approveM6Plan (planId actionId : String) : Planning OperationalPlan := do
  let plan ← planOfAction planId actionId
  let plan := { plan with approvalStatus := .approved }
  setPlan planId plan
  Fallible.modify fun w => { w with history := w.history ++ [.approved planId] }
  pure plan

/-- {lit}`assertApproved`. -/
def assertApproved (actionId : String) : Planning Unit := do
  let approved ← Fallible.reads fun w => .ok (isApproved w.approvals actionId)
  Fallible.throwIf (!approved) ("Action [" ++ actionId ++
    "] is not approved. Execute through the M2 approval pipeline before continuing.")

/-- {lit}`assertActionVerified`. -/
def assertActionVerified (verified : Bool) (actionId : String) : Planning Unit :=
  Fallible.throwIf (!verified) ("Action [" ++ actionId ++
    "] verification failed. Unverified results must not be treated as verified.")

/-- How a verifier looks at a plan. -/
abbrev Verifier := OperationalPlan → Except String Bool

/-- Whether there is a verifier and it accepts the plan. -/
def accepts (verifier : Option Verifier) (plan : OperationalPlan) : Bool :=
  match verifier with
  | none => false
  | some verify => (verify plan).toOption.getD false

/-- The verification of an executed plan. -/
def verifyPlan (now : Timestamp) (planId actionId : String) (plan : OperationalPlan)
    (verified : Bool) : Planning (OperationalPlan × Bool) :=
  if !verified then do
    let plan := { plan with approvalStatus := .failed }
    setPlan planId plan
    assertActionVerified false actionId
    pure (plan, false)
  else do
    let plan := { plan with approvalStatus := .verified }
    setPlan planId plan
    Fallible.modify fun w =>
      { w with approvals := (markExecuted now actionId w.approvals).2 }
    assertActionVerified true actionId
    pure (plan, true)

/-- {lit}`executeM6Plan`: the plan, and whether it is executed. -/
def executeM6Plan (now : Timestamp) (planId actionId : String) (verifier : Option Verifier) :
    Planning (OperationalPlan × Bool) := do
  let plan ← planOfAction planId actionId
  Fallible.throwIf (plan.approvalStatus != .approved)
    ("Plan [" ++ planId ++ "] is not approved for M6 execution.")
  assertApproved actionId
  let plan := { plan with approvalStatus := .executed }
  setPlan planId plan
  Fallible.modify fun w => { w with history := w.history ++ [.executed planId actionId] }
  verifyPlan now planId actionId plan (accepts verifier plan)

/-- {lit}`revokeApproval`.  An approval that is not there is not revoked. -/
def revokePlanApproval (now : Timestamp) (actionId : String) : Planning Bool := fun w =>
  let run := revokeApproval now actionId w.approvals
  (.ok run.1, { w with
    approvals := run.2
    history := w.history ++ if run.1 then [.revoked actionId] else [] })

/-! ## Runs -/

/-- The calls of a run. -/
inductive PlanCall where
  | build (env : PlanEnv) (input : PlanInput)
  | approve (planId actionId : String)
  | revoke (now : Timestamp) (actionId : String)
  | execute (now : Timestamp) (planId actionId : String) (verifier : Option Verifier)

/-- Whether a call returned. -/
def returns {α : Type} (run : Except String α × PlanWorld) : Except String Unit × PlanWorld :=
  (run.1.map fun _ => (), run.2)

/-- The plans and the approvals under calls, one at a time. -/
def planMachine : Machine PlanCall PlanWorld (Except String Unit) where
  step call w :=
    match call with
    | .build env input => returns (buildOperationalPlan env input w)
    | .approve planId actionId => returns (approveM6Plan planId actionId w)
    | .revoke now actionId => returns (revokePlanApproval now actionId w)
    | .execute now planId actionId verifier =>
        returns (executeM6Plan now planId actionId verifier w)

/-! ## The steps -/

/-- The plan that an action belongs to. -/
def Belongs (w : PlanWorld) (planId actionId : String) (plan : OperationalPlan) : Prop :=
  w.plans planId = some plan ∧ plan.m6ApprovalRequired = true ∧
    plan.m6ActionId = some actionId

/-- The checks of an action find its plan, or throw and change nothing. -/
theorem planOfAction_cases (planId actionId : String) (w : PlanWorld) :
    (∃ plan, Belongs w planId actionId plan ∧ planOfAction planId actionId w = (.ok plan, w)) ∨
      (∀ plan, ¬ Belongs w planId actionId plan) ∧
        ∃ message, planOfAction planId actionId w = (.error message, w) := by
  unfold planOfAction
  cases hplan : w.plans planId with
  | none =>
      have hrequire : requirePlan planId w =
          (.error ("Operational plan [" ++ planId ++ "] was not found."), w) := by
        simp [requirePlan, hplan]
      refine Or.inr ⟨fun plan h => ?_, _, Fallible.bind_of_error hrequire⟩
      cases hplan.symm.trans h.1
  | some plan =>
      have hrequire : requirePlan planId w = (.ok plan, w) := by
        simp [requirePlan, hplan]
      rw [Fallible.bind_of_ok hrequire]
      cases hrequired : plan.m6ApprovalRequired with
      | false =>
          refine Or.inr ⟨fun other h => ?_, "Plan [" ++ planId ++
            "] does not require M6 approval.", ?_⟩
          · have hsame := Option.some.inj (hplan.symm.trans h.1)
            cases hrequired.symm.trans (hsame ▸ h.2.1)
          · simp [Fallible.bind_apply, Fallible.throwIf]
      | true =>
          by_cases haction : plan.m6ActionId = some actionId
          · refine Or.inl ⟨plan, ⟨hplan, hrequired, haction⟩, ?_⟩
            simp [Fallible.bind_apply, Fallible.throwIf, haction]
          · refine Or.inr ⟨fun other h => ?_, "Action ID [" ++ actionId ++
              "] does not match plan [" ++ planId ++ "].", ?_⟩
            · have hsame := Option.some.inj (hplan.symm.trans h.1)
              exact haction (hsame ▸ h.2.2)
            · simp [Fallible.bind_apply, Fallible.throwIf, haction]

/-- An approval of the plan's own action marks the plan; any other changes nothing. -/
theorem approveM6Plan_state (planId actionId : String) (w : PlanWorld) :
    (∃ plan, Belongs w planId actionId plan ∧ (approveM6Plan planId actionId w).2 =
      { w with
        plans := Function.update w.plans planId (some { plan with approvalStatus := .approved })
        history := w.history ++ [.approved planId] }) ∨
      (approveM6Plan planId actionId w).2 = w := by
  unfold approveM6Plan
  rcases planOfAction_cases planId actionId w with ⟨plan, hbelongs, hplan⟩ | ⟨_, message, hplan⟩
  · rw [Fallible.bind_of_ok hplan]
    exact Or.inl ⟨plan, hbelongs, rfl⟩
  · rw [Fallible.bind_of_error hplan]
    exact Or.inr rfl

/-- The approvals after an execution: as before, or with the action marked as executed. -/
def MarksAtMost (now : Timestamp) (actionId : String) (approvals approvals' : Approvals) : Prop :=
  approvals' = approvals ∨ approvals' = (markExecuted now actionId approvals).2

/-- A verification leaves the plan failed or verified. -/
theorem verifyPlan_state (now : Timestamp) (planId actionId : String) (plan : OperationalPlan)
    (verified : Bool) (w : PlanWorld) :
    ∃ status approvals, status ≠ .approved ∧ MarksAtMost now actionId w.approvals approvals ∧
      (verifyPlan now planId actionId plan verified w).2 =
        { w with
          plans := Function.update w.plans planId (some { plan with approvalStatus := status })
          approvals := approvals } := by
  cases verified with
  | false => exact ⟨.failed, w.approvals, by decide, Or.inl rfl, rfl⟩
  | true => exact ⟨.verified, _, by decide, Or.inr rfl, rfl⟩

/-- An execution goes through exactly for an approved plan whose action stands approved: it is
then added to the history, and the plan is approved no more.  Any other changes nothing. -/
theorem executeM6Plan_history (now : Timestamp) (planId actionId : String)
    (verifier : Option Verifier) (w : PlanWorld) :
    (∃ plan status approvals, Belongs w planId actionId plan ∧
      plan.approvalStatus = .approved ∧ isApproved w.approvals actionId = true ∧
      status ≠ .approved ∧ MarksAtMost now actionId w.approvals approvals ∧
      (executeM6Plan now planId actionId verifier w).2 =
        { w with
          plans := Function.update w.plans planId (some { plan with approvalStatus := status })
          approvals := approvals
          history := w.history ++ [.executed planId actionId] }) ∨
      (executeM6Plan now planId actionId verifier w).2 = w := by
  unfold executeM6Plan
  rcases planOfAction_cases planId actionId w with ⟨plan, hbelongs, hplan⟩ | ⟨_, message, hplan⟩
  · rw [Fallible.bind_of_ok hplan]
    by_cases hstatus : plan.approvalStatus = .approved
    · cases happroved : isApproved w.approvals actionId with
      | false =>
          refine Or.inr ?_
          simp [Fallible.bind_apply, Fallible.throwIf, hstatus, assertApproved, happroved]
      | true =>
          refine Or.inl ?_
          let executed : OperationalPlan := { plan with approvalStatus := .executed }
          rcases verifyPlan_state now planId actionId executed (accepts verifier executed)
            { w with
              plans := Function.update w.plans planId (some executed)
              history := w.history ++ [.executed planId actionId] } with
            ⟨status, approvals, hne, hmarks, hverify⟩
          refine ⟨plan, status, approvals, hbelongs, hstatus, rfl, hne, hmarks, ?_⟩
          rw [Function.update_idem] at hverify
          simp only [Fallible.bind_apply, Fallible.throwIf, hstatus, assertApproved, happroved,
            Fallible.reads_apply, Bool.not_true, bne_self_eq_false, if_false, Bool.false_eq_true,
            setPlan, Fallible.modify_apply]
          exact hverify
    · refine Or.inr ?_
      simp [Fallible.bind_apply, Fallible.throwIf, hstatus]
  · rw [Fallible.bind_of_error hplan]
    exact Or.inr rfl

/-! ## What holds of every run -/

/-- A plan that was executed. -/
def ExecutedBefore (history : List PlanEvent) (planId : String) : Prop :=
  ∃ actionId, .executed planId actionId ∈ history

/-- A plan that was approved, with no revocation of the action since. -/
def ApprovedSince (history : List PlanEvent) (planId actionId : String) : Prop :=
  ∃ before after, history = before ++ .approved planId :: after ∧ .revoked actionId ∉ after

/-- Every plan was executed at most once, and only after an approval of the plan with no
revocation of its action in between. -/
def RunsOnce (history : List PlanEvent) : Prop :=
  ∀ before planId actionId after,
    history = before ++ .executed planId actionId :: after →
      ¬ ExecutedBefore before planId ∧ ApprovedSince before planId actionId

/-- No executed plan is approved again, and no new plan gets an action id that has a record. -/
def NotReapproved : PlanCall → PlanWorld → Prop
  | .approve planId actionId, w =>
      ∀ plan, Belongs w planId actionId plan → ¬ ExecutedBefore w.history planId
  | .build env _, w => w.approvals env.actionId = none
  | _, _ => True

/-- The invariant: a standing approval was never revoked, an approved plan was approved and not
executed, and every plan ran at most once. -/
structure PlanInvariant (w : PlanWorld) : Prop where
  unrevoked : ∀ actionId, isApproved w.approvals actionId = true →
    .revoked actionId ∉ w.history
  recorded : ∀ actionId, .revoked actionId ∈ w.history → w.approvals actionId ≠ none
  approved : ∀ planId actionId plan, Belongs w planId actionId plan →
    plan.approvalStatus = .approved →
      .approved planId ∈ w.history ∧ ¬ ExecutedBefore w.history planId
  once : RunsOnce w.history

theorem runsOnce_nil : RunsOnce [] := by
  intro before planId actionId after hnil
  simp at hnil

/-- One more event keeps the plans running once when it is no execution, or one of an approved
plan that was not executed, whose action was not revoked. -/
theorem RunsOnce.append {history : List PlanEvent} {event : PlanEvent} (h : RunsOnce history)
    (hevent : ∀ planId actionId, event = .executed planId actionId →
      ¬ ExecutedBefore history planId ∧ ApprovedSince history planId actionId) :
    RunsOnce (history ++ [event]) := by
  rintro before planId actionId after hhistory
  rcases List.eq_nil_or_concat after with rfl | ⟨rest, last, rfl⟩
  · have hlast := List.singleton_inj.mp (List.append_inj_right' hhistory rfl)
    have hbefore := List.append_inj_left' hhistory rfl
    rw [← hbefore]
    exact hevent planId actionId hlast
  · rw [List.concat_eq_append, ← List.cons_append, ← List.append_assoc] at hhistory
    exact h before planId actionId rest (List.append_inj_left' hhistory rfl)

namespace PlanInvariant

variable {w : PlanWorld}

/-- Approvals that stand afterwards stood before when a record is marked as executed. -/
theorem isApproved_of_marks {now : Timestamp} {actionId id : String}
    {approvals approvals' : Approvals} (hmarks : MarksAtMost now actionId approvals approvals') :
    isApproved approvals' id = isApproved approvals id ∧
      (approvals' id = none ↔ approvals id = none) := by
  rcases hmarks with rfl | rfl
  · exact ⟨rfl, Iff.rfl⟩
  · unfold markExecuted isApproved
    cases hrecord : approvals actionId with
    | none => exact ⟨rfl, Iff.rfl⟩
    | some existing =>
        by_cases hid : id = actionId
        · subst hid
          simp [hrecord]
        · simp [Function.update_of_ne hid]

/-- The approved plans after one plan was set: that plan, or another that was there. -/
theorem belongs_of_set {w' : PlanWorld} {planId id actionId : String}
    {set plan : OperationalPlan} (hplans : w'.plans = Function.update w.plans planId (some set))
    (h : Belongs w' id actionId plan) :
    id = planId ∧ plan = set ∨ id ≠ planId ∧ Belongs w id actionId plan := by
  rcases h with ⟨hfound, hrequired, haction⟩
  rw [hplans] at hfound
  by_cases hid : id = planId
  · subst hid
    rw [Function.update_self] at hfound
    exact Or.inl ⟨rfl, (Option.some.inj hfound).symm⟩
  · rw [Function.update_of_ne hid] at hfound
    exact Or.inr ⟨hid, hfound, hrequired, haction⟩

/-- A plan that is built waits for its approval, and its action was never revoked. -/
theorem build (h : PlanInvariant w) (env : PlanEnv) (input : PlanInput)
    (hfresh : w.approvals env.actionId = none) :
    PlanInvariant (buildOperationalPlan env input w).2 := by
  have hnever : .revoked env.actionId ∉ w.history := fun hrevoked =>
    h.recorded env.actionId hrevoked hfresh
  have happrovals : (buildOperationalPlan env input w).2.approvals = w.approvals ∨
      (buildOperationalPlan env input w).2.approvals =
        (recordApproval env.now env.actionId "PROJECT_MANAGEMENT" w.approvals).2 := by
    unfold buildOperationalPlan
    cases (builtPlan env input).m6ApprovalRequired with
    | false =>
        refine Or.inl ?_
        simp [Fallible.bind_apply, setPlan]
    | true =>
        refine Or.inr ?_
        simp [Fallible.bind_apply, setPlan]
  have hplans : (buildOperationalPlan env input w).2.plans =
      Function.update w.plans env.planId (some (builtPlan env input)) := by
    unfold buildOperationalPlan
    cases (builtPlan env input).m6ApprovalRequired <;>
      simp [Fallible.bind_apply, setPlan]
  have hhistory : (buildOperationalPlan env input w).2.history = w.history := by
    unfold buildOperationalPlan
    cases (builtPlan env input).m6ApprovalRequired <;>
      simp [Fallible.bind_apply, setPlan]
  constructor
  · intro id hid
    rw [hhistory]
    rcases happrovals with hsame | hrecorded
    · exact h.unrevoked id (hsame ▸ hid)
    · by_cases hown : id = env.actionId
      · exact hown ▸ hnever
      · refine h.unrevoked id ?_
        rw [hrecorded] at hid
        simpa [isApproved, recordApproval, Function.update_of_ne hown] using hid
  · intro id hrevoked
    rw [hhistory] at hrevoked
    have hold := h.recorded id hrevoked
    rcases happrovals with hsame | hrecorded
    · rw [hsame]
      exact hold
    · have hown : id ≠ env.actionId := fun hown => hnever (hown ▸ hrevoked)
      rw [hrecorded]
      simpa [recordApproval, Function.update_of_ne hown] using hold
  · intro id actionId plan hbelongs hstatus
    rw [hhistory]
    rcases belongs_of_set hplans hbelongs with ⟨_, rfl⟩ | ⟨_, hold⟩
    · -- A plan that requires an approval begins as pending.
      have hrequired : requiresM6Approval env.toLowerCase input.tasks = true := hbelongs.2.1
      simp [builtPlan, hrequired] at hstatus
    · exact h.approved id actionId plan hold hstatus
  · rw [hhistory]
    exact h.once

/-- A plan that is approved for the first time since it was built. -/
theorem approve (h : PlanInvariant w) (planId actionId : String)
    (hnot : ∀ plan, Belongs w planId actionId plan → ¬ ExecutedBefore w.history planId) :
    PlanInvariant (approveM6Plan planId actionId w).2 := by
  rcases approveM6Plan_state planId actionId w with ⟨plan, hbelongs, hstate⟩ | hstate
  · rw [hstate]
    constructor
    · intro id hid hrevoked
      have hold := h.unrevoked id hid
      simp only [List.mem_append, List.mem_singleton, reduceCtorEq, or_false] at hrevoked
      exact hold hrevoked
    · intro id hrevoked
      simp only [List.mem_append, List.mem_singleton, reduceCtorEq, or_false] at hrevoked
      exact h.recorded id hrevoked
    · intro id id' other hother hstatus
      have hexecuted : ∀ q, ExecutedBefore (w.history ++ [.approved planId]) q ↔
          ExecutedBefore w.history q := by
        simp [ExecutedBefore]
      rw [hexecuted]
      rcases belongs_of_set rfl hother with ⟨rfl, _⟩ | ⟨_, hold⟩
      · exact ⟨by simp, hnot plan hbelongs⟩
      · rcases h.approved id id' other hold hstatus with ⟨happroved, hnever⟩
        exact ⟨List.mem_append_left _ happroved, hnever⟩
    · exact h.once.append fun _ _ hevent => by cases hevent
  · rw [hstate]
    exact h

/-- A revocation. -/
theorem revoke (h : PlanInvariant w) (now : Timestamp) (actionId : String) :
    PlanInvariant (revokePlanApproval now actionId w).2 := by
  unfold revokePlanApproval revokeApproval
  cases hrecord : w.approvals actionId with
  | none => simpa using h
  | some existing =>
      have hexecuted : ∀ q, ExecutedBefore (w.history ++ [.revoked actionId]) q ↔
          ExecutedBefore w.history q := by
        simp [ExecutedBefore]
      constructor
      · intro id hid hrevoked
        by_cases hown : id = actionId
        · subst hown
          simp [isApproved] at hid
        · have hold := h.unrevoked id (by
            simpa [isApproved, Function.update_of_ne hown] using hid)
          simp only [if_true, List.mem_append, List.mem_singleton, PlanEvent.revoked.injEq, hown,
            or_false] at hrevoked
          exact hold hrevoked
      · intro id hrevoked
        by_cases hown : id = actionId
        · subst hown
          simp
        · simp only [if_true, List.mem_append, List.mem_singleton, PlanEvent.revoked.injEq, hown,
            or_false] at hrevoked
          simpa [Function.update_of_ne hown] using h.recorded id hrevoked
      · intro id id' plan hbelongs hstatus
        rcases h.approved id id' plan hbelongs hstatus with ⟨happroved, hnever⟩
        exact ⟨List.mem_append_left _ happroved, fun hexec => hnever ((hexecuted id).mp hexec)⟩
      · exact h.once.append fun _ _ hevent => by cases hevent

/-- An execution. -/
theorem execute (h : PlanInvariant w) (now : Timestamp) (planId actionId : String)
    (verifier : Option Verifier) :
    PlanInvariant (executeM6Plan now planId actionId verifier w).2 := by
  rcases executeM6Plan_history now planId actionId verifier w with
    ⟨plan, status, approvals, hbelongs, happroved, hstands, hstatus, hmarks, hstate⟩ | hstate
  · rw [hstate]
    have hsame : ∀ id, isApproved approvals id = isApproved w.approvals id ∧
        (approvals id = none ↔ w.approvals id = none) := fun _ => isApproved_of_marks hmarks
    rcases h.approved planId actionId plan hbelongs happroved with ⟨happroval, hnever⟩
    have hunrevoked := h.unrevoked actionId hstands
    constructor
    · intro id hid hrevoked
      have hold := h.unrevoked id ((hsame id).1 ▸ hid)
      simp only [List.mem_append, List.mem_singleton, reduceCtorEq, or_false] at hrevoked
      exact hold hrevoked
    · intro id hrevoked
      simp only [List.mem_append, List.mem_singleton, reduceCtorEq, or_false] at hrevoked
      exact fun hnone => h.recorded id hrevoked ((hsame id).2.mp hnone)
    · intro id id' other hother hother_approved
      rcases belongs_of_set rfl hother with ⟨_, rfl⟩ | ⟨hid, hold⟩
      · exact absurd hother_approved hstatus
      · rcases h.approved id id' other hold hother_approved with ⟨hfirst, hnot⟩
        refine ⟨List.mem_append_left _ hfirst, ?_⟩
        rintro ⟨a, hexecuted⟩
        simp only [List.mem_append, List.mem_singleton, PlanEvent.executed.injEq, hid, false_and,
          or_false] at hexecuted
        exact hnot ⟨a, hexecuted⟩
    · refine h.once.append fun id id' hevent => ?_
      cases hevent
      rcases List.append_of_mem happroval with ⟨before, after, hsplit⟩
      refine ⟨hnever, before, after, hsplit, fun hrevoked => hunrevoked ?_⟩
      rw [hsplit]
      exact List.mem_append_right _ (List.mem_cons_of_mem _ hrevoked)
  · rw [hstate]
    exact h

end PlanInvariant

/-- One call keeps the invariant where it approves no executed plan. -/
theorem planMachine_step {w : PlanWorld} (h : PlanInvariant w) (call : PlanCall)
    (hcall : NotReapproved call w) : PlanInvariant (planMachine.step call w).2 := by
  cases call with
  | build env input => exact h.build env input hcall
  | approve planId actionId => exact h.approve planId actionId hcall
  | revoke now actionId => exact h.revoke now actionId
  | execute now planId actionId verifier => exact h.execute now planId actionId verifier

/-- A service that has just started. -/
def noPlans : PlanWorld := {}

/-- After every run whose calls approve no executed plan again, every plan was executed at most
once, and only after an approval of the plan with no revocation of its action in between. -/
theorem plans_run_once (calls : List PlanCall)
    (hcalls : planMachine.EachStep NotReapproved calls noPlans) :
    RunsOnce (planMachine.exec calls noPlans).history := by
  have hstart : PlanInvariant noPlans := by
    constructor
    · exact fun _ _ h => List.not_mem_nil h
    · exact fun _ h => (List.not_mem_nil h).elim
    · exact fun _ _ _ h => by cases h.1
    · exact runsOnce_nil
  exact (planMachine.exec_of_eachStep (I := PlanInvariant)
    (fun call _ _ h hcall => planMachine_step h call hcall) hstart hcalls).once

/-! ## A plan that runs twice -/

/-- The surroundings of a plan that deploys. -/
def planEnv : PlanEnv where
  planId := "plan-1"
  actionId := "m6-action-1"
  now := 1700000000000
  toLowerCase := asciiLowerCase

def deployPlan : PlanInput where
  objective := "Deploy payment gateway."
  tasks := [{ name := "Deploy production payment gateway", description := "Roll out to prod." }]

/-- Build, approve and execute. -/
def firstRun : List PlanCall :=
  [.build planEnv deployPlan, .approve "plan-1" "m6-action-1",
    .execute 1700000000001 "plan-1" "m6-action-1" (some fun _ => .ok true)]

theorem first_run_once : RunsOnce (planMachine.exec firstRun noPlans).history :=
  plans_run_once firstRun ⟨rfl, fun _ _ h => h.elim fun _ hexecuted =>
    List.not_mem_nil hexecuted, trivial, trivial⟩

/-- A plan that was executed and verified is approved again, and executed again. -/
theorem verified_plan_runs_again :
    let calls := firstRun ++ [.approve "plan-1" "m6-action-1",
      .execute 1700000000002 "plan-1" "m6-action-1" (some fun _ => .ok true)]
    (planMachine.exec calls noPlans).history =
        [.approved "plan-1", .executed "plan-1" "m6-action-1",
          .approved "plan-1", .executed "plan-1" "m6-action-1"] ∧
      ¬ RunsOnce (planMachine.exec calls noPlans).history := by
  intro calls
  have hhistory : (planMachine.exec calls noPlans).history =
      [.approved "plan-1", .executed "plan-1" "m6-action-1",
        .approved "plan-1", .executed "plan-1" "m6-action-1"] := by
    decide +kernel
  refine ⟨hhistory, fun honce => ?_⟩
  have hagain := (honce [.approved "plan-1", .executed "plan-1" "m6-action-1", .approved "plan-1"]
    "plan-1" "m6-action-1" [] hhistory).1
  exact hagain ⟨"m6-action-1", by simp⟩

end Agent
end Eleva
