import Eleva.Agent.AgentExecution
import Eleva.Foundation.Machine
import Eleva.Foundation.Text

/-!
# Agent - The approval gate

{lit}`runTask` of the agent service asks for an approval before it hands a task over: where the
task names a tool whose name or declared risk sounds dangerous, the approval that the task
names must stand.  The execution service asks again where the tool itself requires approval,
but is content with any text.

A run is any sequence of tasks and of calls that record, revoke and use up approvals, over any
registered tools.

Main results:

- Theorem {lit}`runTask_state`: a task that the agent does not turn away executes the tool it
  reaches; the approvals and the tools stay.
- Theorem {lit}`gate_holds_iff`: in every state of a run every tool that requires approval was
  executed for an action that stood approved and was not used, if and only if every task that
  reaches such a tool is one that the agent checks or names an approved action, and names none
  that is approved and used.
- Theorem {lit}`made_up_approval_executes`: a tool that requires approval is executed for an
  action nobody approved.
-/

namespace Eleva
namespace Agent

open Foundation Database Auth

/-! ## The advice -/

/-- {lit}`AnalysisFinding`. -/
structure AnalysisFinding where
  finding : String
  recommendation : Option String := none
  approvalRequired : Option Bool := none
deriving DecidableEq, Repr

def executionMarkers : List String :=
  ["please do", "go ahead", "execute", "apply the", "make it so"]

/-- {lit}`isExecutionPhrase`. -/
def isExecutionPhrase (normalized : String) : Bool :=
  executionMarkers.any fun marker => includes normalized marker

/-- {lit}`advise`; the intents other than an execution are treated alike. -/
def advise (env : TaskEnv) (request : String) (repositoryFacts : Option Properties) :
    List AnalysisFinding :=
  if isExecutionPhrase (env.toLowerCase (trim request)) then
    [{ finding :=
        "Execution request detected. The M3 advisory layer does not perform changes."
       recommendation :=
        some "Route this request through the existing M2 approval/execution pipeline." }]
  else if repositoryFacts.any fun facts => !facts.isEmpty then
    [{ finding := "Repository context was supplied for grounding." }]
  else
    [{ finding := "No repository facts were supplied for grounding."
       recommendation := some
        "Supply repository-verified facts or document this limitation before acting." }]

/-- No advice asks for an approval. -/
theorem advise_asks_no_approval (env : TaskEnv) (request : String)
    (repositoryFacts : Option Properties) :
    (advise env request repositoryFacts).any (fun finding =>
      finding.approvalRequired == some true) = false := by
  unfold advise
  split
  · rfl
  · split <;> rfl

/-! ## The gate of the agent -/

def dangerousWords : List String :=
  ["deploy", "database", "migration", "payment", "billing", "security", "production"]

/-- {lit}`isApprovalRequired`, for the name of a tool and the declared risk. -/
def isApprovalRequired (toolName risk : Option String) : Bool :=
  (risk == some "HIGH" || risk == some "SENSITIVE") ||
    (toolName.filter (· != "")).any fun name =>
      dangerousWords.any fun word => includes (asciiLowerCase name) word

/-- {lit}`approval?.approved`. -/
def approvalStands (approvals : Approvals) (request : AgentTaskRequest) : Bool :=
  (request.approvalActionId.filter (· != "")).any fun actionId =>
    (getApproval approvals actionId).approved

/-- A task that the agent checks itself. -/
def checkedByAgent (request : AgentTaskRequest) : Bool :=
  truthy request.toolName && isApprovalRequired request.toolName request.risk

/-! ## The records of the agent -/

/-- {lit}`recordExecution` for a result. -/
def AgentTaskResult.record (env : TaskEnv) (result : AgentTaskResult) : AgentExecutionRecord where
  taskId := env.taskId
  action := result.action
  status := result.status
  outcome := result.outcome
  executedAt := result.executedAt
  verifiedAt := if result.verification == some true then some env.now else none
  result := result.result
  verification := result.verification
  error := result.toolError.or result.verificationError

/-- Keep a record under its task. -/
def keepRecord (env : TaskEnv) (record : AgentExecutionRecord) : Agenting Unit :=
  Fallible.modify fun w => { w with
    executions := Function.update w.executions env.taskId (some record)
    executionOrder := w.executionOrder ++ [env.taskId] }

/-- {lit}`createApprovalRequiredResult`. -/
def approvalRequiredResult (env : TaskEnv) (request : AgentTaskRequest) : AgentTaskResult where
  taskId := env.taskId
  status := .APPROVAL_REQUIRED
  outcome := .APPROVAL_REQUIRED
  action := request.action
  toolName := request.toolName
  risk := request.risk
  approvalRequired := some true
  approvalGranted := some false

/-- {lit}`createRejectedResult`. -/
def rejectedResult (env : TaskEnv) (request : AgentTaskRequest) (error : String) :
    AgentTaskResult where
  taskId := env.taskId
  status := .REJECTED
  outcome := .UNAUTHORIZED
  action := request.action
  toolName := request.toolName
  authorizationError := some error

/-- {lit}`createToolFailureResult`. -/
def toolFailureResult (env : TaskEnv) (request : AgentTaskRequest) (error : String) :
    AgentTaskResult where
  taskId := env.taskId
  status := .FAILED
  outcome := .TOOL_FAILURE
  action := request.action
  toolName := request.toolName
  toolError := some error

/-- The name under which a task waits for an approval. -/
def pendingName (env : TaskEnv) (name : String) : String :=
  "pending:" ++ name ++ ":" ++ env.taskId

/-- A task that waits for an approval. -/
def awaitApproval (env : TaskEnv) (request : AgentTaskRequest) (name : String) :
    Agenting AgentTaskResult := do
  Fallible.modify fun w => { w with
    pendingApprovalActionIds := w.pendingApprovalActionIds.insert (pendingName env name) }
  keepRecord env ((approvalRequiredResult env request).record env)
  pure (approvalRequiredResult env request)

/-- The error of a result, as the agent reads it. -/
def AgentTaskResult.error (result : AgentTaskResult) : Option String :=
  (result.toolError.or result.verificationError).or result.authorizationError

/-- What the agent keeps of a task that it handed over.  The record is kept without the error:
{lit}`recordExecution` looks for it under the names that a result has. -/
def afterExecution (env : TaskEnv) (request : AgentTaskRequest) (approved : Bool)
    (result : AgentTaskResult) : Agenting Unit := do
  let name := (request.toolName.filter (· != "")).getD request.action
  keepRecord env { result.record env with error := none }
  Fallible.modify fun w => { w with
    blockers := if result.outcome == .VERIFICATION_FAILURE then
        w.blockers ++ ["Verification failure for task " ++ env.taskId ++ ": " ++
          result.error.getD "undefined"]
      else w.blockers
    pendingApprovalActionIds := if result.outcome == .APPROVAL_REQUIRED then
        w.pendingApprovalActionIds.insert (pendingName env name)
      else if approved then w.pendingApprovalActionIds.erase (pendingName env name)
      else w.pendingApprovalActionIds }

/-- {lit}`runTask`, once the agent knows whether the approval stands. -/
def runTaskWith (env : TaskEnv) (request : AgentTaskRequest) (user : AuthenticatedUser)
    (repositoryContext : Option Properties) (approved : Bool) : Agenting AgentTaskResult :=
  if truthy request.toolName && !approved &&
      isApprovalRequired request.toolName request.risk then
    awaitApproval env request (request.toolName.getD "")
  else if (advise env request.action repositoryContext).any (fun finding =>
      finding.approvalRequired == some true) && !approved then
    awaitApproval env request ((request.toolName.filter (· != "")).getD request.action)
  else if !env.hasExecutionService then do
    let result := toolFailureResult env request "AgentExecutionService is not available."
    keepRecord env (result.record env)
    pure result
  else do
    let result ← executeTask env request (some user)
    afterExecution env request approved result
    pure result

/-- {lit}`runTask`. -/
def runTask (env : TaskEnv) (request : AgentTaskRequest) (user : Option AuthenticatedUser)
    (repositoryContext : Option Properties := none) : Agenting AgentTaskResult :=
  match user with
  | none => do
      let result := rejectedResult env request
        "Authenticated user is required before executing an ELEVA task."
      keepRecord env (result.record env)
      pure result
  | some user => do
      let approved ← Fallible.reads fun w => .ok (approvalStands w.approvals request)
      runTaskWith env request user repositoryContext approved

/-! ## What a task does -/

/-- What the approvals are decided by: the tools, the approvals and the history. -/
def AgentWorld.core (w : AgentWorld) : List AgentToolDefinition × Approvals × List AgentEvent :=
  (w.tools, w.approvals, w.history)

/-- The task is turned away for want of an approval. -/
def turnedAway (request : AgentTaskRequest) (w : AgentWorld) : Bool :=
  checkedByAgent request && !approvalStands w.approvals request

/-- The tool that a task of the agent executes. -/
def executedTool (env : TaskEnv) (request : AgentTaskRequest) (user : Option AuthenticatedUser)
    (w : AgentWorld) : Option AgentToolDefinition :=
  if turnedAway request w || !env.hasExecutionService then none
  else reached env request user w.tools

/-- What the agent keeps of a task does not touch the approvals. -/
theorem afterExecution_core (env : TaskEnv) (request : AgentTaskRequest) (approved : Bool)
    (result : AgentTaskResult) (w : AgentWorld) :
    ((do afterExecution env request approved result; pure result : Agenting AgentTaskResult)
      w).2.core = w.core :=
  rfl

theorem runTaskWith_core (env : TaskEnv) (request : AgentTaskRequest)
    (user : AuthenticatedUser) (repositoryContext : Option Properties) (w : AgentWorld) :
    (runTaskWith env request user repositoryContext
      (approvalStands w.approvals request) w).2.core =
      (w.tools, w.approvals, w.history ++
        ((executedTool env request (some user) w).map (execution request)).toList) := by
  have hnothing : w.core = (w.tools, w.approvals, w.history ++ []) := by
    rw [List.append_nil]
    rfl
  have hturned : (truthy request.toolName && !approvalStands w.approvals request &&
      isApprovalRequired request.toolName request.risk) = turnedAway request w :=
    Bool.and_right_comm _ _ _
  unfold runTaskWith executedTool
  rw [hturned, advise_asks_no_approval, Bool.false_and]
  cases turnedAway request w with
  | true => exact hnothing
  | false =>
      cases env.hasExecutionService with
      | false => exact hnothing
      | true =>
          have hstate := executeTask_state env request (some user) w
          cases hrun : executeTask env request (some user) w with
          | mk answer w' =>
              rw [hrun] at hstate
              have hcore : w'.core = (w.tools, w.approvals, w.history ++
                  ((reached env request (some user) w.tools).map (execution request)).toList) :=
                congrArg AgentWorld.core hstate
              cases answer with
              | error e =>
                  refine Eq.trans (congrArg (fun r => AgentWorld.core (Prod.snd r))
                    (Fallible.bind_of_error hrun)) hcore
              | ok result =>
                  refine Eq.trans (congrArg (fun r => AgentWorld.core (Prod.snd r))
                    (Fallible.bind_of_ok hrun)) ?_
                  exact (afterExecution_core env request _ result w').trans hcore

/-- A task executes the tool that it reaches, unless the agent turns it away, and the tools and
the approvals stay. -/
theorem runTask_state (env : TaskEnv) (request : AgentTaskRequest)
    (user : Option AuthenticatedUser) (repositoryContext : Option Properties)
    (w : AgentWorld) :
    (runTask env request user repositoryContext w).2.core =
      (w.tools, w.approvals, w.history ++
        ((executedTool env request user w).map (execution request)).toList) := by
  cases user with
  | none =>
      have hnone : executedTool env request none w = none := ite_self _
      rw [hnone]
      change w.core = (w.tools, w.approvals, w.history ++ [])
      rw [List.append_nil]
      rfl
  | some user => exact runTaskWith_core env request user repositoryContext w

/-! ## Runs -/

/-- The calls of a run. -/
inductive AgentCall where
  | runTask (env : TaskEnv) (request : AgentTaskRequest) (user : Option AuthenticatedUser)
      (repositoryContext : Option Properties)
  | recordApproval (now : Timestamp) (actionId capability : String)
  | revokeApproval (now : Timestamp) (actionId : String)
  | markExecuted (now : Timestamp) (actionId : String)

/-- What a call answers. -/
inductive AgentAnswer where
  | task (result : Except AgentError AgentTaskResult)
  | done (b : Bool)

/-- The world after a call of the approval service, with what happened. -/
def AgentWorld.withApprovals (w : AgentWorld) (approvals : Approvals)
    (events : List AgentEvent) : AgentWorld :=
  { w with approvals := approvals, history := w.history ++ events }

/-- An agent with its approval service. -/
def agentMachine : Machine AgentCall AgentWorld AgentAnswer where
  step call w :=
    match call with
    | .runTask env request user repositoryContext =>
        let run := runTask env request user repositoryContext w
        (.task run.1, run.2)
    | .recordApproval now actionId capability =>
        let run := recordApproval now actionId capability w.approvals
        (.done run.1, w.withApprovals run.2 [.recorded actionId])
    | .revokeApproval now actionId =>
        let run := revokeApproval now actionId w.approvals
        (.done run.1, w.withApprovals run.2 [.revoked actionId])
    | .markExecuted now actionId =>
        let run := markExecuted now actionId w.approvals
        -- An approval that is not there is not marked.
        (.done run.1,
          w.withApprovals run.2 (if run.1 then [.markedExecuted actionId] else []))

/-- An agent that has just started, with its tools. -/
def freshAgent (tools : List AgentToolDefinition) : AgentWorld where
  tools := tools

/-! ## The gate -/

/-- Every tool that requires approval was executed for an action that stood approved then and
whose approval was not used before. -/
def Gated (history : List AgentEvent) : Prop :=
  ∀ before tool approvalActionId after,
    history = before ++ .executed tool true approvalActionId :: after →
      ∃ actionId, approvalActionId = some actionId ∧ Standing before actionId ∧
        ¬ Used before actionId

/-- What a call must satisfy for the gate to hold: a task that reaches a tool which requires
approval is one that the agent checks, or names an action that is approved; and an approved
action that it names was not used before. -/
def Guarded : AgentCall → AgentWorld → Prop
  | .runTask env request user _, w =>
      ∀ tool actionId, env.hasExecutionService = true →
        reached env request user w.tools = some tool → tool.requiresApproval = true →
        request.approvalActionId = some actionId →
          (checkedByAgent request = true ∨ isApproved w.approvals actionId = true) ∧
            (isApproved w.approvals actionId = true → ¬ Used w.history actionId)
  | _, _ => True

/-- Where nothing happened the gate held. -/
theorem gated_nil : Gated [] := by
  intro before tool approvalActionId after hnil
  simp at hnil

/-- One more event keeps the gate exactly when it is no execution of a tool that requires
approval, or one for an action that stands approved and is not used. -/
theorem gated_append {history : List AgentEvent} {event : AgentEvent} :
    Gated (history ++ [event]) ↔ Gated history ∧
      ∀ tool approvalActionId, event = .executed tool true approvalActionId →
        ∃ actionId, approvalActionId = some actionId ∧ Standing history actionId ∧
          ¬ Used history actionId := by
  constructor
  · intro h
    refine ⟨fun before tool id after hhistory => ?_, fun tool id hevent => ?_⟩
    · exact h before tool id (after ++ [event]) (by rw [hhistory]; simp)
    · exact h history tool id [] (by rw [hevent])
  · rintro ⟨h, hlast⟩ before tool id after hhistory
    rcases List.eq_nil_or_concat after with rfl | ⟨rest, last, rfl⟩
    · have hevent := List.singleton_inj.mp (List.append_inj_right' hhistory rfl)
      have hbefore := List.append_inj_left' hhistory rfl
      rw [← hbefore]
      exact hlast tool id hevent
    · rw [List.concat_eq_append, ← List.cons_append, ← List.append_assoc] at hhistory
      exact h before tool id rest (List.append_inj_left' hhistory rfl)

/-- Events that are no executions keep the gate. -/
theorem gated_append_of_no_execution {history : List AgentEvent} {event : AgentEvent}
    (h : Gated history) (hevent : ∀ tool id, event ≠ .executed tool true id) :
    Gated (history ++ [event]) :=
  gated_append.mpr ⟨h, fun tool id he => absurd he (hevent tool id)⟩

/-- The invariant of a run: the gate held so far, and the approvals agree with the history. -/
structure GateInvariant (w : AgentWorld) : Prop where
  consistent : Consistent w.approvals w.history
  gated : Gated w.history

/-- The approval that a task names stands for the agent as for the approval service. -/
theorem approvalStands_eq {w : AgentWorld} (h : Consistent w.approvals w.history)
    {request : AgentTaskRequest} {actionId : String}
    (hid : request.approvalActionId = some actionId) (hne : actionId ≠ "") :
    approvalStands w.approvals request = isApproved w.approvals actionId := by
  rw [← h.getApproval_approved actionId]
  simp [approvalStands, hid, hne]

theorem guarded_runTask_iff {env : TaskEnv} {request : AgentTaskRequest}
    {user : Option AuthenticatedUser} {repositoryContext : Option Properties} {w : AgentWorld} :
    Guarded (.runTask env request user repositoryContext) w ↔
      ∀ tool actionId, env.hasExecutionService = true →
        reached env request user w.tools = some tool → tool.requiresApproval = true →
        request.approvalActionId = some actionId →
          (checkedByAgent request = true ∨ isApproved w.approvals actionId = true) ∧
            (isApproved w.approvals actionId = true → ¬ Used w.history actionId) :=
  Iff.rfl

/-- After a task the gate holds exactly when the task is guarded. -/
theorem runTask_gated_iff {w : AgentWorld} (h : GateInvariant w) (env : TaskEnv)
    (request : AgentTaskRequest) (user : Option AuthenticatedUser)
    (repositoryContext : Option Properties) :
    Gated (w.history ++ ((executedTool env request user w).map (execution request)).toList) ↔
      Guarded (.runTask env request user repositoryContext) w := by
  unfold executedTool
  rw [guarded_runTask_iff]
  cases hservice : env.hasExecutionService with
  | false => simpa using h.gated
  | true =>
      cases hreached : reached env request user w.tools with
      | none => simpa using h.gated
      | some tool =>
          cases hrequires : tool.requiresApproval with
          | false =>
              have hgated : Gated (w.history ++ [execution request tool]) :=
                gated_append_of_no_execution h.gated fun _ _ => by simp [execution, hrequires]
              refine ⟨fun _ _ _ _ htool hrequired _ => ?_, fun _ => ?_⟩
              · rw [← Option.some.inj htool, hrequires] at hrequired
                cases hrequired
              · cases turnedAway request w with
                | true => simpa using h.gated
                | false => simpa using hgated
          | true =>
              rcases reached_names_approval hreached hrequires with ⟨actionId, hid, hne⟩
              have hstands := approvalStands_eq h.consistent hid hne
              have hguard : (∀ tool' id, true = true → some tool = some tool' →
                  tool'.requiresApproval = true → request.approvalActionId = some id →
                    (checkedByAgent request = true ∨ isApproved w.approvals id = true) ∧
                      (isApproved w.approvals id = true → ¬ Used w.history id)) ↔
                  (checkedByAgent request = true ∨ isApproved w.approvals actionId = true) ∧
                    (isApproved w.approvals actionId = true → ¬ Used w.history actionId) := by
                constructor
                · intro hall
                  exact hall tool actionId rfl rfl hrequires hid
                · rintro hboth tool' id _ _ _ hid'
                  rw [Option.some.inj (hid'.symm.trans hid)]
                  exact hboth
              have happend : Gated (w.history ++ [execution request tool]) ↔
                  isApproved w.approvals actionId = true ∧ ¬ Used w.history actionId := by
                rw [gated_append, h.consistent.standing actionId]
                constructor
                · rintro ⟨_, hlast⟩
                  have hevent : execution request tool =
                      .executed tool.name true (some actionId) := by
                    simp [execution, hrequires, hid]
                  rcases hlast _ _ hevent with ⟨id, hsame, hstanding, hunused⟩
                  rw [← Option.some.inj hsame] at hstanding hunused
                  exact ⟨hstanding, hunused⟩
                · rintro ⟨hstanding, hunused⟩
                  refine ⟨h.gated, fun name id hevent => ⟨actionId, ?_, hstanding, hunused⟩⟩
                  simp only [execution, hid, AgentEvent.executed.injEq] at hevent
                  exact hevent.2.2.symm
              rw [hguard]
              unfold turnedAway
              rw [hstands]
              cases hchecked : checkedByAgent request <;>
                cases happroved : isApproved w.approvals actionId <;>
                  simp [happend, happroved, h.gated]

/-- A task does not change what the approvals and the history say of each other. -/
theorem runTask_consistent {w : AgentWorld} (h : Consistent w.approvals w.history)
    (env : TaskEnv) (request : AgentTaskRequest) (user : Option AuthenticatedUser) :
    Consistent w.approvals
      (w.history ++ ((executedTool env request user w).map (execution request)).toList) := by
  cases executedTool env request user w with
  | none => simpa using h
  | some tool =>
      exact h.of_unrelated (fun _ => rfl) (fun _ => by simp [execution])
        fun _ => by simp [execution]

/-- One call: the gate holds after it exactly when the call is guarded, and then the invariant
holds. -/
theorem agentMachine_step {w : AgentWorld} (h : GateInvariant w) (call : AgentCall) :
    (Gated (agentMachine.step call w).2.history ↔ Guarded call w) ∧
      (Guarded call w → GateInvariant (agentMachine.step call w).2) := by
  cases call with
  | runTask env request user repositoryContext =>
      have hcore := runTask_state env request user repositoryContext w
      have hiff := runTask_gated_iff h env request user repositoryContext
      have hconsistent := runTask_consistent h.consistent env request user
      have happrovals : (runTask env request user repositoryContext w).2.approvals = w.approvals :=
        congrArg (·.2.1) hcore
      have hhistory : (runTask env request user repositoryContext w).2.history = w.history ++
          ((executedTool env request user w).map (execution request)).toList :=
        congrArg (·.2.2) hcore
      rw [← hhistory] at hiff hconsistent
      exact ⟨hiff, fun hguarded => ⟨happrovals ▸ hconsistent, hiff.mpr hguarded⟩⟩
  | recordApproval now actionId capability =>
      have hgated : Gated (w.history ++ [.recorded actionId]) :=
        gated_append_of_no_execution h.gated fun _ _ => by simp
      exact ⟨⟨fun _ => trivial, fun _ => hgated⟩,
        fun _ => ⟨h.consistent.recordApproval capability, hgated⟩⟩
  | revokeApproval now actionId =>
      have hgated : Gated (w.history ++ [.revoked actionId]) :=
        gated_append_of_no_execution h.gated fun _ _ => by simp
      exact ⟨⟨fun _ => trivial, fun _ => hgated⟩,
        fun _ => ⟨h.consistent.revokeApproval, hgated⟩⟩
  | markExecuted now actionId =>
      have hgated : Gated (w.history ++ [.markedExecuted actionId]) :=
        gated_append_of_no_execution h.gated fun _ _ => by simp
      have hmarked : Consistent (Agent.markExecuted now actionId w.approvals).2
          (w.history ++ [.markedExecuted actionId]) := h.consistent.markExecuted
      simp only [agentMachine, AgentWorld.withApprovals, Guarded, iff_true, true_implies]
      unfold markExecuted at hmarked ⊢
      cases hrecord : w.approvals actionId with
      | none => simpa using ⟨h.gated, h.consistent, h.gated⟩
      | some existing =>
          rw [hrecord] at hmarked
          exact ⟨hgated, hmarked, hgated⟩

/-- In every state of a run every tool that requires approval was executed for an action that
stood approved and was not used before, if and only if every call of the run is guarded. -/
theorem gate_holds_iff (tools : List AgentToolDefinition) (calls : List AgentCall) :
    (∀ begun, begun <+: calls → Gated (agentMachine.exec begun (freshAgent tools)).history) ↔
      agentMachine.EachStep Guarded calls (freshAgent tools) := by
  have hstart : GateInvariant (freshAgent tools) := ⟨Consistent.empty, gated_nil⟩
  exact agentMachine.prefix_iff_eachStep (P := fun w => Gated w.history) (fun _ h => h.gated)
    (fun call _ _ h => agentMachine_step h call) hstart

/-! ## An approval that nobody gave -/

/-- A tool that requires approval, under a name without a dangerous word. -/
def sensitiveTool : AgentToolDefinition where
  name := "agent.sensitive_demo_tool"
  description := "Sensitive demo tool requiring approval."
  capability := "DEVELOPMENT"
  requiredPermission := { action := "execute", resource := "high-risk" }
  risk := .SENSITIVE
  requiresApproval := true
  inputContract := [("message", .object [("type", .string "string")])]
  execute _ input := .ok [("echoed", .string (messageOf input))]
  verify := some fun _ input result =>
    .ok ((result.lookup "echoed").any (isText (messageOf input)))

/-- The surroundings of a task, with a library that answers by the last rule about a subject. -/
def demoEnv : TaskEnv where
  taskId := "eleva-task-1"
  executionTaskId := "task-1"
  now := 1700000000000
  can rules action subject := lastRuleDecides rules action subject {}
  toLowerCase := asciiLowerCase

/-- The owner of the platform. -/
def platformOwner : AuthenticatedUser where
  id := "owner"
  email := "owner@example.com"
  tenantId := none
  roles := ["PLATFORM_OWNER"]
  permissions := []

/-- A task for the tool, with a risk that the caller calls low and an approval of its own
making. -/
def madeUpTask : AgentCall :=
  .runTask demoEnv
    { action := "echo"
      toolName := some "agent.sensitive_demo_tool"
      risk := some "LOW"
      input := some [("message", .string "hello")]
      approvalActionId := some "made-up" }
    (some platformOwner) none

/-- The tool is executed, although no approval was ever recorded. -/
theorem made_up_approval_executes :
    let w := agentMachine.exec [madeUpTask] (freshAgent (registerTool [safeTool] sensitiveTool))
    w.history = [.executed "agent.sensitive_demo_tool" true (some "made-up")] ∧
      ¬ Gated w.history := by
  have hhistory : (agentMachine.exec [madeUpTask]
      (freshAgent (registerTool [safeTool] sensitiveTool))).history =
        [.executed "agent.sensitive_demo_tool" true (some "made-up")] := by
    decide +kernel
  refine ⟨hhistory, fun hgated => ?_⟩
  rcases hgated [] _ _ [] hhistory with ⟨_, _, ⟨before, after, hnil, _⟩, _⟩
  simp at hnil

end Agent
end Eleva
