import Eleva.Agent.ElevaService
import Eleva.Auth.RbacGuard
import Eleva.Foundation.Json

/-!
# Agent - The execution of a tool

{lit}`executeTask` takes a task to a registered tool: it looks the tool up, asks the ability
library whether the user may use it, asks for an approval where the tool requires one, checks
the input, executes the tool and verifies its result.  The approval is checked by
{lit}`evaluateApproval`, which grants every one.

Main results:

- Theorem {lit}`executeTask_state`: a task executes the tool that it reaches and changes
  nothing else.
- Theorem {lit}`reached_names_approval`: a task that reaches a tool which requires approval
  names an approval.
-/

namespace Eleva
namespace Agent

open Foundation Database Auth

/-! ## Tasks and tools -/

inductive AgentTaskStatus where
  | APPROVAL_REQUIRED | APPROVAL_DENIED | EXECUTED | FAILED | REJECTED
deriving DecidableEq, Repr

inductive AgentTaskOutcome where
  | APPROVAL_REQUIRED | APPROVAL_DENIED | UNAUTHORIZED | INVALID_INPUT | TOOL_FAILURE
  | VERIFICATION_FAILURE | EXECUTED
deriving DecidableEq, Repr

inductive AgentToolRisk where
  | LOW | SENSITIVE | HIGH
deriving DecidableEq, Repr

/-- The text of a risk. -/
def AgentToolRisk.text : AgentToolRisk → String
  | .LOW => "LOW"
  | .SENSITIVE => "SENSITIVE"
  | .HIGH => "HIGH"

structure Permission where
  action : String
  resource : String
deriving DecidableEq, Repr

/-- {lit}`Record<string, unknown>`. -/
abbrev Properties := List (String × Json)

/-- {lit}`AgentTaskRequest`.  The risk is the one the caller declares, any text. -/
structure AgentTaskRequest where
  action : String
  toolName : Option String := none
  capability : Option String := none
  risk : Option String := none
  input : Option Properties := none
  approvalActionId : Option String := none
deriving Repr

/-- {lit}`AgentToolDefinition`.  What a tool answers may depend on the time of the call. -/
structure AgentToolDefinition where
  name : String
  description : String
  capability : String
  requiredPermission : Permission
  risk : AgentToolRisk
  requiresApproval : Bool
  inputContract : Properties
  execute : Timestamp → Properties → Except String Properties
  verify : Option (Timestamp → Properties → Properties → Except String Bool) := none

/-- {lit}`AgentTaskResult`. -/
structure AgentTaskResult where
  taskId : String
  status : AgentTaskStatus
  outcome : AgentTaskOutcome
  action : String
  toolName : Option String := none
  requiredPermission : Option Permission := none
  risk : Option String := none
  approvalRequired : Option Bool := none
  approvalGranted : Option Bool := none
  authorizationError : Option String := none
  validationError : Option String := none
  toolError : Option String := none
  verificationError : Option String := none
  result : Option Properties := none
  verification : Option Bool := none
  executedAt : Option Timestamp := none
deriving Repr

/-- The record of a task that an agent keeps. -/
structure AgentExecutionRecord where
  taskId : String
  action : String
  status : AgentTaskStatus
  outcome : AgentTaskOutcome
  executedAt : Option Timestamp := none
  verifiedAt : Option Timestamp := none
  result : Option Properties := none
  verification : Option Bool := none
  error : Option String := none
deriving Repr

/-- The registered tools, the approvals and what the agent remembers.  The history is what
happened so far; nothing reads it. -/
structure AgentWorld where
  tools : List AgentToolDefinition
  approvals : Approvals := fun _ => none
  executions : String → Option AgentExecutionRecord := fun _ => none
  executionOrder : List String := []
  pendingApprovalActionIds : List String := []
  blockers : List String := []
  history : List AgentEvent := []

/-- Errors that a task ends with, by their message. -/
inductive AgentError where
  | notFound (message : String)
  | forbidden (message : String)
  | thrown (message : String)
deriving DecidableEq, Repr

/-- A method of the agent. -/
abbrev Agenting (α : Type) := Fallible AgentWorld AgentError α

/-- The surroundings of a task: the ids that are generated for it, the time, the ability
library asked about a subject without a row, and lower case. -/
structure TaskEnv where
  taskId : String
  executionTaskId : String
  now : Timestamp
  can : List AbilityRule → String → String → Bool
  toLowerCase : String → String
  hasExecutionService : Bool := true

/-! ## The registry -/

/-- {lit}`SAFE_TOOL_NAME`. -/
def safeToolName : String := "agent.safe_demo_tool"

/-- {lit}`String(input.message ?? '')`. -/
def messageOf (input : Properties) : String :=
  match input.lookup "message" with
  | none => ""
  | some .null => ""
  | some message => message.text

/-- {lit}`value === text`. -/
def isText (text : String) : Json → Bool
  | .string s => s == text
  | _ => false

/-- The tool that every registry starts with. -/
def safeTool : AgentToolDefinition where
  name := safeToolName
  description := "Minimum safe demonstration tool for the M2 execution pipeline."
  capability := "DEVELOPMENT"
  requiredPermission := { action := "execute", resource := "low-risk" }
  risk := .LOW
  requiresApproval := false
  inputContract := [("message", .object [("type", .string "string")])]
  execute _ input := .ok [("echoed", .string (messageOf input))]
  verify := some fun _ input result =>
    .ok ((result.lookup "echoed").any (isText (messageOf input)))

/-- {lit}`registerTool`: a tool takes the place of one of its name. -/
def registerTool (tools : List AgentToolDefinition) (tool : AgentToolDefinition) :
    List AgentToolDefinition :=
  if tools.any (·.name == tool.name) then
    tools.map fun other => if other.name == tool.name then tool else other
  else tools ++ [tool]

/-- {lit}`getTool`. -/
def getTool (tools : List AgentToolDefinition) (name : String) : Option AgentToolDefinition :=
  tools.find? (·.name == name)

/-! ## The steps of a task -/

/-- {lit}`resolveTool`, where there is a tool. -/
def resolvedTool (tools : List AgentToolDefinition) (request : AgentTaskRequest) :
    Option AgentToolDefinition :=
  let named := (request.toolName.filter (· != "")).bind (getTool tools)
  let fallback := (request.capability.filter (· != "")).bind fun capability =>
    tools.find? (·.capability == capability)
  (named.or fallback).or (getTool tools safeToolName)

/-- {lit}`resolveTool`. -/
def resolveTool (request : AgentTaskRequest) : Agenting AgentToolDefinition :=
  Fallible.reads fun w =>
    match resolvedTool w.tools request with
    | some tool => .ok tool
    | none =>
        .error (.notFound "No authorized ELEVA tool is available for the requested task.")

/-- {lit}`requireUser`. -/
def requireUser (user : Option AuthenticatedUser) : Agenting AuthenticatedUser :=
  match user with
  | some user => pure user
  | none =>
      Fallible.throw (.forbidden
        "Authentication credentials were not resolved before the ELEVA task pipeline.")

/-- {lit}`authorizeTask`: the error of a user who may not use the tool. -/
def authorizeTask (env : TaskEnv) (ability : List AbilityRule) (requiredPermission : Permission)
    (tool : AgentToolDefinition) : Option String :=
  if env.can ability requiredPermission.action requiredPermission.resource then none
  else some ("Access Denied: ELEVA task requires [" ++ requiredPermission.action ++ " on " ++
    requiredPermission.resource ++ "] for tool [" ++ tool.name ++ "].")

/-- {lit}`evaluateApproval`. -/
def evaluateApproval (_user : AuthenticatedUser) (_approvalActionId : String)
    (_tool : AgentToolDefinition) : Bool :=
  true

/-- {lit}`validateInput`. -/
def validateInput (contract : Properties) (input : Option Properties) :
    Except String Properties :=
  match input with
  | some input => .ok input
  | none => if contract.isEmpty then .ok [] else .error "Missing required task input."

/-- The fields that every result of the pipeline has. -/
def taskResult (env : TaskEnv) (request : AgentTaskRequest) (tool : AgentToolDefinition)
    (status : AgentTaskStatus) (outcome : AgentTaskOutcome) : AgentTaskResult where
  taskId := env.executionTaskId
  status := status
  outcome := outcome
  action := request.action
  toolName := some tool.name
  requiredPermission := some tool.requiredPermission
  risk := some tool.risk.text
  approvalRequired := some tool.requiresApproval

/-- {lit}`tool.requiresApproval ? true : undefined`. -/
def granted (tool : AgentToolDefinition) : Option Bool :=
  if tool.requiresApproval then some true else none

/-- {lit}`tool.execute`, with its error caught. -/
def callTool (env : TaskEnv) (request : AgentTaskRequest) (tool : AgentToolDefinition)
    (input : Properties) : Agenting (Except String Properties) := do
  Fallible.modify fun w => { w with
    history := w.history ++
      [.executed tool.name tool.requiresApproval request.approvalActionId] }
  pure (tool.execute env.now input)

/-- The answer of a verification; its error is not caught. -/
def passedOrThrow : Except String Bool → Agenting (Option Bool)
  | .ok passed => pure (some passed)
  | .error message => Fallible.throw (.thrown message)

/-- {lit}`tool.verify`, where the tool has it. -/
def callVerify (env : TaskEnv) (tool : AgentToolDefinition) (input result : Properties) :
    Agenting (Option Bool) :=
  match tool.verify with
  | none => pure none
  | some verify => passedOrThrow (verify env.now input result)

/-- The result of a tool that was executed, once its verification is known. -/
def verifiedResult (env : TaskEnv) (request : AgentTaskRequest) (tool : AgentToolDefinition)
    (result : Properties) (verification : Option Bool) : AgentTaskResult :=
  let failed : AgentTaskResult := { taskResult env request tool .FAILED .VERIFICATION_FAILURE with
    approvalGranted := granted tool
    result := some result
    verificationError := some "Verification failed"
    verification := verification }
  let verificationRequired := tool.risk == .HIGH || tool.risk == .SENSITIVE
  if verification == some false then failed
  else if verificationRequired && verification != some true then failed
  else { taskResult env request tool .EXECUTED .EXECUTED with
    approvalGranted := granted tool
    result := some result
    verification := verification
    executedAt := some env.now }

/-- Executing and verifying a tool. -/
def runTool (env : TaskEnv) (request : AgentTaskRequest) (tool : AgentToolDefinition)
    (input : Properties) : Agenting AgentTaskResult := do
  match ← callTool env request tool input with
  | .error message =>
      pure { taskResult env request tool .FAILED .TOOL_FAILURE with
        approvalGranted := granted tool
        toolError := some message }
  | .ok result =>
      let verification ← callVerify env tool input result
      pure (verifiedResult env request tool result verification)

/-- The checks of {lit}`executeTask` for a user and a tool, and the tool after them. -/
def checkAndRun (env : TaskEnv) (request : AgentTaskRequest) (user : AuthenticatedUser)
    (tool : AgentToolDefinition) : Agenting AgentTaskResult :=
  match authorizeTask env (createForUser user.payload) tool.requiredPermission tool with
  | some message =>
      pure { taskResult env request tool .REJECTED .UNAUTHORIZED with
        authorizationError := some message }
  | none =>
      if tool.requiresApproval && !truthy request.approvalActionId then
        pure { taskResult env request tool .APPROVAL_REQUIRED .APPROVAL_REQUIRED with
          approvalGranted := some false }
      else if tool.requiresApproval &&
          !evaluateApproval user (request.approvalActionId.getD "") tool then
        pure { taskResult env request tool .APPROVAL_DENIED .APPROVAL_DENIED with
          approvalGranted := some false }
      else
        match validateInput tool.inputContract request.input with
        | .error message =>
            pure { taskResult env request tool .REJECTED .INVALID_INPUT with
              approvalGranted := granted tool
              validationError := some message }
        | .ok input => runTool env request tool input

/-- {lit}`executeTask`.  Between the checks and the tool stand only awaits of promises that are
settled, so nothing of another request comes between them. -/
def executeTask (env : TaskEnv) (request : AgentTaskRequest) (user : Option AuthenticatedUser) :
    Agenting AgentTaskResult := do
  let tool ← resolveTool request
  let user ← requireUser user
  checkAndRun env request user tool

/-! ## What a task executes -/

/-- Whether a task of the user passes the checks of a tool: the user may use it, an approval is
named where it requires one, and the input is there. -/
def passes (env : TaskEnv) (request : AgentTaskRequest) (user : AuthenticatedUser)
    (tool : AgentToolDefinition) : Bool :=
  (authorizeTask env (createForUser user.payload) tool.requiredPermission tool).isNone &&
    !(tool.requiresApproval && !truthy request.approvalActionId) &&
    (validateInput tool.inputContract request.input).isOk

/-- The tool that a task reaches. -/
def reached (env : TaskEnv) (request : AgentTaskRequest) (user : Option AuthenticatedUser)
    (tools : List AgentToolDefinition) : Option AgentToolDefinition :=
  user.bind fun user => (resolvedTool tools request).filter (passes env request user)

/-- The execution of a tool for a task. -/
def execution (request : AgentTaskRequest) (tool : AgentToolDefinition) : AgentEvent :=
  .executed tool.name tool.requiresApproval request.approvalActionId

/-- A task that reaches a tool which requires approval names an approval. -/
theorem reached_names_approval {env : TaskEnv} {request : AgentTaskRequest}
    {user : Option AuthenticatedUser} {tools : List AgentToolDefinition}
    {tool : AgentToolDefinition} (h : reached env request user tools = some tool)
    (hrequires : tool.requiresApproval = true) :
    ∃ actionId, request.approvalActionId = some actionId ∧ actionId ≠ "" := by
  unfold reached at h
  cases user with
  | none => cases h
  | some user =>
      have hchecks := (Option.filter_eq_some_iff.mp h).2
      simp only [passes, hrequires, Bool.true_and, Bool.not_not, Bool.and_eq_true] at hchecks
      cases hid : request.approvalActionId with
      | none => simp [hid, truthy] at hchecks
      | some actionId =>
          refine ⟨actionId, rfl, ?_⟩
          simpa [hid, truthy] using hchecks.1.2

/-- Verifying a tool changes nothing. -/
theorem callVerify_state (env : TaskEnv) (tool : AgentToolDefinition)
    (input result : Properties) (w : AgentWorld) :
    (callVerify env tool input result w).2 = w := by
  unfold callVerify
  cases tool.verify with
  | none => rfl
  | some verify =>
      change (passedOrThrow (verify env.now input result) w).2 = w
      cases verify env.now input result <;> rfl

/-- A tool that is run is executed once, whatever it answers. -/
theorem runTool_state (env : TaskEnv) (request : AgentTaskRequest)
    (tool : AgentToolDefinition) (input : Properties) (w : AgentWorld) :
    (runTool env request tool input w).2 =
      { w with history := w.history ++ [execution request tool] } := by
  have hcall : callTool env request tool input w =
      (.ok (tool.execute env.now input),
        { w with history := w.history ++ [execution request tool] }) := rfl
  unfold runTool
  rw [Fallible.bind_of_ok hcall]
  cases tool.execute env.now input with
  | error message => rfl
  | ok result =>
      have hverify := callVerify_state env tool input result
        { w with history := w.history ++ [execution request tool] }
      cases hrun : callVerify env tool input result
          { w with history := w.history ++ [execution request tool] } with
      | mk answer w' =>
          rw [hrun] at hverify
          cases answer with
          | error e => exact (congrArg Prod.snd (Fallible.bind_of_error hrun)).trans hverify
          | ok verification =>
              exact (congrArg Prod.snd (Fallible.bind_of_ok hrun)).trans hverify

/-- A task that passes the checks of a tool executes it, and any other task changes nothing. -/
theorem checkAndRun_state (env : TaskEnv) (request : AgentTaskRequest)
    (user : AuthenticatedUser) (tool : AgentToolDefinition) (w : AgentWorld) :
    (checkAndRun env request user tool w).2 =
      if passes env request user tool then
        { w with history := w.history ++ [execution request tool] }
      else w := by
  unfold checkAndRun passes
  cases authorizeTask env (createForUser user.payload) tool.requiredPermission tool with
  | some message => rfl
  | none =>
      cases hasks : tool.requiresApproval && !truthy request.approvalActionId with
      | true => rfl
      | false =>
          simp only [evaluateApproval, Bool.not_true, Bool.and_false, Bool.false_eq_true,
            if_false]
          cases validateInput tool.inputContract request.input with
          | error message => rfl
          | ok input => exact runTool_state env request tool input w

/-- A task executes the tool that it reaches, and changes nothing else. -/
theorem executeTask_state (env : TaskEnv) (request : AgentTaskRequest)
    (user : Option AuthenticatedUser) (w : AgentWorld) :
    (executeTask env request user w).2 =
      { w with history :=
        w.history ++ ((reached env request user w.tools).map (execution request)).toList } := by
  have hnothing : w = { w with history := w.history ++ [] } := by
    rw [List.append_nil]
  unfold executeTask
  cases htool : resolvedTool w.tools request with
  | none =>
      have hresolve : resolveTool request w = (.error (.notFound
          "No authorized ELEVA tool is available for the requested task."), w) := by
        simp [resolveTool, htool]
      have hreached : reached env request user w.tools = none := by
        cases user <;> simp [reached, htool]
      rw [Fallible.bind_of_error hresolve, hreached]
      exact hnothing
  | some tool =>
      have hresolve : resolveTool request w = (.ok tool, w) := by
        simp [resolveTool, htool]
      rw [Fallible.bind_of_ok hresolve]
      cases user with
      | none => exact hnothing
      | some user =>
          have hrun := checkAndRun_state env request user tool w
          have hreached : reached env request (some user) w.tools =
              if passes env request user tool then some tool else none := by
            simp [reached, htool, Option.filter]
          rw [hreached]
          refine Eq.trans hrun ?_
          split
          · rfl
          · exact hnothing

end Agent
end Eleva
