import Eleva.Agent.ElevaAgentService

/-!
# Agent - Advice

{lit}`ElevaAdvisoryService` reads the intent of a request off the words in it and answers with
one finding: requests for an execution are sent to the approval pipeline, all others are told
whether there are facts to rest on.  A finding is turned into what is presented of it, and an
intent into a task for the tool that does nothing.

Main results:

- Theorem {lit}`advise_agrees`: the findings are those by which the agent decides.
- Theorem {lit}`classifyIntent_eq_execution_iff`: which requests ask for an execution.
- Theorem {lit}`executeResearch_nothing`: research about nothing finds no source.
-/

namespace Eleva
namespace ElevaOffice

open Foundation
open Agent (isExecutionPhrase TaskEnv Properties)

/-! ## Intents -/

/-- {lit}`AgentRequestIntent`. -/
inductive AgentRequestIntent where
  | QUESTION
  | ANALYSIS
  | RECOMMENDATION
  | DIAGNOSTIC
  | EXECUTION
deriving DecidableEq, Repr

/-- The characters of {lit}`\w`. -/
def isWordCharacter (c : Char) : Bool :=
  c.isAlphanum || c == '_'

/-- Whether a word stands somewhere in a text, between two boundaries {lit}`\b`. -/
def hasWordAfter (word : List Char) : Option Char → List Char → Bool
  | _, [] => false
  | before, c :: rest =>
      (!before.any isWordCharacter && word.isPrefixOf (c :: rest) &&
          !((c :: rest).drop word.length).head?.any isWordCharacter) ||
        hasWordAfter word (some c) rest

/-- The test of {lit}`/\b(?:…)\b/`. -/
def hasWord (words : List String) (s : String) : Bool :=
  words.any fun word => hasWordAfter word.toList none s.toList

def diagnosticWords : List String :=
  ["diagnostic", "failure", "error", "broken", "failing", "issue", "problem", "incident", "degrad"]

def recommendationWords : List String :=
  ["recommend", "suggest", "advise", "best", "prefer", "alternative", "instead", "should we"]

def analysisWords : List String :=
  ["analyze", "analyse", "diagnose", "debug", "inspect", "review", "audit", "compare",
    "trade-off", "plan"]

/-- {lit}`classifyIntent`; the words of a question make no difference. -/
def classifyIntent (toLowerCase : String → String) (request : String) : AgentRequestIntent :=
  let normalized := toLowerCase (trim request)
  if isExecutionPhrase normalized then .EXECUTION
  else if hasWord diagnosticWords normalized then .DIAGNOSTIC
  else if hasWord recommendationWords normalized then .RECOMMENDATION
  else if hasWord analysisWords normalized then .ANALYSIS
  else .QUESTION

/-- A request asks for an execution exactly when one of the markers is in it. -/
theorem classifyIntent_eq_execution_iff {toLowerCase : String → String} {request : String} :
    classifyIntent toLowerCase request = .EXECUTION ↔
      isExecutionPhrase (toLowerCase (trim request)) = true := by
  simp only [classifyIntent]
  split
  case isTrue h => simp [h]
  case isFalse h =>
    simp only [h]
    split_ifs <;> simp

/-! ## Findings -/

/-- {lit}`EvidenceLabel`. -/
inductive EvidenceLabel where
  | VERIFIED
  | INFERRED
  | ASSUMPTION
  | UNVERIFIED
deriving DecidableEq, Repr

/-- {lit}`EvidenceReference`, of which the source is presented. -/
structure EvidenceReference where
  label : EvidenceLabel
  source : String
deriving DecidableEq, Repr

/-- The classification of a {lit}`RiskEntry`. -/
inductive RiskClassification where
  | LOW
  | MEDIUM
  | HIGH
  | CRITICAL
deriving DecidableEq, Repr

def RiskClassification.text : RiskClassification → String
  | .LOW => "LOW"
  | .MEDIUM => "MEDIUM"
  | .HIGH => "HIGH"
  | .CRITICAL => "CRITICAL"

/-- {lit}`RiskEntry`, as far as it is presented. -/
structure RiskEntry where
  classification : RiskClassification
  area : String
  triggerOrEvidence : String
deriving DecidableEq, Repr

/-- {lit}`AnalysisFinding`. -/
structure AnalysisFinding where
  finding : String
  evidence : List EvidenceReference
  benefits : Option (List String) := none
  costsEffort : Option String := none
  risks : Option (List RiskEntry) := none
  technicalImpact : Option String := none
  alternatives : Option (List String) := none
  recommendation : Option String := none
  unknowns : Option (List String) := none
  approvalRequired : Option Bool := none
deriving DecidableEq, Repr

def executionRequest : AnalysisFinding where
  finding := "Execution request detected. The M3 advisory layer does not perform changes."
  evidence := [⟨.VERIFIED, "ELEVA_AGENT_SPEC.md"⟩]
  recommendation :=
    some "Route this request through the existing M2 approval/execution pipeline."
  unknowns := some ["Exact M2 tool mapping is outside M3 advisory scope."]

def groundedFinding : AnalysisFinding where
  finding := "Repository context was supplied for grounding."
  evidence := [⟨.VERIFIED, "provided repositoryFacts"⟩]
  benefits := some ["Reduces unknowns.", "Improves recommendation quality."]
  unknowns := some ["Live runtime state may differ from static repository facts."]

def ungroundedFinding : AnalysisFinding where
  finding := "No repository facts were supplied for grounding."
  evidence := [⟨.UNVERIFIED, "runtime context missing"⟩]
  recommendation :=
    some "Supply repository-verified facts or document this limitation before acting."
  unknowns := some ["Static inspection cannot confirm runtime behavior."]

/-- {lit}`advise`. -/
def advise (toLowerCase : String → String) (request : String)
    (repositoryFacts : Option Properties) : List AnalysisFinding :=
  if classifyIntent toLowerCase request = .EXECUTION then [executionRequest]
  else if repositoryFacts.any fun facts => !facts.isEmpty then [groundedFinding]
  else [ungroundedFinding]

/-- The findings of an advice are those by which the agent decides about a task. -/
theorem advise_agrees (env : TaskEnv) (request : String) (repositoryFacts : Option Properties) :
    (advise env.toLowerCase request repositoryFacts).map (fun finding =>
        (⟨finding.finding, finding.recommendation, finding.approvalRequired⟩ :
          Agent.AnalysisFinding)) =
      Agent.advise env request repositoryFacts := by
  simp only [advise, Agent.advise, classifyIntent_eq_execution_iff]
  split_ifs <;> rfl

/-! ## What is presented -/

/-- An option of a {lit}`PresentationPayload`. -/
structure PresentedOption where
  name : String
  benefits : List String := []
  costsEffort : String := "CANNOT ESTIMATE"
  risks : List String
  operationalImpact : String := "None observed"
deriving DecidableEq, Repr

/-- The {lit}`implementationPlan` of a {lit}`PresentationPayload`; its lists are empty. -/
structure PresentedPlan where
  objective : String
deriving DecidableEq, Repr

/-- {lit}`PresentationPayload`. -/
structure PresentationPayload where
  problem : String
  currentState : Option String := none
  options : Option (List PresentedOption) := none
  benefits : Option (List String) := none
  costs : Option (List String) := none
  risks : Option (List String) := none
  technicalImpact : Option String := none
  recommendation : Option String := none
  implementationPlan : Option PresentedPlan := none
  decisionRequired : Option String := none
deriving DecidableEq, Repr

/-- A text that counts as true. -/
def truthyText (s : Option String) : Option String :=
  s.filter (· != "")

/-- The decision that a finding asks for. -/
def decisionRequired (finding : Option AnalysisFinding) : String :=
  if (finding.bind (·.approvalRequired)).getD false then
    "User approval required before execution."
  else "No approval required for advisory output."

/-- {lit}`buildPresentation`. -/
def buildPresentation : List AnalysisFinding → PresentationPayload
  | [] =>
      { problem := "No analysis available."
        decisionRequired := some "Provide analysis before presenting." }
  | first :: _ =>
      let risks := (first.risks.getD []).map fun risk =>
        risk.classification.text ++ " - " ++ risk.area ++ ": " ++ risk.triggerOrEvidence
      let names := match first.alternatives with
        | some (alternative :: rest) => alternative :: rest
        | _ => ["Current"]
      { problem := first.finding
        currentState := truthyText (some ("; ".intercalate (first.evidence.map (·.source))))
        options := some (names.map fun name => { name := name, risks := risks })
        benefits := first.benefits
        costs := (truthyText first.costsEffort).map fun costs => [costs]
        risks := some risks
        technicalImpact := first.technicalImpact
        recommendation := first.recommendation
        implementationPlan := (truthyText first.recommendation).map PresentedPlan.mk
        decisionRequired := some (decisionRequired (some first)) }

/-- {lit}`VisualExplanationContract`. -/
structure VisualExplanationContract where
  type : String := "workflow"
  description : String
  inputs : List String
  outputs : List String
deriving DecidableEq, Repr

/-- {lit}`buildM2CompatibleTask` for an intent, which is also the input of the task. -/
structure M2CompatibleTask where
  action : AgentRequestIntent
  toolName : String := Agent.safeToolName
  capability : String := "PROJECT_MANAGEMENT"
  requiredPermission : String × String := ("read", "agent")
  risk : String := "LOW"
deriving DecidableEq, Repr

/-! ## Research -/

/-- {lit}`ProjectContext`, as far as it is ranked. -/
structure ProjectContext where
  location : String
  content : String
deriving DecidableEq, Repr

/-- {lit}`ResearchSource`, as far as it becomes evidence, with the score of its context. -/
structure ResearchSource where
  locationOrReference : String
  excerptOrSummary : String
  score : ℚ
deriving DecidableEq, Repr

/-- {lit}`retrieveProjectContext`, for what the resolver finds under the request. -/
def retrieveProjectContext (sourceResolver : String → Option String) (request : String) :
    List ProjectContext :=
  match sourceResolver request with
  | none => []
  | some content => if (trim content).isEmpty then [] else [⟨"repository-context", content⟩]

/-- The characters that {lit}`tokenize` keeps. -/
def isTokenCharacter (c : Char) : Bool :=
  c.isLower || c.isDigit

/-- {lit}`tokenize`. -/
def tokenize (s : String) : List String :=
  (((s.toList.splitBy fun a b => isTokenCharacter a && isTokenCharacter b).filter fun token =>
      token.all isTokenCharacter && 2 < token.length).take 64).map String.ofList

/-- The score of a context in {lit}`rankContext`. -/
def scoreOf (toLowerCase : String → String) (request : String) (context : ProjectContext) : ℚ :=
  let terms := tokenize request
  let haystack := toLowerCase (context.location ++ " " ++ context.content)
  min ((terms.filter (includes haystack)).length / max terms.length 1 : ℚ) 1

/-- The sources of {lit}`executeResearch` without given contexts, of which there is one at most. -/
def executeResearch (toLowerCase : String → String) (sourceResolver : String → Option String)
    (request : String) : List ResearchSource :=
  ((retrieveProjectContext sourceResolver request).map fun context =>
      { locationOrReference := context.location
        excerptOrSummary := String.ofList (context.content.toList.take 4000)
        score := scoreOf toLowerCase request context }).filter fun source =>
    decide ((1 / 4 : ℚ) ≤ source.score)

/-- Research about nothing finds no source, whatever the resolver has. -/
theorem executeResearch_nothing (toLowerCase : String → String)
    (sourceResolver : String → Option String) :
    executeResearch toLowerCase sourceResolver "" = [] := by
  have hterms : tokenize "" = [] := by decide
  have hscore : ∀ context, scoreOf toLowerCase "" context = 0 := by
    intro context
    simp [scoreOf, hterms]
  refine List.filter_eq_nil_iff.mpr fun source hsource => ?_
  rcases List.mem_map.mp hsource with ⟨context, _, rfl⟩
  simp [hscore]

end ElevaOffice
end Eleva
