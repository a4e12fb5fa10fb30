import Mathlib.Data.List.Sort
import Eleva.Foundation.Upserts
import Eleva.Agent.ElevaAdvisory

/-!
# Agent - Memory and conversations

{lit}`ElevaMemoryService` keeps entries, each of a category and with a key, and conversations,
each with its messages.  An entry is remembered under the id of the entry with its category and
key, if there is one.  What the service answers to a message is put together from the entries
that carry the id of the conversation as a tag, in two stretches between which other requests
are handled.

Main results:

- Theorem {lit}`upserted_storable`: what is remembered has a new id, or the identity of the entry
  of its slot.
- Theorems {lit}`appendMessage_entries` and {lit}`appendMessage_conversations`: what a message does
  to the memory and to its conversation.
- Theorem {lit}`messageSlot_ne_responseSlot`: messages and responses are remembered apart.
-/

namespace Eleva
namespace ElevaOffice

open Foundation
open Database (Timestamp)
open Agent (Properties)

/-! ## Entries -/

/-- {lit}`MemoryCategory`. -/
inductive MemoryCategory where
  | PROJECT_CONTEXT
  | USER_PREFERENCE
  | PROJECT_GOAL
  | DECISION
  | DECISION_RATIONALE
  | REJECTED_ALTERNATIVE
  | IMPORTANT_CONVERSATION_CONTEXT
  | EXPLICIT_USER_INSTRUCTION
  | VERIFIED_PROJECT_FACT
deriving DecidableEq, Repr

/-- {lit}`MemoryEvidenceClassification`. -/
inductive MemoryEvidenceClassification where
  | VERIFIED
  | EVIDENCE
  | ASSUMPTION
  | RECOMMENDATION
  | UNKNOWN
deriving DecidableEq, Repr

/-- The confidence of a {lit}`MemoryProvenance`. -/
inductive Confidence where
  | high
  | medium
  | low
deriving DecidableEq, Repr

/-- {lit}`MemoryProvenance`. -/
structure MemoryProvenance where
  source : Option String := none
  location : Option String := none
  retrievedAt : Option Timestamp := none
  evidenceClassification : MemoryEvidenceClassification
  confidence : Option Confidence := none
  limitations : Option (List String) := none
deriving DecidableEq, Repr

/-- {lit}`MemoryUpsertInput`. -/
structure MemoryUpsertInput where
  category : MemoryCategory
  key : String
  value : String
  provenance : MemoryProvenance
  conversationId : Option String := none
  tags : Option (List String) := none
deriving DecidableEq, Repr

/-- {lit}`MemoryEntry`. -/
structure MemoryEntry extends MemoryUpsertInput where
  id : String
  createdAt : Timestamp
  updatedAt : Timestamp
deriving DecidableEq, Repr

/-- A category and a key: what an entry is found by. -/
abbrev Slot := MemoryCategory × String

/-- Where an input is remembered. -/
def MemoryUpsertInput.slot (input : MemoryUpsertInput) : Slot :=
  (input.category, input.key)

/-- Whether an input carries a tag. -/
def MemoryUpsertInput.tagged (tag : String) (input : MemoryUpsertInput) : Bool :=
  (input.tags.getD []).contains tag

/-- What the code reads of the clock and draws as ids while nothing else runs, in order. -/
structure Moment where
  clock : ℕ → Timestamp
  ids : ℕ → String

/-- What is left of a moment. -/
def Moment.after (readings drawn : ℕ) (m : Moment) : Moment where
  clock i := m.clock (readings + i)
  ids i := m.ids (drawn + i)

/-- {lit}`findByCategoryAndKey`. -/
def findByCategoryAndKey (category : MemoryCategory) (key : String) (entries : List MemoryEntry) :
    Option MemoryEntry :=
  entries.find? fun entry => entry.category == category && entry.key == key

/-- The entry that {lit}`remember` stores. -/
def upserted (m : Moment) (input : MemoryUpsertInput) (entries : List MemoryEntry) : MemoryEntry :=
  let existing := findByCategoryAndKey input.category input.key entries
  { input with
    id := (existing.map (·.id)).getD (m.ids 0)
    createdAt := (existing.map (·.createdAt)).getD (m.clock 0)
    updatedAt := m.clock 1 }

/-- {lit}`recall`: the entries that pass the filters, the latest update first. -/
def recallEntries (category : Option MemoryCategory) (tag : Option String)
    (entries : List MemoryEntry) : List MemoryEntry :=
  (entries.filter fun entry =>
      (category.all fun category => entry.category == category) &&
        ((truthyText tag).all fun tag => entry.tagged tag)).insertionSort
    fun a b => b.updatedAt ≤ a.updatedAt

/-! ## Conversations -/

/-- The role of a {lit}`ConversationMessage`. -/
inductive ConversationRole where
  | user
  | eleva
deriving DecidableEq, Repr

/-- What a {lit}`ConversationMessage` says, apart from its id and time. -/
structure MessageBody where
  role : ConversationRole
  content : String
  evidenceClassification : Option MemoryEvidenceClassification := none
  reasoning : Option String := none
  alternatives : Option (List String) := none
deriving DecidableEq, Repr

/-- {lit}`ConversationMessage`. -/
structure ConversationMessage extends MessageBody where
  id : String
  createdAt : Timestamp
deriving DecidableEq, Repr

/-- {lit}`ConversationContext`. -/
structure ConversationContext where
  conversationId : String
  messages : List ConversationMessage
  memoryKeys : List String
  createdAt : Timestamp
  updatedAt : Timestamp
deriving DecidableEq, Repr

/-- {lit}`ElevaMemoryService`: the entries in the order in which their ids were first set, and
the conversations. -/
structure MemoryState where
  entries : List MemoryEntry := []
  conversations : String → Option ConversationContext := fun _ => none

/-- {lit}`this.entries.set(entry.id, entry)`. -/
def MemoryState.store (entry : MemoryEntry) (s : MemoryState) : MemoryState :=
  { s with entries := setById (·.id) entry s.entries }

/-- {lit}`this.conversations.set(conversationId, context)`. -/
def MemoryState.keep (conversationId : String) (context : ConversationContext) (s : MemoryState) :
    MemoryState :=
  { s with conversations := Function.update s.conversations conversationId (some context) }

/-- {lit}`remember`, without the audit log. -/
def remember (m : Moment) (input : MemoryUpsertInput) (s : MemoryState) :
    MemoryEntry × MemoryState :=
  (upserted m input s.entries, s.store (upserted m input s.entries))

/-- {lit}`startConversation`, without the audit log. -/
def startConversation (m : Moment) (conversationId : String) (initialMemoryKeys : List String)
    (s : MemoryState) : ConversationContext × MemoryState :=
  let context : ConversationContext :=
    { conversationId := conversationId
      messages := []
      memoryKeys := initialMemoryKeys.eraseDups
      createdAt := m.clock 0
      updatedAt := m.clock 1 }
  (context, s.keep conversationId context)

/-- {lit}`getConversation`. -/
def getConversation (conversationId : String) (s : MemoryState) : Option ConversationContext :=
  s.conversations conversationId

/-- The key under which a message of a conversation is remembered. -/
def lastUserMessageKey (conversationId : String) : String :=
  "conversation:" ++ conversationId ++ ":last-user-message"

/-- The key under which a response of a conversation is remembered. -/
def lastResponseKey (conversationId : String) : String :=
  "conversation:" ++ conversationId ++ ":last-response"

/-- What a conversation remembers of itself. -/
def conversationInput (m : Moment) (conversationId key value : String)
    (classification : MemoryEvidenceClassification) : MemoryUpsertInput where
  category := .IMPORTANT_CONVERSATION_CONTEXT
  key := key
  value := value
  provenance :=
    { evidenceClassification := classification
      source := some "conversation"
      retrievedAt := some (m.clock 0) }
  conversationId := some conversationId
  tags := some ["conversation", conversationId]

/-- A message with its id and time. -/
def MessageBody.at (m : Moment) (message : MessageBody) : ConversationMessage :=
  { message with id := m.ids 0, createdAt := m.clock 0 }

/-- Whether {lit}`appendMessage` remembers the message: the first one of the user. -/
def remembersMessage (conversationId : String) (message : MessageBody)
    (context : ConversationContext) : Bool :=
  message.role == .user && !context.memoryKeys.contains (lastUserMessageKey conversationId)

/-- {lit}`appendMessage`, without the audit log. -/
def appendMessage (m : Moment) (conversationId : String) (message : MessageBody)
    (s : MemoryState) : Option ConversationContext × MemoryState :=
  match s.conversations conversationId with
  | none => (none, s)
  | some context =>
      let context' :=
        { context with
          messages := context.messages ++ [message.at m]
          updatedAt := m.clock 1 }
      if remembersMessage conversationId message context then
        let context'' :=
          { context' with
            memoryKeys := context.memoryKeys ++ [lastUserMessageKey conversationId] }
        let input := conversationInput (m.after 2 1) conversationId
          (lastUserMessageKey conversationId) message.content .VERIFIED
        (some context'', (remember (m.after 3 1) input (s.keep conversationId context'')).2)
      else (some context', s.keep conversationId context')

/-! ## Responses -/

/-- The label of a piece of evidence: that of an entry, or that of a source. -/
inductive ItemLabel where
  | memory (classification : MemoryEvidenceClassification)
  | research (label : EvidenceLabel)
deriving DecidableEq, Repr

/-- A piece of evidence, as far as it is labelled. -/
structure EvidenceItem where
  label : ItemLabel
  detail : String
deriving DecidableEq, Repr

/-- The {lit}`labels` of an {lit}`AdvisoryResponse`. -/
structure ResponseLabels where
  facts : List String
  evidence : List String
  assumptions : List String
  recommendations : List String
  unknowns : List String
deriving DecidableEq, Repr

/-- {lit}`AdvisoryResponse`. -/
structure AdvisoryResponse where
  message : String
  labels : ResponseLabels
  alternatives : Option (List String)
  decisionRequired : String
  presentation : PresentationPayload
  visualExplanation : Option VisualExplanationContract
  m2Task : M2CompatibleTask
deriving DecidableEq, Repr

/-- What a response rests on besides the memory: lower case, and where the research service
looks for sources. -/
structure OfficeEnv where
  toLowerCase : String → String
  sourceResolver : String → Option String

/-- {lit}`Object.fromEntries`. -/
def fromEntries (properties : List (String × String)) : Properties :=
  properties.foldl (fun object property => setById Prod.fst (property.1, .string property.2) object)
    []

/-- {lit}`buildRepositoryFacts`. -/
def buildRepositoryFacts (explicitFacts : Option Properties) (memorySnapshot : List MemoryEntry) :
    Properties :=
  match explicitFacts with
  | some facts => facts
  | none => fromEntries ((memorySnapshot.take 10).map fun entry => (entry.key, entry.value))

/-- {lit}`buildEvidence`. -/
def buildEvidence (env : OfficeEnv) (memorySnapshot : List MemoryEntry) : List EvidenceItem :=
  memorySnapshot.map (fun entry =>
      ⟨.memory entry.provenance.evidenceClassification, entry.value⟩) ++
    (executeResearch env.toLowerCase env.sourceResolver "").map fun source =>
      ⟨.research .VERIFIED, source.excerptOrSummary⟩

/-- The details of the evidence with one of the labels. -/
def detailsWith (labels : List ItemLabel) (evidence : List EvidenceItem) : List String :=
  (evidence.filter fun item => item.detail != "" && labels.contains item.label).map (·.detail)

/-- A set of texts in the order of insertion, cut off after twenty. -/
def labelList (texts : List String) : List String :=
  texts.eraseDups.take 20

/-- {lit}`extractLabels`. -/
def extractLabels (findings : List AnalysisFinding) (evidence : List EvidenceItem) :
    ResponseLabels where
  facts := labelList (findings.filterMap (fun finding => truthyText (some finding.finding)) ++
    detailsWith [.memory .VERIFIED] evidence)
  evidence := labelList (detailsWith
    [.memory .VERIFIED, .memory .EVIDENCE, .research .VERIFIED, .research .INFERRED,
      .research .ASSUMPTION, .research .UNVERIFIED] evidence)
  assumptions := labelList (detailsWith [.memory .ASSUMPTION] evidence)
  recommendations := labelList (
    findings.filterMap (fun finding => truthyText finding.recommendation) ++
      detailsWith [.memory .RECOMMENDATION] evidence)
  unknowns := labelList (findings.flatMap (fun finding => finding.unknowns.getD []) ++
    detailsWith [.memory .UNKNOWN] evidence)

/-- The message of a response. -/
def messageOf (labels : ResponseLabels) : String :=
  ((truthyText labels.recommendations.head?).or ((truthyText labels.facts.head?).or
    (truthyText labels.evidence.head?))).getD
      "I do not have enough evidence to answer that yet."

/-- What {lit}`respondToConversation` holds while it waits for the advice. -/
structure Frame where
  conversationId : String
  userMessage : String
  memorySnapshot : List MemoryEntry
  repositoryFacts : Properties

/-- The entries that a response takes into account. -/
def memorySnapshotOf (conversationId : String) (entries : List MemoryEntry) : List MemoryEntry :=
  (recallEntries none (some conversationId) entries).take 20

/-- {lit}`respondToConversation`, up to where it waits for the first time. -/
def takeUp (m : Moment) (conversationId userMessage : String) (repositoryFacts : Option Properties)
    (s : MemoryState) : Except String Frame × MemoryState :=
  match getConversation conversationId s with
  | none => (.error ("Conversation not found: " ++ conversationId), s)
  | some _ =>
      let s' := (appendMessage m conversationId { role := .user, content := userMessage } s).2
      let memorySnapshot := memorySnapshotOf conversationId s'.entries
      (.ok
        { conversationId := conversationId
          userMessage := userMessage
          memorySnapshot := memorySnapshot
          repositoryFacts := buildRepositoryFacts repositoryFacts memorySnapshot }, s')

/-- The response that {lit}`respondToConversation` puts together. -/
def Frame.response (env : OfficeEnv) (frame : Frame) : AdvisoryResponse :=
  let findings := advise env.toLowerCase frame.userMessage (some frame.repositoryFacts)
  let labels := extractLabels findings (buildEvidence env frame.memorySnapshot)
  { message := messageOf labels
    labels := labels
    alternatives := findings.head?.bind (·.alternatives)
    decisionRequired := decisionRequired findings.head?
    presentation := buildPresentation findings
    visualExplanation := if findings.isEmpty then none else some
      { description := "ELEVA response workflow for the current request."
        inputs := ["request", "repositoryFacts"]
        outputs := ["advisory-response", "evidence"] }
    m2Task := { action := classifyIntent env.toLowerCase frame.userMessage } }

/-- How the service classifies its own message. -/
def ResponseLabels.classification (labels : ResponseLabels) : MemoryEvidenceClassification :=
  if !labels.facts.isEmpty then .VERIFIED
  else if !labels.unknowns.isEmpty then .UNKNOWN
  else .RECOMMENDATION

/-- The message that a response becomes. -/
def AdvisoryResponse.body (response : AdvisoryResponse) : MessageBody where
  role := .eleva
  content := response.message
  evidenceClassification := some response.labels.classification
  reasoning := truthyText (some ("\n".intercalate response.labels.evidence))
  alternatives := response.alternatives

/-- {lit}`respondToConversation`, from where it has the advice. -/
def conclude (env : OfficeEnv) (m : Moment) (frame : Frame) (s : MemoryState) :
    AdvisoryResponse × MemoryState :=
  let response := frame.response env
  let s' := (appendMessage m frame.conversationId response.body s).2
  let input := conversationInput (m.after 2 1) frame.conversationId
    (lastResponseKey frame.conversationId) response.message .RECOMMENDATION
  (response, (remember (m.after 3 1) input s').2)

/-! ## What an upsert does -/

/-- No two entries share an id, and no two share a slot. -/
abbrev Sound (entries : List MemoryEntry) : Prop :=
  Unambiguous (fun entry : MemoryEntry => entry.id) (fun entry => entry.slot) entries

/-- No entry has an id that is drawn. -/
def Fresh (m : Moment) (entries : List MemoryEntry) : Prop :=
  ∀ i, m.ids i ∉ entries.map (·.id)

theorem Fresh.after {m : Moment} {entries : List MemoryEntry} (h : Fresh m entries)
    (readings drawn : ℕ) : Fresh (m.after readings drawn) entries :=
  fun i => h (drawn + i)

/-- What a slot holds. -/
def held (slot : Slot) (entries : List MemoryEntry) : Option MemoryEntry :=
  entries.find? fun entry => entry.slot == slot

theorem held_eq_some {slot : Slot} {entry : MemoryEntry} {entries : List MemoryEntry}
    (h : held slot entries = some entry) : entry ∈ entries ∧ entry.slot = slot := by
  have hslot := List.find?_some h
  exact ⟨List.mem_of_find?_eq_some h, beq_iff_eq.mp hslot⟩

/-- An entry is what its slot holds. -/
theorem held_of_mem {entry : MemoryEntry} {entries : List MemoryEntry} (hsound : Sound entries)
    (hentry : entry ∈ entries) : held entry.slot entries = some entry :=
  (find?_iff_of_unique fun _ hx _ hy hxs hys => List.inj_on_of_nodup_map hsound.keys hx hy
    ((beq_iff_eq.mp hxs).trans (beq_iff_eq.mp hys).symm)).mpr ⟨hentry, beq_self_eq_true _⟩

theorem held_append (slot : Slot) (entries later : List MemoryEntry) :
    held slot (entries ++ later) = (held slot entries).or (held slot later) :=
  List.find?_append

theorem findByCategoryAndKey_eq (category : MemoryCategory) (key : String)
    (entries : List MemoryEntry) :
    findByCategoryAndKey category key entries = held (category, key) entries :=
  rfl

/-- What stays of an entry for good. -/
def MemoryEntry.identity (entry : MemoryEntry) : String × Slot × Timestamp :=
  (entry.id, entry.slot, entry.createdAt)

/-- An entry that may be stored: under a new id, or over the entry of its slot, whose identity it
has. -/
structure Storable (entry : MemoryEntry) (entries : List MemoryEntry) : Prop where
  fits : Fits (fun entry : MemoryEntry => entry.id) (fun entry => entry.slot) entry entries
  identity : ∀ y ∈ entries, y.id = entry.id → y.identity = entry.identity

section Stored

variable {entry : MemoryEntry} {entries : List MemoryEntry}

theorem Storable.held_set (h : Storable entry entries) (hsound : Sound entries) (slot : Slot) :
    held slot (setById (·.id) entry entries) =
      if entry.slot == slot then some entry else held slot entries :=
  find_setById hsound h.fits slot

theorem Storable.held_self (h : Storable entry entries) (hsound : Sound entries) :
    held entry.slot (setById (·.id) entry entries) = some entry := by
  rw [h.held_set hsound, beq_self_eq_true, if_pos rfl]

theorem Storable.held_of_ne (h : Storable entry entries) (hsound : Sound entries) {slot : Slot}
    (hne : entry.slot ≠ slot) : held slot (setById (·.id) entry entries) = held slot entries := by
  rw [h.held_set hsound, if_neg fun heq => hne (beq_iff_eq.mp heq)]

end Stored

/-- What is remembered may be stored. -/
theorem upserted_storable {m : Moment} {entries : List MemoryEntry} (hsound : Sound entries)
    (hfresh : Fresh m entries) (input : MemoryUpsertInput) :
    Storable (upserted m input entries) entries := by
  cases hfind : findByCategoryAndKey input.category input.key entries with
  | some existing =>
      rcases held_eq_some ((findByCategoryAndKey_eq _ _ _).symm.trans hfind) with ⟨hmem, hexisting⟩
      have hslot : input.slot = existing.slot := hexisting.symm
      have hid : (upserted m input entries).id = existing.id := by simp [upserted, hfind]
      refine ⟨hsound.fits_of_mem hmem hid hslot, fun y hy hyid => ?_⟩
      have hsame : y = existing :=
        List.inj_on_of_nodup_map hsound.ids hy hmem (hyid.trans hid)
      have hcreated : (upserted m input entries).createdAt = existing.createdAt := by
        simp [upserted, hfind]
      rw [hsame]
      exact Prod.ext hid.symm (Prod.ext hslot.symm hcreated.symm)
  | none =>
      have hid : (upserted m input entries).id = m.ids 0 := by simp [upserted, hfind]
      have hnew : (upserted m input entries).id ∉ entries.map (·.id) := hid ▸ hfresh 0
      refine ⟨fits_of_new hnew fun hslot => ?_, fun y hy hyid => ?_⟩
      · rcases List.mem_map.mp hslot with ⟨y, hy, hyslot⟩
        rw [findByCategoryAndKey_eq] at hfind
        exact List.find?_eq_none.mp hfind y hy (beq_iff_eq.mpr hyslot)
      · exact absurd (hyid ▸ List.mem_map_of_mem hy) hnew

/-- What is remembered has the id of an entry or the first that is drawn. -/
theorem upserted_id (m : Moment) (input : MemoryUpsertInput) (entries : List MemoryEntry) :
    (upserted m input entries).id ∈ entries.map (·.id) ∨
      (upserted m input entries).id = m.ids 0 := by
  cases hfind : findByCategoryAndKey input.category input.key entries with
  | some existing =>
      have hmem := (held_eq_some ((findByCategoryAndKey_eq _ _ _).symm.trans hfind)).1
      left
      simpa [upserted, hfind] using List.mem_map_of_mem (f := (·.id)) hmem
  | none =>
      right
      simp [upserted, hfind]

/-- An upsert sees nothing of the memory but the entry of its slot. -/
theorem upserted_congr {m : Moment} {input : MemoryUpsertInput}
    {entries entries' : List MemoryEntry}
    (h : held input.slot entries = held input.slot entries') :
    upserted m input entries = upserted m input entries' := by
  have hfind : findByCategoryAndKey input.category input.key entries =
      findByCategoryAndKey input.category input.key entries' := h
  simp only [upserted, hfind]

/-! ## The slots of a conversation -/

/-- Where a conversation remembers a message of the user. -/
def messageSlot (conversationId : String) : Slot :=
  (.IMPORTANT_CONVERSATION_CONTEXT, lastUserMessageKey conversationId)

/-- Where it remembers a response. -/
def responseSlot (conversationId : String) : Slot :=
  (.IMPORTANT_CONVERSATION_CONTEXT, lastResponseKey conversationId)

theorem messageSlot_injective : Function.Injective messageSlot := by
  intro c d h
  have hkeys : (lastUserMessageKey c).toList = (lastUserMessageKey d).toList :=
    congrArg (fun slot : Slot => slot.2.toList) h
  simp only [lastUserMessageKey, String.toList_append, List.append_assoc] at hkeys
  exact String.toList_injective (List.append_cancel_right (List.append_cancel_left hkeys))

theorem responseSlot_injective : Function.Injective responseSlot := by
  intro c d h
  have hkeys : (lastResponseKey c).toList = (lastResponseKey d).toList :=
    congrArg (fun slot : Slot => slot.2.toList) h
  simp only [lastResponseKey, String.toList_append, List.append_assoc] at hkeys
  exact String.toList_injective (List.append_cancel_right (List.append_cancel_left hkeys))

/-- No message is remembered where a response is: the keys end differently. -/
theorem messageSlot_ne_responseSlot (c d : String) : messageSlot c ≠ responseSlot d := by
  intro h
  have hkeys := congrArg (fun slot : Slot => slot.2.toList.reverse) h
  simp [messageSlot, responseSlot, lastUserMessageKey, lastResponseKey] at hkeys

/-! ## What a message does -/

/-- The entry that {lit}`appendMessage` stores, if any. -/
def messageEntry (m : Moment) (conversationId : String) (message : MessageBody)
    (s : MemoryState) : Option MemoryEntry :=
  ((s.conversations conversationId).filter (remembersMessage conversationId message)).map fun _ =>
    upserted (m.after 3 1) (conversationInput (m.after 2 1) conversationId
      (lastUserMessageKey conversationId) message.content .VERIFIED) s.entries

/-- The memory after something was stored, or nothing. -/
def storing (entry : Option MemoryEntry) (entries : List MemoryEntry) : List MemoryEntry :=
  entry.elim entries fun entry => setById (·.id) entry entries

@[simp]
theorem storing_none (entries : List MemoryEntry) : storing none entries = entries :=
  rfl

@[simp]
theorem storing_some (entry : MemoryEntry) (entries : List MemoryEntry) :
    storing (some entry) entries = setById (·.id) entry entries :=
  rfl

theorem appendMessage_entries (m : Moment) (conversationId : String) (message : MessageBody)
    (s : MemoryState) :
    (appendMessage m conversationId message s).2.entries =
      storing (messageEntry m conversationId message s) s.entries := by
  cases hcontext : s.conversations conversationId with
  | none => simp [appendMessage, messageEntry, hcontext]
  | some context =>
      by_cases hfirst : remembersMessage conversationId message context = true
      · simp [appendMessage, messageEntry, hcontext, hfirst, Option.filter, remember,
          MemoryState.store, MemoryState.keep]
      · simp [appendMessage, messageEntry, hcontext, hfirst, Option.filter, MemoryState.keep]

/-- A conversation with one more message. -/
def ConversationContext.append (m : Moment) (conversationId : String) (message : MessageBody)
    (context : ConversationContext) : ConversationContext :=
  { context with
    messages := context.messages ++ [message.at m]
    memoryKeys := if remembersMessage conversationId message context then
        context.memoryKeys ++ [lastUserMessageKey conversationId]
      else context.memoryKeys
    updatedAt := m.clock 1 }

theorem appendMessage_conversations (m : Moment) (conversationId : String) (message : MessageBody)
    (s : MemoryState) :
    (appendMessage m conversationId message s).2.conversations =
      Function.update s.conversations conversationId
        ((s.conversations conversationId).map (·.append m conversationId message)) := by
  cases hcontext : s.conversations conversationId with
  | none =>
      rw [Option.map_none, ← hcontext, Function.update_eq_self]
      simp only [appendMessage, hcontext]
  | some context =>
      by_cases hfirst : remembersMessage conversationId message context = true
      · simp [appendMessage, hcontext, hfirst, remember, MemoryState.store, MemoryState.keep,
          ConversationContext.append]
      · simp [appendMessage, hcontext, hfirst, MemoryState.keep, ConversationContext.append]

/-- The service's own messages are not remembered. -/
theorem messageEntry_of_eleva {m : Moment} {conversationId : String} {message : MessageBody}
    {s : MemoryState} (h : message.role = .eleva) :
    messageEntry m conversationId message s = none := by
  simp [messageEntry, remembersMessage, h, Option.filter_eq_none_iff]

end ElevaOffice
end Eleva
