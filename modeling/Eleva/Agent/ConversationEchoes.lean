import Eleva.Agent.Conversations

/-!
# Agent - What a conversation replies

A conversation of which nothing else is remembered has two entries: a message of the user and
the response that was finished last.  The advice recommends something for a request to execute
only, and a remembered response counts as a recommendation.  So the conversation replies what
it replied before, until it is asked to execute something.

This is said by a machine that keeps no texts at all: it holds the last reply, one of two, and
whether the conversation was started.

Main results:

- Theorem {lit}`Frame.response_message`: the reply to a message, from what is remembered when it
  is taken up.
- Theorem {lit}`conversation_echoes`: in every interleaving of requests, of which none else
  remembers anything of the conversation, its callers get what the machine with two replies
  gives them.
-/

namespace Eleva
namespace ElevaOffice

open Foundation
open Agent (Properties isExecutionPhrase)

/-! ## Two replies -/

/-- What a conversation replies. -/
inductive Reply where
  | routed
  | grounded
deriving DecidableEq, Repr

def Reply.text : Reply → String
  | .routed => "Route this request through the existing M2 approval/execution pipeline."
  | .grounded => "Repository context was supplied for grounding."

@[simp]
theorem truthyText_text (reply : Reply) : truthyText (some reply.text) = some reply.text := by
  cases reply <;> decide +kernel

/-- A conversation, as far as its replies go. -/
structure Echo where
  started : Bool := false
  last : Option Reply := none
deriving DecidableEq, Repr

/-- The reply to a message: the last one again, unless something is to be executed. -/
def Echo.replyTo (toLowerCase : String → String) (userMessage : String) (e : Echo) : Reply :=
  if isExecutionPhrase (toLowerCase (trim userMessage)) then .routed
  else e.last.getD .grounded

/-- How far a request has come, as far as the conversation goes. -/
inductive EchoPhase where
  | waiting (request : OfficeRequest)
  | pending (reply : Reply)
  | replied (reply : Reply)
  | refused
  | elsewhere

/-- The conversation {lit}`c` among the requests. -/
def echo (ι : Type) (toLowerCase : String → String) (c : String) :
    CallSystem ι Moment Echo EchoPhase where
  next _ _ e
    | .waiting (.startConversation conversationId _) =>
        ({ e with started := e.started || conversationId == c }, .elsewhere)
    | .waiting (.respond conversationId userMessage _) =>
        if conversationId = c then
          (e, if e.started then .pending (e.replyTo toLowerCase userMessage) else .refused)
        else (e, .elsewhere)
    | .waiting _ => (e, .elsewhere)
    | .pending reply => ({ e with last := some reply }, .replied reply)
    | phase => (e, phase)

/-- What the caller gets of the machine. -/
def EchoPhase.outcome (c : String) : EchoPhase → Option (Except String String)
  | .replied reply => some (.ok reply.text)
  | .refused => some (.error ("Conversation not found: " ++ c))
  | _ => none

/-! ## What a conversation remembers -/

/-- An entry as a response reads it. -/
def MemoryEntry.reading (c : String) (entry : MemoryEntry) :
    Bool × MemoryEvidenceClassification × String :=
  (entry.tagged c, entry.provenance.evidenceClassification, entry.value)

/-- The memory and the conversations, when the machine is in a state. -/
structure Echoes (c : String) (e : Echo) (s : MemoryState) : Prop where
  sound : Sound s.entries
  started : e.started = (s.conversations c).isSome
  remembered : ∀ context, s.conversations c = some context →
    lastUserMessageKey c ∈ context.memoryKeys → (held (messageSlot c) s.entries).isSome
  message : ∀ entry, held (messageSlot c) s.entries = some entry →
    entry.tagged c = true ∧ entry.provenance.evidenceClassification = .VERIFIED
  response : (held (responseSlot c) s.entries).map (·.reading c) =
    e.last.map fun reply => (true, .RECOMMENDATION, reply.text)
  slots : ∀ entry ∈ s.entries, entry.tagged c = true →
    entry.slot = messageSlot c ∨ entry.slot = responseSlot c

/-- What is held after something was stored. -/
theorem held_storing {w : Option MemoryEntry} {entries : List MemoryEntry}
    (hsound : Sound entries) (hw : ∀ entry, w = some entry → Storable entry entries) (slot : Slot) :
    held slot (storing w entries) =
      (w.filter fun entry => entry.slot == slot).or (held slot entries) :=
  (storing_keeps hsound hw).2.2 slot

/-- An entry of something else. -/
structure Foreign (c : String) (entry : MemoryEntry) : Prop where
  untagged : entry.tagged c = false
  message : entry.slot ≠ messageSlot c
  response : entry.slot ≠ responseSlot c

/-- What others store changes nothing. -/
theorem Echoes.of_foreign {c : String} {e : Echo} {s s' : MemoryState} (h : Echoes c e s)
    {w : Option MemoryEntry} (hentries : s'.entries = storing w s.entries)
    (hw : ∀ entry, w = some entry → Storable entry s.entries)
    (hforeign : ∀ entry, w = some entry → Foreign c entry)
    (hsame : s'.conversations c = s.conversations c) : Echoes c e s' := by
  have hheld : ∀ slot, slot = messageSlot c ∨ slot = responseSlot c →
      held slot s'.entries = held slot s.entries := by
    intro slot hslot
    rw [hentries, held_storing h.sound hw]
    have hnone : (w.filter fun entry => entry.slot == slot) = none := by
      refine Option.filter_eq_none_iff.mpr fun entry hentry => ?_
      have hother := hforeign entry hentry
      rcases hslot with rfl | rfl
      · simpa using hother.message
      · simpa using hother.response
    rw [hnone, Option.none_or]
  refine ⟨hentries ▸ (storing_keeps h.sound hw).1, ?_, ?_, ?_, ?_, ?_⟩
  · rw [hsame]
    exact h.started
  · rw [hsame, hheld _ (Or.inl rfl)]
    exact h.remembered
  · rw [hheld _ (Or.inl rfl)]
    exact h.message
  · rw [hheld _ (Or.inr rfl)]
    exact h.response
  · intro entry hentry htagged
    rcases mem_storing (hentries ▸ hentry) with hstored | hold
    · rw [(hforeign entry hstored).untagged] at htagged
      cases htagged
    · exact h.slots entry hold htagged

/-! ## What a response is made of -/

theorem head_labelList (texts : List String) : (labelList texts).head? = texts.head? := by
  cases texts with
  | nil => rfl
  | cons text rest => simp [labelList, List.eraseDups_cons]

theorem fromEntries_ne_nil {properties : List (String × String)} (h : properties ≠ []) :
    fromEntries properties ≠ [] := by
  have hkeep : ∀ (rest : List (String × String)) (object : Properties), object ≠ [] →
      rest.foldl (fun object property =>
        setById Prod.fst (property.1, .string property.2) object) object ≠ [] := by
    intro rest
    induction rest with
    | nil => exact fun object hobject => hobject
    | cons property rest ih =>
        intro object _
        exact ih _ (setById_ne_nil _ _ _)
  cases properties with
  | nil => exact absurd rfl h
  | cons property rest => exact hkeep rest _ (setById_ne_nil _ _ _)

/-- The details of the evidence with one label. -/
theorem mem_detailsWith {env : OfficeEnv} {snapshot : List MemoryEntry}
    {k : MemoryEvidenceClassification} {text : String} :
    text ∈ detailsWith [.memory k] (buildEvidence env snapshot) ↔
      ∃ entry ∈ snapshot, entry.provenance.evidenceClassification = k ∧ entry.value ≠ "" ∧
        entry.value = text := by
  simp only [detailsWith, buildEvidence, executeResearch_nothing, List.map_nil, List.append_nil,
    List.mem_map, List.mem_filter]
  constructor
  · rintro ⟨_, ⟨⟨entry, hentry, rfl⟩, hlabel⟩, rfl⟩
    simp only [List.contains_cons, List.contains_nil, Bool.or_false, Bool.and_eq_true,
      bne_iff_ne, beq_iff_eq, ItemLabel.memory.injEq] at hlabel
    exact ⟨entry, hentry, hlabel.2, hlabel.1, rfl⟩
  · rintro ⟨entry, hentry, hk, hvalue, rfl⟩
    exact ⟨_, ⟨⟨entry, hentry, rfl⟩, by simp [hk, hvalue]⟩, rfl⟩

theorem head_of_all {texts : List String} {text : String} (hall : ∀ t ∈ texts, t = text)
    (hmem : text ∈ texts) : texts.head? = some text := by
  cases texts with
  | nil => cases hmem
  | cons t rest => rw [List.head?_cons, hall t List.mem_cons_self]

/-! ## The response to a message -/

section Response

variable {c : String} {e : Echo} {s : MemoryState}

/-- The entries that carry the tag of the conversation are those of its two slots. -/
theorem Echoes.mem_snapshot (h : Echoes c e s) (hname : c ≠ "") {entry : MemoryEntry} :
    entry ∈ memorySnapshotOf c s.entries ↔ entry ∈ s.entries ∧ entry.tagged c = true := by
  have hrecalled : ∀ entry, entry ∈ recallEntries none (some c) s.entries ↔
      entry ∈ s.entries ∧ entry.tagged c = true := by
    intro entry
    simp [recallEntries, truthyText, hname]
  have hnodup : ((recallEntries none (some c) s.entries).map (·.slot)).Nodup := by
    have hperm := List.perm_insertionSort (fun a b : MemoryEntry => b.updatedAt ≤ a.updatedAt)
      (s.entries.filter fun entry =>
        ((none : Option MemoryCategory).all fun category => entry.category == category) &&
          ((truthyText (some c)).all fun tag => entry.tagged tag))
    exact (hperm.map _).nodup_iff.mpr (h.sound.keys.sublist (List.filter_sublist.map _))
  have hlength : (recallEntries none (some c) s.entries).length ≤ 2 := by
    have hsub : (recallEntries none (some c) s.entries).map (·.slot) ⊆
        [messageSlot c, responseSlot c] := by
      intro slot hslot
      rcases List.mem_map.mp hslot with ⟨entry, hentry, rfl⟩
      rcases (hrecalled entry).mp hentry with ⟨hmem, htagged⟩
      simpa using h.slots entry hmem htagged
    simpa using (hnodup.subperm hsub).length_le
  rw [memorySnapshotOf, List.take_of_length_le (by omega)]
  exact hrecalled entry

/-- What is recommended by the memory is the last reply. -/
theorem Echoes.head_recommendations (h : Echoes c e s) (hname : c ≠ "") (env : OfficeEnv) :
    (detailsWith [.memory .RECOMMENDATION]
      (buildEvidence env (memorySnapshotOf c s.entries))).head? = e.last.map Reply.text := by
  have hread : ∀ entry ∈ memorySnapshotOf c s.entries,
      entry.provenance.evidenceClassification = .RECOMMENDATION →
        held (responseSlot c) s.entries = some entry := by
    intro entry hentry hlabel
    rcases (h.mem_snapshot hname).mp hentry with ⟨hmem, htagged⟩
    have hheld := held_of_mem h.sound hmem
    rcases h.slots entry hmem htagged with hslot | hslot
    · rw [hslot] at hheld
      rw [(h.message entry hheld).2] at hlabel
      cases hlabel
    · rwa [hslot] at hheld
  have hresponse := h.response
  cases hlast : e.last with
  | none =>
      rw [hlast, Option.map_none, Option.map_eq_none_iff] at hresponse
      rw [Option.map_none, List.head?_eq_none_iff, List.eq_nil_iff_forall_not_mem]
      intro text htext
      rcases mem_detailsWith.mp htext with ⟨entry, hentry, hlabel, _, _⟩
      rw [hread entry hentry hlabel] at hresponse
      cases hresponse
  | some reply =>
      rw [hlast] at hresponse
      rcases Option.map_eq_some_iff.mp hresponse with ⟨entry, hheld, hreading⟩
      simp only [MemoryEntry.reading, Prod.mk.injEq] at hreading
      rcases hreading with ⟨htagged, hlabel, hvalue⟩
      refine head_of_all (fun text htext => ?_) ?_
      · rcases mem_detailsWith.mp htext with ⟨other, hother, hotherLabel, _, rfl⟩
        have hsame := (hread other hother hotherLabel).symm.trans hheld
        rw [Option.some.inj hsame, hvalue]
      · refine mem_detailsWith.mpr ⟨entry, ?_, hlabel, ?_, hvalue⟩
        · exact (h.mem_snapshot hname).mpr ⟨(held_eq_some hheld).1, htagged⟩
        · intro hempty
          have htruthy := truthyText_text reply
          rw [← hvalue, hempty] at htruthy
          cases htruthy

/-- The reply to a message, from what is remembered when it is taken up. -/
theorem Frame.response_message (h : Echoes c e s) (hname : c ≠ "") (env : OfficeEnv)
    (hremembered : (held (messageSlot c) s.entries).isSome) (userMessage : String) :
    (Frame.response env
      { conversationId := c
        userMessage := userMessage
        memorySnapshot := memorySnapshotOf c s.entries
        repositoryFacts := buildRepositoryFacts none (memorySnapshotOf c s.entries) }).message =
      (e.replyTo env.toLowerCase userMessage).text := by
  have hfacts : buildRepositoryFacts none (memorySnapshotOf c s.entries) ≠ [] := by
    rcases Option.isSome_iff_exists.mp hremembered with ⟨entry, hentry⟩
    have hmem := (h.mem_snapshot hname).mpr ⟨(held_eq_some hentry).1, (h.message entry hentry).1⟩
    refine fromEntries_ne_nil fun hnil => ?_
    rw [List.map_eq_nil_iff, List.take_eq_nil_iff] at hnil
    rcases hnil with hten | hnil
    · cases hten
    · rw [hnil] at hmem
      cases hmem
  have hhead := h.head_recommendations hname env
  by_cases hexecution : isExecutionPhrase (env.toLowerCase (trim userMessage)) = true
  · have hadvice : advise env.toLowerCase userMessage
        (some (buildRepositoryFacts none (memorySnapshotOf c s.entries))) = [executionRequest] := by
      simp [advise, classifyIntent_eq_execution_iff, hexecution]
    have hrecommended : [executionRequest].filterMap (fun finding =>
        truthyText finding.recommendation) = [Reply.routed.text] := by decide +kernel
    simp only [Frame.response, hadvice, messageOf, extractLabels, head_labelList, Echo.replyTo,
      if_pos hexecution, hrecommended, List.cons_append, List.head?_cons, truthyText_text,
      Option.some_or, Option.getD_some]
  · have hadvice : advise env.toLowerCase userMessage
        (some (buildRepositoryFacts none (memorySnapshotOf c s.entries))) = [groundedFinding] := by
      simp [advise, classifyIntent_eq_execution_iff, hexecution, hfacts]
    have hnone : [groundedFinding].filterMap (fun finding =>
        truthyText finding.recommendation) = [] := by decide +kernel
    have hfinding : [groundedFinding].filterMap (fun finding =>
        truthyText (some finding.finding)) = [Reply.grounded.text] := by decide +kernel
    simp only [Frame.response, hadvice, messageOf, extractLabels, head_labelList, Echo.replyTo,
      if_neg hexecution, hnone, hfinding, List.nil_append, hhead, List.cons_append,
      List.head?_cons, truthyText_text]
    cases e.last with
    | none => rfl
    | some reply => simp

end Response

/-! ## What each stretch does -/

section Stretches

variable {c : String} {e : Echo} {s : MemoryState} {m : Moment}

/-- What another conversation remembers of itself. -/
theorem foreign_conversation {d key value : String} {k : MemoryEvidenceClassification}
    {m' : Moment} {entries : List MemoryEntry} (hname : c ≠ "conversation") (hd : d ≠ c)
    (hkey : key = lastUserMessageKey d ∨ key = lastResponseKey d) :
    Foreign c (upserted m (conversationInput m' d key value k) entries) where
  untagged := by
    simp [upserted, conversationInput, MemoryUpsertInput.tagged, hname, Ne.symm hd]
  message := by
    rcases hkey with rfl | rfl
    · exact fun h => hd (messageSlot_injective h)
    · exact fun h => messageSlot_ne_responseSlot c d h.symm
  response := by
    rcases hkey with rfl | rfl
    · exact messageSlot_ne_responseSlot d c
    · exact fun h => hd (responseSlot_injective h)

/-- A start of the conversation. -/
theorem Echoes.startConversation (h : Echoes c e s) {keys : List String}
    (hkeys : lastUserMessageKey c ∉ keys) :
    Echoes c { e with started := true } (startConversation m c keys s).2 where
  sound := h.sound
  started := by simp [ElevaOffice.startConversation, MemoryState.keep]
  remembered context hcontext hmem := by
    simp only [ElevaOffice.startConversation, MemoryState.keep, Function.update_self,
      Option.some.injEq] at hcontext
    rw [← hcontext, List.mem_eraseDups] at hmem
    exact absurd hmem hkeys
  message := h.message
  response := h.response
  slots := h.slots

/-- A start of any conversation. -/
theorem Echoes.startAny (h : Echoes c e s) {conversationId : String} {keys : List String}
    (hkeys : conversationId = c → lastUserMessageKey c ∉ keys) :
    Echoes c { e with started := e.started || conversationId == c }
      (ElevaOffice.startConversation m conversationId keys s).2 := by
  by_cases hc : conversationId = c
  · have hstarted := h.startConversation (m := m) (hkeys hc)
    rw [hc, beq_self_eq_true, Bool.or_true]
    exact hstarted
  · rw [beq_eq_false_iff_ne.mpr hc, Bool.or_false]
    have hentries : (ElevaOffice.startConversation m conversationId keys s).2.entries =
        storing none s.entries := rfl
    refine h.of_foreign hentries ?_ ?_ (Function.update_of_ne (Ne.symm hc) _ _)
    · intro entry hentry
      cases hentry
    · intro entry hentry
      cases hentry

/-- A message of the user to the conversation. -/
theorem Echoes.appendMessage (h : Echoes c e s) (hfresh : Fresh m s.entries) {content : String}
    {context : ConversationContext} (hcontext : s.conversations c = some context) :
    Echoes c e (appendMessage m c { role := .user, content := content } s).2 ∧
      (held (messageSlot c) (ElevaOffice.appendMessage m c
        { role := .user, content := content } s).2.entries).isSome := by
  have hentries := appendMessage_entries m c { role := .user, content := content } s
  have hconversations := appendMessage_conversations m c { role := .user, content := content } s
  generalize (ElevaOffice.appendMessage m c { role := .user, content := content } s).2 = s' at *
  have hstarted : (s'.conversations c).isSome = (s.conversations c).isSome := by
    rw [hconversations, Function.update_self, Option.isSome_map]
  by_cases hfirst : remembersMessage c { role := .user, content := content } context = true
  · -- The first message is remembered where no response is.
    generalize hinput : conversationInput (m.after 2 1) c (lastUserMessageKey c) content .VERIFIED =
      input at *
    have hw : messageEntry m c { role := .user, content := content } s =
        some (upserted (m.after 3 1) input s.entries) := by
      simp [messageEntry, hcontext, hfirst, Option.filter, hinput]
    have hstorable := upserted_storable h.sound (hfresh.after 3 1) input
    generalize hentry : upserted (m.after 3 1) input s.entries = entry at *
    have hslot : entry.slot = messageSlot c := by
      rw [← hentry, ← hinput]
      rfl
    have htagged : entry.tagged c = true := by
      rw [← hentry, ← hinput]
      simp [upserted, conversationInput, MemoryUpsertInput.tagged]
    have hlabel : entry.provenance.evidenceClassification = .VERIFIED := by
      rw [← hentry, ← hinput]
      rfl
    rw [hw, storing_some] at hentries
    have hmessage : held (messageSlot c) s'.entries = some entry := by
      rw [hentries, ← hslot]
      exact hstorable.held_self h.sound
    have hresponse : held (responseSlot c) s'.entries = held (responseSlot c) s.entries := by
      rw [hentries]
      exact hstorable.held_of_ne h.sound (hslot ▸ messageSlot_ne_responseSlot c c)
    refine ⟨⟨hentries ▸ h.sound.setById hstorable.fits, ?_, ?_, ?_, ?_, ?_⟩, by rw [hmessage]; rfl⟩
    · rw [hstarted]
      exact h.started
    · intro _ _ _
      rw [hmessage]
      rfl
    · intro other hother
      rw [hmessage] at hother
      cases hother
      exact ⟨htagged, hlabel⟩
    · rw [hresponse]
      exact h.response
    · intro other hother hotherTagged
      rcases mem_setById.mp (hentries ▸ hother) with rfl | ⟨hold, _⟩
      · exact Or.inl hslot
      · exact h.slots other hold hotherTagged
  · have hw : messageEntry m c { role := .user, content := content } s = none := by
      simp [messageEntry, hcontext, hfirst, Option.filter]
    rw [hw, storing_none] at hentries
    have hkey : lastUserMessageKey c ∈ context.memoryKeys := by
      simpa [remembersMessage] using hfirst
    have hmessage := h.remembered context hcontext hkey
    rw [← hentries] at hmessage
    refine ⟨⟨hentries ▸ h.sound, ?_, fun _ _ _ => hmessage, ?_, ?_, ?_⟩, hmessage⟩
    · rw [hstarted]
      exact h.started
    · rw [hentries]
      exact h.message
    · rw [hentries]
      exact h.response
    · rw [hentries]
      exact h.slots

/-- A response that is finished. -/
theorem Echoes.conclude (h : Echoes c e s) (hfresh : Fresh m s.entries) {env : OfficeEnv}
    {frame : Frame} (hframe : frame.conversationId = c) {reply : Reply}
    (hreply : (frame.response env).message = reply.text) :
    Echoes c { e with last := some reply } (conclude env m frame s).2 := by
  have hentries := conclude_entries env m frame s
  have hconversations : (ElevaOffice.conclude env m frame s).2.conversations =
      Function.update s.conversations c
        ((s.conversations c).map (·.append m c (frame.response env).body)) := by
    rw [← hframe, conclude_conversations]
  have hstorable : Storable (responseEntry env m frame s.entries) s.entries :=
    upserted_storable h.sound (hfresh.after 3 1) _
  have hslot : (responseEntry env m frame s.entries).slot = responseSlot c := by
    rw [← hframe]
    rfl
  have hreading : (responseEntry env m frame s.entries).reading c =
      (true, .RECOMMENDATION, reply.text) := by
    rw [← hreply, ← hframe]
    simp [responseEntry, MemoryEntry.reading, upserted, conversationInput,
      MemoryUpsertInput.tagged]
  generalize (ElevaOffice.conclude env m frame s).2 = s' at *
  generalize responseEntry env m frame s.entries = entry at *
  have hmessage : held (messageSlot c) s'.entries = held (messageSlot c) s.entries := by
    rw [hentries]
    exact hstorable.held_of_ne h.sound (hslot ▸ (messageSlot_ne_responseSlot c c).symm)
  refine ⟨hentries ▸ h.sound.setById hstorable.fits, ?_, ?_, ?_, ?_, ?_⟩
  · rw [hconversations, Function.update_self, Option.isSome_map]
    exact h.started
  · intro context hcontext hkey
    rw [hconversations, Function.update_self] at hcontext
    rcases Option.map_eq_some_iff.mp hcontext with ⟨before, hbefore, rfl⟩
    rw [hmessage]
    exact h.remembered before hbefore hkey
  · rw [hmessage]
    exact h.message
  · rw [hentries, ← hslot, hstorable.held_self h.sound, Option.map_some, Option.map_some, hreading]
  · intro other hother hotherTagged
    rcases mem_setById.mp (hentries ▸ hother) with rfl | ⟨hold, _⟩
    · exact Or.inr hslot
    · exact h.slots other hold hotherTagged

end Stretches

/-! ## Every interleaving -/

/-- A request leaves the conversation to itself: it starts it without keys, brings no facts to it
and remembers nothing of it. -/
structure Leaves (c : String) (request : OfficeRequest) : Prop where
  started : ∀ keys, request = .startConversation c keys → lastUserMessageKey c ∉ keys
  facts : ∀ userMessage facts, request = .respond c userMessage facts → facts = none
  untagged : ∀ input, request = .remember input → input.tagged c = false
  slots : ∀ input, request = .remember input →
    input.slot ≠ messageSlot c ∧ input.slot ≠ responseSlot c

/-- Whether a request asks for a response in the conversation. -/
def OfficeRequest.respondsTo (c : String) : OfficeRequest → Bool
  | .respond conversationId _ _ => conversationId == c
  | _ => false

/-- A request and its image in the machine. -/
inductive Follows (env : OfficeEnv) (c : String) (request : OfficeRequest) :
    OfficePhase → EchoPhase → Prop where
  | waiting : Follows env c request (.waiting request) (.waiting request)
  | pending {frame : Frame} {reply : Reply} (conversation : frame.conversationId = c)
      (message : (frame.response env).message = reply.text) :
      Follows env c request (.advising frame) (.pending reply)
  | replied {response : AdvisoryResponse} {reply : Reply}
      (message : response.message = reply.text) :
      Follows env c request (.answered (.response (.ok response))) (.replied reply)
  | refused : Follows env c request
      (.answered (.response (.error ("Conversation not found: " ++ c)))) .refused
  | advising {frame : Frame} (foreign : request.respondsTo c = false)
      (conversation : frame.conversationId ≠ c) :
      Follows env c request (.advising frame) .elsewhere
  | answered {answer : OfficeAnswer} (foreign : request.respondsTo c = false) :
      Follows env c request (.answered answer) .elsewhere

section Step

variable {env : OfficeEnv} {c : String} {e : Echo} {s : MemoryState} {m : Moment}
  {request : OfficeRequest}

/-- A message to the conversation is taken up. -/
theorem Echoes.takeUp (h : Echoes c e s) (hname : c ≠ "") (hfresh : Fresh m s.entries)
    (userMessage : String) :
    Echoes c e (afterTakeUp (takeUp m c userMessage none s)).1 ∧
      Follows env c request (afterTakeUp (ElevaOffice.takeUp m c userMessage none s)).2
        (if e.started then .pending (e.replyTo env.toLowerCase userMessage) else .refused) := by
  rw [h.started]
  cases hcontext : s.conversations c with
  | none =>
      simp only [ElevaOffice.takeUp, getConversation, hcontext]
      exact ⟨h, .refused⟩
  | some context =>
      rcases @Echoes.appendMessage c e s m h hfresh userMessage context hcontext with
        ⟨hafter, hremembered⟩
      simp only [ElevaOffice.takeUp, getConversation, hcontext, Option.isSome_some, if_true]
      exact ⟨hafter, .pending rfl (Frame.response_message hafter hname env hremembered userMessage)⟩

/-- A message to another conversation is taken up. -/
theorem Echoes.takeUp_elsewhere (h : Echoes c e s) (hname : c ≠ "conversation")
    (hfresh : Fresh m s.entries) {d userMessage : String} {facts : Option Properties}
    (hd : d ≠ c) (hforeign : request.respondsTo c = false) :
    Echoes c e (afterTakeUp (ElevaOffice.takeUp m d userMessage facts s)).1 ∧
      Follows env c request (afterTakeUp (ElevaOffice.takeUp m d userMessage facts s)).2
        .elsewhere := by
  cases hcontext : s.conversations d with
  | none =>
      simp only [ElevaOffice.takeUp, getConversation, hcontext]
      exact ⟨h, .answered hforeign⟩
  | some context =>
      simp only [ElevaOffice.takeUp, getConversation, hcontext]
      refine ⟨h.of_foreign (appendMessage_entries m d _ s) ?_ ?_ ?_, .advising hforeign hd⟩
      · intro entry hentry
        rcases Option.map_eq_some_iff.mp hentry with ⟨_, _, rfl⟩
        exact upserted_storable h.sound (hfresh.after 3 1) _
      · intro entry hentry
        rcases Option.map_eq_some_iff.mp hentry with ⟨_, _, rfl⟩
        exact foreign_conversation hname hd (Or.inl rfl)
      · rw [afterTakeUp, appendMessage_conversations]
        exact Function.update_of_ne (Ne.symm hd) _ _

/-- A response of another conversation is finished. -/
theorem Echoes.conclude_elsewhere (h : Echoes c e s) (hname : c ≠ "conversation")
    (hfresh : Fresh m s.entries) {frame : Frame} (hd : frame.conversationId ≠ c) :
    Echoes c e (ElevaOffice.conclude env m frame s).2 := by
  have hentries : (ElevaOffice.conclude env m frame s).2.entries =
      storing (some (responseEntry env m frame s.entries)) s.entries :=
    conclude_entries env m frame s
  refine h.of_foreign hentries ?_ ?_ ?_
  · rintro _ ⟨⟩
    exact upserted_storable h.sound (hfresh.after 3 1) _
  · rintro _ ⟨⟩
    exact foreign_conversation hname hd (Or.inr rfl)
  · rw [conclude_conversations]
    exact Function.update_of_ne (Ne.symm hd) _ _

/-- Something that others remember. -/
theorem Echoes.remember (h : Echoes c e s) (hfresh : Fresh m s.entries) {input : MemoryUpsertInput}
    (hleaves : Leaves c (.remember input)) : Echoes c e (remember m input s).2 := by
  have hslots := hleaves.slots input rfl
  have hentries : (ElevaOffice.remember m input s).2.entries =
      storing (some (upserted m input s.entries)) s.entries := rfl
  refine h.of_foreign hentries ?_ ?_ rfl
  · rintro _ ⟨⟩
    exact upserted_storable h.sound hfresh input
  · rintro _ ⟨⟩
    exact ⟨hleaves.untagged input rfl, hslots.1, hslots.2⟩

variable {ι : Type} {p : OfficePhase} {q : EchoPhase}

theorem office_respond (i : ι) (d userMessage : String) (facts : Option Properties) :
    (office ι env).next i m s (.waiting (.respond d userMessage facts)) =
      afterTakeUp (ElevaOffice.takeUp m d userMessage facts s) :=
  rfl

theorem echo_respond (toLowerCase : String → String) (i : ι) (d userMessage : String)
    (facts : Option Properties) :
    (echo ι toLowerCase c).next i m e (.waiting (.respond d userMessage facts)) =
      if d = c then
        (e, if e.started then .pending (e.replyTo toLowerCase userMessage) else .refused)
      else (e, .elsewhere) :=
  rfl

/-- One stretch of a request. -/
theorem Follows.next (hf : Follows env c request p q) (hname : c ≠ "" ∧ c ≠ "conversation")
    (hleaves : Leaves c request) (h : Echoes c e s) (hfresh : Fresh m s.entries) (i : ι) :
    Echoes c ((echo ι env.toLowerCase c).next i m e q).1 ((office ι env).next i m s p).1 ∧
      Follows env c request ((office ι env).next i m s p).2
        ((echo ι env.toLowerCase c).next i m e q).2 := by
  cases hf with
  | waiting =>
      cases request with
      | startConversation conversationId keys =>
          refine ⟨h.startAny fun hc => ?_, .answered rfl⟩
          exact hleaves.started keys (by rw [hc])
      | getConversation conversationId => exact ⟨h, .answered rfl⟩
      | respond conversationId userMessage facts =>
          by_cases hc : conversationId = c
          · subst hc
            rw [hleaves.facts userMessage facts rfl]
            rw [office_respond, echo_respond, if_pos rfl]
            exact h.takeUp hname.1 hfresh userMessage
          · have hforeign : (OfficeRequest.respond conversationId userMessage facts).respondsTo c =
                false := beq_eq_false_iff_ne.mpr hc
            rw [office_respond, echo_respond, if_neg hc]
            exact h.takeUp_elsewhere hname.2 hfresh hc hforeign
      | remember input => exact ⟨h.remember hfresh hleaves, .answered rfl⟩
      | recallEntries category tag => exact ⟨h, .answered rfl⟩
  | pending hconversation hmessage =>
      exact ⟨h.conclude hfresh hconversation hmessage, .replied hmessage⟩
  | replied hmessage => exact ⟨h, .replied hmessage⟩
  | refused => exact ⟨h, .refused⟩
  | advising hforeign hconversation =>
      exact ⟨h.conclude_elsewhere hname.2 hfresh hconversation, .answered hforeign⟩
  | answered hforeign => exact ⟨h, .answered hforeign⟩

end Step

/-- A conversation that was not started, and of which nothing is remembered. -/
structure Untouched (c : String) (s : MemoryState) : Prop where
  sound : Sound s.entries
  started : s.conversations c = none
  foreign : ∀ entry ∈ s.entries, Foreign c entry

theorem Untouched.echoes {c : String} {s : MemoryState} (h : Untouched c s) : Echoes c {} s where
  sound := h.sound
  started := by rw [h.started, Option.isSome_none]
  remembered context hcontext := by
    rw [h.started] at hcontext
    cases hcontext
  message entry hentry := by
    rcases held_eq_some hentry with ⟨hmem, hslot⟩
    exact absurd hslot (h.foreign entry hmem).message
  response := by
    cases hheld : held (responseSlot c) s.entries with
    | none => rfl
    | some entry =>
        rcases held_eq_some hheld with ⟨hmem, hslot⟩
        exact absurd hslot (h.foreign entry hmem).response
  slots entry hentry htagged := by
    rw [(h.foreign entry hentry).untagged] at htagged
    cases htagged

section Runs

variable {ι : Type} [DecidableEq ι] {env : OfficeEnv} {c : String} {requests : ι → OfficeRequest}

/-- The requests, for the machine. -/
def echoed (requests : ι → OfficeRequest) : Config ι Echo EchoPhase where
  shared := {}
  phase i := .waiting (requests i)

/-- The office and the machine side by side. -/
structure Alike (env : OfficeEnv) (c : String) (requests : ι → OfficeRequest)
    (office : Config ι MemoryState OfficePhase) (echo : Config ι Echo EchoPhase) : Prop where
  shared : Echoes c echo.shared office.shared
  phases : ∀ i, Follows env c (requests i) (office.phase i) (echo.phase i)

theorem Alike.step {co : Config ι MemoryState OfficePhase} {ce : Config ι Echo EchoPhase}
    (h : Alike env c requests co ce) (hname : c ≠ "" ∧ c ≠ "conversation")
    (hleaves : ∀ i, Leaves c (requests i)) (l : ι × Moment) (hfresh : Fresh l.2 co.shared.entries) :
    Alike env c requests ((office ι env).step co l) ((echo ι env.toLowerCase c).step ce l) := by
  have hnext := (h.phases l.1).next hname (hleaves l.1) h.shared hfresh l.1
  refine ⟨hnext.1, fun i => ?_⟩
  by_cases hi : i = l.1
  · rw [hi, CallSystem.step_phase_self, CallSystem.step_phase_self]
    exact hnext.2
  · rw [CallSystem.step_phase_of_ne _ _ _ hi, CallSystem.step_phase_of_ne _ _ _ hi]
    exact h.phases i

theorem Alike.run {co : Config ι MemoryState OfficePhase} {ce : Config ι Echo EchoPhase}
    (h : Alike env c requests co ce) (hname : c ≠ "" ∧ c ≠ "conversation")
    (hleaves : ∀ i, Leaves c (requests i)) {ls : List (ι × Moment)}
    (hfresh : (office ι env).EachStep (fun c l => Fresh l.2 c.shared.entries) co ls) :
    Alike env c requests ((office ι env).run co ls) ((echo ι env.toLowerCase c).run ce ls) := by
  induction ls generalizing co ce with
  | nil => exact h
  | cons l ls ih => exact ih (h.step hname hleaves l hfresh.1) hfresh.2

/-- What a caller gets in the conversation is what the machine gives it. -/
theorem Follows.outcome {request : OfficeRequest} {p : OfficePhase} {q : EchoPhase}
    (h : Follows env c request p q) (hown : request.respondsTo c = true) :
    p.outcome = q.outcome c := by
  cases h with
  | waiting => rfl
  | pending => rfl
  | replied hmessage => exact congrArg (fun text => some (Except.ok text)) hmessage
  | refused => rfl
  | advising hforeign => exact absurd (hown.symm.trans hforeign) Bool.noConfusion
  | answered hforeign => exact absurd (hown.symm.trans hforeign) Bool.noConfusion

/-- In every interleaving of requests that draw new ids and leave the conversation to itself,
the callers of the conversation get the two replies as the machine gives them. -/
theorem conversation_echoes (hname : c ≠ "" ∧ c ≠ "conversation") {s : MemoryState}
    (hstart : Untouched c s) (hleaves : ∀ i, Leaves c (requests i)) {ls : List (ι × Moment)}
    (hids : NewIds s.entries ls) (i : ι) (hown : (requests i).respondsTo c = true) :
    (((office ι env).run (asked requests s) ls).phase i).outcome =
      (((echo ι env.toLowerCase c).run (echoed requests) ls).phase i).outcome c := by
  have hbegin : Alike env c requests (asked requests s) (echoed requests) :=
    ⟨hstart.echoes, fun _ => .waiting⟩
  have hend := hbegin.run hname hleaves (NewIds.eachStep (c := asked requests s) hids)
  exact (hend.phases i).outcome hown

end Runs

/-- A conversation with three messages, the second of which asks for an execution. -/
def chat : Fin 4 → OfficeRequest
  | 0 => .startConversation "conversation:ann:7" []
  | 1 => .respond "conversation:ann:7" "How do we grow?" none
  | 2 => .respond "conversation:ann:7" "Go ahead." none
  | 3 => .respond "conversation:ann:7" "And now?" none

theorem leaves_start (c d : String) : Leaves c (.startConversation d []) where
  started keys h := by
    cases h
    exact List.not_mem_nil
  facts _ _ h := by cases h
  untagged _ h := by cases h
  slots _ h := by cases h

theorem leaves_message (c d userMessage : String) : Leaves c (.respond d userMessage none) where
  started _ h := by cases h
  facts _ _ h := by
    cases h
    rfl
  untagged _ h := by cases h
  slots _ h := by cases h

theorem chat_leaves : ∀ i, Leaves "conversation:ann:7" (chat i)
  | 0 => leaves_start _ _
  | 1 => leaves_message _ _ _
  | 2 => leaves_message _ _ _
  | 3 => leaves_message _ _ _

/-- The second message is answered while the first is: the first one is finished last, and its
reply is the one that is repeated. -/
theorem chat_echoes :
    (((office (Fin 4) plainOffice).run (asked chat {})
        ([(0, "a", 1), (1, "b", 2), (2, "c", 3), (2, "d", 4), (1, "e", 5), (3, "f", 6),
            (3, "g", 7)].map fun l => (l.1, momentOf l.2.1 l.2.2))).phase 3).outcome =
      some (.ok Reply.grounded.text) := by
  have hstart : Untouched "conversation:ann:7" ({} : MemoryState) :=
    ⟨⟨List.nodup_nil, List.nodup_nil⟩, rfl, fun _ hentry => absurd hentry List.not_mem_nil⟩
  rw [conversation_echoes (by decide +kernel) hstart chat_leaves
    (newIds_momentOf (by decide +kernel)) 3 rfl]
  decide +kernel

end ElevaOffice
end Eleva
