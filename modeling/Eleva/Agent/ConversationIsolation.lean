import Eleva.Agent.Conversations

/-!
# Agent - Conversations do not see each other

The memory is one for all conversations, but a response reads only the entries that carry the
tag of its conversation.  Where the slots of these entries are written by nobody else, a
conversation goes on as if it were alone: whatever else the office is asked for, and in
whatever order, the answers in the conversation are those of the same requests without the
others.

Main results:

- Theorems {lit}`Agree.own` and {lit}`Agree.other`: what the conversation sees after something
  of its own, and after something else, was stored.
- Theorem {lit}`conversation_isolated`: the answers in a conversation are those of the run of
  which everything else is left out.
-/

namespace Eleva
namespace ElevaOffice

open Foundation
open Agent (Properties)

/-! ## What a conversation sees -/

/-- Whether a request is about the conversation. -/
def OfficeRequest.concerns (c : String) : OfficeRequest → Bool
  | .startConversation conversationId _ => conversationId == c
  | .getConversation conversationId => conversationId == c
  | .respond conversationId _ _ => conversationId == c
  | .remember input => input.tagged c
  | .recallEntries _ _ => false

/-- The entries in the slots of the conversation. -/
def ownEntries (owned : Slot → Bool) (entries : List MemoryEntry) : List MemoryEntry :=
  entries.filter fun entry => owned entry.slot

/-- A state, and one in which everything but the conversation is left out. -/
structure Agree (c : String) (owned : Slot → Bool) (s t : MemoryState) : Prop where
  sound : Sound s.entries
  soundAlone : Sound t.entries
  entries : ownEntries owned s.entries = ownEntries owned t.entries
  conversation : s.conversations c = t.conversations c
  tags : ∀ entry ∈ s.entries, owned entry.slot = entry.tagged c
  tagsAlone : ∀ entry ∈ t.entries, owned entry.slot = entry.tagged c
  ids : t.entries.map (·.id) ⊆ s.entries.map (·.id)

section Agree

variable {c : String} {owned : Slot → Bool} {s t s' t' : MemoryState}

theorem held_ownEntries {slot : Slot} (hslot : owned slot = true) (entries : List MemoryEntry) :
    held slot (ownEntries owned entries) = held slot entries := by
  rw [held, held, ownEntries, List.find?_filter]
  congr 1
  funext entry
  cases hentry : entry.slot == slot with
  | true => simp [beq_iff_eq.mp hentry, hslot]
  | false => simp

/-- The slots of the conversation hold the same. -/
theorem Agree.held (h : Agree c owned s t) {slot : Slot} (hslot : owned slot = true) :
    held slot s.entries = held slot t.entries := by
  rw [← held_ownEntries hslot, h.entries, held_ownEntries hslot]

/-- What a response takes into account is the same. -/
theorem Agree.snapshot (h : Agree c owned s t) (hname : c ≠ "") :
    memorySnapshotOf c s.entries = memorySnapshotOf c t.entries := by
  have htagged : ∀ entries : List MemoryEntry,
      (∀ entry ∈ entries, owned entry.slot = entry.tagged c) →
        recallEntries none (some c) entries =
          (ownEntries owned entries).insertionSort fun a b => b.updatedAt ≤ a.updatedAt := by
    intro entries htags
    rw [recallEntries, ownEntries]
    congr 1
    refine List.filter_congr fun entry hentry => ?_
    rw [htags entry hentry]
    simp [truthyText, hname]
  rw [memorySnapshotOf, memorySnapshotOf, htagged _ h.tags, htagged _ h.tagsAlone, h.entries]

theorem Agree.fresh (h : Agree c owned s t) {m : Moment} (hfresh : Fresh m s.entries) :
    Fresh m t.entries :=
  fun i hmem => hfresh i (h.ids hmem)

/-- Something of the conversation is stored on both sides. -/
theorem Agree.own (h : Agree c owned s t) {w : Option MemoryEntry}
    (hs : s'.entries = storing w s.entries) (ht : t'.entries = storing w t.entries)
    (hstorable : ∀ entry, w = some entry → Storable entry s.entries)
    (hstorableAlone : ∀ entry, w = some entry → Storable entry t.entries)
    (hown : ∀ entry, w = some entry → owned entry.slot = true ∧ entry.tagged c = true)
    (hconversation : s'.conversations c = t'.conversations c) : Agree c owned s' t' := by
  have htags : ∀ (entries : List MemoryEntry),
      (∀ entry ∈ entries, owned entry.slot = entry.tagged c) →
        ∀ entry ∈ storing w entries, owned entry.slot = entry.tagged c := by
    intro entries hold entry hentry
    rcases mem_storing hentry with hstored | hkept
    · rw [(hown entry hstored).1, (hown entry hstored).2]
    · exact hold entry hkept
  refine ⟨hs ▸ (storing_keeps h.sound hstorable).1, ht ▸ (storing_keeps h.soundAlone
    hstorableAlone).1, ?_, hconversation, hs ▸ htags _ h.tags, ht ▸ htags _ h.tagsAlone, ?_⟩
  · rw [hs, ht]
    cases w with
    | none => exact h.entries
    | some entry =>
        have hentry := (hown entry rfl).1
        rw [storing_some, storing_some, ownEntries, ownEntries,
          filter_setById (hstorable entry rfl).fits, filter_setById (hstorableAlone entry rfl).fits,
          if_pos hentry, if_pos hentry]
        exact congrArg _ h.entries
  · rw [hs, ht]
    cases w with
    | none => exact h.ids
    | some entry =>
        intro id hid
        rcases List.mem_map.mp hid with ⟨y, hy, rfl⟩
        rcases mem_setById.mp hy with rfl | ⟨hy, hne⟩
        · exact List.mem_map_of_mem (mem_setById.mpr (Or.inl rfl))
        · rcases List.mem_map.mp (h.ids (List.mem_map_of_mem hy)) with ⟨z, hz, hzy⟩
          exact List.mem_map.mpr ⟨z, mem_setById.mpr (Or.inr ⟨hz, hzy ▸ hne⟩), hzy⟩

/-- Something else is stored on one side. -/
theorem Agree.other (h : Agree c owned s t) {w : Option MemoryEntry}
    (hs : s'.entries = storing w s.entries)
    (hstorable : ∀ entry, w = some entry → Storable entry s.entries)
    (hother : ∀ entry, w = some entry → owned entry.slot = false ∧ entry.tagged c = false)
    (hconversation : s'.conversations c = s.conversations c) : Agree c owned s' t := by
  refine ⟨hs ▸ (storing_keeps h.sound hstorable).1, h.soundAlone, ?_,
    hconversation.trans h.conversation, ?_, h.tagsAlone, ?_⟩
  · rw [hs, ← h.entries]
    cases w with
    | none => rfl
    | some entry =>
        rw [storing_some, ownEntries, filter_setById (hstorable entry rfl).fits,
          if_neg (by rw [(hother entry rfl).1]; exact Bool.false_ne_true)]
        rfl
  · intro entry hentry
    rcases mem_storing (hs ▸ hentry) with hstored | hkept
    · rw [(hother entry hstored).1, (hother entry hstored).2]
    · exact h.tags entry hkept
  · intro id hid
    have hold := h.ids hid
    have hkeeps := (storing_keeps h.sound hstorable).2.1
    rw [← hs] at hkeeps
    rcases List.mem_map.mp hold with ⟨y, hy, rfl⟩
    have hidentity := hkeeps.subset (List.mem_map_of_mem (f := (·.identity)) hy)
    rcases List.mem_map.mp hidentity with ⟨z, hz, hzy⟩
    exact List.mem_map.mpr ⟨z, hz, congrArg Prod.fst hzy⟩

end Agree

/-! ## Stretches of the conversation and of others -/

/-- The slots of the conversation are its own, and its name is no other tag. -/
structure Owns (c : String) (owned : Slot → Bool) : Prop where
  name : c ≠ "" ∧ c ≠ "conversation"
  message : owned (messageSlot c) = true
  response : owned (responseSlot c) = true

/-- A request keeps to the slots of the conversation exactly when it carries its tag. -/
structure Respects (c : String) (owned : Slot → Bool) (request : OfficeRequest) : Prop where
  others : ∀ d userMessage facts, request = .respond d userMessage facts → d ≠ c →
    owned (messageSlot d) = false ∧ owned (responseSlot d) = false
  remembered : ∀ input, request = .remember input → owned input.slot = input.tagged c

/-- A phase that the request can be in. -/
inductive Reachable (request : OfficeRequest) : OfficePhase → Prop where
  | waiting : Reachable request (.waiting request)
  | advising {frame : Frame} {facts : Option Properties}
      (asked : request = .respond frame.conversationId frame.userMessage facts) :
      Reachable request (.advising frame)
  | answered {answer : OfficeAnswer} : Reachable request (.answered answer)

/-- What a conversation remembers of itself has its name and nothing else as a tag. -/
theorem conversation_tagged (c d key value : String) (k : MemoryEvidenceClassification)
    (m m' : Moment) (entries : List MemoryEntry) :
    (upserted m (conversationInput m' d key value k) entries).tagged c =
      ["conversation", d].contains c :=
  rfl

section Stretches

variable {ι : Type} {env : OfficeEnv} {c : String} {owned : Slot → Bool} {s t : MemoryState}
  {m : Moment} {request : OfficeRequest} {p : OfficePhase}

theorem Reachable.next (hp : Reachable request p) (i : ι) :
    Reachable request ((office ι env).next i m s p).2 := by
  cases hp with
  | waiting =>
      cases request with
      | respond d userMessage facts =>
          cases hcontext : s.conversations d with
          | none =>
              simp only [office, takeUp, getConversation, hcontext]
              exact .answered
          | some context =>
              simp only [office, takeUp, getConversation, hcontext]
              exact .advising rfl
      | startConversation => exact .answered
      | getConversation => exact .answered
      | remember => exact .answered
      | recallEntries => exact .answered
  | advising => exact .answered
  | answered => exact .answered

/-- What the conversation stores does not depend on the rest. -/
theorem Agree.written (h : Agree c owned s t) (howns : Owns c owned)
    (hrespects : Respects c owned request) (hp : Reachable request p)
    (hconcerns : request.concerns c = true) : written env m s p = written env m t p := by
  cases hp with
  | waiting =>
      cases request with
      | respond d userMessage facts =>
          have hd : d = c := beq_iff_eq.mp hconcerns
          subst hd
          have hentry := @upserted_congr (m.after 3 1) (conversationInput (m.after 2 1) d
            (lastUserMessageKey d) userMessage .VERIFIED) _ _ (h.held howns.message)
          simp only [ElevaOffice.written, messageEntry, h.conversation, hentry]
      | remember input =>
          have hslot : owned input.slot = true :=
            (hrespects.remembered input rfl).trans hconcerns
          simp only [ElevaOffice.written, upserted_congr (h.held hslot)]
      | startConversation => rfl
      | getConversation => rfl
      | recallEntries => rfl
  | @advising frame facts hasked =>
      have hd : frame.conversationId = c := by
        rw [hasked] at hconcerns
        exact beq_iff_eq.mp hconcerns
      have hslot : owned (responseSlot frame.conversationId) = true := hd ▸ howns.response
      have hentry := @upserted_congr (m.after 3 1) (conversationInput (m.after 2 1)
        frame.conversationId (lastResponseKey frame.conversationId)
        (frame.response env).message .RECOMMENDATION) _ _ (h.held hslot)
      simp only [ElevaOffice.written, responseEntry, hentry]
  | answered => rfl

/-- It goes to the slots of the conversation. -/
theorem written_own (howns : Owns c owned) (hrespects : Respects c owned request)
    (hp : Reachable request p) (hconcerns : request.concerns c = true) {entry : MemoryEntry}
    (hentry : written env m s p = some entry) :
    owned entry.slot = true ∧ entry.tagged c = true := by
  cases hp with
  | waiting =>
      cases request with
      | respond d userMessage facts =>
          have hd : d = c := beq_iff_eq.mp hconcerns
          subst hd
          rcases Option.map_eq_some_iff.mp hentry with ⟨_, _, rfl⟩
          exact ⟨howns.message, by simp [conversation_tagged]⟩
      | remember input =>
          cases hentry
          exact ⟨(hrespects.remembered input rfl).trans hconcerns, hconcerns⟩
      | startConversation => cases hentry
      | getConversation => cases hentry
      | recallEntries => cases hentry
  | @advising frame facts hasked =>
      have hd : frame.conversationId = c := by
        rw [hasked] at hconcerns
        exact beq_iff_eq.mp hconcerns
      cases hentry
      refine ⟨?_, by simp [responseEntry, conversation_tagged, hd]⟩
      rw [← hd] at howns
      exact howns.response
  | answered => cases hentry

/-- What others store goes elsewhere. -/
theorem written_other (howns : Owns c owned) (hrespects : Respects c owned request)
    (hp : Reachable request p) (hconcerns : request.concerns c = false) {entry : MemoryEntry}
    (hentry : written env m s p = some entry) :
    owned entry.slot = false ∧ entry.tagged c = false := by
  have htags : ∀ d, d ≠ c → ["conversation", d].contains c = false := by
    intro d hd
    simp [howns.name.2, Ne.symm hd]
  cases hp with
  | waiting =>
      cases request with
      | respond d userMessage facts =>
          have hd : d ≠ c := beq_eq_false_iff_ne.mp hconcerns
          rcases Option.map_eq_some_iff.mp hentry with ⟨_, _, rfl⟩
          exact ⟨(hrespects.others d userMessage facts rfl hd).1,
            (conversation_tagged _ _ _ _ _ _ _ _).trans (htags d hd)⟩
      | remember input =>
          cases hentry
          exact ⟨(hrespects.remembered input rfl).trans hconcerns, hconcerns⟩
      | startConversation => cases hentry
      | getConversation => cases hentry
      | recallEntries => cases hentry
  | @advising frame facts hasked =>
      have hd : frame.conversationId ≠ c := by
        rw [hasked] at hconcerns
        exact beq_eq_false_iff_ne.mp hconcerns
      cases hentry
      exact ⟨(hrespects.others _ _ facts hasked hd).2,
        (conversation_tagged _ _ _ _ _ _ _ _).trans (htags _ hd)⟩
  | answered => cases hentry

theorem next_conversations (i : ι) (d : String) (hp : Reachable request p)
    (hd : request.concerns d = false) :
    ((office ι env).next i m s p).1.conversations d = s.conversations d := by
  cases hp with
  | waiting =>
      cases request with
      | startConversation conversationId keys =>
          exact Function.update_of_ne (Ne.symm (beq_eq_false_iff_ne.mp hd)) _ _
      | respond conversationId userMessage facts =>
          have hne : d ≠ conversationId := Ne.symm (beq_eq_false_iff_ne.mp hd)
          simp only [office, afterTakeUp_state, takeUp_conversations, Function.update_of_ne hne]
      | getConversation => rfl
      | remember => rfl
      | recallEntries => rfl
  | @advising frame facts hasked =>
      rw [hasked] at hd
      have hne : d ≠ frame.conversationId := Ne.symm (beq_eq_false_iff_ne.mp hd)
      exact (congrFun (conclude_conversations env m frame s) d).trans
        (Function.update_of_ne hne _ _)
  | answered => rfl

/-- A stretch of another request. -/
theorem Agree.next_other (h : Agree c owned s t) (howns : Owns c owned)
    (hrespects : Respects c owned request) (hp : Reachable request p)
    (hconcerns : request.concerns c = false) (hfresh : Fresh m s.entries) (i : ι) :
    Agree c owned ((office ι env).next i m s p).1 t :=
  h.other (next_entries env i m s p) (fun _ => written_storable h.sound hfresh)
    (fun _ => written_other howns hrespects hp hconcerns) (next_conversations i c hp hconcerns)

/-- A stretch of a request of the conversation. -/
theorem Agree.next_own (h : Agree c owned s t) (howns : Owns c owned)
    (hrespects : Respects c owned request) (hp : Reachable request p)
    (hconcerns : request.concerns c = true) (hfresh : Fresh m s.entries) (i : ι) :
    Agree c owned ((office ι env).next i m s p).1 ((office ι env).next i m t p).1 ∧
      ((office ι env).next i m s p).2 = ((office ι env).next i m t p).2 := by
  have hwritten : ElevaOffice.written env m s p = ElevaOffice.written env m t p :=
    h.written howns hrespects hp hconcerns
  have hnext : ((office ι env).next i m s p).1.conversations c =
      ((office ι env).next i m t p).1.conversations c →
        Agree c owned ((office ι env).next i m s p).1 ((office ι env).next i m t p).1 := by
    refine h.own (next_entries env i m s p) (hwritten ▸ next_entries env i m t p)
      (fun _ => written_storable h.sound hfresh) (fun entry hentry => ?_)
      (fun _ => written_own howns hrespects hp hconcerns)
    exact written_storable h.soundAlone (h.fresh hfresh) (hwritten ▸ hentry)
  cases hp with
  | waiting =>
      cases request with
      | startConversation conversationId keys =>
          have hd : conversationId = c := beq_iff_eq.mp hconcerns
          subst hd
          refine ⟨hnext ?_, rfl⟩
          simp [office, startConversation, MemoryState.keep]
      | getConversation conversationId =>
          have hd : conversationId = c := beq_iff_eq.mp hconcerns
          subst hd
          refine ⟨h, ?_⟩
          simp only [office, getConversation, h.conversation]
      | respond conversationId userMessage facts =>
          have hd : conversationId = c := beq_iff_eq.mp hconcerns
          subst hd
          have hagree := hnext (by
            simp only [office, afterTakeUp_state, takeUp_conversations, Function.update_self,
              h.conversation])
          refine ⟨hagree, ?_⟩
          have hsnapshot := hagree.snapshot howns.name.1
          have hsame := h.conversation
          cases hcontext : s.conversations conversationId with
          | none =>
              rw [hcontext] at hsame
              simp only [office, takeUp, getConversation, hcontext, ← hsame, afterTakeUp]
          | some context =>
              rw [hcontext] at hsame
              simp only [office, takeUp, getConversation, hcontext, ← hsame, afterTakeUp]
                at hsnapshot ⊢
              rw [hsnapshot]
      | remember input =>
          have hslot : owned input.slot = true :=
            (hrespects.remembered input rfl).trans hconcerns
          refine ⟨hnext h.conversation, ?_⟩
          simp only [office, remember, upserted_congr (h.held hslot)]
      | recallEntries => exact ⟨h, absurd hconcerns Bool.false_ne_true⟩
  | @advising frame facts hasked =>
      have hd : frame.conversationId = c := by
        rw [hasked] at hconcerns
        exact beq_iff_eq.mp hconcerns
      refine ⟨hnext ?_, rfl⟩
      have hs := congrFun (conclude_conversations env m frame s) c
      have ht := congrFun (conclude_conversations env m frame t) c
      rw [hd, Function.update_self] at hs ht
      exact hs.trans ((congrArg _ h.conversation).trans ht.symm)
  | answered => exact ⟨h, rfl⟩

end Stretches

/-! ## Every interleaving -/

section Runs

variable {ι : Type} [DecidableEq ι] {env : OfficeEnv} {c : String} {owned : Slot → Bool}
  {requests : ι → OfficeRequest}

/-- The office, and the office with the conversation alone. -/
structure Apart (c : String) (owned : Slot → Bool) (requests : ι → OfficeRequest)
    (all alone : Config ι MemoryState OfficePhase) : Prop where
  shared : Agree c owned all.shared alone.shared
  phases : ∀ i, (requests i).concerns c = true → all.phase i = alone.phase i
  reachable : ∀ i, Reachable (requests i) (all.phase i)

variable {all alone : Config ι MemoryState OfficePhase}

theorem Apart.step_own (h : Apart c owned requests all alone) (howns : Owns c owned)
    (hrespects : ∀ i, Respects c owned (requests i)) {l : ι × Moment}
    (hfresh : Fresh l.2 all.shared.entries) (hconcerns : (requests l.1).concerns c = true) :
    Apart c owned requests ((office ι env).step all l) ((office ι env).step alone l) := by
  have hsame := h.phases l.1 hconcerns
  rcases @Agree.next_own ι env c owned _ _ _ _ _ h.shared howns (hrespects l.1)
    (h.reachable l.1) hconcerns hfresh l.1 with ⟨hshared, hphase⟩
  refine ⟨?_, fun i hi => ?_, fun i => ?_⟩
  · rw [CallSystem.step_shared, CallSystem.step_shared, ← hsame]
    exact hshared
  · by_cases hl : i = l.1
    · rw [hl, CallSystem.step_phase_self, CallSystem.step_phase_self, ← hsame]
      exact hphase
    · rw [CallSystem.step_phase_of_ne _ _ _ hl, CallSystem.step_phase_of_ne _ _ _ hl]
      exact h.phases i hi
  · by_cases hl : i = l.1
    · rw [hl, CallSystem.step_phase_self]
      exact (h.reachable l.1).next l.1
    · rw [CallSystem.step_phase_of_ne _ _ _ hl]
      exact h.reachable i

theorem Apart.step_other (h : Apart c owned requests all alone) (howns : Owns c owned)
    (hrespects : ∀ i, Respects c owned (requests i)) {l : ι × Moment}
    (hfresh : Fresh l.2 all.shared.entries) (hconcerns : (requests l.1).concerns c = false) :
    Apart c owned requests ((office ι env).step all l) alone := by
  refine ⟨?_, fun i hi => ?_, fun i => ?_⟩
  · rw [CallSystem.step_shared]
    exact h.shared.next_other howns (hrespects l.1) (h.reachable l.1) hconcerns hfresh l.1
  · have hl : i ≠ l.1 := by
      rintro rfl
      rw [hconcerns] at hi
      cases hi
    rw [CallSystem.step_phase_of_ne _ _ _ hl]
    exact h.phases i hi
  · by_cases hl : i = l.1
    · rw [hl, CallSystem.step_phase_self]
      exact (h.reachable l.1).next l.1
    · rw [CallSystem.step_phase_of_ne _ _ _ hl]
      exact h.reachable i

/-- The requests of a schedule that are about the conversation. -/
def about (c : String) (requests : ι → OfficeRequest) (ls : List (ι × Moment)) :
    List (ι × Moment) :=
  ls.filter fun l => (requests l.1).concerns c

theorem Apart.run (h : Apart c owned requests all alone) (howns : Owns c owned)
    (hrespects : ∀ i, Respects c owned (requests i)) {ls : List (ι × Moment)}
    (hfresh : (office ι env).EachStep (fun c l => Fresh l.2 c.shared.entries) all ls) :
    Apart c owned requests ((office ι env).run all ls)
      ((office ι env).run alone (about c requests ls)) := by
  induction ls generalizing all alone with
  | nil => exact h
  | cons l ls ih =>
      cases hconcerns : (requests l.1).concerns c with
      | true =>
          simp only [about, List.filter_cons, hconcerns, if_true]
          exact ih (h.step_own howns hrespects hfresh.1 hconcerns) hfresh.2
      | false =>
          simp only [about, List.filter_cons, hconcerns, Bool.false_eq_true, if_false]
          exact ih (h.step_other howns hrespects hfresh.1 hconcerns) hfresh.2

/-- In every interleaving of requests that draw new ids and keep to the slots of the conversation
exactly when they carry its tag, every request about the conversation has come as far, with the
same answer, as in the run of which everything else is left out. -/
theorem conversation_isolated (howns : Owns c owned)
    (hrespects : ∀ i, Respects c owned (requests i)) {s : MemoryState} (hsound : Sound s.entries)
    (htags : ∀ entry ∈ s.entries, owned entry.slot = entry.tagged c) {ls : List (ι × Moment)}
    (hids : NewIds s.entries ls) (i : ι) (hi : (requests i).concerns c = true) :
    ((office ι env).run (asked requests s) ls).phase i =
      ((office ι env).run (asked requests s) (about c requests ls)).phase i := by
  have hbegin : Apart c owned requests (asked requests s) (asked requests s) :=
    ⟨⟨hsound, hsound, rfl, rfl, htags, htags, List.Subset.refl _⟩, fun _ _ => rfl,
      fun _ => .waiting⟩
  exact (hbegin.run howns hrespects (NewIds.eachStep (c := asked requests s) hids)).phases i hi

end Runs

/-! ## Two conversations -/

/-- Two conversations at once, and a preference that is remembered for the first. -/
def twoChats : Fin 5 → OfficeRequest
  | 0 => .startConversation "conversation:ann:7" []
  | 1 => .startConversation "conversation:bob:8" []
  | 2 => .respond "conversation:ann:7" "How do we grow?" none
  | 3 => .respond "conversation:bob:8" "Go ahead." none
  | 4 => .remember
      { category := .USER_PREFERENCE
        key := "tone"
        value := "Be brief."
        provenance := { evidenceClassification := .RECOMMENDATION }
        tags := some ["conversation:ann:7"] }

/-- The slots of the first conversation. -/
def annOwns (slot : Slot) : Bool :=
  slot == messageSlot "conversation:ann:7" || slot == responseSlot "conversation:ann:7" ||
    slot == (.USER_PREFERENCE, "tone")

theorem twoChats_respects : ∀ i, Respects "conversation:ann:7" annOwns (twoChats i)
  | 0 => ⟨fun _ _ _ h => (by cases h), fun _ h => (by cases h)⟩
  | 1 => ⟨fun _ _ _ h => (by cases h), fun _ h => (by cases h)⟩
  | 2 => ⟨fun _ _ _ h hd => (by cases h; exact absurd rfl hd), fun _ h => (by cases h)⟩
  | 3 => ⟨fun _ _ _ h _ => (by cases h; decide +kernel), fun _ h => (by cases h)⟩
  | 4 => ⟨fun _ _ _ h => (by cases h), fun _ h => (by cases h; decide +kernel)⟩

/-- The response to the first message is made of the preference, not of what the other
conversation asks for. -/
theorem twoChats_isolated :
    (((office (Fin 5) plainOffice).run (asked twoChats {})
        ([(0, "a", 1), (1, "b", 2), (3, "c", 3), (3, "d", 4), (4, "e", 5), (2, "f", 6),
            (2, "g", 7)].map fun l => (l.1, momentOf l.2.1 l.2.2))).phase 2).outcome =
      some (.ok "Be brief.") := by
  have howns : Owns "conversation:ann:7" annOwns :=
    ⟨by decide +kernel, by decide +kernel, by decide +kernel⟩
  have hsound : Sound ({} : MemoryState).entries := ⟨List.nodup_nil, List.nodup_nil⟩
  rw [conversation_isolated howns twoChats_respects hsound
    (fun _ hentry => absurd hentry List.not_mem_nil) (newIds_momentOf (by decide +kernel)) 2 rfl]
  decide +kernel

end ElevaOffice
end Eleva
