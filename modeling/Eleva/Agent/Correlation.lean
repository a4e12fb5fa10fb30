import Eleva.Agent.Intelligence
import Eleva.Foundation.Machine
import Eleva.Foundation.Text
import Eleva.Foundation.TextHash

/-!
# Agent - Correlated events

Events that an operator correlates become a situation.  The id of the situation is derived from a
hash of the sorted event ids and the criteria, and from the time of the call.

Main results:

- Theorem {lit}`situationId_eq_iff`: when two calls get one id.
- Theorem {lit}`correlations_lawful_iff`: a run of correlations keeps one situation for each of
  them, and leaves the lists of the callers alone, exactly when the calls of a correlation fall
  into one millisecond, calls about other events or with other criteria differ in the time or in
  the hash, and the lists are sorted.
-/

namespace Eleva

open Foundation

namespace ElevaIntelligenceService

structure Correlation where
  reason : Option String
  criteria : Json
deriving Repr

/-- The id of the situation, and the caller's list, which is sorted in place. -/
def deriveSituationIdFromCorrelation (eventIds : List String) (correlation : Correlation)
    (now : ℕ) : String × List String :=
  let criteriaKey := correlation.criteria.stringify
  let sorted := sortStrings eventIds
  let eventKey := join '|' sorted
  let hash := (utf16 criteriaKey).foldl hashStep ((utf16 eventKey).foldl hashStep 0)
  ("situation:" ++ base36 hash.natAbs ++ ":" ++ base36 now, sorted)

/-- A call.  The clock is read twice. -/
structure CorrelateCall where
  eventIds : List String
  correlation : Correlation
  derivedAt : ℕ
  now : ℕ
deriving Repr

/-- The answer to a call, and the caller's list after it. -/
structure CorrelateReply where
  answer : Except String (List String)
  eventIds : List String

/-- The reason without the white space around it, when that leaves anything. -/
def normalizedReason (correlation : Correlation) : Option String :=
  (correlation.reason.map trim).filter (· != "")

/-- The situation of the calls with an id. -/
def correlatedSituation (existing : Option Situation) (id reason : String)
    (eventIds : List String) (now : ℕ) : Situation where
  id := id
  state := (existing.map (·.state)).getD .DETECTED
  severity := (existing.map (·.severity)).getD .LOW
  eventIds := (((existing.map (·.eventIds)).getD []) ++ eventIds).eraseDups
  correlationReason := some reason
  detectedAt := (existing.map (·.detectedAt)).getD now
  lastUpdatedAt := now
  knownImpact := existing.bind (·.knownImpact)
  analysis := existing.bind (·.analysis)
  recommendations := (existing.map (·.recommendations)).getD []
  alerts := (existing.map (·.alerts)).getD []
  evidence := (existing.map (·.evidence)).getD []
  resolution := existing.bind (·.resolution)

def correlateEvents (call : CorrelateCall) (s : IntelligenceState) :
    CorrelateReply × IntelligenceState :=
  if call.eventIds.length < 1 then
    (⟨.error "Event correlation requires at least one event.", call.eventIds⟩, s)
  else
    match normalizedReason call.correlation with
    | none => (⟨.error "correlationReason is required for event correlation.", call.eventIds⟩, s)
    | some reason =>
        let derived :=
          deriveSituationIdFromCorrelation call.eventIds call.correlation call.derivedAt
        let situation :=
          correlatedSituation (s.situations derived.1) derived.1 reason derived.2 call.now
        (⟨.ok [derived.1], derived.2⟩,
          { s with situations := Function.update s.situations derived.1 (some situation) })

/-- The service, called one call after the other. -/
def correlations : Machine CorrelateCall IntelligenceState CorrelateReply where
  step := correlateEvents

/-! ## What is asked of correlations -/

/-- The calls correlate the same events for the same reason and by the same criteria. -/
def SameCorrelation (c d : CorrelateCall) : Prop :=
  c.eventIds.Perm d.eventIds ∧ c.correlation = d.correlation

/-- The calls are about other events, or have other criteria. -/
def OtherCorrelation (c d : CorrelateCall) : Prop :=
  ¬ (∀ id, id ∈ c.eventIds ↔ id ∈ d.eventIds) ∨ c.correlation.criteria ≠ d.correlation.criteria

/-- The calls of a run with their replies. -/
def replies (calls : List CorrelateCall) (s : IntelligenceState) :
    List (CorrelateCall × CorrelateReply) :=
  calls.zip (correlations.run calls s).1

/-- Every correlation gets one id and keeps one situation, others get other ids, and the lists of
the callers stay as they are. -/
structure Lawful (calls : List CorrelateCall) (s : IntelligenceState) : Prop where
  oneId : ∀ p ∈ replies calls s, ∀ q ∈ replies calls s, SameCorrelation p.1 q.1 →
    ∃ id, p.2.answer = .ok [id] ∧ q.2.answer = .ok [id]
  oneSituation : ∀ p ∈ replies calls s, ∃! id,
    ((correlations.exec calls s).situations id).isSome ∧
      ∃ q ∈ replies calls s, SameCorrelation p.1 q.1 ∧ q.2.answer = .ok [id]
  otherIds : ∀ p ∈ replies calls s, ∀ q ∈ replies calls s, OtherCorrelation p.1 q.1 →
    ∀ id, p.2.answer = .ok [id] → q.2.answer ≠ .ok [id]
  listKept : ∀ p ∈ replies calls s, p.2.eventIds = p.1.eventIds

/-- The text of which the id holds a hash. -/
def hashedUnits (call : CorrelateCall) : List ℕ :=
  utf16 (join '|' (sortStrings call.eventIds)) ++ utf16 call.correlation.criteria.stringify

/-- The hashes of the calls have one size. -/
def HashesCollide (c d : CorrelateCall) : Prop :=
  polynomialAt31 (hashedUnits c) ≡ polynomialAt31 (hashedUnits d) [ZMOD 2 ^ 32] ∨
    polynomialAt31 (hashedUnits c) ≡ -polynomialAt31 (hashedUnits d) [ZMOD 2 ^ 32]

/-- The calls on which the service does what is asked. -/
structure Favourable (calls : List CorrelateCall) : Prop where
  hasReason : ∀ call ∈ calls, (normalizedReason call.correlation).isSome
  sameTime : ∀ c ∈ calls, ∀ d ∈ calls, SameCorrelation c d → c.derivedAt = d.derivedAt
  otherTime : ∀ c ∈ calls, ∀ d ∈ calls, OtherCorrelation c d →
    c.derivedAt = d.derivedAt → ¬ HashesCollide c d
  sorted : ∀ call ∈ calls, call.eventIds.Pairwise codeUnitLe

/-! ## Ids -/

/-- The id that a call gets. -/
def situationId (call : CorrelateCall) : String :=
  (deriveSituationIdFromCorrelation call.eventIds call.correlation call.derivedAt).1

theorem colon_notMem_base36 (n : ℕ) : ':' ∉ (base36 n).toList :=
  fun h => absurd (mem_base36 h) (by decide)

/-- Two calls get one id in one millisecond, when their hashes collide. -/
theorem situationId_eq_iff (c d : CorrelateCall) :
    situationId c = situationId d ↔ HashesCollide c d ∧ c.derivedAt = d.derivedAt := by
  have hid : ∀ call : CorrelateCall, situationId call =
      join ':' ["situation", base36 (hash32 (hashedUnits call)).natAbs,
        base36 call.derivedAt] := by
    intro call
    refine String.toList_inj.mp ?_
    unfold situationId deriveSituationIdFromCorrelation hashedUnits hash32
    rw [List.foldl_append]
    simp [List.intercalate]
  have hparts : ∀ m n : ℕ, ∀ part ∈ ["situation", base36 m, base36 n], ':' ∉ part.toList := by
    intro m n part hpart
    simp only [List.mem_cons, List.not_mem_nil, or_false] at hpart
    rcases hpart with rfl | rfl | rfl
    · decide
    · exact colon_notMem_base36 m
    · exact colon_notMem_base36 n
  unfold HashesCollide
  rw [← natAbs_hash32_eq_iff, hid, hid]
  constructor
  · intro h
    have hlists := join_injective (List.cons_ne_nil _ _) (List.cons_ne_nil _ _) (hparts _ _)
      (hparts _ _) h
    simp only [List.cons.injEq, true_and, and_true] at hlists
    exact ⟨base36_injective hlists.1, base36_injective hlists.2⟩
  · rintro ⟨hhash, htime⟩
    rw [hhash, htime]

/-- Calls of one correlation hash the same text. -/
theorem SameCorrelation.collide {c d : CorrelateCall} (h : SameCorrelation c d) :
    HashesCollide c d := by
  have hunits : hashedUnits c = hashedUnits d := by
    unfold hashedUnits
    rw [sortStrings_eq_iff.mpr h.1, h.2]
  exact Or.inl (by rw [hunits])

theorem SameCorrelation.refl (call : CorrelateCall) : SameCorrelation call call :=
  ⟨List.Perm.refl _, rfl⟩

/-! ## Replies -/

/-- A call with events and a reason. -/
theorem correlateEvents_of_reason {call : CorrelateCall} (hevents : call.eventIds ≠ [])
    {reason : String} (hreason : normalizedReason call.correlation = some reason)
    (s : IntelligenceState) :
    correlateEvents call s =
      (⟨.ok [situationId call], sortStrings call.eventIds⟩,
        { s with
          situations := Function.update s.situations (situationId call)
            (some (correlatedSituation (s.situations (situationId call)) (situationId call) reason
              (sortStrings call.eventIds) call.now)) }) := by
  have hlength : ¬ call.eventIds.length < 1 := by
    have := List.length_pos_iff.mpr hevents
    omega
  unfold correlateEvents
  rw [if_neg hlength, hreason]
  rfl

/-- The reply to a call, which does not depend on the state. -/
def replyTo (call : CorrelateCall) : CorrelateReply :=
  (correlateEvents call {}).1

theorem correlateEvents_reply (call : CorrelateCall) (s : IntelligenceState) :
    (correlateEvents call s).1 = replyTo call := by
  unfold replyTo correlateEvents
  split
  · rfl
  · cases normalizedReason call.correlation <;> rfl

theorem run_replies (calls : List CorrelateCall) (s : IntelligenceState) :
    (correlations.run calls s).1 = calls.map replyTo := by
  induction calls generalizing s with
  | nil => rfl
  | cons call calls ih =>
      exact congrArg₂ List.cons (correlateEvents_reply call s) (ih (correlateEvents call s).2)

theorem replies_eq_map (calls : List CorrelateCall) (s : IntelligenceState) :
    replies calls s = calls.map fun call => (call, replyTo call) := by
  have hzip : (calls.map id).zip (calls.map replyTo) = _ := List.zip_map'
  rw [List.map_id] at hzip
  unfold replies
  rw [run_replies]
  exact hzip

theorem replyTo_of_reason {call : CorrelateCall} (hevents : call.eventIds ≠ [])
    (hreason : (normalizedReason call.correlation).isSome) :
    replyTo call = ⟨.ok [situationId call], sortStrings call.eventIds⟩ := by
  rcases Option.isSome_iff_exists.mp hreason with ⟨reason, hsome⟩
  unfold replyTo
  rw [correlateEvents_of_reason hevents hsome]

/-- An answered call has a reason. -/
theorem answer_eq_ok {call : CorrelateCall} {ids : List String}
    (h : (replyTo call).answer = .ok ids) :
    (normalizedReason call.correlation).isSome ∧ ids = [situationId call] := by
  unfold replyTo correlateEvents at h
  split at h
  · cases h
  · cases hreason : normalizedReason call.correlation with
    | none =>
        rw [hreason] at h
        cases h
    | some reason =>
        rw [hreason] at h
        cases h
        exact ⟨rfl, rfl⟩

/-! ## Situations -/

/-- No call removes a situation. -/
theorem correlateEvents_keeps (call : CorrelateCall) (s : IntelligenceState) (id : String)
    (h : (s.situations id).isSome) : ((correlateEvents call s).2.situations id).isSome := by
  by_cases hevents : call.eventIds = []
  · unfold correlateEvents
    rw [hevents]
    exact h
  · cases hreason : normalizedReason call.correlation with
    | none =>
        unfold correlateEvents
        rw [hreason]
        split <;> exact h
    | some reason =>
        rw [correlateEvents_of_reason hevents hreason]
        dsimp only
        by_cases hid : id = situationId call
        · rw [hid, Function.update_self]
          rfl
        · rw [Function.update_of_ne hid]
          exact h

/-- A call with events and a reason leaves a situation under its id. -/
theorem correlateEvents_stores {call : CorrelateCall} (hevents : call.eventIds ≠ [])
    (hreason : (normalizedReason call.correlation).isSome) (s : IntelligenceState) :
    ((correlateEvents call s).2.situations (situationId call)).isSome := by
  rcases Option.isSome_iff_exists.mp hreason with ⟨reason, hsome⟩
  rw [correlateEvents_of_reason hevents hsome]
  dsimp only
  rw [Function.update_self]
  rfl

/-- After a run there is a situation under the id of each call. -/
theorem exec_stores {calls : List CorrelateCall} {call : CorrelateCall} (hcall : call ∈ calls)
    (hevents : call.eventIds ≠ []) (hreason : (normalizedReason call.correlation).isSome)
    (s : IntelligenceState) :
    ((correlations.exec calls s).situations (situationId call)).isSome := by
  rcases List.append_of_mem hcall with ⟨before, after, rfl⟩
  rw [Machine.exec_append, Machine.exec_cons]
  exact correlations.run_invariant
    (fun next _ t ht => correlateEvents_keeps next t (situationId call) ht)
    (correlateEvents_stores hevents hreason (correlations.exec before s))

/-! ## Runs -/

theorem mem_replies {calls : List CorrelateCall} {s : IntelligenceState} {call : CorrelateCall}
    (hcall : call ∈ calls) : (call, replyTo call) ∈ replies calls s := by
  rw [replies_eq_map]
  exact List.mem_map_of_mem hcall

theorem forall_replies {calls : List CorrelateCall} {s : IntelligenceState}
    {P : CorrelateCall × CorrelateReply → Prop} (h : ∀ call ∈ calls, P (call, replyTo call)) :
    ∀ p ∈ replies calls s, P p := by
  intro p hp
  rw [replies_eq_map] at hp
  rcases List.mem_map.mp hp with ⟨call, hcall, rfl⟩
  exact h call hcall

/-- Sorting changes every list that is not sorted. -/
theorem sortStrings_eq_self_iff (parts : List String) :
    sortStrings parts = parts ↔ parts.Pairwise codeUnitLe := by
  constructor
  · intro h
    rw [← h]
    exact List.pairwise_insertionSort codeUnitLe parts
  · exact fun h => h.insertionSort_eq

section Laws

variable {calls : List CorrelateCall} {s : IntelligenceState}

/-- What is asked of the replies puts conditions on the calls. -/
theorem Lawful.favourable (h : Lawful calls s) (hevents : ∀ call ∈ calls, call.eventIds ≠ []) :
    Favourable calls := by
  have hreason : ∀ call ∈ calls, (normalizedReason call.correlation).isSome := by
    intro call hcall
    rcases h.oneId _ (mem_replies hcall) _ (mem_replies hcall) (SameCorrelation.refl call) with
      ⟨id, hanswer, -⟩
    exact (answer_eq_ok hanswer).1
  have hanswer : ∀ call ∈ calls, replyTo call = ⟨.ok [situationId call],
      sortStrings call.eventIds⟩ :=
    fun call hcall => replyTo_of_reason (hevents call hcall) (hreason call hcall)
  refine ⟨hreason, ?_, ?_, ?_⟩
  · intro c hc d hd hsame
    rcases h.oneId _ (mem_replies hc) _ (mem_replies hd) hsame with ⟨id, hidc, hidd⟩
    have hc' := (answer_eq_ok hidc).2
    have hd' := (answer_eq_ok hidd).2
    have hids : situationId c = situationId d := by
      rw [hc', List.cons.injEq] at hd'
      exact hd'.1
    exact ((situationId_eq_iff c d).mp hids).2
  · intro c hc d hd hother htime hcollide
    have hids := (situationId_eq_iff c d).mpr ⟨hcollide, htime⟩
    have hidc : (replyTo c).answer = .ok [situationId c] := by
      rw [hanswer c hc]
    have hidd : (replyTo d).answer = .ok [situationId c] := by
      rw [hanswer d hd, hids]
    exact h.otherIds _ (mem_replies hc) _ (mem_replies hd) hother _ hidc hidd
  · intro call hcall
    have hkept := h.listKept _ (mem_replies hcall)
    rw [hanswer call hcall] at hkept
    exact (sortStrings_eq_self_iff call.eventIds).mp hkept

/-- On favourable calls the service does what is asked. -/
theorem Favourable.lawful (h : Favourable calls) (hevents : ∀ call ∈ calls, call.eventIds ≠ []) :
    Lawful calls s := by
  have hanswer : ∀ call ∈ calls, replyTo call = ⟨.ok [situationId call],
      sortStrings call.eventIds⟩ :=
    fun call hcall => replyTo_of_reason (hevents call hcall) (h.hasReason call hcall)
  have hids : ∀ c ∈ calls, ∀ d ∈ calls, SameCorrelation c d → situationId d = situationId c :=
    fun c hc d hd hsame => ((situationId_eq_iff c d).mpr
      ⟨hsame.collide, h.sameTime c hc d hd hsame⟩).symm
  refine ⟨?_, ?_, ?_, ?_⟩
  · refine forall_replies fun c hc => forall_replies fun d hd hsame => ⟨situationId c, ?_, ?_⟩
    · rw [hanswer c hc]
    · rw [hanswer d hd, hids c hc d hd hsame]
  · refine forall_replies fun c hc => ⟨situationId c, ⟨?_, ?_⟩, ?_⟩
    · exact exec_stores hc (hevents c hc) (h.hasReason c hc) s
    · exact ⟨_, mem_replies hc, SameCorrelation.refl c, by rw [hanswer c hc]⟩
    · rintro id ⟨-, q, hq, hsame, hid⟩
      rw [replies_eq_map] at hq
      rcases List.mem_map.mp hq with ⟨d, hd, rfl⟩
      have hd' := (answer_eq_ok hid).2
      rw [List.cons.injEq] at hd'
      rw [hd'.1, hids c hc d hd hsame]
  · refine forall_replies fun c hc => forall_replies fun d hd hother id hidc hidd => ?_
    have hc' := (answer_eq_ok hidc).2
    have hd' := (answer_eq_ok hidd).2
    rw [hc', List.cons.injEq] at hd'
    rcases (situationId_eq_iff c d).mp hd'.1 with ⟨hcollide, htime⟩
    exact h.otherTime c hc d hd hother htime hcollide
  · refine forall_replies fun c hc => ?_
    rw [hanswer c hc]
    exact (sortStrings_eq_self_iff c.eventIds).mpr (h.sorted c hc)

end Laws

/-- A run of correlations does what is asked exactly when each call gives a reason, the calls of
one correlation fall into one millisecond, calls about other events or with other criteria differ
in the time or in the hash, and the lists are sorted. -/
theorem correlations_lawful_iff {calls : List CorrelateCall}
    (hevents : ∀ call ∈ calls, call.eventIds ≠ []) (s : IntelligenceState) :
    Lawful calls s ↔ Favourable calls :=
  ⟨fun h => h.favourable hevents, fun h => h.lawful hevents⟩

/-! ## Two events, correlated twice -/

def sameProvider : Correlation where
  reason := some "same provider"
  criteria := .object [("manual", .bool true)]

/-- Events, correlated by hand. -/
def byHand (eventIds : List String) (time : ℕ) : CorrelateCall where
  eventIds := eventIds
  correlation := sameProvider
  derivedAt := time
  now := time

theorem byHand_hasReason (eventIds : List String) (time : ℕ) :
    (normalizedReason (byHand eventIds time).correlation).isSome := by
  change (normalizedReason sameProvider).isSome
  decide +kernel

/-- Twice in one millisecond. -/
theorem twice_lawful :
    Lawful [byHand ["event:1", "event:2"] 7, byHand ["event:1", "event:2"] 7] {} := by
  have hcalls : ∀ call ∈ [byHand ["event:1", "event:2"] 7, byHand ["event:1", "event:2"] 7],
      call = byHand ["event:1", "event:2"] 7 := by
    intro call hcall
    simpa using hcall
  refine (correlations_lawful_iff (fun call hcall => ?_) {}).mpr ⟨?_, ?_, ?_, ?_⟩
  · rw [hcalls call hcall]
    exact List.cons_ne_nil _ _
  · intro call hcall
    rw [hcalls call hcall]
    exact byHand_hasReason _ _
  · intro c hc d hd _
    rw [hcalls c hc, hcalls d hd]
  · intro c hc d hd hother
    rw [hcalls c hc, hcalls d hd] at hother
    rcases hother with hids | hcriteria
    · exact absurd (fun id => Iff.rfl) hids
    · exact absurd rfl hcriteria
  · intro call hcall
    rw [hcalls call hcall]
    decide +kernel

/-- A millisecond apart the same events get two ids, other events may share one, and a list that
is not sorted is changed. -/
theorem correlations_unlawful :
    ¬ Lawful [byHand ["event:1", "event:2"] 7, byHand ["event:2", "event:1"] 8] {} ∧
      ¬ Lawful [byHand ["Aa"] 7, byHand ["BB"] 7] {} ∧
      ¬ Lawful [byHand ["event:2", "event:1"] 7] {} := by
  refine ⟨fun h => ?_, fun h => ?_, fun h => ?_⟩
  · have hfavourable := h.favourable (by simp [byHand])
    have htime := hfavourable.sameTime _ List.mem_cons_self _
      (List.mem_cons_of_mem _ List.mem_cons_self) ⟨List.Perm.swap _ _ _, rfl⟩
    exact absurd htime (by decide)
  · have hfavourable := h.favourable (by simp [byHand])
    have hother : OtherCorrelation (byHand ["Aa"] 7) (byHand ["BB"] 7) :=
      Or.inl fun hids => absurd ((hids "Aa").mp List.mem_cons_self) (by decide)
    exact hfavourable.otherTime _ List.mem_cons_self _
      (List.mem_cons_of_mem _ List.mem_cons_self) hother rfl (Or.inl (by decide +kernel))
  · have hfavourable := h.favourable (by simp [byHand])
    have hsorted := hfavourable.sorted _ List.mem_cons_self
    exact absurd hsorted (by decide +kernel)

end ElevaIntelligenceService
end Eleva
