import Eleva.Foundation.JsonTrees
import Mathlib.Data.Int.Notation
import Mathlib.Data.List.Sort
import Mathlib.Order.Defs.LinearOrder

/-!
# Agent - Anomalies in events

The intelligence service keeps events and the rules that look for anomalies in them.  The rule
for repeated failures sorts the times of the failures, takes the last three and compares each of
them with the first one; the difference it takes is never positive, so the window never counts.

Main results:

- Theorem {lit}`repeatedFailures_isSome_iff`: the rule reports any three failures.
- Theorem {lit}`repeatedFailures_reported_iff`: {lit}`detectAnomalies` judges a list of events
  rightly exactly when the list has fewer than three failures, or three within five minutes.
-/

namespace Eleva

open Foundation

namespace ElevaIntelligenceService

/-! ## State -/

structure Event where
  id : String
  signalId : String
  source : String
  category : String
  type : String
  receivedAt : ℤ
  data : List (String × Json)
  correlationKey : Option String := none
deriving Repr

/-- What a rule reports, with the events it is about. -/
structure Evidence where
  eventIds : List String
  count : ℕ
  windowMs : Option ℕ := none
deriving DecidableEq, Repr

structure Finding where
  triggered : Bool
  reason : Option String := none
  evidence : Option Evidence := none
deriving DecidableEq, Repr

structure AnomalyRule where
  id : String
  name : String
  description : String
  evaluate : List Event → Option Finding

inductive SituationState
  | DETECTED
  | INVESTIGATING
  | ACTIVE
  | RESOLVED
deriving DecidableEq, Repr

inductive Severity
  | LOW
  | MEDIUM
  | HIGH
  | CRITICAL
deriving DecidableEq, Repr

structure Situation where
  id : String
  state : SituationState
  severity : Severity
  eventIds : List String
  correlationReason : Option String
  detectedAt : ℕ
  lastUpdatedAt : ℕ
  knownImpact : Option String := none
  analysis : Option String := none
  recommendations : List String := []
  alerts : List String := []
  evidence : List Json := []
  resolution : Option String := none
deriving Repr

/-! ## The rules -/

/-- Five minutes. -/
def windowMs : ℕ := 5 * 60 * 1000

/-- {lit}`values.slice(-n)`. -/
def lastOf {α : Type} (n : ℕ) (values : List α) : List α :=
  values.drop (values.length - n)

def failuresOf (events : List Event) : List Event :=
  events.filter (·.type == "system.failure")

/-- Each of the times is compared with the first one. -/
def withinWindow (arr : List ℤ) : Bool :=
  arr.all fun timestamp => arr.head?.all fun first => first - timestamp ≤ windowMs

/-- The rule for repeated failures. -/
def evaluateRepeatedFailures (events : List Event) : Option Finding :=
  let failureEvents := failuresOf events
  if failureEvents.length < 3 then none
  else
    let timestamps := (failureEvents.map (·.receivedAt)).insertionSort (· ≤ ·)
    if withinWindow (lastOf 3 timestamps) then
      some
        { triggered := true
          reason := some "3 or more system.failure events occurred within 5 minutes."
          evidence := some
            { eventIds := failureEvents.map (·.id)
              count := failureEvents.length
              windowMs := some windowMs } }
    else none

def repeatedFailures : AnomalyRule where
  id := "repeated-failures-window"
  name := "Repeated failures within a configured window"
  description := "Flags multiple system failure signals in a short time window."
  evaluate := evaluateRepeatedFailures

/-- The message of an error: its text, or the JSON of what there is. -/
def errorMessage (event : Event) : String :=
  match event.data.lookup "message" with
  | some (.string message) => message
  | some .null => (Json.object event.data).stringify
  | some value => value.stringify
  | none => (Json.object event.data).stringify

/-- Add an event to the group of its message; new groups come last. -/
def addToGroup (id message : String) :
    List (String × List String) → List (String × List String)
  | [] => [(message, [id])]
  | (key, ids) :: groups =>
      if key = message then (key, ids ++ [id]) :: groups
      else (key, ids) :: addToGroup id message groups

/-- The rule for repeated errors. -/
def evaluateIdenticalErrors (events : List Event) : Option Finding :=
  let grouped := (events.filter (·.type == "system.error")).foldl
    (fun groups event => addToGroup event.id (errorMessage event) groups) []
  (grouped.find? fun group => group.2.length ≥ 5).map fun group =>
    { triggered := true
      reason := some "The same system error message occurred 5 or more times."
      evidence := some { eventIds := group.2, count := group.2.length } }

def identicalErrors : AnomalyRule where
  id := "repeated-identical-errors"
  name := "Repeated identical errors"
  description := "Flags repeated identical system errors."
  evaluate := evaluateIdenticalErrors

/-- The maps of the service. -/
structure IntelligenceState where
  events : String → Option Event := fun _ => none
  situations : String → Option Situation := fun _ => none
  anomalyRules : List AnomalyRule := [repeatedFailures, identicalErrors]

/-- Put a rule into the map, in the place of one with its id. -/
def registerAnomalyRule (rule : AnomalyRule) (s : IntelligenceState) : IntelligenceState :=
  { s with
    anomalyRules :=
      if s.anomalyRules.any (·.id == rule.id) then
        s.anomalyRules.map fun other => if other.id = rule.id then rule else other
      else s.anomalyRules ++ [rule] }

/-! ## Detection -/

structure Anomaly where
  ruleId : String
  reason : Option String
  evidence : Option Evidence
deriving DecidableEq, Repr

def requireEvent (s : IntelligenceState) (eventId : String) : Except String Event :=
  match s.events eventId with
  | some event => .ok event
  | none => .error ("Event [" ++ eventId ++ "] was not found.")

/-- What a rule adds to the list. -/
def anomalyOf (events : List Event) (rule : AnomalyRule) : Option Anomaly :=
  ((rule.evaluate events).filter (·.triggered)).map fun result =>
    { ruleId := rule.id, reason := result.reason, evidence := result.evidence }

def detectAnomalies (s : IntelligenceState) (eventIds : List String) :
    Except String (List Anomaly) := do
  let events ← eventIds.mapM (requireEvent s)
  return s.anomalyRules.filterMap (anomalyOf events)

/-! ## Failures in a window -/

/-- Three failures of the list lie within some span of five minutes. -/
def ThreeWithinWindow (events : List Event) : Prop :=
  ∃ three : List Event, three.Sublist events ∧ three.length = 3 ∧
    (∀ event ∈ three, event.type = "system.failure") ∧
    ∃ start : ℤ, ∀ event ∈ three, start ≤ event.receivedAt ∧ event.receivedAt ≤ start + windowMs

/-- The anomaly is reported. -/
def RepeatedFailuresReported (result : Except String (List Anomaly)) : Prop :=
  ∃ anomalies, result = .ok anomalies ∧
    ∃ anomaly ∈ anomalies, anomaly.ruleId = "repeated-failures-window"

/-- Of a list in ascending order every time is within the window of the first. -/
theorem withinWindow_of_sorted {arr : List ℤ} (h : arr.Pairwise (· ≤ ·)) :
    withinWindow arr = true := by
  unfold withinWindow
  cases arr with
  | nil => rfl
  | cons first rest =>
      refine List.all_eq_true.mpr fun timestamp htimestamp => ?_
      have hle : first ≤ timestamp := by
        rcases List.mem_cons.mp htimestamp with rfl | hmem
        · exact Int.le_refl _
        · exact (List.pairwise_cons.mp h).1 timestamp hmem
      have hwindow : (0 : ℤ) ≤ windowMs := Int.natCast_nonneg windowMs
      simp only [List.head?_cons, Option.all_some, decide_eq_true_eq]
      omega

/-- The rule reports any three failures. -/
theorem repeatedFailures_isSome_iff (events : List Event) :
    (anomalyOf events repeatedFailures).isSome ↔ 3 ≤ (failuresOf events).length := by
  have hsorted := List.pairwise_insertionSort (· ≤ ·) ((failuresOf events).map (·.receivedAt))
  have hwithin := withinWindow_of_sorted
    (hsorted.sublist (List.drop_sublist (_ - 3) _) : (lastOf 3 _).Pairwise (· ≤ ·))
  change (((evaluateRepeatedFailures events).filter (·.triggered)).map _).isSome ↔ _
  unfold evaluateRepeatedFailures
  by_cases hfew : (failuresOf events).length < 3
  · rw [if_pos hfew]
    exact iff_of_false (by simp) (by omega)
  · rw [if_neg hfew, if_pos hwithin]
    exact iff_of_true rfl (by omega)

theorem three_le_of_window {events : List Event} (h : ThreeWithinWindow events) :
    3 ≤ (failuresOf events).length := by
  rcases h with ⟨three, hsub, hlength, htype, -⟩
  have hall : three.filter (·.type == "system.failure") = three :=
    List.filter_eq_self.mpr fun event hevent => beq_iff_eq.mpr (htype event hevent)
  have hle := (hsub.filter (·.type == "system.failure")).length_le
  rw [hall, hlength] at hle
  exact hle

/-- The anomaly is reported when the rule finds it. -/
theorem reported_iff {s : IntelligenceState} {eventIds : List String} {events : List Event}
    (hfound : eventIds.mapM (requireEvent s) = .ok events)
    (hrule : repeatedFailures ∈ s.anomalyRules)
    (hunique : ∀ rule ∈ s.anomalyRules, rule.id = repeatedFailures.id → rule = repeatedFailures) :
    RepeatedFailuresReported (detectAnomalies s eventIds) ↔
      (anomalyOf events repeatedFailures).isSome := by
  have hresult : detectAnomalies s eventIds =
      .ok (s.anomalyRules.filterMap (anomalyOf events)) := by
    unfold detectAnomalies
    rw [hfound]
    rfl
  rw [hresult]
  constructor
  · rintro ⟨anomalies, hanomalies, anomaly, hmem, hid⟩
    cases hanomalies
    rcases List.mem_filterMap.mp hmem with ⟨rule, hin, hof⟩
    rcases Option.map_eq_some_iff.mp hof with ⟨finding, -, rfl⟩
    rw [← hunique rule hin hid, hof]
    rfl
  · intro hsome
    rcases Option.isSome_iff_exists.mp hsome with ⟨anomaly, hof⟩
    have hid : anomaly.ruleId = repeatedFailures.id := by
      rcases Option.map_eq_some_iff.mp hof with ⟨finding, -, rfl⟩
      rfl
    exact ⟨_, rfl, anomaly, List.mem_filterMap.mpr ⟨_, hrule, hof⟩, hid⟩

/-- A list of events is judged rightly exactly when it has fewer than three failures, or three
within five minutes. -/
theorem repeatedFailures_reported_iff {s : IntelligenceState} {eventIds : List String}
    {events : List Event} (hfound : eventIds.mapM (requireEvent s) = .ok events)
    (hrule : repeatedFailures ∈ s.anomalyRules)
    (hunique : ∀ rule ∈ s.anomalyRules, rule.id = repeatedFailures.id → rule = repeatedFailures) :
    (RepeatedFailuresReported (detectAnomalies s eventIds) ↔ ThreeWithinWindow events) ↔
      (failuresOf events).length < 3 ∨ ThreeWithinWindow events := by
  rw [reported_iff hfound hrule hunique, repeatedFailures_isSome_iff]
  constructor
  · intro h
    by_cases hfew : (failuresOf events).length < 3
    · exact Or.inl hfew
    · exact Or.inr (h.mp (Nat.not_lt.mp hfew))
  · rintro (hfew | hwindow)
    · refine iff_of_false (Nat.not_le.mpr hfew) fun hwindow => ?_
      exact absurd (three_le_of_window hwindow) (Nat.not_le.mpr hfew)
    · exact iff_of_true (three_le_of_window hwindow) hwindow

/-! ## Three failures in three hours -/

/-- A failure at a time. -/
def failureAt (id : String) (receivedAt : ℤ) : Event where
  id := id
  signalId := "signal-1"
  source := "provider-a"
  category := "SYSTEM"
  type := "system.failure"
  receivedAt := receivedAt
  data := []

/-- The service with three failures, the given time apart. -/
def withFailures (apart : ℤ) : IntelligenceState where
  events
    | "event-1" => some (failureAt "event-1" 0)
    | "event-2" => some (failureAt "event-2" apart)
    | "event-3" => some (failureAt "event-3" (2 * apart))
    | _ => none

def failureIds : List String :=
  ["event-1", "event-2", "event-3"]

theorem withFailures_found (apart : ℤ) :
    failureIds.mapM (requireEvent (withFailures apart)) =
      .ok [failureAt "event-1" 0, failureAt "event-2" apart, failureAt "event-3" (2 * apart)] :=
  rfl

theorem withFailures_rule (apart : ℤ) : repeatedFailures ∈ (withFailures apart).anomalyRules :=
  List.mem_cons_self

theorem withFailures_unique (apart : ℤ) :
    ∀ rule ∈ (withFailures apart).anomalyRules,
      rule.id = repeatedFailures.id → rule = repeatedFailures := by
  intro rule hrule hid
  rcases List.mem_cons.mp hrule with rfl | hrule
  · rfl
  · rw [List.mem_singleton.mp hrule] at hid
    exact absurd hid (by decide)

/-- Failures that come a minute after each other are judged rightly. -/
theorem minutes_judged :
    RepeatedFailuresReported (detectAnomalies (withFailures 60000) failureIds) ↔
      ThreeWithinWindow
        [failureAt "event-1" 0, failureAt "event-2" 60000, failureAt "event-3" (2 * 60000)] := by
  refine (repeatedFailures_reported_iff (withFailures_found 60000) (withFailures_rule 60000)
    (withFailures_unique 60000)).mpr (Or.inr ?_)
  exact ⟨_, List.Sublist.refl _, rfl, by decide, 0, by decide⟩

/-- Failures that come an hour after each other are reported as well. -/
theorem hours_reported :
    RepeatedFailuresReported (detectAnomalies (withFailures 3600000) failureIds) ∧
      ¬ ThreeWithinWindow
        [failureAt "event-1" 0, failureAt "event-2" 3600000,
          failureAt "event-3" (2 * 3600000)] := by
  constructor
  · rw [reported_iff (withFailures_found _) (withFailures_rule _) (withFailures_unique _),
      repeatedFailures_isSome_iff]
    decide
  · rintro ⟨three, hsub, hlength, -, start, hspan⟩
    rw [hsub.eq_of_length hlength] at hspan
    have hfirst := (hspan (failureAt "event-1" 0) (by simp)).1
    have hlast := (hspan (failureAt "event-3" (2 * 3600000)) (by simp)).2
    simp only [failureAt, windowMs] at hfirst hlast
    omega

end ElevaIntelligenceService
end Eleva
