import Eleva.Database.SoftDelete
import Eleva.Foundation.Loops

/-!
# Database - Cascades in pages of any size

The loop that marks the live children of a row reads a page of them, marks each, and goes on until
a page is empty or short.  Each page that is neither leaves fewer live children.

Main results:

- Definition {lit}`cascadeRound`: one round, with pages of a given size.
- Theorem {lit}`cascadeLoop_ends`: the loop ends.
- Theorem {lit}`cascadeLoop_ok`: where it has not thrown, it has marked the live children and
  nothing else.
- Theorem {lit}`cascadeLoop_returns`: it does not throw where no statement fails.
- Theorem {lit}`cascade_loopEnds`: the cascades of the services are this loop.
- Theorem {lit}`cascadeLoop_closes`: what the loop does, row by row.
-/

namespace Eleva

open Foundation Database

namespace TableOf

variable {Row : Type} [TenantRow Row] [DecidableEq Row] {t : TableOf Row} {S : Option Id}

section Round

variable (t : TableOf Row) (m : Delegate Row) (env : LifecycleEnv) (f : Where Row)
  (data : Payload Row) (size : ℕ) (label : ℕ → ℕ)

/-- The next page of live children; {lit}`label` names the statement of the round. -/
def nextPage (round : ℕ) : Service (List Row) :=
  attempt (env.fails (.batchRead (label round))) (t.run do
    let result ← invoke env.toEnv m .findMany (.page f size)
    return result.found)

/-- One round: mark a page, and go on unless it was empty or short. -/
def cascadeRound (round : ℕ) : Service Bool := do
  let batch ← nextPage t m env f size label round
  if batch.length = 0 then pure false
  else do
    markBatch t m env data batch
    pure (!decide (batch.length < size))

end Round

section Loop

variable {m : Delegate Row} {env : LifecycleEnv} {f : Where Row} {data : Payload Row}
  {size : ℕ} {label : ℕ → ℕ} {p : Row → Bool} {w w' : World}

theorem nextPage_ok {round : ℕ} {batch : List Row} (hctx : env.context.Sees S)
    (hm : m.model ∉ unscopedModels)
    (hknown : ({ whereArg := f } : Args Row).unknownColumn m = false)
    (h : nextPage t m env f size label round w = (.ok batch, w')) :
    w' = w ∧ batch = ((t.get w.db).filter ((f.inScope S).admits m)).take size := by
  have hrun := (attempt_eq_ok.mp h).2
  rw [run_page hctx hm hknown] at hrun
  cases hrun
  exact ⟨rfl, rfl⟩

/-- Some of the selected rows are marked, and nothing else has happened. -/
structure Marked (t : TableOf Row) (p : Row → Bool) (data : Payload Row) (w w' : World) :
    Prop where
  world : w' = { w with db := t.set (t.get w'.db) w.db }
  ids : (t.get w'.db).map TenantRow.id = (t.get w.db).map TenantRow.id
  left : rewriteWhere p data.apply (t.get w'.db) = rewriteWhere p data.apply (t.get w.db)

omit [DecidableEq Row] in
theorem Marked.refl (t : TableOf Row) (p : Row → Bool) (data : Payload Row) (w : World) :
    Marked t p data w w where
  world := by rw [t.set_get]
  ids := rfl
  left := rfl

/-- Marking a page of selected rows. -/
theorem Marked.page (h : Marks t m p data S) {w₀ : World} (hmarked : Marked t p data w₀ w)
    {batch : List Row} (hbatch : ∀ r ∈ batch, p r = true)
    (hw' : w' = { w with db := t.set (rewriteMembers batch data.apply (t.get w.db)) w.db }) :
    Marked t p data w₀ w' where
  world := by
    rw [hw', t.get_set, hmarked.world]
    simp only [h.set_set, t.get_set]
  ids := by
    rw [hw', t.get_set, rewriteMembers, map_rewriteWhere h.id_apply, hmarked.ids]
  left := by
    rw [hw', t.get_set, rewriteMembers_then_where hbatch h.done, hmarked.left]

/-- What a round that returned has done: it has marked selected rows, fewer are left where another
round follows, and none is left where it was the last one. -/
theorem cascadeRound_ok (h : Marks t m p data S) (hctx : env.context.Sees S)
    (hp : (f.inScope S).admits m = p)
    (hknown : ({ whereArg := f } : Args Row).unknownColumn m = false) (hsize : 1 ≤ size)
    {round : ℕ} {goesOn : Bool} (hids : ((t.get w.db).map TenantRow.id).Nodup)
    (hrun : cascadeRound t m env f data size label round w = (.ok goesOn, w')) :
    ∃ batch, (∀ r ∈ batch, p r = true) ∧
      w' = { w with db := t.set (rewriteMembers batch data.apply (t.get w.db)) w.db } ∧
      (goesOn = true → (t.get w'.db).countP p < (t.get w.db).countP p) ∧
      (goesOn = false →
        rewriteMembers batch data.apply (t.get w.db) =
          rewriteWhere p data.apply (t.get w.db)) := by
  rcases Fallible.bind_eq_ok.mp hrun with ⟨batch, w₁, hread, hrest⟩
  rcases nextPage_ok hctx h.isScoped hknown hread with ⟨rfl, hbatch⟩
  rw [hp] at hbatch
  have hselected : ∀ r ∈ batch, r ∈ t.get w₁.db ∧ p r = true := fun r hr => by
    rw [hbatch] at hr
    exact List.mem_filter.mp (List.mem_of_mem_take hr)
  have hshort : batch.length < size →
      rewriteMembers batch data.apply (t.get w₁.db) = rewriteWhere p data.apply (t.get w₁.db) := by
    intro hless
    have hall : batch = (t.get w₁.db).filter p := by
      rw [hbatch, List.length_take] at hless
      rw [hbatch]
      exact List.take_of_length_le (by omega)
    rw [hall, rewriteMembers_filter]
  by_cases hempty : batch.length = 0
  · rw [if_pos hempty] at hrest
    cases hrest
    have hnone : rewriteMembers batch data.apply (t.get w'.db) = t.get w'.db := by
      rw [List.length_eq_zero_iff.mp hempty]
      exact rewriteWhere_of_none fun _ _ => rfl
    refine ⟨batch, fun r hr => (hselected r hr).2, ?_, Bool.noConfusion,
      fun _ => hshort (by omega)⟩
    rw [hnone, t.set_get]
  · rw [if_neg hempty] at hrest
    rcases Fallible.bind_eq_ok.mp hrest with ⟨_, w₂, hmark, hend⟩
    have hnodup : batch.Nodup := by
      rw [hbatch]
      exact (((List.Nodup.of_map _ hids).filter _).sublist (List.take_sublist _ _))
    have hmarked := markBatch_ok h hctx hids hnodup (fun r hr => (hselected r hr).1)
      (fun r hr => (hselected r hr).2) hmark
    cases hend
    refine ⟨batch, fun r hr => (hselected r hr).2, hmarked, fun _ => ?_, fun hgoes => ?_⟩
    · rcases List.exists_mem_of_length_pos (Nat.pos_of_ne_zero hempty) with ⟨r, hr⟩
      rw [hmarked, t.get_set]
      exact countP_rewriteMembers_lt (hselected r hr).1 hr (hselected r hr).2 h.done
    · refine hshort ?_
      simpa using hgoes

section Ends

variable (h : Marks t m p data S) (hctx : env.context.Sees S) (hp : (f.inScope S).admits m = p)
  (hknown : ({ whereArg := f } : Args Row).unknownColumn m = false) (hsize : 1 ≤ size)
  (hids : ((t.get w.db).map TenantRow.id).Nodup)

include h hctx hp hknown hsize hids

/-- The loop ends: the number of live children is a measure. -/
theorem cascadeLoop_ends (round : ℕ) :
    ∃ result, LoopEnds (cascadeRound t m env f data size label) round w result := by
  refine LoopEnds.of_measure (fun w' => ((t.get w'.db).map TenantRow.id).Nodup)
    (fun w' => (t.get w'.db).countP p) (fun round w₁ w₂ hids₁ hround => ?_) hids
  rcases cascadeRound_ok h hctx hp hknown hsize hids₁ hround with ⟨batch, hbatch, hw₂, hless, -⟩
  refine ⟨?_, hless rfl⟩
  rw [hw₂, t.get_set, rewriteMembers, map_rewriteWhere h.id_apply]
  exact hids₁

/-- A loop that has not thrown has marked the live children, and nothing else. -/
theorem cascadeLoop_ok {round : ℕ} {u : Unit}
    (hloop : LoopEnds (cascadeRound t m env f data size label) round w (.ok u, w')) :
    w' = { w with db := t.set (rewriteWhere p data.apply (t.get w.db)) w.db } := by
  have hafter := hloop.invariant (Marked t p data w)
    (fun result => result.1.isOk = true →
      result.2 = { w with db := t.set (rewriteWhere p data.apply (t.get w.db)) w.db })
    (fun round w₁ w₂ hmarked hround => ?_) (fun round w₁ w₂ hmarked hround _ => ?_)
    (fun _ _ _ _ _ _ hok => by cases hok) (Marked.refl t p data w)
  · exact hafter rfl
  · rcases cascadeRound_ok h hctx hp hknown hsize (hmarked.ids ▸ hids) hround with
      ⟨batch, hbatch, hw₂, -, -⟩
    exact hmarked.page h hbatch hw₂
  · rcases cascadeRound_ok h hctx hp hknown hsize (hmarked.ids ▸ hids) hround with
      ⟨batch, hbatch, hw₂, -, hlast⟩
    have hworld := (hmarked.page h hbatch hw₂).world
    have hrows : t.get w₂.db = rewriteWhere p data.apply (t.get w.db) := by
      rw [hw₂, t.get_set, hlast rfl, hmarked.left]
    rw [hrows] at hworld
    exact hworld

end Ends

/-! ## Rounds that do not throw -/

/-- A marked row gives up a unique key or keeps it, and names what it named. -/
structure Unblocked (t : TableOf Row) (data : Payload Row) : Prop where
  keys : ∀ key ∈ t.uniqueKeys,
    (∀ r, key (data.apply r) = key r) ∨ ∀ r, key (data.apply r) = none
  references : ∀ db r, t.references db (data.apply r) = t.references db r
  references_set : ∀ rows db r, t.references (t.set rows db) r = t.references db r

section Returns

variable (hfree : Unblocked t data) (hquiet : ∀ statement, env.fails statement = false)

omit [DecidableEq Row] in
include hfree in
/-- Marking rows of a table in order leaves it in order. -/
theorem Unblocked.valid {db : Db} (hvalid : t.Valid db) (q : Row → Bool) :
    t.Valid (t.set (rewriteWhere q data.apply (t.get db)) db) := by
  refine ⟨?_, fun r hr => ?_⟩
  · have haccepts := hvalid.1
    unfold Store.accepts at haccepts ⊢
    simp only [List.all_nil, Bool.and_true, List.all_eq_true, decide_eq_true_eq,
      t.get_set] at haccepts ⊢
    intro key hkey
    rcases hfree.keys key hkey with hsame | hnone
    · have hkeys : (rewriteWhere q data.apply (t.get db)).filterMap key =
          (t.get db).filterMap key := by
        unfold rewriteWhere
        rw [List.filterMap_map]
        refine List.filterMap_congr fun r _ => ?_
        simp only [Function.comp]
        split
        · exact hsame r
        · rfl
      rw [hkeys]
      exact haccepts key hkey
    · exact (haccepts key hkey).sublist (filterMap_rewriteWhere_sublist hnone (t.get db))
  · rw [t.get_set] at hr
    rw [hfree.references_set]
    rcases mem_rewriteWhere.mp hr with ⟨r₀, hr₀, rfl⟩
    split
    · rw [hfree.references]
      exact hvalid.2 r₀ hr₀
    · exact hvalid.2 r₀ hr₀

include hfree in
/-- Marking one child. -/
theorem run_mark (h : Marks t m p data S) (hctx : env.context.Sees S) (hvalid : t.Valid w.db)
    {child : Row} (hchild : child ∈ t.get w.db) (hvisible : visible S child = true) :
    ∃ a, t.run (m.update env.toEnv { id := some (TenantRow.id child) } data) w =
      (.ok a, { w with
        db := t.set (rewriteWhere (ownRow S (TenantRow.id child)) data.apply (t.get w.db))
          w.db }) := by
  have hmarked := hfree.valid hvalid (ownRow S (TenantRow.id child))
  have hown : ownRow S (TenantRow.id child) child = true := by
    simp [ownRow, hvisible]
  have hfound : ∃ target, (t.get w.db).find? (ownRow S (TenantRow.id child)) = some target := by
    cases hfind : (t.get w.db).find? (ownRow S (TenantRow.id child)) with
    | some target => exact ⟨target, rfl⟩
    | none =>
        have hnot := List.find?_eq_none.mp hfind child hchild
        exact absurd hown hnot
  rcases hfound with ⟨target, hfind⟩
  have haccepts : ({ rows := t.get w.db, uniqueKeys := t.uniqueKeys } : Store Row).accepts
      (rewriteWhere (ownRow S (TenantRow.id child)) data.apply (t.get w.db)) = true := by
    have hnew := hmarked.1
    rw [t.get_set] at hnew
    exact hnew
  have hupdate := Delegate.update_apply hctx h.isScoped (w := { id := some (TenantRow.id child) })
    (d := data) (by simp [Args.unknownColumn]) h.nested
    { rows := t.get w.db, uniqueKeys := t.uniqueKeys }
  rw [admits_ownRow h.isRow, hfind] at hupdate
  refine ⟨_, run_of_ok (hupdate.trans (if_pos haccepts)) fun r hr => Or.inr ?_⟩
  have hrow := hmarked.2 r (by rw [t.get_set]; exact hr)
  rwa [hfree.references_set] at hrow

include hfree hquiet in
/-- Marking a page. -/
theorem markBatch_returns (h : Marks t m p data S) (hctx : env.context.Sees S) {batch : List Row}
    (hvalid : t.Valid w.db) (hids : ((t.get w.db).map TenantRow.id).Nodup) (hnodup : batch.Nodup)
    (hbatch : ∀ r ∈ batch, r ∈ t.get w.db ∧ p r = true) :
    ∃ w', markBatch t m env data batch w = (.ok (), w') := by
  induction batch generalizing w with
  | nil => exact ⟨w, rfl⟩
  | cons child rest ih =>
      rcases hbatch child List.mem_cons_self with ⟨hchild, hp⟩
      rcases run_mark hfree h hctx hvalid hchild (h.inScope child hp) with ⟨a, hrun⟩
      have hstep : attempt (env.fails (.childWrite (TenantRow.id child)))
          (t.run (m.update env.toEnv { id := some (TenantRow.id child) } data)) w =
            (.ok a, { w with
              db := t.set (rewriteWhere (ownRow S (TenantRow.id child)) data.apply (t.get w.db))
                w.db }) := by
        rw [hquiet, attempt_false]
        exact hrun
      rcases List.nodup_cons.mp hnodup with ⟨hnew, hrest⟩
      have hlater : ∃ w', markBatch t m env data rest { w with
          db := t.set (rewriteWhere (ownRow S (TenantRow.id child)) data.apply (t.get w.db))
            w.db } = (.ok (), w') := by
        refine ih (hfree.valid hvalid _) ?_ hrest fun r hr => ?_
        · rw [t.get_set, map_rewriteWhere h.id_apply]
          exact hids
        · rcases hbatch r (List.mem_cons_of_mem _ hr) with ⟨hmem, hpr⟩
          refine ⟨?_, hpr⟩
          rw [t.get_set]
          refine mem_rewriteWhere_of_not hmem ?_
          have hother : TenantRow.id child ≠ TenantRow.id r := fun hid => by
            rw [List.inj_on_of_nodup_map hids hchild hmem hid] at hnew
            exact hnew hr
          simp [ownRow, hother]
      rcases hlater with ⟨w', hlater⟩
      exact ⟨w', (Fallible.bind_of_ok hstep).trans hlater⟩

include hfree hquiet in
/-- A round returns where no statement fails and the table is in order. -/
theorem cascadeRound_returns (h : Marks t m p data S) (hctx : env.context.Sees S)
    (hp : (f.inScope S).admits m = p)
    (hknown : ({ whereArg := f } : Args Row).unknownColumn m = false) (hvalid : t.Valid w.db)
    (hids : ((t.get w.db).map TenantRow.id).Nodup) (round : ℕ) :
    ∃ goesOn w', cascadeRound t m env f data size label round w = (.ok goesOn, w') := by
  have hread : nextPage t m env f size label round w =
      (.ok (((t.get w.db).filter p).take size), w) := by
    unfold nextPage
    rw [hquiet, attempt_false, run_page hctx h.isScoped hknown, hp]
  have hround := Fallible.bind_of_ok hread (f := fun batch => if batch.length = 0 then pure false
    else do
      markBatch t m env data batch
      pure (!decide (batch.length < size)))
  by_cases hempty : (((t.get w.db).filter p).take size).length = 0
  · rw [if_pos hempty] at hround
    exact ⟨false, w, hround⟩
  · rw [if_neg hempty] at hround
    have hmarks : ∃ w', markBatch t m env data (((t.get w.db).filter p).take size) w =
        (.ok (), w') := by
      refine markBatch_returns hfree hquiet h hctx hvalid hids ?_ fun r hr => ?_
      · exact ((List.Nodup.of_map _ hids).filter _).sublist (List.take_sublist _ _)
      · exact List.mem_filter.mp (List.mem_of_mem_take hr)
    rcases hmarks with ⟨w', hmarks⟩
    rw [Fallible.bind_of_ok hmarks] at hround
    exact ⟨_, w', hround⟩

include hfree hquiet in
/-- The loop does not throw where no statement fails and the table is in order. -/
theorem cascadeLoop_returns (h : Marks t m p data S) (hctx : env.context.Sees S)
    (hp : (f.inScope S).admits m = p)
    (hknown : ({ whereArg := f } : Args Row).unknownColumn m = false) (hsize : 1 ≤ size)
    (hvalid : t.Valid w.db) (hids : ((t.get w.db).map TenantRow.id).Nodup) {round : ℕ}
    {result : Except AppError Unit × World}
    (hloop : LoopEnds (cascadeRound t m env f data size label) round w result) :
    result.1 = .ok () := by
  refine hloop.invariant
    (fun w' => ((t.get w'.db).map TenantRow.id).Nodup ∧ t.Valid w'.db)
    (fun result => result.1 = .ok ()) (fun round w₁ w₂ hinv hround => ?_)
    (fun _ _ _ _ _ => rfl) (fun round w₁ w₂ e hinv hround => ?_) ⟨hids, hvalid⟩
  · rcases cascadeRound_ok h hctx hp hknown hsize hinv.1 hround with ⟨batch, -, hw₂, -, -⟩
    rw [hw₂]
    refine ⟨?_, hfree.valid hinv.2 _⟩
    rw [t.get_set, rewriteMembers, map_rewriteWhere h.id_apply]
    exact hinv.1
  · rcases cascadeRound_returns hfree hquiet h hctx hp hknown hinv.2 hinv.1 round with
      ⟨goesOn, w', hreturns⟩
    cases hround.symm.trans hreturns

end Returns

/-! ## The loop of the services -/

/-- Rounds that outnumber the live children are the loop. -/
theorem cascadeRounds_loopEnds (h : Marks t m p data S) (hctx : env.context.Sees S)
    (hp : (f.inScope S).admits m = p)
    (hknown : ({ whereArg := f } : Args Row).unknownColumn m = false) {bound round rounds : ℕ}
    (hsum : round + rounds = bound + 1) (hids : ((t.get w.db).map TenantRow.id).Nodup)
    (hrounds : (t.get w.db).countP p < rounds) :
    LoopEnds (cascadeRound t m env f data CASCADE_BATCH_SIZE fun k => bound - k) round w
      (cascadeRounds t m env f data rounds w) := by
  induction rounds generalizing w round with
  | zero => exact absurd hrounds (Nat.not_lt_zero _)
  | succ rounds ih =>
      have hlabel : bound - round = rounds := by omega
      have hpage : nextPage t m env f CASCADE_BATCH_SIZE (fun k => bound - k) round =
          nextBatch t m env f rounds := by
        have hsame : ∀ k, k = rounds → nextBatch t m env f k = nextBatch t m env f rounds :=
          fun k hk => by rw [hk]
        exact hsame (bound - round) hlabel
      rcases hread : nextBatch t m env f rounds w with ⟨e | batch, w₁⟩
      · have hrun : cascadeRounds t m env f data (rounds + 1) w = (.error e, w₁) :=
          Fallible.bind_of_error hread
        rw [hrun]
        rw [← hpage] at hread
        exact .fail (Fallible.bind_of_error hread)
      · have hrun : cascadeRounds t m env f data (rounds + 1) w =
            (if batch.length = 0 then pure () else do
              markBatch t m env data batch
              if batch.length < CASCADE_BATCH_SIZE then pure ()
              else cascadeRounds t m env f data rounds) w₁ :=
          Fallible.bind_of_ok hread
        rw [← hpage] at hread
        have hround : cascadeRound t m env f data CASCADE_BATCH_SIZE (fun k => bound - k) round w =
            (if batch.length = 0 then pure false else do
              markBatch t m env data batch
              pure (!decide (batch.length < CASCADE_BATCH_SIZE))) w₁ :=
          Fallible.bind_of_ok hread
        rw [hrun]
        by_cases hempty : batch.length = 0
        · rw [if_pos hempty] at hround ⊢
          exact .stop hround
        · rw [if_neg hempty] at hround ⊢
          rcases hmark : markBatch t m env data batch w₁ with ⟨e | u, w₂⟩
          · rw [Fallible.bind_of_error hmark] at hround ⊢
            exact .fail hround
          · rw [Fallible.bind_of_ok hmark] at hround ⊢
            by_cases hlast : batch.length < CASCADE_BATCH_SIZE
            · rw [if_pos hlast]
              simp only [hlast, decide_true, Bool.not_true] at hround
              exact .stop hround
            · rw [if_neg hlast]
              simp only [hlast, decide_false, Bool.not_false] at hround
              have hagain : cascadeRound t m env f data CASCADE_BATCH_SIZE (fun k => bound - k)
                  round w = (.ok true, w₂) := hround
              rcases cascadeRound_ok h hctx hp hknown (by decide) hids hagain with
                ⟨marked, hbatch, hw₂, hless, -⟩
              have hfewer := hless rfl
              refine .again hagain (ih (by omega) ?_ (by omega))
              rw [hw₂, t.get_set, rewriteMembers, map_rewriteWhere h.id_apply]
              exact hids

/-- The cascades of the services are the loop with the page size of the services. -/
theorem cascade_loopEnds (h : Marks t m p data S) (hctx : env.context.Sees S)
    (hp : (f.inScope S).admits m = p)
    (hknown : ({ whereArg := f } : Args Row).unknownColumn m = false)
    (hids : ((t.get w.db).map TenantRow.id).Nodup) :
    LoopEnds (cascadeRound t m env f data CASCADE_BATCH_SIZE fun k => (t.get w.db).length - k) 0 w
      (cascade t m env f data w) :=
  cascadeRounds_loopEnds h hctx hp hknown (Nat.zero_add _) hids
    (Nat.lt_succ_of_le List.countP_le_length)

/-- A cascade that returned has marked the live children, and nothing else. -/
theorem cascade_ok (h : Marks t m p data S) (hctx : env.context.Sees S)
    (hp : (f.inScope S).admits m = p)
    (hknown : ({ whereArg := f } : Args Row).unknownColumn m = false) {u : Unit}
    (hids : ((t.get w.db).map TenantRow.id).Nodup)
    (hrun : cascade t m env f data w = (.ok u, w')) :
    w' = { w with db := t.set (rewriteWhere p data.apply (t.get w.db)) w.db } := by
  have hloop := cascade_loopEnds h hctx hp hknown hids
  rw [hrun] at hloop
  exact cascadeLoop_ok h hctx hp hknown (by decide) hids hloop

end Loop

/-! ## What the loop leaves -/

/-- What a loop over the live children of a row does from a state on.  It ends, in one way, and it
returns where no statement fails.  Where it returned, the live children of the tenant have their
tombstones and every other row is as it was, so that a live child is left only where another tenant
had one. -/
structure ClosesChildren (t : TableOf Row) (column : DeletedAtColumn Row) (env : LifecycleEnv)
    (isChild : Row → Bool) (tenantId : Id) (tombstone : Row → Row) (body : ℕ → Service Bool)
    (w : World) : Prop where
  ends : ∃ result, LoopEnds body 0 w result ∧ ∀ result', LoopEnds body 0 w result' →
    result' = result
  returns : (∀ statement, env.fails statement = false) → ∃ w', LoopEnds body 0 w (.ok (), w')
  world : ∀ w', LoopEnds body 0 w (.ok (), w') →
    w' = { w with db := t.set (t.get w'.db) w.db } ∧ (t.get w'.db).length = (t.get w.db).length
  marked : ∀ (w' : World) (i : ℕ) (r : Row), LoopEnds body 0 w (.ok (), w') →
    (t.get w.db)[i]? = some r → isChild r = true →
      TenantRow.tenantId r = some tenantId → column.get r = none →
        (t.get w'.db)[i]? = some (tombstone r)
  kept : ∀ (w' : World) (i : ℕ) (r : Row), LoopEnds body 0 w (.ok (), w') →
    (t.get w.db)[i]? = some r → (isChild r = false ∨ TenantRow.tenantId r ≠ some tenantId ∨
      column.get r ≠ none) → (t.get w'.db)[i]? = some r
  none_left : ∀ w', LoopEnds body 0 w (.ok (), w') → ∀ r ∈ t.get w'.db, isChild r = true →
    TenantRow.tenantId r = some tenantId → column.get r ≠ none
  complete : ∀ w', LoopEnds body 0 w (.ok (), w') →
    ((∀ r ∈ t.get w'.db, isChild r = true → column.get r ≠ none) ↔
      ∀ r ∈ t.get w.db, isChild r = true → column.get r = none →
        TenantRow.tenantId r = some tenantId)

section Closes

variable {m : Delegate Row} {env : LifecycleEnv} {f : Where Row} {data : Payload Row}
  {size : ℕ} {label : ℕ → ℕ} {isChild : Row → Bool} {tenantId : Id}
  {column : DeletedAtColumn Row} {w : World}

/-- The live children of a tenant. -/
def isLiveChildOf (column : DeletedAtColumn Row) (isChild : Row → Bool) (tenantId : Id)
    (r : Row) : Bool :=
  isChild r && TenantRow.tenantId r == some tenantId && (column.get r).isNone

omit [DecidableEq Row] in
theorem isLiveChildOf_iff {r : Row} :
    isLiveChildOf column isChild tenantId r = true ↔
      isChild r = true ∧ TenantRow.tenantId r = some tenantId ∧ column.get r = none := by
  simp [isLiveChildOf, and_assoc]

omit [DecidableEq Row] in
/-- The ids of a table in order are distinct. -/
theorem Valid.nodup_ids {db : Db} (hvalid : t.Valid db)
    (hprimary : (fun r => some (TenantRow.id r)) ∈ t.uniqueKeys) :
    ((t.get db).map TenantRow.id).Nodup := by
  have haccepts := hvalid.1
  unfold Store.accepts at haccepts
  simp only [List.all_nil, Bool.and_true, List.all_eq_true, decide_eq_true_eq] at haccepts
  have hids := haccepts _ hprimary
  rwa [List.filterMap_eq_map'] at hids

/-- The loop over the live children of a row. -/
theorem cascadeLoop_closes (hctx : env.context.Sees S)
    (h : Marks t m (isLiveChildOf column isChild tenantId) data S)
    (hp : (f.inScope S).admits m = isLiveChildOf column isChild tenantId)
    (hknown : ({ whereArg := f } : Args Row).unknownColumn m = false)
    (hfree : Unblocked t data) (hmarked : ∀ r, column.get (data.apply r) ≠ none)
    (hprimary : (fun r => some (TenantRow.id r)) ∈ t.uniqueKeys) (hsize : 1 ≤ size)
    (hvalid : t.Valid w.db) :
    t.ClosesChildren column env isChild tenantId data.apply
      (cascadeRound t m env f data size label) w := by
  have hids := hvalid.nodup_ids hprimary
  have hafter : ∀ w', LoopEnds (cascadeRound t m env f data size label) 0 w (.ok (), w') →
      w' = { w with db := t.set (rewriteWhere (isLiveChildOf column isChild tenantId) data.apply
        (t.get w.db)) w.db } := fun _ hloop => cascadeLoop_ok h hctx hp hknown hsize hids hloop
  have hrows : ∀ w', LoopEnds (cascadeRound t m env f data size label) 0 w (.ok (), w') →
      t.get w'.db =
        rewriteWhere (isLiveChildOf column isChild tenantId) data.apply (t.get w.db) :=
    fun _ hloop => by rw [hafter _ hloop, t.get_set]
  have hat : ∀ (w' : World) (i : ℕ) (r : Row),
      LoopEnds (cascadeRound t m env f data size label) 0 w (.ok (), w') →
        (t.get w.db)[i]? = some r → (t.get w'.db)[i]? =
          some (if isLiveChildOf column isChild tenantId r then data.apply r else r) :=
    fun w' i r hloop hi => by
      rw [hrows _ hloop, rewriteWhere, List.getElem?_map, hi]
      rfl
  refine ⟨?_, fun hquiet => ?_, fun w' hloop => ⟨?_, ?_⟩,
    fun w' i r hloop hi hchild hown hlive => ?_, fun w' i r hloop hi hother => ?_,
    fun w' hloop r hr hchild hown hlive => ?_,
    fun w' hloop => ⟨fun hnone r hr hchild hlive => ?_, fun hown r hr hchild hlive => ?_⟩⟩
  · rcases cascadeLoop_ends h hctx hp hknown hsize hids 0 with ⟨result, hends⟩
    exact ⟨result, hends, fun _ hends' => hends.unique hends'⟩
  · rcases cascadeLoop_ends h hctx hp hknown hsize hids 0 with ⟨⟨answer, w'⟩, hends⟩
    have hok := cascadeLoop_returns hfree hquiet h hctx hp hknown hsize hvalid hids hends
    have hanswer : answer = .ok () := hok
    rw [hanswer] at hends
    exact ⟨w', hends⟩
  · rw [hrows _ hloop]
    exact hafter _ hloop
  · rw [hrows _ hloop, rewriteWhere, List.length_map]
  · rw [hat w' i r hloop hi, if_pos (isLiveChildOf_iff.mpr ⟨hchild, hown, hlive⟩)]
  · rw [hat w' i r hloop hi, if_neg]
    intro hselected
    rcases isLiveChildOf_iff.mp hselected with ⟨hchild, hown, hlive⟩
    rcases hother with hother | hother | hother
    · rw [hchild] at hother
      cases hother
    · exact hother hown
    · exact hother hlive
  · rw [hrows _ hloop] at hr
    rcases mem_rewriteWhere.mp hr with ⟨r₀, hr₀, rfl⟩
    split at hlive
    · exact hmarked r₀ hlive
    · rename_i hnot
      rw [if_neg hnot] at hchild hown
      exact hnot (isLiveChildOf_iff.mpr ⟨hchild, hown, hlive⟩)
  · by_contra hown
    refine hnone r ?_ hchild hlive
    rw [hrows _ hloop]
    refine mem_rewriteWhere_of_not hr ?_
    simp [isLiveChildOf, hown]
  · rw [hrows _ hloop] at hr
    rcases mem_rewriteWhere.mp hr with ⟨r₀, hr₀, rfl⟩
    split at hlive
    · exact hmarked r₀ hlive
    · rename_i hnot
      rw [if_neg hnot] at hchild
      exact hnot (isLiveChildOf_iff.mpr ⟨hchild, hown r₀ hr₀ hchild hlive, hlive⟩)

end Closes

end TableOf
end Eleva
