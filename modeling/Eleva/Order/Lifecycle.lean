import Eleva.Foundation.Interleaving
import Eleva.Foundation.ListRelations
import Eleva.Order.Status

/-!
# Order - The life cycle under interleaving

Concurrent status updates and cancellations, each in three atomic steps: read the order
and check the transition, re-read it inside the repository, write the row.  The check
looks at the status that was read, the write replaces whatever is stored by then.

Main results:

- Definition {lit}`statusCalls`: the interleaved calls.
- Theorem {lit}`statusCalls_follow_edges_iff`: every change follows the transitions and
  terminal statuses stay, exactly when every write finds a status that it may replace.
- Theorem {lit}`cancelled_order_is_accepted`: a stale read revives a cancelled order.
-/

namespace Eleva
namespace OrderService

open Foundation Database

/-! ## Calls as atomic steps -/

/-- A call that changes the status of an order. -/
inductive StatusCall where
  | updateOrderStatus (id : Id) (status : OrderStatus)
  | cancelOrder (id : Id)
deriving DecidableEq, Repr

namespace StatusCall

def id : StatusCall → Id
  | .updateOrderStatus id _ => id
  | .cancelOrder id => id

/-- The status that the call writes. -/
def target : StatusCall → OrderStatus
  | .updateOrderStatus _ status => status
  | .cancelOrder _ => .CANCELLED

/-- The check that the call makes on the status it read. -/
def check : StatusCall → OrderStatus → Except AppError Unit
  | .updateOrderStatus _ status, current => validateStateTransition current status
  | .cancelOrder _, current => validateCancellation current

end StatusCall

/-- How far a call has come. -/
inductive Phase where
  | start
  | checked (current : OrderStatus)
  | reread (current : OrderStatus) (entityId : Id)
  | written (order : Order)
  | failed (error : AppError)

/-- Go on with what a step returned, or fail with what it threw. -/
def advance {α : Type} (outcome : Except AppError α × World) (next : α → Phase) :
    World × Phase :=
  match outcome with
  | (.ok a, w) => (w, next a)
  | (.error e, w) => (w, .failed e)

/-- The next atomic step of a call. -/
def callStep (env : StatusEnv) (call : StatusCall) (w : World) : Phase → World × Phase
  | .start => advance (readAndCheck env call.id call.check w) .checked
  | .checked current => advance (rereadOrder env call.id w) (.reread current)
  | .reread _ entityId => advance (writeStatus env entityId call.target w) .written
  | .written order => (w, .written order)
  | .failed e => (w, .failed e)

/-- The surroundings of one step whose statement fails or not. -/
def StatusEnv.failing (env : StatusEnv) (fails : Bool) : StatusEnv :=
  { env with fails := fun _ => fails }

/-- Any number of calls on one database.  The schedule says which call moves and
whether its statement fails. -/
def statusCalls {ι : Type} (env : ι → StatusEnv) (call : ι → StatusCall) :
    CallSystem ι Bool World Phase where
  next i fails w phase := callStep ((env i).failing fails) (call i) w phase

/-- A call whose steps run in a row does what the service does up to the write. -/
theorem callStep_alone (env : StatusEnv) (call : StatusCall) (w : World) :
    let first := callStep env call w .start
    let second := callStep env call first.1 first.2
    callStep env call second.1 second.2 =
      advance ((readAndCheck env call.id call.check >>= fun _ =>
        changeStatus env call.id call.target) w) .written := by
  simp only [callStep, Fallible.bind_apply]
  rcases readAndCheck env call.id call.check w with ⟨read | read, w₁⟩
  · rfl
  · simp only [advance, changeStatus, Fallible.bind_apply]
    rcases rereadOrder env call.id w₁ with ⟨found | found, w₂⟩ <;> rfl

/-! ## Transitions -/

/-- Every order has kept its status or moved along the state machine. -/
def FollowsEdges (before after : List Order) : Prop :=
  List.Forall₂ (fun a b => b.status = a.status ∨ b.status ∈ allowedTransitions a.status)
    before after

/-- Every order that was completed or cancelled has kept its status. -/
def TerminalKept (before after : List Order) : Prop :=
  List.Forall₂ (fun a b => a.status = .COMPLETED ∨ a.status = .CANCELLED → b.status = a.status)
    before after

instance (before after : List Order) : Decidable (FollowsEdges before after) :=
  inferInstanceAs (Decidable (List.Forall₂ _ before after))

instance (before after : List Order) : Decidable (TerminalKept before after) :=
  inferInstanceAs (Decidable (List.Forall₂ _ before after))

/-- A status other than CANCELLED is reached from one status only. -/
theorem allowedTransitions_unique {a b target : OrderStatus}
    (ha : target ∈ allowedTransitions a) (hb : target ∈ allowedTransitions b) :
    target = .CANCELLED ∨ a = b := by
  cases a <;> simp only [allowedTransitions, List.mem_cons, List.not_mem_nil, or_false] at ha
  all_goals
    rcases ha with rfl | rfl
    · cases b <;> simp [allowedTransitions] at hb ⊢
    · exact Or.inl rfl

/-- Every status but the terminal ones can be cancelled. -/
theorem cancelled_mem_allowedTransitions {a : OrderStatus} (hcompleted : a ≠ .COMPLETED)
    (hcancelled : a ≠ .CANCELLED) : OrderStatus.CANCELLED ∈ allowedTransitions a := by
  cases a <;> simp_all [allowedTransitions]

/-- Nothing leaves a terminal status. -/
theorem allowedTransitions_terminal {a : OrderStatus} (ha : a = .COMPLETED ∨ a = .CANCELLED) :
    allowedTransitions a = [] := by
  rcases ha with rfl | rfl <;> rfl

/-- The statuses that a call which read {lit}`current` may replace: the one it read, the
one it writes, and anything but COMPLETED when it writes CANCELLED. -/
def MayReplace (call : StatusCall) (current stored : OrderStatus) : Prop :=
  stored = current ∨ stored = call.target ∨ (call.target = .CANCELLED ∧ stored ≠ .COMPLETED)

instance (call : StatusCall) (current stored : OrderStatus) :
    Decidable (MayReplace call current stored) :=
  inferInstanceAs (Decidable (stored = current ∨ stored = call.target ∨
    (call.target = .CANCELLED ∧ stored ≠ .COMPLETED)))

/-- A checked call moves along the state machine exactly when it replaces a status that
it may replace. -/
theorem edge_iff_mayReplace {call : StatusCall} {current stored : OrderStatus}
    (hcheck : call.check current = .ok ()) :
    (call.target = stored ∨ call.target ∈ allowedTransitions stored) ↔
      MayReplace call current stored := by
  have hread : call.target ∈ allowedTransitions current ∨
      (call.target = .CANCELLED ∧ current ≠ .COMPLETED) := by
    cases call with
    | updateOrderStatus id status =>
        left
        by_contra hno
        simp only [StatusCall.target] at hno
        simp [StatusCall.check, validateStateTransition, hno] at hcheck
    | cancelOrder id =>
        right
        refine ⟨rfl, ?_⟩
        rintro rfl
        simp [StatusCall.check, validateCancellation] at hcheck
  unfold MayReplace
  constructor
  · rintro (heq | hedge)
    · exact Or.inr (Or.inl heq.symm)
    · have hstored : stored ≠ .COMPLETED := by
        rintro rfl
        simp [allowedTransitions] at hedge
      rcases hread with hread | ⟨hcancel, _⟩
      · rcases allowedTransitions_unique hedge hread with hcancel | rfl
        · exact Or.inr (Or.inr ⟨hcancel, hstored⟩)
        · exact Or.inl rfl
      · exact Or.inr (Or.inr ⟨hcancel, hstored⟩)
  · have hcancelled : call.target = .CANCELLED → stored ≠ .COMPLETED →
        call.target = stored ∨ call.target ∈ allowedTransitions stored := by
      intro hcancel hstored
      by_cases hsame : stored = .CANCELLED
      · exact Or.inl (hcancel.trans hsame.symm)
      · rw [hcancel]
        exact Or.inr (cancelled_mem_allowedTransitions hstored hsame)
    rintro (rfl | rfl | ⟨hcancel, hstored⟩)
    · rcases hread with hread | ⟨hcancel, hstored⟩
      · exact Or.inr hread
      · exact hcancelled hcancel hstored
    · exact Or.inl rfl
    · exact hcancelled hcancel hstored

theorem FollowsEdges.refl (rows : List Order) : FollowsEdges rows rows :=
  List.forall₂_same.mpr fun _ _ => Or.inl rfl

theorem TerminalKept.refl (rows : List Order) : TerminalKept rows rows :=
  List.forall₂_same.mpr fun _ _ _ => rfl

theorem TerminalKept.trans {rows rows' rows'' : List Order} (h : TerminalKept rows rows')
    (h' : TerminalKept rows' rows'') : TerminalKept rows rows'' := by
  refine forall₂_trans h h' fun a b c hab hbc hterminal => ?_
  have hb := hab hterminal
  rw [hbc (by rwa [hb]), hb]

/-- A change along the state machine leaves terminal statuses alone. -/
theorem FollowsEdges.terminalKept {rows rows' : List Order} (h : FollowsEdges rows rows') :
    TerminalKept rows rows' := by
  refine List.Forall₂.imp (fun a b hab hterminal => ?_) h
  rcases hab with hsame | hedge
  · exact hsame
  · rw [allowedTransitions_terminal hterminal] at hedge
    cases hedge

/-- Writing a status follows the state machine exactly when it does on every row that
it replaces. -/
theorem followsEdges_setStatus {S : Option Id} {id : Id} {status : OrderStatus}
    {rows : List Order} :
    FollowsEdges rows (setStatus S id status rows) ↔
      ∀ order ∈ rows, order.id = id → visible S order = true →
        status = order.status ∨ status ∈ allowedTransitions order.status := by
  unfold FollowsEdges setStatus
  rw [List.forall₂_map_right_iff, List.forall₂_same]
  refine forall₂_congr fun order _ => ?_
  by_cases hid : order.id = id
  · by_cases htenant : visible S order = true
    · simp [hid, htenant]
    · simp [htenant]
  · simp [hid, Ne.symm hid]

/-! ## Valid databases -/

/-- The constraints of the order table: unique ids and foreign keys that name rows. -/
structure OrdersValid (db : Db) : Prop where
  ids : (db.orders.map (·.id)).Nodup
  references : ∀ order ∈ db.orders, order.references db = true

theorem setStatus_map_id (S : Option Id) (id : Id) (status : OrderStatus) (rows : List Order) :
    (setStatus S id status rows).map (·.id) = rows.map (·.id) := by
  unfold setStatus
  rw [List.map_map]
  apply List.map_congr_left
  intro order _
  simp only [Function.comp_apply]
  split <;> rfl

/-- A stored status does not matter to the foreign keys. -/
theorem references_setStatus {db : Db} {S : Option Id} {id : Id} {status : OrderStatus}
    (db' : List Order)
    (h : ∀ order ∈ db.orders, order.references db = true) :
    ∀ order ∈ setStatus S id status db.orders,
      order.references { db with orders := db' } = true := by
  intro order horder
  rcases List.mem_map.mp horder with ⟨before, hbefore, rfl⟩
  have hrefs := h before hbefore
  split <;> exact hrefs

theorem OrdersValid.setStatus {db : Db} (h : OrdersValid db) (S : Option Id) (id : Id)
    (status : OrderStatus) :
    OrdersValid { db with orders := setStatus S id status db.orders } :=
  ⟨(setStatus_map_id S id status db.orders).symm ▸ h.ids, references_setStatus _ h.references⟩

/-- On a valid database a write that does not fail replaces the status. -/
theorem writeStatus_returns {env : StatusEnv} {S : Option Id} {id : Id} {status : OrderStatus}
    {w : World}
    {target : Order} (hctx : env.context.Sees S) (hvalid : OrdersValid w.db)
    (hfails : env.fails .write = false) (htarget : ownOrder w.db S id = some target) :
    writeStatus env id status w =
      (.ok { target with status := status },
        { w with db := { w.db with orders := setStatus S id status w.db.orders } }) := by
  have hm : prisma.order.model ∉ unscopedModels := by decide
  have haccepts : ({ rows := w.db.orders, uniqueKeys := orders.uniqueKeys } :
      Store Order).accepts (setStatus S id status w.db.orders) = true := by
    have hids : (setStatus S id status w.db.orders).filterMap (fun r => some r.id) =
        w.db.orders.map (·.id) := by
      rw [← setStatus_map_id S id status, ← List.filterMap_eq_map]
      rfl
    simp [Store.accepts, orders, hids, hvalid.ids]
  have hrun : orders.run (prisma.order.update env.toEnv { id := some id }
      (statusPayload status)) w =
        (.ok (some { target with status := status }),
          { w with db := { w.db with orders := setStatus S id status w.db.orders } }) := by
    have hstore : prisma.order.update env.toEnv { id := some id } (statusPayload status)
        { rows := orders.get w.db, uniqueKeys := orders.uniqueKeys } =
          (.ok (some { target with status := status }),
            { rows := setStatus S id status w.db.orders, uniqueKeys := orders.uniqueKeys }) := by
      rw [Delegate.update_apply hctx hm rfl rfl]
      simp only [orders, find_update_eq_ownOrder, htarget, map_update_eq_setStatus]
      simp only [orders] at haccepts
      rw [if_pos haccepts]
      rfl
    refine TableOf.run_of_ok hstore fun r hr => Or.inr ?_
    exact references_setStatus w.db.orders hvalid.references r hr
  unfold writeStatus
  rw [hfails, attempt_false, Fallible.bind_of_ok hrun]
  rfl

/-- A write that finds no order of the tenant changes nothing. -/
theorem writeStatus_of_none {env : StatusEnv} {S : Option Id} {id : Id} {status : OrderStatus}
    {w : World}
    (hctx : env.context.Sees S) (hnone : ownOrder w.db S id = none) :
    (writeStatus env id status w).2 = w := by
  cases hwrite : writeStatus env id status w with
  | mk result w' =>
      cases result with
      | error e => exact writeStatus_error hctx hwrite
      | ok order =>
          rcases (writeStatus_ok hctx hwrite).2 with ⟨target, htarget, _⟩
          rw [hnone] at htarget
          cases htarget

/-- A write follows the state machine exactly when it fails or does so on every row that
it replaces. -/
theorem followsEdges_writeStatus {env : StatusEnv} {S : Option Id} {id : Id} {status : OrderStatus}
    {w : World} (hctx : env.context.Sees S) (hvalid : OrdersValid w.db) :
    FollowsEdges w.db.orders (writeStatus env id status w).2.db.orders ↔
      (env.fails .write = false → ∀ order ∈ w.db.orders, order.id = id → visible S order = true →
        status = order.status ∨ status ∈ allowedTransitions order.status) := by
  cases hfails : env.fails .write with
  | true =>
      have hsame : (writeStatus env id status w).2 = w := by
        unfold writeStatus
        rw [hfails]
        rfl
      rw [hsame]
      simp [FollowsEdges.refl]
  | false =>
      cases hfound : ownOrder w.db S id with
      | none =>
          rw [writeStatus_of_none hctx hfound]
          constructor
          · intro _ _ order horder hid htenant
            have hno := List.find?_eq_none.mp hfound order horder
            simp [hid, htenant] at hno
          · intro _
            exact FollowsEdges.refl _
      | some target =>
          rw [writeStatus_returns hctx hvalid hfails hfound, followsEdges_setStatus]
          simp

/-! ## Runs -/

section Runs

variable {ι : Type} [DecidableEq ι] {env : ι → StatusEnv} {call : ι → StatusCall}
  {S : ι → Option Id}

@[simp]
theorem advance_fst {α : Type} (outcome : Except AppError α × World) (next : α → Phase) :
    (advance outcome next).1 = outcome.2 := by
  rcases outcome with ⟨result | result, w⟩ <;> rfl

/-- What a call knows in each phase: the status it read passed its check, and the
repository found the order it was asked for. -/
def PhaseSound (call : StatusCall) : Phase → Prop
  | .checked current => call.check current = .ok ()
  | .reread current entityId => call.check current = .ok () ∧ entityId = call.id
  | _ => True

/-- The invariant of a run. -/
structure RunSound (call : ι → StatusCall) (c : Config ι World Phase) : Prop where
  valid : OrdersValid c.shared.db
  phases : ∀ i, PhaseSound (call i) (c.phase i)

/-- The step moves stored statuses along the state machine only. -/
def EdgeStep (sys : CallSystem ι Bool World Phase) (c : Config ι World Phase)
    (l : ι × Bool) : Prop :=
  FollowsEdges c.shared.db.orders (sys.step c l).shared.db.orders

/-- The step writes no status, or only over statuses that its call may replace. -/
def FreshWrite (S : ι → Option Id) (call : ι → StatusCall) (c : Config ι World Phase)
    (l : ι × Bool) : Prop :=
  match c.phase l.1 with
  | .reread current entityId => l.2 = false →
      ∀ order ∈ c.shared.db.orders, order.id = entityId → visible (S l.1) order = true →
        MayReplace (call l.1) current order.status
  | _ => True

instance (S : ι → Option Id) (call : ι → StatusCall) (c : Config ι World Phase) (l : ι × Bool) :
    Decidable (FreshWrite S call c l) :=
  match hphase : c.phase l.1 with
  | .reread current entityId =>
      decidable_of_iff (l.2 = false → ∀ order ∈ c.shared.db.orders, order.id = entityId →
        visible (S l.1) order = true → MayReplace (call l.1) current order.status)
        (by simp [FreshWrite, hphase])
  | .start => isTrue (by simp [FreshWrite, hphase])
  | .checked _ => isTrue (by simp [FreshWrite, hphase])
  | .written _ => isTrue (by simp [FreshWrite, hphase])
  | .failed _ => isTrue (by simp [FreshWrite, hphase])

/-- What a step of a call does to the database: nothing, or one status write. -/
theorem callStep_cases {env : StatusEnv} {S : Option Id} (hctx : env.context.Sees S)
    (call : StatusCall) (w : World) (phase : Phase) :
    (callStep env call w phase).1 = w ∨
      ∃ current entityId, phase = .reread current entityId ∧
        (callStep env call w phase).1 = { w with db := { w.db with
          orders := setStatus S entityId call.target w.db.orders } } := by
  cases phase with
  | start =>
      left
      simp only [callStep, advance_fst]
      exact readAndCheck_keeps hctx _ _ w rfl
  | checked current =>
      left
      simp only [callStep, advance_fst]
      exact rereadOrder_keeps hctx _ w rfl
  | reread current entityId =>
      simp only [callStep, advance_fst]
      cases hwrite : writeStatus env entityId call.target w with
      | mk result w' =>
          cases result with
          | error e => exact Or.inl (writeStatus_error hctx hwrite)
          | ok order =>
              rcases (writeStatus_ok hctx hwrite).2 with ⟨_, _, _, hdb⟩
              exact Or.inr ⟨current, entityId, rfl, hdb⟩
  | written order => exact Or.inl rfl
  | failed e => exact Or.inl rfl

/-- A step of a call reaches a phase that is sound for it. -/
theorem callStep_phaseSound {env : StatusEnv} {S : Option Id} (hctx : env.context.Sees S)
    {call : StatusCall} (w : World) {phase : Phase} (hphase : PhaseSound call phase) :
    PhaseSound call (callStep env call w phase).2 := by
  cases phase with
  | start =>
      simp only [callStep]
      cases hread : readAndCheck env call.id call.check w with
      | mk result w' =>
          cases result with
          | error e => trivial
          | ok status =>
              rcases (readAndCheck_ok hctx hread).2 with ⟨order, _, hcheck, rfl⟩
              exact hcheck
  | checked current =>
      simp only [callStep]
      cases hread : rereadOrder env call.id w with
      | mk result w' =>
          cases result with
          | error e => trivial
          | ok entityId => exact ⟨hphase, (rereadOrder_ok hctx hread).2.1⟩
  | reread current entityId =>
      simp only [callStep]
      rcases writeStatus env entityId call.target w with ⟨result | result, w'⟩ <;> trivial
  | written order => trivial
  | failed e => trivial

section Sound

variable (hctx : ∀ i, (env i).context.Sees (S i))
include hctx

theorem runSound_step (c : Config ι World Phase) (l : ι × Bool) (h : RunSound call c) :
    RunSound call ((statusCalls env call).step c l) := by
  have hctx' : ((env l.1).failing l.2).context.Sees (S l.1) := hctx l.1
  constructor
  · rw [CallSystem.step_shared]
    change OrdersValid (callStep ((env l.1).failing l.2) (call l.1) c.shared (c.phase l.1)).1.db
    rcases callStep_cases hctx' (call l.1) c.shared (c.phase l.1) with hsame | ⟨_, _, _, hdb⟩
    · rw [hsame]
      exact h.valid
    · rw [hdb]
      exact h.valid.setStatus _ _ _
  · intro i
    by_cases hi : i = l.1
    · subst hi
      rw [CallSystem.step_phase_self]
      exact callStep_phaseSound hctx' c.shared (h.phases l.1)
    · rw [CallSystem.step_phase_of_ne _ _ _ hi]
      exact h.phases i

/-- One step follows the state machine exactly when it writes over statuses that its
call may replace. -/
theorem edgeStep_iff_freshWrite (c : Config ι World Phase) (l : ι × Bool)
    (h : RunSound call c) :
    EdgeStep (statusCalls env call) c l ↔ FreshWrite S call c l := by
  have hctx' : ((env l.1).failing l.2).context.Sees (S l.1) := hctx l.1
  unfold EdgeStep FreshWrite
  rw [CallSystem.step_shared]
  change FollowsEdges _ (callStep ((env l.1).failing l.2) (call l.1) c.shared
    (c.phase l.1)).1.db.orders ↔ _
  have hunwritten : (callStep ((env l.1).failing l.2) (call l.1) c.shared (c.phase l.1)).1 =
      c.shared → (FollowsEdges c.shared.db.orders (callStep ((env l.1).failing l.2) (call l.1)
        c.shared (c.phase l.1)).1.db.orders ↔ True) := by
    intro hsame
    rw [hsame]
    exact iff_true_intro (FollowsEdges.refl _)
  have hread := callStep_cases hctx' (call l.1) c.shared (c.phase l.1)
  have hsound := h.phases l.1
  cases hphase : c.phase l.1 with
  | reread current entityId =>
      rw [hphase] at hsound
      simp only [callStep, advance_fst]
      rw [followsEdges_writeStatus hctx' h.valid]
      refine forall_congr' fun _ => forall₂_congr fun order _ => forall₂_congr fun _ _ => ?_
      exact edge_iff_mayReplace hsound.1
  | _ =>
      rw [hphase] at hunwritten hread
      exact hunwritten (hread.resolve_right (by simp))

end Sound

/-- A run whose steps move along the state machine keeps terminal statuses. -/
theorem terminalKept_of_edgeSteps {sys : CallSystem ι Bool World Phase}
    {c : Config ι World Phase} {ls : List (ι × Bool)}
    (h : sys.EachStep (EdgeStep sys) c ls) :
    TerminalKept c.shared.db.orders (sys.run c ls).shared.db.orders := by
  let Rel : World → World → Prop := fun w w' => TerminalKept w.db.orders w'.db.orders
  have hsteps : sys.EachStep (fun c l => Rel c.shared (sys.step c l).shared) c ls :=
    h.mono fun _ _ hedge => hedge.terminalKept
  have hends : Rel c.shared (sys.run c ls).shared :=
    sys.run_rel (fun w => TerminalKept.refl _) (fun _ _ _ hab hbc => hab.trans hbc) hsteps
  exact hends

/-- Along every schedule of any number of calls, every change of a stored status follows
the transitions and terminal statuses never change again, exactly when every write that
takes place finds a status that its call may replace. -/
theorem statusCalls_follow_edges_iff (env : ι → StatusEnv) (call : ι → StatusCall)
    (S : ι → Option Id) (hctx : ∀ i, (env i).context.Sees (S i)) (w : World)
    (hvalid : OrdersValid w.db) (ls : List (ι × Bool)) :
    ((statusCalls env call).EachStep (EdgeStep (statusCalls env call))
        ⟨w, fun _ => .start⟩ ls ∧
      ∀ pre mid suf, ls = pre ++ mid ++ suf →
        TerminalKept ((statusCalls env call).run ⟨w, fun _ => .start⟩ pre).shared.db.orders
          ((statusCalls env call).run ⟨w, fun _ => .start⟩ (pre ++ mid)).shared.db.orders) ↔
      (statusCalls env call).EachStep (FreshWrite S call) ⟨w, fun _ => .start⟩ ls := by
  have hinit : RunSound call ⟨w, fun _ => .start⟩ := ⟨hvalid, fun _ => trivial⟩
  have hiff := (statusCalls env call).eachStep_congr (runSound_step hctx)
    (edgeStep_iff_freshWrite hctx) hinit ls
  rw [← hiff]
  constructor
  · exact And.left
  · intro hedges
    refine ⟨hedges, ?_⟩
    rintro pre mid suf rfl
    have hmid := ((CallSystem.eachStep_append _ _ _ _ _).mp
      ((CallSystem.eachStep_append _ _ _ _ _).mp hedges).1).2
    rw [CallSystem.run_append]
    exact terminalKept_of_edgeSteps hmid

end Runs

/-! ## A stale read -/

/-- One pending order. -/
def pendingDb : Db where
  branches := [{
    id := "branch-1", tenantId := "tenant-a", restaurantId := "restaurant-1", name := "Main" }]
  orders := [{ (default : Order) with
    id := "order-1", tenantId := "tenant-a", branchId := "branch-1", status := .PENDING }]

def staffEnv : StatusEnv where
  context := { tenantId := some "tenant-a", isPlatformOwner := false }
  uuid _ := "invoice-1"
  now := 0
  year := 2026
  digits := 100000

theorem staffEnv_holds : staffEnv.context.Sees (some "tenant-a") :=
  ⟨rfl, by decide⟩

/-- One call accepts the order, the other cancels it. -/
def acceptAndCancel : Bool → StatusCall
  | false => .updateOrderStatus "order-1" .ACCEPTED
  | true => .cancelOrder "order-1"

def acceptAndCancelCalls : CallSystem Bool Bool World Phase :=
  statusCalls (fun _ => staffEnv) acceptAndCancel

def pendingStart : Config Bool World Phase :=
  ⟨{ db := pendingDb }, fun _ => .start⟩

/-- A schedule that runs one call after the other. -/
theorem acceptThenCancel_follows_edges :
    acceptAndCancelCalls.EachStep (EdgeStep acceptAndCancelCalls) pendingStart
      [(false, false), (false, false), (false, false),
        (true, false), (true, false), (true, false)] := by
  have hvalid : OrdersValid pendingDb := ⟨by decide, by decide⟩
  exact ((statusCalls_follow_edges_iff (fun _ => staffEnv) acceptAndCancel
    (fun _ => some "tenant-a") (fun _ => staffEnv_holds) { db := pendingDb } hvalid _).mpr
    (by decide +kernel)).1

/-- The acceptance reads the pending order, the cancellation runs, and the acceptance
writes over the cancelled order. -/
theorem cancelled_order_is_accepted :
    ¬EdgeStep acceptAndCancelCalls
        (acceptAndCancelCalls.run pendingStart
          [(false, false), (false, false), (true, false), (true, false), (true, false)])
        (false, false) ∧
      ¬TerminalKept
        (acceptAndCancelCalls.run pendingStart
          [(false, false), (false, false), (true, false), (true, false),
            (true, false)]).shared.db.orders
        (acceptAndCancelCalls.run pendingStart
          [(false, false), (false, false), (true, false), (true, false), (true, false),
            (false, false)]).shared.db.orders := by
  unfold EdgeStep
  exact ⟨by decide +kernel, by decide +kernel⟩

end OrderService
end Eleva
