import Eleva.Foundation.Interleaving
import Eleva.Order.Totals

/-!
# Order - Discount usage under interleaving

Concurrent checkout transactions under READ COMMITTED.  A transaction reads and
validates its discount, counts the use, inserts the order and its queue entry, and
commits or rolls back.  A statement reads the committed rows and the transaction's own
writes; it waits for rows and keys that another transaction in flight has written.

Main results:

- Definition {lit}`checkouts`: the interleaved transactions.
- Theorem {lit}`txStep_alone`: a transaction that runs alone does what
  {lit}`checkoutTransaction` does.
- Theorem {lit}`checkouts_respect_limits`: the counter agrees with the orders in every run,
  and stays within the limit when every increment finds room.
- Theorem {lit}`checkouts_pass_limit`: two transactions use a discount of one use.
-/

namespace Eleva
namespace OrderService

open Foundation Database DiscountService

/-! ## Transactions as atomic steps -/

/-- The arguments of a checkout transaction. -/
structure Tx where
  env : CheckoutEnv
  userTenantId : Id
  dto : CreateOrderRequestDto
  subtotal : ℚ
  taxAmount : ℚ
  drafts : List OrderItemDraft

/-- What a transaction holds until it ends: the discount row that it updated, and the
keys of the rows that it inserted. -/
inductive Lock where
  | discount (id : Id)
  | order (id : Id)
  | queue (id : Id)
deriving DecidableEq, Repr

/-- The committed state, and which transaction holds which lock. -/
structure Shared (ι : Type) where
  committed : World
  holder : Lock → Option ι := fun _ => none

/-- How far a transaction has come, with its own uncommitted rows: the new version of
the discount, the order and its queue entry. -/
inductive TxPhase where
  | start
  | validated (resolved : ResolvedDiscount)
  | counted (discount : ℚ × Option Id) (own : Option Discount)
  | inserted (own : Option Discount) (order : Order)
  | queued (own : Option Discount) (order : Order) (queue : Option KitchenQueue)
  | committed (order : Order)
  | aborted (error : AppError)

/-- Whether the transaction can still roll back. -/
def TxPhase.inFlight : TxPhase → Bool
  | .committed _ => false
  | .aborted _ => false
  | _ => true

/-- The discounts with a transaction's own version of one of them. -/
def putDiscount (own : Option Discount) (rows : List Discount) : List Discount :=
  match own with
  | none => rows
  | some d => rows.map fun r => if r.id = d.id then d else r

/-- The rows with a transaction's own writes. -/
def withWrites (w : World) (own : Option Discount) (orders : List Order)
    (queues : List KitchenQueue) : World :=
  { w with db := { w.db with
      discounts := putDiscount own w.db.discounts
      orders := w.db.orders ++ orders
      kitchenQueues := w.db.kitchenQueues ++ queues } }

namespace Shared

variable {ι : Type} [DecidableEq ι]

/-- Another transaction holds the lock. -/
def taken (s : Shared ι) (i : ι) (lock : Lock) : Bool :=
  (s.holder lock).any fun j => decide (j ≠ i)

def acquire (s : Shared ι) (i : ι) (lock : Lock) : Shared ι :=
  { s with holder := Function.update s.holder lock (some i) }

/-- The locks when a transaction has ended. -/
def release (s : Shared ι) (i : ι) : Shared ι :=
  { s with holder := fun lock => if s.holder lock = some i then none else s.holder lock }

end Shared

section Steps

variable {ι : Type} [DecidableEq ι]

/-- Run a statement that needs a lock on what the transaction sees: it waits while
another transaction holds it, and aborts the transaction when it throws. -/
def lockStep {α : Type} (s : Shared ι) (i : ι) (lock : Lock) (phase : TxPhase)
    (x : Service α) (view : World) (next : α → TxPhase) : Shared ι × TxPhase :=
  if s.taken i lock then (s, phase)
  else
    match (x view).1 with
    | .ok a => (s.acquire i lock, next a)
    | .error e => (s.release i, .aborted e)

/-- The next statement of a transaction. -/
def txStep (tx : Tx) (i : ι) (s : Shared ι) : TxPhase → Shared ι × TxPhase
  | .start =>
      match (resolveDiscount tx.env tx.userTenantId tx.dto tx.subtotal s.committed).1 with
      | .ok none => (s, .counted (0, none) none)
      | .ok (some resolved) => (s, .validated resolved)
      | .error e => (s.release i, .aborted e)
  | .validated resolved =>
      lockStep s i (.discount resolved.discountId) (.validated resolved)
        (incrementUsage tx.env resolved.discountId) s.committed
        (.counted (resolved.amount, some resolved.discountId))
  | .counted discount own =>
      lockStep s i (.order (tx.env.uuid 0)) (.counted discount own)
        (storeOrder tx.env tx.userTenantId tx.dto tx.subtotal tx.taxAmount tx.drafts discount)
        (withWrites s.committed own [] []) (.inserted own)
  | .inserted own order =>
      lockStep s i (.queue (tx.env.uuid 0)) (.inserted own order)
        (enqueue tx.env tx.userTenantId tx.dto order)
        (withWrites s.committed own [order] []) (.queued own order)
  | .queued own order queue =>
      ({ s with committed := withWrites s.committed own [order] queue.toList }.release i,
        .committed order)
  | .committed order => (s, .committed order)
  | .aborted e => (s, .aborted e)

/-- Any number of checkout transactions on one database.  The schedule says which
transaction moves, and whether it is rolled back instead. -/
def checkouts (tx : ι → Tx) : CallSystem ι Bool (Shared ι) TxPhase where
  next i rollback s phase :=
    if rollback && phase.inFlight then (s.release i, .aborted .failure)
    else txStep (tx i) i s phase

/-- The start of a run: nothing is in flight. -/
def startOf (w : World) : Config ι (Shared ι) TxPhase where
  shared := { committed := w }
  phase _ := .start

end Steps

/-! ## What a step does -/

/-- The discount that the order of a transaction carries and the transaction's version
of it, once the use is counted. -/
def TxPhase.claim : TxPhase → Option (Option Id × Option Discount)
  | .counted discount own => some (discount.2, own)
  | .inserted own order => some (order.discountId, own)
  | .queued own order _ => some (order.discountId, own)
  | _ => none

/-- A discount after one more use. -/
def oneMoreUse (d : Discount) : Discount :=
  { d with usageCount := d.usageCount + 1 }

section Effects

variable {ι : Type} [DecidableEq ι]

/-- How a step of transaction {lit}`i` can change the shared state and its phase. -/
inductive TxEffect (S : Option Id) (i : ι) (rollback : Bool) (s : Shared ι)
    (phase : TxPhase) : Shared ι → TxPhase → Prop where
  | proceeds {s' : Shared ι} {phase' : TxPhase}
      (committed : s'.committed = s.committed)
      (locks : ∀ lock j, s.holder lock = some j → s'.holder lock = some j)
      (claim : ∀ c ∈ phase'.claim, c = (none, none) ∨ c ∈ phase.claim) :
      TxEffect S i rollback s phase s' phase'
  | counts {resolved : ResolvedDiscount} {d : Discount}
      (moves : rollback = false)
      (validated : phase = .validated resolved)
      (stored : d ∈ s.committed.db.discounts)
      (named : d.id = resolved.discountId)
      (inScope : visible S d = true)
      (free : s.taken i (.discount resolved.discountId) = false) :
      TxEffect S i rollback s phase (s.acquire i (.discount d.id))
        (.counted (resolved.amount, some d.id) (some (oneMoreUse d)))
  | commits {own : Option Discount} {order : Order} {queue : Option KitchenQueue}
      (queued : phase = .queued own order queue) :
      TxEffect S i rollback s phase
        ({ s with committed := withWrites s.committed own [order] queue.toList }.release i)
        (.committed order)
  | aborts {e : AppError} : TxEffect S i rollback s phase (s.release i) (.aborted e)

/-- Taking a lock that no other transaction holds takes none away. -/
theorem Shared.acquire_keeps {s : Shared ι} {i : ι} {lock : Lock}
    (hfree : s.taken i lock = false) {lock' : Lock} {j : ι} (hheld : s.holder lock' = some j) :
    (s.acquire i lock).holder lock' = some j := by
  by_cases hlock : lock' = lock
  · subst hlock
    have hsame : j = i := by simpa [taken, hheld] using hfree
    simp [acquire, hsame]
  · simp [acquire, Function.update_of_ne hlock, hheld]

/-- The end of one transaction releases no lock of another. -/
theorem Shared.release_keeps {s : Shared ι} {i j : ι} (hne : j ≠ i) {lock : Lock}
    (hheld : s.holder lock = some j) : (s.release i).holder lock = some j := by
  simp [release, hheld, hne]

theorem TxEffect.waits {S : Option Id} {i : ι} {rollback : Bool} {s : Shared ι}
    {phase : TxPhase} : TxEffect S i rollback s phase s phase :=
  .proceeds rfl (fun _ _ hheld => hheld) fun _ hclaim => Or.inr hclaim

/-- A statement that needs a lock waits, aborts, or does what it does with the lock. -/
theorem lockStep_effect {α : Type} {S : Option Id} {s : Shared ι} {i : ι} {lock : Lock}
    {phase : TxPhase} {x : Service α} {view : World} {next : α → TxPhase}
    (hrun : ∀ a w', s.taken i lock = false → x view = (.ok a, w') →
      TxEffect S i false s phase (s.acquire i lock) (next a)) :
    TxEffect S i false s phase (lockStep s i lock phase x view next).1
      (lockStep s i lock phase x view next).2 := by
  unfold lockStep
  cases hfree : s.taken i lock with
  | true => exact .waits
  | false =>
      rcases hx : x view with ⟨e | a, w'⟩
      · exact .aborts
      · exact hrun a w' hfree hx

/-- A stored order carries the discount that was counted for it. -/
theorem storeOrder_discountId {env : CheckoutEnv} {S : Option Id} {userTenantId : Id}
    {dto : CreateOrderRequestDto} {subtotal taxAmount : ℚ} {drafts : List OrderItemDraft}
    {discount : ℚ × Option Id} {order : Order} {w w' : World} (hctx : env.context.Sees S)
    (h : storeOrder env userTenantId dto subtotal taxAmount drafts discount w =
      (.ok order, w')) : order.discountId = discount.2 := by
  rcases insertOrder_ok hctx (attempt_eq_ok.mp h).2 with ⟨row, hrow, _, rfl, _⟩
  unfold orderRow at hrow
  simp only [Option.bind_eq_bind, Option.bind_eq_some_iff, Option.pure_def,
    Option.some.injEq] at hrow
  rcases hrow with ⟨_, _, _, _, _, _, _, _, _, _, rfl⟩
  rfl

/-- What a statement of a transaction does. -/
theorem txStep_effect {tx : Tx} {S : Option Id} (hctx : tx.env.context.Sees S) (i : ι)
    (s : Shared ι) (phase : TxPhase) :
    TxEffect S i false s phase (txStep tx i s phase).1 (txStep tx i s phase).2 := by
  cases phase with
  | start =>
      simp only [txStep]
      rcases (resolveDiscount tx.env tx.userTenantId tx.dto tx.subtotal s.committed).1 with
        e | resolved | resolved
      · exact .aborts
      · exact .proceeds rfl (fun _ _ hheld => hheld) (by simp [TxPhase.claim])
      · exact .proceeds rfl (fun _ _ hheld => hheld) (by simp [TxPhase.claim])
  | validated resolved =>
      refine lockStep_effect fun row w' hfree hrun => ?_
      rcases incrementUsage_ok hctx hrun with ⟨d, hd, hid, hvisible, rfl, _⟩
      rw [← hid]
      exact .counts rfl rfl hd hid hvisible hfree
  | counted discount own =>
      refine lockStep_effect fun order w' hfree hrun => ?_
      refine .proceeds rfl (fun _ _ hheld => Shared.acquire_keeps hfree hheld) ?_
      simp [TxPhase.claim, storeOrder_discountId hctx hrun]
  | inserted own order =>
      refine lockStep_effect fun queue w' hfree hrun => ?_
      exact .proceeds rfl (fun _ _ hheld => Shared.acquire_keeps hfree hheld) fun _ hclaim =>
        Or.inr hclaim
  | queued own order queue => exact .commits rfl
  | committed order => exact .waits
  | aborted e => exact .waits

/-- What a step of a run does. -/
theorem checkouts_effect {tx : ι → Tx} {S : ι → Option Id}
    (hctx : ∀ i, (tx i).env.context.Sees (S i)) (c : Config ι (Shared ι) TxPhase)
    (l : ι × Bool) :
    TxEffect (S l.1) l.1 l.2 c.shared (c.phase l.1) ((checkouts tx).step c l).shared
      (((checkouts tx).step c l).phase l.1) := by
  rw [CallSystem.step_shared, CallSystem.step_phase_self]
  rcases l with ⟨i, rollback⟩
  have hstep := txStep_effect (hctx i) i c.shared (c.phase i)
  cases rollback with
  | false => exact hstep
  | true =>
      simp only [checkouts, Bool.true_and]
      cases hflight : (c.phase i).inFlight with
      | true => exact .aborts
      | false =>
          -- A transaction that has ended only stays where it is.
          cases hphase : c.phase i with
          | committed order => exact .waits
          | aborted e => exact .waits
          | _ => simp [hphase, TxPhase.inFlight] at hflight

end Effects

/-! ## A transaction that runs alone -/

section Alone

variable {ι : Type} [DecidableEq ι]

/-- How a transaction has ended. -/
def TxPhase.ofResult : Except AppError Order → TxPhase
  | .ok order => .committed order
  | .error e => .aborted e

/-- A transaction that moves on its own steps from one state to the next. -/
def txMove (tx : Tx) (i : ι) (x : Shared ι × TxPhase) : Shared ι × TxPhase :=
  txStep tx i x.1 x.2

/-- A transaction that has ended stays where it is. -/
theorem txMove_ended (tx : Tx) (i : ι) (s : Shared ι) (result : Except AppError Order)
    (n : ℕ) : (txMove tx i)^[n] (s, .ofResult result) = (s, .ofResult result) := by
  cases result <;> exact Function.iterate_fixed rfl n

theorem lockStep_of_ok {α : Type} {s : Shared ι} {i : ι} {lock : Lock} {phase : TxPhase}
    {x : Service α} {view w' : World} {next : α → TxPhase} {a : α}
    (hfree : s.taken i lock = false) (hx : x view = (.ok a, w')) :
    lockStep s i lock phase x view next = (s.acquire i lock, next a) := by
  unfold lockStep
  rw [hfree, hx]
  rfl

theorem lockStep_of_error {α : Type} {s : Shared ι} {i : ι} {lock : Lock} {phase : TxPhase}
    {x : Service α} {view w' : World} {next : α → TxPhase} {e : AppError}
    (hfree : s.taken i lock = false) (hx : x view = (.error e, w')) :
    lockStep s i lock phase x view next = (s.release i, .aborted e) := by
  unfold lockStep
  rw [hfree, hx]
  rfl

theorem Shared.acquire_free {s : Shared ι} {i : ι} (hfree : ∀ lock, s.taken i lock = false)
    (lock : Lock) : ∀ lock', (s.acquire i lock).taken i lock' = false := by
  intro lock'
  by_cases hlock : lock' = lock
  · subst hlock
    simp [taken, acquire]
  · have h := hfree lock'
    simpa [taken, acquire, Function.update_of_ne hlock] using h

/-- After {lit}`n` moves the transaction has ended with the outcome: committed the state
that it returned with, or rolled back. -/
def Ends (tx : Tx) (i : ι) (n : ℕ) (s : Shared ι) (phase : TxPhase)
    (outcome : Except AppError Order × World) : Prop :=
  ((txMove tx i)^[n] (s, phase)).2 = .ofResult outcome.1 ∧
    ((txMove tx i)^[n] (s, phase)).1.committed = match outcome.1 with
      | .ok _ => outcome.2
      | .error _ => s.committed

/-- The queue entry that an accepted transaction adds to what it sees. -/
theorem enqueue_ok {env : CheckoutEnv} {S : Option Id} {userTenantId : Id}
    {dto : CreateOrderRequestDto} {order : Order} {queue : Option KitchenQueue} {w w' : World}
    (hctx : env.context.Sees S) (h : enqueue env userTenantId dto order w = (.ok queue, w')) :
    w' = { w with db := { w.db with
      kitchenQueues := w.db.kitchenQueues ++ queue.toList } } := by
  rcases enqueue_done hctx h with ⟨rfl, rfl⟩
  rfl

section Endings

variable {tx : Tx} {i : ι} {n : ℕ} {s : Shared ι} {phase : TxPhase}
  {outcome : Except AppError Order × World}

theorem Ends.of_abort {e : AppError} {w' : World}
    (hmove : txStep tx i s phase = (s.release i, .aborted e)) :
    Ends tx i (n + 1) s phase (.error e, w') := by
  have hlast : (txMove tx i)^[n + 1] (s, phase) = (s.release i, .aborted e) := by
    rw [Function.iterate_succ_apply, txMove, hmove]
    exact txMove_ended tx i _ (.error e) n
  unfold Ends
  rw [hlast]
  exact ⟨rfl, rfl⟩

theorem Ends.of_move {s' : Shared ι} {phase' : TxPhase}
    (hmove : txStep tx i s phase = (s', phase')) (hkept : s'.committed = s.committed)
    (h : Ends tx i n s' phase' outcome) : Ends tx i (n + 1) s phase outcome := by
  unfold Ends at h ⊢
  rw [Function.iterate_succ_apply, txMove, hmove, ← hkept]
  exact h

/-- A committed transaction leaves what it saw. -/
theorem Ends.of_queued {own : Option Discount} {order : Order} {queue : Option KitchenQueue}
    {w' : World} (hseen : w' = withWrites s.committed own [order] queue.toList) :
    Ends tx i (n + 1) s (.queued own order queue) (.ok order, w') := by
  subst hseen
  unfold Ends
  rw [Function.iterate_succ_apply]
  have hlast := txMove_ended tx i (txMove tx i (s, .queued own order queue)).1 (.ok order) n
  exact ⟨congrArg Prod.snd hlast, congrArg (fun x => x.1.committed) hlast⟩

end Endings

/-- From the counted use on, the steps of a transaction are the statements of the
sequential one. -/
theorem ends_counted {tx : Tx} {S : Option Id} (hctx : tx.env.context.Sees S) (i : ι) (n : ℕ)
    {s : Shared ι} (hfree : ∀ lock, s.taken i lock = false) (discount : ℚ × Option Id)
    (own : Option Discount) :
    Ends tx i (n + 3) s (.counted discount own)
      ((storeOrder tx.env tx.userTenantId tx.dto tx.subtotal tx.taxAmount tx.drafts discount >>=
        fun createdOrder => enqueue tx.env tx.userTenantId tx.dto createdOrder >>=
          fun _ => pure createdOrder) (withWrites s.committed own [] [])) := by
  rcases hstore : storeOrder tx.env tx.userTenantId tx.dto tx.subtotal tx.taxAmount tx.drafts
      discount (withWrites s.committed own [] []) with ⟨e | order, v⟩
  · rw [Fallible.bind_of_error hstore]
    exact Ends.of_abort (lockStep_of_error (hfree _) hstore)
  · rw [Fallible.bind_of_ok hstore]
    refine Ends.of_move (lockStep_of_ok (hfree _) hstore) rfl ?_
    have hfree' := Shared.acquire_free hfree (.order (tx.env.uuid 0))
    rcases insertOrder_ok hctx (attempt_eq_ok.mp hstore).2 with ⟨_, _, _, _, _, _, hv⟩
    have hview : v = withWrites s.committed own [order] [] := by
      rw [hv]
      simp [withWrites]
    rcases hqueue : enqueue tx.env tx.userTenantId tx.dto order v with ⟨e | queue, v'⟩
    · rw [Fallible.bind_of_error hqueue]
      rw [hview] at hqueue
      exact Ends.of_abort (lockStep_of_error (hfree' _) hqueue)
    · rw [Fallible.bind_of_ok hqueue, enqueue_ok hctx hqueue, hview]
      rw [hview] at hqueue
      refine Ends.of_move (lockStep_of_ok (hfree' _) hqueue) rfl ?_
      refine Ends.of_queued ?_
      simp [withWrites, Shared.acquire]

/-- Counting a use on unique rows in scope replaces the row that is counted. -/
theorem countUse_eq_putDiscount {S : Option Id} {rows : List Discount} {d : Discount}
    (hids : (rows.map (·.id)).Nodup) (hd : d ∈ rows) (hvisible : visible S d = true) :
    countUse S d.id rows = putDiscount (some (oneMoreUse d)) rows := by
  unfold countUse putDiscount
  apply List.map_congr_left
  intro r hr
  by_cases hid : r.id = d.id
  · have hsame : r = d := List.inj_on_of_nodup_map hids hr hd hid
    simp [hsame, hvisible, oneMoreUse]
  · have hother : (d.id == r.id) = false := beq_false_of_ne fun heq => hid heq.symm
    simp [hother, hid, oneMoreUse]

/-- From the start on, the steps of a transaction are the statements of the sequential
one. -/
theorem ends_start {tx : Tx} {S : Option Id} (hctx : tx.env.context.Sees S) (i : ι) {w : World}
    (hids : (w.db.discounts.map (·.id)).Nodup) :
    Ends tx i 5 { committed := w } .start (checkoutTransaction tx.env tx.userTenantId tx.dto
      tx.subtotal tx.taxAmount tx.drafts w) := by
  have hfree : ∀ lock, ({ committed := w } : Shared ι).taken i lock = false := fun _ => rfl
  rcases hresolve : resolveDiscount tx.env tx.userTenantId tx.dto tx.subtotal w with
    ⟨e | resolved, v⟩
  · have hrun : checkoutTransaction tx.env tx.userTenantId tx.dto tx.subtotal tx.taxAmount
        tx.drafts w = (.error e, v) :=
      Fallible.bind_of_error (Fallible.bind_of_error hresolve)
    rw [hrun]
    refine Ends.of_abort ?_
    simp only [txStep, hresolve]
  · rcases resolveDiscount_ok hctx hresolve with ⟨rfl, _⟩
    cases resolved with
    | none =>
        have happlied : applyDiscount tx.env tx.userTenantId tx.dto tx.subtotal v =
            (.ok (0, none), v) := Fallible.bind_of_ok hresolve
        have hmove : txStep tx i { committed := v } .start =
            ({ committed := v }, .counted (0, none) none) := by
          simp only [txStep, hresolve]
        have hrest := ends_counted hctx i 1 hfree (0, none) none
        unfold checkoutTransaction
        rw [Fallible.bind_of_ok happlied]
        refine Ends.of_move hmove rfl ?_
        simpa [withWrites, putDiscount] using hrest
    | some resolved =>
        have hmove : txStep tx i { committed := v } .start =
            ({ committed := v }, .validated resolved) := by
          simp only [txStep, hresolve]
        refine Ends.of_move hmove rfl ?_
        rcases hcount : incrementUsage tx.env resolved.discountId v with ⟨e | row, v'⟩
        · have happlied : applyDiscount tx.env tx.userTenantId tx.dto tx.subtotal v =
              (.error e, v') :=
            (Fallible.bind_of_ok hresolve).trans (Fallible.bind_of_error hcount)
          unfold checkoutTransaction
          rw [Fallible.bind_of_error happlied]
          exact Ends.of_abort (lockStep_of_error (hfree _) hcount)
        · have happlied : applyDiscount tx.env tx.userTenantId tx.dto tx.subtotal v =
              (.ok (resolved.amount, some resolved.discountId), v') :=
            (Fallible.bind_of_ok hresolve).trans (Fallible.bind_of_ok hcount)
          rcases incrementUsage_ok hctx hcount with ⟨d, hd, hid, hvisible, rfl, hv'⟩
          have hview : v' = withWrites v (some (oneMoreUse d)) [] [] := by
            rw [hv', ← hid, countUse_eq_putDiscount hids hd hvisible]
            simp [withWrites]
          unfold checkoutTransaction
          rw [Fallible.bind_of_ok happlied, hview]
          refine Ends.of_move (lockStep_of_ok (hfree _) hcount) rfl ?_
          exact ends_counted hctx i 0 (Shared.acquire_free hfree _) _ _

/-- A transaction whose steps run in a row does what the sequential transaction does: it
commits the same state, or aborts with the same error and leaves the database. -/
theorem checkouts_alone (tx : ι → Tx) {S : Option Id} (i : ι) {w : World}
    (hctx : (tx i).env.context.Sees S) (hids : (w.db.discounts.map (·.id)).Nodup) :
    let outcome := Fallible.transaction (checkoutTransaction (tx i).env (tx i).userTenantId
      (tx i).dto (tx i).subtotal (tx i).taxAmount (tx i).drafts) w
    let last := (checkouts tx).run (startOf w) (List.replicate 5 (i, false))
    last.phase i = .ofResult outcome.1 ∧ last.shared.committed = outcome.2 := by
  intro outcome last
  have hmoves : (last.shared, last.phase i) = (txMove (tx i) i)^[5] ({ committed := w }, .start) :=
    (checkouts tx).run_replicate i false 5 (startOf w)
  have hshared := congrArg Prod.fst hmoves
  have hphase := congrArg Prod.snd hmoves
  rcases ends_start hctx i hids with ⟨hend, hcommitted⟩
  refine ⟨hphase.trans (hend.trans ?_), (congrArg Shared.committed hshared).trans
    (hcommitted.trans ?_)⟩
  all_goals
    unfold outcome Fallible.transaction
    rcases checkoutTransaction (tx i).env (tx i).userTenantId (tx i).dto (tx i).subtotal
      (tx i).taxAmount (tx i).drafts w with ⟨e | order, w'⟩ <;> rfl

end Alone

/-! ## The counter and the orders -/

/-- How many orders carry the discount. -/
def usesOf (db : Db) (discountId : Id) : ℕ :=
  db.orders.countP fun order => order.discountId == some discountId

/-- Every discount counts the orders that carry it. -/
def CountsMatch (db : Db) : Prop :=
  ∀ d ∈ db.discounts, d.usageCount = usesOf db d.id

/-- A discount is not used more often than its limit allows. -/
def WithinLimit (d : Discount) : Prop :=
  ∀ limit ∈ d.usageLimit, d.usageCount ≤ limit

/-- No discount is used more often than its limit allows. -/
def LimitsRespected (db : Db) : Prop :=
  ∀ d ∈ db.discounts, WithinLimit d

instance (d : Discount) : Decidable (WithinLimit d) :=
  inferInstanceAs (Decidable (∀ limit ∈ d.usageLimit, d.usageCount ≤ limit))

instance (db : Db) : Decidable (LimitsRespected db) :=
  inferInstanceAs (Decidable (∀ d ∈ db.discounts, WithinLimit d))

section Runs

variable {ι : Type} [DecidableEq ι]

/-- What transaction {lit}`i` claims is one more use of a committed discount whose row it
has locked, or nothing. -/
def Claimed (s : Shared ι) (i : ι) (claim : Option Id × Option Discount) : Prop :=
  claim = (none, none) ∨ ∃ d ∈ s.committed.db.discounts,
    claim = (some d.id, some (oneMoreUse d)) ∧ s.holder (.discount d.id) = some i

/-- The invariant of a run. -/
structure UsageSound (c : Config ι (Shared ι) TxPhase) : Prop where
  ids : (c.shared.committed.db.discounts.map (·.id)).Nodup
  counts : CountsMatch c.shared.committed.db
  claims : ∀ i, ∀ claim ∈ (c.phase i).claim, Claimed c.shared i claim

omit [DecidableEq ι] in
/-- A claim stays while its row is locked and its discount stays committed. -/
theorem Claimed.of_kept {s s' : Shared ι} {i : ι} {claim : Option Id × Option Discount}
    (h : Claimed s i claim)
    (hrow : ∀ d ∈ s.committed.db.discounts, s.holder (.discount d.id) = some i →
      d ∈ s'.committed.db.discounts ∧ s'.holder (.discount d.id) = some i) :
    Claimed s' i claim := by
  rcases h with hnone | ⟨d, hd, hclaim, hheld⟩
  · exact Or.inl hnone
  · rcases hrow d hd hheld with ⟨hstays, hheld'⟩
    exact Or.inr ⟨d, hstays, hclaim, hheld'⟩

theorem putDiscount_map_id (own : Option Discount) (rows : List Discount) :
    (putDiscount own rows).map (·.id) = rows.map (·.id) := by
  cases own with
  | none => rfl
  | some d =>
      simp only [putDiscount, List.map_map]
      apply List.map_congr_left
      intro r _
      simp only [Function.comp_apply]
      split <;> rename_i hid
      · exact hid.symm
      · rfl

/-- A transaction's own version replaces one discount only. -/
theorem mem_putDiscount_of_ne {own d : Discount} {rows : List Discount} (hd : d ∈ rows)
    (hne : d.id ≠ own.id) : d ∈ putDiscount (some own) rows :=
  List.mem_map.mpr ⟨d, hd, if_neg hne⟩

/-- A commit that counts one use and adds one order keeps the counters right. -/
theorem CountsMatch.commit {w : World} (h : CountsMatch w.db)
    (hids : (w.db.discounts.map (·.id)).Nodup) {d : Discount} (hd : d ∈ w.db.discounts)
    {order : Order} (hcarries : order.discountId = some d.id) (queues : List KitchenQueue) :
    CountsMatch (withWrites w (some (oneMoreUse d)) [order] queues).db := by
  intro r hr
  rcases List.mem_map.mp hr with ⟨r₀, hr₀, rfl⟩
  by_cases hid : r₀.id = d.id
  · have hsame : r₀ = d := List.inj_on_of_nodup_map hids hr₀ hd hid
    subst hsame
    have hcount := h r₀ hr₀
    simp only [usesOf] at hcount
    simp [usesOf, withWrites, oneMoreUse, hcarries, hcount]
  · have hcount := h r₀ hr₀
    have hother : ¬d.id = r₀.id := fun heq => hid heq.symm
    simp only [usesOf] at hcount
    simp [usesOf, withWrites, oneMoreUse, hid, hcarries, hcount, hother]

/-- An order without a discount changes no counter. -/
theorem CountsMatch.commit_none {w : World} (h : CountsMatch w.db) {order : Order}
    (hcarries : order.discountId = none) (queues : List KitchenQueue) :
    CountsMatch (withWrites w none [order] queues).db := by
  intro d hd
  have hcount := h d hd
  simp only [usesOf] at hcount
  simp [usesOf, withWrites, hcarries, hcount]

/-- Every step keeps the invariant. -/
theorem UsageSound.step {tx : ι → Tx} {S : ι → Option Id}
    (hctx : ∀ i, (tx i).env.context.Sees (S i)) {c : Config ι (Shared ι) TxPhase}
    (h : UsageSound c) (l : ι × Bool) : UsageSound ((checkouts tx).step c l) := by
  have hother : ∀ j, j ≠ l.1 → ((checkouts tx).step c l).phase j = c.phase j :=
    fun j hj => CallSystem.step_phase_of_ne _ c l hj
  have heffect := checkouts_effect hctx c l
  generalize hs' : ((checkouts tx).step c l).shared = s' at heffect
  generalize hp' : ((checkouts tx).step c l).phase l.1 = phase' at heffect
  -- What the moving transaction claims, and that the others keep their claims.
  have hclaims : (∀ claim ∈ phase'.claim, Claimed s' l.1 claim) →
      (∀ j, j ≠ l.1 → ∀ d ∈ c.shared.committed.db.discounts,
        c.shared.holder (.discount d.id) = some j →
          d ∈ s'.committed.db.discounts ∧ s'.holder (.discount d.id) = some j) →
      ∀ j, ∀ claim ∈ (((checkouts tx).step c l).phase j).claim, Claimed s' j claim := by
    intro hmover hothers j claim hclaim
    by_cases hj : j = l.1
    · subst hj
      rw [hp'] at hclaim
      exact hmover claim hclaim
    · rw [hother j hj] at hclaim
      exact (h.claims j claim hclaim).of_kept (hothers j hj)
  cases heffect with
  | proceeds committed locks claim =>
      refine ⟨?_, ?_, ?_⟩
      · rw [hs', committed]
        exact h.ids
      · rw [hs', committed]
        exact h.counts
      · rw [hs']
        refine hclaims (fun cl hcl => ?_) fun j _ d hd hheld =>
          ⟨committed ▸ hd, locks _ _ hheld⟩
        rcases claim cl hcl with hnone | hold
        · exact Or.inl hnone
        · exact (h.claims l.1 cl hold).of_kept fun d hd hheld =>
            ⟨committed ▸ hd, locks _ _ hheld⟩
  | counts moves validated stored named inScope free =>
      refine ⟨hs' ▸ h.ids, hs' ▸ h.counts, ?_⟩
      rw [hs']
      rw [← named] at free
      refine hclaims (fun cl hcl => ?_) fun j _ d hd hheld =>
        ⟨hd, Shared.acquire_keeps free hheld⟩
      rcases Option.mem_some_iff.mp hcl with rfl
      exact Or.inr ⟨_, stored, rfl, Function.update_self _ _ _⟩
  | commits queued =>
      rename_i own order queue
      have hclaimed := h.claims l.1 (order.discountId, own) (by rw [queued]; rfl)
      have hids := putDiscount_map_id own c.shared.committed.db.discounts
      refine ⟨?_, ?_, ?_⟩
      · rw [hs']
        exact hids ▸ h.ids
      · rw [hs']
        rcases hclaimed with hnone | ⟨d, hd, hclaim, _⟩
        · rcases Prod.mk.inj hnone with ⟨hcarries, rfl⟩
          exact h.counts.commit_none hcarries _
        · rcases Prod.mk.inj hclaim with ⟨hcarries, rfl⟩
          exact h.counts.commit h.ids hd hcarries _
      · rw [hs']
        refine hclaims (fun cl hcl => by cases hcl) fun j hj d hd hheld =>
          ⟨?_, Shared.release_keeps hj hheld⟩
        rcases hclaimed with hnone | ⟨d₀, hd₀, hclaim, hheld₀⟩
        · rcases Prod.mk.inj hnone with ⟨_, rfl⟩
          exact hd
        · rcases Prod.mk.inj hclaim with ⟨_, rfl⟩
          refine mem_putDiscount_of_ne hd fun hsame => hj ?_
          have heq : d.id = d₀.id := hsame
          rw [heq, hheld₀] at hheld
          exact (Option.some.inj hheld).symm
  | aborts =>
      refine ⟨hs' ▸ h.ids, hs' ▸ h.counts, ?_⟩
      rw [hs']
      exact hclaims (fun cl hcl => by cases hcl) fun j hj d hd hheld =>
        ⟨hd, Shared.release_keeps hj hheld⟩

/-! ## The limit -/

/-- The step counts no use, or finds that the committed row it counts on still has room. -/
def RoomWhenCounted (S : ι → Option Id) (c : Config ι (Shared ι) TxPhase) (l : ι × Bool) :
    Prop :=
  match c.phase l.1 with
  | .validated resolved =>
      l.2 = false → c.shared.taken l.1 (.discount resolved.discountId) = false →
        ∀ d ∈ c.shared.committed.db.discounts, d.id = resolved.discountId →
          visible (S l.1) d = true → usageLeft d = true
  | _ => True

instance (S : ι → Option Id) (c : Config ι (Shared ι) TxPhase) (l : ι × Bool) :
    Decidable (RoomWhenCounted S c l) :=
  match hphase : c.phase l.1 with
  | .validated resolved =>
      decidable_of_iff (l.2 = false →
        c.shared.taken l.1 (.discount resolved.discountId) = false →
          ∀ d ∈ c.shared.committed.db.discounts, d.id = resolved.discountId →
            visible (S l.1) d = true → usageLeft d = true)
        (by simp [RoomWhenCounted, hphase])
  | .start => isTrue (by simp [RoomWhenCounted, hphase])
  | .counted _ _ => isTrue (by simp [RoomWhenCounted, hphase])
  | .inserted _ _ => isTrue (by simp [RoomWhenCounted, hphase])
  | .queued _ _ _ => isTrue (by simp [RoomWhenCounted, hphase])
  | .committed _ => isTrue (by simp [RoomWhenCounted, hphase])
  | .aborted _ => isTrue (by simp [RoomWhenCounted, hphase])

/-- The invariant of a run that always finds room: the limits are respected, and will be
after the commits of the transactions in flight. -/
structure LimitSound (c : Config ι (Shared ι) TxPhase) : Prop where
  committed : LimitsRespected c.shared.committed.db
  claims : ∀ i, ∀ claim ∈ (c.phase i).claim, ∀ d ∈ claim.2, WithinLimit d

/-- One more use of a discount that has room stays within the limit. -/
theorem withinLimit_oneMoreUse {d : Discount} (h : usageLeft d = true) :
    WithinLimit (oneMoreUse d) := by
  intro limit hlimit
  have hsome : d.usageLimit = some limit := hlimit
  have hroom : d.usageCount < limit := by simpa [usageLeft, hsome] using h
  exact Int.add_one_le_iff.mpr hroom

theorem limitsRespected_withWrites {w : World} (h : LimitsRespected w.db)
    {own : Option Discount} (hown : ∀ d ∈ own, WithinLimit d) (orders : List Order)
    (queues : List KitchenQueue) : LimitsRespected (withWrites w own orders queues).db := by
  intro d hd
  cases own with
  | none => exact h d hd
  | some own =>
      rcases List.mem_map.mp hd with ⟨r, hr, rfl⟩
      split
      · exact hown own rfl
      · exact h r hr

/-- A step that finds room keeps the limits. -/
theorem LimitSound.step {tx : ι → Tx} {S : ι → Option Id}
    (hctx : ∀ i, (tx i).env.context.Sees (S i)) {c : Config ι (Shared ι) TxPhase}
    (h : LimitSound c) (l : ι × Bool) (hroom : RoomWhenCounted S c l) :
    LimitSound ((checkouts tx).step c l) := by
  have heffect := checkouts_effect hctx c l
  generalize hs' : ((checkouts tx).step c l).shared = s' at heffect
  generalize hp' : ((checkouts tx).step c l).phase l.1 = phase' at heffect
  have hclaims : (∀ claim ∈ phase'.claim, ∀ d ∈ claim.2, WithinLimit d) →
      ∀ j, ∀ claim ∈ (((checkouts tx).step c l).phase j).claim,
        ∀ d ∈ claim.2, WithinLimit d := by
    intro hmover j claim hclaim
    by_cases hj : j = l.1
    · subst hj
      rw [hp'] at hclaim
      exact hmover claim hclaim
    · rw [CallSystem.step_phase_of_ne _ c l hj] at hclaim
      exact h.claims j claim hclaim
  cases heffect with
  | proceeds committed locks claim =>
      refine ⟨by rw [hs', committed]; exact h.committed, hclaims fun cl hcl => ?_⟩
      rcases claim cl hcl with rfl | hold
      · intro d hd
        cases hd
      · exact h.claims l.1 cl hold
  | counts moves validated stored named inScope free =>
      refine ⟨hs' ▸ h.committed, hclaims fun cl hcl d hd => ?_⟩
      rcases Option.mem_some_iff.mp hcl with rfl
      rcases Option.mem_some_iff.mp hd with rfl
      unfold RoomWhenCounted at hroom
      rw [validated] at hroom
      exact withinLimit_oneMoreUse (hroom moves free _ stored named inScope)
  | commits queued =>
      refine ⟨?_, hclaims fun cl hcl => by cases hcl⟩
      rw [hs']
      exact limitsRespected_withWrites h.committed
        (h.claims l.1 _ (by rw [queued]; rfl)) _ _
  | aborts => exact ⟨hs' ▸ h.committed, hclaims fun cl hcl => by cases hcl⟩

/-- The counters of the discounts agree with the committed orders in every state that
concurrent checkouts reach; and the limits are respected in every such state when every
increment finds room on the row that it counts on. -/
theorem checkouts_respect_limits (tx : ι → Tx) (S : ι → Option Id) (w : World)
    (hctx : ∀ i, (tx i).env.context.Sees (S i))
    (hids : (w.db.discounts.map (·.id)).Nodup)
    (hunused : ∀ d ∈ w.db.discounts, d.usageCount = 0)
    (hlimits : LimitsRespected w.db)
    (horders : w.db.orders = []) (schedule : List (ι × Bool)) :
    CountsMatch ((checkouts tx).run (startOf w) schedule).shared.committed.db ∧
      ((checkouts tx).EachStep (RoomWhenCounted S) (startOf w) schedule →
        LimitsRespected ((checkouts tx).run (startOf w) schedule).shared.committed.db) := by
  have hsound : UsageSound (startOf w : Config ι (Shared ι) TxPhase) := by
    refine ⟨hids, fun d hd => ?_, fun i claim hclaim => by cases hclaim⟩
    have hnone : w.db.orders = [] := horders
    simp [usesOf, startOf, hnone, hunused d hd]
  have hlimit : LimitSound (startOf w : Config ι (Shared ι) TxPhase) :=
    ⟨hlimits, fun i claim hclaim => by cases hclaim⟩
  constructor
  · exact ((checkouts tx).run_invariant (fun c l hc => hc.step hctx l) hsound schedule).counts
  · intro hroom
    exact ((checkouts tx).run_induction (fun c l hc hr => hc.step hctx l hr) hlimit
      hroom).committed

end Runs

/-! ## Two checkouts and one use -/

/-- A request for one large soup with the discount code. -/
def largeSoupRequest : CreateOrderRequestDto :=
  { soupRequest with
    items := [{ productId := "soup", sizeId := some "large", quantity := ⟨1, Nat.one_pos⟩ }] }

/-- The transaction of guest {lit}`i`, who orders one large soup. -/
def soupTx (i : Fin 2) : Tx where
  env :=
    { guestEnv with
      uuid := fun k => "row-" ++ toString i ++ "-" ++ toString k
      queueUuid := "ticket-" ++ toString i }
  userTenantId := "tenant-a"
  dto := largeSoupRequest
  subtotal := 650 / 100
  taxAmount := 65 / 100
  drafts := (lineDrafts soupMenu (some "tenant-a") "tenant-a" largeSoupRequest.items).getD []

/-- The second guest orders after the first one: no room is left when it reads. -/
theorem successive_checkouts_respect_limits :
    CountsMatch ((checkouts soupTx).run (startOf { db := soupMenu })
        (List.replicate 5 (0, false) ++ List.replicate 5 (1, false))).shared.committed.db ∧
      LimitsRespected ((checkouts soupTx).run (startOf { db := soupMenu })
        (List.replicate 5 (0, false) ++ List.replicate 5 (1, false))).shared.committed.db := by
  rcases checkouts_respect_limits soupTx (fun _ => some "tenant-a") { db := soupMenu }
    (fun _ => guestEnv_holds) (by decide) (by decide) (by decide) rfl
    (List.replicate 5 (0, false) ++ List.replicate 5 (1, false)) with ⟨hcounts, hlimits⟩
  exact ⟨hcounts, hlimits (by decide +kernel)⟩

/-- Two transactions that read the discount of one use before either counts it are both
committed with it. -/
theorem checkouts_pass_limit :
    soupMenu.orders = [] ∧ (∀ d ∈ soupMenu.discounts, d.usageCount = 0 ∧ WithinLimit d) ∧
      ¬LimitsRespected ((checkouts soupTx).run (startOf { db := soupMenu })
        ([(0, false), (1, false)] ++ List.replicate 4 (0, false) ++
          List.replicate 4 (1, false))).shared.committed.db := by
  decide +kernel

end OrderService
end Eleva
