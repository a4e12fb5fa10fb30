import Eleva.Foundation.Interleaving
import Eleva.Payment.WalletService

/-!
# Payment - Concurrent reconciliation

Any number of verifications and webhook settlements on one database.  A verification
reads the payment, asks the provider, and writes the status that follows; a webhook
reads the payment and writes.  Every read, question and write is a step of its own.

Main results:

- Theorem {lit}`verify_alone`: a verification that moves alone does what
  {lit}`verifyPayment` does.
- Theorem {lit}`payment_status_final`: where no call writes over a terminal status, such a
  status stays, and {lit}`completedAt` is set exactly on the payments that were paid.
- Theorem {lit}`webhook_unpays_payment`: a later webhook takes a paid payment back.
-/

namespace Eleva
namespace WalletService

open Foundation Database

/-- A call on the payments. -/
inductive PaymentCall where
  | verifyPayment (paymentId : String) (tenantId : Id)
  | settleFromWebhook (providerPaymentId : String) (tenantId : Id) (settled : Bool)
deriving DecidableEq, Repr

/-- The tenant of a call. -/
def PaymentCall.tenantId : PaymentCall → Id
  | .verifyPayment _ tenantId => tenantId
  | .settleFromWebhook _ tenantId _ => tenantId

/-- What a call reports once its status is written. -/
def PaymentCall.report (row : Payment) (status : PaymentStatus) :
    PaymentCall → Option VerifyPaymentResult
  | .verifyPayment paymentId tenantId => some (verifyResult paymentId row status tenantId)
  | .settleFromWebhook _ _ _ => none

/-- How far a call has come: the payment it has read, the status it is about to write. -/
inductive PaymentPhase where
  | start
  | asking (row : Payment)
  | writing (row : Payment) (status : PaymentStatus) (settled : Bool)
  | returned (result : Option VerifyPaymentResult)
  | failed (error : AppError)
deriving DecidableEq

/-- The next step of a call. -/
def paymentStep (call : PaymentCall) (env : WalletEnv) (w : World) :
    PaymentPhase → World × PaymentPhase
  | .start =>
      match call with
      | .verifyPayment paymentId tenantId =>
          match findPayment env paymentId tenantId w with
          | (.error e, w') => (w', .failed e)
          | (.ok none, w') => (w', .failed (paymentNotFound paymentId))
          | (.ok (some row), w') =>
              if isTerminal row.status then
                (w', .returned (some (verifyResult paymentId row row.status tenantId)))
              else (w', .asking row)
      | .settleFromWebhook providerPaymentId tenantId settled =>
          match findPayment env providerPaymentId tenantId w with
          | (.error e, w') => (w', .failed e)
          | (.ok none, w') => (w', .returned none)
          | (.ok (some row), w') =>
              (w', .writing row (if settled then .PAID else .FAILED) settled)
  | .asking row =>
      match fetchProviderStatus env (providerOf row) with
      | .error e => (w, .failed e)
      | .ok answer =>
          if nextStatus row.status answer = row.status then
            (w, .returned (call.report row (nextStatus row.status answer)))
          else (w, .writing row (nextStatus row.status answer) answer.settled)
  | .writing row status settled =>
      match writeStatus env call.tenantId row.id status settled w with
      | (.error e, w') => (w', .failed e)
      | (.ok _, w') => (w', .returned (call.report row status))
  | phase => (w, phase)

/-- Any number of calls on one database.  Each step draws from surroundings of its own:
the clock, the provider's answer, whether the statement fails. -/
def paymentCalls {ι : Type} (calls : ι → PaymentCall) :
    CallSystem ι WalletEnv World PaymentPhase where
  next i env w phase := paymentStep (calls i) env w phase

/-- A configuration of a run. -/
abbrev PaymentConfig (ι : Type) := Config ι World PaymentPhase

/-- The start of a run: no call has begun. -/
def startOf {ι : Type} (w : World) : PaymentConfig ι where
  shared := w
  phase _ := .start

/-! ## A call that runs alone -/

/-- How a verification has ended. -/
def PaymentPhase.ofResult : Except AppError VerifyPaymentResult → PaymentPhase
  | .ok result => .returned (some result)
  | .error e => .failed e

/-- A lookup changes nothing. -/
theorem findPayment_state (env : WalletEnv) (paymentId : String) (tenantId : Id) (w : World) :
    (findPayment env paymentId tenantId w).2 = w := by
  by_cases hT : tenantId = ""
  · subst hT
    unfold findPayment
    cases hfails : env.fails <;> rfl
  · cases hfails : env.fails with
    | true =>
        unfold findPayment
        rw [hfails]
        rfl
    | false => rw [findPayment_run hT hfails]

section Alone

variable {ι : Type} [DecidableEq ι] (calls : ι → PaymentCall) (i : ι) (env : WalletEnv)

/-- A verification that moves alone, with the same surroundings throughout, ends as
{lit}`verifyPayment` does and leaves the same database. -/
theorem verify_alone {paymentId : String} {tenantId : Id} (w : World)
    (hcall : calls i = .verifyPayment paymentId tenantId) :
    ((paymentCalls calls).run (startOf w) (List.replicate 3 (i, env))).shared =
        (verifyPayment env paymentId tenantId w).2 ∧
      ((paymentCalls calls).run (startOf w) (List.replicate 3 (i, env))).phase i =
        .ofResult (verifyPayment env paymentId tenantId w).1 := by
  have hmoves := CallSystem.run_replicate (paymentCalls calls) i env 3 (startOf w)
  rw [← Prod.mk.injEq, hmoves]
  simp only [Function.iterate_succ_apply, Function.iterate_zero_apply, paymentCalls, startOf,
    hcall]
  have hsame := findPayment_state env paymentId tenantId w
  unfold verifyPayment
  rcases hfind : findPayment env paymentId tenantId w with ⟨e | _ | row, w'⟩
  · rw [Fallible.bind_of_error hfind]
    simp only [paymentStep, hfind, PaymentPhase.ofResult]
  · rw [Fallible.bind_of_ok hfind]
    simp only [paymentStep, hfind, PaymentPhase.ofResult, Fallible.throw_apply]
  · rw [Fallible.bind_of_ok hfind]
    cases hterminal : isTerminal row.status with
    | true => simp [paymentStep, hfind, hterminal, PaymentPhase.ofResult]
    | false =>
        rcases hask : fetchProviderStatus env (providerOf row) with e | answer
        · simp [paymentStep, hfind, hterminal, hask, PaymentPhase.ofResult,
            Fallible.bind_apply]
        · by_cases hnext : nextStatus row.status answer = row.status
          · simp [paymentStep, hfind, hterminal, hask, hnext, PaymentPhase.ofResult,
              Fallible.bind_apply, PaymentCall.report]
          · rcases hwrite : writeStatus env tenantId row.id (nextStatus row.status answer)
              answer.settled w' with ⟨e | updated, w''⟩ <;>
              simp [paymentStep, hfind, hterminal, hask, hnext, hwrite,
                PaymentPhase.ofResult, Fallible.bind_apply, PaymentCall.report,
                PaymentCall.tenantId]

end Alone

/-! ## Statuses over a run -/

/-- The payment with the id. -/
def paymentById (db : Db) (id : Id) : Option Payment :=
  db.payments.find? fun p => id == p.id

/-- A status write changes the payment with the id and keeps every id. -/
theorem find_setStatus (tenantId target : Id) (status : PaymentStatus)
    (completedAt : Option Timestamp) (rows : List Payment) (id : Id) :
    (setStatus tenantId target status completedAt rows).find? (fun p => id == p.id) =
      (rows.find? fun p => id == p.id).map fun p =>
        if target == p.id && p.tenantId == tenantId then
          { p with status := status, completedAt := completedAt } else p := by
  unfold setStatus
  rw [List.find?_map]
  congr 2
  funext p
  simp only [Function.comp_apply]
  split <;> rfl

section Runs

variable {ι : Type} [DecidableEq ι] (calls : ι → PaymentCall)

/-- The step takes no payment out of a terminal status: where it writes over one, it writes
the status that the payment has. -/
def LeavesTerminal (c : PaymentConfig ι) (l : ι × WalletEnv) : Prop :=
  ∀ row status settled, c.phase l.1 = .writing row status settled → l.2.fails = false →
    ∀ p, paymentById c.shared.db row.id = some p → isTerminal p.status = true →
      p.status = status

instance (c : PaymentConfig ι) (l : ι × WalletEnv) : Decidable (LeavesTerminal c l) :=
  match hphase : c.phase l.1 with
  | .writing row status settled =>
      decidable_of_iff (l.2.fails = false → ∀ p ∈ paymentById c.shared.db row.id,
          isTerminal p.status = true → p.status = status) (by
        constructor
        · intro h row' status' settled' hphase'
          rw [hphase] at hphase'
          cases hphase'
          exact h
        · intro h
          exact h row status settled hphase)
  | .start => isTrue fun _ _ _ h => by rw [hphase] at h; cases h
  | .asking row => isTrue fun _ _ _ h => by rw [hphase] at h; cases h
  | .returned result => isTrue fun _ _ _ h => by rw [hphase] at h; cases h
  | .failed e => isTrue fun _ _ _ h => by rw [hphase] at h; cases h

/-- Every payment in a terminal status keeps it over the step. -/
def TerminalStays (c : PaymentConfig ι) (l : ι × WalletEnv) : Prop :=
  ∀ id p, paymentById c.shared.db id = some p → isTerminal p.status = true →
    ∃ p', paymentById ((paymentCalls calls).step c l).shared.db id = some p' ∧
      p'.status = p.status

/-- A call is about to write {lit}`PAID` for a settled payment and {lit}`FAILED` for any other. -/
def PaymentPhase.Sound : PaymentPhase → Prop
  | .writing _ status settled => status = if settled then .PAID else .FAILED
  | _ => True

/-- What a step does: it leaves the database, or writes the status its call had decided
on. -/
theorem payment_step_effect (c : PaymentConfig ι) (l : ι × WalletEnv) :
    ((paymentCalls calls).step c l).shared = c.shared ∨
      ∃ row status settled, c.phase l.1 = .writing row status settled ∧ l.2.fails = false ∧
        ((paymentCalls calls).step c l).shared.db.payments =
          setStatus (calls l.1).tenantId row.id status
            (if settled then some l.2.now else none) c.shared.db.payments := by
  rw [CallSystem.step_shared]
  simp only [paymentCalls]
  cases hphase : c.phase l.1 with
  | start =>
      left
      have hsame := findPayment_state l.2
      simp only [paymentStep]
      split
      · rename_i x T _
        have hsame := hsame x T c.shared
        split <;> rename_i hfind <;> rw [hfind] at hsame
        · exact hsame
        · exact hsame
        · split <;> exact hsame
      · rename_i x T settled _
        have hsame := hsame x T c.shared
        split <;> rename_i hfind <;> rw [hfind] at hsame <;> exact hsame
  | asking row =>
      left
      simp only [paymentStep]
      split
      · rfl
      · split <;> rfl
  | writing row status settled =>
      simp only [paymentStep]
      rcases writeStatus_run l.2 (calls l.1).tenantId row.id status settled c.shared with
        ⟨e, hwrite⟩ | ⟨target, hwrite⟩
      · rw [hwrite]
        exact Or.inl rfl
      · have hfails : l.2.fails = false := (attempt_eq_ok.mp hwrite).1
        rw [hwrite]
        exact Or.inr ⟨row, status, settled, rfl, hfails, rfl⟩
  | returned result => exact Or.inl rfl
  | failed e => exact Or.inl rfl

/-- A call decides on {lit}`PAID` for a settled payment and on {lit}`FAILED` for any other. -/
theorem payment_step_sound (c : PaymentConfig ι) (l : ι × WalletEnv)
    (hsound : ∀ i, (c.phase i).Sound) (i : ι) :
    (((paymentCalls calls).step c l).phase i).Sound := by
  by_cases hi : i = l.1
  · subst hi
    rw [CallSystem.step_phase_self]
    simp only [paymentCalls]
    cases hphase : c.phase l.1 with
    | start =>
        simp only [paymentStep]
        split
        · split
          · trivial
          · trivial
          · split <;> trivial
        · split
          · trivial
          · trivial
          · rfl
    | asking row =>
        simp only [paymentStep]
        split
        · trivial
        · rename_i answer _
          split <;> rename_i hnext
          · trivial
          · unfold nextStatus at hnext ⊢
            cases hsettled : answer.settled with
            | true => simp [PaymentPhase.Sound]
            | false =>
                cases hfailed : answer.failed with
                | true => simp [PaymentPhase.Sound]
                | false => simp [hsettled, hfailed] at hnext
    | writing row status settled =>
        simp only [paymentStep]
        split <;> trivial
    | returned result => trivial
    | failed e => trivial
  · rw [CallSystem.step_phase_of_ne _ _ _ hi]
    exact hsound i

/-- A step that writes over no terminal status leaves every terminal status. -/
theorem terminalStays_of_leaves {c : PaymentConfig ι} {l : ι × WalletEnv}
    (hleaves : LeavesTerminal c l) : TerminalStays calls c l := by
  intro id p hp hterminal
  rcases payment_step_effect calls c l with hsame | ⟨row, status, settled, hphase, hfails, hrows⟩
  · exact ⟨p, by rw [hsame]; exact hp, rfl⟩
  · unfold paymentById at hp ⊢
    rw [hrows, find_setStatus, hp]
    refine ⟨_, rfl, ?_⟩
    by_cases hwritten : row.id = p.id ∧ p.tenantId = (calls l.1).tenantId
    · have hid : id = p.id := by simpa using List.find?_some hp
      have hfound : paymentById c.shared.db row.id = some p := by
        unfold paymentById
        rw [hwritten.1, ← hid]
        exact hp
      simp [hwritten, hleaves row status settled hphase hfails p hfound hterminal]
    · simp [hwritten]

/-- Once a payment is in a terminal status, it is at the end of the run. -/
theorem terminal_of_run {c : PaymentConfig ι} {ls : List (ι × WalletEnv)}
    (hall : (paymentCalls calls).EachStep (TerminalStays calls) c ls) {id : Id} {p : Payment}
    (hp : paymentById c.shared.db id = some p) (hterminal : isTerminal p.status = true) :
    ∃ p', paymentById ((paymentCalls calls).run c ls).shared.db id = some p' ∧
      p'.status = p.status := by
  induction ls generalizing c p with
  | nil => exact ⟨p, hp, rfl⟩
  | cons l ls ih =>
      rcases hall.1 id p hp hterminal with ⟨p', hp', hstatus⟩
      rcases ih hall.2 hp' (by rw [hstatus]; exact hterminal) with ⟨p'', hp'', hstatus'⟩
      exact ⟨p'', hp'', hstatus'.trans hstatus⟩

/-! ## Completion times -/

/-- The completion time of every payment is set exactly when it is paid or refunded. -/
def CompletedWhenPaid (db : Db) : Prop :=
  ∀ id p, paymentById db id = some p →
    (p.completedAt.isSome = true ↔ p.status = .PAID ∨ p.status = .REFUNDED)

/-- The payment was paid at some point of the run, its start and its end included. -/
def PaidDuring (c : PaymentConfig ι) (ls : List (ι × WalletEnv)) (id : Id) : Prop :=
  ∃ pre, pre <+: ls ∧ ∃ p,
    paymentById ((paymentCalls calls).run c pre).shared.db id = some p ∧ p.status = .PAID

/-- Status writes keep completion times and statuses together. -/
theorem completedWhenPaid_step {c : PaymentConfig ι} (l : ι × WalletEnv)
    (h : (∀ i, (c.phase i).Sound) ∧ CompletedWhenPaid c.shared.db) :
    (∀ i, (((paymentCalls calls).step c l).phase i).Sound) ∧
      CompletedWhenPaid ((paymentCalls calls).step c l).shared.db := by
  refine ⟨payment_step_sound calls c l h.1, ?_⟩
  intro id p hp
  rcases payment_step_effect calls c l with hsame | ⟨row, status, settled, hphase, _, hrows⟩
  · rw [hsame] at hp
    exact h.2 id p hp
  · have hstatus : status = if settled then .PAID else .FAILED := by
      have hsound := h.1 l.1
      rwa [hphase] at hsound
    unfold paymentById at hp
    rw [hrows, find_setStatus] at hp
    rcases Option.map_eq_some_iff.mp hp with ⟨before, hbefore, rfl⟩
    split
    · rw [hstatus]
      cases settled <;> simp
    · exact h.2 id before hbefore

/-- Where no call writes over a terminal status, a payment that is paid, failed or refunded
never changes status again, and in every state reached the completion time is set exactly
on the payments that are paid, were paid, or had been refunded at the start. -/
theorem payment_status_final {c : PaymentConfig ι} {ls : List (ι × WalletEnv)}
    (hstart : ∀ i, c.phase i = .start) (hcompleted : CompletedWhenPaid c.shared.db)
    (hall : (paymentCalls calls).EachStep LeavesTerminal c ls) :
    (paymentCalls calls).EachStep (TerminalStays calls) c ls ∧
      ∀ id p, paymentById ((paymentCalls calls).run c ls).shared.db id = some p →
        (p.completedAt.isSome = true ↔
          PaidDuring calls c ls id ∨ p.status = .REFUNDED) := by
  have hstays : (paymentCalls calls).EachStep (TerminalStays calls) c ls :=
    hall.mono fun c l => terminalStays_of_leaves calls
  refine ⟨hstays, ?_⟩
  intro id p hp
  have hsound : ∀ i, (c.phase i).Sound := by
    intro i
    rw [hstart i]
    trivial
  have hinv : (∀ i, (((paymentCalls calls).run c ls).phase i).Sound) ∧
      CompletedWhenPaid ((paymentCalls calls).run c ls).shared.db :=
    CallSystem.run_invariant (I := fun c : PaymentConfig ι =>
      (∀ i, (c.phase i).Sound) ∧ CompletedWhenPaid c.shared.db) (paymentCalls calls)
      (fun _ l h => completedWhenPaid_step calls l h) ⟨hsound, hcompleted⟩ ls
  rw [hinv.2 id p hp]
  constructor
  · rintro (hpaid | hrefunded)
    · exact Or.inl ⟨ls, List.prefix_refl ls, p, hp, hpaid⟩
    · exact Or.inr hrefunded
  · rintro (⟨pre, ⟨suf, rfl⟩, q, hq, hpaid⟩ | hrefunded)
    · have hsuf := ((CallSystem.eachStep_append _ _ c pre suf).mp hstays).2
      rcases terminal_of_run calls hsuf hq (by rw [hpaid]; rfl) with ⟨p', hp', hstatus⟩
      rw [CallSystem.run_append] at hp
      rw [hp] at hp'
      cases hp'
      exact Or.inl (hstatus.trans hpaid)
    · exact Or.inr hrefunded

end Runs

/-! ## A webhook after a payment -/

/-- A pending payment of an order. -/
def pendingPayment : Payment where
  id := "p1"
  tenantId := "t1"
  orderId := "o1"
  paymentMethod := .LOCAL_WALLET
  status := .PENDING
  amount := default
  transactionReference := some "tap_payments:chg_1"

def pendingWorld : World where
  db := { orders := [{ (default : Order) with id := "o1", tenantId := "t1" }]
          payments := [pendingPayment] }

/-- The provider reports that the charge was captured, and later that it failed. -/
def webhooks : Fin 2 → PaymentCall
  | 0 => .settleFromWebhook "chg_1" "t1" true
  | 1 => .settleFromWebhook "chg_1" "t1" false

def webhookEnv : WalletEnv where
  uuid _ := "u1"
  now := 5

theorem pendingWorld_completed : CompletedWhenPaid pendingWorld.db := by
  intro id p hp
  have hmem := List.mem_of_find?_eq_some hp
  rcases List.mem_singleton.mp hmem with rfl
  simp [pendingPayment]

/-- The first webhook alone settles the payment. -/
theorem webhook_pays_payment :
    (paymentCalls webhooks).EachStep (TerminalStays webhooks) (startOf pendingWorld)
        [(0, webhookEnv), (0, webhookEnv)] ∧
      ∀ id p, paymentById ((paymentCalls webhooks).run (startOf pendingWorld)
          [(0, webhookEnv), (0, webhookEnv)]).shared.db id = some p →
        (p.completedAt.isSome = true ↔
          PaidDuring webhooks (startOf pendingWorld) [(0, webhookEnv), (0, webhookEnv)] id ∨
            p.status = .REFUNDED) :=
  payment_status_final webhooks (fun _ => rfl) pendingWorld_completed (by decide +kernel)

/-- The second webhook takes the paid payment back and clears its completion time. -/
theorem webhook_unpays_payment :
    ¬∀ ls, (paymentCalls webhooks).EachStep (TerminalStays webhooks) (startOf pendingWorld) ls ∧
      ∀ id p, paymentById ((paymentCalls webhooks).run (startOf pendingWorld) ls).shared.db id =
          some p →
        (p.completedAt.isSome = true ↔
          PaidDuring webhooks (startOf pendingWorld) ls id ∨ p.status = .REFUNDED) := by
  intro hfinal
  have hstays := (hfinal [(0, webhookEnv), (0, webhookEnv), (1, webhookEnv),
    (1, webhookEnv)]).1
  have hlast := hstays.2.2.2.1
  rcases hlast "p1" { pendingPayment with status := .PAID, completedAt := some 5 }
    (by decide +kernel) rfl with ⟨p, hp, hstatus⟩
  have hfailed : paymentById ((paymentCalls webhooks).run (startOf pendingWorld)
      [(0, webhookEnv), (0, webhookEnv), (1, webhookEnv), (1, webhookEnv)]).shared.db "p1" =
        some { pendingPayment with status := .FAILED } := by
    decide +kernel
  have hsame := hfailed.symm.trans hp
  cases hsame
  cases hstatus

end WalletService
end Eleva
