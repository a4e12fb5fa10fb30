import Eleva.Foundation.Machine
import Eleva.Payment.WalletService

/-!
# Payment - Provider payment ids

A payment is found by a pattern for the tail of its transaction reference.  Over the payments that
a tenant has created, an id stands for one payment as long as no other recorded id fits it as a
pattern and it was not given out twice.

Main results:

- Theorem {lit}`createWalletPayment_run`: an accepted call appends one payment, with the
  provider and its id as the reference; any other leaves the database.
- Theorem {lit}`provider_id_identifies_iff`: exactly when an id finds at most its own payment,
  over every list of calls.
- Theorem {lit}`till_payments_share_id`: two payments of one order at the till have the same
  id.
-/

namespace Eleva
namespace WalletService

open Foundation Database

/-! ## One call -/

/-- The row that an accepted call stores. -/
def paymentRow (env : WalletEnv) (dto : CreateWalletPaymentRequestDto) (tenantId : Id)
    (order : Order) (result : WalletPaymentResult) : Payment :=
  paymentRepository.created (env.inTenant tenantId) (some tenantId)
    (paymentPayload dto order result)

theorem paymentRow_tenantId (env : WalletEnv) (dto : CreateWalletPaymentRequestDto)
    (tenantId : Id) (order : Order) (result : WalletPaymentResult) :
    (paymentRow env dto tenantId order result).tenantId = tenantId :=
  rfl

theorem paymentRow_reference (env : WalletEnv) (dto : CreateWalletPaymentRequestDto)
    (tenantId : Id) (order : Order) (result : WalletPaymentResult) :
    (paymentRow env dto tenantId order result).transactionReference =
      some (transactionReferenceOf result) :=
  rfl

/-- A call is accepted with a charge for the order's total and appends one payment, or it
throws and leaves the database. -/
theorem createWalletPayment_run (env : WalletEnv) (dto : CreateWalletPaymentRequestDto)
    (tenantId : Id) (w : World) :
    (∃ e, createWalletPayment env dto tenantId w = (.error e, w)) ∨
      ∃ order result, chargeWallet env dto order.total.toNumber = .ok result ∧
        createWalletPayment env dto tenantId w = (.ok result,
          { w with db := { w.db with
            payments := w.db.payments ++ [paymentRow env dto tenantId order result] } }) := by
  unfold createWalletPayment
  by_cases hT : tenantId = ""
  · subst hT
    have hfind : orders.run (orderRepository.findById (env.inTenant "") dto.orderId) w =
        (.error (.client missingTenantError), w) := by
      apply TableOf.run_refused
      rfl
    exact Or.inl ⟨_, Fallible.bind_of_error hfind⟩
  · have hctx := env.sees_inTenant hT
    have hknown : orderRepository.Known { id := some dto.orderId } (some tenantId) :=
      BaseTenantRepository.known_of_absent _ (fun h => by cases h) rfl
    have hfind := TableOf.run_findFirst (t := orders) hctx
      (by decide : orderRepository.delegate.model ∉ unscopedModels) hknown w
    rw [show orderRepository.findById (env.inTenant tenantId) dto.orderId =
      orderRepository.findFirst (env.inTenant tenantId) { id := some dto.orderId } from rfl,
      Fallible.bind_of_ok hfind]
    cases (orders.get w.db).find? ((orderRepository.scopedWhere { id := some dto.orderId }
        (some tenantId)).admits orderRepository.delegate) with
    | none => exact Or.inl ⟨_, rfl⟩
    | some order =>
        simp only
        cases hpayable : decide (order.total.toNumber ≤ 0) with
        | true => exact Or.inl ⟨_, rfl⟩
        | false =>
            rw [Fallible.throwIf_false_bind]
            cases hcharge : chargeWallet env dto order.total.toNumber with
            | error e => exact Or.inl ⟨e, rfl⟩
            | ok result =>
                rw [Fallible.reads_ok_bind]
                cases hfails : env.fails with
                | true => exact Or.inl ⟨_, rfl⟩
                | false =>
                    rw [attempt_false]
                    have hm : paymentRepository.delegate.model ∉ unscopedModels := by decide
                    rcases TableOf.run_repository_create (t := payments)
                      (paymentPayload dto order result) hctx hm rfl rfl w with
                      ⟨e, hrun⟩ | hrun
                    · exact Or.inl ⟨e, Fallible.bind_of_error hrun⟩
                    · exact Or.inr ⟨order, result, hcharge, Fallible.bind_of_ok hrun⟩

/-! ## A list of calls -/

/-- The creation calls of a tenant, one at a time. -/
def walletPayments (tenantId : Id) :
    Machine (WalletEnv × CreateWalletPaymentRequestDto) World
      (Except AppError WalletPaymentResult) where
  step call w := createWalletPayment call.1 call.2 tenantId w

/-- The accepted calls of a run with what they returned, in order. -/
def accepted (tenantId : Id) :
    List (WalletEnv × CreateWalletPaymentRequestDto) → World →
      List (CreateWalletPaymentRequestDto × WalletPaymentResult)
  | [], _ => []
  | call :: calls, w =>
      let rest := accepted tenantId calls ((walletPayments tenantId).step call w).2
      match ((walletPayments tenantId).step call w).1 with
      | .ok result => (call.2, result) :: rest
      | .error _ => rest

/-- The payments of a tenant. -/
def paymentsOf (db : Db) (tenantId : Id) : List Payment :=
  db.payments.filter fun p => p.tenantId == tenantId

/-- The references of a tenant's payments after a run: those from before and those of the
accepted calls. -/
theorem references_after_run (tenantId : Id)
    (calls : List (WalletEnv × CreateWalletPaymentRequestDto)) (w : World) :
    (paymentsOf ((walletPayments tenantId).exec calls w).db tenantId).map
        (·.transactionReference) =
      (paymentsOf w.db tenantId).map (·.transactionReference) ++
        (accepted tenantId calls w).map fun call => some (transactionReferenceOf call.2) := by
  induction calls generalizing w with
  | nil => simp [accepted]
  | cons call calls ih =>
      rw [Machine.exec_cons, ih]
      rcases createWalletPayment_run call.1 call.2 tenantId w with
        ⟨e, hrun⟩ | ⟨order, result, _, hrun⟩
      · have hstep : (walletPayments tenantId).step call w = (.error e, w) := hrun
        simp only [accepted, hstep]
      · have hstep : (walletPayments tenantId).step call w = (.ok result, _) := hrun
        simp [accepted, hstep, paymentsOf, List.filter_append, paymentRow_tenantId,
          paymentRow_reference]

/-- An accepted call was charged by the rail of its wallet type. -/
theorem accepted_charged {tenantId : Id}
    {calls : List (WalletEnv × CreateWalletPaymentRequestDto)} {w : World}
    {call : CreateWalletPaymentRequestDto × WalletPaymentResult}
    (hcall : call ∈ accepted tenantId calls w) :
    ∃ env amount, chargeWallet env call.1 amount = .ok call.2 := by
  induction calls generalizing w with
  | nil => cases hcall
  | cons head calls ih =>
      rcases createWalletPayment_run head.1 head.2 tenantId w with
        ⟨e, hrun⟩ | ⟨order, result, hcharge, hrun⟩
      · have hstep : (walletPayments tenantId).step head w = (.error e, w) := hrun
        simp only [accepted, hstep] at hcall
        exact ih hcall
      · have hstep : (walletPayments tenantId).step head w = (.ok result, _) := hrun
        simp only [accepted, hstep, List.mem_cons] at hcall
        rcases hcall with rfl | hrest
        · exact ⟨head.1, order.total.toNumber, hcharge⟩
        · exact ih hrest

/-! ## Ids and payments -/

/-- The payments of the tenant that a lookup of the id matches. -/
def matchingPayments (db : Db) (tenantId : Id) (paymentId : String) : List Payment :=
  (paymentsOf db tenantId).filter fun p =>
    p.transactionReference.any (referenceMatches paymentId)

/-- The provider's id as a payment stores it, behind the first colon. -/
def storedPaymentId (p : Payment) : String :=
  afterFirst ':' (p.transactionReference.getD "")

/-- The id matches at most one payment of the tenant, and that payment stores it. -/
def IdentifiesPayment (db : Db) (tenantId : Id) (paymentId : String) : Prop :=
  (matchingPayments db tenantId paymentId).length ≤ 1 ∧
    ∀ p ∈ matchingPayments db tenantId paymentId, storedPaymentId p = paymentId

/-- The id, or what follows a colon in it, fits the text as a pattern. -/
def fitsAsPattern (text id : String) : Bool :=
  referenceMatches text (":" ++ id)

/-- The recorded calls keep an id apart: no other id fits it as a pattern and, where it fits itself,
no two till payments with it are for one order with one wallet type, and it comes from one rail. -/
structure IdApart (paymentId : String)
    (calls : List (CreateWalletPaymentRequestDto × WalletPaymentResult)) : Prop where
  others : ∀ call ∈ calls, fitsAsPattern paymentId call.2.paymentId = true →
    call.2.paymentId = paymentId
  tills : fitsAsPattern paymentId paymentId = true →
    ((calls.filter fun call => call.2.provider == "pos" && call.2.paymentId == paymentId).map
      fun call => (walletTypeOf call.1, call.1.orderId)).Nodup
  rails : fitsAsPattern paymentId paymentId = true → ∀ a ∈ calls, ∀ b ∈ calls,
    a.2.paymentId = paymentId → b.2.paymentId = paymentId → a.2.provider = b.2.provider

/-- A provider never gives out an id twice. -/
def UniqueAt (provider : String)
    (calls : List (CreateWalletPaymentRequestDto × WalletPaymentResult)) : Prop :=
  ((calls.filter fun call => call.2.provider == provider).map (·.2.paymentId)).Nodup

theorem createStripeWalletPayment_provider {env : WalletEnv}
    {dto : CreateWalletPaymentRequestDto} {walletType : WalletType} {provider : String}
    {amount : ℚ} {result : WalletPaymentResult}
    (h : createStripeWalletPayment env dto walletType provider amount = .ok result) :
    result.provider = provider := by
  unfold createStripeWalletPayment at h
  split at h <;> cases h
  rfl

theorem createTapPayment_provider {env : WalletEnv}
    {dto : CreateWalletPaymentRequestDto} {walletType : WalletType} {provider : String}
    {amount : ℚ} {result : WalletPaymentResult}
    (h : createTapPayment env dto walletType provider amount = .ok result) :
    result.provider = provider := by
  unfold createTapPayment at h
  split at h
  · cases h
  · cases h
  · split at h <;> cases h
    rfl

/-- The rail and, at the till, the id of a charge. -/
theorem chargeWallet_ok {env : WalletEnv} {dto : CreateWalletPaymentRequestDto} {amount : ℚ}
    {result : WalletPaymentResult} (h : chargeWallet env dto amount = .ok result) :
    result.provider = "stripe" ∨ result.provider = "tap_payments" ∨
      result.provider = "pos" ∧ (walletTypeOf dto = .cash ∨ walletTypeOf dto = .credit_card) ∧
        result.paymentId = "pos_" ++ (walletTypeOf dto).text ++ "_" ++ dto.orderId := by
  unfold chargeWallet at h
  cases hwallet : walletTypeOf dto with
  | apple_pay | google_pay =>
      rw [hwallet] at h
      exact Or.inl (createStripeWalletPayment_provider h)
  | knet | benefit | mada =>
      rw [hwallet] at h
      exact Or.inr (Or.inl (createTapPayment_provider h))
  | cash | credit_card =>
      rw [hwallet] at h
      cases h
      exact Or.inr (Or.inr ⟨rfl, by simp, rfl⟩)

/-- Till payments have the same id only for one order and one wallet type. -/
theorem till_paymentId_inj {a b : WalletType} {x y : Id} (ha : a = .cash ∨ a = .credit_card)
    (hb : b = .cash ∨ b = .credit_card)
    (h : "pos_" ++ a.text ++ "_" ++ x = "pos_" ++ b.text ++ "_" ++ y) : a = b ∧ x = y := by
  have hlist := congrArg String.toList h
  rcases ha with rfl | rfl <;> rcases hb with rfl | rfl <;>
    simp [WalletType.text] at hlist
  · exact ⟨rfl, String.toList_inj.mp hlist⟩
  · exact ⟨rfl, String.toList_inj.mp hlist⟩

section Recorded

variable {calls : List (CreateWalletPaymentRequestDto × WalletPaymentResult)}

/-- Under the providers' own uniqueness, all ids differ exactly when till payments do and
ids of different rails do. -/
theorem paymentIds_nodup_iff
    (hcharged : ∀ call ∈ calls, ∃ env amount, chargeWallet env call.1 amount = .ok call.2)
    (hstripe : UniqueAt "stripe" calls) (htap : UniqueAt "tap_payments" calls) :
    (calls.map (·.2.paymentId)).Nodup ↔
      ((calls.filter fun call => call.2.provider == "pos").map fun call =>
        (walletTypeOf call.1, call.1.orderId)).Nodup ∧
      ∀ a ∈ calls, ∀ b ∈ calls, a.2.provider ≠ b.2.provider →
        a.2.paymentId ≠ b.2.paymentId := by
  have hrail : ∀ call ∈ calls, call.2.provider = "stripe" ∨ call.2.provider = "tap_payments" ∨
      call.2.provider = "pos" ∧
        (walletTypeOf call.1 = .cash ∨ walletTypeOf call.1 = .credit_card) ∧
        call.2.paymentId = "pos_" ++ (walletTypeOf call.1).text ++ "_" ++ call.1.orderId := by
    intro call hcall
    rcases hcharged call hcall with ⟨env, amount, hcharge⟩
    exact chargeWallet_ok hcharge
  have htillId : ∀ call ∈ calls, call.2.provider = "pos" →
      (walletTypeOf call.1 = .cash ∨ walletTypeOf call.1 = .credit_card) ∧
        call.2.paymentId = "pos_" ++ (walletTypeOf call.1).text ++ "_" ++ call.1.orderId := by
    intro call hcall hpos
    rcases hrail call hcall with hother | hother | ⟨_, htill⟩
    · exact absurd (hpos.symm.trans hother) (by decide)
    · exact absurd (hpos.symm.trans hother) (by decide)
    · exact htill
  unfold UniqueAt at hstripe htap
  simp only [List.Nodup, List.pairwise_map, List.pairwise_filter, beq_iff_eq] at *
  constructor
  · intro hids
    constructor
    · refine hids.imp_of_mem ?_
      intro a b ha hb hne hapos hbpos hkey
      rcases htillId a ha hapos with ⟨_, hida⟩
      rcases htillId b hb hbpos with ⟨_, hidb⟩
      rw [Prod.mk.injEq] at hkey
      exact hne (by rw [hida, hidb, hkey.1, hkey.2])
    · intro a ha b hb hprovider hid
      have hnodup : (calls.map (·.2.paymentId)).Nodup := List.pairwise_map.mpr hids
      have hsame : a = b := List.inj_on_of_nodup_map hnodup ha hb hid
      exact hprovider (by rw [hsame])
  · rintro ⟨htills, hrails⟩
    refine ((hstripe.and htap).and htills).imp_of_mem ?_
    rintro a b ha hb ⟨⟨hs, ht⟩, hp⟩ hid
    by_cases hsame : a.2.provider = b.2.provider
    · rcases hrail a ha with ha' | ha' | ⟨ha', _⟩
      · exact hs ha' (hsame ▸ ha') hid
      · exact ht ha' (hsame ▸ ha') hid
      · have hb' : b.2.provider = "pos" := hsame ▸ ha'
        rcases htillId a ha ha' with ⟨hwa, hida⟩
        rcases htillId b hb hb' with ⟨hwb, hidb⟩
        rw [hida, hidb] at hid
        rcases till_paymentId_inj hwa hwb hid with ⟨hwallet, horder⟩
        exact hp ha' hb' (Prod.ext hwallet horder)
    · exact hrails a ha b hb hsame hid

end Recorded

/-! ## Exactly when an id identifies a payment -/

/-- The rails have names without colons. -/
theorem colon_notMem_provider {env : WalletEnv} {dto : CreateWalletPaymentRequestDto}
    {amount : ℚ} {result : WalletPaymentResult}
    (h : chargeWallet env dto amount = .ok result) : ':' ∉ result.provider.toList := by
  rcases chargeWallet_ok h with hrail | hrail | ⟨hrail, _⟩ <;> rw [hrail] <;> decide

theorem colon_eq_singleton : (":" : String) = String.singleton ':' := by
  decide

/-- A reference fits when its id does: the name of the rail holds no colon. -/
theorem referenceMatches_eq {result : WalletPaymentResult}
    (hprovider : ':' ∉ result.provider.toList) (x : String) :
    referenceMatches x (transactionReferenceOf result) = fitsAsPattern x result.paymentId := by
  unfold fitsAsPattern referenceMatches transactionReferenceOf
  rw [colon_eq_singleton]
  have hreference : result.provider ++ String.singleton ':' ++ result.paymentId =
      result.provider ++ (String.singleton ':' ++ result.paymentId) := String.append_assoc
  rw [hreference]
  exact like_separator_iff (by decide) hprovider x _

/-- Behind its first colon a reference holds the provider's id. -/
theorem reference_afterFirst {result : WalletPaymentResult}
    (hprovider : ':' ∉ result.provider.toList) :
    afterFirst ':' (transactionReferenceOf result) = result.paymentId := by
  unfold transactionReferenceOf
  rw [colon_eq_singleton]
  exact afterFirst_separator hprovider _

section Identification

variable {tenantId : Id} {calls : List (WalletEnv × CreateWalletPaymentRequestDto)} {w : World}

/-- The payments that match an id after a run are those of the accepted calls whose id fits. -/
theorem matching_references (hnone : paymentsOf w.db tenantId = []) (x : String) :
    (matchingPayments ((walletPayments tenantId).exec calls w).db tenantId x).map
        (·.transactionReference) =
      ((accepted tenantId calls w).filter fun call => fitsAsPattern x call.2.paymentId).map
        fun call => some (transactionReferenceOf call.2) := by
  have hrefs := references_after_run tenantId calls w
  rw [hnone, List.map_nil, List.nil_append] at hrefs
  have hfilter : ∀ rows : List Payment,
      (rows.filter fun p => p.transactionReference.any (referenceMatches x)).map
          (·.transactionReference) =
        (rows.map (·.transactionReference)).filter
          fun reference => reference.any (referenceMatches x) := by
    intro rows
    rw [List.filter_map]
    rfl
  have hfits : ∀ call ∈ accepted tenantId calls w,
      referenceMatches x (transactionReferenceOf call.2) =
        fitsAsPattern x call.2.paymentId := by
    intro call hcall
    rcases accepted_charged hcall with ⟨env, amount, hcharge⟩
    exact referenceMatches_eq (colon_notMem_provider hcharge) x
  unfold matchingPayments
  rw [hfilter, hrefs, List.filter_map, ← List.filter_congr hfits]
  rfl

/-- An id is that of at most one recorded call exactly when no two till payments and no two rails
share it. -/
theorem recorded_once_iff (hstripe : UniqueAt "stripe" (accepted tenantId calls w))
    (htap : UniqueAt "tap_payments" (accepted tenantId calls w)) (x : String) :
    ((accepted tenantId calls w).filter fun call => call.2.paymentId == x).length ≤ 1 ↔
      (((accepted tenantId calls w).filter fun call =>
          call.2.provider == "pos" && call.2.paymentId == x).map
        fun call => (walletTypeOf call.1, call.1.orderId)).Nodup ∧
      ∀ a ∈ accepted tenantId calls w, ∀ b ∈ accepted tenantId calls w,
        a.2.paymentId = x → b.2.paymentId = x → a.2.provider = b.2.provider := by
  have hunique : ∀ provider, UniqueAt provider (accepted tenantId calls w) →
      UniqueAt provider ((accepted tenantId calls w).filter fun call =>
        call.2.paymentId == x) := by
    intro provider h
    unfold UniqueAt
    rw [List.filter_comm]
    exact List.Nodup.sublist (List.filter_sublist.map _) h
  have hids : ((accepted tenantId calls w).filter fun call => call.2.paymentId == x).map
      (·.2.paymentId) =
        List.replicate ((accepted tenantId calls w).filter fun call =>
          call.2.paymentId == x).length x := by
    refine List.eq_replicate_iff.mpr ⟨List.length_map _, fun id hid => ?_⟩
    rcases List.mem_map.mp hid with ⟨call, hcall, rfl⟩
    exact beq_iff_eq.mp (List.mem_filter.mp hcall).2
  rw [← List.nodup_replicate, ← hids,
    paymentIds_nodup_iff (fun call hcall => accepted_charged (List.mem_filter.mp hcall).1)
      (hunique _ hstripe) (hunique _ htap), List.filter_filter]
  refine and_congr_right fun _ => ⟨fun h a ha b hb hida hidb => ?_, fun h a ha b hb hne => ?_⟩
  · by_contra hne
    exact h a (List.mem_filter.mpr ⟨ha, beq_iff_eq.mpr hida⟩)
      b (List.mem_filter.mpr ⟨hb, beq_iff_eq.mpr hidb⟩) hne (hida.trans hidb.symm)
  · rcases List.mem_filter.mp ha with ⟨ha, hida⟩
    rcases List.mem_filter.mp hb with ⟨hb, hidb⟩
    exact absurd (h a ha b hb (beq_iff_eq.mp hida) (beq_iff_eq.mp hidb)) hne

/-- The matches store the id exactly when no other recorded id fits it. -/
theorem matching_stored_iff (hnone : paymentsOf w.db tenantId = []) (x : String) :
    (∀ p ∈ matchingPayments ((walletPayments tenantId).exec calls w).db tenantId x,
        storedPaymentId p = x) ↔
      ∀ call ∈ accepted tenantId calls w, fitsAsPattern x call.2.paymentId = true →
        call.2.paymentId = x := by
  have hreferences := @matching_references _ calls _ hnone x
  have hstores : ∀ call ∈ accepted tenantId calls w,
      afterFirst ':' (transactionReferenceOf call.2) = call.2.paymentId := by
    intro call hcall
    rcases accepted_charged hcall with ⟨env, amount, hcharge⟩
    exact reference_afterFirst (colon_notMem_provider hcharge)
  unfold storedPaymentId
  constructor
  · intro h call hcall hfits
    have hmem : some (transactionReferenceOf call.2) ∈
        (matchingPayments ((walletPayments tenantId).exec calls w).db tenantId x).map
          (·.transactionReference) := by
      rw [hreferences]
      exact List.mem_map.mpr ⟨call, List.mem_filter.mpr ⟨hcall, hfits⟩, rfl⟩
    rcases List.mem_map.mp hmem with ⟨p, hp, hreference⟩
    have hid := h p hp
    rw [hreference, Option.getD_some, hstores call hcall] at hid
    exact hid
  · intro h p hp
    have hmem := List.mem_map_of_mem (f := (·.transactionReference)) hp
    rw [hreferences] at hmem
    rcases List.mem_map.mp hmem with ⟨call, hcall, hreference⟩
    rcases List.mem_filter.mp hcall with ⟨hcall, hfits⟩
    rw [← hreference, Option.getD_some, hstores call hcall]
    exact h call hcall hfits

/-- When no other id fits, the calls that fit are those with the id, or none where the id does not
fit itself. -/
theorem fitting_calls {recorded : List (CreateWalletPaymentRequestDto × WalletPaymentResult)}
    {x : String} (hothers : ∀ call ∈ recorded, fitsAsPattern x call.2.paymentId = true →
      call.2.paymentId = x) :
    (recorded.filter fun call => fitsAsPattern x call.2.paymentId) =
      if fitsAsPattern x x = true then recorded.filter fun call => call.2.paymentId == x
      else [] := by
  split <;> rename_i hself
  · refine List.filter_congr fun call hcall => ?_
    rw [Bool.eq_iff_iff, beq_iff_eq]
    exact ⟨hothers call hcall, fun hid => hid ▸ hself⟩
  · refine List.filter_eq_nil_iff.mpr fun call hcall hfits => hself ?_
    have hid := hothers call hcall hfits
    rw [hid] at hfits
    exact hfits

/-- When Stripe and Tap give out no id twice, an id identifies its payment after a run exactly when
the recorded calls keep it apart. -/
theorem provider_id_identifies_iff (hnone : paymentsOf w.db tenantId = [])
    (hstripe : UniqueAt "stripe" (accepted tenantId calls w))
    (htap : UniqueAt "tap_payments" (accepted tenantId calls w)) (paymentId : String) :
    IdentifiesPayment ((walletPayments tenantId).exec calls w).db tenantId paymentId ↔
      IdApart paymentId (accepted tenantId calls w) := by
  have hlength := congrArg List.length (@matching_references _ calls _ hnone paymentId)
  rw [List.length_map, List.length_map] at hlength
  unfold IdentifiesPayment
  rw [matching_stored_iff hnone, hlength]
  constructor
  · rintro ⟨hcount, hothers⟩
    rw [fitting_calls hothers] at hcount
    have honce : fitsAsPattern paymentId paymentId = true → _ ∧ _ := fun hself =>
      (recorded_once_iff hstripe htap paymentId).mp (by rwa [if_pos hself] at hcount)
    exact ⟨hothers, fun hself => (honce hself).1, fun hself => (honce hself).2⟩
  · rintro ⟨hothers, htills, hrails⟩
    refine ⟨?_, hothers⟩
    rw [fitting_calls hothers]
    split <;> rename_i hself
    · exact (recorded_once_iff hstripe htap paymentId).mpr ⟨htills hself, hrails hself⟩
    · exact Nat.zero_le 1

end Identification

/-! ## Two payments at the till -/

/-- An order that can be paid. -/
def payableWorld : World where
  db := { orders := [{ (default : Order) with
    id := "o1", tenantId := "t1", total := ⟨1050, by decide⟩ }] }

def tillCall (uuid : Id) (walletType : WalletType) :
    WalletEnv × CreateWalletPaymentRequestDto :=
  ({ uuid := fun _ => uuid, now := 0 },
    { orderId := "o1", paymentMethod := .CASH, walletType := some walletType })

/-- A cash and a card payment of one order have ids of their own. -/
theorem till_payments_identified :
    IdentifiesPayment ((walletPayments "t1").exec
      [tillCall "p1" .cash, tillCall "p2" .credit_card] payableWorld).db "t1" "pos_cash_o1" := by
  have hstripe : UniqueAt "stripe" (accepted "t1"
      [tillCall "p1" .cash, tillCall "p2" .credit_card] payableWorld) := by
    unfold UniqueAt
    decide +kernel
  have htap : UniqueAt "tap_payments" (accepted "t1"
      [tillCall "p1" .cash, tillCall "p2" .credit_card] payableWorld) := by
    unfold UniqueAt
    decide +kernel
  exact (provider_id_identifies_iff rfl hstripe htap "pos_cash_o1").mpr
    { others := by decide +kernel
      tills := by decide +kernel
      rails := by decide +kernel }

/-- Two cash payments of one order have the same id: both match it. -/
theorem till_payments_share_id :
    ¬∀ calls, UniqueAt "stripe" (accepted "t1" calls payableWorld) →
      UniqueAt "tap_payments" (accepted "t1" calls payableWorld) → ∀ paymentId,
        IdentifiesPayment ((walletPayments "t1").exec calls payableWorld).db "t1" paymentId := by
  intro hidentifies
  have hstripe : UniqueAt "stripe" (accepted "t1"
      [tillCall "p1" .cash, tillCall "p2" .cash] payableWorld) := by
    unfold UniqueAt
    decide +kernel
  have htap : UniqueAt "tap_payments" (accepted "t1"
      [tillCall "p1" .cash, tillCall "p2" .cash] payableWorld) := by
    unfold UniqueAt
    decide +kernel
  have hone := (hidentifies _ hstripe htap "pos_cash_o1").1
  have htwo : (matchingPayments ((walletPayments "t1").exec
      [tillCall "p1" .cash, tillCall "p2" .cash] payableWorld).db "t1" "pos_cash_o1").length =
        2 := by
    decide +kernel
  omega

/-- A percent sign finds any payment. -/
example : (matchingPayments ((walletPayments "t1").exec [tillCall "p1" .cash] payableWorld).db "t1"
    "%").map storedPaymentId = ["pos_cash_o1"] := by
  decide +kernel

end WalletService
end Eleva
