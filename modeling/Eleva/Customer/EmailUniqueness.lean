import Eleva.Customer.CustomerService
import Eleva.Foundation.Machine

/-!
# Customer - One live customer per email

The customers over runs of registrations, changes, deletions and restorations, with the partial
unique index on the live emails of a tenant and without it.

Main results:

- Theorem {lit}`CustomerRequest.agrees`: a request does the same with the index and without it.
- Theorem {lit}`emails_unique`: what holds after every run.
-/

namespace Eleva
namespace CustomerService

open Foundation Database TableOf

/-! ## The index -/

/-- The table of customers without the index on live emails. -/
def customersWithoutIndex : TableOf Customer :=
  { customers with uniqueKeys := [fun r => some r.id] }

/-- The keys of the two tables. -/
def customerKeys : List (List (Customer → Option String)) :=
  [customers.uniqueKeys, customersWithoutIndex.uniqueKeys]

theorem customers_accepts {rows stored : List Customer} :
    ({ rows := stored, uniqueKeys := customers.uniqueKeys } : Store Customer).accepts rows = true ↔
      Keyed rows := by
  have hids : rows.filterMap (fun r => some r.id) = rows.map (·.id) := by
    simp
  simp only [Store.accepts, customers, List.all_cons, List.all_nil, Bool.and_true,
    Bool.and_eq_true, decide_eq_true_eq, hids]
  exact ⟨fun h => ⟨h.1, h.2⟩, fun h => ⟨h.1, h.2⟩⟩

theorem customersWithoutIndex_accepts {rows stored : List Customer} :
    ({ rows := stored, uniqueKeys := customersWithoutIndex.uniqueKeys } :
      Store Customer).accepts rows = true ↔ (rows.map (·.id)).Nodup := by
  have hids : rows.filterMap (fun r => some r.id) = rows.map (·.id) := by
    simp
  simp only [Store.accepts, customersWithoutIndex, customers, List.all_cons, List.all_nil,
    Bool.and_true, decide_eq_true_eq, hids]

/-- Both tables hold valid rows. -/
theorem Keyed.valid {rows : List Customer} (h : Keyed rows) {keys : List (Customer → Option String)}
    (hkeys : keys ∈ customerKeys) :
    customerModel.Valid { rows := rows, uniqueKeys := keys } := by
  rcases List.mem_pair.mp hkeys with rfl | rfl
  · exact ⟨customers_accepts.mpr h, List.mem_cons_self⟩
  · exact ⟨customersWithoutIndex_accepts.mpr h.ids, List.mem_cons_self⟩

section Statements

variable {α : Type} {x : Fallible (Store Customer) ClientError α} {w : World}

/-- A statement that answers the same from both tables, and leaves the same rows, does the same
in both. -/
theorem run_agrees {answer : Except ClientError α} {s s' : Store Customer}
    (h : x { rows := customers.get w.db, uniqueKeys := customers.uniqueKeys } = (answer, s))
    (h' : x { rows := customersWithoutIndex.get w.db
              uniqueKeys := customersWithoutIndex.uniqueKeys } = (answer, s'))
    (hrows : s.rows = s'.rows) : customers.run x w = customersWithoutIndex.run x w := by
  unfold TableOf.run
  rw [h, h']
  cases answer with
  | error e => simp only [hrows]; rfl
  | ok a => simp only [hrows]; rfl

/-- A statement that reads the same whatever the keys does the same in both tables. -/
theorem read_agrees {answer : Except ClientError α}
    (hx : ∀ keys, x { rows := w.db.customers, uniqueKeys := keys } =
      (answer, { rows := w.db.customers, uniqueKeys := keys })) :
    customers.run x w = customersWithoutIndex.run x w :=
  run_agrees (hx _) (hx _) rfl

/-- A write that leaves the live emails apart does the same in both tables. -/
theorem write_agrees (rows : List Customer) (a : α)
    (hx : ∀ keys ∈ customerKeys, x { rows := w.db.customers, uniqueKeys := keys } =
      if ({ rows := w.db.customers, uniqueKeys := keys } : Store Customer).accepts rows then
        (.ok a, { rows := rows, uniqueKeys := keys })
      else (.error .constraintViolation, { rows := w.db.customers, uniqueKeys := keys }))
    (hkeyed : (rows.map (·.id)).Nodup → Keyed rows) :
    customers.run x w = customersWithoutIndex.run x w := by
  have hwrite := hx _ List.mem_cons_self
  have hwrite' := hx _ (List.mem_cons_of_mem _ List.mem_cons_self)
  by_cases hids : (rows.map (·.id)).Nodup
  · rw [if_pos (customers_accepts.mpr (hkeyed hids))] at hwrite
    rw [if_pos (customersWithoutIndex_accepts.mpr hids)] at hwrite'
    exact run_agrees hwrite hwrite' rfl
  · rw [if_neg fun h => hids (customers_accepts.mp h).ids] at hwrite
    rw [if_neg fun h => hids (customersWithoutIndex_accepts.mp h)] at hwrite'
    exact run_agrees hwrite hwrite' rfl

end Statements

/-! ## Two runs side by side -/

/-- Sequences that do the same step by step do the same. -/
theorem bind_agrees {α β : Type} {x y : Service α} {f g : α → Service β} {w : World}
    (h : x w = y w) (hf : ∀ a w', x w = (.ok a, w') → f a w' = g a w') :
    (x >>= f) w = (y >>= g) w := by
  rcases hx : x w with ⟨e | a, w'⟩
  · rw [Fallible.bind_of_error hx, Fallible.bind_of_error (h ▸ hx)]
  · rw [Fallible.bind_of_ok hx, Fallible.bind_of_ok (h ▸ hx), hf a w' hx]

theorem attempt_agrees {α : Type} {fails : Bool} {x y : Service α} {w : World}
    (h : x w = y w) : attempt fails x w = attempt fails y w := by
  cases fails with
  | false => exact h
  | true => rfl

section Methods

variable {env : LifecycleEnv} {id : Id} {email : String} {w : World}

/-- Without a scope every look-up is refused in the same way. -/
theorem getTenantId_error {e : ClientError}
    (h : BaseTenantRepository.getTenantId env.context = .error e) (db : Store Customer) :
    (∀ f, customerRepository.findFirst env.toEnv f db = (.error e, db)) ∧
      ∀ f options, customerRepository.findMany env.toEnv f options db = (.error e, db) := by
  have hread : (Fallible.reads fun _ => BaseTenantRepository.getTenantId env.context :
      Fallible (Store Customer) ClientError (Option Id)) db = (.error e, db) := by
    rw [Fallible.reads_apply, h]
  exact ⟨fun _ => Fallible.bind_of_error hread, fun _ _ => Fallible.bind_of_error hread⟩

theorem findByEmail_agrees :
    findByEmail customers env email w = findByEmail customersWithoutIndex env email w := by
  refine attempt_agrees ?_
  cases hscope : BaseTenantRepository.getTenantId env.context with
  | error e => exact read_agrees fun keys => (getTenantId_error hscope _).2 _ _
  | ok S =>
      rw [findByEmail_apply (sees_of_getTenantId hscope),
        findByEmail_apply (sees_of_getTenantId hscope)]
      rfl

theorem fetch_agrees {statement : Statement} {e : AppError} :
    fetch customers customerRepository env statement id e w =
      fetch customersWithoutIndex customerRepository env statement id e w := by
  refine bind_agrees (attempt_agrees ?_) fun _ _ _ => rfl
  cases hscope : BaseTenantRepository.getTenantId env.context with
  | error e => exact read_agrees fun keys => (getTenantId_error hscope _).1 _
  | ok S =>
      rw [run_findById_live customers_softDelete (sees_of_getTenantId hscope),
        run_findById_live customers_softDelete (sees_of_getTenantId hscope)]
      rfl

theorem fetchIncludingDeleted_agrees {statement : Statement} {e : AppError} :
    fetchIncludingDeleted customers customerRepository env statement id e w =
      fetchIncludingDeleted customersWithoutIndex customerRepository env statement id e w := by
  refine bind_agrees (attempt_agrees ?_) fun _ _ _ => rfl
  cases hscope : BaseTenantRepository.getTenantId env.context with
  | error e => exact read_agrees fun keys => (getTenantId_error hscope _).1 _
  | ok S =>
      rw [run_findByIdIncludingDeleted customers_softDelete (sees_of_getTenantId hscope),
        run_findByIdIncludingDeleted customers_softDelete (sees_of_getTenantId hscope)]
      rfl

/-- A check that found a holder of the email under another id says so. -/
theorem no_other_holder (id : Id) {S : Option Id} {found : List Customer} {w' : World}
    (h : Keyed w.db.customers) (hctx : env.context.Sees S)
    (hfind : findByEmail customers env email w = (.ok found, w')) :
    w' = w ∧ ((found.any fun c => c.id != id) = false →
      ∀ y ∈ w.db.customers, y.id ≠ id → holdsEmail S email y = false) := by
  rcases findByEmail_ok hctx hfind with ⟨hw, hfound⟩
  refine ⟨hw, fun hnone y hy hid => ?_⟩
  have hids : ((w.db.customers.filter (holdsEmail S email)).map (·.id)).Nodup :=
    h.ids.sublist (List.filter_sublist.map _)
  have hlisted : found = (w.db.customers.filter (holdsEmail S email)).take
      BaseTenantRepository.DEFAULT_MAX_ROWS := hfound
  rw [hlisted, any_take_ne hids] at hnone
  cases hheld : holdsEmail S email y with
  | false => rfl
  | true =>
      have hother := List.any_eq_false.mp hnone y (List.mem_filter.mpr ⟨hy, hheld⟩)
      simp [hid] at hother

/-- A registration does the same with the index and without it. -/
theorem createCustomer_agrees (h : Keyed w.db.customers) (dto : CreateCustomerRequestDto) :
    createCustomer customers env dto w = createCustomer customersWithoutIndex env dto w := by
  refine bind_agrees findByEmail_agrees fun existing w₁ hfind => ?_
  refine bind_agrees rfl fun _ w₂ hfree => ?_
  refine bind_agrees rfl fun _ w₃ htenant => bind_agrees (attempt_agrees ?_) fun _ _ _ => rfl
  rcases Fallible.throwIf_eq_ok.mp hfree with ⟨hnone, hw₂⟩
  rcases Fallible.throwIf_eq_ok.mp htenant with ⟨htruthy, hw₃⟩
  have hscope : ∃ T, env.context.Sees (some T) := by
    cases hT : env.context.tenantId with
    | none => simp [hT, truthy] at htruthy
    | some T => exact ⟨T, hT, by simpa [hT, truthy] using htruthy⟩
  rcases hscope with ⟨T, hctx⟩
  let created := customerRepository.created env.toEnv (some T) (newCustomer dto env.now)
  rcases findByEmail_ok hctx hfind with ⟨hw₁, hfound⟩
  rw [hw₃, hw₂, hw₁]
  have hfree : ∀ y ∈ w.db.customers, holdsEmail (some T) dto.email y = false := by
    intro y hy
    have hlisted : existing = (w.db.customers.filter (holdsEmail (some T) dto.email)).take
        BaseTenantRepository.DEFAULT_MAX_ROWS := hfound
    have hnil : w.db.customers.filter (holdsEmail (some T) dto.email) = [] := by
      have hempty : existing = [] := by simpa using hnone
      rw [hempty, eq_comm, List.take_eq_nil_iff] at hlisted
      exact hlisted.resolve_left (by decide)
    simpa using List.filter_eq_nil_iff.mp hnil y hy
  refine write_agrees (w.db.customers ++ [created]) (some created)
    (fun keys _ => BaseTenantRepository.create_apply customerRepository hctx
      customers_softDelete.isScoped rfl rfl _) fun hids => ?_
  refine h.appended (S := some T) ?_ (by simp [created, visible, owned, TenantRow.tenantId,
    BaseTenantRepository.created, Payload.inScope, Payload.withTenant, Payload.apply,
    TenantRow.setTenantId]) hfree
  rw [List.map_append, List.map_singleton, List.nodup_append] at hids
  intro hmem
  exact hids.2.2 _ hmem _ List.mem_cons_self rfl

theorem checkEmail_agrees (existing : Customer) (email : Field String) :
    checkEmail customers env id existing email w =
      checkEmail customersWithoutIndex env id existing email w := by
  cases email with
  | undefined => rfl
  | null => rfl
  | value email =>
      simp only [checkEmail]
      split
      · rfl
      · exact bind_agrees findByEmail_agrees fun _ _ _ => rfl

/-- A check that passed leaves the email, or found no other holder of the new one. -/
theorem checkEmail_ok {S : Option Id} {existing : Customer} {email : Field String} {u : Unit}
    {w' : World} (h : Keyed w.db.customers) (hctx : env.context.Sees S)
    (hcheck : checkEmail customers env id existing email w = (.ok u, w')) :
    w' = w ∧ (email.getD existing.email = existing.email ∨
      ∀ y ∈ w.db.customers, y.id ≠ id → holdsEmail S (email.getD existing.email) y = false) := by
  cases email with
  | undefined =>
      cases hcheck
      exact ⟨rfl, Or.inl rfl⟩
  | null => cases hcheck
  | value email =>
      simp only [checkEmail] at hcheck
      split at hcheck
      · cases hcheck
        rename_i hsame
        exact ⟨rfl, Or.inl hsame⟩
      · rcases Fallible.bind_eq_ok.mp hcheck with ⟨clash, w₁, hfind, hthrow⟩
        rcases no_other_holder id h hctx hfind with ⟨hw₁, hfree⟩
        rcases Fallible.throwIf_eq_ok.mp hthrow with ⟨hnone, hw'⟩
        exact ⟨hw'.trans hw₁, Or.inr (hfree hnone)⟩

/-- An update does the same with the index and without it. -/
theorem updateCustomer_agrees (h : Keyed w.db.customers) (dto : UpdateCustomerRequestDto) :
    updateCustomer customers env id dto w = updateCustomer customersWithoutIndex env id dto w := by
  refine bind_agrees fetch_agrees fun existing w₁ hfetch => ?_
  rcases fetch_ok customers_softDelete hfetch with ⟨hw₁, _, S, hctx, hfound⟩
  rw [hw₁]
  refine bind_agrees (checkEmail_agrees existing dto.email) fun _ w₂ hcheck => ?_
  rcases checkEmail_ok h hctx hcheck with ⟨hw₂, hemail⟩
  rw [hw₂]
  by_cases hempty : dto.isEmpty
  · simp only [hempty, if_true]
  · simp only [hempty, Bool.false_eq_true, if_false]
    refine bind_agrees rfl fun _ w₃ hpass => attempt_agrees ?_
    rw [(Fallible.throwIf_eq_ok.mp hpass).2]
    have hmem := List.mem_of_find?_eq_some hfound
    rcases liveRow_iff.mp (List.find?_some hfound) with ⟨hid, hscope, hlive⟩
    refine write_agrees (rewriteWhere (ownRow S id) (customerFields dto).apply w.db.customers)
      (some ((customerFields dto).apply existing))
      (fun keys hkeys => SoftDeletableModel.update_writes (M := customerModel) (h.valid hkeys)
        (customerFields dto) hctx rfl hfound) fun _ => ?_
    rw [← hid]
    refine h.rewritten hmem (fun _ => rfl) (fun _ => rfl)
        fun _ y hy hyid hylive htenant hsame => ?_
    rcases hemail with hkept | hfree
    · exact hyid (congrArg (·.id) (h.eq_of_email hmem hy hlive hylive (hsame.trans hkept) htenant))
    · have hnone := hfree y hy (hid ▸ hyid)
      have hnew : y.email = dto.email.getD existing.email := hsame
      rw [← hnew, holdsEmail_of_live hscope hylive htenant] at hnone
      cases hnone

/-- A deletion does the same with the index and without it. -/
theorem deleteCustomer_agrees (h : Keyed w.db.customers) :
    deleteCustomer customers env id w = deleteCustomer customersWithoutIndex env id w := by
  refine bind_agrees fetch_agrees fun existing w₁ hfetch => ?_
  rcases fetch_ok customers_softDelete hfetch with ⟨hw₁, _, S, hctx, hfound⟩
  refine bind_agrees rfl fun activeOrders w₂ hcount => ?_
  refine bind_agrees rfl fun _ w₃ hpass => bind_agrees (attempt_agrees ?_) fun _ _ _ => rfl
  rw [(Fallible.throwIf_eq_ok.mp hpass).2, countActiveOrders_readsOnly.state_eq hcount, hw₁]
  have hmem := List.mem_of_find?_eq_some hfound
  rcases liveRow_iff.mp (List.find?_some hfound) with ⟨hid, hscope, hlive⟩
  have hstate : Option.isSome (customerModel.column.get existing) = false := by
    rw [show customerModel.column.get existing = none from hlive]
    rfl
  have hvalid : customerModel.Valid
      { rows := w.db.customers, uniqueKeys := customers.uniqueKeys } := h.valid List.mem_cons_self
  have hown : w.db.customers.find? (ownRow S id) = some existing :=
    hid ▸ hvalid.find?_own hmem hscope
  refine write_agrees (customerModel.marked S id {} (some env.now) w.db.customers)
    (some ((BaseTenantRepository.withDeletedAt customerDeletedAt {} (some env.now)).apply existing))
    (fun keys _ => SoftDeletableModel.setDeletedAt_writes (M := customerModel) {} Option.isSome
      (some env.now) hctx rfl hown hstate) fun _ => ?_
  unfold SoftDeletableModel.marked
  rw [← hid]
  exact h.rewritten hmem (fun _ => rfl) (fun _ => rfl) fun hdeleted => by cases hdeleted

/-- A restoration does the same with the index and without it. -/
theorem restoreCustomer_agrees (h : Keyed w.db.customers) :
    restoreCustomer customers env id w = restoreCustomer customersWithoutIndex env id w := by
  refine bind_agrees fetchIncludingDeleted_agrees fun existing w₁ hfetch => ?_
  rcases fetchIncludingDeleted_ok customers_softDelete hfetch with ⟨hw₁, _, S, hctx, hfound⟩
  rw [hw₁]
  refine bind_agrees findByEmail_agrees fun clash w₂ hfind => ?_
  rcases no_other_holder id h hctx hfind with ⟨hw₂, hfree⟩
  refine bind_agrees rfl fun _ w₃ hpass => bind_agrees (attempt_agrees ?_) fun _ _ _ => rfl
  rcases Fallible.throwIf_eq_ok.mp hpass with ⟨hnone, hw₃⟩
  rw [hw₃, hw₂]
  have hmem := List.mem_of_find?_eq_some hfound
  have hid : existing.id = id := id_of_ownRow (List.find?_some hfound)
  have hscope : visible S existing = true := by
    have hown := List.find?_some hfound
    rw [ownRow, Bool.and_eq_true] at hown
    exact hown.2
  cases hstate : Option.isNone existing.deletedAt with
  | true =>
      exact read_agrees fun keys => SoftDeletableModel.setDeletedAt_unchanged
        (M := customerModel) {} Option.isNone none hctx hfound hstate
  | false =>
      refine write_agrees (customerModel.marked S id {} none w.db.customers)
        (some ((BaseTenantRepository.withDeletedAt customerDeletedAt {} none).apply existing))
        (fun keys _ => SoftDeletableModel.setDeletedAt_writes (M := customerModel) {} Option.isNone
          none hctx rfl hfound hstate) fun _ => ?_
      unfold SoftDeletableModel.marked
      rw [← hid]
      refine h.rewritten hmem (fun _ => rfl) (fun _ => rfl)
        fun _ y hy hyid hylive htenant hsame => ?_
      have hheld := hfree hnone y hy (hid ▸ hyid)
      have hown : y.email = existing.email := hsame
      rw [← hown, holdsEmail_of_live hscope hylive htenant] at hheld
      cases hheld

end Methods

/-! ## The index keeps the live emails apart -/

section Index

variable {α : Type} {env : LifecycleEnv} {id : Id} {email : String}

/-- A statement on the table with the index leaves the live emails apart. -/
theorem run_keeps_keyed {x : Fallible (Store Customer) ClientError α}
    (hx : ∀ db₀, Fallible.Keeps (SoftDeletableModel.Sound db₀) x) :
    Fallible.Keeps (fun w => Keyed w.db.customers) (customers.run x) := by
  intro w hw
  have hsound := hx { rows := customers.get w.db, uniqueKeys := customers.uniqueKeys }
    { rows := customers.get w.db, uniqueKeys := customers.uniqueKeys }
    ⟨customers_accepts.mpr hw, rfl⟩
  have hkeyed : Keyed
      (x { rows := customers.get w.db, uniqueKeys := customers.uniqueKeys }).2.rows := by
    have haccepted := hsound.accepted
    unfold Store.accepts at haccepted
    rw [hsound.uniqueKeys, Bool.and_eq_true] at haccepted
    have hstored : ({ rows := w.db.customers, uniqueKeys := customers.uniqueKeys } :
        Store Customer).accepts
          (x { rows := customers.get w.db, uniqueKeys := customers.uniqueKeys }).2.rows = true := by
      simpa [Store.accepts] using haccepted.1
    exact customers_accepts.mp hstored
  unfold TableOf.run
  split <;> rename_i hrun
  · rw [hrun] at hkeyed
    exact hkeyed
  · split
    · rw [hrun] at hkeyed
      exact hkeyed
    · exact hw

theorem readsOnly_keeps {x : Service α} (hx : Fallible.ReadsOnly x) :
    Fallible.Keeps (fun w => Keyed w.db.customers) x :=
  .of_unchanged hx

theorem createCustomer_keeps (dto : CreateCustomerRequestDto) :
    Fallible.Keeps (fun w => Keyed w.db.customers) (createCustomer customers env dto) :=
  .bind (readsOnly_keeps findByEmail_readsOnly) fun _ => .bind (.throwIf _ _) fun _ =>
    .bind (.throwIf _ _) fun _ => .bind (attempt_keeps _ (run_keeps_keyed fun _ =>
      SoftDeletableModel.create_keeps _ _)) fun _ => .pure _

theorem checkEmail_readsOnly (existing : Customer) (email : Field String) :
    Fallible.ReadsOnly (checkEmail customers env id existing email) := by
  cases email with
  | undefined => exact .pure _
  | null => exact .throw _
  | value email =>
      simp only [checkEmail]
      split
      · exact .pure _
      · exact .bind findByEmail_readsOnly fun _ => .throwIf _ _

theorem updateCustomer_keeps (dto : UpdateCustomerRequestDto) :
    Fallible.Keeps (fun w => Keyed w.db.customers) (updateCustomer customers env id dto) := by
  refine .bind (readsOnly_keeps fetch_readsOnly) fun existing => ?_
  refine .bind (readsOnly_keeps (checkEmail_readsOnly existing dto.email)) fun _ => ?_
  refine .ite (fun _ => .pure _) fun _ => .bind (.throwIf _ _) fun _ => ?_
  exact attempt_keeps _ (run_keeps_keyed fun _ => SoftDeletableModel.onOwned_keeps _ _ _ _)

theorem deleteCustomer_keeps :
    Fallible.Keeps (fun w => Keyed w.db.customers) (deleteCustomer customers env id) :=
  .bind (readsOnly_keeps fetch_readsOnly) fun _ =>
    .bind (readsOnly_keeps countActiveOrders_readsOnly) fun _ => .bind (.throwIf _ _) fun _ =>
      .bind (attempt_keeps _ (run_keeps_keyed fun _ =>
        SoftDeletableModel.setDeletedAt_keeps _ _ _ _ _)) fun _ => .pure _

theorem restoreCustomer_keeps :
    Fallible.Keeps (fun w => Keyed w.db.customers) (restoreCustomer customers env id) :=
  .bind (readsOnly_keeps fetchIncludingDeleted_readsOnly) fun _ =>
    .bind (readsOnly_keeps findByEmail_readsOnly) fun _ => .bind (.throwIf _ _) fun _ =>
      .bind (attempt_keeps _ (run_keeps_keyed fun _ =>
        SoftDeletableModel.setDeletedAt_keeps _ _ _ _ _)) fun _ => .pure _

end Index

/-! ## Requests -/

/-- The requests about customers, each with its surroundings. -/
inductive CustomerRequest where
  | create (env : LifecycleEnv) (dto : CreateCustomerRequestDto)
  | update (env : LifecycleEnv) (id : Id) (dto : UpdateCustomerRequestDto)
  | delete (env : LifecycleEnv) (id : Id)
  | restore (env : LifecycleEnv) (id : Id)

/-- What a request answers. -/
inductive CustomerReply where
  | created (answer : Option CustomerResponse)
  | updated (customer : Option Customer)
  | deleted (answer : SoftDeleteResult)
  | restored (answer : RestoreResult)
deriving DecidableEq, Repr

namespace CustomerRequest

def env : CustomerRequest → LifecycleEnv
  | create env _ | update env _ _ | delete env _ | restore env _ => env

/-- Serve a request from a table of customers. -/
def run (t : TableOf Customer) : CustomerRequest → Service CustomerReply
  | create env dto => do return .created (← createCustomer t env dto)
  | update env id dto => do return .updated (← updateCustomer t env id dto)
  | delete env id => do return .deleted (← deleteCustomer t env id)
  | restore env id => do return .restored (← restoreCustomer t env id)

/-- A request does the same with the index and without it. -/
theorem agrees (request : CustomerRequest) {w : World} (h : Keyed w.db.customers) :
    request.run customers w = request.run customersWithoutIndex w := by
  cases request with
  | create env dto => exact bind_agrees (createCustomer_agrees h dto) fun _ _ _ => rfl
  | update env id dto => exact bind_agrees (updateCustomer_agrees h dto) fun _ _ _ => rfl
  | delete env id => exact bind_agrees (deleteCustomer_agrees h) fun _ _ _ => rfl
  | restore env id => exact bind_agrees (restoreCustomer_agrees h) fun _ _ _ => rfl

theorem run_keeps (request : CustomerRequest) :
    Fallible.Keeps (fun w => Keyed w.db.customers) (request.run customers) := by
  cases request with
  | create env dto => exact .bind (createCustomer_keeps dto) fun _ => .pure _
  | update env id dto => exact .bind (updateCustomer_keeps dto) fun _ => .pure _
  | delete env id => exact .bind deleteCustomer_keeps fun _ => .pure _
  | restore env id => exact .bind restoreCustomer_keeps fun _ => .pure _

end CustomerRequest

/-- The machine that serves requests one after the other. -/
def customerMachine (t : TableOf Customer) :
    Machine CustomerRequest World (Except AppError CustomerReply) where
  step request w := request.run t w

/-- A run does the same with the index and without it, and leaves the live emails apart. -/
theorem customerMachine_agrees (requests : List CustomerRequest) {w : World}
    (h : Keyed w.db.customers) :
    (customerMachine customers).run requests w =
        (customerMachine customersWithoutIndex).run requests w ∧
      Keyed ((customerMachine customers).exec requests w).db.customers := by
  induction requests generalizing w with
  | nil => exact ⟨rfl, h⟩
  | cons request requests ih =>
      have hstep := request.agrees h
      have hkept := request.run_keeps w h
      rcases ih hkept with ⟨hruns, hkeyed⟩
      refine ⟨?_, hkeyed⟩
      simp only [Machine.run, customerMachine] at hruns ⊢
      rw [← hstep, hruns]

/-! ## Conflicts and new registrations -/

/-- A request is in conflict with a live customer in its scope; the message says with which
email. -/
inductive Conflicts (S : Option Id) (db : Db) : CustomerRequest → String → Prop where
  | create {env : LifecycleEnv} {dto : CreateCustomerRequestDto} {c : Customer}
      (mem : c ∈ db.customers) (held : holdsEmail S dto.email c = true) :
      Conflicts S db (.create env dto) (takenMessage dto.email)
  | update {env : LifecycleEnv} {id : Id} {dto : UpdateCustomerRequestDto} {email : String}
      {existing c : Customer} (found : db.customers.find? (liveRow customerDeletedAt S id) =
        some existing) (changed : dto.email = .value email) (new : email ≠ existing.email)
      (mem : c ∈ db.customers) (held : holdsEmail S email c = true) (other : c.id ≠ id) :
      Conflicts S db (.update env id dto) (takenMessage email)
  | restore {env : LifecycleEnv} {id : Id} {existing c : Customer}
      (found : db.customers.find? (ownRow S id) = some existing) (mem : c ∈ db.customers)
      (held : holdsEmail S existing.email c = true) (other : c.id ≠ id) :
      Conflicts S db (.restore env id) (clashMessage existing.email)

section Conflicts

variable {env : LifecycleEnv} {S : Option Id} {email : String} {w : World}

/-- A check that is answered. -/
theorem findByEmail_returns (hctx : env.context.Sees S) (hup : ∀ s, env.fails s = false) :
    findByEmail customers env email w =
      (.ok ((w.db.customers.filter (holdsEmail S email)).take
        BaseTenantRepository.DEFAULT_MAX_ROWS), w) := by
  unfold findByEmail
  rw [hup, attempt_false, findByEmail_apply hctx]
  rfl

theorem fetch_returns {id : Id} {e : AppError} {existing : Customer} (hctx : env.context.Sees S)
    (hup : ∀ s, env.fails s = false)
    (hfound : w.db.customers.find? (liveRow customerDeletedAt S id) = some existing) :
    fetch customers customerRepository env .read id e w = (.ok existing, w) := by
  unfold fetch
  rw [hup, attempt_false, Fallible.bind_of_ok (run_findById_live customers_softDelete hctx id w)]
  exact orThrow_eq_ok.mpr ⟨hfound, rfl⟩

theorem fetchIncludingDeleted_returns {id : Id} {e : AppError} {existing : Customer}
    (hctx : env.context.Sees S) (hup : ∀ s, env.fails s = false)
    (hfound : w.db.customers.find? (ownRow S id) = some existing) :
    fetchIncludingDeleted customers customerRepository env .read id e w = (.ok existing, w) := by
  unfold fetchIncludingDeleted
  rw [hup, attempt_false,
    Fallible.bind_of_ok (run_findByIdIncludingDeleted customers_softDelete hctx id w)]
  exact orThrow_eq_ok.mpr ⟨hfound, rfl⟩

/-- The check of a taken email lists another customer. -/
theorem any_other {c : Customer} {id : Id} (h : Keyed w.db.customers) (hc : c ∈ w.db.customers)
    (hheld : holdsEmail S email c = true) (hother : c.id ≠ id) :
    (((w.db.customers.filter (holdsEmail S email)).take
      BaseTenantRepository.DEFAULT_MAX_ROWS).any fun c => c.id != id) = true := by
  rw [any_take_ne (h.ids.sublist (List.filter_sublist.map _))]
  exact List.any_eq_true.mpr ⟨c, List.mem_filter.mpr ⟨hc, hheld⟩, by simp [hother]⟩

/-- A request in conflict throws, and changes nothing. -/
theorem Conflicts.refused {request : CustomerRequest} {message : String}
    (hconflict : Conflicts S w.db request message) (h : Keyed w.db.customers)
    (hctx : request.env.context.Sees S) (hup : ∀ s, request.env.fails s = false) :
    request.run customers w = (.error (.conflict message), w) := by
  cases hconflict with
  | create hc hheld =>
      rename_i env dto c
      refine Fallible.bind_of_error ((Fallible.bind_of_ok (findByEmail_returns hctx hup)).trans
        (Fallible.bind_of_error ?_))
      have hmem : c ∈ w.db.customers.filter (holdsEmail S dto.email) :=
        List.mem_filter.mpr ⟨hc, hheld⟩
      have hfound : ((w.db.customers.filter (holdsEmail S dto.email)).take
          BaseTenantRepository.DEFAULT_MAX_ROWS).length > 0 := by
        rw [List.length_take]
        exact Nat.lt_min.mpr ⟨by decide, List.length_pos_of_mem hmem⟩
      unfold Fallible.throwIf
      rw [decide_eq_true hfound]
      rfl
  | update hfound hchanged hnew hc hheld hother =>
      rename_i env id dto email existing c
      refine Fallible.bind_of_error ((Fallible.bind_of_ok (fetch_returns hctx hup hfound)).trans
        (Fallible.bind_of_error ?_))
      simp only [hchanged, checkEmail, if_neg hnew]
      refine (Fallible.bind_of_ok (findByEmail_returns hctx hup)).trans ?_
      unfold Fallible.throwIf
      rw [any_other h hc hheld hother]
      rfl
  | restore hfound hc hheld hother =>
      rename_i env id existing c
      refine Fallible.bind_of_error
        ((Fallible.bind_of_ok (fetchIncludingDeleted_returns hctx hup hfound)).trans
          ((Fallible.bind_of_ok (findByEmail_returns hctx hup)).trans (Fallible.bind_of_error ?_)))
      unfold Fallible.throwIf
      rw [any_other h hc hheld hother]
      rfl

/-- An email that no live customer of the tenant holds can be registered. -/
theorem createCustomer_returns {T : Id} {dto : CreateCustomerRequestDto}
    (h : Keyed w.db.customers) (hctx : env.context.Holds T) (hup : ∀ s, env.fails s = false)
    (hid : env.uuid 0 ∉ w.db.customers.map (·.id))
    (hfree : ∀ c ∈ w.db.customers, c.tenantId = T → c.email = dto.email → c.deletedAt ≠ none) :
    ∃ c : Customer, c.email = dto.email ∧ c.tenantId = T ∧ c.deletedAt = none ∧
      createCustomer customers env dto w = (.ok (some (registered c)),
        { w with db := customers.set (w.db.customers ++ [c]) w.db }) := by
  have hsees : env.context.Sees (some T) := hctx
  have hnone : ∀ c ∈ w.db.customers, holdsEmail (some T) dto.email c = false := by
    intro c hc
    cases hheld : holdsEmail (some T) dto.email c with
    | false => rfl
    | true =>
        simp only [holdsEmail, Bool.and_eq_true, Option.isNone_iff_eq_none, beq_iff_eq] at hheld
        have htenant : c.tenantId = T := Option.some.inj (visible_some.mp hheld.1.1)
        exact absurd hheld.1.2 (hfree c hc htenant hheld.2)
  have hempty : w.db.customers.filter (holdsEmail (some T) dto.email) = [] :=
    List.filter_eq_nil_iff.mpr fun c hc => by rw [hnone c hc]; exact Bool.false_ne_true
  let c := customerRepository.created env.toEnv (some T) (newCustomer dto env.now)
  have hkeyed : Keyed (w.db.customers ++ [c]) :=
    h.appended (S := some T) hid (by simp [c, visible, owned, TenantRow.tenantId,
      BaseTenantRepository.created, Payload.inScope, Payload.withTenant, Payload.apply,
      TenantRow.setTenantId]) hnone
  refine ⟨c, rfl, rfl, rfl, ?_⟩
  have hcreate : customers.run (customerRepository.create env.toEnv (newCustomer dto env.now)) w =
      (.ok (some c), { w with db := customers.set (w.db.customers ++ [c]) w.db }) :=
    run_create_of_accepts hsees customers_softDelete.isScoped rfl rfl
    (customers_accepts.mpr hkeyed) rfl
  have htruthy : truthy env.context.tenantId = true := by
    simp [hctx.tenantId, truthy, hctx.nonempty]
  have hwrite : (do
      let customer ← attempt (env.fails .write)
        (customers.run (customerRepository.create env.toEnv (newCustomer dto env.now)))
      pure (customer.map registered) : Service (Option CustomerResponse)) w =
        (.ok (some (registered c)),
          { w with db := customers.set (w.db.customers ++ [c]) w.db }) := by
    rw [hup, attempt_false, Fallible.bind_of_ok hcreate]
    rfl
  unfold createCustomer
  rw [Fallible.bind_of_ok (findByEmail_returns hsees hup), hempty]
  simp only [List.take_nil, List.length_nil, htruthy, Bool.not_true]
  exact hwrite

end Conflicts

/-! ## The invariant over runs -/

/-- A live email of a tenant occurs once. -/
theorem Keyed.countP_le {rows : List Customer} (h : Keyed rows) (email : String) (T : Id) :
    rows.countP (fun c => c.deletedAt.isNone && c.email == email && c.tenantId == T) ≤ 1 := by
  have hcount := List.nodup_iff_count_le_one.mp h.emails (pairKey email T)
  rw [List.count, List.countP_filterMap] at hcount
  refine le_trans (List.countP_mono_left fun c _ hc => ?_) hcount
  simp only [Bool.and_eq_true, Option.isNone_iff_eq_none, beq_iff_eq] at hc
  simp [liveEmailKey, hc.1.1, hc.1.2, hc.2]

/-- After any requests, one after the other: every request did what it would have done without
the index on live emails, so none attempted a write that the index refuses; a live email of a
tenant is that of one customer; a request in conflict throws and changes nothing; and an email
that only deleted customers of a tenant hold can be registered. -/
theorem emails_unique (requests : List CustomerRequest) {w : World} (h : Keyed w.db.customers) :
    let w' := (customerMachine customers).exec requests w
    (customerMachine customers).run requests w =
        (customerMachine customersWithoutIndex).run requests w ∧
      (∀ email T, w'.db.customers.countP
        (fun c => c.deletedAt.isNone && c.email == email && c.tenantId == T) ≤ 1) ∧
      (∀ request S message, request.env.context.Sees S → (∀ s, request.env.fails s = false) →
        Conflicts S w'.db request message →
          request.run customers w' = (.error (.conflict message), w')) ∧
      ∀ env dto T, env.context.Holds T → (∀ s, env.fails s = false) →
        env.uuid 0 ∉ w'.db.customers.map (·.id) →
        (∀ c ∈ w'.db.customers, c.tenantId = T → c.email = dto.email → c.deletedAt ≠ none) →
          ∃ c : Customer, c.email = dto.email ∧ c.tenantId = T ∧ c.deletedAt = none ∧
            createCustomer customers env dto w' = (.ok (some (registered c)),
              { w' with db := customers.set (w'.db.customers ++ [c]) w'.db }) := by
  rcases customerMachine_agrees requests h with ⟨hruns, hkeyed⟩
  exact ⟨hruns, fun email T => hkeyed.countP_le email T,
    fun _ _ _ hctx hup hconflict => hconflict.refused hkeyed hctx hup,
    fun _ _ _ hctx hup hid hfree => createCustomer_returns hkeyed hctx hup hid hfree⟩

/-! ## A customer who comes back -/

/-- The surroundings of a request in one tenant, with an id for a new row. -/
def counterEnv (id : Id) : LifecycleEnv where
  context := { tenantId := some "t1" }
  uuid _ := id
  now := 1700000000000

def ann : CreateCustomerRequestDto where
  firstName := "Ann"
  lastName := "Lee"
  email := "ann@example.com"

def noCustomers : World := { db := {} }

/-- Ann registers, is deleted and registers again; her first record is not restored. -/
def comingBack : List CustomerRequest :=
  [.create (counterEnv "c1") ann, .delete (counterEnv "") "c1", .create (counterEnv "c2") ann,
    .restore (counterEnv "") "c1"]

theorem comingBack_unique :
    let w' := (customerMachine customers).exec comingBack noCustomers
    w'.db.customers.map (fun c => (c.id, c.deletedAt.isNone)) = [("c1", false), ("c2", true)] ∧
      w'.db.customers.countP (fun c => c.deletedAt.isNone && c.email == "ann@example.com" &&
        c.tenantId == "t1") ≤ 1 :=
  ⟨by decide +kernel, (emails_unique comingBack ⟨by decide, by decide⟩).2.1 _ _⟩

end CustomerService
end Eleva
