import Eleva.Order.OrderSteps

/-!
# Branch - Open orders and deletions

A deletion of the branch service counts the open orders of its branch or table before it writes
tombstones, and a checkout looks the branch and the table up before it writes the order.  Between
the check of a call and its write the other calls go on.

Main results:

- Definition {lit}`Write.InTime`: what a check found still holds where its write is made.
- Theorem {lit}`none_stranded`: in every interleaving whose writes are all in time, no open order
  has a deleted branch or table.
- Theorem {lit}`checkout_overtaken`: a branch is deleted between the lookup and the transaction of
  a checkout, and the order is stranded.
-/

namespace Eleva
namespace BranchService

open Foundation Database TableOf

/-! ## Orders, branches and tables -/

/-- The order still needs its branch and its table. -/
def isOpen (o : Order) : Bool :=
  ACTIVE_ORDER_STATUSES.contains o.status

/-- The branch has no tombstone, and neither has the table, if one is named. -/
def LiveAt (db : Db) (branchId : Id) (tableId : Option Id) : Prop :=
  (∀ b ∈ db.branches, b.id = branchId → b.deletedAt = none) ∧
    ∀ r ∈ db.tables, some r.id = tableId → r.deletedAt = none

instance (db : Db) (branchId : Id) (tableId : Option Id) :
    Decidable (LiveAt db branchId tableId) :=
  inferInstanceAs (Decidable (_ ∧ _))

/-- No open order has a deleted branch or table. -/
def NoneStranded (db : Db) : Prop :=
  ∀ o ∈ db.orders, isOpen o = true → LiveAt db o.branchId o.tableId

instance (db : Db) : Decidable (NoneStranded db) :=
  inferInstanceAs (Decidable (∀ o ∈ db.orders, _))

/-- The table, if one is named, is one of the branch. -/
def TableAt (db : Db) (branchId : Id) (tableId : Option Id) : Prop :=
  ∀ r ∈ db.tables, some r.id = tableId → r.branchId = branchId

/-- No order is stranded, and the tables of the orders are those of their branches. -/
structure Sound (db : Db) : Prop where
  tableIds : (db.tables.map (·.id)).Nodup
  tableAt : ∀ o ∈ db.orders, TableAt db o.branchId o.tableId
  live : NoneStranded db

/-- The tables of a database were tables before, at the same branches. -/
def TablesFrom (db db' : Db) : Prop :=
  ∀ r ∈ db'.tables, ∃ s ∈ db.tables, s.id = r.id ∧ s.branchId = r.branchId

/-- Branches and tables are left alone. -/
structure SameSites (db db' : Db) : Prop where
  branches : db'.branches = db.branches
  tables : db'.tables = db.tables

theorem TablesFrom.refl (db : Db) : TablesFrom db db :=
  fun r hr => ⟨r, hr, rfl, rfl⟩

theorem TablesFrom.trans {db db' db'' : Db} (h : TablesFrom db db') (h' : TablesFrom db' db'') :
    TablesFrom db db'' := by
  intro r hr
  rcases h' r hr with ⟨s, hs, hid, hbranch⟩
  rcases h s hs with ⟨t, ht, hid', hbranch'⟩
  exact ⟨t, ht, hid'.trans hid, hbranch'.trans hbranch⟩

theorem TableAt.of_tablesFrom {db db' : Db} {branchId : Id} {tableId : Option Id}
    (h : TableAt db branchId tableId) (hfrom : TablesFrom db db') :
    TableAt db' branchId tableId := by
  intro r hr hid
  rcases hfrom r hr with ⟨s, hs, hsid, hbranch⟩
  rw [← hbranch]
  exact h s hs (by rw [hsid]; exact hid)

section Sites

variable {db db' : Db} {branchId : Id} {tableId : Option Id}

theorem SameSites.tablesFrom (h : SameSites db db') : TablesFrom db db' := by
  intro r hr
  rw [h.tables] at hr
  exact ⟨r, hr, rfl, rfl⟩

theorem SameSites.liveAt (h : SameSites db db') (hlive : LiveAt db branchId tableId) :
    LiveAt db' branchId tableId := by
  unfold LiveAt
  rw [h.branches, h.tables]
  exact hlive

/-- A database with other orders is sound, as far as its orders are. -/
theorem Sound.of_orders (h : Sound db) (hsites : SameSites db db')
    (horders : ∀ o ∈ db'.orders, TableAt db o.branchId o.tableId ∧
      (isOpen o = true → LiveAt db o.branchId o.tableId)) : Sound db' where
  tableIds := by
    rw [hsites.tables]
    exact h.tableIds
  tableAt o ho := (horders o ho).1.of_tablesFrom hsites.tablesFrom
  live o ho hopen := hsites.liveAt ((horders o ho).2 hopen)

theorem tablesFrom_rewriteWhere {q : Table → Bool} {f : Table → Table}
    (hid : ∀ r, (f r).id = r.id) (hbranch : ∀ r, (f r).branchId = r.branchId) :
    TablesFrom db (tables.set (rewriteWhere q f db.tables) db) := by
  intro r hr
  rcases mem_rewriteWhere.mp hr with ⟨s, hs, rfl⟩
  refine ⟨s, hs, ?_⟩
  split
  · exact ⟨(hid s).symm, (hbranch s).symm⟩
  · exact ⟨rfl, rfl⟩

/-- Tombstones on tables without open orders strand no order. -/
theorem Sound.tablesMarked (h : Sound db) {q : Table → Bool} (now : Timestamp)
    (hclosed : ∀ r ∈ db.tables, q r = true →
      ∀ o ∈ db.orders, o.tableId = some r.id → isOpen o = false) :
    Sound (tables.set (rewriteWhere q (tableTombstone now).apply db.tables) db) := by
  have hfrom : TablesFrom db
      (tables.set (rewriteWhere q (tableTombstone now).apply db.tables) db) :=
    tablesFrom_rewriteWhere (fun _ => rfl) fun _ => rfl
  refine ⟨?_, fun o ho => (h.tableAt o ho).of_tablesFrom hfrom, fun o ho hopen => ⟨?_, ?_⟩⟩
  · have hids : (rewriteWhere q (tableTombstone now).apply db.tables).map (·.id) =
        db.tables.map (·.id) :=
      map_rewriteWhere (fun r => (rfl : ((tableTombstone now).apply r).id = r.id)) _
    exact hids ▸ h.tableIds
  · exact (h.live o ho hopen).1
  · intro r hr hid
    rcases mem_rewriteWhere.mp hr with ⟨s, hs, rfl⟩
    by_cases hq : q s = true
    · rw [if_pos hq] at hid
      have hshut := hclosed s hs hq o ho hid.symm
      rw [hopen] at hshut
      cases hshut
    · rw [if_neg hq] at hid ⊢
      exact (h.live o ho hopen).2 s hs hid

/-- Tombstones on branches without open orders strand no order. -/
theorem Sound.branchesMarked (h : Sound db) {p : Branch → Bool} (now : Timestamp)
    (hclosed : ∀ b ∈ db.branches, p b = true →
      ∀ o ∈ db.orders, o.branchId = b.id → isOpen o = false) :
    Sound (branches.set (rewriteWhere p (branchTombstone now).apply db.branches) db) := by
  refine ⟨h.tableIds, h.tableAt, fun o ho hopen => ⟨?_, (h.live o ho hopen).2⟩⟩
  intro b hb hid
  rcases mem_rewriteWhere.mp hb with ⟨c, hc, rfl⟩
  by_cases hp : p c = true
  · rw [if_pos hp] at hid
    have hshut := hclosed c hc hp o ho hid.symm
    rw [hopen] at hshut
    cases hshut
  · rw [if_neg hp] at hid ⊢
    exact (h.live o ho hopen).1 c hc hid

end Sites

end BranchService

open BranchService Foundation Database TableOf

/-! ## Writes in time -/

/-- What the check before a write found of branches, tables and open orders still holds. -/
def Write.InTime (db : Db) : Write → Prop
  | .nothing => True
  | .order branchId tableId => LiveAt db branchId tableId
  | .status id next => ACTIVE_ORDER_STATUSES.contains next = true →
      ∀ o ∈ db.orders, o.id = id → LiveAt db o.branchId o.tableId
  | .branch id => ∀ o ∈ db.orders, o.branchId = id → isOpen o = false
  | .table id => ∀ o ∈ db.orders, o.tableId = some id → isOpen o = false

instance (db : Db) (write : Write) : Decidable (write.InTime db) := by
  cases write <;> unfold Write.InTime <;> infer_instance

/-- What the calls agree on: no order is stranded, tables stay at their branches, and writes are
made in time. -/
def sites : Discipline Write World where
  Inv w := Sound w.db
  Moves w w' := TablesFrom w.db w'.db
  Admits write w := write.InTime w.db
  refl w := TablesFrom.refl w.db
  trans _ _ _ := TablesFrom.trans

instance (write : Write) (w : World) : Decidable (sites.Admits write w) :=
  inferInstanceAs (Decidable (write.InTime w.db))

/-- A statement that does not fail makes its write. -/
theorem Write.unless_false (write : Write) : write.unless false = write :=
  rfl

namespace OrderService

section Orders

variable {w w' : World}

/-- A step that leaves orders, branches and tables keeps to the discipline. -/
theorem keeps_of_same (h : Sound w.db) (hsites : SameSites w.db w'.db)
    (horders : w'.db.orders = w.db.orders) : Sound w'.db ∧ TablesFrom w.db w'.db := by
  refine ⟨h.of_orders hsites fun o ho => ?_, hsites.tablesFrom⟩
  rw [horders] at ho
  exact ⟨h.tableAt o ho, h.live o ho⟩

/-- The transaction of a checkout, at a table of the branch. -/
theorem checkout_keeps {env : CheckoutEnv} {S : Option Id} {userTenantId : Id}
    {dto : CreateOrderRequestDto} {subtotal taxAmount : ℚ} {drafts : List OrderItemDraft}
    (hctx : env.context.Sees S) (h : Sound w.db)
    (hat : TableAt w.db dto.branchId (orNull dto.tableId))
    (htime : (orderWrite env dto).InTime w.db) :
    Sound (Fallible.transaction
        (checkoutTransaction env userTenantId dto subtotal taxAmount drafts) w).2.db ∧
      TablesFrom w.db (Fallible.transaction
        (checkoutTransaction env userTenantId dto subtotal taxAmount drafts) w).2.db := by
  rcases hrun : Fallible.transaction
    (checkoutTransaction env userTenantId dto subtotal taxAmount drafts) w with ⟨e | order, w'⟩
  · cases Fallible.transaction_error hrun
    exact ⟨h, TablesFrom.refl _⟩
  · have hcommitted := Fallible.transaction_eq_ok.mp hrun
    rw [orderWrite, (checkoutTransaction_passed hcommitted).1,
      (checkoutTransaction_passed hcommitted).2] at htime
    rcases checkoutTransaction_ok hctx hcommitted with ⟨_, row, _, hrow, _, rfl, _, hdb⟩
    have hplace := orderRow_place hrow
    have hsites : SameSites w.db w'.db := by
      rw [hdb]
      exact ⟨rfl, rfl⟩
    refine ⟨h.of_orders hsites fun o ho => ?_, hsites.tablesFrom⟩
    rw [hdb] at ho
    rcases List.mem_append.mp ho with hold | hnew
    · exact ⟨h.tableAt o hold, h.live o hold⟩
    · rw [List.mem_singleton.mp hnew]
      simp only [hplace.1, hplace.2]
      exact ⟨hat, fun _ => htime⟩

/-- The write of a status. -/
theorem writeStatus_keeps {env : StatusEnv} {S : Option Id} {id : Id} {status : OrderStatus}
    (hctx : env.context.Sees S) (h : Sound w.db)
    (htime : ((Write.status id status).unless (env.fails .write)).InTime w.db) :
    Sound (writeStatus env id status w).2.db ∧
      TablesFrom w.db (writeStatus env id status w).2.db := by
  rcases hrun : writeStatus env id status w with ⟨e | order, w'⟩
  · cases writeStatus_error hctx hrun
    exact ⟨h, TablesFrom.refl _⟩
  · rcases writeStatus_ok hctx hrun with ⟨hfails, _, _, _, rfl⟩
    rw [hfails, Write.unless_false] at htime
    have hsites : SameSites w.db { w.db with orders := setStatus S id status w.db.orders } :=
      ⟨rfl, rfl⟩
    refine ⟨h.of_orders hsites fun o ho => ?_, hsites.tablesFrom⟩
    rcases List.mem_map.mp ho with ⟨old, hold, rfl⟩
    split
    · rename_i hmatch
      simp only [Bool.and_eq_true, beq_iff_eq] at hmatch
      exact ⟨h.tableAt old hold, fun hopen => htime hopen old hold hmatch.1.symm⟩
    · exact ⟨h.tableAt old hold, h.live old hold⟩

end Orders

/-! ## The calls of the order service -/

section Calls

variable {w : World}

/-- A repository lookup is a step that only reads. -/
theorem statement_lookup_readsOnly {Row α : Type} [TenantRow Row] [DecidableEq Row]
    {t : TableOf Row} {fails : Bool} {x : Fallible (Store Row) ClientError α}
    (hx : Fallible.ReadsOnly x) : (statement (attempt fails (t.run x))).ReadsOnly :=
  .atomic (attempt_readsOnly (run_readsOnly hx))

theorem resolveUnitPriceSteps_readsOnly (env : CheckoutEnv) (i : ℕ) (item : OrderItemSelectionDto)
    (product : Product) : (resolveUnitPriceSteps env i item product).ReadsOnly := by
  unfold resolveUnitPriceSteps
  cases orNull item.variantId with
  | some variantId =>
      refine .bind (statement_lookup_readsOnly fun _ => Delegate.findFirst_state _)
        fun variant => ?_
      cases variant with
      | none => exact .throw _
      | some variant => exact .bind (.throwIf _ _) fun _ => .pure _
  | none =>
      cases orNull item.sizeId with
      | none => exact .pure _
      | some sizeId =>
          refine .bind (statement_lookup_readsOnly (BaseTenantRepository.findMany_readsOnly _ _))
            fun size => ?_
          cases size with
          | nil => exact .throw _
          | cons row _ => exact .pure _

theorem resolveAddonsSteps_readsOnly (env : CheckoutEnv) (userTenantId : Id) (i j : ℕ)
    (selections : List OrderAddonSelectionDto) (total : ℚ) (created : List OrderItemAddon) :
    (resolveAddonsSteps env userTenantId i j selections total created).ReadsOnly := by
  induction selections generalizing j total created with
  | nil => exact .pure _
  | cons addonSelection rest ih =>
      refine .bind (statement_lookup_readsOnly (BaseTenantRepository.findMany_readsOnly _ _))
        fun addonItem => ?_
      cases addonItem with
      | nil => exact .throw _
      | cons row _ => exact .bind (.throwIf _ _) fun _ => ih _ _ _

theorem priceItemsSteps_readsOnly (env : CheckoutEnv) (userTenantId : Id) (i : ℕ)
    (items : List OrderItemSelectionDto) (subtotal : ℚ) (created : List OrderItemDraft) :
    (priceItemsSteps env userTenantId i items subtotal created).ReadsOnly := by
  induction items generalizing i subtotal created with
  | nil => exact .pure _
  | cons item rest ih =>
      refine .bind (.bind (statement_lookup_readsOnly
        (BaseTenantRepository.findFirst_readsOnly _)) fun product => ?_) fun _ => ih _ _ _
      cases product with
      | none => exact .throw _
      | some product =>
          exact .bind (.throwIf _ _) fun _ =>
            .bind (resolveUnitPriceSteps_readsOnly env i item product) fun _ =>
              .bind (resolveAddonsSteps_readsOnly env userTenantId i 0 _ _ _) fun _ => .pure _

/-- The last statements of a call leave orders, branches and tables. -/
theorem statement_safe {α β : Type} {x : Service α} {f : α → Steps β}
    (hx : ∀ s, SameSites s.db (x s).2.db ∧ (x s).2.db.orders = s.db.orders)
    (hf : ∀ a t, (f a).Safe sites t) : (statement x >>= f).Safe sites w :=
  Prog.Safe.step fun s _ hinv _ =>
    ⟨keeps_of_same hinv (hx s).1 (hx s).2, fun a _ => hf a _⟩

/-- A lookup of a table that checks its branch. -/
theorem validateTableSteps_meets {env : CheckoutEnv} {dto : CreateOrderRequestDto}
    {branch : Branch} {S : Option Id} (hctx : env.context.Sees S) :
    (validateTableSteps env dto branch).Meets sites w fun r t =>
      ∀ u, r = .ok u → TableAt t.db branch.id (orNull dto.tableId) := by
  unfold validateTableSteps
  cases orNull dto.tableId with
  | none =>
      intro u _ r _ hid
      cases hid
  | some tableId =>
      refine Prog.Meets.bind (Prog.Meets.read (attempt_readsOnly
        (run_readsOnly (BaseTenantRepository.findFirst_readsOnly _))) fun s _ hinv => ?_)
      rcases hread : attempt (env.fails .table)
        (tables.run (tableRepository.findById env.toEnv tableId)) s with ⟨e | found, s'⟩
      · intro u hu
        cases hu
      · have hlookup := (attempt_eq_ok.mp hread).2
        rw [run_findTable hctx] at hlookup
        cases hlookup
        simp only
        cases hrow : liveTable s.db S tableId with
        | none =>
            intro u hu
            cases hu
        | some table =>
            simp only [Prog.throwIf]
            split
            · intro u hu
              cases hu
            · rename_i hsame
              intro u _ r hr hid
              have hrow' := List.find?_some hrow
              simp only [Bool.and_eq_true, beq_iff_eq] at hrow'
              have hone : r = table := List.inj_on_of_nodup_map hinv.tableIds hr
                (List.mem_of_find?_eq_some hrow) ((Option.some.inj hid).trans hrow'.1.1)
              rw [hone]
              simpa using hsame

theorem createOrderSteps_safe (env : CheckoutEnv) (dto : CreateOrderRequestDto)
    (userTenantId : Id) : (createOrderSteps env dto userTenantId).Safe sites w := by
  refine Prog.Safe.read (attempt_readsOnly
    (run_readsOnly (BaseTenantRepository.findFirst_readsOnly _))) fun s₁ found _ _ hfound => ?_
  have hlookup := (attempt_eq_ok.mp hfound).2
  rcases sees_of_findFirst hlookup with ⟨S, hctx⟩
  rw [run_findBranch hctx] at hlookup
  cases found with
  | none => exact Prog.Safe.throw _
  | some branch =>
      have hid : branch.id = dto.branchId := by
        simp only [Prod.mk.injEq, Except.ok.injEq, and_true] at hlookup
        have hrow := List.find?_some hlookup
        simp only [Bool.and_eq_true, beq_iff_eq] at hrow
        exact hrow.1.1.symm
      refine Prog.Safe.read (attempt_readsOnly
        (run_readsOnly (BaseTenantRepository.findFirst_readsOnly _))) fun s₂ found₂ _ _ _ => ?_
      cases found₂ with
      | none => exact Prog.Safe.throw _
      | some restaurant =>
          refine Prog.Meets.bind ((validateTableSteps_meets hctx).mono fun r s₃ hat => ?_)
          cases r with
          | error e => trivial
          | ok u =>
              have hat₃ := hat u rfl
              rw [hid] at hat₃
              refine Prog.Safe.after (priceItemsSteps_readsOnly env userTenantId 0 _ _ _)
                fun s₄ priced hmoves => ?_
              refine Prog.Safe.step fun s₅ hmoves₅ hinv htime => ⟨?_, fun order _ => ?_⟩
              · exact checkout_keeps hctx hinv
                  ((hat₃.of_tablesFrom hmoves).of_tablesFrom hmoves₅) htime
              · refine statement_safe (fun s => ?_) fun _ _ => Prog.Safe.pure _
                rw [broadcastCheckout_db]
                exact ⟨⟨rfl, rfl⟩, rfl⟩

theorem createGuestOrderSteps_safe (env : GuestEnv) (dto : CreateOrderRequestDto)
    (guestTenantId : Id) : (createGuestOrderSteps env dto guestTenantId).Safe sites w := by
  refine Prog.Safe.throwIf fun _ => Prog.Safe.after (.orThrow _ _) fun _ qrCodeToken _ => ?_
  refine Prog.Safe.after (statement_lookup_readsOnly findByQrCodeToken_readsOnly)
    fun _ found _ => ?_
  refine Prog.Safe.after (.orThrow _ _) fun _ table _ => ?_
  refine Prog.Safe.throwIf fun _ => Prog.Safe.throwIf fun _ => ?_
  refine Prog.Safe.after (.atomic (attempt_readsOnly (.reads _))) fun _ tenant _ => ?_
  exact Prog.Safe.throwIf fun _ => createOrderSteps_safe _ _ _

/-- A read that passed a check sees a scope. -/
theorem readAndCheck_sees {env : StatusEnv} {id : Id} {check : OrderStatus → Except AppError Unit}
    {status : OrderStatus} {w' : World} (h : readAndCheck env id check w = (.ok status, w')) :
    ∃ S, env.context.Sees S := by
  rcases Fallible.bind_eq_ok.mp h with ⟨found, s, hfind, _⟩
  exact sees_of_findFirst (attempt_eq_ok.mp hfind).2

theorem readAndCheck_readsOnly (env : StatusEnv) (id : Id)
    (check : OrderStatus → Except AppError Unit) :
    Fallible.ReadsOnly (readAndCheck env id check) := by
  refine .bind (attempt_readsOnly (run_readsOnly (BaseTenantRepository.findFirst_readsOnly _)))
    fun found => ?_
  cases found with
  | none => exact .throw _
  | some order => exact .bind (.reads _) fun _ => .pure _

theorem rereadOrder_readsOnly (env : StatusEnv) (id : Id) :
    Fallible.ReadsOnly (rereadOrder env id) := by
  refine .bind (attempt_readsOnly (run_readsOnly (BaseTenantRepository.findFirst_readsOnly _)))
    fun found => ?_
  cases found with
  | none => exact .throw _
  | some order => exact .pure _

/-- The re-read and the write of a status, and then a program that is safe. -/
theorem changeStatusSteps_safe {env : StatusEnv} {S : Option Id} (hctx : env.context.Sees S)
    {id : Id} {status : OrderStatus} {α : Type} {f : Order → Steps α}
    (hf : ∀ order t, (f order).Safe sites t) :
    (changeStatusSteps env id status >>= f).Safe sites w := by
  refine Prog.Meets.bind (Prog.Meets.bind (Prog.Meets.read (rereadOrder_readsOnly env id)
    fun s _ _ => ?_))
  cases (rereadOrder env id s).1 with
  | error e => trivial
  | ok entityId =>
      refine Prog.Meets.atomic fun s' _ hinv htime => ⟨writeStatus_keeps hctx hinv htime, ?_⟩
      cases (writeStatus env entityId status s').1 with
      | error e => trivial
      | ok order => exact hf order _

/-- A statement on the invoices leaves orders, branches and tables. -/
theorem run_invoices_sites {α : Type} {fails : Bool} (x : Fallible (Store Invoice) ClientError α)
    (s : World) :
    SameSites s.db (attempt fails (invoices.run x) s).2.db ∧
      (attempt fails (invoices.run x) s).2.db.orders = s.db.orders := by
  cases fails with
  | true => exact ⟨⟨rfl, rfl⟩, rfl⟩
  | false =>
      rw [attempt_false]
      unfold TableOf.run
      split
      · exact ⟨⟨rfl, rfl⟩, rfl⟩
      · split <;> exact ⟨⟨rfl, rfl⟩, rfl⟩

theorem generateInvoiceSteps_safe {env : StatusEnv} {S : Option Id} (hctx : env.context.Sees S)
    (order : Order) {α : Type} {f : Invoice → Steps α}
    (hf : ∀ invoice t, (f invoice).Safe sites t) :
    (generateInvoiceSteps env order >>= f).Safe sites w := by
  have hsame : ∀ s : World, SameSites s.db s.db ∧ s.db.orders = s.db.orders :=
    fun s => ⟨⟨rfl, rfl⟩, rfl⟩
  unfold generateInvoiceSteps
  simp only [Prog.bind_assoc]
  refine statement_safe (fun s => ?_) fun parties t => statement_safe (fun s => ?_)
    fun pdfUrl t => statement_safe (run_invoices_sites _) fun created t => ?_
  · rcases resolveParties_returns hctx order s with ⟨parties, hparties⟩
    rw [hparties]
    exact hsame s
  · rcases renderAndStoreInvoicePdf_returns env order parties s with ⟨pdfUrl, hurl⟩
    rw [hurl]
    exact hsame s
  · cases created with
    | none => exact Prog.Safe.throw _
    | some invoice => exact hf invoice t

/-- The broadcast of a status, and the answer. -/
theorem emitStatus_safe (env : StatusEnv) (event : String) (order : Order) :
    (statement (emitStatus env event order) >>= fun _ => (pure order : Steps Order)).Safe
      sites w := by
  refine statement_safe (fun s => ?_) fun _ _ => Prog.Safe.pure _
  rcases emitStatus_returns env event order s with ⟨s', hemit, hdb⟩
  rw [hemit, hdb]
  exact ⟨⟨rfl, rfl⟩, rfl⟩

theorem updateOrderStatusSteps_safe (env : StatusEnv) (id : Id) (status : OrderStatus) :
    (updateOrderStatusSteps env id status).Safe sites w := by
  refine Prog.Safe.read (readAndCheck_readsOnly env id _) fun s current _ _ hread => ?_
  rcases readAndCheck_sees hread with ⟨S, hctx⟩
  refine changeStatusSteps_safe hctx fun order t => ?_
  simp only
  split
  · exact generateInvoiceSteps_safe hctx order fun _ _ => emitStatus_safe env _ order
  · exact emitStatus_safe env _ order

theorem cancelOrderSteps_safe (env : StatusEnv) (id : Id) :
    (cancelOrderSteps env id).Safe sites w := by
  refine Prog.Safe.read (readAndCheck_readsOnly env id _) fun s current _ _ hread => ?_
  rcases readAndCheck_sees hread with ⟨S, hctx⟩
  exact changeStatusSteps_safe hctx fun order t => emitStatus_safe env _ order

end Calls

end OrderService

namespace BranchService

/-! ## The deletions, step by step -/

/-- The deletion that the transaction writes. -/
def branchWrite (env : LifecycleEnv) (id : Id) : Write :=
  (Write.branch id).unless (env.fails .parentWrite || env.fails .commit)

def deleteBranchSteps (env : LifecycleEnv) (id : Id) : Steps SoftDeleteResult := do
  let existing ← statement (findBranch env id)
  let activeOrders ← statement (countActiveOrders env (some id) none existing.tenantId)
  statement (assertNoActiveOrders "branch" activeOrders)
  Prog.atomic (branchWrite env id) (closeBranch env id existing.tenantId)
  return { id := env.spelling id, deleted := true }

/-- The tombstone of one table: the repository's re-read and the write. -/
def removeTableSteps (env : LifecycleEnv) (id : Id) : Steps (Option Table) := do
  let entity ← statement (attempt (env.fails .write)
    (tables.run (tableRepository.findByIdIncludingDeleted env.toEnv id)))
  match entity with
  | none => Prog.throw (.client (notFoundError id))
  | some entity =>
      if entity.deletedAt.isSome then return some entity
      else
        Prog.atomic (.table entity.id) (tables.run
          (prisma.table.update env.toEnv { id := some entity.id } (tableTombstone env.now)))

def deleteTableSteps (env : LifecycleEnv) (id : Id) : Steps SoftDeleteResult := do
  let existing ← statement (findTable env id)
  let activeOrders ← statement (countActiveOrders env none (some id) existing.tenantId)
  statement (assertNoActiveOrders "table" activeOrders)
  let _ ← removeTableSteps env id
  return { id := env.spelling id, deleted := true }

/-- A deletion of a branch that nothing interrupts is the method. -/
theorem deleteBranchSteps_alone (env : LifecycleEnv) (id : Id) :
    (deleteBranchSteps env id).alone = deleteBranch env id := by
  simp [deleteBranchSteps, deleteBranch]

theorem removeTableSteps_alone (env : LifecycleEnv) (id : Id) :
    (removeTableSteps env id).alone = removeTable env id := by
  unfold removeTableSteps removeTable BaseTenantRepository.softDelete
    BaseTenantRepository.setDeletedAt
  rw [run_bind (x := tableRepository.findByIdIncludingDeleted env.toEnv id)
    (BaseTenantRepository.findFirst_readsOnly _)]
  cases env.fails .write with
  | true => rfl
  | false =>
      simp only [Prog.alone_bind, statement_alone, attempt_false]
      congr 1
      funext entity
      cases entity with
      | none =>
          funext w
          exact (run_refused rfl).symm
      | some entity =>
          have hcolumn : (tableRepository.delegate.deletedAt.bind fun column => column.get entity) =
              entity.deletedAt := rfl
          simp only [hcolumn, Prog.alone_ite]
          split
          · funext w
            exact (run_of_read rfl).symm
          · rfl

/-- A deletion of a table that nothing interrupts is the method. -/
theorem deleteTableSteps_alone (env : LifecycleEnv) (id : Id) :
    (deleteTableSteps env id).alone = deleteTable env id := by
  simp [deleteTableSteps, deleteTable, removeTableSteps_alone]

section Deletions

variable {env : LifecycleEnv} {S : Option Id} {w w' : World}

/-- The last statements of a deletion that returned did not fail. -/
theorem closeBranch_passed {id tenantId : Id} {u : Unit}
    (h : closeBranch env id tenantId w = (.ok u, w')) :
    env.fails .parentWrite = false ∧ env.fails .commit = false := by
  rcases Fallible.bind_eq_ok.mp (Fallible.transaction_eq_ok.mp h) with ⟨_, w₁, _, hrest⟩
  rcases Fallible.bind_eq_ok.mp hrest with ⟨_, w₂, hupdate, hcommit⟩
  exact ⟨(attempt_eq_ok.mp hupdate).1, (attempt_eq_ok.mp hcommit).1⟩

/-- The transaction of a deletion, while no order of the branch is open. -/
theorem closeBranch_keeps {b : Branch} (hctx : env.context.Sees S) (hscope : visible S b = true)
    (h : Sound w.db) (htime : (branchWrite env b.id).InTime w.db) :
    Sound (closeBranch env b.id b.tenantId w).2.db ∧
      TablesFrom w.db (closeBranch env b.id b.tenantId w).2.db := by
  rcases hrun : closeBranch env b.id b.tenantId w with ⟨e | u, w'⟩
  · cases Fallible.transaction_error hrun
    exact ⟨h, TablesFrom.refl _⟩
  · rw [branchWrite, (closeBranch_passed hrun).1, (closeBranch_passed hrun).2] at htime
    cases closeBranch_ok hctx h.tableIds hscope hrun
    have htables := h.tablesMarked (q := isLiveChild b.id b.tenantId) env.now
      fun r hr hchild o ho hid => by
        simp only [isLiveChild, Bool.and_eq_true, beq_iff_eq] at hchild
        have hbranch : o.branchId = b.id := (h.tableAt o ho r hr hid.symm).symm.trans hchild.1.1
        exact htime o ho hbranch
    refine ⟨htables.branchesMarked (p := ownRow S b.id) env.now fun c _ hown o ho hid => ?_,
      tablesFrom_rewriteWhere (fun _ => rfl) fun _ => rfl⟩
    exact htime o ho (hid.trans (id_of_ownRow hown))

/-- The tombstone of a table, while no order at the table is open. -/
theorem tombstone_keeps {id : Id} (hctx : env.context.Sees S) (h : Sound w.db)
    (htime : (Write.table id).InTime w.db) :
    Sound (tables.run (prisma.table.update env.toEnv { id := some id }
        (tableTombstone env.now)) w).2.db ∧
      TablesFrom w.db (tables.run (prisma.table.update env.toEnv { id := some id }
        (tableTombstone env.now)) w).2.db := by
  rcases hrun : tables.run (prisma.table.update env.toEnv { id := some id }
    (tableTombstone env.now)) w with ⟨e | a, w'⟩
  · cases run_atomic (Delegate.update_atomic _ _) _ _ _ hrun
    exact ⟨h, TablesFrom.refl _⟩
  · cases (run_update_id tables_softDelete hctx rfl hrun).world
    refine ⟨h.tablesMarked (q := ownRow S id) env.now fun r _ hown o ho hid => ?_,
      tablesFrom_rewriteWhere (fun _ => rfl) fun _ => rfl⟩
    have hrow : r.id = id := id_of_ownRow hown
    exact htime o ho (hid.trans (congrArg some hrow))

theorem deleteBranchSteps_safe (id : Id) : (deleteBranchSteps env id).Safe sites w := by
  refine Prog.Safe.read fetch_readsOnly fun s b _ _ hfound => ?_
  rcases fetch_ok branches_softDelete hfound with ⟨_, _, S, hctx, _⟩
  rcases fetch_mem branches_softDelete hctx hfound with ⟨_, _, hid, hscope, _⟩
  refine Prog.Safe.after (.atomic (countActiveOrders_readsOnly _ _ _)) fun _ activeOrders _ => ?_
  refine Prog.Safe.after (.atomic (.throwIf _ _)) fun _ _ _ => ?_
  refine Prog.Safe.step fun s' _ hinv htime => ⟨?_, fun _ _ => Prog.Safe.pure _⟩
  have hname : id = b.id := hid.symm
  rw [hname] at htime ⊢
  exact closeBranch_keeps hctx hscope hinv htime

theorem deleteTableSteps_safe (id : Id) : (deleteTableSteps env id).Safe sites w := by
  refine Prog.Safe.read fetch_readsOnly fun s r _ _ hfound => ?_
  rcases fetch_ok tables_softDelete hfound with ⟨_, _, S, hctx, _⟩
  refine Prog.Safe.after (.atomic (countActiveOrders_readsOnly _ _ _)) fun _ activeOrders _ => ?_
  refine Prog.Safe.after (.atomic (.throwIf _ _)) fun _ _ _ => ?_
  unfold removeTableSteps
  rw [Prog.bind_assoc]
  refine Prog.Safe.after (.atomic (attempt_readsOnly (run_readsOnly
    (BaseTenantRepository.findFirst_readsOnly _)))) fun _ entity _ => ?_
  cases entity with
  | none => exact Prog.Safe.throw _
  | some entity =>
      simp only
      split
      · exact Prog.Safe.pure _
      · exact Prog.Safe.step fun s' _ hinv htime =>
          ⟨tombstone_keeps hctx hinv htime, fun _ _ => Prog.Safe.pure _⟩

end Deletions

/-! ## Any number of calls -/

/-- A call, with what it draws from its surroundings. -/
inductive SiteCall where
  | createOrder (env : OrderService.CheckoutEnv) (dto : OrderService.CreateOrderRequestDto)
      (userTenantId : Id)
  | createGuestOrder (env : OrderService.GuestEnv) (dto : OrderService.CreateOrderRequestDto)
      (guestTenantId : Id)
  | updateOrderStatus (env : OrderService.StatusEnv) (id : Id) (status : OrderStatus)
  | cancelOrder (env : OrderService.StatusEnv) (id : Id)
  | deleteBranch (env : LifecycleEnv) (id : Id)
  | deleteTable (env : LifecycleEnv) (id : Id)

/-- The steps of a call. -/
def SiteCall.steps : SiteCall → Steps Unit
  | createOrder env dto userTenantId => do
      let _ ← OrderService.createOrderSteps env dto userTenantId
  | createGuestOrder env dto guestTenantId => do
      let _ ← OrderService.createGuestOrderSteps env dto guestTenantId
  | updateOrderStatus env id status => do
      let _ ← OrderService.updateOrderStatusSteps env id status
  | cancelOrder env id => do
      let _ ← OrderService.cancelOrderSteps env id
  | deleteBranch env id => do
      let _ ← deleteBranchSteps env id
  | deleteTable env id => do
      let _ ← deleteTableSteps env id

/-- The method of a call. -/
def SiteCall.method : SiteCall → Service Unit
  | createOrder env dto userTenantId => do
      let _ ← OrderService.createOrder env dto userTenantId
  | createGuestOrder env dto guestTenantId => do
      let _ ← OrderService.createGuestOrder env dto guestTenantId
  | updateOrderStatus env id status => do
      let _ ← OrderService.updateOrderStatus env id status
  | cancelOrder env id => do
      let _ ← OrderService.cancelOrder env id
  | deleteBranch env id => do
      let _ ← BranchService.deleteBranch env id
  | deleteTable env id => do
      let _ ← BranchService.deleteTable env id

/-- A call that nothing interrupts is its method. -/
theorem SiteCall.steps_alone (call : SiteCall) : call.steps.alone = call.method := by
  cases call <;>
    simp [steps, method, OrderService.createOrderSteps_alone,
      OrderService.createGuestOrderSteps_alone, OrderService.updateOrderStatusSteps_alone,
      OrderService.cancelOrderSteps_alone, deleteBranchSteps_alone, deleteTableSteps_alone]

/-- The writes of a call that are made in time strand no order. -/
theorem SiteCall.steps_safe (call : SiteCall) (w : World) : call.steps.Safe sites w := by
  cases call with
  | createOrder env dto userTenantId =>
      exact (OrderService.createOrderSteps_safe env dto userTenantId).discard
  | createGuestOrder env dto guestTenantId =>
      exact (OrderService.createGuestOrderSteps_safe env dto guestTenantId).discard
  | updateOrderStatus env id status =>
      exact (OrderService.updateOrderStatusSteps_safe env id status).discard
  | cancelOrder env id => exact (OrderService.cancelOrderSteps_safe env id).discard
  | deleteBranch env id => exact (deleteBranchSteps_safe id).discard
  | deleteTable env id => exact (deleteTableSteps_safe id).discard

section Interleavings

variable {ι : Type} [DecidableEq ι]

/-- The calls from a state on, before their first steps. -/
def started (calls : ι → SiteCall) (w : World) : Config ι World (Steps Unit) where
  shared := w
  phase i := (calls i).steps

/-- The system of the calls. -/
abbrev siteCalls (ι : Type) : CallSystem ι Unit World (Steps Unit) :=
  Prog.threads ι Write World AppError Unit

/-- In every interleaving of calls whose writes are all in time, no open order has a deleted
branch or table. -/
theorem none_stranded (calls : ι → SiteCall) {w : World} (hsound : Sound w.db)
    {schedule : List (ι × Unit)}
    (hall : (siteCalls ι).EachStep (Prog.Admitted sites) (started calls w) schedule) :
    NoneStranded ((siteCalls ι).run (started calls w) schedule).shared.db :=
  (Prog.threads_inv (D := sites) hsound (fun i => (calls i).steps_safe w) hall).live

end Interleavings

/-! ## A checkout beside deletions -/

def siteEnv : LifecycleEnv where
  context := { tenantId := some "tenant-a" }
  uuid _ := ""
  now := 1

/-- A checkout at the branch, and the other call. -/
def checkoutBeside (other : SiteCall) : Bool → SiteCall
  | true => .createOrder OrderService.guestEnv OrderService.soupRequest "tenant-a"
  | false => other

/-- The checkout looks up its branch, the other call makes its steps, and the checkout goes on. -/
def besideSchedule : List (Bool × Unit) :=
  (true, ()) :: List.replicate 5 (false, ()) ++ List.replicate 8 (true, ())

theorem soupTables_sound : Sound (OrderService.soupTables true true).db where
  tableIds := by simp [OrderService.soupTables]
  tableAt := by simp [OrderService.soupTables, OrderService.soupMenu]
  live := by simp [NoneStranded, OrderService.soupTables, OrderService.soupMenu]

/-- A table is deleted while a checkout that names none goes on. -/
theorem checkout_beside_deleteTable :
    NoneStranded ((siteCalls Bool).run
      (started (checkoutBeside (.deleteTable siteEnv "table-1"))
        (OrderService.soupTables true true)) besideSchedule).shared.db :=
  none_stranded _ soupTables_sound (by decide +kernel)

/-- A branch is deleted between the lookup and the transaction of a checkout, and its order is
stranded. -/
theorem checkout_overtaken :
    ¬ ∀ (calls : Bool → SiteCall) (w : World) (schedule : List (Bool × Unit)), Sound w.db →
      NoneStranded ((siteCalls Bool).run (started calls w) schedule).shared.db := by
  have hstranded : ¬ NoneStranded ((siteCalls Bool).run
      (started (checkoutBeside (.deleteBranch siteEnv "branch-1"))
        (OrderService.soupTables true true)) besideSchedule).shared.db := by decide +kernel
  intro hall
  exact hstranded (hall _ _ _ soupTables_sound)

end BranchService
end Eleva
