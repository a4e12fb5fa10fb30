import Eleva.Branch.BranchService
import Eleva.Foundation.Machine
import Eleva.Foundation.Text

/-!
# Branch - The floor plan over whole runs

What the operations on branches and tables leave of the rows, and what stays true of the floor
plan of a tenant through any sequence of them.

Main results:

- Definition {lit}`FloorStep`: what an operation can do to the branches and tables.
- Theorem {lit}`FloorPlan.step`: each such step keeps the floor plan of a tenant.
- Theorem {lit}`lifecycle_invariant`: the floor plan after any sequence of requests.
-/

namespace Eleva
namespace BranchService

open Foundation Database TableOf

/-! ## What an operation can do -/

/-- The token of the table is the signature of its tenant, branch and number. -/
def SignedFor (signing : Signing) (tenantId : Id) (r : Table) : Prop :=
  ∃ pepper, resolveSystemPepper signing = .ok pepper ∧
    r.qrCodeToken = signing.createHmac pepper (signaturePayload tenantId r.branchId r.number)

/-- A rewriting of a table row that keeps what the token signs. -/
structure KeepsTable (f : Table → Table) : Prop where
  id : ∀ r, (f r).id = r.id
  tenantId : ∀ r, (f r).tenantId = r.tenantId
  branchId : ∀ r, (f r).branchId = r.branchId
  number : ∀ r, (f r).number = r.number
  qrCodeToken : ∀ r, (f r).qrCodeToken = r.qrCodeToken

/-- A rewriting of a branch row that keeps whose it is. -/
structure KeepsBranch (f : Branch → Branch) : Prop where
  id : ∀ b, (f b).id = b.id
  tenantId : ∀ b, (f b).tenantId = b.tenantId

/-- What an operation can do to the branches and tables. -/
inductive FloorStep (signing : Signing) (w : World) : World → Prop where
  | same : FloorStep signing w w
  | branchCreated (b : Branch) (live : b.deletedAt = none)
      (accepted : ({ rows := w.db.branches, uniqueKeys := branches.uniqueKeys } :
        Store Branch).accepts (w.db.branches ++ [b]) = true) :
      FloorStep signing w { w with db := branches.set (w.db.branches ++ [b]) w.db }
  | branchRewritten {p : Branch → Bool} {f : Branch → Branch} {w' : World}
      (rewrites : branches.Rewrites p f w w') (keeps : KeepsBranch f)
      (live : ∀ b, b.deletedAt = none → (f b).deletedAt = none) : FloorStep signing w w'
  | branchClosed {S : Option Id} {b : Branch} {now : Timestamp}
      (found : w.db.branches.find? (liveRow branchDeletedAt S b.id) = some b) :
      FloorStep signing w { w with db := withClosed S b now w.db }
  | tableCreated (r : Table) {b : Branch} (parent : b ∈ w.db.branches) (id : b.id = r.branchId)
      (tenantId : b.tenantId = r.tenantId ∨ r.tenantId = "") (live : b.deletedAt = none)
      (signed : SignedFor signing b.tenantId r)
      (accepted : ({ rows := w.db.tables, uniqueKeys := tables.uniqueKeys } :
        Store Table).accepts (w.db.tables ++ [r]) = true) :
      FloorStep signing w { w with db := tables.set (w.db.tables ++ [r]) w.db }
  | tableRewritten {p : Table → Bool} {f : Table → Table} {w' : World}
      (rewrites : tables.Rewrites p f w w') (keeps : KeepsTable f)
      (dead : ∀ r, (f r).deletedAt = none → r.deletedAt = none) : FloorStep signing w w'
  | tableRestored {S : Option Id} {r : Table} {b : Branch} {f : Table → Table} {w' : World}
      (found : w.db.tables.find? (ownRow S r.id) = some r) (parent : b ∈ w.db.branches)
      (id : b.id = r.branchId) (live : b.deletedAt = none)
      (rewrites : tables.Rewrites (ownRow S r.id) f w w') (keeps : KeepsTable f) :
      FloorStep signing w w'

/-! ## What the operations do -/

section Operations

variable {signing : Signing} {env : LifecycleEnv} {id : Id} {w w' : World}

theorem createBranch_step {dto : CreateBranchRequestDto} {a : Option Branch}
    (h : createBranch env dto w = (.ok a, w')) : FloorStep signing w w' := by
  rcases createBranch_ok h with ⟨S, latitude, longitude, _, rfl, haccepted⟩
  refine .branchCreated _ ?_ haccepted
  cases S <;> rfl

/-- The branch of a new table is signed as the request spells it. -/
theorem createTable_step {dto : CreateTableRequestDto} {a : Option Table}
    (hspelled : env.spelling dto.branchId = dto.branchId)
    (h : createTable signing env dto w = (.ok a, w')) : FloorStep signing w w' := by
  rcases Fallible.bind_eq_ok.mp h with ⟨b, w₁, hbranch, hrest⟩
  rcases fetch_ok branches_softDelete hbranch with ⟨hw₁, _, S, hctx, hfound⟩
  rcases Fallible.bind_eq_ok.mp hrest with ⟨pepper, w₂, hread, hcreate⟩
  rcases Fallible.reads_eq_ok.mp hread with ⟨hpepper, hw₂⟩
  rw [hw₂, hw₁] at hcreate
  rw [hspelled] at hcreate
  rcases run_create_appends hctx (by decide) rfl rfl (attempt_eq_ok.mp hcreate).2 with
    ⟨rfl, haccepted, _⟩
  have hlive := List.find?_some hfound
  simp only [liveRow, ownRow, Bool.and_eq_true, beq_iff_eq] at hlive
  have hid : b.id = dto.branchId := hlive.1.1.symm
  refine .tableCreated _ (List.mem_of_find?_eq_some hfound) ?_ ?_
    (Option.isNone_iff_eq_none.mp hlive.2) ⟨pepper, hpepper, ?_⟩ haccepted
  · cases S <;> exact hid
  · cases S with
    | none => exact Or.inr rfl
    | some T =>
        have htenant : b.tenantId = T := by
          simpa [visible, owned, TenantRow.tenantId] using hlive.1.2
        exact Or.inl htenant
  · cases S <;> rfl

theorem updateBranch_step {dto : UpdateBranchRequestDto} {a : Option Branch}
    (h : updateBranch env id dto w = (.ok a, w')) : FloorStep signing w w' := by
  rcases updateBranch_ok h with rfl | ⟨S, latitude, longitude, _, hrewrites⟩
  · exact .same
  · exact .branchRewritten hrewrites ⟨fun _ => rfl, fun _ => rfl⟩ fun _ hlive => hlive

theorem updateTable_step {dto : UpdateTableRequestDto} {a : Option Table}
    (h : updateTable env id dto w = (.ok a, w')) : FloorStep signing w w' := by
  rcases Fallible.bind_eq_ok.mp h with ⟨r, w₁, htable, hrest⟩
  rcases fetch_ok tables_softDelete htable with ⟨hw₁, _, S, hctx, _⟩
  rw [hw₁] at hrest
  split at hrest
  · cases hrest
    exact .same
  · rcases Fallible.throwIf_bind_eq_ok.mp hrest with ⟨_, hupdate⟩
    exact .tableRewritten
      (run_update_live tables_softDelete hctx rfl (attempt_eq_ok.mp hupdate).2).2
      ⟨fun _ => rfl, fun _ => rfl, fun _ => rfl, fun _ => rfl, fun _ => rfl⟩ fun _ hlive => hlive

theorem restoreBranch_step {a : RestoreResult}
    (h : restoreBranch env id w = (.ok a, w')) : FloorStep signing w w' := by
  rcases restoreBranch_ok h with ⟨S, b, _, _, heffect⟩
  split at heffect
  · rw [heffect]
    exact .same
  · exact .branchRewritten heffect ⟨fun _ => rfl, fun _ => rfl⟩ fun _ _ => rfl

theorem removeTable_step {a : Option Table} {S : Option Id} (hctx : env.context.Sees S)
    (h : removeTable env id w = (.ok a, w')) : FloorStep signing w w' := by
  rcases run_setDeletedAt tables_softDelete hctx rfl (attempt_eq_ok.mp h).2 with ⟨r, _, heffect⟩
  split at heffect
  · rw [heffect]
    exact .same
  · exact .tableRewritten heffect
      ⟨fun _ => rfl, fun _ => rfl, fun _ => rfl, fun _ => rfl, fun _ => rfl⟩
      fun _ hlive => by cases hlive

theorem deleteTable_step {a : SoftDeleteResult}
    (h : deleteTable env id w = (.ok a, w')) : FloorStep signing w w' := by
  rcases Fallible.bind_eq_ok.mp h with ⟨r, w₁, htable, hrest⟩
  rcases fetch_ok tables_softDelete htable with ⟨hw₁, _, S, hctx, _⟩
  rcases Fallible.bind_eq_ok.mp hrest with ⟨activeOrders, w₂, hcount, hrest₂⟩
  have hw₂ : w₂ = w₁ := (countActiveOrders_readsOnly _ _ _).state_eq hcount
  rcases Fallible.throwIf_bind_eq_ok.mp hrest₂ with ⟨_, hrest₃⟩
  rcases Fallible.bind_eq_ok.mp hrest₃ with ⟨_, w₃, hremove, hreturn⟩
  cases hreturn
  rw [hw₂, hw₁] at hremove
  exact removeTable_step hctx hremove

theorem deleteBranch_step {a : SoftDeleteResult} (hids : (w.db.tables.map (·.id)).Nodup)
    (h : deleteBranch env id w = (.ok a, w')) : FloorStep signing w w' := by
  rcases deleteBranch_ok hids h with ⟨S, b, _, _, hfound, rfl⟩
  exact .branchClosed hfound

theorem restoreTable_step {a : RestoreResult}
    (h : restoreTable env id w = (.ok a, w')) : FloorStep signing w w' := by
  rcases Fallible.bind_eq_ok.mp h with ⟨r, w₁, hread, hrest⟩
  rcases fetchIncludingDeleted_ok tables_softDelete hread with ⟨hw₁, _, S, hctx, hfound⟩
  rcases Fallible.bind_eq_ok.mp hrest with ⟨b, w₂, hparent, hrest₂⟩
  rcases fetch_ok branches_softDelete hparent with ⟨hw₂, _, S', _, hopen⟩
  rcases Fallible.bind_eq_ok.mp hrest₂ with ⟨conflict, w₃, hconflict, hrest₃⟩
  rcases Fallible.throwIf_bind_eq_ok.mp hrest₃ with ⟨_, hrest₄⟩
  rcases Fallible.bind_eq_ok.mp hrest₄ with ⟨_, w₄, hrestore, hreturn⟩
  cases hreturn
  have hw₃ : w₃ = w₂ := (attempt_readsOnly (run_readsOnly findByQrCodeToken_readsOnly)).state_eq
    hconflict
  have hid : id = r.id := (id_of_ownRow (List.find?_some hfound)).symm
  rw [hw₁] at hopen
  rw [hw₃, hw₂, hw₁] at hrestore
  rw [hid] at hfound hrestore
  have hlive := liveRow_iff.mp (List.find?_some hopen)
  rcases run_setDeletedAt tables_softDelete hctx rfl (attempt_eq_ok.mp hrestore).2 with
    ⟨_, _, heffect⟩
  split at heffect
  · rw [heffect]
    exact .same
  · exact .tableRestored hfound (List.mem_of_find?_eq_some hopen) hlive.1 hlive.2.2 heffect
      ⟨fun _ => rfl, fun _ => rfl, fun _ => rfl, fun _ => rfl, fun _ => rfl⟩

end Operations

/-! ## The floor plan of a tenant -/

/-- The token of a live table. -/
def liveToken (r : Table) : Option String :=
  if r.deletedAt.isNone then some r.qrCodeToken else none

/-- The keys of the branches and tables are unique, as the database enforces it. -/
structure UniqueKeys (db : Db) : Prop where
  branchIds : (db.branches.map (·.id)).Nodup
  tableIds : (db.tables.map (·.id)).Nodup
  tokens : (db.tables.filterMap liveToken).Nodup

/-- The floor plan of a tenant: its tables lie under its branches, the live ones under live
branches, and each carries its signature. -/
structure FloorPlan (signing : Signing) (T : Id) (db : Db) : Prop where
  unique : UniqueKeys db
  parent : ∀ r ∈ db.tables, r.tenantId = T → ∃ b ∈ db.branches, b.id = r.branchId ∧ b.tenantId = T
  live : ∀ r ∈ db.tables, r.tenantId = T → r.deletedAt = none →
    ∀ b ∈ db.branches, b.id = r.branchId → b.deletedAt = none
  signed : ∀ r ∈ db.tables, r.tenantId = T → SignedFor signing T r

theorem branches_accepts {rows stored : List Branch} :
    ({ rows := stored, uniqueKeys := branches.uniqueKeys } : Store Branch).accepts rows = true ↔
      (rows.map (·.id)).Nodup := by
  rw [← List.filterMap_eq_map]
  simp [Store.accepts, branches]

theorem tables_accepts {rows stored : List Table} :
    ({ rows := stored, uniqueKeys := tables.uniqueKeys } : Store Table).accepts rows = true ↔
      (rows.map (·.id)).Nodup ∧ (rows.filterMap liveToken).Nodup := by
  rw [← List.filterMap_eq_map]
  have hkey : (fun r : Table => if r.deletedAt.isNone then some r.qrCodeToken else none) =
      liveToken := rfl
  simp [Store.accepts, tables, -Option.isNone_iff_eq_none, hkey]

section Steps

variable {signing : Signing} {T : Id} {w w' : World} {db : Db}

/-- The branch of an id is one row. -/
theorem UniqueKeys.branch_eq {db : Db} (h : UniqueKeys db) {b c : Branch} (hb : b ∈ db.branches)
    (hc : c ∈ db.branches) (hid : b.id = c.id) : b = c :=
  List.inj_on_of_nodup_map h.branchIds hb hc hid

theorem UniqueKeys.table_eq {db : Db} (h : UniqueKeys db) {r s : Table} (hr : r ∈ db.tables)
    (hs : s ∈ db.tables) (hid : r.id = s.id) : r = s :=
  List.inj_on_of_nodup_map h.tableIds hr hs hid

theorem UniqueKeys.branchesRewritten {p : Branch → Bool} {f : Branch → Branch}
    (h : UniqueKeys db) (hkeeps : KeepsBranch f) :
    UniqueKeys (branches.set (rewriteWhere p f db.branches) db) := by
  refine ⟨?_, h.tableIds, h.tokens⟩
  have hids : (rewriteWhere p f db.branches).map (·.id) = db.branches.map (·.id) :=
    map_rewriteWhere hkeeps.id _
  exact hids ▸ h.branchIds

theorem UniqueKeys.tablesRewritten {p : Table → Bool} {f : Table → Table} (h : UniqueKeys db)
    (hkeeps : KeepsTable f)
    (htokens : ((rewriteWhere p f db.tables).filterMap liveToken).Nodup) :
    UniqueKeys (tables.set (rewriteWhere p f db.tables) db) := by
  refine ⟨h.branchIds, ?_, htokens⟩
  have hids : (rewriteWhere p f db.tables).map (·.id) = db.tables.map (·.id) :=
    map_rewriteWhere hkeeps.id _
  exact hids ▸ h.tableIds

/-- The marked tables of a branch keep unique keys. -/
theorem UniqueKeys.tablesMarked {p : Table → Bool} (h : UniqueKeys db) (now : Timestamp) :
    UniqueKeys (tables.set (rewriteWhere p (tableTombstone now).apply db.tables) db) :=
  h.tablesRewritten ⟨fun _ => rfl, fun _ => rfl, fun _ => rfl, fun _ => rfl, fun _ => rfl⟩
    ((filterMap_rewriteWhere_sublist (fun _ => rfl) _).nodup h.tokens)

/-- A step keeps the keys unique. -/
theorem UniqueKeys.step (h : UniqueKeys w.db) (hstep : FloorStep signing w w') :
    UniqueKeys w'.db := by
  cases hstep with
  | same => exact h
  | branchCreated b hlive haccepted =>
      exact ⟨branches_accepts.mp haccepted, h.tableIds, h.tokens⟩
  | branchRewritten hrewrites hkeeps hlive =>
      rw [hrewrites.world]
      exact h.branchesRewritten hkeeps
  | branchClosed hfound => exact (h.tablesMarked _).branchesRewritten ⟨fun _ => rfl, fun _ => rfl⟩
  | tableCreated r hb hid htenant hlive hsigned haccepted =>
      have hunique := tables_accepts.mp haccepted
      exact ⟨h.branchIds, hunique.1, hunique.2⟩
  | tableRewritten hrewrites hkeeps hdead =>
      have haccepted := tables_accepts.mp hrewrites.accepted
      rw [hrewrites.world]
      exact h.tablesRewritten hkeeps haccepted.2
  | tableRestored hfound hb hid hlive hrewrites hkeeps =>
      have haccepted := tables_accepts.mp hrewrites.accepted
      rw [hrewrites.world]
      exact h.tablesRewritten hkeeps haccepted.2

/-- A signature is about the columns that a rewriting keeps. -/
theorem KeepsTable.signed {f : Table → Table} (h : KeepsTable f) {r : Table} :
    SignedFor signing T (f r) ↔ SignedFor signing T r := by
  simp only [SignedFor, h.qrCodeToken, h.branchId, h.number]

/-- A new branch. -/
theorem FloorPlan.branchCreated {b : Branch} (h : FloorPlan signing T db)
    (hlive : b.deletedAt = none) (hids : ((db.branches ++ [b]).map (·.id)).Nodup) :
    FloorPlan signing T (branches.set (db.branches ++ [b]) db) where
  unique := ⟨hids, h.unique.tableIds, h.unique.tokens⟩
  parent r hr htenant := by
    rcases h.parent r hr htenant with ⟨c, hc, hparent⟩
    exact ⟨c, List.mem_append_left _ hc, hparent⟩
  live r hr htenant hopen c hc hid := by
    rcases List.mem_append.mp hc with hold | hnew
    · exact h.live r hr htenant hopen c hold hid
    · rw [List.mem_singleton.mp hnew]
      exact hlive
  signed := h.signed

/-- Branches rewritten, with those of live tables live afterwards. -/
theorem FloorPlan.branchRewritten {p : Branch → Bool} {f : Branch → Branch}
    (h : FloorPlan signing T db) (hkeeps : KeepsBranch f)
    (hlive : ∀ r ∈ db.tables, r.tenantId = T → r.deletedAt = none →
      ∀ b ∈ db.branches, p b = true → b.id = r.branchId → (f b).deletedAt = none) :
    FloorPlan signing T (branches.set (rewriteWhere p f db.branches) db) where
  unique := h.unique.branchesRewritten hkeeps
  parent r hr htenant := by
    rcases h.parent r hr htenant with ⟨b, hb, hid, hown⟩
    refine ⟨_, mem_rewriteWhere.mpr ⟨b, hb, rfl⟩, ?_⟩
    split
    · exact ⟨(hkeeps.id b).trans hid, (hkeeps.tenantId b).trans hown⟩
    · exact ⟨hid, hown⟩
  live r hr htenant hopen c hc hid := by
    rcases mem_rewriteWhere.mp hc with ⟨b, hb, rfl⟩
    split at hid
    · rw [if_pos ‹_›]
      exact hlive r hr htenant hopen b hb ‹_› ((hkeeps.id b).symm.trans hid)
    · rw [if_neg ‹_›]
      exact h.live r hr htenant hopen b hb hid
  signed := h.signed

/-- A new table under a live branch of its tenant. -/
theorem FloorPlan.tableCreated {r : Table} {b : Branch} (h : FloorPlan signing T db)
    (hT : T ≠ "") (hb : b ∈ db.branches) (hid : b.id = r.branchId)
    (htenant : b.tenantId = r.tenantId ∨ r.tenantId = "") (hlive : b.deletedAt = none)
    (hsigned : SignedFor signing b.tenantId r)
    (hids : ((db.tables ++ [r]).map (·.id)).Nodup)
    (htokens : ((db.tables ++ [r]).filterMap liveToken).Nodup) :
    FloorPlan signing T (tables.set (db.tables ++ [r]) db) := by
  have hown : r.tenantId = T → b.tenantId = T := by
    intro hr
    rcases htenant with hsame | hempty
    · exact hsame.trans hr
    · exact absurd (hr.symm.trans hempty) hT
  refine ⟨⟨h.unique.branchIds, hids, htokens⟩, ?_, ?_, ?_⟩
  · intro s hs hts
    rcases List.mem_append.mp hs with hold | hnew
    · exact h.parent s hold hts
    · rw [List.mem_singleton.mp hnew] at hts ⊢
      exact ⟨b, hb, hid, hown hts⟩
  · intro s hs hts hopen c hc hcid
    rcases List.mem_append.mp hs with hold | hnew
    · exact h.live s hold hts hopen c hc hcid
    · rw [List.mem_singleton.mp hnew] at hcid
      rw [h.unique.branch_eq hc hb (hcid.trans hid.symm)]
      exact hlive
  · intro s hs hts
    rcases List.mem_append.mp hs with hold | hnew
    · exact h.signed s hold hts
    · rw [List.mem_singleton.mp hnew] at hts ⊢
      rw [← hown hts]
      exact hsigned

/-- Tables rewritten, with what is live afterwards under live branches. -/
theorem FloorPlan.tableRewritten {p : Table → Bool} {f : Table → Table}
    (h : FloorPlan signing T db) (hkeeps : KeepsTable f)
    (hlive : ∀ r ∈ db.tables, p r = true → r.tenantId = T → (f r).deletedAt = none →
      ∀ b ∈ db.branches, b.id = r.branchId → b.deletedAt = none)
    (htokens : ((rewriteWhere p f db.tables).filterMap liveToken).Nodup) :
    FloorPlan signing T (tables.set (rewriteWhere p f db.tables) db) where
  unique := h.unique.tablesRewritten hkeeps htokens
  parent r hr htenant := by
    rcases mem_rewriteWhere.mp hr with ⟨s, hs, rfl⟩
    split at htenant
    · rw [if_pos ‹_›, hkeeps.branchId]
      exact h.parent s hs ((hkeeps.tenantId s).symm.trans htenant)
    · rw [if_neg ‹_›]
      exact h.parent s hs htenant
  live r hr htenant hopen b hb hid := by
    rcases mem_rewriteWhere.mp hr with ⟨s, hs, rfl⟩
    split at htenant
    · rw [if_pos ‹_›] at hopen hid
      exact hlive s hs ‹_› ((hkeeps.tenantId s).symm.trans htenant) hopen b hb
        (hid.trans (hkeeps.branchId s))
    · rw [if_neg ‹_›] at hopen hid
      exact h.live s hs htenant hopen b hb hid
  signed r hr htenant := by
    rcases mem_rewriteWhere.mp hr with ⟨s, hs, rfl⟩
    split at htenant
    · rw [if_pos ‹_›]
      exact hkeeps.signed.mpr (h.signed s hs ((hkeeps.tenantId s).symm.trans htenant))
    · rw [if_neg ‹_›]
      exact h.signed s hs htenant

/-- A branch closed, with its live tables. -/
theorem FloorPlan.branchClosed {S : Option Id} {b : Branch} {now : Timestamp}
    (h : FloorPlan signing T db)
    (hfound : db.branches.find? (liveRow branchDeletedAt S b.id) = some b) :
    FloorPlan signing T (withClosed S b now db) := by
  have hb := List.mem_of_find?_eq_some hfound
  have hmarked : FloorPlan signing T (tables.set
      (rewriteWhere (isLiveChild b.id b.tenantId) (tableTombstone now).apply db.tables) db) :=
    h.tableRewritten
      ⟨fun _ => rfl, fun _ => rfl, fun _ => rfl, fun _ => rfl, fun _ => rfl⟩
      (fun _ _ _ _ hopen => by cases hopen)
      (h.unique.tablesMarked now).tokens
  refine hmarked.branchRewritten ⟨fun _ => rfl, fun _ => rfl⟩ ?_
  intro r hr htenant hopen c hc hselected hid
  exfalso
  have hcb : c.id = b.id := id_of_ownRow hselected
  rcases mem_rewriteWhere.mp hr with ⟨s, hs, rfl⟩
  split at hopen
  · cases hopen
  · rename_i hnot
    rw [if_neg hnot] at htenant hid
    rcases h.parent s hs htenant with ⟨d, hd, hdid, hdtenant⟩
    have hdb : d = b := h.unique.branch_eq hd hb (hdid.trans (hid.symm.trans hcb))
    refine hnot ?_
    simp [isLiveChild, ← hid, hcb, htenant, hopen, ← hdb, hdtenant]

/-- A step keeps the floor plan of a tenant. -/
theorem FloorPlan.step (h : FloorPlan signing T w.db) (hT : T ≠ "")
    (hstep : FloorStep signing w w') : FloorPlan signing T w'.db := by
  cases hstep with
  | same => exact h
  | branchCreated b hlive haccepted => exact h.branchCreated hlive (branches_accepts.mp haccepted)
  | branchRewritten hrewrites hkeeps hlive =>
      rw [hrewrites.world]
      exact h.branchRewritten hkeeps fun r hr htenant hopen b hb _ hid =>
        hlive b (h.live r hr htenant hopen b hb hid)
  | branchClosed hfound => exact h.branchClosed hfound
  | tableCreated r hb hid htenant hlive hsigned haccepted =>
      have hunique := tables_accepts.mp haccepted
      exact h.tableCreated hT hb hid htenant hlive hsigned hunique.1 hunique.2
  | tableRewritten hrewrites hkeeps hdead =>
      have haccepted := tables_accepts.mp hrewrites.accepted
      rw [hrewrites.world]
      exact h.tableRewritten hkeeps
        (fun r hr _ htenant hopen => h.live r hr htenant (hdead r hopen)) haccepted.2
  | tableRestored hfound hb hid hlive hrewrites hkeeps =>
      have haccepted := tables_accepts.mp hrewrites.accepted
      rw [hrewrites.world]
      refine h.tableRewritten hkeeps ?_ haccepted.2
      intro s hs hselected _ _ c hc hcid
      have hsr := h.unique.table_eq hs (List.mem_of_find?_eq_some hfound) (id_of_ownRow hselected)
      rw [hsr] at hcid
      rw [h.unique.branch_eq hc hb (hcid.trans hid.symm)]
      exact hlive

end Steps

/-! ## Requests -/

/-- A request to the service, each in a context of its own. -/
inductive BranchRequest where
  | createBranch (env : LifecycleEnv) (dto : CreateBranchRequestDto)
  | updateBranch (env : LifecycleEnv) (id : Id) (dto : UpdateBranchRequestDto)
  | deleteBranch (env : LifecycleEnv) (id : Id)
  | restoreBranch (env : LifecycleEnv) (id : Id)
  | createTable (env : LifecycleEnv) (dto : CreateTableRequestDto)
  | updateTable (env : LifecycleEnv) (id : Id) (dto : UpdateTableRequestDto)
  | deleteTable (env : LifecycleEnv) (id : Id)
  | restoreTable (env : LifecycleEnv) (id : Id)

/-- Run a request, without its answer. -/
def BranchRequest.run (signing : Signing) : BranchRequest → Service Unit
  | .createBranch env dto => BranchService.createBranch env dto >>= fun _ => pure ()
  | .updateBranch env id dto => BranchService.updateBranch env id dto >>= fun _ => pure ()
  | .deleteBranch env id => BranchService.deleteBranch env id >>= fun _ => pure ()
  | .restoreBranch env id => BranchService.restoreBranch env id >>= fun _ => pure ()
  | .createTable env dto => BranchService.createTable signing env dto >>= fun _ => pure ()
  | .updateTable env id dto => BranchService.updateTable env id dto >>= fun _ => pure ()
  | .deleteTable env id => BranchService.deleteTable env id >>= fun _ => pure ()
  | .restoreTable env id => BranchService.restoreTable env id >>= fun _ => pure ()

/-- The request names the branch of a new table in the spelling that the database returns. -/
def BranchRequest.SpellsBranch : BranchRequest → Prop
  | .createTable env dto => env.spelling dto.branchId = dto.branchId
  | _ => True

/-- The requests, one at a time. -/
def branchMachine (signing : Signing) : Machine BranchRequest World (Except AppError Unit) where
  step request w := request.run signing w

section Requests

variable {signing : Signing} {w w' : World}

/-- A request that returned was one step of the floor plan. -/
theorem BranchRequest.run_step {request : BranchRequest} {u : Unit}
    (hids : (w.db.tables.map (·.id)).Nodup) (hspelled : request.SpellsBranch)
    (h : request.run signing w = (.ok u, w')) :
    FloorStep signing w w' := by
  cases request with
  | createBranch env dto =>
      rcases Fallible.bind_eq_ok.mp h with ⟨a, _, hrun, hreturn⟩
      cases hreturn
      exact createBranch_step hrun
  | updateBranch env id dto =>
      rcases Fallible.bind_eq_ok.mp h with ⟨a, _, hrun, hreturn⟩
      cases hreturn
      exact updateBranch_step hrun
  | deleteBranch env id =>
      rcases Fallible.bind_eq_ok.mp h with ⟨a, _, hrun, hreturn⟩
      cases hreturn
      exact deleteBranch_step hids hrun
  | restoreBranch env id =>
      rcases Fallible.bind_eq_ok.mp h with ⟨a, _, hrun, hreturn⟩
      cases hreturn
      exact restoreBranch_step hrun
  | createTable env dto =>
      rcases Fallible.bind_eq_ok.mp h with ⟨a, _, hrun, hreturn⟩
      cases hreturn
      exact createTable_step hspelled hrun
  | updateTable env id dto =>
      rcases Fallible.bind_eq_ok.mp h with ⟨a, _, hrun, hreturn⟩
      cases hreturn
      exact updateTable_step hrun
  | deleteTable env id =>
      rcases Fallible.bind_eq_ok.mp h with ⟨a, _, hrun, hreturn⟩
      cases hreturn
      exact deleteTable_step hrun
  | restoreTable env id =>
      rcases Fallible.bind_eq_ok.mp h with ⟨a, _, hrun, hreturn⟩
      cases hreturn
      exact restoreTable_step hrun

/-- A request that throws leaves the database. -/
theorem BranchRequest.run_atomic (request : BranchRequest) :
    Fallible.Atomic (request.run signing) := by
  cases request with
  | createBranch env dto => exact (createBranch_atomic env dto).bind_pure
  | updateBranch env id dto => exact (updateBranch_atomic env id dto).bind_pure
  | deleteBranch env id => exact (deleteBranch_atomic env id).bind_pure
  | restoreBranch env id => exact (restoreBranch_atomic env id).bind_pure
  | createTable env dto => exact (createTable_atomic env dto).bind_pure
  | updateTable env id dto => exact (updateTable_atomic env id dto).bind_pure
  | deleteTable env id => exact (deleteTable_atomic env id).bind_pure
  | restoreTable env id => exact (restoreTable_atomic env id).bind_pure

end Requests

/-! ## Whole runs -/

section Runs

variable {signing : Signing} {T : Id} {w : World}

/-- The floor plan of a tenant stays through any sequence of requests that spell the branches of
new tables as they are stored. -/
theorem FloorPlan.run {requests : List BranchRequest} (h : FloorPlan signing T w.db) (hT : T ≠ "")
    (hspelled : ∀ request ∈ requests, request.SpellsBranch) :
    FloorPlan signing T ((branchMachine signing).exec requests w).db := by
  refine (branchMachine signing).run_invariant (I := fun w => FloorPlan signing T w.db)
    (fun request hrequest w h => ?_) h
  have hstep : (branchMachine signing).step request w = request.run signing w := rfl
  rw [hstep]
  rcases hrun : request.run signing w with ⟨_ | u, w'⟩
  · rw [request.run_atomic _ _ _ hrun]
    exact h
  · exact h.step hT (BranchRequest.run_step h.unique.tableIds (hspelled request hrequest) hrun)

/-- The floor plan of a tenant without tables. -/
theorem FloorPlan.empty (hunique : UniqueKeys w.db) (htables : ∀ r ∈ w.db.tables, r.tenantId ≠ T) :
    FloorPlan signing T w.db where
  unique := hunique
  parent r hr htenant := absurd htenant (htables r hr)
  live r hr htenant := absurd htenant (htables r hr)
  signed r hr htenant := absurd htenant (htables r hr)

/-- A token is that of one live table. -/
theorem UniqueKeys.token_eq {db : Db} (h : UniqueKeys db) {r s : Table} (hr : r ∈ db.tables)
    (hs : s ∈ db.tables) (hlive : r.deletedAt = none) (hslive : s.deletedAt = none)
    (htoken : r.qrCodeToken = s.qrCodeToken) : r = s := by
  have htoken' : liveToken s = some r.qrCodeToken := by simp [liveToken, hslive, htoken]
  exact eq_of_filterMap_nodup h.tokens hr hs (by simp [liveToken, hlive]) htoken'

/-- Through any sequence of requests that spell the branches of new tables as they are stored, from
a tenant without tables, such as one without branches: its live tables lie under live branches, a
token is that of one live table, each table carries its signature, two live tables differ in branch
or number, and a request that throws leaves the database. -/
theorem lifecycle_invariant (hT : T ≠ "") (hunique : UniqueKeys w.db)
    (htables : ∀ r ∈ w.db.tables, r.tenantId ≠ T) (requests : List BranchRequest)
    (hspelled : ∀ request ∈ requests, request.SpellsBranch) :
    let w' := (branchMachine signing).exec requests w
    (∀ r ∈ w'.db.tables, r.tenantId = T → r.deletedAt = none →
      ∀ b ∈ w'.db.branches, b.id = r.branchId → b.deletedAt = none) ∧
    (∀ r ∈ w'.db.tables, ∀ s ∈ w'.db.tables, r.deletedAt = none → s.deletedAt = none →
      r.qrCodeToken = s.qrCodeToken → r = s) ∧
    (∀ r ∈ w'.db.tables, r.tenantId = T → SignedFor signing T r) ∧
    (∀ r ∈ w'.db.tables, ∀ s ∈ w'.db.tables, r.tenantId = T → s.tenantId = T →
      r.deletedAt = none → s.deletedAt = none → r.branchId = s.branchId → r.number = s.number →
        r = s) ∧
    ∀ (request : BranchRequest) (e : AppError) (w'' : World),
      request.run signing w' = (.error e, w'') → w'' = w' := by
  have hplan : FloorPlan signing T ((branchMachine signing).exec requests w).db :=
    (FloorPlan.empty hunique htables).run hT hspelled
  refine ⟨hplan.live, fun r hr s hs => hplan.unique.token_eq hr hs, hplan.signed, ?_,
    fun request e w'' h => request.run_atomic _ _ _ h⟩
  intro r hr s hs hrT hsT hlive hslive hbranch hnumber
  refine hplan.unique.token_eq hr hs hlive hslive ?_
  rcases hplan.signed r hr hrT with ⟨pepper, hpepper, htoken⟩
  rcases hplan.signed s hs hsT with ⟨pepper', hpepper', htoken'⟩
  rw [hpepper] at hpepper'
  cases hpepper'
  rw [htoken, htoken', hbranch, hnumber]

end Runs

/-! ## A branch that closes and opens again -/

/-- A tenant with a restaurant and no branches. -/
def newTenant : World where
  db :=
    { tenants := [{ id := "t1", name := "Trattoria" }]
      restaurants := [{ (default : Restaurant) with id := "r1", tenantId := "t1" }] }

/-- A signature that shows what it signs. -/
def plainSigning : Signing where
  createHmac pepper payload := pepper ++ "|" ++ payload

/-- The context of the tenant, with an id for a new row. -/
def tenantEnv (id : Id) : LifecycleEnv where
  context := { tenantId := some "t1" }
  uuid _ := id
  now := 1700000000000

/-- A branch with a table that closes, opens again, and gets its table back. -/
def closingDay : List BranchRequest :=
  [.createBranch (tenantEnv "b1")
      { restaurantId := "r1", name := "Centro", address := "Via 1", phoneNumber := "1"
        operatingHours := "\x7b\x7d" },
    .createTable (tenantEnv "d1") { branchId := "b1", number := "12", seatingCapacity := 4 },
    .deleteBranch (tenantEnv "") "b1",
    .restoreTable (tenantEnv "") "d1",
    .restoreBranch (tenantEnv "") "b1",
    .restoreTable (tenantEnv "") "d1"]

/-- After that day the table is live, and so is its branch. -/
theorem closingDay_reopens :
    let w' := (branchMachine plainSigning).exec closingDay newTenant
    (∃ r ∈ w'.db.tables, r.tenantId = "t1" ∧ r.deletedAt = none) ∧
      ∀ r ∈ w'.db.tables, r.tenantId = "t1" → r.deletedAt = none →
        ∀ b ∈ w'.db.branches, b.id = r.branchId → b.deletedAt = none :=
  ⟨by decide +kernel, (lifecycle_invariant (by decide)
    ⟨by decide, by decide, by decide⟩ (by decide) closingDay
    (by simp [closingDay, BranchRequest.SpellsBranch, tenantEnv])).1⟩

/-- The same context, of a client that writes the digits of a uuid as capitals. -/
def capitalEnv (id : Id) : LifecycleEnv :=
  { tenantEnv id with spelling := asciiUpperCase }

/-- Two requests for table 12 of a branch, the first of them with the id of the branch in
capitals. -/
def twoSpellings : List BranchRequest :=
  [.createBranch (tenantEnv "b1")
      { restaurantId := "r1", name := "Centro", address := "Via 1", phoneNumber := "1"
        operatingHours := "\x7b\x7d" },
    .createTable (capitalEnv "d1") { branchId := "b1", number := "12", seatingCapacity := 4 },
    .createTable (tenantEnv "d2") { branchId := "b1", number := "12", seatingCapacity := 4 }]

/-- The branch has two live tables of that number, and the token of one is no signature of its
branch. -/
theorem twoSpellings_doubles :
    let w' := (branchMachine plainSigning).exec twoSpellings newTenant
    ∃ r ∈ w'.db.tables, ∃ s ∈ w'.db.tables, r.tenantId = "t1" ∧ s.tenantId = "t1" ∧
      r.deletedAt = none ∧ s.deletedAt = none ∧ r.branchId = s.branchId ∧ r.number = s.number ∧
        r ≠ s ∧ ¬ SignedFor plainSigning "t1" r := by
  have hsigned : ∀ r : Table, SignedFor plainSigning "t1" r ↔
      r.qrCodeToken = plainSigning.createHmac DEV_PEPPER_FALLBACK
        (signaturePayload "t1" r.branchId r.number) := by
    intro r
    have hpepper : resolveSystemPepper plainSigning = .ok DEV_PEPPER_FALLBACK := rfl
    simp [SignedFor, hpepper]
  simp only [hsigned]
  decide +kernel

end BranchService
end Eleva
