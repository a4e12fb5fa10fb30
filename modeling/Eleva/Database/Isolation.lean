import Eleva.Database.Footprint

/-!
# Database - Isolation of the extended client

A call in the context of a tenant, with any operation and any argument object.  Conditions on
related rows (relation filters, orderings by a relation, cursors) are conditions that look at the
other rows of the database: the client resolves them on the rows that it finds.

Main results:

- Definition {lit}`IsolatedAt`: what the extension promises of one call on two databases.
- Theorem {lit}`isolated_of_confined`: a call keeps the promise when its arguments are confined
  to the tenant, and the other rows of the two databases are apart from what it makes of the
  tenant's rows.
- Theorem {lit}`isolated_iff_confined`: it keeps the promise on all such databases exactly when
  its arguments are confined.
-/

namespace Eleva
namespace Database

variable {Row : Type} [TenantRow Row]

/-! ## The promise -/

/-- An argument object as the client reads it on the rows that it finds. -/
abbrev Arguments (Row : Type) [TenantRow Row] := List Row → Args Row

/-- A call stays inside the tenant or throws, and a database with the same rows of the tenant
answers it alike. -/
structure IsolatedAt {schema : Schema Row} (context : TenantContext) (T : Id) (m : Delegate Row)
    (uuid : ℕ → Id) (op : Operation) (ask : Arguments Row) (db db' : Tables schema) : Prop where
  within : ∀ out, call context m uuid op (ask db.rows) db = .ok out → out.Within T
  answers : own T db.rows = own T db'.rows →
    answer (call context m uuid op (ask db.rows) db) =
      answer (call context m uuid op (ask db'.rows) db')

/-- The conditions of a {lit}`where` object on the rows that are kept. -/
def Where.onRows (w : Where Row) (keep : Row → Bool) : Where Row :=
  { w with rest := fun r => keep r && w.rest r }

/-- An argument object with its conditions and its ordering on the rows that are kept. -/
def Args.onRows (args : Args Row) (keep : Row → Bool) : Args Row :=
  { args with
    whereArg := args.whereArg.onRows keep
    orderBy := args.orderBy.map fun le a b => keep a && keep b && le a b }

/-- The conditions of the call look at the tenant's rows: they say the same of the stored ones in
both databases. -/
def Arguments.LooksAtOwn (ask : Arguments Row) (T : Id) (rows rows' : List Row) : Prop :=
  ∃ keep : Row → Bool, (∀ r ∈ own T rows, keep r = true) ∧
    (ask rows).onRows keep = (ask rows').onRows keep

/-! ## Conditions on some of the rows -/

section OnRows

variable {schema : Schema Row} {T : Id} {m : Delegate Row} {uuid : ℕ → Id} {op : Operation}
  {args : Args Row} {keep : Row → Bool} {rows : List Row}

omit [TenantRow Row] in
/-- Sorting looks at the rows that it sorts. -/
theorem insertionSort_congr {le le' : Row → Row → Bool} {rows : List Row}
    (h : ∀ a ∈ rows, ∀ b ∈ rows, le a b = le' a b) :
    (rows.insertionSort fun a b => le a b = true) =
      rows.insertionSort fun a b => le' a b = true := by
  have hinsert : ∀ (r : Row) (sorted : List Row), (∀ b ∈ sorted, le r b = le' r b) →
      sorted.orderedInsert (fun a b => le a b = true) r =
        sorted.orderedInsert (fun a b => le' a b = true) r := by
    intro r sorted hr
    induction sorted with
    | nil => rfl
    | cons b sorted ih =>
        rw [List.forall_mem_cons] at hr
        simp only [List.orderedInsert, hr.1, ih hr.2]
  induction rows with
  | nil => rfl
  | cons r rows ih =>
      have htail := ih fun a ha b hb =>
        h a (List.mem_cons_of_mem r ha) b (List.mem_cons_of_mem r hb)
      rw [List.insertionSort_cons, List.insertionSort_cons, htail]
      apply hinsert
      intro b hb
      exact h r List.mem_cons_self b (List.mem_cons_of_mem r
        ((List.perm_insertionSort _ rows).mem_iff.mp hb))

/-- A window of kept rows depends on their order only. -/
theorem Args.arrange_onRows (h : ∀ r ∈ rows, keep r = true) :
    (args.onRows keep).arrange rows = args.arrange rows := by
  unfold Args.arrange Args.onRows
  cases args.orderBy with
  | none => rfl
  | some le =>
      have hsame : ∀ a ∈ rows, ∀ b ∈ rows, (keep a && keep b && le a b) = le a b := by
        intro a ha b hb
        simp [h a ha, h b hb]
      simp only [Option.map_some, insertionSort_congr hsame]

/-- On rows whose admitted ones are kept, a condition is itself on the kept rows. -/
theorem Where.admits_onRows {w : Where Row} {r : Row}
    (h : w.admits m r = true → keep r = true) :
    (w.onRows keep).admits m r = w.admits m r := by
  cases hkeep : keep r with
  | true => simp [Where.admits, Where.onRows, hkeep]
  | false =>
      have hadmits : w.admits m r = false := by
        cases ha : w.admits m r with
        | false => rfl
        | true => rw [h ha] at hkeep; cases hkeep
      rw [hadmits]
      simp [Where.admits, Where.onRows, hkeep]

/-- On rows whose admitted ones are kept, an operation does the same with its conditions on the kept
rows. -/
theorem root_onRows (h : ∀ r ∈ rows, args.whereArg.admits m r = true → keep r = true) :
    root m uuid op (args.onRows keep) rows = root m uuid op args rows := by
  have hadmits : ∀ r ∈ rows,
      (args.onRows keep).whereArg.admits m r = args.whereArg.admits m r :=
    fun r hr => Where.admits_onRows (h r hr)
  have hmatched : rows.filter ((args.onRows keep).whereArg.admits m) =
      rows.filter (args.whereArg.admits m) := List.filter_congr hadmits
  have hkept : ∀ r ∈ rows.filter (args.whereArg.admits m), keep r = true := by
    intro r hr
    exact h r (List.mem_filter.mp hr).1 (List.mem_filter.mp hr).2
  have hwindow : (args.onRows keep).arrange (rows.filter (args.whereArg.admits m)) =
      args.arrange (rows.filter (args.whereArg.admits m)) := Args.arrange_onRows hkept
  have hfirst : ({ args.onRows keep with take := some 1 } : Args Row).arrange
      (rows.filter (args.whereArg.admits m)) =
        ({ args with take := some 1 } : Args Row).arrange
          (rows.filter (args.whereArg.admits m)) :=
    @Args.arrange_onRows Row _ { args with take := some 1 } keep _ hkept
  have hwrite : ∀ f : Row → Row,
      (rows.map fun r => if (args.onRows keep).whereArg.admits m r then f r else r) =
        rows.map fun r => if args.whereArg.admits m r then f r else r :=
    fun f => List.map_congr_left fun r hr => by rw [hadmits r hr]
  have hremove : (rows.filter fun r => !(args.onRows keep).whereArg.admits m r) =
      rows.filter fun r => !args.whereArg.admits m r :=
    List.filter_congr fun r hr => by rw [hadmits r hr]
  unfold root updateRoot deleteRoot
  simp only [hmatched, hwindow, hfirst, hwrite, hremove]
  cases op <;> rfl

/-- A footprint of an operation is one of the operation on the kept rows. -/
theorem Footprint.Covers.onRows {fp : Footprint Row} (h : fp.Covers schema m uuid args op) :
    fp.Covers schema m uuid (args.onRows keep) op := by
  refine h.narrow rfl rfl fun r hr => ?_
  unfold Where.admits Args.onRows Where.onRows at hr
  unfold Where.admits
  simp only [Bool.and_eq_true] at hr ⊢
  exact ⟨hr.1, hr.2.2⟩

theorem execute_onRows {db : Tables schema}
    (h : ∀ r ∈ db.rows, args.whereArg.admits m r = true → keep r = true) :
    execute m uuid op (args.onRows keep) db = execute m uuid op args db := by
  have hknown : (args.onRows keep).unknownColumn m = args.unknownColumn m := rfl
  unfold execute
  rw [hknown, root_onRows h]
  rfl

end OnRows

/-! ## Calls with confined arguments -/

section Holds

variable {context : TenantContext} {T : Id} {m : Delegate Row} {op : Operation}

/-- The call is refused, or it keeps to a footprint on the tenant's rows that the other rows of the
two databases are apart from. -/
def KeepsApart {schema : Schema Row} (T : Id) (m : Delegate Row) (uuid : ℕ → Id) (op : Operation)
    (args : Args Row) (db db' : Tables schema) : Prop :=
  args.blocked T op ∨ args.unknownColumn m = true ∨
    ∃ fp : Footprint Row, fp.Covers schema m uuid (args.forTenant T op) op ∧ Apart T fp db db'

/-- What keeps a call on two databases inside the tenant: its arguments are confined, its
conditions look at the tenant's rows, and the other rows are apart from what it makes of them. -/
structure ConfinedAt {schema : Schema Row} (T : Id) (m : Delegate Row) (uuid : ℕ → Id)
    (op : Operation) (ask : Arguments Row) (db db' : Tables schema) : Prop where
  confined : Confined T m op (ask db.rows)
  confined' : Confined T m op (ask db'.rows)
  looks : Arguments.LooksAtOwn ask T db.rows db'.rows
  apart : KeepsApart T m uuid op (ask db.rows) db db'

/-- A call that only reads is apart from any other rows. -/
theorem keepsApart_of_read {schema : Schema Row} (hop : op ∈ readOperations) (T : Id)
    (m : Delegate Row) (uuid : ℕ → Id) (args : Args Row) (db db' : Tables schema) :
    KeepsApart T m uuid op args db db' := by
  refine Or.inr (Or.inr ⟨_, ?_, Apart.of_stored T db db'⟩)
  simp only [readOperations, List.mem_cons, List.not_mem_nil, or_false] at hop
  rcases hop with rfl | rfl | rfl | rfl | rfl | rfl | rfl | rfl <;> trivial

theorem Args.forTenant_onRows (args : Args Row) (T : Id) (op : Operation) (keep : Row → Bool) :
    (args.forTenant T op).onRows keep = (args.onRows keep).forTenant T op := by
  unfold Args.forTenant
  split
  · rfl
  · split <;> rfl

/-- The operation that the extension hands on does the same with its conditions on rows that
include the tenant's. -/
theorem root_forTenant_onRows {args : Args Row} {keep : Row → Bool} {rows : List Row}
    (hblocked : ¬args.blocked T op) (hconf : ConfinedArgs T m args op)
    (hkeep : ∀ r ∈ own T rows, keep r = true) (uuid : ℕ → Id) :
    root m uuid op ((args.forTenant T op).onRows keep) rows =
      root m uuid op (args.forTenant T op) rows := by
  have hown : ∀ r ∈ rows, owned T r = true → keep r = true :=
    fun r hr ho => hkeep r (List.mem_filter.mpr ⟨hr, ho⟩)
  have howned : ∀ r ∈ rows, args.admitsOwn m T r = true → keep r = true :=
    fun r hr hadmits => hown r hr (Args.owned_of_admitsOwn hadmits)
  cases op with
  | findUnique | findUniqueOrThrow | findFirstOrThrow =>
      exact root_onRows fun r hr hadmits => hown r hr (hconf r hadmits).1
  | findFirst | findMany | count | update | delete => exact root_onRows howned
  | create | createManyAndReturn => rfl
  | createMany | updateMany | upsert | deleteMany | aggregate | groupBy =>
      exact absurd (Or.inl (by simp [unsupportedOperations])) hblocked

theorem Contained.onRows {args : Args Row} {keep : Row → Bool} {rows : List Row}
    {x y : Except ClientError (Root Row)} (h : Contained T args rows x y) :
    Contained T (args.onRows keep) rows x y := by
  cases h with
  | refused e => exact .refused e
  | done within mirrors =>
      exact .done ⟨within.seen, within.before, within.after, within.reads, within.nested⟩ mirrors

/-- Confined arguments with their conditions on rows that include the tenant's keep the operation
inside the tenant. -/
theorem contained_onRows {args : Args Row} {keep : Row → Bool} {rows : List Row}
    (hblocked : ¬args.blocked T op) (hconf : ConfinedArgs T m args op)
    (hkeep : ∀ r ∈ own T rows, keep r = true) (uuid : ℕ → Id) :
    Contained T ((args.forTenant T op).onRows keep) rows
      (root m uuid op ((args.forTenant T op).onRows keep) rows)
      (root m uuid op ((args.forTenant T op).onRows keep) (own T rows)) := by
  have hkeep' : ∀ r ∈ own T (own T rows), keep r = true :=
    fun r hr => hkeep r (List.mem_filter.mp hr).1
  rw [root_forTenant_onRows hblocked hconf hkeep, root_forTenant_onRows hblocked hconf hkeep']
  exact (contained_of_confined hblocked hconf uuid rows).onRows

/-- A call with confined arguments is the operation with its conditions on rows that include the
tenant's. -/
theorem call_onRows {schema : Schema Row} {args : Args Row} {keep : Row → Bool}
    (hctx : context.Holds T) (hm : m.model ∉ unscopedModels) (hblocked : ¬args.blocked T op)
    (hconf : ConfinedArgs T m args op) (uuid : ℕ → Id) {db : Tables schema}
    (hkeep : ∀ r ∈ own T db.rows, keep r = true) :
    call context m uuid op args db =
      execute m uuid op ((args.onRows keep).forTenant T op) db := by
  have hknown : ((args.forTenant T op).onRows keep).unknownColumn m =
      (args.forTenant T op).unknownColumn m := rfl
  rw [call_of_not_blocked hctx hm hblocked, ← Args.forTenant_onRows]
  change execute m uuid op (args.forTenant T op) db = _
  unfold execute
  rw [hknown, root_forTenant_onRows hblocked hconf hkeep]
  rfl

/-- The client refuses a column that the model lacks. -/
theorem call_of_unknownColumn {schema : Schema Row} {args : Args Row} (hctx : context.Holds T)
    (hm : m.model ∉ unscopedModels) (hblocked : ¬args.blocked T op)
    (hunknown : args.unknownColumn m = true) (uuid : ℕ → Id) (db : Tables schema) :
    call context m uuid op args db = .error (.unknownArgument "deletedAt") := by
  rw [call_of_not_blocked hctx hm hblocked]
  have hsent : (args.forTenant T op).unknownColumn m = true := by simpa using hunknown
  exact if_pos hsent

/-- A call that throws the same on both databases keeps the promise. -/
theorem isolatedAt_of_error {schema : Schema Row} {ask : Arguments Row} {uuid : ℕ → Id}
    {db db' : Tables schema} {e : ClientError}
    (h : call context m uuid op (ask db.rows) db = .error e)
    (h' : call context m uuid op (ask db'.rows) db' = .error e) :
    IsolatedAt context T m uuid op ask db db' := by
  constructor
  · intro out hout
    rw [h] at hout
    cases hout
  · intro _
    rw [h, h']

/-- A call with confined arguments keeps the promise. -/
theorem isolated_of_confined {schema : Schema Row} {ask : Arguments Row} {uuid : ℕ → Id}
    {db db' : Tables schema} (hctx : context.Holds T) (hm : m.model ∉ unscopedModels)
    (h : ConfinedAt T m uuid op ask db db') : IsolatedAt context T m uuid op ask db db' := by
  rcases h.looks with ⟨keep, hkeep, hlooks⟩
  have hdata : (ask db.rows).data = (ask db'.rows).data := by
    have h := congrArg Args.data hlooks
    exact h
  have hknown : (ask db.rows).unknownColumn m = (ask db'.rows).unknownColumn m := by
    have h := congrArg (fun args : Args Row => args.unknownColumn m) hlooks
    exact h
  by_cases hblocked : (ask db.rows).blocked T op
  · have hblocked' : (ask db'.rows).blocked T op := by
      unfold Args.blocked at hblocked ⊢
      rwa [← hdata]
    exact isolatedAt_of_error (call_of_blocked hctx hm hblocked uuid db)
      (call_of_blocked hctx hm hblocked' uuid db')
  have hblocked' : ¬(ask db'.rows).blocked T op := by
    unfold Args.blocked at hblocked ⊢
    rwa [← hdata]
  cases hu : (ask db.rows).unknownColumn m with
  | true =>
      exact isolatedAt_of_error (call_of_unknownColumn hctx hm hblocked hu uuid db)
        (call_of_unknownColumn hctx hm hblocked' (hknown ▸ hu) uuid db')
  | false =>
      have hconf := h.confined.resolve_left (by simp [hu])
      have hconf' := h.confined'.resolve_left (by simp [← hknown, hu])
      have hop : op ∉ unsupportedOperations := fun hop => hblocked (Or.inl hop)
      rcases (h.apart.resolve_left hblocked).resolve_left (by simp [hu]) with
        ⟨fp, hcovers, hapart⟩
      constructor
      · intro out hout
        have hc := contained_of_confined hblocked hconf uuid db.rows
        rw [call_of_not_blocked hctx hm hblocked] at hout
        change execute m uuid op ((ask db.rows).forTenant T op) db = _ at hout
        rcases execute_contained hop hc hc rfl hapart.stored hcovers hapart.closed
          ⟨hapart.clear, hapart.clear, fun _ _ _ _ => Iff.rfl⟩ with
          ⟨e, he, _⟩ | ⟨out₁, _, hrun, _, hwithin, _⟩
        · rw [he] at hout
          cases hout
        · rw [hrun] at hout
          cases hout
          exact hwithin
      · intro hown
        have hkeep' : ∀ r ∈ own T db'.rows, keep r = true := hown ▸ hkeep
        have hc := contained_onRows hblocked hconf hkeep uuid
        have hc' := contained_onRows hblocked' hconf' hkeep' uuid
        have hcovers : fp.Covers schema m uuid (((ask db.rows).forTenant T op).onRows keep) op :=
          hcovers.onRows
        rw [call_onRows hctx hm hblocked hconf uuid hkeep,
          call_onRows hctx hm hblocked' hconf' uuid hkeep']
        rw [Args.forTenant_onRows] at hc hc' hcovers
        rw [← hlooks] at hc' ⊢
        rcases execute_contained hop hc hc' hown hapart.stored hcovers hapart.closed
          (hapart.outside hown) with
          ⟨e, he, he'⟩ | ⟨out, out', hrun, hrun', _, halike⟩
        · rw [he, he']
        · rw [hrun, hrun']
          exact congrArg Except.ok halike.result

/-! ## What isolation forces on the arguments -/

omit [TenantRow Row] in
theorem Nested.mem_applyTo_of_untouched {n : Nested Row} {parent c : Row} {rows : List Row}
    (hc : c ∈ rows) (htouch : n.touches parent c = false) : c ∈ n.applyTo parent rows := by
  unfold Nested.applyTo
  refine List.mem_append_left _ (List.mem_filterMap.mpr ⟨c, hc, ?_⟩)
  simp [htouch]

/-- A call keeps the promise on all databases whose other rows are apart from what it makes of the
tenant's rows. -/
def Isolated (context : TenantContext) (T : Id) (m : Delegate Row) (op : Operation)
    (args : Args Row) : Prop :=
  ∀ (schema : Schema Row) (uuid : ℕ → Id) (db db' : Tables schema),
    KeepsApart T m uuid op args db db' →
      IsolatedAt context T m uuid op (fun _ => args) db db'

/-- Without constraints, every call keeps to the footprint of all rows. -/
theorem Footprint.covers_of_no_constraints (m : Delegate Row) (uuid : ℕ → Id) (args : Args Row)
    (op : Operation) :
    (⟨fun _ => True, fun _ _ => False⟩ : Footprint Row).Covers {} m uuid args op := by
  have hallows : ∀ c : Change Row,
      (⟨fun _ => True, fun _ _ => False⟩ : Footprint Row).Allows {} c :=
    fun c => ⟨fun _ _ => trivial, fun fk hfk => by cases hfk⟩
  have hnested : ∀ (n : Nested Row) parent,
      (⟨fun _ => True, fun _ _ => False⟩ : Footprint Row).CoversNested {} n parent :=
    fun n parent => ⟨fun _ _ => trivial, fun _ _ _ => hallows _⟩
  cases op with
  | create => exact ⟨trivial, hnested _ _⟩
  | createManyAndReturn => exact fun _ _ => trivial
  | update => exact fun _ _ _ => ⟨hallows _, hnested _ _⟩
  | delete => exact fun _ _ _ => hallows _
  | findUnique | findUniqueOrThrow | findFirst | findFirstOrThrow | findMany | count | createMany
  | updateMany | upsert | deleteMany | aggregate | groupBy => trivial

/-- Without constraints, the footprint of all rows is apart from any others. -/
theorem apart_of_no_constraints (T : Id) (db db' : Tables ({} : Schema Row)) :
    Apart T ⟨fun _ => True, fun _ _ => False⟩ db db' where
  stored _ _ := trivial
  closed fk hfk := by cases hfk
  clear fk hfk := by cases hfk
  clear' fk hfk := by cases hfk
  names r _ _ n hn := by cases hn

/-- A deletion leaves rows that were there. -/
theorem mem_of_mem_delete {uuid : ℕ → Id} {args : Args Row} {rows : List Row} {t : Root Row}
    (ht : root m uuid .delete args rows = .ok t) {r : Row} (hr : r ∈ t.after) : r ∈ rows := by
  simp only [root] at ht
  split at ht
  · cases ht
  · cases ht
    rw [Root.after_of_no_nested rfl] at hr
    exact (List.mem_filter.mp hr).1

/-- An isolated call that reaches the client stays inside {lit}`T` on any rows,
since rows alone carry no constraint that could refuse it. -/
theorem within_of_isolated {op : Operation} {args : Args Row}
    (hctx : context.Holds T) (hm : m.model ∉ unscopedModels)
    (hiso : Isolated context T m op args) (hblocked : ¬args.blocked T op)
    (hknown : args.unknownColumn m = false) {uuid : ℕ → Id} {rows : List Row} {t : Root Row}
    (ht : root m uuid op (args.forTenant T op) rows = .ok t) :
    (t.outcome (args.forTenant T op)).Within T := by
  let db : Tables ({} : Schema Row) := ⟨rows, rfl⟩
  let sent := args.forTenant T op
  have hrun : call context m uuid op args db = .ok (t.settled {} op sent rows) := by
    rw [call_of_not_blocked hctx hm hblocked]
    have hknown' : (args.forTenant T op).unknownColumn m = false := by simpa using hknown
    change execute m uuid op sent db = _
    unfold execute
    rw [show sent.unknownColumn m = false from hknown', if_neg Bool.false_ne_true,
      show root m uuid op sent db.rows = .ok t from ht]
    rfl
  have hwithin : (t.settled {} op sent rows).Within T :=
    (hiso {} uuid db db (Or.inr (Or.inr ⟨_, Footprint.covers_of_no_constraints m uuid _ op,
      apart_of_no_constraints T db db⟩))).within _ hrun
  have hsettled : (t.settled {} op sent rows).written = (t.outcome sent).written := by
    unfold Root.settled
    rw [Schema.cascade_of_not_gone (by simp)]
    exact List.append_nil _
  -- the rows that a deletion leaves are among those that it reads its relations from
  have hshown : ∀ r ∈ t.after, r ∈ op.shown rows t.after := by
    intro r hr
    unfold Operation.shown
    split <;> rename_i hop
    · subst hop
      exact mem_of_mem_delete ht hr
    · exact hr
  have hread : ∀ r ∈ (t.outcome sent).read, r ∈ (t.settled {} op sent rows).read := by
    intro r hr
    unfold Root.settled
    rw [Schema.cascade_of_not_gone (by simp)]
    rcases List.mem_append.mp hr with hr | hr
    · exact List.mem_append_left _ hr
    · rcases List.mem_flatMap.mp hr with ⟨p, hp, hrel⟩
      rcases List.mem_filter.mp hrel with ⟨hmem, hrel⟩
      exact List.mem_append_right _ (List.mem_flatMap.mpr
        ⟨p, hp, List.mem_filter.mpr ⟨hshown r hmem, hrel⟩⟩)
  exact ⟨fun r hr => hwithin.read r (hread r hr), fun c hc => hwithin.before c (hsettled ▸ hc),
    fun c hc => hwithin.after c (hsettled ▸ hc)⟩

/-- Rows created below the one row handed back belong to {lit}`T`. -/
theorem Outcome.Within.nested_creates {args : Args Row} {t : Root Row}
    (hw : (t.outcome args).Within T) {r : Row} (hr : t.returned = [r]) :
    ∀ c ∈ t.nested.creates r, owned T c = true := by
  intro c hc
  apply hw.after (none, some c) _ c rfl
  refine List.mem_append_right _ ?_
  unfold Root.nestedChanges
  rw [hr]
  exact List.mem_append_right _ (List.mem_map.mpr ⟨c, hc, rfl⟩)

/-- Rows touched below the one row handed back belong to {lit}`T` before and after. -/
theorem Outcome.Within.nested_touches {args : Args Row} {t : Root Row}
    (hw : (t.outcome args).Within T) {r c : Row} (hr : t.returned = [r]) (hc : c ∈ t.rows)
    (htouch : t.nested.touches r c = true) :
    owned T c = true ∧ ∀ c', t.nested.change c = some c' → owned T c' = true := by
  have hmem : (some c, t.nested.change c) ∈ (t.outcome args).written := by
    refine List.mem_append_right _ ?_
    unfold Root.nestedChanges
    rw [hr]
    exact List.mem_append_left _
      (List.mem_map.mpr ⟨c, List.mem_filter.mpr ⟨hc, htouch⟩, rfl⟩)
  exact ⟨hw.before _ hmem c rfl, fun c' hc' => hw.after _ hmem c' hc'⟩

/-- A row that is left and related to the one row handed back belongs to {lit}`T`. -/
theorem Outcome.Within.related {args : Args Row} {t : Root Row}
    (hw : (t.outcome args).Within T) {r c : Row} (hr : t.returned = [r]) (hc : c ∈ t.rows)
    (hrel : args.includes r c = true) : owned T c = true := by
  cases hn : t.nested.touches r c with
  | true => exact (hw.nested_touches hr hc hn).1
  | false =>
      apply hw.read
      refine List.mem_append_right _ (List.mem_flatMap.mpr ⟨r, by simp [hr], ?_⟩)
      refine List.mem_filter.mpr ⟨?_, hrel⟩
      unfold Root.after
      rw [hr]
      exact Nested.mem_applyTo_of_untouched hc hn

/-- Rows to try a read on: enough copies of a row to pass the window, and others. -/
def probe (args : Args Row) (r : Row) (others : List Row) : List Row :=
  List.replicate (args.skip + 1) r ++ others

/-- On its probe, an operation that hands rows back hands back the row. -/
theorem root_probe {op : Operation} {args : Args Row} {r : Row} {others : List Row}
    (hop : op ∈ [.findUnique, .findUniqueOrThrow, .findFirst, .findFirstOrThrow, .findMany])
    (htake : op = .findMany → args.take ≠ some 0)
    (hr : args.whereArg.admits m r = true)
    (hothers : ∀ c ∈ others, args.whereArg.admits m c = false) (uuid : ℕ → Id) :
    root m uuid op args (probe args r others) =
      .ok (findRoot [r] (probe args r others)) := by
  have hmatched : (probe args r others).filter (args.whereArg.admits m) =
      List.replicate (args.skip + 1) r := by
    unfold probe
    rw [List.filter_append, List.filter_replicate_of_pos hr,
      List.filter_eq_nil_iff.mpr fun c hc => by simp [hothers c hc], List.append_nil]
  have hfirst : ({ args with take := some 1 } : Args Row).arrange
      (List.replicate (args.skip + 1) r) = [r] :=
    Args.arrange_replicate (by simp) r
  simp only [List.mem_cons, List.not_mem_nil, or_false] at hop
  rcases hop with rfl | rfl | rfl | rfl | rfl
  · simp [root, hmatched]
  · simp [root, hmatched]
  · simp only [root, hmatched, hfirst]
  · simp [root, hmatched, hfirst]
  · simp only [root, hmatched, Args.arrange_replicate (htake rfl) r]

/-- A read that an isolated call can hand back belongs to {lit}`T`, and its relation
reads stay in {lit}`T`. -/
theorem read_of_isolated {op : Operation} {args : Args Row} {r : Row}
    (hwithin : ∀ rows t, root m (fun _ => "") op args rows = .ok t →
      (t.outcome args).Within T)
    (hop : op ∈ [.findUnique, .findUniqueOrThrow, .findFirst, .findFirstOrThrow, .findMany])
    (htake : op = .findMany → args.take ≠ some 0)
    (hr : args.whereArg.admits m r = true) : owned T r = true ∧ args.ReadsOwn T r := by
  have hself : ∀ c, args.whereArg.admits m c = true → owned T c = true := by
    intro c hc
    have h := hwithin _ _ (root_probe hop htake hc
      (fun c' (hc' : c' ∈ ([] : List Row)) => by cases hc') _)
    exact h.read c (by simp [Root.outcome, findRoot])
  refine ⟨hself r hr, fun c hrel => ?_⟩
  cases hc : owned T c with
  | true => rfl
  | false =>
      have hunmatched : args.whereArg.admits m c = false := by
        cases hm : args.whereArg.admits m c with
        | true => rw [hself c hm] at hc; cases hc
        | false => rfl
      have h := hwithin _ _ (root_probe hop htake hr
        (fun c' (hc' : c' ∈ [c]) => by simpa [List.mem_singleton.mp hc'] using hunmatched) _)
      rw [← hc]
      exact h.related rfl (by simp [probe, findRoot]) hrel

/-- An insertion that stays inside {lit}`T` on every table. -/
theorem create_of_isolated {args : Args Row} {id : Id}
    (hwithin : ∀ uuid rows t, root m uuid .create args rows = .ok t →
      (t.outcome args).Within T) :
    args.ReadsOwn T (args.data.apply (m.blank id)) ∧
      args.data.nested.WritesOwn T (fun _ => True) (args.data.apply (m.blank id)) := by
  have h : ∀ rows, ((createRoot m (fun _ => id) args.data rows).outcome args).Within T :=
    fun rows => hwithin (fun _ => id) rows _ rfl
  have hmem : ∀ c, c ∈ (createRoot m (fun _ => id) args.data [c]).rows := by
    intro c
    simp [createRoot]
  constructor
  · intro c hrel
    exact (h [c]).related rfl (hmem c) hrel
  · constructor
    · exact (h []).nested_creates rfl
    · intro c htouch
      exact ((h [c]).nested_touches rfl (hmem c) htouch).1
    · intro c c' _ htouch hchange
      exact ((h [c]).nested_touches rfl (hmem c) htouch).2 c' hchange

/-- A bulk insertion that stays inside {lit}`T` on every table. -/
theorem insert_of_isolated {args : Args Row} {d : Payload Row} {id : Id}
    (hwithin : ∀ uuid rows t, root m uuid .createManyAndReturn args rows = .ok t →
      (t.outcome args).Within T)
    (hd : d ∈ args.dataMany) :
    owned T (d.apply (m.blank id)) = true ∧ args.ReadsOwn T (d.apply (m.blank id)) := by
  have hcreated : d.apply (m.blank id) ∈
      args.dataMany.mapIdx (fun _ d => d.apply (m.blank id)) := by
    rcases List.getElem_of_mem hd with ⟨i, hi, rfl⟩
    exact List.mem_mapIdx.mpr ⟨i, hi, rfl⟩
  have h : ∀ rows,
      ((insertRoot m (fun _ => id) args.dataMany rows).outcome args).Within T :=
    fun rows => hwithin (fun _ => id) rows _ rfl
  constructor
  · apply (h []).after (none, some (d.apply (m.blank id))) _ _ rfl
    exact List.mem_append_left _ (List.mem_map.mpr ⟨_, hcreated, rfl⟩)
  · intro c hrel
    apply (h [c]).read
    refine List.mem_append_right _ (List.mem_flatMap.mpr ⟨_, hcreated, ?_⟩)
    refine List.mem_filter.mpr ⟨?_, hrel⟩
    rw [Root.after_of_no_nested rfl]
    simp [insertRoot]

/-- An update that stays inside {lit}`T` on every table. -/
theorem update_of_isolated {args : Args Row} {r : Row}
    (hwithin : ∀ rows t, root m (fun _ => "") .update args rows = .ok t →
      (t.outcome args).Within T)
    (hmatch : ∀ c, args.whereArg.admits m c = true → owned T c = true)
    (hr : args.whereArg.admits m r = true) :
    owned T (args.data.apply r) = true ∧ args.ReadsOwn T (args.data.apply r) ∧
      args.data.nested.WritesOwn T
        (fun c => args.whereArg.admits m c = false ∨
          ∃ r', args.whereArg.admits m r' = true ∧ args.data.apply r' = c)
        (args.data.apply r) := by
  have hroot : ∀ others, root m (fun _ => "") .update args (r :: others) =
      .ok (updateRoot (args.whereArg.admits m) args.data r (r :: others)) := by
    intro others
    simp [root, hr]
  have h := fun others => hwithin _ _ (hroot others)
  -- a row that the condition does not select is still there after the update
  have hkept : ∀ c, args.whereArg.admits m c = false →
      c ∈ (updateRoot (args.whereArg.admits m) args.data r [r, c]).rows := by
    intro c hc
    simp [updateRoot, hc]
  have hforeign : ∀ c, owned T c = false → args.whereArg.admits m c = false := by
    intro c hc
    cases hm : args.whereArg.admits m c with
    | true => rw [hmatch c hm] at hc; cases hc
    | false => rfl
  refine ⟨?_, ?_, ?_, ?_, ?_⟩
  · apply (h []).after (some r, some (args.data.apply r)) _ _ rfl
    simp [Root.outcome, updateRoot, hr]
  · intro c hrel
    cases hc : owned T c with
    | true => rfl
    | false =>
        rw [← hc]
        exact (h [c]).related rfl (hkept c (hforeign c hc)) hrel
  · exact (h []).nested_creates rfl
  · intro c htouch
    cases hc : owned T c with
    | true => rfl
    | false =>
        rw [← hc]
        exact ((h [c]).nested_touches rfl (hkept c (hforeign c hc)) htouch).1
  · intro c c' hstored htouch hchange
    rcases hstored with hc | ⟨r', hr', rfl⟩
    · exact ((h [c]).nested_touches rfl (hkept c hc) htouch).2 c' hchange
    · exact ((h [r']).nested_touches rfl (by simp [updateRoot, hr']) htouch).2 c' hchange

/-- A deletion that stays inside {lit}`T` on every table. -/
theorem delete_of_isolated {args : Args Row} {r : Row}
    (hwithin : ∀ rows t, root m (fun _ => "") .delete args rows = .ok t →
      (t.outcome args).Within T)
    (hmatch : ∀ c, args.whereArg.admits m c = true → owned T c = true)
    (hr : args.whereArg.admits m r = true) : args.ReadsOwn T r := by
  intro c hrel
  cases hc : owned T c with
  | true => rfl
  | false =>
      have hm : args.whereArg.admits m c = false := by
        cases hm : args.whereArg.admits m c with
        | true => rw [hmatch c hm] at hc; cases hc
        | false => rfl
      have hroot : root m (fun _ => "") .delete args [r, c] =
          .ok (deleteRoot (args.whereArg.admits m) [r] [r, c]) := by
        simp [root, hr]
      rw [← hc]
      exact (hwithin _ _ hroot).related rfl (by simp [deleteRoot, hm]) hrel

/-- An isolated call has confined arguments. -/
theorem confined_of_isolated (hctx : context.Holds T) (hm : m.model ∉ unscopedModels)
    {op : Operation} {args : Args Row} (hiso : Isolated context T m op args) :
    Confined T m op args := by
  cases hknown : args.unknownColumn m with
  | true => exact Or.inl hknown
  | false =>
      right
      have hwithin : ¬args.blocked T op → ∀ uuid rows t,
          root m uuid op (args.forTenant T op) rows = .ok t →
            (t.outcome (args.forTenant T op)).Within T :=
        fun hblocked uuid rows t ht =>
          within_of_isolated hctx hm hiso hblocked hknown ht
      have howned : ∀ r, args.admitsOwn m T r = true → owned T r = true :=
        fun r hr => Args.owned_of_admitsOwn hr
      cases op with
      | findUnique | findUniqueOrThrow | findFirstOrThrow =>
          intro r hr
          exact read_of_isolated (hwithin (by simp [Args.blocked, unsupportedOperations]) _)
            (by simp) (by simp) hr
      | findFirst =>
          intro r hr
          exact (read_of_isolated
            (hwithin (by simp [Args.blocked, unsupportedOperations]) _)
            (by simp) (by simp) hr).2
      | findMany =>
          by_cases htake : args.take = some 0
          · exact Or.inl htake
          · right
            intro r hr
            exact (read_of_isolated
              (hwithin (by simp [Args.blocked, unsupportedOperations]) _)
              (by simp) (fun _ => htake) hr).2
      | count => trivial
      | create =>
          cases hcross : args.data.crossTenant T with
          | true => exact Or.inl hcross
          | false =>
              right
              intro id
              exact create_of_isolated
                (hwithin (by simp [Args.blocked, unsupportedOperations, hcross]))
      | createManyAndReturn =>
          intro d hd id
          exact insert_of_isolated
            (hwithin (by simp [Args.blocked, unsupportedOperations])) hd
      | update =>
          intro r hr
          refine update_of_isolated
            (hwithin (by simp [Args.blocked, unsupportedOperations]) _) ?_ hr
          exact howned
      | delete =>
          intro r hr
          have h : (args.forTenant T .delete).ReadsOwn T r := delete_of_isolated
            (hwithin (by simp [Args.blocked, unsupportedOperations]) _) howned hr
          exact h
      | createMany | updateMany | upsert | deleteMany | aggregate | groupBy => trivial

/-- Isolation of the extension.  A call on a scoped model in a tenant's context keeps the promise
when its arguments are confined, its conditions look at the tenant's rows, and the other rows
are apart from what it makes of them; it keeps it on all such databases exactly when its
arguments are confined. -/
theorem isolated_iff_confined (context : TenantContext) (T : Id) (m : Delegate Row)
    (hctx : context.Holds T) (hm : m.model ∉ unscopedModels) (op : Operation) :
    (∀ (schema : Schema Row) (uuid : ℕ → Id) (ask : Arguments Row) (db db' : Tables schema),
      ConfinedAt T m uuid op ask db db' → IsolatedAt context T m uuid op ask db db') ∧
    ∀ args : Args Row, Isolated context T m op args ↔ Confined T m op args := by
  refine ⟨fun schema uuid ask db db' h => isolated_of_confined hctx hm h, fun args => ?_⟩
  refine ⟨confined_of_isolated hctx hm, fun hconf schema uuid db db' hapart => ?_⟩
  exact isolated_of_confined hctx hm ⟨hconf, hconf, ⟨fun _ => true, fun _ _ => rfl, rfl⟩, hapart⟩

end Holds

/-! ## Orders and their tickets -/

/-- Rows of two models: orders, and the kitchen tickets that go with them. -/
abbrev OrderRow := Order ⊕ KitchenQueue

/-- The client's delegate of orders, beside tickets. -/
def orderRows : Delegate OrderRow where
  model := "Order"
  isRow := Sum.isLeft
  blank id := .inl (prisma.order.blank id)

/-- The client's delegate of kitchen tickets, beside orders. -/
def ticketRows : Delegate OrderRow where
  model := "KitchenQueue"
  isRow := Sum.isRight
  blank id := .inr (prisma.kitchenQueue.blank id)

/-- The foreign key of a ticket: it goes with its order. -/
def ticketOrder : ForeignKey OrderRow where
  column := Sum.elim (fun _ => none) fun ticket => some ticket.orderId
  key := orderRows.primaryKey
  onDelete := .Cascade
  write v := Sum.map id fun ticket => { ticket with orderId := v.getD ticket.orderId }
  tenantId_write := Or.inl fun _ r => by cases r <;> rfl

/-- The primary keys of orders and tickets, and the foreign key between them. -/
def orderSchema : Schema OrderRow where
  uniqueKeys := [orderRows.primaryKey, ticketRows.primaryKey]
  foreignKeys := [ticketOrder]
  referenced fk hfk := by
    rw [List.mem_singleton.mp hfk]
    exact List.mem_cons_self

/-- An order of a tenant. -/
def orderOf (tenantId id : Id) : OrderRow :=
  .inl { (default : Order) with id := id, tenantId := tenantId }

/-- A tenant's ticket for an order. -/
def ticketOf (tenantId id orderId : Id) : OrderRow :=
  .inr { (default : KitchenQueue) with id := id, tenantId := tenantId, orderId := orderId }

/-- A tenant with an order and its ticket. -/
def oneOrder : Tables orderSchema where
  rows := [orderOf "tenant-a" "order-a", ticketOf "tenant-a" "ticket-a" "order-a"]
  accepted := rfl

/-- The same beside another tenant's order and its ticket. -/
def twoOrders : Tables orderSchema where
  rows := [orderOf "tenant-a" "order-a", ticketOf "tenant-a" "ticket-a" "order-a",
    orderOf "tenant-b" "order-b", ticketOf "tenant-b" "ticket-b" "order-b"]
  accepted := rfl

/-- The ids that the first tenant's orders and tickets may have. -/
def orderIds : List Id := ["order-a", "order-c", "ticket-a"]

/-- Orders and tickets with these ids, of which an order may go. -/
def orderFootprint : Footprint OrderRow where
  rows r := TenantRow.id r ∈ orderIds ∧ ∀ v, ticketOrder.column r = some v → v ∈ orderIds
  gone _ v := v = "order-a"

/-- A row that other rows do not refer to changes inside the footprint. -/
theorem orderFootprint_allows {r : OrderRow} {x : Option OrderRow}
    (hkey : ∀ v, orderRows.primaryKey r = some v →
      x.bind orderRows.primaryKey = some v ∨ v = "order-a")
    (hx : ∀ r', x = some r' → orderFootprint.rows r') :
    orderFootprint.Allows orderSchema (some r, x) where
  rows := hx
  keys fk hfk := by
    rcases List.mem_singleton.mp hfk with rfl
    exact hkey

theorem orderFootprint_closed : orderFootprint.Closed orderSchema := by
  intro fk hfk r v hr hcolumn _ new hnew
  rcases List.mem_singleton.mp hfk with rfl
  cases r with
  | inl order => cases hcolumn
  | inr ticket =>
      refine orderFootprint_allows (fun w hw => by cases hw) ?_
      cases new with
      | none =>
          rintro _ ⟨⟩
      | some w =>
          rcases hnew w rfl with ⟨p, hp, hkey⟩
          rintro _ ⟨⟩
          refine ⟨hr.1, ?_⟩
          rintro _ ⟨⟩
          have hid : TenantRow.id p = w := (Delegate.primaryKey_eq_some.mp hkey).2
          exact hid ▸ hp.1

/-- The other tenant's rows are apart from it. -/
theorem orderFootprint_apart : Apart "tenant-a" orderFootprint twoOrders oneOrder where
  stored r hr := by
    rcases List.mem_pair.mp hr with rfl | rfl
    · exact ⟨by decide, by rintro _ ⟨⟩⟩
    · exact ⟨by decide, by rintro _ ⟨⟩; decide⟩
  closed := orderFootprint_closed
  clear fk hfk v hgone := by
    rcases List.mem_singleton.mp hfk with rfl
    rw [show v = "order-a" from hgone]
    decide
  clear' fk hfk v hgone := by
    rcases List.mem_singleton.mp hfk with rfl
    rw [show v = "order-a" from hgone]
    decide
  names r hr _ n hn := by
    have hnone : ∀ v ∈ orderIds, ∀ key ∈ orderSchema.uniqueKeys,
        v ∉ (others "tenant-a" twoOrders.rows).filterMap key := by decide
    have hnames : n.1 ∈ orderSchema.uniqueKeys ∧ n.2 ∈ orderIds := by
      rcases List.mem_append.mp hn with hn | hn
      · rcases List.mem_filterMap.mp hn with ⟨key, hkey, hn⟩
        rcases Option.map_eq_some_iff.mp hn with ⟨v, hv, rfl⟩
        refine ⟨hkey, ?_⟩
        rcases List.mem_pair.mp hkey with rfl | rfl <;>
          exact (Delegate.primaryKey_eq_some.mp hv).2 ▸ hr.1
      · rcases List.mem_filterMap.mp hn with ⟨fk, hfk, hn⟩
        rcases Option.map_eq_some_iff.mp hn with ⟨v, hv, rfl⟩
        rcases List.mem_singleton.mp hfk with rfl
        exact ⟨List.mem_cons_self, hr.2 v hv⟩
    exact iff_of_false (hnone n.2 hnames.2 n.1 hnames.1) (by
      intro h
      cases h)

/-- The first tenant's order may be deleted. -/
theorem orderFootprint_covers_delete (uuid : ℕ → Id) (args : Args OrderRow)
    (hid : args.whereArg.id = some "order-a") :
    orderFootprint.Covers orderSchema orderRows uuid args .delete := by
  intro r _ hadmits
  refine orderFootprint_allows (fun v hv => Or.inr ?_) (by rintro _ ⟨⟩)
  unfold Where.admits at hadmits
  rw [hid] at hadmits
  simp only [Option.all_some, Bool.and_eq_true, beq_iff_eq] at hadmits
  exact (Delegate.primaryKey_eq_some.mp hv).2.symm.trans hadmits.1.1.1.2.symm

/-- The extension isolates a list of orders and the deletion of an order, which takes its ticket
along, beside another tenant's order or without it, and on all databases the update of an order's
status. -/
theorem order_calls_isolated :
    IsolatedAt { tenantId := some "tenant-a" } "tenant-a" orderRows (fun _ => "") .findMany
        (fun _ => {}) twoOrders oneOrder ∧
      IsolatedAt { tenantId := some "tenant-a" } "tenant-a" orderRows (fun _ => "") .delete
        (fun _ => { whereArg := { id := some "order-a" } }) twoOrders oneOrder ∧
      Isolated { tenantId := some "tenant-a" } "tenant-a" prisma.order .update
        { whereArg := { id := some "order-1" }
          data := { assign := fun o => { o with status := .CANCELLED } } } := by
  have hlooks : ∀ args : Args OrderRow, Arguments.LooksAtOwn (fun _ => args) "tenant-a"
      twoOrders.rows oneOrder.rows := fun _ => ⟨fun _ => true, fun _ _ => rfl, rfl⟩
  refine ⟨?_, ?_, ?_⟩
  · refine (isolated_iff_confined _ _ _ ⟨rfl, by decide⟩ (by decide) _).1 _ _ _ _ _ ?_
    have hconf : Confined "tenant-a" orderRows .findMany {} := by
      refine Or.inr (Or.inr fun r _ c hc => ?_)
      cases hc
    exact ⟨hconf, hconf, hlooks _, keepsApart_of_read (by simp [readOperations]) _ _ _ _ _ _⟩
  · refine (isolated_iff_confined _ _ _ ⟨rfl, by decide⟩ (by decide) _).1 _ _ _ _ _ ?_
    have hconf : Confined "tenant-a" orderRows .delete
        { whereArg := { id := some "order-a" } } := by
      refine Or.inr fun r _ c hc => ?_
      cases hc
    exact ⟨hconf, hconf, hlooks _,
      Or.inr (Or.inr ⟨orderFootprint, orderFootprint_covers_delete _ _ rfl, orderFootprint_apart⟩)⟩
  · refine ((isolated_iff_confined _ _ _ ⟨rfl, by decide⟩ (by decide) _).2 _).mpr (Or.inr ?_)
    intro o ho
    have howned : owned "tenant-a" o = true := Args.owned_of_admitsOwn ho
    refine ⟨howned, ?_, Nested.writesOwn_default _ _ _⟩
    intro c hc
    cases hc

/-- A lookup by unique id is handed on without the tenant, and so reads another
tenant's order. -/
theorem findUnique_not_isolated :
    ¬IsolatedAt { tenantId := some "tenant-a" } "tenant-a" orderRows (fun _ => "") .findUnique
      (fun _ => { whereArg := { id := some "order-b" } }) twoOrders twoOrders := by
  intro h
  have hread := (h.within _ rfl).read _ (List.mem_append_left _ List.mem_cons_self)
  exact absurd hread (by decide)

end Database
end Eleva
