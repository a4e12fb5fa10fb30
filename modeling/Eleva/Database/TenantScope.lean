import Eleva.Database.Schema

/-!
# Database - The tenant-scoped client extension

The extension that every client call of the application goes through.  It blocks
calls without a tenant context, blocks some operations on scoped models, adds the
tenant to the {lit}`where` object of others and to the {lit}`data` object of
{lit}`create`, and hands everything else on unchanged.

Main results:

- Definition {lit}`scope`: what the extension makes of the arguments of a call.
- Definition {lit}`Confined`: the condition on a call's arguments under which the
  extension keeps the call inside the tenant of the context.
- Theorem {lit}`contained_of_confined`: an operation with such arguments stays inside the
  tenant, and does to the tenant's rows what it does to them alone.
-/

namespace Eleva
namespace Database

/-- The thread-local execution context. -/
structure TenantContext where
  tenantId : Option Id := none
  isPlatformOwner : Bool := false

/-- Whether an optional string is neither missing nor empty. -/
def truthy (t : Option String) : Bool :=
  t.any (fun s => s != "")

/-- Models that the extension leaves alone. -/
def unscopedModels : List String :=
  ["Tenant", "SubscriptionPlan", "AuditLog", "Notification"]

/-- The client's name of an operation. -/
def Operation.name : Operation → String
  | .findUnique => "findUnique"
  | .findUniqueOrThrow => "findUniqueOrThrow"
  | .findFirst => "findFirst"
  | .findFirstOrThrow => "findFirstOrThrow"
  | .findMany => "findMany"
  | .count => "count"
  | .create => "create"
  | .createMany => "createMany"
  | .createManyAndReturn => "createManyAndReturn"
  | .update => "update"
  | .updateMany => "updateMany"
  | .upsert => "upsert"
  | .delete => "delete"
  | .deleteMany => "deleteMany"
  | .aggregate => "aggregate"
  | .groupBy => "groupBy"

/-- Operations that the extension refuses on scoped models. -/
def unsupportedOperations : List Operation :=
  [.createMany, .updateMany, .deleteMany, .aggregate, .groupBy, .upsert]

/-- Operations whose {lit}`where` object receives the tenant. -/
def filteredOperations : List Operation :=
  [.findFirst, .findMany, .count, .update, .delete]

/-- Operations that only read. -/
def readOperations : List Operation :=
  [.findUnique, .findUniqueOrThrow, .findFirst, .findFirstOrThrow, .findMany, .count,
    .aggregate, .groupBy]

def missingContextError (model : String) : ClientError :=
  .failSafe ("Fail-Safe Block: Access to model '" ++ model ++
    "' was blocked due to missing tenant context.")

def unsupportedError (op : Operation) (model : String) : ClientError :=
  .failSafe ("Fail-Safe Block: Operation '" ++ op.name ++
    "' is unsupported on scoped model '" ++ model ++ "' to prevent isolation bypasses.")

def crossTenantError : ClientError :=
  .failSafe "Fail-Safe Block: Cross-tenant data insertion attempt detected and blocked."

variable {Row : Type} [TenantRow Row]

/-- A {lit}`where` object with {lit}`tenantId` spread over it. -/
def Where.withTenant (w : Where Row) (T : Id) : Where Row :=
  { w with tenantId := .filter (fun t => t == some T) }

/-- A {lit}`data` object with {lit}`tenantId` spread over it. -/
def Payload.withTenant (d : Payload Row) (T : Id) : Payload Row :=
  { d with tenantId := some (some T) }

/-- Whether a {lit}`data` object names a tenant other than {lit}`T`. -/
def Payload.crossTenant (d : Payload Row) (T : Id) : Bool :=
  truthy d.tenantId.join && d.tenantId.join != some T

/-- The extension: the arguments it hands on to the client. -/
def scope (context : TenantContext) (m : Delegate Row) (op : Operation)
    (args : Args Row) : Except ClientError (Args Row) :=
  if unscopedModels.contains m.model then .ok args
  else
    match context.tenantId, truthy context.tenantId with
    | some T, true =>
        if unsupportedOperations.contains op then .error (unsupportedError op m.model)
        else if filteredOperations.contains op then
          .ok { args with whereArg := args.whereArg.withTenant T }
        else if op = .create then
          if args.data.crossTenant T then .error crossTenantError
          else .ok { args with data := args.data.withTenant T }
        else .ok args
    | _, _ =>
        if context.isPlatformOwner then .ok args
        else .error (missingContextError m.model)

/-- A call of the extended client. -/
def call {σ : Type} [Engine σ Row] (context : TenantContext) (m : Delegate Row) (uuid : ℕ → Id)
    (op : Operation) (args : Args Row) (db : σ) : Except ClientError (Outcome Row) :=
  match scope context m op args with
  | .error e => .error e
  | .ok args => Engine.exec m uuid op args db

/-- The context holds tenant {lit}`T`. -/
structure TenantContext.Holds (context : TenantContext) (T : Id) : Prop where
  tenantId : context.tenantId = some T
  nonempty : T ≠ ""

/-- The row belongs to tenant {lit}`T`. -/
def owned (T : Id) (r : Row) : Bool :=
  TenantRow.tenantId r == some T

/-- The rows of tenant {lit}`T`. -/
def own (T : Id) (rows : List Row) : List Row :=
  rows.filter (owned T)

/-- The rows of every other tenant, and those of none. -/
def others (T : Id) (rows : List Row) : List Row :=
  rows.filter fun r => !owned T r

/-! ## Isolation -/

/-- The outcome touches nothing outside tenant {lit}`T`. -/
structure Outcome.Within (T : Id) (out : Outcome Row) : Prop where
  read : ∀ r ∈ out.read, owned T r = true
  before : ∀ c ∈ out.written, ∀ r, c.1 = some r → owned T r = true
  after : ∀ c ∈ out.written, ∀ r, c.2 = some r → owned T r = true

/-- The answer that the caller of an operation sees. -/
def answer (out : Except ClientError (Outcome Row)) : Except ClientError (Result Row) :=
  out.map Outcome.result

/-! ## The condition on the arguments -/

/-- Relation reads from {lit}`r` reach only rows of {lit}`T`. -/
def Args.ReadsOwn (args : Args Row) (T : Id) (r : Row) : Prop :=
  ∀ c, args.includes r c = true → owned T c = true

/-- Nested writes below {lit}`parent` create, change and delete only rows of
{lit}`T`; {lit}`stored` says which rows the write of the parent can leave. -/
structure Nested.WritesOwn (n : Nested Row) (T : Id) (stored : Row → Prop)
    (parent : Row) : Prop where
  creates : ∀ c ∈ n.creates parent, owned T c = true
  touches : ∀ c, n.touches parent c = true → owned T c = true
  change : ∀ c c', stored c → n.touches parent c = true → n.change c = some c' →
    owned T c' = true

/-- The {lit}`where` object, with its {lit}`tenantId` key overridden by {lit}`T`,
admits the row. -/
def Args.admitsOwn (args : Args Row) (m : Delegate Row) (T : Id) (r : Row) : Bool :=
  (args.whereArg.withTenant T).admits m r

/-- Whether the client refuses the {lit}`where` object for naming a column the
model does not have. -/
def Args.unknownColumn (args : Args Row) (m : Delegate Row) : Bool :=
  match args.whereArg.deletedAt, m.deletedAt with
  | .filter _, none => true
  | _, _ => false

/-- The condition on the arguments, operation by operation.  The operations that
the extension hands on unchanged are confined only if the caller confined them. -/
def ConfinedArgs (T : Id) (m : Delegate Row) (args : Args Row) : Operation → Prop
  | .findUnique | .findUniqueOrThrow | .findFirstOrThrow =>
      ∀ r, args.whereArg.admits m r = true → owned T r = true ∧ args.ReadsOwn T r
  | .findFirst => ∀ r, args.admitsOwn m T r = true → args.ReadsOwn T r
  | .findMany =>
      args.take = some 0 ∨ ∀ r, args.admitsOwn m T r = true → args.ReadsOwn T r
  | .delete => ∀ r, args.admitsOwn m T r = true → args.ReadsOwn T r
  | .create =>
      args.data.crossTenant T = true ∨
        ∀ id, let r := (args.data.withTenant T).apply (m.blank id)
          args.ReadsOwn T r ∧ args.data.nested.WritesOwn T (fun _ => True) r
  | .createManyAndReturn =>
      ∀ d ∈ args.dataMany, ∀ id,
        owned T (d.apply (m.blank id)) = true ∧ args.ReadsOwn T (d.apply (m.blank id))
  | .update =>
      ∀ r, args.admitsOwn m T r = true →
        owned T (args.data.apply r) = true ∧ args.ReadsOwn T (args.data.apply r) ∧
          args.data.nested.WritesOwn T
            (fun c => args.admitsOwn m T c = false ∨
              ∃ r', args.admitsOwn m T r' = true ∧ args.data.apply r' = c)
            (args.data.apply r)
  | .count | .createMany | .updateMany | .upsert | .deleteMany | .aggregate | .groupBy =>
      True

/-- The condition under which a call stays inside {lit}`T`. -/
def Confined (T : Id) (m : Delegate Row) (op : Operation) (args : Args Row) : Prop :=
  args.unknownColumn m = true ∨ ConfinedArgs T m args op

/-! ## Rows of one tenant -/

omit [TenantRow Row] in
theorem mem_of_mem_take_drop {r : Row} {rows : List Row} {skip n : ℕ}
    (hr : r ∈ (rows.drop skip).take n) : r ∈ rows :=
  List.mem_of_mem_drop (List.mem_of_mem_take hr)

/-- The window that the arguments select consists of matching rows. -/
theorem Args.mem_arrange {args : Args Row} {rows : List Row} {r : Row}
    (hr : r ∈ args.arrange rows) : r ∈ rows := by
  unfold Args.arrange at hr
  cases hsort : args.orderBy with
  | none =>
      rw [hsort] at hr
      cases htake : args.take with
      | none =>
          rw [htake] at hr
          exact List.mem_of_mem_drop hr
      | some n =>
          rw [htake] at hr
          exact mem_of_mem_take_drop hr
  | some le =>
      rw [hsort] at hr
      cases htake : args.take with
      | none =>
          rw [htake] at hr
          exact (List.perm_insertionSort _ rows).mem_iff.mp (List.mem_of_mem_drop hr)
      | some n =>
          rw [htake] at hr
          exact (List.perm_insertionSort _ rows).mem_iff.mp (mem_of_mem_take_drop hr)

/-- Of copies of one row, one more than are skipped, the window shows one. -/
theorem Args.arrange_replicate {args : Args Row} (htake : args.take ≠ some 0) (r : Row) :
    args.arrange (List.replicate (args.skip + 1) r) = [r] := by
  have hsorted : ∀ le : Row → Row → Bool,
      ((List.replicate (args.skip + 1) r).insertionSort fun a b => le a b = true) =
        List.replicate (args.skip + 1) r := by
    intro le
    exact List.perm_replicate.mp (List.perm_insertionSort _ _)
  unfold Args.arrange
  cases hsort : args.orderBy with
  | none =>
      cases hn : args.take with
      | none => simp
      | some n =>
          cases n with
          | zero => exact absurd hn htake
          | succ n => simp
  | some le =>
      cases hn : args.take with
      | none => simp [hsorted]
      | some n =>
          cases n with
          | zero => exact absurd hn htake
          | succ n => simp [hsorted]

/-- Rows that a tenant-bound condition selects are selected from the tenant's own
rows. -/
theorem filter_own {T : Id} {matching : Row → Bool} {rows : List Row}
    (hmatch : ∀ r ∈ rows, matching r = true → owned T r = true) :
    (own T rows).filter matching = rows.filter matching := by
  unfold own
  rw [List.filter_filter]
  apply List.filter_congr
  intro r hr
  cases hm : matching r with
  | false => simp
  | true => simp [hmatch r hr hm]

/-- The {lit}`where` object that the extension hands on admits the rows of the
tenant that the caller's object admits. -/
theorem Args.owned_of_admitsOwn {args : Args Row} {m : Delegate Row} {T : Id} {r : Row}
    (hr : args.admitsOwn m T r = true) : owned T r = true := by
  unfold Args.admitsOwn Where.admits Where.withTenant at hr
  simp only [ColumnKey.admits, Bool.and_eq_true] at hr
  exact hr.1.1.2

/-- Updating rows inside the tenant commutes with looking at the tenant's rows. -/
theorem own_map_update {T : Id} {matching : Row → Bool} {f : Row → Row} {rows : List Row}
    (hmatch : ∀ r ∈ rows, matching r = true → owned T r = true)
    (hkeep : ∀ r ∈ rows, matching r = true → owned T (f r) = true) :
    own T (rows.map fun r => if matching r then f r else r) =
      (own T rows).map fun r => if matching r then f r else r := by
  induction rows with
  | nil => rfl
  | cons r rows ih =>
      rw [List.forall_mem_cons] at hmatch hkeep
      have ih' := ih hmatch.2 hkeep.2
      unfold own at ih' ⊢
      rw [List.map_cons, List.filter_cons, List.filter_cons]
      cases hm : matching r with
      | true => simp [hmatch.1 hm, hkeep.1 hm, hm, ih']
      | false =>
          cases ho : owned T r with
          | true => simp [ho, hm, ih']
          | false => simp [ho, ih']

/-- Deleting rows inside the tenant commutes with looking at the tenant's rows. -/
theorem own_filter (T : Id) (keep : Row → Bool) (rows : List Row) :
    own T (rows.filter keep) = (own T rows).filter keep := by
  unfold own
  rw [List.filter_filter, List.filter_filter]
  exact List.filter_congr fun r _ => Bool.and_comm _ _

theorem own_append_of_owned {T : Id} {created : List Row}
    (hcreated : ∀ r ∈ created, owned T r = true) (rows : List Row) :
    own T (rows ++ created) = own T rows ++ created := by
  unfold own
  rw [List.filter_append, List.filter_eq_self.mpr hcreated]

/-- Updating rows inside the tenant leaves the other rows alone. -/
theorem others_map_update {T : Id} {matching : Row → Bool} {f : Row → Row} {rows : List Row}
    (hmatch : ∀ r ∈ rows, matching r = true → owned T r = true)
    (hkeep : ∀ r ∈ rows, matching r = true → owned T (f r) = true) :
    others T (rows.map fun r => if matching r then f r else r) = others T rows := by
  induction rows with
  | nil => rfl
  | cons r rows ih =>
      rw [List.forall_mem_cons] at hmatch hkeep
      have ih' := ih hmatch.2 hkeep.2
      unfold others at ih' ⊢
      rw [List.map_cons, List.filter_cons, List.filter_cons, ih']
      cases hm : matching r with
      | true => simp [hmatch.1 hm, hkeep.1 hm]
      | false => simp

/-- Deleting rows inside the tenant leaves the other rows alone. -/
theorem others_filter {T : Id} {keep : Row → Bool} {rows : List Row}
    (hkeep : ∀ r ∈ rows, owned T r = false → keep r = true) :
    others T (rows.filter keep) = others T rows := by
  unfold others
  rw [List.filter_filter]
  apply List.filter_congr
  intro r hr
  cases ho : owned T r with
  | true => rfl
  | false => simp [hkeep r hr ho]

theorem others_append_of_owned {T : Id} {created : List Row}
    (hcreated : ∀ r ∈ created, owned T r = true) (rows : List Row) :
    others T (rows ++ created) = others T rows := by
  unfold others
  have hnone : created.filter (fun r => !owned T r) = [] := by
    rw [List.filter_eq_nil_iff]
    intro r hr
    simp [hcreated r hr]
  rw [List.filter_append, hnone, List.append_nil]

/-- Nested writes inside the tenant commute with looking at the tenant's rows. -/
theorem Nested.own_applyTo {n : Nested Row} {T : Id} {parent : Row} {rows : List Row}
    (hn : n.WritesOwn T (fun c => c ∈ rows) parent) :
    own T (n.applyTo parent rows) = n.applyTo parent (own T rows) := by
  have hchange : ∀ c ∈ rows, n.touches parent c = true →
      ∀ c', n.change c = some c' → owned T c' = true :=
    fun c hc ht c' hc' => hn.change c c' hc ht hc'
  have htouch := hn.touches
  unfold Nested.applyTo
  rw [own_append_of_owned hn.creates]
  congr 1
  clear hn
  unfold own
  induction rows with
  | nil => rfl
  | cons r rows ih =>
      have ih' := ih fun c hc => hchange c (List.mem_cons_of_mem r hc)
      cases ht : n.touches parent r with
      | false =>
          cases ho : owned T r with
          | true => simp [ht, ho, ih']
          | false => simp [ht, ho, ih']
      | true =>
          have ho := htouch r ht
          cases hc : n.change r with
          | none => simp [ht, ho, hc, ih']
          | some r' =>
              have ho' := hchange r List.mem_cons_self ht r' hc
              simp [ht, ho, hc, ho', ih']

/-- Nested writes inside the tenant leave the other rows alone. -/
theorem Nested.others_applyTo {n : Nested Row} {T : Id} {parent : Row} {rows : List Row}
    (hn : n.WritesOwn T (fun c => c ∈ rows) parent) :
    others T (n.applyTo parent rows) = others T rows := by
  have hchange : ∀ c ∈ rows, n.touches parent c = true →
      ∀ c', n.change c = some c' → owned T c' = true :=
    fun c hc ht c' hc' => hn.change c c' hc ht hc'
  have htouch := hn.touches
  unfold Nested.applyTo
  rw [others_append_of_owned hn.creates]
  clear hn
  unfold others
  induction rows with
  | nil => rfl
  | cons r rows ih =>
      have ih' := ih fun c hc => hchange c (List.mem_cons_of_mem r hc)
      cases ht : n.touches parent r with
      | false =>
          cases ho : owned T r with
          | true => simp [ht, ho, ih']
          | false => simp [ht, ho, ih']
      | true =>
          have ho := htouch r ht
          cases hc : n.change r with
          | none => simp [ht, ho, hc, ih']
          | some r' =>
              have ho' := hchange r List.mem_cons_self ht r' hc
              simp [ht, ho, hc, ho', ih']

/-! ## Operations that stay inside a tenant -/

/-- What an operation did to the model it addresses, and what its relation
arguments do from there, stays inside {lit}`T`. -/
structure Root.Within (T : Id) (args : Args Row) (t : Root Row) : Prop where
  seen : ∀ r ∈ t.seen, owned T r = true
  before : ∀ c ∈ t.changes, ∀ r, c.1 = some r → owned T r = true
  after : ∀ c ∈ t.changes, ∀ r, c.2 = some r → owned T r = true
  reads : ∀ r ∈ t.returned, args.ReadsOwn T r
  nested : ∀ parent ∈ t.returned, t.nested.WritesOwn T (fun c => c ∈ t.rows) parent

/-- {lit}`t'` is {lit}`t` as seen on the rows of {lit}`T` alone, and {lit}`t` left the
other ones of {lit}`rows` as they were. -/
structure Root.Mirrors (T : Id) (rows : List Row) (t t' : Root Row) : Prop where
  returned : t'.returned = t.returned
  counted : t'.counted = t.counted
  nested : t'.nested = t.nested
  changes : t'.changes = t.changes
  own : t'.rows = own T t.rows
  frame : others T t.rows = others T rows

/-- An operation on {lit}`rows`, and the same operation on the rows of {lit}`T` among
them, fail alike or stay inside {lit}`T` and mirror each other. -/
inductive Contained (T : Id) (args : Args Row) (rows : List Row) :
    Except ClientError (Root Row) → Except ClientError (Root Row) → Prop
  | refused (e : ClientError) : Contained T args rows (.error e) (.error e)
  | done {t t' : Root Row} (within : t.Within T args) (mirrors : t.Mirrors T rows t') :
      Contained T args rows (.ok t) (.ok t')

theorem Root.Within.outcome {T : Id} {args : Args Row} {t : Root Row}
    (ht : t.Within T args) : (t.outcome args).Within T := by
  have hnested : ∀ c ∈ t.nestedChanges,
      (∀ r, c.1 = some r → owned T r = true) ∧ (∀ r, c.2 = some r → owned T r = true) := by
    intro c hc
    unfold Root.nestedChanges at hc
    split at hc <;> rename_i hret
    · rename_i parent
      have hw := ht.nested parent (by rw [hret]; exact List.mem_singleton_self parent)
      rcases List.mem_append.mp hc with hc | hc
      · rcases List.mem_map.mp hc with ⟨r, hr, rfl⟩
        rcases List.mem_filter.mp hr with ⟨hr, htouch⟩
        constructor
        · rintro r' ⟨⟩
          exact hw.touches r htouch
        · intro r' hr'
          exact hw.change r r' hr htouch hr'
      · rcases List.mem_map.mp hc with ⟨r, hr, rfl⟩
        constructor
        · intro r' hr'
          cases hr'
        · rintro r' ⟨⟩
          exact hw.creates r hr
    · cases hc
  constructor
  · intro r hr
    rcases List.mem_append.mp hr with hr | hr
    · exact ht.seen r hr
    · rcases List.mem_flatMap.mp hr with ⟨p, hp, hrel⟩
      exact ht.reads p hp r (List.mem_filter.mp hrel).2
  · intro c hc
    rcases List.mem_append.mp hc with hc | hc
    · exact ht.before c hc
    · exact (hnested c hc).1
  · intro c hc
    rcases List.mem_append.mp hc with hc | hc
    · exact ht.after c hc
    · exact (hnested c hc).2

section Mirrors

variable {T : Id} {args : Args Row} {rows : List Row} {t t' : Root Row}

/-- What the relation arguments leave mirrors as well. -/
theorem Root.Mirrors.after (ht : t.Within T args) (h : t.Mirrors T rows t') :
    t'.after = Database.own T t.after ∧ others T t.after = others T rows := by
  unfold Root.after
  rw [h.returned, h.nested, h.own]
  split <;> rename_i hret
  · rename_i parent
    have hn := ht.nested parent (by rw [hret]; exact List.mem_singleton_self parent)
    exact ⟨(Nested.own_applyTo hn).symm, (Nested.others_applyTo hn).trans h.frame⟩
  · exact ⟨rfl, h.frame⟩

theorem Root.Mirrors.nestedChanges (ht : t.Within T args) (h : t.Mirrors T rows t') :
    t'.nestedChanges = t.nestedChanges := by
  unfold Root.nestedChanges
  rw [h.returned, h.nested, h.own]
  split <;> rename_i hret
  · rename_i parent
    have hn := ht.nested parent (by rw [hret]; exact List.mem_singleton_self parent)
    unfold Nested.changes
    rw [filter_own fun c _ => hn.touches c]
  · rfl

end Mirrors

/-! ## Running the client -/

theorem exec_of_unknownColumn {m : Delegate Row} {args : Args Row}
    (h : args.unknownColumn m = true) (uuid : ℕ → Id) (op : Operation) (db : Store Row) :
    exec m uuid op args db = .error (.unknownArgument "deletedAt") := by
  unfold exec
  cases hw : args.whereArg.deletedAt <;> cases hm : m.deletedAt <;>
    simp [Args.unknownColumn, hw, hm] at h ⊢

/-- A client call whose columns exist runs the operation and checks the
constraints on the rows it leaves. -/
theorem exec_of_knownColumn {m : Delegate Row} {args : Args Row}
    (h : args.unknownColumn m = false) (uuid : ℕ → Id) (op : Operation) (db : Store Row) :
    exec m uuid op args db =
      match root m uuid op args db.rows with
      | .error e => .error e
      | .ok t =>
          if (t.outcome args).written.isEmpty || db.accepts t.after then
            .ok (t.outcome args)
          else .error .constraintViolation := by
  unfold exec
  cases hw : args.whereArg.deletedAt <;> cases hm : m.deletedAt <;>
    first
    | rfl
    | simp [Args.unknownColumn, hw, hm] at h

/-- What a call that returned has done. -/
theorem exec_eq_ok {m : Delegate Row} {args : Args Row} {uuid : ℕ → Id} {op : Operation}
    {db : Store Row} {out : Outcome Row} (h : exec m uuid op args db = .ok out) :
    ∃ t, root m uuid op args db.rows = .ok t ∧ out = t.outcome args ∧
      (out.written = [] ∨ db.accepts out.rows = true) := by
  cases hu : args.unknownColumn m with
  | true =>
      rw [exec_of_unknownColumn hu] at h
      cases h
  | false =>
      rw [exec_of_knownColumn hu] at h
      split at h
      · cases h
      · rename_i t ht
        split at h
        · rename_i haccepted
          cases h
          refine ⟨t, ht, rfl, ?_⟩
          rcases Bool.or_eq_true _ _ ▸ haccepted with hempty | haccepts
          · exact Or.inl (List.isEmpty_iff.mp hempty)
          · exact Or.inr haccepts
        · cases h

/-! ## An operation that changes nothing -/

omit [TenantRow Row] in
/-- Without nested writes the rows left are those the operation left. -/
theorem Root.after_of_no_nested {t : Root Row} (ht : t.nested = {}) : t.after = t.rows := by
  unfold Root.after
  split
  · rw [ht]
    simp [Nested.applyTo]
  · rfl

omit [TenantRow Row] in
/-- Nested writes without changes leave the rows alone. -/
theorem Root.after_of_nestedChanges_nil {t : Root Row} (h : t.nestedChanges = []) :
    t.after = t.rows := by
  unfold Root.nestedChanges at h
  unfold Root.after
  split <;> rename_i hret
  · rename_i parent
    rw [hret] at h
    rcases List.append_eq_nil_iff.mp h with ⟨htouched, hcreates⟩
    unfold Nested.applyTo
    rw [List.map_eq_nil_iff.mp hcreates, List.append_nil]
    have hnone := List.filter_eq_nil_iff.mp (List.map_eq_nil_iff.mp htouched)
    rw [List.filterMap_congr (g := some)]
    · exact List.filterMap_some
    · intro r hr
      simp [hnone r hr]
  · rfl

omit [TenantRow Row] in
theorem map_eq_self_of_filter_eq_nil {matching : Row → Bool} {f : Row → Row}
    {rows : List Row} (h : rows.filter matching = []) :
    (rows.map fun r => if matching r then f r else r) = rows := by
  have hnone := List.filter_eq_nil_iff.mp h
  conv_rhs => rw [← List.map_id rows]
  apply List.map_congr_left
  intro r hr
  simp [hnone r hr]

omit [TenantRow Row] in
theorem filter_not_eq_self_of_filter_eq_nil {matching : Row → Bool} {rows : List Row}
    (h : rows.filter matching = []) : (rows.filter fun r => !matching r) = rows := by
  have hnone := List.filter_eq_nil_iff.mp h
  rw [List.filter_eq_self]
  intro r hr
  simp [hnone r hr]

/-- An operation without changes leaves the rows of the model alone. -/
theorem root_rows_of_changes_nil {m : Delegate Row} {uuid : ℕ → Id} {op : Operation}
    {args : Args Row} {rows : List Row} {t : Root Row}
    (ht : root m uuid op args rows = .ok t) (h : t.changes = []) : t.rows = rows := by
  unfold root at ht
  cases op with
  | findUnique | findFirst | findMany | count | aggregate | groupBy =>
      cases ht
      rfl
  | findUniqueOrThrow | findFirstOrThrow =>
      simp only at ht
      split at ht
      · cases ht
      · cases ht
        rfl
  | create =>
      cases ht
      cases h
  | createMany | createManyAndReturn =>
      cases ht
      simp only [insertRoot] at h ⊢
      rw [List.map_eq_nil_iff.mp h, List.append_nil]
  | update =>
      simp only at ht
      split at ht
      · cases ht
      · cases ht
        exact map_eq_self_of_filter_eq_nil (List.map_eq_nil_iff.mp h)
  | updateMany =>
      cases ht
      exact map_eq_self_of_filter_eq_nil (List.map_eq_nil_iff.mp h)
  | upsert =>
      simp only at ht
      split at ht
      · cases ht
        cases h
      · cases ht
        exact map_eq_self_of_filter_eq_nil (List.map_eq_nil_iff.mp h)
  | delete =>
      simp only at ht
      split at ht
      · cases ht
      · cases ht
        exact filter_not_eq_self_of_filter_eq_nil (List.map_eq_nil_iff.mp h)
  | deleteMany =>
      cases ht
      exact filter_not_eq_self_of_filter_eq_nil (List.map_eq_nil_iff.mp h)

/-- A call that returns leaves valid rows valid. -/
theorem exec_valid {m : Delegate Row} {uuid : ℕ → Id} {op : Operation} {args : Args Row}
    {db : Store Row} {out : Outcome Row} (hdb : db.accepts db.rows = true)
    (hout : exec m uuid op args db = .ok out) : db.accepts out.rows = true := by
  rcases exec_eq_ok hout with ⟨t, ht, rfl, hwritten | haccepts⟩
  · rcases List.append_eq_nil_iff.mp hwritten with ⟨hchanges, hnested⟩
    have hrows : (t.outcome args).rows = db.rows :=
      (Root.after_of_nestedChanges_nil hnested).trans (root_rows_of_changes_nil ht hchanges)
    rw [hrows]
    exact hdb
  · exact haccepts

/-! ## Which operations are contained -/

section Contained

variable {T : Id} {m : Delegate Row} {args : Args Row}

theorem Nested.writesOwn_default (T : Id) (stored : Row → Prop) (parent : Row) :
    ({} : Nested Row).WritesOwn T stored parent := by
  constructor
  · intro c hc
    cases hc
  · intro c hc
    cases hc
  · intro c c' _ hc
    cases hc

theorem contained_find {found : List Row} (hfound : ∀ r ∈ found, owned T r = true)
    (hreads : ∀ r ∈ found, args.ReadsOwn T r) (rows : List Row) :
    Contained T args rows (.ok (findRoot found rows)) (.ok (findRoot found (own T rows))) := by
  refine .done ⟨hfound, ?_, ?_, hreads, ?_⟩ ⟨rfl, rfl, rfl, rfl, rfl, rfl⟩
  · intro c hc
    cases hc
  · intro c hc
    cases hc
  · intro parent _
    exact Nested.writesOwn_default T _ parent

/-- The operations that read the rows a condition selects are contained when the
condition selects rows of {lit}`T` whose relation reads stay in {lit}`T`. -/
theorem contained_of_read {op : Operation} {rows : List Row}
    (hop : op ∈ [.findUnique, .findUniqueOrThrow, .findFirst, .findFirstOrThrow, .findMany])
    (hmatch : ∀ r ∈ rows, args.whereArg.admits m r = true → owned T r = true)
    (hreads : op = .findMany ∧ args.take = some 0 ∨
      ∀ r ∈ rows, args.whereArg.admits m r = true → args.ReadsOwn T r)
    (uuid : ℕ → Id) :
    Contained T args rows (root m uuid op args rows) (root m uuid op args (own T rows)) := by
  have hselect := filter_own hmatch
  have hmatched : ∀ r ∈ rows.filter (args.whereArg.admits m),
      r ∈ rows ∧ args.whereArg.admits m r = true := fun r hr => List.mem_filter.mp hr
  have hfirst : ∀ r ∈ ({ args with take := some 1 } : Args Row).arrange
      (rows.filter (args.whereArg.admits m)), r ∈ rows ∧ args.whereArg.admits m r = true :=
    fun r hr => hmatched r (Args.mem_arrange hr)
  have htake : ∀ r ∈ (rows.filter (args.whereArg.admits m)).take 1,
      r ∈ rows ∧ args.whereArg.admits m r = true :=
    fun r hr => hmatched r (List.mem_of_mem_take hr)
  simp only [List.mem_cons, List.not_mem_nil, or_false] at hop
  rcases hop with rfl | rfl | rfl | rfl | rfl
  · simp only [reduceCtorEq, false_and, false_or] at hreads
    simp only [root, hselect]
    exact contained_find (fun r hr => hmatch r (htake r hr).1 (htake r hr).2)
      (fun r hr => hreads r (htake r hr).1 (htake r hr).2) rows
  · simp only [reduceCtorEq, false_and, false_or] at hreads
    simp only [root, hselect]
    split
    · exact .refused _
    · exact contained_find (fun r hr => hmatch r (htake r hr).1 (htake r hr).2)
        (fun r hr => hreads r (htake r hr).1 (htake r hr).2) rows
  · simp only [reduceCtorEq, false_and, false_or] at hreads
    simp only [root, hselect]
    exact contained_find (fun r hr => hmatch r (hfirst r hr).1 (hfirst r hr).2)
      (fun r hr => hreads r (hfirst r hr).1 (hfirst r hr).2) rows
  · simp only [reduceCtorEq, false_and, false_or] at hreads
    simp only [root, hselect]
    split
    · exact .refused _
    · exact contained_find (fun r hr => hmatch r (hfirst r hr).1 (hfirst r hr).2)
        (fun r hr => hreads r (hfirst r hr).1 (hfirst r hr).2) rows
  · simp only [root, hselect]
    have hwindow : ∀ r ∈ args.arrange (rows.filter (args.whereArg.admits m)),
        r ∈ rows ∧ args.whereArg.admits m r = true :=
      fun r hr => hmatched r (Args.mem_arrange hr)
    apply contained_find
    · exact fun r hr => hmatch r (hwindow r hr).1 (hwindow r hr).2
    · intro r hr
      rcases hreads with ⟨_, hzero⟩ | hreads
      · simp [Args.arrange, hzero] at hr
      · exact hreads r (hwindow r hr).1 (hwindow r hr).2

theorem contained_count {rows : List Row}
    (hmatch : ∀ r ∈ rows, args.whereArg.admits m r = true → owned T r = true)
    (uuid : ℕ → Id) :
    Contained T args rows (root m uuid .count args rows)
      (root m uuid .count args (own T rows)) := by
  simp only [root, filter_own hmatch]
  refine .done ⟨?_, ?_, ?_, ?_, ?_⟩ ⟨rfl, rfl, rfl, rfl, rfl, rfl⟩
  · intro r hr
    have hmem := List.mem_filter.mp (Args.mem_arrange hr)
    exact hmatch r hmem.1 hmem.2
  · intro c hc
    cases hc
  · intro c hc
    cases hc
  · intro r hr
    cases hr
  · intro r hr
    cases hr

theorem contained_create {uuid : ℕ → Id}
    (hcreated : owned T (args.data.apply (m.blank (uuid 0))) = true)
    (hreads : args.ReadsOwn T (args.data.apply (m.blank (uuid 0))))
    (hnested : args.data.nested.WritesOwn T (fun _ => True)
      (args.data.apply (m.blank (uuid 0)))) (rows : List Row) :
    Contained T args rows (root m uuid .create args rows)
      (root m uuid .create args (own T rows)) := by
  have hadd : own T (rows ++ [args.data.apply (m.blank (uuid 0))]) =
      own T rows ++ [args.data.apply (m.blank (uuid 0))] :=
    own_append_of_owned (by simpa using hcreated) rows
  have hframe : others T (rows ++ [args.data.apply (m.blank (uuid 0))]) = others T rows :=
    others_append_of_owned (by simpa using hcreated) rows
  refine .done ⟨?_, ?_, ?_, ?_, ?_⟩ ⟨rfl, rfl, rfl, rfl, hadd.symm, hframe⟩
  · intro r hr
    cases hr
  · rintro c hc r hr
    rcases List.mem_singleton.mp hc with rfl
    cases hr
  · rintro c hc r hr
    rcases List.mem_singleton.mp hc with rfl
    cases hr
    exact hcreated
  · intro r hr
    rcases List.mem_singleton.mp hr with rfl
    exact hreads
  · intro r hr
    rcases List.mem_singleton.mp hr with rfl
    exact ⟨hnested.creates, hnested.touches, fun c c' _ => hnested.change c c' trivial⟩

theorem contained_createManyAndReturn {uuid : ℕ → Id}
    (hcreated : ∀ d ∈ args.dataMany, ∀ id, owned T (d.apply (m.blank id)) = true ∧
      args.ReadsOwn T (d.apply (m.blank id))) (rows : List Row) :
    Contained T args rows (root m uuid .createManyAndReturn args rows)
      (root m uuid .createManyAndReturn args (own T rows)) := by
  have hmem : ∀ r ∈ args.dataMany.mapIdx (fun i d => d.apply (m.blank (uuid i))),
      owned T r = true ∧ args.ReadsOwn T r := by
    intro r hr
    rcases List.mem_mapIdx.mp hr with ⟨i, hi, rfl⟩
    exact hcreated _ (List.getElem_mem hi) (uuid i)
  have hadd := own_append_of_owned (fun r hr => (hmem r hr).1) rows
  have hframe := others_append_of_owned (fun r hr => (hmem r hr).1) rows
  refine .done ⟨?_, ?_, ?_, ?_, ?_⟩ ⟨rfl, rfl, rfl, rfl, hadd.symm, hframe⟩
  · intro r hr
    cases hr
  · rintro c hc r hr
    rcases List.mem_map.mp hc with ⟨r', _, rfl⟩
    cases hr
  · rintro c hc r hr
    rcases List.mem_map.mp hc with ⟨r', hr', rfl⟩
    cases hr
    exact (hmem _ hr').1
  · exact fun r hr => (hmem r hr).2
  · intro parent _
    exact Nested.writesOwn_default T _ parent

theorem contained_update {uuid : ℕ → Id} {rows : List Row}
    (hmatch : ∀ r ∈ rows, args.whereArg.admits m r = true → owned T r = true)
    (hkeep : ∀ r ∈ rows, args.whereArg.admits m r = true →
      owned T (args.data.apply r) = true ∧ args.ReadsOwn T (args.data.apply r) ∧
        args.data.nested.WritesOwn T
          (fun c => args.whereArg.admits m c = false ∨
            ∃ r', args.whereArg.admits m r' = true ∧ args.data.apply r' = c)
          (args.data.apply r)) :
    Contained T args rows (root m uuid .update args rows)
      (root m uuid .update args (own T rows)) := by
  have hselect := filter_own hmatch
  have hrows := own_map_update hmatch fun r hmem hr => (hkeep r hmem hr).1
  have hframe := others_map_update hmatch fun r hmem hr => (hkeep r hmem hr).1
  simp only [root, hselect]
  cases hmatched : rows.filter (args.whereArg.admits m) with
  | nil => exact .refused _
  | cons target others =>
      have htarget : target ∈ rows ∧ args.whereArg.admits m target = true :=
        List.mem_filter.mp (hmatched ▸ List.mem_cons_self)
      refine .done ⟨?_, ?_, ?_, ?_, ?_⟩
        ⟨rfl, rfl, rfl,
          congrArg (List.map fun r => (some r, some (args.data.apply r))) hselect,
          hrows.symm, hframe⟩
      · intro r hr
        rcases List.mem_singleton.mp hr with rfl
        exact hmatch _ htarget.1 htarget.2
      · rintro c hc r hr
        rcases List.mem_map.mp hc with ⟨r', hr', rfl⟩
        cases hr
        exact hmatch _ (List.mem_filter.mp hr').1 (List.mem_filter.mp hr').2
      · rintro c hc r hr
        rcases List.mem_map.mp hc with ⟨r', hr', rfl⟩
        cases hr
        exact (hkeep _ (List.mem_filter.mp hr').1 (List.mem_filter.mp hr').2).1
      · intro r hr
        rcases List.mem_singleton.mp hr with rfl
        exact (hkeep _ htarget.1 htarget.2).2.1
      · intro r hr
        rcases List.mem_singleton.mp hr with rfl
        have hnested := (hkeep _ htarget.1 htarget.2).2.2
        refine ⟨hnested.creates, hnested.touches, ?_⟩
        intro c c' hc
        apply hnested.change c c'
        rcases List.mem_map.mp hc with ⟨r, _, rfl⟩
        cases hm : args.whereArg.admits m r with
        | true => exact Or.inr ⟨r, hm, by simp⟩
        | false => exact Or.inl (by simpa using hm)

theorem contained_delete {uuid : ℕ → Id} {rows : List Row}
    (hmatch : ∀ r ∈ rows, args.whereArg.admits m r = true → owned T r = true)
    (hreads : ∀ r ∈ rows, args.whereArg.admits m r = true → args.ReadsOwn T r) :
    Contained T args rows (root m uuid .delete args rows)
      (root m uuid .delete args (own T rows)) := by
  have hselect := filter_own hmatch
  have hmatched : ∀ r ∈ (rows.filter (args.whereArg.admits m)).take 1,
      r ∈ rows ∧ args.whereArg.admits m r = true :=
    fun r hr => List.mem_filter.mp (List.mem_of_mem_take hr)
  simp only [root, hselect]
  split
  · exact .refused _
  · refine .done ⟨?_, ?_, ?_, ?_, ?_⟩
      ⟨rfl, rfl, rfl, congrArg (List.map fun r => (some r, none)) hselect, ?_, ?_⟩
    · exact fun r hr => hmatch r (hmatched r hr).1 (hmatched r hr).2
    · rintro c hc r hr
      rcases List.mem_map.mp hc with ⟨r', hr', rfl⟩
      cases hr
      exact hmatch _ (List.mem_filter.mp hr').1 (List.mem_filter.mp hr').2
    · rintro c hc r hr
      rcases List.mem_map.mp hc with ⟨r', _, rfl⟩
      cases hr
    · exact fun r hr => hreads r (hmatched r hr).1 (hmatched r hr).2
    · intro parent _
      exact Nested.writesOwn_default T _ parent
    · exact (own_filter T _ rows).symm
    · apply others_filter
      intro r hmem hr
      cases hm : args.whereArg.admits m r with
      | true => rw [hmatch r hmem hm] at hr; cases hr
      | false => rfl

end Contained

/-! ## The extension in a tenant's context -/

section Holds

variable {σ : Type} [Engine σ Row] {context : TenantContext} {T : Id} {m : Delegate Row}

/-- What the extension does with a call on a scoped model in a tenant's context. -/
theorem call_of_holds (hctx : context.Holds T) (hm : m.model ∉ unscopedModels)
    (uuid : ℕ → Id) (op : Operation) (args : Args Row) (db : σ) :
    call context m uuid op args db =
      if op ∈ unsupportedOperations then .error (unsupportedError op m.model)
      else if op ∈ filteredOperations then
        Engine.exec m uuid op { args with whereArg := args.whereArg.withTenant T } db
      else if op = .create then
        if args.data.crossTenant T then .error crossTenantError
        else Engine.exec m uuid op { args with data := args.data.withTenant T } db
      else Engine.exec m uuid op args db := by
  have htruthy : truthy (some T) = true := by
    simp [truthy, hctx.nonempty]
  unfold call scope
  simp only [List.contains_eq_mem, hm, decide_false, Bool.false_eq_true, if_false,
    hctx.tenantId, htruthy, decide_eq_true_eq]
  by_cases hblocked : op ∈ unsupportedOperations
  · simp only [if_pos hblocked]
  · by_cases hfiltered : op ∈ filteredOperations
    · simp only [if_neg hblocked, if_pos hfiltered]
    · by_cases hcreate : op = .create
      · cases hcross : args.data.crossTenant T with
        | true => simp only [if_neg hblocked, if_neg hfiltered, if_pos hcreate, if_true]
        | false =>
            simp only [if_neg hblocked, if_neg hfiltered, if_pos hcreate,
              Bool.false_eq_true, if_false]
      · simp only [if_neg hblocked, if_neg hfiltered, if_neg hcreate]

/-- The arguments that reach the client. -/
def Args.forTenant (args : Args Row) (T : Id) (op : Operation) : Args Row :=
  if op ∈ filteredOperations then { args with whereArg := args.whereArg.withTenant T }
  else if op = .create then { args with data := args.data.withTenant T }
  else args

/-- Whether the extension itself throws. -/
def Args.blocked (args : Args Row) (T : Id) (op : Operation) : Prop :=
  op ∈ unsupportedOperations ∨ op = .create ∧ args.data.crossTenant T = true

theorem call_of_blocked (hctx : context.Holds T) (hm : m.model ∉ unscopedModels)
    {op : Operation} {args : Args Row} (hblocked : args.blocked T op) (uuid : ℕ → Id) (db : σ) :
    call context m uuid op args db = .error
      (if op ∈ unsupportedOperations then unsupportedError op m.model else crossTenantError) := by
  rw [call_of_holds hctx hm]
  rcases hblocked with hop | ⟨rfl, hcross⟩
  · rw [if_pos hop, if_pos hop]
  · rw [hcross]
    rfl

theorem call_of_not_blocked (hctx : context.Holds T) (hm : m.model ∉ unscopedModels)
    {op : Operation} {args : Args Row} (hblocked : ¬args.blocked T op)
    (uuid : ℕ → Id) (db : σ) :
    call context m uuid op args db = Engine.exec m uuid op (args.forTenant T op) db := by
  rw [call_of_holds hctx hm, if_neg fun hop => hblocked (Or.inl hop)]
  unfold Args.forTenant
  by_cases hfiltered : op ∈ filteredOperations
  · rw [if_pos hfiltered, if_pos hfiltered]
  · rw [if_neg hfiltered, if_neg hfiltered]
    by_cases hcreate : op = .create
    · rw [if_pos hcreate, if_pos hcreate, if_neg fun hcross => hblocked (Or.inr ⟨hcreate, hcross⟩)]
    · rw [if_neg hcreate, if_neg hcreate]

@[simp]
theorem Args.unknownColumn_forTenant (args : Args Row) (T : Id) (op : Operation) :
    (args.forTenant T op).unknownColumn m = args.unknownColumn m := by
  unfold Args.forTenant
  split
  · rfl
  · split <;> rfl

/-- Confined arguments keep the operation inside {lit}`T`. -/
theorem contained_of_confined {op : Operation} {args : Args Row}
    (hblocked : ¬args.blocked T op) (hconf : ConfinedArgs T m args op)
    (uuid : ℕ → Id) (rows : List Row) :
    Contained T (args.forTenant T op) rows (root m uuid op (args.forTenant T op) rows)
      (root m uuid op (args.forTenant T op) (own T rows)) := by
  have howned : ∀ r, args.admitsOwn m T r = true → owned T r = true :=
    fun r hr => Args.owned_of_admitsOwn hr
  cases op with
  | findUnique | findUniqueOrThrow | findFirstOrThrow =>
      refine contained_of_read (by simp) ?_ (Or.inr ?_) uuid
      · exact fun r _ hr => (hconf r hr).1
      · exact fun r _ hr => (hconf r hr).2
  | findFirst =>
      refine contained_of_read (by simp) ?_ (Or.inr ?_) uuid
      · exact fun r _ => howned r
      · exact fun r _ => hconf r
  | findMany =>
      refine contained_of_read (by simp) ?_ ?_ uuid
      · exact fun r _ => howned r
      · exact hconf.imp (fun htake => ⟨rfl, htake⟩) fun hreads r _ => hreads r
  | count =>
      refine contained_count ?_ uuid
      exact fun r _ => howned r
  | create =>
      have hconf' := hconf.resolve_left fun hcross => hblocked (Or.inr ⟨rfl, hcross⟩)
      have hnew : owned T ((args.data.withTenant T).apply (m.blank (uuid 0))) = true := by
        simp [owned, Payload.apply, Payload.withTenant, TenantRow.tenantId_setTenantId]
      exact contained_create hnew (hconf' (uuid 0)).1 (hconf' (uuid 0)).2 rows
  | createManyAndReturn => exact contained_createManyAndReturn hconf rows
  | update =>
      refine contained_update ?_ ?_
      · exact fun r _ => howned r
      · exact fun r _ => hconf r
  | delete =>
      refine contained_delete ?_ ?_
      · exact fun r _ => howned r
      · exact fun r _ => hconf r
  | createMany | updateMany | upsert | deleteMany | aggregate | groupBy =>
      exact absurd (Or.inl (by simp [unsupportedOperations])) hblocked

end Holds

end Database
end Eleva
