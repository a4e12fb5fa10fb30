import Eleva.Database.TenantScope

/-!
# Database - Foreign keys that act

The schema gives every relation an {lit}`onDelete` action, and every foreign key of the
migrations is {lit}`ON UPDATE CASCADE`.  A statement that deletes or re-keys rows therefore
goes on in the rows that refer to them: they are pointed to the new key, deleted or set to
null, or they refuse the statement.  What a deletion takes along can be referred to in turn.

Main results:

- Definition {lit}`Schema.cascade`: what the foreign keys do after a statement.
- Definition {lit}`execute`: a whole operation on tables that keep to a schema.
- Theorem {lit}`execute_of_no_foreignKeys`: without foreign keys, the operation that the
  services run on the table they address.
-/

namespace Eleva
namespace Database

/-- The {lit}`onDelete` action of a relation. -/
inductive ReferentialAction where
  | Cascade
  | Restrict
  | SetNull
deriving DecidableEq, Repr

/-- A foreign key: the column that refers, the key that it names among the rows of another model,
and the row with the column written.  The column that holds the tenant of a row refers to rows of
no tenant. -/
structure ForeignKey (Row : Type) [TenantRow Row] where
  column : Row → Option String
  key : Row → Option String
  onDelete : ReferentialAction
  write : Option String → Row → Row
  tenantId_write : (∀ v r, TenantRow.tenantId (write v r) = TenantRow.tenantId r) ∨
    ∀ r v, key r = some v → TenantRow.tenantId r = none

/-- The constraints of a schema: the keys that are unique, and the foreign keys, which name such
keys. -/
structure Schema (Row : Type) [TenantRow Row] where
  uniqueKeys : List (Row → Option String) := []
  foreignKeys : List (ForeignKey Row) := []
  referenced : ∀ fk ∈ foreignKeys, fk.key ∈ uniqueKeys := by simp

/-- A statement: the rows before it, its changes and the rows it leaves. -/
structure Statement (Row : Type) where
  before : List Row
  changes : List (Change Row)
  after : List Row

variable {Row : Type} [TenantRow Row]

/-- Whether every reference among the rows names one of them. -/
def Schema.resolves (schema : Schema Row) (rows : List Row) : Bool :=
  schema.foreignKeys.all fun fk =>
    (rows.filterMap fk.column).all fun v => (rows.filterMap fk.key).contains v

/-- Whether the rows keep to the schema. -/
def Schema.accepts (schema : Schema Row) (rows : List Row) : Bool :=
  schema.uniqueKeys.all (fun key => decide (rows.filterMap key).Nodup) && schema.resolves rows

/-- The rows of a database that keep to a schema. -/
structure Tables (schema : Schema Row) where
  rows : List Row
  accepted : schema.accepts rows = true

/-- The primary key of a model. -/
def Delegate.primaryKey (m : Delegate Row) (r : Row) : Option String :=
  if m.isRow r then some (TenantRow.id r) else none

theorem Delegate.primaryKey_eq_some {m : Delegate Row} {r : Row} {v : String} :
    m.primaryKey r = some v ↔ m.isRow r = true ∧ TenantRow.id r = v := by
  unfold Delegate.primaryKey
  split <;> rename_i hrow <;> simp [hrow]

/-! ## What the foreign keys do -/

/-- Whether the statement took the key {lit}`v` away. -/
def ForeignKey.gone (fk : ForeignKey Row) (s : Statement Row) (v : String) : Bool :=
  (s.before.filterMap fk.key).contains v && !(s.after.filterMap fk.key).contains v

/-- The key that the row with the key {lit}`v` has after the changes, unless they deleted it. -/
def ForeignKey.renamed (fk : ForeignKey Row) (changes : List (Change Row)) (v : String) :
    Option String :=
  (changes.find? fun c => c.1.bind fk.key == some v).bind fun c => c.2.bind fk.key

/-- What a foreign key makes of a row whose key is gone, or now another.  A reference that nothing
resolves and that is restricted stays, and the constraints refuse it in the end.  Only the deletion
of a tenant takes along rows that restrict others which it takes along, so elsewhere it is the same
to refuse them at once. -/
def ForeignKey.act (fk : ForeignKey Row) (new : Option String) (r : Row) : Option Row :=
  match new, fk.onDelete with
  | some new, _ => some (fk.write (some new) r)
  | none, .Cascade => none
  | none, .SetNull => some (fk.write none r)
  | none, .Restrict => some r

/-- What a foreign key makes of a row after the statement. -/
def ForeignKey.follow (fk : ForeignKey Row) (s : Statement Row) (r : Row) : Option Row :=
  match (fk.column r).filter (fk.gone s) with
  | none => some r
  | some v => fk.act (fk.renamed s.changes v) r

/-- What the foreign keys make of a row after the statement. -/
def Schema.follow (schema : Schema Row) (s : Statement Row) (r : Row) : Option Row :=
  schema.foreignKeys.foldlM (fun r fk => fk.follow s r) r

/-- Whether a foreign key of the row names a key that the statement took away. -/
def Schema.reaches (schema : Schema Row) (s : Statement Row) (r : Row) : Bool :=
  schema.foreignKeys.any fun fk => (fk.column r).any (fk.gone s)

/-- What the foreign keys do once the statement is made. -/
def Schema.next (schema : Schema Row) (s : Statement Row) : Statement Row where
  before := s.after
  changes := (s.after.filter (schema.reaches s)).map fun r => (some r, schema.follow s r)
  after := s.after.filterMap (schema.follow s)

/-- The changes that follow the statement, and the rows they leave, for as long as rows are deleted:
others may refer to them. -/
def Schema.followUp (schema : Schema Row) : ℕ → Statement Row → List (Change Row) × List Row
  | 0, s => ([], s.after)
  | n + 1, s =>
      let next := schema.next s
      if next.after.length < s.after.length then
        let later := schema.followUp n next
        (next.changes ++ later.1, later.2)
      else (next.changes, next.after)

/-- All that the foreign keys do after the statement, which cannot delete more rows than it
leaves. -/
def Schema.cascade (schema : Schema Row) (s : Statement Row) : List (Change Row) × List Row :=
  schema.followUp (s.after.length + 1) s

/-! ## Operations -/

/-- The statement that an operation makes with its nested writes. -/
def Root.statement (t : Root Row) (rows : List Row) : Statement Row where
  before := rows
  changes := t.changes ++ t.nestedChanges
  after := t.after

/-- The rows that relation arguments read: a deletion reads them before it deletes. -/
def Operation.shown (op : Operation) (before after : List Row) : List Row :=
  if op = .delete then before else after

/-- The outcome of an operation once the foreign keys have acted. -/
def Root.settled (t : Root Row) (schema : Schema Row) (op : Operation) (args : Args Row)
    (rows : List Row) : Outcome Row :=
  let followed := schema.cascade (t.statement rows)
  let related := args.related (op.shown rows followed.2)
  { result := match t.counted with
      | some n => .count n
      | none => .rows (t.returned.map fun r => (r, related r))
    read := t.seen ++ t.returned.flatMap related
    written := t.changes ++ t.nestedChanges ++ followed.1
    rows := followed.2 }

/-- Run an operation on tables that keep to a schema: it is refused when the foreign keys leave
rows that do not. -/
def execute {schema : Schema Row} (m : Delegate Row) (uuid : ℕ → Id) (op : Operation)
    (args : Args Row) (db : Tables schema) : Except ClientError (Outcome Row) :=
  if args.unknownColumn m then .error (.unknownArgument "deletedAt")
  else
    match root m uuid op args db.rows with
    | .error e => .error e
    | .ok t =>
        if schema.accepts (t.settled schema op args db.rows).rows then
          .ok (t.settled schema op args db.rows)
        else .error .constraintViolation

instance (schema : Schema Row) : Engine (Tables schema) Row where
  exec := execute
  leave _ db rows := if h : schema.accepts rows = true then ⟨rows, h⟩ else db

/-! ## The foreign keys step by step -/

/-- Any number of steps beyond the rows that are there will do. -/
theorem Schema.followUp_eq (schema : Schema Row) {n n' : ℕ} {s : Statement Row}
    (hn : s.after.length < n) (hn' : s.after.length < n') :
    schema.followUp n s = schema.followUp n' s := by
  induction n generalizing n' s with
  | zero => exact absurd hn (Nat.not_lt_zero _)
  | succ n ih =>
      cases n' with
      | zero => exact absurd hn' (Nat.not_lt_zero _)
      | succ n' =>
          simp only [Schema.followUp]
          by_cases hlt : (schema.next s).after.length < s.after.length
          · rw [if_pos hlt, if_pos hlt, @ih n' (schema.next s) (by omega) (by omega)]
          · rw [if_neg hlt, if_neg hlt]

/-- The foreign keys act once, and go on where rows are gone. -/
theorem Schema.cascade_eq (schema : Schema Row) (s : Statement Row) :
    schema.cascade s =
      if (schema.next s).after.length < s.after.length then
        ((schema.next s).changes ++ (schema.cascade (schema.next s)).1,
          (schema.cascade (schema.next s)).2)
      else ((schema.next s).changes, (schema.next s).after) := by
  unfold Schema.cascade
  rw [Schema.followUp]
  by_cases hlt : (schema.next s).after.length < s.after.length
  · have hlater := schema.followUp_eq (n := s.after.length)
      (s := schema.next s) hlt (Nat.lt_succ_self _)
    simp only
    rw [if_pos hlt, if_pos hlt, hlater]
  · simp only
    rw [if_neg hlt, if_neg hlt]

/-! ## When nothing follows -/

theorem ForeignKey.follow_of_filter {fk : ForeignKey Row} {s : Statement Row} {r : Row}
    (h : (fk.column r).filter (fk.gone s) = none) : fk.follow s r = some r := by
  unfold ForeignKey.follow
  rw [h]

omit [TenantRow Row] in
theorem foldlM_fixed {κ : Type} {f : Row → κ → Option Row} {keys : List κ} {r : Row}
    (h : ∀ k ∈ keys, f r k = some r) : keys.foldlM f r = some r := by
  induction keys with
  | nil => rfl
  | cons k keys ih =>
      rw [List.foldlM_cons, h k List.mem_cons_self]
      exact ih fun k' hk' => h k' (List.mem_cons_of_mem k hk')

/-- Nothing follows a statement that takes no key away. -/
theorem Schema.cascade_of_not_gone {schema : Schema Row} {s : Statement Row}
    (h : ∀ fk ∈ schema.foreignKeys, ∀ v, fk.gone s v = false) :
    schema.cascade s = ([], s.after) := by
  have hfilter : ∀ fk ∈ schema.foreignKeys, ∀ r, (fk.column r).filter (fk.gone s) = none := by
    intro fk hfk r
    rw [Option.filter_eq_none_iff]
    intro v _
    simp [h fk hfk v]
  have hfollow : schema.follow s = some := by
    funext r
    exact foldlM_fixed fun fk hfk => ForeignKey.follow_of_filter (hfilter fk hfk r)
  have hreaches : schema.reaches s = fun _ => false := by
    funext r
    unfold Schema.reaches
    rw [List.any_eq_false]
    intro fk hfk
    cases fk.column r with
    | none => simp
    | some v => simp [h fk hfk v]
  have hnext : schema.next s = ⟨s.after, [], s.after⟩ := by
    unfold Schema.next
    rw [hfollow, hreaches]
    simp
  rw [Schema.cascade_eq, hnext, if_neg (lt_irrefl _)]

/-- Nothing follows a statement that leaves the rows as they are. -/
theorem Schema.cascade_of_unchanged (schema : Schema Row) (changes : List (Change Row))
    (rows : List Row) : schema.cascade ⟨rows, changes, rows⟩ = ([], rows) := by
  refine schema.cascade_of_not_gone fun fk _ v => ?_
  unfold ForeignKey.gone
  exact Bool.and_not_self _

/-- An operation that leaves the rows as they are leaves them so in the end. -/
theorem Root.settled_rows_of_unchanged {schema : Schema Row} {t : Root Row} {rows : List Row}
    (h : t.after = rows) (op : Operation) (args : Args Row) :
    (t.settled schema op args rows).rows = rows := by
  unfold Root.settled Root.statement
  simp only
  rw [h, schema.cascade_of_unchanged]

/-- Without foreign keys, an operation does what it does on the table of the services; a deletion
hands back no relations there. -/
theorem execute_of_no_foreignKeys {schema : Schema Row} (h : schema.foreignKeys = [])
    (m : Delegate Row) (uuid : ℕ → Id) {op : Operation} {args : Args Row}
    (hdelete : op = .delete → args.includes = fun _ _ => false) (db : Tables schema) :
    execute m uuid op args db =
      exec m uuid op args { rows := db.rows, uniqueKeys := schema.uniqueKeys } := by
  let store : Store Row := { rows := db.rows, uniqueKeys := schema.uniqueKeys }
  have haccepts : ∀ rows, store.accepts rows = schema.accepts rows := by
    intro rows
    simp [store, Store.accepts, Schema.accepts, Schema.resolves, h]
  unfold execute
  cases hu : args.unknownColumn m with
  | true => rw [exec_of_unknownColumn hu, if_pos rfl]
  | false =>
      rw [exec_of_knownColumn hu, if_neg Bool.false_ne_true]
      cases ht : root m uuid op args db.rows with
      | error e => rfl
      | ok t =>
          have hsettled : t.settled schema op args db.rows = t.outcome args := by
            have hrelated : args.related (op.shown db.rows t.after) = args.related t.after := by
              funext r
              unfold Operation.shown
              split <;> rename_i hop
              · simp [Args.related, hdelete hop]
              · rfl
            unfold Root.settled Root.outcome
            rw [schema.cascade_of_not_gone (by simp [h])]
            cases t.counted <;> simp [Root.statement, hrelated]
          have hrows : (t.outcome args).rows = t.after := rfl
          have hwritten : (t.outcome args).written = [] → schema.accepts t.after = true := by
            intro hwritten
            rcases List.append_eq_nil_iff.mp hwritten with ⟨hchanges, hnested⟩
            rw [Root.after_of_nestedChanges_nil hnested, root_rows_of_changes_nil ht hchanges]
            exact db.accepted
          simp only [hsettled, hrows]
          rw [haccepts]
          cases hok : schema.accepts t.after with
          | true => simp
          | false =>
              have hne : (t.outcome args).written ≠ [] := fun hnil => by
                rw [hwritten hnil] at hok
                cases hok
              simp [hne]

/-- What an operation that returned has done. -/
theorem execute_eq_ok {schema : Schema Row} {m : Delegate Row} {uuid : ℕ → Id} {op : Operation}
    {args : Args Row} {db : Tables schema} {out : Outcome Row}
    (h : execute m uuid op args db = .ok out) :
    ∃ t, root m uuid op args db.rows = .ok t ∧ out = t.settled schema op args db.rows ∧
      schema.accepts out.rows = true := by
  unfold execute at h
  split at h
  · cases h
  · split at h
    · cases h
    · rename_i t ht
      split at h
      · rename_i haccepted
        cases h
        exact ⟨t, ht, rfl, haccepted⟩
      · cases h

end Database
end Eleva
