import Mathlib.Data.List.Basic
import Mathlib.Data.List.Nodup
import Mathlib.Data.List.Sort

/-!
# Database - The generated Prisma client

The client operations that the repository's code goes through, over rows of any
model.  A {lit}`where` object and a {lit}`data` object keep apart the keys that the
repository's code overrides by object spread ({lit}`id`, {lit}`tenantId`,
{lit}`deletedAt`) and carry every other condition or assignment as a function of
the row.  A condition on related rows (a relation filter, an ordering by a relation,
a cursor) is the function that the client makes of it on the rows it finds.  Relation
arguments ({lit}`include`, nested writes) name the related rows they reach.

Every operation reports, next to its result, the rows it read and the row changes
it made, so that isolation can be stated about them.

Main results:

- Definition {lit}`root`: what each operation does to the model it addresses.
- Definition {lit}`exec`: the whole operation with its relation arguments, on the table
  that a service addresses, refused when a constraint fails on the rows it would leave.
- Class {lit}`Engine`: the kinds of databases that operations run on.
-/

namespace Eleva
namespace Database

/-- UUID columns, as the texts in which the database returns them.  A request may spell the digits
of a uuid in another case and still names that row: an operation that goes on to use the text of
the request takes it as a parameter of its own. -/
abbrev Id := String

/-- A point in time, in milliseconds. -/
abbrev Timestamp := Int

/-- The columns every tenant-owned model has.  Writing {lit}`none` concerns the
models whose {lit}`tenantId` is nullable. -/
class TenantRow (Row : Type) where
  id : Row → Id
  tenantId : Row → Option Id
  setTenantId : Option Id → Row → Row
  tenantId_setTenantId : ∀ t r, tenantId (setTenantId (some t) r) = some t
  id_setTenantId : ∀ t r, id (setTenantId t r) = id r

/-- A nullable {lit}`deletedAt` column. -/
structure DeletedAtColumn (Row : Type) [TenantRow Row] where
  get : Row → Option Timestamp
  set : Option Timestamp → Row → Row
  get_set : ∀ t r, get (set t r) = t
  id_set : ∀ t r, TenantRow.id (set t r) = TenantRow.id r
  tenantId_set : ∀ t r, TenantRow.tenantId (set t r) = TenantRow.tenantId r

/-- One model of the client: its name, which rows are its own, the row of column
defaults for a generated id, and its {lit}`deletedAt` column if it has one. -/
structure Delegate (Row : Type) [TenantRow Row] where
  model : String
  isRow : Row → Bool
  blank : Id → Row
  deletedAt : Option (DeletedAtColumn Row) := none

/-- A key of a {lit}`where` object: missing, present with the value
{lit}`undefined` (no constraint), or a filter on the column. -/
inductive ColumnKey (α : Type) where
  | absent
  | undefined
  | filter (holds : α → Bool)

/-- Whether a column value passes the key. -/
def ColumnKey.admits {α : Type} : ColumnKey α → α → Bool
  | .absent, _ => true
  | .undefined, _ => true
  | .filter holds, a => holds a

/-- A {lit}`where` object.  {lit}`rest` is every condition that is not on one of the three keys,
relation filters and cursors as they stand on the rows at hand. -/
structure Where (Row : Type) where
  id : Option Id := none
  tenantId : ColumnKey (Option Id) := .absent
  deletedAt : ColumnKey (Option Timestamp) := .absent
  rest : Row → Bool := fun _ => true

/-- Nested writes of a {lit}`data` object: rows created with the written row, and
related rows that are changed or, by {lit}`none`, deleted with it. -/
structure Nested (Row : Type) where
  creates : Row → List Row := fun _ => []
  touches : Row → Row → Bool := fun _ _ => false
  change : Row → Option Row := some

/-- A {lit}`data` object. -/
structure Payload (Row : Type) [TenantRow Row] where
  tenantId : Option (Option Id) := none
  assign : Row → Row := fun r => r
  assign_tenantId : ∀ r, TenantRow.tenantId (assign r) = TenantRow.tenantId r := by
    intro r; rfl
  nested : Nested Row := {}

/-- The argument object of an operation.  {lit}`includes r c` says that a relation
read of {lit}`r` reaches {lit}`c`; an ordering by a relation is the order that it puts
on the rows at hand. -/
structure Args (Row : Type) [TenantRow Row] where
  whereArg : Where Row := {}
  data : Payload Row := {}
  dataMany : List (Payload Row) := []
  create : Payload Row := {}
  update : Payload Row := {}
  orderBy : Option (Row → Row → Bool) := none
  skip : ℕ := 0
  take : Option ℕ := none
  includes : Row → Row → Bool := fun _ _ => false

/-- The model operations of the client. -/
inductive Operation where
  | findUnique
  | findUniqueOrThrow
  | findFirst
  | findFirstOrThrow
  | findMany
  | count
  | create
  | createMany
  | createManyAndReturn
  | update
  | updateMany
  | upsert
  | delete
  | deleteMany
  | aggregate
  | groupBy
deriving DecidableEq, Repr

/-- Errors of a client call. -/
inductive ClientError where
  | failSafe (message : String)
  | recordNotFound
  | constraintViolation
  | unknownArgument (name : String)
deriving DecidableEq, Repr

/-- What a call returns: rows with the related rows they include, or a number. -/
inductive Result (Row : Type) where
  | rows (found : List (Row × List Row))
  | count (n : ℕ)

/-- A row before and after a change; {lit}`none` before is an insertion,
{lit}`none` after a deletion. -/
abbrev Change (Row : Type) := Option Row × Option Row

/-- What the addressed model contributes to an operation, before relation
arguments run: the rows handed back, the rows looked at, the changes, the rows
left, a count when the operation returns one, and the nested writes to run. -/
structure Root (Row : Type) where
  returned : List Row
  seen : List Row
  changes : List (Change Row) := []
  rows : List Row
  counted : Option ℕ := none
  nested : Nested Row := {}

/-- The outcome of an operation: its result, the rows it read, the changes it
made and the rows it leaves. -/
structure Outcome (Row : Type) where
  result : Result Row
  read : List Row
  written : List (Change Row)
  rows : List Row

/-- The stored rows of a table with the constraints that refuse a write: keys that must
be unique, and pairs of a reference and the key it must name.  Foreign keys that act are
left to the tables of a whole schema: the services delete rows through a table only
where nothing refers to them. -/
structure Store (Row : Type) where
  rows : List Row
  uniqueKeys : List (Row → Option String) := []
  references : List ((Row → Option String) × (Row → Option String)) := []

/-- Whether the rows satisfy the constraints. -/
def Store.accepts {Row : Type} (db : Store Row) (rows : List Row) : Bool :=
  db.uniqueKeys.all (fun key => decide (rows.filterMap key).Nodup) &&
    db.references.all (fun fk =>
      (rows.filterMap fk.1).all (fun v => (rows.filterMap fk.2).contains v))

variable {Row : Type} [TenantRow Row]

/-- Whether the {lit}`where` object admits the row. -/
def Where.admits (m : Delegate Row) (w : Where Row) (r : Row) : Bool :=
  m.isRow r &&
    w.id.all (fun i => i == TenantRow.id r) &&
    w.tenantId.admits (TenantRow.tenantId r) &&
    (match m.deletedAt with
      | some column => w.deletedAt.admits (column.get r)
      | none => true) &&
    w.rest r

/-- The row that a {lit}`data` object makes of {lit}`r`. -/
def Payload.apply (d : Payload Row) (r : Row) : Row :=
  match d.tenantId with
  | some t => TenantRow.setTenantId t (d.assign r)
  | none => d.assign r

/-- The order and the window that the arguments put on the matching rows. -/
def Args.arrange (args : Args Row) (rows : List Row) : List Row :=
  let sorted := match args.orderBy with
    | some le => rows.insertionSort fun a b => le a b = true
    | none => rows
  match args.take with
  | some n => (sorted.drop args.skip).take n
  | none => sorted.drop args.skip

/-- The related rows that the nested writes of a parent row make of {lit}`rows`. -/
def Nested.applyTo (n : Nested Row) (parent : Row) (rows : List Row) : List Row :=
  rows.filterMap (fun r => if n.touches parent r then n.change r else some r) ++
    n.creates parent

/-- The changes that the nested writes of a parent row make. -/
def Nested.changes (n : Nested Row) (parent : Row) (rows : List Row) : List (Change Row) :=
  (rows.filter (n.touches parent)).map (fun r => (some r, n.change r)) ++
    (n.creates parent).map (fun r => (none, some r))

/-! ## The operations on the addressed model -/

/-- Hand back rows that were found. -/
def findRoot (found rows : List Row) : Root Row where
  returned := found
  seen := found
  rows := rows

/-- Insert one row for each {lit}`data` object. -/
def insertRoot (m : Delegate Row) (uuid : ℕ → Id) (datas : List (Payload Row))
    (rows : List Row) : Root Row :=
  let created := datas.mapIdx fun i d => d.apply (m.blank (uuid i))
  { returned := created
    seen := []
    changes := created.map fun r => (none, some r)
    rows := rows ++ created }

/-- Insert one row and run its nested writes. -/
def createRoot (m : Delegate Row) (uuid : ℕ → Id) (d : Payload Row)
    (rows : List Row) : Root Row :=
  let created := d.apply (m.blank (uuid 0))
  { returned := [created]
    seen := []
    changes := [(none, some created)]
    rows := rows ++ [created]
    nested := d.nested }

/-- Update the rows that match; {lit}`target` is the first of them. -/
def updateRoot (matching : Row → Bool) (d : Payload Row) (target : Row)
    (rows : List Row) : Root Row where
  returned := [d.apply target]
  seen := [target]
  changes := (rows.filter matching).map fun r => (some r, some (d.apply r))
  rows := rows.map fun r => if matching r then d.apply r else r
  nested := d.nested

/-- Delete the rows that match and hand back {lit}`found`.  What becomes of the rows that
refer to them is the business of the foreign keys, after the operation. -/
def deleteRoot (matching : Row → Bool) (found rows : List Row) : Root Row where
  returned := found
  seen := found
  changes := (rows.filter matching).map fun r => (some r, none)
  rows := rows.filter fun r => !matching r

/-- What an operation does to the addressed model. -/
def root (m : Delegate Row) (uuid : ℕ → Id) (op : Operation) (args : Args Row)
    (rows : List Row) : Except ClientError (Root Row) :=
  let matching := args.whereArg.admits m
  let matched := rows.filter matching
  let first := ({ args with take := some 1 } : Args Row).arrange matched
  match op with
  | .findUnique => .ok (findRoot (matched.take 1) rows)
  | .findUniqueOrThrow =>
      if matched.isEmpty then .error .recordNotFound
      else .ok (findRoot (matched.take 1) rows)
  | .findFirst => .ok (findRoot first rows)
  | .findFirstOrThrow =>
      if first.isEmpty then .error .recordNotFound
      else .ok (findRoot first rows)
  | .findMany => .ok (findRoot (args.arrange matched) rows)
  | .count =>
      .ok { returned := []
            seen := args.arrange matched
            rows := rows
            counted := some (args.arrange matched).length }
  | .create => .ok (createRoot m uuid args.data rows)
  | .createMany =>
      .ok { insertRoot m uuid args.dataMany rows with
            returned := []
            counted := some args.dataMany.length }
  | .createManyAndReturn => .ok (insertRoot m uuid args.dataMany rows)
  | .update =>
      match matched with
      | [] => .error .recordNotFound
      | target :: _ => .ok (updateRoot matching args.data target rows)
  | .updateMany =>
      .ok { returned := []
            seen := matched
            changes := matched.map fun r => (some r, some (args.data.apply r))
            rows := rows.map fun r => if matching r then args.data.apply r else r
            counted := some matched.length }
  | .upsert =>
      match matched with
      | [] => .ok (createRoot m uuid args.create rows)
      | target :: _ => .ok (updateRoot matching args.update target rows)
  | .delete =>
      if matched.isEmpty then .error .recordNotFound
      else .ok (deleteRoot matching (matched.take 1) rows)
  | .deleteMany =>
      .ok { deleteRoot matching [] rows with counted := some matched.length }
  | .aggregate => .ok (findRoot (args.arrange matched) rows)
  | .groupBy => .ok (findRoot (args.arrange matched) rows)

/-! ## Relation arguments and constraints -/

/-- The rows left once the nested writes have run. -/
def Root.after (t : Root Row) : List Row :=
  match t.returned with
  | [parent] => t.nested.applyTo parent t.rows
  | _ => t.rows

/-- The changes that the nested writes make. -/
def Root.nestedChanges (t : Root Row) : List (Change Row) :=
  match t.returned with
  | [parent] => t.nested.changes parent t.rows
  | _ => []

/-- The related rows that come back with {lit}`r`. -/
def Args.related (args : Args Row) (rows : List Row) (r : Row) : List Row :=
  rows.filter (args.includes r)

/-- The whole outcome of an operation. -/
def Root.outcome (args : Args Row) (t : Root Row) : Outcome Row where
  result := match t.counted with
    | some n => .count n
    | none => .rows (t.returned.map fun r => (r, args.related t.after r))
  read := t.seen ++ t.returned.flatMap (args.related t.after)
  written := t.changes ++ t.nestedChanges
  rows := t.after

/-- Run an operation on a table whose rows no foreign key changes: an argument on a column
the model lacks is refused, and so is a write that would leave rows violating a
constraint. -/
def exec (m : Delegate Row) (uuid : ℕ → Id) (op : Operation) (args : Args Row)
    (db : Store Row) : Except ClientError (Outcome Row) :=
  match args.whereArg.deletedAt, m.deletedAt with
  | .filter _, none => .error (.unknownArgument "deletedAt")
  | _, _ =>
      match root m uuid op args db.rows with
      | .error e => .error e
      | .ok t =>
          if (t.outcome args).written.isEmpty || db.accepts t.after then
            .ok (t.outcome args)
          else .error .constraintViolation

/-! ## Databases -/

/-- A kind of database that client calls run on: the operations on it, and the database with the
rows that an operation on a model leaves. -/
class Engine (σ : Type) (Row : Type) [TenantRow Row] where
  exec : Delegate Row → (ℕ → Id) → Operation → Args Row → σ → Except ClientError (Outcome Row)
  leave : Delegate Row → σ → List Row → σ

/-- The services address one table at a time. -/
@[default_instance]
instance : Engine (Store Row) Row where
  exec := exec
  leave _ db rows := { db with rows := rows }

@[simp]
theorem Engine.exec_store (m : Delegate Row) (uuid : ℕ → Id) (op : Operation) (args : Args Row)
    (db : Store Row) : Engine.exec m uuid op args db = Database.exec m uuid op args db :=
  rfl

@[simp]
theorem Engine.leave_store (m : Delegate Row) (db : Store Row) (rows : List Row) :
    Engine.leave m db rows = { db with rows := rows } :=
  rfl

end Database
end Eleva
