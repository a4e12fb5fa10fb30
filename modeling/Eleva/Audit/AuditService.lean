import Eleva.Foundation.Fallible
import Eleva.Foundation.Json

/-!
# Audit - The audit service

{lit}`AuditService.log` writes one row of the audit log.  The columns of the table hold
UUIDs and texts of bounded length; a statement with another value fails, and
{lit}`log` catches the failure, writes it to the logger and returns {lit}`null`.

Main results:

- Theorem {lit}`log_apply`: the service appends the row of an entry whose columns accept
  it, leaves the log alone for any other entry, and never throws.
- Theorem {lit}`accepts_iff`: which entries the columns of the table accept.
- Theorem {lit}`rows_immutable`: no sequence of calls of the service changes or removes a row.
-/

namespace Eleva
namespace Audit

open Foundation

/-! ## The table -/

/-- A row of {lit}`audit_logs`. -/
structure AuditLog where
  id : String
  tenantId : Option String
  userId : Option String
  action : String
  entityName : String
  entityId : Option String
  oldValues : Option Json
  newValues : Option Json
  ipAddress : String
  userAgent : String
  createdAt : ℕ
deriving Repr

/-- The name of an entity: a text, or the property of that name which every object of the
language inherits, with the text it is shown as. -/
inductive EntityName where
  | text (name : String)
  | inherited (shown : String)
deriving DecidableEq, Repr

/-- The name inside a template literal. -/
def EntityName.shown : EntityName → String
  | .text name => name
  | .inherited shown => shown

/-- {lit}`AuditLogEntry`. -/
structure AuditLogEntry where
  tenantId : Option String := none
  userId : Option String := none
  action : String
  entityName : EntityName
  entityId : Option String := none
  oldValues : Option Json := none
  newValues : Option Json := none
  ipAddress : String
  userAgent : String
deriving Repr

/-- What the database adds to a row, and the texts that a column of UUIDs takes. -/
structure AuditEnv where
  uuid : String
  now : ℕ
  isUuid : String → Bool

/-- The errors of the database and of the handlers, by their message. -/
abbrev AuditError := String

/-- Computations over the audit log. -/
abbrev Auditing (α : Type) := Fallible (List AuditLog) AuditError α

/-! ## Writing a row -/

/-- {lit}`value || null`, for a text. -/
def orNull (value : Option String) : Option String :=
  value.filter (· != "")

/-- A column of UUIDs that may be null. -/
def uuidColumn (env : AuditEnv) (value : Option String) : Bool :=
  value.all env.isUuid

/-- The row of an entry, where the columns accept it. -/
def auditLogRow (env : AuditEnv) (entry : AuditLogEntry) : Option AuditLog :=
  match entry.entityName with
  | .inherited _ => none
  | .text name =>
      if uuidColumn env (orNull entry.tenantId) && uuidColumn env (orNull entry.userId) &&
          entry.action.length ≤ 100 && name.length ≤ 100 &&
          uuidColumn env (orNull entry.entityId) && entry.ipAddress.length ≤ 45 &&
          entry.userAgent.length ≤ 512 then
        some {
          id := env.uuid
          tenantId := orNull entry.tenantId
          userId := orNull entry.userId
          action := entry.action
          entityName := name
          entityId := orNull entry.entityId
          oldValues := entry.oldValues
          newValues := entry.newValues
          ipAddress := entry.ipAddress
          userAgent := entry.userAgent
          createdAt := env.now }
      else none

/-- {lit}`prisma.auditLog.create`. -/
def create (env : AuditEnv) (entry : AuditLogEntry) : Auditing AuditLog := fun rows =>
  match auditLogRow env entry with
  | some row => (.ok row, rows ++ [row])
  | none => (.error "Invalid `prisma.auditLog.create()` invocation", rows)

/-- {lit}`log`. -/
def log (env : AuditEnv) (entry : AuditLogEntry) : Auditing (Option AuditLog) :=
  Fallible.orElse
    (do
      let auditLog ← create env entry
      pure (some auditLog))
    (pure none)

/-- {lit}`update`. -/
def update : Auditing Unit :=
  Fallible.throw "Audit logs are immutable: UPDATE operation is blocked per DOC-006 5.7"

/-- {lit}`delete`. -/
def delete : Auditing Unit :=
  Fallible.throw "Audit logs are immutable: DELETE operation is blocked per DOC-006 5.7"

/-! ## What is written -/

/-- The service appends the row of an entry that the columns accept; it leaves the log
alone otherwise, and never throws. -/
theorem log_apply (env : AuditEnv) (entry : AuditLogEntry) (rows : List AuditLog) :
    log env entry rows =
      (.ok (auditLogRow env entry), rows ++ (auditLogRow env entry).toList) := by
  cases hrow : auditLogRow env entry with
  | some row =>
      simp [log, create, hrow, Fallible.orElse, Fallible.bind_apply]
  | none =>
      simp [log, create, hrow, Fallible.orElse, Fallible.bind_apply]

theorem uuidColumn_iff {env : AuditEnv} {value : Option String} :
    uuidColumn env (orNull value) = true ↔ ∀ id, value = some id → id ≠ "" → env.isUuid id := by
  cases value with
  | none => simp [orNull, uuidColumn]
  | some id =>
      by_cases hid : id = "" <;> simp [orNull, uuidColumn, hid]

/-- The columns accept an entry exactly when each of its ids is missing, empty or a UUID,
its name is a text and its texts are no longer than their columns. -/
theorem accepts_iff {env : AuditEnv} {entry : AuditLogEntry} :
    (auditLogRow env entry).isSome ↔
      (∀ id, entry.tenantId = some id → id ≠ "" → env.isUuid id) ∧
      (∀ id, entry.userId = some id → id ≠ "" → env.isUuid id) ∧
      entry.action.length ≤ 100 ∧
      (∃ name, entry.entityName = .text name ∧ name.length ≤ 100) ∧
      (∀ id, entry.entityId = some id → id ≠ "" → env.isUuid id) ∧
      entry.ipAddress.length ≤ 45 ∧ entry.userAgent.length ≤ 512 := by
  unfold auditLogRow
  cases hname : entry.entityName with
  | inherited shown => simp
  | text name =>
      simp only [Option.isSome_ite, Bool.and_eq_true, decide_eq_true_eq, uuidColumn_iff,
        EntityName.text.injEq, exists_eq_left', and_assoc]

/-! ## The log is only appended to -/

/-- A call of the service that is meant to write. -/
inductive AuditCall where
  | log (env : AuditEnv) (entry : AuditLogEntry)
  | update
  | delete

/-- What a call does. -/
def AuditCall.run : AuditCall → Auditing Unit
  | .log env entry => do
      let _ ← Audit.log env entry
      pure ()
  | .update => Audit.update
  | .delete => Audit.delete

/-- A call keeps the rows, in their places. -/
theorem AuditCall.prefix_run (call : AuditCall) (rows : List AuditLog) :
    rows <+: (call.run rows).2 := by
  cases call with
  | log env entry =>
      have hlog := Fallible.bind_of_ok (f := fun _ => pure ()) (log_apply env entry rows)
      simp only [AuditCall.run, hlog]
      exact List.prefix_append _ _
  | update => exact List.prefix_rfl
  | delete => exact List.prefix_rfl

/-- No sequence of calls changes or removes a row. -/
theorem rows_immutable (calls : List AuditCall) (rows : List AuditLog) :
    rows <+: calls.foldl (fun rows call => (call.run rows).2) rows := by
  induction calls generalizing rows with
  | nil => exact List.prefix_rfl
  | cons call calls ih => exact (call.prefix_run rows).trans (ih _)

end Audit
end Eleva
