import DarkServices.Audit.Schema

/-!
# Statements on the audit table

`INSERT`, `UPDATE`, `DELETE` and `TRUNCATE` on `audit_logs` under the roles, grants, policies
and triggers of `docker/postgres/init.sql`. A statement that fails leaves the rows as they
were; the ids it has drawn from the sequence stay drawn.
-/

namespace DarkServices
namespace Audit

open Lib

/-! ## Roles and privileges -/

/-- Who issues a statement. `other` is a role without any grant. -/
inductive Role
  | appUser
  | owner
  | superuser
  | other
deriving DecidableEq

/-- The privileges of a role on a table. -/
inductive Privilege
  | select
  | insert
  | update
  | delete
  | truncate
deriving DecidableEq

/-- `GRANT SELECT, INSERT ON audit_logs TO app_user`; the owner and a superuser have all
privileges. -/
def Role.has : Role → Privilege → Bool
  | .appUser, .select => true
  | .appUser, .insert => true
  | .appUser, _ => false
  | .owner, _ => true
  | .superuser, _ => true
  | .other, _ => false

/-- Row-level security is enabled and not forced: no policy applies to the owner. -/
def Role.bypassesPolicies : Role → Bool
  | .owner => true
  | .superuser => true
  | _ => false

def permissionDenied : String := "pq: permission denied for table audit_logs"

/-! ## The row triggers -/

/-- The events a `FOR EACH ROW` trigger may name. -/
inductive RowEvent
  | insert
  | update
  | delete
deriving DecidableEq

/-- `prevent_audit_tampering`. -/
def preventAuditTampering : String :=
  "pq: Audit logs are immutable. UPDATE and DELETE operations are strictly prohibited."

/-- `audit_log_immutable`, a trigger `BEFORE UPDATE OR DELETE ... FOR EACH ROW`. -/
def auditLogImmutable : RowEvent → Except String Unit
  | .insert => .ok ()
  | .update => .error preventAuditTampering
  | .delete => .error preventAuditTampering

/-- `UPDATE audit_logs SET ... WHERE ...`. -/
def updateRows (cond : AuditRow → Bool) (set : AuditRow → AuditRow) :
    List AuditRow → Except String (List AuditRow)
  | [] => .ok []
  | r :: rows =>
    match (if cond r then (auditLogImmutable .update).map fun _ => set r else .ok r) with
    | .error e => .error e
    | .ok r' => (updateRows cond set rows).map fun rows' => r' :: rows'

/-- `DELETE FROM audit_logs WHERE ...`. -/
def deleteRows (cond : AuditRow → Bool) : List AuditRow → Except String (List AuditRow)
  | [] => .ok []
  | r :: rows =>
    if cond r then
      match auditLogImmutable .delete with
      | .error e => .error e
      | .ok _ => deleteRows cond rows
    else (deleteRows cond rows).map fun rows' => r :: rows'

/-! ## Insertion -/

/-- The columns of an `INSERT`; an id or a timestamp may be left to its default. The two
hashes are left out: the trigger writes over them. -/
structure NewRow where
  id : Option ℕ
  timestamp : Option Timestamp
  actorId : Uuid
  tenantId : Uuid
  action : String
  resource : String
  details : Option Json

/-- `ON CONFLICT`. -/
inductive OnConflict
  | fail
  | doNothing
  | doUpdate (cond : AuditRow → Bool) (set : AuditRow → AuditRow)

/-- Insert one row whose defaults are filled in: `audit_log_hash_chain`, the policy, then the
primary key. -/
def insertRow (pg : Pg) (role : Role) (s : Settings) (onConflict : OnConflict)
    (rows : List AuditRow) (n : NewAudit) : Except String (List AuditRow) :=
  match (if role.bypassesPolicies then .ok rows else usingPolicy s AuditRow.tenantId rows) with
  | .error e => .error e
  | .ok visible =>
    match hashAuditRecord pg s visible n with
    | .error e => .error e
    | .ok row =>
      match (if role.bypassesPolicies then .ok ()
          else withCheckPolicy s "audit_logs" row.tenantId) with
      | .error e => .error e
      | .ok _ =>
        if rows.any fun r => r.id = row.id then
          match onConflict with
          | .fail =>
            .error "pq: duplicate key value violates unique constraint \"audit_logs_pkey\""
          | .doNothing => .ok rows
          | .doUpdate cond set => updateRows (fun r => r.id = row.id && cond r) set rows
        else .ok (rows ++ [row])

/-- Insert rows one after another, drawing the default ids from the sequence. -/
def insertRows (pg : Pg) (role : Role) (s : Settings) (now : Timestamp)
    (onConflict : OnConflict) :
    List NewRow → List AuditRow → ℕ → Except String (List AuditRow) × ℕ
  | [], rows, seq => (.ok rows, seq)
  | n :: ns, rows, seq =>
    let seq' := if n.id.isNone then seq + 1 else seq
    if 50 < n.action.length then
      (.error "pq: value too long for type character varying(50)", seq')
    else if 100 < n.resource.length then
      (.error "pq: value too long for type character varying(100)", seq')
    else
      match insertRow pg role s onConflict rows ⟨n.id.getD seq, n.timestamp.getD now, n.actorId,
          n.tenantId, n.action, n.resource, n.details.map Json.toJsonb⟩ with
      | .error e => (.error e, seq')
      | .ok rows' => insertRows pg role s now onConflict ns rows' seq'

/-! ## Statements -/

/-- The four kinds of statement. -/
inductive Statement
  | insert (rows : List NewRow) (onConflict : OnConflict)
  | update (cond : AuditRow → Bool) (set : AuditRow → AuditRow)
  | delete (cond : AuditRow → Bool)
  | truncate (restartIdentity : Bool)

/-- The privileges a statement needs. -/
def Statement.needs : Statement → List Privilege
  | .insert _ (.doUpdate ..) => [.insert, .update]
  | .insert .. => [.insert]
  | .update .. => [.update]
  | .delete _ => [.delete]
  | .truncate _ => [.truncate]

/-- A statement, who issues it, the settings of the session and the time. -/
structure Command where
  role : Role
  settings : Settings
  now : Timestamp
  statement : Statement

/-- The new rows, or the error, and the sequence. Only roles to which no policy applies come
to an `UPDATE` or a `DELETE`; `TRUNCATE` fires no row trigger. -/
def Statement.exec (pg : Pg) (c : Command) (rows : List AuditRow) (seq : ℕ) :
    Statement → Except String (List AuditRow) × ℕ
  | .insert news onConflict => insertRows pg c.role c.settings c.now onConflict news rows seq
  | .update cond set => (updateRows cond set rows, seq)
  | .delete cond => (deleteRows cond rows, seq)
  | .truncate restartIdentity => (.ok [], if restartIdentity then 1 else seq)

/-- Execute a statement of its own. -/
def exec (pg : Pg) (c : Command) (db : Db) : Except String Unit × Db :=
  if c.statement.needs.all c.role.has then
    match c.statement.exec pg c db.auditLogs db.auditSeq with
    | (.ok rows, seq) => (.ok (), { db with auditLogs := rows, auditSeq := seq })
    | (.error e, seq) => (.error e, { db with auditSeq := seq })
  else (.error permissionDenied, db)

/-- The tables after a sequence of statements. -/
def execAll (pg : Pg) : List Command → Db → Db
  | [], db => db
  | c :: cs, db => execAll pg cs (exec pg c db).2

end Audit
end DarkServices
