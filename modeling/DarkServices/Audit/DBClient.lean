import DarkServices.Audit.Schema
import DarkServices.Lib.Prog

/-!
# The database client of the gateway

`CreateTransaction`, `GetBalance` and `GetAuditLogs` of `gateway/internal/audit/db.go`, as
programs over the operations of `database/sql` they perform, and the meaning of these
operations on the committed tables and the caller's own open transaction.

Every error return runs the deferred clean-up: a reset of the settings through the pool,
then `Rollback`. On success `Commit` comes first and the reset after it.
-/

namespace DarkServices
namespace Audit

open Lib

/-! ## Operations -/

/-- What a program asks of the database. -/
inductive DbOp
  | begin
  | setConfig (k : Setting) (v : String)
  | insertTransaction (tenantID : String) (amount : Decimal) (description : String)
  | sumAmount
  | insertAudit (actorID tenantID action resource : String) (details : Json)
  | selectAudit
  | commit
  | rollback
  | resetExec

/-- What the database answers. The amounts are in hundredths. -/
abbrev Reply : DbOp → Type
  | .insertTransaction .. => Except String (Uuid × Timestamp)
  | .sumAmount => Except String ℤ
  | .selectAudit => Except String (List AuditRow)
  | .rollback => Unit
  | .resetExec => Unit
  | _ => Except String Unit

abbrev DbProg (α : Type) := Prog DbOp Reply α

/-- An open transaction: the settings of its connection and its own, its start time, the
rows it has inserted, and whether a statement of it has failed. -/
structure OpenTx where
  session : Settings
  loc : Settings
  now : Timestamp
  transactions : List TransactionRow
  auditLogs : List AuditRow
  failed : Bool

/-- What the outside decides about an operation: whether it fails, and the values the
server supplies (`now()` at the start of a transaction, `gen_random_uuid()`). -/
structure Choice where
  fail : Option String
  now : Timestamp
  uuid : Uuid

def OpenTx.settings (t : OpenTx) : Settings := t.loc.over t.session

/-- A transaction just begun on a connection. -/
def OpenTx.start (session : Settings) (now : Timestamp) : OpenTx :=
  ⟨session, Settings.unset, now, [], [], false⟩

def errTxDone : String := "sql: transaction has already been committed or rolled back"

/-- The rows of `transactions` a statement of the transaction sees. -/
def OpenTx.seesTransactions (t : OpenTx) (db : Db) : Except String (List TransactionRow) :=
  usingPolicy t.settings TransactionRow.tenantId (db.transactions ++ t.transactions)

/-- The rows of `audit_logs` a statement of the transaction sees. -/
def OpenTx.seesAudit (t : OpenTx) (db : Db) : Except String (List AuditRow) :=
  usingPolicy t.settings AuditRow.tenantId (db.auditLogs ++ t.auditLogs)

/-- `INSERT INTO transactions (tenant_id, amount, description) VALUES ($1, $2, $3)`. -/
def insertTransactionRow (db : Db) (t : OpenTx) (c : Choice) (tenantID : String)
    (amount : Decimal) (description : String) : Except String TransactionRow :=
  match Uuid.parse tenantID with
  | none => .error ("pq: invalid input syntax for type uuid: \"" ++ tenantID ++ "\"")
  | some tenant =>
    if description.toList.contains '\x00' then
      .error "pq: invalid byte sequence for encoding \"UTF8\": 0x00"
    else if 10 ^ 15 ≤ amount.toCents.natAbs then .error "pq: numeric field overflow"
    else
      match withCheckPolicy t.settings "transactions" tenant with
      | .error e => .error e
      | .ok _ =>
        if (db.transactions ++ t.transactions).any fun r => r.id = c.uuid then
          .error "pq: duplicate key value violates unique constraint \"transactions_pkey\""
        else .ok ⟨c.uuid, tenant, amount.toCents, description, t.now⟩

/-- The columns of a new audit row: the parameters are read, the defaults filled in. -/
def newAudit (db : Db) (t : OpenTx) (actorID tenantID action resource : String)
    (details : Json) : Except String NewAudit :=
  match Uuid.parse actorID, Uuid.parse tenantID with
  | some actor, some tenant =>
    if 50 < action.length then .error "pq: value too long for type character varying(50)"
    else if 100 < resource.length then
      .error "pq: value too long for type character varying(100)"
    else .ok ⟨db.auditSeq, t.now, actor, tenant, action, resource, some details.toJsonb⟩
  | none, _ => .error ("pq: invalid input syntax for type uuid: \"" ++ actorID ++ "\"")
  | _, none => .error ("pq: invalid input syntax for type uuid: \"" ++ tenantID ++ "\"")

/-- The trigger and the policy on a new audit row. -/
def insertAuditRow (pg : Pg) (db : Db) (t : OpenTx) (n : NewAudit) : Except String AuditRow :=
  match t.seesAudit db with
  | .error e => .error e
  | .ok visible =>
    match hashAuditRecord pg t.settings visible n with
    | .error e => .error e
    | .ok row =>
      match withCheckPolicy t.settings "audit_logs" row.tenantId with
      | .error e => .error e
      | .ok _ => .ok row

/-- A statement of an open transaction: it is refused once one has failed, it may fail for
reasons of its own, and an error leaves the transaction failed. -/
def onTx {α : Type} (c : Choice) (db : Db) (tx : Option OpenTx)
    (f : OpenTx → Except String (α × OpenTx)) : Except String α × Db × Option OpenTx :=
  match tx with
  | none => (.error errTxDone, db, none)
  | some t =>
    if t.failed then
      (.error "pq: current transaction is aborted, commands ignored until end of transaction block",
        db, some t)
    else
      match c.fail with
      | some e => (.error e, db, some { t with failed := true })
      | none =>
        match f t with
        | .error e => (.error e, db, some { t with failed := true })
        | .ok (a, t') => (.ok a, db, some t')

/-- The sequence after an insert into `audit_logs`: an id is drawn once the parameters are
read, and stays drawn when the insert fails after that. -/
def seqAfter (db : Db) (tx : Option OpenTx) (new : OpenTx → Except String NewAudit) : ℕ :=
  match tx with
  | none => db.auditSeq
  | some t =>
    if t.failed then db.auditSeq
    else
      match new t with
      | .error _ => db.auditSeq
      | .ok _ => db.auditSeq + 1

/-- `Commit`: it answers without error exactly when the rows become visible. -/
def commitTx (c : Choice) (db : Db) (tx : Option OpenTx) :
    Except String Unit × Db × Option OpenTx :=
  match tx with
  | none => (.error errTxDone, db, none)
  | some t =>
    match c.fail with
    | some e => (.error e, db, none)
    | none =>
      if t.failed then (.error "pq: Could not complete operation in a failed transaction", db, none)
      else (.ok (), { db with transactions := db.transactions ++ t.transactions,
                              auditLogs := db.auditLogs ++ t.auditLogs }, none)

/-- The meaning of the operations. `session` are the settings of the connection that
`Begin` takes. -/
def execOp (pg : Pg) (session : Settings) (c : Choice) :
    (o : DbOp) → Db → Option OpenTx → Reply o × Db × Option OpenTx
  | .begin, db, tx =>
    match c.fail with
    | some e => (.error e, db, tx)
    | none => (.ok (), db, some (OpenTx.start session c.now))
  | .setConfig k v, db, tx =>
    onTx c db tx fun t => .ok ((), { t with loc := t.loc.set k v })
  | .insertTransaction tenantID amount description, db, tx =>
    onTx c db tx fun t =>
      (insertTransactionRow db t c tenantID amount description).map fun r =>
        ((r.id, r.createdAt), { t with transactions := t.transactions ++ [r] })
  | .sumAmount, db, tx =>
    onTx c db tx fun t =>
      (t.seesTransactions db).map fun rows => ((rows.map TransactionRow.amount).sum, t)
  | .insertAudit actorID tenantID action resource details, db, tx =>
    let new := fun t => newAudit db t actorID tenantID action resource details
    let r := onTx c db tx fun t =>
      (new t).bind fun n => (insertAuditRow pg db t n).map fun row =>
        ((), { t with auditLogs := t.auditLogs ++ [row] })
    (r.1, { db with auditSeq := seqAfter db tx new }, r.2.2)
  | .selectAudit, db, tx =>
    onTx c db tx fun t =>
      (t.seesAudit db).map fun rows => (orderById rows, t)
  | .commit, db, tx => commitTx c db tx
  | .rollback, db, _ => ((), db, none)
  | .resetExec, db, tx => ((), db, tx)

/-- Rows of the two tables. -/
structure Rows where
  transactions : List TransactionRow
  auditLogs : List AuditRow

def Rows.none : Rows := ⟨[], []⟩

def Rows.append (a b : Rows) : Rows :=
  ⟨a.transactions ++ b.transactions, a.auditLogs ++ b.auditLogs⟩

/-- The rows a transaction has inserted. -/
def OpenTx.rows (t : OpenTx) : Rows := ⟨t.transactions, t.auditLogs⟩

/-- The rows an operation makes visible: those of the transaction that a `Commit` commits. -/
def committedBy : (o : DbOp) → Reply o → Option OpenTx → Rows
  | .commit, .ok _, some t => t.rows
  | _, _, _ => Rows.none

/-! ## The three calls -/

/-- The client: the audit secret it sets in each transaction. -/
structure DBClient where
  auditSecret : String

/-- `Transaction`, the answer of `CreateTransaction`. -/
structure Transaction where
  id : Uuid
  tenantID : String
  amount : Decimal
  description : String
  createdAt : Timestamp
deriving DecidableEq

/-- `GetUserUUID`. -/
def getUserUUID (sub : String) : String :=
  if sub = "client-alice" then "aaaaaaaa-aaaa-aaaa-aaaa-aaaaaaaaaaaa"
  else if sub = "client-bob" then "bbbbbbbb-bbbb-bbbb-bbbb-bbbbbbbbbbbb"
  else if sub = "client-evil" then "eeeeeeee-eeee-eeee-eeee-eeeeeeeeeeee"
  else "00000000-0000-0000-0000-000000000000"

section Combinators

variable {α β : Type}

/-- The deferred clean-up of an error return. -/
def cleanup (e : String) : DbProg (Except String α) :=
  .op .resetExec fun _ => .op .rollback fun _ => .ret (.error e)

/-- `if err != nil { return ..., fmt.Errorf(msg, err) }` inside a transaction. -/
def orCleanup (msg : String) (r : Except String β) (k : β → DbProg (Except String α)) :
    DbProg (Except String α) :=
  match r with
  | .error e => cleanup (msg ++ e)
  | .ok b => k b

/-- Begin a transaction and set its context, as all three calls do. -/
def withTx (c : DBClient) (tenantID : String) (body : DbProg (Except String α)) :
    DbProg (Except String α) :=
  .op .begin fun r =>
    match r with
    | .error e => .ret (.error ("failed to start database transaction: " ++ e))
    | .ok _ =>
      .op (.setConfig .tenantId tenantID) fun r => orCleanup "failed to set RLS tenant context: " r fun _ =>
      .op (.setConfig .auditSecret c.auditSecret) fun r => orCleanup "failed to set audit secret context: " r fun _ =>
      body

/-- Commit, then reset the settings through the pool and return. -/
def commitAndReset (a : α) : DbProg (Except String α) :=
  .op .commit fun r => orCleanup "failed to commit transaction: " r fun _ =>
  .op .resetExec fun _ => .ret (.ok a)

end Combinators

/-- `detailsMap`, the details of a `CREATE_TRANSACTION` row. -/
def transactionDetails (amount : Decimal) (description : String) (txID : Uuid) : Json :=
  .obj [("amount", .num amount), ("description", .str description), ("tx_id", .str txID.text)]

/-- `CreateTransaction`. -/
def createTransaction (c : DBClient) (tenantID : String) (amount : Decimal)
    (description actorSub : String) : DbProg (Except String Transaction) :=
  withTx c tenantID <|
    .op (.insertTransaction tenantID amount description) fun r =>
      orCleanup "transaction insert blocked or failed: " r fun p =>
    .op (.insertAudit (getUserUUID actorSub) tenantID "CREATE_TRANSACTION" "transactions"
        (transactionDetails amount description p.1)) fun r =>
      orCleanup "failed to write audit log: " r fun _ =>
    commitAndReset ⟨p.1, tenantID, amount, description, p.2⟩

/-- `GetBalance`; the balance is in hundredths. -/
def getBalance (c : DBClient) (tenantID actorSub : String) : DbProg (Except String ℤ) :=
  withTx c tenantID <|
    .op .sumAmount fun r => orCleanup "failed to query balance: " r fun balance =>
    .op (.insertAudit (getUserUUID actorSub) tenantID "GET_BALANCE" "transactions" (.obj []))
      fun r => orCleanup "failed to write audit log: " r fun _ =>
    commitAndReset balance

/-- `GetAuditLogs`. -/
def getAuditLogs (c : DBClient) (tenantID : String) : DbProg (Except String (List AuditRow)) :=
  withTx c tenantID <|
    .op .selectAudit fun r => orCleanup "failed to query audit logs: " r fun logs =>
    commitAndReset logs

/-- The calls of the client with their arguments. -/
inductive Call
  | createTransaction (tenantID : String) (amount : Decimal) (description actorSub : String)
  | getBalance (tenantID actorSub : String)
  | getAuditLogs (tenantID : String)
deriving DecidableEq

/-- The tenant text a call is made for. -/
@[simp] def Call.tenantID : Call → String
  | .createTransaction t _ _ _ => t
  | .getBalance t _ => t
  | .getAuditLogs t => t

/-- The call may write a transaction. -/
def Call.isCreate : Call → Bool
  | .createTransaction .. => true
  | _ => false

/-- The call writes an audit row. -/
def Call.isLogged : Call → Bool
  | .getAuditLogs _ => false
  | _ => true

/-- What a successful call returns, the two measured durations left out. -/
inductive Answer
  | transaction (t : Transaction)
  | balance (hundredths : ℤ)
  | logs (rows : List AuditRow)

/-- Wrap the result of a program. -/
def mapResult {α β : Type} (f : α → β) : DbProg (Except String α) → DbProg (Except String β)
  | .ret r => .ret (r.map f)
  | .op o k => .op o fun r => mapResult f (k r)

/-- The program of a call. -/
def Call.program (c : DBClient) : Call → DbProg (Except String Answer)
  | .createTransaction t a d s => mapResult .transaction (DarkServices.Audit.createTransaction c t a d s)
  | .getBalance t s => mapResult .balance (DarkServices.Audit.getBalance c t s)
  | .getAuditLogs t => mapResult .logs (DarkServices.Audit.getAuditLogs c t)

end Audit
end DarkServices
