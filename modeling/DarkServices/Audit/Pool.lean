import DarkServices.Audit.DBClient
import Mathlib.Data.Fintype.Basic

/-!
# Concurrent calls over the connection pool

`database/sql` with `SetMaxOpenConns(max)`: `Begin` and `db.Exec` take an idle connection,
or open one while fewer than `max` are open, and wait otherwise; a transaction keeps its
connection until `Commit` or `Rollback` returns. A statement reads what was committed
before it and the rows of its own transaction, the default isolation of the server.

`byCall` is a history variable: the rows each call has committed.
-/

namespace DarkServices
namespace Audit

open Lib

/-- The pool: its bound, the session settings of the idle connections, and how many
connections are open. -/
structure Pool where
  max : ℕ
  free : List Settings
  numOpen : ℕ

namespace Pool

/-- Take idle connection number `pick`, or open a new one when none is idle. -/
def take (p : Pool) (pick : ℕ) : Option (Settings × Pool) :=
  match p.free[pick]? with
  | some s => some (s, { p with free := p.free.eraseIdx pick })
  | none =>
    if p.free = [] ∧ p.numOpen < p.max then
      some (Settings.unset, { p with numOpen := p.numOpen + 1 })
    else none

/-- Give a connection back: it becomes idle, or is closed. -/
def release (p : Pool) (s : Settings) (keep : Bool) : Pool :=
  if keep then { p with free := s :: p.free } else { p with numOpen := p.numOpen - 1 }

end Pool

/-- What the calls share. -/
structure Shared (ι : Type) where
  db : Db
  pool : Pool
  conn : ι → Option OpenTx
  byCall : ι → Rows

/-- The outside choices: those of the operation, which idle connection is taken, and
whether one given back stays open. -/
structure PoolChoice extends Choice where
  pick : ℕ
  keep : Bool

/-- Nothing fails; the first idle connection is taken and stays open. -/
def PoolChoice.plain : PoolChoice := ⟨⟨none, 0, Uuid.zero⟩, 0, true⟩

/-- The operations that go through the pool. -/
def DbOp.needsConn : DbOp → Bool
  | .begin => true
  | .resetExec => true
  | _ => false

section Semantics

variable {ι : Type} [DecidableEq ι] [Fintype ι]

/-- An id that another open transaction has inserted is in the unique index already. -/
def idInFlight (s : Shared ι) (i : ι) (u : Uuid) : Bool :=
  decide (∃ j, j ≠ i ∧
    ((s.conn j).any fun t => t.transactions.any fun r => r.id = u) = true)

/-- The choice of an operation; an insert under an id in flight fails. -/
def choiceOf (s : Shared ι) (i : ι) (c : PoolChoice) : DbOp → Choice
  | .insertTransaction .. =>
    if idInFlight s i c.uuid then
      { c.toChoice with
        fail := some "pq: duplicate key value violates unique constraint \"transactions_pkey\"" }
    else c.toChoice
  | _ => c.toChoice

/-- `set_config('app.tenant_id', '', false)` and the same for the secret, on one
connection, unless the statement fails. -/
def resetSession (c : PoolChoice) (session : Settings) : Settings :=
  if c.fail.isSome then session else ⟨some "", some ""⟩

/-- The pool after an operation on a connection with settings `session`, which left the
transaction of the call as `after`. -/
def poolAfter (c : PoolChoice) (session : Settings) (pool : Pool) (before after : Option OpenTx) :
    DbOp → Pool
  | .begin => if after.isSome then pool else pool.release session c.keep
  | .resetExec => pool.release (resetSession c session) c.keep
  | _ =>
    match before, after with
    | some t, none => pool.release t.session c.keep
    | _, _ => pool

/-- The meaning of the operations of call `i`; `none` when it waits for a connection. -/
def dbSem (pg : Pg) : Threads.Sem (Shared ι) ι PoolChoice DbOp Reply := fun s i o c =>
  (if o.needsConn then s.pool.take c.pick else some (Settings.unset, s.pool)).map fun p =>
    let res := execOp pg p.1 (choiceOf s i c o) o s.db (s.conn i)
    (res.1,
      { db := res.2.1
        pool := poolAfter c p.1 p.2 (s.conn i) res.2.2 o
        conn := Function.update s.conn i res.2.2
        byCall := Function.update s.byCall i
          ((s.byCall i).append (committedBy o res.1 (s.conn i))) })

/-- The states of a family of calls. -/
abbrev CallStates (ι : Type) := Threads (Shared ι) ι DbOp Reply (Except String Answer)

/-- No call has started, and the tables are as created. -/
def startState (max : ℕ) (client : DBClient) (calls : ι → Call) : CallStates ι where
  shared := ⟨Db.empty, ⟨max, [], 0⟩, fun _ => none, fun _ => Rows.none⟩
  prog := fun i => (calls i).program client

/-- The interleavings of a family of calls over a pool of `max` connections. -/
def callSystem (pg : Pg) (max : ℕ) (client : DBClient) (calls : ι → Call) :
    LTS (CallStates ι) (ι × PoolChoice) :=
  Threads.system (· = startState max client calls) (dbSem pg)

end Semantics

/-- Two tenants. -/
def tenantA : String := "11111111-1111-1111-1111-111111111111"

def tenantB : String := "22222222-2222-2222-2222-222222222222"

/-- A transfer whose amount does not fit its column. -/
def overflowing (tenantID : String) : Call :=
  .createTransaction tenantID ⟨10 ^ 15, 0⟩ "" "client-alice"

end Audit
end DarkServices
