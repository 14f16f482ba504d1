import DarkServices.Audit.Pool

/-!
# Calls one after another

Serial runs: each call runs to its end before the next one starts. What the outside
supplies to a call (its failures, the time, the new id, the state of its connection) is a
record of inputs, so that two runs can be given the same.
-/

namespace DarkServices
namespace Audit

open Lib

/-- What the outside supplies to a call. The settings of a connection in the pool are as
the server starts it, or cleared by a reset. -/
structure Inputs where
  cleared : Bool
  fail : DbOp → Option String
  now : Timestamp
  uuid : Uuid

def Inputs.session (x : Inputs) : Settings :=
  if x.cleared then ⟨some "", some ""⟩ else Settings.unset

/-- The same inputs on another connection. -/
def Inputs.withCleared (x : Inputs) (cleared : Bool) : Inputs := { x with cleared := cleared }

@[simp] theorem Inputs.withCleared_fail (x : Inputs) (b : Bool) : (x.withCleared b).fail = x.fail :=
  rfl

@[simp] theorem Inputs.withCleared_now (x : Inputs) (b : Bool) : (x.withCleared b).now = x.now :=
  rfl

/-- No statement fails by itself. -/
def Inputs.plain (now : Timestamp) (uuid : Uuid) : Inputs := ⟨false, fun _ => none, now, uuid⟩

/-- The meaning of the operations of a call that runs alone. -/
def serialSem (pg : Pg) (x : Inputs) (o : DbOp) (s : Db × Option OpenTx) :
    Reply o × (Db × Option OpenTx) :=
  execOp pg x.session ⟨x.fail o, x.now, x.uuid⟩ o s.1 s.2

/-- Run one call: its result, and the tables after it. -/
def runCall (pg : Pg) (client : DBClient) (c : Call × Inputs) (db : Db) :
    Except String Answer × Db :=
  let r := Prog.exec (serialSem pg c.2) (c.1.program client) (db, none)
  (r.1, r.2.1)

/-- Run calls in order: each call with its result, and the tables at the end. -/
def runCalls (pg : Pg) (client : DBClient) :
    List (Call × Inputs) → Db → List (Call × Except String Answer) × Db
  | [], db => ([], db)
  | c :: cs, db =>
    let r := runCall pg client c db
    let rest := runCalls pg client cs r.2
    ((c.1, r.1) :: rest.1, rest.2)

/-- The call is made for tenant `u`. -/
def Call.isFor (call : Call) (u : Uuid) : Bool := Uuid.parse call.tenantID = some u

/-- The results of the calls of a tenant, in order. -/
def outcomesOf (pg : Pg) (client : DBClient) (u : Uuid) (cs : List (Call × Inputs)) (db : Db) :
    List (Except String Answer) :=
  ((runCalls pg client cs db).1.filter fun r => r.1.isFor u).map Prod.snd

/-- Tenant `tenantA` as a value. -/
def uuidA : Uuid := ⟨List.replicate 32 '1', by decide, by decide⟩

end Audit
end DarkServices
