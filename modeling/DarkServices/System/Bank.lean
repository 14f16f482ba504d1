import DarkServices.Audit.Serial
import DarkServices.Gateway.EnforcementTheorems
import DarkServices.Gateway.Metered
import DarkServices.System.Protocol

/-!
# The whole service

The network of `System.Protocol` with the database behind the gateway and the meters of the
gateway: one request after another. A call that a handler makes runs on the tables as the calls
before it have left them, with the failures, the time and the id that the outside supplies.

The state keeps every request to the gateway with its response.
-/

namespace DarkServices
namespace System

open Lib

/-- A request that has been answered. -/
structure Served where
  env : Gateway.Env
  request : Gateway.Request
  response : Gateway.Response

/-- The parties, the tables, the calls of the recorder and the answers so far. -/
structure Bank (SK : Type) where
  net : Network SK
  db : Audit.Db
  recorded : List Gateway.MetricsCall
  served : List Served

/-- One step: of the parties, or a request to the gateway with what the outside supplies to the
database and the durations that are measured. -/
inductive BankLabel (SK : Type)
  | network (l : NetworkLabel SK)
  | request (env : Gateway.Env) (r : Gateway.Request) (x : Audit.Inputs) (d : Gateway.Durations)

section

variable {SK : Type} (d : Deployment SK) (pg : Audit.Pg) (client : Audit.DBClient)

/-- The gateway's calls go to the tables. -/
def onDatabase (x : Audit.Inputs) (db : Audit.Db) (env : Gateway.Env) : Gateway.Env :=
  { env with db := fun call => (Audit.runCall pg client (call, x) db).1 }

/-- The tables after calls that are made in this order. -/
def tablesAfter (x : Audit.Inputs) (calls : List Audit.Call) (db : Audit.Db) : Audit.Db :=
  calls.foldl (fun db call => (Audit.runCall pg client (call, x) db).2) db

/-- The tables after a request: its calls of the database are the ones that the gateway has logged
since. -/
def tablesServed (x : Audit.Inputs) (s s' : Network SK) (db : Audit.Db) : Audit.Db :=
  tablesAfter pg client x
    (Gateway.databaseCalls (s'.gateway.log.drop s.gateway.log.length)) db

/-- One step of the service. Requests to the gateway come with their database. -/
def bankStep [DecidableEq SK] (s : Bank SK) : BankLabel SK → Option (Bank SK)
  | .network (.request _ _) => none
  | .network l => (networkStep d s.net l).map fun net => { s with net := net }
  | .request env r x t =>
    let env' := onDatabase pg client x s.db env
    (networkStep d s.net (.request env' r)).map fun net =>
      let (response, _, calls) := Gateway.Metered.mux d.middleware env' t r s.net.gateway
      ⟨net, tablesServed pg client x s.net net s.db, s.recorded ++ calls,
        s.served ++ [⟨env', r, response⟩]⟩

/-- The programs as they start, with the tables as `init.sql` creates them. -/
def bankSystem [DecidableEq SK] : LTS (Bank SK) (BankLabel SK) :=
  LTS.ofStep (fun s => (networkSystem d).init s.net ∧ s.db = Audit.Db.empty ∧
    s.recorded = [] ∧ s.served = []) (bankStep d pg client)

/-- The conditions on a step are those of the network. -/
def BankRealistic (s : Bank SK) : BankLabel SK → Prop
  | .network l => Realistic d s.net l
  | .request env r _ _ => Realistic d s.net (.request env r)

end

end System
end DarkServices
