import DarkServices.Gateway.Middleware

/-!
# The handlers and the routes of the gateway

`gateway/internal/api` and the route table of `gateway/main.go`. A pattern of the table has no
method: it is matched by every method, and by exactly its path.
-/

namespace DarkServices
namespace Gateway

open Lib
open Lib.Json (stringField)
open Lib.Strings (equalFold)

/-- `TransferRequest`. -/
structure TransferRequest where
  amount : Decimal
  description : String

/-- A number field: every member of the name assigns it, `null` leaves it as it is. -/
def numberField (m : Members) (field : String) : Except String Decimal :=
  m.foldlM (fun acc p =>
    if equalFold p.1 field then
      match p.2 with
      | .num d => .ok d
      | .null => .ok acc
      | _ => .error ("json: cannot unmarshal into field " ++ field ++ " of type float64")
    else .ok acc) ⟨0, 0⟩

/-- Decode the body of a transfer. -/
def TransferRequest.ofBody : Option Json → Except String TransferRequest
  | none => .error "invalid JSON"
  | some (.obj m) => do
    let amount ← numberField m "amount"
    let description ← stringField m "description"
    .ok ⟨amount, description⟩
  | some .null => .ok ⟨⟨0, 0⟩, ""⟩
  | some _ => .error "json: cannot unmarshal into Go value of type api.TransferRequest"

/-- An error as a JSON object. -/
def jsonError (msg : String) (status : ℕ) : Response := ⟨status, .json (.obj [("error", .str msg)])⟩

/-- Make a call of the database client and answer with its result. -/
def answerCall (call : Audit.Call) (claims : TokenClaims) (status : ℕ) (env : Env) (w : World) :
    Response × World :=
  let w' : World := ⟨w.keys, w.jtis, w.log ++ [.database call]⟩
  match env.db call with
  | .error e => (jsonError e 500, w')
  | .ok a => (⟨status, .answer claims a⟩, w')

/-- `GetBalanceHandler`. -/
def getBalanceHandler : Handler := fun env r w =>
  match r.claims with
  | none => (jsonError "missing claims context" 401, w)
  | some claims => answerCall (.getBalance claims.tenantID claims.sub) claims 200 env w

/-- `CreateTransferHandler`. -/
def createTransferHandler : Handler := fun env r w =>
  match r.claims with
  | none => (jsonError "missing claims context" 401, w)
  | some claims =>
    match TransferRequest.ofBody r.body with
    | .error _ => (jsonError "invalid request body" 400, w)
    | .ok req =>
      if req.amount.coeff ≤ 0 then (jsonError "amount must be greater than zero" 400, w)
      else
        answerCall (.createTransaction claims.tenantID req.amount req.description claims.sub)
          claims 201 env w

/-- `GetAuditLogsHandler`. -/
def getAuditLogsHandler : Handler := fun env r w =>
  match r.claims with
  | none => (jsonError "missing claims context" 401, w)
  | some claims => answerCall (.getAuditLogs claims.tenantID) claims 200 env w

/-- The route table of `main`: the handler behind both middlewares, if the path has one. -/
def protectedHandler (path : String) : Option Handler :=
  if path = "/api/transfer" then some createTransferHandler
  else if path = "/api/balance" then some getBalanceHandler
  else if path = "/api/audit-logs" then some getAuditLogsHandler
  else none

/-- The server of `main`. -/
def mux (m : AuthMiddleware) : Handler := fun env r w =>
  match protectedHandler r.path with
  | some h => secureAPI m (enforcePolicy m h) env r w
  | none =>
    if r.path = "/metrics" then (⟨200, .metrics⟩, w)
    else (httpError "404 page not found" 404, w)

end Gateway
end DarkServices
