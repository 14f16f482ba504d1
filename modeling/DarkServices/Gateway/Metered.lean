import DarkServices.Gateway.Handlers
import DarkServices.Gateway.Telemetry

/-!
# The gateway with its meters

The middlewares and the handlers as in `Gateway.mux`, with the calls they make to the recorder of
`gateway/internal/telemetry` on the way. A refusal by SecureAPI and an error of the request itself
(400, 401) are not recorded.
-/

namespace DarkServices
namespace Gateway

open Lib

/-- The durations in microseconds that are measured while a request is served. -/
structure Durations where
  dpopTime : Int64
  tokenTime : Int64
  zitiTime : Int64
  pdpLatency : Int64
  rlsTime : Int64
  dbTime : Int64

namespace Metered

/-- The response of a handler, the state after it and the calls of the recorder. -/
abbrev Result := Response × World × List MetricsCall

abbrev Handler := Env → Durations → Request → World → Result

/-- Calls of the recorder before the ones of a result. -/
def Result.after (calls : List MetricsCall) (res : Result) : Result :=
  (res.1, res.2.1, calls ++ res.2.2)

/-- A result without calls of the recorder. -/
def Result.quiet (res : Response × World) : Result := (res.1, res.2, [])

/-- The call of the database client in a handler: the counter of the handler and the status, and on
success the two durations. -/
def answerCall (handler : String) (call : Audit.Call) (claims : TokenClaims) (status : ℕ)
    (env : Env) (d : Durations) (w : World) : Result :=
  let res := Gateway.answerCall call claims status env w
  match env.db call with
  | .error _ => (res.1, res.2, [.incrementRequestCounter handler 500])
  | .ok _ => (res.1, res.2, [.incrementRequestCounter handler (Int64.ofNat status),
      .recordDbLatency d.rlsTime d.dbTime])

/-- `GetBalanceHandler`. -/
def getBalanceHandler : Handler := fun env d r w =>
  match r.claims with
  | none => .quiet (jsonError "missing claims context" 401, w)
  | some claims =>
    answerCall "/api/balance" (.getBalance claims.tenantID claims.sub) claims 200 env d w

/-- `CreateTransferHandler`. -/
def createTransferHandler : Handler := fun env d r w =>
  match r.claims with
  | none => .quiet (jsonError "missing claims context" 401, w)
  | some claims =>
    match TransferRequest.ofBody r.body with
    | .error _ => .quiet (jsonError "invalid request body" 400, w)
    | .ok req =>
      if req.amount.coeff ≤ 0 then .quiet (jsonError "amount must be greater than zero" 400, w)
      else
        answerCall "/api/transfer"
          (.createTransaction claims.tenantID req.amount req.description claims.sub) claims 201 env
          d w

/-- `GetAuditLogsHandler`. -/
def getAuditLogsHandler : Handler := fun env d r w =>
  match r.claims with
  | none => .quiet (jsonError "missing claims context" 401, w)
  | some claims => answerCall "/api/audit-logs" (.getAuditLogs claims.tenantID) claims 200 env d w

/-- `SecureAPI`: the three durations are recorded right before the next handler. -/
def secureAPI (m : AuthMiddleware) (next : Handler) : Handler := fun env d r w =>
  match checkProof env r with
  | .error resp => .quiet (resp, w)
  | .ok (accessToken, jkt, jti) =>
    match isJTIUsedAndSave w.jtis jti jtiTTL env.jtiAt with
    | (true, jtis) =>
      .quiet (httpError "invalid_dpop_proof: replay attack detected (jti already used)" 401,
        ⟨w.keys, jtis, w.log⟩)
    | (false, jtis) =>
      match env.jwt.parse env.tokenAt accessToken (tokenKey env) w.keys with
      | (.error e, keys) =>
        .quiet (httpError ("invalid_token: signature verification failed: " ++ e) 401,
          ⟨keys, jtis, w.log⟩)
      | (.ok token, keys) =>
        match checkToken m r.conn token.claims jkt with
        | .error resp => .quiet (resp, ⟨keys, jtis, w.log⟩)
        | .ok tClaims =>
          (next env d (r.withClaims tClaims) ⟨keys, jtis, w.log⟩).after
            [.recordSecurityOverhead d.dpopTime d.tokenTime d.zitiTime]

/-- `EnforcePolicy`: the duration of the question is recorded whatever the answer. -/
def enforcePolicy (m : AuthMiddleware) (next : Handler) : Handler := fun env d r w =>
  match r.claims with
  | none => .quiet (httpError "unauthorized: missing claims context" 401, w)
  | some claims =>
    match m.pdpClient with
    | none => .quiet (httpError "forbidden: policy enforcement point not initialized" 503, w)
    | some client =>
      let req := accessRequest env.policyAt r claims
      let access := client.checkAccess (env.pdp req)
      let w' : World := ⟨w.keys, w.jtis, w.log ++ [.checkAccess req (env.pdp req)]⟩
      Result.after [.recordPDPOverhead d.pdpLatency]
        (match access.err with
        | some e =>
          .quiet (httpError ("service_unavailable: policy decision point error: " ++ e)
            access.httpStatus, w')
        | none =>
          if access.allow then next env d r w'
          else .quiet (httpError (deniedText req access.matchedPolicyID) 403, w'))

/-- The route table of `main`. -/
def protectedHandler (path : String) : Option Handler :=
  if path = "/api/transfer" then some createTransferHandler
  else if path = "/api/balance" then some getBalanceHandler
  else if path = "/api/audit-logs" then some getAuditLogsHandler
  else none

/-- The server of `main`. -/
def mux (m : AuthMiddleware) : Handler := fun env d r w =>
  match protectedHandler r.path with
  | some h => secureAPI m (enforcePolicy m h) env d r w
  | none =>
    if r.path = "/metrics" then .quiet (⟨200, .metrics⟩, w)
    else .quiet (httpError "404 page not found" 404, w)

/-! ## The meters change nothing -/

/-- The result without the calls of the recorder. -/
def Result.erase (res : Result) : Response × World := (res.1, res.2.1)

@[simp] theorem Result.erase_after (calls : List MetricsCall) (res : Result) :
    (res.after calls).erase = res.erase := rfl

@[simp] theorem Result.erase_quiet (res : Response × World) : (Result.quiet res).erase = res := rfl

/-- A metered handler answers as the handler does. -/
def Erases (h : Handler) (h' : Gateway.Handler) : Prop :=
  ∀ env d r w, (h env d r w).erase = h' env r w

theorem erase_answerCall (handler : String) (call : Audit.Call) (claims : TokenClaims) (status : ℕ)
    (env : Env) (d : Durations) (w : World) :
    (answerCall handler call claims status env d w).erase =
      Gateway.answerCall call claims status env w := by
  unfold answerCall
  cases env.db call <;> rfl

theorem erases_secureAPI {m : AuthMiddleware} {h : Handler} {h' : Gateway.Handler}
    (hh : Erases h h') : Erases (secureAPI m h) (Gateway.secureAPI m h') := by
  intro env d r w
  unfold secureAPI Gateway.secureAPI
  cases checkProof env r with
  | error resp => rfl
  | ok p =>
    obtain ⟨accessToken, jkt, jti⟩ := p
    rcases hjti : isJTIUsedAndSave w.jtis jti jtiTTL env.jtiAt with ⟨used, jtis⟩
    cases used with
    | true => simp only [hjti, Result.erase_quiet]
    | false =>
      rcases hparse : env.jwt.parse env.tokenAt accessToken (tokenKey env) w.keys with ⟨res, keys⟩
      cases res with
      | error e => simp only [hjti, hparse, Result.erase_quiet]
      | ok token =>
        cases htoken : checkToken m r.conn token.claims jkt with
        | error resp => simp only [hjti, hparse, htoken, Result.erase_quiet]
        | ok c =>
          simp only [hjti, hparse, htoken, Result.erase_after]
          exact hh _ _ _ _

theorem erases_enforcePolicy {m : AuthMiddleware} {h : Handler} {h' : Gateway.Handler}
    (hh : Erases h h') : Erases (enforcePolicy m h) (Gateway.enforcePolicy m h') := by
  intro env d r w
  unfold enforcePolicy Gateway.enforcePolicy
  cases r.claims with
  | none => rfl
  | some claims =>
    cases m.pdpClient with
    | none => rfl
    | some client =>
      simp only [Result.erase_after]
      cases (client.checkAccess (env.pdp (accessRequest env.policyAt r claims))).err with
      | some e => rfl
      | none =>
        cases (client.checkAccess (env.pdp (accessRequest env.policyAt r claims))).allow with
        | true => exact hh _ _ _ _
        | false => rfl

theorem protectedHandler_erases (path : String) :
    match protectedHandler path, Gateway.protectedHandler path with
    | some h, some h' => Erases h h'
    | none, none => True
    | _, _ => False := by
  unfold protectedHandler Gateway.protectedHandler
  by_cases htransfer : path = "/api/transfer"
  · rw [if_pos htransfer, if_pos htransfer]
    intro env d r w
    unfold createTransferHandler Gateway.createTransferHandler
    cases r.claims with
    | none => rfl
    | some claims =>
      cases TransferRequest.ofBody r.body with
      | error e => rfl
      | ok req =>
        by_cases hamount : req.amount.coeff ≤ 0
        · simp only [if_pos hamount, Result.erase_quiet]
        · simp only [if_neg hamount]
          exact erase_answerCall ..
  · rw [if_neg htransfer, if_neg htransfer]
    by_cases hbalance : path = "/api/balance"
    · rw [if_pos hbalance, if_pos hbalance]
      intro env d r w
      unfold getBalanceHandler Gateway.getBalanceHandler
      cases r.claims with
      | none => rfl
      | some claims => exact erase_answerCall ..
    · rw [if_neg hbalance, if_neg hbalance]
      by_cases hlogs : path = "/api/audit-logs"
      · rw [if_pos hlogs, if_pos hlogs]
        intro env d r w
        unfold getAuditLogsHandler Gateway.getAuditLogsHandler
        cases r.claims with
        | none => rfl
        | some claims => exact erase_answerCall ..
      · rw [if_neg hlogs, if_neg hlogs]
        trivial

/-- The server with its meters answers as the server. -/
theorem erases_mux (m : AuthMiddleware) : Erases (mux m) (Gateway.mux m) := by
  intro env d r w
  have hroute := protectedHandler_erases r.path
  unfold mux Gateway.mux
  cases hh : protectedHandler r.path with
  | none =>
    cases hh' : Gateway.protectedHandler r.path with
    | none =>
      show (if _ then _ else _ : Result).erase = if _ then _ else _
      split <;> rfl
    | some h' =>
      rw [hh, hh'] at hroute
      exact hroute.elim
  | some h =>
    cases hh' : Gateway.protectedHandler r.path with
    | none =>
      rw [hh, hh'] at hroute
      exact hroute.elim
    | some h' =>
      rw [hh, hh'] at hroute
      exact erases_secureAPI (erases_enforcePolicy hroute) env d r w

end Metered
end Gateway
end DarkServices
