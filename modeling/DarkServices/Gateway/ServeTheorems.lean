import DarkServices.Gateway.EnforcementTheorems
import DarkServices.Gateway.Metered

/-!
# What the gateway answers with

A response either tells what one call of the database has returned, for the claims that SecureAPI
has put into the context, or it comes without a call (`mux_cases`). The request counters are
incremented once for each call and at no other time. Nothing is assumed of the outside.
-/

namespace DarkServices
namespace Gateway

open Lib

/-- The claims and the answer of the database that a successful response tells. -/
def Response.told (resp : Response) : Option (TokenClaims × Audit.Answer) :=
  match resp.body with
  | .answer c a => if resp.status = 200 ∨ resp.status = 201 then some (c, a) else none
  | _ => none

@[simp] theorem told_httpError (msg : String) (status : ℕ) :
    (httpError msg status).told = none := rfl

@[simp] theorem told_jsonError (msg : String) (status : ℕ) :
    (jsonError msg status).told = none := rfl

/-- The statuses that the handlers count. -/
def Response.counted (resp : Response) : Bool :=
  resp.status = 200 ∨ resp.status = 201 ∨ resp.status = 500

/-- The response tells nothing of the database and is not counted. -/
structure Response.Plain (resp : Response) : Prop where
  told : resp.told = none
  counted : resp.counted = false

theorem Refusal.plain {resp : Response} (h : Refusal resp) : resp.Plain := by
  unfold Refusal at h
  constructor
  · unfold Response.told
    split
    · rw [if_neg]
      omega
    · rfl
  · unfold Response.counted
    rw [decide_eq_false_iff_not]
    omega

/-- No request counter is among the calls of the recorder. -/
def Uncounted (calls : List MetricsCall) : Prop :=
  ∀ handler status, .incrementRequestCounter handler status ∉ calls

theorem uncounted_nil : Uncounted [] := fun _ _ => List.not_mem_nil

theorem Uncounted.cons_security {calls : List MetricsCall} (h : Uncounted calls)
    (dpop token ziti : Int64) : Uncounted (.recordSecurityOverhead dpop token ziti :: calls) := by
  intro handler status hmem
  rcases List.mem_cons.mp hmem with hne | hmem
  · cases hne
  · exact h handler status hmem

theorem Uncounted.cons_pdp {calls : List MetricsCall} (h : Uncounted calls) (pdp : Int64) :
    Uncounted (.recordPDPOverhead pdp :: calls) := by
  intro handler status hmem
  rcases List.mem_cons.mp hmem with hne | hmem
  · cases hne
  · exact h handler status hmem

section Layers

variable {m : AuthMiddleware} {env : Env} {r : Request} {w : World}

/-- SecureAPI hands the request over with some claims, or refuses it. -/
theorem secureAPI_split (m : AuthMiddleware) (env : Env) (r : Request) (w : World) :
    (∃ c w', w'.log = w.log ∧
      (∀ next, secureAPI m next env r w = next env (r.withClaims c) w') ∧
      ∀ next d, Metered.secureAPI m next env d r w = (next env d (r.withClaims c) w').after
        [.recordSecurityOverhead d.dpopTime d.tokenTime d.zitiTime]) ∨
    ∃ resp w', Refusal resp ∧ w'.log = w.log ∧ (∀ next, secureAPI m next env r w = (resp, w')) ∧
      ∀ next d, Metered.secureAPI m next env d r w = .quiet (resp, w') := by
  unfold secureAPI Metered.secureAPI
  cases hproof : checkProof env r with
  | error resp =>
    exact Or.inr ⟨resp, w, checkProof_errors env r resp hproof, rfl, fun _ => rfl, fun _ _ => rfl⟩
  | ok p =>
    obtain ⟨accessToken, jkt, jti⟩ := p
    rcases hjti : isJTIUsedAndSave w.jtis jti jtiTTL env.jtiAt with ⟨used, jtis⟩
    cases used with
    | true =>
      exact Or.inr ⟨httpError "invalid_dpop_proof: replay attack detected (jti already used)" 401,
        ⟨w.keys, jtis, w.log⟩, Or.inl rfl, rfl, fun _ => by simp [hjti], fun _ _ => by simp [hjti]⟩
    | false =>
      rcases hparse : env.jwt.parse env.tokenAt accessToken (tokenKey env) w.keys with ⟨res, keys⟩
      cases res with
      | error e =>
        exact Or.inr ⟨httpError ("invalid_token: signature verification failed: " ++ e) 401,
          ⟨keys, jtis, w.log⟩, Or.inl rfl, rfl, fun _ => by simp [hjti, hparse],
          fun _ _ => by simp [hjti, hparse]⟩
      | ok token =>
        cases htoken : checkToken m r.conn token.claims jkt with
        | error resp =>
          exact Or.inr ⟨resp, ⟨keys, jtis, w.log⟩, checkToken_errors m r.conn token.claims jkt resp
            htoken, rfl, fun _ => by simp [hjti, hparse, htoken],
            fun _ _ => by simp [hjti, hparse, htoken]⟩
        | ok c =>
          exact Or.inl ⟨c, ⟨keys, jtis, w.log⟩, rfl, fun _ => by simp [hjti, hparse, htoken],
            fun _ _ => by simp [hjti, hparse, htoken]⟩

/-- EnforcePolicy asks once and hands the request over, or answers by itself. A client that fails
closed hands over what has been allowed only. -/
theorem enforcePolicy_split {claims : TokenClaims} (hclaims : r.claims = some claims)
    (env : Env) (w : World) :
    ((∃ client, m.pdpClient = some client ∧ (client.failOpen = false → Allowed env r claims)) ∧
      (∀ next, enforcePolicy m next env r w = next env r (asked env r claims w)) ∧
      ∀ next d, Metered.enforcePolicy m next env d r w =
        (next env d r (asked env r claims w)).after [.recordPDPOverhead d.pdpLatency]) ∨
    ∃ resp w' new, resp.Plain ∧ w'.log = w.log ++ new ∧ databaseCalls new = [] ∧
      (∀ next, enforcePolicy m next env r w = (resp, w')) ∧
      ∀ next d, Uncounted (Metered.enforcePolicy m next env d r w).2.2 := by
  cases hclient : m.pdpClient with
  | none =>
    refine Or.inr ⟨_, w, [], ⟨rfl, rfl⟩, (List.append_nil _).symm, rfl,
      enforcePolicy_of_no_client hclaims hclient w, fun next d => ?_⟩
    simp only [Metered.enforcePolicy, hclaims, hclient]
    exact uncounted_nil
  | some client =>
    unfold enforcePolicy Metered.enforcePolicy
    simp only [hclaims, hclient]
    cases hresult : (env.pdp (accessRequest env.policyAt r claims)).result with
    | error e =>
      cases hopen : client.failOpen with
      | true =>
        refine Or.inl ⟨⟨client, rfl, fun hclosed => ?_⟩, fun next => ?_, fun next d => ?_⟩
        · rw [hopen] at hclosed
          cases hclosed
        · simp [PDPClient.checkAccess, hresult, hopen, asked]
        · simp [PDPClient.checkAccess, hresult, hopen, asked]
      | false =>
        refine Or.inr ⟨httpError ("service_unavailable: policy decision point error: " ++
            ("policy decision point unavailable: " ++ e)) 503, asked env r claims w, [_], ⟨rfl, rfl⟩, rfl, rfl,
            fun next => ?_, fun next d => ?_⟩
        · simp only [PDPClient.checkAccess, hresult, hopen, Bool.false_eq_true, if_false]
          rfl
        · simp only [PDPClient.checkAccess, hresult, hopen, Bool.false_eq_true, if_false]
          exact uncounted_nil.cons_pdp _
    | ok resp =>
      by_cases hallow : resp.decision = allowDecision
      · refine Or.inl ⟨⟨client, rfl, fun _ => ⟨resp, hresult, hallow⟩⟩, fun next => ?_, fun next d => ?_⟩
        · simp only [PDPClient.checkAccess, hresult, if_pos hallow, if_true]
          rfl
        · simp only [PDPClient.checkAccess, hresult, if_pos hallow, if_true]
          rfl
      · refine Or.inr ⟨httpError (deniedText (accessRequest env.policyAt r claims)
            resp.matchedPolicyId) 403, asked env r claims w, [_], ⟨rfl, rfl⟩, rfl, rfl, fun next => ?_,
            fun next d => ?_⟩
        · simp only [PDPClient.checkAccess, hresult, if_neg hallow, Bool.false_eq_true, if_false]
          rfl
        · simp only [PDPClient.checkAccess, hresult, if_neg hallow, Bool.false_eq_true, if_false]
          exact uncounted_nil.cons_pdp _

end Layers

/-- The status of a successful answer. -/
def statusOf (call : Audit.Call) : ℕ := if call.isCreate then 201 else 200

/-- A handler answers with its call of the database, or without one. -/
theorem protectedHandler_split {path : String} {h : Handler} (hpath : protectedHandler path = some h)
    {r : Request} {claims : TokenClaims} (hclaims : r.claims = some claims) (env : Env)
    (w : World) : ∃ h', Metered.protectedHandler path = some h' ∧
    ((∃ resp, resp.Plain ∧ h env r w = (resp, w) ∧
      ∀ d, h' env d r w = .quiet (resp, w)) ∨
    ∃ call, callOf path r.body claims = some call ∧
      h env r w = answerCall call claims (statusOf call) env w ∧
      ∀ d, h' env d r w = Metered.answerCall path call claims (statusOf call) env d w) := by
  unfold protectedHandler at hpath
  unfold callOf Metered.protectedHandler
  split at hpath
  · rename_i htransfer
    cases hpath
    rw [if_pos htransfer, if_pos htransfer]
    refine ⟨_, rfl, ?_⟩
    unfold createTransferHandler Metered.createTransferHandler
    rw [hclaims]
    cases TransferRequest.ofBody r.body with
    | error e => exact Or.inl ⟨_, ⟨rfl, rfl⟩, rfl, fun _ => rfl⟩
    | ok req =>
      by_cases hamount : req.amount.coeff ≤ 0
      · exact Or.inl ⟨_, ⟨rfl, rfl⟩, if_pos hamount, fun _ => if_pos hamount⟩
      · refine Or.inr ⟨_, if_neg hamount, if_neg hamount, fun d => ?_⟩
        rw [htransfer]
        exact if_neg hamount
  · rename_i htransfer
    rw [if_neg htransfer, if_neg htransfer]
    split at hpath
    · rename_i hbalance
      cases hpath
      rw [if_pos hbalance, if_pos hbalance]
      refine ⟨_, rfl, ?_⟩
      unfold getBalanceHandler Metered.getBalanceHandler
      rw [hclaims, hbalance]
      exact Or.inr ⟨_, rfl, rfl, fun _ => rfl⟩
    · rename_i hbalance
      rw [if_neg hbalance, if_neg hbalance]
      split at hpath
      · rename_i hlogs
        cases hpath
        rw [if_pos hlogs, if_pos hlogs]
        refine ⟨_, rfl, ?_⟩
        unfold getAuditLogsHandler Metered.getAuditLogsHandler
        rw [hclaims, hlogs]
        exact Or.inr ⟨_, rfl, rfl, fun _ => rfl⟩
      · cases hpath

/-- The call of a request, by its path. -/
theorem callOf_cases {path : String} {body : Option Json} {c : TokenClaims} {call : Audit.Call}
    (h : callOf path body c = some call) :
    (∃ req, path = "/api/transfer" ∧ TransferRequest.ofBody body = .ok req ∧
      0 < req.amount.coeff ∧
      call = .createTransaction c.tenantID req.amount req.description c.sub) ∨
    (path = "/api/balance" ∧ call = .getBalance c.tenantID c.sub) ∨
    (path = "/api/audit-logs" ∧ call = .getAuditLogs c.tenantID) := by
  unfold callOf at h
  split at h
  · rename_i htransfer
    cases hreq : TransferRequest.ofBody body with
    | error e =>
      rw [hreq] at h
      cases h
    | ok req =>
      simp only [hreq] at h
      obtain ⟨hamount, hcall⟩ := Option.ite_none_left_eq_some.mp h
      exact Or.inl ⟨req, htransfer, rfl, not_le.mp hamount, (Option.some.inj hcall).symm⟩
  · split at h
    · rename_i hbalance
      exact Or.inr (Or.inl ⟨hbalance, (Option.some.inj h).symm⟩)
    · obtain ⟨hlogs, hcall⟩ := Option.ite_none_right_eq_some.mp h
      exact Or.inr (Or.inr ⟨hlogs, (Option.some.inj hcall).symm⟩)

/-- The response to a call of the database. -/
theorem answerCall_eq (call : Audit.Call) (claims : TokenClaims) (status : ℕ) (env : Env)
    (w : World) : answerCall call claims status env w =
      ((match env.db call with
        | .error e => jsonError e 500
        | .ok a => ⟨status, .answer claims a⟩),
        ⟨w.keys, w.jtis, w.log ++ [.database call]⟩) := by
  unfold answerCall
  cases env.db call <;> rfl

/-- The calls of the recorder for a call of the database. -/
def databaseMeters (path : String) (call : Audit.Call) (env : Env) (d : Durations) :
    List MetricsCall :=
  match env.db call with
  | .error _ => [.incrementRequestCounter path 500]
  | .ok _ => [.incrementRequestCounter path (Int64.ofNat (statusOf call)),
      .recordDbLatency d.rlsTime d.dbTime]

/-- **One request.** It is answered without a call of the database, or SecureAPI hands it over
with claims, the decision point is asked, and one call is made, answered with and counted. -/
theorem mux_cases (m : AuthMiddleware) (env : Env) (r : Request) (w : World) :
    (∃ resp w' new, mux m env r w = (resp, w') ∧ resp.told = none ∧
      ((protectedHandler r.path).isSome → resp.counted = false) ∧ w'.log = w.log ++ new ∧
      databaseCalls new = [] ∧ ∀ d, Uncounted (Metered.mux m env d r w).2.2) ∨
    ∃ claims call w₁ w₂, (∀ next, secureAPI m next env r w = next env (r.withClaims claims) w₁) ∧
      (∃ client, m.pdpClient = some client ∧ (client.failOpen = false → Allowed env r claims)) ∧
      callOf r.path r.body claims = some call ∧
      mux m env r w = answerCall call claims (statusOf call) env w₂ ∧
      w₂.log = w.log ++ [.checkAccess (accessRequest env.policyAt r claims)
        (env.pdp (accessRequest env.policyAt r claims))] ∧
      ∀ d, (Metered.mux m env d r w).2.2 =
        .recordSecurityOverhead d.dpopTime d.tokenTime d.zitiTime ::
          .recordPDPOverhead d.pdpLatency :: databaseMeters r.path call env d := by
  cases hroute : protectedHandler r.path with
  | none =>
    have hroute' : Metered.protectedHandler r.path = none := by
      have herases := Metered.protectedHandler_erases r.path
      rw [hroute] at herases
      cases h : Metered.protectedHandler r.path with
      | none => rfl
      | some h' =>
        rw [h] at herases
        exact herases.elim
    refine Or.inl ⟨(mux m env r w).1, w, [], ?_, ?_, nofun, (List.append_nil _).symm, rfl,
      fun d => ?_⟩
    · exact Prod.ext rfl (mux_of_no_route hroute)
    · unfold mux
      rw [hroute]
      show (if _ then _ else _ : Response × World).1.told = none
      split
      · rfl
      · rfl
    · unfold Metered.mux
      rw [hroute']
      show Uncounted (if _ then _ else _ : Metered.Result).2.2
      split
      · exact uncounted_nil
      · exact uncounted_nil
  | some handler =>
    rw [mux_of_route hroute]
    obtain ⟨claims, w₁, hlog, hnext, hmeters⟩ | ⟨resp, w', hrefusal, hlog, hnext, hmeters⟩ :=
      secureAPI_split m env r w
    · have hclaims : (r.withClaims claims).claims = some claims := rfl
      obtain ⟨h', hroute', hhandler⟩ := protectedHandler_split hroute hclaims env
        (asked env (r.withClaims claims) claims w₁)
      have hmux : ∀ d, Metered.mux m env d r w =
          (Metered.enforcePolicy m h' env d (r.withClaims claims) w₁).after
            [.recordSecurityOverhead d.dpopTime d.tokenTime d.zitiTime] := by
        intro d
        rw [← hmeters]
        unfold Metered.mux
        rw [hroute']
      have hlogged : (asked env (r.withClaims claims) claims w₁).log =
          w.log ++ [.checkAccess (accessRequest env.policyAt r claims)
            (env.pdp (accessRequest env.policyAt r claims))] := by
        rw [← hlog]
        rfl
      obtain ⟨hallowed, hhanded, hasked⟩ | ⟨resp, w', new, hplain, hnew, hcalls, hanswered, hquiet⟩ :=
        enforcePolicy_split (m := m) hclaims env w₁
      · obtain ⟨resp, hplain, hresp, hquiet⟩ | ⟨call, hcall, hresp, hcounted⟩ := hhandler
        · refine Or.inl ⟨resp, _, _, by rw [hnext, hhanded, hresp], hplain.told,
            fun _ => hplain.counted, hlogged, rfl, fun d => ?_⟩
          rw [hmux, hasked, hquiet]
          exact (uncounted_nil.cons_pdp _).cons_security _ _ _
        · refine Or.inr ⟨claims, call, w₁, asked env (r.withClaims claims) claims w₁, hnext,
            hallowed, hcall, by rw [hnext, hhanded, hresp], hlogged, fun d => ?_⟩
          rw [hmux, hasked, hcounted]
          unfold Metered.answerCall databaseMeters
          cases env.db call <;> rfl
      · refine Or.inl ⟨resp, w', new, by rw [hnext, hanswered], hplain.told,
          fun _ => hplain.counted, by rw [hnew, hlog], hcalls, fun d => ?_⟩
        rw [hmux]
        exact (hquiet h' d).cons_security _ _ _
    · refine Or.inl ⟨resp, w', [], hnext _, hrefusal.plain.told,
        fun _ => hrefusal.plain.counted, by rw [hlog, List.append_nil], rfl, fun d => ?_⟩
      unfold Metered.mux
      cases Metered.protectedHandler r.path with
      | none =>
        show Uncounted (if _ then _ else _ : Metered.Result).2.2
        split
        · exact uncounted_nil
        · exact uncounted_nil
      | some h' =>
        simp only [hmeters]
        exact uncounted_nil

end Gateway
end DarkServices
