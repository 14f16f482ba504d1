import DarkServices.Audit.Book
import DarkServices.Gateway.ServeTheorems
import DarkServices.System.Bank
import DarkServices.System.MetricsTheorems
import DarkServices.System.ProtocolTheorems

/-!
# What the service tells and keeps

* `bank_answers`: what a client is told is what the book of the earlier answers says;
* `ledger_provenance`: every row of the ledger goes back to an admitted and allowed request of a
  client that has shown its secret within the last minute;
* `meters_agree`: the request counters count the answers, and agree with the tables.

All three are invariants of `bankStep`, over what one request does (`Turn`).
-/

namespace DarkServices
namespace System

open Lib

/-! ## Answers -/

/-- The claims, the call and the answer of the database that a response tells. -/
def Served.outcome (e : Served) : Option (Gateway.TokenClaims × Audit.Call × Audit.Answer) := do
  let (c, a) ← e.response.told
  let call ← Gateway.callOf e.request.path e.request.body c
  some (c, call, a)

/-- What an answered request puts into the book. -/
def Served.postings (e : Served) : Audit.Book :=
  match e.outcome with
  | some (_, call, a) => (Audit.postingOf call a).toList
  | none => []

/-- The book of the clients: what they have been told has been done. -/
def bookOf (served : List Served) : Audit.Book := served.flatMap Served.postings

theorem bookOf_concat (served : List Served) (e : Served) :
    bookOf (served ++ [e]) = bookOf served ++ e.postings := by
  simp [bookOf]

variable {SK : Type} {d : Deployment SK} {pg : Audit.Pg} {client : Audit.DBClient}

/-! ## One request -/

/-- The outcome of a request that has called the database. -/
def calledOutcome (claims : Gateway.TokenClaims) (call : Audit.Call) :
    Except String Audit.Answer → Option (Gateway.TokenClaims × Audit.Call × Audit.Answer)
  | .ok a => some (claims, call, a)
  | .error _ => none

/-- The status of the response to a call of the database. -/
def calledStatus (call : Audit.Call) : Except String Audit.Answer → ℕ
  | .ok _ => Gateway.statusOf call
  | .error _ => 500

/-- The request was answered without a call of the database. -/
structure Uncalled (s s' : Bank SK) (e : Served) : Prop where
  outcome : e.outcome = none
  counted : (Gateway.protectedHandler e.request.path).isSome → e.response.counted = false
  db : s'.db = s.db
  calls : Gateway.databaseCalls (s'.net.gateway.log.drop s.net.gateway.log.length) = []
  recorded : ∃ new, s'.recorded = s.recorded ++ new ∧ Gateway.Uncounted new

/-- The request was admitted with these claims, allowed, and answered with the result of a call. -/
structure Called (d : Deployment SK) (pg : Audit.Pg) (client : Audit.DBClient) (s s' : Bank SK)
    (e : Served) (claims : Gateway.TokenClaims) (call : Audit.Call)
    (result : Except String Audit.Answer) : Prop where
  admits : Admits d.middleware e.env e.request s.net.gateway claims
  allowed : ∃ client, d.middleware.pdpClient = some client ∧
    (client.failOpen = false → Gateway.Allowed e.env e.request claims)
  callOf : Gateway.callOf e.request.path e.request.body claims = some call
  run : ∃ x, Audit.runCall pg client (call, x) s.db = (result, s'.db)
  outcome : e.outcome = calledOutcome claims call result
  status : e.response.status = calledStatus call result
  recorded : ∃ security pdp latency, s'.recorded = s.recorded ++ ([security, pdp] ++
    .incrementRequestCounter e.request.path (Int64.ofNat (calledStatus call result)) :: latency) ∧
    Gateway.Uncounted [security, pdp] ∧ Gateway.Uncounted latency

/-- What one request does. -/
def Turn (d : Deployment SK) (pg : Audit.Pg) (client : Audit.DBClient) (s s' : Bank SK)
    (e : Served) : Prop :=
  Uncalled s s' e ∨ ∃ claims call result, Called d pg client s s' e claims call result

variable [DecidableEq SK] {s s' : Bank SK}

theorem told_answer (claims : Gateway.TokenClaims) (call : Audit.Call) (a : Audit.Answer) :
    (⟨Gateway.statusOf call, .answer claims a⟩ : Gateway.Response).told = some (claims, a) := by
  unfold Gateway.Response.told Gateway.statusOf
  cases call.isCreate <;> rfl

omit [DecidableEq SK] in
theorem outcome_of_told {e : Served} {claims : Gateway.TokenClaims} {call : Audit.Call}
    {a : Audit.Answer} (htold : e.response.told = some (claims, a))
    (hcall : Gateway.callOf e.request.path e.request.body claims = some call) :
    e.outcome = some (claims, call, a) := by
  simp [Served.outcome, htold, hcall]

omit [DecidableEq SK] in
/-- The turn of a request, for any state with what it leaves. -/
theorem turn_of_mux {env : Gateway.Env} {r : Gateway.Request} {x : Audit.Inputs}
    {t : Gateway.Durations} (henv : env = onDatabase pg client x s.db env)
    (hworld : s'.net.gateway = (Gateway.mux d.middleware env r s.net.gateway).2)
    (hdb : s'.db = tablesServed pg client x s.net s'.net s.db)
    (hrecorded : s'.recorded =
      s.recorded ++ (Gateway.Metered.mux d.middleware env t r s.net.gateway).2.2) :
    Turn d pg client s s' ⟨env, r, (Gateway.mux d.middleware env r s.net.gateway).1⟩ := by
  obtain ⟨resp, w', new, hmux, htold, hcounted, hlog, hcalls, hmeters⟩ |
    ⟨claims, call, w₁, w₂, hnext, hallowed, hcall, hmux, hlog, hmeters⟩ :=
    Gateway.mux_cases d.middleware env r s.net.gateway
  · left
    rw [hmux] at hworld
    constructor
    · simp [Served.outcome, hmux, htold]
    · rw [hmux]
      exact hcounted
    · rw [hdb, tablesServed, hworld, hlog, List.drop_left, hcalls]
      rfl
    · rw [hworld, hlog, List.drop_left, hcalls]
    · exact ⟨_, hrecorded, hmeters t⟩
  · right
    have henvdb : env.db call = (Audit.runCall pg client (call, x) s.db).1 :=
      congrFun (congrArg Gateway.Env.db henv) call
    rw [hmux, Gateway.answerCall_eq] at hworld
    refine ⟨claims, call, env.db call, ⟨w₁, hnext⟩, hallowed, hcall, ⟨x, ?_⟩, ?_, ?_, ?_⟩
    · have hnew : s'.net.gateway.log.drop s.net.gateway.log.length =
          [.checkAccess (Gateway.accessRequest env.policyAt r claims)
            (env.pdp (Gateway.accessRequest env.policyAt r claims)), .database call] := by
        rw [hworld]
        show (w₂.log ++ [_]).drop _ = _
        rw [hlog, List.append_assoc, List.drop_left]
        rfl
      rw [hdb, tablesServed, hnew, henvdb]
      rfl
    · cases hresult : env.db call with
      | error e =>
        have htold : (Gateway.mux d.middleware env r s.net.gateway).1.told = none := by
          rw [hmux, Gateway.answerCall_eq, hresult]
          rfl
        simp [Served.outcome, htold, calledOutcome]
      | ok a =>
        refine outcome_of_told ?_ hcall
        rw [hmux, Gateway.answerCall_eq, hresult]
        exact told_answer claims call a
    · rw [hmux, Gateway.answerCall_eq]
      cases env.db call <;> rfl
    · rw [hmeters] at hrecorded
      unfold Gateway.databaseMeters at hrecorded
      have hquiet := (Gateway.uncounted_nil.cons_pdp t.pdpLatency).cons_security t.dpopTime
        t.tokenTime t.zitiTime
      cases hresult : env.db call with
      | error e =>
        rw [hresult] at hrecorded
        exact ⟨_, _, [], hrecorded, hquiet, Gateway.uncounted_nil⟩
      | ok a =>
        rw [hresult] at hrecorded
        exact ⟨_, _, [.recordDbLatency t.rlsTime t.dbTime], hrecorded, hquiet, by
          intro handler status hmem
          cases List.mem_singleton.mp hmem⟩

/-- A step of the parties leaves the tables, the meters and the answers; a request has its turn. -/
theorem bankStep_cases {l : BankLabel SK} (h : bankStep d pg client s l = some s') :
    (∃ l', l = .network l' ∧ networkStep d s.net l' = some s'.net ∧ s'.db = s.db ∧
      s'.recorded = s.recorded ∧ s'.served = s.served) ∨
    ∃ env r x t e, l = .request env r x t ∧ e.env = onDatabase pg client x s.db env ∧
      e.request = r ∧ networkStep d s.net (.request e.env r) = some s'.net ∧
      s'.served = s.served ++ [e] ∧ Turn d pg client s s' e := by
  cases l with
  | network l' =>
    left
    cases l' with
    | request env r => cases h
    | _ =>
      obtain ⟨net, hnet, rfl⟩ := Option.map_eq_some_iff.mp h
      exact ⟨_, rfl, hnet, rfl, rfl, rfl⟩
  | request env r x t =>
    right
    obtain ⟨net, hnet, rfl⟩ := Option.map_eq_some_iff.mp h
    have herase := Gateway.Metered.erases_mux d.middleware (onDatabase pg client x s.db env) t r
      s.net.gateway
    have hresponse : (Gateway.Metered.mux d.middleware (onDatabase pg client x s.db env) t r
        s.net.gateway).1 = (Gateway.mux d.middleware (onDatabase pg client x s.db env) r
          s.net.gateway).1 := congrArg Prod.fst herase
    refine ⟨env, r, x, t, _, rfl, rfl, rfl, hnet, rfl, ?_⟩
    rw [hresponse]
    obtain ⟨-, rfl⟩ := networkStep_request_eq_some.mp hnet
    exact turn_of_mux rfl rfl rfl rfl

/-! ## What is told -/

/-- The response tells what the book of the answers before it says. -/
def Tells (before : List Served) (e : Served) : Prop :=
  ∀ c call a, e.outcome = some (c, call, a) → (bookOf before).Answers call a

omit [DecidableEq SK] in
theorem Turn.represents {e : Served} (h : Turn d pg client s s' e)
    (hs : Audit.Represents pg s.db (bookOf s.served)) :
    Tells s.served e ∧ Audit.Represents pg s'.db (bookOf (s.served ++ [e])) := by
  rw [bookOf_concat, Served.postings]
  obtain h | ⟨claims, call, result, h⟩ := h
  · rw [h.db, h.outcome, List.append_nil]
    refine ⟨fun c call a hout => ?_, hs⟩
    rw [h.outcome] at hout
    cases hout
  · obtain ⟨x, hrun⟩ := h.run
    obtain ⟨hanswers, hafter⟩ := hs.runCall client (call, x)
    rw [hrun] at hanswers hafter
    rw [h.outcome]
    cases result with
    | error e =>
      refine ⟨fun c call' a hout => ?_, ?_⟩
      · rw [h.outcome] at hout
        cases hout
      · rw [calledOutcome, List.append_nil]
        exact hafter
    | ok b =>
      refine ⟨fun c call' a hout => ?_, hafter⟩
      rw [h.outcome] at hout
      cases hout
      exact hanswers b rfl

/-- The tables represent the book. -/
theorem represents_of_reachable {ok : Bank SK → BankLabel SK → Prop}
    (h : (bankSystem d pg client).ReachableIf ok s) :
    Audit.Represents pg s.db (bookOf s.served) := by
  refine LTS.ReachableIf.invariant (P := fun s : Bank SK =>
    Audit.Represents pg s.db (bookOf s.served)) ?_ ?_ h
  · rintro s ⟨-, hdb, -, hserved⟩
    rw [hdb, hserved]
    exact Audit.represents_empty
  · intro s l s' hs _ hstep
    obtain ⟨l', -, -, hdb, -, hserved⟩ | ⟨env, r, x, t, e, -, -, -, -, hserved, hturn⟩ :=
      bankStep_cases hstep
    · rw [hdb, hserved]
      exact hs
    · rw [hserved]
      exact (hturn.represents hs).2

/-- The request that was answered with these claims was allowed by the policy decision point. Its
token was granted less than a minute before to a `/token` request with the secret of its client,
and the private key `sk` that signed the proof of the one has signed the proof of the other. -/
structure Provenance (d : Deployment SK) (s : Network SK) (e : Served)
    (c : Gateway.TokenClaims) : Prop where
  allowed : Gateway.Allowed e.env e.request c
  tenant : c.tenantID = Idp.tenantOf c.sub
  issued : ∃ env₀ r₀ form info proof₀ claims₀ jwk₀ sk,
    Issuance d s env₀ r₀ form info proof₀ claims₀ jwk₀ sk ∧ info.clientID = c.sub ∧
    (env₀.issueAt ≤ e.env.proofAt ∧ e.env.tokenAt < env₀.issueAt + seconds 60) ∧
    ∃ accessToken proof jwk, (sk, proof) ∈ s.signed ∧
      Gateway.accessTokenOf e.request = .ok accessToken ∧
      Gateway.ProofVerified d.lib e.env.proofAt (e.request.get "DPoP") e.request.method
        e.request.fullURI accessToken proof jwk (d.pub sk).toPublicKey

omit [DecidableEq SK] in
theorem Provenance.mono {n n' : Network SK} {e : Served} {c : Gateway.TokenClaims}
    (h : Provenance d n e c) (hext : n.Extends n') : Provenance d n' e c := by
  obtain ⟨env₀, r₀, form, info, proof₀, claims₀, jwk₀, sk, hissuance, hclient, htime,
    accessToken, proof, jwk, hsigned, hproof⟩ := h.issued
  exact ⟨h.allowed, h.tenant, env₀, r₀, form, info, proof₀, claims₀, jwk₀, sk,
    hissuance.mono hext, hclient, htime, accessToken, proof, jwk, hext.signed _ hsigned, hproof⟩

omit [DecidableEq SK] in
/-- A token is bound to the key of the proof that it was granted for, so that a request it is
admitted with has a proof of the same key. -/
theorem Issuance.same_key {n : Network SK} {env₀ : Idp.TokenEnv} {r₀ : Idp.Request}
    {form : List (String × String)} {info : Idp.AuthCodeInfo} {proof₀ : Token}
    {claims₀ : Idp.DPoPClaims} {jwk₀ : Idp.JWK} {sk₀ sk : SK}
    (h : Issuance d n env₀ r₀ form info proof₀ claims₀ jwk₀ sk₀) {env : Gateway.Env}
    {r : Gateway.Request} {accessToken : String} {proof : Token} {jwk : Members}
    (hproof : Gateway.ProofVerified d.lib env.proofAt (r.get "DPoP") r.method r.fullURI accessToken
      proof jwk (d.pub sk).toPublicKey)
    (hcollision : CollisionFree ((r.get "DPoP" :: n.proofs).flatMap (thumbprintTexts d.lib)))
    (hbound : Idp.computeThumbprint jwk₀ = Gateway.calculateJWKThumbprint
      (Json.stringOf jwk "x") (Json.stringOf jwk "y")) : sk₀ = sk := by
  have hproof₀ := h.granted.possession
  have htext : jwk₀.canonical =
      Gateway.thumbprintText (Json.stringOf jwk "x") (Json.stringOf jwk "y") := by
    apply hcollision _ _ _ _ (Base64Url.encodeToString_injective hbound)
    · exact List.mem_flatMap.mpr ⟨r₀.get "DPoP", List.mem_cons_of_mem _ h.presented,
        canonical_mem_thumbprintTexts hproof₀⟩
    · exact List.mem_flatMap.mpr ⟨r.get "DPoP", List.mem_cons_self,
        thumbprintText_mem_thumbprintTexts hproof⟩
  exact d.pub_injective sk₀ sk (key_eq_of_text_eq hproof₀.coordinates hproof.coordinates htext)

omit [DecidableEq SK] in
theorem Network.Good.provenance {n : Network SK} (h : n.Good d) (hdoc : d.lib.Documented)
    {e : Served} (hreal : Realistic d n (.request e.env e.request))
    (hordered : Ordered e.env n.idp.clock) {c : Gateway.TokenClaims}
    (hadmits : Admits d.middleware e.env e.request n.gateway c)
    (hallowed : Gateway.Allowed e.env e.request c) : Provenance d n e c := by
  have hjwt : e.env.jwt = d.lib := hreal.1
  obtain ⟨accessToken, token, proof, jwk, hadmitted, rfl⟩ := hadmits.verified (hjwt ▸ hdoc)
  obtain ⟨env₀, r₀, form, info, proof₀, claims₀, jwk₀, sk₀, hissuance, rfl⟩ :=
    h.issued_of_admitted hreal hadmitted
  obtain ⟨-, -, hunforged, -, hcollision⟩ := hreal
  obtain ⟨key, hproof⟩ := hadmitted.possession
  rw [hjwt] at hproof
  obtain ⟨sk, rfl, hsigned⟩ := hunforged proof key hproof.decoded hproof.signature
  obtain rfl := hissuance.same_key hproof hcollision hadmitted.bound
  obtain ⟨hpos, hpast⟩ := hissuance.time
  obtain ⟨scheme, hheader, hscheme⟩ := hadmitted.authorization
  rw [contextClaims_accessToken] at hallowed ⊢
  exact ⟨hallowed, rfl, env₀, r₀, form, info, proof₀, claims₀, jwk₀, sk₀, hissuance, rfl,
    ⟨hpast.trans hordered.1, lt_of_notExpired hpos hadmitted.notExpired⟩, accessToken, proof, jwk,
    hsigned, Gateway.accessTokenOf_of_scheme hheader hscheme, hproof⟩

/-- The posting was made for the client of an answered request, in its tenant. -/
def Entered (d : Deployment SK) (s : Bank SK) (p : Audit.Posting) : Prop :=
  ∃ e ∈ s.served, ∃ c call a, e.outcome = some (c, call, a) ∧
    Audit.postingOf call a = some p ∧ Audit.Uuid.parse (Idp.tenantOf c.sub) = some p.tenant ∧
    Audit.Uuid.parse (Audit.getUserUUID c.sub) = some p.actor ∧ Provenance d s.net e c

omit [DecidableEq SK] in
/-- The posting of a call is for the tenant and the user of its claims. -/
theorem postingOf_callOf {path : String} {body : Option Json} {c : Gateway.TokenClaims}
    {call : Audit.Call} (hcall : Gateway.callOf path body c = some call) {a : Audit.Answer}
    {p : Audit.Posting} (hp : Audit.postingOf call a = some p) :
    Audit.Uuid.parse c.tenantID = some p.tenant ∧
      Audit.Uuid.parse (Audit.getUserUUID c.sub) = some p.actor := by
  obtain ⟨req, -, -, -, rfl⟩ | ⟨-, rfl⟩ | ⟨-, rfl⟩ := Gateway.callOf_cases hcall
  · cases a with
    | transaction t =>
      simp only [Audit.postingOf, Option.bind_eq_bind, Option.bind_eq_some_iff] at hp
      obtain ⟨tenant, htenant, actor, hactor, hp⟩ := hp
      cases hp
      exact ⟨htenant, hactor⟩
    | _ => cases hp
  · cases a with
    | balance n =>
      simp only [Audit.postingOf, Option.bind_eq_bind, Option.bind_eq_some_iff] at hp
      obtain ⟨tenant, htenant, actor, hactor, hp⟩ := hp
      cases hp
      exact ⟨htenant, hactor⟩
    | _ => cases hp
  · cases a <;> cases hp

omit [DecidableEq SK] in
theorem outcome_eq_some {e : Served} {c : Gateway.TokenClaims} {call : Audit.Call}
    {a : Audit.Answer} (h : e.outcome = some (c, call, a)) :
    Gateway.callOf e.request.path e.request.body c = some call := by
  simp only [Served.outcome, Option.bind_eq_bind, Option.bind_eq_some_iff] at h
  obtain ⟨⟨c', a'⟩, -, call', hcall, h⟩ := h
  cases h
  exact hcall

/-- The answers so far come from clients of the provider. -/
def AllProvenance (d : Deployment SK) (s : Bank SK) : Prop :=
  ∀ e ∈ s.served, ∀ c call a, e.outcome = some (c, call, a) → Provenance d s.net e c

/-- A request keeps it. -/
theorem AllProvenance.request (hdoc : d.lib.Documented)
    (hclosed : ∀ pdp, d.middleware.pdpClient = some pdp → pdp.failOpen = false)
    (hgood : s.net.Good d) (hall : AllProvenance d s) {e : Served}
    (hreal : Realistic d s.net (.request e.env e.request))
    (hnet : networkStep d s.net (.request e.env e.request) = some s'.net)
    (hserved : s'.served = s.served ++ [e]) (hturn : Turn d pg client s s' e) :
    AllProvenance d s' := by
  have hext := networkStep_extends hnet
  intro e' he' c call a hout
  rw [hserved] at he'
  rcases List.mem_append.mp he' with hold | hnew
  · exact (hall e' hold c call a hout).mono hext
  · obtain rfl := List.mem_singleton.mp hnew
    obtain hquiet | ⟨claims, call', result, hcalled⟩ := hturn
    · rw [hquiet.outcome] at hout
      cases hout
    · have hclaims : claims = c := by
        rw [hcalled.outcome] at hout
        cases result with
        | error _ => cases hout
        | ok b => exact congrArg Prod.fst (Option.some.inj hout)
      subst hclaims
      obtain ⟨pdp, hpdp, hallowed⟩ := hcalled.allowed
      have hordered := (networkStep_request_eq_some.mp hnet).1
      exact (hgood.provenance hdoc hreal hordered hcalled.admits
        (hallowed (hclosed pdp hpdp))).mono hext

/-- The run lemma. -/
theorem allProvenance_of_reachable (hdoc : d.lib.Documented)
    (hclosed : ∀ pdp, d.middleware.pdpClient = some pdp → pdp.failOpen = false)
    (h : (bankSystem d pg client).ReachableIf (BankRealistic d) s) :
    s.net.Good d ∧ AllProvenance d s := by
  induction h with
  | init h =>
    obtain ⟨hnet, -, -, hserved⟩ := h
    refine ⟨good_of_reachable (.init hnet), fun e he => ?_⟩
    rw [hserved] at he
    cases he
  | @step s s' l _ hreal hstep ih =>
    obtain ⟨hgood, hall⟩ := ih
    obtain ⟨l', hl, hnet, -, -, hserved⟩ |
      ⟨env, r, x, t, e, hl, henv, hr, hnet, hserved, hturn⟩ := bankStep_cases hstep
    · subst hl
      refine ⟨hgood.step hreal hnet, fun e he c call a hout => ?_⟩
      rw [hserved] at he
      exact (hall e he c call a hout).mono (networkStep_extends hnet)
    · subst hl hr
      have hreal' : Realistic d s.net (.request e.env e.request) := by
        rw [henv]
        exact hreal
      exact ⟨hgood.step hreal' hnet, hall.request hdoc hclosed hgood hreal' hnet hserved hturn⟩

/-- **Where the ledger comes from.** In every realistic run with a decision point that fails
closed, each audit row shows a posting, and each transaction is one, that was made for the client
of an admitted and allowed request. -/
theorem ledger_provenance (hdoc : d.lib.Documented)
    (hclosed : ∀ pdp, d.middleware.pdpClient = some pdp → pdp.failOpen = false)
    (h : (bankSystem d pg client).ReachableIf (BankRealistic d) s) :
    (∀ a ∈ s.db.auditLogs, ∃ p, Entered d s p ∧ p.ShownBy a) ∧
      ∀ row ∈ s.db.transactions, ∃ p, Entered d s p ∧ p.BookedAs row := by
  have hrepresents := represents_of_reachable h
  obtain ⟨-, hall⟩ := allProvenance_of_reachable hdoc hclosed h
  have hentered : ∀ p ∈ bookOf s.served, Entered d s p := by
    intro p hp
    obtain ⟨e, he, hpe⟩ := List.mem_flatMap.mp hp
    unfold Served.postings at hpe
    cases hout : e.outcome with
    | none =>
      rw [hout] at hpe
      cases hpe
    | some o =>
      obtain ⟨c, call, a⟩ := o
      rw [hout] at hpe
      have hposting := Option.mem_toList.mp hpe
      have hprovenance := hall e he c call a hout
      obtain ⟨htenant, hactor⟩ := postingOf_callOf (outcome_eq_some hout) hposting
      rw [hprovenance.tenant] at htenant
      exact ⟨e, he, c, call, a, hout, hposting, htenant, hactor, hprovenance⟩
  constructor
  · intro a ha
    obtain ⟨p, hp, hshown⟩ := Audit.exists_of_forall₂ (R := flip Audit.Posting.ShownBy)
      hrepresents.entries.flip ha
    exact ⟨p, hentered p hp, hshown⟩
  · intro row hrow
    obtain ⟨p, hp, hbooked⟩ := Audit.exists_of_forall₂ (R := flip Audit.Posting.BookedAs)
      hrepresents.transfers.flip hrow
    exact ⟨p, hentered p (List.mem_of_mem_filter hp), hbooked⟩

/-! ## The meters -/

/-- The answer that a request counter counts. -/
def CountedAs (path : String) (status : Int64) (e : Served) : Prop :=
  (Gateway.protectedHandler path).isSome = true ∧ e.request.path = path ∧
    e.response.counted = true ∧ Int64.ofNat e.response.status = status

instance (path : String) (status : Int64) (e : Served) : Decidable (CountedAs path status e) :=
  inferInstanceAs (Decidable (_ ∧ _ ∧ _ ∧ _))

/-- How many of the answers a counter counts. -/
def answersOf (path : String) (status : Int64) (served : List Served) : ℕ :=
  served.countP fun e => CountedAs path status e

theorem answersOf_concat (path : String) (status : Int64) (served : List Served) (e : Served) :
    answersOf path status (served ++ [e]) =
      answersOf path status served + if CountedAs path status e then 1 else 0 := by
  simp [answersOf, List.countP_append, List.countP_cons]

theorem countOf_append (key : String) (calls calls' : List Gateway.MetricsCall) :
    countOf key (calls ++ calls') = countOf key calls + countOf key calls' := List.countP_append

theorem countOf_uncounted {calls : List Gateway.MetricsCall} (h : Gateway.Uncounted calls)
    (key : String) : countOf key calls = 0 := by
  rw [countOf, List.countP_eq_zero]
  intro c hc hkey
  obtain ⟨p, rfl, -⟩ := keyOf_eq_some.mp (of_decide_eq_true hkey)
  exact h p.1 p.2 hc

omit [DecidableEq SK] in
theorem Called.countedAs {e : Served} {claims : Gateway.TokenClaims} {call : Audit.Call}
    {result : Except String Audit.Answer} (h : Called d pg client s s' e claims call result)
    (path : String) (status : Int64) : CountedAs path status e ↔
      e.request.path = path ∧ Int64.ofNat (calledStatus call result) = status := by
  have hcounted : e.response.counted = true := by
    unfold Gateway.Response.counted
    rw [h.status, decide_eq_true_iff]
    cases result with
    | error _ => exact Or.inr (Or.inr rfl)
    | ok a =>
      unfold calledStatus Gateway.statusOf
      cases call.isCreate with
      | true => exact Or.inr (Or.inl rfl)
      | false => exact Or.inl rfl
  unfold CountedAs
  rw [h.status]
  constructor
  · rintro ⟨-, hpath, -, hstatus⟩
    exact ⟨hpath, hstatus⟩
  · rintro ⟨hpath, hstatus⟩
    refine ⟨?_, hpath, hcounted, hstatus⟩
    subst hpath
    cases hroute : Gateway.protectedHandler e.request.path with
    | some handler => rfl
    | none =>
      have hcall := h.callOf
      rw [Gateway.callOf_of_unprotected hroute] at hcall
      cases hcall

omit [DecidableEq SK] in
/-- A counter moves with its answers. -/
theorem Turn.countOf {e : Served} (h : Turn d pg client s s' e) (path : String)
    (status : Int64) : countOf (Gateway.requestKey path status) s'.recorded =
      countOf (Gateway.requestKey path status) s.recorded +
        if CountedAs path status e then 1 else 0 := by
  obtain h | ⟨claims, call, result, h⟩ := h
  · obtain ⟨new, hrecorded, hnew⟩ := h.recorded
    have hnot : ¬ CountedAs path status e := by
      rintro ⟨hroute, rfl, hcounted, -⟩
      rw [h.counted hroute] at hcounted
      cases hcounted
    rw [hrecorded, countOf_append, countOf_uncounted hnew, if_neg hnot]
  · obtain ⟨security, pdp, latency, hrecorded, hbefore, hafter⟩ := h.recorded
    have hone : System.countOf (Gateway.requestKey path status)
        [.incrementRequestCounter e.request.path (Int64.ofNat (calledStatus call result))] =
          if CountedAs path status e then 1 else 0 := by
      rw [System.countOf, List.countP_singleton]
      have hkey : keyOf (.incrementRequestCounter e.request.path
          (Int64.ofNat (calledStatus call result))) = some (Gateway.requestKey path status) ↔
            CountedAs path status e := by
        rw [h.countedAs, keyOf, Option.some_inj]
        constructor
        · exact requestKey_inj
        · rintro ⟨rfl, rfl⟩
          rfl
      simp only [hkey, decide_eq_true_eq]
    have hsplit : s'.recorded = s.recorded ++ ([security, pdp] ++
        ([.incrementRequestCounter e.request.path (Int64.ofNat (calledStatus call result))] ++
          latency)) := hrecorded
    rw [hsplit, countOf_append, countOf_append, countOf_append, hone, countOf_uncounted hbefore,
      countOf_uncounted hafter]
    omega

omit [DecidableEq SK] in
/-- The tables grow with the answers to transfers and balances. -/
theorem Turn.lengths {e : Served} (h : Turn d pg client s s' e) :
    s'.db.transactions.length = s.db.transactions.length +
        (if CountedAs "/api/transfer" 201 e then 1 else 0) ∧
      s'.db.auditLogs.length = s.db.auditLogs.length +
        ((if CountedAs "/api/transfer" 201 e then 1 else 0) +
          if CountedAs "/api/balance" 200 e then 1 else 0) := by
  obtain h | ⟨claims, call, result, h⟩ := h
  · have hnot : ∀ path status, ¬ CountedAs path status e := by
      rintro path status ⟨hroute, rfl, hcounted, -⟩
      rw [h.counted hroute] at hcounted
      cases hcounted
    rw [h.db, if_neg (hnot _ _), if_neg (hnot _ _)]
    exact ⟨rfl, rfl⟩
  · obtain ⟨x, hrun⟩ := h.run
    simp only [h.countedAs]
    cases result with
    | error msg =>
      obtain ⟨htransactions, hauditLogs⟩ := Audit.runCall_failed (congrArg Prod.fst hrun)
      rw [hrun] at htransactions hauditLogs
      have hcreated : Int64.ofNat (calledStatus call (.error msg)) ≠ 201 := by
        show Int64.ofNat 500 ≠ 201
        decide
      have hread : Int64.ofNat (calledStatus call (.error msg)) ≠ 200 := by
        show Int64.ofNat 500 ≠ 200
        decide
      rw [if_neg fun hc => hcreated hc.2, if_neg fun hc => hread hc.2]
      exact ⟨congrArg List.length htransactions, congrArg List.length hauditLogs⟩
    | ok a =>
      obtain ⟨rows, hrecorded, htransactions, hauditLogs⟩ :=
        Audit.runCall_recorded (congrArg Prod.fst hrun)
      rw [hrun] at htransactions hauditLogs
      rw [htransactions, hauditLogs, List.length_append, List.length_append]
      obtain ⟨req, hpath, -, -, rfl⟩ | ⟨hpath, rfl⟩ | ⟨hpath, rfl⟩ :=
        Gateway.callOf_cases h.callOf
      · rw [hpath, if_pos ⟨rfl, rfl⟩, if_neg (by simp)]
        cases a with
        | transaction t =>
          obtain ⟨row, b, rfl, -⟩ := hrecorded
          exact ⟨rfl, rfl⟩
        | _ => exact hrecorded.elim
      · rw [hpath, if_neg (by simp), if_pos ⟨rfl, rfl⟩]
        cases a with
        | balance n =>
          obtain ⟨b, rfl, -⟩ := hrecorded
          exact ⟨rfl, rfl⟩
        | _ => exact hrecorded.elim
      · rw [hpath, if_neg (by simp), if_neg (by simp)]
        cases a with
        | logs l =>
          obtain rfl : rows = Audit.Rows.none := hrecorded
          exact ⟨rfl, rfl⟩
        | _ => exact hrecorded.elim

/-- The run lemma of the meters. -/
theorem counts_of_reachable (h : (bankSystem d pg client).Reachable s) :
    (∀ path status, countOf (Gateway.requestKey path status) s.recorded =
      answersOf path status s.served) ∧
    s.db.transactions.length = answersOf "/api/transfer" 201 s.served ∧
    s.db.auditLogs.length =
      answersOf "/api/transfer" 201 s.served + answersOf "/api/balance" 200 s.served := by
  refine LTS.Reachable.invariant (P := fun s : Bank SK =>
    (∀ path status, countOf (Gateway.requestKey path status) s.recorded =
      answersOf path status s.served) ∧
    s.db.transactions.length = answersOf "/api/transfer" 201 s.served ∧
    s.db.auditLogs.length =
      answersOf "/api/transfer" 201 s.served + answersOf "/api/balance" 200 s.served) ?_ ?_ h
  · rintro s ⟨-, hdb, hrecorded, hserved⟩
    rw [hdb, hrecorded, hserved]
    exact ⟨fun _ _ => rfl, rfl, rfl⟩
  · rintro s l s' ⟨hcount, htransactions, hauditLogs⟩ hstep
    obtain ⟨l', -, -, hdb, hrecorded, hserved⟩ | ⟨env, r, x, t, e, -, -, -, -, hserved, hturn⟩ :=
      bankStep_cases hstep
    · rw [hdb, hrecorded, hserved]
      exact ⟨hcount, htransactions, hauditLogs⟩
    · obtain ⟨htransactions', hauditLogs'⟩ := hturn.lengths
      simp only [hserved, answersOf_concat, hturn.countOf, htransactions', hauditLogs',
        hcount, htransactions, hauditLogs]
      refine ⟨fun _ _ => trivial, trivial, ?_⟩
      omega

/-- The value of a request counter; one that nothing was counted on reads 0. -/
def counter (calls : List Gateway.MetricsCall) (path : String) (status : Int64) : Int64 :=
  ((Gateway.recordAll calls).requestsTotal (Gateway.requestKey path status)).getD 0

theorem counter_eq (calls : List Gateway.MetricsCall) (path : String) (status : Int64) :
    counter calls path status = Int64.ofNat (countOf (Gateway.requestKey path status) calls) := by
  unfold counter
  rw [requestsTotal_recordAll]
  by_cases hzero : countOf (Gateway.requestKey path status) calls = 0
  · rw [if_pos hzero, hzero]
    rfl
  · rw [if_neg hzero]
    rfl

/-- **The meters.** In every run of the service, the request counter of a path and a status holds
the number of answers of the path with the status, the refusals of the middlewares and of bad
requests left out. The counters of transfers and balances hold the numbers of rows. -/
theorem meters_agree (h : (bankSystem d pg client).Reachable s) :
    (∀ path status,
      counter s.recorded path status = Int64.ofNat (answersOf path status s.served)) ∧
    counter s.recorded "/api/transfer" 201 = Int64.ofNat s.db.transactions.length ∧
    counter s.recorded "/api/transfer" 201 + counter s.recorded "/api/balance" 200 =
      Int64.ofNat s.db.auditLogs.length := by
  obtain ⟨hcount, htransactions, hauditLogs⟩ := counts_of_reachable h
  have hcounter : ∀ path status,
      counter s.recorded path status = Int64.ofNat (answersOf path status s.served) := by
    intro path status
    rw [counter_eq, hcount]
  refine ⟨hcounter, ?_, ?_⟩
  · rw [hcounter, htransactions]
  · rw [hcounter, hcounter, hauditLogs, Int64.ofNat_add]

/-! ### A transfer of `client-alice` -/

/-- The service can do what the parties do. -/
theorem bank_of_network (pg : Audit.Pg) (client : Audit.DBClient) {n : Network SK} (h : (networkSystem d).ReachableIf
    (fun s l => Realistic d s l ∧ l.Aside) n) :
    (bankSystem d pg client).ReachableIf (BankRealistic d) ⟨n, Audit.Db.empty, [], []⟩ := by
  induction h with
  | init h => exact .init ⟨h, rfl, rfl, rfl⟩
  | @step s s' l _ hok hstep ih =>
    obtain ⟨hreal, haside⟩ := hok
    have hnet : networkStep d s l = some s' := hstep
    refine .step (l := .network l) ih hreal ?_
    show bankStep d pg client _ _ = _
    cases l with
    | request env r => exact haside.elim
    | _ =>
      unfold bankStep
      simp only [hnet, Option.map_some]

omit [DecidableEq SK] in
/-- The database does not change who is admitted. -/
theorem admitted_onDatabase {m : Gateway.AuthMiddleware} {env : Gateway.Env}
    {r : Gateway.Request} {w : Gateway.World} {accessToken : String} {token proof : Token}
    {jwk : Members} (h : Gateway.Admitted m env r w accessToken token proof jwk)
    (x : Audit.Inputs) (db : Audit.Db) :
    Gateway.Admitted m (onDatabase pg client x db env) r w accessToken token proof jwk :=
  ⟨h.authorization, h.nonempty, h.proofHeader, h.decoded, h.ecdsa, h.kid, h.signature, h.valid,
    h.notExpired, h.possession, h.ath, h.unused, h.bound, h.confirmation, h.identity⟩

theorem exists_bankStep (d : Deployment SK) (pg : Audit.Pg) (client : Audit.DBClient) (s : Bank SK)
    {env : Gateway.Env} (hordered : Ordered env s.net.idp.clock)
    (r : Gateway.Request) (x : Audit.Inputs) (t : Gateway.Durations) :
    ∃ s', bankStep d pg client s (.request env r x t) = some s' := by
  have hordered' : Ordered (onDatabase pg client x s.db env) s.net.idp.clock := hordered
  unfold bankStep networkStep
  simp only [if_pos hordered', Option.map_some]
  exact ⟨_, rfl⟩

theorem documented_aliceDeployment : aliceDeployment.lib.Documented := by
  apply Jwt.ofSigned_documented
  intro p hp
  simp only [aliceSigned, List.mem_cons, List.not_mem_nil, or_false] at hp
  rcases hp with rfl | rfl | rfl
  · simp [Gateway.aliceToken]
  · simp [Gateway.alicePostProof, Gateway.deviceProof]
  · simp [Idp.aliceTokenProof]

theorem closed_aliceDeployment : ∀ pdp, aliceDeployment.middleware.pdpClient = some pdp →
    pdp.failOpen = false := by
  intro pdp h
  cases h
  rfl

/-- A request that is admitted and allowed runs its call. -/
theorem runs_call {env : Gateway.Env} {r : Gateway.Request} {x : Audit.Inputs}
    {t : Gateway.Durations} (hstep : bankStep d pg client s (.request env r x t) = some s')
    (hdoc : env.jwt.Documented) (hlog : s.net.gateway.log = [])
    (hclosed : ∀ pdp, d.middleware.pdpClient = some pdp → pdp.failOpen = false)
    (hclient : d.middleware.pdpClient.isSome = true) {accessToken : String} {token proof : Token}
    {jwk : Members} (hadmitted : Gateway.Admitted d.middleware env r s.net.gateway accessToken token
      proof jwk) (hallowed : Gateway.Allowed env r (Gateway.contextClaims token.claims))
    {call : Audit.Call}
    (hcall : Gateway.callOf r.path r.body (Gateway.contextClaims token.claims) = some call) :
    s'.db = (Audit.runCall pg client (call, x) s.db).2 := by
  obtain ⟨net, hnet, rfl⟩ := Option.map_eq_some_iff.mp hstep
  obtain ⟨-, rfl⟩ := networkStep_request_eq_some.mp hnet
  have hverified : Gateway.Verified d.middleware (onDatabase pg client x s.db env) r
      s.net.gateway (Gateway.contextClaims token.claims) :=
    ⟨_, _, _, _, admitted_onDatabase hadmitted x s.db, rfl⟩
  have hdoc' : (onDatabase pg client x s.db env).jwt.Documented := hdoc
  show tablesServed pg client x s.net _ s.db = _
  unfold tablesServed
  rw [hlog, List.length_nil, List.drop_zero]
  obtain ⟨hnot, -⟩ | ⟨claims, call', -, hverified', -, hcall', hlogged⟩ :=
    Gateway.mux_log hclosed hdoc' r hlog
  · refine absurd ⟨hclient, _, hverified, hallowed, ?_⟩ hnot
    rw [hcall]
    rfl
  · obtain rfl := hverified'.unique hverified
    obtain rfl := Option.some.inj (hcall'.symm.trans hcall)
    simp only [hlogged]
    rfl

/-- A run of the service in which `client-alice` makes a transfer. -/
theorem exists_aliceBank : ∃ s : Bank Holder,
    (bankSystem aliceDeployment Audit.Pg.utc ⟨"secret"⟩).ReachableIf
      (BankRealistic aliceDeployment) s ∧ s.db.transactions.length = 1 := by
  have hstart := bank_of_network Audit.Pg.utc ⟨"secret"⟩ reachable_aliceNetwork_aside
  have hlater : seconds 1767225600 ≤ seconds 1767225601 := by decide
  have hordered : Ordered aliceNetworkEnv aliceNetwork.idp.clock :=
    ⟨hlater, le_refl _, le_refl _, le_refl _, le_refl _⟩
  obtain ⟨s', hs'⟩ := exists_bankStep aliceDeployment Audit.Pg.utc ⟨"secret"⟩
    ⟨aliceNetwork, Audit.Db.empty, [], []⟩ hordered
    (Gateway.aliceRequest "DPoP" "POST" Gateway.alicePostProof)
    (Audit.Inputs.plain 0 Audit.uuidA) ⟨1, 1, 1, 1, 1, 1⟩
  have hcall : Gateway.callOf "/api/transfer"
      (Gateway.aliceRequest "DPoP" "POST" Gateway.alicePostProof).body
      (Gateway.contextClaims Gateway.aliceToken.token.claims) =
        some (.createTransaction Audit.tenantA ⟨25, 0⟩ "rent" "client-alice") := rfl
  have hdb := runs_call hs' documented_aliceDeployment rfl closed_aliceDeployment rfl
    admitted_aliceNetwork ⟨⟨1, ""⟩, rfl, rfl⟩ hcall
  have hreal : BankRealistic aliceDeployment ⟨aliceNetwork, Audit.Db.empty, [], []⟩
      (.request aliceNetworkEnv (Gateway.aliceRequest "DPoP" "POST" Gateway.alicePostProof)
        (Audit.Inputs.plain 0 Audit.uuidA) ⟨1, 1, 1, 1, 1, 1⟩) := realistic_aliceNetwork
  refine ⟨s', hstart.step hreal hs', ?_⟩
  rw [hdb]
  decide

/-- The transfer goes back to the `/token` request of `client-alice`. -/
theorem ledger_provenance_alice : ∃ s : Bank Holder,
    (bankSystem aliceDeployment Audit.Pg.utc ⟨"secret"⟩).ReachableIf
      (BankRealistic aliceDeployment) s ∧ s.db.transactions.length = 1 ∧
    ∀ row ∈ s.db.transactions, ∃ p, Entered aliceDeployment s p ∧ p.BookedAs row := by
  obtain ⟨s, hs, hlength⟩ := exists_aliceBank
  exact ⟨s, hs, hlength,
    (ledger_provenance documented_aliceDeployment closed_aliceDeployment hs).2⟩

/-- The transfer is counted. -/
theorem meters_agree_alice : ∃ s : Bank Holder,
    (bankSystem aliceDeployment Audit.Pg.utc ⟨"secret"⟩).Reachable s ∧
    counter s.recorded "/api/transfer" 201 = 1 := by
  obtain ⟨s, hs, hlength⟩ := exists_aliceBank
  have hreach := hs.mono fun _ _ _ => trivial
  obtain ⟨-, htransfers, -⟩ := meters_agree hreach
  refine ⟨s, hreach, ?_⟩
  rw [htransfers, hlength]
  rfl

end System
end DarkServices
