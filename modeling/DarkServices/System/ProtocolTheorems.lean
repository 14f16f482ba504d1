import DarkServices.Gateway.ReplayTheorems
import DarkServices.Idp.HandlerTheorems
import DarkServices.System.DeviceKeyTheorems
import DarkServices.System.JwksTheorems

/-!
# A token is of use only with its key

Two facts hold along every run of the network (`Network.Good`): the gateway's cache holds no key
but the provider's, and every token the provider has signed was granted to a `/token` request of
the history, with the secret of its client and a proof that somebody has signed.

A request that SecureAPI admits carries such a token, bound to the thumbprint of the key of its
own proof. The two programs compute thumbprints differently, but one thumbprint belongs to one
key (`canonical_eq_thumbprintText_iff`), so the private key that signed the proof for the token
has signed the proof of the request (`admitted_request_provenance`).
-/

namespace DarkServices
namespace System

open Lib
open Lib.Json (lookup stringOf)

variable {SK : Type} {d : Deployment SK}

/-! ## The published key -/

theorem ServesKey.key_eq {reply : Gateway.JwksReply} (h : ServesKey d reply)
    {jwks : List Gateway.JWKKey} (hreply : reply.keys = .ok jwks) {kid : String} {key : PublicKey}
    (hkey : Gateway.newKeys jwks (fun _ => none) kid = some key) :
    key = (d.pub d.idpKey).toPublicKey := by
  rcases h with rfl | ⟨e, he⟩
  · exact newKeys_jwksHandler hreply hkey
  · cases he.symm.trans hreply

/-! ## The steps -/

variable [DecidableEq SK] {s s' : Network SK}

theorem networkStep_idp_eq_some {l : Idp.Label} :
    networkStep d s (.idp l) = some s' ↔ ∃ idp, Idp.step d.lib d.timeText s.idp l = some idp ∧
      s' = ⟨idp, s.gateway, providerSigns d s.idp.store l ++ s.signed,
        presentedProof l ++ s.proofs⟩ := by
  rw [networkStep, Option.map_eq_some_iff]
  simp only [eq_comm]

theorem networkStep_sign_eq_some {sk : SK} {t : Token} :
    networkStep d s (.sign sk t) = some s' ↔
      sk ≠ d.idpKey ∧ s' = { s with signed := (sk, t) :: s.signed } := by
  rw [networkStep, Option.ite_none_left_eq_some, Option.some.injEq, eq_comm (b := s')]

theorem networkStep_request_eq_some {env : Gateway.Env} {r : Gateway.Request} :
    networkStep d s (.request env r) = some s' ↔ Ordered env s.idp.clock ∧
      s' = ⟨{ s.idp with clock := env.policyAt }, (Gateway.mux d.middleware env r s.gateway).2,
        s.signed, r.get "DPoP" :: s.proofs⟩ := by
  rw [networkStep, Option.ite_none_right_eq_some, Option.some.injEq, eq_comm (b := s')]

theorem networkStep_cleanup_eq_some {now : ℤ} {jti : String} :
    networkStep d s (.cleanup now jti) = some s' ↔ now ≤ s.idp.clock ∧
      s' = { s with gateway :=
        { s.gateway with jtis := Gateway.cleanupVisit s.gateway.jtis now jti } } := by
  rw [networkStep, Option.ite_none_right_eq_some, Option.some.injEq, eq_comm (b := s')]

/-- Everything that is in one state is in the other one, which is not earlier. -/
structure Network.Extends (s s' : Network SK) : Prop where
  history : ∀ e ∈ s.idp.history, e ∈ s'.idp.history
  clock : s.idp.clock ≤ s'.idp.clock
  signed : ∀ p ∈ s.signed, p ∈ s'.signed
  proofs : ∀ text ∈ s.proofs, text ∈ s'.proofs

/-- A step takes nothing away. -/
theorem networkStep_extends {l : NetworkLabel SK} (h : networkStep d s l = some s') :
    s.Extends s' := by
  cases l with
  | idp l =>
    obtain ⟨idp, hidp, rfl⟩ := networkStep_idp_eq_some.mp h
    obtain ⟨hhistory, hclock⟩ := Idp.step_grows hidp
    exact ⟨hhistory, hclock, fun _ hp => List.mem_append_right _ hp,
      fun _ ht => List.mem_append_right _ ht⟩
  | sign sk t =>
    obtain ⟨-, rfl⟩ := networkStep_sign_eq_some.mp h
    exact ⟨fun _ he => he, le_refl _, fun _ hp => List.mem_cons_of_mem _ hp, fun _ ht => ht⟩
  | request env r =>
    obtain ⟨⟨hproof, hjti, hkeys, htoken, hpolicy⟩, rfl⟩ := networkStep_request_eq_some.mp h
    refine ⟨fun _ he => he, ?_, fun _ hp => hp, fun _ ht => List.mem_cons_of_mem _ ht⟩
    show s.idp.clock ≤ env.policyAt
    omega
  | cleanup now jti =>
    obtain ⟨-, rfl⟩ := networkStep_cleanup_eq_some.mp h
    exact ⟨fun _ he => he, le_refl _, fun _ hp => hp, fun _ ht => ht⟩

/-! ## The invariant of a run -/

/-- A `/token` request of the history that was granted a token, on a proof that the private key
`sk` has signed. -/
structure Issuance (d : Deployment SK) (s : Network SK) (env : Idp.TokenEnv) (r : Idp.Request)
    (form : List (String × String)) (info : Idp.AuthCodeInfo) (proof : Token)
    (claims : Idp.DPoPClaims) (jwk : Idp.JWK) (sk : SK) : Prop where
  recorded : ∃ resp, .token env r (.token resp) ∈ s.idp.history
  granted : Idp.Granted d.lib env r form info proof claims jwk (d.pub sk).toPublicKey
  signed : (sk, proof) ∈ s.signed
  presented : r.get "DPoP" ∈ s.proofs
  time : 0 ≤ env.issueAt ∧ env.issueAt ≤ s.idp.clock

/-- The token was given to such a request. -/
def Issued (d : Deployment SK) (s : Network SK) (t : Token) : Prop :=
  ∃ env r form info proof claims jwk sk, Issuance d s env r form info proof claims jwk sk ∧
    t = Idp.accessToken info.clientID (Idp.computeThumbprint jwk) env.issueAt

omit [DecidableEq SK] in
theorem Issuance.mono {env : Idp.TokenEnv} {r : Idp.Request} {form : List (String × String)}
    {info : Idp.AuthCodeInfo} {proof : Token} {claims : Idp.DPoPClaims} {jwk : Idp.JWK} {sk : SK}
    (h : Issuance d s env r form info proof claims jwk sk) (hext : s.Extends s') :
    Issuance d s' env r form info proof claims jwk sk := by
  obtain ⟨resp, hmem⟩ := h.recorded
  obtain ⟨hpos, hpast⟩ := h.time
  exact ⟨⟨resp, hext.history _ hmem⟩, h.granted, hext.signed _ h.signed,
    hext.proofs _ h.presented, hpos, hpast.trans hext.clock⟩

omit [DecidableEq SK] in
theorem Issued.mono {t : Token} (h : Issued d s t) (hext : s.Extends s') : Issued d s' t := by
  obtain ⟨env, r, form, info, proof, claims, jwk, sk, hissuance, ht⟩ := h
  exact ⟨env, r, form, info, proof, claims, jwk, sk, hissuance.mono hext, ht⟩

/-- The gateway knows the provider's key only, and every token of the provider was issued. -/
structure Network.Good (d : Deployment SK) (s : Network SK) : Prop where
  keys : ∀ kid key, s.gateway.keys.keys kid = some key → key = (d.pub d.idpKey).toPublicKey
  issued : ∀ t, (d.idpKey, t) ∈ s.signed → Issued d s t
  clock : 0 ≤ s.idp.clock

omit [DecidableEq SK] in
/-- What the provider signs is a token it has granted. -/
theorem mem_providerSigns {store : Idp.RAMStore} {l : Idp.Label} {sk : SK} {t : Token}
    (h : (sk, t) ∈ providerSigns d store l) :
    ∃ env r jti text, l = .token env r ∧
      (Idp.tokenGrant d.lib d.timeText env r store).1 = .ok (t, jti) ∧
      env.signedString t = some text := by
  cases l with
  | token env r =>
    rw [providerSigns] at h
    split at h
    · cases h
    · rename_i t' jti hgrant
      split at h
      · rename_i hsome
        cases List.mem_singleton.mp h
        obtain ⟨text, htext⟩ := Option.isSome_iff_exists.mp hsome
        exact ⟨env, r, jti, text, rfl, hgrant, htext⟩
      · cases h
  | _ => cases h

omit [DecidableEq SK] in
theorem providerSigns_of_grant {store : Idp.RAMStore} {env : Idp.TokenEnv} {r : Idp.Request}
    {t : Token} {jti text : String}
    (hgrant : (Idp.tokenGrant d.lib d.timeText env r store).1 = .ok (t, jti))
    (htext : env.signedString t = some text) :
    providerSigns d store (.token env r) = [(d.idpKey, t)] := by
  rw [providerSigns, hgrant]
  simp [htext]

/-- A token that is signed in a step has been issued in it. -/
theorem Network.Good.issued_of_signs (h : s.Good d) {l : Idp.Label} {sk : SK}
    {t : Token} (hreal : Realistic d s (.idp l))
    (hstep : networkStep d s (.idp l) = some s') (hsigns : (sk, t) ∈ providerSigns d s.idp.store l) :
    Issued d s' t := by
  have hext := networkStep_extends hstep
  obtain ⟨env, r, jti, text, rfl, hgrant, htext⟩ := mem_providerSigns hsigns
  obtain ⟨idp, hidp, rfl⟩ := networkStep_idp_eq_some.mp hstep
  obtain ⟨⟨hcode, hproof, hjti, hissue⟩, rfl⟩ := Idp.step_token_eq_some.mp hidp
  obtain ⟨form, info, proof, claims, jwk, key, hgranted, -, ht, -⟩ := Idp.tokenGrant_eq_ok hgrant
  -- the proof of the request is no forgery
  obtain ⟨sk, rfl, hsigned⟩ := hreal proof key hgranted.possession.decoded
    hgranted.possession.signature
  have hreply := Idp.tokenHandler_of_grant hgrant htext
  have hclock := h.clock
  refine ⟨env, r, form, info, proof, claims, jwk, sk, ⟨⟨⟨text, "DPoP", 60, "rt_" ++ jti⟩, ?_⟩,
    hgranted, hext.signed _ hsigned, List.mem_cons_self, by omega, le_refl _⟩, ht⟩
  rw [← hreply]
  exact List.mem_append_right _ (List.mem_singleton.mpr rfl)

/-- Every realistic step keeps the invariant. -/
theorem Network.Good.step (h : s.Good d) {l : NetworkLabel SK} (hreal : Realistic d s l)
    (hstep : networkStep d s l = some s') : s'.Good d := by
  have hext := networkStep_extends hstep
  have hclock := h.clock.trans hext.clock
  cases l with
  | idp l =>
    -- the gateway is not involved
    obtain ⟨idp, -, rfl⟩ := networkStep_idp_eq_some.mp hstep
    refine ⟨h.keys, ?_, hclock⟩
    intro t ht
    rcases List.mem_append.mp ht with hnew | hold
    · exact h.issued_of_signs hreal hstep hnew
    · exact (h.issued t hold).mono hext
  | sign sk t' =>
    obtain ⟨hne, rfl⟩ := networkStep_sign_eq_some.mp hstep
    refine ⟨h.keys, ?_, hclock⟩
    intro t ht
    rcases List.mem_cons.mp ht with hnew | hold
    · -- the network does not have the provider's key
      exact absurd (congrArg Prod.fst hnew).symm hne
    · exact (h.issued t hold).mono hext
  | request env r =>
    obtain ⟨-, rfl⟩ := networkStep_request_eq_some.mp hstep
    refine ⟨?_, fun t ht => (h.issued t ht).mono hext, hclock⟩
    -- the cache is as it was, or holds what the endpoint has published
    intro kid key hkey
    rcases Gateway.mux_refreshed d.middleware env r s.gateway with hsame | ⟨jwks, hreply, hfilled⟩
    · exact h.keys kid key (hsame ▸ hkey)
    · rw [hfilled] at hkey
      exact hreal.2.1.key_eq hreply hkey
  | cleanup now jti =>
    obtain ⟨-, rfl⟩ := networkStep_cleanup_eq_some.mp hstep
    exact ⟨h.keys, fun t ht => (h.issued t ht).mono hext, hclock⟩

/-- The run lemma. -/
theorem good_of_reachable (h : (networkSystem d).ReachableIf (Realistic d) s) : s.Good d := by
  refine LTS.ReachableIf.invariant (P := fun s => s.Good d) ?_ ?_ h
  · rintro s ⟨hclock, -, hgateway, hsigned, -⟩
    constructor
    · intro kid key hkey
      rw [hgateway] at hkey
      cases hkey
    · intro t ht
      rw [hsigned] at ht
      cases ht
    · exact hclock
  · intro s l s' hgood hreal hstep
    exact hgood.step hreal hstep

/-! ## An admitted request -/

/-- The claims that a request is admitted with are verified. -/
theorem Admits.verified {m : Gateway.AuthMiddleware} {env : Gateway.Env} {r : Gateway.Request}
    {w : Gateway.World} {c : Gateway.TokenClaims} (h : Admits m env r w c)
    (hdoc : env.jwt.Documented) : Gateway.Verified m env r w c := by
  obtain ⟨w', hadmits⟩ := h
  rcases Gateway.secureAPI_cases m env r w hdoc with
    ⟨accessToken, token, proof, jwk, w'', hadmitted, -, hnext⟩ | ⟨resp, w'', -, -, hnext⟩
  · -- a handler that shows its claims
    have hanswer := (hadmits Gateway.whoAmI).symm.trans (hnext Gateway.whoAmI)
    have hbody : Gateway.Body.answer c (.balance 0) =
        Gateway.Body.answer (Gateway.contextClaims token.claims) (.balance 0) :=
      congrArg (fun p => p.1.body) hanswer
    exact ⟨accessToken, token, proof, jwk, hadmitted, (Gateway.Body.answer.inj hbody).1⟩
  · have hanswers : Gateway.Answers (Gateway.secureAPI m) env r w resp := ⟨w'', hnext⟩
    exact absurd ⟨_, w', hadmits⟩ hanswers.not_invokes

/-- The claims that the gateway reads in a token of the provider. -/
theorem contextClaims_accessToken (clientID jkt : String) (now : ℤ) :
    Gateway.contextClaims (Idp.accessToken clientID jkt now).claims =
      ⟨clientID, Idp.tenantOf clientID, Idp.roleOf clientID, "transfer balance", jkt⟩ := rfl

/-- A token of the provider has expired one minute after its issue, if not before. -/
theorem lt_of_notExpired {clientID jkt : String} {issueAt now : ℤ} (hpos : 0 ≤ issueAt)
    (h : Jwt.NotExpired (Idp.accessToken clientID jkt issueAt).claims now) :
    now < issueAt + seconds 60 := by
  have hexp : unix (issueAt + Idp.tokenExpiration) = 0 ∨
      now < seconds (Decimal.floor ⟨unix (issueAt + Idp.tokenExpiration), 0⟩) := h
  -- the expiry time is cut to whole seconds, and is not zero after 1970
  rw [Decimal.floor_ofInt] at hexp
  unfold unix seconds Idp.tokenExpiration seconds at hexp
  unfold seconds
  omega

omit [DecidableEq SK] in
/-- The key that the gateway verifies an access token with is the provider's. -/
theorem Network.Good.key_eq (h : s.Good d) {reply : Gateway.JwksReply} (hserves : ServesKey d reply)
    {now : ℤ} {kid : String} {key : PublicKey}
    (hkey : (Gateway.getPublicKey s.gateway.keys reply now kid).1 = .ok key) :
    key = (d.pub d.idpKey).toPublicKey := by
  rcases Gateway.getPublicKey_eq_ok hkey with hcached | ⟨jwks, hreply, hnew⟩
  · exact h.keys kid key hcached
  · exact hserves.key_eq hreply hnew

omit [DecidableEq SK] in
/-- The access token of an admitted request was issued, before its proof was verified. -/
theorem Network.Good.issued_of_admitted (h : s.Good d) {env : Gateway.Env} {r : Gateway.Request}
    (hreal : Realistic d s (.request env r)) {accessToken : String} {token proof : Token}
    {jwk : Members} (hadmitted : Gateway.Admitted d.middleware env r s.gateway accessToken token
      proof jwk) : Issued d s token := by
  obtain ⟨hjwt, hserves, -, htoken, -⟩ := hreal
  obtain ⟨key, hkey, hsig⟩ := hadmitted.signature
  obtain rfl := h.key_eq hserves hkey
  obtain ⟨scheme, hheader, hscheme⟩ := hadmitted.authorization
  have haccess := Gateway.accessTokenOf_of_scheme hheader hscheme
  -- the access token is no forgery, so the provider has signed it
  have hdecoded := hadmitted.decoded
  rw [hjwt] at hdecoded hsig
  obtain ⟨sk, hsk, hsigned⟩ := htoken accessToken haccess token _ hdecoded hsig
  obtain rfl := d.pub_injective sk d.idpKey hsk
  exact h.issued token hsigned

/-- **Provenance.** In every run, when SecureAPI admits a request with claims for the client `c.sub`,
an earlier `/token` request was given a token. It had the registered secret of `c.sub`, and the
private key `sk` that signed its proof has signed the proof of the admitted request. From the issue
on, all readings of the clock during the admission lie within one minute. The tenant and the role
are those of `c.sub`. -/
theorem admitted_request_provenance (hdoc : d.lib.Documented)
    (h : (networkSystem d).ReachableIf (Realistic d) s) {env : Gateway.Env} {r : Gateway.Request}
    (hreal : Realistic d s (.request env r)) (hordered : Ordered env s.idp.clock)
    {c : Gateway.TokenClaims} (hadmits : Admits d.middleware env r s.gateway c) :
    ∃ env₀ r₀ resp form sk, .token env₀ r₀ (.token resp) ∈ s.idp.history ∧
      (env₀.issueAt ≤ env.proofAt ∧ env.tokenAt < env₀.issueAt + seconds 60) ∧
      (r₀.form = some form ∧
        Idp.registeredClients.lookup c.sub = some (Idp.valueOf form "client_secret")) ∧
      (∃ proof claims jwk, (sk, proof) ∈ s.signed ∧
        Idp.ProofVerified d.lib env₀.proofAt (r₀.get "DPoP") "POST" r₀.fullURI "" proof claims jwk
          (d.pub sk).toPublicKey) ∧
      (∃ accessToken proof jwk, (sk, proof) ∈ s.signed ∧
        Gateway.accessTokenOf r = .ok accessToken ∧
        Gateway.ProofVerified d.lib env.proofAt (r.get "DPoP") r.method r.fullURI accessToken proof
          jwk (d.pub sk).toPublicKey) ∧
      c.tenantID = Idp.tenantOf c.sub ∧ c.role = Idp.roleOf c.sub := by
  have hgood := good_of_reachable h
  have hjwt : env.jwt = d.lib := hreal.1
  obtain ⟨accessToken, token, proof, jwk, hadmitted, rfl⟩ := hadmits.verified (hjwt ▸ hdoc)
  obtain ⟨env₀, r₀, form, info, proof₀, claims₀, jwk₀, sk₀, hissuance, rfl⟩ :=
    hgood.issued_of_admitted hreal hadmitted
  obtain ⟨-, -, hunforged, -, hcollision⟩ := hreal
  -- the proof of the request is no forgery either
  obtain ⟨key, hproof⟩ := hadmitted.possession
  rw [hjwt] at hproof
  obtain ⟨sk, rfl, hsigned⟩ := hunforged proof key hproof.decoded hproof.signature
  have hproof₀ := hissuance.granted.possession
  -- the token is bound to the thumbprint of both keys, so the keys are one
  have hthumbprint : Idp.computeThumbprint jwk₀ =
      Gateway.calculateJWKThumbprint (stringOf jwk "x") (stringOf jwk "y") := hadmitted.bound
  have htext : jwk₀.canonical = Gateway.thumbprintText (stringOf jwk "x") (stringOf jwk "y") := by
    apply hcollision _ _ _ _ (Base64Url.encodeToString_injective hthumbprint)
    · exact List.mem_flatMap.mpr ⟨r₀.get "DPoP", List.mem_cons_of_mem _ hissuance.presented,
        canonical_mem_thumbprintTexts hproof₀⟩
    · exact List.mem_flatMap.mpr ⟨r.get "DPoP", List.mem_cons_self,
        thumbprintText_mem_thumbprintTexts hproof⟩
  obtain rfl : sk₀ = sk :=
    d.pub_injective sk₀ sk (key_eq_of_text_eq hproof₀.coordinates hproof.coordinates htext)
  obtain ⟨resp, hrecorded⟩ := hissuance.recorded
  obtain ⟨hpos, hpast⟩ := hissuance.time
  obtain ⟨scheme, hheader, hscheme⟩ := hadmitted.authorization
  rw [contextClaims_accessToken]
  exact ⟨env₀, r₀, resp, form, sk₀, hrecorded,
    ⟨hpast.trans hordered.1, lt_of_notExpired hpos hadmitted.notExpired⟩,
    ⟨hissuance.granted.parsed, hissuance.granted.secret.2⟩,
    ⟨proof₀, claims₀, jwk₀, hissuance.signed, hproof₀⟩,
    ⟨accessToken, proof, jwk, hsigned, Gateway.accessTokenOf_of_scheme hheader hscheme, hproof⟩,
    rfl, rfl⟩

/-! ### A run of `client-alice` -/

/-- The holders of the two private keys. -/
inductive Holder
  | provider
  | device
deriving DecidableEq

def holderKey : Holder → CurveKey
  | .provider => { Gateway.aliceIdpKey with x_lt := by decide, y_lt := by decide }
  | .device => { Gateway.aliceKey with x_lt := by decide, y_lt := by decide }

theorem holderKey_injective (sk sk' : Holder)
    (h : (holderKey sk).toPublicKey = (holderKey sk').toPublicKey) : sk = sk' := by
  have hne : Gateway.aliceIdpKey ≠ Gateway.aliceKey := by decide
  cases sk with
  | provider =>
    cases sk' with
    | provider => rfl
    | device => exact absurd h hne
  | device =>
    cases sk' with
    | provider => exact absurd h.symm hne
    | device => rfl

/-- The tokens of the run: the access token and two proofs of the device. -/
def aliceSigned : List Jwt.Signed :=
  [Gateway.aliceToken, Gateway.alicePostProof, Idp.aliceTokenProof]

def aliceDeployment : Deployment Holder where
  lib := Jwt.ofSigned aliceSigned
  timeText _ := ""
  pub := holderKey
  pub_injective := holderKey_injective
  idpKey := .provider
  middleware := Gateway.gateway

/-- The library finds each token by its text. -/
theorem find_alice {p : Jwt.Signed} (hp : p ∈ aliceSigned) :
    aliceSigned.find? (fun s => s.text == p.text) = some p := by
  have hdiffer : aliceSigned.Pairwise fun s s' => s.text ≠ s'.text := by
    simp [aliceSigned, Gateway.aliceToken, Gateway.alicePostProof, Gateway.deviceProof,
      Idp.aliceTokenProof]
  exact Jwt.find_of_pairwise hdiffer hp

theorem unforged_alice {s : Network Holder} {p : Jwt.Signed} (hp : p ∈ aliceSigned) {sk : Holder}
    (hkey : (holderKey sk).toPublicKey = p.key) (hsigned : (sk, p.token) ∈ s.signed) :
    Unforged aliceDeployment s p.text := by
  intro t key hdec hverify
  have honly : ∀ p' ∈ aliceSigned, p'.text = p.text → p' = p := by
    intro p' hp' htext
    have hfind := find_alice hp'
    rw [htext] at hfind
    exact Option.some.inj (hfind.symm.trans (find_alice hp))
  obtain ⟨rfl, rfl⟩ := Jwt.eq_of_ofSigned honly hdec hverify
  exact ⟨sk, hkey, hsigned⟩

/-- Both proofs carry the key of the device, and both programs hash one text for it. -/
theorem thumbprintTexts_alice {p : Jwt.Signed} (hp : p ∈ aliceSigned)
    (hjwk : lookup p.token.header "jwk" = some (.obj (headerJWK deviceJWK))) :
    ∀ text ∈ thumbprintTexts aliceDeployment.lib p.text,
      text = Gateway.thumbprintText deviceJWK.x deviceJWK.y := by
  have hdec : aliceDeployment.lib.decode p.text = .ok p.token := Jwt.ofSigned_decode (find_alice hp)
  exact thumbprintTexts_of_device hdec hjwk

/-- The token that the provider grants is the one with the text of the run. -/
theorem accessToken_alice : Idp.accessToken "client-alice" (Idp.computeThumbprint Idp.aliceJWK)
    (seconds 1767225600) = Gateway.aliceToken.token := by
  have hthumbprint : Idp.computeThumbprint Idp.aliceJWK =
      "KVVS0wjAh_UnZ_vdSaAt5HpBqK1yRaC5rrAbbE6xzeY" := by
    decide +kernel
  rw [hthumbprint]
  rfl

theorem providerSigns_alice : providerSigns aliceDeployment Idp.aliceAuthorized.store
    (.token Idp.aliceTokenEnv Idp.aliceTokenRequest) = [(.provider, Gateway.aliceToken.token)] := by
  have hgrant := Idp.tokenGrant_alice (find_alice (p := Idp.aliceTokenProof) (by simp [aliceSigned]))
  rw [accessToken_alice] at hgrant
  exact providerSigns_of_grant (d := aliceDeployment) hgrant rfl

/-- The provider after the request for the token. -/
def aliceIssued : Idp.State where
  clock := seconds 1767225600
  store := (Idp.tokenHandler aliceDeployment.lib aliceDeployment.timeText Idp.aliceTokenEnv
    Idp.aliceTokenRequest Idp.aliceAuthorized.store).2
  drawn := Idp.aliceAuthorized.drawn
  history := Idp.aliceAuthorized.history ++ [.token Idp.aliceTokenEnv Idp.aliceTokenRequest
    (Idp.tokenHandler aliceDeployment.lib aliceDeployment.timeText Idp.aliceTokenEnv
      Idp.aliceTokenRequest Idp.aliceAuthorized.store).1]

/-- The device has signed its second proof. -/
def aliceNetwork : Network Holder where
  idp := aliceIssued
  gateway := Gateway.startWorld
  signed := [(.device, Gateway.alicePostProof.token), (.provider, Gateway.aliceToken.token),
    (.device, Idp.aliceTokenProof.token)]
  proofs := [Idp.aliceTokenRequest.get "DPoP"]

theorem dpop_aliceTokenRequest : Idp.aliceTokenRequest.get "DPoP" = Idp.aliceTokenProof.text := by
  have hkey : Strings.equalFold "Dpop" "DPoP" = true := by decide
  simp [Idp.Request.get, Idp.aliceTokenRequest, hkey]

/-- A step that is no request to the gateway. -/
def NetworkLabel.Aside {SK : Type} : NetworkLabel SK → Prop
  | .request _ _ => False
  | _ => True

/-- The run, without a request to the gateway so far. -/
theorem reachable_aliceNetwork_aside : (networkSystem aliceDeployment).ReachableIf
    (fun s l => Realistic aliceDeployment s l ∧ l.Aside) aliceNetwork := by
  have hstart : (networkSystem aliceDeployment).ReachableIf
      (fun s l => Realistic aliceDeployment s l ∧ l.Aside)
      ⟨⟨0, Idp.RAMStore.empty, [], []⟩, Gateway.startWorld, [], []⟩ :=
    .init ⟨le_refl _, ⟨rfl, rfl, rfl⟩, rfl, rfl, rfl⟩
  have hauthorize : (networkSystem aliceDeployment).ReachableIf
      (fun s l => Realistic aliceDeployment s l ∧ l.Aside)
      ⟨Idp.aliceAuthorized, Gateway.startWorld, [], []⟩ :=
    .step (l := .idp (.authorize Idp.aliceAuthorizeEnv Idp.aliceAuthorizeRequest)) hstart
      ⟨trivial, trivial⟩ (networkStep_idp_eq_some.mpr ⟨_, Idp.step_aliceAuthorized _ _, rfl⟩)
  have hsign : (networkSystem aliceDeployment).ReachableIf
      (fun s l => Realistic aliceDeployment s l ∧ l.Aside)
      ⟨Idp.aliceAuthorized, Gateway.startWorld, [(.device, Idp.aliceTokenProof.token)], []⟩ :=
    .step (l := .sign .device Idp.aliceTokenProof.token) hauthorize ⟨trivial, trivial⟩
      (networkStep_sign_eq_some.mpr ⟨by decide, rfl⟩)
  have hordered : Idp.aliceTokenEnv.Ordered Idp.aliceAuthorized.clock := by decide
  have hissue : Idp.step aliceDeployment.lib aliceDeployment.timeText Idp.aliceAuthorized
      (.token Idp.aliceTokenEnv Idp.aliceTokenRequest) = some aliceIssued :=
    Idp.step_token_eq_some.mpr ⟨hordered, rfl⟩
  have hunforged : Unforged aliceDeployment
      ⟨Idp.aliceAuthorized, Gateway.startWorld, [(.device, Idp.aliceTokenProof.token)], []⟩
      (Idp.aliceTokenRequest.get "DPoP") := by
    rw [dpop_aliceTokenRequest]
    exact unforged_alice (by simp [aliceSigned]) (rfl : (holderKey .device).toPublicKey = _)
      List.mem_cons_self
  have htoken : (networkSystem aliceDeployment).ReachableIf
      (fun s l => Realistic aliceDeployment s l ∧ l.Aside)
      ⟨aliceIssued, Gateway.startWorld,
        [(.provider, Gateway.aliceToken.token), (.device, Idp.aliceTokenProof.token)],
        [Idp.aliceTokenRequest.get "DPoP"]⟩ := by
    refine .step (l := .idp (.token Idp.aliceTokenEnv Idp.aliceTokenRequest)) hsign
      ⟨hunforged, trivial⟩ (networkStep_idp_eq_some.mpr ⟨aliceIssued, hissue, ?_⟩)
    rw [providerSigns_alice]
    rfl
  exact .step (l := .sign .device Gateway.alicePostProof.token) htoken ⟨trivial, trivial⟩
    (networkStep_sign_eq_some.mpr ⟨by decide, rfl⟩)

theorem reachable_aliceNetwork :
    (networkSystem aliceDeployment).ReachableIf (Realistic aliceDeployment) aliceNetwork :=
  reachable_aliceNetwork_aside.mono fun _ _ h => h.1

/-- The request of `client-alice` one second later. -/
def aliceNetworkEnv : Gateway.Env :=
  { Gateway.aliceEnv Gateway.alicePostProof fun _ => true with jwt := Jwt.ofSigned aliceSigned }

/-- The answer of the JWKS endpoint. -/
theorem jwksHandler_alice : Idp.jwksHandler (holderKey .provider) =
    .obj [("keys", .arr [Gateway.aliceIdpJwk])] := by
  have hx : Base64Url.encodeCoordinate (holderKey .provider).x =
      "J3oJE8ibfFKHv7eOh0QGZwX9PrpGKtP0Hh8oul3pGkI" := by
    decide
  have hy : Base64Url.encodeCoordinate (holderKey .provider).y =
      "psqlm2CzPOcdxFLWbvXykfLn8xTlyt3WzTjnqjrvPQo" := by
    decide
  rw [Idp.jwksHandler, hx, hy]
  rfl

theorem realistic_aliceNetwork : Realistic aliceDeployment aliceNetwork
    (.request aliceNetworkEnv (Gateway.aliceRequest "DPoP" "POST" Gateway.alicePostProof)) := by
  obtain ⟨hauthorization, hdpop⟩ := Gateway.get_aliceRequest "DPoP" "POST" Gateway.alicePostProof
  have hscheme : Strings.equalFold "DPoP" "DPoP" = true := by decide
  have haccess := Gateway.accessTokenOf_of_scheme hauthorization hscheme
  refine ⟨rfl, Or.inl ?_, ?_, ?_, ?_⟩
  · rw [show aliceDeployment.pub aliceDeployment.idpKey = holderKey .provider from rfl,
      jwksHandler_alice]
    rfl
  · rw [hdpop]
    exact unforged_alice (by simp [aliceSigned]) (rfl : (holderKey .device).toPublicKey = _)
      (by simp [aliceNetwork])
  · intro accessToken h
    cases haccess.symm.trans h
    exact unforged_alice (by simp [aliceSigned]) (rfl : (holderKey .provider).toPublicKey = _)
      (by simp [aliceNetwork])
  · have hone : ∀ text ∈ (Gateway.aliceRequest "DPoP" "POST" Gateway.alicePostProof).get "DPoP" ::
        aliceNetwork.proofs, ∀ a ∈ thumbprintTexts aliceDeployment.lib text,
        a = Gateway.thumbprintText deviceJWK.x deviceJWK.y := by
      intro text htext
      rcases List.mem_pair.mp htext with rfl | rfl
      · rw [hdpop]
        exact thumbprintTexts_alice (by simp [aliceSigned]) rfl
      · rw [dpop_aliceTokenRequest]
        exact thumbprintTexts_alice (by simp [aliceSigned]) rfl
    intro a ha b hb _
    obtain ⟨text, htext, hmem⟩ := List.mem_flatMap.mp ha
    obtain ⟨text', htext', hmem'⟩ := List.mem_flatMap.mp hb
    rw [hone text htext a hmem, hone text' htext' b hmem']

theorem admitted_aliceNetwork : Gateway.Admitted Gateway.gateway aliceNetworkEnv
    (Gateway.aliceRequest "DPoP" "POST" Gateway.alicePostProof) Gateway.startWorld
    Gateway.aliceToken.text Gateway.aliceToken.token Gateway.alicePostProof.token
    Gateway.aliceJwk :=
  Gateway.admitted_alice_of_known (fun _ => true) (by decide)
    (by simp) (by decide)
    (find_alice (by simp [aliceSigned]))
    (find_alice (p := Gateway.alicePostProof) (by simp [aliceSigned]))

theorem admits_aliceNetwork : Admits aliceDeployment.middleware aliceNetworkEnv
    (Gateway.aliceRequest "DPoP" "POST" Gateway.alicePostProof) aliceNetwork.gateway
    (Gateway.contextClaims Gateway.aliceToken.token.claims) := by
  obtain ⟨w', -, hserved⟩ := admitted_aliceNetwork.secureAPI
  exact ⟨w', hserved⟩

/-- The request of `client-alice` is admitted in a run, and goes back to its `/token` request. -/
theorem admitted_request_provenance_alice :
    (networkSystem aliceDeployment).ReachableIf (Realistic aliceDeployment) aliceNetwork ∧
    Admits aliceDeployment.middleware aliceNetworkEnv
      (Gateway.aliceRequest "DPoP" "POST" Gateway.alicePostProof) aliceNetwork.gateway
      (Gateway.contextClaims Gateway.aliceToken.token.claims) ∧
    ∃ env₀ r₀ resp form, .token env₀ r₀ (.token resp) ∈ aliceNetwork.idp.history ∧
      r₀.form = some form ∧ Idp.registeredClients.lookup
        (Gateway.contextClaims Gateway.aliceToken.token.claims).sub =
          some (Idp.valueOf form "client_secret") := by
  have hdoc : aliceDeployment.lib.Documented := by
    apply Jwt.ofSigned_documented
    intro p hp
    simp only [aliceSigned, List.mem_cons, List.not_mem_nil, or_false] at hp
    rcases hp with rfl | rfl | rfl
    · simp [Gateway.aliceToken]
    · simp [Gateway.alicePostProof, Gateway.deviceProof]
    · simp [Idp.aliceTokenProof]
  have hlater : seconds 1767225600 ≤ seconds 1767225601 := by decide
  have hordered : Ordered aliceNetworkEnv aliceNetwork.idp.clock :=
    ⟨hlater, le_refl _, le_refl _, le_refl _, le_refl _⟩
  obtain ⟨env₀, r₀, resp, form, sk, hmem, -, hsecret, -⟩ := admitted_request_provenance hdoc
    reachable_aliceNetwork realistic_aliceNetwork hordered admits_aliceNetwork
  exact ⟨reachable_aliceNetwork, admits_aliceNetwork, env₀, r₀, resp, form, hmem, hsecret⟩

end System
end DarkServices
