import DarkServices.Gateway.ServeTheorems
import DarkServices.Idp.CodeTheorems
import DarkServices.System.ProtocolTheorems

/-!
# The identifiers that the replay caches hold

In every run of the network an identifier is in a replay cache only when a proof that carries it
has been presented (`Network.Tracked`). The two programs read the identifier of a proof in
different ways, so a proof can carry two of them.
-/

namespace DarkServices
namespace System

open Lib
open Lib.Json (stringOf)

/-- The identifiers that the two programs read in a proof. -/
def proofIds (lib : Jwt) (proofJWT : String) : List String :=
  match lib.decode proofJWT with
  | .error _ => []
  | .ok t =>
    stringOf t.claims "jti" ::
      match Idp.DPoPClaims.ofMembers t.claims with
      | .error _ => []
      | .ok claims => [claims.registered.id]

/-- A proof with the identifier has been presented. -/
def Presented (lib : Jwt) (proofs : List String) (jti : String) : Prop :=
  ∃ proofJWT ∈ proofs, jti ∈ proofIds lib proofJWT

theorem mem_proofIds_gateway {lib : Jwt} {proofJWT : String} {t : Token}
    (h : lib.decode proofJWT = .ok t) : stringOf t.claims "jti" ∈ proofIds lib proofJWT := by
  rw [proofIds, h]
  exact List.mem_cons_self

theorem mem_proofIds_provider {lib : Jwt} {proofJWT : String} {t : Token} {claims : Idp.DPoPClaims}
    (h : lib.decode proofJWT = .ok t) (hread : Idp.DPoPClaims.ofMembers t.claims = .ok claims) :
    claims.registered.id ∈ proofIds lib proofJWT := by
  rw [proofIds, h]
  show _ ∈ _ :: (match Idp.DPoPClaims.ofMembers t.claims with | .error _ => [] | .ok c => _)
  rw [hread]
  exact List.mem_cons_of_mem _ (List.mem_singleton.mpr rfl)

theorem Presented.mono {lib : Jwt} {proofs proofs' : List String} {jti : String}
    (h : Presented lib proofs jti) (hsub : ∀ text ∈ proofs, text ∈ proofs') :
    Presented lib proofs' jti := by
  obtain ⟨text, hmem, hjti⟩ := h
  exact ⟨text, hsub text hmem, hjti⟩

/-- A check adds the identifier it is asked about, if any. -/
theorem mem_of_isUsedAndSave {m : Expiry String} {k jti : String} {ttl now e : ℤ}
    (h : (m.isUsedAndSave k ttl now).2 jti = some e) : jti = k ∨ m jti = some e := by
  rcases m.isUsedAndSave_cases k ttl now with ⟨-, hsame⟩ | ⟨-, hsaved⟩
  · rw [hsame] at h
    exact Or.inr h
  · rw [hsaved] at h
    rcases of_update h with ⟨hjti, -⟩ | ⟨-, hold⟩
    · exact Or.inl hjti
    · exact Or.inr hold

/-- A sweep adds nothing. -/
theorem mem_of_visit {m : Expiry String} {k jti : String} {now e : ℤ}
    (h : m.visit now k jti = some e) : m jti = some e := by
  rcases m.visit_cases now k jti with hkeep | ⟨_, -, -, hgone⟩
  · rw [← hkeep, h]
  · rw [hgone] at h
    cases h

/-! ## The gateway -/

section Gateway

variable (m : Gateway.AuthMiddleware) (env : Gateway.Env) (r : Gateway.Request) (w : Gateway.World)

/-- The policy and the handlers do not see the identifiers. -/
theorem enforcePolicy_jtis {h : Gateway.Handler} {path : String}
    (hpath : Gateway.protectedHandler path = some h) (claims : Gateway.TokenClaims) :
    (Gateway.enforcePolicy m h env (r.withClaims claims) w).2.jtis = w.jtis := by
  have hhandler : ∀ w, (h env (r.withClaims claims) w).2.jtis = w.jtis := by
    intro w
    obtain ⟨h', -, hsplit⟩ := Gateway.protectedHandler_split hpath
      (rfl : (r.withClaims claims).claims = some claims) env w
    rcases hsplit with ⟨resp, -, hplain, -⟩ | ⟨call, -, hcall, -⟩
    · rw [hplain]
    · rw [hcall, Gateway.answerCall_eq]
  unfold Gateway.enforcePolicy
  split
  · rfl
  · split
    · rfl
    · dsimp only
      split
      · rfl
      · split
        · exact hhandler _
        · rfl

/-- An accepted proof leaves its identifier, whatever becomes of the request. -/
theorem secureAPI_jtis {next : Gateway.Handler}
    (hnext : ∀ claims w, (next env (r.withClaims claims) w).2.jtis = w.jtis) :
    (Gateway.secureAPI m next env r w).2.jtis = Gateway.jtisAfter env r w.jtis := by
  unfold Gateway.secureAPI Gateway.jtisAfter
  cases hproof : Gateway.checkProof env r with
  | error resp => rfl
  | ok p =>
    obtain ⟨accessToken, jkt, jti⟩ := p
    rcases hjti : Gateway.isJTIUsedAndSave w.jtis jti Gateway.jtiTTL env.jtiAt with ⟨used, jtis⟩
    cases used with
    | true => simp [hjti]
    | false =>
      rcases hparse : env.jwt.parse env.tokenAt accessToken (Gateway.tokenKey env) w.keys with
        ⟨res, keys⟩
      cases res with
      | error e => simp [hjti, hparse]
      | ok token =>
        cases htoken : Gateway.checkToken m r.conn token.claims jkt with
        | error resp => simp [hjti, hparse, htoken]
        | ok claims => simp [hjti, hparse, htoken, hnext]

/-- An identifier of the cache was there before, or is the one of the proof of the request. -/
theorem mux_jtis {jti : String} {e : ℤ} (h : (Gateway.mux m env r w).2.jtis jti = some e) :
    w.jtis jti = some e ∨ jti ∈ proofIds env.jwt (r.get "DPoP") := by
  cases hroute : Gateway.protectedHandler r.path with
  | none =>
    rw [Gateway.mux_of_no_route hroute] at h
    exact Or.inl h
  | some handler =>
    rw [Gateway.mux_of_route hroute,
      secureAPI_jtis m env r w fun claims w => enforcePolicy_jtis m env r w hroute claims] at h
    unfold Gateway.jtisAfter at h
    cases hproof : Gateway.checkProof env r with
    | error resp =>
      rw [hproof] at h
      exact Or.inl h
    | ok p =>
      obtain ⟨accessToken, jkt, jti'⟩ := p
      rw [hproof] at h
      rcases mem_of_isUsedAndSave h with rfl | hold
      · obtain ⟨-, -, hverified⟩ := Gateway.checkProof_eq_ok hproof
        obtain ⟨proof, jwk, key, hpossession, -, rfl⟩ := Gateway.verifyDPoPProof_eq_ok hverified
        exact Or.inr (mem_proofIds_gateway hpossession.decoded)
      · exact Or.inl hold

end Gateway

/-! ## Both programs -/

variable {SK : Type} {d : Deployment SK}

/-- Every identifier of the two caches has been presented. -/
structure Network.Tracked (d : Deployment SK) (s : Network SK) : Prop where
  provider : ∀ jti e, s.idp.store.jtis jti = some e → Presented d.lib s.proofs jti
  gateway : ∀ jti e, s.gateway.jtis jti = some e → Presented d.lib s.proofs jti

variable {s s' : Network SK}

/-- An identifier that has not been presented is not in use. -/
theorem Network.Tracked.unused (h : s.Tracked d) {jti : String}
    (hnew : ¬ Presented d.lib s.proofs jti) (now : ℤ) :
    ¬ s.idp.store.jtis.Live jti now ∧ ¬ s.gateway.jtis.Live jti now := by
  constructor
  · rintro ⟨e, he, -⟩
    exact hnew (h.provider jti e he)
  · rintro ⟨e, he, -⟩
    exact hnew (h.gateway jti e he)

/-- A step of the provider adds the identifier of the proof of a `/token` request, if any. -/
theorem idpStep_jtis {idp idp' : Idp.State} {l : Idp.Label}
    (hstep : Idp.step d.lib d.timeText idp l = some idp') {jti : String} {e : ℤ}
    (h : idp'.store.jtis jti = some e) :
    idp.store.jtis jti = some e ∨ Presented d.lib (presentedProof l) jti := by
  cases l with
  | authorize env r =>
    obtain ⟨-, rfl⟩ := Idp.step_authorize_eq_some.mp hstep
    left
    -- the codes are another map
    have hsame : (Idp.authorizeHandler env r idp.store).2.jtis = idp.store.jtis := by
      unfold Idp.authorizeHandler
      split
      · rfl
      · split
        · rfl
        · rfl
    rw [← hsame]
    exact h
  | token env r =>
    obtain ⟨-, rfl⟩ := Idp.step_token_eq_some.mp hstep
    have hstore : (Idp.tokenGrant d.lib d.timeText env r idp.store).2.jtis jti = some e := by
      rw [← Idp.tokenHandler_store]
      exact h
    rcases Idp.tokenGrant_store d.lib d.timeText env r idp.store with hsame | ⟨_, -, -, hsaves⟩
    · rw [hsame] at hstore
      exact Or.inl hstore
    · rcases hsaves with hsame | ⟨proof, claims, jwk, key, hverified, hsaved⟩
      · rw [hsame] at hstore
        exact Or.inl hstore
      · rw [hsaved] at hstore
        rcases mem_of_isUsedAndSave hstore with rfl | hold
        · exact Or.inr ⟨_, List.mem_singleton.mpr rfl,
            mem_proofIds_provider hverified.decoded hverified.read⟩
        · exact Or.inl hold
  | visitCode now code =>
    obtain ⟨-, rfl⟩ := Idp.step_visitCode_eq_some.mp hstep
    left
    have hsame : (idp.store.visitCode now code).jtis = idp.store.jtis := by
      unfold Idp.RAMStore.visitCode
      split
      · rfl
      · split
        · rfl
        · rfl
    rw [← hsame]
    exact h
  | visitJTI now jti' =>
    obtain ⟨-, rfl⟩ := Idp.step_visitJTI_eq_some.mp hstep
    exact Or.inl (mem_of_visit h)

/-- Every step keeps the identifiers tracked, when the gateway uses the library of the
deployment. -/
theorem Network.Tracked.step [DecidableEq SK] (h : s.Tracked d) {l : NetworkLabel SK}
    (hjwt : ∀ env r, l = .request env r → env.jwt = d.lib) (hstep : networkStep d s l = some s') :
    s'.Tracked d := by
  have hproofs := (networkStep_extends hstep).proofs
  cases l with
  | idp l =>
    obtain ⟨idp, hidp, rfl⟩ := networkStep_idp_eq_some.mp hstep
    refine ⟨?_, fun jti e he => (h.gateway jti e he).mono hproofs⟩
    intro jti e he
    rcases idpStep_jtis hidp he with hold | hnew
    · exact (h.provider jti e hold).mono hproofs
    · exact hnew.mono fun _ ht => List.mem_append_left _ ht
  | sign sk t =>
    obtain ⟨-, rfl⟩ := networkStep_sign_eq_some.mp hstep
    exact ⟨h.provider, h.gateway⟩
  | request env r =>
    obtain ⟨-, rfl⟩ := networkStep_request_eq_some.mp hstep
    refine ⟨fun jti e he => (h.provider jti e he).mono hproofs, ?_⟩
    intro jti e he
    rcases mux_jtis d.middleware env r s.gateway he with hold | hnew
    · exact (h.gateway jti e hold).mono hproofs
    · rw [hjwt env r rfl] at hnew
      exact ⟨_, List.mem_cons_self, hnew⟩
  | cleanup now jti' =>
    obtain ⟨-, rfl⟩ := networkStep_cleanup_eq_some.mp hstep
    exact ⟨h.provider, fun jti e he => h.gateway jti e (mem_of_visit he)⟩

end System
end DarkServices
