import DarkServices.Idp.HandlerTheorems

/-!
# What a request leaves in the store

`tokenHandler_store` says what a `/token` request does to the store, whichever its reply is: it
takes one code away, and saves the identifier of a proof that it has verified. So a code stays
until somebody presents it or it expires (`Kept.step`).
-/

namespace DarkServices
namespace Idp

open Lib

section Token

variable (lib : Jwt) (timeText : ℤ → String) (env : TokenEnv) (r : Request) (s : RAMStore)

/-- The identifiers after a request: as they were, or with the one of a verified proof. -/
def SavesJti (jtis jtis' : Expiry String) : Prop :=
  jtis' = jtis ∨ ∃ proof claims jwk key,
    ProofVerified lib env.proofAt (r.get "DPoP") "POST" r.fullURI "" proof claims jwk key ∧
      jtis' = (jtis.isUsedAndSave claims.registered.id jtiTTL env.jtiAt).2

theorem getAndRemoveAuthCode_jtis (code : String) (now : ℤ) :
    (s.getAndRemoveAuthCode code now).2.jtis = s.jtis := by
  unfold RAMStore.getAndRemoveAuthCode
  split
  · rfl
  · rfl

/-- The store up to the signing of the token. -/
theorem tokenGrant_store :
    (tokenGrant lib timeText env r s).2 = s ∨ ∃ form, r.form = some form ∧
      (tokenGrant lib timeText env r s).2.codes =
        (s.getAndRemoveAuthCode (valueOf form "code") env.codeAt).2.codes ∧
      SavesJti lib env r s.jtis (tokenGrant lib timeText env r s).2.jtis := by
  unfold tokenGrant
  split
  · exact Or.inl rfl
  · rename_i f code codeVerifier hparams
    obtain ⟨-, form, hform, -, -, -, heq⟩ := tokenParams_eq_ok.mp hparams
    cases heq
    have hjtis := getAndRemoveAuthCode_jtis s (valueOf form "code") env.codeAt
    refine Or.inr ⟨form, hform, ?_⟩
    split
    · rename_i store hcode
      rw [hcode] at hjtis ⊢
      exact ⟨rfl, Or.inl hjtis⟩
    · rename_i codeChallenge clientID store hcode
      rw [hcode] at hjtis ⊢
      have hkept : store.jtis = s.jtis := hjtis
      split
      · exact ⟨rfl, Or.inl hkept⟩
      · rename_i jkt jti hgrant
        obtain ⟨-, -, -, hproof⟩ := checkGrant_eq_ok.mp hgrant
        obtain ⟨proof, claims, jwk, key, hverified, -, rfl⟩ := verifyDPoPProof_eq_ok hproof
        -- the proof is verified whether its identifier has been used or not
        have hsaves : SavesJti lib env r s.jtis
            (store.jtis.isUsedAndSave claims.registered.id jtiTTL env.jtiAt).2 :=
          Or.inr ⟨proof, claims, jwk, key, hverified, by rw [hkept]⟩
        split
        · rename_i used hused
          have hstore := congrArg Prod.snd hused
          rw [← hstore]
          exact ⟨rfl, hsaves⟩
        · rename_i unused hunused
          have hstore := congrArg Prod.snd hunused
          rw [← hstore]
          exact ⟨rfl, hsaves⟩

/-- The signing does not touch the store. -/
theorem tokenHandler_store :
    (tokenHandler lib timeText env r s).2 = (tokenGrant lib timeText env r s).2 := by
  unfold tokenHandler
  split
  · rename_i e store h
    rw [h]
  · rename_i token jti store h
    rw [h]
    split
    · rfl
    · rfl

variable {lib timeText env r s}

/-- A code that the request does not present stays. -/
theorem tokenHandler_codes_of_ne {code : String}
    (hother : ∀ form, r.form = some form → valueOf form "code" ≠ code) :
    (tokenHandler lib timeText env r s).2.codes code = s.codes code := by
  rw [tokenHandler_store]
  rcases tokenGrant_store lib timeText env r s with hsame | ⟨form, hform, hcodes, -⟩
  · rw [hsame]
  · rw [hcodes]
    unfold RAMStore.getAndRemoveAuthCode
    split
    · rfl
    · exact Function.update_of_ne (hother form hform).symm ..

end Token

/-! ## A code that waits -/

/-- The code has been drawn, and is in the store as long as it has not expired. -/
structure Kept (s : State) (code : String) (info : AuthCodeInfo) : Prop where
  drawn : code ∈ s.drawn
  stored : s.store.codes code = some info ∨ info.expiresAt < s.clock

/-- What has not expired is there. -/
theorem Kept.codes {s : State} {code : String} {info : AuthCodeInfo} (h : Kept s code info)
    (hclock : s.clock ≤ info.expiresAt) : s.store.codes code = some info := by
  rcases h.stored with hstored | hexpired
  · exact hstored
  · omega

/-- Only the clock has moved on. -/
theorem Kept.later {s : State} {code : String} {info : AuthCodeInfo} (h : Kept s code info)
    {clock : ℤ} (hclock : s.clock ≤ clock) : Kept { s with clock := clock } code info := by
  refine ⟨h.drawn, ?_⟩
  rcases h.stored with hstored | hexpired
  · exact Or.inl hstored
  · exact Or.inr (lt_of_lt_of_le hexpired hclock)

/-- A request that presents the code. -/
def Label.Presents (code : String) : Label → Prop
  | .token _ r => ∃ form, r.form = some form ∧ valueOf form "code" = code
  | _ => False

/-- A step that does not present the code keeps it. -/
theorem Kept.step {lib : Jwt} {timeText : ℤ → String} {s s' : State} {l : Label} {code : String}
    {info : AuthCodeInfo} (h : Kept s code info) (hother : ¬ l.Presents code)
    (hstep : Idp.step lib timeText s l = some s') : Kept s' code info := by
  cases l with
  | authorize env r =>
    obtain ⟨⟨hclock, hfresh⟩, rfl⟩ := step_authorize_eq_some.mp hstep
    refine ⟨List.mem_append_left _ h.drawn, ?_⟩
    rcases h.stored with hstored | hexpired
    · left
      unfold authorizeHandler
      split
      · exact hstored
      · split
        · exact hstored
        · rename_i code' hrandom
          -- a new code has not been drawn before
          have hne : code ≠ code' := by
            rintro rfl
            exact hfresh code hrandom h.drawn
          exact (Function.update_of_ne hne ..).trans hstored
    · right
      show info.expiresAt < env.saveAt
      omega
  | token env r =>
    obtain ⟨⟨hcode, hproof, hjti, hissue⟩, rfl⟩ := step_token_eq_some.mp hstep
    refine ⟨h.drawn, ?_⟩
    rcases h.stored with hstored | hexpired
    · left
      rw [← hstored]
      exact tokenHandler_codes_of_ne fun form hform heq => hother ⟨form, hform, heq⟩
    · right
      show info.expiresAt < env.issueAt
      omega
  | visitCode now code' =>
    obtain ⟨hnow, rfl⟩ := step_visitCode_eq_some.mp hstep
    refine ⟨h.drawn, ?_⟩
    rcases h.stored with hstored | hexpired
    · show (s.store.visitCode now code').codes code = some info ∨ info.expiresAt < s.clock
      unfold RAMStore.visitCode
      split
      · exact Or.inl hstored
      · rename_i info' hinfo
        split
        · rename_i hold
          by_cases hsame : code = code'
          · -- a sweep removes what has expired
            subst hsame
            cases hstored.symm.trans hinfo
            right
            omega
          · exact Or.inl ((Function.update_of_ne hsame ..).trans hstored)
        · exact Or.inl hstored
    · exact Or.inr hexpired
  | visitJTI now jti =>
    obtain ⟨-, rfl⟩ := step_visitJTI_eq_some.mp hstep
    exact ⟨h.drawn, h.stored⟩

end Idp
end DarkServices
