import DarkServices.Gateway.Auth

/-!
# What a verified DPoP proof is

`ProofVerified` collects what holds of a proof that `VerifyDPoPProof` accepts.
`verifyDPoPProof_eq_ok` and `ProofVerified.verifyDPoPProof` say that it accepts exactly these;
the later results use the fields and never look into the function.
-/

namespace DarkServices
namespace Gateway

open Lib
open Lib.Json (lookup stringOf)
open Lib.Strings (equalFold)

/-- A proof accepted at `now` for a request: it is a token signed under the P-256 key of its
own header, with these claims. -/
structure ProofVerified (lib : Jwt) (now : ℤ) (proofJWT method targetURI accessToken : String)
    (proof : Token) (jwk : Members) (key : PublicKey) : Prop where
  decoded : lib.decode proofJWT = .ok proof
  ecdsa : proof.isECDSA = true
  embedded : lookup proof.header "jwk" = some (.obj jwk)
  curve : stringOf jwk "kty" = "EC" ∧ stringOf jwk "crv" = "P-256"
  nonempty : stringOf jwk "x" ≠ "" ∧ stringOf jwk "y" ≠ ""
  coordinates : jwkToECDSA (stringOf jwk "x") (stringOf jwk "y") = .ok key
  signature : lib.verify proofJWT proof key = .ok ()
  valid : lib.validateMap proof.claims now = .ok ()
  htm : equalFold (stringOf proof.claims "htm") method = true
  htu : verifyHTU (stringOf proof.claims "htu") targetURI = true
  iat : ∃ iat, iatOf proof.claims = some iat ∧
    now - seconds iat.trunc ≤ seconds 60 ∧ seconds iat.trunc - now ≤ seconds 60
  jti : stringOf proof.claims "jti" ≠ ""
  ath : accessToken ≠ "" → stringOf proof.claims "ath" = athOf accessToken

variable {lib : Jwt} {timeText : ℤ → String} {now : ℤ}

/-- A URI matches itself. -/
theorem verifyHTU_self (uri : String) : verifyHTU uri uri = true := by
  rw [verifyHTU, beq_self_eq_true, Bool.true_or]

/-- The coordinates of a key are the numbers that the two texts decode to. -/
theorem jwkToECDSA_eq_ok {x y : String} {key : PublicKey} :
    jwkToECDSA x y = .ok key ↔ ∃ xBytes yBytes, Base64Url.decodeString x = some xBytes ∧
      Base64Url.decodeString y = some yBytes ∧ key = ⟨beNat xBytes, beNat yBytes⟩ := by
  unfold jwkToECDSA decodeCoordinate
  simp only [bind_eq_ok, mapError_eq_ok, orFail_eq_ok, Except.ok.injEq]
  constructor
  · rintro ⟨xBytes, hx, yBytes, hy, hkey⟩
    exact ⟨xBytes, yBytes, hx, hy, hkey.symm⟩
  · rintro ⟨xBytes, yBytes, hx, hy, hkey⟩
    exact ⟨xBytes, hx, yBytes, hy, hkey.symm⟩

/-- The padded coordinates of a key are read back. -/
theorem jwkToECDSA_encodeCoordinate (key : CurveKey) :
    jwkToECDSA (Base64Url.encodeCoordinate key.x) (Base64Url.encodeCoordinate key.y) =
      .ok key.toPublicKey := by
  refine jwkToECDSA_eq_ok.mpr ⟨_, _, Base64Url.decodeString_encodeCoordinate _,
    Base64Url.decodeString_encodeCoordinate _, ?_⟩
  rw [beNat_leftPad_bigBytes, beNat_leftPad_bigBytes]

/-- A response with one good key fills the cache with it. -/
theorem newKeys_singleton {k : JWKKey} {key : PublicKey} (hcurve : k.kty = "EC" ∧ k.crv = "P-256")
    (hcoord : jwkToECDSA k.x k.y = .ok key) (keys : String → Option PublicKey) :
    newKeys [k] keys = Function.update keys k.kid (some key) := by
  rw [newKeys, if_pos hcurve, hcoord]
  rfl

/-! ## The cache of the keys -/

/-- `GetPublicKey` asks the identity provider: the key is not in the cache, or the cache is old. -/
def NeedsFetch (c : JWKSCache) (now : ℤ) (kid : String) : Prop :=
  c.keys kid = none ∨ c.ttl ≤ now - c.lastUpdate

/-- What a call does: nothing but look up a fresh key, fall back on the cache when the fetch
fails, or replace the cache and look the key up in the new one. -/
theorem getPublicKey_cases (c : JWKSCache) (reply : JwksReply) (now : ℤ) (kid : String) :
    (¬ NeedsFetch c now kid ∧ ∃ key, c.keys kid = some key ∧
      getPublicKey c reply now kid = (.ok key, c)) ∨
    (NeedsFetch c now kid ∧ ∃ e, reply.keys = .error e ∧
      getPublicKey c reply now kid = (orFail (c.keys kid) ("failed to fetch JWKS: " ++ e), c)) ∨
    (NeedsFetch c now kid ∧ ∃ jwks, reply.keys = .ok jwks ∧
      getPublicKey c reply now kid =
        (orFail (newKeys jwks (fun _ => none) kid) ("key ID '" ++ kid ++ "' not found in JWKS"),
          ⟨newKeys jwks fun _ => none, now, c.ttl⟩)) := by
  unfold getPublicKey NeedsFetch fetchKeys
  cases hkey : c.keys kid with
  | none =>
    refine Or.inr ?_
    cases reply.keys with
    | error e => exact Or.inl ⟨Or.inl rfl, e, rfl, rfl⟩
    | ok jwks => exact Or.inr ⟨Or.inl rfl, jwks, rfl, rfl⟩
  | some key =>
    by_cases hfresh : now - c.lastUpdate < c.ttl
    · refine Or.inl ⟨?_, key, rfl, ?_⟩
      · simpa using hfresh
      · simp only [hfresh, if_true]
    · refine Or.inr ?_
      have hold : c.ttl ≤ now - c.lastUpdate := by omega
      simp only [hfresh, if_false]
      cases reply.keys with
      | error e => exact Or.inl ⟨Or.inr hold, e, rfl, rfl⟩
      | ok jwks => exact Or.inr ⟨Or.inr hold, jwks, rfl, rfl⟩

/-! ## DPoP proofs -/

/-- The key function answers with the key of the header, and leaves its JWK behind. -/
theorem proofKey_eq_ok {t : Token} {s : Members} {key : PublicKey}
    (h : (proofKey t s).1 = .ok key) :
    ∃ jwk, t.isECDSA = true ∧ lookup t.header "jwk" = some (.obj jwk) ∧
      (stringOf jwk "kty" = "EC" ∧ stringOf jwk "crv" = "P-256") ∧
      (stringOf jwk "x" ≠ "" ∧ stringOf jwk "y" ≠ "") ∧
      jwkToECDSA (stringOf jwk "x") (stringOf jwk "y") = .ok key ∧ (proofKey t s).2 = jwk := by
  unfold proofKey at h ⊢
  by_cases hec : t.isECDSA = true
  · rw [if_neg (by simp [hec])] at h ⊢
    split at h
    · cases h
    · rename_i jwk hjwk
      simp only [failIf_bind_eq_ok] at h
      obtain ⟨hcurve, hne, hkey⟩ := h
      exact ⟨jwk, hec, hjwk, by tauto, by tauto, hkey, rfl⟩
    · cases h
  · rw [if_pos (by simpa using hec)] at h
    cases h

theorem proofKey_of_embedded {t : Token} {s jwk : Members} {key : PublicKey}
    (hec : t.isECDSA = true) (hjwk : lookup t.header "jwk" = some (.obj jwk))
    (hcurve : stringOf jwk "kty" = "EC" ∧ stringOf jwk "crv" = "P-256")
    (hne : stringOf jwk "x" ≠ "" ∧ stringOf jwk "y" ≠ "")
    (hkey : jwkToECDSA (stringOf jwk "x") (stringOf jwk "y") = .ok key) :
    proofKey t s = (.ok key, jwk) := by
  unfold proofKey
  rw [if_neg (by simp [hec]), hjwk]
  show ((failIf _ _ >>= fun _ => failIf _ _ >>= fun _ => _), jwk) = _
  rw [failIf_bind_of_not (by tauto), failIf_bind_of_not (by tauto), hkey]

theorem checkProofClaims_eq_ok {claims : Members} {method targetURI jti : String}
    (h : checkProofClaims timeText now claims method targetURI = .ok jti) :
    equalFold (stringOf claims "htm") method = true ∧
      verifyHTU (stringOf claims "htu") targetURI = true ∧
      (∃ iat, iatOf claims = some iat ∧
        now - seconds iat.trunc ≤ seconds 60 ∧ seconds iat.trunc - now ≤ seconds 60) ∧
      jti ≠ "" ∧ jti = stringOf claims "jti" := by
  unfold checkProofClaims at h
  simp only [failIf_bind_eq_ok] at h
  obtain ⟨hhtm, hhtu, h⟩ := h
  obtain ⟨iat, hiat, h⟩ := bind_eq_ok.mp h
  simp only [failIf_bind_eq_ok] at h
  obtain ⟨hwindow, hjti, heq⟩ := h
  cases heq
  refine ⟨by simpa using hhtm, by simpa using hhtu,
    ⟨iat, orFail_eq_ok.mp hiat, by omega, by omega⟩, hjti, rfl⟩

/-- The hash of a token is never the empty text. -/
theorem athOf_ne_empty (accessToken : String) : athOf accessToken ≠ "" := by
  apply Base64Url.encodeToString_ne_empty
  intro hnil
  have hlength := Sha256.length_sum256 (utf8 accessToken)
  rw [hnil] at hlength
  cases hlength

theorem checkAth_eq_ok {claims : Members} {accessToken : String}
    (h : checkAth claims accessToken = .ok ()) (hne : accessToken ≠ "") :
    stringOf claims "ath" = athOf accessToken := by
  rw [checkAth, if_neg hne] at h
  obtain ⟨-, hath⟩ := failIf_bind_eq_ok.mp h
  exact not_not.mp (failIf_eq_ok.mp hath)

/-- The checks of `VerifyDPoPProof`, and the two texts it returns. -/
theorem verifyDPoPProof_eq_ok {proofJWT method targetURI accessToken jkt jti : String}
    (h : verifyDPoPProof lib timeText now proofJWT method targetURI accessToken = .ok (jkt, jti)) :
    ∃ proof jwk key, ProofVerified lib now proofJWT method targetURI accessToken proof jwk key ∧
      jkt = calculateJWKThumbprint (stringOf jwk "x") (stringOf jwk "y") ∧
      jti = stringOf proof.claims "jti" := by
  unfold verifyDPoPProof at h
  split at h
  · cases h
  · rename_i proof jwkMap hparse
    have hok : (lib.parse now proofJWT proofKey []).1 = .ok proof := by rw [hparse]
    obtain ⟨key, hdec, hkey, hverify, hvalid, hstate⟩ := Jwt.parse_eq_ok hok
    obtain ⟨jwk, hec, hjwk, hcurve, hne, hcoord, hleft⟩ := proofKey_eq_ok hkey
    -- the variable `jwkMap` holds the JWK of the header
    have hmap : jwkMap = jwk := by rw [← hleft, ← hstate, hparse]
    subst hmap
    obtain ⟨jti', hclaims, h⟩ := bind_eq_ok.mp h
    obtain ⟨⟨⟩, hath, heq⟩ := bind_eq_ok.mp h
    cases heq
    obtain ⟨hhtm, hhtu, hiat, hjti, rfl⟩ := checkProofClaims_eq_ok hclaims
    exact ⟨proof, jwkMap, key, ⟨hdec, hec, hjwk, hcurve, hne, hcoord, hverify, hvalid, hhtm,
      hhtu, hiat, hjti, checkAth_eq_ok hath⟩, rfl, rfl⟩

/-- Such a proof is accepted. -/
theorem ProofVerified.verifyDPoPProof {proofJWT method targetURI accessToken : String}
    {proof : Token} {jwk : Members} {key : PublicKey}
    (h : ProofVerified lib now proofJWT method targetURI accessToken proof jwk key) :
    verifyDPoPProof lib timeText now proofJWT method targetURI accessToken =
      .ok (calculateJWKThumbprint (stringOf jwk "x") (stringOf jwk "y"),
        stringOf proof.claims "jti") := by
  have hkey := proofKey_of_embedded (s := []) h.ecdsa h.embedded h.curve h.nonempty h.coordinates
  obtain ⟨iat, hiat, hpast, hfuture⟩ := h.iat
  have hclaims : checkProofClaims timeText now proof.claims method targetURI =
      .ok (stringOf proof.claims "jti") := by
    unfold checkProofClaims
    rw [failIf_bind_of_not (by simp [h.htm]), failIf_bind_of_not (by simp [h.htu]), hiat]
    show (failIf _ _ >>= fun _ => failIf _ _ >>= fun _ => Except.ok _) = _
    rw [failIf_bind_of_not (by omega), failIf_bind_of_not h.jti]
  have hbound : checkAth proof.claims accessToken = .ok () := by
    unfold checkAth
    split
    · rfl
    · rename_i hne
      have hath := h.ath hne
      rw [failIf_bind_of_not (by rw [hath]; exact athOf_ne_empty _), failIf_eq_ok, not_not]
      exact hath
  unfold Gateway.verifyDPoPProof
  rw [Jwt.parse_of_verify h.decoded hkey h.signature h.valid]
  show (checkProofClaims _ _ _ _ _ >>= fun jti => checkAth _ _ >>= fun _ => Except.ok (_, jti)) = _
  rw [hclaims]
  show (checkAth _ _ >>= fun _ => Except.ok _) = _
  rw [hbound]
  rfl

end Gateway
end DarkServices
