import DarkServices.Idp.Crypto

/-!
# What the identity provider accepts as a DPoP proof

`ProofVerified` collects what holds of a proof that `VerifyDPoPProof` accepts, and
`verifyDPoPProof_eq_ok` and `ProofVerified.verifyDPoPProof` say that it accepts exactly these.
-/

namespace DarkServices
namespace Idp

open Lib
open Lib.Json (lookup)
open Lib.Strings (equalFold)

/-- A proof accepted at `now` for a request: it is a token signed with ES256 under the key of
its own header, with these claims. -/
structure ProofVerified (lib : Jwt) (now : ℤ)
    (proofJWT expectedMethod expectedURI accessToken : String) (proof : Token)
    (claims : DPoPClaims) (jwk : JWK) (key : PublicKey) : Prop where
  decoded : lib.decode proofJWT = .ok proof
  read : DPoPClaims.ofMembers proof.claims = .ok claims
  es256 : proof.alg = "ES256"
  embedded : ∃ jwkRaw, lookup proof.header "jwk" = some jwkRaw ∧ JWK.ofHeader jwkRaw = .ok jwk
  coordinates : jwkToPublicKey jwk = .ok key
  signature : lib.verify proofJWT proof key = .ok ()
  valid : lib.validateRegistered claims.registered now = .ok ()
  htm : equalFold claims.httpMethod expectedMethod = true
  htu : equalFold (cleanURI claims.httpURI) (cleanURI expectedURI) = true
  iat : ∃ iat, claims.registered.issuedAt = some iat ∧
    -seconds 60 ≤ now - seconds iat ∧ now - seconds iat ≤ seconds 60
  ath : accessToken ≠ "" → claims.accessTokenHash = hashText accessToken

variable {lib : Jwt} {timeText : ℤ → String} {now : ℤ}

/-! ## Fields of the claims -/

section

variable {m m' : Members} {field name : String} {j : Json}

theorem dateField_of_ne (h : ∀ p ∈ m, equalFold p.1 field = false) : dateField m field = .ok none :=
  Json.foldlM_of_ne (fun _ j => numericDate j) h none

theorem dateField_of_eq (h : ∀ p ∈ m, equalFold p.1 field = false)
    (hname : equalFold name field = true) (h' : ∀ p ∈ m', equalFold p.1 field = false) :
    dateField (m ++ (name, j) :: m') field = numericDate j :=
  Json.foldlM_of_eq (fun _ j => numericDate j) h hname h' none

theorem audienceField_of_ne (h : ∀ p ∈ m, equalFold p.1 "aud" = false) : audienceField m = .ok () := by
  unfold audienceField
  induction m with
  | nil => rfl
  | cons p m ih =>
    have hp : equalFold p.1 "aud" = false := h p List.mem_cons_self
    rw [List.foldlM_cons, hp]
    exact ih fun q hq => h q (List.mem_cons_of_mem _ hq)

end

/-! ## The proof -/

/-- The coordinates of a key are the numbers that the two texts decode to. -/
theorem jwkToPublicKey_eq_ok {jwk : JWK} {key : PublicKey} :
    jwkToPublicKey jwk = .ok key ↔ (jwk.kty = "EC" ∧ jwk.crv = "P-256") ∧
      ∃ xBytes yBytes, Base64Url.decodeString jwk.x = some xBytes ∧
        Base64Url.decodeString jwk.y = some yBytes ∧ key = ⟨beNat xBytes, beNat yBytes⟩ := by
  unfold jwkToPublicKey decodeCoordinate
  rw [failIf_bind_eq_ok, not_or, not_not, not_not]
  simp only [bind_eq_ok, mapError_eq_ok, orFail_eq_ok, Except.ok.injEq]
  constructor
  · rintro ⟨hcurve, xBytes, hx, yBytes, hy, hkey⟩
    exact ⟨hcurve, xBytes, yBytes, hx, hy, hkey.symm⟩
  · rintro ⟨hcurve, xBytes, yBytes, hx, hy, hkey⟩
    exact ⟨hcurve, xBytes, hx, yBytes, hy, hkey.symm⟩

/-- The key function answers with the key of the header, and leaves its JWK behind. -/
theorem proofKey_eq_ok {t : Token} {s : JWK} {key : PublicKey} (h : (proofKey t s).1 = .ok key) :
    ∃ jwk, t.alg = "ES256" ∧
      (∃ jwkRaw, lookup t.header "jwk" = some jwkRaw ∧ JWK.ofHeader jwkRaw = .ok jwk) ∧
      jwkToPublicKey jwk = .ok key ∧ (proofKey t s).2 = jwk := by
  unfold proofKey at h ⊢
  by_cases halg : t.alg = "ES256"
  · rw [if_neg (not_not.mpr halg)] at h ⊢
    split at h
    · cases h
    · rename_i jwkRaw hraw
      split at h
      · cases h
      · rename_i jwk hjwk
        exact ⟨jwk, halg, ⟨jwkRaw, hraw, hjwk⟩, h, rfl⟩
  · rw [if_pos halg] at h
    cases h

theorem proofKey_of_embedded {t : Token} {s jwk : JWK} {jwkRaw : Json} {key : PublicKey}
    (halg : t.alg = "ES256") (hraw : lookup t.header "jwk" = some jwkRaw)
    (hjwk : JWK.ofHeader jwkRaw = .ok jwk) (hkey : jwkToPublicKey jwk = .ok key) :
    proofKey t s = (.ok key, jwk) := by
  unfold proofKey
  rw [if_neg (not_not.mpr halg), hraw]
  simp only [hjwk, hkey]

/-- The hash of a text is never the empty text. -/
theorem hashText_ne_empty (s : String) : hashText s ≠ "" := by
  apply Base64Url.encodeToString_ne_empty
  intro hnil
  have hlength := Sha256.length_sum256 (utf8 s)
  rw [hnil] at hlength
  cases hlength

theorem checkAth_eq_ok {claims : DPoPClaims} {accessToken : String} :
    checkAth claims accessToken = .ok () ↔
      (accessToken ≠ "" → claims.accessTokenHash = hashText accessToken) := by
  unfold checkAth
  split
  · rename_i hempty
    simp [hempty]
  · rename_i hne
    rw [failIf_bind_eq_ok, failIf_eq_ok, not_not]
    constructor
    · exact fun h _ => h.2
    · intro h
      have hath := h hne
      refine ⟨?_, hath⟩
      rw [hath]
      exact hashText_ne_empty _

theorem checkProofClaims_eq_ok {claims : DPoPClaims}
    {expectedMethod expectedURI accessToken : String} :
    checkProofClaims timeText now claims expectedMethod expectedURI accessToken = .ok () ↔
      equalFold claims.httpMethod expectedMethod = true ∧
      equalFold (cleanURI claims.httpURI) (cleanURI expectedURI) = true ∧
      (∃ iat, claims.registered.issuedAt = some iat ∧
        -seconds 60 ≤ now - seconds iat ∧ now - seconds iat ≤ seconds 60) ∧
      (accessToken ≠ "" → claims.accessTokenHash = hashText accessToken) := by
  unfold checkProofClaims
  rw [failIf_bind_eq_ok, failIf_bind_eq_ok, bind_eq_ok]
  constructor
  · rintro ⟨hhtm, hhtu, iat, hiat, h⟩
    obtain ⟨hwindow, hath⟩ := failIf_bind_eq_ok.mp h
    exact ⟨by simpa using hhtm, by simpa using hhtu, ⟨iat, orFail_eq_ok.mp hiat, by omega⟩,
      checkAth_eq_ok.mp hath⟩
  · rintro ⟨hhtm, hhtu, ⟨iat, hiat, hwindow⟩, hath⟩
    refine ⟨by simp [hhtm], by simp [hhtu], iat, orFail_eq_ok.mpr hiat, ?_⟩
    rw [failIf_bind_of_not (by omega)]
    exact checkAth_eq_ok.mpr hath

/-- The checks of `VerifyDPoPProof`, and the two texts it returns. -/
theorem verifyDPoPProof_eq_ok {proofJWT expectedMethod expectedURI accessToken jkt jti : String}
    (h : verifyDPoPProof lib timeText now proofJWT expectedMethod expectedURI accessToken =
      .ok (jkt, jti)) :
    ∃ proof claims jwk key,
      ProofVerified lib now proofJWT expectedMethod expectedURI accessToken proof claims jwk key ∧
      jkt = computeThumbprint jwk ∧ jti = claims.registered.id := by
  unfold verifyDPoPProof at h
  split at h
  · cases h
  · rename_i proof claims clientJWK hparse
    have hok := congrArg Prod.fst hparse
    obtain ⟨key, hdec, hread, hkey, hverify, hvalid, hstate⟩ := Jwt.parseWithClaims_eq_ok hok
    obtain ⟨jwk, halg, hembedded, hcoord, hleft⟩ := proofKey_eq_ok hkey
    -- the variable `clientJWK` holds the JWK of the header
    have hjwk : clientJWK = jwk := by rw [← hleft, ← hstate, hparse]
    subst hjwk
    obtain ⟨⟨⟩, hclaims, heq⟩ := bind_eq_ok.mp h
    cases heq
    obtain ⟨hhtm, hhtu, hiat, hath⟩ := checkProofClaims_eq_ok.mp hclaims
    exact ⟨proof, claims, clientJWK, key, ⟨hdec, hread, halg, hembedded, hcoord, hverify, hvalid,
      hhtm, hhtu, hiat, hath⟩, rfl, rfl⟩

/-- Such a proof is accepted. -/
theorem ProofVerified.verifyDPoPProof {proofJWT expectedMethod expectedURI accessToken : String}
    {proof : Token} {claims : DPoPClaims} {jwk : JWK} {key : PublicKey}
    (h : ProofVerified lib now proofJWT expectedMethod expectedURI accessToken proof claims jwk
      key) :
    verifyDPoPProof lib timeText now proofJWT expectedMethod expectedURI accessToken =
      .ok (computeThumbprint jwk, claims.registered.id) := by
  obtain ⟨jwkRaw, hraw, hjwk⟩ := h.embedded
  have hkey : proofKey proof ⟨"", "", "", ""⟩ = (.ok key, jwk) :=
    proofKey_of_embedded h.es256 hraw hjwk h.coordinates
  have hclaims : checkProofClaims timeText now claims expectedMethod expectedURI accessToken =
      .ok () := checkProofClaims_eq_ok.mpr ⟨h.htm, h.htu, h.iat, h.ath⟩
  unfold Idp.verifyDPoPProof
  rw [Jwt.parseWithClaims_of_verify h.decoded h.read hkey h.signature h.valid]
  show (checkProofClaims _ _ _ _ _ _ >>= fun _ => Except.ok (_, claims.registered.id)) = _
  rw [hclaims]
  rfl

/-! ## The verifier of a code -/

/-- A verifier passes when its hash is the challenge. -/
theorem verifyPKCE_iff {codeVerifier codeChallenge : String} :
    verifyPKCE codeVerifier codeChallenge "S256" = true ↔
      hashText codeVerifier = codeChallenge := by
  rw [verifyPKCE, if_neg (by decide), beq_iff_eq]

end Idp
end DarkServices
