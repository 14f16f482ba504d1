import DarkServices.Gateway.AuthTheorems
import DarkServices.Idp.Handler

/-!
# The published key of the identity provider

The provider writes its key as numbers of 32 bytes in base64url; the gateway reads the texts
back without looking at their length. `fetchKeys_jwksHandler` says that nothing is lost on the
way, whatever the leading bytes of a coordinate are.
-/

namespace DarkServices
namespace System

open Lib

/-- The keys in the answer of the JWKS endpoint. -/
theorem keys_jwksHandler (pubKey : CurveKey) :
    Gateway.JwksReply.keys (.ok (200, .ok (Idp.jwksHandler pubKey))) =
      .ok [⟨"EC", "sig", "ES256", "P-256", Base64Url.encodeCoordinate pubKey.x,
        Base64Url.encodeCoordinate pubKey.y, "idp-signing-key"⟩] := by
  set m : Members := [("kty", .str "EC"), ("use", .str "sig"), ("alg", .str "ES256"),
    ("crv", .str "P-256"), ("x", .str (Base64Url.encodeCoordinate pubKey.x)),
    ("y", .str (Base64Url.encodeCoordinate pubKey.y)), ("kid", .str "idp-signing-key")] with hm
  -- no two of the names are one field
  have hdiffer : ["kty", "use", "alg", "crv", "x", "y", "kid"].Pairwise fun a b =>
      Strings.equalFold a b = false := by
    decide
  have hfield : ∀ field s, (field, Json.str s) ∈ m → Json.stringField m field = .ok s :=
    fun _ _ => Json.stringField_of_mem _ rfl hdiffer
  have hkey : Gateway.JWKKey.ofJson (.obj m) = .ok ⟨"EC", "sig", "ES256", "P-256",
      Base64Url.encodeCoordinate pubKey.x, Base64Url.encodeCoordinate pubKey.y,
      "idp-signing-key"⟩ := by
    rw [Gateway.JWKKey.ofJson, hfield "kty" "EC" (by simp [m]), hfield "use" "sig" (by simp [m]),
      hfield "alg" "ES256" (by simp [m]), hfield "crv" "P-256" (by simp [m]),
      hfield "x" (Base64Url.encodeCoordinate pubKey.x) (by simp [m]),
      hfield "y" (Base64Url.encodeCoordinate pubKey.y) (by simp [m]),
      hfield "kid" "idp-signing-key" (by simp [m])]
    rfl
  show Gateway.JWKS.ofJson (.obj [("keys", .arr [.obj m])]) = _
  have hname : Strings.equalFold "keys" "keys" = true := Strings.equalFold_refl _
  have hlist : [Json.obj m].mapM Gateway.JWKKey.ofJson = .ok [⟨"EC", "sig", "ES256", "P-256",
      Base64Url.encodeCoordinate pubKey.x, Base64Url.encodeCoordinate pubKey.y,
      "idp-signing-key"⟩] := by
    rw [List.mapM_cons, hkey, List.mapM_nil]
    rfl
  rw [Gateway.JWKS.ofJson, List.foldlM_cons, hname, if_pos rfl]
  show ([Json.obj m].mapM Gateway.JWKKey.ofJson >>= fun keys => Except.ok keys) = _
  rw [hlist]
  rfl

/-- The gateway takes the key of the provider from it, and no other. -/
theorem newKeys_jwksHandler {pubKey : CurveKey} {jwks : List Gateway.JWKKey} {kid : String}
    {key : PublicKey}
    (hreply : Gateway.JwksReply.keys (.ok (200, .ok (Idp.jwksHandler pubKey))) = .ok jwks)
    (hkey : Gateway.newKeys jwks (fun _ => none) kid = some key) : key = pubKey.toPublicKey := by
  obtain ⟨k, rfl, hcurve, hcoord⟩ : ∃ k : Gateway.JWKKey, jwks = [k] ∧
      (k.kty = "EC" ∧ k.crv = "P-256") ∧ Gateway.jwkToECDSA k.x k.y = .ok pubKey.toPublicKey :=
    ⟨_, (Except.ok.inj ((keys_jwksHandler pubKey).symm.trans hreply)).symm, ⟨rfl, rfl⟩,
      Gateway.jwkToECDSA_encodeCoordinate pubKey⟩
  rw [Gateway.newKeys_singleton hcurve hcoord] at hkey
  rcases of_update hkey with ⟨-, hsome⟩ | ⟨-, hnone⟩
  · exact (Option.some.inj hsome).symm
  · cases hnone

/-- **The way of the key.** The coordinates fit into the 32 bytes, each is written with 43
characters, and a gateway that fetches the answer has the same key under the published name, and
no other key. -/
theorem fetchKeys_jwksHandler (pubKey : CurveKey) (c : Gateway.JWKSCache) (now : ℤ) :
    ((bigBytes pubKey.x).length ≤ 32 ∧ (bigBytes pubKey.y).length ≤ 32) ∧
      ∃ k : Gateway.JWKKey,
        Gateway.JwksReply.keys (.ok (200, .ok (Idp.jwksHandler pubKey))) = .ok [k] ∧
        (k.kty = "EC" ∧ k.crv = "P-256" ∧ k.kid = "idp-signing-key") ∧
        (k.x.length = 43 ∧ k.y.length = 43) ∧
        Gateway.fetchKeys c (.ok (200, .ok (Idp.jwksHandler pubKey))) now =
          (.ok (), ⟨Function.update (fun _ => none) "idp-signing-key" (some pubKey.toPublicKey),
            now, c.ttl⟩) := by
  have hkeys := keys_jwksHandler pubKey
  refine ⟨⟨length_bigBytes_le pubKey.x_lt, length_bigBytes_le pubKey.y_lt⟩, _, hkeys,
    ⟨rfl, rfl, rfl⟩, ⟨Base64Url.length_encodeCoordinate pubKey.x_lt,
      Base64Url.length_encodeCoordinate pubKey.y_lt⟩, ?_⟩
  rw [Gateway.fetchKeys, hkeys]
  have hnew := Gateway.newKeys_singleton
    (k := ⟨"EC", "sig", "ES256", "P-256", Base64Url.encodeCoordinate pubKey.x,
      Base64Url.encodeCoordinate pubKey.y, "idp-signing-key"⟩)
    ⟨rfl, rfl⟩ (Gateway.jwkToECDSA_encodeCoordinate pubKey) fun _ => none
  show (Except.ok (), Gateway.JWKSCache.mk (Gateway.newKeys _ fun _ => none) now c.ttl) = _
  rw [hnew]

end System
end DarkServices
