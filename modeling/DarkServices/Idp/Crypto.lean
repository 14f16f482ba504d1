import DarkServices.Lib.Base64Url
import DarkServices.Lib.Jwt

/-!
# Proofs of possession and of the code verifier at the identity provider

`idp/crypto`: the key of a DPoP proof and its thumbprint, the verification of the proof, and
the check of a PKCE verifier.
-/

namespace DarkServices
namespace Idp

open Lib
open Lib.Json (lookup stringField goMap goStringMap parseNumber)
open Lib.Strings (equalFold split)

/-! ## Keys -/

/-- `JWK`. -/
structure JWK where
  crv : String
  kty : String
  x : String
  y : String
deriving DecidableEq

/-- The JWK of a header, written as text and read again into the structure. -/
def JWK.ofHeader : Json → Except String JWK
  | .obj m => do
    let crv ← stringField (goMap m) "crv"
    let kty ← stringField (goMap m) "kty"
    let x ← stringField (goMap m) "x"
    let y ← stringField (goMap m) "y"
    .ok ⟨crv, kty, x, y⟩
  | .null => .ok ⟨"", "", "", ""⟩
  | _ => .error "json: cannot unmarshal into Go value of type crypto.JWK"

/-- `data`, the text that `ComputeThumbprint` hashes. -/
def JWK.canonical (jwk : JWK) : String :=
  goStringMap [("crv", jwk.crv), ("kty", jwk.kty), ("x", jwk.x), ("y", jwk.y)]

/-- `ComputeThumbprint`; the encoding of a map of strings has no error. -/
def computeThumbprint (jwk : JWK) : String :=
  Base64Url.encodeToString (Sha256.sum256 (utf8 jwk.canonical))

/-- `base64.RawURLEncoding.DecodeString`, the position in its error left out. -/
def decodeCoordinate (s : String) : Except String (List UInt8) :=
  orFail (Base64Url.decodeString s) "illegal base64 data"

/-- `JWKToPublicKey`. -/
def jwkToPublicKey (jwk : JWK) : Except String PublicKey := do
  failIf (jwk.kty ≠ "EC" ∨ jwk.crv ≠ "P-256")
    "unsupported key type or curve, only EC P-256 is allowed"
  let xBytes ← (decodeCoordinate jwk.x).mapError ("failed to decode X coordinate: " ++ ·)
  let yBytes ← (decodeCoordinate jwk.y).mapError ("failed to decode Y coordinate: " ++ ·)
  .ok ⟨beNat xBytes, beNat yBytes⟩

/-! ## DPoP proofs -/

/-- `DPoPClaims`, with the registered claims it embeds. -/
structure DPoPClaims where
  httpMethod : String
  httpURI : String
  nonce : String
  accessTokenHash : String
  registered : RegisteredClaims

/-- A time claim: a number, also one written as a string, in whole seconds. -/
def numericDate : Json → Except String (Option ℤ)
  | .null => .ok none
  | .num d => .ok (some d.floor)
  | .str s =>
    match parseNumber s with
    | some d => .ok (some d.floor)
    | none => .error "json: invalid number literal"
  | _ => .error "could not parse NumericData"

/-- A time field: every member of the name assigns it. -/
def dateField (m : Members) (field : String) : Except String (Option ℤ) :=
  m.foldlM (fun acc p => if equalFold p.1 field then numericDate p.2 else .ok acc) none

/-- The field `aud`, which nothing reads: a string, a list of strings or `null`. -/
def audienceField (m : Members) : Except String Unit :=
  m.foldlM (fun _ p =>
    if equalFold p.1 "aud" then
      match p.2 with
      | .str _ => .ok ()
      | .null => .ok ()
      | .arr l =>
        failIf (!l.all fun j => match j with | .str _ => true | _ => false)
          "token audience is invalid"
      | _ => .error "token audience is invalid"
    else .ok ()) ()

/-- Decode the claims of a proof into the structure. -/
def DPoPClaims.ofMembers (m : Members) : Except String DPoPClaims := do
  let htm ← stringField m "htm"
  let htu ← stringField m "htu"
  let nonce ← stringField m "nonce"
  let ath ← stringField m "ath"
  let _iss ← stringField m "iss"
  let _sub ← stringField m "sub"
  audienceField m
  let exp ← dateField m "exp"
  let nbf ← dateField m "nbf"
  let iat ← dateField m "iat"
  let jti ← stringField m "jti"
  .ok ⟨htm, htu, nonce, ath, ⟨exp, nbf, iat, jti⟩⟩

/-- The key function of `VerifyDPoPProof`. Its state is the variable `clientJWK`, which nothing
reads after an error. -/
def proofKey (t : Token) (clientJWK : JWK) : Except String PublicKey × JWK :=
  if t.alg ≠ "ES256" then
    (.error ("invalid signing algorithm: " ++ t.alg ++ ", must be ES256"), clientJWK)
  else
    match lookup t.header "jwk" with
    | none => (.error "missing jwk in DPoP header", clientJWK)
    | some jwkRaw =>
      match JWK.ofHeader jwkRaw with
      | .error e => (.error ("failed to unmarshal jwk: " ++ e), clientJWK)
      | .ok jwk => (jwkToPublicKey jwk, jwk)

/-- `strings.Split(uri, "?")[0]`. -/
def cleanURI (uri : String) : String := String.ofList ((split '?' uri.toList).headD [])

/-- The base64url text of a hash of a text, `ath` of a token and the challenge of a verifier. -/
def hashText (s : String) : String := Base64Url.encodeToString (Sha256.sum256 (utf8 s))

/-- The check of `VerifyDPoPProof` that binds the proof to an access token, if there is one. -/
def checkAth (claims : DPoPClaims) (accessToken : String) : Except String Unit :=
  if accessToken = "" then .ok ()
  else do
    failIf (claims.accessTokenHash = "")
      "missing ath claim in DPoP proof while validating access token"
    failIf (claims.accessTokenHash ≠ hashText accessToken)
      "ath claim mismatch: proof is not bound to this access token"

/-- The checks of `VerifyDPoPProof` on the claims of a verified proof. -/
def checkProofClaims (timeText : ℤ → String) (now : ℤ) (claims : DPoPClaims)
    (expectedMethod expectedURI accessToken : String) : Except String Unit := do
  failIf (!equalFold claims.httpMethod expectedMethod)
    ("htm claim mismatch: expected " ++ expectedMethod ++ ", got " ++ claims.httpMethod)
  failIf (!equalFold (cleanURI claims.httpURI) (cleanURI expectedURI))
    ("htu claim mismatch: expected " ++ cleanURI expectedURI ++ ", got " ++
      cleanURI claims.httpURI)
  let iat ← orFail claims.registered.issuedAt "missing iat claim in DPoP proof"
  let timeDiff := now - seconds iat
  failIf (timeDiff < -seconds 60 ∨ timeDiff > seconds 60)
    ("dpop proof expired or issued in the future: iat=" ++ timeText (seconds iat))
  checkAth claims accessToken

/-- `VerifyDPoPProof`: the thumbprint of the key of the proof, and its identifier. -/
def verifyDPoPProof (lib : Jwt) (timeText : ℤ → String) (now : ℤ)
    (proofJWT expectedMethod expectedURI accessToken : String) :
    Except String (String × String) :=
  match lib.parseWithClaims DPoPClaims.ofMembers
      (fun c now => lib.validateRegistered c.registered now) now proofJWT proofKey
      ⟨"", "", "", ""⟩ with
  | (.error e, _) => .error ("invalid DPoP proof signature: " ++ e)
  | (.ok (_, claims), clientJWK) => do
    checkProofClaims timeText now claims expectedMethod expectedURI accessToken
    .ok (computeThumbprint clientJWK, claims.registered.id)

/-! ## PKCE -/

/-- `VerifyPKCE`. -/
def verifyPKCE (codeVerifier codeChallenge method : String) : Bool :=
  if method ≠ "S256" then false else hashText codeVerifier == codeChallenge

end Idp
end DarkServices
