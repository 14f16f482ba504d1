import DarkServices.Lib.Base64Url
import DarkServices.Lib.Jwt
import DarkServices.Lib.ReplayCache

/-!
# The keys, the proofs and the replay cache of the gateway

`gateway/internal/auth`: the cache of the identity provider's keys, the verification of a
DPoP proof, and the cache of the proof identifiers already used.
-/

namespace DarkServices
namespace Gateway

open Lib
open Lib.Json (lookup stringOf stringField)
open Lib.Strings (equalFold fromFirst)

/-! ## The keys of the identity provider -/

/-- `JWKKey`. -/
structure JWKKey where
  kty : String
  use : String
  alg : String
  crv : String
  x : String
  y : String
  kid : String

/-- Decode one key; `null` is the zero structure. -/
def JWKKey.ofJson : Json → Except String JWKKey
  | .obj m => do
    let kty ← stringField m "kty"
    let use ← stringField m "use"
    let alg ← stringField m "alg"
    let crv ← stringField m "crv"
    let x ← stringField m "x"
    let y ← stringField m "y"
    let kid ← stringField m "kid"
    .ok ⟨kty, use, alg, crv, x, y, kid⟩
  | .null => .ok ⟨"", "", "", "", "", "", ""⟩
  | _ => .error "json: cannot unmarshal into Go value of type auth.JWKKey"

/-- `JWKS`: decode the member `keys` of the response. -/
def JWKS.ofJson : Json → Except String (List JWKKey)
  | .obj m => m.foldlM (fun keys p =>
      if equalFold p.1 "keys" then
        match p.2 with
        | .arr l => l.mapM JWKKey.ofJson
        | .null => .ok []
        | _ => .error "json: cannot unmarshal into Go struct field JWKS.keys"
      else .ok keys) []
  | .null => .ok []
  | _ => .error "json: cannot unmarshal into Go value of type auth.JWKS"

/-- `base64.RawURLEncoding.DecodeString`, the position in its error left out. -/
def decodeCoordinate (s : String) : Except String (List UInt8) :=
  orFail (Base64Url.decodeString s) "illegal base64 data"

/-- `JWKToECDSA`. -/
def jwkToECDSA (xStr yStr : String) : Except String PublicKey := do
  let xBytes ← (decodeCoordinate xStr).mapError ("invalid x coordinate: " ++ ·)
  let yBytes ← (decodeCoordinate yStr).mapError ("invalid y coordinate: " ++ ·)
  .ok ⟨beNat xBytes, beNat yBytes⟩

/-- `JWKSCache`, the address of the identity provider left out. -/
structure JWKSCache where
  keys : String → Option PublicKey
  lastUpdate : ℤ
  ttl : ℤ

/-- The zero time, the first of January of year 1. -/
def zeroTime : ℤ := seconds (-62135596800)

/-- `NewJWKSCache`. -/
def newJWKSCache (ttl : ℤ) : JWKSCache := ⟨fun _ => none, zeroTime, ttl⟩

/-- What the request to the JWKS endpoint gives: an error of the transport, or the status and
the decoded body. -/
abbrev JwksReply := Except String (ℕ × Except String Json)

/-- The keys of a response, by their identifiers: keys that are not on P-256 or do not decode
are left out. -/
def newKeys : List JWKKey → (String → Option PublicKey) → String → Option PublicKey
  | [], keys => keys
  | k :: l, keys =>
    if k.kty = "EC" ∧ k.crv = "P-256" then
      match jwkToECDSA k.x k.y with
      | .error _ => newKeys l keys
      | .ok pubKey => newKeys l (Function.update keys k.kid (some pubKey))
    else newKeys l keys

/-- The body of a good response. -/
def JwksReply.keys (reply : JwksReply) : Except String (List JWKKey) := do
  let (status, body) ← reply
  failIf (status ≠ 200) ("invalid status code from JWKS: " ++ toString status)
  let json ← body
  JWKS.ofJson json

/-- `FetchKeys`: the cache is replaced when the response is good. -/
def fetchKeys (c : JWKSCache) (reply : JwksReply) (now : ℤ) : Except String Unit × JWKSCache :=
  match reply.keys with
  | .error e => (.error e, c)
  | .ok jwks => (.ok (), ⟨newKeys jwks fun _ => none, now, c.ttl⟩)

/-- `GetPublicKey`: a fresh entry is used as it is; otherwise the keys are fetched again, and
an old entry is used when that fails. -/
def getPublicKey (c : JWKSCache) (reply : JwksReply) (now : ℤ) (kid : String) :
    Except String PublicKey × JWKSCache :=
  match c.keys kid with
  | some key =>
    if now - c.lastUpdate < c.ttl then (.ok key, c)
    else
      match fetchKeys c reply now with
      | (.error _, c') => (.ok key, c')
      | (.ok _, c') => (orFail (c'.keys kid) ("key ID '" ++ kid ++ "' not found in JWKS"), c')
  | none =>
    match fetchKeys c reply now with
    | (.error e, c') => (.error ("failed to fetch JWKS: " ++ e), c')
    | (.ok _, c') => (orFail (c'.keys kid) ("key ID '" ++ kid ++ "' not found in JWKS"), c')

/-! ## DPoP proofs -/

/-- The text that `CalculateJWKThumbprint` hashes. -/
def thumbprintText (xStr yStr : String) : String :=
  "\x7b\"crv\":\"P-256\",\"kty\":\"EC\",\"x\":\"" ++ xStr ++ "\",\"y\":\"" ++ yStr ++ "\"\x7d"

/-- `CalculateJWKThumbprint`. -/
def calculateJWKThumbprint (xStr yStr : String) : String :=
  Base64Url.encodeToString (Sha256.sum256 (utf8 (thumbprintText xStr yStr)))

/-- The key function of `VerifyDPoPProof`. Its state is the variable `jwkMap`. -/
def proofKey (t : Token) (jwkMap : Members) : Except String PublicKey × Members :=
  if !t.isECDSA then (.error ("unexpected signing method: " ++ t.alg), jwkMap)
  else
    match lookup t.header "jwk" with
    | none => (.error "missing jwk claim in DPoP header", jwkMap)
    | some (.obj m) =>
      (do failIf (stringOf m "kty" ≠ "EC" ∨ stringOf m "crv" ≠ "P-256") "DPoP key must be EC P-256"
          failIf (stringOf m "x" = "" ∨ stringOf m "y" = "") "missing X/Y coordinates in DPoP key"
          jwkToECDSA (stringOf m "x") (stringOf m "y"), m)
    | some _ => (.error "invalid jwk format in DPoP header", [])

/-- `stripHostAndScheme`. -/
def stripHostAndScheme (uri : String) : String :=
  let rest := match fromFirst "://".toList uri.toList with
    | some l => l.drop 3
    | none => uri.toList
  match fromFirst ['/'] rest with
  | some l => String.ofList l
  | none => "/"

/-- `verifyHTU`. -/
def verifyHTU (htu targetURI : String) : Bool :=
  htu == targetURI || stripHostAndScheme htu == stripHostAndScheme targetURI

/-- The base64url text of the hash of an access token. -/
def athOf (accessToken : String) : String :=
  Base64Url.encodeToString (Sha256.sum256 (utf8 accessToken))

/-- `claims["iat"].(float64)`. -/
def iatOf (claims : Members) : Option Decimal :=
  match lookup claims "iat" with
  | some (.num d) => some d
  | _ => none

/-- The checks of `VerifyDPoPProof` on the claims of a verified proof, up to `jti`. -/
def checkProofClaims (timeText : ℤ → String) (now : ℤ) (claims : Members)
    (method targetURI : String) : Except String String := do
  let htm := stringOf claims "htm"
  failIf (!equalFold htm method) ("invalid htm claim: expected " ++ method ++ ", got " ++ htm)
  let htu := stringOf claims "htu"
  failIf (!verifyHTU htu targetURI)
    ("invalid htu claim: expected match for " ++ targetURI ++ ", got " ++ htu)
  let iatFloat ← orFail (iatOf claims) "missing or invalid iat claim"
  let iat := seconds iatFloat.trunc
  failIf (now - iat > seconds 60 ∨ iat - now > seconds 60)
    ("DPoP proof expired or issued in the future (iat: " ++ timeText iat ++ ")")
  let jti := stringOf claims "jti"
  failIf (jti = "") "missing jti claim in DPoP proof"
  .ok jti

/-- The check of `VerifyDPoPProof` that binds the proof to an access token, if there is one. -/
def checkAth (claims : Members) (accessToken : String) : Except String Unit :=
  if accessToken = "" then .ok ()
  else do
    let ath := stringOf claims "ath"
    failIf (ath = "") "missing ath claim in DPoP proof (required for request validation)"
    failIf (ath ≠ athOf accessToken) "ath claim mismatch: proof is not bound to this access token"

/-- `VerifyDPoPProof`: the thumbprint of the key of the proof, and its identifier. `timeText`
writes a time in the zone of the server. -/
def verifyDPoPProof (lib : Jwt) (timeText : ℤ → String) (now : ℤ)
    (proofJWT method targetURI accessToken : String) : Except String (String × String) :=
  match lib.parse now proofJWT proofKey [] with
  | (.error e, _) => .error ("invalid DPoP proof signature: " ++ e)
  | (.ok token, jwkMap) => do
    let jti ← checkProofClaims timeText now token.claims method targetURI
    checkAth token.claims accessToken
    .ok (calculateJWKThumbprint (stringOf jwkMap "x") (stringOf jwkMap "y"), jti)

/-! ## Used proof identifiers -/

/-- `JTICache`. -/
abbrev JTICache := Expiry String

/-- `IsJTIUsedAndSave`. -/
def isJTIUsedAndSave (c : JTICache) (jti : String) (ttl now : ℤ) : Bool × JTICache :=
  c.isUsedAndSave jti ttl now

/-- `startCleanupTicker`: the visit of one entry by a sweep that read the clock at `now`. -/
def cleanupVisit (c : JTICache) (now : ℤ) (jti : String) : JTICache := c.visit now jti

/-- `IsJTIUsedAndSave` and `startCleanupTicker` operation by operation, for any number of calls
and sweeps. -/
def jtiCacheSystem {ι κ : Type} [DecidableEq ι] [DecidableEq κ]
    (call : ι → ReplayCache.Call String) :
    LTS (ReplayCache.State ι κ String) (ReplayCache.Label ι κ String) :=
  ReplayCache.system call

end Gateway
end DarkServices
