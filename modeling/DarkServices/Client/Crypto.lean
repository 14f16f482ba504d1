import DarkServices.Lib.Base64Url
import DarkServices.Lib.Jwt

/-!
# The client's side of PKCE and DPoP

`client/crypto`: the verifier and the challenge of an authorization request, the thumbprint of
the client's key, and the proofs it sends with its requests. The private key appears as the
function that signs a token with it.
-/

namespace DarkServices
namespace Client

open Lib

/-- The base64url text of the hash of a text. -/
def hashText (s : String) : String := Base64Url.encodeToString (Sha256.sum256 (utf8 s))

/-- `GeneratePKCE`: the verifier and its challenge, from 32 random bytes unless the random source
fails. -/
def generatePKCE (random : Except String (Vector UInt8 32)) : Except String (String × String) := do
  let bytes ← random
  let verifier := Base64Url.encodeToString bytes.toList
  .ok (verifier, hashText verifier)

/-- `CalculateJWKThumbprint`. -/
def calculateJWKThumbprint (pubKey : CurveKey) : String :=
  let xStr := Base64Url.encodeCoordinate pubKey.x
  let yStr := Base64Url.encodeCoordinate pubKey.y
  hashText ("\x7b\"crv\":\"P-256\",\"kty\":\"EC\",\"x\":\"" ++ xStr ++ "\",\"y\":\"" ++ yStr ++
    "\"\x7d")

/-- What the outside decides while a proof is made: the clock, 16 random bytes, and the text that
`SignedString` gives for a token under the client's key, or its error. -/
structure ProofEnv where
  now : ℤ
  random : Except String (Vector UInt8 16)
  signedString : Token → Except String String

/-- The member `jwk` of the header of a proof. -/
def proofJWK (pubKey : CurveKey) : Members :=
  [("crv", .str "P-256"), ("kty", .str "EC"), ("x", .str (Base64Url.encodeCoordinate pubKey.x)),
    ("y", .str (Base64Url.encodeCoordinate pubKey.y))]

/-- The proof before it is signed, with its members in the order of the JSON text. -/
def proofToken (pubKey : CurveKey) (method uri accessToken jti : String) (now : ℤ) : Token where
  alg := "ES256"
  header := [("alg", .str "ES256"), ("jwk", .obj (proofJWK pubKey)), ("typ", .str "dpop+jwt")]
  claims := (if accessToken = "" then [] else [("ath", .str (hashText accessToken))]) ++
    [("htm", .str method), ("htu", .str uri), ("iat", .num ⟨unix now, 0⟩), ("jti", .str jti)]

/-- `GenerateDPoPProof`. -/
def generateDPoPProof (env : ProofEnv) (pubKey : CurveKey) (method uri accessToken : String) :
    Except String String := do
  let jtiBytes ← env.random
  let jti := hex jtiBytes.toList
  (env.signedString (proofToken pubKey method uri accessToken jti env.now)).mapError
    ("failed to sign DPoP proof: " ++ ·)

end Client
end DarkServices
