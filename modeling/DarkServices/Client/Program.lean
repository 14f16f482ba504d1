import DarkServices.Client.Crypto
import DarkServices.Client.Main
import DarkServices.Lib.Prog

/-!
# The client as a program

`client/main.go`: the client gets a code from the identity provider, redeems it with a proof of
its key, and makes one request to the gateway. An exchange of messages is an operation, so that
everybody else may act between two of them. `ρ` is what a response of the gateway is.

The texts of the command line are strings; the lines that the program logs are left out.
-/

namespace DarkServices
namespace Client

open Lib
open Lib.Json (stringField)
open UrlQuery (Bytes)

/-! ## Replies of the identity provider -/

/-- A response: its status, its body, and the first JSON value of the body. -/
structure HttpResponse where
  status : ℕ
  body : String
  value : Except String Json

/-- Decode `authResp`. -/
def authCode : Json → Except String String
  | .obj m => stringField m "code"
  | .null => .ok ""
  | _ => .error "json: cannot unmarshal into Go value of type struct { Code string }"

/-- `TokenResponse`. -/
structure TokenResponse where
  accessToken : String
  tokenType : String
  expiresIn : ℤ
  refreshToken : String

/-- Assign a member to a field of type `int`; `null` leaves the field as it is. -/
def assignInt (field : String) (acc : ℤ) : Json → Except String ℤ
  | .num ⟨n, 0⟩ =>
    if -(2 ^ 63) ≤ n ∧ n < 2 ^ 63 then .ok n
    else .error ("json: cannot unmarshal number into field " ++ field ++ " of type int")
  | .null => .ok acc
  | _ => .error ("json: cannot unmarshal into field " ++ field ++ " of type int")

/-- A field of type `int`: every member of the name assigns it. -/
def intField (m : Members) (field : String) : Except String ℤ :=
  m.foldlM (fun acc p => if Strings.equalFold p.1 field then assignInt field acc p.2 else .ok acc) 0

/-- Decode the response of `/token`. -/
def TokenResponse.ofJson : Json → Except String TokenResponse
  | .obj m => do
    let accessToken ← stringField m "access_token"
    let tokenType ← stringField m "token_type"
    let expiresIn ← intField m "expires_in"
    let refreshToken ← stringField m "refresh_token"
    .ok ⟨accessToken, tokenType, expiresIn, refreshToken⟩
  | .null => .ok ⟨"", "", 0, ""⟩
  | _ => .error "json: cannot unmarshal into Go value of type main.TokenResponse"

/-- The code in the reply of `/authorize`. -/
def readAuthCode (reply : Except String HttpResponse) : Except String String := do
  let resp ← reply.mapError ("authorize request failed: " ++ ·)
  failIf (resp.status ≠ 200)
    ("authorize returned status " ++ toString resp.status ++ ": " ++ resp.body)
  (resp.value >>= authCode).mapError ("failed to parse auth code response: " ++ ·)

/-- The access token in the reply of `/token`. -/
def readAccessToken (reply : Except String HttpResponse) : Except String String := do
  let resp ← reply.mapError ("token exchange request failed: " ++ ·)
  failIf (resp.status ≠ 200)
    ("token exchange returned status " ++ toString resp.status ++ ": " ++ resp.body)
  let tr ← (resp.value >>= TokenResponse.ofJson).mapError
    ("failed to parse token response: " ++ ·)
  .ok tr.accessToken

/-! ## Exchanges -/

/-- `tokenReq`. -/
structure TokenRequest where
  url : String
  header : List (String × String)
  body : Bytes

/-- A request to the gateway; the body is a JSON value, if there is one. -/
structure ApiRequest where
  method : String
  url : String
  header : List (String × String)
  body : Option Json

/-- What the client asks the outside for. -/
inductive Exchange
  | authorize (authURL : Bytes) (header : List (String × String))
  | token (req : TokenRequest)
  | api (req : ApiRequest)

abbrev ExchangeReply (ρ : Type) : Exchange → Type
  | .api _ => Except String ρ
  | _ => Except String HttpResponse

abbrev Program (ρ α : Type) := Prog Exchange (ExchangeReply ρ) α

/-- What the outside decides besides: the random bytes of the verifier, what the two proofs are
made of, and whether the identity of the network can be loaded. -/
structure ClientEnv where
  pkce : Except String (Vector UInt8 32)
  tokenProof : ProofEnv
  apiProof : ProofEnv
  ziti : Except String Unit

variable {ρ : Type}

/-- `tokenReq` in `getDPoPBoundToken`, with its proof. -/
def tokenRequest (env : ProofEnv) (dpopKey : CurveKey) (tokenURL code verifier : String)
    (clientSecret : Bytes) : Except String TokenRequest := do
  let dpopProof ← (generateDPoPProof env dpopKey "POST" tokenURL "").mapError
    ("failed to generate DPoP proof for token: " ++ ·)
  .ok ⟨tokenURL, [("Content-Type", "application/x-www-form-urlencoded"), ("DPoP", dpopProof)],
    tokenBody (utf8 code) (utf8 verifier) clientSecret⟩

/-- `getDPoPBoundToken`. -/
def getDPoPBoundToken (env : ClientEnv) (dpopKey : CurveKey) (idpBaseURL clientID : String)
    (clientSecret : Bytes) : Program ρ (Except String String) :=
  match generatePKCE env.pkce with
  | .error e => .ret (.error e)
  | .ok (verifier, challenge) =>
    .op (.authorize (authURL (utf8 idpBaseURL) (utf8 clientID) clientSecret (utf8 challenge))
        [("Accept", "application/json")]) fun resp =>
      match readAuthCode resp with
      | .error e => .ret (.error e)
      | .ok code =>
        -- the proof is made when the code is there
        match tokenRequest env.tokenProof dpopKey (idpBaseURL ++ "/token") code verifier
            clientSecret with
        | .error e => .ret (.error e)
        | .ok req => .op (.token req) fun resp => .ret (readAccessToken resp)

/-- The common part of the three commands: a proof bound to the access token, and the request. -/
def execute (method apiPath : String) (header : List (String × String)) (payload : Option Json)
    (env : ProofEnv) (dpopKey : CurveKey) (gatewayURL accessToken : String) :
    Program ρ (Except String ρ) :=
  let targetURL := gatewayURL ++ apiPath
  match generateDPoPProof env dpopKey method targetURL accessToken with
  | .error e => .ret (.error ("CRYPTO ERROR: Failed to generate API DPoP proof: " ++ e))
  | .ok dpopProof =>
    .op (.api ⟨method, targetURL,
        header ++ [("Authorization", "DPoP " ++ accessToken), ("DPoP", dpopProof)], payload⟩)
      fun resp => .ret (resp.mapError ("GATEWAY CONNECTION ERROR: " ++ ·))

/-- `executeGetBalance`. -/
def executeGetBalance (env : ProofEnv) (dpopKey : CurveKey) (gatewayURL accessToken : String) :
    Program ρ (Except String ρ) :=
  execute "GET" "/api/balance" [] none env dpopKey gatewayURL accessToken

/-- `reqPayload` in `executeTransfer`. -/
def reqPayload (amount : Decimal) (desc : String) : Json :=
  .obj [("amount", .num amount), ("description", .str desc)]

/-- `executeTransfer`. -/
def executeTransfer (amount : Decimal) (desc : String) (env : ProofEnv) (dpopKey : CurveKey)
    (gatewayURL accessToken : String) : Program ρ (Except String ρ) :=
  execute "POST" "/api/transfer" [("Content-Type", "application/json")]
    (some (reqPayload amount desc)) env dpopKey gatewayURL accessToken

/-- `executeGetAuditLogs`. -/
def executeGetAuditLogs (env : ProofEnv) (dpopKey : CurveKey) (gatewayURL accessToken : String) :
    Program ρ (Except String ρ) :=
  execute "GET" "/api/audit-logs" [] none env dpopKey gatewayURL accessToken

/-! ## The command line -/

/-- The flags of the command line, with their defaults. -/
structure Flags where
  identity : String := "client-alice"
  secret : String := ""
  cmd : String := "balance"
  amount : Decimal := ⟨0, 0⟩
  desc : String := "Giao dich PTIT Thesis ZTA"
  idp : String := "http://localhost:8081"
  gateway : String := "http://gateway.ziti"
  ziti : Bool := true

/-- `gatewayURL` after the choice of the transport. -/
def Flags.gatewayURL (flags : Flags) : String :=
  if flags.ziti = false ∧ flags.gateway = "http://gateway.ziti" then "http://localhost:8080"
  else flags.gateway

/-- `strings.ToLower` as far as the names of the commands go: none of them has a letter that is
the small letter of a character outside ASCII. -/
def toLower (s : String) : String := String.ofList (s.toList.map Char.toLower)

/-- Step 4 of `main`. -/
def executeCommand (flags : Flags) (env : ProofEnv) (dpopKey : CurveKey) (accessToken : String) :
    Program ρ (Except String ρ) :=
  if toLower flags.cmd = "balance" then
    executeGetBalance env dpopKey flags.gatewayURL accessToken
  else if toLower flags.cmd = "transfer" then
    if flags.amount.coeff ≤ 0 then
      .ret (.error "VALIDATION ERROR: Transfer amount must be greater than zero")
    else executeTransfer flags.amount flags.desc env dpopKey flags.gatewayURL accessToken
  else if toLower flags.cmd = "logs" then
    executeGetAuditLogs env dpopKey flags.gatewayURL accessToken
  else .ret (.error "UNKNOWN COMMAND: Supported commands are balance, transfer, logs")

/-- `main` after it has made its key: the response that it prints, or the error that it ends
with. -/
def main (flags : Flags) (env : ClientEnv) (dpopKey : CurveKey) : Program ρ (Except String ρ) :=
  (getDPoPBoundToken env dpopKey flags.idp flags.identity
    (secretOf (utf8 flags.identity) (utf8 flags.secret))).bind fun result =>
    match result with
    | .error e =>
      .ret (.error ("AUTHENTICATION ERROR: Failed to obtain DPoP-bound token: " ++ e))
    | .ok accessToken =>
      match if flags.ziti then env.ziti else .ok () with
      | .error e => .ret (.error ("ZITI CONFIG ERROR: " ++ e))
      | .ok () => executeCommand flags env.apiProof dpopKey accessToken

end Client
end DarkServices
