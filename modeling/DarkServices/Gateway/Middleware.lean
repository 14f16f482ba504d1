import DarkServices.Audit.DBClient
import DarkServices.Gateway.Auth

/-!
# The middleware of the gateway

`SecureAPI` and `EnforcePolicy` of `gateway/internal/middleware`, with the identity of a
connection and the client of the policy decision point. A handler takes a request and the
state of the process to a response and the next state. What the outside decides during a
request (clock readings, the answers of the identity provider, the policy decision point and
the database) is a record of inputs, and the calls to the last two are logged.

The measured durations, the response headers that report them and the counters are left out.
-/

namespace DarkServices
namespace Gateway

open Lib
open Lib.Json (lookup stringOf stringField)
open Lib.Strings (equalFold hasPrefix)

/-! ## Requests, responses and handlers -/

/-- A connection: what its method `SourceIdentifier` returns, if it has one that returns a
string. -/
structure Conn where
  sourceIdentifier : Option String

/-- `TokenClaims`. -/
structure TokenClaims where
  sub : String
  tenantID : String
  role : String
  scope : String
  jkt : String
deriving DecidableEq

/-- A request. `conn` and `claims` are the two values of its context; `body` is the first JSON
value of the body, if there is one. -/
structure Request where
  method : String
  path : String
  host : String
  tls : Bool
  header : List (String × String)
  remoteAddr : String
  body : Option Json
  conn : Option Conn
  claims : Option TokenClaims

/-- `r.Header.Get`: the first value of the header, empty when there is none. -/
def Request.get (r : Request) (key : String) : String :=
  match r.header.find? fun p => equalFold p.1 key with
  | some p => p.2
  | none => ""

/-- `r.WithContext(context.WithValue(r.Context(), ClaimsKey, c))`. -/
def Request.withClaims (r : Request) (c : TokenClaims) : Request := { r with claims := some c }

/-- The body of a response: a plain text, a JSON object, the JSON text of an answer of the
database with the claims it repeats, or the text of the metrics. -/
inductive Body
  | text (s : String)
  | json (j : Json)
  | answer (c : TokenClaims) (a : Audit.Answer)
  | metrics

structure Response where
  status : ℕ
  body : Body

/-- `http.Error`. -/
def httpError (msg : String) (status : ℕ) : Response := ⟨status, .text msg⟩

/-- `CheckAccessRequest`. -/
structure CheckAccessRequest where
  tenantId : String
  subject : String
  action : String
  resource : String
  context : List (String × String)

/-- `CheckAccessResponse_ALLOW`. -/
def allowDecision : ℤ := 1

/-- `CheckAccessResponse`. -/
structure CheckAccessResponse where
  decision : ℤ
  matchedPolicyId : String

/-- What comes back from the policy decision point: an error of the call, nothing within the
timeout, or a message, which may not be JSON. -/
inductive PdpReply
  | rpcError (e : String)
  | timeout
  | message (body : Option Json)

/-- A call to the outside: to the policy decision point with its reply, or to the database. -/
inductive Event
  | checkAccess (req : CheckAccessRequest) (reply : PdpReply)
  | database (call : Audit.Call)

/-- What the outside decides while a request is served: the token library, the text of a time
in the zone of the server, the readings of the clock in the order they are taken, and the
answers of the other services. -/
structure Env where
  jwt : Jwt
  timeText : ℤ → String
  proofAt : ℤ
  jtiAt : ℤ
  keysAt : ℤ
  tokenAt : ℤ
  policyAt : ℤ
  jwks : JwksReply
  pdp : CheckAccessRequest → PdpReply
  db : Audit.Call → Except String Audit.Answer

/-- The state of the process, and the calls to the outside so far. -/
structure World where
  keys : JWKSCache
  jtis : JTICache
  log : List Event

abbrev Handler := Env → Request → World → Response × World

/-! ## Connections -/

/-- `GetZitiIdentity`. -/
def getZitiIdentity : Option Conn → String
  | some c => c.sourceIdentifier.getD ""
  | none => ""

/-! ## The policy decision point -/

/-- The field `decision`, of type `int32`: every member of the name assigns it. -/
def decisionField (m : Members) : Except String ℤ :=
  m.foldlM (fun acc p =>
    if equalFold p.1 "decision" then
      match p.2 with
      | .num ⟨n, 0⟩ =>
        if -(2 ^ 31) ≤ n ∧ n < 2 ^ 31 then .ok n
        else .error "json: cannot unmarshal number into Go struct field decision of type int32"
      | .null => .ok acc
      | _ => .error "json: cannot unmarshal into Go struct field decision of type int32"
    else .ok acc) 0

/-- Decode a reply; an absent field keeps its zero value, which is `DENY` for the decision. -/
def CheckAccessResponse.ofJson : Json → Except String CheckAccessResponse
  | .obj m => do
    let decision ← decisionField m
    let matchedPolicyId ← stringField m "matched_policy_id"
    .ok ⟨decision, matchedPolicyId⟩
  | .null => .ok ⟨0, ""⟩
  | _ => .error "json: cannot unmarshal into Go value of type policyv1.CheckAccessResponse"

/-- The error of the call for a message that does not decode. -/
def unmarshalError (e : String) : String :=
  "rpc error: code = Internal desc = grpc: failed to unmarshal the received message: " ++ e

/-- What the call `c.client.CheckAccess` returns for a reply. -/
def PdpReply.result : PdpReply → Except String CheckAccessResponse
  | .rpcError e => .error e
  | .timeout => .error "rpc error: code = DeadlineExceeded desc = context deadline exceeded"
  | .message none => .error (unmarshalError "invalid JSON")
  | .message (some j) => (CheckAccessResponse.ofJson j).mapError unmarshalError

/-- `PDPClient`. -/
structure PDPClient where
  failOpen : Bool

/-- The four results of `CheckAccess`. -/
structure Access where
  allow : Bool
  matchedPolicyID : String
  httpStatus : ℕ
  err : Option String

/-- `CheckAccess`: the reply of the policy decision point as a decision. -/
def PDPClient.checkAccess (c : PDPClient) (reply : PdpReply) : Access :=
  match reply.result with
  | .error e =>
    -- fail-open lets the request through without a decision
    if c.failOpen then ⟨true, "", 0, none⟩
    else ⟨false, "", 503, some ("policy decision point unavailable: " ++ e)⟩
  | .ok resp =>
    if resp.decision = allowDecision then ⟨true, resp.matchedPolicyId, 0, none⟩
    else ⟨false, resp.matchedPolicyId, 403, none⟩

/-! ## SecureAPI -/

/-- `AuthMiddleware`; its cache of keys is part of the state. -/
structure AuthMiddleware where
  enforceZiti : Bool
  pdpClient : Option PDPClient

/-- `NewAuthMiddleware`: the cache of keys it starts with. -/
def newAuthMiddlewareCache : JWKSCache := newJWKSCache (seconds 300)

/-- The lifetime `SecureAPI` gives to a proof identifier. -/
def jtiTTL : ℤ := seconds 120

/-- `fullURI`, the address the request was made to. -/
def Request.fullURI (r : Request) : String :=
  (if r.tls then "https" else "http") ++ "://" ++ r.host ++ r.path

/-- Step 1 of `SecureAPI`: the access token of the header `Authorization`. -/
def accessTokenOf (r : Request) : Except Response String := do
  let authHeader := r.get "Authorization"
  failIf (authHeader = "") (httpError "invalid_token: missing Authorization header" 401)
  let parts ← orFail (Strings.cut ' ' authHeader.toList)
    (httpError "invalid_token: Authorization type must be DPoP" 401)
  failIf (!equalFold (String.ofList parts.1) "DPoP")
    (httpError "invalid_token: Authorization type must be DPoP" 401)
  .ok (String.ofList parts.2)

/-- Steps 1 to 3 of `SecureAPI`: the access token, the thumbprint of the key of the proof, and
the identifier of the proof. -/
def checkProof (env : Env) (r : Request) : Except Response (String × String × String) := do
  let accessToken ← accessTokenOf r
  let dpopHeader := r.get "DPoP"
  failIf (dpopHeader = "") (httpError "invalid_dpop_proof: missing DPoP header proof" 401)
  let p ← (verifyDPoPProof env.jwt env.timeText env.proofAt dpopHeader r.method r.fullURI
    accessToken).mapError fun e => httpError ("invalid_dpop_proof: " ++ e) 401
  .ok (accessToken, p.1, p.2)

/-- The key function of step 4: the key that the cache gives for the `kid` of the header. -/
def tokenKey (env : Env) (t : Token) (keys : JWKSCache) : Except String PublicKey × JWKSCache :=
  if !t.isECDSA then (.error ("unexpected token signing method: " ++ t.alg), keys)
  else if stringOf t.header "kid" = "" then (.error "missing kid in token header", keys)
  else getPublicKey keys env.jwks env.keysAt (stringOf t.header "kid")

/-- Step 5: the thumbprint the token is bound to. -/
def checkBinding (claims : Members) (jkt : String) : Except Response String := do
  let cnf ← orFail (match lookup claims "cnf" with | some (.obj m) => some m | _ => none)
    (httpError "invalid_token: missing cnf claim" 401)
  let tokenJkt := stringOf cnf "jkt"
  failIf (tokenJkt ≠ jkt)
    (httpError "invalid_token: token jkt binding mismatch (sender-constraining failed)" 401)
  .ok tokenJkt

def identityMismatch (zitiIdentity tokenSub : String) : Response :=
  httpError ("forbidden: network identity '" ++ zitiIdentity ++
    "' does not match token subject '" ++ tokenSub ++ "'") 403

/-- Step 6: the identity of the connection against the subject of the token. -/
def checkIdentity (m : AuthMiddleware) (zitiIdentity tokenSub : String) : Except Response Unit :=
  if m.enforceZiti then do
    failIf (zitiIdentity = "")
      (httpError "forbidden: missing OpenZiti network identity in a secure context" 403)
    failIf (tokenSub ≠ zitiIdentity) (identityMismatch zitiIdentity tokenSub)
  else failIf (zitiIdentity ≠ "" ∧ tokenSub ≠ zitiIdentity) (identityMismatch zitiIdentity tokenSub)

/-- Steps 5 and 6, and the claims put into the context. -/
def checkToken (m : AuthMiddleware) (conn : Option Conn) (claims : Members) (jkt : String) :
    Except Response TokenClaims := do
  let dpopJKT ← checkBinding claims jkt
  let tokenSub := stringOf claims "sub"
  checkIdentity m (getZitiIdentity conn) tokenSub
  .ok ⟨tokenSub, stringOf claims "tenant_id", stringOf claims "role", stringOf claims "scope",
    dpopJKT⟩

/-- `SecureAPI`. -/
def secureAPI (m : AuthMiddleware) (next : Handler) : Handler := fun env r w =>
  match checkProof env r with
  | .error resp => (resp, w)
  | .ok (accessToken, jkt, jti) =>
    -- the identifier is used up before the access token is looked at
    match isJTIUsedAndSave w.jtis jti jtiTTL env.jtiAt with
    | (true, jtis) =>
      (httpError "invalid_dpop_proof: replay attack detected (jti already used)" 401,
        ⟨w.keys, jtis, w.log⟩)
    | (false, jtis) =>
      match env.jwt.parse env.tokenAt accessToken (tokenKey env) w.keys with
      | (.error e, keys) =>
        (httpError ("invalid_token: signature verification failed: " ++ e) 401,
          ⟨keys, jtis, w.log⟩)
      | (.ok token, keys) =>
        match checkToken m r.conn token.claims jkt with
        | .error resp => (resp, ⟨keys, jtis, w.log⟩)
        | .ok tClaims => next env (r.withClaims tClaims) ⟨keys, jtis, w.log⟩

/-! ## EnforcePolicy -/

/-- The resource of a path. -/
def resourceOf (path : String) : String :=
  if hasPrefix path "/api/balance" then "resource:balance"
  else if hasPrefix path "/api/transfer" then "resource:transfer"
  else if hasPrefix path "/api/audit-logs" then "resource:audit-logs"
  else "unknown"

/-- The action of a method. -/
def actionOf (method : String) : String :=
  if method = "POST" ∨ method = "PUT" ∨ method = "DELETE" then "CREATE" else "READ"

/-- The time of day of a reading, as `15:04:05Z`. -/
def requestTime (now : ℤ) : String :=
  let second := (unix now % 86400).toNat
  String.ofList (Audit.padded 2 (second / 3600) ++ ':' :: Audit.padded 2 (second / 60 % 60) ++
    ':' :: Audit.padded 2 (second % 60) ++ ['Z'])

/-- The question `EnforcePolicy` asks the policy decision point. -/
def accessRequest (now : ℤ) (r : Request) (claims : TokenClaims) : CheckAccessRequest :=
  let zitiIdentity := getZitiIdentity r.conn
  { tenantId := claims.tenantID
    subject := "role:" ++ claims.role
    action := actionOf r.method
    resource := resourceOf r.path
    context := [
      ("ip_address", if zitiIdentity ≠ "" then zitiIdentity else r.remoteAddr),
      ("request_time", requestTime now), ("http_method", r.method), ("dpop_jkt", claims.jkt),
      ("ziti_identity", zitiIdentity), ("tenant_id", claims.tenantID), ("role", claims.role),
      ("scope", claims.scope), ("token_subject", claims.sub)] }

/-- The text of a denial. -/
def deniedText (req : CheckAccessRequest) (matchedPolicyID : String) : String :=
  let msg := "forbidden: PDP denied access to '" ++ req.resource ++ "' for subject '" ++
    req.subject ++ "'"
  if matchedPolicyID ≠ "" then msg ++ " (matched policy: " ++ matchedPolicyID ++ ")" else msg

/-- `EnforcePolicy`. -/
def enforcePolicy (m : AuthMiddleware) (next : Handler) : Handler := fun env r w =>
  match r.claims with
  | none => (httpError "unauthorized: missing claims context" 401, w)
  | some claims =>
    match m.pdpClient with
    | none => (httpError "forbidden: policy enforcement point not initialized" 503, w)
    | some client =>
      let req := accessRequest env.policyAt r claims
      let access := client.checkAccess (env.pdp req)
      -- the question is asked once, also when no decision comes back
      let w' : World := ⟨w.keys, w.jtis, w.log ++ [.checkAccess req (env.pdp req)]⟩
      match access.err with
      | some e =>
        (httpError ("service_unavailable: policy decision point error: " ++ e) access.httpStatus, w')
      | none =>
        if access.allow then next env r w'
        else (httpError (deniedText req access.matchedPolicyID) 403, w')

end Gateway
end DarkServices
