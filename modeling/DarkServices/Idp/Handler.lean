import DarkServices.Idp.Crypto
import DarkServices.Idp.Store
import DarkServices.Lib.Transition

/-!
# The handlers of the identity provider

`idp/handler` and `idp/config`: `/authorize` stores a code with the challenge of the client,
`/token` takes the code and gives an access token bound to the key of the proof that comes with
the request, and the JWKS endpoint publishes the key of the provider. A handler takes a request
and the store to a reply and the next store; what the outside decides during a request is a
record of inputs.

`idpSystem` is the provider under any sequence of requests and visits of its sweeps. It keeps
the history of the requests with their replies.
-/

namespace DarkServices
namespace Idp

open Lib
open Lib.Strings (equalFold)

/-! ## Configuration -/

/-- `RegisteredClients`. -/
def registeredClients : List (String × String) :=
  [("client-alice", "alice-secure-secret-2026"), ("client-bob", "bob-secure-secret-2026"),
    ("client-evil", "evil-secure-secret-2026")]

/-- The field `Issuer` of `AppConfig`. -/
def issuer : String := "https://idp.internal"

/-! ## Requests and replies -/

/-- A request: its query, and its form values after `r.ParseForm` unless that fails. -/
structure Request where
  method : String
  path : String
  host : String
  tls : Bool
  header : List (String × String)
  query : List (String × String)
  form : Option (List (String × String))

/-- `Get` on the values of a query or a form: the first value of the key. -/
def valueOf (values : List (String × String)) (key : String) : String :=
  match values.find? fun p => p.1 == key with
  | some p => p.2
  | none => ""

/-- `r.Header.Get`. -/
def Request.get (r : Request) (key : String) : String :=
  match r.header.find? fun p => equalFold p.1 key with
  | some p => p.2
  | none => ""

/-- `TokenResponse`. -/
structure TokenResponse where
  accessToken : String
  tokenType : String
  expiresIn : ℕ
  refreshToken : String

/-- What `http.Error` writes. -/
structure HttpError where
  msg : String
  status : ℕ

/-- A reply: an error, the code as JSON, a redirect, or a token. -/
inductive Reply
  | error (e : HttpError)
  | code (code : String)
  | redirect (location : String)
  | token (resp : TokenResponse)

/-! ## `/authorize` -/

/-- What the outside decides during an `/authorize` request: the random bytes as hexadecimal
text, unless the random source fails, the clock when the code is saved, and what `net/url` makes
of a redirect address with a code and a state: no address when it does not parse. -/
structure AuthorizeEnv where
  random : Option String
  saveAt : ℤ
  redirectURL : String → String → String → Option String

/-- The parameters that `AuthorizeHandler` has checked, with the secret of the client. -/
structure AuthorizeParams where
  clientID : String
  redirectURI : String
  codeChallenge : String
  expectedSecret : String

/-- Step 1 of `AuthorizeHandler`. -/
def authorizeParams (r : Request) : Except HttpError AuthorizeParams := do
  let q := valueOf r.query
  failIf (q "response_type" ≠ "code")
    ⟨"invalid_request: response_type must be 'code'", 400⟩
  failIf (q "client_id" = "") ⟨"invalid_request: client_id is required", 400⟩
  let expectedSecret ← orFail (registeredClients.lookup (q "client_id"))
    ⟨"invalid_client: client_id is not registered", 401⟩
  failIf (q "redirect_uri" = "") ⟨"invalid_request: redirect_uri is required", 400⟩
  failIf (q "code_challenge" = "") ⟨"invalid_request: code_challenge is required", 400⟩
  failIf (q "code_challenge_method" ≠ "S256")
    ⟨"invalid_request: code_challenge_method must be 'S256'", 400⟩
  .ok ⟨q "client_id", q "redirect_uri", q "code_challenge", expectedSecret⟩

/-- Step 4 of `AuthorizeHandler`: the redirect, or the code itself for a client that asks for
JSON and has authenticated. -/
def authorizeReply (env : AuthorizeEnv) (r : Request) (p : AuthorizeParams) (code : String) :
    Reply :=
  let q := valueOf r.query
  match env.redirectURL p.redirectURI code (q "state") with
  | none => .error ⟨"invalid_request: malformed redirect_uri", 400⟩
  | some location =>
    if r.get "Accept" = "application/json" then
      -- the code has been stored by now
      if q "client_secret" = "" then
        .error ⟨"invalid_client: client_secret is required for headless flow", 401⟩
      else if q "client_secret" ≠ p.expectedSecret then
        .error ⟨"invalid_client: client authentication failed", 401⟩
      else .code code
    else .redirect location

/-- The lifetime of a code. -/
def codeTTL : ℤ := seconds 300

/-- `AuthorizeHandler`: the code is stored before the redirect address is looked at. -/
def authorizeHandler (env : AuthorizeEnv) (r : Request) (s : RAMStore) : Reply × RAMStore :=
  match authorizeParams r with
  | .error e => (.error e, s)
  | .ok p =>
    match env.random with
    | none => (.error ⟨"server_error: failed to generate code", 500⟩, s)
    | some code =>
      (authorizeReply env r p code,
        s.saveAuthCode code p.codeChallenge p.clientID codeTTL env.saveAt)

/-! ## `/token` -/

/-- What the outside decides during a `/token` request: the readings of the clock in the order
they are taken, and the text of a signed token, unless the signing fails. -/
structure TokenEnv where
  codeAt : ℤ
  proofAt : ℤ
  jtiAt : ℤ
  issueAt : ℤ
  signedString : Token → Option String

/-- Step 1 of `TokenHandler`: the form, the code and the verifier. -/
def tokenParams (r : Request) : Except HttpError ((String → String) × String × String) := do
  failIf (r.method ≠ "POST") ⟨"method_not_allowed", 405⟩
  let form ← orFail r.form ⟨"invalid_request: failed to parse form parameters", 400⟩
  let f := valueOf form
  failIf (f "grant_type" ≠ "authorization_code")
    ⟨"unsupported_grant_type: grant_type must be 'authorization_code'", 400⟩
  failIf (f "code" = "") ⟨"invalid_request: code is required", 400⟩
  failIf (f "code_verifier" = "") ⟨"invalid_request: code_verifier is required", 400⟩
  .ok (f, f "code", f "code_verifier")

/-- The check of the client secret in `TokenHandler`. -/
def checkClient (f : String → String) (clientID : String) : Except HttpError Unit := do
  let expectedSecret ← orFail (registeredClients.lookup clientID)
    ⟨"invalid_client: client is not registered", 401⟩
  failIf (f "client_secret" = "") ⟨"invalid_client: client_secret is required", 401⟩
  failIf (f "client_secret" ≠ expectedSecret)
    ⟨"invalid_client: client authentication failed", 401⟩

/-- `fullURI`, the address the request was made to. -/
def Request.fullURI (r : Request) : String :=
  (if r.tls then "https" else "http") ++ "://" ++ r.host ++ r.path

/-- The checks of `TokenHandler` after the code has been taken from the store: the client, the
verifier and the proof. They give the thumbprint and the identifier of the proof. -/
def checkGrant (lib : Jwt) (timeText : ℤ → String) (env : TokenEnv) (r : Request)
    (f : String → String) (codeVerifier codeChallenge clientID : String) :
    Except HttpError (String × String) := do
  checkClient f clientID
  failIf (!verifyPKCE codeVerifier codeChallenge "S256")
    ⟨"invalid_grant: PKCE verification failed", 400⟩
  failIf (r.get "DPoP" = "") ⟨"invalid_request: missing DPoP header proof", 400⟩
  (verifyDPoPProof lib timeText env.proofAt (r.get "DPoP") "POST" r.fullURI "").mapError
    fun e => ⟨"invalid_dpop_proof: " ++ e, 400⟩

/-- `tenantID` and `role` of a client. -/
def tenantOf (clientID : String) : String :=
  if clientID = "client-alice" then "11111111-1111-1111-1111-111111111111"
  else if clientID = "client-bob" then "22222222-2222-2222-2222-222222222222"
  else if clientID = "client-evil" then "66666666-6666-6666-6666-666666666666"
  else "88888888-8888-8888-8888-888888888888"

def roleOf (clientID : String) : String :=
  if clientID = "client-alice" then "operator"
  else if clientID = "client-bob" then "viewer"
  else if clientID = "client-evil" then "attacker"
  else "guest"

/-- `tokenExpiration`. -/
def tokenExpiration : ℤ := seconds 60

/-- The access token for a client, bound to a thumbprint, with its members in the order of the
JSON text. -/
def accessToken (clientID jkt : String) (now : ℤ) : Token where
  alg := "ES256"
  header := [("alg", .str "ES256"), ("kid", .str "idp-signing-key"), ("typ", .str "JWT")]
  claims := [("cnf", .obj [("jkt", .str jkt)]), ("exp", .num ⟨unix (now + tokenExpiration), 0⟩),
    ("iat", .num ⟨unix now, 0⟩), ("iss", .str issuer), ("role", .str (roleOf clientID)),
    ("scope", .str "transfer balance"), ("sub", .str clientID),
    ("tenant_id", .str (tenantOf clientID))]

/-- The lifetime of a proof identifier. -/
def jtiTTL : ℤ := seconds 120

/-- `TokenHandler` up to the signing of the token: the token and the identifier of the proof. The
code is gone whatever the later checks say. -/
def tokenGrant (lib : Jwt) (timeText : ℤ → String) (env : TokenEnv) (r : Request) (s : RAMStore) :
    Except HttpError (Token × String) × RAMStore :=
  match tokenParams r with
  | .error e => (.error e, s)
  | .ok (f, code, codeVerifier) =>
    match s.getAndRemoveAuthCode code env.codeAt with
    | (none, s) =>
      (.error ⟨"invalid_grant: authorization code is invalid or expired", 400⟩, s)
    | (some (codeChallenge, clientID), s) =>
      match checkGrant lib timeText env r f codeVerifier codeChallenge clientID with
      | .error e => (.error e, s)
      | .ok (jkt, jti) =>
        match s.isJTIUsedAndSave jti jtiTTL env.jtiAt with
        | (true, s) =>
          (.error ⟨"invalid_dpop_proof: replay attack detected (jti already used)", 400⟩, s)
        | (false, s) => (.ok (accessToken clientID jkt env.issueAt, jti), s)

/-- `TokenHandler`. -/
def tokenHandler (lib : Jwt) (timeText : ℤ → String) (env : TokenEnv) (r : Request)
    (s : RAMStore) : Reply × RAMStore :=
  match tokenGrant lib timeText env r s with
  | (.error e, s) => (.error e, s)
  | (.ok (token, jti), s) =>
    match env.signedString token with
    -- the code and the identifier of the proof are used up all the same
    | none => (.error ⟨"server_error: failed to sign token", 500⟩, s)
    | some text => (.token ⟨text, "DPoP", 60, "rt_" ++ jti⟩, s)

/-! ## The JWKS endpoint -/

/-- `JWKSHandler`. -/
def jwksHandler (pubKey : CurveKey) : Json :=
  .obj [("keys", .arr [.obj [("kty", .str "EC"), ("use", .str "sig"), ("alg", .str "ES256"),
    ("crv", .str "P-256"), ("x", .str (Base64Url.encodeCoordinate pubKey.x)),
    ("y", .str (Base64Url.encodeCoordinate pubKey.y)), ("kid", .str "idp-signing-key")]])]

/-! ## The provider -/

/-- A request that has been answered. -/
inductive Event
  | authorize (env : AuthorizeEnv) (r : Request) (reply : Reply)
  | token (env : TokenEnv) (r : Request) (reply : Reply)

/-- The clock, the store, the random texts drawn so far, and the requests answered so far. -/
structure State where
  clock : ℤ
  store : RAMStore
  drawn : List String
  history : List Event

/-- One step: a request, or the visit of one entry by a sweep that read the clock at `now`. -/
inductive Label
  | authorize (env : AuthorizeEnv) (r : Request)
  | token (env : TokenEnv) (r : Request)
  | visitCode (now : ℤ) (code : String)
  | visitJTI (now : ℤ) (jti : String)

/-- The readings of a request come one after the other, the first not before `clock`. -/
def TokenEnv.Ordered (env : TokenEnv) (clock : ℤ) : Prop :=
  clock ≤ env.codeAt ∧ env.codeAt ≤ env.proofAt ∧ env.proofAt ≤ env.jtiAt ∧ env.jtiAt ≤ env.issueAt

instance (env : TokenEnv) (clock : ℤ) : Decidable (env.Ordered clock) :=
  inferInstanceAs (Decidable (_ ∧ _ ∧ _ ∧ _))

/-- The random text of a request has not been drawn before. -/
def AuthorizeEnv.Fresh (env : AuthorizeEnv) (drawn : List String) : Prop :=
  ∀ code ∈ env.random, code ∉ drawn

instance (env : AuthorizeEnv) (drawn : List String) : Decidable (env.Fresh drawn) :=
  match h : env.random with
  | none => .isTrue (by simp [AuthorizeEnv.Fresh, h])
  | some code => decidable_of_iff (code ∉ drawn) (by simp [AuthorizeEnv.Fresh, h])

/-- One step of the provider. The clock does not go back, and random texts do not repeat. -/
def step (lib : Jwt) (timeText : ℤ → String) (s : State) : Label → Option State
  | .authorize env r =>
    if s.clock ≤ env.saveAt ∧ env.Fresh s.drawn then
      let p := authorizeHandler env r s.store
      some ⟨env.saveAt, p.2, s.drawn ++ env.random.toList,
        s.history ++ [.authorize env r p.1]⟩
    else none
  | .token env r =>
    if env.Ordered s.clock then
      let p := tokenHandler lib timeText env r s.store
      some ⟨env.issueAt, p.2, s.drawn, s.history ++ [.token env r p.1]⟩
    else none
  | .visitCode now code =>
    if now ≤ s.clock then some { s with store := s.store.visitCode now code } else none
  | .visitJTI now jti =>
    if now ≤ s.clock then some { s with store := s.store.visitJTI now jti } else none

/-- The provider, started with an empty store. -/
def idpSystem (lib : Jwt) (timeText : ℤ → String) : LTS State Label :=
  LTS.ofStep (fun s => s.store = RAMStore.empty ∧ s.drawn = [] ∧ s.history = [])
    (step lib timeText)

end Idp
end DarkServices
