import DarkServices.Client.Program
import DarkServices.System.ClientTheorems
import DarkServices.System.CredentialTheorems
import DarkServices.System.PresentedIds

/-!
# One client in the network

The client's program as a party of the network: it goes on by an exchange, which is a step of the
network, and between two exchanges everybody else takes any number of steps. The signatures of
the client are steps of the network as before.

`Fair` holds the conditions on a step. The others do not present the code of the client and do not
guess the identifiers of its proofs; the requests of the client arrive as they were sent and in
time.
-/

namespace DarkServices
namespace System

open Lib
open Lib.UrlQuery (Bytes)

/-! ## What the provider writes -/

/-- The members of a token response; `refresh_token` is left out when it is empty. -/
def tokenMembers (resp : Idp.TokenResponse) : Members :=
  [("access_token", .str resp.accessToken), ("token_type", .str resp.tokenType),
    ("expires_in", .num ⟨resp.expiresIn, 0⟩)] ++
    if resp.refreshToken = "" then [] else [("refresh_token", .str resp.refreshToken)]

/-- The text of a token response. -/
def tokenText (resp : Idp.TokenResponse) : String :=
  String.ofList ("\x7b\"access_token\":".toList ++ Json.goString resp.accessToken ++
    ",\"token_type\":".toList ++ Json.goString resp.tokenType ++
    ",\"expires_in\":".toList ++ (toString resp.expiresIn).toList ++
    (if resp.refreshToken = "" then []
      else ",\"refresh_token\":".toList ++ Json.goString resp.refreshToken) ++
    "\x7d\n".toList)

/-- The response to the client. A redirect would be followed to another server. -/
def idpResponse : Idp.Reply → Option Client.HttpResponse
  | .error e => some ⟨e.status, e.msg ++ "\n",
      .error "invalid character looking for beginning of value"⟩
  | .code code => some ⟨200, "\x7b\"code\":\"" ++ code ++ "\"\x7d", .ok (.obj [("code", .str code)])⟩
  | .redirect _ => none
  | .token resp => some ⟨200, tokenText resp, .ok (.obj (tokenMembers resp))⟩

/-! ## The steps -/

abbrev ClientProgram := Client.Program Gateway.Response (Except String Gateway.Response)

/-- The network and what is left of the client's program. `code` is the code that the client was
given, and the two times are those at which it got the code and its token. -/
structure Session (SK : Type) where
  net : Network SK
  prog : ClientProgram
  code : Option String
  savedAt : ℤ
  issuedAt : ℤ

/-- A step of the others, or an exchange of the client. -/
inductive SessionLabel (SK : Type)
  | other (l : NetworkLabel SK)
  | authorize (env : Idp.AuthorizeEnv) (r : Idp.Request)
  | token (env : Idp.TokenEnv) (r : Idp.Request)
  | api (env : Gateway.Env) (r : Gateway.Request)

/-- The step of the network in a step. -/
def SessionLabel.network {SK : Type} : SessionLabel SK → NetworkLabel SK
  | .other l => l
  | .authorize env r => .idp (.authorize env r)
  | .token env r => .idp (.token env r)
  | .api env r => .request env r

section

variable {SK : Type} (d : Deployment SK)

/-- One step. -/
def sessionStep [DecidableEq SK] (s : Session SK) : SessionLabel SK → Option (Session SK)
  | .other l => (networkStep d s.net l).map fun net => { s with net := net }
  | .authorize env r =>
    match s.prog with
    | .op (.authorize _ _) k =>
      (networkStep d s.net (.idp (.authorize env r))).bind fun net =>
        (idpResponse (Idp.authorizeHandler env r s.net.idp.store).1).map fun resp =>
          ⟨net, k (.ok resp), env.random, env.saveAt, s.issuedAt⟩
    | _ => none
  | .token env r =>
    match s.prog with
    | .op (.token _) k =>
      (networkStep d s.net (.idp (.token env r))).bind fun net =>
        (idpResponse (Idp.tokenHandler d.lib d.timeText env r s.net.idp.store).1).map fun resp =>
          ⟨net, k (.ok resp), s.code, s.savedAt, env.issueAt⟩
    | _ => none
  | .api env r =>
    match s.prog with
    | .op (.api _) k =>
      (networkStep d s.net (.request env r)).map fun net =>
        { s with
          net := net
          prog := k (.ok (Gateway.mux d.middleware env r s.net.gateway).1) }
    | _ => none

/-- The exchange that the client is waiting for. -/
def Session.Awaits (s : Session SK) : SessionLabel SK → Prop
  | .other _ => False
  | .authorize _ _ => ∃ authURL header k, s.prog = .op (.authorize authURL header) k
  | .token _ _ => ∃ req k, s.prog = .op (.token req) k
  | .api _ _ => ∃ req k, s.prog = .op (.api req) k

/-- The gateway uses the library, and gets no key but the provider's. -/
def KnowsKey (env : Gateway.Env) : Prop := env.jwt = d.lib ∧ ServesKey d env.jwks

/-- The conditions on a step of the others. -/
def Others (s : Session SK) : NetworkLabel SK → Prop
  | .idp l => ∀ code, s.code = some code → ¬ l.Presents code
  | .request env _ => KnowsKey d env
  | _ => True

end

/-! ## The client -/

/-- What a command asks the gateway for: the method, the path and the body. -/
def commandRequest (flags : Client.Flags) : Option (String × String × Option Json) :=
  if Client.toLower flags.cmd = "balance" then some ("GET", "/api/balance", none)
  else if Client.toLower flags.cmd = "transfer" then
    if flags.amount.coeff ≤ 0 then none
    else some ("POST", "/api/transfer", some (Client.reqPayload flags.amount flags.desc))
  else if Client.toLower flags.cmd = "logs" then some ("GET", "/api/audit-logs", none)
  else none

/-- What it stands for: a call of the database with the claims of the client. -/
def commandCall (flags : Client.Flags) (c : Gateway.TokenClaims) : Audit.Call :=
  if Client.toLower flags.cmd = "balance" then .getBalance c.tenantID c.sub
  else if Client.toLower flags.cmd = "transfer" then
    .createTransaction c.tenantID flags.amount flags.desc c.sub
  else .getAuditLogs c.tenantID

/-- A registered client that calls its commands as it should. -/
structure Party {SK : Type} (d : Deployment SK) where
  flags : Client.Flags
  env : Client.ClientEnv
  dpopKey : CurveKey
  secret : String
  registered : (flags.identity, secret) ∈ Client.clientSecrets
  own_secret : flags.secret = ""
  method : String
  path : String
  body : Option Json
  command : commandRequest flags = some (method, path, body)
  ziti : flags.ziti = true → env.ziti = .ok ()
  verifier : Vector UInt8 32
  pkce : env.pkce = .ok verifier
  tokenJti : Vector UInt8 16
  tokenRandom : env.tokenProof.random = .ok tokenJti
  apiJti : Vector UInt8 16
  apiRandom : env.apiProof.random = .ok apiJti
  /-- What the client makes of the addresses of the provider. -/
  pathOf : Bytes → Option Bytes
  idp_address : IdpAddress pathOf (utf8 flags.idp)
  scheme : String
  authority : String
  gateway_address : flags.gatewayURL = scheme ++ "://" ++ authority
  scheme_colon : ':' ∉ scheme.toList
  authority_slash : '/' ∉ authority.toList
  /-- It can sign its proof for the token endpoint. -/
  token_proof : d.lib.Produces env.tokenProof.signedString dpopKey.toPublicKey
    (Client.proofToken dpopKey "POST" (flags.idp ++ "/token") "" (hex tokenJti.toList)
      env.tokenProof.now)

section

variable {SK : Type} {d : Deployment SK} (p : Party d)

/-- The client as it starts. -/
def Party.start : ClientProgram := Client.main p.flags p.env p.dpopKey

/-- The thumbprint of its key. -/
def Party.jkt : String := Client.calculateJWKThumbprint p.dpopKey

/-- It can sign its proof for the gateway. -/
def Party.ProvesTo (accessToken : String) : Prop :=
  d.lib.Produces p.env.apiProof.signedString p.dpopKey.toPublicKey
    (Client.proofToken p.dpopKey p.method (p.flags.gatewayURL ++ p.path) accessToken
      (hex p.apiJti.toList) p.env.apiProof.now)

/-- The claims of the client. -/
def Party.claims : Gateway.TokenClaims :=
  ⟨p.flags.identity, Idp.tenantOf p.flags.identity, Idp.roleOf p.flags.identity,
    "transfer balance", p.jkt⟩

/-- Any network, and the client at its start. -/
def sessionSystem [DecidableEq SK] : LTS (Session SK) (SessionLabel SK) :=
  LTS.ofStep (fun s => (networkSystem d).init s.net ∧ s.prog = p.start ∧ s.code = none)
    (sessionStep d)

/-! ## Fair steps -/

/-- A time within one minute of the time of a proof, in whole seconds. -/
def Near (now issued : ℤ) : Prop :=
  now - seconds (unix issued) ≤ seconds 60 ∧ seconds (unix issued) - now ≤ seconds 60

instance (now issued : ℤ) : Decidable (Near now issued) := inferInstanceAs (Decidable (_ ∧ _))

/-- The request to `/authorize` arrives. -/
structure AuthorizeDelivered (authURL : Bytes) (header : List (String × String))
    (r : Idp.Request) : Prop where
  query : ∃ path query, HttpLine.queryAtServer p.pathOf authURL = some (path, query) ∧
    Receives r query
  header : ∀ h ∈ header, r.get h.1 = h.2

/-- The request to `/token` arrives. -/
structure TokenDelivered (req : Client.TokenRequest) (r : Idp.Request) : Prop where
  method : r.method = "POST"
  address : r.fullURI = req.url
  header : ∀ h ∈ req.header, r.get h.1 = h.2
  form : r.form.map (List.map (Prod.map utf8 utf8)) = UrlQuery.parseForm req.body

/-- The request to the gateway arrives. -/
structure ApiDelivered (req : Client.ApiRequest) (r : Gateway.Request) : Prop where
  method : r.method = req.method
  address : req.url = p.flags.gatewayURL ++ r.path
  host : '/' ∉ r.host.toList
  header : ∀ h ∈ req.header, r.get h.1 = h.2
  body : r.body = req.body

/-- The code is random, and `net/url` can read the redirect address of the client. -/
structure AuthorizeFair (s : Session SK) (env : Idp.AuthorizeEnv) (r : Idp.Request) : Prop where
  random : ∃ bytes : Vector UInt8 16, env.random = some (hex bytes.toList)
  redirect : ∀ code, env.random = some code →
    (env.redirectURL "http://localhost:8080/callback" code "").isSome = true
  delivered : ∀ authURL header k, s.prog = .op (.authorize authURL header) k →
    AuthorizeDelivered p authURL header r

/-- The code is redeemed within five minutes, with a fresh proof, and the token can be signed. -/
structure TokenFair (s : Session SK) (env : Idp.TokenEnv) (r : Idp.Request) : Prop where
  unexpired : env.codeAt ≤ s.savedAt + Idp.codeTTL
  near : Near env.proofAt p.env.tokenProof.now
  fresh : ¬ Presented d.lib s.net.proofs (hex p.tokenJti.toList)
  signed : d.lib.Produces (fun t => orFail (env.signedString t) "") (d.pub d.idpKey).toPublicKey
    (Idp.accessToken p.flags.identity p.jkt env.issueAt)
  proves : ∀ text, env.signedString (Idp.accessToken p.flags.identity p.jkt env.issueAt) =
    some text → p.ProvesTo text
  delivered : ∀ req k, s.prog = .op (.token req) k → TokenDelivered req r

/-- The token has not expired, the proof is fresh, the key of the provider can be had, and the
connection is the client's. -/
structure ApiFair (s : Session SK) (env : Gateway.Env) (r : Gateway.Request) : Prop where
  key : KnowsKey d env
  available : env.jwks = .ok (200, .ok (Idp.jwksHandler (d.pub d.idpKey))) ∨
    (s.net.gateway.keys.keys "idp-signing-key").isSome = true
  near : Near env.proofAt p.env.apiProof.now
  fresh : ¬ Presented d.lib s.net.proofs (hex p.apiJti.toList)
  unexpired : env.tokenAt < seconds (unix (s.issuedAt + Idp.tokenExpiration))
  identity : Gateway.IdentityFits d.middleware.enforceZiti (Gateway.getZitiIdentity r.conn)
    p.flags.identity
  delivered : ∀ req k, s.prog = .op (.api req) k → ApiDelivered p req r

/-- The conditions on a step. -/
def Fair (s : Session SK) : SessionLabel SK → Prop
  | .other l => Others d s l
  | .authorize env r => AuthorizeFair p s env r
  | .token env r => TokenFair p s env r
  | .api env r => ApiFair p s env r

end

end System
end DarkServices
