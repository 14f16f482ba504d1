import DarkServices.System.Session

/-!
# The program and the requests of a client

A client whose proofs can be signed goes through its three exchanges (`Party.start_eq`,
`Party.call_eq`). What it sends, when it arrives as it was sent and in time, has everything that
the provider and the gateway check (`Party.authorized`, `Party.issued`, `Party.admitted`).
-/

namespace DarkServices
namespace System

open Lib
open Lib.Json (stringOf)
open Client (generateDPoPProof generatePKCE proofJWK proofToken)

variable {SK : Type} {d : Deployment SK} (p : Party d)

/-! ## The client's program -/

/-- A proof that can be signed is generated. -/
theorem generateDPoPProof_of_produces {env : Client.ProofEnv} {key : CurveKey} {random : Vector UInt8 16}
    {method uri accessToken : String} (hrandom : env.random = .ok random)
    (h : d.lib.Produces env.signedString key.toPublicKey
      (proofToken key method uri accessToken (hex random.toList) env.now)) :
    ∃ text, generateDPoPProof env key method uri accessToken = .ok text ∧
      env.signedString (proofToken key method uri accessToken (hex random.toList) env.now) =
        .ok text := by
  obtain ⟨text, htext, -⟩ := h
  exact ⟨text, bind_eq_ok.mpr ⟨random, hrandom, mapError_eq_ok.mpr htext⟩, htext⟩

theorem hex_ne_empty (random : Vector UInt8 16) : hex random.toList ≠ "" := by
  intro hempty
  have hlength := length_toList_hex random.toList
  rw [hempty] at hlength
  simp at hlength

/-- The verifier of the client, and its challenge. -/
def Party.verifierText : String := Base64Url.encodeToString p.verifier.toList

def Party.challenge : String := Client.hashText p.verifierText

theorem Party.generatePKCE : generatePKCE p.env.pkce = .ok (p.verifierText, p.challenge) := by
  rw [p.pkce]
  rfl

theorem Party.secretOf : Client.secretOf (utf8 p.flags.identity) (utf8 p.flags.secret) =
    utf8 p.secret := by
  rw [p.own_secret]
  exact (sendable_clientSecrets p.registered).1

/-- What the client does with its access token. -/
def Party.call (accessToken : String) : ClientProgram :=
  Client.executeCommand p.flags p.env.apiProof p.dpopKey accessToken

/-- A response with a code. -/
theorem readAuthCode_eq (body code : String) :
    Client.readAuthCode (.ok ⟨200, body, .ok (.obj [("code", .str code)])⟩) = .ok code := by
  have hcode : Client.authCode (.obj [("code", .str code)]) = .ok code :=
    Json.stringField_of_mem ["code"] rfl (List.pairwise_singleton _ _) (by simp)
  show ((Client.authCode (.obj [("code", .str code)])).mapError _ : Except String String) = _
  rw [hcode]
  rfl

/-- An integer that fits, in a field that no other member assigns. -/
theorem intField_of_eq {m m' : Members} {field name : String} {n : ℤ}
    (h : ∀ p ∈ m, Strings.equalFold p.1 field = false) (hname : Strings.equalFold name field = true)
    (h' : ∀ p ∈ m', Strings.equalFold p.1 field = false) (hn : -(2 ^ 63) ≤ n ∧ n < 2 ^ 63) :
    Client.intField (m ++ (name, .num ⟨n, 0⟩) :: m') field = .ok n :=
  (Json.foldlM_of_eq (Client.assignInt field) h hname h' 0).trans (if_pos hn)

/-- A response with a token. -/
theorem readAccessToken_eq (body : String) {resp : Idp.TokenResponse} (hexpires : resp.expiresIn = 60) :
    Client.readAccessToken (.ok ⟨200, body, .ok (.obj (tokenMembers resp))⟩) =
      .ok resp.accessToken := by
  set m := tokenMembers resp with hm
  obtain ⟨names, hnames, hdiffer⟩ : ∃ names, m.map Prod.fst = names ∧
      names.Pairwise fun a b => Strings.equalFold a b = false := by
    by_cases hempty : resp.refreshToken = ""
    · exact ⟨["access_token", "token_type", "expires_in"], by simp [hm, tokenMembers, hempty],
        by decide⟩
    · exact ⟨["access_token", "token_type", "expires_in", "refresh_token"],
        by simp [hm, tokenMembers, hempty], by decide⟩
  have haccess : Json.stringField m "access_token" = .ok resp.accessToken :=
    Json.stringField_of_mem names hnames hdiffer (by simp [hm, tokenMembers])
  have htype : Json.stringField m "token_type" = .ok resp.tokenType :=
    Json.stringField_of_mem names hnames hdiffer (by simp [hm, tokenMembers])
  obtain ⟨refreshToken, hrefresh⟩ : ∃ s, Json.stringField m "refresh_token" = .ok s := by
    by_cases hempty : resp.refreshToken = ""
    · refine ⟨"", Json.stringField_of_ne (Json.name_ne ["access_token", "token_type", "expires_in"]
        (by simp [hm, tokenMembers, hempty]) (by decide))⟩
    · exact ⟨resp.refreshToken, Json.stringField_of_mem names hnames hdiffer
        (by simp [hm, tokenMembers, hempty])⟩
  have hexp : Client.intField m "expires_in" = .ok 60 := by
    have hrest : ∀ q ∈ (if resp.refreshToken = "" then [] else
        [("refresh_token", Json.str resp.refreshToken)] : Members),
        Strings.equalFold q.1 "expires_in" = false := by
      intro q hq
      split at hq
      · cases hq
      · rw [List.mem_singleton.mp hq]
        show Strings.equalFold "refresh_token" "expires_in" = false
        decide
    have hnames₀ : ∀ q ∈ ([("access_token", .str resp.accessToken),
        ("token_type", .str resp.tokenType)] : Members),
        Strings.equalFold q.1 "expires_in" = false :=
      Json.name_ne ["access_token", "token_type"] rfl (by decide)
    have hsplit : m = [("access_token", .str resp.accessToken), ("token_type", .str resp.tokenType)] ++
        ("expires_in", .num ⟨60, 0⟩) :: (if resp.refreshToken = "" then [] else
          [("refresh_token", .str resp.refreshToken)]) := by
      rw [hm, tokenMembers, hexpires]
      rfl
    rw [hsplit]
    exact intField_of_eq hnames₀ (Strings.equalFold_refl _) hrest (by decide)
  have hresponse : Client.TokenResponse.ofJson (.obj m) =
      .ok ⟨resp.accessToken, resp.tokenType, 60, refreshToken⟩ := by
    rw [Client.TokenResponse.ofJson, haccess, htype, hexp, hrefresh]
    rfl
  show (((Client.TokenResponse.ofJson (.obj m)).mapError _ : Except String Client.TokenResponse) >>=
    fun tr => Except.ok tr.accessToken) = _
  rw [hresponse]
  rfl

/-- The client is about to redeem the code. -/
def Party.Redeems (code : String) (prog : ClientProgram) : Prop :=
  ∃ proofJWT k, prog = .op (.token ⟨p.flags.idp ++ "/token",
      [("Content-Type", "application/x-www-form-urlencoded"), ("DPoP", proofJWT)],
      Client.tokenBody (utf8 code) (utf8 p.verifierText) (utf8 p.secret)⟩) k ∧
    p.env.tokenProof.signedString (proofToken p.dpopKey "POST" (p.flags.idp ++ "/token") ""
      (hex p.tokenJti.toList) p.env.tokenProof.now) = .ok proofJWT ∧
    ∀ body resp, resp.expiresIn = 60 →
      k (.ok ⟨200, body, .ok (.obj (tokenMembers resp))⟩) = p.call resp.accessToken

/-- The client asks for a code first. -/
theorem Party.start_eq : ∃ k, p.start = .op (.authorize
      (Client.authURL (utf8 p.flags.idp) (utf8 p.flags.identity) (utf8 p.secret) (utf8 p.challenge))
      [("Accept", "application/json")]) k ∧
    ∀ body code, p.Redeems code (k (.ok ⟨200, body, .ok (.obj [("code", .str code)])⟩)) := by
  obtain ⟨proofJWT, hproof, hsigned⟩ := generateDPoPProof_of_produces p.tokenRandom p.token_proof
  have hrequest : ∀ code, Client.tokenRequest p.env.tokenProof p.dpopKey (p.flags.idp ++ "/token")
      code p.verifierText (utf8 p.secret) = .ok ⟨p.flags.idp ++ "/token",
        [("Content-Type", "application/x-www-form-urlencoded"), ("DPoP", proofJWT)],
        Client.tokenBody (utf8 code) (utf8 p.verifierText) (utf8 p.secret)⟩ := by
    intro code
    rw [Client.tokenRequest, hproof]
    rfl
  have hziti : (if p.flags.ziti then p.env.ziti else .ok ()) = .ok () := by
    split
    · rename_i hziti
      exact p.ziti hziti
    · rfl
  unfold Party.start Client.main Client.getDPoPBoundToken
  rw [p.secretOf, p.generatePKCE]
  refine ⟨_, rfl, ?_⟩
  intro body code
  simp only [readAuthCode_eq, hrequest]
  refine ⟨proofJWT, _, rfl, hsigned, ?_⟩
  intro body' resp hexpires
  simp only [Prog.ret_bind, readAccessToken_eq body' hexpires, hziti]
  rfl

/-- The command of the client is one of three. -/
theorem Party.command_cases :
    (Client.toLower p.flags.cmd = "balance" ∧
      p.method = "GET" ∧ p.path = "/api/balance" ∧ p.body = none) ∨
    (Client.toLower p.flags.cmd = "transfer" ∧ ¬ p.flags.amount.coeff ≤ 0 ∧ p.method = "POST" ∧
      p.path = "/api/transfer" ∧ p.body = some (Client.reqPayload p.flags.amount p.flags.desc)) ∨
    (Client.toLower p.flags.cmd = "logs" ∧
      p.method = "GET" ∧ p.path = "/api/audit-logs" ∧ p.body = none) := by
  have hcommand := p.command
  unfold commandRequest at hcommand
  split at hcommand
  · rename_i hbalance
    simp only [Option.some.injEq, Prod.mk.injEq] at hcommand
    obtain ⟨hmethod, hpath, hbody⟩ := hcommand
    exact Or.inl ⟨hbalance, hmethod.symm, hpath.symm, hbody.symm⟩
  · split at hcommand
    · rename_i htransfer
      obtain ⟨hamount, hrequest⟩ := Option.ite_none_left_eq_some.mp hcommand
      simp only [Option.some.injEq, Prod.mk.injEq] at hrequest
      obtain ⟨hmethod, hpath, hbody⟩ := hrequest
      exact Or.inr (Or.inl ⟨htransfer, hamount, hmethod.symm, hpath.symm, hbody.symm⟩)
    · obtain ⟨hlogs, hrequest⟩ := Option.ite_none_right_eq_some.mp hcommand
      simp only [Option.some.injEq, Prod.mk.injEq] at hrequest
      obtain ⟨hmethod, hpath, hbody⟩ := hrequest
      exact Or.inr (Or.inr ⟨hlogs, hmethod.symm, hpath.symm, hbody.symm⟩)

/-- The request for the gateway, with a proof for the access token. -/
theorem Party.call_eq {accessToken : String} (h : p.ProvesTo accessToken) :
    ∃ req proofJWT k, p.call accessToken = .op (.api req) k ∧
      (req.method = p.method ∧ req.url = p.flags.gatewayURL ++ p.path ∧ req.body = p.body) ∧
      (("Authorization", "DPoP " ++ accessToken) ∈ req.header ∧ ("DPoP", proofJWT) ∈ req.header) ∧
      p.env.apiProof.signedString (proofToken p.dpopKey p.method (p.flags.gatewayURL ++ p.path)
        accessToken (hex p.apiJti.toList) p.env.apiProof.now) = .ok proofJWT ∧
      ∀ resp, k (.ok resp) = .ret (.ok resp) := by
  obtain ⟨proofJWT, hproof, hsigned⟩ := generateDPoPProof_of_produces p.apiRandom h
  -- the three commands differ in the header and the body of the request
  have hexecute : ∀ header, ∃ req k, (Client.execute p.method p.path header p.body p.env.apiProof
        p.dpopKey p.flags.gatewayURL accessToken : ClientProgram) = .op (.api req) k ∧
      (req.method = p.method ∧ req.url = p.flags.gatewayURL ++ p.path ∧ req.body = p.body) ∧
      (("Authorization", "DPoP " ++ accessToken) ∈ req.header ∧ ("DPoP", proofJWT) ∈ req.header) ∧
      ∀ resp, k (.ok resp) = .ret (.ok resp) := by
    intro header
    unfold Client.execute
    simp only [hproof]
    exact ⟨_, _, rfl, ⟨rfl, rfl, rfl⟩, ⟨by simp, by simp⟩, fun _ => rfl⟩
  have hcall : ∃ header, p.call accessToken = Client.execute p.method p.path header p.body
      p.env.apiProof p.dpopKey p.flags.gatewayURL accessToken := by
    have hother : "transfer" ≠ "balance" ∧ "logs" ≠ "balance" ∧ "logs" ≠ "transfer" := by decide
    unfold Party.call Client.executeCommand
    rcases p.command_cases with ⟨hcmd, hmethod, hpath, hbody⟩ |
      ⟨hcmd, hamount, hmethod, hpath, hbody⟩ | ⟨hcmd, hmethod, hpath, hbody⟩
    · rw [hcmd, if_pos rfl, hmethod, hpath, hbody]
      exact ⟨_, rfl⟩
    · rw [hcmd, if_neg hother.1, if_pos rfl, if_neg hamount, hmethod, hpath, hbody]
      exact ⟨_, rfl⟩
    · rw [hcmd, if_neg hother.2.1, if_neg hother.2.2, if_pos rfl, hmethod, hpath, hbody]
      exact ⟨_, rfl⟩
  obtain ⟨header, hheader⟩ := hcall
  obtain ⟨req, k, hop, hreq, hmem, hk⟩ := hexecute header
  exact ⟨req, proofJWT, k, hheader.trans hop, hreq, hmem, hsigned, hk⟩

/-! ## The requests of the client -/

/-- The client gets a code, which is stored with its challenge. -/
theorem Party.authorized {env : Idp.AuthorizeEnv} {r : Idp.Request} {header : List (String × String)}
    (hrandom : ∃ bytes : Vector UInt8 16, env.random = some (hex bytes.toList))
    (hredirect : ∀ code, env.random = some code →
      (env.redirectURL "http://localhost:8080/callback" code "").isSome = true)
    (hdelivered : AuthorizeDelivered p (Client.authURL (utf8 p.flags.idp) (utf8 p.flags.identity)
      (utf8 p.secret) (utf8 p.challenge)) header r)
    (haccept : ("Accept", "application/json") ∈ header) (store : Idp.RAMStore) :
    ∃ code, env.random = some code ∧ code ≠ "" ∧ Idp.authorizeHandler env r store =
      (.code code, store.saveAuthCode code p.challenge p.flags.identity Idp.codeTTL env.saveAt) := by
  obtain ⟨bytes, hcode⟩ := hrandom
  obtain ⟨path, query, hserver, hr⟩ := hdelivered.query
  obtain ⟨location, hlocation⟩ := Option.isSome_iff_exists.mp (hredirect _ hcode)
  obtain ⟨hsecret, -, hid, hsend, -⟩ := sendable_clientSecrets p.registered
  have hreply := authorizeHandler_of_client p.idp_address p.generatePKCE p.registered
    (by rw [hsecret]; exact hserver) hr (hdelivered.header _ haccept) hcode hlocation store
  have hquery := query_of_sendable p.idp_address
    ((authorizeValues_sendable_iff (sendable_challenge p.generatePKCE)).mpr ⟨hid, hsend⟩) hserver hr
  refine ⟨_, hcode, hex_ne_empty bytes, ?_⟩
  cases hparams : Idp.authorizeParams r with
  | error e =>
    rw [Idp.authorizeHandler, hparams] at hreply
    cases hreply
  | ok params =>
    obtain ⟨secret, -, rfl⟩ := Idp.authorizeParams_eq_ok_iff.mp hparams
    have hchallenge : (Idp.paramsOf r secret).codeChallenge = p.challenge := by
      rw [Idp.paramsOf, hquery]
      rfl
    have hclient : (Idp.paramsOf r secret).clientID = p.flags.identity := by
      rw [Idp.paramsOf, hquery]
      rfl
    refine Prod.ext hreply ?_
    rw [Idp.authorizeHandler, hparams, hcode, ← hchallenge, ← hclient]

/-- A text that decodes is not empty. -/
theorem ne_empty_of_decode (hdoc : d.lib.Documented) {text : String} {t : Token}
    (h : d.lib.decode text = .ok t) : text ≠ "" := by
  rintro rfl
  obtain ⟨e, herror⟩ := hdoc.decode_empty
  cases herror.symm.trans h

/-- The request for a token has everything that the provider checks. -/
theorem Party.granted (hdoc : d.lib.Documented) (huntimed : d.lib.AcceptsUntimed)
    {env : Idp.TokenEnv} {r : Idp.Request} {code proofJWT : String} {expiresAt : ℤ}
    (hcode : code ≠ "") (hunexpired : env.codeAt ≤ expiresAt)
    (hnear : Near env.proofAt p.env.tokenProof.now)
    (hproof : p.env.tokenProof.signedString (proofToken p.dpopKey "POST" (p.flags.idp ++ "/token") ""
      (hex p.tokenJti.toList) p.env.tokenProof.now) = .ok proofJWT)
    (hdelivered : TokenDelivered ⟨p.flags.idp ++ "/token",
      [("Content-Type", "application/x-www-form-urlencoded"), ("DPoP", proofJWT)],
      Client.tokenBody (utf8 code) (utf8 p.verifierText) (utf8 p.secret)⟩ r) :
    ∃ form, Idp.valueOf form "code" = code ∧
      Idp.Granted d.lib env r form ⟨p.challenge, p.flags.identity, expiresAt⟩
        (proofToken p.dpopKey "POST" (p.flags.idp ++ "/token") "" (hex p.tokenJti.toList)
          p.env.tokenProof.now)
        ⟨"POST", p.flags.idp ++ "/token", "", "",
          ⟨none, none, some (unix p.env.tokenProof.now), hex p.tokenJti.toList⟩⟩
        (clientJWK p.dpopKey) p.dpopKey.toPublicKey := by
  obtain ⟨-, hregistered, -, -, -, hsecret⟩ := sendable_clientSecrets p.registered
  have hsigns := p.token_proof.signs
  have hdpop : r.get "DPoP" = proofJWT := hdelivered.header ("DPoP", proofJWT) (by simp)
  have hform : r.form = some [("client_secret", p.secret), ("code", code),
      ("code_verifier", p.verifierText), ("grant_type", "authorization_code")] := by
    have hparse := hdelivered.form
    rw [Client.tokenBody, UrlQuery.parseForm_encodeValues] at hparse
    obtain ⟨form, hform, hvalues⟩ := Option.map_eq_some_iff.mp hparse
    rw [hform, Option.some.injEq]
    exact List.map_injective_iff.mpr (utf8_injective.prodMap utf8_injective) hvalues
  have hverifier : p.verifierText ≠ "" := by
    apply Base64Url.encodeToString_ne_empty
    exact List.ne_nil_of_length_pos (by simp)
  have hpossession := idp_proofVerified hsigns huntimed hproof hnear.1 hnear.2
  refine ⟨[("client_secret", p.secret), ("code", code), ("code_verifier", p.verifierText),
    ("grant_type", "authorization_code")], rfl, ?_⟩
  constructor
  · exact hdelivered.method
  · exact hform
  · rfl
  · refine ⟨hcode, hverifier, ?_⟩
    rw [hdpop]
    exact ne_empty_of_decode hdoc (hsigns.decode proofJWT hproof)
  · exact hunexpired
  · exact ⟨hsecret, hregistered⟩
  · rfl
  · rw [hdpop, hdelivered.address]
    exact hpossession

/-- The provider gives the client its token. -/
theorem Party.issued (hdoc : d.lib.Documented) (huntimed : d.lib.AcceptsUntimed)
    {env : Idp.TokenEnv} {r : Idp.Request} {code proofJWT text : String} {expiresAt : ℤ}
    {store : Idp.RAMStore}
    (hcode : code ≠ "") (hunexpired : env.codeAt ≤ expiresAt)
    (hnear : Near env.proofAt p.env.tokenProof.now)
    (hproof : p.env.tokenProof.signedString (proofToken p.dpopKey "POST" (p.flags.idp ++ "/token") ""
      (hex p.tokenJti.toList) p.env.tokenProof.now) = .ok proofJWT)
    (hdelivered : TokenDelivered ⟨p.flags.idp ++ "/token",
      [("Content-Type", "application/x-www-form-urlencoded"), ("DPoP", proofJWT)],
      Client.tokenBody (utf8 code) (utf8 p.verifierText) (utf8 p.secret)⟩ r)
    (hstored : store.codes code = some ⟨p.challenge, p.flags.identity, expiresAt⟩)
    (hunused : ¬ store.jtis.Live (hex p.tokenJti.toList) env.jtiAt)
    (htext : env.signedString (Idp.accessToken p.flags.identity p.jkt env.issueAt) = some text) :
    (Idp.tokenHandler d.lib d.timeText env r store).1 =
      .token ⟨text, "DPoP", 60, "rt_" ++ hex p.tokenJti.toList⟩ := by
  obtain ⟨form, hvalue, hgranted⟩ := p.granted hdoc huntimed hcode hunexpired hnear hproof hdelivered
  have hgrant : (Idp.tokenGrant d.lib d.timeText env r store).1 = .ok (Idp.accessToken
      p.flags.identity (Idp.computeThumbprint (clientJWK p.dpopKey)) env.issueAt,
      hex p.tokenJti.toList) := hgranted.tokenGrant (hvalue ▸ hstored) hunused
  rw [(thumbprint_client p.dpopKey).2] at hgrant
  exact Idp.tokenHandler_of_grant hgrant htext

/-! ## The request to the gateway -/

/-- The key of the provider is in the answer of its endpoint. -/
theorem fetchKeys_published (key : CurveKey) (c : Gateway.JWKSCache) (now : ℤ) :
    Gateway.fetchKeys c (.ok (200, .ok (Idp.jwksHandler key))) now = (.ok (),
      ⟨Function.update (fun _ => none) "idp-signing-key" (some key.toPublicKey), now, c.ttl⟩) := by
  have hnew := Gateway.newKeys_singleton
    (k := ⟨"EC", "sig", "ES256", "P-256", Base64Url.encodeCoordinate key.x,
      Base64Url.encodeCoordinate key.y, "idp-signing-key"⟩)
    ⟨rfl, rfl⟩ (Gateway.jwkToECDSA_encodeCoordinate key) fun _ => none
  rw [Gateway.fetchKeys, keys_jwksHandler key]
  show (Except.ok (), Gateway.JWKSCache.mk (Gateway.newKeys _ fun _ => none) now c.ttl) = _
  rw [hnew]

/-- The gateway has the key of the provider, or gets it. -/
theorem getPublicKey_of_available {c : Gateway.JWKSCache} {reply : Gateway.JwksReply}
    (hkeys : ∀ kid key, c.keys kid = some key → key = (d.pub d.idpKey).toPublicKey)
    (hserves : ServesKey d reply)
    (havailable : reply = .ok (200, .ok (Idp.jwksHandler (d.pub d.idpKey))) ∨
      (c.keys "idp-signing-key").isSome = true) (now : ℤ) :
    (Gateway.getPublicKey c reply now "idp-signing-key").1 = .ok (d.pub d.idpKey).toPublicKey := by
  unfold Gateway.getPublicKey
  cases hcached : c.keys "idp-signing-key" with
  | none =>
    rcases havailable with rfl | hsome
    · simp only [fetchKeys_published, Function.update_self]
      rfl
    · rw [hcached] at hsome
      cases hsome
  | some key =>
    obtain rfl := hkeys _ _ hcached
    dsimp only
    split
    · rfl
    · rcases hserves with rfl | ⟨e, he⟩
      · simp only [fetchKeys_published, Function.update_self]
        rfl
      · have hfetch : Gateway.fetchKeys c reply now = (.error e, c) := by
          rw [Gateway.fetchKeys, he]
        rw [hfetch]

/-- The gateway reads the payload of the client. -/
theorem ofBody_reqPayload (amount : Decimal) (desc : String) :
    Gateway.TransferRequest.ofBody (some (Client.reqPayload amount desc)) = .ok ⟨amount, desc⟩ := by
  have hother : Strings.equalFold "description" "amount" = false := by decide
  have hnumber : Gateway.numberField [("amount", .num amount), ("description", .str desc)] "amount" =
      .ok amount := by
    simp only [Gateway.numberField, List.foldlM_cons, List.foldlM_nil, Strings.equalFold_refl,
      hother, if_true, Bool.false_eq_true, if_false]
    rfl
  have htext : Json.stringField [("amount", .num amount), ("description", .str desc)] "description" =
      .ok desc :=
    Json.stringField_of_mem ["amount", "description"] rfl (by decide) (by simp)
  show (Gateway.numberField _ "amount" >>= fun amount => _) = _
  rw [hnumber]
  show (Json.stringField _ "description" >>= fun description => _) = _
  rw [htext]
  rfl

/-- The paths of the commands, with the calls that they stand for. -/
theorem Party.route : p.path.toList.head? = some '/' ∧
    ∃ handler, Gateway.protectedHandler p.path = some handler ∧
      ∀ c, Gateway.callOf p.path p.body c = some (commandCall p.flags c) := by
  have hother : "transfer" ≠ "balance" ∧ "logs" ≠ "balance" ∧ "logs" ≠ "transfer" := by decide
  unfold commandCall
  rcases p.command_cases with ⟨hcmd, -, hpath, hbody⟩ | ⟨hcmd, hamount, -, hpath, hbody⟩ |
    ⟨hcmd, -, hpath, hbody⟩
  · rw [hcmd, hpath, hbody]
    refine ⟨by decide, _, rfl, fun c => ?_⟩
    rw [if_pos rfl]
    rfl
  · have hread := ofBody_reqPayload p.flags.amount p.flags.desc
    rw [hcmd, hpath, hbody]
    refine ⟨by decide, _, rfl, fun c => ?_⟩
    rw [if_neg hother.1, if_pos rfl, Gateway.callOf, if_pos rfl, hread]
    exact if_neg hamount
  · rw [hcmd, hpath, hbody]
    refine ⟨by decide, _, rfl, fun c => ?_⟩
    rw [if_neg hother.2.1, if_neg hother.2.2]
    rfl

/-- The path of a request that arrives is the one of the command. -/
theorem Party.path_eq {req : Client.ApiRequest} {r : Gateway.Request}
    (hurl : req.url = p.flags.gatewayURL ++ p.path) (hdelivered : ApiDelivered p req r) :
    r.path = p.path := by
  have happend := congrArg String.toList (hdelivered.address.symm.trans hurl)
  rw [String.toList_append, String.toList_append] at happend
  exact String.toList_inj.mp (List.append_cancel_left happend)

/-- The request of the client has everything that SecureAPI checks. -/
theorem Party.admitted (hdoc : d.lib.Documented) (huntimed : d.lib.AcceptsUntimed)
    (hunexpired : d.lib.AcceptsUnexpired) {env : Gateway.Env} {r : Gateway.Request}
    {w : Gateway.World} {req : Client.ApiRequest} {accessToken proofJWT : String} {issuedAt : ℤ}
    (hkeys : ∀ kid key, w.keys.keys kid = some key → key = (d.pub d.idpKey).toPublicKey)
    (hkey : KnowsKey d env)
    (havailable : env.jwks = .ok (200, .ok (Idp.jwksHandler (d.pub d.idpKey))) ∨
      (w.keys.keys "idp-signing-key").isSome = true)
    (hnear : Near env.proofAt p.env.apiProof.now)
    (hunused : ¬ w.jtis.Live (hex p.apiJti.toList) env.jtiAt)
    (htime : env.tokenAt < seconds (unix (issuedAt + Idp.tokenExpiration)))
    (hidentity : Gateway.IdentityFits d.middleware.enforceZiti (Gateway.getZitiIdentity r.conn)
      p.flags.identity)
    (hdelivered : ApiDelivered p req r)
    (hreq : req.method = p.method ∧ req.url = p.flags.gatewayURL ++ p.path ∧ req.body = p.body)
    (hheader : ("Authorization", "DPoP " ++ accessToken) ∈ req.header ∧ ("DPoP", proofJWT) ∈ req.header)
    (hproof : p.env.apiProof.signedString (proofToken p.dpopKey p.method
      (p.flags.gatewayURL ++ p.path) accessToken (hex p.apiJti.toList) p.env.apiProof.now) =
        .ok proofJWT)
    (hproves : p.ProvesTo accessToken)
    (hdecode : d.lib.decode accessToken = .ok (Idp.accessToken p.flags.identity p.jkt issuedAt))
    (hverify : d.lib.verify accessToken (Idp.accessToken p.flags.identity p.jkt issuedAt)
      (d.pub d.idpKey).toPublicKey = .ok ()) :
    Gateway.Admitted d.middleware env r w accessToken
      (Idp.accessToken p.flags.identity p.jkt issuedAt)
      (proofToken p.dpopKey p.method (p.flags.gatewayURL ++ p.path) accessToken
        (hex p.apiJti.toList) p.env.apiProof.now) (proofJWK p.dpopKey) := by
  obtain ⟨hjwt, hserves⟩ := hkey
  have hpath := p.path_eq hreq.2.1 hdelivered
  have hsigns := hproves.signs
  have hauthorization : r.get "Authorization" = "DPoP " ++ accessToken :=
    hdelivered.header _ hheader.1
  have hdpop : r.get "DPoP" = proofJWT := hdelivered.header _ hheader.2
  have hnonempty := ne_empty_of_decode hdoc hdecode
  have hvalid : d.lib.validateMap (Idp.accessToken p.flags.identity p.jkt issuedAt).claims
      env.tokenAt = .ok () := by
    refine hunexpired _ _ ⟨unix (issuedAt + Idp.tokenExpiration), 0⟩ rfl ?_ rfl
    rw [Decimal.floor_ofInt]
    exact htime
  -- the client and the gateway may know the gateway under two names
  have huri : IsURI p.scheme p.authority p.path (p.flags.gatewayURL ++ p.path) :=
    ⟨by rw [p.gateway_address], p.scheme_colon, p.authority_slash, p.route.1⟩
  have htarget : IsURI (if r.tls then "https" else "http") r.host p.path r.fullURI := by
    refine ⟨by rw [Gateway.Request.fullURI, hpath], ?_, hdelivered.host, p.route.1⟩
    split
    · decide
    · decide
  have hpossession := gateway_proofVerified hsigns huntimed hproof (hex_ne_empty _) huri htarget
    hnear.1 hnear.2
  constructor
  · refine ⟨"DPoP", ?_, Strings.equalFold_refl _⟩
    rw [hauthorization]
    rfl
  · exact hnonempty
  · rw [hdpop]
    exact ne_empty_of_decode hdoc (hsigns.decode proofJWT hproof)
  · rw [hjwt]
    exact hdecode
  · rfl
  · show "idp-signing-key" ≠ ""
    decide
  · refine ⟨(d.pub d.idpKey).toPublicKey, getPublicKey_of_available hkeys hserves havailable _, ?_⟩
    rw [hjwt]
    exact hverify
  · rw [hjwt]
    exact hvalid
  · exact hdoc.notExpired _ _ hvalid
  · rw [hjwt, hdpop, hdelivered.method, hreq.1]
    exact ⟨_, hpossession⟩
  · exact ath_proofToken hnonempty
  · rw [stringOf_proofToken.2.2]
    exact hunused
  · exact (thumbprint_client p.dpopKey).1.symm
  · rfl
  · exact hidentity

end System
end DarkServices
