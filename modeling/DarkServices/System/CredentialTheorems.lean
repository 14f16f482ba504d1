import DarkServices.Client.Crypto
import DarkServices.Client.Main
import DarkServices.Idp.HandlerTheorems
import DarkServices.Lib.HttpLine

/-!
# The credentials of the client on their way

The client pastes its identity and its secret into the address of `/authorize` and encodes the
secret in the form for `/token`. The form is always read back; the address is, exactly when
neither text has a byte with a meaning in an address (`credentials_intact_iff`). For texts that
pass, `AuthorizeHandler` sees the values that the client meant to send.
-/

namespace DarkServices
namespace System

open Lib
open Lib.UrlQuery (Bytes Plain parseQuery pasteValues beforeFragment)
open Lib.HttpLine (hasControl queryAtServer)
open Client (authURL generatePKCE tokenBody tokenForm)

/-- The parameters that the client means to send to `/authorize`. -/
def authorizeValues (clientID clientSecret challenge : Bytes) : List (Bytes × Bytes) :=
  [(utf8 "response_type", utf8 "code"), (utf8 "client_id", clientID),
    (utf8 "client_secret", clientSecret), (utf8 "code_challenge", challenge),
    (utf8 "code_challenge_method", utf8 "S256"),
    (utf8 "redirect_uri", utf8 "http://localhost:8080/callback")]

/-- `AuthorizeHandler` reads the values that the client means to send. -/
def CredentialsIntact (pathOf : Bytes → Option Bytes)
    (idpBaseURL clientID clientSecret challenge : Bytes) : Prop :=
  ∃ path query,
    queryAtServer pathOf (authURL idpBaseURL clientID clientSecret challenge) =
        some (path, query) ∧
      ∀ p ∈ authorizeValues clientID clientSecret challenge,
        UrlQuery.get (parseQuery query) p.1 = p.2

/-- A text that an address can carry as it is: no byte with a meaning there, no blank and no
control character. -/
def Sendable (s : Bytes) : Prop :=
  ∀ c ∈ s, c ∉ UrlQuery.reserved ∧ ' '.toUInt8 < c ∧ c ≠ 0x7f

instance (s : Bytes) : Decidable (Sendable s) :=
  decidable_of_iff
    (s.all fun c => !UrlQuery.reserved.contains c && (' '.toUInt8 < c && c != 0x7f))
    (by simp [Sendable])

/-- The address of the identity provider: it is the beginning of an address, and the path of
`/authorize` there is `/authorize`. -/
structure IdpAddress (pathOf : Bytes → Option Bytes) (idpBaseURL : Bytes) : Prop where
  separators : '#'.toUInt8 ∉ idpBaseURL ∧ '?'.toUInt8 ∉ idpBaseURL
  control : hasControl idpBaseURL = false
  path : pathOf (idpBaseURL ++ utf8 "/authorize") = some (utf8 "/authorize")

/-! ## The address -/

theorem authURL_eq (idpBaseURL clientID clientSecret challenge : Bytes) :
    authURL idpBaseURL clientID clientSecret challenge =
      (idpBaseURL ++ utf8 "/authorize") ++
        '?'.toUInt8 :: pasteValues (authorizeValues clientID clientSecret challenge) := by
  have hstart : utf8 "/authorize?response_type=code&client_id=" = utf8 "/authorize" ++
      '?'.toUInt8 :: (utf8 "response_type" ++ '='.toUInt8 :: utf8 "code" ++
        '&'.toUInt8 :: (utf8 "client_id" ++ ['='.toUInt8])) := by decide
  have hsecret : utf8 "&client_secret=" =
      '&'.toUInt8 :: (utf8 "client_secret" ++ ['='.toUInt8]) := by decide
  have hchallenge : utf8 "&code_challenge=" =
      '&'.toUInt8 :: (utf8 "code_challenge" ++ ['='.toUInt8]) := by decide
  have hend : utf8 "&code_challenge_method=S256&redirect_uri=http://localhost:8080/callback" =
      '&'.toUInt8 :: (utf8 "code_challenge_method" ++ '='.toUInt8 :: utf8 "S256" ++
        '&'.toUInt8 :: (utf8 "redirect_uri" ++
          '='.toUInt8 :: utf8 "http://localhost:8080/callback")) := by decide
  rw [authURL, hstart, hsecret, hchallenge, hend, pasteValues, authorizeValues]
  simp only [List.map_cons, List.map_nil, List.intercalate_cons_cons, List.intercalate_singleton,
    List.append_assoc, List.cons_append, List.nil_append]

/-! ## Texts that an address can carry -/

theorem sendable_iff {s : Bytes} :
    Sendable s ↔ Plain s ∧ hasControl s = false ∧ ' '.toUInt8 ∉ s := by
  have hcontrol : hasControl s = false ↔ ∀ c ∈ s, ' '.toUInt8 ≤ c ∧ c ≠ 0x7f := by
    simp [hasControl]
  rw [hcontrol]
  constructor
  · intro h
    refine ⟨fun c hc => (h c hc).1, fun c hc => ?_, fun hblank => ?_⟩
    · obtain ⟨-, hlt, hne⟩ := h c hc
      exact ⟨UInt8.le_of_lt hlt, hne⟩
    · exact absurd (h _ hblank).2.1 (by decide)
  · rintro ⟨hplain, hctl, hblank⟩ c hc
    refine ⟨hplain c hc, UInt8.lt_of_le_of_ne (hctl c hc).1 ?_, (hctl c hc).2⟩
    intro heq
    exact hblank (heq ▸ hc)

/-- The challenge of a client is base64url text. -/
theorem sendable_challenge {random : Except String (Vector UInt8 32)} {verifier challenge : String}
    (h : generatePKCE random = .ok (verifier, challenge)) : Sendable (utf8 challenge) := by
  obtain ⟨bytes, -, heq⟩ := bind_eq_ok.mp h
  cases heq
  have halphabet : (Base64Url.alphabet.all fun c => decide (Sendable (String.utf8EncodeChar c))) =
      true := by
    decide
  intro c hc
  rw [utf8_eq_flatMap] at hc
  obtain ⟨d, hd, hc⟩ := List.mem_flatMap.mp hc
  exact of_decide_eq_true (List.all_eq_true.mp halphabet d (Base64Url.mem_encodeToString hd)) c hc

section

variable {pathOf : Bytes → Option Bytes} {idpBaseURL clientID clientSecret challenge : Bytes}

theorem authorizeValues_keys :
    ∀ p ∈ authorizeValues clientID clientSecret challenge, Sendable p.1 ∧ '='.toUInt8 ∉ p.1 := by
  intro p hp
  simp only [authorizeValues, List.mem_cons, List.not_mem_nil, or_false] at hp
  rcases hp with rfl | rfl | rfl | rfl | rfl | rfl
  · decide
  · exact (by decide : Sendable (utf8 "client_id") ∧ '='.toUInt8 ∉ utf8 "client_id")
  · exact (by decide : Sendable (utf8 "client_secret") ∧ '='.toUInt8 ∉ utf8 "client_secret")
  · exact (by decide : Sendable (utf8 "code_challenge") ∧ '='.toUInt8 ∉ utf8 "code_challenge")
  · decide
  · decide

theorem authorizeValues_nodup :
    ((authorizeValues clientID clientSecret challenge).map Prod.fst).Nodup := by
  show [utf8 "response_type", utf8 "client_id", utf8 "client_secret", utf8 "code_challenge",
    utf8 "code_challenge_method", utf8 "redirect_uri"].Nodup
  decide

/-- Four of the values can always be sent. -/
theorem authorizeValues_sendable_iff (hchallenge : Sendable challenge) :
    (∀ p ∈ authorizeValues clientID clientSecret challenge, Sendable p.2) ↔
      Sendable clientID ∧ Sendable clientSecret := by
  constructor
  · intro h
    exact ⟨h (utf8 "client_id", clientID) (by simp [authorizeValues]),
      h (utf8 "client_secret", clientSecret) (by simp [authorizeValues])⟩
  · rintro ⟨hid, hsecret⟩ p hp
    simp only [authorizeValues, List.mem_cons, List.not_mem_nil, or_false] at hp
    rcases hp with rfl | rfl | rfl | rfl | rfl | rfl
    · decide
    · exact hid
    · exact hsecret
    · exact hchallenge
    · decide
    · decide

/-- The server reads the pasted values, when no byte stops the request on its way. -/
theorem queryAtServer_authURL (haddress : IdpAddress pathOf idpBaseURL) {r : Bytes × Bytes} :
    queryAtServer pathOf (authURL idpBaseURL clientID clientSecret challenge) = some r ↔
      r = (utf8 "/authorize",
          beforeFragment (pasteValues (authorizeValues clientID clientSecret challenge))) ∧
        hasControl (beforeFragment
          (pasteValues (authorizeValues clientID clientSecret challenge))) = false ∧
        ' '.toUInt8 ∉ beforeFragment
          (pasteValues (authorizeValues clientID clientSecret challenge)) ∧
        (UrlQuery.unescape false (UrlQuery.cutAt '#'
          (pasteValues (authorizeValues clientID clientSecret challenge))).2).isSome = true := by
  have hseparators : '#'.toUInt8 ∉ idpBaseURL ++ utf8 "/authorize" ∧
      '?'.toUInt8 ∉ idpBaseURL ++ utf8 "/authorize" := by
    rw [List.mem_append, List.mem_append, not_or, not_or]
    exact ⟨⟨haddress.separators.1, by decide⟩, haddress.separators.2, by decide⟩
  have hcontrol : hasControl (idpBaseURL ++ utf8 "/authorize") = false := by
    have hbase := haddress.control
    unfold hasControl at hbase ⊢
    rw [List.any_append, hbase]
    decide
  rw [authURL_eq]
  exact HttpLine.queryAtServer_eq_some hseparators hcontrol haddress.path (by decide)

/-- Sendable values pass as a whole. -/
theorem visible_of_mem_pasteValues
    (h : ∀ p ∈ authorizeValues clientID clientSecret challenge, Sendable p.2) {c : UInt8}
    (hc : c ∈ pasteValues (authorizeValues clientID clientSecret challenge)) :
    ' '.toUInt8 < c ∧ c ≠ 0x7f := by
  rcases UrlQuery.of_mem_pasteValues hc with rfl | rfl | ⟨p, hp, hkey | hvalue⟩
  · decide
  · decide
  · exact ((authorizeValues_keys p hp).1 c hkey).2
  · exact (h p hp c hvalue).2

/-- The values are read exactly when each of them can be sent. -/
theorem intact_iff_sendable (haddress : IdpAddress pathOf idpBaseURL) :
    CredentialsIntact pathOf idpBaseURL clientID clientSecret challenge ↔
      ∀ p ∈ authorizeValues clientID clientSecret challenge, Sendable p.2 := by
  have hkeys : ∀ p ∈ authorizeValues clientID clientSecret challenge,
      Plain p.1 ∧ '='.toUInt8 ∉ p.1 := fun p hp =>
    ⟨(sendable_iff.mp (authorizeValues_keys p hp).1).1, (authorizeValues_keys p hp).2⟩
  have hread := UrlQuery.get_pasteValues_iff hkeys authorizeValues_nodup
  constructor
  · rintro ⟨path, query, hserver, hget⟩
    obtain ⟨heq, hcontrol, hblank, -⟩ := (queryAtServer_authURL haddress).mp hserver
    rw [(Prod.mk.inj heq).2] at hget
    have hplain := hread.mp hget
    rw [UrlQuery.beforeFragment_pasteValues hkeys hplain] at hcontrol hblank
    intro p hp
    refine sendable_iff.mpr ⟨hplain p hp, ?_, fun hmem => hblank (UrlQuery.mem_pasteValues hp hmem)⟩
    rw [hasControl, List.any_eq_false] at hcontrol ⊢
    exact fun c hc => hcontrol c (UrlQuery.mem_pasteValues hp hc)
  · intro hsend
    have hplain : ∀ p ∈ authorizeValues clientID clientSecret challenge, Plain p.2 :=
      fun p hp => (sendable_iff.mp (hsend p hp)).1
    have hbefore := UrlQuery.beforeFragment_pasteValues hkeys hplain
    have hhash := UrlQuery.hash_notMem_pasteValues hkeys hplain
    refine ⟨_, _, (queryAtServer_authURL haddress).mpr ⟨rfl, ?_, ?_, ?_⟩, hread.mpr hplain⟩
    · rw [hbefore, hasControl, List.any_eq_false]
      intro c hc
      obtain ⟨hlt, hne⟩ := visible_of_mem_pasteValues hsend hc
      simp [UInt8.not_lt.mpr (UInt8.le_of_lt hlt), hne]
    · rw [hbefore]
      intro hmem
      exact absurd (visible_of_mem_pasteValues hsend hmem).1 (by decide)
    · rw [HttpLine.cutAt_of_notMem hhash]
      rfl

end

/-! ## The request of a registered client -/

/-- The query of a request is what the server makes of its address. -/
def Receives (r : Idp.Request) (query : Bytes) : Prop :=
  r.query.map (Prod.map utf8 utf8) = parseQuery query

/-- The query that `AuthorizeHandler` gets from a client whose texts can be sent. -/
theorem query_of_sendable {pathOf : Bytes → Option Bytes} {idpBaseURL path query : Bytes}
    (haddress : IdpAddress pathOf idpBaseURL) {clientID clientSecret challenge : String}
    (hsend : ∀ p ∈ authorizeValues (utf8 clientID) (utf8 clientSecret) (utf8 challenge),
      Sendable p.2)
    (hserver : queryAtServer pathOf
      (authURL idpBaseURL (utf8 clientID) (utf8 clientSecret) (utf8 challenge)) =
        some (path, query)) {r : Idp.Request} (hr : Receives r query) :
    r.query = [("response_type", "code"), ("client_id", clientID),
      ("client_secret", clientSecret), ("code_challenge", challenge),
      ("code_challenge_method", "S256"), ("redirect_uri", "http://localhost:8080/callback")] := by
  obtain ⟨heq, -⟩ := (queryAtServer_authURL haddress).mp hserver
  have hparse := UrlQuery.parseQuery_pasteValues
    (fun p hp => ⟨(sendable_iff.mp (authorizeValues_keys p hp).1).1, (authorizeValues_keys p hp).2⟩)
    fun p hp => (sendable_iff.mp (hsend p hp)).1
  rw [Receives, (Prod.mk.inj heq).2, hparse] at hr
  exact List.map_injective_iff.mpr (utf8_injective.prodMap utf8_injective) hr

/-- The registered clients can do without a secret on the command line. -/
theorem sendable_clientSecrets {identity secret : String}
    (h : (identity, secret) ∈ Client.clientSecrets) :
    Client.secretOf (utf8 identity) [] = utf8 secret ∧
      Idp.registeredClients.lookup identity = some secret ∧
      Sendable (utf8 identity) ∧ Sendable (utf8 secret) ∧ identity ≠ "" ∧ secret ≠ "" := by
  simp only [Client.clientSecrets, List.mem_cons, Prod.mk.injEq, List.not_mem_nil, or_false] at h
  rcases h with ⟨rfl, rfl⟩ | ⟨rfl, rfl⟩ | ⟨rfl, rfl⟩
  · exact ⟨by decide, rfl, by decide, by decide, by decide, by decide⟩
  · exact ⟨by decide, rfl, by decide, by decide, by decide, by decide⟩
  · exact ⟨by decide, rfl, by decide, by decide, by decide, by decide⟩

/-- A registered client that gives no secret on its command line is answered with the code. -/
theorem authorizeHandler_of_client {pathOf : Bytes → Option Bytes} {idpBaseURL path query : Bytes}
    (haddress : IdpAddress pathOf idpBaseURL) {random : Except String (Vector UInt8 32)}
    {verifier challenge : String} (hpkce : generatePKCE random = .ok (verifier, challenge))
    {identity secret : String} (hclient : (identity, secret) ∈ Client.clientSecrets)
    (hserver : queryAtServer pathOf (authURL idpBaseURL (utf8 identity)
      (Client.secretOf (utf8 identity) []) (utf8 challenge)) = some (path, query))
    {r : Idp.Request} (hr : Receives r query) (haccept : r.get "Accept" = "application/json")
    {env : Idp.AuthorizeEnv} {code location : String} (hrandom : env.random = some code)
    (hredirect : env.redirectURL "http://localhost:8080/callback" code "" = some location)
    (s : Idp.RAMStore) : (Idp.authorizeHandler env r s).1 = .code code := by
  obtain ⟨hsecret, hregistered, hid, hsend, hidne, hsecretne⟩ := sendable_clientSecrets hclient
  rw [hsecret] at hserver
  have hquery := query_of_sendable haddress
    ((authorizeValues_sendable_iff (sendable_challenge hpkce)).mpr ⟨hid, hsend⟩) hserver hr
  have hchallenge : challenge ≠ "" := by
    obtain ⟨bytes, -, heq⟩ := bind_eq_ok.mp hpkce
    cases heq
    exact Base64Url.encodeToString_ne_empty
      (List.ne_nil_of_length_pos (by rw [Sha256.length_sum256]; decide))
  have hvalue : Idp.valueOf r.query "response_type" = "code" ∧
      Idp.valueOf r.query "client_id" = identity ∧ Idp.valueOf r.query "client_secret" = secret ∧
      Idp.valueOf r.query "code_challenge" = challenge ∧
      Idp.valueOf r.query "code_challenge_method" = "S256" ∧
      Idp.valueOf r.query "redirect_uri" = "http://localhost:8080/callback" ∧
      Idp.valueOf r.query "state" = "" := by
    rw [hquery]
    exact ⟨rfl, rfl, rfl, rfl, rfl, rfl, rfl⟩
  obtain ⟨htype, hclientID, hclientSecret, hcodeChallenge, hmethod, huri, hstate⟩ := hvalue
  have hvalid : Idp.ParamsValid r secret := by
    refine ⟨htype, ?_, ?_, ?_, hmethod⟩
    · rw [hclientID]
      exact ⟨hidne, hregistered⟩
    · rw [huri]
      decide
    · rw [hcodeChallenge]
      exact hchallenge
  rw [Idp.authorizeHandler, Idp.authorizeParams_eq_ok_iff.mpr ⟨secret, hvalid, rfl⟩, hrandom]
  show Idp.authorizeReply env r (Idp.paramsOf r secret) code = _
  simp only [Idp.authorizeReply, Idp.paramsOf, huri, hstate, hredirect, haccept, hclientSecret,
    if_true, if_neg hsecretne, ne_eq, not_true_eq_false, if_false]

/-- **The credentials.** `AuthorizeHandler` reads the values that the client means to send exactly
when identity and secret are texts that an address can carry. `TokenHandler` always reads the
secret. -/
theorem credentials_intact_iff {pathOf : Bytes → Option Bytes} {idpBaseURL : Bytes}
    (haddress : IdpAddress pathOf idpBaseURL) {random : Except String (Vector UInt8 32)}
    {verifier challenge : String} (hpkce : generatePKCE random = .ok (verifier, challenge))
    (clientID clientSecret : Bytes) :
    (CredentialsIntact pathOf idpBaseURL clientID clientSecret (utf8 challenge) ↔
      Sendable clientID ∧ Sendable clientSecret) ∧
    ∀ code, ∃ form, UrlQuery.parseForm (tokenBody code (utf8 verifier) clientSecret) = some form ∧
      UrlQuery.get form (utf8 "client_secret") = clientSecret := by
  constructor
  · rw [intact_iff_sendable haddress, authorizeValues_sendable_iff (sendable_challenge hpkce)]
  · intro code
    exact ⟨_, UrlQuery.parseForm_encodeValues _, rfl⟩

/-- The address parsing for the identity provider of a local installation. -/
def localPath (address : Bytes) : Option Bytes :=
  if address = utf8 "http://localhost:8081/authorize" then some (utf8 "/authorize") else none

theorem localAddress : IdpAddress localPath (utf8 "http://localhost:8081") where
  separators := by decide
  control := by decide
  path := by decide

def zeroVerifier : String := Base64Url.encodeToString (Vector.replicate 32 0).toList

/-- The secret of a registered client has no byte that is lost. -/
theorem credentials_intact_iff_alice :
    CredentialsIntact localPath (utf8 "http://localhost:8081") (utf8 "client-alice")
      (utf8 "alice-secure-secret-2026") (utf8 (Client.hashText zeroVerifier)) :=
  (credentials_intact_iff localAddress
    (show generatePKCE (.ok (Vector.replicate 32 0)) =
      .ok (zeroVerifier, Client.hashText zeroVerifier) from rfl) _ _).1.mpr ⟨by decide, by decide⟩

/-- A secret with an ampersand is cut there. -/
theorem credentials_lost :
    generatePKCE (.ok (Vector.replicate 32 0)) =
        .ok (zeroVerifier, Client.hashText zeroVerifier) ∧
      ¬ CredentialsIntact localPath (utf8 "http://localhost:8081") (utf8 "client-alice")
        (utf8 "p&ss") (utf8 (Client.hashText zeroVerifier)) := by
  refine ⟨rfl, fun hintact => ?_⟩
  have hsend := (intact_iff_sendable localAddress).mp hintact (utf8 "client_secret", utf8 "p&ss")
    (by simp [authorizeValues])
  exact absurd hsend (by decide)

example :
    (queryAtServer localPath (authURL (utf8 "http://localhost:8081") (utf8 "client-alice")
      (utf8 "p&ss") (utf8 "c"))).map
        (fun r => UrlQuery.get (parseQuery r.2) (utf8 "client_secret")) = some (utf8 "p") := by
  decide

end System
end DarkServices
