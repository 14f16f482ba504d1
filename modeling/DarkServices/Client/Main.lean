import DarkServices.Lib.UrlQuery

/-!
# The authorization request of the client

`client/main.go`: the secret of a client, the address of `/authorize`, which is put together with
`fmt.Sprintf`, and the form that goes to `/token`. The texts of the command line are bytes.
-/

namespace DarkServices
namespace Client

open Lib
open UrlQuery (Bytes)

/-- `clientSecrets`. -/
def clientSecrets : List (String × String) :=
  [("client-alice", "alice-secure-secret-2026"), ("client-bob", "bob-secure-secret-2026"),
    ("client-evil", "evil-secure-secret-2026")]

/-- `secret` in `main`: the one of the command line, or the registered one. -/
def secretOf (identityFlag secretFlag : Bytes) : Bytes :=
  if secretFlag = [] then
    UrlQuery.get (clientSecrets.map fun p => (utf8 p.1, utf8 p.2)) identityFlag
  else secretFlag

/-- `authURL` in `getDPoPBoundToken`. -/
def authURL (idpBaseURL clientID clientSecret challenge : Bytes) : Bytes :=
  idpBaseURL ++ utf8 "/authorize?response_type=code&client_id=" ++ clientID ++
    utf8 "&client_secret=" ++ clientSecret ++ utf8 "&code_challenge=" ++ challenge ++
    utf8 "&code_challenge_method=S256&redirect_uri=http://localhost:8080/callback"

/-- `form` in `getDPoPBoundToken`, in the order of its keys. -/
def tokenForm (code verifier clientSecret : Bytes) : List (Bytes × Bytes) :=
  [(utf8 "client_secret", clientSecret), (utf8 "code", code), (utf8 "code_verifier", verifier),
    (utf8 "grant_type", utf8 "authorization_code")]

/-- The body of the token request, `form.Encode()`. -/
def tokenBody (code verifier clientSecret : Bytes) : Bytes :=
  UrlQuery.encodeValues (tokenForm code verifier clientSecret)

end Client
end DarkServices
