import DarkServices.Gateway.Handlers
import DarkServices.Idp.Handler

/-!
# The identity provider, the gateway and the network between

One run of both programs on a shared clock. All requests come from the network, which knows
every text and may sign any token with any private key but the provider's; an honest client is a
part of the network that signs its own proofs. A step is a request to one of the programs, the
visit of a sweep, or a signature.

`Realistic` says what the network cannot do: present a text whose signature nobody has made, find
two texts with the same SHA-256 hash, or change the answers of the JWKS endpoint.
-/

namespace DarkServices
namespace System

open Lib
open Lib.Json (lookup stringOf)

/-- What the parties have in common: the token library, and the private keys with their public
keys. `idpKey` is the private key of the identity provider. -/
structure Deployment (SK : Type) where
  lib : Jwt
  timeText : ℤ → String
  pub : SK → CurveKey
  pub_injective : ∀ sk sk', (pub sk).toPublicKey = (pub sk').toPublicKey → sk = sk'
  idpKey : SK
  middleware : Gateway.AuthMiddleware

/-- The two programs, every signature made so far with the token it is on, and every proof
presented so far. The clock of the provider is the clock of both. -/
structure Network (SK : Type) where
  idp : Idp.State
  gateway : Gateway.World
  signed : List (SK × Token)
  proofs : List String

/-- One step. -/
inductive NetworkLabel (SK : Type)
  | idp (l : Idp.Label)
  | sign (sk : SK) (t : Token)
  | request (env : Gateway.Env) (r : Gateway.Request)
  | cleanup (now : ℤ) (jti : String)

/-- The readings of the clock during a request to the gateway come one after the other. -/
def Ordered (env : Gateway.Env) (clock : ℤ) : Prop :=
  clock ≤ env.proofAt ∧ env.proofAt ≤ env.jtiAt ∧ env.jtiAt ≤ env.keysAt ∧
    env.keysAt ≤ env.tokenAt ∧ env.tokenAt ≤ env.policyAt

instance (env : Gateway.Env) (clock : ℤ) : Decidable (Ordered env clock) :=
  inferInstanceAs (Decidable (_ ∧ _ ∧ _ ∧ _ ∧ _))

section

variable {SK : Type} (d : Deployment SK)

/-- The signature that the provider makes during a step. -/
def providerSigns (store : Idp.RAMStore) : Idp.Label → List (SK × Token)
  | .token env r =>
    match (Idp.tokenGrant d.lib d.timeText env r store).1 with
    | .error _ => []
    | .ok (t, _) => if (env.signedString t).isSome then [(d.idpKey, t)] else []
  | _ => []

/-- The proof presented in a step of the provider. -/
def presentedProof : Idp.Label → List String
  | .token _ r => [r.get "DPoP"]
  | _ => []

/-- One step of the network. -/
def networkStep [DecidableEq SK] (s : Network SK) : NetworkLabel SK → Option (Network SK)
  | .idp l => (Idp.step d.lib d.timeText s.idp l).map fun idp =>
      ⟨idp, s.gateway, providerSigns d s.idp.store l ++ s.signed, presentedProof l ++ s.proofs⟩
  | .sign sk t => if sk = d.idpKey then none else some { s with signed := (sk, t) :: s.signed }
  | .request env r =>
    if Ordered env s.idp.clock then
      some ⟨{ s.idp with clock := env.policyAt }, (Gateway.mux d.middleware env r s.gateway).2,
        s.signed, r.get "DPoP" :: s.proofs⟩
    else none
  | .cleanup now jti =>
    if now ≤ s.idp.clock then
      some { s with gateway :=
        { s.gateway with jtis := Gateway.cleanupVisit s.gateway.jtis now jti } }
    else none

/-- Both programs as they start, at some time after 1970, before anything is signed. -/
def networkSystem [DecidableEq SK] : LTS (Network SK) (NetworkLabel SK) :=
  LTS.ofStep (fun s => 0 ≤ s.idp.clock ∧
    (s.idp.store = Idp.RAMStore.empty ∧ s.idp.drawn = [] ∧ s.idp.history = []) ∧
    s.gateway = ⟨Gateway.newAuthMiddlewareCache, fun _ => none, []⟩ ∧ s.signed = [] ∧
    s.proofs = []) (networkStep d)

/-! ## What the network cannot do -/

/-- The text is not a forgery: a signature on it that verifies under some key has been made with
the private key of that key. -/
def Unforged (s : Network SK) (text : String) : Prop :=
  ∀ t key, d.lib.decode text = .ok t → d.lib.verify text t key = .ok () →
    ∃ sk, (d.pub sk).toPublicKey = key ∧ (sk, t) ∈ s.signed

/-- The texts that the two programs hash for the thumbprint of the key of a proof. -/
def thumbprintTexts (lib : Jwt) (proofJWT : String) : List String :=
  match lib.decode proofJWT with
  | .error _ => []
  | .ok t =>
    match lookup t.header "jwk" with
    | none => []
    | some jwkRaw =>
      (match Idp.JWK.ofHeader jwkRaw with
        | .ok jwk => [jwk.canonical]
        | .error _ => []) ++
      (match jwkRaw with
        | .obj m => [Gateway.thumbprintText (stringOf m "x") (stringOf m "y")]
        | _ => [])

/-- No two of the texts have the same hash. -/
def CollisionFree (texts : List String) : Prop :=
  ∀ a ∈ texts, ∀ b ∈ texts, Sha256.sum256 (utf8 a) = Sha256.sum256 (utf8 b) → a = b

/-- The gateway gets the answer of the JWKS endpoint, or none that it can use. -/
def ServesKey (reply : Gateway.JwksReply) : Prop :=
  reply = .ok (200, .ok (Idp.jwksHandler (d.pub d.idpKey))) ∨ ∃ e, reply.keys = .error e

/-- The conditions on a step. -/
def Realistic (s : Network SK) : NetworkLabel SK → Prop
  | .idp (.token _ r) => Unforged d s (r.get "DPoP")
  | .request env r => env.jwt = d.lib ∧ ServesKey d env.jwks ∧ Unforged d s (r.get "DPoP") ∧
      (∀ accessToken, Gateway.accessTokenOf r = .ok accessToken → Unforged d s accessToken) ∧
      CollisionFree ((r.get "DPoP" :: s.proofs).flatMap (thumbprintTexts d.lib))
  | _ => True

end

/-- SecureAPI admits the request: it hands it to the next handler, whichever it is, with these
claims. -/
def Admits (m : Gateway.AuthMiddleware) (env : Gateway.Env) (r : Gateway.Request)
    (w : Gateway.World) (c : Gateway.TokenClaims) : Prop :=
  ∃ w', ∀ next, Gateway.secureAPI m next env r w = next env (r.withClaims c) w'

end System
end DarkServices
