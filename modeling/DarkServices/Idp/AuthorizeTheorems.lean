import DarkServices.Idp.HandlerTheorems

/-!
# What a refused authorization leaves behind

`AuthorizeHandler` refuses a request at eight places. Six of them and the failing random source
come before the code is stored; the address of the redirect and the secret of a client that asks
for JSON are looked at afterwards. So a refused request leaves the codes as they were exactly when
it is not refused late (`authorize_leaves_no_trace_iff`).
-/

namespace DarkServices
namespace Idp

open Lib

variable {env : AuthorizeEnv} {r : Request} {s : RAMStore} {secret code : String}

/-- The checks after the code is stored fail. -/
def ReplyRefused (env : AuthorizeEnv) (r : Request) (secret code : String) : Prop :=
  env.redirectURL (valueOf r.query "redirect_uri") code (valueOf r.query "state") = none ∨
    r.get "Accept" = "application/json" ∧
      (valueOf r.query "client_secret" = "" ∨ valueOf r.query "client_secret" ≠ secret)

/-- The request is refused after its code has been stored. -/
def RefusedLate (env : AuthorizeEnv) (r : Request) : Prop :=
  ∃ secret code, ParamsValid r secret ∧ env.random = some code ∧ ReplyRefused env r secret code

/-- The reply gives the code to the client, itself or in the address of a redirect. -/
def Carries (env : AuthorizeEnv) (r : Request) (code : String) (reply : Reply) : Prop :=
  reply = .code code ∨ ∃ location, reply = .redirect location ∧
    env.redirectURL (valueOf r.query "redirect_uri") code (valueOf r.query "state") = some location

/-- The entry that the request saves for its code. -/
def savedInfo (env : AuthorizeEnv) (r : Request) : AuthCodeInfo :=
  ⟨valueOf r.query "code_challenge", valueOf r.query "client_id", env.saveAt + codeTTL⟩

/-- An error leaves the codes as they were, and any other answer carries the one code that has
been stored. -/
def LeavesNoTrace (env : AuthorizeEnv) (r : Request) (s : RAMStore) : Prop :=
  (∀ e, (authorizeHandler env r s).1 = .error e → (authorizeHandler env r s).2.codes = s.codes) ∧
    ((∀ e, (authorizeHandler env r s).1 ≠ .error e) → ∃ code,
      Carries env r code (authorizeHandler env r s).1 ∧
      (authorizeHandler env r s).2.codes =
        Function.update s.codes code (some (savedInfo env r)))

/-- The last step refuses, or the reply carries the code. -/
theorem authorizeReply_cases (env : AuthorizeEnv) (r : Request) (secret code : String) :
    (ReplyRefused env r secret code ∧
      ∃ e, authorizeReply env r (paramsOf r secret) code = .error e) ∨
    (¬ ReplyRefused env r secret code ∧
      Carries env r code (authorizeReply env r (paramsOf r secret) code)) := by
  unfold authorizeReply ReplyRefused Carries
  simp only [paramsOf]
  cases env.redirectURL (valueOf r.query "redirect_uri") code (valueOf r.query "state") with
  | none => exact Or.inl ⟨Or.inl rfl, _, rfl⟩
  | some location =>
    by_cases haccept : r.get "Accept" = "application/json"
    · by_cases hempty : valueOf r.query "client_secret" = ""
      · simp [haccept, hempty]
      · by_cases hsecret : valueOf r.query "client_secret" = secret
        · -- the one way to the code itself
          subst hsecret
          simp [haccept, hempty]
        · simp [haccept, hempty, hsecret]
    · simp [haccept]

/-- A request that is refused early keeps the store; any other one stores its code first. -/
theorem authorizeHandler_cases (env : AuthorizeEnv) (r : Request) (s : RAMStore) :
    (¬ RefusedLate env r ∧ ∃ e, authorizeHandler env r s = (.error e, s)) ∨
    ∃ secret code, ParamsValid r secret ∧ env.random = some code ∧
      (RefusedLate env r ↔ ReplyRefused env r secret code) ∧
      authorizeHandler env r s = (authorizeReply env r (paramsOf r secret) code,
        { s with codes := Function.update s.codes code (some (savedInfo env r)) }) := by
  unfold authorizeHandler
  cases hp : authorizeParams r with
  | error e =>
    refine Or.inl ⟨?_, e, rfl⟩
    rintro ⟨secret, code, hvalid, -⟩
    cases hp.symm.trans (authorizeParams_eq_ok_iff.mpr ⟨secret, hvalid, rfl⟩)
  | ok p =>
    obtain ⟨secret, hvalid, rfl⟩ := authorizeParams_eq_ok_iff.mp hp
    cases hrandom : env.random with
    | none =>
      refine Or.inl ⟨?_, _, rfl⟩
      rintro ⟨secret, code, -, hcode, -⟩
      cases hrandom.symm.trans hcode
    | some code =>
      refine Or.inr ⟨secret, code, hvalid, rfl, ?_, rfl⟩
      constructor
      · rintro ⟨secret', code', hvalid', hcode', hrefused⟩
        -- the secret and the code of the request are the ones at hand
        obtain rfl := Option.some.inj (hvalid.client.2.symm.trans hvalid'.client.2)
        obtain rfl := Option.some.inj (hrandom.symm.trans hcode')
        exact hrefused
      · exact fun hrefused => ⟨secret, code, hvalid, hrandom, hrefused⟩

/-- A request leaves no trace exactly when it is not refused late, or when the code it has drawn
was stored already with the very entry it saves. -/
theorem authorize_leaves_no_trace_iff (env : AuthorizeEnv) (r : Request) (s : RAMStore) :
    LeavesNoTrace env r s ↔
      ¬ RefusedLate env r ∨ ∃ code, env.random = some code ∧ s.codes code = some (savedInfo env r) := by
  unfold LeavesNoTrace
  rcases authorizeHandler_cases env r s with ⟨hearly, e, heq⟩ | ⟨secret, code, hvalid, hrandom,
    hlate, heq⟩
  · rw [heq]
    refine iff_of_true ⟨fun _ _ => rfl, fun hne => absurd rfl (hne e)⟩ (Or.inl hearly)
  · rw [heq, hlate]
    rcases authorizeReply_cases env r secret code with ⟨hrefused, e, hreply⟩ | ⟨hgranted, hcarries⟩
    · rw [hreply]
      show ((∀ e', Reply.error e = .error e' → Function.update s.codes code _ = s.codes) ∧ _) ↔ _
      constructor
      · rintro ⟨hkeep, -⟩
        have hcode := congrFun (hkeep e rfl) code
        rw [Function.update_self] at hcode
        exact Or.inr ⟨code, hrandom, hcode.symm⟩
      · rintro (hnot | ⟨code', hcode', hstored⟩)
        · exact absurd hrefused hnot
        · obtain rfl := Option.some.inj (hrandom.symm.trans hcode')
          rw [← hstored]
          refine ⟨fun _ _ => Function.update_eq_self code s.codes, fun hne => absurd rfl (hne e)⟩
    · refine iff_of_true ⟨fun e he => ?_, fun _ => ⟨code, hcarries, rfl⟩⟩ (Or.inl hgranted)
      -- an answer that carries a code is no error
      rcases hcarries with hcode | ⟨location, hredirect, -⟩
      · cases hcode.symm.trans he
      · cases hredirect.symm.trans he

/-- The request of `client-alice` with the secret of `client-bob`. -/
def spoofedRequest : Request :=
  { aliceAuthorizeRequest with
    query := [("response_type", "code"), ("client_id", "client-alice"),
      ("redirect_uri", "https://client.internal/callback"),
      ("code_challenge", "E9Melhoa2OwvFrEMTJguCHaoeK1t8URWbuGJSstw-cM"),
      ("code_challenge_method", "S256"), ("client_secret", "bob-secure-secret-2026")] }

/-- It is refused, and its code is in the store. -/
theorem refused_authorization_stores_code :
    (authorizeHandler aliceAuthorizeEnv spoofedRequest RAMStore.empty).1 =
      .error ⟨"invalid_client: client authentication failed", 401⟩ ∧
    RAMStore.empty.codes aliceAuthCode = none ∧
    (authorizeHandler aliceAuthorizeEnv spoofedRequest RAMStore.empty).2.codes aliceAuthCode =
      some ⟨"E9Melhoa2OwvFrEMTJguCHaoeK1t8URWbuGJSstw-cM", "client-alice", seconds 1767225890⟩ := by
  refine ⟨rfl, rfl, ?_⟩
  decide

end Idp
end DarkServices
