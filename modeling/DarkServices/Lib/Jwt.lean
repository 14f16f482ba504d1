import DarkServices.Lib.EarlyReturn
import DarkServices.Lib.Expiry
import DarkServices.Lib.Json

/-!
# JSON web tokens, with the token library as a parameter

`Jwt` is what the sources use of `golang-jwt`: the decoding of the three segments, the
verification of the signature and the validation of the time claims. `parseWithClaims` puts
them together with a key function, which sees the decoded token before anything is verified
and may change a state of its own.

`Jwt.Documented` holds what the documentation of the library says about the parts and the
results below rely on.
-/

namespace Lib

/-- A public key on the curve P-256, by its coordinates. -/
structure PublicKey where
  x : ℕ
  y : ℕ
deriving DecidableEq

/-- A key whose coordinates fit on 32 bytes, as those of every point of the curve do. -/
structure CurveKey extends PublicKey where
  x_lt : x < 256 ^ 32
  y_lt : y < 256 ^ 32

/-- The padding of a coordinate has room for its bytes. -/
theorem CurveKey.length_leftPad (key : CurveKey) :
    (leftPad 32 (bigBytes key.x)).length = 32 ∧ (leftPad 32 (bigBytes key.y)).length = 32 :=
  ⟨Lib.length_leftPad (length_bigBytes_le key.x_lt), Lib.length_leftPad (length_bigBytes_le key.y_lt)⟩

/-- A decoded token: its algorithm, its header and its claims. The numbers are the exact
values of the floating-point numbers the decoder gives. -/
structure Token where
  alg : String
  header : Members
  claims : Members

/-- `t.Method.(*jwt.SigningMethodECDSA)` succeeds. -/
def Token.isECDSA (t : Token) : Bool := t.alg == "ES256" || t.alg == "ES384" || t.alg == "ES512"

/-- The claims a token has by the standard, times in seconds. -/
structure RegisteredClaims where
  expiresAt : Option ℤ
  notBefore : Option ℤ
  issuedAt : Option ℤ
  id : String

/-- The parts of the token library. -/
structure Jwt where
  /-- Split the text and decode its three segments. -/
  decode : String → Except String Token
  /-- Verify the signature of the text under its algorithm. -/
  verify : String → Token → PublicKey → Except String Unit
  /-- Validate the times among the claims of a map. -/
  validateMap : Members → ℤ → Except String Unit
  /-- Validate the times among the claims of a structure. -/
  validateRegistered : RegisteredClaims → ℤ → Except String Unit
  /-- The error that wraps an error of the key function. -/
  unverifiable : String → String

namespace Jwt

open Json (lookup)

variable {lib : Jwt} {σ C : Type}

/-- `jwt.ParseWithClaims`: `read` fills the claims, `validate` validates them. -/
def parseWithClaims (lib : Jwt) (read : Members → Except String C)
    (validate : C → ℤ → Except String Unit) (now : ℤ) (tokenString : String)
    (keyFunc : Token → σ → Except String PublicKey × σ) (s : σ) : Except String (Token × C) × σ :=
  match (lib.decode tokenString >>= fun t => (read t.claims).map fun c => (t, c)) with
  | .error e => (.error e, s)
  | .ok (t, c) =>
    -- the key function sees a token that nobody has verified yet
    (do let key ← (keyFunc t s).1.mapError lib.unverifiable
        lib.verify tokenString t key
        validate c now
        .ok (t, c), (keyFunc t s).2)

/-- `jwt.Parse`: the claims are a map. -/
def parse (lib : Jwt) (now : ℤ) (tokenString : String)
    (keyFunc : Token → σ → Except String PublicKey × σ) (s : σ) : Except String Token × σ :=
  ((lib.parseWithClaims Except.ok lib.validateMap now tokenString keyFunc s).1.map Prod.fst,
    (lib.parseWithClaims Except.ok lib.validateMap now tokenString keyFunc s).2)

/-- What a successful parse has done. -/
theorem parseWithClaims_eq_ok {read : Members → Except String C}
    {validate : C → ℤ → Except String Unit} {now : ℤ} {text : String}
    {keyFunc : Token → σ → Except String PublicKey × σ} {s : σ} {t : Token} {c : C}
    (h : (lib.parseWithClaims read validate now text keyFunc s).1 = .ok (t, c)) :
    ∃ key, lib.decode text = .ok t ∧ read t.claims = .ok c ∧ (keyFunc t s).1 = .ok key ∧
      lib.verify text t key = .ok () ∧ validate c now = .ok () ∧
      (lib.parseWithClaims read validate now text keyFunc s).2 = (keyFunc t s).2 := by
  unfold parseWithClaims at h ⊢
  split at h
  · cases h
  · rename_i t' c' hdec
    obtain ⟨t₀, ht₀, hread⟩ := bind_eq_ok.mp hdec
    simp only [bind_eq_ok, mapError_eq_ok] at h
    obtain ⟨key, hkey, ⟨⟩, hverify, ⟨⟩, hvalid, heq⟩ := h
    rw [Except.ok.injEq, Prod.mk.injEq] at heq
    obtain ⟨rfl, rfl⟩ := heq
    cases hc : read t₀.claims with
    | error e => rw [hc] at hread; cases hread
    | ok c₀ =>
      rw [hc] at hread
      obtain ⟨rfl, rfl⟩ : t₀ = t' ∧ c₀ = c' := by simpa [Except.map] using hread
      exact ⟨key, ht₀, hc, hkey, hverify, hvalid, rfl⟩

/-- What a successful parse into a map has done. -/
theorem parse_eq_ok {now : ℤ} {text : String} {keyFunc : Token → σ → Except String PublicKey × σ}
    {s : σ} {t : Token} (h : (lib.parse now text keyFunc s).1 = .ok t) :
    ∃ key, lib.decode text = .ok t ∧ (keyFunc t s).1 = .ok key ∧
      lib.verify text t key = .ok () ∧ lib.validateMap t.claims now = .ok () ∧
      (lib.parse now text keyFunc s).2 = (keyFunc t s).2 := by
  unfold parse at h ⊢
  cases hp : (lib.parseWithClaims Except.ok lib.validateMap now text keyFunc s).1 with
  | error e => rw [hp] at h; cases h
  | ok p =>
    obtain ⟨t', c⟩ := p
    rw [hp] at h
    obtain rfl : t' = t := by simpa [Except.map] using h
    obtain ⟨key, hdec, hread, hkey, hverify, hvalid, hs⟩ := parseWithClaims_eq_ok hp
    cases hread
    exact ⟨key, hdec, hkey, hverify, hvalid, hs⟩

/-- What makes a parse succeed. -/
theorem parseWithClaims_of_verify {read : Members → Except String C}
    {validate : C → ℤ → Except String Unit} {now : ℤ} {text : String}
    {keyFunc : Token → σ → Except String PublicKey × σ} {s s' : σ} {t : Token} {c : C}
    {key : PublicKey} (hdec : lib.decode text = .ok t) (hread : read t.claims = .ok c)
    (hkey : keyFunc t s = (.ok key, s')) (hverify : lib.verify text t key = .ok ())
    (hvalid : validate c now = .ok ()) :
    lib.parseWithClaims read validate now text keyFunc s = (.ok (t, c), s') := by
  have hdecoded : (lib.decode text >>= fun t => (read t.claims).map fun c => (t, c)) =
      .ok (t, c) := by
    rw [hdec]
    show (read t.claims).map (fun c => (t, c)) = _
    rw [hread]
    rfl
  unfold parseWithClaims
  rw [hdecoded]
  simp only [hkey]
  show ((lib.verify text t key >>= fun _ => validate c now >>= fun _ => Except.ok (t, c)), s') = _
  rw [hverify]
  show ((validate c now >>= fun _ => Except.ok (t, c)), s') = _
  rw [hvalid]
  rfl

/-- What makes a parse into a map succeed. -/
theorem parse_of_verify {now : ℤ} {text : String}
    {keyFunc : Token → σ → Except String PublicKey × σ} {s s' : σ} {t : Token} {key : PublicKey}
    (hdec : lib.decode text = .ok t) (hkey : keyFunc t s = (.ok key, s'))
    (hverify : lib.verify text t key = .ok ()) (hvalid : lib.validateMap t.claims now = .ok ()) :
    lib.parse now text keyFunc s = (.ok t, s') := by
  unfold parse
  rw [parseWithClaims_of_verify hdec rfl hkey hverify hvalid]
  rfl

/-- The state after a parse: the key function has run on a token, or not at all. -/
theorem parse_state (lib : Jwt) (now : ℤ) (text : String)
    (keyFunc : Token → σ → Except String PublicKey × σ) (s : σ) :
    (lib.parse now text keyFunc s).2 = s ∨
      ∃ t, (lib.parse now text keyFunc s).2 = (keyFunc t s).2 := by
  unfold parse parseWithClaims
  split
  · exact Or.inl rfl
  · rename_i t c _
    exact Or.inr ⟨t, rfl⟩

/-! ## What the documentation says -/

/-- The expiry time of a map of claims, when it has one, is later than `now`. An expiry
time of zero counts as none. -/
def NotExpired (claims : Members) (now : ℤ) : Prop :=
  match lookup claims "exp" with
  | none => True
  | some (.num d) => d.coeff = 0 ∨ now < seconds d.floor
  | some _ => False

/-- The documented behaviour the results rely on. -/
structure Documented (lib : Jwt) : Prop where
  /-- A token has three segments, so the empty text is none. -/
  decode_empty : ∃ e, lib.decode "" = .error e
  /-- A token whose expiry time has come is refused. -/
  notExpired : ∀ claims now, lib.validateMap claims now = .ok () → NotExpired claims now

/-- The signer `signedString` has the private key of `key`: the text it gives for `t` decodes to
`t` again, and its signature verifies under the key. -/
structure Signs (lib : Jwt) (signedString : Token → Except String String) (key : PublicKey)
    (t : Token) : Prop where
  decode : ∀ text, signedString t = .ok text → lib.decode text = .ok t
  verify : ∀ text, signedString t = .ok text → lib.verify text t key = .ok ()

/-- The signer gives a text for `t`, which decodes to `t` and verifies under the key. -/
def Produces (lib : Jwt) (signedString : Token → Except String String) (key : PublicKey)
    (t : Token) : Prop :=
  ∃ text, signedString t = .ok text ∧ lib.decode text = .ok t ∧ lib.verify text t key = .ok ()

theorem Produces.signs {signedString : Token → Except String String} {key : PublicKey} {t : Token}
    (h : lib.Produces signedString key t) : lib.Signs signedString key t := by
  obtain ⟨text, htext, hdecode, hverify⟩ := h
  constructor
  · intro text' htext'
    cases htext.symm.trans htext'
    exact hdecode
  · intro text' htext'
    cases htext.symm.trans htext'
    exact hverify

/-- Claims that have not expired are valid when there is no time before which they are not. -/
def AcceptsUnexpired (lib : Jwt) : Prop :=
  ∀ claims now d, lookup claims "exp" = some (.num d) → now < seconds d.floor →
    lookup claims "nbf" = none → lib.validateMap claims now = .ok ()

/-- Claims without times are valid at any time; the time of issue is not looked at. -/
structure AcceptsUntimed (lib : Jwt) : Prop where
  map : ∀ claims now, lookup claims "exp" = none → lookup claims "nbf" = none →
    lib.validateMap claims now = .ok ()
  registered : ∀ claims : RegisteredClaims, ∀ now, claims.expiresAt = none →
    claims.notBefore = none → lib.validateRegistered claims now = .ok ()

/-! ## The library on a known set of tokens -/

/-- A token text with what it decodes to and the key its signature verifies under. -/
structure Signed where
  text : String
  token : Token
  key : PublicKey

/-- Check a time claim of a map: absent and zero count as none. -/
def checkDate (claims : Members) (name : String) (ok : ℤ → Bool) (msg : String) :
    Except String Unit :=
  match lookup claims name with
  | none => .ok ()
  | some (.num d) => failIf (d.coeff ≠ 0 ∧ ok (seconds d.floor) = false) msg
  | some _ => .error (name ++ " is invalid")

/-- The library as it behaves on the given tokens. No other text decodes. -/
def ofSigned (known : List Signed) : Jwt where
  decode text := orFail ((known.find? fun s => s.text == text).map Signed.token)
    "token is malformed: token contains an invalid number of segments"
  verify text _ key := failIf (¬ known.any fun s => s.text == text && s.key == key)
    "token signature is invalid: crypto/ecdsa: verification error"
  validateMap claims now := do
    checkDate claims "exp" (now < ·) "token has invalid claims: token is expired"
    checkDate claims "nbf" (· ≤ now) "token has invalid claims: token is not valid yet"
  validateRegistered c now := do
    failIf (c.expiresAt.any fun t => seconds t ≤ now) "token has invalid claims: token is expired"
    failIf (c.notBefore.any fun t => now < seconds t)
      "token has invalid claims: token is not valid yet"
  unverifiable e := "token is unverifiable: error while executing keyfunc: " ++ e

/-- The token with the text, when it comes first. -/
theorem find_head (s : Signed) (known : List Signed) :
    (s :: known).find? (fun s' => s'.text == s.text) = some s :=
  List.find?_cons_of_pos (beq_self_eq_true _)

/-- A token with another text is passed over. -/
theorem find_tail {s : Signed} {text : String} (h : s.text ≠ text) (known : List Signed) :
    (s :: known).find? (fun s' => s'.text == text) = known.find? fun s' => s'.text == text :=
  List.find?_cons_of_neg (by simpa using h)

/-- Each token is found by its text when no two have the same. -/
theorem find_of_pairwise {known : List Signed}
    (h : known.Pairwise fun s s' => s.text ≠ s'.text) {s : Signed} (hs : s ∈ known) :
    known.find? (fun s' => s'.text == s.text) = some s := by
  induction known with
  | nil => cases hs
  | cons s₀ known ih =>
    obtain ⟨hhead, htail⟩ := List.pairwise_cons.mp h
    rcases List.mem_cons.mp hs with rfl | hs
    · exact find_head s known
    · exact (find_tail (hhead s hs) known).trans (ih htail hs)

theorem ofSigned_decode_unknown {known : List Signed} {text : String}
    (h : known.find? (fun s => s.text == text) = none) :
    ∃ e, (ofSigned known).decode text = .error e := by
  refine ⟨"token is malformed: token contains an invalid number of segments", ?_⟩
  show orFail ((known.find? fun s => s.text == text).map Signed.token) _ = _
  rw [h]
  rfl

theorem ofSigned_documented {known : List Signed} (h : ∀ s ∈ known, s.text ≠ "") :
    (ofSigned known).Documented where
  decode_empty := by
    have hnone : (known.find? fun s => s.text == "") = none := by
      rw [List.find?_eq_none]
      intro s hs
      simpa using h s hs
    exact ofSigned_decode_unknown hnone
  notExpired := by
    intro claims now hok
    obtain ⟨⟨⟩, hexp, -⟩ := bind_eq_ok.mp hok
    unfold checkDate at hexp
    unfold NotExpired
    cases hl : lookup claims "exp" with
    | none => trivial
    | some j =>
      rw [hl] at hexp
      cases j with
      | num d =>
        rw [failIf_eq_ok] at hexp
        by_cases hzero : d.coeff = 0
        · exact Or.inl hzero
        · exact Or.inr (by simpa [hzero] using hexp)
      | _ => cases hexp

theorem checkDate_of_none {claims : Members} {name : String} (h : lookup claims name = none)
    (ok : ℤ → Bool) (msg : String) : checkDate claims name ok msg = .ok () := by
  rw [checkDate, h]

theorem ofSigned_acceptsUntimed (known : List Signed) : (ofSigned known).AcceptsUntimed where
  map claims now hexp hnbf := by
    show (checkDate claims "exp" _ _ >>= fun _ => checkDate claims "nbf" _ _) = _
    rw [checkDate_of_none hexp, checkDate_of_none hnbf]
    rfl
  registered claims now hexp hnbf := by
    show (failIf (claims.expiresAt.any _) _ >>= fun _ => failIf (claims.notBefore.any _) _) = _
    rw [hexp, hnbf]
    rfl

theorem ofSigned_acceptsUnexpired (known : List Signed) : (ofSigned known).AcceptsUnexpired := by
  intro claims now d hexp hlater hnbf
  show (checkDate claims "exp" _ _ >>= fun _ => checkDate claims "nbf" _ _) = _
  rw [checkDate, hexp, checkDate_of_none hnbf]
  show (failIf _ _ >>= fun _ => _) = _
  rw [failIf_bind_of_not (by simp [hlater])]

theorem ofSigned_decode {known : List Signed} {s : Signed}
    (h : known.find? (fun s' => s'.text == s.text) = some s) :
    (ofSigned known).decode s.text = .ok s.token := by
  show orFail ((known.find? fun s' => s'.text == s.text).map Signed.token) _ = _
  rw [h]
  rfl

theorem ofSigned_verify {known : List Signed} {s : Signed} (h : s ∈ known) (t : Token) :
    (ofSigned known).verify s.text t s.key = .ok () := by
  apply failIf_eq_ok.mpr
  rw [not_not, List.any_eq_true]
  exact ⟨s, h, by simp⟩

/-- A text of one token only decodes to this token and verifies under its key. -/
theorem eq_of_ofSigned {known : List Signed} {s : Signed} {text : String} {t : Token}
    {key : PublicKey} (honly : ∀ s' ∈ known, s'.text = text → s' = s)
    (hdec : (ofSigned known).decode text = .ok t)
    (hverify : (ofSigned known).verify text t key = .ok ()) : t = s.token ∧ key = s.key := by
  have hdecoded := orFail_eq_ok.mp hdec
  obtain ⟨s₁, hfind, rfl⟩ := Option.map_eq_some_iff.mp hdecoded
  have htext₁ := List.find?_some hfind
  have hs₁ := honly s₁ (List.mem_of_find?_eq_some hfind) (beq_iff_eq.mp htext₁)
  have hany := not_not.mp (failIf_eq_ok.mp hverify)
  obtain ⟨s₂, hmem, hs₂⟩ := List.any_eq_true.mp hany
  rw [Bool.and_eq_true, beq_iff_eq, beq_iff_eq] at hs₂
  have heq := honly s₂ hmem hs₂.1
  exact ⟨by rw [hs₁], by rw [← hs₂.2, heq]⟩

end Jwt
end Lib
