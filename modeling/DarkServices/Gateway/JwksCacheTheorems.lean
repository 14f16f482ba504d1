import DarkServices.Gateway.AuthTheorems
import DarkServices.Lib.Transition

/-!
# Which keys the gateway trusts

Runs of `GetPublicKey`, each call with an answer of the JWKS endpoint of its own. `cacheAfter`
says what the cache is after any run: what the last good response has brought, and nothing of the
responses before. `keys_cache_sound` states what follows for the keys that the calls return.
-/

namespace DarkServices
namespace Gateway

open Lib

/-! ## The keys of a response -/

/-- The key of an entry on P-256 that decodes. -/
def JWKKey.publicKey (k : JWKKey) : Option PublicKey :=
  if k.kty = "EC" ∧ k.crv = "P-256" then (jwkToECDSA k.x k.y).toOption else none

/-- The key of the last such entry with the identifier. -/
def lastEntry (jwks : List JWKKey) (kid : String) : Option PublicKey :=
  ((jwks.filter fun k => k.kid == kid).filterMap JWKKey.publicKey).getLast?

theorem lastEntry_cons (k : JWKKey) (jwks : List JWKKey) (kid : String) :
    lastEntry (k :: jwks) kid =
      (lastEntry jwks kid).or (if k.kid = kid then k.publicKey else none) := by
  unfold lastEntry
  by_cases hkid : k.kid = kid
  · rw [List.filter_cons_of_pos (by simpa using hkid), if_pos hkid]
    cases hkey : k.publicKey with
    | none => rw [List.filterMap_cons_none hkey, Option.or_none]
    | some key => rw [List.filterMap_cons_some hkey, List.getLast?_cons, Option.or_some]
  · rw [List.filter_cons_of_neg (by simpa using hkid), if_neg hkid, Option.or_none]

/-- A later entry takes the place of an earlier one. -/
theorem newKeys_apply (jwks : List JWKKey) (keys : String → Option PublicKey) (kid : String) :
    newKeys jwks keys kid = (lastEntry jwks kid).or (keys kid) := by
  induction jwks generalizing keys with
  | nil => rfl
  | cons k jwks ih =>
    rw [lastEntry_cons, Option.or_assoc, newKeys]
    by_cases hcurve : k.kty = "EC" ∧ k.crv = "P-256"
    · rw [if_pos hcurve, JWKKey.publicKey, if_pos hcurve]
      cases jwkToECDSA k.x k.y with
      | error e =>
        show newKeys jwks keys kid = _
        rw [ih]
        congr 1
        split <;> rfl
      | ok key =>
        show newKeys jwks (Function.update keys k.kid (some key)) kid = _
        rw [ih]
        congr 1
        by_cases hkid : k.kid = kid
        · subst hkid
          rw [Function.update_self, if_pos rfl]
          rfl
        · rw [Function.update_of_ne (Ne.symm hkid), if_neg hkid]
          rfl
    · rw [if_neg hcurve, JWKKey.publicKey, if_neg hcurve, ih, ite_self]
      rfl

theorem newKeys_eq_lastEntry (jwks : List JWKKey) (kid : String) :
    newKeys jwks (fun _ => none) kid = lastEntry jwks kid := by
  rw [newKeys_apply, Option.or_none]

/-! ## Runs -/

/-- A call of `GetPublicKey`, with the answer that a request to the JWKS endpoint would get. -/
structure KeyCall where
  kid : String
  reply : JwksReply
  now : ℤ

/-- A call with its result, and the cache before and after it. -/
structure KeyEvent extends KeyCall where
  before : JWKSCache
  after : JWKSCache
  result : Except String PublicKey

/-- The calls one after another. -/
def answerCalls : JWKSCache → List KeyCall → List KeyEvent
  | _, [] => []
  | c, call :: calls =>
    let r := getPublicKey c call.reply call.now call.kid
    ⟨call, c, r.2, r.1⟩ :: answerCalls r.2 calls

/-- The call has asked the JWKS endpoint. -/
def KeyEvent.Attempted (e : KeyEvent) : Prop := NeedsFetch e.before e.now e.kid

instance (e : KeyEvent) : Decidable e.Attempted := inferInstanceAs (Decidable (_ ∨ _))

/-- The time and the keys of the response, when the call has got a good one. -/
def KeyEvent.fetched (e : KeyEvent) : Option (ℤ × List JWKKey) :=
  if e.Attempted then e.reply.keys.toOption.map fun jwks => (e.now, jwks) else none

theorem KeyEvent.fetched_of_error {e : KeyEvent} {err : String} (h : e.reply.keys = .error err) :
    e.fetched = none := by
  unfold fetched
  rw [h]
  exact ite_self none

theorem KeyEvent.fetched_of_ok {e : KeyEvent} {jwks : List JWKKey} (ha : e.Attempted)
    (h : e.reply.keys = .ok jwks) : e.fetched = some (e.now, jwks) := by
  unfold fetched
  rw [if_pos ha, h]
  rfl

/-- The latest good response. -/
def lastFetch (log : List KeyEvent) : Option (ℤ × List JWKKey) :=
  (log.filterMap KeyEvent.fetched).getLast?

/-- The cache that a run leaves behind: nothing of a response is left when the next good one
has come. -/
def cacheAfter (ttl : ℤ) (log : List KeyEvent) : JWKSCache :=
  (lastFetch log).elim (newJWKSCache ttl) fun f => ⟨newKeys f.2 fun _ => none, f.1, ttl⟩

theorem lastFetch_append (log log' : List KeyEvent) :
    lastFetch (log ++ log') = (lastFetch log').or (lastFetch log) := by
  unfold lastFetch
  rw [List.filterMap_append, List.getLast?_append]

theorem lastFetch_singleton (e : KeyEvent) : lastFetch [e] = e.fetched := by
  unfold lastFetch
  cases h : e.fetched with
  | none => rw [List.filterMap_cons_none h]; rfl
  | some f => rw [List.filterMap_cons_some h]; rfl

/-- A good response in a log comes from one of its calls. -/
theorem exists_of_lastFetch {log : List KeyEvent} {f : ℤ × List JWKKey}
    (h : lastFetch log = some f) : ∃ e ∈ log, e.fetched = some f :=
  List.mem_filterMap.mp (List.mem_of_getLast? h)

/-- What the keys returned to the callers are worth; `ttl` is the lifetime of the cache. -/
structure CallSound (ttl : ℤ) (before : List KeyEvent) (e : KeyEvent) : Prop where
  /-- A returned key is in the latest good response. It is returned later than `ttl` after this
  response only when the call has asked for a new one in vain. -/
  latest : ∀ key, e.result = .ok key →
    ∃ t jwks, lastFetch (before ++ [e]) = some (t, jwks) ∧ lastEntry jwks e.kid = some key ∧
      (0 ≤ ttl → ttl < e.now - t → e.Attempted ∧ ∃ err, e.reply.keys = .error err)
  /-- A response that is no good changes nothing. -/
  kept : e.Attempted → ∀ err, e.reply.keys = .error err → e.after = e.before
  /-- After a good response without the key, the key is returned only when a later one has it. -/
  revoked : ∀ earlier f later t jwks key, before = earlier ++ f :: later →
    f.fetched = some (t, jwks) → lastEntry jwks e.kid = none → e.result = .ok key →
    ∃ g ∈ later ++ [e], ∃ t' jwks', g.fetched = some (t', jwks') ∧ lastEntry jwks' e.kid = some key

section

variable {ttl : ℤ} {log : List KeyEvent} {call : KeyCall}

/-- The event of a call in a run. -/
def eventOf (ttl : ℤ) (log : List KeyEvent) (call : KeyCall) : KeyEvent :=
  ⟨call, cacheAfter ttl log, (getPublicKey (cacheAfter ttl log) call.reply call.now call.kid).2,
    (getPublicKey (cacheAfter ttl log) call.reply call.now call.kid).1⟩

theorem cacheAfter_ttl (ttl : ℤ) (log : List KeyEvent) : (cacheAfter ttl log).ttl = ttl := by
  unfold cacheAfter
  cases lastFetch log <;> rfl

/-- A key in the cache is the one of the latest good response. -/
theorem keys_cacheAfter {kid : String} {key : PublicKey}
    (h : (cacheAfter ttl log).keys kid = some key) :
    ∃ t jwks, lastFetch log = some (t, jwks) ∧ lastEntry jwks kid = some key ∧
      (cacheAfter ttl log).lastUpdate = t := by
  unfold cacheAfter at h ⊢
  cases hlast : lastFetch log with
  | none =>
    rw [hlast] at h
    cases h
  | some f =>
    obtain ⟨t, jwks⟩ := f
    rw [hlast] at h
    exact ⟨t, jwks, rfl, (newKeys_eq_lastEntry jwks kid).symm.trans h, rfl⟩

/-- The three ways of a call: it does not ask, it asks in vain, or it gets a good response. -/
theorem eventOf_cases (ttl : ℤ) (log : List KeyEvent) (call : KeyCall) :
    (¬ (eventOf ttl log call).Attempted ∧ (eventOf ttl log call).fetched = none ∧
      (eventOf ttl log call).after = cacheAfter ttl log ∧
      ∀ key, (eventOf ttl log call).result = .ok key →
        (cacheAfter ttl log).keys call.kid = some key) ∨
    ((eventOf ttl log call).Attempted ∧ (eventOf ttl log call).fetched = none ∧
      (∃ err, call.reply.keys = .error err) ∧
      (eventOf ttl log call).after = cacheAfter ttl log ∧
      ∀ key, (eventOf ttl log call).result = .ok key →
        (cacheAfter ttl log).keys call.kid = some key) ∨
    ((eventOf ttl log call).Attempted ∧ ∃ jwks, call.reply.keys = .ok jwks ∧
      (eventOf ttl log call).fetched = some (call.now, jwks) ∧
      (eventOf ttl log call).after = ⟨newKeys jwks fun _ => none, call.now, ttl⟩ ∧
      ∀ key, (eventOf ttl log call).result = .ok key → lastEntry jwks call.kid = some key) := by
  rcases getPublicKey_cases (cacheAfter ttl log) call.reply call.now call.kid with
    ⟨hfresh, key, hkey, heq⟩ | ⟨hneeds, err, hreply, heq⟩ | ⟨hneeds, jwks, hreply, heq⟩
  · refine Or.inl ⟨hfresh, if_neg hfresh, congrArg Prod.snd heq, fun key' h => ?_⟩
    have hresult : Except.ok key = Except.ok key' := (congrArg Prod.fst heq).symm.trans h
    cases hresult
    exact hkey
  · refine Or.inr (Or.inl ⟨hneeds, KeyEvent.fetched_of_error hreply, ⟨err, hreply⟩,
      congrArg Prod.snd heq, fun key' h => ?_⟩)
    exact orFail_eq_ok.mp ((congrArg Prod.fst heq).symm.trans h)
  · refine Or.inr (Or.inr ⟨hneeds, jwks, hreply, KeyEvent.fetched_of_ok hneeds hreply, ?_,
      fun key' h => ?_⟩)
    · have hafter := congrArg Prod.snd heq
      rw [cacheAfter_ttl] at hafter
      exact hafter
    · rw [← newKeys_eq_lastEntry]
      exact orFail_eq_ok.mp ((congrArg Prod.fst heq).symm.trans h)

theorem lastFetch_concat (log : List KeyEvent) (e : KeyEvent) :
    lastFetch (log ++ [e]) = e.fetched.or (lastFetch log) := by
  rw [lastFetch_append, lastFetch_singleton]

/-- A call leaves the cache of the longer run behind. -/
theorem eventOf_after (ttl : ℤ) (log : List KeyEvent) (call : KeyCall) :
    (eventOf ttl log call).after = cacheAfter ttl (log ++ [eventOf ttl log call]) := by
  have hnext := lastFetch_concat log (eventOf ttl log call)
  rcases eventOf_cases ttl log call with ⟨-, hnone, hafter, -⟩ | ⟨-, hnone, -, hafter, -⟩ |
    ⟨-, jwks, -, hsome, hafter, -⟩
  · rw [hafter, cacheAfter, cacheAfter, hnext, hnone, Option.none_or]
  · rw [hafter, cacheAfter, cacheAfter, hnext, hnone, Option.none_or]
  · rw [hafter, cacheAfter, hnext, hsome, Option.some_or]
    rfl

/-- One call returns a key of the latest good response. -/
theorem eventOf_latest {key : PublicKey} (h : (eventOf ttl log call).result = .ok key) :
    ∃ t jwks, lastFetch (log ++ [eventOf ttl log call]) = some (t, jwks) ∧
      lastEntry jwks call.kid = some key ∧
      (0 ≤ ttl → ttl < call.now - t →
        (eventOf ttl log call).Attempted ∧ ∃ err, call.reply.keys = .error err) := by
  have hnext := lastFetch_concat log (eventOf ttl log call)
  rcases eventOf_cases ttl log call with ⟨hfresh, hnone, -, hkey⟩ |
    ⟨hattempted, hnone, herror, -, hkey⟩ | ⟨-, jwks, -, hsome, -, hkey⟩
  · obtain ⟨t, jwks, hlast, hentry, htime⟩ := keys_cacheAfter (hkey key h)
    refine ⟨t, jwks, by rw [hnext, hnone, Option.none_or, hlast], hentry, fun _ hold => ?_⟩
    -- a call that does not ask finds the cache fresh
    have hfresh' : ¬ NeedsFetch (cacheAfter ttl log) call.now call.kid := hfresh
    rw [NeedsFetch, not_or, cacheAfter_ttl, htime] at hfresh'
    omega
  · obtain ⟨t, jwks, hlast, hentry, -⟩ := keys_cacheAfter (hkey key h)
    exact ⟨t, jwks, by rw [hnext, hnone, Option.none_or, hlast], hentry,
      fun _ _ => ⟨hattempted, herror⟩⟩
  · refine ⟨call.now, jwks, by rw [hnext, hsome, Option.some_or], hkey key h, fun hpos hold => ?_⟩
    omega

theorem callSound_eventOf (ttl : ℤ) (log : List KeyEvent) (call : KeyCall) :
    CallSound ttl log (eventOf ttl log call) where
  latest _ h := eventOf_latest h
  kept := by
    intro _ err herr
    rcases eventOf_cases ttl log call with ⟨-, -, hafter, -⟩ | ⟨-, -, -, hafter, -⟩ |
      ⟨-, jwks, hreply, -⟩
    · exact hafter
    · exact hafter
    · cases hreply.symm.trans herr
  revoked := by
    intro earlier f later t jwks key hlog hf hmissing hkey
    obtain ⟨t', jwks', hlast, hentry, -⟩ := eventOf_latest hkey
    have hsplit : log ++ [eventOf ttl log call] =
        (earlier ++ [f]) ++ (later ++ [eventOf ttl log call]) := by
      rw [hlog]
      simp
    rw [hsplit, lastFetch_append, lastFetch_concat earlier, hf] at hlast
    cases hlater : lastFetch (later ++ [eventOf ttl log call]) with
    | none =>
      -- then the response without the key is the latest one
      rw [hlater] at hlast
      obtain ⟨-, rfl⟩ : t = t' ∧ jwks = jwks' := by simpa using hlast
      cases hmissing.symm.trans hentry
    | some g =>
      rw [hlater, Option.some_or, Option.some.injEq] at hlast
      subst hlast
      obtain ⟨e, he, hfetched⟩ := exists_of_lastFetch hlater
      exact ⟨e, he, t', jwks', hfetched, hentry⟩

/-- The calls of a run that goes on from a log. -/
theorem explained_answerCalls (calls : List KeyCall) (hlog : Explained (CallSound ttl) log) :
    Explained (CallSound ttl) (log ++ answerCalls (cacheAfter ttl log) calls) := by
  induction calls generalizing log with
  | nil =>
    rw [answerCalls, List.append_nil]
    exact hlog
  | cons call calls ih =>
    have hnext := ih (hlog.concat (callSound_eventOf ttl log call))
    rw [← eventOf_after, List.append_assoc, List.singleton_append] at hnext
    exact hnext

theorem answerCalls_toKeyCall (c : JWKSCache) (calls : List KeyCall) :
    (answerCalls c calls).map KeyEvent.toKeyCall = calls := by
  induction calls generalizing c with
  | nil => rfl
  | cons call calls ih => rw [answerCalls, List.map_cons, ih]

end

/-- **The trusted keys.** In every run of calls on a new cache, with any responses and any readings
of the clock, every call is sound. -/
theorem keys_cache_sound (ttl : ℤ) (calls : List KeyCall) :
    (answerCalls (newJWKSCache ttl) calls).map KeyEvent.toKeyCall = calls ∧
      Explained (CallSound ttl) (answerCalls (newJWKSCache ttl) calls) :=
  ⟨answerCalls_toKeyCall _ calls, explained_answerCalls calls Explained.nil⟩

end Gateway
end DarkServices
