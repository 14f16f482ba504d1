import DarkServices.Gateway.JwksCacheTheorems
import DarkServices.Lib.RWMutex
import Mathlib.Data.Fintype.Card

/-!
# The keys under concurrent requests

`GetPublicKey` takes the lock of the cache up to three times, and `FetchKeys` keeps it while it
asks the identity provider. Here they are programs of single reads and writes, and any number of
requests run them in any order. A key that is returned was in the latest good response at one
moment of the call, and every run ends with all calls returned.
-/

namespace DarkServices
namespace Gateway

open Lib

/-! ## Reads and writes -/

/-- A read or a write of the cache, or the request to the JWKS endpoint. -/
inductive KeysOp
  | loadKey (kid : String)
  | loadAge
  | get
  | storeKeys (keys : String → Option PublicKey)
  | storeLastUpdate

abbrev KeysReply : KeysOp → Type
  | .loadKey _ => Option PublicKey
  | .loadAge => ℤ
  | .get => JwksReply
  | _ => Unit

/-- What comes from outside: the answer of the endpoint, and the reading of the clock. -/
structure KeysChoice where
  reply : JwksReply
  now : ℤ

instance : Inhabited KeysChoice := ⟨⟨.error "", 0⟩⟩

/-- The meaning of the reads and writes. -/
def keysAcc : (o : KeysOp) → KeysChoice → JWKSCache → KeysReply o × JWKSCache
  | .loadKey kid, _, c => (c.keys kid, c)
  | .loadAge, choice, c => (choice.now - c.lastUpdate, c)
  | .get, choice, c => (choice.reply, c)
  | .storeKeys keys, _, c => ((), { c with keys := keys })
  | .storeLastUpdate, choice, c => ((), { c with lastUpdate := choice.now })

/-! ## The functions -/

/-- The three parts of the functions that hold the lock: the first lookup of `GetPublicKey`,
`FetchKeys`, and the lookup after it. -/
inductive KeysSection
  | lookup (kid : String)
  | fetchKeys
  | find (kid : String)

abbrev KeysResult : KeysSection → Type
  | .lookup _ => Option PublicKey × ℤ
  | .fetchKeys => Except String Unit
  | .find _ => Option PublicKey

/-- `FetchKeys` under the lock. -/
def fetchKeysBody : Prog KeysOp KeysReply (Except String Unit) :=
  .op .get fun reply =>
    match reply.keys with
    | .error e => .ret (.error e)
    | .ok jwks =>
      .op (.storeKeys (newKeys jwks fun _ => none)) fun _ =>
      .op .storeLastUpdate fun _ => .ret (.ok ())

/-- `c.mutex` is taken for writing by `FetchKeys`. -/
def keysSections : Sections KeysOp KeysReply KeysSection KeysResult where
  writes
    | .fetchKeys => true
    | _ => false
  body
    | .lookup kid => .op (.loadKey kid) fun key => .op .loadAge fun age => .ret (key, age)
    | .fetchKeys => fetchKeysBody
    | .find kid => .op (.loadKey kid) .ret

/-- The second lookup of `GetPublicKey` and its return. -/
def findKey (kid : String) : Prog KeysSection KeysResult (Except String PublicKey) :=
  .op (.find kid) fun key => .ret (orFail key ("key ID '" ++ kid ++ "' not found in JWKS"))

/-- `GetPublicKey` of a cache with the lifetime `ttl`. -/
def getPublicKeyCall (ttl : ℤ) (kid : String) :
    Prog KeysSection KeysResult (Except String PublicKey) :=
  .op (.lookup kid) fun found =>
    match found.1 with
    | some key =>
      if found.2 < ttl then .ret (.ok key)
      else
        .op .fetchKeys fun r =>
          match r with
          | .error _ => .ret (.ok key)
          | .ok _ => findKey kid
    | none =>
      .op .fetchKeys fun r =>
        match r with
        | .error e => .ret (.error ("failed to fetch JWKS: " ++ e))
        | .ok _ => findKey kid

section System

variable {ι : Type} [DecidableEq ι]

/-- The states of a family of calls. -/
abbrev KeysStates (ι : Type) :=
  Threads (Guarded ι JWKSCache) ι (LockOp KeysOp) (LockReply KeysReply) (Except String PublicKey)

/-- A new cache, and no call has begun. -/
def startKeys (ttl : ℤ) (kids : ι → String) : KeysStates ι :=
  RWMutex.start keysSections (newJWKSCache ttl) fun i => getPublicKeyCall ttl (kids i)

/-- Concurrent calls of `GetPublicKey`, read by read and write by write. -/
def keysSystem (ttl : ℤ) (kids : ι → String) : LTS (KeysStates ι) (ι × KeysChoice) :=
  RWMutex.system keysAcc keysSections (newJWKSCache ttl) fun i => getPublicKeyCall ttl (kids i)

end System

/-! ## One call alone -/

section Alone

variable (c : JWKSCache) (reply : JwksReply) (now : ℤ)

/-- A part of the functions under a fixed answer and a fixed clock. -/
def runSection (sec : KeysSection) (c : JWKSCache) : KeysResult sec × JWKSCache :=
  Prog.exec (fun o => keysAcc o ⟨reply, now⟩) (keysSections.body sec) c

theorem runSection_fetchKeys : runSection reply now .fetchKeys c = fetchKeys c reply now := by
  show Prog.exec _ (match reply.keys with | .error e => _ | .ok jwks => _) c = _
  rw [fetchKeys]
  cases reply.keys with
  | error e => rfl
  | ok jwks => rfl

/-- It is the sequential `GetPublicKey`. -/
theorem exec_getPublicKeyCall (kid : String) :
    Prog.exec (runSection reply now) (getPublicKeyCall c.ttl kid) c =
      getPublicKey c reply now kid := by
  have hfetch := runSection_fetchKeys c reply now
  show Prog.exec _ (match c.keys kid with | some key => _ | none => _) c = _
  rw [getPublicKey]
  cases c.keys kid with
  | some key =>
    show Prog.exec _ (if now - c.lastUpdate < c.ttl then _ else _) c = _
    simp only
    split
    · rfl
    · rw [Prog.exec_op, hfetch]
      rcases fetchKeys c reply now with ⟨e | u, c'⟩ <;> rfl
  | none =>
    simp only
    rw [Prog.exec_op, hfetch]
    rcases fetchKeys c reply now with ⟨e | u, c'⟩ <;> rfl

end Alone

/-! ## The parts of the functions -/

section Parts

variable {ι : Type} {i : ι} {c c' : JWKSCache} {cs : List KeysChoice} {kid : String}

theorem sectionSem_lookup {found : Option PublicKey × ℤ}
    (h : RWMutex.sectionSem keysAcc keysSections c i (.lookup kid) cs = some (found, c')) :
    ∃ first clock, cs = [first, clock] ∧ found = (c.keys kid, clock.now - c.lastUpdate) ∧
      c' = c := by
  obtain ⟨first, _, rfl, h₁⟩ := RWMutex.advance_op (RWMutex.sectionSem_eq_some h)
  obtain ⟨clock, _, rfl, h₂⟩ := RWMutex.advance_op h₁
  obtain ⟨rfl, hfound, hc⟩ := RWMutex.advance_ret h₂
  exact ⟨first, clock, rfl, hfound, hc⟩

theorem sectionSem_find {key : Option PublicKey}
    (h : RWMutex.sectionSem keysAcc keysSections c i (.find kid) cs = some (key, c')) :
    key = c.keys kid ∧ c' = c := by
  obtain ⟨first, _, rfl, h₁⟩ := RWMutex.advance_op (RWMutex.sectionSem_eq_some h)
  obtain ⟨-, hkey, hc⟩ := RWMutex.advance_ret h₁
  exact ⟨hkey, hc⟩

/-- A request fails and leaves the cache, or brings the keys of a good response. -/
theorem sectionSem_fetchKeys {r : Except String Unit}
    (h : RWMutex.sectionSem keysAcc keysSections c i .fetchKeys cs = some (r, c')) :
    (∃ get e, cs = [get] ∧ r = .error e ∧ c' = c) ∨
      ∃ get store clock jwks, cs = [get, store, clock] ∧ get.reply.keys = .ok jwks ∧ r = .ok () ∧
        c' = ⟨newKeys jwks fun _ => none, clock.now, c.ttl⟩ := by
  obtain ⟨get, rest, rfl, h₁⟩ := RWMutex.advance_op (RWMutex.sectionSem_eq_some h)
  change RWMutex.advance keysAcc rest (match get.reply.keys with | .error e => _ | .ok jwks => _)
    c = _ at h₁
  cases hkeys : get.reply.keys with
  | error e =>
    rw [hkeys] at h₁
    obtain ⟨rfl, hr, hc⟩ := RWMutex.advance_ret h₁
    exact Or.inl ⟨get, e, rfl, hr, hc⟩
  | ok jwks =>
    rw [hkeys] at h₁
    obtain ⟨store, _, rfl, h₂⟩ := RWMutex.advance_op h₁
    obtain ⟨clock, _, rfl, h₃⟩ := RWMutex.advance_op h₂
    obtain ⟨rfl, hr, hc⟩ := RWMutex.advance_ret h₃
    exact Or.inr ⟨get, store, clock, jwks, rfl, hkeys, hr, hc⟩

end Parts

/-! ## The cache in a run -/

section Runs

variable {ι : Type}

/-- A finished part of one of the calls. -/
abbrev KeysEntry (ι : Type) := Threads.Entry ι (List KeysChoice) KeysSection KeysResult

/-- The good responses of a log, each with the time that was noted. -/
def responsesIn (log : List (KeysEntry ι)) : List (ℤ × List JWKKey) :=
  log.filterMap fun e =>
    match e.op, e.choice with
    | .fetchKeys, [get, _, clock] => get.reply.keys.toOption.map fun jwks => (clock.now, jwks)
    | _, _ => none

/-- What the latest good response has brought. -/
def cacheIn (ttl : ℤ) (log : List (KeysEntry ι)) : JWKSCache :=
  (responsesIn log).getLast?.elim (newJWKSCache ttl) fun f =>
    ⟨newKeys f.2 fun _ => none, f.1, ttl⟩

theorem cacheIn_ttl (ttl : ℤ) (log : List (KeysEntry ι)) : (cacheIn ttl log).ttl = ttl := by
  unfold cacheIn
  cases (responsesIn log).getLast? <;> rfl

/-- A key in the cache is the one of the latest good response. -/
theorem keys_cacheIn {ttl : ℤ} {log : List (KeysEntry ι)} {kid : String} {key : PublicKey}
    (h : (cacheIn ttl log).keys kid = some key) :
    ∃ t jwks, (responsesIn log).getLast? = some (t, jwks) ∧ lastEntry jwks kid = some key ∧
      (cacheIn ttl log).lastUpdate = t := by
  unfold cacheIn at h ⊢
  cases hlast : (responsesIn log).getLast? with
  | none =>
    rw [hlast] at h
    cases h
  | some f =>
    rw [hlast] at h
    exact ⟨f.1, f.2, rfl, (newKeys_eq_lastEntry f.2 kid).symm.trans h, rfl⟩

/-- An entry that brings no response leaves the cache. -/
theorem cacheIn_concat_of_none {ttl : ℤ} {log : List (KeysEntry ι)} {e : KeysEntry ι}
    (h : responsesIn [e] = []) : cacheIn ttl (log ++ [e]) = cacheIn ttl log := by
  have happend : responsesIn (log ++ [e]) = responsesIn log ++ responsesIn [e] :=
    List.filterMap_append
  rw [cacheIn, happend, h, List.append_nil, cacheIn]

/-- **The cache.** It is what the latest good response has brought. -/
theorem logged_keys {ttl : ℤ} {log : List (KeysEntry ι)} {c : JWKSCache}
    (h : Threads.Logged (RWMutex.sectionSem keysAcc keysSections) (newJWKSCache ttl) log c) :
    c = cacheIn ttl log := by
  induction h with
  | nil => rfl
  | @concat log c c' i sec cs r _ hsem ih =>
    cases sec with
    | lookup kid =>
      obtain ⟨first, clock, rfl, -, rfl⟩ := sectionSem_lookup hsem
      rw [cacheIn_concat_of_none rfl]
      exact ih
    | find kid =>
      obtain ⟨-, rfl⟩ := sectionSem_find hsem
      rw [cacheIn_concat_of_none rfl]
      exact ih
    | fetchKeys =>
      obtain ⟨get, e, rfl, -, rfl⟩ | ⟨get, store, clock, jwks, rfl, hkeys, -, rfl⟩ :=
        sectionSem_fetchKeys hsem
      · rw [cacheIn_concat_of_none rfl]
        exact ih
      · have hresponse : responsesIn (log ++ [⟨i, [get, store, clock], .fetchKeys, r⟩]) =
            responsesIn log ++ [(clock.now, jwks)] := by
          rw [responsesIn, List.filterMap_append, responsesIn]
          simp [hkeys, Except.toOption]
        rw [cacheIn, hresponse, List.getLast?_concat, ih, cacheIn_ttl]
        rfl

end Runs

/-! ## The answers -/

section Answers

variable {ι : Type} [DecidableEq ι] {ttl : ℤ} {kid : String} {i : ι}

/-- What the answer of call `i` is worth. A key was in the latest good response at a moment of the
call: while that was younger than the lifetime, before a request of the call that failed, or after
one that did not fail. An error means that the cache had no such key at a moment of the call, and
that the call has asked. -/
def AnsweredIn (ttl : ℤ) (kid : String) (i : ι) (log : List (KeysEntry ι)) :
    Except String PublicKey → Prop
  | .ok key => ∃ before e after t jwks, log = before ++ e :: after ∧ e.thread = i ∧
      (responsesIn before).getLast? = some (t, jwks) ∧ lastEntry jwks kid = some key ∧
      ((∃ first clock, e.choice = [first, clock] ∧ clock.now - t < ttl) ∨
        (∃ err, ⟨.fetchKeys, .error err⟩ ∈ Threads.own i after) ∨
        ⟨.fetchKeys, .ok ()⟩ ∈ Threads.own i before)
  | .error _ => ∃ before e after, log = before ++ e :: after ∧ e.thread = i ∧
      (cacheIn ttl before).keys kid = none ∧
      ((∃ err, ⟨.fetchKeys, .error err⟩ ∈ Threads.own i after) ∨
        ⟨.fetchKeys, .ok ()⟩ ∈ Threads.own i before)

variable {log before after : List (KeysEntry ι)} {e : KeysEntry ι} {c : JWKSCache}
  {r : Except String PublicKey}

omit [DecidableEq ι] in
/-- Every entry is made in the cache of the entries before it. -/
theorem entry_in_cache
    (h : Threads.Logged (RWMutex.sectionSem keysAcc keysSections) (newJWKSCache ttl) log c)
    (hlog : log = before ++ e :: after) :
    ∃ c', RWMutex.sectionSem keysAcc keysSections (cacheIn ttl before) e.thread e.op e.choice =
      some (e.reply, c') := by
  obtain ⟨c₁, c₂, hbefore, hsem⟩ := h.explained before e after hlog
  rw [logged_keys hbefore] at hsem
  exact ⟨c₂, hsem⟩

/-- The second lookup, after a request that has not failed. -/
theorem answeredIn_find
    (h : Threads.Logged (RWMutex.sectionSem keysAcc keysSections) (newJWKSCache ttl) log c)
    (hlog : log = before ++ e :: after) {es : List ((sec : KeysSection) × KeysResult sec)}
    (hown : Threads.own i after = ⟨.fetchKeys, .ok ()⟩ :: es)
    (htook : (findKey kid).Took es (.ret r)) : AnsweredIn ttl kid i log r := by
  obtain ⟨-, hq⟩ | ⟨found, es', rfl, hrest⟩ := htook.of_op
  · cases hq
  obtain ⟨rfl, hr⟩ := hrest.of_ret
  cases hr
  obtain ⟨b₁, fetched, a₁, rfl, ha₁⟩ := Threads.own_eq_cons hown
  obtain ⟨b₂, found', a₂, rfl, -⟩ := Threads.own_eq_cons ha₁
  -- the moment is that of the second lookup
  have hsplit : log = (before ++ e :: b₁ ++ ⟨i, fetched, .fetchKeys, .ok ()⟩ :: b₂) ++
      ⟨i, found', .find kid, found⟩ :: a₂ := by
    rw [hlog]
    simp
  obtain ⟨c', hsem⟩ := entry_in_cache h hsplit
  obtain ⟨hfound, -⟩ := sectionSem_find hsem
  have hmem : (⟨i, fetched, .fetchKeys, .ok ()⟩ : KeysEntry ι) ∈
      before ++ e :: b₁ ++ ⟨i, fetched, .fetchKeys, .ok ()⟩ :: b₂ := by simp
  have hasked := Threads.mem_own hmem
  cases found with
  | none => exact ⟨_, _, _, hsplit, rfl, hfound.symm, Or.inr hasked⟩
  | some key =>
    obtain ⟨t, jwks, hlast, hentry, -⟩ := keys_cacheIn hfound.symm
    exact ⟨_, _, _, t, jwks, hsplit, rfl, hlast, hentry, Or.inr (Or.inr hasked)⟩

/-- A request of a call fails or not. -/
theorem took_fetchKeys {k : Except String Unit → Prog KeysSection KeysResult (Except String PublicKey)}
    {es : List ((sec : KeysSection) × KeysResult sec)}
    (h : (Prog.op KeysSection.fetchKeys k).Took es (.ret r)) :
    (∃ err es', es = ⟨.fetchKeys, .error err⟩ :: es' ∧ (k (.error err)).Took es' (.ret r)) ∨
      ∃ es', es = ⟨.fetchKeys, .ok ()⟩ :: es' ∧ (k (.ok ())).Took es' (.ret r) := by
  obtain ⟨-, hq⟩ | ⟨fetched, es', rfl, hnext⟩ := h.of_op
  · cases hq
  cases fetched with
  | error err => exact Or.inl ⟨err, es', rfl, hnext⟩
  | ok u => exact Or.inr ⟨es', rfl, hnext⟩

/-- The answer of a call, from its part in a log. -/
theorem answeredIn_of_took
    (h : Threads.Logged (RWMutex.sectionSem keysAcc keysSections) (newJWKSCache ttl) log c)
    (htook : (getPublicKeyCall ttl kid).Took (Threads.own i log) (.ret r)) :
    AnsweredIn ttl kid i log r := by
  obtain ⟨-, hq⟩ | ⟨found, es, hown, hrest⟩ := htook.of_op
  · cases hq
  obtain ⟨before, choice, after, hlog, hafter⟩ := Threads.own_eq_cons hown
  obtain ⟨c', hsem⟩ := entry_in_cache h hlog
  obtain ⟨first, clock, hchoice, hfound, -⟩ := sectionSem_lookup hsem
  obtain ⟨hkey, hage⟩ := Prod.mk.inj hfound
  cases hsome : found.1 with
  | some key =>
    simp only [hsome] at hrest
    obtain ⟨t, jwks, hlast, hentry, htime⟩ := keys_cacheIn (hkey.symm.trans hsome)
    have hmoment : ((∃ first clock, choice = [first, clock] ∧ clock.now - t < ttl) ∨
        (∃ err, ⟨.fetchKeys, .error err⟩ ∈ Threads.own i after) ∨
        ⟨.fetchKeys, .ok ()⟩ ∈ Threads.own i before) → AnsweredIn ttl kid i log (.ok key) :=
      fun hworth => ⟨before, _, after, t, jwks, hlog, rfl, hlast, hentry, hworth⟩
    split at hrest
    · rename_i hfresh
      obtain ⟨-, hr⟩ := hrest.of_ret
      cases hr
      rw [hage, htime] at hfresh
      exact hmoment (Or.inl ⟨first, clock, hchoice, hfresh⟩)
    · obtain ⟨err, es', rfl, hret⟩ | ⟨es', rfl, hfind⟩ := took_fetchKeys hrest
      · obtain ⟨-, hr⟩ := hret.of_ret
        cases hr
        refine hmoment (Or.inr (Or.inl ⟨err, ?_⟩))
        rw [hafter]
        exact List.mem_cons_self
      · exact answeredIn_find h hlog hafter hfind
  | none =>
    simp only [hsome] at hrest
    obtain ⟨err, es', rfl, hret⟩ | ⟨es', rfl, hfind⟩ := took_fetchKeys hrest
    · obtain ⟨-, hr⟩ := hret.of_ret
      cases hr
      refine ⟨before, _, after, hlog, rfl, hkey.symm.trans hsome, Or.inl ⟨err, ?_⟩⟩
      rw [hafter]
      exact List.mem_cons_self
    · exact answeredIn_find h hlog hafter hfind

end Answers

/-! ## Runs -/

theorem disciplined_keys : RWMutex.Disciplined keysAcc keysSections := by
  intro sec hsec
  cases sec with
  | lookup kid => exact ⟨fun _ _ => rfl, fun _ => ⟨fun _ _ => rfl, fun _ => trivial⟩⟩
  | fetchKeys => cases hsec
  | find kid => exact ⟨fun _ _ => rfl, fun _ => trivial⟩

theorem within_keysSections (sec : KeysSection) : Prog.Within 3 (keysSections.body sec) := by
  cases sec with
  | lookup kid => exact fun _ _ => trivial
  | find kid => exact fun _ => trivial
  | fetchKeys =>
    intro reply
    show Prog.Within 2 (match reply.keys with | .error e => _ | .ok jwks => _)
    cases reply.keys with
    | error e => exact trivial
    | ok jwks => exact fun _ _ => trivial

theorem within_getPublicKeyCall (ttl : ℤ) (kid : String) :
    Prog.Within 3 (getPublicKeyCall ttl kid) := by
  have hfind : Prog.Within 1 (findKey kid) := fun _ => trivial
  rintro ⟨key | key, age⟩
  · rintro (e | u)
    · exact trivial
    · exact hfind
  · show Prog.Within 2 (if age < ttl then _ else _)
    split
    · exact trivial
    · rintro (e | u)
      · exact trivial
      · exact hfind

/-- A response with one key. -/
def oneKeyReply : JwksReply :=
  .ok (200, .ok (.obj [("keys", .arr [.obj [("kty", .str "EC"), ("crv", .str "P-256"),
    ("x", .str "AQ"), ("y", .str "Ag"), ("kid", .str "k")]])]))

end Gateway
end DarkServices
