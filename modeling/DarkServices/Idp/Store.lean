import DarkServices.Lib.ReplayCache

/-!
# The store of the identity provider

`idp/store`: the authorization codes that have been issued and the proof identifiers that have
been used, both in memory. The operations are written twice: as one step each, the way a single
request runs them, and operation by operation over the concurrent map, for requests that run at
the same time (`redeemStep` for the codes, `ReplayCache.step` for the identifiers).
-/

namespace DarkServices
namespace Idp

open Lib

/-- `AuthCodeInfo`. -/
structure AuthCodeInfo where
  codeChallenge : String
  clientID : String
  expiresAt : ℤ
deriving DecidableEq

/-- `RAMStore`. -/
structure RAMStore where
  codes : String → Option AuthCodeInfo
  jtis : Expiry String

/-- The store as the process starts. -/
def RAMStore.empty : RAMStore := ⟨fun _ => none, fun _ => none⟩

/-- `SaveAuthCode`. -/
def RAMStore.saveAuthCode (s : RAMStore) (code challenge clientID : String) (ttl now : ℤ) :
    RAMStore :=
  { s with codes := Function.update s.codes code (some ⟨challenge, clientID, now + ttl⟩) }

/-- `GetAndRemoveAuthCode`: the code is gone even when it has expired. -/
def RAMStore.getAndRemoveAuthCode (s : RAMStore) (code : String) (now : ℤ) :
    Option (String × String) × RAMStore :=
  match s.codes code with
  | none => (none, s)
  | some info =>
    (if info.expiresAt < now then none else some (info.codeChallenge, info.clientID),
      { s with codes := Function.update s.codes code none })

/-- `IsJTIUsedAndSave`. -/
def RAMStore.isJTIUsedAndSave (s : RAMStore) (jti : String) (ttl now : ℤ) : Bool × RAMStore :=
  ((s.jtis.isUsedAndSave jti ttl now).1, { s with jtis := (s.jtis.isUsedAndSave jti ttl now).2 })

/-- `startCleanupTicker`: the visit of one code by a sweep that read the clock at `now`. -/
def RAMStore.visitCode (s : RAMStore) (now : ℤ) (code : String) : RAMStore :=
  match s.codes code with
  | none => s
  | some info =>
    if info.expiresAt < now then { s with codes := Function.update s.codes code none } else s

/-- `startCleanupTicker`: the visit of one identifier. -/
def RAMStore.visitJTI (s : RAMStore) (now : ℤ) (jti : String) : RAMStore :=
  { s with jtis := s.jtis.visit now jti }

/-! ## The codes, operation by operation -/

/-- Where a token request is: its call of `GetAndRemoveAuthCode` has loaded an entry, has deleted
it, or has returned, or the request has got its access token. -/
inductive RedeemPoint
  | start
  | loaded (info : AuthCodeInfo)
  | deleted (info : AuthCodeInfo)
  | done (result : Option (String × String))
  | issued
deriving DecidableEq

/-- The clock, the codes and the ones saved so far, the requests and the sweeps. -/
structure Redeem (ι κ : Type) where
  clock : ℤ
  codes : String → Option AuthCodeInfo
  saved : List String
  calls : ι → RedeemPoint
  sweeps : κ → ReplayCache.SweepPoint String

/-- One operation: the clock moves on, a code is saved, or a request or a sweep goes on. -/
inductive RedeemLabel (ι κ : Type)
  | tick (t : ℤ)
  | save (code : String) (info : AuthCodeInfo)
  | load (i : ι)
  | delete (i : ι)
  | finish (i : ι)
  | issue (i : ι)
  | sweep (n : κ)
  | visit (n : κ) (code : String)
  | remove (n : κ)

section

variable {ι κ : Type} [DecidableEq ι] [DecidableEq κ] (code : ι → String)

/-- One step of requests for the codes `code`. A new code is random and has not been saved before;
its expiry time may come from an earlier reading of the clock. A request whose call has returned a
code may get its token: the checks that are left are not looked at here. -/
def redeemStep (s : Redeem ι κ) : RedeemLabel ι κ → Option (Redeem ι κ)
  | .tick t => if s.clock ≤ t then some { s with clock := t } else none
  | .save c info =>
    if c ∈ s.saved then none
    else some { s with codes := Function.update s.codes c (some info), saved := c :: s.saved }
  | .load i =>
    match s.calls i with
    | .start =>
      match s.codes (code i) with
      | none => some { s with calls := Function.update s.calls i (.done none) }
      | some info => some { s with calls := Function.update s.calls i (.loaded info) }
    | _ => none
  | .delete i =>
    match s.calls i with
    | .loaded info => some { s with
        codes := Function.update s.codes (code i) none
        calls := Function.update s.calls i (.deleted info) }
    | _ => none
  | .finish i =>
    match s.calls i with
    | .deleted info =>
      if info.expiresAt < s.clock then
        some { s with calls := Function.update s.calls i (.done none) }
      else some { s with
        calls := Function.update s.calls i (.done (some (info.codeChallenge, info.clientID))) }
    | _ => none
  | .issue i =>
    match s.calls i with
    | .done (some _) => some { s with calls := Function.update s.calls i .issued }
    | _ => none
  | .sweep n =>
    match s.sweeps n with
    | .deleting _ _ => none
    | _ => some { s with sweeps := Function.update s.sweeps n (.visiting s.clock) }
  | .visit n c =>
    match s.sweeps n with
    | .visiting now =>
      match s.codes c with
      | none => some s
      | some info =>
        if info.expiresAt < now then
          some { s with sweeps := Function.update s.sweeps n (.deleting now c) }
        else some s
    | _ => none
  | .remove n =>
    match s.sweeps n with
    | .deleting now c => some { s with
        codes := Function.update s.codes c none
        sweeps := Function.update s.sweeps n (.visiting now) }
    | _ => none

/-- Any number of requests, savings and sweeps on an empty store. -/
def redeemSystem : LTS (Redeem ι κ) (RedeemLabel ι κ) :=
  LTS.ofStep (fun s => (s.codes = fun _ => none) ∧ s.saved = [] ∧ (∀ i, s.calls i = .start) ∧
    ∀ n, s.sweeps n = .waiting) (redeemStep code)

end

/-! ## The proof identifiers, operation by operation -/

/-- `IsJTIUsedAndSave` and the sweeps of `startCleanupTicker`, for any number of calls. -/
def ramStoreSystem {ι κ : Type} [DecidableEq ι] [DecidableEq κ]
    (call : ι → ReplayCache.Call String) :
    LTS (ReplayCache.State ι κ String) (ReplayCache.Label ι κ String) :=
  ReplayCache.system call

end Idp
end DarkServices
