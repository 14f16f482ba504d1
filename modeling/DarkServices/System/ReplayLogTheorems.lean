import DarkServices.Gateway.Auth
import DarkServices.Idp.Store
import DarkServices.Lib.ReplayLog

/-!
# The two replay caches and their logs

The gateway's `JTICache` and the provider's `RAMStore` as implementations of `Lib.ReplayLog`,
each operation taken as one step. The sweeps of the provider visit its codes too.
-/

namespace DarkServices
namespace System

open Lib ReplayLog

/-- `IsJTIUsedAndSave` and the sweeps of the gateway. -/
def jtiCache : Cache Gateway.JTICache String String where
  check := Gateway.isJTIUsedAndSave
  visit := Gateway.cleanupVisit

/-- What a sweep of the provider visits. -/
inductive StoreVisit
  | code (code : String)
  | jti (jti : String)

/-- `IsJTIUsedAndSave` and the sweeps of the provider. -/
def ramStore : Cache Idp.RAMStore String StoreVisit where
  check := Idp.RAMStore.isJTIUsedAndSave
  visit s now
    | .code code => s.visitCode now code
    | .jti jti => s.visitJTI now jti

theorem jtiCache_views : jtiCache.Views id where
  check _ _ _ _ := ⟨rfl, rfl⟩
  visit _ _ jti := Or.inr ⟨jti, rfl⟩

theorem ramStore_views : ramStore.Views Idp.RAMStore.jtis where
  check _ _ _ _ := ⟨rfl, rfl⟩
  visit s now v := by
    cases v with
    | code code =>
      -- the identifiers are another map
      refine Or.inl ?_
      show (s.visitCode now code).jtis = s.jtis
      unfold Idp.RAMStore.visitCode
      split
      · rfl
      · split <;> rfl
    | jti jti => exact Or.inr ⟨jti, rfl⟩

/-- The answers of the gateway's cache, from the start of the process. -/
def gatewayAnswers (ops : List (Op String String)) : List (Entry String) :=
  jtiCache.run (fun _ => none) ops

/-- The answers of the provider's store, from the start of the process. -/
def providerAnswers (ops : List (Op String StoreVisit)) : List (Entry String) :=
  ramStore.run Idp.RAMStore.empty ops

/-- **The replay caches.** For any calls and sweeps in the order of the clock, a call is answered
with true exactly when the latest earlier call for the identifier that was answered with false
still covers it. The answers are the same for any other sweeps between the same calls. -/
theorem replay_caches_refine_log :
    (∀ ops, ops.Pairwise (fun a b => a.now ≤ b.now) →
      (gatewayAnswers ops).map Entry.toRequest = requests ops ∧
      Explained Specified (gatewayAnswers ops) ∧
      ∀ ops', ops'.Pairwise (fun a b => a.now ≤ b.now) → requests ops' = requests ops →
        gatewayAnswers ops' = gatewayAnswers ops) ∧
    ∀ ops, ops.Pairwise (fun a b => a.now ≤ b.now) →
      (providerAnswers ops).map Entry.toRequest = requests ops ∧
      Explained Specified (providerAnswers ops) ∧
      ∀ ops', ops'.Pairwise (fun a b => a.now ≤ b.now) → requests ops' = requests ops →
        providerAnswers ops' = providerAnswers ops :=
  ⟨fun _ htimes => jtiCache_views.refines_log rfl htimes,
    fun _ htimes => ramStore_views.refines_log rfl htimes⟩

/-- An identifier is checked, again at the instant at which it expires with a sweep before, and
once more. -/
def expiringOps {V : Type} (visits : List V) : List (Op String V) :=
  [.check "proof-1" 60 0, .check "proof-1" 60 59, .sweep 60 visits, .check "proof-1" 60 60,
    .sweep 61 visits, .check "proof-1" 60 61]

/-- The sweeps change none of the four answers. -/
theorem replay_caches_refine_log_expiring :
    gatewayAnswers (expiringOps []) = gatewayAnswers (expiringOps ["proof-1"]) ∧
      providerAnswers (expiringOps []) =
        providerAnswers (expiringOps [.jti "proof-1", .code "5f0c2f9e6f5b4b0a"]) ∧
      (gatewayAnswers (expiringOps ["proof-1"])).map Entry.used = [false, true, false, true] := by
  have htimes : ∀ (V : Type) (visits : List V),
      (expiringOps visits).Pairwise fun a b => a.now ≤ b.now := by
    intro V visits
    show [_, _, _, _, _, _].Pairwise _
    simp [Op.now]
  refine ⟨?_, ?_, rfl⟩
  · exact (replay_caches_refine_log.1 (expiringOps ["proof-1"]) (htimes _ _)).2.2 _ (htimes _ _) rfl
  · exact (replay_caches_refine_log.2 (expiringOps [.jti "proof-1", .code "5f0c2f9e6f5b4b0a"])
      (htimes _ _)).2.2 _ (htimes _ _) rfl

end System
end DarkServices
