import DarkServices.Audit.Schema

/-!
# The verify-chain route

`GET` of `dashboard/src/app/api/verify-chain/route.ts`: it reads all rows of `audit_logs` in
the order of their ids, as a role to which no policy applies, and compares the hashes of
neighbours.
-/

namespace DarkServices
namespace Dashboard

open Lib Audit

/-- An element of `steps`. -/
structure Step where
  blockId : ℕ
  action : String
  resource : String
  prevHash : String
  blockHash : String
  valid : Bool
  error : String

/-- `data` of a successful response. -/
structure Verification where
  isValid : Bool
  totalBlocks : ℕ
  steps : List Step

/-- The two forms of the response. -/
inductive Response
  | success (data : Verification)
  | error (message : String)

def expectedStartHash : String :=
  "0000000000000000000000000000000000000000000000000000000000000000"

/-- `stepValid` and `error` of one block: the first one is compared with the start hash, a
later one with the block before it. -/
def checkBlock (previous : Option AuditRow) (current : AuditRow) : Bool × String :=
  match previous with
  | none =>
    if current.prevHash ≠ expectedStartHash then
      (false, "Genesis block prev_hash is modified: " ++ current.prevHash)
    else (true, "")
  | some previous =>
    if Strings.jsTrim current.prevHash ≠ Strings.jsTrim previous.blockHash then
      (false, "Chain broken at Block #" ++ toString current.id ++
        ": prev_hash does not match previous block_hash.")
    else (true, "")

/-- The entry of `steps` for one block. -/
def step (previous : Option AuditRow) (current : AuditRow) : Step where
  blockId := current.id
  action := current.action
  resource := current.resource
  prevHash := current.prevHash
  blockHash := current.blockHash
  valid := (checkBlock previous current).1
  error := (checkBlock previous current).2

/-- The loop over the rows, with its two variables. -/
def loop : Option AuditRow → List AuditRow → Bool → List Step → Bool × List Step
  | _, [], isValid, steps => (isValid, steps)
  | previous, current :: rows, isValid, steps =>
    let s := step previous current
    loop (some current) rows (if s.valid then isValid else false) (steps ++ [s])

/-- The result for the rows of the query. -/
def verifyChain (rows : List AuditRow) : Verification :=
  let r := loop none rows true []
  ⟨r.1, rows.length, r.2⟩

/-- The route: `fail` is the message when the query fails. -/
def get (fail : Option String) (db : Db) : Response :=
  match fail with
  | some message => .error message
  | none => .success (verifyChain (orderById db.auditLogs))

end Dashboard
end DarkServices
