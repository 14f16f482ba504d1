import DarkServices.Audit.HonestLedger
import DarkServices.Dashboard.VerifyChain

/-!
# The verifier and the ledger

* `accepts_iff_linked`: the route accepts rows exactly when they are linked in the order of
  their ids, all tenants together;
* `Grown`: how a serial run makes the ledger grow, each row linked to the last row of its
  own tenant;
* `verifyChain_accepts_iff`: so an honest ledger is accepted exactly when all of its calls
  are of one tenant, hash collisions apart;
* `verifyChain_content_blind`: the route reads the links of a ledger and not its contents, so
  it detects no edit of the contents.
-/

namespace DarkServices
namespace Dashboard

open Lib Audit

variable {pg : Pg} {client : DBClient}

/-! ## What the loop computes -/

/-- The route accepts the rows: the result is valid, and so is every step. -/
def Accepts (rows : List AuditRow) : Prop :=
  (verifyChain rows).isValid = true ∧ ∀ s ∈ (verifyChain rows).steps, s.valid = true

instance (rows : List AuditRow) : Decidable (Accepts rows) :=
  inferInstanceAs (Decidable (_ ∧ _))

/-- The rows pass their checks one after another. -/
def AllValid : Option AuditRow → List AuditRow → Prop
  | _, [] => True
  | previous, current :: rows =>
    (checkBlock previous current).1 = true ∧ AllValid (some current) rows

theorem loop_accepts (previous : Option AuditRow) (rows : List AuditRow) (isValid : Bool)
    (steps : List Step) :
    ((loop previous rows isValid steps).1 = true ∧
        ∀ s ∈ (loop previous rows isValid steps).2, s.valid = true) ↔
      (isValid = true ∧ (∀ s ∈ steps, s.valid = true)) ∧ AllValid previous rows := by
  induction rows generalizing previous isValid steps with
  | nil => simp [loop, AllValid]
  | cons current rows ih =>
    rw [loop, ih, AllValid]
    have hvalid : (step previous current).valid = (checkBlock previous current).1 := rfl
    simp only [List.mem_append, List.mem_singleton, or_imp, forall_and, forall_eq, hvalid]
    cases (checkBlock previous current).1 <;> simp

/-- Hexadecimal digits in either case are no white space. -/
theorem jsTrim_of_hex {s : String} (h : ∀ c ∈ s.toList, c ∈ "0123456789abcdefABCDEF".toList) :
    Strings.jsTrim s = s.toList := by
  apply Strings.jsTrim_eq
  intro c hc
  have hdigits : "0123456789abcdefABCDEF".toList.all (fun c => !Strings.isJsSpace c) = true := by
    decide
  simpa using List.all_eq_true.mp hdigits c (h c hc)

theorem jsTrim_of_isHash {s : String} (h : IsHash s) : Strings.jsTrim s = s.toList := by
  have hlower : "0123456789abcdefABCDEF".toList =
      "0123456789abcdef".toList ++ "ABCDEF".toList := by
    decide
  apply jsTrim_of_hex
  intro c hc
  rw [hlower]
  exact List.mem_append_left _ (h c hc)

theorem expectedStartHash_eq : expectedStartHash = genesisHash := by decide

/-- The rows are linked from a hash, white space around hashes left out. -/
def TrimLinked (h : List Char) (rows : List AuditRow) : Prop :=
  HashChain.Linked (fun r : AuditRow => Strings.jsTrim r.prevHash)
    (fun r => Strings.jsTrim r.blockHash) h rows

/-- After a block, rows pass exactly when they are linked to it. -/
theorem allValid_some_iff {p : AuditRow} {rows : List AuditRow} :
    AllValid (some p) rows ↔ TrimLinked (Strings.jsTrim p.blockHash) rows := by
  induction rows generalizing p with
  | nil => exact Iff.rfl
  | cons r rows ih =>
    rw [AllValid, ih]
    refine and_congr_left fun _ => ?_
    rw [checkBlock]
    by_cases heq : Strings.jsTrim r.prevHash = Strings.jsTrim p.blockHash <;> simp [heq]

/-- The first row has to carry the start hash to the letter. -/
theorem allValid_none_cons {r : AuditRow} {rows : List AuditRow} :
    AllValid none (r :: rows) ↔
      r.prevHash = expectedStartHash ∧ TrimLinked (Strings.jsTrim r.blockHash) rows := by
  rw [AllValid, allValid_some_iff]
  refine and_congr_left fun _ => ?_
  rw [checkBlock]
  by_cases heq : r.prevHash = expectedStartHash <;> simp [heq]

/-- Hashes have no white space around them. -/
theorem trimLinked_iff {h : String} (hh : IsHash h) {rows : List AuditRow}
    (hrows : ∀ r ∈ rows, IsHash r.prevHash ∧ IsHash r.blockHash) :
    TrimLinked (Strings.jsTrim h) rows ↔
      HashChain.Linked AuditRow.prevHash AuditRow.blockHash h rows := by
  induction rows generalizing h with
  | nil => exact Iff.rfl
  | cons r rows ih =>
    obtain ⟨hprev, hblock⟩ := hrows r List.mem_cons_self
    have hrest := ih hblock fun q hq => hrows q (List.mem_cons_of_mem _ hq)
    rw [TrimLinked] at hrest
    rw [TrimLinked, HashChain.Linked, HashChain.Linked, hrest, jsTrim_of_isHash hprev,
      jsTrim_of_isHash hh, String.toList_inj]

/-- Rows whose hashes are hashes pass exactly when they are linked. -/
theorem allValid_iff_linked {rows : List AuditRow}
    (hrows : ∀ r ∈ rows, IsHash r.prevHash ∧ IsHash r.blockHash) :
    AllValid none rows ↔ AuditLinked rows := by
  cases rows with
  | nil => exact Iff.rfl
  | cons r rows =>
    obtain ⟨-, hblock⟩ := hrows r List.mem_cons_self
    rw [allValid_none_cons, expectedStartHash_eq,
      trimLinked_iff hblock fun q hq => hrows q (List.mem_cons_of_mem _ hq)]
    exact Iff.rfl

/-- **The verifier.** It accepts rows exactly when they are linked from the start hash. -/
theorem accepts_iff_linked {rows : List AuditRow}
    (hrows : ∀ r ∈ rows, IsHash r.prevHash ∧ IsHash r.blockHash) :
    Accepts rows ↔ AuditLinked rows := by
  rw [← allValid_iff_linked hrows]
  have h := loop_accepts none rows true []
  rw [Accepts, verifyChain, h]
  simp

/-! ## Honest ledgers -/

/-- **The verifier and honest ledgers.** After successful transfers and balances, one after
another on an empty ledger, the route accepts the ledger exactly when all calls were made
for one tenant. -/
theorem verifyChain_accepts_iff (hbar : ∀ t, '|' ∉ (pg.timestampText t).toList)
    {cs : List (Call × Inputs)} (hcalls : ∀ c ∈ cs, c.1.isLogged = true)
    (hok : ∀ r ∈ (runCalls pg client cs Db.empty).1, ∃ a, r.2 = .ok a)
    (hcoll : NoCollision pg (runCalls pg client cs Db.empty).2.auditLogs) :
    Accepts (orderById (runCalls pg client cs Db.empty).2.auditLogs) ↔
      ∀ c ∈ cs, ∀ c' ∈ cs, Uuid.parse c.1.tenantID = Uuid.parse c'.1.tenantID := by
  have hgrown : Grown pg (runCalls pg client cs Db.empty).2.auditLogs :=
    runCalls_grown client cs nofun .nil
  obtain ⟨rows, hrows, htenants⟩ := runCalls_auditLogs client hcalls hok
  rw [show Db.empty.auditLogs = [] from rfl, List.nil_append] at hrows
  rw [hgrown.orderById_eq, accepts_iff_linked hgrown.isHash]
  rw [hrows] at hgrown hcoll ⊢
  have hone : AuditLinked rows ↔ ∀ r ∈ rows, ∀ q ∈ rows, r.tenantId = q.tenantId :=
    ⟨hgrown.one_tenant hbar hcoll, hgrown.linked⟩
  -- both sides speak about the list of the tenants
  have hcs : (∀ c ∈ cs, ∀ c' ∈ cs, Uuid.parse c.1.tenantID = Uuid.parse c'.1.tenantID) ↔
      ∀ x ∈ cs.map fun c => Uuid.parse c.1.tenantID,
        ∀ y ∈ cs.map fun c => Uuid.parse c.1.tenantID, x = y := by
    simp only [List.forall_mem_map]
  rw [hone, hcs, htenants]
  simp only [List.forall_mem_map, Option.some.injEq]

/-- A transfer and a balance of one tenant. -/
theorem verifyChain_accepts_one_tenant :
    let cs : List (Call × Inputs) :=
      [(.createTransaction tenantA ⟨5, 0⟩ "a" "client-alice", .plain 1 uuidA),
        (.getBalance tenantA "client-alice", .plain 2 Uuid.zero)]
    Accepts (orderById (runCalls Pg.utc ⟨"secret"⟩ cs Db.empty).2.auditLogs) ↔
      ∀ c ∈ cs, ∀ c' ∈ cs, Uuid.parse c.1.tenantID = Uuid.parse c'.1.tenantID := by
  intro cs
  have hok : ((runCalls Pg.utc ⟨"secret"⟩ cs Db.empty).1.all fun r => r.2.isOk) = true := by
    decide
  have hhashes : (runCalls Pg.utc ⟨"secret"⟩ cs Db.empty).2.auditLogs.map AuditRow.blockHash =
      ["14c5dfb51da619417f2004b5882df9e32aab1bcdfb1d14689f647ff73e3a1dd4",
        "86f0a660f45869b30cb20c7f453d4226a9784f9af206e55cd7f0e426688bc965"] := by
    decide +kernel
  have hcoll : NoCollision Pg.utc (runCalls Pg.utc ⟨"secret"⟩ cs Db.empty).2.auditLogs :=
    noCollision_of_nodup (by rw [hhashes]; decide) (by rw [hhashes]; decide)
  refine verifyChain_accepts_iff Pg.utc_timestampText (by decide) (fun r hr => ?_) hcoll
  have hr' := List.all_eq_true.mp hok r hr
  cases hres : r.2 with
  | error e =>
    rw [hres] at hr'
    cases hr'
  | ok a => exact ⟨a, rfl⟩

/-- The balances of two tenants: the second row starts a chain of its own. -/
theorem verifyChain_rejects_two_tenants :
    let cs : List (Call × Inputs) := [(.getBalance tenantA "client-alice", .plain 1 Uuid.zero),
      (.getBalance tenantB "client-bob", .plain 2 Uuid.zero)]
    let r := runCalls Pg.utc ⟨"secret"⟩ cs Db.empty
    (r.1.all fun c => c.2.isOk) = true ∧
      (verifyChain (orderById r.2.auditLogs)).isValid = false := by
  decide +kernel

/-! ## Edited contents -/

/-- The columns an edit of the contents keeps: the id and the two hashes. -/
def links (r : AuditRow) : ℕ × String × String := (r.id, r.prevHash, r.blockHash)

/-- The second ledger is the first one with the contents of one or more rows changed: their
timestamp, actor, tenant, action, resource or details. -/
structure ContentEdited (rows rows' : List AuditRow) : Prop where
  links_eq : rows'.map links = rows.map links
  changed : rows' ≠ rows

/-- The route answers the query with this verdict. -/
def Reports (db : Db) (verdict : Bool) : Prop :=
  ∃ v, get none db = .success v ∧ v.isValid = verdict

theorem reports_iff (db : Db) (verdict : Bool) :
    Reports db verdict ↔ (verifyChain (orderById db.auditLogs)).isValid = verdict := by
  constructor
  · intro ⟨v, hv, h⟩
    have hv' : verifyChain (orderById db.auditLogs) = v := Response.success.inj hv
    rw [hv']
    exact h
  · intro h
    exact ⟨_, rfl, h⟩

/-- A check compares the links of two neighbours and nothing else. -/
theorem checkBlock_congr {p p' : Option AuditRow} {r r' : AuditRow}
    (hp : p'.map links = p.map links) (hr : links r' = links r) :
    checkBlock p' r' = checkBlock p r := by
  simp only [links, Prod.mk.injEq] at hr
  obtain ⟨hid, hprev, -⟩ := hr
  match p, p', hp with
  | none, none, _ => rw [checkBlock, checkBlock, hprev]
  | some q, some q', hp =>
    have hq : q'.blockHash = q.blockHash := congrArg (·.2.2) (Option.some.inj hp)
    rw [checkBlock, checkBlock, hid, hprev, hq]

/-- The verdict of the loop depends on the links of the rows only. The induction is on the
rows; the block before and the verdict so far vary. -/
theorem loop_congr (rows rows' : List AuditRow) (p p' : Option AuditRow) (isValid : Bool)
    (steps steps' : List Step) (hrows : rows'.map links = rows.map links)
    (hp : p'.map links = p.map links) :
    (loop p' rows' isValid steps').1 = (loop p rows isValid steps).1 := by
  induction rows generalizing rows' p p' isValid steps steps' with
  | nil =>
    have hnil : rows' = [] := by simpa using hrows
    rw [hnil, loop, loop]
  | cons r rows ih =>
    obtain ⟨r', rest, rfl, hr, hrest⟩ := List.map_eq_cons_iff.mp hrows
    have hvalid : (step p' r').valid = (step p r).valid :=
      congrArg Prod.fst (checkBlock_congr hp hr)
    have hnext : (some r').map links = (some r).map links := congrArg some hr
    show (loop (some r') rest _ _).1 = (loop (some r) rows _ _).1
    rw [hvalid]
    exact ih rest (some r) (some r') _ _ _ hrest hnext

/-- Sorting by the ids keeps the links equal. -/
theorem orderById_links {rows rows' : List AuditRow} (h : rows'.map links = rows.map links) :
    (orderById rows').map links = (orderById rows).map links := by
  have hsort : ∀ l : List AuditRow, (orderById l).map links =
      (l.map links).insertionSort fun a b => a.1 ≤ b.1 := by
    intro l
    exact List.map_insertionSort _ _ links l fun a _ b _ => Iff.rfl
  rw [hsort, hsort, h]

/-- Ledgers with the same links get the same verdict. -/
theorem isValid_congr {rows rows' : List AuditRow} (h : rows'.map links = rows.map links) :
    (verifyChain (orderById rows')).isValid = (verifyChain (orderById rows)).isValid :=
  loop_congr _ _ none none true [] [] (orderById_links h) rfl

/-- **The verifier and edited contents.** On no ledger that the route accepts does it detect
an edit of the contents: it accepts the edited ledger too. -/
theorem verifyChain_content_blind {db db' : Db} (haccepts : Reports db true)
    (hedit : ContentEdited db.auditLogs db'.auditLogs) :
    Reports db' true ∧ ¬ Reports db' false := by
  rw [reports_iff] at haccepts
  have hvalid : (verifyChain (orderById db'.auditLogs)).isValid = true := by
    rw [isValid_congr hedit.links_eq]
    exact haccepts
  refine ⟨(reports_iff _ _).mpr hvalid, fun h => ?_⟩
  rw [reports_iff, hvalid] at h
  cases h

/-- The ledger after a balance of one tenant. -/
def balanceLedger : Db :=
  (runCalls Pg.utc ⟨"secret"⟩ [(.getBalance tenantA "client-alice", .plain 1 Uuid.zero)]
    Db.empty).2

/-- Every row rewritten to another tenant and action, its hashes left as stored. -/
def tampered (db : Db) : Db :=
  { db with auditLogs := db.auditLogs.map fun r =>
      { r with tenantId := Uuid.zero, action := "CREATE_TRANSACTION", details := none } }

theorem contentEdited_tampered :
    ContentEdited balanceLedger.auditLogs (tampered balanceLedger).auditLogs := by
  refine ⟨?_, fun h => ?_⟩
  · rw [tampered, List.map_map]
    rfl
  · have hactions := congrArg (List.map AuditRow.action) h
    revert hactions
    decide

theorem reports_balanceLedger : Reports balanceLedger true := by
  rw [reports_iff]
  decide

theorem verifyChain_content_blind_balance :
    Reports (tampered balanceLedger) true ∧ ¬ Reports (tampered balanceLedger) false :=
  verifyChain_content_blind reports_balanceLedger contentEdited_tampered

/-- The rewritten row no longer hashes to its block hash, no two of the hashed texts collide,
and still the route reports a valid chain. -/
theorem verifyChain_misses_tampering :
    ¬ ∀ db db' : Db, Reports db true → ContentEdited db.auditLogs db'.auditLogs →
      (∀ r ∈ db.auditLogs ++ db'.auditLogs, ∀ q ∈ db.auditLogs ++ db'.auditLogs,
        blockHashOf "secret" (r.hashedText Pg.utc) = blockHashOf "secret" (q.hashedText Pg.utc) →
          r.hashedText Pg.utc = q.hashedText Pg.utc) →
      Reports db' false := by
  intro hclaim
  have hnodup : ((balanceLedger.auditLogs ++ (tampered balanceLedger).auditLogs).map fun r =>
      blockHashOf "secret" (r.hashedText Pg.utc)).Nodup := by
    decide +kernel
  have hcaught := hclaim balanceLedger (tampered balanceLedger) reports_balanceLedger
    contentEdited_tampered fun r hr q hq h =>
      congrArg (AuditRow.hashedText Pg.utc) (List.inj_on_of_nodup_map hnodup hr hq h)
  -- the links are those of the honest ledger, so the route accepts
  rw [reports_iff, isValid_congr contentEdited_tampered.links_eq,
    (reports_iff _ _).mp reports_balanceLedger] at hcaught
  cases hcaught

end Dashboard
end DarkServices
