import DarkServices.Audit.LedgerTheorems

/-!
# The audit chains of the tenants

The rows of one tenant, listed by id, are linked by their hashes as long as an audit row is
inserted only while no other transaction holds an uncommitted audit row of the tenant
(`chains_linked`). The trigger takes no lock that would ensure it: two transactions that
overlap take the same predecessor (`chain_forks`).
-/

namespace DarkServices
namespace Audit

open Lib

variable {pg : Pg} {ι : Type} [DecidableEq ι] [Fintype ι] {max : ℕ} {client : DBClient}
  {calls : ι → Call}

/-- The committed audit rows of a tenant. -/
def Db.auditOf (db : Db) (u : Uuid) : List AuditRow :=
  db.auditLogs.filter fun r => r.tenantId = u

/-- Each row carries the hash of the row before it, the first one 64 zeros. -/
abbrev AuditLinked (rows : List AuditRow) : Prop :=
  HashChain.Linked AuditRow.prevHash AuditRow.blockHash genesisHash rows

theorem lastBlockHash_eq (rows : List AuditRow) :
    lastBlockHash rows = HashChain.lastHash AuditRow.blockHash genesisHash (orderById rows) := by
  unfold lastBlockHash HashChain.lastHash
  cases (orderById rows).getLast? <;> rfl

/-- A row that continues the chain of its tenant and has the largest id keeps it linked. -/
theorem auditLinked_concat {rows : List AuditRow} {r : AuditRow}
    (hrows : AuditLinked (orderById rows)) (hprev : r.prevHash = lastBlockHash rows)
    (hid : ∀ q ∈ rows, q.id ≤ r.id) : AuditLinked (orderById (rows ++ [r])) := by
  rw [orderById, insertionSort_concat _ hid]
  refine (HashChain.linked_concat _ _).mpr ⟨hrows, ?_⟩
  rw [hprev, lastBlockHash_eq]
  rfl

/-! ## The invariant -/

/-- No two calls have inserted audit rows of one tenant. -/
def DistinctTenants (t t' : Option OpenTx) : Prop :=
  ∀ r ∈ (pending t).auditLogs, ∀ q ∈ (pending t').auditLogs, r.tenantId ≠ q.tenantId

/-- The row continues the committed chain of its tenant, with an id already drawn. -/
structure Continues (db : Db) (r : AuditRow) : Prop where
  drawn : r.id < db.auditSeq
  prev : r.prevHash = lastBlockHash (db.auditOf r.tenantId)
  last : ∀ q ∈ db.auditOf r.tenantId, q.id ≤ r.id

/-- The committed chains are linked, and every pending row continues one of them, no two
the same. -/
structure Chains (db : Db) (conn : ι → Option OpenTx) : Prop where
  linked : ∀ u, AuditLinked (orderById (db.auditOf u))
  drawn : ∀ r ∈ db.auditLogs, r.id < db.auditSeq
  continues : ∀ i, ∀ r ∈ (pending (conn i)).auditLogs, Continues db r
  alone : Pairwise fun i j => DistinctTenants (conn i) (conn j)

/-- Drawing ids and writing other tables leaves the rows in place. -/
theorem Continues.mono {db db' : Db} {r : AuditRow} (h : Continues db r)
    (hrows : db'.auditLogs = db.auditLogs) (hseq : db.auditSeq ≤ db'.auditSeq) :
    Continues db' r := by
  obtain ⟨hdrawn, hprev, hlast⟩ := h
  exact ⟨lt_of_lt_of_le hdrawn hseq, by rw [hprev, Db.auditOf, Db.auditOf, hrows],
    by rwa [Db.auditOf, hrows]⟩

omit [Fintype ι] in
/-- The tables stay as they are, and call `i` drops, keeps or extends its pending rows. -/
theorem Chains.update {db db' : Db} {conn : ι → Option OpenTx} {i : ι} {tx' : Option OpenTx}
    (hchains : Chains db conn) (hrows : db'.auditLogs = db.auditLogs)
    (hseq : db.auditSeq ≤ db'.auditSeq)
    (hcontinues : ∀ r ∈ (pending tx').auditLogs, Continues db' r)
    (halone : ∀ j, j ≠ i → DistinctTenants tx' (conn j)) :
    Chains db' (Function.update conn i tx') where
  linked u := by
    rw [Db.auditOf, hrows]
    exact hchains.linked u
  drawn r hr := lt_of_lt_of_le (hchains.drawn r (hrows ▸ hr)) hseq
  continues := (Function.forall_update_iff conn fun _ tx => ∀ r ∈ (pending tx).auditLogs,
    Continues db' r).mpr ⟨hcontinues, fun j _ r hr => (hchains.continues j r hr).mono hrows hseq⟩
  alone := Threads.pairwise_update (fun _ _ h r hr q hq heq => h q hq r hr heq.symm)
    hchains.alone halone

omit [Fintype ι] in
/-- The row that a call has pending enters its chain. -/
theorem Chains.commit {db : Db} {conn : ι → Option OpenTx} {i : ι} {rows : Rows}
    (hchains : Chains db conn) (hpending : pending (conn i) = rows)
    (hone : rows.auditLogs.length ≤ 1) :
    Chains { db with transactions := db.transactions ++ rows.transactions,
                     auditLogs := db.auditLogs ++ rows.auditLogs }
      (Function.update conn i none) := by
  have hmem : ∀ r ∈ rows.auditLogs, r ∈ (pending (conn i)).auditLogs := by
    rw [hpending]
    exact fun _ => id
  -- the chain of one tenant may have grown, by one row
  have hauditOf : ∀ u, Db.auditOf { db with
        transactions := db.transactions ++ rows.transactions,
        auditLogs := db.auditLogs ++ rows.auditLogs } u =
      db.auditOf u ++ rows.auditLogs.filter fun r => r.tenantId = u := fun u =>
    List.filter_append ..
  refine ⟨fun u => ?_, fun r hr => ?_, ?_, ?_⟩
  · rw [hauditOf]
    match hrows : rows.auditLogs, hone with
    | [], _ =>
      rw [List.filter_nil, List.append_nil]
      exact hchains.linked u
    | [r], _ =>
      by_cases hu : r.tenantId = u
      · obtain ⟨-, hprev, hlast⟩ := hchains.continues i r (hmem r (by simp [hrows]))
        rw [hu] at hprev hlast
        rw [List.filter_cons_of_pos (by simpa using hu), List.filter_nil]
        exact auditLinked_concat (hchains.linked u) hprev hlast
      · rw [List.filter_cons_of_neg (by simpa using hu), List.filter_nil, List.append_nil]
        exact hchains.linked u
  · obtain hr | hr := List.mem_append.mp hr
    · exact hchains.drawn r hr
    · exact (hchains.continues i r (hmem r hr)).drawn
  · refine (Function.forall_update_iff conn fun _ tx => ∀ r ∈ (pending tx).auditLogs,
      Continues _ r).mpr ⟨nofun, fun j hj r hr => ?_⟩
    -- a row pending elsewhere is of another tenant, whose chain has not grown
    have hother : rows.auditLogs.filter (fun q => q.tenantId = r.tenantId) = [] := by
      rw [List.filter_eq_nil_iff]
      intro q hq
      simpa using hchains.alone hj.symm q (hmem q hq) r hr
    obtain ⟨hdrawn, hprev, hlast⟩ := hchains.continues j r hr
    refine ⟨hdrawn, ?_, ?_⟩
    · rw [hauditOf, hother, List.append_nil]
      exact hprev
    · rw [hauditOf, hother, List.append_nil]
      exact hlast
  · exact Threads.pairwise_update (fun _ _ h r hr q hq heq => h q hq r hr heq.symm)
      hchains.alone fun _ _ => nofun

/-! ## Inserting alone -/

/-- The tenant of the audit row that the program inserts next. -/
def auditTenant {α : Type} : DbProg α → Option String
  | .op (.insertAudit _ tenantID _ _ _) _ => some tenantID
  | _ => none

/-- An audit row is inserted only while no other transaction holds an uncommitted audit
row of the tenant. -/
def insertsAlone (s : CallStates ι) (l : ι × PoolChoice) : Bool :=
  match auditTenant (s.prog l.1) with
  | none => true
  | some tenantID => decide (∀ j, j ≠ l.1 → ∀ r ∈ (pending (s.shared.conn j)).auditLogs,
      Uuid.parse tenantID ≠ some r.tenantId)

omit [Fintype ι] in
theorem chains_effect {db db' : Db} {conn : ι → Option OpenTx} {i : ι} {call : Call} {o : DbOp}
    {k : Reply o → DbProg (Except String Answer)} {c : Choice} {r : Reply o}
    {tx' : Option OpenTx} {d : Rows} (hchains : Chains db conn)
    (hpoint : Point call (.op o k) ⟨conn i, d⟩)
    (halone : ∀ a n x y e, o = .insertAudit a n x y e → ∀ j, j ≠ i →
      ∀ q ∈ (pending (conn j)).auditLogs, Uuid.parse n ≠ some q.tenantId)
    (h : Effect pg c db (conn i) o r db' tx') : Chains db' (Function.update conn i tx') := by
  generalize htx : conn i = tx at h
  cases h with
  | quiet _ hauditLogs hseq _ hrows =>
    have hpending : ∀ r ∈ (pending tx').auditLogs, r ∈ (pending (conn i)).auditLogs := by
      rw [htx]
      obtain h | h := hrows
      · rw [h]
        exact nofun
      · rw [h]
        exact fun _ => id
    exact hchains.update hauditLogs hseq
      (fun r hr => (hchains.continues i r (hpending r hr)).mono hauditLogs hseq)
      (fun j hj r hr => hchains.alone hj.symm r (hpending r hr))
  | @insertTransaction tenantID description amount t row ht _ _ =>
    have hold : (pending (conn i)).auditLogs = t.auditLogs := by
      rw [htx, ht]
      rfl
    exact hchains.update rfl le_rfl (fun r hr => hchains.continues i r (hold ▸ hr))
      (fun j hj r hr => hchains.alone hj.symm r (hold ▸ hr))
  | @insertAudit actorID tenantID action resource details t n row ht hnew hrow =>
    obtain ⟨hempty, -⟩ := hpoint.audit _ _ _ _ _ k t rfl (htx.trans ht)
    obtain ⟨actor, tenant, -, hparse, rfl⟩ := newAudit_ok hnew
    obtain ⟨hcolumns, -, hprev, -⟩ := insertAuditRow_ok hrow
    simp only [AuditRow.columns, NewAudit.mk.injEq] at hcolumns
    obtain ⟨hid, -, -, htenant, -⟩ := hcolumns
    rw [hempty, List.append_nil] at hprev
    refine hchains.update rfl (Nat.le_succ _) (fun r hr => ?_) (fun j hj r hr q hq heq => ?_)
    · simp only [pending_some, OpenTx.rows, hempty, List.nil_append, List.mem_singleton] at hr
      subst hr
      refine ⟨hid ▸ Nat.lt_succ_self _, hprev, fun q hq => ?_⟩
      rw [hid]
      exact (hchains.drawn q (List.mem_of_mem_filter hq)).le
    · simp only [pending_some, OpenTx.rows, hempty, List.nil_append, List.mem_singleton] at hr
      subst hr
      exact halone _ _ _ _ _ rfl j hj q hq (by rw [hparse, ← htenant, heq])
  | @commit t ht =>
    have hconn : conn i = some t := htx.trans ht
    have hrows : pending (conn i) = t.rows := by
      rw [hconn]
      rfl
    exact hchains.commit hrows (hpoint.rows t hconn).1

/-- **The chains are linear when audit rows are inserted alone.** -/
theorem chains_linked {s : CallStates ι}
    (h : (callSystem pg max client calls).ReachableIf (fun s l => insertsAlone s l = true) s)
    (u : Uuid) : AuditLinked (orderById (s.shared.db.auditOf u)) := by
  suffices hinv : Chains s.shared.db s.shared.conn ∧ AtPoints calls s from hinv.1.linked u
  refine callSystem_invariant (I := fun s => Chains s.shared.db s.shared.conn) ?_ ?_ h
  · exact ⟨fun _ => trivial, nofun, nofun, nofun⟩
  · intro s i o k c r s' hchains hpoints hp hok hsem
    obtain ⟨session, pool, -, -, hconn, -⟩ := dbSem_eq_some hsem
    rw [hconn]
    refine chains_effect hchains (hp ▸ hpoints i) ?_ (dbSem_effect hsem)
    rintro a n x y e rfl
    simpa [insertsAlone, auditTenant, hp] using hok

/-- Two calls of one tenant, one after the other. -/
theorem chains_linked_serial :
    ∃ s, LTS.runIf (Threads.step (dbSem Pg.utc)) (fun s l => insertsAlone s l = true)
        (startState 2 ⟨"secret"⟩ fun _ : Fin 2 => .getBalance tenantA "client-alice")
        (List.replicate 6 (0, .plain) ++ List.replicate 6 (1, .plain)) = some s ∧
      s.shared.db.auditLogs.length = 2 ∧
      ∀ u, AuditLinked (orderById (s.shared.db.auditOf u)) := by
  have hrun : (LTS.runIf (Threads.step (dbSem Pg.utc)) (fun s l => insertsAlone s l = true)
      (startState 2 ⟨"secret"⟩ fun _ : Fin 2 => .getBalance tenantA "client-alice")
      (List.replicate 6 (0, .plain) ++ List.replicate 6 (1, .plain))).any fun s =>
        s.shared.db.auditLogs.length = 2 := by
    decide
  obtain ⟨s, hs, hlen⟩ := (Option.any_eq_true _ _).mp hrun
  rw [decide_eq_true_eq] at hlen
  exact ⟨s, hs, hlen, chains_linked (LTS.reachableIf_of_runIf (.init rfl) hs)⟩

/-- Two calls of one tenant that overlap: both insert before either commits. -/
def forkSchedule : List (Fin 2 × PoolChoice) :=
  List.replicate 5 (0, .plain) ++ List.replicate 5 (1, .plain) ++ [(0, .plain), (1, .plain)]

/-- **The fork.** Both rows carry the hash of the empty chain. -/
theorem chain_forks :
    ∃ s, LTS.run (Threads.step (dbSem Pg.utc))
        (startState 25 ⟨"secret"⟩ fun _ : Fin 2 => .getBalance tenantA "client-alice")
        forkSchedule = some s ∧
      (callSystem Pg.utc 25 ⟨"secret"⟩ fun _ : Fin 2 =>
        .getBalance tenantA "client-alice").Reachable s ∧
      ∃ u, Uuid.parse tenantA = some u ∧ ¬ AuditLinked (orderById (s.shared.db.auditOf u)) := by
  have hrun : (LTS.run (Threads.step (dbSem Pg.utc))
      (startState 25 ⟨"secret"⟩ fun _ : Fin 2 => .getBalance tenantA "client-alice")
      forkSchedule).any fun s => (Uuid.parse tenantA).any fun u =>
        ¬ AuditLinked (orderById (s.shared.db.auditOf u)) := by
    decide +kernel
  obtain ⟨s, hs, hfork⟩ := (Option.any_eq_true _ _).mp hrun
  obtain ⟨u, hu, hfork⟩ := (Option.any_eq_true _ _).mp hfork
  exact ⟨s, hs, LTS.reachable_of_run (.init rfl) hs, u, hu, of_decide_eq_true hfork⟩

end Audit
end DarkServices
