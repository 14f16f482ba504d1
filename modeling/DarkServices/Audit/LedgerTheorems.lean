import DarkServices.Audit.PoolTheorems

/-!
# Every effect is audited

Over all interleavings of calls, any statement of which may fail: what each call has
committed is what its result says (`Accounted`), the tables hold the committed rows of the
calls and nothing else, and the rows of `transactions` and the `CREATE_TRANSACTION` rows of
`audit_logs` are in bijection.
-/

namespace DarkServices
namespace Audit

open Lib

variable {pg : Pg} {ι : Type} [DecidableEq ι] [Fintype ι] {max : ℕ} {client : DBClient}
  {calls : ι → Call}

/-! ## The two tables -/

/-- The audit rows of created transactions. -/
def creations (db : Db) : List AuditRow :=
  db.auditLogs.filter fun a => a.action = "CREATE_TRANSACTION"

/-- The audit row refers to the transaction. -/
def AuditRow.RefersTo (a : AuditRow) (r : TransactionRow) : Prop :=
  a.tenantId = r.tenantId ∧ a.txId = some r.id.text

/-- Transactions and their audit rows stand in the same order, under distinct ids. -/
structure Matched (db : Db) : Prop where
  ids : (db.transactions.map TransactionRow.id).Nodup
  rows : List.Forall₂ AuditRow.RefersTo (creations db) db.transactions

/-- An audit row refers to one transaction at most. -/
theorem RefersTo.id_eq {a : AuditRow} {r q : TransactionRow} (hr : a.RefersTo r)
    (hq : a.RefersTo q) : r.id = q.id :=
  Uuid.text_injective (Option.some_injective _ (hr.2.symm.trans hq.2))

/-- Referring is a bijection of the two lists. -/
theorem Matched.bijection {db : Db} (h : Matched db) :
    ∃ e : Fin (creations db).length ≃ Fin db.transactions.length, ∀ m n,
      ((creations db).get m).RefersTo (db.transactions.get n) ↔ e m = n := by
  obtain ⟨hlen, hrows⟩ := List.forall₂_iff_get.mp h.rows
  refine ⟨finCongr hlen, fun m n => ⟨fun href => ?_, ?_⟩⟩
  · have hid := RefersTo.id_eq (hrows m m.isLt (hlen ▸ m.isLt)) href
    have hrow := List.inj_on_of_nodup_map h.ids (List.get_mem ..) (List.get_mem ..) hid
    exact List.nodup_iff_injective_get.mp (h.ids.of_map _) hrow
  · rintro rfl
    exact hrows m m.isLt (hlen ▸ m.isLt)

/-- The rows one call adds when it commits keep the tables matched. -/
theorem Matched.commit {db : Db} {call : Call} {t : OpenTx} (h : Matched db)
    (hcomplete : Complete call t.rows)
    (hfresh : ∀ r ∈ t.transactions, ∀ q ∈ db.transactions, q.id ≠ r.id) :
    Matched { db with transactions := db.transactions ++ t.transactions,
                      auditLogs := db.auditLogs ++ t.auditLogs } := by
  cases call with
  | createTransaction tenantID amount description actorSub =>
    obtain ⟨row, a, hrows, -, htenant, haction, htx⟩ := hcomplete
    simp only [OpenTx.rows, Rows.mk.injEq] at hrows
    rw [hrows.1] at hfresh ⊢
    rw [hrows.2]
    constructor
    · rw [List.map_append, List.nodup_append]
      refine ⟨h.ids, List.nodup_singleton _, fun u hu v hv => ?_⟩
      obtain ⟨q, hq, rfl⟩ := List.mem_map.mp hu
      rw [List.mem_singleton.mp hv]
      exact hfresh row (List.mem_singleton_self _) q hq
    · simp only [creations, List.filter_append]
      exact List.rel_append h.rows (by simp [haction, htenant, htx, AuditRow.RefersTo])
  | getBalance tenantID actorSub =>
    obtain ⟨a, hrows, -, haction⟩ := hcomplete
    simp only [OpenTx.rows, Rows.mk.injEq] at hrows
    rw [hrows.1, hrows.2, List.append_nil]
    exact ⟨h.ids, by simpa [creations, haction] using h.rows⟩
  | getAuditLogs tenantID =>
    simp only [Complete, OpenTx.rows, Rows.none, Rows.mk.injEq] at hcomplete
    rw [hcomplete.1, hcomplete.2, List.append_nil, List.append_nil]
    exact h

/-! ## The committed rows of the calls -/

/-- The total of the committed rows grows by what the operation commits. -/
theorem total_committed {s s' : Shared ι} {i : ι} {o : DbOp} {c : PoolChoice} {r : Reply o}
    {ρ : Type} (rowsOf : Rows → List ρ)
    (happend : ∀ a b : Rows, rowsOf (a.append b) = rowsOf a ++ rowsOf b)
    (h : dbSem pg s i o c = some (r, s')) :
    ∑ j, (rowsOf (s'.byCall j) : Multiset ρ) =
      ∑ j, (rowsOf (s.byCall j) : Multiset ρ) + rowsOf (committedBy o r (s.conn i)) := by
  obtain ⟨session, pool, -, -, -, hdone, -⟩ := dbSem_eq_some h
  have htotal := Threads.total_update_add (fun rows : Rows => (rowsOf rows : Multiset ρ))
    s.byCall i ((s.byCall i).append (committedBy o r (s.conn i)))
  rw [← hdone, happend, ← Multiset.coe_add, add_left_comm, add_comm] at htotal
  exact add_left_cancel htotal

/-- The tables hold the rows the calls have committed, and no others. -/
structure Totals (s : Shared ι) : Prop where
  transactions : (s.db.transactions : Multiset TransactionRow) =
    ∑ i, ((s.byCall i).transactions : Multiset TransactionRow)
  auditLogs : (s.db.auditLogs : Multiset AuditRow) =
    ∑ i, ((s.byCall i).auditLogs : Multiset AuditRow)

theorem totals_step {s s' : Shared ι} {i : ι} {o : DbOp} {c : PoolChoice} {r : Reply o}
    (hs : Totals s) (h : dbSem pg s i o c = some (r, s')) : Totals s' := by
  obtain ⟨htransactions, hauditLogs⟩ := (dbSem_effect h).tables
  constructor
  · rw [htransactions, ← Multiset.coe_add, hs.transactions]
    exact (total_committed Rows.transactions (fun _ _ => rfl) h).symm
  · rw [hauditLogs, ← Multiset.coe_add, hs.auditLogs]
    exact (total_committed Rows.auditLogs (fun _ _ => rfl) h).symm

/-! ## The ids of the transactions -/

/-- Two calls have inserted their transactions under different ids. -/
def DistinctIds (t t' : Option OpenTx) : Prop :=
  ∀ r ∈ (pending t).transactions, ∀ q ∈ (pending t').transactions, q.id ≠ r.id

/-- The tables are matched, and no id is used twice by committed or pending rows. -/
structure Ledger (db : Db) (conn : ι → Option OpenTx) : Prop where
  matched : Matched db
  fresh : ∀ i, ∀ r ∈ (pending (conn i)).transactions, ∀ q ∈ db.transactions, q.id ≠ r.id
  apart : Pairwise fun i j => DistinctIds (conn i) (conn j)

omit [Fintype ι] in
/-- Pending rows that are dropped, kept or new under an unused id keep the ids distinct. -/
theorem Ledger.update {db : Db} {conn : ι → Option OpenTx} {i : ι} {tx' : Option OpenTx}
    (hledger : Ledger db conn)
    (hfresh : ∀ r ∈ (pending tx').transactions, ∀ q ∈ db.transactions, q.id ≠ r.id)
    (hapart : ∀ j, j ≠ i → DistinctIds tx' (conn j)) :
    Ledger db (Function.update conn i tx') where
  matched := hledger.matched
  fresh := (Function.forall_update_iff conn fun _ tx => ∀ r ∈ (pending tx).transactions,
    ∀ q ∈ db.transactions, q.id ≠ r.id).mpr ⟨hfresh, fun j _ => hledger.fresh j⟩
  apart := Threads.pairwise_update (fun _ _ h r hr q hq heq => h q hq r hr heq.symm)
    hledger.apart hapart

omit [Fintype ι] in
theorem ledger_effect {db db' : Db} {conn : ι → Option OpenTx} {i : ι} {call : Call} {o : DbOp}
    {k : Reply o → DbProg (Except String Answer)} {c : Choice} {r : Reply o}
    {tx' : Option OpenTx} {d : Rows} (hledger : Ledger db conn)
    (hpoint : Point call (.op o k) ⟨conn i, d⟩)
    (hflight : ∀ t a e, o = .insertTransaction t a e → c.fail = none →
      ∀ j, j ≠ i → ∀ q ∈ (pending (conn j)).transactions, q.id ≠ c.uuid)
    (h : Effect pg c db (conn i) o r db' tx') : Ledger db' (Function.update conn i tx') := by
  generalize htx : conn i = tx at h
  cases h with
  | quiet htransactions hauditLogs _ _ hrows =>
    have hmatched : Matched db' :=
      ⟨htransactions ▸ hledger.matched.ids, by
        rw [creations, htransactions, hauditLogs]
        exact hledger.matched.rows⟩
    have hpending : ∀ r ∈ (pending tx').transactions, r ∈ (pending (conn i)).transactions := by
      rw [htx]
      obtain h | h := hrows
      · rw [h]
        exact nofun
      · rw [h]
        exact fun _ => id
    have hupdate : Ledger db (Function.update conn i tx') := hledger.update
      (fun r hr => hledger.fresh i r (hpending r hr))
      (fun j hj r hr => hledger.apart hj.symm r (hpending r hr))
    exact ⟨hmatched, fun j => htransactions ▸ hupdate.fresh j, hupdate.apart⟩
  | @insertTransaction tenantID description amount t row ht hallowed hrow =>
    obtain ⟨hid, -, -, -, -, hnew, -⟩ := insertTransactionRow_ok hrow
    have hold : (pending (conn i)).transactions = t.transactions := by
      rw [htx, ht]
      rfl
    refine hledger.update (fun r hr => ?_) (fun j hj r hr => ?_)
    · obtain hr | hr := List.mem_append.mp hr
      · exact hledger.fresh i r (hold ▸ hr)
      · rw [List.mem_singleton.mp hr]
        exact fun q hq => hnew q (List.mem_append_left _ hq)
    · obtain hr | hr := List.mem_append.mp hr
      · exact hledger.apart hj.symm r (hold ▸ hr)
      · rw [List.mem_singleton.mp hr, hid]
        exact hflight _ _ _ rfl hallowed j hj
  | @insertAudit _ _ _ _ _ t n row ht _ _ =>
    have hold : (pending (conn i)).transactions = t.transactions := by
      rw [htx, ht]
      rfl
    have hupdate : Ledger db (Function.update conn i
        (some { t with auditLogs := t.auditLogs ++ [row] })) := hledger.update
      (fun r hr => hledger.fresh i r (hold ▸ hr))
      (fun j hj r hr => hledger.apart hj.symm r (hold ▸ hr))
    exact ⟨⟨hledger.matched.ids, hledger.matched.rows⟩, hupdate.fresh, hupdate.apart⟩
  | @commit t ht =>
    have hconn : conn i = some t := htx.trans ht
    have hold : (pending (conn i)).transactions = t.transactions := by
      rw [hconn]
      rfl
    have hmatched := hledger.matched.commit (hpoint.commit k t rfl hconn)
      fun r hr => hledger.fresh i r (hold ▸ hr)
    have hupdate : Ledger db (Function.update conn i none) :=
      hledger.update nofun fun _ _ => nofun
    refine ⟨hmatched, fun j r hr q hq => ?_, hupdate.apart⟩
    obtain hq | hq := List.mem_append.mp hq
    · exact hupdate.fresh j r hr q hq
    · -- the rows just committed were pending
      by_cases hj : j = i
      · subst hj
        rw [Function.update_self] at hr
        cases hr
      · rw [Function.update_of_ne hj] at hr
        exact hledger.apart hj r hr q (hold ▸ hq)

/-- An insert that is let through uses an id that no open transaction has inserted. -/
theorem choiceOf_fresh {s : Shared ι} {i : ι} {c : PoolChoice} {tenantID description : String}
    {amount : Decimal}
    (h : (choiceOf s i c (.insertTransaction tenantID amount description)).fail = none) :
    ∀ j, j ≠ i → ∀ q ∈ (pending (s.conn j)).transactions,
      q.id ≠ (choiceOf s i c (.insertTransaction tenantID amount description)).uuid := by
  intro j hj q hq hid
  by_cases hflight : idInFlight s i c.uuid
  · simp [choiceOf, hflight] at h
  · simp only [choiceOf, if_neg hflight] at hid
    refine hflight (decide_eq_true ⟨j, hj, ?_⟩)
    cases hconn : s.conn j with
    | none =>
      rw [hconn] at hq
      cases hq
    | some t =>
      rw [hconn] at hq
      simp only [Option.any_some, List.any_eq_true, decide_eq_true_eq]
      exact ⟨q, hq, hid⟩

/-- The invariants of the tables hold in every reachable state. -/
theorem ledger_of_reachable {ok : CallStates ι → ι × PoolChoice → Prop} {s : CallStates ι}
    (h : (callSystem pg max client calls).ReachableIf ok s) :
    (Totals s.shared ∧ Ledger s.shared.db s.shared.conn) ∧ AtPoints calls s := by
  refine callSystem_invariant
    (I := fun s => Totals s.shared ∧ Ledger s.shared.db s.shared.conn) ?_ ?_ h
  · refine ⟨⟨?_, ?_⟩, ⟨List.nodup_nil, .nil⟩, nofun, nofun⟩
    · simp [startState, Db.empty, Rows.none]
    · simp [startState, Db.empty, Rows.none]
  · rintro s i o k c r s' ⟨htotals, hledger⟩ hpoints hp - hsem
    refine ⟨totals_step htotals hsem, ?_⟩
    obtain ⟨session, pool, -, -, hconn, -⟩ := dbSem_eq_some hsem
    rw [hconn]
    refine ledger_effect hledger (hp ▸ hpoints i) ?_ (dbSem_effect hsem)
    rintro _ _ _ rfl hallowed
    exact choiceOf_fresh hallowed

/-! ## The result -/

/-- **No unaudited effect, no half-done transfer.** In every reachable state of any calls:
a call that has returned has committed what its result says, a step of a call changes the
tables by the rows it commits for that call, the tables hold no other rows, and the
transactions are in bijection with the audit rows that refer to them. -/
theorem calls_audited {s : CallStates ι} (h : (callSystem pg max client calls).Reachable s) :
    (∀ i a, s.prog i = .ret a → Accounted (calls i) a (s.shared.byCall i)) ∧
    (∀ i c t, Threads.step (dbSem pg) s (i, c) = some t → ∃ new : Rows,
      t.shared.db.transactions = s.shared.db.transactions ++ new.transactions ∧
      t.shared.db.auditLogs = s.shared.db.auditLogs ++ new.auditLogs ∧
      t.shared.byCall = Function.update s.shared.byCall i ((s.shared.byCall i).append new)) ∧
    Totals s.shared ∧
    ∃ e : Fin (creations s.shared.db).length ≃ Fin s.shared.db.transactions.length, ∀ m n,
      ((creations s.shared.db).get m).RefersTo (s.shared.db.transactions.get n) ↔ e m = n := by
  obtain ⟨⟨htotals, hledger⟩, hpoints⟩ := ledger_of_reachable h
  refine ⟨fun i a ha => ((hpoints i).ret a ha).2, fun i c t hst => ?_, htotals,
    hledger.matched.bijection⟩
  obtain ⟨o, k, r, s', -, hsem, rfl⟩ := Threads.step_eq_some hst
  obtain ⟨htransactions, hauditLogs⟩ := (dbSem_effect hsem).tables
  obtain ⟨session, pool, -, -, -, hdone, -⟩ := dbSem_eq_some hsem
  exact ⟨_, htransactions, hauditLogs, hdone⟩

/-- A transfer that runs to its end. -/
theorem calls_audited_transfer :
    ∃ s, LTS.run (Threads.step (dbSem Pg.utc))
        (startState 1 ⟨"secret"⟩ fun _ : Fin 1 =>
          .createTransaction tenantA ⟨1005, 1⟩ "rent" "client-alice")
        (List.replicate 7 (0, .plain)) = some s ∧
      s.shared.db.transactions.length = 1 ∧ (creations s.shared.db).length = 1 ∧
      ∃ e : Fin (creations s.shared.db).length ≃ Fin s.shared.db.transactions.length, ∀ m n,
        ((creations s.shared.db).get m).RefersTo (s.shared.db.transactions.get n) ↔ e m = n := by
  have hrun : (LTS.run (Threads.step (dbSem Pg.utc))
      (startState 1 ⟨"secret"⟩ fun _ : Fin 1 =>
        .createTransaction tenantA ⟨1005, 1⟩ "rent" "client-alice")
      (List.replicate 7 (0, .plain))).any fun s =>
        s.shared.db.transactions.length = 1 ∧ (creations s.shared.db).length = 1 := by
    decide
  obtain ⟨s, hs, hlen⟩ := (Option.any_eq_true _ _).mp hrun
  rw [decide_eq_true_eq] at hlen
  exact ⟨s, hs, hlen.1, hlen.2,
    (calls_audited (LTS.reachable_of_run (.init rfl) hs)).2.2.2⟩

end Audit
end DarkServices
