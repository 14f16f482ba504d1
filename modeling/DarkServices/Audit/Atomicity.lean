import DarkServices.Audit.RecordedCalls

/-!
# Calls take effect at one moment

Under every interleaving a balance is the sum over the tables as they were at one moment
between the start of the call and its return, a list of audit rows the same, and a transfer
enters the tables in one step of the call.

* `ReadDecides`: the one statement that the result of a reading call is decided by, found in
  the program text (`call_decided`) and then in the run (`Threads.decided`);
* `read_moment`: what that statement answers.
-/

namespace DarkServices
namespace Audit

open Lib

variable {pg : Pg}

/-! ## The statement that decides a result -/

/-- The result of a reading call is the reply to its reading statement. -/
def ReadDecides : (o : DbOp) → Reply o → Except String Answer → Prop
  | .sumAmount, .ok n, a => a = .ok (.balance n)
  | .selectAudit, .ok rows, a => a = .ok (.logs rows)
  | _, _, _ => False

/-- The results of the reading calls. -/
def IsReading : Except String Answer → Prop
  | .ok (.balance _) => True
  | .ok (.logs _) => True
  | _ => False

section Programs

variable {β : Type} {P : Except String Answer → Prop}

/-- An error is the only result of the clean-up. -/
theorem results_cleanup {e : String} (h : P (.error e)) : Prog.Results P (cleanup e) :=
  fun _ _ => h

theorem results_commitAndReset {a : Answer} (herror : ∀ e, P (.error e)) (hok : P (.ok a)) :
    Prog.Results P (commitAndReset a) := by
  intro r
  cases r with
  | error e => exact results_cleanup (herror _)
  | ok _ => exact fun _ => hok

theorem results_orCleanup {msg : String} {r : Except String β}
    {k : β → DbProg (Except String Answer)} (herror : ∀ e, P (.error e))
    (hok : ∀ b, r = .ok b → Prog.Results P (k b)) : Prog.Results P (orCleanup msg r k) := by
  cases r with
  | error e => exact results_cleanup (herror _)
  | ok b => exact hok b rfl

/-- The common start decides nothing. -/
theorem decided_withTx {c : DBClient} {tenantID : String} {body : DbProg (Except String Answer)}
    (hbody : Prog.DecidedBy ReadDecides IsReading body) :
    Prog.DecidedBy ReadDecides IsReading (withTx c tenantID body) := by
  have herror : ∀ e : String, Prog.DecidedBy (D := ReadDecides) (P := IsReading)
      (cleanup e : DbProg (Except String Answer)) := fun e =>
    Prog.DecidedBy.of_results (results_cleanup fun h => h)
  intro r
  cases r with
  | error e => exact Or.inl fun h => h
  | ok _ =>
    refine Or.inl fun r => ?_
    cases r with
    | error e => exact Or.inl (herror _)
    | ok _ =>
      refine Or.inl fun r => ?_
      cases r with
      | error e => exact Or.inl (herror _)
      | ok _ => exact Or.inl hbody

/-- **The programs.** The result of a call that reads is the reply to one statement of it. -/
theorem call_decided (client : DBClient) (call : Call) :
    Prog.DecidedBy ReadDecides IsReading (call.program client) := by
  cases call with
  | createTransaction tenantID amount description actorSub =>
    simp only [Call.program, createTransaction, mapResult_withTx, mapResult_op,
      mapResult_orCleanup, mapResult_commitAndReset]
    refine decided_withTx (Prog.DecidedBy.of_results fun r => ?_)
    refine results_orCleanup (fun _ h => h) fun _ _ r => ?_
    exact results_orCleanup (fun _ h => h) fun _ _ =>
      results_commitAndReset (fun _ h => h) fun h => h
  | getBalance tenantID actorSub =>
    simp only [Call.program, getBalance, mapResult_withTx, mapResult_op,
      mapResult_orCleanup, mapResult_commitAndReset]
    refine decided_withTx fun r => Or.inr ?_
    refine results_orCleanup (fun _ h => h.elim) fun n hn r' => ?_
    subst hn
    exact results_orCleanup (fun _ h => h.elim) fun _ _ =>
      results_commitAndReset (fun _ h => h.elim) fun _ => rfl
  | getAuditLogs tenantID =>
    simp only [Call.program, getAuditLogs, mapResult_withTx, mapResult_op,
      mapResult_orCleanup, mapResult_commitAndReset]
    refine decided_withTx fun r => Or.inr ?_
    refine results_orCleanup (fun _ h => h.elim) fun rows hrows => ?_
    subst hrows
    exact results_commitAndReset (fun _ h => h.elim) fun _ => rfl

end Programs

/-! ## What a reading statement answers -/

/-- The transactions that the tenant of a call sees. -/
def Call.transactionsIn (call : Call) (db : Db) : List TransactionRow :=
  db.transactions.filter fun r => Uuid.parse call.tenantID = some r.tenantId

/-- The audit rows that the tenant of a call sees, in the order of their ids. -/
def Call.auditLogsIn (call : Call) (db : Db) : List AuditRow :=
  orderById (db.auditLogs.filter fun r => Uuid.parse call.tenantID = some r.tenantId)

/-- What a reading call returns when it reads the tables `db`. -/
def Call.readsAs (call : Call) (db : Db) : Answer → Prop
  | .balance n => n = ((call.transactionsIn db).map TransactionRow.amount).sum
  | .logs rows => rows = call.auditLogsIn db
  | .transaction _ => False

/-- A statement that decides a result reads. -/
theorem isRead_of_decides {o : DbOp} {r : Reply o} {a : Except String Answer}
    (h : ReadDecides o r a) : o.isRead = true := by
  cases o <;> first | rfl | exact h.elim

/-- In a transaction with the settings of the call and no rows of its own, it answers with what
the tables hold of the tenant. -/
theorem read_answer {client : DBClient} {call : Call} {session : Settings} {c : Choice} {o : DbOp}
    {db db' : Db} {t : OpenTx} {tx' : Option OpenTx} {r : Reply o} {a : Answer}
    (hloc : t.loc = contextOf client call) (hrows : t.rows = Rows.none)
    (hex : execOp pg session c o db (some t) = (r, db', tx')) (ha : ReadDecides o r (.ok a)) :
    call.readsAs db a := by
  obtain ⟨hnone, hnone'⟩ := Rows.mk.inj hrows
  cases o with
  | sumAmount =>
    cases r with
    | error e => exact ha.elim
    | ok n =>
      cases (show Except.ok a = .ok (.balance n) from ha)
      simp only [execOp] at hex
      obtain ⟨-, ⟨e, he, -⟩ | ⟨t', b, t'', ht', -, -, hf, hn, -⟩⟩ := onTx_cases hex
      · cases he
      · cases ht'
        cases hn
        obtain ⟨rows, hsees, heq⟩ := except_map_eq_ok hf
        cases heq
        rw [OpenTx.seesTransactions, settings_of_context hloc, hnone, List.append_nil] at hsees
        rw [usingPolicy_context hsees]
        rfl
  | selectAudit =>
    cases r with
    | error e => exact ha.elim
    | ok rows =>
      cases (show Except.ok a = .ok (.logs rows) from ha)
      simp only [execOp] at hex
      obtain ⟨-, ⟨e, he, -⟩ | ⟨t', b, t'', ht', -, -, hf, hn, -⟩⟩ := onTx_cases hex
      · cases he
      · cases ht'
        cases hn
        obtain ⟨seen, hsees, heq⟩ := except_map_eq_ok hf
        cases heq
        rw [OpenTx.seesAudit, settings_of_context hloc, hnone', List.append_nil] at hsees
        rw [usingPolicy_context hsees]
        rfl
  | _ => exact ha.elim

/-! ## The moment of a statement -/

section Moments

variable {ι : Type} [DecidableEq ι] [Fintype ι] {max : ℕ} {client : DBClient} {calls : ι → Call}

theorem precise_of_reachable {ok : CallStates ι → ι × PoolChoice → Prop} {s : CallStates ι}
    (h : (callSystem pg max client calls).ReachableIf ok s) (i : ι) :
    Precise client (calls i) (s.prog i) (s.shared.local i) :=
  (Threads.always (localRel pg) (fun i s => Shared.local s i)
    (by rintro s rfl i; exact call_precise client (calls i))
    (fun _ _ _ _ _ _ h => dbSem_local h) (fun _ _ _ _ _ _ _ hj h => dbSem_frame h hj) h i).here

/-- A reading statement answers with what the tables hold of the tenant at its moment. -/
theorem read_moment {m : CallStates ι} (hm : (callSystem pg max client calls).Reachable m) {i : ι}
    {o : DbOp} {k : Reply o → DbProg (Except String Answer)} {c : PoolChoice} {r : Reply o}
    {σ : Shared ι} (hp : m.prog i = .op o k) (hsem : dbSem pg m.shared i o c = some (r, σ))
    {a : Answer} (ha : ReadDecides o r (.ok a)) : (calls i).readsAs m.shared.db a := by
  obtain ⟨t, ht, hloc, hrows⟩ := (precise_of_reachable hm i).read o k hp (isRead_of_decides ha)
  have hconn : m.shared.conn i = some t := congrArg Local.tx ht
  obtain ⟨session, pool, -, hex, -⟩ := dbSem_eq_some hsem
  rw [hconn] at hex
  exact read_answer hloc hrows hex ha

/-- What a call has committed entered the tables in one step of it, since the moment `s` at which
it had committed nothing. -/
theorem commit_moment {s t : CallStates ι} (hs : (callSystem pg max client calls).Reachable s)
    (hst : ((callSystem pg max client calls).startingAt s).Reachable t) {i : ι}
    (hnone : s.shared.byCall i = Rows.none) :
    t.shared.byCall i = Rows.none ∨ ∃ m c m', (callSystem pg max client calls).Between s m t ∧
      Threads.step (dbSem pg) m (i, c) = some m' ∧
      ((callSystem pg max client calls).startingAt m').Reachable t ∧
      m'.shared.db.transactions = m.shared.db.transactions ++ (t.shared.byCall i).transactions ∧
      m'.shared.db.auditLogs = m.shared.db.auditLogs ++ (t.shared.byCall i).auditLogs := by
  induction hst with
  | init h =>
    cases h
    exact Or.inl hnone
  | @step t t' l ht _ hstep ih =>
    have hpoints := (callSystem_invariant (I := fun _ => True) trivial
      (fun _ _ _ _ _ _ _ _ _ _ _ _ => trivial) (hs.trans ht)).2
    obtain ⟨o, k, r, σ, hp, hsem, rfl⟩ := Threads.step_eq_some hstep
    obtain ⟨session, pool, -, -, -, hbyCall, -⟩ := dbSem_eq_some hsem
    by_cases hi : l.1 = i
    · subst hi
      have hown : σ.byCall l.1 =
          (t.shared.byCall l.1).append (committedBy o r (t.shared.conn l.1)) := by
        rw [hbyCall, Function.update_self]
      simp only [hown]
      by_cases hold : t.shared.byCall l.1 = Rows.none
      · rw [hold, Rows.none_append]
        obtain ⟨htx, hau⟩ := (dbSem_effect hsem).tables
        exact Or.inr ⟨t, l.2, _, ⟨ht, .step (.init rfl) trivial hstep⟩, hstep, .init rfl, htx, hau⟩
      · -- it has committed, so its transaction is over
        have hover : committedBy o r (t.shared.conn l.1) = Rows.none := by
          obtain hdone | ⟨hconn, -⟩ := (hpoints l.1).done
          · exact absurd hdone hold
          · obtain h | h := committedBy_pending o r (t.shared.conn l.1)
            · exact h
            · rw [h, show t.shared.conn l.1 = none from hconn, pending_none]
        rw [hover, Rows.append_none]
        obtain hnone' | ⟨m, c, m', hm, hst', hreach, htx, hau⟩ := ih
        · exact absurd hnone' hold
        · exact Or.inr ⟨m, c, m', hm.step hstep, hst', hreach.step trivial hstep, htx, hau⟩
    · have hother : σ.byCall i = t.shared.byCall i := by
        rw [hbyCall, Function.update_of_ne (Ne.symm hi)]
      simp only [hother]
      obtain hold | ⟨m, c, m', hm, hst', hreach, htx, hau⟩ := ih
      · exact Or.inl hold
      · exact Or.inr ⟨m, c, m', hm.step hstep, hst', hreach.step trivial hstep, htx, hau⟩

/-! ## The result -/

/-- The moment of a run at which a call took effect: a reading call read the tables as they were
then, a transfer entered the tables with its audit row in one step of the call. -/
def TakesEffect (M : LTS (CallStates ι) (ι × PoolChoice)) (call : Call) (i : ι)
    (s t : CallStates ι) : Answer → Prop
  | .transaction tr => ∃ m c m' row a, M.Between s m t ∧ M.step m (i, c) m' ∧
      (M.startingAt m').Reachable t ∧ Recorded call (.transaction tr) ⟨[row], [a]⟩ ∧
      m'.shared.db.transactions = m.shared.db.transactions ++ [row] ∧
      m'.shared.db.auditLogs = m.shared.db.auditLogs ++ [a]
  | a => ∃ m, M.Between s m t ∧ call.readsAs m.shared.db a

/-- **Atomicity.** Under every interleaving of calls, a call that starts after a state `s` and has
returned without error in `t` took effect at one moment between the two. -/
theorem calls_atomic {s t : CallStates ι} (hs : (callSystem pg max client calls).Reachable s)
    (hst : ((callSystem pg max client calls).startingAt s).Reachable t) {i : ι}
    (hstart : s.prog i = (calls i).program client) {a : Answer}
    (ha : t.prog i = .ret (.ok a)) :
    TakesEffect (callSystem pg max client calls) (calls i) i s t a := by
  have hread : IsReading (.ok a) → ∃ m, (callSystem pg max client calls).Between s m t ∧
      (calls i).readsAs m.shared.db a := by
    intro hreading
    have hdecided : Prog.DecidedBy ReadDecides IsReading (s.prog i) := by
      rw [hstart]
      exact call_decided client (calls i)
    obtain hundecided | ⟨m, o, k, c, r, σ, hm, hp, hsem, hresults⟩ :=
      Threads.decided hdecided hst
    · rw [ha] at hundecided
      exact absurd hreading hundecided
    · rw [ha] at hresults
      exact ⟨m, hm, read_moment (hm.reachable hs) hp hsem (hresults hreading)⟩
  cases a with
  | balance n => exact hread trivial
  | logs rows => exact hread trivial
  | transaction tr =>
    have hnone : s.shared.byCall i = Rows.none := by
      have hprecise := precise_of_reachable hs i
      rw [hstart] at hprecise
      cases hcall : calls i <;> rw [hcall] at hprecise <;>
        simp only [Call.program, createTransaction, getBalance, getAuditLogs,
          mapResult_withTx] at hprecise <;> exact hprecise.begin _ rfl
    have hrecorded : Recorded (calls i) (.transaction tr) (t.shared.byCall i) :=
      (precise_of_reachable (hs.trans hst) i).ret _ ha
    obtain ⟨row, b, hrows⟩ : ∃ row b, t.shared.byCall i = ⟨[row], [b]⟩ := by
      cases hcall : calls i with
      | createTransaction tenantID amount description actorSub =>
        rw [hcall] at hrecorded
        obtain ⟨row, b, hrows, -⟩ := hrecorded
        exact ⟨row, b, hrows⟩
      | getBalance tenantID actorSub =>
        rw [hcall] at hrecorded
        exact hrecorded.elim
      | getAuditLogs tenantID =>
        rw [hcall] at hrecorded
        exact hrecorded.elim
    obtain hempty | ⟨m, c, m', hm, hstep, hreach, htx, hau⟩ := commit_moment hs hst hnone
    · rw [hrows] at hempty
      cases hempty
    · rw [hrows] at hrecorded htx hau
      exact ⟨m, c, m', row, b, hm, hstep, hreach, hrecorded, htx, hau⟩

/-- A balance that is read while a transfer of the tenant is not committed yet. -/
theorem calls_atomic_balance :
    let calls : Fin 2 → Call := fun i =>
      if i = 0 then .getBalance tenantA "client-alice"
      else .createTransaction tenantA ⟨1005, 1⟩ "rent" "client-alice"
    let M := callSystem Pg.utc 2 ⟨"secret"⟩ calls
    ∃ s t a, LTS.run (Threads.step (dbSem Pg.utc)) (startState 2 ⟨"secret"⟩ calls)
        (List.replicate 5 (1, .plain)) = some s ∧
      LTS.run (Threads.step (dbSem Pg.utc)) s
        (List.replicate 5 (0, .plain) ++ [(1, .plain), (0, .plain), (0, .plain)]) = some t ∧
      t.prog 0 = .ret (.ok a) ∧ TakesEffect M (calls 0) 0 s t a := by
  intro calls M
  have hrun : (LTS.run (Threads.step (dbSem Pg.utc)) (startState 2 ⟨"secret"⟩ calls)
      (List.replicate 5 (1, .plain))).any (fun s =>
        (LTS.run (Threads.step (dbSem Pg.utc)) s
          (List.replicate 5 (0, .plain) ++ [(1, .plain), (0, .plain), (0, .plain)])).any fun t =>
            (t.prog 0).succeeded) = true := by
    decide
  obtain ⟨s, hs, hrun⟩ := (Option.any_eq_true _ _).mp hrun
  obtain ⟨t, ht, hret⟩ := (Option.any_eq_true _ _).mp hrun
  have hreach : M.Reachable s := LTS.reachable_of_run (.init rfl) hs
  have hreach' : (M.startingAt s).Reachable t := LTS.reachable_of_run (.init rfl) ht
  have hstart : s.prog 0 = (calls 0).program ⟨"secret"⟩ := by
    have hprog := congrArg (Option.map fun s => s.prog 0) hs
    exact (Option.some.inj hprog).symm
  obtain ⟨a, ha⟩ := Prog.exists_of_succeeded hret
  exact ⟨s, t, a, hs, ht, ha, calls_atomic hreach hreach' hstart ha⟩

end Moments

end Audit
end DarkServices
