import DarkServices.Audit.LedgerTheorems
import DarkServices.Gateway.AdmissionTheorems
import DarkServices.Lib.Rounding

/-!
# The three amounts of a transfer

A transfer carries its amount three times: as the decimal that the handler has checked and
returns, in the details of the audit row, and as the hundredths of the `DECIMAL(15, 2)`
column.

* `call_recorded`: what a `CreateTransaction` that returns has written of its amount;
* `transfer_amounts_iff`: the three agree, on an amount above zero, exactly when the amount
  of the request is a whole number of hundredths.
-/

namespace DarkServices
namespace Gateway

open Lib Audit

/-! ## What a call records -/

section Recorded

variable {pg : Pg} {client : DBClient} {tenantID description actorSub : String}
  {amount : Decimal} {l : Local} {t : OpenTx} {d : Rows}

/-- The rows of a transfer: the rounded amount in the table, and the amount as it came in the
details of the audit row. -/
def RecordedRows (amount : Decimal) (description : String) (rows : Rows) : Prop :=
  ∃ row log, rows = ⟨[row], [log]⟩ ∧ row.amount = amount.toCents ∧
    log.details = some (transactionDetails amount description row.id).toJsonb

/-- A call that has returned a transaction has recorded its amount. -/
def Recorded (amount : Decimal) (description : String) (p : DbProg (Except String Answer))
    (l : Local) : Prop :=
  ∀ x, p = .ret (.ok (.transaction x)) →
    x.amount = amount ∧ RecordedRows amount description l.done

theorem Recorded.op {o : DbOp} {k : Reply o → DbProg (Except String Answer)} :
    Recorded amount description (.op o k) l := by
  intro x h
  cases h

theorem Recorded.error {e : String} : Recorded amount description (.ret (.error e)) l := by
  intro x h
  cases h

theorem recorded_cleanup (e : String) :
    Prog.Always (localRel pg) (Recorded amount description) (cleanup e) l :=
  ⟨Recorded.op, fun _ _ _ => ⟨Recorded.op, fun _ _ _ => Recorded.error⟩⟩

/-- `CreateTransaction` from its start to its return. -/
theorem createTransaction_recorded :
    Prog.Always (localRel pg) (Recorded amount description)
      (Call.program client (.createTransaction tenantID amount description actorSub))
      ⟨none, Rows.none⟩ := by
  simp only [Call.program, createTransaction, mapResult_withTx, mapResult_op,
    mapResult_orCleanup, mapResult_commitAndReset]
  refine ⟨Recorded.op, fun r l' h => ?_⟩
  obtain ⟨e, rfl, rfl⟩ | ⟨session, now, rfl, rfl⟩ := localRel_begin h
  · exact Recorded.error
  refine ⟨Recorded.op, fun r l' h => ?_⟩
  obtain ⟨e, rfl, rfl⟩ | ⟨rfl, rfl⟩ := localRel_setConfig h
  · exact recorded_cleanup _
  refine ⟨Recorded.op, fun r l' h => ?_⟩
  obtain ⟨e, rfl, rfl⟩ | ⟨rfl, rfl⟩ := localRel_setConfig h
  · exact recorded_cleanup _
  refine ⟨Recorded.op, fun r l' h => ?_⟩
  obtain ⟨e, rfl, rfl⟩ | ⟨row, rfl, -, hamount, rfl⟩ := localRel_insertTransaction h
  · exact recorded_cleanup _
  refine ⟨Recorded.op, fun r l' h => ?_⟩
  obtain ⟨e, rfl, rfl⟩ | ⟨log, rfl, -, -, hdetails, rfl⟩ := localRel_insertAudit h
  · exact recorded_cleanup _
  refine ⟨Recorded.op, fun r l' h => ?_⟩
  obtain ⟨e, rfl, rfl⟩ | ⟨rfl, rfl⟩ := localRel_commit h
  · exact recorded_cleanup _
  refine ⟨Recorded.op, fun r l' h => ?_⟩
  rw [localRel_resetExec h]
  intro x hx
  cases hx
  exact ⟨rfl, row, log, rfl, hamount, hdetails⟩

variable {ι : Type} [DecidableEq ι] [Fintype ι] {max : ℕ} {calls : ι → Call}

/-- In every state of the interleavings, what a finished transfer has recorded. -/
theorem call_recorded {s : CallStates ι} (h : (callSystem pg max client calls).Reachable s)
    {i : ι} (hcall : calls i = .createTransaction tenantID amount description actorSub) :
    Recorded amount description (s.prog i) (s.shared.local i) := by
  -- the assertion says something about the calls that are this transfer only
  have halways : ∀ j, Prog.Always (localRel pg)
      (fun p l => calls j = .createTransaction tenantID amount description actorSub →
        Recorded amount description p l) (s.prog j) (s.shared.local j) := by
    refine Threads.always (localRel pg) (fun i s => Shared.local s i) ?_
      (fun _ _ _ _ _ _ h => dbSem_local h) (fun _ _ _ _ _ _ _ hj h => dbSem_frame h hj) h
    rintro s rfl j
    by_cases hj : calls j = .createTransaction tenantID amount description actorSub
    · have hrecorded : Prog.Always (localRel pg) (Recorded amount description)
          ((calls j).program client) ⟨none, Rows.none⟩ := by
        rw [hj]
        exact createTransaction_recorded
      exact hrecorded.imp fun p l hp _ => hp
    · exact Prog.Always.of_forall (fun p l h => absurd h hj) _ _
  exact (halways i).here hcall

end Recorded

/-! ## The handler -/

/-- What the handler has done when it answers with status 201. -/
theorem createTransferHandler_created {env : Env} {r : Request} {w w' : World} {body : Body}
    (h : createTransferHandler env r w = (⟨201, body⟩, w')) :
    ∃ claims req a, TransferRequest.ofBody r.body = .ok req ∧ 0 < req.amount.coeff ∧
      w'.log = w.log ++ [.database
        (.createTransaction claims.tenantID req.amount req.description claims.sub)] ∧
      env.db (.createTransaction claims.tenantID req.amount req.description claims.sub) = .ok a ∧
      body = .answer claims a := by
  unfold createTransferHandler at h
  split at h
  · cases h
  · rename_i claims _
    split at h
    · cases h
    · rename_i req hreq
      split at h
      · cases h
      · rename_i hpos
        unfold answerCall at h
        cases hdb : env.db (.createTransaction claims.tenantID req.amount req.description
            claims.sub) with
        | error e =>
          rw [hdb] at h
          cases h
        | ok a =>
          rw [hdb] at h
          cases h
          exact ⟨claims, req, a, hreq, by omega, rfl, hdb, rfl⟩

/-- The amount in the details of an audit row. -/
def loggedAmount (log : AuditRow) : Option Decimal :=
  match log.details with
  | some (.obj m) =>
    match Json.lookup m "amount" with
    | some (.num d) => some d
    | _ => none
  | _ => none

/-- The stored amount is above zero, and is the amount of the audit row and of the answer. -/
def AmountsAgree (row : TransactionRow) (log : AuditRow) (x : Transaction) : Prop :=
  0 < row.amount ∧ x.amount.toRat = (Decimal.ofCents row.amount).toRat ∧
    ∃ d, loggedAmount log = some d ∧ d.toRat = (Decimal.ofCents row.amount).toRat

/-- Rows and an answer that record an amount agree when rounding keeps it. -/
theorem amountsAgree_iff {amount : Decimal} {description : String} {row : TransactionRow}
    {log : AuditRow} {x : Transaction} (hpos : 0 < amount.coeff) (hx : x.amount = amount)
    (hrow : row.amount = amount.toCents)
    (hlog : log.details = some (transactionDetails amount description row.id).toJsonb) :
    AmountsAgree row log x ↔ amount.IsWholeCents := by
  have hlogged : loggedAmount log = some amount := by
    rw [loggedAmount, hlog, transactionDetails_toJsonb]
    rfl
  rw [AmountsAgree, hlogged, hx, hrow]
  constructor
  · rintro ⟨-, hstored, -⟩
    exact Decimal.toRat_ofCents_toCents_iff.mp hstored
  · intro hwhole
    have hstored := Decimal.toRat_ofCents_toCents_iff.mpr hwhole
    refine ⟨?_, hstored, amount, rfl, hstored⟩
    have hpositive : (0 : ℚ) < amount.toCents / 100 := by
      rw [← Decimal.toRat_ofCents, ← hstored]
      exact Decimal.toRat_pos.mpr hpos
    have hcents : (0 : ℚ) < amount.toCents := by linarith
    exact_mod_cast hcents

section Interleaved

variable {pg : Pg} {client : DBClient} {ι : Type} [DecidableEq ι] [Fintype ι] {max : ℕ}
  {calls : ι → Call}

/-- **Stored, audited and answered.** A transfer that the handler answers with status 201,
whatever other calls run beside it, has committed one row and one audit row. The stored
amount is above zero and is the one of the audit row and of the answer exactly when the
amount of the request is a whole number of hundredths. -/
theorem transfer_amounts_iff {s : CallStates ι}
    (h : (callSystem pg max client calls).Reachable s) {i : ι} {env : Env} {r : Request}
    {w w' : World} {body : Body}
    (hcreated : createTransferHandler env r w = (⟨201, body⟩, w'))
    (hcall : w'.log = w.log ++ [.database (calls i)])
    (hreturned : s.prog i = .ret (env.db (calls i))) :
    ∃ claims req x row log, TransferRequest.ofBody r.body = .ok req ∧
      body = .answer claims (.transaction x) ∧ s.shared.byCall i = ⟨[row], [log]⟩ ∧
      row ∈ s.shared.db.transactions ∧ log ∈ s.shared.db.auditLogs ∧
      (AmountsAgree row log x ↔ req.amount.IsWholeCents) := by
  obtain ⟨claims, req, a, hreq, hpos, hlog, hdb, rfl⟩ := createTransferHandler_created hcreated
  have hi : calls i = .createTransaction claims.tenantID req.amount req.description claims.sub := by
    have hevents := List.append_cancel_left (hcall.symm.trans hlog)
    exact Event.database.inj (List.singleton_inj.mp hevents)
  rw [hi, hdb] at hreturned
  obtain ⟨⟨htotals, -⟩, hpoints⟩ := ledger_of_reachable h
  -- a transfer returns a transaction, and what it has committed is in the tables
  cases a with
  | transaction x =>
    obtain ⟨hx, row, log, hrows, hrow, hdetails⟩ := call_recorded h hi x hreturned
    have hby : s.shared.byCall i = ⟨[row], [log]⟩ := hrows
    have hmemRow : row ∈ s.shared.db.transactions := by
      rw [← Multiset.mem_coe, htotals.transactions, Multiset.mem_sum]
      exact ⟨i, Finset.mem_univ i, by rw [hby]; simp⟩
    have hmemLog : log ∈ s.shared.db.auditLogs := by
      rw [← Multiset.mem_coe, htotals.auditLogs, Multiset.mem_sum]
      exact ⟨i, Finset.mem_univ i, by rw [hby]; simp⟩
    exact ⟨claims, req, x, row, log, hreq, rfl, hby, hmemRow, hmemLog,
      amountsAgree_iff hpos hx hrow hdetails⟩
  | balance n =>
    have haccounted := ((hpoints i).ret _ hreturned).2
    rw [hi] at haccounted
    exact haccounted.elim
  | logs rows =>
    have haccounted := ((hpoints i).ret _ hreturned).2
    rw [hi] at haccounted
    exact haccounted.elim

end Interleaved

/-! ## Two transfers -/

/-- A transfer request of `client-alice` behind the middlewares. -/
def transferRequest (amount : Decimal) : Request :=
  { aliceRequest "DPoP" "POST" alicePostProof with
    body := some (.obj [("amount", .num amount), ("description", .str "rent")])
    claims := some ⟨"client-alice", tenantA, "operator", "transfer balance", ""⟩ }

theorem transferRequest_body (amount : Decimal) :
    TransferRequest.ofBody (transferRequest amount).body = .ok ⟨amount, "rent"⟩ := by
  have hamount : Strings.equalFold "amount" "description" = false := by decide
  have hdescription : Strings.equalFold "description" "amount" = false := by decide
  have hnumber : numberField [("amount", .num amount), ("description", .str "rent")] "amount" =
      .ok amount := by
    simp only [numberField, List.foldlM_cons, List.foldlM_nil, Strings.equalFold_refl,
      hdescription]
    rfl
  have hstring : Json.stringField [("amount", .num amount), ("description", .str "rent")]
      "description" = .ok "rent" := by
    simp only [Json.stringField, List.foldlM_cons, List.foldlM_nil, Strings.equalFold_refl,
      hamount]
    rfl
  show (numberField _ "amount" >>= fun amount => _) = _
  rw [hnumber]
  show (Json.stringField _ "description" >>= fun description => _) = _
  rw [hstring]
  rfl

/-- The call of the request. -/
def transferCall (amount : Decimal) : Call :=
  .createTransaction tenantA amount "rent" "client-alice"

/-- Its call alone, run to its end over a pool of one connection. -/
def transferRun (amount : Decimal) : Option (CallStates (Fin 1)) :=
  LTS.run (Threads.step (dbSem Pg.utc)) (startState 1 ⟨"secret"⟩ fun _ => transferCall amount)
    (List.replicate 7 (0, .plain))

/-- The outside of the handler when the call returns this result. -/
def transferEnv (result : Except String Answer) : Env :=
  { aliceEnv alicePostProof (fun _ => true) with db := fun _ => result }

/-- The handler serves the request with the transaction of its call. -/
theorem createTransferHandler_transfer {amount : Decimal} (hpos : 0 < amount.coeff)
    (x : Transaction) :
    ∃ body w', createTransferHandler (transferEnv (.ok (.transaction x)))
        (transferRequest amount) startWorld = (⟨201, body⟩, w') ∧
      w'.log = startWorld.log ++ [.database (transferCall amount)] := by
  have hclaims : (transferRequest amount).claims =
    some ⟨"client-alice", tenantA, "operator", "transfer balance", ""⟩ := rfl
  have hdb : ∀ call, (transferEnv (.ok (.transaction x))).db call = .ok (.transaction x) :=
    fun _ => rfl
  have hserved : createTransferHandler (transferEnv (.ok (.transaction x)))
      (transferRequest amount) startWorld =
        answerCall (transferCall amount) ⟨"client-alice", tenantA, "operator",
          "transfer balance", ""⟩ 201 (transferEnv (.ok (.transaction x))) startWorld := by
    unfold createTransferHandler
    rw [hclaims]
    simp only [transferRequest_body, if_neg (not_le.mpr hpos), transferCall]
  rw [hserved, answerCall, hdb]
  exact ⟨_, _, rfl, rfl⟩

/-- The run of a transfer that ends with a transaction. -/
theorem transferRun_returned (amount : Decimal) (h : (transferRun amount).any (fun s =>
      match s.prog 0 with
      | .ret (.ok (.transaction _)) => true
      | _ => false) = true) :
    ∃ s x, transferRun amount = some s ∧ s.prog 0 = .ret (.ok (.transaction x)) := by
  obtain ⟨s, hs, hprog⟩ := (Option.any_eq_true _ _).mp h
  split at hprog
  · rename_i x hx
    exact ⟨s, x, hs, hx⟩
  · cases hprog

/-- A transfer of 100.5: the three amounts agree. -/
theorem transfer_amounts_iff_rent :
    ∃ s row log x, transferRun ⟨1005, 1⟩ = some s ∧ s.shared.byCall 0 = ⟨[row], [log]⟩ ∧
      AmountsAgree row log x := by
  have hpos : 0 < (⟨1005, 1⟩ : Decimal).coeff := by decide
  obtain ⟨s, x, hs, hprog⟩ := transferRun_returned ⟨1005, 1⟩ (by decide)
  obtain ⟨body, w', hcreated, hcall⟩ := createTransferHandler_transfer hpos x
  obtain ⟨claims, req, x', row, log, hreq, -, hby, -, -, hiff⟩ :=
    transfer_amounts_iff (LTS.reachable_of_run (.init rfl) hs) hcreated hcall hprog
  rw [transferRequest_body] at hreq
  cases hreq
  exact ⟨s, row, log, x', hs, hby, hiff.mpr ⟨10050, by norm_num [Decimal.toRat]⟩⟩

/-- A transfer of 0.001 passes the check, and is stored as 0.00. -/
theorem transfer_of_tenth_of_cent :
    ∃ s x body w' row log, transferRun ⟨1, 3⟩ = some s ∧
      s.prog 0 = .ret (.ok (.transaction x)) ∧
      createTransferHandler (transferEnv (.ok (.transaction x))) (transferRequest ⟨1, 3⟩)
        startWorld = (⟨201, body⟩, w') ∧
      s.shared.byCall 0 = ⟨[row], [log]⟩ ∧ row.amount = 0 ∧ ¬ AmountsAgree row log x := by
  have hpos : 0 < (⟨1, 3⟩ : Decimal).coeff := by decide
  obtain ⟨s, x, hs, hprog⟩ := transferRun_returned ⟨1, 3⟩ (by decide)
  obtain ⟨body, w', hcreated, -⟩ := createTransferHandler_transfer hpos x
  have hreachable : (callSystem Pg.utc 1 ⟨"secret"⟩ fun _ : Fin 1 => transferCall ⟨1, 3⟩).Reachable
      s := LTS.reachable_of_run (.init rfl) hs
  have hcall : (fun _ : Fin 1 => transferCall ⟨1, 3⟩) 0 = transferCall ⟨1, 3⟩ := rfl
  obtain ⟨-, row, log, hrows, hrow, -⟩ := call_recorded hreachable hcall x hprog
  have hzero : row.amount = 0 := by
    rw [hrow]
    decide
  refine ⟨s, x, body, w', row, log, hs, hprog, hcreated, hrows, hzero, fun hagree => ?_⟩
  have hpositive : 0 < row.amount := hagree.1
  omega

end Gateway
end DarkServices
