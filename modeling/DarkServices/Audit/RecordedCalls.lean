import DarkServices.Audit.ContextTheorems

/-!
# What a call leaves in the tables

`Recorded` says it column by column: the transaction with the amount in hundredths, and the
audit row with the user, the action and the details. `call_precise` is the walk through the
programs that shows it of every call that returns without error, together with what is known
where a call reads: its own transaction has its settings and holds no row yet.
-/

namespace DarkServices
namespace Audit

open Lib

variable {pg : Pg}

/-- The audit row of an action on the transactions. -/
structure EntryOf (tenantID actorSub action : String) (details : Json) (a : AuditRow) : Prop where
  tenant : Uuid.parse tenantID = some a.tenantId
  actor : Uuid.parse (getUserUUID actorSub) = some a.actorId
  action : a.action = action
  resource : a.resource = "transactions"
  details : a.details = some details.toJsonb

/-- The rows of a call that has returned without error. -/
def Recorded : Call → Answer → Rows → Prop
  | .createTransaction tenantID amount description actorSub, .transaction t, rows =>
    ∃ row a, rows = ⟨[row], [a]⟩ ∧
      t = ⟨row.id, tenantID, amount, description, row.createdAt⟩ ∧
      Uuid.parse tenantID = some row.tenantId ∧ row.amount = amount.toCents ∧
      row.description = description ∧
      EntryOf tenantID actorSub "CREATE_TRANSACTION"
        (transactionDetails amount description row.id) a
  | .getBalance tenantID actorSub, .balance _, rows =>
    ∃ a, rows = ⟨[], [a]⟩ ∧ EntryOf tenantID actorSub "GET_BALANCE" (.obj []) a
  | .getAuditLogs _, .logs _, rows => rows = Rows.none
  | _, _, _ => False

/-- The statements that read. -/
def DbOp.isRead : DbOp → Bool
  | .sumAmount | .selectAudit => true
  | _ => false

/-- What holds at a point of a call, besides `Point` and `Scoped`. -/
structure Precise (client : DBClient) (call : Call) (p : DbProg (Except String Answer))
    (l : Local) : Prop where
  begin : ∀ k, p = .op .begin k → l.done = Rows.none
  read : ∀ o k, p = .op o k → o.isRead = true →
    ∃ t, l = ⟨some t, Rows.none⟩ ∧ t.loc = contextOf client call ∧ t.rows = Rows.none
  ret : ∀ a, p = .ret (.ok a) → Recorded call a l.done

section Statements

variable {t : OpenTx} {d : Rows} {l' : Local}

/-- The columns of an inserted transaction. -/
theorem localRel_insertTransaction_row {tenantID description : String} {amount : Decimal}
    {r : Except String (Uuid × Timestamp)}
    (h : localRel pg (.insertTransaction tenantID amount description) ⟨some t, d⟩ r l') :
    (∃ e, r = .error e ∧ l' = ⟨some t.abort, d⟩) ∨
      ∃ row : TransactionRow, r = .ok (row.id, row.createdAt) ∧
        Uuid.parse tenantID = some row.tenantId ∧ row.amount = amount.toCents ∧
        row.description = description ∧
        l' = ⟨some { t with transactions := t.transactions ++ [row] }, d⟩ := by
  obtain ⟨session, c, db, db', hex, hdone⟩ := h
  obtain ⟨tx', done'⟩ := l'
  simp only [execOp] at hex
  simp only [committedBy, Rows.append_none] at hdone
  subst hdone
  obtain ⟨-, ⟨e, rfl, rfl⟩ | ⟨t₀, a, t', ht, -, -, hf, rfl, rfl⟩⟩ := onTx_cases hex
  · exact Or.inl ⟨e, rfl, rfl⟩
  · cases ht
    obtain ⟨row, hrow, heq⟩ := except_map_eq_ok hf
    cases heq
    obtain ⟨-, hparse, -, hamount, hdescription, -⟩ := insertTransactionRow_ok hrow
    exact Or.inr ⟨row, rfl, hparse, hamount, hdescription, rfl⟩

/-- The columns of an inserted audit row. -/
theorem localRel_insertAudit_row {actorID tenantID action resource : String} {details : Json}
    {r : Except String Unit}
    (h : localRel pg (.insertAudit actorID tenantID action resource details) ⟨some t, d⟩ r l') :
    (∃ e, r = .error e ∧ l' = ⟨some t.abort, d⟩) ∨
      ∃ row : AuditRow, r = .ok () ∧ Uuid.parse tenantID = some row.tenantId ∧
        Uuid.parse actorID = some row.actorId ∧ row.action = action ∧ row.resource = resource ∧
        row.details = some details.toJsonb ∧
        l' = ⟨some { t with auditLogs := t.auditLogs ++ [row] }, d⟩ := by
  obtain ⟨session, c, db, db', hex, hdone⟩ := h
  obtain ⟨tx', done'⟩ := l'
  simp only [execOp, Prod.mk.injEq] at hex
  simp only [committedBy, Rows.append_none] at hdone
  subst hdone
  obtain ⟨hr, -, htx⟩ := hex
  obtain ⟨-, ⟨e, he, hab⟩ | ⟨t₀, a, t', ht, -, -, hf, hok, hsome⟩⟩ :=
    onTx_cases (Prod.mk.eta (p := onTx c db (some t) _)).symm
  · exact Or.inl ⟨e, hr.symm.trans he, by rw [← htx]; exact congrArg (Local.mk · done') hab⟩
  · cases ht
    obtain ⟨n, hn, hf⟩ := except_bind_eq_ok hf
    obtain ⟨row, hrow, heq⟩ := except_map_eq_ok hf
    cases heq
    obtain ⟨actor, tenant, hactor, hparse, rfl⟩ := newAudit_ok hn
    have hcolumns := (insertAuditRow_ok hrow).1
    simp only [AuditRow.columns, NewAudit.mk.injEq] at hcolumns
    obtain ⟨-, -, rfl, rfl, haction, hresource, hdetails⟩ := hcolumns
    refine Or.inr ⟨row, hr.symm.trans hok, hparse, hactor, haction, hresource, hdetails, ?_⟩
    rw [← htx]
    exact congrArg (Local.mk · done') hsome

end Statements

section Programs

variable {client : DBClient} {call : Call} {o : DbOp} {l : Local} {t : OpenTx}
  {k : Reply o → DbProg (Except String Answer)}

/-- A point before an operation that neither begins nor reads. -/
theorem Precise.op (ho : o.isRead = false) (hbegin : o ≠ .begin) :
    Precise client call (.op o k) l where
  begin k' hp := by
    cases hp
    exact absurd rfl hbegin
  read o' k' hp hread := by
    cases hp
    rw [ho] at hread
    cases hread
  ret := nofun

/-- A point before a reading statement. -/
theorem Precise.reads (hloc : t.loc = contextOf client call) (hrows : t.rows = Rows.none) :
    Precise client call (.op o k) ⟨some t, Rows.none⟩ :=
  ⟨fun _ _ => rfl, fun _ _ _ _ => ⟨t, rfl, hloc, hrows⟩, nofun⟩

theorem Precise.error (e : String) : Precise client call (.ret (.error e)) l :=
  ⟨nofun, nofun, nofun⟩

theorem precise_cleanup (e : String) :
    Prog.Always (localRel pg) (Precise client call) (cleanup e) l := by
  refine ⟨.op rfl (by simp), fun _ l' _ => ?_⟩
  refine ⟨.op rfl (by simp), fun _ l'' _ => ?_⟩
  exact .error _

/-- Committing what is recorded. -/
theorem precise_commitAndReset {a : Answer} (h : Recorded call a t.rows) :
    Prog.Always (localRel pg) (Precise client call) (commitAndReset a) ⟨some t, Rows.none⟩ := by
  refine ⟨.op rfl (by simp), fun r l' hrel => ?_⟩
  obtain ⟨e, rfl, rfl⟩ | ⟨rfl, rfl⟩ := localRel_commit hrel
  · exact precise_cleanup _
  · refine ⟨.op rfl (by simp), fun r l' hrel => ?_⟩
    rw [localRel_resetExec hrel, Rows.none_append]
    refine ⟨nofun, nofun, fun b hb => ?_⟩
    cases hb
    exact h

/-- The body starts in a transaction with the settings of the call and no rows. -/
theorem precise_withTx {body : DbProg (Except String Answer)}
    (hbody : ∀ t : OpenTx, t.loc = contextOf client call → t.transactions = [] →
      t.auditLogs = [] →
      Prog.Always (localRel pg) (Precise client call) body ⟨some t, Rows.none⟩) :
    Prog.Always (localRel pg) (Precise client call) (withTx client call.tenantID body)
      ⟨none, Rows.none⟩ := by
  have hstart : ∀ k : Except String Unit → DbProg (Except String Answer),
      Precise client call (.op .begin k) ⟨none, Rows.none⟩ := by
    refine fun k => ⟨fun _ _ => rfl, fun o' k' hp hread => ?_, nofun⟩
    cases hp
    cases hread
  refine ⟨hstart _, fun r l' h => ?_⟩
  obtain ⟨e, rfl, rfl⟩ | ⟨session, now, rfl, rfl⟩ := localRel_begin h
  · exact .error _
  refine ⟨.op rfl (by simp), fun r l' h => ?_⟩
  obtain ⟨e, rfl, rfl⟩ | ⟨rfl, rfl⟩ := localRel_setConfig h
  · exact precise_cleanup _
  refine ⟨.op rfl (by simp), fun r l' h => ?_⟩
  obtain ⟨e, rfl, rfl⟩ | ⟨rfl, rfl⟩ := localRel_setConfig h
  · exact precise_cleanup _
  exact hbody _ rfl rfl rfl

/-- **The walk.** It holds at every point of every call. -/
theorem call_precise (client : DBClient) (call : Call) :
    Prog.Always (localRel pg) (Precise client call) (call.program client) ⟨none, Rows.none⟩ := by
  cases call with
  | createTransaction tenantID amount description actorSub =>
    simp only [Call.program, createTransaction, mapResult_withTx, mapResult_op,
      mapResult_orCleanup, mapResult_commitAndReset]
    refine precise_withTx fun t _ htx hau => ⟨.op rfl (by simp), fun r l' h => ?_⟩
    obtain ⟨e, rfl, rfl⟩ | ⟨row, rfl, htenant, hamount, hdescription, rfl⟩ :=
      localRel_insertTransaction_row h
    · exact precise_cleanup _
    refine ⟨.op rfl (by simp), fun r l' h => ?_⟩
    obtain ⟨e, rfl, rfl⟩ | ⟨a, rfl, hatenant, hactor, haction, hresource, hdetails, rfl⟩ :=
      localRel_insertAudit_row h
    · exact precise_cleanup _
    refine precise_commitAndReset ⟨row, a, ?_, rfl, htenant, hamount, hdescription,
      hatenant, hactor, haction, hresource, hdetails⟩
    simp [OpenTx.rows, htx, hau]
  | getBalance tenantID actorSub =>
    simp only [Call.program, getBalance, mapResult_withTx, mapResult_op,
      mapResult_orCleanup, mapResult_commitAndReset]
    refine precise_withTx fun t hloc htx hau => ?_
    refine ⟨.reads hloc (by simp [OpenTx.rows, htx, hau, Rows.none]), fun r l' h => ?_⟩
    obtain ⟨e, rfl, rfl⟩ | ⟨balance, rfl, rfl⟩ := localRel_sumAmount h
    · exact precise_cleanup _
    refine ⟨.op rfl (by simp), fun r l' h => ?_⟩
    obtain ⟨e, rfl, rfl⟩ | ⟨a, rfl, hatenant, hactor, haction, hresource, hdetails, rfl⟩ :=
      localRel_insertAudit_row h
    · exact precise_cleanup _
    refine precise_commitAndReset ⟨a, ?_, hatenant, hactor, haction, hresource, hdetails⟩
    simp [OpenTx.rows, htx, hau]
  | getAuditLogs tenantID =>
    simp only [Call.program, getAuditLogs, mapResult_withTx, mapResult_op,
      mapResult_orCleanup, mapResult_commitAndReset]
    refine precise_withTx fun t hloc htx hau => ?_
    have hrows : t.rows = Rows.none := by simp [OpenTx.rows, htx, hau, Rows.none]
    refine ⟨.reads hloc hrows, fun r l' h => ?_⟩
    obtain ⟨e, rfl, rfl⟩ | ⟨logs, rfl, rfl⟩ := localRel_selectAudit h
    · exact precise_cleanup _
    exact precise_commitAndReset hrows

end Programs

/-! ## What a statement commits and reads -/

/-- The rows an operation commits were pending. -/
theorem committedBy_pending (o : DbOp) (r : Reply o) (tx : Option OpenTx) :
    committedBy o r tx = Rows.none ∨ committedBy o r tx = pending tx := by
  cases tx with
  | none =>
    left
    cases o with
    | commit => cases r <;> rfl
    | _ => rfl
  | some t =>
    cases o with
    | commit =>
      cases r with
      | error e => exact Or.inl rfl
      | ok a => exact Or.inr rfl
    | _ => exact Or.inl rfl

/-- The rows that the policies show to a transaction with the settings of a call. -/
theorem usingPolicy_context {α : Type} {client : DBClient} {call : Call} {tenantOf : α → Uuid}
    {rows seen : List α} (h : usingPolicy (contextOf client call) tenantOf rows = .ok seen) :
    seen = rows.filter fun r => Uuid.parse call.tenantID = some (tenantOf r) := by
  unfold usingPolicy at h
  split at h
  · rename_i he
    rw [List.isEmpty_iff] at he
    cases h
    rw [he, List.filter_nil]
  · obtain ⟨p, hp, hseen⟩ := except_map_eq_ok h
    rw [← hseen]
    have hpolicy : p = Uuid.parse call.tenantID := by
      unfold policyTenant contextOf nullIfEmpty at hp
      split at hp
      · rename_i hnull
        cases hp
        split at hnull
        · rename_i htenant
          rw [Option.some_injective _ htenant]
          decide
        · cases hnull
      · rename_i v hnull
        split at hnull
        · cases hnull
        · cases hnull
          split at hp
          · rename_i u hu
            cases hp
            exact hu.symm
          · cases hp
    rw [hpolicy]

end Audit
end DarkServices
