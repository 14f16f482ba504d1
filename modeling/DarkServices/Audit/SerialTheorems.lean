import DarkServices.Audit.ChainTheorems
import DarkServices.Audit.Serial

/-!
# What a call leaves behind when calls run one after another

`runCall_rows` says which rows a call adds. The ids of the audit rows stay below the
sequence (`Db.Drawn`), and the ids of transactions are those the server supplies.
-/

namespace DarkServices
namespace Audit

open Lib

variable {pg : Pg} {client : DBClient}

theorem serialSem_effect (pg : Pg) (x : Inputs) (o : DbOp) (s : Db × Option OpenTx) :
    Effect pg ⟨x.fail o, x.now, x.uuid⟩ s.1 s.2 o (serialSem pg x o s).1 (serialSem pg x o s).2.1
      (serialSem pg x o s).2.2 := by
  apply execOp_effect
  rfl

/-! ## The rows of a call -/

theorem serialSem_local (x : Inputs) (o : DbOp) (s : Db × Option OpenTx) (d : Rows) :
    localRel pg o ⟨s.2, d⟩ (serialSem pg x o s).1
      ⟨(serialSem pg x o s).2.2, d.append (committedBy o (serialSem pg x o s).1 s.2)⟩ :=
  ⟨x.session, ⟨x.fail o, x.now, x.uuid⟩, s.1, (serialSem pg x o s).2.1, rfl, rfl⟩

/-- The tables are what they were and what the call has committed since. -/
def Since (db : Db) (s : Db × Option OpenTx) (l : Local) : Prop :=
  s.2 = l.tx ∧ s.1.transactions = db.transactions ++ l.done.transactions ∧
    s.1.auditLogs = db.auditLogs ++ l.done.auditLogs

theorem since_start (db : Db) : Since db (db, none) ⟨none, Rows.none⟩ := by
  simp [Since, Rows.none]

theorem serialSem_since {db : Db} (x : Inputs) (o : DbOp) (s : Db × Option OpenTx) (l : Local)
    (h : Since db s l) : ∃ l', localRel pg o l (serialSem pg x o s).1 l' ∧
      Since db (serialSem pg x o s).2 l' := by
  obtain ⟨tx, done⟩ := l
  obtain ⟨rfl, htransactions, hauditLogs⟩ := h
  obtain ⟨h₁, h₂⟩ := (serialSem_effect pg x o s).tables
  refine ⟨_, serialSem_local x o s done, rfl, ?_, ?_⟩
  · rw [h₁, htransactions, List.append_assoc]
    rfl
  · rw [h₂, hauditLogs, List.append_assoc]
    rfl

/-- A call adds the rows its result accounts for. -/
theorem runCall_rows (pg : Pg) (client : DBClient) (c : Call × Inputs) (db : Db) :
    ∃ rows : Rows, (runCall pg client c db).2.transactions = db.transactions ++ rows.transactions ∧
      (runCall pg client c db).2.auditLogs = db.auditLogs ++ rows.auditLogs ∧
      Accounted c.1 (runCall pg client c db).1 rows := by
  obtain ⟨l, ⟨-, htransactions, hauditLogs⟩, hpoint⟩ :=
    Prog.exec_always (serialSem_since c.2) (call_always client c.1) (since_start db)
  exact ⟨l.done, htransactions, hauditLogs, (hpoint.ret _ rfl).2⟩

/-- The rows of a call are of the tenant it is made for. -/
theorem Accounted.tenant {call : Call} {r : Except String Answer} {rows : Rows}
    (h : Accounted call r rows) :
    (∀ t ∈ rows.transactions, Uuid.parse call.tenantID = some t.tenantId) ∧
      ∀ a ∈ rows.auditLogs, Uuid.parse call.tenantID = some a.tenantId := by
  cases r with
  | error e =>
    rw [show rows = Rows.none from h]
    exact ⟨nofun, nofun⟩
  | ok a =>
    have hcomplete : Complete call rows := by
      cases call <;> cases a <;> first | exact h.1 | exact h | exact h.elim
    cases call with
    | createTransaction tenantID amount description actorSub =>
      obtain ⟨row, a, rfl, hparse, htenant, -⟩ := hcomplete
      simp [hparse, htenant]
    | getBalance tenantID actorSub =>
      obtain ⟨a, rfl, hparse, -⟩ := hcomplete
      simp [hparse]
    | getAuditLogs tenantID =>
      rw [show rows = Rows.none from hcomplete]
      exact ⟨nofun, nofun⟩

/-- Only `CreateTransaction` writes transactions. -/
theorem Accounted.transactions_eq_nil {call : Call} {r : Except String Answer} {rows : Rows}
    (h : Accounted call r rows) (hcall : call.isCreate = false) : rows.transactions = [] := by
  cases r with
  | error e => rw [show rows = Rows.none from h, Rows.none]
  | ok a =>
    cases call with
    | createTransaction => cases hcall
    | getBalance tenantID actorSub =>
      cases a with
      | balance n =>
        obtain ⟨b, rfl, -⟩ := h
        rfl
      | _ => exact h.elim
    | getAuditLogs tenantID =>
      cases a with
      | logs l => rw [show rows = Rows.none from h, Rows.none]
      | _ => exact h.elim

/-! ## The ids of audit rows -/

/-- The ids of the committed and the pending audit rows have been drawn. -/
def Drawn (s : Db × Option OpenTx) : Prop :=
  ∀ r ∈ s.1.auditLogs ++ (pending s.2).auditLogs, r.id < s.1.auditSeq

theorem drawn_effect {c : Choice} {o : DbOp} {db db' : Db} {tx tx' : Option OpenTx} {r : Reply o}
    (hs : Drawn (db, tx)) (h : Effect pg c db tx o r db' tx') : Drawn (db', tx') := by
  intro q hq
  cases h with
  | quiet _ hauditLogs hseq _ hrows =>
    refine lt_of_lt_of_le (hs q ?_) hseq
    simp only [hauditLogs] at hq
    obtain hrows | hrows := hrows
    · rw [hrows] at hq
      exact List.mem_append_left _ (by simpa using hq)
    · rwa [hrows] at hq
  | insertTransaction ht =>
    subst ht
    exact hs q hq
  | @insertAudit actorID tenantID action resource details t n row ht hnew hrow =>
    subst ht
    obtain ⟨actor, tenant, -, -, rfl⟩ := newAudit_ok hnew
    have hid : row.id = db.auditSeq := congrArg NewAudit.id (insertAuditRow_ok hrow).1
    simp only [pending_some, OpenTx.rows, ← List.append_assoc] at hq
    obtain hq | hq := List.mem_append.mp hq
    · exact Nat.lt_succ_of_lt (hs q hq)
    · rw [List.mem_singleton.mp hq, hid]
      exact Nat.lt_succ_self _
  | commit ht =>
    subst ht
    exact hs q (by simpa using hq)

theorem runCall_drawn (pg : Pg) (client : DBClient) (c : Call × Inputs) {db : Db} (h : Drawn (db, none)) :
    Drawn ((runCall pg client c db).2, none) := by
  have hrun : Drawn (Prog.exec (serialSem pg c.2) (c.1.program client) (db, none)).2 :=
    Prog.exec_invariant (I := Drawn)
      (fun o s hs => drawn_effect hs (serialSem_effect pg c.2 o s)) (c.1.program client) h
  intro r hr
  rw [pending_none, Rows.none_auditLogs, List.append_nil] at hr
  exact hrun r (List.mem_append_left _ hr)

/-! ## The ids of transactions -/

/-- The committed and the pending rows are old ones or carry the new id. -/
def KnownIds (old : List TransactionRow) (new : Uuid) (s : Db × Option OpenTx) : Prop :=
  ∀ r ∈ s.1.transactions ++ (pending s.2).transactions, r ∈ old ∨ r.id = new

theorem knownIds_effect {old : List TransactionRow} {c : Choice} {o : DbOp} {db db' : Db}
    {tx tx' : Option OpenTx} {r : Reply o} (hs : KnownIds old c.uuid (db, tx))
    (h : Effect pg c db tx o r db' tx') : KnownIds old c.uuid (db', tx') := by
  intro q hq
  cases h with
  | quiet htransactions _ _ _ hrows =>
    refine hs q ?_
    simp only [htransactions] at hq
    obtain hrows | hrows := hrows
    · rw [hrows] at hq
      exact List.mem_append_left _ (by simpa using hq)
    · rwa [hrows] at hq
  | insertTransaction ht _ hrow =>
    subst ht
    simp only [pending_some, OpenTx.rows, ← List.append_assoc] at hq
    obtain hq | hq := List.mem_append.mp hq
    · exact hs q hq
    · rw [List.mem_singleton.mp hq]
      exact Or.inr (insertTransactionRow_ok hrow).1
  | insertAudit ht =>
    subst ht
    exact hs q hq
  | commit ht =>
    subst ht
    exact hs q (by simpa using hq)

theorem runCall_knownIds (pg : Pg) (client : DBClient) (c : Call × Inputs) (db : Db) :
    ∀ r ∈ (runCall pg client c db).2.transactions, r ∈ db.transactions ∨ r.id = c.2.uuid := by
  have hrun : KnownIds db.transactions c.2.uuid
      (Prog.exec (serialSem pg c.2) (c.1.program client) (db, none)).2 :=
    Prog.exec_invariant (I := KnownIds db.transactions c.2.uuid)
      (fun o s hs => knownIds_effect hs (serialSem_effect pg c.2 o s)) (c.1.program client)
      (fun r hr => Or.inl (by simpa using hr))
  exact fun r hr => hrun r (List.mem_append_left _ hr)

/-- The ids the server supplies to the transactions of the run. -/
def suppliedIds (cs : List (Call × Inputs)) : List Uuid :=
  (cs.filter fun c => c.1.isCreate).map fun c => c.2.uuid

/-- The server supplies each id once, and none that is in use. -/
structure FreshIds (db : Db) (cs : List (Call × Inputs)) : Prop where
  nodup : (suppliedIds cs).Nodup
  unused : ∀ v ∈ suppliedIds cs, ∀ r ∈ db.transactions, r.id ≠ v

theorem FreshIds.next {c : Call × Inputs} {cs : List (Call × Inputs)} {db : Db}
    (h : FreshIds db (c :: cs)) : FreshIds (runCall pg client c db).2 cs := by
  obtain ⟨hnodup, hunused⟩ := h
  cases hcall : c.1.isCreate with
  | false =>
    have hsame : suppliedIds (c :: cs) = suppliedIds cs := by simp [suppliedIds, hcall]
    obtain ⟨rows, htransactions, -, hacc⟩ := runCall_rows pg client c db
    rw [hsame] at hnodup hunused
    refine ⟨hnodup, ?_⟩
    rwa [htransactions, hacc.transactions_eq_nil hcall, List.append_nil]
  | true =>
    have hcons : suppliedIds (c :: cs) = c.2.uuid :: suppliedIds cs := by
      simp [suppliedIds, hcall]
    rw [hcons] at hnodup hunused
    refine ⟨hnodup.of_cons, fun v hv r hr => ?_⟩
    obtain hold | hnew := runCall_knownIds pg client c db r hr
    · exact hunused v (List.mem_cons_of_mem _ hv) r hold
    · rw [hnew]
      rintro rfl
      exact (List.nodup_cons.mp hnodup).1 hv

end Audit
end DarkServices
