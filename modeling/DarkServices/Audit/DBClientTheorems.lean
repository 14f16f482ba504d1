import DarkServices.Audit.DBClient
import DarkServices.Lib.HashChain

/-!
# What the statements and the three calls do

* the statement lemmas: what a successful insert has written, and what a failed statement
  leaves behind (`onTx_cases`, `insertAuditRow_ok`), summed up in `execOp_effect`;
* `Point`, everything the later modules need to know about a point in the program of a
  call, and `call_always`: it holds at every point of every call, whatever the database
  answers. This is the only walk through the program texts.
-/

namespace DarkServices
namespace Audit

open Lib

variable {pg : Pg}

/-! ## Statements -/

section Except

variable {α β : Type}

theorem except_map_eq_ok {f : α → β} {x : Except String α} {b : β} (h : x.map f = .ok b) :
    ∃ a, x = .ok a ∧ f a = b := by
  cases x with
  | error e => cases h
  | ok a => exact ⟨a, rfl, by cases h; rfl⟩

theorem except_bind_eq_ok {f : α → Except String β} {x : Except String α} {b : β}
    (h : x.bind f = .ok b) : ∃ a, x = .ok a ∧ f a = .ok b := by
  cases x with
  | error e => cases h
  | ok a => exact ⟨a, rfl, h⟩

end Except

/-- A transaction in which a statement has failed. -/
def OpenTx.abort (t : OpenTx) : OpenTx := { t with failed := true }

/-- A statement fails and aborts its transaction, or succeeds in an intact one. -/
theorem onTx_cases {α : Type} {c : Choice} {db db' : Db} {tx tx' : Option OpenTx}
    {f : OpenTx → Except String (α × OpenTx)} {r : Except String α}
    (h : onTx c db tx f = (r, db', tx')) :
    db' = db ∧ ((∃ e, r = .error e ∧ tx' = tx.map OpenTx.abort) ∨
      ∃ t a t', tx = some t ∧ t.failed = false ∧ c.fail = none ∧ f t = .ok (a, t') ∧
        r = .ok a ∧ tx' = some t') := by
  unfold onTx at h
  split at h
  · cases h
    exact ⟨rfl, Or.inl ⟨_, rfl, rfl⟩⟩
  · rename_i t
    split at h
    · rename_i hf
      cases h
      refine ⟨rfl, Or.inl ⟨_, rfl, ?_⟩⟩
      rw [Option.map_some, OpenTx.abort, ← hf]
    · rename_i hf
      split at h
      · cases h
        exact ⟨rfl, Or.inl ⟨_, rfl, rfl⟩⟩
      · rename_i hc
        split at h
        · cases h
          exact ⟨rfl, Or.inl ⟨_, rfl, rfl⟩⟩
        · rename_i a t' hft
          cases h
          exact ⟨rfl, Or.inr ⟨t, a, t', rfl, by simpa using hf, hc, hft, rfl, rfl⟩⟩

/-- `Commit` makes the rows of an intact transaction visible, or fails; either way the
transaction is over. -/
theorem commitTx_cases {c : Choice} {db db' : Db} {tx tx' : Option OpenTx}
    {r : Except String Unit} (h : commitTx c db tx = (r, db', tx')) :
    tx' = none ∧ ((∃ e, r = .error e ∧ db' = db) ∨
      ∃ t, tx = some t ∧ t.failed = false ∧ c.fail = none ∧ r = .ok () ∧
        db' = { db with transactions := db.transactions ++ t.transactions,
                        auditLogs := db.auditLogs ++ t.auditLogs }) := by
  unfold commitTx at h
  split at h
  · cases h
    exact ⟨rfl, Or.inl ⟨_, rfl, rfl⟩⟩
  · rename_i t
    split at h
    · cases h
      exact ⟨rfl, Or.inl ⟨_, rfl, rfl⟩⟩
    · rename_i hc
      split at h
      · cases h
        exact ⟨rfl, Or.inl ⟨_, rfl, rfl⟩⟩
      · rename_i hf
        cases h
        exact ⟨rfl, Or.inr ⟨t, rfl, by simpa using hf, hc, rfl, rfl⟩⟩

/-- The rows a policy shows are the rows of the tenant it names. -/
theorem usingPolicy_ok {α : Type} {s : Settings} {tenantOf : α → Uuid} {rows seen : List α}
    {u : Uuid} (hp : policyTenant s = .ok (some u)) (h : usingPolicy s tenantOf rows = .ok seen) :
    seen = rows.filter fun r => tenantOf r = u := by
  unfold usingPolicy at h
  split at h
  · rename_i he
    rw [List.isEmpty_iff] at he
    cases h
    rw [he, List.filter_nil]
  · rw [hp] at h
    cases h
    exact List.filter_congr fun r _ => by simp [eq_comm]

theorem withCheckPolicy_ok {s : Settings} {table : String} {u : Uuid}
    (h : withCheckPolicy s table u = .ok ()) : policyTenant s = .ok (some u) := by
  unfold withCheckPolicy at h
  split at h
  · cases h
  · rename_i t ht
    split at h
    · rename_i he
      rw [ht, he]
    · cases h

/-- What a successful insert into `transactions` has written. -/
theorem insertTransactionRow_ok {db : Db} {t : OpenTx} {c : Choice} {tenantID : String}
    {amount : Decimal} {description : String} {row : TransactionRow}
    (h : insertTransactionRow db t c tenantID amount description = .ok row) :
    row.id = c.uuid ∧ Uuid.parse tenantID = some row.tenantId ∧ row.createdAt = t.now ∧
      row.amount = amount.toCents ∧ row.description = description ∧
      (∀ q ∈ db.transactions ++ t.transactions, q.id ≠ row.id) ∧
      policyTenant t.settings = .ok (some row.tenantId) := by
  unfold insertTransactionRow at h
  split at h
  · cases h
  · rename_i tenant hparse
    split at h
    · cases h
    · split at h
      · cases h
      · split at h
        · cases h
        · rename_i hcheck
          split at h
          · cases h
          · rename_i hfresh
            cases h
            simp only [List.any_eq_true, decide_eq_true_eq, not_exists, not_and] at hfresh
            exact ⟨rfl, hparse, rfl, rfl, rfl, hfresh, withCheckPolicy_ok hcheck⟩

/-- The columns of a new audit row. -/
theorem newAudit_ok {db : Db} {t : OpenTx} {actorID tenantID action resource : String}
    {details : Json} {n : NewAudit}
    (h : newAudit db t actorID tenantID action resource details = .ok n) :
    ∃ actor tenant, Uuid.parse actorID = some actor ∧ Uuid.parse tenantID = some tenant ∧
      n = ⟨db.auditSeq, t.now, actor, tenant, action, resource, some details.toJsonb⟩ := by
  unfold newAudit at h
  split at h
  · rename_i actor tenant ha ht
    split at h
    · cases h
    · split at h
      · cases h
      · cases h
        exact ⟨actor, tenant, ha, ht, rfl⟩
  · cases h
  · cases h

/-- The columns of a row without its hashes. -/
def AuditRow.columns (r : AuditRow) : NewAudit :=
  ⟨r.id, r.timestamp, r.actorId, r.tenantId, r.action, r.resource, r.details⟩

/-- A new audit row is linked to the last row of its tenant that the statement sees. -/
theorem insertAuditRow_ok {db : Db} {t : OpenTx} {n : NewAudit} {row : AuditRow}
    (h : insertAuditRow pg db t n = .ok row) :
    row.columns = n ∧ policyTenant t.settings = .ok (some row.tenantId) ∧
      row.prevHash = lastBlockHash
        ((db.auditLogs ++ t.auditLogs).filter fun r => r.tenantId = row.tenantId) ∧
      ∃ secret, nullIfEmpty t.settings.auditSecret = some secret ∧
        row.blockHash = blockHashOf secret (concatText pg row.columns row.prevHash) := by
  unfold insertAuditRow at h
  split at h
  · cases h
  · rename_i visible hvis
    split at h
    · cases h
    · rename_i r hr
      split at h
      · cases h
      · rename_i hcheck
        have hpol := withCheckPolicy_ok hcheck
        cases h
        unfold hashAuditRecord at hr
        split at hr
        · cases hr
        · rename_i secret hsecret
          cases hr
          refine ⟨rfl, hpol, ?_, secret, hsecret, rfl⟩
          exact congrArg lastBlockHash (usingPolicy_ok hpol hvis)

/-! ## What an operation does to the tables and to the transaction -/

/-- The rows a call has inserted and not committed. -/
def pending (tx : Option OpenTx) : Rows := (tx.map OpenTx.rows).getD Rows.none

@[simp] theorem pending_none : pending none = Rows.none := rfl

@[simp] theorem pending_some (t : OpenTx) : pending (some t) = t.rows := rfl

@[simp] theorem OpenTx.rows_transactions (t : OpenTx) : t.rows.transactions = t.transactions :=
  rfl

@[simp] theorem OpenTx.rows_auditLogs (t : OpenTx) : t.rows.auditLogs = t.auditLogs := rfl

@[simp] theorem Rows.none_transactions : Rows.none.transactions = [] := rfl

@[simp] theorem Rows.none_auditLogs : Rows.none.auditLogs = [] := rfl

/-- The effects of an operation on the committed rows and on the pending ones. -/
inductive Effect (pg : Pg) (c : Choice) (db : Db) (tx : Option OpenTx) :
    (o : DbOp) → Reply o → Db → Option OpenTx → Prop
  /-- nothing is written; the transaction may be over -/
  | quiet {o : DbOp} {r : Reply o} {db' : Db} {tx' : Option OpenTx}
      (transactions : db'.transactions = db.transactions)
      (auditLogs : db'.auditLogs = db.auditLogs) (auditSeq : db.auditSeq ≤ db'.auditSeq)
      (none : committedBy o r tx = Rows.none)
      (rows : pending tx' = Rows.none ∨ pending tx' = pending tx) : Effect pg c db tx o r db' tx'
  | insertTransaction {tenantID description : String} {amount : Decimal} {t : OpenTx}
      {row : TransactionRow} (open_ : tx = some t) (allowed : c.fail = .none)
      (insert : insertTransactionRow db t c tenantID amount description = .ok row) :
      Effect pg c db tx (.insertTransaction tenantID amount description)
        (.ok (row.id, row.createdAt)) db
        (some { t with transactions := t.transactions ++ [row] })
  | insertAudit {actorID tenantID action resource : String} {details : Json} {t : OpenTx}
      {n : NewAudit} {row : AuditRow} (open_ : tx = some t)
      (new : newAudit db t actorID tenantID action resource details = .ok n)
      (insert : insertAuditRow pg db t n = .ok row) :
      Effect pg c db tx (.insertAudit actorID tenantID action resource details) (.ok ())
        { db with auditSeq := db.auditSeq + 1 }
        (some { t with auditLogs := t.auditLogs ++ [row] })
  | commit {t : OpenTx} (open_ : tx = some t) :
      Effect pg c db tx .commit (.ok ())
        { db with transactions := db.transactions ++ t.transactions,
                  auditLogs := db.auditLogs ++ t.auditLogs } Option.none

theorem pending_abort (tx : Option OpenTx) : pending (tx.map OpenTx.abort) = pending tx := by
  cases tx <;> rfl

theorem seqAfter_ge (db : Db) (tx : Option OpenTx) (new : OpenTx → Except String NewAudit) :
    db.auditSeq ≤ seqAfter db tx new := by
  unfold seqAfter
  split
  · exact le_rfl
  · split
    · exact le_rfl
    · split
      · exact le_rfl
      · exact Nat.le_succ _

/-- A statement that only reads or sets a parameter. -/
theorem onTx_quiet {α : Type} {c : Choice} {db db' : Db} {tx tx' : Option OpenTx}
    {f : OpenTx → Except String (α × OpenTx)} {r : Except String α}
    (hf : ∀ t a t', f t = .ok (a, t') → t'.rows = t.rows)
    (h : onTx c db tx f = (r, db', tx')) : db' = db ∧ pending tx' = pending tx := by
  obtain ⟨rfl, ⟨e, -, rfl⟩ | ⟨t, a, t', rfl, -, -, hft, -, rfl⟩⟩ := onTx_cases h
  · exact ⟨rfl, pending_abort tx⟩
  · exact ⟨rfl, hf t a t' hft⟩

/-- Every operation has one of the effects. -/
theorem execOp_effect {session : Settings} {c : Choice} {o : DbOp} {db db' : Db}
    {tx tx' : Option OpenTx} {r : Reply o} (h : execOp pg session c o db tx = (r, db', tx')) :
    Effect pg c db tx o r db' tx' := by
  cases o with
  | begin =>
    simp only [execOp] at h
    split at h <;> cases h
    · exact .quiet rfl rfl le_rfl rfl (Or.inr rfl)
    · exact .quiet rfl rfl le_rfl rfl (Or.inl rfl)
  | setConfig k v =>
    simp only [execOp] at h
    obtain ⟨rfl, hrows⟩ := onTx_quiet (by rintro t a t' ⟨⟩; rfl) h
    exact .quiet rfl rfl le_rfl rfl (Or.inr hrows)
  | insertTransaction tenantID amount description =>
    simp only [execOp] at h
    obtain ⟨rfl, ⟨e, rfl, rfl⟩ | ⟨t, a, t', rfl, -, hc, hf, rfl, rfl⟩⟩ := onTx_cases h
    · exact .quiet rfl rfl le_rfl rfl (Or.inr (pending_abort tx))
    · obtain ⟨row, hrow, heq⟩ := except_map_eq_ok hf
      cases heq
      exact .insertTransaction rfl hc hrow
  | sumAmount =>
    simp only [execOp] at h
    obtain ⟨rfl, hrows⟩ := onTx_quiet (fun t a t' hf => by
      obtain ⟨_, -, heq⟩ := except_map_eq_ok hf
      cases heq
      rfl) h
    exact .quiet rfl rfl le_rfl rfl (Or.inr hrows)
  | insertAudit actorID tenantID action resource details =>
    simp only [execOp, Prod.mk.injEq] at h
    obtain ⟨rfl, rfl, rfl⟩ := h
    obtain ⟨-, ⟨e, he, hab⟩ | ⟨t, a, t', rfl, hfail, -, hf, hok, hsome⟩⟩ :=
      onTx_cases (Prod.mk.eta (p := onTx c db tx _)).symm
    · refine .quiet rfl rfl (seqAfter_ge ..) ?_ (Or.inr ?_)
      · rfl
      · rw [hab, pending_abort]
    · obtain ⟨n, hn, hf⟩ := except_bind_eq_ok hf
      obtain ⟨row, hrow, heq⟩ := except_map_eq_ok hf
      cases heq
      have hseq : seqAfter db (some t)
          (fun t => newAudit db t actorID tenantID action resource details) = db.auditSeq + 1 := by
        simp only [seqAfter, hfail, hn]
        rfl
      rw [hok, hsome, hseq]
      exact .insertAudit rfl hn hrow
  | selectAudit =>
    simp only [execOp] at h
    obtain ⟨rfl, hrows⟩ := onTx_quiet (fun t a t' hf => by
      obtain ⟨_, -, heq⟩ := except_map_eq_ok hf
      cases heq
      rfl) h
    exact .quiet rfl rfl le_rfl rfl (Or.inr hrows)
  | commit =>
    simp only [execOp] at h
    obtain ⟨rfl, ⟨e, rfl, rfl⟩ | ⟨t, rfl, -, -, rfl, rfl⟩⟩ := commitTx_cases h
    · exact .quiet rfl rfl le_rfl rfl (Or.inl rfl)
    · exact .commit rfl
  | rollback =>
    cases h
    exact .quiet rfl rfl le_rfl rfl (Or.inl rfl)
  | resetExec =>
    cases h
    exact .quiet rfl rfl le_rfl rfl (Or.inr rfl)

/-- An operation changes the tables by the rows it commits. -/
theorem Effect.tables {c : Choice} {o : DbOp} {db db' : Db} {tx tx' : Option OpenTx}
    {r : Reply o} (h : Effect pg c db tx o r db' tx') :
    db'.transactions = db.transactions ++ (committedBy o r tx).transactions ∧
      db'.auditLogs = db.auditLogs ++ (committedBy o r tx).auditLogs := by
  cases h with
  | quiet htx hau _ hnone => simp [htx, hau, hnone, Rows.none]
  | insertTransaction => simp [committedBy, Rows.none]
  | insertAudit => simp [committedBy, Rows.none]
  | commit ht =>
    subst ht
    exact ⟨rfl, rfl⟩

/-! ## The part of the state a call owns -/

/-- The open transaction of a call, and the rows it has committed. -/
structure Local where
  tx : Option OpenTx
  done : Rows

/-- How an operation may change what the call owns, whatever the tables hold, whatever
connection it got and whatever fails. -/
def localRel (pg : Pg) (o : DbOp) (l : Local) (r : Reply o) (l' : Local) : Prop :=
  ∃ session c db db', execOp pg session c o db l.tx = (r, db', l'.tx) ∧
    l'.done = l.done.append (committedBy o r l.tx)

@[simp] theorem Rows.append_none (a : Rows) : a.append Rows.none = a := by
  simp [Rows.append, Rows.none]

@[simp] theorem Rows.none_append (a : Rows) : Rows.none.append a = a := by
  simp [Rows.append, Rows.none]

/-- The transaction id in the details of an audit row. -/
def AuditRow.txId (a : AuditRow) : Option String :=
  match a.details with
  | some (.obj m) =>
    match Json.lookup m "tx_id" with
    | some (.str s) => some s
    | _ => none
  | _ => none

/-- The rows a finished call has written: one audit row, and for `CreateTransaction` one
transaction row of the same tenant to which the audit row refers. -/
def Complete : Call → Rows → Prop
  | .createTransaction tenantID _ _ _, rows => ∃ row a, rows = ⟨[row], [a]⟩ ∧
      Uuid.parse tenantID = some row.tenantId ∧ a.tenantId = row.tenantId ∧
      a.action = "CREATE_TRANSACTION" ∧ a.txId = some row.id.text
  | .getBalance tenantID _, rows => ∃ a, rows = ⟨[], [a]⟩ ∧
      Uuid.parse tenantID = some a.tenantId ∧ a.action = "GET_BALANCE"
  | .getAuditLogs _, rows => rows = Rows.none

/-- The rows committed by a call that has returned. -/
def Accounted (call : Call) : Except String Answer → Rows → Prop
  | .error _, rows => rows = Rows.none
  | .ok a, rows =>
    match call, a with
    | .createTransaction .., .transaction t =>
      Complete call rows ∧ rows.transactions.map TransactionRow.id = [t.id]
    | .getBalance .., .balance _ => Complete call rows
    | .getAuditLogs .., .logs _ => Complete call rows
    | _, _ => False

/-- The two operations of the deferred clean-up. -/
def InCleanup {α : Type} (p : DbProg α) : Prop :=
  (∃ k, p = .op .resetExec k) ∨ ∃ k, p = .op .rollback k

/-- Every row of the open transaction is the tenant's, and at most one is an audit row. -/
def OpenTx.RowsOf (t : OpenTx) (tenantID : String) : Prop :=
  t.auditLogs.length ≤ 1 ∧
    (∀ r ∈ t.auditLogs, Uuid.parse tenantID = some r.tenantId) ∧
    ∀ r ∈ t.transactions, Uuid.parse tenantID = some r.tenantId

/-- What holds at a point `p` of the program of a call. -/
structure Point (call : Call) (p : DbProg (Except String Answer)) (l : Local) : Prop where
  /-- a call that has returned holds no transaction and has committed what it says -/
  ret : ∀ a, p = .ret a → l.tx = none ∧ Accounted call a l.done
  begin : ∀ k, p = .op .begin k → l.tx = none
  /-- a statement of the open transaction has failed exactly in the clean-up -/
  failed : ∀ t, l.tx = some t → (t.failed = true ↔ InCleanup p)
  commit : ∀ k t, p = .op .commit k → l.tx = some t → Complete call t.rows
  done : l.done = Rows.none ∨ (l.tx = none ∧ Complete call l.done)
  /-- the audit row is the last thing written -/
  audit : ∀ a n x y d k t, p = .op (.insertAudit a n x y d) k → l.tx = some t →
    t.auditLogs = [] ∧ n = call.tenantID
  rows : ∀ t, l.tx = some t → t.RowsOf call.tenantID

/-! ## One operation of an open transaction -/

section Statements

variable {t : OpenTx} {d : Rows} {l' : Local}

theorem localRel_setConfig {k : Setting} {v : String} {r : Except String Unit}
    (h : localRel pg (.setConfig k v) ⟨some t, d⟩ r l') :
    (∃ e, r = .error e ∧ l' = ⟨some t.abort, d⟩) ∨
      (r = .ok () ∧ l' = ⟨some { t with loc := t.loc.set k v }, d⟩) := by
  obtain ⟨session, c, db, db', hex, hdone⟩ := h
  obtain ⟨tx', done'⟩ := l'
  simp only [execOp] at hex
  simp only [committedBy, Rows.append_none] at hdone
  subst hdone
  obtain ⟨-, ⟨e, rfl, rfl⟩ | ⟨t₀, a, t', ht, -, -, hf, rfl, rfl⟩⟩ := onTx_cases hex
  · exact Or.inl ⟨e, rfl, rfl⟩
  · cases ht
    cases hf
    exact Or.inr ⟨rfl, rfl⟩

theorem localRel_insertTransaction {tenantID description : String} {amount : Decimal}
    {r : Except String (Uuid × Timestamp)}
    (h : localRel pg (.insertTransaction tenantID amount description) ⟨some t, d⟩ r l') :
    (∃ e, r = .error e ∧ l' = ⟨some t.abort, d⟩) ∨
      ∃ row : TransactionRow, r = .ok (row.id, row.createdAt) ∧
        Uuid.parse tenantID = some row.tenantId ∧ row.amount = amount.toCents ∧
        l' = ⟨some { t with transactions := t.transactions ++ [row] }, d⟩ := by
  obtain ⟨session, c, db, db', hex, hdone⟩ := h
  obtain ⟨tx', done'⟩ := l'
  simp only [execOp] at hex
  simp only [committedBy, Rows.append_none] at hdone
  subst hdone
  obtain ⟨-, ⟨e, rfl, rfl⟩ | ⟨t₀, a, t', ht, -, -, hf, rfl, rfl⟩⟩ := onTx_cases hex
  · exact Or.inl ⟨e, rfl, rfl⟩
  · cases ht
    obtain ⟨row, hrow, heq⟩ := except_map_eq_ok hf
    cases heq
    obtain ⟨-, hparse, -, hamount, -⟩ := insertTransactionRow_ok hrow
    exact Or.inr ⟨row, rfl, hparse, hamount, rfl⟩

theorem localRel_sumAmount {r : Except String ℤ} (h : localRel pg .sumAmount ⟨some t, d⟩ r l') :
    (∃ e, r = .error e ∧ l' = ⟨some t.abort, d⟩) ∨ ∃ n, r = .ok n ∧ l' = ⟨some t, d⟩ := by
  obtain ⟨session, c, db, db', hex, hdone⟩ := h
  obtain ⟨tx', done'⟩ := l'
  simp only [execOp] at hex
  simp only [committedBy, Rows.append_none] at hdone
  subst hdone
  obtain ⟨-, ⟨e, rfl, rfl⟩ | ⟨t₀, a, t', ht, -, -, hf, rfl, rfl⟩⟩ := onTx_cases hex
  · exact Or.inl ⟨e, rfl, rfl⟩
  · cases ht
    obtain ⟨rows, -, heq⟩ := except_map_eq_ok hf
    cases heq
    exact Or.inr ⟨_, rfl, rfl⟩

theorem localRel_selectAudit {r : Except String (List AuditRow)}
    (h : localRel pg .selectAudit ⟨some t, d⟩ r l') :
    (∃ e, r = .error e ∧ l' = ⟨some t.abort, d⟩) ∨ ∃ n, r = .ok n ∧ l' = ⟨some t, d⟩ := by
  obtain ⟨session, c, db, db', hex, hdone⟩ := h
  obtain ⟨tx', done'⟩ := l'
  simp only [execOp] at hex
  simp only [committedBy, Rows.append_none] at hdone
  subst hdone
  obtain ⟨-, ⟨e, rfl, rfl⟩ | ⟨t₀, a, t', ht, -, -, hf, rfl, rfl⟩⟩ := onTx_cases hex
  · exact Or.inl ⟨e, rfl, rfl⟩
  · cases ht
    obtain ⟨rows, -, heq⟩ := except_map_eq_ok hf
    cases heq
    exact Or.inr ⟨_, rfl, rfl⟩

theorem localRel_insertAudit {actorID tenantID action resource : String} {details : Json}
    {r : Except String Unit}
    (h : localRel pg (.insertAudit actorID tenantID action resource details) ⟨some t, d⟩ r l') :
    (∃ e, r = .error e ∧ l' = ⟨some t.abort, d⟩) ∨
      ∃ row : AuditRow, r = .ok () ∧ Uuid.parse tenantID = some row.tenantId ∧
        row.action = action ∧ row.details = some details.toJsonb ∧
        l' = ⟨some { t with auditLogs := t.auditLogs ++ [row] }, d⟩ := by
  obtain ⟨session, c, db, db', hex, hdone⟩ := h
  obtain ⟨tx', done'⟩ := l'
  simp only [execOp, Prod.mk.injEq] at hex
  simp only [committedBy, Rows.append_none] at hdone
  subst hdone
  obtain ⟨hr, -, htx⟩ := hex
  obtain ⟨-, ⟨e, he, hab⟩ | ⟨t₀, a, t', ht, -, -, hf, hok, hsome⟩⟩ :=
    onTx_cases (Prod.mk.eta (p := onTx c db (some t) _)).symm
  · exact Or.inl ⟨e, hr.symm.trans he, by rw [← htx]; exact congrArg (Local.mk · done') hab⟩
  · cases ht
    obtain ⟨n, hn, hf⟩ := except_bind_eq_ok hf
    obtain ⟨row, hrow, heq⟩ := except_map_eq_ok hf
    cases heq
    obtain ⟨actor, tenant, -, hparse, rfl⟩ := newAudit_ok hn
    have hcol := (insertAuditRow_ok hrow).1
    simp only [AuditRow.columns, NewAudit.mk.injEq] at hcol
    obtain ⟨-, -, -, rfl, rfl, -, hdet⟩ := hcol
    refine Or.inr ⟨row, hr.symm.trans hok, hparse, rfl, hdet, ?_⟩
    rw [← htx]
    exact congrArg (Local.mk · done') hsome

theorem localRel_commit {r : Except String Unit} (h : localRel pg .commit ⟨some t, d⟩ r l') :
    (∃ e, r = .error e ∧ l' = ⟨none, d⟩) ∨ (r = .ok () ∧ l' = ⟨none, d.append t.rows⟩) := by
  obtain ⟨session, c, db, db', hex, hdone⟩ := h
  obtain ⟨tx', done'⟩ := l'
  simp only [execOp] at hex
  obtain ⟨rfl, ⟨e, rfl, -⟩ | ⟨t₀, ht, -, -, rfl, -⟩⟩ := commitTx_cases hex
  · simp only [committedBy, Rows.append_none] at hdone
    exact Or.inl ⟨e, rfl, by rw [hdone]⟩
  · cases ht
    simp only [committedBy] at hdone
    exact Or.inr ⟨rfl, by rw [hdone]⟩

theorem localRel_begin {r : Except String Unit} (h : localRel pg .begin ⟨none, d⟩ r l') :
    (∃ e, r = .error e ∧ l' = ⟨none, d⟩) ∨
      ∃ session now, r = .ok () ∧ l' = ⟨some (OpenTx.start session now), d⟩ := by
  obtain ⟨session, c, db, db', hex, hdone⟩ := h
  obtain ⟨tx', done'⟩ := l'
  simp only [execOp] at hex
  simp only [committedBy, Rows.append_none] at hdone
  subst hdone
  split at hex <;> cases hex
  · exact Or.inl ⟨_, rfl, rfl⟩
  · exact Or.inr ⟨_, _, rfl, rfl⟩

theorem localRel_resetExec {l : Local} {r : Unit} (h : localRel pg .resetExec l r l') :
    l' = l := by
  obtain ⟨session, c, db, db', hex, hdone⟩ := h
  obtain ⟨tx', done'⟩ := l'
  cases hex
  simp only [committedBy, Rows.append_none] at hdone
  rw [hdone]

theorem localRel_rollback {l : Local} {r : Unit} (h : localRel pg .rollback l r l') :
    l' = ⟨none, l.done⟩ := by
  obtain ⟨session, c, db, db', hex, hdone⟩ := h
  obtain ⟨tx', done'⟩ := l'
  cases hex
  simp only [committedBy, Rows.append_none] at hdone
  rw [hdone]

end Statements

/-! ## The points of the three calls -/

section Points

variable {call : Call} {α β : Type} {t : OpenTx} {d : Rows} {o : DbOp}
  {k : Reply o → DbProg (Except String Answer)}

/-- A point outside a transaction. -/
theorem Point.outside {p : DbProg (Except String Answer)}
    (hret : ∀ a, p = .ret a → Accounted call a d)
    (hd : d = Rows.none ∨ Complete call d) : Point call p ⟨none, d⟩ where
  ret a h := ⟨rfl, hret a h⟩
  begin _ _ := rfl
  failed := nofun
  commit := nofun
  done := hd.imp_right fun h => ⟨rfl, h⟩
  audit := nofun
  rows := nofun

/-- The statements of the body of a transaction but for the audit row. -/
def DbOp.isPlain : DbOp → Bool
  | .setConfig .. | .insertTransaction .. | .sumAmount | .selectAudit => true
  | _ => false

/-- A statement of an intact transaction. -/
theorem Point.statement (hbegin : o ≠ .begin) (hreset : o ≠ .resetExec)
    (hrollback : o ≠ .rollback) (hcommit : o = .commit → Complete call t.rows)
    (haudit : ∀ a n x y d, o = .insertAudit a n x y d → t.auditLogs = [] ∧ n = call.tenantID)
    (hf : t.failed = false) (hrows : t.RowsOf call.tenantID) :
    Point call (.op o k) ⟨some t, Rows.none⟩ where
  ret := nofun
  begin _ h := by
    cases h
    exact absurd rfl hbegin
  failed t' ht := by
    cases ht
    refine ⟨fun h => by simp [hf] at h, ?_⟩
    rintro (⟨k', h⟩ | ⟨k', h⟩)
    · cases h
      exact absurd rfl hreset
    · cases h
      exact absurd rfl hrollback
  commit _ t' h ht := by
    cases h
    cases ht
    exact hcommit rfl
  done := Or.inl rfl
  audit a n x y d _ t' h ht := by
    cases h
    cases ht
    exact haudit a n x y d rfl
  rows t' ht := by
    cases ht
    exact hrows

/-- A statement that neither ends the transaction nor inserts an audit row. -/
theorem Point.plain (ho : o.isPlain = true) (hf : t.failed = false)
    (hrows : t.RowsOf call.tenantID) : Point call (.op o k) ⟨some t, Rows.none⟩ := by
  have hne : ∀ o', DbOp.isPlain o' = false → o ≠ o' := by
    intro o' ho' heq
    rw [heq, ho'] at ho
    cases ho
  exact Point.statement (hne _ rfl) (hne _ rfl) (hne _ rfl) (fun h => absurd h (hne _ rfl))
    (fun _ _ _ _ _ h => absurd h (hne _ rfl)) hf hrows

/-- The insertion of the audit row. -/
theorem Point.audited {actorID action resource : String} {details : Json}
    {k : Reply (.insertAudit actorID call.tenantID action resource details) →
      DbProg (Except String Answer)} (hau : t.auditLogs = []) (hf : t.failed = false)
    (hrows : t.RowsOf call.tenantID) : Point call (.op _ k) ⟨some t, Rows.none⟩ := by
  refine Point.statement (by simp) (by simp) (by simp) (by simp) ?_ hf hrows
  intro a n x y d h
  cases h
  exact ⟨hau, rfl⟩

/-- The clean-up of a transaction in which a statement has failed. -/
theorem Point.cleanup (ho : o = .resetExec ∨ o = .rollback) (hf : t.failed = true)
    (hrows : t.RowsOf call.tenantID) : Point call (.op o k) ⟨some t, Rows.none⟩ where
  ret := nofun
  begin _ h := by
    cases h
    simp at ho
  failed t' ht := by
    cases ht
    refine ⟨fun _ => ?_, fun _ => hf⟩
    rcases ho with rfl | rfl
    · exact Or.inl ⟨k, rfl⟩
    · exact Or.inr ⟨k, rfl⟩
  commit _ _ h := by
    cases h
    simp at ho
  done := Or.inl rfl
  audit _ _ _ _ _ _ _ h := by
    cases h
    simp at ho
  rows t' ht := by
    cases ht
    exact hrows

/-- The clean-up ends with nothing committed. -/
theorem always_cleanup {tx : Option OpenTx} {e : String}
    (htx : ∀ t, tx = some t → t.failed = true ∧ t.RowsOf call.tenantID) :
    Prog.Always (localRel pg) (Point call) (cleanup e) ⟨tx, Rows.none⟩ := by
  have point : ∀ (o : DbOp) (k : Reply o → DbProg (Except String Answer)),
      o = .resetExec ∨ o = .rollback → Point call (.op o k) ⟨tx, Rows.none⟩ := by
    intro o k ho
    cases tx with
    | none => exact Point.outside nofun (Or.inl rfl)
    | some t => exact Point.cleanup ho (htx t rfl).1 (htx t rfl).2
  refine ⟨point _ _ (Or.inl rfl), fun r l' h => ?_⟩
  rw [localRel_resetExec h]
  refine ⟨point _ _ (Or.inr rfl), fun r l' h => ?_⟩
  rw [localRel_rollback h]
  refine Point.outside (fun a ha => ?_) (Or.inl rfl)
  cases ha
  rfl

/-- A failed statement leads to the clean-up. -/
theorem always_cleanup_abort {e : String} (hrows : t.RowsOf call.tenantID) :
    Prog.Always (localRel pg) (Point call) (cleanup e) ⟨some t.abort, Rows.none⟩ :=
  always_cleanup fun t' ht => by
    cases ht
    exact ⟨rfl, hrows⟩

/-- Committing what the call is accountable for. -/
theorem always_commitAndReset {a : Answer} (hf : t.failed = false)
    (hrows : t.RowsOf call.tenantID) (hcomplete : Complete call t.rows)
    (hacc : Accounted call (.ok a) t.rows) :
    Prog.Always (localRel pg) (Point call) (commitAndReset a) ⟨some t, Rows.none⟩ := by
  refine ⟨Point.statement nofun nofun nofun (fun _ => hcomplete) nofun hf hrows,
    fun r l' h => ?_⟩
  obtain ⟨e, rfl, rfl⟩ | ⟨rfl, rfl⟩ := localRel_commit h
  · exact always_cleanup nofun
  · rw [Rows.none_append]
    refine ⟨Point.outside nofun (Or.inr hcomplete), fun r l' h => ?_⟩
    rw [localRel_resetExec h]
    refine Point.outside (fun b hb => ?_) (Or.inr hcomplete)
    cases hb
    exact hacc

/-- The common start: the body runs in an intact transaction without rows. -/
theorem always_withTx {c : DBClient} {tenantID : String}
    {body : DbProg (Except String Answer)}
    (hbody : ∀ t : OpenTx, t.failed = false → t.transactions = [] → t.auditLogs = [] →
      Prog.Always (localRel pg) (Point call) body ⟨some t, Rows.none⟩) :
    Prog.Always (localRel pg) (Point call) (withTx c tenantID body) ⟨none, Rows.none⟩ := by
  have hempty : ∀ session loc now,
      OpenTx.RowsOf ⟨session, loc, now, [], [], false⟩ call.tenantID := by
    simp [OpenTx.RowsOf]
  refine ⟨Point.outside (fun _ h => by cases h) (Or.inl rfl), fun r l' h => ?_⟩
  obtain ⟨e, rfl, rfl⟩ | ⟨session, now, rfl, rfl⟩ := localRel_begin h
  · refine Point.outside (fun a ha => ?_) (Or.inl rfl)
    cases ha
    rfl
  refine ⟨Point.plain rfl rfl (hempty ..), fun r l' h => ?_⟩
  obtain ⟨e, rfl, rfl⟩ | ⟨rfl, rfl⟩ := localRel_setConfig h
  · exact always_cleanup_abort (hempty ..)
  refine ⟨Point.plain rfl rfl (hempty ..), fun r l' h => ?_⟩
  obtain ⟨e, rfl, rfl⟩ | ⟨rfl, rfl⟩ := localRel_setConfig h
  · exact always_cleanup_abort (hempty ..)
  exact hbody _ rfl rfl rfl

end Points

/-! ### Wrapping the result -/

section MapResult

variable {α β γ : Type} (f : α → β)

@[simp] theorem mapResult_op (o : DbOp) (k : Reply o → DbProg (Except String α)) :
    mapResult f (.op o k) = .op o fun r => mapResult f (k r) := rfl

@[simp] theorem mapResult_orCleanup (msg : String) (r : Except String γ)
    (k : γ → DbProg (Except String α)) :
    mapResult f (orCleanup msg r k) = orCleanup msg r fun b => mapResult f (k b) := by
  cases r <;> rfl

@[simp] theorem mapResult_withTx (c : DBClient) (tenantID : String)
    (body : DbProg (Except String α)) :
    mapResult f (withTx c tenantID body) = withTx c tenantID (mapResult f body) := by
  rw [withTx, withTx, mapResult_op]
  refine congrArg _ (funext fun r => ?_)
  cases r with
  | error e => rfl
  | ok _ => simp only [mapResult_op, mapResult_orCleanup]

@[simp] theorem mapResult_commitAndReset (a : α) :
    mapResult f (commitAndReset a) = commitAndReset (f a) := by
  rw [commitAndReset, commitAndReset, mapResult_op]
  refine congrArg _ (funext fun r => ?_)
  rw [mapResult_orCleanup]
  rfl

end MapResult

/-! ### The three calls -/

/-- The stored details of a transaction, shorter names first. -/
theorem transactionDetails_toJsonb (amount : Decimal) (description : String) (txID : Uuid) :
    (transactionDetails amount description txID).toJsonb = .obj
      [("tx_id", .str txID.text), ("amount", .num amount), ("description", .str description)] := by
  rfl

/-- What the later modules need to know about a call holds at each of its points. -/
theorem call_always (client : DBClient) (call : Call) :
    Prog.Always (localRel pg) (Point call) (call.program client) ⟨none, Rows.none⟩ := by
  cases call with
  | createTransaction tenantID amount description actorSub =>
    simp only [Call.program, createTransaction, mapResult_withTx, mapResult_op,
      mapResult_orCleanup, mapResult_commitAndReset]
    refine always_withTx fun t hf htx hau => ?_
    have hempty : t.RowsOf tenantID := by simp [OpenTx.RowsOf, htx, hau]
    refine ⟨Point.plain rfl hf hempty, fun r l' h => ?_⟩
    obtain ⟨e, rfl, rfl⟩ | ⟨row, rfl, htenant, -, rfl⟩ := localRel_insertTransaction h
    · exact always_cleanup_abort hempty
    have hone : OpenTx.RowsOf { t with transactions := t.transactions ++ [row] } tenantID := by
      simp [OpenTx.RowsOf, htx, hau, htenant]
    refine ⟨Point.audited hau hf hone, fun r l' h => ?_⟩
    obtain ⟨e, rfl, rfl⟩ | ⟨a, rfl, hatenant, haction, hdetails, rfl⟩ := localRel_insertAudit h
    · exact always_cleanup_abort hone
    have hcomplete : Complete (.createTransaction tenantID amount description actorSub)
        ⟨t.transactions ++ [row], t.auditLogs ++ [a]⟩ := by
      refine ⟨row, a, by rw [htx, hau]; rfl, htenant, ?_, haction, ?_⟩
      · exact Option.some_injective _ (hatenant.symm.trans htenant)
      · rw [AuditRow.txId, hdetails, transactionDetails_toJsonb]
        rfl
    refine always_commitAndReset hf ?_ hcomplete ⟨hcomplete, ?_⟩
    · exact ⟨by simp [hau], by simpa [hau] using hatenant, by simpa [htx] using htenant⟩
    · simp [OpenTx.rows, htx]
  | getBalance tenantID actorSub =>
    simp only [Call.program, getBalance, mapResult_withTx, mapResult_op,
      mapResult_orCleanup, mapResult_commitAndReset]
    refine always_withTx fun t hf htx hau => ?_
    have hempty : t.RowsOf tenantID := by simp [OpenTx.RowsOf, htx, hau]
    refine ⟨Point.plain rfl hf hempty, fun r l' h => ?_⟩
    obtain ⟨e, rfl, rfl⟩ | ⟨balance, rfl, rfl⟩ := localRel_sumAmount h
    · exact always_cleanup_abort hempty
    refine ⟨Point.audited hau hf hempty, fun r l' h => ?_⟩
    obtain ⟨e, rfl, rfl⟩ | ⟨a, rfl, hatenant, haction, -, rfl⟩ := localRel_insertAudit h
    · exact always_cleanup_abort hempty
    have hcomplete : Complete (.getBalance tenantID actorSub)
        ⟨t.transactions, t.auditLogs ++ [a]⟩ :=
      ⟨a, by rw [htx, hau]; rfl, hatenant, haction⟩
    refine always_commitAndReset hf ?_ hcomplete hcomplete
    simp [OpenTx.RowsOf, htx, hau, hatenant, Call.tenantID]
  | getAuditLogs tenantID =>
    simp only [Call.program, getAuditLogs, mapResult_withTx, mapResult_op,
      mapResult_orCleanup, mapResult_commitAndReset]
    refine always_withTx fun t hf htx hau => ?_
    have hempty : t.RowsOf tenantID := by simp [OpenTx.RowsOf, htx, hau]
    refine ⟨Point.plain rfl hf hempty, fun r l' h => ?_⟩
    obtain ⟨e, rfl, rfl⟩ | ⟨logs, rfl, rfl⟩ := localRel_selectAudit h
    · exact always_cleanup_abort hempty
    have hcomplete : Complete (.getAuditLogs tenantID) t.rows := by
      rw [Complete, OpenTx.rows, htx, hau, Rows.none]
    exact always_commitAndReset hf hempty hcomplete hcomplete

end Audit
end DarkServices
