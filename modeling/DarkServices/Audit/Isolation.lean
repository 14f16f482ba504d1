import DarkServices.Audit.SerialTheorems

/-!
# Tenant isolation

Two serial runs that agree on the calls of one tenant give that tenant the same results,
the ids of audit rows left out, whatever the calls of the other tenants are.

`Alike u` relates the states of the two runs: tenant `u` sees the same rows in both. Each
operation of a call of `u` keeps the states alike and answers alike (`serialSem_alike`);
a call of another tenant moves one of the states to one that is still alike
(`SameView.other`).
-/

namespace DarkServices
namespace Audit

open Lib

variable {pg : Pg} {client : DBClient} {u : Uuid}

/-! ## What a tenant sees -/

def AuditRow.withoutId (r : AuditRow) : AuditRow := { r with id := 0 }

/-- The answer without the ids of audit rows. -/
def Answer.withoutIds : Answer → Answer
  | .logs rows => .logs (rows.map AuditRow.withoutId)
  | a => a

def hideIds : Except String Answer → Except String Answer := Except.map Answer.withoutIds

/-- The transactions of a tenant. -/
def transactionView (u : Uuid) (rows : List TransactionRow) : List TransactionRow :=
  rows.filter fun r => r.tenantId = u

/-- The audit rows of a tenant in the order of their ids, without the ids. -/
def auditView (u : Uuid) (rows : List AuditRow) : List AuditRow :=
  (orderById (rows.filter fun r => r.tenantId = u)).map AuditRow.withoutId

/-- A row with the largest id comes last in the view of its tenant. -/
theorem auditView_concat {rows : List AuditRow} {r : AuditRow} (hid : ∀ q ∈ rows, q.id ≤ r.id) :
    auditView u (rows ++ [r]) =
      auditView u rows ++ if r.tenantId = u then [r.withoutId] else [] := by
  unfold auditView
  rw [List.filter_append]
  by_cases hu : r.tenantId = u
  · rw [List.filter_cons_of_pos (by simpa using hu), List.filter_nil, orderById,
      insertionSort_concat _ fun q hq => hid q (List.mem_of_mem_filter hq), if_pos hu,
      List.map_append]
    rfl
  · rw [List.filter_cons_of_neg (by simpa using hu), List.filter_nil, if_neg hu,
      List.append_nil, List.append_nil]

/-- The last hash is seen in the view. -/
theorem lastBlockHash_view (rows : List AuditRow) :
    lastBlockHash (rows.filter fun r => r.tenantId = u) =
      ((auditView u rows).getLast?.map AuditRow.blockHash).getD genesisHash := by
  rw [lastBlockHash_eq, HashChain.lastHash, auditView, List.getLast?_map, Option.map_map]
  rfl

/-! ## The policies -/

/-- A policy shows the rows of the tenant it names. -/
theorem usingPolicy_eq {α : Type} {s : Settings} {p : Option Uuid}
    (hp : policyTenant s = .ok p) (tenantOf : α → Uuid) (rows : List α) :
    usingPolicy s tenantOf rows = .ok (rows.filter fun r => p = some (tenantOf r)) := by
  unfold usingPolicy
  split
  · rename_i h
    rw [List.isEmpty_iff.mp h, List.filter_nil]
  · rw [hp]
    rfl

/-- Settings that no policy and no trigger reads a value from. -/
structure Settings.Cleared (s : Settings) : Prop where
  tenantId : nullIfEmpty s.tenantId = none
  auditSecret : nullIfEmpty s.auditSecret = none

theorem Inputs.session_cleared (x : Inputs) : x.session.Cleared := by
  unfold Inputs.session
  split <;> exact ⟨rfl, rfl⟩

/-- Over a cleared session the local settings decide. -/
theorem nullIfEmpty_over (loc : Option String) {session : Option String} (h : nullIfEmpty session = none) :
    nullIfEmpty (loc <|> session) = nullIfEmpty loc := by
  cases loc with
  | none => exact h
  | some v => rfl

theorem parse_empty : Uuid.parse "" = none := by decide

/-- The policies of a transaction whose local tenant, if set, is `u`. -/
theorem policyTenant_over {loc session : Settings} (hsession : session.Cleared)
    (htenant : ∀ v, loc.tenantId = some v → Uuid.parse v = some u) :
    policyTenant (loc.over session) = .ok (loc.tenantId.map fun _ => u) := by
  unfold policyTenant Settings.over
  simp only [nullIfEmpty_over _ hsession.tenantId]
  cases hloc : loc.tenantId with
  | none => rfl
  | some v =>
    have hv := htenant v hloc
    have hne : v ≠ "" := by
      rintro rfl
      rw [parse_empty] at hv
      cases hv
    have hnull : nullIfEmpty (some v) = some v := by
      unfold nullIfEmpty
      split
      · rename_i h
        exact absurd (Option.some_injective _ h) hne
      · rfl
    simp only [hnull, hv, Option.map_some]

/-! ## States that look alike to a tenant -/

/-- Equal errors, or values in relation. -/
inductive ExceptRel {α β : Type} (E : α → β → Prop) : Except String α → Except String β → Prop
  | ok {a : α} {b : β} : E a b → ExceptRel E (.ok a) (.ok b)
  | error (e : String) : ExceptRel E (.error e) (.error e)

theorem ExceptRel.eq {α : Type} {r r' : Except String α} (h : ExceptRel Eq r r') : r = r' := by
  cases h with
  | ok h => rw [h]
  | error e => rfl

/-- Open transactions of tenant `u` over tables that look alike to it. -/
structure OpenAlike (u : Uuid) (db db' : Db) (t t' : OpenTx) : Prop where
  session : t.session.Cleared
  session' : t'.session.Cleared
  loc : t.loc = t'.loc
  tenant : ∀ v, t.loc.tenantId = some v → Uuid.parse v = some u
  now : t.now = t'.now
  failed : t.failed = t'.failed
  transactions : t.transactions = t'.transactions
  own : ∀ r ∈ t.transactions, r.tenantId = u
  audit : auditView u (db.auditLogs ++ t.auditLogs) = auditView u (db'.auditLogs ++ t'.auditLogs)

/-- States that look alike to tenant `u`, in which the id `new`, if there is one to come, is
not that of another tenant's transaction. -/
structure Alike (u : Uuid) (new : Option Uuid) (s s' : Db × Option OpenTx) : Prop where
  drawn : Drawn s
  drawn' : Drawn s'
  transactions : transactionView u s.1.transactions = transactionView u s'.1.transactions
  audit : auditView u s.1.auditLogs = auditView u s'.1.auditLogs
  fresh : ∀ r ∈ s.1.transactions, r.tenantId ≠ u → some r.id ≠ new
  fresh' : ∀ r ∈ s'.1.transactions, r.tenantId ≠ u → some r.id ≠ new
  tx : Option.Rel (OpenAlike u s.1 s'.1) s.2 s'.2

/-- The operations of a call of tenant `u` that may insert a transaction under `new`. -/
def OpFor (u : Uuid) (new : Option Uuid) (x : Inputs) : DbOp → Prop
  | .setConfig .tenantId v => Uuid.parse v = some u
  | .insertTransaction .. => new = some x.uuid
  | _ => True

/-- Replies that differ at most in the ids of audit rows. -/
def ReplyAlike : (o : DbOp) → Reply o → Reply o → Prop
  | .selectAudit, r, r' =>
    ExceptRel (fun a b => a.map AuditRow.withoutId = b.map AuditRow.withoutId) r r'
  | _, r, r' => r = r'

/-! ## One operation -/

section Operations

variable {db db' : Db} {t t' : OpenTx}

theorem OpenAlike.abort (h : OpenAlike u db db' t t') : OpenAlike u db db' t.abort t'.abort :=
  { h with failed := rfl }

theorem OpenAlike.policy (h : OpenAlike u db db' t t') :
    policyTenant t.settings = .ok (t.loc.tenantId.map fun _ => u) ∧
      policyTenant t'.settings = .ok (t.loc.tenantId.map fun _ => u) := by
  refine ⟨policyTenant_over h.session h.tenant, ?_⟩
  have h' := policyTenant_over h.session' (h.loc ▸ h.tenant)
  rw [← h.loc] at h'
  rw [OpenTx.settings, ← h.loc]
  exact h'

theorem OpenAlike.secret (h : OpenAlike u db db' t t') :
    nullIfEmpty t.settings.auditSecret = nullIfEmpty t'.settings.auditSecret := by
  have hs := nullIfEmpty_over t.loc.auditSecret h.session.auditSecret
  have hs' := nullIfEmpty_over t'.loc.auditSecret h.session'.auditSecret
  rw [← h.loc] at hs'
  unfold OpenTx.settings Settings.over
  rw [← h.loc, hs, hs']

/-- A statement that succeeds or fails alike keeps the transactions alike. -/
theorem onTx_alike {α : Type} {E : α → α → Prop} {c c' : Choice} (hc : c.fail = c'.fail)
    {tx tx' : Option OpenTx} (htx : Option.Rel (OpenAlike u db db') tx tx')
    {f f' : OpenTx → Except String (α × OpenTx)}
    (hf : ∀ t t', tx = some t → tx' = some t' → OpenAlike u db db' t t' →
      ExceptRel (fun p p' => E p.1 p'.1 ∧ OpenAlike u db db' p.2 p'.2) (f t) (f' t')) :
    ExceptRel E (onTx c db tx f).1 (onTx c' db' tx' f').1 ∧
      Option.Rel (OpenAlike u db db') (onTx c db tx f).2.2 (onTx c' db' tx' f').2.2 := by
  cases htx with
  | none => exact ⟨.error _, .none⟩
  | @some t t' h =>
    cases hfailed : t.failed with
    | true =>
      simp only [onTx, ← h.failed, hfailed, if_true]
      exact ⟨.error _, .some h⟩
    | false =>
      simp only [onTx, ← h.failed, hfailed, Bool.false_eq_true, if_false, ← hc]
      cases c.fail with
      | some e => exact ⟨.error _, .some h.abort⟩
      | none =>
        simp only
        have hft := hf t t' rfl rfl h
        generalize f t = r at hft ⊢
        generalize f' t' = r' at hft ⊢
        cases hft with
        | ok h => exact ⟨.ok h.1, .some h.2⟩
        | error e => exact ⟨.error _, .some h.abort⟩

/-- The rows of the two statements that read. -/
theorem OpenAlike.seesTransactions (h : OpenAlike u db db' t t')
    (hdb : transactionView u db.transactions = transactionView u db'.transactions) :
    t.seesTransactions db = t'.seesTransactions db' := by
  obtain ⟨hp, hp'⟩ := h.policy
  unfold OpenTx.seesTransactions
  rw [usingPolicy_eq hp, usingPolicy_eq hp']
  cases t.loc.tenantId with
  | none => simp
  | some v =>
    have hview : ∀ rows : List TransactionRow,
        (rows.filter fun r => some u = some r.tenantId) = transactionView u rows := by
      intro rows
      exact List.filter_congr fun r _ => by simp [eq_comm]
    rw [Option.map_some, hview, hview, transactionView, transactionView, List.filter_append,
      List.filter_append, ← h.transactions]
    exact congrArg (fun l => Except.ok (l ++ _)) hdb

theorem OpenAlike.seesAudit (h : OpenAlike u db db' t t') :
    ∃ p : Option Uuid, (p = none ∨ p = some u) ∧
      t.seesAudit db =
        .ok ((db.auditLogs ++ t.auditLogs).filter fun r => p = some r.tenantId) ∧
      t'.seesAudit db' =
        .ok ((db'.auditLogs ++ t'.auditLogs).filter fun r => p = some r.tenantId) := by
  obtain ⟨hp, hp'⟩ := h.policy
  refine ⟨_, ?_, usingPolicy_eq hp _ _, usingPolicy_eq hp' _ _⟩
  cases t.loc.tenantId with
  | none => exact Or.inl rfl
  | some v => exact Or.inr rfl

/-- The check of a policy depends on the tenant it names only. -/
theorem withCheckPolicy_congr {s s' : Settings} (h : policyTenant s = policyTenant s')
    (table : String) (tenant : Uuid) :
    withCheckPolicy s table tenant = withCheckPolicy s' table tenant := by
  rw [withCheckPolicy, withCheckPolicy, h]

/-- Among rows none of which another tenant has under `v`, the id is looked for in the view. -/
theorem any_id_view {rows : List TransactionRow} {v : Uuid}
    (hfresh : ∀ r ∈ rows, r.tenantId ≠ u → some r.id ≠ some v) :
    (rows.any fun r => r.id = v) = (transactionView u rows).any fun r => r.id = v := by
  rw [Bool.eq_iff_iff, List.any_eq_true, List.any_eq_true]
  constructor
  · rintro ⟨r, hr, hv⟩
    rw [decide_eq_true_eq] at hv
    refine ⟨r, List.mem_filter.mpr ⟨hr, ?_⟩, by simpa using hv⟩
    rw [decide_eq_true_eq]
    by_contra hu
    exact hfresh r hr hu (by rw [hv])
  · rintro ⟨r, hr, hv⟩
    exact ⟨r, List.mem_of_mem_filter hr, hv⟩

theorem OpenAlike.insertTransactionRow (h : OpenAlike u db db' t t') {c : Choice}
    {tenantID description : String} {amount : Decimal}
    (hdb : transactionView u db.transactions = transactionView u db'.transactions)
    (hfresh : ∀ r ∈ db.transactions, r.tenantId ≠ u → some r.id ≠ some c.uuid)
    (hfresh' : ∀ r ∈ db'.transactions, r.tenantId ≠ u → some r.id ≠ some c.uuid) :
    insertTransactionRow db t c tenantID amount description =
      insertTransactionRow db' t' c tenantID amount description := by
  obtain ⟨hp, hp'⟩ := h.policy
  have hcheck := withCheckPolicy_congr (hp.trans hp'.symm) "transactions"
  have hused : ((db.transactions ++ t.transactions).any fun r => r.id = c.uuid) =
      (db'.transactions ++ t'.transactions).any fun r => r.id = c.uuid := by
    rw [List.any_append, List.any_append, any_id_view hfresh, any_id_view hfresh', hdb,
      h.transactions]
  unfold DarkServices.Audit.insertTransactionRow
  simp only [hcheck, hused, h.now]

/-- The tenant a policy names is that of the transaction. -/
theorem OpenAlike.tenant_eq (h : OpenAlike u db db' t t') {v : Uuid}
    (hp : policyTenant t.settings = .ok (some v)) : v = u := by
  rw [h.policy.1] at hp
  cases hloc : t.loc.tenantId with
  | none =>
    rw [hloc] at hp
    cases hp
  | some w =>
    rw [hloc] at hp
    cases hp
    rfl

theorem filter_tenant (rows : List AuditRow) : (rows.filter fun r => some u = some r.tenantId) =
    rows.filter fun r => r.tenantId = u :=
  List.filter_congr fun r _ => by simp [eq_comm]

/-- New audit rows of the two transactions differ in their ids only. -/
theorem OpenAlike.insertAuditRow (h : OpenAlike u db db' t t') (pg : Pg) (n : NewAudit)
    (id' : ℕ) :
    ExceptRel (fun r r' => r.withoutId = r'.withoutId ∧ r.id = n.id ∧ r'.id = id' ∧
        r.tenantId = u) (insertAuditRow pg db t n) (insertAuditRow pg db' t' { n with id := id' }) := by
  obtain ⟨p, hp, hsees, hsees'⟩ := h.seesAudit
  have hlast : lastBlockHash ((db.auditLogs ++ t.auditLogs).filter fun r => p = some r.tenantId) =
      lastBlockHash ((db'.auditLogs ++ t'.auditLogs).filter fun r => p = some r.tenantId) := by
    rcases hp with rfl | rfl
    · simp
    · rw [filter_tenant, filter_tenant, lastBlockHash_view, lastBlockHash_view, h.audit]
  have hcheck := withCheckPolicy_congr (h.policy.1.trans h.policy.2.symm) "audit_logs" n.tenantId
  unfold DarkServices.Audit.insertAuditRow
  simp only [hsees, hsees', hashAuditRecord, hlast, ← h.secret]
  cases nullIfEmpty t.settings.auditSecret with
  | none => exact .error _
  | some secret =>
    simp only [← hcheck]
    cases hc : withCheckPolicy t.settings "audit_logs" n.tenantId with
    | error e => exact .error e
    | ok _ =>
      exact .ok ⟨rfl, rfl, rfl, h.tenant_eq (withCheckPolicy_ok hc)⟩

end Operations

/-! ## One operation of a call of the tenant -/

section Step

variable {new : Option Uuid} {db db' : Db} {tx tx' : Option OpenTx}

/-- The transactions change, the tables stay. -/
theorem Alike.next (hs : Alike u new (db, tx) (db', tx')) {db₁ db₁' : Db} {tx₁ tx₁' : Option OpenTx}
    (hdrawn : Drawn (db₁, tx₁)) (hdrawn' : Drawn (db₁', tx₁'))
    (hdb : db₁.transactions = db.transactions ∧ db₁.auditLogs = db.auditLogs)
    (hdb' : db₁'.transactions = db'.transactions ∧ db₁'.auditLogs = db'.auditLogs)
    (htx : Option.Rel (OpenAlike u db db') tx₁ tx₁') : Alike u new (db₁, tx₁) (db₁', tx₁') where
  drawn := hdrawn
  drawn' := hdrawn'
  transactions := by
    rw [hdb.1, hdb'.1]
    exact hs.transactions
  audit := by
    rw [hdb.2, hdb'.2]
    exact hs.audit
  fresh := hdb.1 ▸ hs.fresh
  fresh' := hdb'.1 ▸ hs.fresh'
  tx := by
    cases htx with
    | none => exact .none
    | some h => exact .some { h with audit := by rw [hdb.2, hdb'.2]; exact h.audit }

/-- `Commit` moves the rows from the transactions into the tables. -/
theorem Alike.commit (hs : Alike u new (db, tx) (db', tx')) {c c' : Choice}
    (hc : c.fail = c'.fail) (hdrawn : Drawn (commitTx c db tx).2)
    (hdrawn' : Drawn (commitTx c' db' tx').2) :
    (commitTx c db tx).1 = (commitTx c' db' tx').1 ∧
      Alike u new (commitTx c db tx).2 (commitTx c' db' tx').2 := by
  have htx := hs.tx
  simp only at htx
  cases htx with
  | none => exact ⟨rfl, hs.next hdrawn hdrawn' ⟨rfl, rfl⟩ ⟨rfl, rfl⟩ .none⟩
  | @some t t' h =>
    simp only [commitTx, ← hc, ← h.failed] at hdrawn hdrawn' ⊢
    cases hf : c.fail with
    | some e =>
      simp only [hf] at hdrawn hdrawn' ⊢
      exact ⟨trivial, hs.next hdrawn hdrawn' ⟨rfl, rfl⟩ ⟨rfl, rfl⟩ .none⟩
    | none =>
      simp only [hf] at hdrawn hdrawn' ⊢
      cases hfailed : t.failed with
      | true =>
        simp only [hfailed, if_true] at hdrawn hdrawn' ⊢
        exact ⟨trivial, hs.next hdrawn hdrawn' ⟨rfl, rfl⟩ ⟨rfl, rfl⟩ .none⟩
      | false =>
        simp only [hfailed, Bool.false_eq_true, if_false] at hdrawn hdrawn' ⊢
        refine ⟨trivial, hdrawn, hdrawn', ?_, h.audit, ?_, ?_, .none⟩
        · simp only [transactionView, List.filter_append, ← h.transactions]
          exact congrArg (· ++ _) hs.transactions
        · intro r hr hu
          rcases List.mem_append.mp hr with hr | hr
          · exact hs.fresh r hr hu
          · exact absurd (h.own r hr) hu
        · intro r hr hu
          rcases List.mem_append.mp hr with hr | hr
          · exact hs.fresh' r hr hu
          · exact absurd (h.own r (h.transactions ▸ hr)) hu

section Statements

variable {t t' : OpenTx}

/-- Results of a statement: values related by `E`, in transactions that are still alike. -/
abbrev StatementRel (u : Uuid) (db db' : Db) {α : Type} (E : α → α → Prop) :
    Except String (α × OpenTx) → Except String (α × OpenTx) → Prop :=
  ExceptRel fun p p' => E p.1 p'.1 ∧ OpenAlike u db db' p.2 p'.2

theorem OpenAlike.statement_setConfig (h : OpenAlike u db db' t t') {k : Setting} {v : String}
    (hv : k = .tenantId → Uuid.parse v = some u) :
    StatementRel u db db' Eq (.ok ((), { t with loc := t.loc.set k v }))
      (.ok ((), { t' with loc := t'.loc.set k v })) := by
  refine .ok ⟨rfl, { h with loc := congrArg (Settings.set · k v) h.loc, tenant := ?_ }⟩
  cases k with
  | tenantId =>
    rintro w ⟨⟩
    exact hv rfl
  | auditSecret => exact h.tenant

theorem OpenAlike.statement_insertTransaction (h : OpenAlike u db db' t t') {c : Choice}
    (hs : Alike u (some c.uuid) (db, some t) (db', some t')) {tenantID description : String}
    {amount : Decimal} :
    StatementRel u db db' Eq
      ((DarkServices.Audit.insertTransactionRow db t c tenantID amount description).map fun r =>
        ((r.id, r.createdAt), { t with transactions := t.transactions ++ [r] }))
      ((DarkServices.Audit.insertTransactionRow db' t' c tenantID amount description).map fun r =>
        ((r.id, r.createdAt), { t' with transactions := t'.transactions ++ [r] })) := by
  rw [← h.insertTransactionRow hs.transactions hs.fresh hs.fresh']
  cases hrow : DarkServices.Audit.insertTransactionRow db t c tenantID amount description with
  | error e => exact .error e
  | ok r =>
    refine .ok ⟨rfl, { h with
      transactions := congrArg (· ++ [r]) h.transactions
      own := fun q hq => ?_ }⟩
    rcases List.mem_append.mp hq with hq | hq
    · exact h.own q hq
    · rw [List.mem_singleton.mp hq]
      exact h.tenant_eq (insertTransactionRow_ok hrow).2.2.2.2.2.2

theorem OpenAlike.statement_sumAmount (h : OpenAlike u db db' t t')
    (hdb : transactionView u db.transactions = transactionView u db'.transactions) :
    StatementRel u db db' Eq
      ((t.seesTransactions db).map fun rows => ((rows.map TransactionRow.amount).sum, t))
      ((t'.seesTransactions db').map fun rows =>
        ((rows.map TransactionRow.amount).sum, t')) := by
  rw [← h.seesTransactions hdb]
  cases t.seesTransactions db with
  | error e => exact .error e
  | ok rows => exact .ok ⟨rfl, h⟩

theorem OpenAlike.statement_selectAudit (h : OpenAlike u db db' t t') :
    StatementRel u db db' (fun a b => a.map AuditRow.withoutId = b.map AuditRow.withoutId)
      ((t.seesAudit db).map fun rows => (orderById rows, t))
      ((t'.seesAudit db').map fun rows => (orderById rows, t')) := by
  obtain ⟨p, hp, hsees, hsees'⟩ := h.seesAudit
  rw [hsees, hsees']
  refine .ok ⟨?_, h⟩
  rcases hp with rfl | rfl
  · simp [orderById]
  · rw [filter_tenant, filter_tenant]
    exact h.audit

/-- The two audit rows enter alike, each with the largest id so far. -/
theorem OpenAlike.auditLogs (h : OpenAlike u db db' t t')
    (hdrawn : Drawn (db, some t)) (hdrawn' : Drawn (db', some t')) {r r' : AuditRow}
    (hrow : r.withoutId = r'.withoutId) (hid : r.id = db.auditSeq) (hid' : r'.id = db'.auditSeq) :
    OpenAlike u db db' { t with auditLogs := t.auditLogs ++ [r] }
      { t' with auditLogs := t'.auditLogs ++ [r'] } := by
  have htenant : r.withoutId.tenantId = r'.withoutId.tenantId :=
    congrArg AuditRow.tenantId hrow
  refine { h with audit := ?_ }
  simp only [← List.append_assoc]
  rw [auditView_concat fun q hq => hid ▸ (hdrawn q hq).le,
    auditView_concat fun q hq => hid' ▸ (hdrawn' q hq).le, h.audit, hrow,
    show r.tenantId = r'.tenantId from htenant]

theorem OpenAlike.statement_insertAudit (h : OpenAlike u db db' t t')
    (hdrawn : Drawn (db, some t)) (hdrawn' : Drawn (db', some t'))
    {actorID tenantID action resource : String} {details : Json} :
    StatementRel u db db' Eq
      ((newAudit db t actorID tenantID action resource details).bind fun n =>
        (DarkServices.Audit.insertAuditRow pg db t n).map fun row =>
          ((), { t with auditLogs := t.auditLogs ++ [row] }))
      ((newAudit db' t' actorID tenantID action resource details).bind fun n =>
        (DarkServices.Audit.insertAuditRow pg db' t' n).map fun row =>
          ((), { t' with auditLogs := t'.auditLogs ++ [row] })) := by
  have hnew : newAudit db' t' actorID tenantID action resource details =
      (newAudit db t actorID tenantID action resource details).map fun n =>
        { n with id := db'.auditSeq } := by
    unfold newAudit
    rw [h.now]
    cases Uuid.parse actorID <;> cases Uuid.parse tenantID <;> simp only [Except.map]
    split
    · rfl
    · split <;> rfl
  rw [hnew]
  cases hn : newAudit db t actorID tenantID action resource details with
  | error e => exact .error e
  | ok n =>
    obtain ⟨actor, tenant, -, -, rfl⟩ := newAudit_ok hn
    have hrows := h.insertAuditRow pg ⟨db.auditSeq, t.now, actor, tenant, action, resource,
      some details.toJsonb⟩ db'.auditSeq
    simp only [Except.map, Except.bind]
    generalize DarkServices.Audit.insertAuditRow pg db t _ = r at hrows ⊢
    generalize DarkServices.Audit.insertAuditRow pg db' t' _ = r' at hrows ⊢
    cases hrows with
    | error e => exact .error e
    | ok hrow => exact .ok ⟨rfl, h.auditLogs hdrawn hdrawn' hrow.1 hrow.2.1 hrow.2.2.1⟩

/-- A statement keeps the states alike, also when it draws from the sequence. -/
theorem Alike.statement (hs : Alike u new (db, tx) (db', tx')) {α : Type} {E : α → α → Prop}
    {c : Choice} {f f' : OpenTx → Except String (α × OpenTx)} {db₁ db₁' : Db}
    (hf : ∀ t t', Alike u new (db, some t) (db', some t') → OpenAlike u db db' t t' →
      StatementRel u db db' E (f t) (f' t'))
    (hdrawn : Drawn (db₁, (onTx c db tx f).2.2)) (hdrawn' : Drawn (db₁', (onTx c db' tx' f').2.2))
    (hdb : db₁.transactions = db.transactions ∧ db₁.auditLogs = db.auditLogs)
    (hdb' : db₁'.transactions = db'.transactions ∧ db₁'.auditLogs = db'.auditLogs) :
    ExceptRel E (onTx c db tx f).1 (onTx c db' tx' f').1 ∧
      Alike u new (db₁, (onTx c db tx f).2.2) (db₁', (onTx c db' tx' f').2.2) := by
  have hf' : ∀ t t', tx = some t → tx' = some t' → OpenAlike u db db' t t' →
      StatementRel u db db' E (f t) (f' t') := by
    rintro t t' rfl rfl h
    exact hf t t' hs h
  obtain ⟨hr, htx⟩ := onTx_alike rfl hs.tx hf'
  exact ⟨hr, hs.next hdrawn hdrawn' hdb hdb' htx⟩

theorem onTx_db {α : Type} (c : Choice) (db : Db) (tx : Option OpenTx)
    (f : OpenTx → Except String (α × OpenTx)) :
    (onTx c db tx f).2.1.transactions = db.transactions ∧
      (onTx c db tx f).2.1.auditLogs = db.auditLogs := by
  have h := (onTx_cases (Prod.mk.eta (p := onTx c db tx f)).symm).1
  rw [h]
  exact ⟨rfl, rfl⟩

end Statements

/-- **One operation.** It answers alike in states that look alike to the tenant, and leaves
states that do. -/
theorem serialSem_alike (pg : Pg) {x : Inputs} {b : Bool} {o : DbOp} {s s' : Db × Option OpenTx}
    (ho : OpFor u new x o) (hs : Alike u new s s') :
    ReplyAlike o (serialSem pg x o s).1 (serialSem pg (x.withCleared b) o s').1 ∧
      Alike u new (serialSem pg x o s).2 (serialSem pg (x.withCleared b) o s').2 := by
  obtain ⟨db, tx⟩ := s
  obtain ⟨db', tx'⟩ := s'
  have hdrawn := drawn_effect hs.drawn (serialSem_effect pg x o (db, tx))
  have hdrawn' := drawn_effect hs.drawn' (serialSem_effect pg (x.withCleared b) o (db', tx'))
  cases o with
  | begin =>
    simp only [serialSem, execOp, Inputs.withCleared_fail, Inputs.withCleared_now]
      at hdrawn hdrawn' ⊢
    cases hf : x.fail .begin with
    | some e => exact ⟨rfl, hs⟩
    | none =>
      simp only [hf] at hdrawn hdrawn' ⊢
      refine ⟨rfl, hs.next hdrawn hdrawn' ⟨rfl, rfl⟩ ⟨rfl, rfl⟩ (.some ?_)⟩
      exact { session := x.session_cleared, session' := Inputs.session_cleared _, loc := rfl,
              tenant := (by intro _ h; cases h), now := rfl, failed := rfl, transactions := rfl,
              own := (by intro _ h; cases h), audit := by simpa [OpenTx.start] using hs.audit }
  | setConfig k v =>
    have hv : k = .tenantId → Uuid.parse v = some u := by
      rintro rfl
      exact ho
    obtain ⟨hr, hnext⟩ := hs.statement (fun _ _ _ h => h.statement_setConfig hv) hdrawn hdrawn'
      (onTx_db ..) (onTx_db ..)
    exact ⟨hr.eq, hnext⟩
  | insertTransaction tenantID amount description =>
    cases (show new = some x.uuid from ho)
    obtain ⟨hr, hnext⟩ := hs.statement (fun _ _ hs h => h.statement_insertTransaction hs)
      hdrawn hdrawn' (onTx_db ..) (onTx_db ..)
    exact ⟨hr.eq, hnext⟩
  | sumAmount =>
    obtain ⟨hr, hnext⟩ := hs.statement (fun _ _ hs h => h.statement_sumAmount hs.transactions)
      hdrawn hdrawn' (onTx_db ..) (onTx_db ..)
    exact ⟨hr.eq, hnext⟩
  | insertAudit actorID tenantID action resource details =>
    obtain ⟨hr, hnext⟩ := hs.statement
      (fun _ _ hs h => h.statement_insertAudit hs.drawn hs.drawn') hdrawn hdrawn'
      ⟨rfl, rfl⟩ ⟨rfl, rfl⟩
    exact ⟨hr.eq, hnext⟩
  | selectAudit =>
    exact hs.statement (fun _ _ _ h => h.statement_selectAudit) hdrawn hdrawn'
      (onTx_db ..) (onTx_db ..)
  | commit => exact hs.commit rfl hdrawn hdrawn'
  | rollback => exact ⟨rfl, hs.next hdrawn hdrawn' ⟨rfl, rfl⟩ ⟨rfl, rfl⟩ .none⟩
  | resetExec => exact ⟨rfl, hs⟩

end Step

/-! ## A call of the tenant -/

section Program

variable {new : Option Uuid} {x : Inputs}

/-- Programs of a call of tenant `u` that give it the same answers. -/
abbrev SameAnswers (u : Uuid) (new : Option Uuid) (x : Inputs) :
    DbProg (Except String Answer) → DbProg (Except String Answer) → Prop :=
  Prog.Related (OpFor u new x) ReplyAlike fun r r' => hideIds r = hideIds r'

theorem sameAnswers_cleanup (e : String) : SameAnswers u new x (cleanup e) (cleanup e) :=
  .op trivial fun _ _ _ => .op trivial fun _ _ _ => .ret rfl

/-- Equal replies lead to the clean-up or on. -/
theorem sameAnswers_orCleanup {β : Type} {msg : String} {r r' : Except String β} (hr : r = r')
    {k k' : β → DbProg (Except String Answer)} (hk : ∀ b, SameAnswers u new x (k b) (k' b)) :
    SameAnswers u new x (orCleanup msg r k) (orCleanup msg r' k') := by
  subst hr
  cases r with
  | error e => exact sameAnswers_cleanup _
  | ok b => exact hk b

theorem sameAnswers_commitAndReset {a a' : Answer} (ha : a.withoutIds = a'.withoutIds) :
    SameAnswers u new x (commitAndReset a) (commitAndReset a') :=
  .op trivial fun _ _ hr => sameAnswers_orCleanup hr fun _ =>
    .op trivial fun _ _ _ => .ret (congrArg Except.ok ha)

theorem sameAnswers_withTx {c : DBClient} {tenantID : String}
    (htenant : Uuid.parse tenantID = some u) {body : DbProg (Except String Answer)}
    (hbody : SameAnswers u new x body body) :
    SameAnswers u new x (withTx c tenantID body) (withTx c tenantID body) := by
  refine .op trivial fun r r' hr => ?_
  cases (show r = r' from hr)
  cases r with
  | error e => exact .ret rfl
  | ok _ =>
    exact .op htenant fun _ _ hr => sameAnswers_orCleanup hr fun _ =>
      .op trivial fun _ _ hr => sameAnswers_orCleanup hr fun _ => hbody

theorem call_sameAnswers (client : DBClient) {call : Call} (hu : call.isFor u = true)
    (hnew : call.isCreate = true → new = some x.uuid) :
    SameAnswers u new x (call.program client) (call.program client) := by
  have htenant : Uuid.parse call.tenantID = some u := of_decide_eq_true hu
  cases call with
  | createTransaction tenantID amount description actorSub =>
    simp only [Call.program, createTransaction, mapResult_withTx, mapResult_op,
      mapResult_orCleanup, mapResult_commitAndReset]
    refine sameAnswers_withTx htenant (.op (hnew rfl) fun _ _ hr => ?_)
    refine sameAnswers_orCleanup hr fun _ => .op trivial fun _ _ hr => ?_
    exact sameAnswers_orCleanup hr fun _ => sameAnswers_commitAndReset rfl
  | getBalance tenantID actorSub =>
    simp only [Call.program, getBalance, mapResult_withTx, mapResult_op,
      mapResult_orCleanup, mapResult_commitAndReset]
    refine sameAnswers_withTx htenant (.op trivial fun _ _ hr => ?_)
    refine sameAnswers_orCleanup hr fun _ => .op trivial fun _ _ hr => ?_
    exact sameAnswers_orCleanup hr fun _ => sameAnswers_commitAndReset rfl
  | getAuditLogs tenantID =>
    simp only [Call.program, getAuditLogs, mapResult_withTx, mapResult_op,
      mapResult_orCleanup, mapResult_commitAndReset]
    refine sameAnswers_withTx htenant (.op trivial fun r r' hr => ?_)
    cases (show ExceptRel _ r r' from hr) with
    | error e => exact sameAnswers_cleanup _
    | ok hrows => exact sameAnswers_commitAndReset (congrArg Answer.logs hrows)

end Program

/-! ## Runs -/

/-- Tables that look alike to tenant `u`. -/
structure SameView (u : Uuid) (db db' : Db) : Prop where
  drawn : Drawn (db, none)
  drawn' : Drawn (db', none)
  transactions : transactionView u db.transactions = transactionView u db'.transactions
  audit : auditView u db.auditLogs = auditView u db'.auditLogs

theorem SameView.symm {db db' : Db} (h : SameView u db db') : SameView u db' db :=
  ⟨h.drawn', h.drawn, h.transactions.symm, h.audit.symm⟩

/-- A call of the tenant has the same outcome in both runs. -/
theorem SameView.own {db db' : Db} (h : SameView u db db') (pg : Pg) (client : DBClient) {c : Call × Inputs} {b : Bool}
    {cs cs' : List (Call × Inputs)} (hu : c.1.isFor u = true) (hfresh : FreshIds db (c :: cs))
    (hfresh' : FreshIds db' ((c.1, c.2.withCleared b) :: cs')) :
    hideIds (runCall pg client c db).1 =
        hideIds (runCall pg client (c.1, c.2.withCleared b) db').1 ∧
      SameView u (runCall pg client c db).2
        (runCall pg client (c.1, c.2.withCleared b) db').2 := by
  have hnew : ∀ {db₁ : Db} {x : Inputs} {cs₁ : List (Call × Inputs)}, x.uuid = c.2.uuid →
      FreshIds db₁ ((c.1, x) :: cs₁) → ∀ r ∈ db₁.transactions, r.tenantId ≠ u →
      some r.id ≠ if c.1.isCreate then some c.2.uuid else none := by
    intro db₁ x cs₁ hx hf r hr _
    cases hcall : c.1.isCreate with
    | false => simp
    | true =>
      have hne := hf.unused x.uuid (by simp [suppliedIds, hcall]) r hr
      simpa [hx] using hne
  have hstart : Alike u (if c.1.isCreate then some c.2.uuid else none) (db, none) (db', none) :=
    ⟨h.drawn, h.drawn', h.transactions, h.audit, hnew (x := c.2) rfl hfresh,
      hnew (x := c.2.withCleared b) rfl hfresh', .none⟩
  have hprog : SameAnswers u (if c.1.isCreate then some c.2.uuid else none) c.2
      (c.1.program client) (c.1.program client) :=
    call_sameAnswers client hu fun hcall => if_pos hcall
  obtain ⟨hr, hend⟩ := hprog.exec
    (fun o s s' ho hs => serialSem_alike pg (b := b) ho hs) hstart
  have hdrawn := runCall_drawn pg client c h.drawn
  have hdrawn' := runCall_drawn pg client (c.1, c.2.withCleared b)
    h.drawn'
  exact ⟨hr, hdrawn, hdrawn', hend.transactions, hend.audit⟩

/-- A call of another tenant is not seen. -/
theorem SameView.other {db db' : Db} (h : SameView u db db') {c : Call × Inputs}
    (hu : c.1.isFor u = false) : SameView u (runCall pg client c db).2 db' := by
  obtain ⟨rows, htransactions, hauditLogs, hacc⟩ := runCall_rows pg client c db
  have hne : Uuid.parse c.1.tenantID ≠ some u := of_decide_eq_false hu
  refine ⟨runCall_drawn pg client c h.drawn, h.drawn', ?_, ?_⟩
  · rw [← h.transactions, htransactions, transactionView, transactionView, List.filter_append]
    have hnil : (rows.transactions.filter fun r => r.tenantId = u) = [] := by
      refine List.filter_eq_nil_iff.mpr fun r hr => ?_
      rw [decide_eq_true_eq]
      rintro rfl
      exact hne (hacc.tenant.1 r hr)
    rw [hnil, List.append_nil]
  · rw [← h.audit, hauditLogs, auditView, auditView, List.filter_append]
    have hnil : (rows.auditLogs.filter fun r => r.tenantId = u) = [] := by
      refine List.filter_eq_nil_iff.mpr fun r hr => ?_
      rw [decide_eq_true_eq]
      rintro rfl
      exact hne (hacc.tenant.2 r hr)
    rw [hnil, List.append_nil]

/-- The calls of a tenant with what is supplied to them, the state of their connections left
out. -/
def callsOf (u : Uuid) (cs : List (Call × Inputs)) : List (Call × Inputs) :=
  (cs.filter fun c => c.1.isFor u).map fun c => (c.1, c.2.withCleared false)

/-- Two runs that agree on the calls of tenant `u`, matched call by call. -/
inductive SameCalls (u : Uuid) : List (Call × Inputs) → List (Call × Inputs) → Prop
  | nil : SameCalls u [] []
  | left {c : Call × Inputs} {cs cs' : List (Call × Inputs)} :
      c.1.isFor u = false → SameCalls u cs cs' → SameCalls u (c :: cs) cs'
  | right {c : Call × Inputs} {cs cs' : List (Call × Inputs)} :
      c.1.isFor u = false → SameCalls u cs cs' → SameCalls u cs (c :: cs')
  | own {c : Call × Inputs} {b : Bool} {cs cs' : List (Call × Inputs)} :
      c.1.isFor u = true → SameCalls u cs cs' →
      SameCalls u (c :: cs) ((c.1, c.2.withCleared b) :: cs')

theorem callsOf_other {c : Call × Inputs} {cs : List (Call × Inputs)} (hc : c.1.isFor u = false) :
    callsOf u (c :: cs) = callsOf u cs := by
  simp only [callsOf, List.filter_cons, hc, Bool.false_eq_true, if_false]

theorem callsOf_own {c : Call × Inputs} {cs : List (Call × Inputs)} (hc : c.1.isFor u = true) :
    callsOf u (c :: cs) = (c.1, c.2.withCleared false) :: callsOf u cs := by
  simp only [callsOf, List.filter_cons, hc, if_true, List.map_cons]

theorem sameCalls_of_callsOf {cs cs' : List (Call × Inputs)} (h : callsOf u cs = callsOf u cs') :
    SameCalls u cs cs' := by
  induction cs generalizing cs' with
  | nil =>
    induction cs' with
    | nil => exact .nil
    | cons c' cs' ih =>
      cases hc' : c'.1.isFor u with
      | false => exact .right hc' (ih (by rwa [callsOf_other hc'] at h))
      | true =>
        rw [callsOf_own hc'] at h
        cases h
  | cons c cs ih =>
    cases hc : c.1.isFor u with
    | false => exact .left hc (ih (by rwa [callsOf_other hc] at h))
    | true =>
      -- the other run has this call after some calls of other tenants
      induction cs' with
      | nil =>
        rw [callsOf_own hc] at h
        cases h
      | cons c' cs' ih' =>
        cases hc' : c'.1.isFor u with
        | false => exact .right hc' (ih' (by rwa [callsOf_other hc'] at h))
        | true =>
          rw [callsOf_own hc, callsOf_own hc', List.cons.injEq, Prod.mk.injEq] at h
          obtain ⟨⟨hcall, hinputs⟩, hrest⟩ := h
          have hc'eq : c' = (c.1, c.2.withCleared c'.2.cleared) := by
            obtain ⟨call, x⟩ := c
            obtain ⟨call', x'⟩ := c'
            cases x
            cases x'
            simp only [Inputs.withCleared, Inputs.mk.injEq, true_and] at hcall hinputs ⊢
            obtain ⟨rfl, rfl, rfl⟩ := hinputs
            rw [hcall]
          rw [hc'eq]
          exact .own hc (ih hrest)

theorem outcomesOf_other {c : Call × Inputs} {cs : List (Call × Inputs)} {db : Db}
    (hc : c.1.isFor u = false) : outcomesOf pg client u (c :: cs) db =
      outcomesOf pg client u cs (runCall pg client c db).2 := by
  simp only [outcomesOf, runCalls, List.filter_cons, hc, Bool.false_eq_true, if_false]

theorem outcomesOf_own {c : Call × Inputs} {cs : List (Call × Inputs)} {db : Db}
    (hc : c.1.isFor u = true) : outcomesOf pg client u (c :: cs) db =
      (runCall pg client c db).1 :: outcomesOf pg client u cs (runCall pg client c db).2 := by
  simp only [outcomesOf, runCalls, List.filter_cons, hc, if_true, List.map_cons]

/-- Runs from tables that look alike to the tenant give it the same outcomes. -/
theorem SameCalls.outcomes {cs cs' : List (Call × Inputs)} (h : SameCalls u cs cs') {db db' : Db}
    (hview : SameView u db db') (hfresh : FreshIds db cs) (hfresh' : FreshIds db' cs') :
    (outcomesOf pg client u cs db).map hideIds = (outcomesOf pg client u cs' db').map hideIds := by
  induction h generalizing db db' with
  | nil => rfl
  | left hc _ ih =>
    rw [outcomesOf_other hc]
    exact ih (hview.other hc) hfresh.next hfresh'
  | right hc _ ih =>
    rw [outcomesOf_other hc]
    exact ih (hview.symm.other hc).symm hfresh hfresh'.next
  | @own c b cs cs' hc _ ih =>
    obtain ⟨hr, hview'⟩ := hview.own pg client hc hfresh hfresh'
    rw [outcomesOf_own hc, outcomesOf_own (c := (c.1, c.2.withCleared b)) hc, List.map_cons,
      List.map_cons, hr, ih hview' hfresh.next hfresh'.next]

/-- **Tenant isolation.** Two serial runs from the same tables that agree on the calls of a
tenant, their arguments and what the server supplies to them, give the tenant the same
outcomes, the ids of audit rows left out. -/
theorem tenant_isolation (pg : Pg) (client : DBClient) (u : Uuid) {db : Db}
    {cs cs' : List (Call × Inputs)} (hdrawn : Drawn (db, none)) (hfresh : FreshIds db cs)
    (hfresh' : FreshIds db cs') (hsame : callsOf u cs = callsOf u cs') :
    (outcomesOf pg client u cs db).map hideIds = (outcomesOf pg client u cs' db).map hideIds :=
  (sameCalls_of_callsOf hsame).outcomes ⟨hdrawn, hdrawn, rfl, rfl⟩ hfresh hfresh'

/-- A transfer and a look at the log of tenant A, alone and among calls of tenant B, one of
which fails. -/
theorem tenant_isolation_two_tenants :
    let uuid : Char → Uuid := fun c => (Uuid.ofDigits (List.replicate 32 c)).getD Uuid.zero
    let own : List (Call × Inputs) :=
      [(.createTransaction tenantA ⟨1005, 1⟩ "rent" "client-alice", .plain 1000000 (uuid 'a')),
        (.getAuditLogs tenantA, .plain 3000000 Uuid.zero)]
    let mixed : List (Call × Inputs) :=
      [(overflowing tenantB, .plain 500000 (uuid 'b')),
        (.createTransaction tenantB ⟨7, 0⟩ "b" "client-bob", .plain 600000 (uuid 'c')),
        (.createTransaction tenantA ⟨1005, 1⟩ "rent" "client-alice",
          (Inputs.plain 1000000 (uuid 'a')).withCleared true),
        (.getBalance tenantB "client-bob", .plain 2000000 Uuid.zero),
        (.getAuditLogs tenantA, .plain 3000000 Uuid.zero)]
    (outcomesOf Pg.utc ⟨"secret"⟩ uuidA own Db.empty).map hideIds =
      (outcomesOf Pg.utc ⟨"secret"⟩ uuidA mixed Db.empty).map hideIds := by
  intro uuid own mixed
  refine tenant_isolation Pg.utc ⟨"secret"⟩ uuidA nofun ⟨?_, nofun⟩ ⟨?_, nofun⟩ ?_
  · decide
  · decide
  · have hA : Uuid.parse tenantA = some uuidA := by decide
    have hB : Uuid.parse tenantB ≠ some uuidA := by decide
    simp [callsOf, own, mixed, Call.isFor, overflowing, hA, hB, Inputs.withCleared]

end Audit
end DarkServices
