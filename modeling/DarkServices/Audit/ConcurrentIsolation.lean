import DarkServices.Audit.Isolation
import DarkServices.Audit.RecordedCalls

/-!
# Tenant isolation under concurrency

What the calls of one tenant return in a run of concurrent calls of several tenants, they
can return in a run without the others, over a pool of the same size: whatever the others
do, it shows in the ids of the audit rows only.

The proof is a forward simulation (`LTS.ReachableIf.simulated`). The smaller run copies the
steps of the tenant's calls and stands still at those of the others. `Follows` relates the
states: the tables and the open transactions of the smaller run are those of the tenant,
with the ids of the audit rows renumbered in order (`Numbering`).
-/

namespace DarkServices
namespace Audit

open Lib

variable {pg : Pg} {u : Uuid}

/-! ## Ids drawn in the two runs -/

/-- The id `f n` of the larger run for the id `n` of the smaller one. -/
structure Numbering (f : ℕ → ℕ) (small large : ℕ) : Prop where
  below : ∀ n, n < small → f n < large
  mono : ∀ m n, m < n → n < small → f m < f n

namespace Numbering

variable {f : ℕ → ℕ} {small large large' m n : ℕ}

theorem le_iff (h : Numbering f small large) (hm : m < small) (hn : n < small) :
    f m ≤ f n ↔ m ≤ n := by
  constructor
  · intro hle
    by_contra hlt
    have hmono := h.mono n m (by omega) hm
    omega
  · intro hle
    obtain hlt | rfl := Nat.lt_or_eq_of_le hle
    · exact (h.mono m n hlt hn).le
    · exact le_rfl

/-- The larger run draws an id. -/
theorem mono_right (h : Numbering f small large) (hle : large ≤ large') :
    Numbering f small large' :=
  ⟨fun n hn => lt_of_lt_of_le (h.below n hn) hle, h.mono⟩

/-- Both runs draw an id. -/
theorem draw (h : Numbering f small large) :
    Numbering (Function.update f small large) (small + 1) (large + 1) := by
  have hold : ∀ n, n < small → Function.update f small large n = f n := fun n hn =>
    Function.update_of_ne (by omega) ..
  constructor
  · intro n hn
    obtain hlt | rfl := Nat.lt_or_eq_of_le (Nat.le_of_lt_succ hn)
    · rw [hold n hlt]
      have hbelow := h.below n hlt
      omega
    · rw [Function.update_self]
      omega
  · intro m n hmn hn
    rw [hold m (by omega)]
    obtain hlt | rfl := Nat.lt_or_eq_of_le (Nat.le_of_lt_succ hn)
    · rw [hold n hlt]
      exact h.mono m n hmn hlt
    · rw [Function.update_self]
      exact h.below m hmn

end Numbering

def AuditRow.renumber (f : ℕ → ℕ) (r : AuditRow) : AuditRow := { r with id := f r.id }

section Renumber

variable {f f' : ℕ → ℕ} {small large : ℕ} {rows : List AuditRow}

@[simp] theorem AuditRow.renumber_id (f : ℕ → ℕ) (r : AuditRow) : (r.renumber f).id = f r.id :=
  rfl

@[simp] theorem AuditRow.renumber_tenantId (f : ℕ → ℕ) (r : AuditRow) :
    (r.renumber f).tenantId = r.tenantId := rfl

@[simp] theorem AuditRow.renumber_withoutId (f : ℕ → ℕ) (r : AuditRow) :
    (r.renumber f).withoutId = r.withoutId := rfl

/-- Ids drawn earlier keep their numbers. -/
theorem map_renumber_congr (hrows : ∀ r ∈ rows, r.id < small)
    (hf : ∀ n, n < small → f' n = f n) :
    rows.map (AuditRow.renumber f') = rows.map (AuditRow.renumber f) := by
  apply List.map_congr_left
  intro r hr
  rw [AuditRow.renumber, AuditRow.renumber, hf _ (hrows r hr)]

/-- Renumbering keeps the order of the ids. -/
theorem orderById_renumber (h : Numbering f small large) (hrows : ∀ r ∈ rows, r.id < small) :
    orderById (rows.map (AuditRow.renumber f)) = (orderById rows).map (AuditRow.renumber f) := by
  apply Eq.symm
  apply List.map_insertionSort
  intro a ha b hb
  exact (h.le_iff (hrows a ha) (hrows b hb)).symm

/-- The tenant sees the same rows under both numbers. -/
theorem auditView_renumber (h : Numbering f small large) (hrows : ∀ r ∈ rows, r.id < small) :
    auditView u (rows.map (AuditRow.renumber f)) = auditView u rows := by
  have hfilter : (rows.map (AuditRow.renumber f)).filter (fun r => r.tenantId = u) =
      (rows.filter fun r => r.tenantId = u).map (AuditRow.renumber f) := by
    rw [List.filter_map]
    rfl
  have hsub : ∀ r ∈ rows.filter (fun r => r.tenantId = u), r.id < small := fun r hr =>
    hrows r (List.mem_of_mem_filter hr)
  rw [auditView, auditView, hfilter, orderById_renumber h hsub, List.map_map]
  rfl

/-- The view of a tenant depends on its rows only. -/
theorem auditView_filter (rows : List AuditRow) :
    auditView u (rows.filter fun r => r.tenantId = u) = auditView u rows := by
  rw [auditView, auditView, List.filter_filter]
  simp only [Bool.and_self]

end Renumber

/-! ## Corresponding tables and transactions -/

/-- The tables of the smaller run are what the larger one holds of tenant `u`. -/
structure TablesFollow (u : Uuid) (f : ℕ → ℕ) (db db' : Db) : Prop where
  numbering : Numbering f db'.auditSeq db.auditSeq
  transactions : transactionView u db.transactions = db'.transactions
  auditLogs : (db.auditLogs.filter fun r => r.tenantId = u) =
    db'.auditLogs.map (AuditRow.renumber f)

/-- An open transaction of tenant `u` and its copy in the smaller run. -/
structure Tracks (u : Uuid) (f : ℕ → ℕ) (t t' : OpenTx) : Prop where
  loc : t.loc = t'.loc
  tenant : ∀ v, t.loc.tenantId = some v → Uuid.parse v = some u
  now : t.now = t'.now
  failed : t.failed = t'.failed
  transactions : t.transactions = t'.transactions
  auditLogs : t.auditLogs = t'.auditLogs.map (AuditRow.renumber f)

/-- All rows the transaction has inserted are of tenant `u`. -/
structure OpenTx.OwnRows (u : Uuid) (t : OpenTx) : Prop where
  transactions : ∀ r ∈ t.transactions, r.tenantId = u
  auditLogs : ∀ r ∈ t.auditLogs, r.tenantId = u

section Correspondence

variable {f f' : ℕ → ℕ} {db db' : Db} {t t' : OpenTx}

theorem Tracks.abort (h : Tracks u f t t') : Tracks u f t.abort t'.abort :=
  { h with failed := rfl }

theorem Drawn.committed {tx : Option OpenTx} (h : Drawn (db, tx)) :
    ∀ r ∈ db.auditLogs, r.id < db.auditSeq :=
  fun r hr => h r (List.mem_append_left _ hr)

theorem Drawn.own (h : Drawn (db, some t)) : ∀ r ∈ t.auditLogs, r.id < db.auditSeq :=
  fun r hr => h r (List.mem_append_right _ hr)

/-- The numbers of ids already drawn are what matters. -/
theorem Tracks.congr (h : Tracks u f t t') (hdrawn : Drawn (db', some t'))
    (hf : ∀ n, n < db'.auditSeq → f' n = f n) : Tracks u f' t t' :=
  { h with auditLogs := h.auditLogs.trans (map_renumber_congr hdrawn.own hf).symm }

theorem TablesFollow.congr (h : TablesFollow u f db db') (hdrawn : Drawn (db', none))
    (hf : ∀ n, n < db'.auditSeq → f' n = f n) : TablesFollow u f' db db' where
  numbering := by
    constructor
    · intro n hn
      rw [hf n hn]
      exact h.numbering.below n hn
    · intro m n hmn hn
      rw [hf n hn, hf m (by omega)]
      exact h.numbering.mono m n hmn hn
  transactions := h.transactions
  auditLogs := h.auditLogs.trans (map_renumber_congr hdrawn.committed hf).symm

theorem TablesFollow.view (h : TablesFollow u f db db') :
    transactionView u db.transactions = transactionView u db'.transactions := by
  rw [← h.transactions, transactionView, transactionView, List.filter_filter]
  simp only [Bool.and_self]

/-- The two transactions look alike to the tenant. -/
theorem TablesFollow.openAlike (h : TablesFollow u f db db') (ht : Tracks u f t t')
    (hsession : t.session.IsEmpty) (hsession' : t'.session.IsEmpty)
    (hdrawn : Drawn (db', some t')) (hown : t'.OwnRows u) : OpenAlike u db db' t t' where
  session := ⟨hsession.1, hsession.2⟩
  session' := ⟨hsession'.1, hsession'.2⟩
  loc := ht.loc
  tenant := ht.tenant
  now := ht.now
  failed := ht.failed
  transactions := ht.transactions
  own := ht.transactions ▸ hown.transactions
  audit := by
    have hself : t.auditLogs.filter (fun r => r.tenantId = u) = t.auditLogs := by
      rw [List.filter_eq_self]
      intro r hr
      rw [ht.auditLogs] at hr
      obtain ⟨q, hq, rfl⟩ := List.mem_map.mp hr
      exact decide_eq_true (hown.auditLogs q hq)
    have hrows : ((db.auditLogs ++ t.auditLogs).filter fun r => r.tenantId = u) =
        (db'.auditLogs ++ t'.auditLogs).map (AuditRow.renumber f) := by
      rw [List.filter_append, hself, h.auditLogs, ht.auditLogs, List.map_append]
    rw [← auditView_filter, hrows]
    exact auditView_renumber h.numbering hdrawn

end Correspondence

/-! ## One operation in both runs -/

/-- The outcome of a statement of an intact transaction. -/
def Choice.attempt {α : Type} (c : Choice) (x : Except String α) : Except String α :=
  match c.fail with
  | some e => .error e
  | none => x

theorem onTx_attempt {α : Type} {c : Choice} {db : Db} {t : OpenTx}
    {f : OpenTx → Except String (α × OpenTx)} (hfailed : t.failed = false) :
    onTx c db (some t) f =
      match c.attempt (f t) with
      | .error e => (.error e, db, some t.abort)
      | .ok (a, t') => (.ok a, db, some t') := by
  unfold onTx Choice.attempt
  simp only [hfailed, Bool.false_eq_true, if_false]
  cases c.fail with
  | some e => rfl
  | none =>
    cases f t with
    | error e => rfl
    | ok p => rfl

/-- Statements whose outcomes agree move corresponding transactions to corresponding ones. -/
theorem onTx_tracks {f : ℕ → ℕ} {α : Type} {E : α → α → Prop} (c c' : Choice) (db db' : Db)
    {tx tx' : Option OpenTx} (stmt stmt' : OpenTx → Except String (α × OpenTx))
    (htx : Option.Rel (Tracks u f) tx tx')
    (hstmt : ∀ t t', tx = some t → tx' = some t' → Tracks u f t t' → t.failed = false →
      ExceptRel (fun p p' => E p.1 p'.1 ∧ Tracks u f p.2 p'.2) (c.attempt (stmt t))
        (c'.attempt (stmt' t'))) :
    ExceptRel E (onTx c db tx stmt).1 (onTx c' db' tx' stmt').1 ∧
      Option.Rel (Tracks u f) (onTx c db tx stmt).2.2 (onTx c' db' tx' stmt').2.2 := by
  cases htx with
  | none => exact ⟨.error _, .none⟩
  | @some t t' ht =>
    cases hfailed : t.failed with
    | true =>
      have hfailed' : t'.failed = true := ht.failed.symm.trans hfailed
      simp only [onTx, hfailed, hfailed', if_true]
      exact ⟨.error _, .some ht⟩
    | false =>
      rw [onTx_attempt hfailed, onTx_attempt (ht.failed.symm.trans hfailed)]
      have hout := hstmt t t' rfl rfl ht hfailed
      generalize c.attempt (stmt t) = r at hout ⊢
      generalize c'.attempt (stmt' t') = r' at hout ⊢
      cases hout with
      | ok h => exact ⟨.ok h.1, .some h.2⟩
      | error e => exact ⟨.error _, .some ht.abort⟩

theorem TablesFollow.onTx {f : ℕ → ℕ} {db db' : Db} (h : TablesFollow u f db db') {α : Type}
    (c c' : Choice) (tx tx' : Option OpenTx)
    (stmt stmt' : OpenTx → Except String (α × OpenTx)) :
    TablesFollow u f (onTx c db tx stmt).2.1 (onTx c' db' tx' stmt').2.1 := by
  rw [(onTx_cases (Prod.mk.eta (p := DarkServices.Audit.onTx c db tx stmt)).symm).1,
    (onTx_cases (Prod.mk.eta (p := DarkServices.Audit.onTx c' db' tx' stmt')).symm).1]
  exact h

/-- Equal outside choices and outcomes that agree. -/
theorem attempt_rel {α : Type} {E : α → α → Prop} {c c' : Choice} (hc : c.fail = c'.fail)
    {x x' : Except String α} (h : ExceptRel E x x') :
    ExceptRel E (c.attempt x) (c'.attempt x') := by
  unfold Choice.attempt
  rw [← hc]
  cases c.fail with
  | some e => exact .error e
  | none => exact h

section Statements

variable {f : ℕ → ℕ} {db db' : Db} {t t' : OpenTx}

/-- The error of an id that is taken. -/
def duplicateKey : String :=
  "pq: duplicate key value violates unique constraint \"transactions_pkey\""

/-- The larger run inserts a transaction: so does the smaller one. When the insertion fails
otherwise than on a taken id, both fail alike. -/
theorem insertTransactionRow_tracks (h : TablesFollow u f db db') (hA : OpenAlike u db db' t t')
    {c c' : Choice} (huuid : c.uuid = c'.uuid) (tenantID : String) (amount : Decimal)
    (description : String) {r : Except String TransactionRow}
    (hr : insertTransactionRow db t c tenantID amount description = r)
    (hdup : r ≠ .error duplicateKey) :
    insertTransactionRow db' t' c' tenantID amount description = r := by
  obtain ⟨hp, hp'⟩ := hA.policy
  have hcheck := withCheckPolicy_congr (hp.trans hp'.symm) "transactions"
  subst hr
  unfold insertTransactionRow at hdup ⊢
  cases hparse : Uuid.parse tenantID with
  | none => rfl
  | some tenant =>
    simp only [hparse, hcheck] at hdup ⊢
    split
    · rfl
    · split
      · rfl
      · rename_i hzero hbound
        rw [if_neg hzero, if_neg hbound] at hdup
        cases hpolicy : withCheckPolicy t'.settings "transactions" tenant with
        | error e => rfl
        | ok _ =>
          simp only [hpolicy] at hdup ⊢
          -- an id not taken in the larger run is not taken in the smaller one
          have hfree : ¬ (db.transactions ++ t.transactions).any (fun r => r.id = c.uuid) := by
            intro htaken
            rw [if_pos htaken] at hdup
            exact hdup rfl
          have hfree' : ¬ (db'.transactions ++ t'.transactions).any
              (fun r => r.id = c'.uuid) := by
            intro htaken
            apply hfree
            obtain ⟨q, hq, hid⟩ := List.any_eq_true.mp htaken
            refine List.any_eq_true.mpr ⟨q, ?_, huuid ▸ hid⟩
            rw [← h.transactions, ← hA.transactions] at hq
            obtain hq | hq := List.mem_append.mp hq
            · exact List.mem_append_left _ (List.mem_of_mem_filter hq)
            · exact List.mem_append_right _ hq
          rw [if_neg hfree, if_neg hfree', huuid, hA.now]

end Statements

/-- What else is known of the open transactions of a call in the two runs. -/
structure Ready (u : Uuid) (db' : Db) (tx tx' : Option OpenTx) : Prop where
  session : ∀ t, tx = some t → t.session.IsEmpty
  session' : ∀ t, tx' = some t → t.session.IsEmpty
  drawn : Drawn (db', tx')
  own : ∀ t, tx' = some t → t.OwnRows u

/-- The outside fails an operation in the smaller run as in the larger one, where `r` is the
reply there. An insertion that met a taken id fails, whoever had taken the id. -/
def CopiesFailure (c c' : Choice) : (o : DbOp) → Reply o → Prop
  | .insertTransaction .., r =>
    (r = .error duplicateKey → c'.fail = some duplicateKey) ∧
      (r ≠ .error duplicateKey → c.fail = c'.fail)
  | _, _ => c.fail = c'.fail

section Operations

variable {f : ℕ → ℕ} {db db' : Db} {tx tx' : Option OpenTx} {c c' : Choice}
  {session session' : Settings}

theorem Ready.openAlike {t t' : OpenTx} (hready : Ready u db' (some t) (some t'))
    (h : TablesFollow u f db db') (ht : Tracks u f t t') : OpenAlike u db db' t t' :=
  h.openAlike ht (hready.session t rfl) (hready.session' t' rfl) hready.drawn
    (hready.own t' rfl)

theorem insertTransaction_follows (h : TablesFollow u f db db')
    (htx : Option.Rel (Tracks u f) tx tx') (hready : Ready u db' tx tx')
    (huuid : c.uuid = c'.uuid) {tenantID description : String} {amount : Decimal}
    (hcopy : ∀ t, tx = some t → t.failed = false →
      CopiesFailure c c' (.insertTransaction tenantID amount description)
        (execOp pg session c (.insertTransaction tenantID amount description) db tx).1) :
    ExceptRel Eq (execOp pg session c (.insertTransaction tenantID amount description) db tx).1
        (execOp pg session' c' (.insertTransaction tenantID amount description) db' tx').1 ∧
      Option.Rel (Tracks u f)
        (execOp pg session c (.insertTransaction tenantID amount description) db tx).2.2
        (execOp pg session' c' (.insertTransaction tenantID amount description) db' tx').2.2 := by
  refine onTx_tracks c c' db db' _ _ htx ?_
  rintro t t' rfl rfl ht hfailed
  have hA := hready.openAlike h ht
  obtain ⟨hdup, hother⟩ := hcopy t rfl hfailed
  simp only [execOp, onTx_attempt hfailed] at hdup hother
  cases hc : c.fail with
  | some e =>
    simp only [Choice.attempt, hc] at hdup hother ⊢
    by_cases he : e = duplicateKey
    · rw [hdup (congrArg _ he), he]
      exact .error _
    · rw [← hother fun h => he (Except.error.inj h)]
      exact .error _
  | none =>
    -- the row is inserted alike unless its id is taken
    have hrow := insertTransactionRow_tracks h hA huuid tenantID amount description rfl
    simp only [Choice.attempt, hc] at hdup hother ⊢
    generalize insertTransactionRow db t c tenantID amount description = row at hrow hdup hother ⊢
    cases row with
    | error e =>
      simp only [Except.map] at hdup hother ⊢
      by_cases he : e = duplicateKey
      · rw [hdup (congrArg _ he), he]
        exact .error _
      · have hne : (Except.error e : Except String (Uuid × Timestamp)) ≠ .error duplicateKey :=
          fun h => he (Except.error.inj h)
        rw [← hother hne, hrow fun h => he (Except.error.inj h)]
        exact .error _
    | ok r =>
      simp only [Except.map] at hdup hother ⊢
      rw [← hother (by simp), hrow (by simp)]
      exact .ok ⟨rfl, { ht with transactions := congrArg (· ++ [r]) ht.transactions }⟩

/-- The columns of a new audit row, but for the id. -/
theorem newAudit_tracks {t t' : OpenTx} (hnow : t.now = t'.now) (db db' : Db)
    (actorID tenantID action resource : String) (details : Json) :
    newAudit db' t' actorID tenantID action resource details =
      (newAudit db t actorID tenantID action resource details).map fun n =>
        { n with id := db'.auditSeq } := by
  unfold newAudit
  rw [hnow]
  cases Uuid.parse actorID with
  | none => rfl
  | some actor =>
    cases Uuid.parse tenantID with
    | none => rfl
    | some tenant =>
      simp only
      split
      · rfl
      · split <;> rfl

/-- Both runs draw an id from their sequences, or neither does. -/
theorem seqAfter_tracks (db db' : Db) (htx : Option.Rel (Tracks u f) tx tx')
    (actorID tenantID action resource : String) (details : Json) :
    let new := fun db t => newAudit db t actorID tenantID action resource details
    (seqAfter db tx (new db) = db.auditSeq ∧ seqAfter db' tx' (new db') = db'.auditSeq) ∨
      (seqAfter db tx (new db) = db.auditSeq + 1 ∧
        seqAfter db' tx' (new db') = db'.auditSeq + 1) := by
  intro new
  cases htx with
  | none => exact Or.inl ⟨rfl, rfl⟩
  | @some t t' ht =>
    have hnew : new db' t' = (new db t).map fun n => { n with id := db'.auditSeq } :=
      newAudit_tracks ht.now db db' actorID tenantID action resource details
    simp only [seqAfter, ← ht.failed, hnew]
    cases t.failed with
    | true => exact Or.inl ⟨rfl, rfl⟩
    | false =>
      cases new db t with
      | error e => exact Or.inl ⟨rfl, rfl⟩
      | ok n => exact Or.inr ⟨rfl, rfl⟩

theorem insertAudit_follows (h : TablesFollow u f db db')
    (htx : Option.Rel (Tracks u f) tx tx') (hready : Ready u db' tx tx')
    (hc : c.fail = c'.fail) {actorID tenantID action resource : String} {details : Json} :
    let o : DbOp := .insertAudit actorID tenantID action resource details
    ∃ f', (∀ n, n < db'.auditSeq → f' n = f n) ∧
      (execOp pg session c o db tx).1 = (execOp pg session' c' o db' tx').1 ∧
      TablesFollow u f' (execOp pg session c o db tx).2.1 (execOp pg session' c' o db' tx').2.1 ∧
      Option.Rel (Tracks u f') (execOp pg session c o db tx).2.2
        (execOp pg session' c' o db' tx').2.2 := by
  intro o
  -- the ids drawn next correspond
  have hf : ∀ n, n < db'.auditSeq →
      Function.update f db'.auditSeq db.auditSeq n = f n := fun n hn =>
    Function.update_of_ne (by omega) ..
  have hcommitted : Drawn (db', none) := by
    intro r hr
    rw [pending_none, Rows.none_auditLogs, List.append_nil] at hr
    exact hready.drawn.committed r hr
  have htables := h.congr hcommitted hf
  have htx' : Option.Rel (Tracks u (Function.update f db'.auditSeq db.auditSeq)) tx tx' := by
    cases htx with
    | none => exact .none
    | some ht => exact .some (ht.congr hready.drawn hf)
  refine ⟨_, hf, ?_⟩
  have hstmt := onTx_tracks (E := Eq) c c' db db'
    (fun t => (newAudit db t actorID tenantID action resource details).bind fun n =>
      (insertAuditRow pg db t n).map fun row =>
        ((), { t with auditLogs := t.auditLogs ++ [row] }))
    (fun t => (newAudit db' t actorID tenantID action resource details).bind fun n =>
      (insertAuditRow pg db' t n).map fun row =>
        ((), { t with auditLogs := t.auditLogs ++ [row] })) htx' ?_
  · refine ⟨hstmt.1.eq, ?_, hstmt.2⟩
    obtain ⟨hseq, hseq'⟩ | ⟨hseq, hseq'⟩ := seqAfter_tracks db db' htx
      actorID tenantID action resource details
    · refine ⟨?_, h.transactions, htables.auditLogs⟩
      simp only [o, execOp, hseq, hseq']
      exact htables.numbering
    · refine ⟨?_, h.transactions, htables.auditLogs⟩
      simp only [o, execOp, hseq, hseq']
      exact h.numbering.draw
  · rintro t t' rfl rfl ht hfailed
    have hA := hready.openAlike htables ht
    refine attempt_rel hc ?_
    rw [newAudit_tracks ht.now db db']
    cases hn : newAudit db t actorID tenantID action resource details with
    | error e => exact .error e
    | ok n =>
      obtain ⟨actor, tenant, -, -, rfl⟩ := newAudit_ok hn
      have hrows := hA.insertAuditRow pg ⟨db.auditSeq, t.now, actor, tenant, action, resource,
        some details.toJsonb⟩ db'.auditSeq
      simp only [Except.map, Except.bind]
      generalize insertAuditRow pg db t _ = r at hrows ⊢
      generalize insertAuditRow pg db' t' _ = r' at hrows ⊢
      cases hrows with
      | error e => exact .error e
      | @ok row row' hrow =>
        obtain ⟨hsame, hid, hid', -⟩ := hrow
        refine .ok ⟨trivial, { ht with auditLogs := ?_ }⟩
        have hnumbered : row = row'.renumber (Function.update f db'.auditSeq db.auditSeq) := by
          cases row
          cases row'
          simp only [AuditRow.withoutId, AuditRow.mk.injEq, true_and] at hsame
          simp only at hid hid'
          simp [AuditRow.renumber, hid, hid', hsame]
        simp only [List.map_append, List.map_cons, List.map_nil, ht.auditLogs, ← hnumbered]

theorem commit_follows (h : TablesFollow u f db db') (htx : Option.Rel (Tracks u f) tx tx')
    (hready : Ready u db' tx tx') (hc : c.fail = c'.fail) :
    (commitTx c db tx).1 = (commitTx c' db' tx').1 ∧
      TablesFollow u f (commitTx c db tx).2.1 (commitTx c' db' tx').2.1 ∧
      (commitTx c db tx).2.2 = none ∧ (commitTx c' db' tx').2.2 = none := by
  cases htx with
  | none => exact ⟨rfl, h, rfl, rfl⟩
  | @some t t' ht =>
    simp only [commitTx, ← hc, ← ht.failed]
    cases c.fail with
    | some e => exact ⟨rfl, h, rfl, rfl⟩
    | none =>
      cases t.failed with
      | true => exact ⟨rfl, h, rfl, rfl⟩
      | false =>
        obtain ⟨hown, hownAudit⟩ := hready.own t' rfl
        refine ⟨rfl, ⟨h.numbering, ?_, ?_⟩, rfl, rfl⟩
        · have hall : t'.transactions.filter (fun r => r.tenantId = u) = t'.transactions :=
            List.filter_eq_self.mpr fun r hr => decide_eq_true (hown r hr)
          have hold := h.transactions
          simp only [transactionView, Bool.false_eq_true, if_false] at hold ⊢
          rw [List.filter_append, hold, ht.transactions, hall]
        · have hall : t.auditLogs.filter (fun r => r.tenantId = u) = t.auditLogs := by
            rw [List.filter_eq_self]
            intro r hr
            rw [ht.auditLogs] at hr
            obtain ⟨q, hq, rfl⟩ := List.mem_map.mp hr
            exact decide_eq_true (hownAudit q hq)
          simp only [Bool.false_eq_true, if_false]
          rw [List.filter_append, h.auditLogs, hall, ht.auditLogs, List.map_append]

/-- **One operation.** It answers alike in corresponding states and leaves corresponding
states, the numbers of the ids drawn before kept. -/
theorem execOp_follows (session session' : Settings) {x : Inputs} {o : DbOp} (ho : OpFor u (some x.uuid) x o)
    (h : TablesFollow u f db db') (htx : Option.Rel (Tracks u f) tx tx')
    (hready : Ready u db' tx tx') (hnow : c.now = c'.now) (huuid : c.uuid = c'.uuid)
    (hcopy : ∀ t, tx = some t → t.failed = false →
      CopiesFailure c c' o (execOp pg session c o db tx).1)
    (hfail : (∀ tenantID amount description,
      o ≠ .insertTransaction tenantID amount description) → c.fail = c'.fail) :
    ∃ f', (∀ n, n < db'.auditSeq → f' n = f n) ∧
      ReplyAlike o (execOp pg session c o db tx).1 (execOp pg session' c' o db' tx').1 ∧
      TablesFollow u f' (execOp pg session c o db tx).2.1 (execOp pg session' c' o db' tx').2.1 ∧
      Option.Rel (Tracks u f') (execOp pg session c o db tx).2.2
        (execOp pg session' c' o db' tx').2.2 := by
  cases o with
  | begin =>
    have hc := hfail (by simp)
    refine ⟨f, fun _ _ => rfl, ?_⟩
    cases hf : c.fail with
    | some e =>
      simp only [execOp, ← hc, hf]
      exact ⟨rfl, h, htx⟩
    | none =>
      simp only [execOp, ← hc, hf]
      refine ⟨rfl, h, .some ⟨rfl, fun w hw => ?_, hnow, rfl, rfl, rfl⟩⟩
      cases hw
  | setConfig k v =>
    have hstmt := onTx_tracks (E := Eq) c c' db db'
      (fun t => .ok ((), { t with loc := t.loc.set k v }))
      (fun t => .ok ((), { t with loc := t.loc.set k v })) htx
      fun t t' _ _ ht _ => attempt_rel (hfail (by simp)) (.ok ⟨rfl, ?_⟩)
    · exact ⟨f, fun _ _ => rfl, hstmt.1.eq, h.onTx .., hstmt.2⟩
    · refine { ht with loc := congrArg (Settings.set · k v) ht.loc, tenant := ?_ }
      cases k with
      | tenantId =>
        intro w hw
        cases hw
        exact ho
      | auditSecret => exact ht.tenant
  | insertTransaction tenantID amount description =>
    obtain ⟨hr, htx'⟩ := insertTransaction_follows h htx hready huuid hcopy
    exact ⟨f, fun _ _ => rfl, hr.eq, h.onTx .., htx'⟩
  | sumAmount =>
    have hstmt := onTx_tracks (E := Eq) c c' db db'
      (fun t => (t.seesTransactions db).map fun rows =>
        ((rows.map TransactionRow.amount).sum, t))
      (fun t => (t.seesTransactions db').map fun rows =>
        ((rows.map TransactionRow.amount).sum, t)) htx ?_
    · exact ⟨f, fun _ _ => rfl, hstmt.1.eq, h.onTx .., hstmt.2⟩
    · rintro t t' rfl rfl ht -
      refine attempt_rel (hfail (by simp)) ?_
      have hsees := (hready.openAlike h ht).seesTransactions h.view
      rw [← hsees]
      cases t.seesTransactions db with
      | error e => exact .error e
      | ok rows => exact .ok ⟨rfl, ht⟩
  | insertAudit actorID tenantID action resource details =>
    exact insertAudit_follows h htx hready (hfail (by simp))
  | selectAudit =>
    have hstmt := onTx_tracks
      (E := fun a b => a.map AuditRow.withoutId = b.map AuditRow.withoutId) c c' db db'
      (fun t => (t.seesAudit db).map fun rows => (orderById rows, t))
      (fun t => (t.seesAudit db').map fun rows => (orderById rows, t)) htx ?_
    · exact ⟨f, fun _ _ => rfl, hstmt.1, h.onTx .., hstmt.2⟩
    · rintro t t' rfl rfl ht -
      refine attempt_rel (hfail (by simp)) ?_
      have hA := hready.openAlike h ht
      obtain ⟨p, hp, hsees, hsees'⟩ := hA.seesAudit
      rw [hsees, hsees']
      refine .ok ⟨?_, ht⟩
      rcases hp with rfl | rfl
      · simp [orderById]
      · rw [filter_tenant, filter_tenant]
        exact hA.audit
  | commit =>
    obtain ⟨hr, htables, hnone, hnone'⟩ := commit_follows h htx hready (hfail (by simp))
    refine ⟨f, fun _ _ => rfl, hr, htables, ?_⟩
    simp only [execOp, hnone, hnone']
    exact .none
  | rollback => exact ⟨f, fun _ _ => rfl, rfl, h, .none⟩
  | resetExec => exact ⟨f, fun _ _ => rfl, rfl, h, htx⟩

end Operations

/-! ## Facts about one run -/

theorem Effect.auditSeq_le {c : Choice} {o : DbOp} {db db' : Db} {tx tx' : Option OpenTx}
    {r : Reply o} (h : Effect pg c db tx o r db' tx') : db.auditSeq ≤ db'.auditSeq := by
  cases h with
  | quiet _ _ hseq => exact hseq
  | insertTransaction => exact le_rfl
  | insertAudit => exact Nat.le_succ _
  | commit => exact le_rfl

section Runs

variable {ι : Type} [DecidableEq ι] [Fintype ι] {max : ℕ} {client : DBClient} {calls : ι → Call}
  {ok : CallStates ι → ι × PoolChoice → Prop}

/-- What holds of the shared state in every reachable state. -/
structure RunFacts (max : ℕ) (s : Shared ι) : Prop where
  pool : PoolInv max s
  clean : Clean s
  committed : Drawn (s.db, none)
  drawn : ∀ i, Drawn (s.db, s.conn i)

/-- **Step lemma.** The ids of all rows, committed or pending, stay drawn. -/
theorem drawn_step {s s' : Shared ι} {i : ι} {o : DbOp} {c : PoolChoice} {r : Reply o}
    (hdrawn : ∀ j, Drawn (s.db, s.conn j)) (h : dbSem pg s i o c = some (r, s')) (j : ι) :
    Drawn (s'.db, s'.conn j) := by
  have heffect := dbSem_effect h
  have hown := drawn_effect (hdrawn i) heffect
  by_cases hj : j = i
  · rw [hj]
    exact hown
  · have hconn : s'.conn j = s.conn j := congrArg Local.tx (dbSem_frame h hj)
    intro q hq
    obtain hq | hq := List.mem_append.mp hq
    · exact hown q (List.mem_append_left _ hq)
    · rw [hconn] at hq
      exact lt_of_lt_of_le (hdrawn j q (List.mem_append_right _ hq)) heffect.auditSeq_le

theorem runFacts_of_reachable {s : CallStates ι}
    (h : (callSystem pg max client calls).ReachableIf ok s) :
    RunFacts max s.shared ∧ AtPoints calls s := by
  refine callSystem_invariant (I := fun s => RunFacts max s.shared) ?_ ?_ h
  · have hcount : PoolInv max (startState max client calls).shared :=
      ⟨rfl, by simp [startState, held], Nat.zero_le _⟩
    exact ⟨hcount, ⟨by simp [startState], by simp [startState]⟩,
      by simp [Drawn, startState, Db.empty], by simp [Drawn, startState, Db.empty]⟩
  · intro s i o k c r s' hfacts hpoints hp _ hsem
    have hbegin : o = .begin → s.shared.conn i = none := by
      rintro rfl
      exact (hpoints i).begin k hp
    have hdrawn := drawn_step hfacts.drawn hsem
    refine ⟨poolInv_step hfacts.pool hbegin hsem, clean_step hfacts.clean hsem, ?_, hdrawn⟩
    intro q hq
    rw [pending_none, Rows.none_auditLogs, List.append_nil] at hq
    exact hdrawn i q (List.mem_append_left _ hq)

end Runs

/-! ## The simulation -/

section Simulation

variable {ι : Type} [DecidableEq ι] [Fintype ι] {max : ℕ} {client : DBClient} {calls : ι → Call}

/-- The calls of tenant `u`. -/
abbrev Own (calls : ι → Call) (u : Uuid) : Type := {i : ι // (calls i).isFor u = true}

/-- Inputs that the relation of two programs mentions and nothing depends on. -/
def anyInputs : Inputs := Inputs.plain 0 Uuid.zero

/-- The smaller run holds of tenant `u` what the larger one does, and its calls are as far. -/
structure Follows (u : Uuid) (calls : ι → Call) (f : ℕ → ℕ) (s : CallStates ι)
    (s' : CallStates (Own calls u)) : Prop where
  tables : TablesFollow u f s.shared.db s'.shared.db
  conns : ∀ i : Own calls u,
    Option.Rel (Tracks u f) (s.shared.conn i.1) (s'.shared.conn i)
  progs : ∀ i : Own calls u,
    SameAnswers u (some anyInputs.uuid) anyInputs (s.prog i.1) (s'.prog i)

/-- The outside choices in the smaller run: those of the larger one, another tenant's id being
taken left to the outside, and the first idle connection. -/
def copied (c : PoolChoice) : (o : DbOp) → Reply o → PoolChoice
  | .insertTransaction .., .error e =>
    ⟨{ c.toChoice with fail := if e = duplicateKey then some duplicateKey else c.fail }, 0, true⟩
  | _, _ => ⟨c.toChoice, 0, true⟩

theorem copied_choice (c : PoolChoice) (o : DbOp) (r : Reply o) :
    (copied c o r).now = c.now ∧ (copied c o r).uuid = c.uuid ∧ (copied c o r).pick = 0 ∧
      ((copied c o r).fail = c.fail ∨ (copied c o r).fail = some duplicateKey) := by
  unfold copied
  split
  · refine ⟨rfl, rfl, rfl, ?_⟩
    split
    · exact Or.inr rfl
    · exact Or.inl rfl
  · exact ⟨rfl, rfl, rfl, Or.inl rfl⟩

theorem copied_insertTransaction (c : PoolChoice) {tenantID description : String}
    {amount : Decimal} (r : Except String (Uuid × Timestamp)) :
    (copied c (.insertTransaction tenantID amount description) r).fail =
      if r = .error duplicateKey then some duplicateKey else c.fail := by
  cases r with
  | error e =>
    simp only [copied, Except.error.injEq]
  | ok p => rfl

/-- An id in flight in the smaller run is in flight in the larger one. -/
theorem Follows.idInFlight {f : ℕ → ℕ} {s : CallStates ι} {s' : CallStates (Own calls u)}
    (h : Follows u calls f s s') {i : Own calls u} {v : Uuid}
    (hflight : idInFlight s'.shared i v = true) : idInFlight s.shared i.1 v = true := by
  obtain ⟨j, hj, hrow⟩ := of_decide_eq_true hflight
  refine decide_eq_true ⟨j.1, fun heq => hj (Subtype.ext heq), ?_⟩
  have hconn := h.conns j
  generalize s.shared.conn j.1 = tx at hconn ⊢
  generalize s'.shared.conn j = tx' at hconn hrow
  cases hconn with
  | none => cases hrow
  | some ht =>
    rw [Option.any_some, ht.transactions]
    exact hrow

omit [DecidableEq ι] [Fintype ι] in
theorem Follows.isSome_eq {f : ℕ → ℕ} {s : CallStates ι} {s' : CallStates (Own calls u)}
    (h : Follows u calls f s s') (i : Own calls u) :
    (s.shared.conn i.1).isSome = (s'.shared.conn i).isSome := by
  have hconn := h.conns i
  generalize s.shared.conn i.1 = tx at hconn ⊢
  generalize s'.shared.conn i = tx' at hconn ⊢
  cases hconn with
  | none => rfl
  | some => rfl

omit [DecidableEq ι] in
/-- The smaller run holds no more connections. -/
theorem Follows.held_le {f : ℕ → ℕ} {s : CallStates ι} {s' : CallStates (Own calls u)}
    (h : Follows u calls f s s') : held s'.shared ≤ held s.shared := by
  rw [held, held, ← Finset.card_filter, ← Finset.card_filter]
  refine Finset.card_le_card_of_injOn Subtype.val ?_ Subtype.val_injective.injOn
  intro i hi
  rw [Finset.mem_coe, Finset.mem_filter] at hi ⊢
  exact ⟨Finset.mem_univ _, (h.isSome_eq i).trans hi.2⟩

omit [DecidableEq ι] in
/-- When the larger run has a connection to give, so has the smaller one. -/
theorem Follows.take_isSome {f : ℕ → ℕ} {s : CallStates ι} {s' : CallStates (Own calls u)}
    (h : Follows u calls f s s') (hfacts : RunFacts max s.shared) (hfacts' : RunFacts max s'.shared)
    {pick : ℕ} {session : Settings} {pool : Pool}
    (htake : s.shared.pool.take pick = some (session, pool)) :
    (s'.shared.pool.take 0).isSome := by
  have hheld := h.held_le
  have hcases := (take_cases htake).2
  obtain ⟨hlimit, hcount, hbound⟩ := hfacts.pool
  obtain ⟨hlimit', hcount', hbound'⟩ := hfacts'.pool
  apply DarkServices.Audit.take_isSome
  by_cases hfree : s'.shared.pool.free = []
  · right
    rw [hfree, List.length_nil] at hcount'
    omega
  · exact Or.inl hfree

/-- The operation of a call of another tenant. -/
theorem Follows.other {f : ℕ → ℕ} {s : CallStates ι} {s' : CallStates (Own calls u)}
    (h : Follows u calls f s s') {i : ι} (hi : (calls i).isFor u = false) {o : DbOp}
    {k : Reply o → DbProg (Except String Answer)} {c : PoolChoice} {r : Reply o} {t : Shared ι}
    (hpoints : AtPoints calls s) (hsem : dbSem pg s.shared i o c = some (r, t)) :
    Follows u calls f ⟨t, Function.update s.prog i (k r)⟩ s' := by
  have hne : ∀ j : Own calls u, j.1 ≠ i := by
    rintro j rfl
    rw [j.2] at hi
    cases hi
  have heffect := dbSem_effect hsem
  obtain ⟨htransactions, hauditLogs⟩ := heffect.tables
  have hparse : Uuid.parse (calls i).tenantID ≠ some u := of_decide_eq_false hi
  -- the rows it commits are of its own tenant
  have hrows : (∀ q ∈ (committedBy o r (s.shared.conn i)).transactions, q.tenantId ≠ u) ∧
      ∀ q ∈ (committedBy o r (s.shared.conn i)).auditLogs, q.tenantId ≠ u := by
    obtain hnone | hpending := committedBy_pending o r (s.shared.conn i)
    · rw [hnone]
      exact ⟨nofun, nofun⟩
    · rw [hpending]
      cases htx : s.shared.conn i with
      | none => exact ⟨nofun, nofun⟩
      | some tx =>
        obtain ⟨-, haudit, htrans⟩ := (hpoints i).rows tx htx
        constructor
        · rintro q hq rfl
          exact hparse (htrans q hq)
        · rintro q hq rfl
          exact hparse (haudit q hq)
  constructor
  · refine ⟨h.tables.numbering.mono_right heffect.auditSeq_le, ?_, ?_⟩
    · have hnil : ((committedBy o r (s.shared.conn i)).transactions.filter
          fun q => q.tenantId = u) = [] :=
        List.filter_eq_nil_iff.mpr fun q hq => by simpa using hrows.1 q hq
      have hold := h.tables.transactions
      rw [transactionView] at hold ⊢
      rw [htransactions, List.filter_append, hnil, List.append_nil, hold]
    · have hnil : ((committedBy o r (s.shared.conn i)).auditLogs.filter
          fun q => q.tenantId = u) = [] :=
        List.filter_eq_nil_iff.mpr fun q hq => by simpa using hrows.2 q hq
      rw [hauditLogs, List.filter_append, hnil, List.append_nil, h.tables.auditLogs]
  · intro j
    have hconn : t.conn j.1 = s.shared.conn j.1 := congrArg Local.tx (dbSem_frame hsem (hne j))
    rw [hconn]
    exact h.conns j
  · intro j
    simp only [Function.update_of_ne (hne j)]
    exact h.progs j

omit [DecidableEq ι] in
/-- The open transactions of a call of the tenant, as the two runs leave them. -/
theorem ready_of_facts {s : CallStates ι}
    {s' : CallStates (Own calls u)} (hfacts : RunFacts max s.shared)
    (hfacts' : RunFacts max s'.shared)
    (hpoints' : AtPoints (fun i : Own calls u => calls i.1) s') (i : Own calls u) :
    Ready u s'.shared.db (s.shared.conn i.1) (s'.shared.conn i) where
  session t ht := hfacts.clean.held i.1 t ht
  session' t ht := hfacts'.clean.held i t ht
  drawn := hfacts'.drawn i
  own t ht := by
    have hparse : Uuid.parse (calls i.1).tenantID = some u := of_decide_eq_true i.2
    obtain ⟨-, haudit, htrans⟩ := (hpoints' i).rows t ht
    rw [hparse] at haudit htrans
    exact ⟨fun q hq => (Option.some_injective _ (htrans q hq)).symm,
      fun q hq => (Option.some_injective _ (haudit q hq)).symm⟩

theorem choiceOf_now (s : Shared ι) (i : ι) (c : PoolChoice) (o : DbOp) :
    (choiceOf s i c o).now = c.now ∧ (choiceOf s i c o).uuid = c.uuid := by
  unfold choiceOf
  split
  · split <;> exact ⟨rfl, rfl⟩
  · exact ⟨rfl, rfl⟩

theorem choiceOf_fail (s : Shared ι) (i : ι) (c : PoolChoice) {o : DbOp}
    (ho : ∀ tenantID amount description,
      o ≠ .insertTransaction tenantID amount description) : (choiceOf s i c o).fail = c.fail := by
  cases o with
  | insertTransaction tenantID amount description => exact absurd rfl (ho _ _ _)
  | _ => rfl

theorem choiceOf_insertTransaction (s : Shared ι) (i : ι) (c : PoolChoice)
    (tenantID description : String) (amount : Decimal) :
    (choiceOf s i c (.insertTransaction tenantID amount description)).fail =
      if DarkServices.Audit.idInFlight s i c.uuid then some duplicateKey else c.fail := by
  simp only [choiceOf]
  split <;> rfl

/-- The failure of an operation is copied. -/
theorem Follows.copiesFailure (pg : Pg) {f : ℕ → ℕ} {s : CallStates ι} {s' : CallStates (Own calls u)}
    (h : Follows u calls f s s') (i : Own calls u) (o : DbOp) (c : PoolChoice)
    (session : Settings) {t : OpenTx} (ht : s.shared.conn i.1 = some t) (hfailed : t.failed = false) :
    let r := (execOp pg session (choiceOf s.shared i.1 c o) o s.shared.db (s.shared.conn i.1)).1
    CopiesFailure (choiceOf s.shared i.1 c o) (choiceOf s'.shared i (copied c o r) o) o r := by
  intro r
  cases o with
  | insertTransaction tenantID amount description =>
    have huuid : (copied c (.insertTransaction tenantID amount description) r).uuid = c.uuid :=
      (copied_choice c _ r).2.1
    constructor
    · intro hr
      rw [choiceOf_insertTransaction, copied_insertTransaction, if_pos hr]
      split <;> rfl
    · intro hr
      -- the id was not in flight: the insertion would have failed on it
      have hflight : ¬ DarkServices.Audit.idInFlight s.shared i.1 c.uuid = true := by
        intro hflight
        apply hr
        have hfail := choiceOf_insertTransaction s.shared i.1 c tenantID description amount
        rw [if_pos hflight] at hfail
        simp only [r, execOp, ht, onTx_attempt hfailed, Choice.attempt, hfail]
      have hflight' : ¬ DarkServices.Audit.idInFlight s'.shared i
          (copied c (.insertTransaction tenantID amount description) r).uuid = true := by
        rw [huuid]
        exact fun hf => hflight (h.idInFlight hf)
      rw [choiceOf_insertTransaction, choiceOf_insertTransaction, if_neg hflight, if_neg hflight',
        copied_insertTransaction, if_neg hr]
  | _ => rfl

/-- The operation of a call of the tenant: the smaller run copies it. -/
theorem Follows.own {f : ℕ → ℕ} {s : CallStates ι} {s' : CallStates (Own calls u)}
    (h : Follows u calls f s s') (hfacts : RunFacts max s.shared) (hfacts' : RunFacts max s'.shared)
    (hpoints' : AtPoints (fun i : Own calls u => calls i.1) s') (i : Own calls u) {o : DbOp}
    {k : Reply o → DbProg (Except String Answer)} {c : PoolChoice} {r : Reply o} {t : Shared ι}
    (hp : s.prog i.1 = .op o k) (hsem : dbSem pg s.shared i.1 o c = some (r, t)) :
    ∃ f' t', Threads.step (dbSem pg) s' (i, copied c o r) = some t' ∧
      Follows u calls f' ⟨t, Function.update s.prog i.1 (k r)⟩ t' := by
  obtain ⟨session, pool, htake, hex, -⟩ := dbSem_eq_some hsem
  -- the connection
  obtain ⟨session', pool', htake'⟩ : ∃ session' pool',
      (if o.needsConn then s'.shared.pool.take (copied c o r).pick
        else some (Settings.unset, s'.shared.pool)) = some (session', pool') := by
    rw [(copied_choice c o r).2.2.1]
    by_cases hneeds : o.needsConn = true
    · rw [if_pos hneeds] at htake
      have hsome := h.take_isSome hfacts hfacts' htake
      obtain ⟨⟨session', pool'⟩, htake'⟩ := Option.isSome_iff_exists.mp hsome
      exact ⟨session', pool', (if_pos hneeds).trans htake'⟩
    · exact ⟨_, _, if_neg hneeds⟩
  -- the program of the copy asks for the same operation
  have hprog := h.progs i
  rw [hp] at hprog
  generalize hp' : s'.prog i = p' at hprog
  cases hprog with
  | @op _ _ k' ho hk =>
    obtain ⟨hnow, huuid⟩ := choiceOf_now s.shared i.1 c o
    obtain ⟨hnow', huuid'⟩ := choiceOf_now s'.shared i (copied c o r) o
    obtain ⟨hcnow, hcuuid, -⟩ := copied_choice c o r
    have hcopy : ∀ tx, s.shared.conn i.1 = some tx → tx.failed = false →
        CopiesFailure (choiceOf s.shared i.1 c o) (choiceOf s'.shared i (copied c o r) o) o
          (execOp pg session (choiceOf s.shared i.1 c o) o s.shared.db
            (s.shared.conn i.1)).1 := by
      intro tx htx hfailed
      have hcopies := h.copiesFailure pg i o c session htx hfailed
      simp only [hex] at hcopies ⊢
      exact hcopies
    have hfail : (∀ tenantID amount description,
        o ≠ .insertTransaction tenantID amount description) →
        (choiceOf s.shared i.1 c o).fail = (choiceOf s'.shared i (copied c o r) o).fail := by
      intro hne
      rw [choiceOf_fail _ _ _ hne, choiceOf_fail _ _ _ hne]
      cases o with
      | insertTransaction tenantID amount description => exact absurd rfl (hne _ _ _)
      | _ => rfl
    obtain ⟨f', hf, hreply, htables, htx⟩ := execOp_follows session session' ho h.tables (h.conns i) (ready_of_facts hfacts hfacts' hpoints' i)
      (hnow.trans (hcnow.symm.trans hnow'.symm)) (huuid.trans (hcuuid.symm.trans huuid'.symm))
      hcopy hfail
    rw [hex] at hreply htables htx
    generalize hex' : execOp pg session' (choiceOf s'.shared i (copied c o r) o) o s'.shared.db
      (s'.shared.conn i) = res' at hreply htables htx
    have hsem' : dbSem pg s'.shared i o (copied c o r) = some (res'.1,
        { db := res'.2.1
          pool := poolAfter (copied c o r) session' pool' (s'.shared.conn i) res'.2.2 o
          conn := Function.update s'.shared.conn i res'.2.2
          byCall := Function.update s'.shared.byCall i
            ((s'.shared.byCall i).append (committedBy o res'.1 (s'.shared.conn i))) }) := by
      simp only [dbSem, htake', Option.map_some, hex']
    refine ⟨f', _, Threads.step_of_op hp' hsem', htables, ?_, ?_⟩
    · intro j
      by_cases hj : j = i
      · subst hj
        simp only [Function.update_self]
        exact htx
      · have hval : j.1 ≠ i.1 := fun heq => hj (Subtype.ext heq)
        have hframe : t.conn j.1 = s.shared.conn j.1 :=
          congrArg Local.tx (dbSem_frame hsem hval)
        simp only [hframe, Function.update_of_ne hj]
        have hold := h.conns j
        have hdrawn := hfacts'.drawn j
        generalize s.shared.conn j.1 = tx at hold ⊢
        generalize s'.shared.conn j = tx' at hold hdrawn ⊢
        cases hold with
        | none => exact .none
        | some ht => exact .some (ht.congr hdrawn hf)
    · intro j
      by_cases hj : j = i
      · subst hj
        simp only [Function.update_self]
        exact hk _ _ hreply
      · have hval : j.1 ≠ i.1 := fun heq => hj (Subtype.ext heq)
        simp only [Function.update_of_ne hval, Function.update_of_ne hj]
        exact h.progs j

end Simulation

/-! ## The result -/

/-- What a call has returned. -/
def returned {α : Type} : DbProg α → Option α
  | .ret a => some a
  | .op _ _ => none

/-- The outside lets an operation fail in the ways `E` only. -/
abbrev FailsAs (E : String → Prop) (c : PoolChoice) : Prop := ∀ e ∈ c.fail, E e

section Result

variable {ι : Type} [DecidableEq ι] [Fintype ι] {max : ℕ} {client : DBClient} {calls : ι → Call}

theorem returned_related {x : Inputs} {new : Option Uuid} {p p' : DbProg (Except String Answer)}
    (h : SameAnswers u new x p p') : (returned p).map hideIds = (returned p').map hideIds := by
  cases h with
  | ret h => exact congrArg some h
  | op => rfl

omit [DecidableEq ι] [Fintype ι] in
/-- At the start the smaller run follows. -/
theorem follows_start : Follows u calls id (startState max client calls)
    (startState max client fun i : Own calls u => calls i.1) where
  tables := ⟨⟨fun _ h => h, fun _ _ h _ => h⟩, rfl, rfl⟩
  conns _ := .none
  progs i := call_sameAnswers client i.2 fun _ => rfl

/-- **Isolation of concurrent calls.** For every state that concurrent calls reach, and every
tenant, the calls of this tenant alone reach a state in which each of them has returned the
same, the ids of audit rows left out, and the tables hold what they hold of the tenant. Of
the outside the smaller run needs no failure that the larger one had not, but for ids that
are taken. -/
theorem concurrent_isolation (u : Uuid) {E : String → Prop} (hdup : E duplicateKey)
    {s : CallStates ι}
    (h : (callSystem pg max client calls).ReachableIf (fun _ l => FailsAs E l.2) s) :
    ∃ s' : CallStates (Own calls u),
      (callSystem pg max client fun i : Own calls u => calls i.1).ReachableIf
        (fun _ l => FailsAs E l.2) s' ∧
      (∀ i : Own calls u,
        (returned (s.prog i.1)).map hideIds = (returned (s'.prog i)).map hideIds) ∧
      transactionView u s.shared.db.transactions = s'.shared.db.transactions ∧
      auditView u s.shared.db.auditLogs =
        (orderById s'.shared.db.auditLogs).map AuditRow.withoutId := by
  have hsim := LTS.ReachableIf.simulated
    (callSystem pg max client fun i : Own calls u => calls i.1) (fun _ l => FailsAs E l.2)
    (R := fun s s' => ∃ f, Follows u calls f s s') ?_ ?_ h
  · obtain ⟨s', hs', f, hfollows⟩ := hsim
    have hdrawn := (runFacts_of_reachable hs').1.committed.committed
    refine ⟨s', hs', fun i => returned_related (hfollows.progs i),
      hfollows.tables.transactions, ?_⟩
    rw [auditView, hfollows.tables.auditLogs,
      orderById_renumber hfollows.tables.numbering hdrawn, List.map_map]
    apply List.map_congr_left
    intro r _
    exact AuditRow.renumber_withoutId f r
  · rintro s rfl
    exact ⟨_, rfl, id, follows_start⟩
  · rintro s ⟨i, c⟩ t s' hs hs' ⟨f, hf⟩ hok hst
    obtain ⟨o, k, r, t, hp, hsem, rfl⟩ := Threads.step_eq_some hst
    obtain ⟨hfacts, hpoints⟩ := runFacts_of_reachable hs
    obtain ⟨hfacts', hpoints'⟩ := runFacts_of_reachable hs'
    cases hi : (calls i).isFor u with
    | false => exact Or.inl ⟨f, hf.other hi hpoints hsem⟩
    | true =>
      obtain ⟨f', t', hst', hfollows⟩ := hf.own hfacts hfacts' hpoints' ⟨i, hi⟩ hp hsem
      refine Or.inr ⟨(⟨i, hi⟩, copied c o r), t', ?_, hst', f', hfollows⟩
      intro e he
      obtain hsame | hkey := (copied_choice c o r).2.2.2
      · exact hok e (hsame ▸ he)
      · rw [hkey] at he
        cases he
        exact hdup

/-- A transfer of tenant A is refused because tenant B has taken its id. -/
theorem concurrent_isolation_taken_id :
    let calls : Fin 2 → Call := fun i =>
      if i = 0 then .createTransaction tenantA ⟨1005, 1⟩ "rent" "client-alice"
      else .createTransaction tenantB ⟨7, 0⟩ "b" "client-bob"
    ∃ s, LTS.runIf (Threads.step (dbSem Pg.utc)) (fun _ l => FailsAs (· = duplicateKey) l.2)
        (startState 3 ⟨"secret"⟩ calls)
        (List.replicate 4 (1, .plain) ++ List.replicate 5 (0, .plain)) = some s ∧
      ∃ s' : CallStates (Own calls uuidA),
        (callSystem Pg.utc 3 ⟨"secret"⟩ fun i : Own calls uuidA => calls i.1).ReachableIf
          (fun _ l => FailsAs (· = duplicateKey) l.2) s' ∧
        (∀ i : Own calls uuidA,
          (returned (s.prog i.1)).map hideIds = (returned (s'.prog i)).map hideIds) ∧
        transactionView uuidA s.shared.db.transactions = s'.shared.db.transactions ∧
        auditView uuidA s.shared.db.auditLogs =
          (orderById s'.shared.db.auditLogs).map AuditRow.withoutId := by
  intro calls
  have hsome : (LTS.runIf (Threads.step (dbSem Pg.utc))
      (fun _ l => FailsAs (· = duplicateKey) l.2) (startState 3 ⟨"secret"⟩ calls)
      (List.replicate 4 (1, .plain) ++ List.replicate 5 (0, .plain))).isSome := by
    decide
  obtain ⟨s, hs⟩ := Option.isSome_iff_exists.mp hsome
  exact ⟨s, hs, concurrent_isolation (E := (· = duplicateKey)) uuidA rfl
    (LTS.reachableIf_of_runIf (.init rfl) hs)⟩

end Result

end Audit
end DarkServices
