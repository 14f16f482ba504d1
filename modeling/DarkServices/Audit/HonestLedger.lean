import DarkServices.Audit.SerialTheorems

/-!
# The ledger of a serial run

`Grown`: how a serial run makes the ledger grow, each row linked to the last row of its own
tenant. When the keyed hashes of its texts do not collide, the whole ledger is linked
exactly when all of its rows are of one tenant (`Grown.linked`, `Grown.one_tenant`).
-/

namespace DarkServices
namespace Audit

open Lib

variable {pg : Pg}

/-! ## The ledger of a serial run -/

/-- The text that the trigger hashes. -/
def AuditRow.hashedText (pg : Pg) (r : AuditRow) : String := concatText pg r.columns r.prevHash

/-- The ledger a serial run writes: every row has a larger id than the rows before it, is
linked to the last one of its tenant, and carries the keyed hash of its text. -/
inductive Grown (pg : Pg) : List AuditRow → Prop
  | nil : Grown pg []
  | concat {rows : List AuditRow} {r : AuditRow} (secret : String) : Grown pg rows →
      (∀ q ∈ rows, q.id < r.id) →
      r.prevHash = lastBlockHash (rows.filter fun q => q.tenantId = r.tenantId) →
      r.blockHash = blockHashOf secret (r.hashedText pg) → Grown pg (rows ++ [r])

theorem grown_effect {c : Choice} {o : DbOp} {db db' : Db} {tx tx' : Option OpenTx} {r : Reply o}
    (hdrawn : Drawn (db, tx)) (hdb : Grown pg db.auditLogs)
    (htx : Grown pg (db.auditLogs ++ (pending tx).auditLogs))
    (h : Effect pg c db tx o r db' tx') :
    Grown pg db'.auditLogs ∧ Grown pg (db'.auditLogs ++ (pending tx').auditLogs) := by
  cases h with
  | quiet _ hauditLogs _ _ hrows =>
    rw [hauditLogs]
    refine ⟨hdb, ?_⟩
    obtain hrows | hrows := hrows
    · rw [hrows, Rows.none_auditLogs, List.append_nil]
      exact hdb
    · rw [hrows]
      exact htx
  | insertTransaction ht =>
    subst ht
    exact ⟨hdb, htx⟩
  | @insertAudit actorID tenantID action resource details t n row ht hnew hrow =>
    subst ht
    obtain ⟨actor, tenant, -, -, rfl⟩ := newAudit_ok hnew
    obtain ⟨hcolumns, -, hprev, secret, -, hblock⟩ := insertAuditRow_ok hrow
    have hid : row.id = db.auditSeq := congrArg NewAudit.id hcolumns
    refine ⟨hdb, ?_⟩
    rw [pending_some, OpenTx.rows_auditLogs, ← List.append_assoc]
    exact .concat secret htx (fun q hq => hid ▸ hdrawn q hq) hprev hblock
  | commit ht =>
    subst ht
    refine ⟨htx, ?_⟩
    rw [pending_none, Rows.none_auditLogs, List.append_nil]
    exact htx

theorem runCall_grown (client : DBClient) (c : Call × Inputs) {db : Db} (hdrawn : Drawn (db, none))
    (h : Grown pg db.auditLogs) : Grown pg (runCall pg client c db).2.auditLogs := by
  have hrun := Prog.exec_invariant
    (I := fun s => Drawn s ∧ Grown pg s.1.auditLogs ∧
      Grown pg (s.1.auditLogs ++ (pending s.2).auditLogs)) (fun o s hs =>
      ⟨drawn_effect hs.1 (serialSem_effect pg c.2 o s),
        grown_effect hs.1 hs.2.1 hs.2.2 (serialSem_effect pg c.2 o s)⟩)
    (c.1.program client) (s := (db, none)) ⟨hdrawn, h, by simpa using h⟩
  exact hrun.2.1

/-- The ledger of a serial run grows row by row. -/
theorem runCalls_grown (client : DBClient) (cs : List (Call × Inputs)) {db : Db}
    (hdrawn : Drawn (db, none)) (h : Grown pg db.auditLogs) :
    Grown pg (runCalls pg client cs db).2.auditLogs := by
  induction cs generalizing db with
  | nil => exact h
  | cons c cs ih => exact ih (runCall_drawn pg client c hdrawn) (runCall_grown client c hdrawn h)

/-- A successful transfer or balance writes one audit row of its tenant. -/
theorem runCall_auditLogs (client : DBClient) (c : Call × Inputs) (db : Db)
    (hcall : c.1.isLogged = true) {a : Answer} (hok : (runCall pg client c db).1 = .ok a) :
    ∃ r, (runCall pg client c db).2.auditLogs = db.auditLogs ++ [r] ∧
      Uuid.parse c.1.tenantID = some r.tenantId := by
  obtain ⟨rows, -, hauditLogs, hacc⟩ := runCall_rows pg client c db
  rw [hok] at hacc
  have htenant := hacc.tenant.2
  obtain ⟨r, hr⟩ : ∃ r, rows.auditLogs = [r] := by
    cases hc : c.1 with
    | createTransaction tenantID amount description actorSub =>
      rw [hc] at hacc
      cases a with
      | transaction t =>
        obtain ⟨⟨row, r, rfl, -⟩, -⟩ := hacc
        exact ⟨r, rfl⟩
      | _ => exact hacc.elim
    | getBalance tenantID actorSub =>
      rw [hc] at hacc
      cases a with
      | balance n =>
        obtain ⟨r, rfl, -⟩ := hacc
        exact ⟨r, rfl⟩
      | _ => exact hacc.elim
    | getAuditLogs =>
      rw [hc] at hcall
      cases hcall
  rw [hr] at hauditLogs htenant
  exact ⟨r, hauditLogs, htenant r (List.mem_singleton_self r)⟩

/-- Successful transfers and balances write one audit row each, in order. -/
theorem runCalls_auditLogs (client : DBClient) {cs : List (Call × Inputs)} {db : Db}
    (hcalls : ∀ c ∈ cs, c.1.isLogged = true)
    (hok : ∀ r ∈ (runCalls pg client cs db).1, ∃ a, r.2 = .ok a) :
    ∃ rows, (runCalls pg client cs db).2.auditLogs = db.auditLogs ++ rows ∧
      cs.map (fun c => Uuid.parse c.1.tenantID) = rows.map fun r => some r.tenantId := by
  induction cs generalizing db with
  | nil => exact ⟨[], (List.append_nil _).symm, rfl⟩
  | cons c cs ih =>
    rw [runCalls] at hok
    obtain ⟨a, ha⟩ := hok _ List.mem_cons_self
    obtain ⟨r, hr, htenant⟩ := runCall_auditLogs client c db (hcalls c List.mem_cons_self) ha
    obtain ⟨rows, hrows, hall⟩ := ih (fun c hc => hcalls c (List.mem_cons_of_mem _ hc))
      fun r hr => hok r (List.mem_cons_of_mem _ hr)
    refine ⟨r :: rows, ?_, by rw [List.map_cons, List.map_cons, htenant, hall]⟩
    rw [runCalls]
    simp only [hrows, hr, List.append_assoc, List.singleton_append]

/-! ## Hashes -/

/-- The text of a hash: hexadecimal digits. -/
def IsHash (s : String) : Prop := ∀ c ∈ s.toList, c ∈ "0123456789abcdef".toList

theorem isHash_genesisHash : IsHash genesisHash := by
  intro c hc
  unfold genesisHash at hc
  rw [String.toList_ofList] at hc
  have hzero : c = '0' := List.eq_of_mem_replicate hc
  subst hzero
  decide

theorem isHash_blockHashOf (secret text : String) : IsHash (blockHashOf secret text) :=
  fun _ hc => mem_hex hc

/-- The last hash is that of the last row, or of the empty chain. -/
theorem lastBlockHash_cases (rows : List AuditRow) :
    (rows = [] ∧ lastBlockHash rows = genesisHash) ∨
      ∃ r ∈ rows, lastBlockHash rows = r.blockHash := by
  rw [lastBlockHash_eq]
  obtain ⟨hnil, hlast⟩ | ⟨r, hr, hlast⟩ :=
    HashChain.lastHash_eq_or AuditRow.blockHash genesisHash (orderById rows)
  · refine Or.inl ⟨?_, hlast⟩
    rw [← List.length_eq_zero_iff, ← List.length_insertionSort (fun a b => a.id ≤ b.id) rows]
    exact congrArg List.length hnil
  · exact Or.inr ⟨r, (List.mem_insertionSort _).mp hr, hlast⟩

theorem Grown.isHash {rows : List AuditRow} (h : Grown pg rows) :
    ∀ r ∈ rows, IsHash r.prevHash ∧ IsHash r.blockHash := by
  induction h with
  | nil => exact nofun
  | @concat rows r secret hrows hid hprev hblock ih =>
    intro q hq
    rcases List.mem_append.mp hq with hq | hq
    · exact ih q hq
    · rw [List.mem_singleton.mp hq, hblock, hprev]
      refine ⟨?_, isHash_blockHashOf _ _⟩
      rcases lastBlockHash_cases (rows.filter fun q => q.tenantId = r.tenantId) with
        ⟨-, hlast⟩ | ⟨p, hp, hlast⟩
      · rw [hlast]
        exact isHash_genesisHash
      · rw [hlast]
        exact (ih p (List.mem_of_mem_filter hp)).2

/-- The ids of an honest ledger are in order. -/
theorem Grown.orderById_eq {rows : List AuditRow} (h : Grown pg rows) : orderById rows = rows := by
  induction h with
  | nil => rfl
  | concat secret hrows hid hprev hblock ih =>
    rw [orderById, insertionSort_concat _ fun q hq => (hid q hq).le]
    exact congrArg (· ++ _) ih

/-- No two different texts of the ledger have one hash, and none has the start hash. -/
def NoCollision (pg : Pg) (rows : List AuditRow) : Prop :=
  ∀ r ∈ rows, r.blockHash ≠ genesisHash ∧
    ∀ q ∈ rows, r.blockHash = q.blockHash → r.hashedText pg = q.hashedText pg

/-- Distinct hashes do not collide. -/
theorem noCollision_of_nodup {rows : List AuditRow}
    (hgenesis : genesisHash ∉ rows.map AuditRow.blockHash)
    (hnodup : (rows.map AuditRow.blockHash).Nodup) : NoCollision pg rows := by
  intro r hr
  refine ⟨fun h => hgenesis (h ▸ List.mem_map_of_mem hr), fun q hq h => ?_⟩
  rw [List.inj_on_of_nodup_map hnodup hr hq h]

/-- `COALESCE(details::text, '\x7b\x7d')` is the text of this value. -/
def AuditRow.hashedDetails (r : AuditRow) : Json := r.details.getD (.obj [])

theorem toList_hashedText (r : AuditRow) : (r.hashedText pg).toList =
    (pg.timestampText r.timestamp).toList ++ '|' :: (r.actorId.text.toList ++ '|' ::
      (r.tenantId.text.toList ++ '|' :: (r.action.toList ++ '|' :: (r.resource.toList ++ '|' ::
        (r.hashedDetails.jsonbText.toList ++ '|' :: r.prevHash.toList))))) := by
  have hsep : "|".toList = ['|'] := rfl
  unfold AuditRow.hashedText AuditRow.hashedDetails concatText AuditRow.columns
  cases r.details with
  | none =>
    simp only [String.toList_append, List.append_assoc, hsep, List.cons_append, List.nil_append]
    rfl
  | some d =>
    simp only [String.toList_append, List.append_assoc, hsep, List.cons_append, List.nil_append,
      Option.getD_some]

/-- The first three columns can be read off the text that is hashed. -/
theorem hashedText_split (hbar : ∀ t, '|' ∉ (pg.timestampText t).toList) {r q : AuditRow}
    (h : r.hashedText pg = q.hashedText pg) :
    pg.timestampText r.timestamp = pg.timestampText q.timestamp ∧ r.actorId = q.actorId ∧
      r.tenantId = q.tenantId ∧
      r.action.toList ++ '|' :: (r.resource.toList ++ '|' ::
          (r.hashedDetails.jsonbText.toList ++ '|' :: r.prevHash.toList)) =
        q.action.toList ++ '|' :: (q.resource.toList ++ '|' ::
          (q.hashedDetails.jsonbText.toList ++ '|' :: q.prevHash.toList)) := by
  have h' := congrArg String.toList h
  rw [toList_hashedText, toList_hashedText] at h'
  obtain ⟨htime, h'⟩ := Strings.append_cons_inj (hbar _) (hbar _) h'
  obtain ⟨hactor, h'⟩ := List.append_inj h' (by simp only [Uuid.length_text])
  obtain ⟨htenant, h'⟩ := List.append_inj (List.tail_eq_of_cons_eq h')
    (by simp only [Uuid.length_text])
  exact ⟨String.toList_inj.mp htime, Uuid.text_injective (String.toList_inj.mp hactor),
    Uuid.text_injective (String.toList_inj.mp htenant), List.tail_eq_of_cons_eq h'⟩

/-- The tenant can be read off the text that is hashed. -/
theorem tenant_of_hashedText (hbar : ∀ t, '|' ∉ (pg.timestampText t).toList) {r q : AuditRow}
    (h : r.hashedText pg = q.hashedText pg) : r.tenantId = q.tenantId :=
  (hashedText_split hbar h).2.2.1

/-- Rows of one tenant are linked. -/
theorem Grown.linked {rows : List AuditRow} (h : Grown pg rows)
    (hone : ∀ r ∈ rows, ∀ q ∈ rows, r.tenantId = q.tenantId) : AuditLinked rows := by
  induction h with
  | nil => trivial
  | @concat rows r secret hrows hid hprev hblock ih =>
    have hsame : (rows.filter fun q => q.tenantId = r.tenantId) = rows := by
      refine List.filter_eq_self.mpr fun q hq => ?_
      simpa using hone q (List.mem_append_left _ hq) r (by simp)
    refine (HashChain.linked_concat _ _).mpr ⟨ih fun a ha b hb =>
      hone a (List.mem_append_left _ ha) b (List.mem_append_left _ hb), ?_⟩
    rw [hprev, hsame, lastBlockHash_eq, Grown.orderById_eq hrows]

/-- Linked rows are of one tenant: a row that follows one of another tenant carries the hash
of a third row, or the start hash. -/
theorem Grown.one_tenant {rows : List AuditRow} (h : Grown pg rows)
    (hbar : ∀ t, '|' ∉ (pg.timestampText t).toList) (hcoll : NoCollision pg rows)
    (hlinked : AuditLinked rows) : ∀ r ∈ rows, ∀ q ∈ rows, r.tenantId = q.tenantId := by
  induction h with
  | nil => exact nofun
  | @concat rows r secret hrows hid hprev hblock ih =>
    obtain ⟨hlinked, hlast⟩ := (HashChain.linked_concat _ _).mp hlinked
    have hcoll' : NoCollision pg rows := fun a ha =>
      ⟨(hcoll a (List.mem_append_left _ ha)).1, fun b hb =>
        (hcoll a (List.mem_append_left _ ha)).2 b (List.mem_append_left _ hb)⟩
    have hone := ih hcoll' hlinked
    -- the last row before `r` is of the tenant of `r`
    have hbefore : ∀ q ∈ rows, q.tenantId = r.tenantId := by
      intro q hq
      obtain ⟨hnil, -⟩ | ⟨p, hp, hp'⟩ :=
        HashChain.lastHash_eq_or AuditRow.blockHash genesisHash rows
      · rw [hnil] at hq
        cases hq
      · rw [hone q hq p hp]
        rw [hp'] at hlast
        obtain ⟨-, hgenesis⟩ | ⟨m, hm, hm'⟩ :=
          lastBlockHash_cases (rows.filter fun q => q.tenantId = r.tenantId)
        · refine absurd ?_ (hcoll' p hp).1
          rw [← hlast, hprev, hgenesis]
        · have hhash : p.blockHash = m.blockHash := by rw [← hlast, hprev, hm']
          have hmrows := List.mem_of_mem_filter hm
          rw [tenant_of_hashedText hbar ((hcoll' p hp).2 m hmrows hhash)]
          simpa using (List.mem_filter.mp hm).2
    intro a ha b hb
    rcases List.mem_append.mp ha with ha | ha <;> rcases List.mem_append.mp hb with hb | hb
    · exact hone a ha b hb
    · rw [List.mem_singleton.mp hb]
      exact hbefore a ha
    · rw [List.mem_singleton.mp ha]
      exact (hbefore b hb).symm
    · rw [List.mem_singleton.mp ha, List.mem_singleton.mp hb]

end Audit
end DarkServices
