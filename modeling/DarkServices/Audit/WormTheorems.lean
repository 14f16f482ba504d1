import DarkServices.Audit.Serial
import DarkServices.Audit.Worm
import Mathlib.Data.Finset.Basic
import Mathlib.Data.Fintype.EquivFin

/-!
# What the audit table keeps

* `keeps_exec`: a statement that does not truncate the table leaves its rows in place and
  adds rows at the end, whoever issues it;
* `execAll_keeps_iff`: a sequence of statements keeps the rows of every table exactly when
  none of them is a `TRUNCATE` by a role that has the privilege. The row triggers do not see
  it.
-/

namespace DarkServices
namespace Audit

open Lib

variable {pg : Pg} {role : Role} {s : Settings} {onConflict : OnConflict}

/-! ## Statements that fire the trigger -/

/-- An `UPDATE` that succeeds has found no row to change. -/
theorem updateRows_ok {cond : AuditRow → Bool} {set : AuditRow → AuditRow}
    {rows rows' : List AuditRow} (h : updateRows cond set rows = .ok rows') : rows' = rows := by
  induction rows generalizing rows' with
  | nil =>
    cases h
    rfl
  | cons r rows ih =>
    rw [updateRows] at h
    cases hcond : cond r with
    | true =>
      rw [hcond] at h
      cases h
    | false =>
      rw [hcond] at h
      cases hrest : updateRows cond set rows with
      | error e =>
        rw [hrest] at h
        cases h
      | ok rest =>
        rw [hrest] at h
        cases h
        rw [ih hrest]

/-- A `DELETE` that succeeds has found no row to delete. -/
theorem deleteRows_ok {cond : AuditRow → Bool} {rows rows' : List AuditRow}
    (h : deleteRows cond rows = .ok rows') : rows' = rows := by
  induction rows generalizing rows' with
  | nil =>
    cases h
    rfl
  | cons r rows ih =>
    rw [deleteRows] at h
    cases hcond : cond r with
    | true =>
      rw [hcond] at h
      cases h
    | false =>
      rw [hcond] at h
      cases hrest : deleteRows cond rows with
      | error e =>
        rw [hrest] at h
        cases h
      | ok rest =>
        rw [hrest] at h
        cases h
        rw [ih hrest]

/-! ## Insertion -/

theorem hashAuditRecord_timestamp {visible : List AuditRow} {n : NewAudit} {row : AuditRow}
    (h : hashAuditRecord pg s visible n = .ok row) : row.timestamp = n.timestamp := by
  unfold hashAuditRecord at h
  split at h
  · cases h
  · cases h
    rfl

/-- An inserted row comes after the others, with its own timestamp. A row that meets its id
in the table changes nothing. -/
theorem insertRow_ok {rows rows' : List AuditRow} {n : NewAudit}
    (h : insertRow pg role s onConflict rows n = .ok rows') :
    ∃ new, rows' = rows ++ new ∧ ∀ r ∈ new, r.timestamp = n.timestamp := by
  unfold insertRow at h
  split at h
  · cases h
  · split at h
    · cases h
    · rename_i row hrow
      split at h
      · cases h
      · split at h
        · -- the id is taken
          split at h
          · cases h
          · cases h
            exact ⟨[], by simp, by simp⟩
          · exact ⟨[], by rw [updateRows_ok h, List.append_nil], by simp⟩
        · cases h
          refine ⟨[row], rfl, fun r hr => ?_⟩
          rw [List.mem_singleton.mp hr]
          exact hashAuditRecord_timestamp hrow

/-- The timestamps a statement may give to a new row. -/
def Command.timestamps (c : Command) : List Timestamp :=
  match c.statement with
  | .insert news _ => news.map fun n => n.timestamp.getD c.now
  | _ => []

theorem insertRows_ok {now : Timestamp} {news : List NewRow} {rows rows' : List AuditRow}
    {seq seq' : ℕ} (h : insertRows pg role s now onConflict news rows seq = (.ok rows', seq')) :
    ∃ new, rows' = rows ++ new ∧
      ∀ r ∈ new, r.timestamp ∈ news.map fun n => n.timestamp.getD now := by
  induction news generalizing rows seq with
  | nil =>
    cases h
    exact ⟨[], by simp, by simp⟩
  | cons n ns ih =>
    simp only [insertRows] at h
    split at h
    · cases h
    · split at h
      · cases h
      · split at h
        · cases h
        · rename_i rows₁ hrow
          obtain ⟨new, rfl, hnew⟩ := insertRow_ok hrow
          obtain ⟨rest, hrest, htimes⟩ := ih h
          refine ⟨new ++ rest, by rw [hrest, List.append_assoc], fun r hr => ?_⟩
          rw [List.map_cons, List.mem_cons]
          rcases List.mem_append.mp hr with hr | hr
          · exact Or.inl (hnew r hr)
          · exact Or.inr (htimes r hr)

/-! ## Sequences of statements -/

/-- The statement empties the table. -/
def Command.truncates (c : Command) : Bool :=
  match c.statement with
  | .truncate _ => c.role.has .truncate
  | _ => false

/-- What a statement may do to the rows: it empties the table, or adds rows at its end. -/
theorem exec_cases (pg : Pg) (c : Command) (db : Db) :
    (c.truncates = true ∧ (exec pg c db).2.auditLogs = []) ∨
      (c.truncates = false ∧ ∃ new, (exec pg c db).2.auditLogs = db.auditLogs ++ new ∧
        ∀ r ∈ new, r.timestamp ∈ c.timestamps) := by
  have unchanged : ∀ {rows : List AuditRow}, rows = db.auditLogs →
      ∃ new, rows = db.auditLogs ++ new ∧ ∀ r ∈ new, r.timestamp ∈ c.timestamps := by
    intro rows hrows
    exact ⟨[], by simp [hrows], by simp⟩
  obtain ⟨role, settings, now, statement⟩ := c
  by_cases hall : statement.needs.all role.has = true
  · rw [exec, if_pos hall]
    cases statement with
    | insert news onConflict =>
      refine Or.inr ⟨rfl, ?_⟩
      simp only [Statement.exec]
      split
      · rename_i rows seq hrows
        exact insertRows_ok hrows
      · exact unchanged rfl
    | update cond set =>
      refine Or.inr ⟨rfl, ?_⟩
      simp only [Statement.exec]
      split
      · rename_i rows seq hrows
        exact unchanged (updateRows_ok (congrArg Prod.fst hrows))
      · exact unchanged rfl
    | delete cond =>
      refine Or.inr ⟨rfl, ?_⟩
      simp only [Statement.exec]
      split
      · rename_i rows seq hrows
        exact unchanged (deleteRows_ok (congrArg Prod.fst hrows))
      · exact unchanged rfl
    | truncate restartIdentity =>
      -- the one statement that no trigger stops
      exact Or.inl ⟨by simpa [Statement.needs, Command.truncates] using hall, rfl⟩
  · -- a privilege is missing
    rw [exec, if_neg hall]
    refine Or.inr ⟨?_, unchanged rfl⟩
    cases statement with
    | truncate restartIdentity => simpa [Statement.needs, Command.truncates] using hall
    | _ => rfl

/-- **Append only.** Without a truncation the rows stay where they are. -/
theorem keeps_exec {c : Command} (h : c.truncates = false) (db : Db) :
    db.auditLogs <+: (exec pg c db).2.auditLogs := by
  obtain ⟨htrue, -⟩ | ⟨-, new, hnew, -⟩ := exec_cases pg c db
  · rw [h] at htrue
    cases htrue
  · exact ⟨new, hnew.symm⟩

theorem keeps_execAll {cs : List Command} (h : ∀ c ∈ cs, c.truncates = false) (db : Db) :
    db.auditLogs <+: (execAll pg cs db).auditLogs := by
  induction cs generalizing db with
  | nil => exact List.prefix_rfl
  | cons c cs ih =>
    have hone : db.auditLogs <+: (exec pg c db).2.auditLogs := keeps_exec (h c (by simp)) db
    have hrest := ih (fun c' hc' => h c' (List.mem_cons_of_mem _ hc')) (exec pg c db).2
    exact hone.trans hrest

/-- A row in the table after the statements was there before, or has one of their
timestamps. -/
theorem mem_execAll {cs : List Command} {db : Db} {r : AuditRow}
    (h : r ∈ (execAll pg cs db).auditLogs) :
    r ∈ db.auditLogs ∨ ∃ c ∈ cs, r.timestamp ∈ c.timestamps := by
  induction cs generalizing db with
  | nil => exact Or.inl h
  | cons c cs ih =>
    rcases ih h with hmem | ⟨c', hc', htime⟩
    · obtain ⟨-, hempty⟩ | ⟨-, new, hnew, htimes⟩ := exec_cases pg c db
      · rw [hempty] at hmem
        cases hmem
      · rw [hnew] at hmem
        rcases List.mem_append.mp hmem with hold | hmem
        · exact Or.inl hold
        · exact Or.inr ⟨c, by simp, htimes r hmem⟩
    · exact Or.inr ⟨c', List.mem_cons_of_mem _ hc', htime⟩

/-- A row whose timestamp no statement uses does not outlive a truncation. -/
theorem not_mem_execAll {cs : List Command} {db : Db} {r : AuditRow} {c : Command} (hc : c ∈ cs)
    (htruncates : c.truncates = true) (hfresh : ∀ c ∈ cs, r.timestamp ∉ c.timestamps) :
    r ∉ (execAll pg cs db).auditLogs := by
  induction cs generalizing db with
  | nil => cases hc
  | cons c' cs ih =>
    have hfresh' : ∀ c ∈ cs, r.timestamp ∉ c.timestamps := fun c'' h =>
      hfresh c'' (List.mem_cons_of_mem _ h)
    rcases List.mem_cons.mp hc with rfl | hc
    · obtain ⟨-, hempty⟩ | ⟨hfalse, -⟩ := exec_cases pg c db
      · intro hafter
        have hrest : r ∈ (execAll pg cs (exec pg c db).2).auditLogs := hafter
        rcases mem_execAll hrest with hmem | ⟨c', hc', htime⟩
        · rw [hempty] at hmem
          cases hmem
        · exact hfresh' c' hc' htime
      · rw [htruncates] at hfalse
        cases hfalse
    · exact ih hc hfresh'

/-- **What the table keeps.** A sequence of statements, by whomever, keeps every row of every
table exactly when no statement of it truncates the table. -/
theorem execAll_keeps_iff (pg : Pg) (cs : List Command) :
    (∀ db, ∀ r ∈ db.auditLogs, r ∈ (execAll pg cs db).auditLogs) ↔
      ∀ c ∈ cs, c.truncates = false := by
  constructor
  · intro hkeeps c hc
    by_contra htruncates
    rw [Bool.not_eq_false] at htruncates
    -- a row stamped with a time that no statement of the sequence uses
    obtain ⟨t, ht⟩ := Infinite.exists_notMem_finset (cs.flatMap Command.timestamps).toFinset
    rw [List.mem_toFinset, List.mem_flatMap] at ht
    let r : AuditRow := ⟨1, t, Uuid.zero, Uuid.zero, "", "", none, genesisHash, genesisHash⟩
    have hfresh : ∀ c ∈ cs, r.timestamp ∉ c.timestamps := fun c' hc' htime => ht ⟨c', hc', htime⟩
    exact not_mem_execAll hc htruncates hfresh (hkeeps ⟨[], [r], 2⟩ r (by simp))
  · intro h db r hr
    exact (keeps_execAll h db).subset hr

/-- The test of the repository: a superuser inserts a row, and cannot change or delete it. -/
example : ((execAll Pg.utc [
    ⟨.superuser, ⟨none, some "secret"⟩, 1,
      .insert [⟨none, none, uuidA, uuidA, "TEST", "TEST", some (.obj [])⟩] .fail⟩,
    ⟨.superuser, ⟨none, some "secret"⟩, 2,
      .update (fun r => r.id = 1) fun r => { r with action := "MALICIOUS_UPDATE" }⟩,
    ⟨.superuser, ⟨none, some "secret"⟩, 3, .delete fun r => r.id = 1⟩] Db.empty).auditLogs.map
      AuditRow.action) = ["TEST"] := by
  decide

/-- The owner inserts a row and truncates the table. -/
theorem truncate_loses_rows :
    let insert : Command := ⟨.owner, ⟨none, some "secret"⟩, 1,
      .insert [⟨none, none, uuidA, uuidA, "TEST", "TEST", some (.obj [])⟩] .fail⟩
    let truncate : Command := ⟨.owner, Settings.unset, 2, .truncate false⟩
    let db := (exec Pg.utc insert Db.empty).2
    db.auditLogs.length = 1 ∧ (exec Pg.utc truncate db).1.isOk = true ∧
      ¬ ∀ cs db, ∀ r ∈ db.auditLogs, r ∈ (execAll Pg.utc cs db).auditLogs := by
  intro insert truncate db
  have hlength : db.auditLogs.length = 1 := by decide
  refine ⟨hlength, rfl, fun hclaim => ?_⟩
  obtain ⟨r, hr⟩ := List.exists_mem_of_length_pos (by omega : 0 < db.auditLogs.length)
  have hkept := hclaim [truncate] db r hr
  have hempty : (execAll Pg.utc [truncate] db).auditLogs = [] := rfl
  rw [hempty] at hkept
  cases hkept

end Audit
end DarkServices
