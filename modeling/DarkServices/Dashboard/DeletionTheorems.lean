import DarkServices.Dashboard.VerifyChainTheorems

/-!
# Deleted and reordered rows

What the links of a ledger are worth: of all lists made of rows of an accepted ledger, the
verifier accepts the beginnings of the ledger and no other (`isValid_iff_isPrefix`). Rows taken
away at the end are not missed.
-/

namespace DarkServices
namespace Dashboard

open Lib Audit

variable {rows rows' : List AuditRow}

/-- The text of a hash as a client may have written it: 64 hexadecimal digits in either case. -/
def IsHexHash (s : String) : Prop :=
  s.length = 64 ∧ ∀ c ∈ s.toList, c ∈ "0123456789abcdefABCDEF".toList

/-- `isValid` says that every row has passed its check. -/
theorem loop_fst (previous : Option AuditRow) (rows : List AuditRow) (isValid : Bool)
    (steps : List Step) :
    (loop previous rows isValid steps).1 = true ↔ isValid = true ∧ AllValid previous rows := by
  induction rows generalizing previous isValid steps with
  | nil => simp [loop, AllValid]
  | cons current rows ih =>
    have hvalid : (step previous current).valid = (checkBlock previous current).1 := rfl
    rw [loop, ih, AllValid, hvalid]
    cases (checkBlock previous current).1 <;> simp

theorem isValid_iff (rows : List AuditRow) :
    (verifyChain rows).isValid = true ↔ AllValid none rows := by
  have h := loop_fst none rows true []
  rw [verifyChain, h]
  simp

/-- Rows that pass are linked from the start hash, whatever comes before them is not looked at. -/
theorem AllValid.trimLinked (h : AllValid none rows) :
    TrimLinked (Strings.jsTrim expectedStartHash) rows := by
  cases rows with
  | nil => trivial
  | cons r rows =>
    obtain ⟨hstart, hrest⟩ := allValid_none_cons.mp h
    exact ⟨congrArg Strings.jsTrim hstart, hrest⟩

/-- The beginning of rows that pass passes. -/
theorem AllValid.of_append {previous : Option AuditRow} (h : AllValid previous (rows ++ rows')) :
    AllValid previous rows := by
  induction rows generalizing previous with
  | nil => trivial
  | cons r rows ih => exact ⟨h.1, ih h.2⟩

/-- Without white space the hashes are as distinct as they are with it. -/
theorem nodup_trimmed (hhash : ∀ r ∈ rows, IsHexHash r.blockHash ∧ r.blockHash ≠ expectedStartHash)
    (hdistinct : (rows.map AuditRow.blockHash).Nodup) :
    (Strings.jsTrim expectedStartHash :: rows.map fun r => Strings.jsTrim r.blockHash).Nodup := by
  have hstart : Strings.jsTrim expectedStartHash = expectedStartHash.toList := by
    rw [expectedStartHash_eq]
    exact jsTrim_of_isHash isHash_genesisHash
  have hrows : (rows.map fun r => Strings.jsTrim r.blockHash) =
      (rows.map AuditRow.blockHash).map String.toList := by
    rw [List.map_map]
    exact List.map_congr_left fun r hr => jsTrim_of_hex (hhash r hr).1.2
  rw [hstart, hrows, ← List.map_cons, List.nodup_map_iff fun _ _ h => String.toList_inj.mp h,
    List.nodup_cons]
  refine ⟨fun hmem => ?_, hdistinct⟩
  obtain ⟨r, hr, heq⟩ := List.mem_map.mp hmem
  exact (hhash r hr).2 heq

/-- **The verifier and missing rows.** Of the lists made of rows of an accepted ledger, whose
hashes are distinct and not the start hash, it accepts exactly the beginnings of the ledger. -/
theorem isValid_iff_isPrefix (haccepts : (verifyChain rows).isValid = true)
    (hhash : ∀ r ∈ rows, IsHexHash r.blockHash ∧ r.blockHash ≠ expectedStartHash)
    (hdistinct : (rows.map AuditRow.blockHash).Nodup) (hsome : ∀ r ∈ rows', r ∈ rows) :
    (verifyChain rows').isValid = true ↔ rows' <+: rows := by
  rw [isValid_iff] at haccepts ⊢
  constructor
  · intro hvalid
    exact haccepts.trimLinked.isPrefix (nodup_trimmed hhash hdistinct) hvalid.trimLinked hsome
  · rintro ⟨rest, rfl⟩
    exact haccepts.of_append

/-- A row of `client-alice` with the given hashes. -/
def hashedRow (id : ℕ) (prevHash blockHash : String) : AuditRow where
  id := id
  timestamp := 1767225600
  actorId := Uuid.zero
  tenantId := Uuid.zero
  action := "GET_BALANCE"
  resource := "client-alice"
  details := none
  prevHash := prevHash
  blockHash := blockHash

/-- Three linked rows. -/
def threeRows : List AuditRow :=
  [hashedRow 1 "0000000000000000000000000000000000000000000000000000000000000000"
      "14c5dfb51da619417f2004b5882df9e32aab1bcdfb1d14689f647ff73e3a1dd4",
    hashedRow 2 "14c5dfb51da619417f2004b5882df9e32aab1bcdfb1d14689f647ff73e3a1dd4"
      "86f0a660f45869b30cb20c7f453d4226a9784f9af206e55cd7f0e426688bc965",
    hashedRow 3 "86f0a660f45869b30cb20c7f453d4226a9784f9af206e55cd7f0e426688bc965"
      "5feceb66ffc86f38d952786c6d696c79c2dbc239dd4e91b46729d73a27fb57e9"]

/-- The second row is taken away. -/
theorem isValid_iff_isPrefix_three :
    (verifyChain (threeRows.eraseIdx 1)).isValid = true ↔ threeRows.eraseIdx 1 <+: threeRows := by
  refine isValid_iff_isPrefix (by decide) ?_ (by decide)
    fun r hr => List.mem_of_mem_eraseIdx hr
  have hall : threeRows.all (fun r => r.blockHash.length == 64 &&
      r.blockHash.toList.all (fun c => "0123456789abcdefABCDEF".toList.contains c) &&
      r.blockHash != expectedStartHash) = true := by
    decide
  intro r hr
  have hrow := List.all_eq_true.mp hall r hr
  simp only [Bool.and_eq_true, beq_iff_eq, List.all_eq_true, List.contains_iff_mem, bne_iff_ne]
    at hrow
  exact hrow

end Dashboard
end DarkServices
