import DarkServices.Audit.HonestLedger
import DarkServices.Lib.JsonbText

/-!
# What the hashed text says about a record

`hash_audit_record` joins the columns of a row with a separator that the action and the resource
may contain, and writes `\x7b\x7d` for a row without details. `hashedText_eq_iff` says what the
text determines: everything but where the action ends and whether there are details. So two rows
of one text are the same record exactly when their actions have one length and both or neither
have details (`sameRecord_iff_of_hashedText`).
-/

namespace DarkServices
namespace Audit

open Lib

/-- What the types of the columns of `audit_logs` admit. -/
structure NewAudit.Typed (n : NewAudit) : Prop where
  action : n.action.length ≤ 50
  resource : n.resource.length ≤ 100
  details : ∀ d, n.details = some d → ∃ j : Json, d = j.toJsonb

/-- The row is what the trigger makes of a new row, under the secret and among rows whose
hashes have 64 characters. -/
def Insertable (pg : Pg) (secret : String) (r : AuditRow) : Prop :=
  ∃ (s : Settings) (visible : List AuditRow) (n : NewAudit),
    nullIfEmpty s.auditSecret = some secret ∧ (∀ q ∈ visible, q.blockHash.length = 64) ∧
      n.Typed ∧ hashAuditRecord pg s visible n = .ok r

/-- The two rows record the same event at the same place of the chain. -/
structure SameRecord (r q : AuditRow) : Prop where
  timestamp : r.timestamp = q.timestamp
  actorId : r.actorId = q.actorId
  tenantId : r.tenantId = q.tenantId
  action : r.action = q.action
  resource : r.resource = q.resource
  details : r.details = q.details
  prevHash : r.prevHash = q.prevHash

variable {pg : Pg} {secret secret' : String} {r q : AuditRow}

/-- The two hashes of a row that is inserted. -/
theorem Insertable.hashes (h : Insertable pg secret r) :
    r.prevHash.length = 64 ∧ r.blockHash = blockHashOf secret (r.hashedText pg) := by
  obtain ⟨s, visible, n, hsecret, hvisible, -, hrow⟩ := h
  unfold hashAuditRecord at hrow
  rw [hsecret] at hrow
  cases hrow
  refine ⟨?_, rfl⟩
  show (lastBlockHash visible).length = 64
  rcases lastBlockHash_cases visible with ⟨-, hlast⟩ | ⟨p, hp, hlast⟩
  · rw [hlast]
    rfl
  · rw [hlast]
    exact hvisible p hp

/-- **What the hashed text determines.** Action and resource are determined together only, and
no details are the same as the empty object. -/
theorem hashedText_eq_iff (hbar : ∀ t, '|' ∉ (pg.timestampText t).toList)
    (hlength : r.prevHash.length = q.prevHash.length) :
    r.hashedText pg = q.hashedText pg ↔
      pg.timestampText r.timestamp = pg.timestampText q.timestamp ∧ r.actorId = q.actorId ∧
        r.tenantId = q.tenantId ∧ r.action ++ "|" ++ r.resource = q.action ++ "|" ++ q.resource ∧
        r.hashedDetails = q.hashedDetails ∧ r.prevHash = q.prevHash := by
  have hjoin : ∀ p : AuditRow,
      (p.action ++ "|" ++ p.resource).toList = p.action.toList ++ '|' :: p.resource.toList := by
    intro p
    rw [String.toList_append, String.toList_append, List.append_assoc]
    rfl
  -- the separator in front of the details and the one behind them
  have hgroup : ∀ p : AuditRow,
      p.action.toList ++ '|' :: (p.resource.toList ++ '|' ::
          (p.hashedDetails.jsonbText.toList ++ '|' :: p.prevHash.toList)) =
        ((p.action ++ "|" ++ p.resource).toList ++ '|' :: p.hashedDetails.jsonbText.toList) ++
          '|' :: p.prevHash.toList := by
    intro p
    rw [hjoin]
    simp only [List.append_assoc, List.cons_append]
  constructor
  · intro h
    obtain ⟨htime, hactor, htenant, hrest⟩ := hashedText_split hbar h
    rw [hgroup, hgroup] at hrest
    have htails : ('|' :: r.prevHash.toList).length = ('|' :: q.prevHash.toList).length := by
      simp only [List.length_cons, String.length_toList, hlength]
    obtain ⟨hfront, hprev⟩ := List.append_inj' hrest htails
    have hsep : Json.IsSeparator '|' := ⟨by decide, by decide, by decide, by decide⟩
    obtain ⟨htexts, hdetails⟩ := Json.append_jsonbText_inj hsep hfront
    exact ⟨htime, hactor, htenant, String.toList_inj.mp htexts, hdetails,
      String.toList_inj.mp (List.tail_eq_of_cons_eq hprev)⟩
  · rintro ⟨htime, hactor, htenant, htexts, hdetails, hprev⟩
    apply String.toList_inj.mp
    rw [toList_hashedText, toList_hashedText, hgroup, hgroup, htime, hactor, htenant, htexts,
      hdetails, hprev]

/-- Details with one text are the same, when both rows have details or neither has. -/
theorem details_eq_of_hashedDetails (h : r.hashedDetails = q.hashedDetails)
    (hnone : r.details = none ↔ q.details = none) : r.details = q.details := by
  cases hr : r.details with
  | none => exact (hnone.mp hr).symm
  | some d =>
    cases hq : q.details with
    | none =>
      rw [hnone.mpr hq] at hr
      exact hr.symm
    | some e =>
      rw [AuditRow.hashedDetails, AuditRow.hashedDetails, hr, hq] at h
      exact congrArg some h

/-- Where the action ends decides between two records of one text, and whether there are
details. -/
theorem sameRecord_iff (hbar : ∀ t, '|' ∉ (pg.timestampText t).toList)
    (htime : pg.timestampText r.timestamp = pg.timestampText q.timestamp →
      r.timestamp = q.timestamp)
    (hlength : r.prevHash.length = q.prevHash.length)
    (htext : r.hashedText pg = q.hashedText pg) :
    SameRecord r q ↔
      r.action.length = q.action.length ∧ (r.details = none ↔ q.details = none) := by
  obtain ⟨htime', hactor, htenant, htexts, hdetails, hprev⟩ :=
    (hashedText_eq_iff hbar hlength).mp htext
  constructor
  · intro h
    rw [h.action, h.details]
    exact ⟨rfl, Iff.rfl⟩
  · rintro ⟨haction, hnone⟩
    have hlist := congrArg String.toList htexts
    simp only [String.toList_append, List.append_assoc] at hlist
    obtain ⟨hact, hres⟩ := List.append_inj hlist
      (by rw [String.length_toList, String.length_toList, haction])
    exact ⟨htime htime', hactor, htenant, String.toList_inj.mp hact,
      String.toList_inj.mp (List.append_cancel_left hres),
      details_eq_of_hashedDetails hdetails hnone, hprev⟩

/-- **When the hashed text, or the hash, tells records apart.** Two rows with one text are the
same record exactly when their actions have one length and both or neither have details, and so
are two rows with one hash, when the keyed hashes of their texts do not collide. -/
theorem sameRecord_iff_of_hash (hbar : ∀ t, '|' ∉ (pg.timestampText t).toList)
    (htime : pg.timestampText r.timestamp = pg.timestampText q.timestamp →
      r.timestamp = q.timestamp)
    (hr : Insertable pg secret r) (hq : Insertable pg secret' q) :
    (r.hashedText pg = q.hashedText pg →
      (SameRecord r q ↔
        r.action.length = q.action.length ∧ (r.details = none ↔ q.details = none))) ∧
    (secret = secret' →
      (blockHashOf secret (r.hashedText pg) = blockHashOf secret (q.hashedText pg) →
        r.hashedText pg = q.hashedText pg) →
      r.blockHash = q.blockHash →
      (SameRecord r q ↔
        r.action.length = q.action.length ∧ (r.details = none ↔ q.details = none))) := by
  obtain ⟨hprev, hblock⟩ := hr.hashes
  obtain ⟨hprev', hblock'⟩ := hq.hashes
  have hlength : r.prevHash.length = q.prevHash.length := hprev.trans hprev'.symm
  refine ⟨sameRecord_iff hbar htime hlength, fun hsecret hcollision hhash => ?_⟩
  rw [hblock, hblock', ← hsecret] at hhash
  exact sameRecord_iff hbar htime hlength (hcollision hhash)

/-! ## Rows of an empty ledger -/

/-- The row that the trigger makes of a new row in an empty ledger. -/
def firstRow (pg : Pg) (secret : String) (n : NewAudit) : AuditRow where
  id := n.id
  timestamp := n.timestamp
  actorId := n.actorId
  tenantId := n.tenantId
  action := n.action
  resource := n.resource
  details := n.details
  prevHash := genesisHash
  blockHash := blockHashOf secret (concatText pg n genesisHash)

theorem insertable_firstRow (pg : Pg) {secret : String} (hsecret : secret ≠ "") {n : NewAudit}
    (h : n.Typed) : Insertable pg secret (firstRow pg secret n) := by
  have hnull : nullIfEmpty (some secret) = some secret := by
    unfold nullIfEmpty
    split
    · rename_i heq
      exact absurd (Option.some.inj heq) hsecret
    · rfl
  refine ⟨⟨none, some secret⟩, [], n, hnull, nofun, h, ?_⟩
  unfold hashAuditRecord
  rw [hnull]
  rfl

/-- A row of the tenant of zeros. -/
def sampleRow (id : ℕ) (action resource : String) (details : Option Json) : AuditRow :=
  firstRow Pg.utc "secret"
    ⟨id, 1782907200250000, Uuid.zero, Uuid.zero, action, resource, details⟩

theorem insertable_sampleRow (id : ℕ) {action resource : String} {details : Option Json}
    (haction : action.length ≤ 50) (hresource : resource.length ≤ 100)
    (hdetails : details = none ∨ details = some (.obj [])) :
    Insertable Pg.utc "secret" (sampleRow id action resource details) := by
  refine insertable_firstRow Pg.utc (by decide) ⟨haction, hresource, fun d hd => ?_⟩
  rcases hdetails with hnone | hsome
  · exact nomatch hnone.symm.trans hd
  · exact ⟨.obj [], Option.some.inj (hd.symm.trans hsome)⟩

/-- Rows of one text have one hash. -/
theorem Insertable.blockHash_eq (hr : Insertable pg secret r) (hq : Insertable pg secret q)
    (h : r.hashedText pg = q.hashedText pg) : r.blockHash = q.blockHash := by
  rw [hr.hashes.2, hq.hashes.2, h]

/-- The row of a balance inquiry. -/
def balanceRow (id : ℕ) : AuditRow := sampleRow id "GET_BALANCE" "transactions" (some (.obj []))

theorem insertable_balanceRow (id : ℕ) : Insertable Pg.utc "secret" (balanceRow id) :=
  insertable_sampleRow id (by decide) (by decide) (Or.inr rfl)

/-- Two inquiries of one instant. -/
theorem sameRecord_iff_of_hash_balance : SameRecord (balanceRow 1) (balanceRow 2) := by
  have htime : Pg.utc.timestampText (balanceRow 1).timestamp =
      Pg.utc.timestampText (balanceRow 2).timestamp →
      (balanceRow 1).timestamp = (balanceRow 2).timestamp := fun _ => rfl
  have htext : (balanceRow 1).hashedText Pg.utc = (balanceRow 2).hashedText Pg.utc :=
    (hashedText_eq_iff Pg.utc_timestampText rfl).mpr ⟨rfl, rfl, rfl, rfl, rfl, rfl⟩
  have hhash := (insertable_balanceRow 1).blockHash_eq (insertable_balanceRow 2) htext
  exact ((sameRecord_iff_of_hash Pg.utc_timestampText htime (insertable_balanceRow 1)
    (insertable_balanceRow 2)).2 rfl (fun _ => htext) hhash).mpr ⟨rfl, Iff.rfl⟩

/-- **Different records with one hash.** The separator moves from the resource into the action,
and no details stand for the empty object. -/
theorem hashedText_not_unique :
    (∃ r q, Insertable Pg.utc "secret" r ∧ Insertable Pg.utc "secret" q ∧
      r.hashedText Pg.utc = q.hashedText Pg.utc ∧ r.blockHash = q.blockHash ∧
      r.action ≠ q.action ∧ r.resource ≠ q.resource) ∧
    ∃ r q, Insertable Pg.utc "secret" r ∧ Insertable Pg.utc "secret" q ∧
      r.hashedText Pg.utc = q.hashedText Pg.utc ∧ r.blockHash = q.blockHash ∧
      r.details ≠ q.details := by
  constructor
  · have hr : Insertable Pg.utc "secret" (sampleRow 1 "GET_BALANCE" "transactions|2026" none) :=
      insertable_sampleRow 1 (by decide) (by decide) (Or.inl rfl)
    have hq : Insertable Pg.utc "secret" (sampleRow 2 "GET_BALANCE|transactions" "2026" none) :=
      insertable_sampleRow 2 (by decide) (by decide) (Or.inl rfl)
    have htext := (hashedText_eq_iff (r := sampleRow 1 "GET_BALANCE" "transactions|2026" none)
      (q := sampleRow 2 "GET_BALANCE|transactions" "2026" none) Pg.utc_timestampText rfl).mpr
        ⟨rfl, rfl, rfl, by decide, rfl, rfl⟩
    exact ⟨_, _, hr, hq, htext, hr.blockHash_eq hq htext, by decide, by decide⟩
  · have hq : Insertable Pg.utc "secret" (sampleRow 2 "GET_BALANCE" "transactions" none) :=
      insertable_sampleRow 2 (by decide) (by decide) (Or.inl rfl)
    have htext := (hashedText_eq_iff (r := balanceRow 1)
      (q := sampleRow 2 "GET_BALANCE" "transactions" none) Pg.utc_timestampText rfl).mpr
        ⟨rfl, rfl, rfl, rfl, rfl, rfl⟩
    exact ⟨_, _, insertable_balanceRow 1, hq, htext,
      (insertable_balanceRow 1).blockHash_eq hq htext, nofun⟩

end Audit
end DarkServices
