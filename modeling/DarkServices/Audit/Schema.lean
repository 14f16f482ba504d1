import DarkServices.Lib.Json
import Mathlib.Data.List.DropRight
import Mathlib.Data.List.Sort

/-!
# The PostgreSQL schema of the ledger

The tables, the row-level security policies and the `hash_audit_record` trigger of
`docker/postgres/init.sql`, and the statements the gateway sends to them as `app_user`.

A `Session` holds the two custom settings the policies and the trigger read. Inside a
transaction a local value hides the session's one until the transaction ends.
-/

namespace DarkServices
namespace Audit

open Lib

/-! ## Column types -/

/-- Microseconds. -/
abbrev Timestamp := ℕ

/-- A UUID value, as its 32 hexadecimal digits. -/
structure Uuid where
  digits : List Char
  length_digits : digits.length = 32
  hex_digits : ∀ c ∈ digits, c ∈ "0123456789abcdef".toList
deriving DecidableEq

namespace Uuid

instance decidableHex (l : List Char) : Decidable (∀ c ∈ l, c ∈ "0123456789abcdef".toList) :=
  List.decidableBAll _ _

/-- The UUID of 32 zeros. -/
def zero : Uuid := ⟨List.replicate 32 '0', by decide, by decide⟩

/-- The UUID of 32 hexadecimal digits. -/
def ofDigits (l : List Char) : Option Uuid :=
  if h : l.length = 32 ∧ ∀ c ∈ l, c ∈ "0123456789abcdef".toList then some ⟨l, h.1, h.2⟩
  else none

/-- Read `n` bytes of two hexadecimal digits in either case. A hyphen may follow every
second byte but the last. -/
def readBytes : (n : ℕ) → List Char → Option (List Char × List Char)
  | 0, rest => some ([], rest)
  | n + 1, a :: b :: rest =>
    if a.toLower ∈ "0123456789abcdef".toList ∧ b.toLower ∈ "0123456789abcdef".toList then
      let rest' := if n % 2 = 0 ∧ n ≠ 0 ∧ rest.head? = some '-' then rest.tail else rest
      (readBytes n rest').map fun p => (a.toLower :: b.toLower :: p.1, p.2)
    else none
  | _ + 1, _ => none

/-- The input syntax of type `uuid`: the digits may stand in braces. -/
def parse (s : String) : Option Uuid :=
  match s.toList with
  | '\x7b' :: cs =>
    match readBytes 16 cs with
    | some (ds, ['\x7d']) => ofDigits ds
    | _ => none
  | cs =>
    match readBytes 16 cs with
    | some (ds, []) => ofDigits ds
    | _ => none

/-- `uuid::text`: lower case, in groups of 8, 4, 4, 4 and 12 digits. -/
def text (u : Uuid) : String :=
  String.ofList (u.digits.take 8 ++ '-' :: (u.digits.drop 8).take 4 ++ '-' ::
    (u.digits.drop 12).take 4 ++ '-' :: (u.digits.drop 16).take 4 ++ '-' :: u.digits.drop 20)

theorem length_text (u : Uuid) : u.text.toList.length = 36 := by
  simp [text, u.length_digits]

theorem text_injective : Function.Injective text := by
  intro u v h
  have h' := String.ofList_injective h
  simp only [List.append_assoc, List.cons_append] at h'
  have hu := u.length_digits
  have hv := v.length_digits
  obtain ⟨h1, h'⟩ := List.append_inj h' (by simp [hu, hv])
  obtain ⟨h2, h'⟩ := List.append_inj (List.cons.inj h').2 (by simp [hu, hv])
  obtain ⟨h3, h'⟩ := List.append_inj (List.cons.inj h').2 (by simp [hu, hv])
  obtain ⟨h4, h'⟩ := List.append_inj (List.cons.inj h').2 (by simp [hu, hv])
  have h5 := (List.cons.inj h').2
  -- a digit list is put together from its five groups
  have hsplit : ∀ l : List Char, l = l.take 8 ++ ((l.drop 8).take 4 ++ ((l.drop 12).take 4 ++
      ((l.drop 16).take 4 ++ l.drop 20))) := by
    intro l
    have key : ∀ n, (l.drop n).take 4 ++ l.drop (n + 4) = l.drop n := fun n => by
      rw [← List.drop_drop, List.take_append_drop]
    rw [key 16, key 12, key 8, List.take_append_drop]
  have hdigits : u.digits = v.digits := by
    rw [hsplit u.digits, hsplit v.digits, h1, h2, h3, h4, h5]
  cases u
  cases v
  cases hdigits
  rfl

end Uuid

/-- A row of `transactions`; the amount is in hundredths. -/
structure TransactionRow where
  id : Uuid
  tenantId : Uuid
  amount : ℤ
  description : String
  createdAt : Timestamp
deriving DecidableEq

/-- A row of `audit_logs`. -/
structure AuditRow where
  id : ℕ
  timestamp : Timestamp
  actorId : Uuid
  tenantId : Uuid
  action : String
  resource : String
  details : Option Json
  prevHash : String
  blockHash : String

/-- The committed tables and the next value of `audit_logs_id_seq`. -/
structure Db where
  transactions : List TransactionRow
  auditLogs : List AuditRow
  auditSeq : ℕ

/-- The tables as `init.sql` creates them. -/
def Db.empty : Db := ⟨[], [], 1⟩

/-! ## Settings and policies -/

/-- The settings `app.tenant_id` and `app.audit_secret`; `none` when never set. -/
structure Settings where
  tenantId : Option String
  auditSecret : Option String
deriving DecidableEq

/-- The names of the two settings. -/
inductive Setting
  | tenantId
  | auditSecret
deriving DecidableEq

def Settings.unset : Settings := ⟨none, none⟩

def Settings.set (s : Settings) (k : Setting) (v : String) : Settings :=
  match k with
  | .tenantId => { s with tenantId := some v }
  | .auditSecret => { s with auditSecret := some v }

/-- The value read in a transaction: the local one when there is one. -/
def Settings.over (loc session : Settings) : Settings :=
  ⟨loc.tenantId <|> session.tenantId, loc.auditSecret <|> session.auditSecret⟩

/-- `NULLIF(current_setting(..., true), '')`. -/
def nullIfEmpty : Option String → Option String
  | some "" => none
  | v => v

/-- The tenant of both policies, `NULLIF(current_setting('app.tenant_id', true), '')::uuid`. -/
def policyTenant (s : Settings) : Except String (Option Uuid) :=
  match nullIfEmpty s.tenantId with
  | none => .ok none
  | some v =>
    match Uuid.parse v with
    | some u => .ok (some u)
    | none => .error ("pq: invalid input syntax for type uuid: \"" ++ v ++ "\"")

/-- The `USING` clause, evaluated for each row that a query scans. -/
def usingPolicy {α : Type} (s : Settings) (tenantOf : α → Uuid) (rows : List α) :
    Except String (List α) :=
  if rows.isEmpty then .ok []
  else (policyTenant s).map fun t => rows.filter fun r => t = some (tenantOf r)

/-- The `WITH CHECK` clause for a new row of `table`. -/
def withCheckPolicy (s : Settings) (table : String) (tenant : Uuid) : Except String Unit :=
  match policyTenant s with
  | .error e => .error e
  | .ok t =>
    if t = some tenant then .ok ()
    else .error ("pq: new row violates row-level security policy for table \"" ++ table ++ "\"")

/-! ## The `hash_audit_record` trigger -/

/-- What the server renders and the sources do not fix: `timestamptz::text` in the time
zone of the session. -/
structure Pg where
  timestampText : Timestamp → String

/-- Year, month and day of a number of days after 1 January 1970. -/
def civilDate (days : ℕ) : ℕ × ℕ × ℕ :=
  let z := days + 719468
  let doe := z % 146097
  let yoe := (doe - doe / 1460 + doe / 36524 - doe / 146096) / 365
  let doy := doe - (365 * yoe + yoe / 4 - yoe / 100)
  let mp := (5 * doy + 2) / 153
  let month := if mp < 10 then mp + 3 else mp - 9
  (yoe + z / 146097 * 400 + (if month ≤ 2 then 1 else 0), month, doy - (153 * mp + 2) / 5 + 1)

/-- A number with at least `width` digits. -/
def padded (width n : ℕ) : List Char := (Nat.toDigits 10 n).leftpad width '0'

/-- The server in time zone UTC: the fraction of a second loses its trailing zeros. -/
def Pg.utc : Pg where
  timestampText t :=
    let seconds := t / 1000000
    let date := civilDate (seconds / 86400)
    let fraction := (padded 6 (t % 1000000)).rdropWhile (· = '0')
    String.ofList (padded 4 date.1 ++ '-' :: padded 2 date.2.1 ++ '-' :: padded 2 date.2.2 ++
      ' ' :: padded 2 (seconds / 3600 % 24) ++ ':' :: padded 2 (seconds / 60 % 60) ++
      ':' :: padded 2 (seconds % 60) ++ (if fraction = [] then [] else '.' :: fraction) ++
      ['+', '0', '0'])

example : Pg.utc.timestampText 1782907200250000 = "2026-07-01 12:00:00.25+00" := by
  decide

theorem isDigit_of_mem_padded {width n : ℕ} {c : Char} (h : c ∈ padded width n) :
    c.isDigit = true := by
  rw [padded, List.leftpad, List.mem_append, List.mem_replicate] at h
  rcases h with ⟨-, rfl⟩ | h
  · decide
  · exact Nat.isDigit_of_mem_toDigits (by decide) (by decide) h

/-- The separator of the hashed text does not occur in a timestamp. -/
theorem Pg.utc_timestampText (t : Timestamp) : '|' ∉ (Pg.utc.timestampText t).toList := by
  have hpad : ∀ width n, '|' ∉ padded width n := fun width n h =>
    absurd (isDigit_of_mem_padded h) (by decide)
  have hfraction : '|' ∉ (padded 6 (t % 1000000)).rdropWhile (· = '0') := fun h =>
    hpad _ _ ((List.rdropWhile_prefix _ _).subset h)
  simp only [Pg.utc, String.toList_ofList, List.mem_append, List.mem_cons, hpad, false_or,
    or_false, List.not_mem_nil]
  split
  · simp
  · simp only [List.mem_cons, hfraction]
    decide

/-- The hash of an empty chain. -/
def genesisHash : String := String.ofList (List.replicate 64 '0')

/-- The columns of a new row of `audit_logs` before the trigger fills in the hashes. -/
structure NewAudit where
  id : ℕ
  timestamp : Timestamp
  actorId : Uuid
  tenantId : Uuid
  action : String
  resource : String
  details : Option Json

/-- `concat_text`. -/
def concatText (pg : Pg) (n : NewAudit) (prevHash : String) : String :=
  pg.timestampText n.timestamp ++ "|" ++ n.actorId.text ++ "|" ++ n.tenantId.text ++ "|" ++
    n.action ++ "|" ++ n.resource ++ "|" ++
    (match n.details with | some d => d.jsonbText | none => "\x7b\x7d") ++ "|" ++ prevHash

/-- `encode(hmac(concat_text, audit_secret, 'sha256'), 'hex')`. -/
def blockHashOf (secret text : String) : String := hex (Sha256.hmac (utf8 secret) (utf8 text))

/-- `ORDER BY id`. -/
def orderById (rows : List AuditRow) : List AuditRow :=
  rows.insertionSort fun a b => a.id ≤ b.id

/-- `SELECT block_hash FROM audit_logs ORDER BY id DESC LIMIT 1`: the hash of the last row
in the order of the ids, and the hash of the empty chain when there is no row. -/
def lastBlockHash (visible : List AuditRow) : String :=
  match (orderById visible).getLast? with
  | some r => r.blockHash
  | none => genesisHash

/-- `hash_audit_record`, run with the rights of the inserting role: `visible` are the rows
its query sees. -/
def hashAuditRecord (pg : Pg) (s : Settings) (visible : List AuditRow) (n : NewAudit) :
    Except String AuditRow :=
  match nullIfEmpty s.auditSecret with
  | none => .error "pq: Audit secret is missing or invalid. Integrity check failed."
  | some secret =>
    let prevHash := lastBlockHash visible
    .ok { id := n.id, timestamp := n.timestamp, actorId := n.actorId, tenantId := n.tenantId,
          action := n.action, resource := n.resource, details := n.details,
          prevHash := prevHash, blockHash := blockHashOf secret (concatText pg n prevHash) }

end Audit
end DarkServices
