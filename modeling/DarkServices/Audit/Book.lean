import DarkServices.Audit.Atomicity
import DarkServices.Audit.HonestLedger

/-!
# The books

What the database is for, without tables, ids and hashes: a list of postings, one for each action
that a client was told has succeeded. A balance is a sum over the book, and the audit rows of a
tenant are its postings, in order.

`Represents` ties tables to a book. `Represents.runCall` is the refinement: a call answers what the
book says, and the tables then represent the book with the posting of the call.
-/

namespace DarkServices
namespace Audit

open Lib

variable {pg : Pg}

/-! ## Postings -/

/-- What a transfer adds to the transactions; the amount is in hundredths. -/
structure Transfer where
  id : Uuid
  cents : ℤ
  description : String

/-- An action on the transactions of a tenant. -/
structure Posting where
  tenant : Uuid
  actor : Uuid
  action : String
  details : Json
  transfer : Option Transfer

/-- What the action adds to the balance of its tenant. -/
def Posting.cents (p : Posting) : ℤ := (p.transfer.map Transfer.cents).getD 0

/-- The postings so far, the oldest first. -/
abbrev Book := List Posting

namespace Book

/-- The postings of a tenant. -/
def statement (book : Book) (u : Option Uuid) : Book := book.filter fun p => u = some p.tenant

def balance (book : Book) (u : Option Uuid) : ℤ := ((book.statement u).map Posting.cents).sum

/-- The postings of transfers. -/
def transfers (book : Book) : Book := book.filter fun p => p.transfer.isSome

end Book

/-- What a call that has returned puts into the book. -/
def postingOf : Call → Answer → Option Posting
  | .createTransaction tenantID amount description actorSub, .transaction t => do
    let tenant ← Uuid.parse tenantID
    let actor ← Uuid.parse (getUserUUID actorSub)
    some ⟨tenant, actor, "CREATE_TRANSACTION",
      (transactionDetails amount description t.id).toJsonb, some ⟨t.id, amount.toCents, description⟩⟩
  | .getBalance tenantID actorSub, .balance _ => do
    let tenant ← Uuid.parse tenantID
    let actor ← Uuid.parse (getUserUUID actorSub)
    some ⟨tenant, actor, "GET_BALANCE", (Json.obj []).toJsonb, none⟩
  | _, _ => none

/-- The audit row shows the posting. -/
structure Posting.ShownBy (p : Posting) (a : AuditRow) : Prop where
  tenant : a.tenantId = p.tenant
  actor : a.actorId = p.actor
  action : a.action = p.action
  resource : a.resource = "transactions"
  details : a.details = some p.details

/-- The row is the transfer of the posting. -/
structure Posting.BookedAs (p : Posting) (row : TransactionRow) : Prop where
  tenant : row.tenantId = p.tenant
  transfer : p.transfer = some ⟨row.id, row.amount, row.description⟩

/-- The book after a call. -/
def Book.after (book : Book) (call : Call) : Except String Answer → Book
  | .ok a => book ++ (postingOf call a).toList
  | .error _ => book

/-- What the book says a call returns: the balance of the tenant, its postings as a linked list of
audit rows, or a transfer with an id that no posting has. -/
def Book.Answers (book : Book) (call : Call) : Answer → Prop
  | .balance n => n = book.balance (Uuid.parse call.tenantID)
  | .logs rows => List.Forall₂ Posting.ShownBy (book.statement (Uuid.parse call.tenantID)) rows ∧
      AuditLinked rows
  | .transaction t => ∀ p ∈ book, ∀ x, p.transfer = some x → x.id ≠ t.id

/-! ## Tables -/

/-- The ids of the committed and the pending transactions are all different. -/
def UniqueIds (s : Db × Option OpenTx) : Prop :=
  ((s.1.transactions ++ (pending s.2).transactions).map TransactionRow.id).Nodup

theorem uniqueIds_effect {c : Choice} {o : DbOp} {db db' : Db} {tx tx' : Option OpenTx}
    {r : Reply o} (hs : UniqueIds (db, tx)) (h : Effect pg c db tx o r db' tx') :
    UniqueIds (db', tx') := by
  unfold UniqueIds at hs ⊢
  cases h with
  | quiet htransactions _ _ _ hrows =>
    simp only [htransactions]
    obtain hrows | hrows := hrows
    · rw [List.map_append] at hs
      rw [hrows, Rows.none, List.append_nil]
      exact hs.of_append_left
    · rwa [hrows]
  | @insertTransaction _ _ _ t row ht _ hrow =>
    subst ht
    obtain ⟨-, -, -, -, -, hfresh, -⟩ := insertTransactionRow_ok hrow
    simp only [pending_some, OpenTx.rows, ← List.append_assoc, List.map_append, List.map_cons,
      List.map_nil] at hs ⊢
    refine List.nodup_append.mpr ⟨hs, List.nodup_singleton _, ?_⟩
    intro a ha b hb hab
    rw [← List.map_append] at ha
    obtain ⟨q, hq, hqa⟩ := List.mem_map.mp ha
    apply hfresh q hq
    rw [hqa, hab, List.mem_singleton.mp hb]
  | insertAudit ht =>
    subst ht
    exact hs
  | commit ht =>
    subst ht
    simpa using hs

theorem runCall_uniqueIds (pg : Pg) (client : DBClient) (c : Call × Inputs) {db : Db}
    (h : (db.transactions.map TransactionRow.id).Nodup) :
    ((runCall pg client c db).2.transactions.map TransactionRow.id).Nodup := by
  have hstart : UniqueIds (db, none) := by simpa [UniqueIds, Rows.none] using h
  have hrun := Prog.exec_invariant (I := UniqueIds)
    (fun o s hs => uniqueIds_effect hs (serialSem_effect pg c.2 o s)) (c.1.program client) hstart
  unfold UniqueIds at hrun
  rw [List.map_append] at hrun
  exact hrun.of_append_left

/-- The ids of a ledger grow. -/
theorem Grown.pairwise {rows : List AuditRow} (h : Grown pg rows) :
    rows.Pairwise fun a b => a.id < b.id := by
  induction h with
  | nil => exact .nil
  | concat secret hrows hid hprev hblock ih =>
    refine List.pairwise_append.mpr ⟨ih, List.pairwise_singleton _ _, ?_⟩
    intro q hq b hb
    rw [List.mem_singleton.mp hb]
    exact hid q hq

/-- A part of a ledger is in the order of the ids. -/
theorem Grown.orderById_filter {rows : List AuditRow} (h : Grown pg rows) (p : AuditRow → Bool) :
    orderById (rows.filter p) = rows.filter p :=
  List.Pairwise.insertionSort_eq ((h.pairwise.imp le_of_lt).filter p)

/-- The rows of each tenant are linked. -/
theorem Grown.linked_filter {rows : List AuditRow} (h : Grown pg rows) (u : Option Uuid) :
    AuditLinked (rows.filter fun r => u = some r.tenantId) := by
  induction h with
  | nil => trivial
  | @concat rows r secret hrows hid hprev hblock ih =>
    rw [List.filter_append, List.filter_cons, List.filter_nil]
    by_cases hr : u = some r.tenantId
    · subst hr
      have hsame : (rows.filter fun q => some r.tenantId = some q.tenantId) =
          rows.filter fun q => q.tenantId = r.tenantId := by
        apply List.filter_congr
        intro q _
        simp only [Option.some_inj, eq_comm]
      rw [if_pos (decide_eq_true rfl)]
      refine (HashChain.linked_concat _ _).mpr ⟨ih, ?_⟩
      rw [hprev, lastBlockHash_eq, hrows.orderById_filter, hsame]
    · rw [if_neg (by simpa using hr), List.append_nil]
      exact ih

/-! ## One call -/

section OneCall

variable {client : DBClient} {c : Call × Inputs} {db : Db} {a : Answer}

/-- A call that has returned adds the rows that record it. -/
theorem runCall_recorded (hok : (runCall pg client c db).1 = .ok a) :
    ∃ rows, Recorded c.1 a rows ∧
      (runCall pg client c db).2.transactions = db.transactions ++ rows.transactions ∧
      (runCall pg client c db).2.auditLogs = db.auditLogs ++ rows.auditLogs := by
  obtain ⟨l, ⟨-, htransactions, hauditLogs⟩, hprecise⟩ :=
    Prog.exec_always (serialSem_since c.2) (call_precise client c.1) (since_start db)
  refine ⟨l.done, hprecise.ret a ?_, htransactions, hauditLogs⟩
  rw [← hok]
  rfl

/-- A call that fails adds nothing. -/
theorem runCall_failed {e : String} (herror : (runCall pg client c db).1 = .error e) :
    (runCall pg client c db).2.transactions = db.transactions ∧
      (runCall pg client c db).2.auditLogs = db.auditLogs := by
  obtain ⟨rows, htransactions, hauditLogs, hacc⟩ := runCall_rows pg client c db
  rw [herror] at hacc
  obtain rfl : rows = Rows.none := hacc
  rw [htransactions, hauditLogs, Rows.none, List.append_nil, List.append_nil]
  exact ⟨rfl, rfl⟩

/-- A call that reads returns what the tables held when it started. -/
theorem runCall_reads (hok : (runCall pg client c db).1 = .ok a) (hread : IsReading (.ok a)) :
    c.1.readsAs db a := by
  have hresult : (Prog.exec (serialSem pg c.2) (c.1.program client) (db, none)).1 = .ok a := hok
  obtain ⟨o, k, s, l, hsince, hprecise, hdecides⟩ :=
    (call_decided client c.1).exec (serialSem_since c.2) (call_precise client c.1)
      (since_start db) (by rw [hresult]; exact hread)
  rw [hresult] at hdecides
  obtain ⟨t, rfl, hloc, hrows⟩ := hprecise.read o k rfl (isRead_of_decides hdecides)
  obtain ⟨htx, htransactions, hauditLogs⟩ := hsince
  have hex : execOp pg c.2.session ⟨c.2.fail o, c.2.now, c.2.uuid⟩ o s.1 (some t) =
      ((serialSem pg c.2 o s).1, (serialSem pg c.2 o s).2.1, (serialSem pg c.2 o s).2.2) := by
    unfold serialSem
    rw [htx]
  have hreads := read_answer hloc hrows hex hdecides
  simp only [Rows.none, List.append_nil] at htransactions hauditLogs
  cases a <;> simp only [Call.readsAs, Call.transactionsIn, Call.auditLogsIn, htransactions,
    hauditLogs] at hreads ⊢ <;> exact hreads

end OneCall

/-! ## Tables that represent a book -/

/-- The audit rows show the postings one by one, the transactions are the transfers, and the tables
are as serial calls leave them. -/
structure Represents (pg : Pg) (db : Db) (book : Book) : Prop where
  entries : List.Forall₂ Posting.ShownBy book db.auditLogs
  transfers : List.Forall₂ Posting.BookedAs book.transfers db.transactions
  unique : (db.transactions.map TransactionRow.id).Nodup
  drawn : Drawn (db, none)
  grown : Grown pg db.auditLogs

theorem represents_empty : Represents pg Db.empty [] where
  entries := .nil
  transfers := .nil
  unique := List.nodup_nil
  drawn := nofun
  grown := .nil

theorem Book.balance_cons (p : Posting) (book : Book) (u : Option Uuid) :
    Book.balance (p :: book) u = (if u = some p.tenant then p.cents else 0) + book.balance u := by
  unfold Book.balance Book.statement
  rw [List.filter_cons]
  by_cases hu : u = some p.tenant
  · rw [if_pos (by simpa using hu), if_pos hu, List.map_cons, List.sum_cons]
  · rw [if_neg (by simpa using hu), if_neg hu, zero_add]

/-- A balance counts transfers only. -/
theorem Book.balance_transfers (book : Book) (u : Option Uuid) :
    book.transfers.balance u = book.balance u := by
  induction book with
  | nil => rfl
  | cons p book ih =>
    rw [Book.balance_cons, Book.transfers, List.filter_cons]
    cases hp : p.transfer with
    | none =>
      have hcents : p.cents = 0 := by simp [Posting.cents, hp]
      rw [hcents, ite_self, zero_add]
      exact ih
    | some n =>
      rw [Option.isSome_some, if_pos rfl, Book.balance_cons]
      exact congrArg _ ih

theorem balance_of_booked {book : Book} {rows : List TransactionRow}
    (h : List.Forall₂ Posting.BookedAs book rows) (u : Option Uuid) :
    ((rows.filter fun r => u = some r.tenantId).map TransactionRow.amount).sum =
      book.balance u := by
  induction h with
  | nil => rfl
  | @cons p row book rows hrow _ ih =>
    have hcents : p.cents = row.amount := by simp [Posting.cents, hrow.transfer]
    rw [Book.balance_cons, hcents, ← hrow.tenant, ← ih, List.filter_cons]
    by_cases hu : u = some row.tenantId
    · rw [if_pos (by simpa using hu), if_pos hu, List.map_cons, List.sum_cons]
    · rw [if_neg (by simpa using hu), if_neg hu, zero_add]

/-- An element of one list has its partner in the other. -/
theorem exists_of_forall₂ {α β : Type} {R : α → β → Prop} {l : List α} {l' : List β}
    (h : List.Forall₂ R l l') {a : α} (ha : a ∈ l) : ∃ b ∈ l', R a b := by
  induction h with
  | nil => cases ha
  | @cons a' b l l' hab _ ih =>
    rcases List.mem_cons.mp ha with rfl | ha
    · exact ⟨b, List.mem_cons_self, hab⟩
    · obtain ⟨b', hmem, hb'⟩ := ih ha
      exact ⟨b', List.mem_cons_of_mem _ hmem, hb'⟩

theorem statement_of_shown {book : Book} {rows : List AuditRow}
    (h : List.Forall₂ Posting.ShownBy book rows) (u : Option Uuid) :
    List.Forall₂ Posting.ShownBy (book.statement u) (rows.filter fun r => u = some r.tenantId) := by
  refine List.rel_filter (fun p a hshown => ?_) h
  simp [hshown.tenant]

/-- The rows that record a call are those of its posting. -/
theorem Recorded.posting {call : Call} {a : Answer} {rows : Rows} (h : Recorded call a rows) :
    List.Forall₂ Posting.ShownBy (postingOf call a).toList rows.auditLogs ∧
      List.Forall₂ Posting.BookedAs (Book.transfers (postingOf call a).toList)
        rows.transactions := by
  cases call with
  | createTransaction tenantID amount description actorSub =>
    cases a with
    | transaction t =>
      obtain ⟨row, b, rfl, rfl, htenant, hamount, hdescription, hentry⟩ := h
      have hb : b.tenantId = row.tenantId := Option.some.inj (hentry.tenant.symm.trans htenant)
      simp only [postingOf, htenant, hentry.actor, Option.bind_eq_bind, Option.bind_some,
        Option.toList_some]
      exact ⟨.cons ⟨hb, rfl, hentry.action, hentry.resource, hentry.details⟩ .nil,
        .cons ⟨rfl, by rw [hamount, hdescription]⟩ .nil⟩
    | _ => exact h.elim
  | getBalance tenantID actorSub =>
    cases a with
    | balance n =>
      obtain ⟨b, rfl, hentry⟩ := h
      simp only [postingOf, hentry.tenant, hentry.actor, Option.bind_eq_bind, Option.bind_some,
        Option.toList_some]
      exact ⟨.cons ⟨rfl, rfl, hentry.action, hentry.resource, hentry.details⟩ .nil, .nil⟩
    | _ => exact h.elim
  | getAuditLogs tenantID =>
    cases a with
    | logs rows' =>
      obtain rfl : rows = Rows.none := h
      exact ⟨.nil, .nil⟩
    | _ => exact h.elim

/-- What a reading call finds in the tables is what the book says. -/
theorem Represents.reads {db : Db} {book : Book} (h : Represents pg db book) {call : Call}
    {a : Answer} (ha : call.readsAs db a) : book.Answers call a := by
  cases a with
  | balance n =>
    have hn : n = ((call.transactionsIn db).map TransactionRow.amount).sum := ha
    show n = book.balance (Uuid.parse call.tenantID)
    rw [hn, ← book.balance_transfers]
    exact balance_of_booked h.transfers _
  | logs rows =>
    have hrows : rows = call.auditLogsIn db := ha
    rw [hrows, Call.auditLogsIn, h.grown.orderById_filter]
    exact ⟨statement_of_shown h.entries _, h.grown.linked_filter _⟩
  | transaction t => exact ha.elim

/-- The id of a new transfer is not in the book. -/
theorem Represents.fresh {db : Db} {book : Book} (h : Represents pg db book)
    {row : TransactionRow} (hunique : ((db.transactions ++ [row]).map TransactionRow.id).Nodup)
    {p : Posting} (hp : p ∈ book) {x : Transfer} (htransfer : p.transfer = some x) :
    x.id ≠ row.id := by
  intro hx
  have hmem : p ∈ book.transfers := List.mem_filter.mpr ⟨hp, by simp [htransfer]⟩
  obtain ⟨row', hrow', hbooked⟩ := exists_of_forall₂ h.transfers hmem
  have hid : row'.id = row.id := by
    have heq := Option.some.inj (hbooked.transfer.symm.trans htransfer)
    exact (congrArg Transfer.id heq).trans hx
  rw [List.map_append, List.nodup_append] at hunique
  exact hunique.2.2 row'.id (List.mem_map_of_mem hrow') row.id (by simp) hid

/-- **Refinement.** A call on tables that represent a book answers what the book says, and leaves
tables that represent the book after it. -/
theorem Represents.runCall {db : Db} {book : Book} (h : Represents pg db book)
    (client : DBClient) (c : Call × Inputs) :
    (∀ a, (runCall pg client c db).1 = .ok a → book.Answers c.1 a) ∧
      Represents pg (runCall pg client c db).2 (book.after c.1 (runCall pg client c db).1) := by
  have hunique := runCall_uniqueIds pg client c h.unique
  have hdrawn := runCall_drawn pg client c h.drawn
  have hgrown := runCall_grown client c h.drawn h.grown
  cases hresult : (Audit.runCall pg client c db).1 with
  | error e =>
    obtain ⟨htransactions, hauditLogs⟩ := runCall_failed hresult
    refine ⟨nofun, ?_, ?_, hunique, hdrawn, hgrown⟩
    · rw [hauditLogs]
      exact h.entries
    · rw [htransactions]
      exact h.transfers
  | ok a =>
    obtain ⟨rows, hrecorded, htransactions, hauditLogs⟩ := runCall_recorded hresult
    obtain ⟨hentries, htransfers⟩ := hrecorded.posting
    constructor
    · intro b hb
      cases hb
      cases a with
      | balance n => exact h.reads (runCall_reads hresult trivial)
      | logs l => exact h.reads (runCall_reads hresult trivial)
      | transaction t =>
        cases hcall : c.1 <;> rw [hcall] at hrecorded
        · obtain ⟨row, b, rfl, rfl, -⟩ := hrecorded
          rw [htransactions] at hunique
          intro p hp x hx
          exact h.fresh hunique hp hx
        · exact hrecorded.elim
        · exact hrecorded.elim
    · refine ⟨?_, ?_, hunique, hdrawn, hgrown⟩
      · rw [hauditLogs]
        exact List.rel_append h.entries hentries
      · rw [htransactions, Book.after, Book.transfers, List.filter_append]
        exact List.rel_append h.transfers htransfers

end Audit
end DarkServices
