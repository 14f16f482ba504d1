import DarkServices.Audit.PoolTheorems

/-!
# The settings of pooled connections

The error paths reset the settings of some other connection of the pool, at session scope.
That the settings of a call do not leak rests on something else: they are local to its
transaction, so no session of the pool ever holds a tenant (`Clean`), and each data
statement of a call comes after the two `set_config` of its own transaction (`Scoped`).

* `clean_step`: one operation of a call, a step lemma on all connections;
* `settings_confined`: both halves in every reachable state.
-/

namespace DarkServices
namespace Audit

open Lib

variable {pg : Pg}

/-! ## The data statements of a call -/

/-- The statements that the policies and the trigger apply to. -/
def DbOp.isData : DbOp → Bool
  | .insertTransaction .. | .sumAmount | .insertAudit .. | .selectAudit => true
  | _ => false

/-- The local settings of a transaction of the call. -/
def contextOf (client : DBClient) (call : Call) : Settings :=
  ⟨some call.tenantID, some client.auditSecret⟩

/-- A data statement runs in an open transaction that has the settings of the call. -/
def Scoped (client : DBClient) (call : Call) (p : DbProg (Except String Answer)) (l : Local) :
    Prop :=
  ∀ o k, p = .op o k → o.isData = true → ∃ t, l.tx = some t ∧ t.loc = contextOf client call

section Programs

variable {client : DBClient} {call : Call} {o : DbOp} {d : Rows} {l : Local} {t : OpenTx}
  {k : Reply o → DbProg (Except String Answer)}

/-- A point whose next operation, if any, is no data statement. -/
theorem Scoped.of_noData {p : DbProg (Except String Answer)}
    (h : ∀ o k, p = .op o k → o.isData = false) : Scoped client call p l := by
  intro o k hp hdata
  rw [h o k hp] at hdata
  cases hdata

theorem Scoped.op (ho : o.isData = false) : Scoped client call (.op o k) l := by
  refine Scoped.of_noData fun o' k' hp => ?_
  cases hp
  exact ho

/-- A statement of a transaction that has the settings of the call. -/
theorem Scoped.inContext (ht : t.loc = contextOf client call) :
    Scoped client call (.op o k) ⟨some t, d⟩ :=
  fun _ _ _ _ => ⟨t, rfl, ht⟩

theorem scoped_cleanup (e : String) :
    Prog.Always (localRel pg) (Scoped client call) (cleanup e) l := by
  refine ⟨Scoped.op rfl, fun _ l' _ => ?_⟩
  refine ⟨Scoped.op rfl, fun _ l'' _ => ?_⟩
  exact Scoped.of_noData fun _ _ h => by cases h

theorem scoped_commitAndReset (a : Answer) :
    Prog.Always (localRel pg) (Scoped client call) (commitAndReset a) l := by
  refine ⟨Scoped.op rfl, fun r l' _ => ?_⟩
  cases r with
  | error e => exact scoped_cleanup _
  | ok _ =>
    refine ⟨Scoped.op rfl, fun _ l'' _ => ?_⟩
    exact Scoped.of_noData fun _ _ h => by cases h

/-- The body starts with both settings of the call in place. -/
theorem scoped_withTx {body : DbProg (Except String Answer)}
    (hbody : ∀ t d, t.loc = contextOf client call →
      Prog.Always (localRel pg) (Scoped client call) body ⟨some t, d⟩) :
    Prog.Always (localRel pg) (Scoped client call) (withTx client call.tenantID body)
      ⟨none, d⟩ := by
  refine ⟨Scoped.op rfl, fun r l' h => ?_⟩
  obtain ⟨e, rfl, rfl⟩ | ⟨session, now, rfl, rfl⟩ := localRel_begin h
  · exact Scoped.of_noData fun _ _ h => by cases h
  refine ⟨Scoped.op rfl, fun r l' h => ?_⟩
  obtain ⟨e, rfl, rfl⟩ | ⟨rfl, rfl⟩ := localRel_setConfig h
  · exact scoped_cleanup _
  refine ⟨Scoped.op rfl, fun r l' h => ?_⟩
  obtain ⟨e, rfl, rfl⟩ | ⟨rfl, rfl⟩ := localRel_setConfig h
  · exact scoped_cleanup _
  -- both local settings have been written over the unset ones of a new transaction
  exact hbody _ d rfl

/-- Each call sets its context before its first data statement, and no statement of it
changes the context. -/
theorem call_scoped (client : DBClient) (call : Call) (d : Rows) :
    Prog.Always (localRel pg) (Scoped client call) (call.program client) ⟨none, d⟩ := by
  cases call with
  | createTransaction tenantID amount description actorSub =>
    simp only [Call.program, createTransaction, mapResult_withTx, mapResult_op,
      mapResult_orCleanup, mapResult_commitAndReset]
    refine scoped_withTx fun t d ht => ⟨Scoped.inContext ht, fun r l' h => ?_⟩
    obtain ⟨e, rfl, rfl⟩ | ⟨row, rfl, -, -, rfl⟩ := localRel_insertTransaction h
    · exact scoped_cleanup _
    refine ⟨Scoped.inContext ht, fun r l' h => ?_⟩
    obtain ⟨e, rfl, rfl⟩ | ⟨a, rfl, -, -, -, rfl⟩ := localRel_insertAudit h
    · exact scoped_cleanup _
    exact scoped_commitAndReset _
  | getBalance tenantID actorSub =>
    simp only [Call.program, getBalance, mapResult_withTx, mapResult_op,
      mapResult_orCleanup, mapResult_commitAndReset]
    refine scoped_withTx fun t d ht => ⟨Scoped.inContext ht, fun r l' h => ?_⟩
    obtain ⟨e, rfl, rfl⟩ | ⟨balance, rfl, rfl⟩ := localRel_sumAmount h
    · exact scoped_cleanup _
    refine ⟨Scoped.inContext ht, fun r l' h => ?_⟩
    obtain ⟨e, rfl, rfl⟩ | ⟨a, rfl, -, -, -, rfl⟩ := localRel_insertAudit h
    · exact scoped_cleanup _
    exact scoped_commitAndReset _
  | getAuditLogs tenantID =>
    simp only [Call.program, getAuditLogs, mapResult_withTx, mapResult_op,
      mapResult_orCleanup, mapResult_commitAndReset]
    refine scoped_withTx fun t d ht => ⟨Scoped.inContext ht, fun r l' h => ?_⟩
    obtain ⟨e, rfl, rfl⟩ | ⟨logs, rfl, rfl⟩ := localRel_selectAudit h
    · exact scoped_cleanup _
    exact scoped_commitAndReset _

end Programs

/-! ## The sessions of the connections -/

/-- Neither setting has a value: both were never set, or set to the empty text. -/
def Settings.IsEmpty (s : Settings) : Prop :=
  nullIfEmpty s.tenantId = none ∧ nullIfEmpty s.auditSecret = none

/-- The session of a transaction's connection stays as `Begin` found it. -/
theorem execOp_session {session : Settings} {c : Choice} {o : DbOp} {db db' : Db}
    {tx : Option OpenTx} {t' : OpenTx} {r : Reply o}
    (h : execOp pg session c o db tx = (r, db', some t')) :
    (o = .begin ∧ t'.session = session) ∨ ∃ t, tx = some t ∧ t'.session = t.session := by
  -- a statement goes on in its transaction, failed or with another part changed
  have onStatement : ∀ {α : Type} {f : OpenTx → Except String (α × OpenTx)} {r : Except String α}
      {db₁ db₂ : Db} {c : Choice}, (∀ t a t', f t = .ok (a, t') → t'.session = t.session) →
      onTx c db₁ tx f = (r, db₂, some t') → ∃ t, tx = some t ∧ t'.session = t.session := by
    intro α f r db₁ db₂ c hf h
    obtain ⟨-, ⟨e, -, habort⟩ | ⟨t, a, t₁, rfl, -, -, hft, -, hsome⟩⟩ := onTx_cases h
    · obtain ⟨t, ht, hab⟩ := Option.map_eq_some_iff.mp habort.symm
      refine ⟨t, ht, ?_⟩
      rw [← hab]
      rfl
    · cases hsome
      exact ⟨t, rfl, hf t a _ hft⟩
  cases o with
  | begin =>
    simp only [execOp] at h
    split at h
    · cases h
      exact Or.inr ⟨t', rfl, rfl⟩
    · cases h
      exact Or.inl ⟨rfl, rfl⟩
  | setConfig k v =>
    simp only [execOp] at h
    refine Or.inr (onStatement (fun t a t₁ hf => ?_) h)
    cases hf
    rfl
  | insertTransaction tenantID amount description =>
    refine Or.inr (onStatement (fun t a t₁ hf => ?_) h)
    obtain ⟨row, -, heq⟩ := except_map_eq_ok hf
    cases heq
    rfl
  | sumAmount =>
    refine Or.inr (onStatement (fun t a t₁ hf => ?_) h)
    obtain ⟨rows, -, heq⟩ := except_map_eq_ok hf
    cases heq
    rfl
  | insertAudit actorID tenantID action resource details =>
    simp only [execOp, Prod.mk.injEq] at h
    obtain ⟨-, -, htx⟩ := h
    refine Or.inr (onStatement (fun t a t₁ hf => ?_) (Prod.ext rfl (Prod.ext rfl htx)))
    obtain ⟨n, -, hf⟩ := except_bind_eq_ok hf
    obtain ⟨row, -, heq⟩ := except_map_eq_ok hf
    cases heq
    rfl
  | selectAudit =>
    refine Or.inr (onStatement (fun t a t₁ hf => ?_) h)
    obtain ⟨rows, -, heq⟩ := except_map_eq_ok hf
    cases heq
    rfl
  | commit =>
    obtain ⟨hnone, -⟩ := commitTx_cases h
    cases hnone
  | rollback => cases h
  | resetExec =>
    cases h
    exact Or.inr ⟨t', rfl, rfl⟩

/-- A connection taken is an idle one or a new one, and the idle ones left were idle. -/
theorem take_mem {p p' : Pool} {pick : ℕ} {s : Settings} (h : p.take pick = some (s, p')) :
    (s ∈ p.free ∨ s = Settings.unset) ∧ ∀ c ∈ p'.free, c ∈ p.free := by
  unfold Pool.take at h
  split at h
  · rename_i hs
    cases h
    exact ⟨Or.inl (List.mem_of_getElem? hs), fun c hc => List.mem_of_mem_eraseIdx hc⟩
  · split at h
    · cases h
      exact ⟨Or.inr rfl, fun c hc => hc⟩
    · cases h

theorem release_mem {p : Pool} {s c : Settings} {keep : Bool} (h : c ∈ (p.release s keep).free) :
    c = s ∨ c ∈ p.free := by
  cases keep with
  | true => exact List.mem_cons.mp h
  | false => exact Or.inr h

section Concurrent

variable {ι : Type} [DecidableEq ι] [Fintype ι] {max : ℕ} {client : DBClient} {calls : ι → Call}

/-- No session of a connection has a setting, be the connection idle or in a transaction. -/
structure Clean (s : Shared ι) : Prop where
  idle : ∀ c ∈ s.pool.free, c.IsEmpty
  held : ∀ i t, s.conn i = some t → t.session.IsEmpty

omit [DecidableEq ι] [Fintype ι] in
/-- The connection an operation takes, and the ones it leaves idle, have no setting. -/
theorem Clean.taken {s : Shared ι} {o : DbOp} {pick : ℕ} {session : Settings} {pool : Pool}
    (hclean : Clean s)
    (htake : (if o.needsConn then s.pool.take pick else some (Settings.unset, s.pool)) =
      some (session, pool)) :
    session.IsEmpty ∧ ∀ c ∈ pool.free, c.IsEmpty := by
  have hunset : Settings.unset.IsEmpty := ⟨rfl, rfl⟩
  split at htake
  · obtain ⟨hsession, hfree⟩ := take_mem htake
    refine ⟨?_, fun c hc => hclean.idle c (hfree c hc)⟩
    rcases hsession with hmem | rfl
    · exact hclean.idle session hmem
    · exact hunset
  · cases htake
    exact ⟨hunset, hclean.idle⟩

/-- A reset leaves a connection without settings, done or not. -/
theorem isEmpty_resetSession {c : PoolChoice} {session : Settings} (h : session.IsEmpty) :
    (resetSession c session).IsEmpty := by
  unfold resetSession
  split
  · exact h
  · exact ⟨rfl, rfl⟩

/-- **Step lemma.** An operation of a call keeps all sessions without settings. -/
theorem clean_step {s s' : Shared ι} {i : ι} {o : DbOp} {c : PoolChoice} {r : Reply o}
    (hclean : Clean s) (h : dbSem pg s i o c = some (r, s')) : Clean s' := by
  obtain ⟨session, pool, htake, hex, hconn, -, hpool⟩ := dbSem_eq_some h
  obtain ⟨hsession, hfree⟩ := hclean.taken htake
  -- a connection given back has the session it was taken with, or a reset one
  have hrelease : ∀ {x : Settings}, x.IsEmpty →
      ∀ c' ∈ (pool.release x c.keep).free, c'.IsEmpty := by
    intro x hx c' hc'
    rcases release_mem hc' with rfl | hmem
    · exact hx
    · exact hfree c' hmem
  constructor
  · rw [hpool]
    obtain rfl | rfl | ⟨-, ho⟩ := needsConn_cases o
    · rw [poolAfter]
      split
      · exact hfree
      · exact hrelease hsession
    · rw [poolAfter]
      exact hrelease (isEmpty_resetSession hsession)
    · rw [poolAfter_statement ho]
      split
      · rename_i t hbefore _
        exact hrelease (hclean.held i t hbefore)
      · exact hfree
  · intro j t' ht'
    rw [hconn] at ht'
    obtain ⟨-, hi⟩ | ⟨-, hj⟩ := of_update ht'
    · rw [hi] at hex
      obtain ⟨-, hnew⟩ | ⟨t, ht, hsame⟩ := execOp_session hex
      · rw [hnew]
        exact hsession
      · rw [hsame]
        exact hclean.held i t ht
    · exact hclean.held j t' hj

/-- The local settings hide those of the session. -/
theorem settings_of_context {t : OpenTx} {call : Call} (h : t.loc = contextOf client call) :
    t.settings = contextOf client call := by
  rw [OpenTx.settings, h]
  rfl

/-- **No leak through the pool.** In every state that concurrent calls reach, whatever fails
and however they interleave: the open connections are the idle ones and those in a
transaction, an idle one has neither setting, and a call that is about to run a data
statement runs it in its own transaction with its own tenant and the secret of the client. -/
theorem settings_confined {s : CallStates ι} (h : (callSystem pg max client calls).Reachable s) :
    s.shared.pool.numOpen = s.shared.pool.free.length + held s.shared ∧
    (∀ c ∈ s.shared.pool.free, c.IsEmpty) ∧
    ∀ i o k, s.prog i = .op o k → o.isData = true →
      ∃ t, s.shared.conn i = some t ∧
        t.settings = ⟨some (calls i).tenantID, some client.auditSecret⟩ := by
  have hinv : (PoolInv max s.shared ∧ Clean s.shared) ∧ AtPoints calls s := by
    refine callSystem_invariant (I := fun s => PoolInv max s.shared ∧ Clean s.shared) ?_ ?_ h
    · have hcount : PoolInv max (startState max client calls).shared :=
        ⟨rfl, by simp [startState, held], Nat.zero_le _⟩
      exact ⟨hcount, by simp [startState], by simp [startState]⟩
    · rintro s i o k c r s' ⟨hpool, hclean⟩ hpoints hp - hsem
      refine ⟨poolInv_step hpool (fun ho => ?_) hsem, clean_step hclean hsem⟩
      subst ho
      exact (hpoints i).begin k hp
  have hscoped : ∀ i, Prog.Always (localRel pg) (Scoped client (calls i)) (s.prog i)
      (s.shared.local i) :=
    Threads.always (localRel pg) (fun i s => Shared.local s i)
      (by rintro s rfl i; exact call_scoped client (calls i) Rows.none)
      (fun _ _ _ _ _ _ h => dbSem_local h) (fun _ _ _ _ _ _ _ hj h => dbSem_frame h hj) h
  refine ⟨hinv.1.1.count, hinv.1.2.idle, fun i o k hp hdata => ?_⟩
  obtain ⟨t, ht, hloc⟩ := (hscoped i).here o k hp hdata
  exact ⟨t, ht, settings_of_context hloc⟩

end Concurrent

/-- A transfer of one tenant has failed and reset the session of a third connection, a
balance of another tenant is about to be read. -/
theorem settings_confined_two_tenants :
    let calls : Fin 2 → Call := fun i =>
      if i = 0 then overflowing tenantA else .getBalance tenantB "client-bob"
    let run := List.replicate 3 (1, .plain) ++ List.replicate 5 (0, .plain)
    ∃ s, LTS.run (Threads.step (dbSem Pg.utc)) (startState 3 ⟨"secret"⟩ calls) run = some s ∧
      s.shared.pool.numOpen = s.shared.pool.free.length + held s.shared ∧
      (∀ c ∈ s.shared.pool.free, c.IsEmpty) ∧
      ∀ i o k, s.prog i = .op o k → o.isData = true →
        ∃ t, s.shared.conn i = some t ∧
          t.settings = ⟨some (calls i).tenantID, some "secret"⟩ := by
  intro calls run
  have hsome : (LTS.run (Threads.step (dbSem Pg.utc)) (startState 3 ⟨"secret"⟩ calls)
      run).isSome := by
    decide
  obtain ⟨s, hs⟩ := Option.isSome_iff_exists.mp hsome
  exact ⟨s, hs, settings_confined (LTS.reachable_of_run (.init rfl) hs)⟩

end Audit
end DarkServices
