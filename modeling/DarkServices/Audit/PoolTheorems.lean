import DarkServices.Audit.DBClientTheorems
import DarkServices.Audit.Pool
import Mathlib.Algebra.BigOperators.Group.Finset.Piecewise

/-!
# Runs of concurrent calls

* `callSystem_invariant`: the one rule for invariants of the interleavings of calls, with
  the points of the programs (`Point`) at hand;
* the pool: the connections are counted (`PoolInv`), and a call can always go on when the
  error clean-ups never hold all connections at once (`pool_progress`). They can:
  `reachable_wedge` drives any pool into that state.
-/

namespace DarkServices
namespace Audit

open Lib

variable {pg : Pg} {ι : Type} [DecidableEq ι] [Fintype ι]

/-- What call `i` owns in the shared state. -/
def Shared.local (s : Shared ι) (i : ι) : Local := ⟨s.conn i, s.byCall i⟩

/-- What one operation of call `i` does to the shared state. -/
theorem dbSem_eq_some {s s' : Shared ι} {i : ι} {o : DbOp} {c : PoolChoice} {r : Reply o}
    (h : dbSem pg s i o c = some (r, s')) :
    ∃ session pool,
      (if o.needsConn then s.pool.take c.pick else some (Settings.unset, s.pool)) =
        some (session, pool) ∧
      execOp pg session (choiceOf s i c o) o s.db (s.conn i) = (r, s'.db, s'.conn i) ∧
      s'.conn = Function.update s.conn i (s'.conn i) ∧
      s'.byCall = Function.update s.byCall i
        ((s.byCall i).append (committedBy o r (s.conn i))) ∧
      s'.pool = poolAfter c session pool (s.conn i) (s'.conn i) o := by
  unfold dbSem at h
  obtain ⟨⟨session, pool⟩, hpool, heq⟩ := Option.map_eq_some_iff.mp h
  simp only [Prod.mk.injEq] at heq
  obtain ⟨rfl, rfl⟩ := heq
  exact ⟨session, pool, hpool, by simp, by simp, rfl, by simp⟩

theorem dbSem_local {s s' : Shared ι} {i : ι} {o : DbOp} {c : PoolChoice} {r : Reply o}
    (h : dbSem pg s i o c = some (r, s')) : localRel pg o (s.local i) r (s'.local i) := by
  obtain ⟨session, pool, -, hex, -, hdone, -⟩ := dbSem_eq_some h
  refine ⟨session, _, _, _, hex, ?_⟩
  simp only [Shared.local, hdone, Function.update_self]

theorem dbSem_frame {s s' : Shared ι} {i j : ι} {o : DbOp} {c : PoolChoice} {r : Reply o}
    (h : dbSem pg s i o c = some (r, s')) (hj : j ≠ i) : s'.local j = s.local j := by
  obtain ⟨session, pool, -, -, hconn, hdone, -⟩ := dbSem_eq_some h
  rw [Shared.local, Shared.local, hconn, hdone, Function.update_of_ne hj,
    Function.update_of_ne hj]

theorem dbSem_effect {s s' : Shared ι} {i : ι} {o : DbOp} {c : PoolChoice} {r : Reply o}
    (h : dbSem pg s i o c = some (r, s')) :
    Effect pg (choiceOf s i c o) s.db (s.conn i) o r s'.db (s'.conn i) := by
  obtain ⟨session, pool, -, hex, -⟩ := dbSem_eq_some h
  exact execOp_effect hex

variable {max : ℕ} {client : DBClient} {calls : ι → Call}
  {ok : CallStates ι → ι × PoolChoice → Prop}

/-- Every call is at a point of its program. -/
def AtPoints (calls : ι → Call) (s : CallStates ι) : Prop :=
  ∀ j, Point (calls j) (s.prog j) (s.shared.local j)

/-- **Invariants of the interleavings.** An invariant holds in every reachable state when
each operation of a call keeps it, the calls being at points of their programs. -/
theorem callSystem_invariant {I : CallStates ι → Prop} (h0 : I (startState max client calls))
    (hstep : ∀ (s : CallStates ι) i o k c r s', I s → AtPoints calls s →
      s.prog i = .op o k → ok s (i, c) → dbSem pg s.shared i o c = some (r, s') →
      I ⟨s', Function.update s.prog i (k r)⟩)
    {s : CallStates ι} (h : (callSystem pg max client calls).ReachableIf ok s) :
    I s ∧ AtPoints calls s := by
  have hpoints : ∀ {s : CallStates ι}, (callSystem pg max client calls).ReachableIf ok s →
      AtPoints calls s := fun h j =>
    (Threads.always (localRel pg) (fun i s => Shared.local s i)
      (by rintro s rfl i; exact call_always client (calls i))
      (fun _ _ _ _ _ _ h => dbSem_local h) (fun _ _ _ _ _ _ _ hj h => dbSem_frame h hj) h
      j).here
  refine ⟨?_, hpoints h⟩
  induction h with
  | init hs =>
    cases hs
    exact h0
  | step hs hok hst ih =>
    obtain ⟨o, k, r, s', hp, hsem, rfl⟩ := Threads.step_eq_some hst
    exact hstep _ _ o k _ r s' ih (hpoints hs) hp hok hsem

/-! ## The connections -/

/-- The calls that hold a connection. -/
def held (s : Shared ι) : ℕ := ∑ i, if (s.conn i).isSome then 1 else 0

/-- The open connections are the idle ones and those held by transactions. -/
structure PoolInv (max : ℕ) (s : Shared ι) : Prop where
  limit : s.pool.max = max
  count : s.pool.numOpen = s.pool.free.length + held s
  bound : s.pool.numOpen ≤ max

theorem take_cases {p p' : Pool} {pick : ℕ} {s : Settings} (h : p.take pick = some (s, p')) :
    p'.max = p.max ∧
      ((p'.numOpen = p.numOpen ∧ p.free.length = p'.free.length + 1) ∨
        (p.numOpen < p.max ∧ p'.numOpen = p.numOpen + 1 ∧ p'.free.length = p.free.length)) := by
  unfold Pool.take at h
  split at h
  · rename_i hs
    cases h
    obtain ⟨hlt, -⟩ := List.getElem?_eq_some_iff.mp hs
    refine ⟨rfl, Or.inl ⟨rfl, ?_⟩⟩
    simp only [List.length_eraseIdx_of_lt hlt]
    omega
  · split at h
    · rename_i hp
      cases h
      exact ⟨rfl, Or.inr ⟨hp.2, rfl, rfl⟩⟩
    · cases h

/-- A connection is to be had when one is idle or one more may be opened. -/
theorem take_isSome {p : Pool} (h : p.free ≠ [] ∨ p.numOpen < p.max) : (p.take 0).isSome := by
  cases hf : p.free with
  | nil =>
    have hlt : p.numOpen < p.max := by simpa [hf] using h
    simp [Pool.take, hf, hlt]
  | cons s l => simp [Pool.take, hf]

theorem take_eq_none {p : Pool} {pick : ℕ} (hf : p.free = []) (hn : p.numOpen = p.max) :
    p.take pick = none := by
  simp [Pool.take, hf, hn]

theorem release_cases (p : Pool) (s : Settings) (keep : Bool) :
    (p.release s keep).max = p.max ∧
      (((p.release s keep).numOpen = p.numOpen ∧
          (p.release s keep).free.length = p.free.length + 1) ∨
        ((p.release s keep).numOpen = p.numOpen - 1 ∧
          (p.release s keep).free.length = p.free.length)) := by
  cases keep with
  | true => exact ⟨rfl, Or.inl ⟨rfl, rfl⟩⟩
  | false => exact ⟨rfl, Or.inr ⟨rfl, rfl⟩⟩

/-- Outside `Begin` a call never comes to hold a transaction. -/
theorem execOp_none {session : Settings} {c : Choice} {o : DbOp} {db db' : Db}
    {tx' : Option OpenTx} {r : Reply o} (ho : o ≠ .begin)
    (h : execOp pg session c o db none = (r, db', tx')) : tx' = none := by
  cases o with
  | begin => exact absurd rfl ho
  | _ => cases h; rfl

theorem needsConn_cases (o : DbOp) :
    o = .begin ∨ o = .resetExec ∨ (o ≠ .begin ∧ o.needsConn = false) := by
  cases o <;> simp [DbOp.needsConn]

/-- A statement, a commit or a rollback gives the connection back exactly when it ends the
transaction. -/
theorem poolAfter_statement {c : PoolChoice} {session : Settings} {pool : Pool}
    {before after : Option OpenTx} {o : DbOp} (ho : o.needsConn = false) :
    poolAfter c session pool before after o =
      match before, after with
      | some t, none => pool.release t.session c.keep
      | _, _ => pool := by
  cases o with
  | begin => cases ho
  | resetExec => cases ho
  | _ => rfl

theorem poolInv_step {s s' : Shared ι} {i : ι} {o : DbOp} {c : PoolChoice} {r : Reply o}
    (hinv : PoolInv max s) (hbegin : o = .begin → s.conn i = none)
    (h : dbSem pg s i o c = some (r, s')) : PoolInv max s' := by
  obtain ⟨session, pool, htake, hex, hconn, -, hpool⟩ := dbSem_eq_some h
  obtain ⟨hlimit, hcount, hbound⟩ := hinv
  have hheld : held s' + (if (s.conn i).isSome then 1 else 0) =
      held s + if (s'.conn i).isSome then 1 else 0 := by
    have htotal := Threads.total_update_add
      (fun t : Option OpenTx => if t.isSome then 1 else 0) s.conn i (s'.conn i)
    rw [← hconn] at htotal
    exact htotal
  -- the three shapes of an operation: it takes and keeps, takes and gives back, gives back
  obtain rfl | rfl | ⟨hne, ho⟩ := needsConn_cases o
  · obtain ⟨hlimit', htake⟩ := take_cases (by simpa [DbOp.needsConn] using htake)
    rw [hbegin rfl] at hheld
    rw [poolAfter] at hpool
    split at hpool
    · rename_i hsome
      rw [hsome] at hheld
      simp only [Option.isSome_none, Bool.false_eq_true, if_false, if_true] at hheld
      refine ⟨by rw [hpool, hlimit', hlimit], ?_, ?_⟩ <;> rw [hpool] <;> omega
    · rename_i hnone
      rw [Bool.not_eq_true] at hnone
      rw [hnone] at hheld
      simp only [Option.isSome_none, Bool.false_eq_true, if_false] at hheld
      obtain ⟨hm, hr⟩ := release_cases pool session c.keep
      refine ⟨by rw [hpool, hm, hlimit', hlimit], ?_, ?_⟩ <;> rw [hpool] <;> omega
  · simp only [execOp, Prod.mk.injEq] at hex
    rw [← hex.2.2] at hheld
    obtain ⟨hlimit', htake⟩ := take_cases (by simpa [DbOp.needsConn] using htake)
    obtain ⟨hm, hr⟩ := release_cases pool (resetSession c session) c.keep
    rw [poolAfter] at hpool
    refine ⟨by rw [hpool, hm, hlimit', hlimit], ?_, ?_⟩ <;> rw [hpool] <;> omega
  · rw [ho] at htake
    cases htake
    rw [poolAfter_statement ho] at hpool
    split at hpool
    · rename_i t hb ha
      rw [hb, ha] at hheld
      simp only [Option.isSome_some, Option.isSome_none, Bool.false_eq_true, if_false,
        if_true] at hheld
      obtain ⟨hm, hr⟩ := release_cases s.pool t.session c.keep
      refine ⟨by rw [hpool, hm, hlimit], ?_, ?_⟩ <;> rw [hpool] <;> omega
    · rename_i hkeep
      have hsame : (s'.conn i).isSome = (s.conn i).isSome := by
        cases hb : s.conn i with
        | none =>
          rw [hb] at hex
          rw [execOp_none hne hex]
        | some t =>
          cases ha : s'.conn i with
          | none => exact absurd ha (hkeep t hb)
          | some t' => rfl
      rw [hsame] at hheld
      refine ⟨by rw [hpool, hlimit], ?_, ?_⟩ <;> rw [hpool] <;> omega

/-! ## Progress -/

/-- The next operation of the program is the reset of the settings through the pool. -/
def atReset {α : Type} : DbProg α → Bool
  | .op .resetExec _ => true
  | _ => false

/-- Call `i` holds the connection of a failed transaction and waits for another one. -/
def waits (s : CallStates ι) (i : ι) : Bool :=
  (s.shared.conn i).any OpenTx.failed && atReset (s.prog i)

/-- The calls waiting in the error clean-up. -/
def waiting (s : CallStates ι) : Finset ι := Finset.univ.filter fun i => waits s i

/-- In this step a statement of the call's open transaction fails. -/
def statementFails (pg : Pg) (s : CallStates ι) (l : ι × PoolChoice) : Bool :=
  match Threads.step (dbSem pg) s l with
  | some t => !(s.shared.conn l.1).any OpenTx.failed && (t.shared.conn l.1).any OpenTx.failed
  | none => false

/-- A statement fails only while the clean-ups, this one included, leave a connection. -/
def FailsWithConnectionLeft (pg : Pg) (s : CallStates ι) (l : ι × PoolChoice) : Prop :=
  statementFails pg s l = true → (waiting s).card + 1 < s.shared.pool.max

instance (s : CallStates ι) (l : ι × PoolChoice) : Decidable (FailsWithConnectionLeft pg s l) :=
  inferInstanceAs (Decidable (_ → _))

/-- A call that comes to wait in the clean-up does so because a statement has failed. -/
theorem waits_step {s : CallStates ι} {i : ι} {o : DbOp}
    {k : Reply o → DbProg (Except String Answer)} {c : PoolChoice} {r : Reply o} {s' : Shared ι}
    (hpoints : AtPoints calls s) (hp : s.prog i = .op o k)
    (h : dbSem pg s.shared i o c = some (r, s'))
    (hw : waits ⟨s', Function.update s.prog i (k r)⟩ i = true) :
    waits s i = true ∨ statementFails pg s (i, c) = true := by
  simp only [waits, Bool.and_eq_true] at hw
  cases hb : (s.shared.conn i).any OpenTx.failed with
  | false =>
    refine Or.inr ?_
    rw [statementFails, Threads.step_of_op hp h]
    simp only [hb, hw.1]
    rfl
  | true =>
    refine Or.inl ?_
    obtain ⟨t, ht, hfailed⟩ := (Option.any_eq_true _ _).mp hb
    obtain ⟨k', hop⟩ | ⟨k', hop⟩ := ((hpoints i).failed t ht).mp hfailed
    · rw [waits, hb, hop]
      rfl
    · -- a rollback ends the transaction
      rw [hp] at hop
      cases hop
      obtain ⟨session, pool, -, hex, -⟩ := dbSem_eq_some h
      simp only [execOp, Prod.mk.injEq] at hex
      rw [← hex.2.2] at hw
      exact absurd hw.1 (by simp)

theorem waiting_step {s : CallStates ι} {i : ι} {o : DbOp}
    {k : Reply o → DbProg (Except String Answer)} {c : PoolChoice} {r : Reply o} {s' : Shared ι}
    (hpoints : AtPoints calls s) (hp : s.prog i = .op o k)
    (hok : FailsWithConnectionLeft pg s (i, c))
    (h : dbSem pg s.shared i o c = some (r, s')) (hw : (waiting s).card < s.shared.pool.max) :
    (waiting ⟨s', Function.update s.prog i (k r)⟩).card < s.shared.pool.max := by
  -- the other calls wait as before
  have hothers : ∀ j, j ≠ i → waits ⟨s', Function.update s.prog i (k r)⟩ j = waits s j := by
    intro j hj
    have hconn : s'.conn j = s.shared.conn j := congrArg Local.tx (dbSem_frame h hj)
    simp only [waits, hconn, Function.update_of_ne hj]
  by_cases hi : waits ⟨s', Function.update s.prog i (k r)⟩ i = true → waits s i = true
  · refine lt_of_le_of_lt (Finset.card_le_card fun j hj => ?_) hw
    rw [waiting, Finset.mem_filter] at hj ⊢
    refine ⟨hj.1, ?_⟩
    by_cases hji : j = i
    · subst hji
      exact hi hj.2
    · exact hothers j hji ▸ hj.2
  · rw [Classical.not_imp] at hi
    have hfails := (waits_step hpoints hp h hi.1).resolve_left hi.2
    calc (waiting ⟨s', Function.update s.prog i (k r)⟩).card
        ≤ (insert i (waiting s)).card := by
          refine Finset.card_le_card fun j hj => ?_
          rw [Finset.mem_insert]
          by_cases hji : j = i
          · exact Or.inl hji
          · rw [waiting, Finset.mem_filter] at hj ⊢
            exact Or.inr ⟨hj.1, hothers j hji ▸ hj.2⟩
      _ ≤ (waiting s).card + 1 := Finset.card_insert_le _ _
      _ < s.shared.pool.max := hok hfails

omit [DecidableEq ι] in
/-- Calls that hold a connection and all need another one wait in the clean-up. -/
theorem held_le_waiting {s : CallStates ι} (hpoints : AtPoints calls s)
    (hneeds : ∀ j o k, s.prog j = .op o k → o.needsConn = true) :
    held s.shared ≤ (waiting s).card := by
  rw [held, ← Finset.card_filter]
  refine Finset.card_le_card fun j hj => ?_
  rw [waiting, Finset.mem_filter]
  refine ⟨Finset.mem_univ j, ?_⟩
  obtain ⟨t, ht⟩ := Option.isSome_iff_exists.mp (Finset.mem_filter.mp hj).2
  have hlocal : (s.shared.local j).tx = some t := ht
  cases hp : s.prog j with
  | ret a =>
    rw [((hpoints j).ret a hp).1] at hlocal
    cases hlocal
  | op o k =>
    obtain rfl | rfl | ⟨-, ho⟩ := needsConn_cases o
    · rw [(hpoints j).begin k hp] at hlocal
      cases hlocal
    · have hfailed := ((hpoints j).failed t hlocal).mpr (Or.inl ⟨k, hp⟩)
      simp [waits, ht, hfailed, hp, atReset]
    · rw [hneeds j o k hp] at ho
      cases ho

/-- A call can step unless it needs a connection and there is none. -/
theorem exists_step {s : CallStates ι} {i : ι} {o : DbOp}
    {k : Reply o → DbProg (Except String Answer)} {c : PoolChoice} (hp : s.prog i = .op o k)
    (hconn : o.needsConn = false ∨ (s.shared.pool.take c.pick).isSome) :
    ∃ t, Threads.step (dbSem pg) s (i, c) = some t := by
  have hsome : (dbSem pg s.shared i o c).isSome := by
    rw [dbSem, Option.isSome_map]
    split
    · rename_i ho
      exact hconn.resolve_left (by simp [ho])
    · rfl
  obtain ⟨⟨r, s'⟩, hsem⟩ := Option.isSome_iff_exists.mp hsome
  exact ⟨_, Threads.step_of_op hp hsem⟩

theorem poolInv_of_reachable (hmax : 0 < max) {s : CallStates ι}
    (h : (callSystem pg max client calls).ReachableIf (FailsWithConnectionLeft pg) s) :
    (PoolInv max s.shared ∧ (waiting s).card < max) ∧ AtPoints calls s := by
  refine callSystem_invariant (I := fun s => PoolInv max s.shared ∧ (waiting s).card < max)
    ?_ ?_ h
  · refine ⟨⟨rfl, ?_, Nat.zero_le _⟩, ?_⟩
    · simp [startState, held]
    · simpa [waiting, waits, startState] using hmax
  · rintro s i o k c r s' ⟨hinv, hwait⟩ hpoints hp hok hsem
    refine ⟨poolInv_step hinv (fun ho => ?_) hsem, ?_⟩
    · subst ho
      exact (hpoints i).begin k hp
    · rw [← hinv.limit] at hwait ⊢
      exact waiting_step hpoints hp hok hsem hwait

/-- **No deadlock while a connection is left.** In a run in which a statement fails only
while the clean-ups leave a connection, a call can step whenever one has not returned. -/
theorem pool_progress (hmax : 0 < max) {s : CallStates ι}
    (h : (callSystem pg max client calls).ReachableIf (FailsWithConnectionLeft pg) s)
    (hrun : ∃ i, ∀ a, s.prog i ≠ .ret a) :
    ∃ l t, Threads.step (dbSem pg) s l = some t := by
  obtain ⟨⟨hinv, hwait⟩, hpoints⟩ := poolInv_of_reachable hmax h
  by_cases hfree : ∃ j o k, s.prog j = .op o k ∧ o.needsConn = false
  · obtain ⟨j, o, k, hp, ho⟩ := hfree
    exact ⟨(j, .plain), exists_step hp (Or.inl ho)⟩
  · obtain ⟨i, hi⟩ := hrun
    cases hp : s.prog i with
    | ret a => exact absurd hp (hi a)
    | op o k =>
      have hneeds : ∀ j o k, s.prog j = .op o k → o.needsConn = true := by
        intro j o k hj
        by_contra hn
        exact hfree ⟨j, o, k, hj, by simpa using hn⟩
      have hheld := held_le_waiting hpoints hneeds
      have htake : (s.shared.pool.take 0).isSome := by
        refine take_isSome ?_
        by_cases hf : s.shared.pool.free = []
        · refine Or.inr ?_
          have hcount := hinv.count
          rw [hf, List.length_nil] at hcount
          rw [hinv.limit]
          omega
        · exact Or.inl hf
      exact ⟨(i, .plain), exists_step hp (Or.inr htake)⟩

/-- One overflowing transfer waits in its clean-up, in a pool of two connections. -/
theorem pool_progress_one_failure :
    ∃ s, LTS.runIf (Threads.step (dbSem Pg.utc)) (FailsWithConnectionLeft Pg.utc)
        (startState 2 ⟨"secret"⟩ fun _ : Fin 1 => overflowing tenantA)
        (List.replicate 4 (0, .plain)) = some s ∧
      (waiting s).card = 1 ∧ ∃ l t, Threads.step (dbSem Pg.utc) s l = some t := by
  have hrun : (LTS.runIf (Threads.step (dbSem Pg.utc)) (FailsWithConnectionLeft Pg.utc)
      (startState 2 ⟨"secret"⟩ fun _ : Fin 1 => overflowing tenantA)
      (List.replicate 4 (0, .plain))).any fun s => (waiting s).card = 1 := by
    decide
  obtain ⟨s, hs, hcard⟩ := (Option.any_eq_true _ _).mp hrun
  rw [decide_eq_true_eq] at hcard
  refine ⟨s, hs, hcard, pool_progress (by decide) (LTS.reachableIf_of_runIf (.init rfl) hs) ?_⟩
  refine ⟨0, fun a ha => ?_⟩
  obtain ⟨i, hi⟩ := Finset.card_pos.mp (by omega : 0 < (waiting s).card)
  rw [waiting, Finset.mem_filter, waits, Subsingleton.elim i 0, ha] at hi
  simp [atReset] at hi

/-! ## The wedge -/

section Wedge

variable (pg) {s : CallStates ι} {i : ι}

theorem step_begin {k : Except String Unit → DbProg (Except String Answer)}
    (hp : s.prog i = .op .begin k) (hfree : s.shared.pool.free = [])
    (hopen : s.shared.pool.numOpen < s.shared.pool.max) :
    ∃ t, Threads.step (dbSem pg) s (i, .plain) = some t ∧
      t.shared.pool = { s.shared.pool with numOpen := s.shared.pool.numOpen + 1 } ∧
      t.shared.conn i = some (OpenTx.start Settings.unset 0) ∧ t.prog i = k (.ok ()) ∧
      ∀ j, j ≠ i → t.prog j = s.prog j := by
  have htake : s.shared.pool.take 0 = some (Settings.unset,
      { s.shared.pool with numOpen := s.shared.pool.numOpen + 1 }) := by
    simp [Pool.take, hfree, hopen]
  have hsem : dbSem pg s.shared i .begin .plain = some (.ok (),
      { db := s.shared.db
        pool := { s.shared.pool with numOpen := s.shared.pool.numOpen + 1 }
        conn := Function.update s.shared.conn i (some (OpenTx.start Settings.unset 0))
        byCall := Function.update s.shared.byCall i
          ((s.shared.byCall i).append (committedBy .begin (.ok ()) (s.shared.conn i))) }) := by
    simp only [dbSem, DbOp.needsConn, if_true, PoolChoice.plain, htake, Option.map_some]
    rfl
  exact ⟨_, Threads.step_of_op hp hsem, rfl, Function.update_self .., Function.update_self ..,
    fun j hj => Function.update_of_ne hj ..⟩

theorem step_statement {o : DbOp} {k : Reply o → DbProg (Except String Answer)}
    {c : PoolChoice} {t t' : OpenTx} {r : Reply o} {db' : Db} (hp : s.prog i = .op o k)
    (ho : o.needsConn = false) (ht : s.shared.conn i = some t)
    (hex : execOp pg Settings.unset (choiceOf s.shared i c o) o s.shared.db (some t) =
      (r, db', some t')) :
    ∃ u, Threads.step (dbSem pg) s (i, c) = some u ∧ u.shared.pool = s.shared.pool ∧
      u.shared.conn i = some t' ∧ u.prog i = k r ∧ ∀ j, j ≠ i → u.prog j = s.prog j := by
  have hsem : dbSem pg s.shared i o c = some (r,
      { db := db', pool := s.shared.pool, conn := Function.update s.shared.conn i (some t'),
        byCall := Function.update s.shared.byCall i
          ((s.shared.byCall i).append (committedBy o r (some t))) }) := by
    simp only [dbSem, ho, Bool.false_eq_true, if_false, Option.map_some, ht, hex,
      poolAfter_statement ho]
  exact ⟨_, Threads.step_of_op hp hsem, rfl, Function.update_self .., Function.update_self ..,
    fun j hj => Function.update_of_ne hj ..⟩

/-- Its insert fails. -/
theorem execOp_overflowing (session : Settings) (c : Choice) (db : Db) {t : OpenTx}
    (tenantID : String) (hf : t.failed = false) :
    ∃ e, execOp pg session c (.insertTransaction tenantID ⟨10 ^ 15, 0⟩ "") db (some t) =
      (.error e, db, some t.abort) := by
  have hrow : ∃ e, insertTransactionRow db t c tenantID ⟨10 ^ 15, 0⟩ "" = .error e := by
    unfold insertTransactionRow
    split
    · exact ⟨_, rfl⟩
    · exact ⟨_, rfl⟩
  obtain ⟨e, hrow⟩ := hrow
  simp only [execOp, onTx, hf, hrow, Bool.false_eq_true, if_false]
  cases c.fail with
  | some e' => exact ⟨e', rfl⟩
  | none => exact ⟨e, rfl⟩

/-- Four steps take the call into the clean-up, where it keeps its connection. -/
theorem reachable_into_cleanup {tenantID : String}
    (hs : (callSystem pg max client calls).Reachable s)
    (hp : s.prog i = (overflowing tenantID).program client) (hfree : s.shared.pool.free = [])
    (hopen : s.shared.pool.numOpen < s.shared.pool.max) :
    ∃ t, (callSystem pg max client calls).Reachable t ∧
      t.shared.pool = { s.shared.pool with numOpen := s.shared.pool.numOpen + 1 } ∧
      atReset (t.prog i) = true ∧ ∀ j, j ≠ i → t.prog j = s.prog j := by
  simp only [overflowing, Call.program, createTransaction, mapResult_withTx, mapResult_op,
    mapResult_orCleanup, mapResult_commitAndReset] at hp
  obtain ⟨s₁, hst₁, hpool₁, hconn₁, hp₁, hframe₁⟩ := step_begin pg hp hfree hopen
  obtain ⟨s₂, hst₂, hpool₂, hconn₂, hp₂, hframe₂⟩ :=
    step_statement pg (c := .plain) hp₁ rfl hconn₁ rfl
  obtain ⟨s₃, hst₃, hpool₃, hconn₃, hp₃, hframe₃⟩ :=
    step_statement pg (c := .plain) hp₂ rfl hconn₂ rfl
  obtain ⟨t, ht, hintact⟩ : ∃ t, s₃.shared.conn i = some t ∧ t.failed = false :=
    ⟨_, hconn₃, rfl⟩
  obtain ⟨e, hex⟩ := execOp_overflowing pg Settings.unset
    (choiceOf s₃.shared i .plain (.insertTransaction tenantID ⟨10 ^ 15, 0⟩ ""))
    s₃.shared.db tenantID hintact
  obtain ⟨s₄, hst₄, hpool₄, -, hp₄, hframe₄⟩ :=
    step_statement pg (c := .plain) hp₃ rfl ht hex
  refine ⟨s₄, (((hs.step trivial hst₁).step trivial hst₂).step trivial hst₃).step trivial hst₄,
    by rw [hpool₄, hpool₃, hpool₂, hpool₁], by rw [hp₄]; rfl, fun j hj => ?_⟩
  rw [hframe₄ j hj, hframe₃ j hj, hframe₂ j hj, hframe₁ j hj]

end Wedge

variable (pg client)

/-- After `n` of the calls, `n` connections are held by calls waiting for another one. -/
theorem reachable_held {N : ℕ} (tenantID : String) {n : ℕ} (hn : n ≤ N) :
    ∃ s, (callSystem pg N client fun _ : Fin N => overflowing tenantID).Reachable s ∧
      s.shared.pool = ⟨N, [], n⟩ ∧ (∀ i : Fin N, i.val < n → atReset (s.prog i) = true) ∧
      ∀ i : Fin N, n ≤ i.val → s.prog i = (overflowing tenantID).program client := by
  induction n with
  | zero => exact ⟨_, .init rfl, rfl, nofun, fun _ _ => rfl⟩
  | succ n ih =>
    obtain ⟨s, hs, hpool, hreset, hstart⟩ := ih (Nat.le_of_succ_le hn)
    obtain ⟨t, ht, hpool', hreset', hframe⟩ := reachable_into_cleanup pg (i := ⟨n, hn⟩) hs
      (hstart _ le_rfl) (by rw [hpool]) (by rw [hpool]; exact hn)
    refine ⟨t, ht, by rw [hpool', hpool], fun i hi => ?_, fun i hi => ?_⟩
    · by_cases hin : i = ⟨n, hn⟩
      · rw [hin]
        exact hreset'
      · rw [hframe i hin]
        exact hreset i (lt_of_le_of_ne (Nat.le_of_lt_succ hi) fun h => hin (Fin.ext h))
    · rw [hframe i fun h => by rw [h] at hi; exact absurd hi (by simp)]
      exact hstart i (Nat.le_of_succ_le hi)

/-- A call that waits for a connection cannot step while there is none. -/
theorem step_eq_none {pg : Pg} {s : CallStates ι} {i : ι} {c : PoolChoice}
    (hreset : atReset (s.prog i) = true) (hfree : s.shared.pool.free = [])
    (hopen : s.shared.pool.numOpen = s.shared.pool.max) :
    Threads.step (dbSem pg) s (i, c) = none := by
  unfold atReset at hreset
  split at hreset
  · rename_i k hp
    rw [Threads.step, hp]
    simp only [dbSem, DbOp.needsConn, if_true, take_eq_none hfree hopen, Option.map_none]
  · cases hreset

/-- **The wedge.** For every size of the pool there is a reachable state in which all
connections are held by calls that wait for a further one, and no call can step. -/
theorem reachable_wedge {N : ℕ} (hN : 0 < N) (tenantID : String) :
    ∃ s, (callSystem pg N client fun _ : Fin N => overflowing tenantID).Reachable s ∧
      (∃ i, ∀ a, s.prog i ≠ .ret a) ∧ ∀ l, Threads.step (dbSem pg) s l = none := by
  obtain ⟨s, hs, hpool, hreset, -⟩ := reachable_held pg client tenantID
    (le_refl N)
  refine ⟨s, hs, ⟨⟨0, hN⟩, fun a ha => ?_⟩, fun l => ?_⟩
  · have h0 := hreset ⟨0, hN⟩ hN
    rw [ha] at h0
    cases h0
  · exact step_eq_none (hreset l.1 l.1.isLt) (by rw [hpool]) (by rw [hpool])

/-- Twenty-five transfers of 10^15 at once stop the gateway for good. -/
theorem pool_deadlocks :
    ∃ s, (callSystem Pg.utc 25 ⟨"secret"⟩ fun _ : Fin 25 =>
        overflowing tenantA).Reachable s ∧
      (∃ i, ∀ a, s.prog i ≠ .ret a) ∧ ∀ l, Threads.step (dbSem Pg.utc) s l = none :=
  reachable_wedge _ _ (by decide) _

end Audit
end DarkServices
