import DarkServices.Audit.PoolTheorems
import Mathlib.Data.Fintype.Card

/-!
# Every run of concurrent calls ends

A call takes at most eight operations, so the runs are bounded by the calls alone. Where a run
cannot go on, all calls have returned and all connections are back, or the clean-ups hold every
connection there may be and each waits for one more.
-/

namespace DarkServices
namespace Audit

open Lib

variable {pg : Pg}

/-! ## The length of a call -/

section Programs

variable {α β : Type} {n : ℕ}

theorem within_cleanup (e : String) : Prog.Within 2 (cleanup e : DbProg (Except String α)) :=
  fun _ _ => trivial

theorem within_orCleanup {msg : String} {r : Except String β} {k : β → DbProg (Except String α)}
    (h : ∀ b, Prog.Within (n + 2) (k b)) : Prog.Within (n + 2) (orCleanup msg r k) := by
  cases r with
  | error e => exact (within_cleanup _).mono (Nat.le_add_left 2 n)
  | ok b => exact h b

theorem within_commitAndReset (a : α) :
    Prog.Within 3 (commitAndReset a : DbProg (Except String α)) :=
  fun _ => within_orCleanup fun _ _ => Prog.within_ret _ _

theorem within_withTx {c : DBClient} {tenantID : String} {body : DbProg (Except String α)}
    (h : Prog.Within (n + 2) body) : Prog.Within (n + 5) (withTx c tenantID body) := by
  intro r
  cases r with
  | error e => exact Prog.within_ret _ _
  | ok _ => exact fun _ => within_orCleanup fun _ _ => within_orCleanup fun _ => h

/-- No call takes more than eight operations: three to set up, two for its rows, the commit, and
the clean-up. -/
theorem call_within (client : DBClient) (call : Call) :
    Prog.Within 8 (call.program client) := by
  cases call with
  | createTransaction tenantID amount description actorSub =>
    simp only [Call.program, createTransaction, mapResult_withTx, mapResult_op,
      mapResult_orCleanup, mapResult_commitAndReset]
    refine within_withTx (n := 3) fun _ => within_orCleanup fun _ _ => within_orCleanup fun _ => ?_
    exact within_commitAndReset _
  | getBalance tenantID actorSub =>
    simp only [Call.program, getBalance, mapResult_withTx, mapResult_op,
      mapResult_orCleanup, mapResult_commitAndReset]
    refine within_withTx (n := 3) fun _ => within_orCleanup fun _ _ => within_orCleanup fun _ => ?_
    exact within_commitAndReset _
  | getAuditLogs tenantID =>
    simp only [Call.program, getAuditLogs, mapResult_withTx, mapResult_op,
      mapResult_orCleanup, mapResult_commitAndReset]
    refine within_withTx (n := 3) fun _ => within_orCleanup fun _ => ?_
    exact (within_commitAndReset _).mono (by omega)

end Programs

/-! ## Where a run stops -/

section Stops

variable {ι : Type} [DecidableEq ι] [Fintype ι] {max : ℕ} {client : DBClient} {calls : ι → Call}

/-- All calls have returned. -/
def Finished (s : CallStates ι) : Prop := ∀ i, ∃ a, s.prog i = .ret a

/-- The clean-ups hold all connections, and every call that has not returned needs one. -/
structure Wedged (s : CallStates ι) : Prop where
  held : (waiting s).card = s.shared.pool.max
  needs : ∀ i o k, s.prog i = .op o k → o.needsConn = true

omit [DecidableEq ι] in
/-- A call that waits in its clean-up holds a connection. -/
theorem waiting_le_held (s : CallStates ι) : (waiting s).card ≤ held s.shared := by
  rw [held, ← Finset.card_filter]
  refine Finset.card_le_card fun j hj => ?_
  rw [waiting, Finset.mem_filter, waits, Bool.and_eq_true] at hj
  obtain ⟨t, ht, -⟩ := (Option.any_eq_true _ _).mp hj.2.1
  rw [Finset.mem_filter, ht]
  exact ⟨Finset.mem_univ j, rfl⟩

omit [DecidableEq ι] in
theorem held_of_finished {s : CallStates ι} (hpoints : AtPoints calls s) (h : Finished s) :
    held s.shared = 0 := by
  refine Finset.sum_eq_zero fun i _ => ?_
  obtain ⟨a, ha⟩ := h i
  have hnone : s.shared.conn i = none := ((hpoints i).ret a ha).1
  rw [hnone]
  rfl

/-- The pool of a state that cannot go on has nothing to give. -/
theorem take_eq_none_of_stuck {s : CallStates ι} {i : ι} {o : DbOp}
    {k : Reply o → DbProg (Except String Answer)} (hp : s.prog i = .op o k)
    (hstuck : ∀ l, Threads.step (dbSem pg) s l = none) :
    o.needsConn = true ∧ s.shared.pool.free = [] ∧
      s.shared.pool.max ≤ s.shared.pool.numOpen := by
  have hno : ¬ (o.needsConn = false ∨ (s.shared.pool.take 0).isSome = true) := by
    intro hconn
    obtain ⟨t, ht⟩ : ∃ t, Threads.step (dbSem pg) s (i, .plain) = some t :=
      exists_step hp hconn
    rw [hstuck] at ht
    cases ht
  obtain ⟨hneeds, htake⟩ := not_or.mp hno
  refine ⟨by simpa using hneeds, ?_, ?_⟩
  · by_contra hfree
    exact htake (take_isSome (Or.inl hfree))
  · by_contra hopen
    exact htake (take_isSome (Or.inr (by omega)))

theorem stuck_iff {s : CallStates ι} (hpool : PoolInv max s.shared) (hpoints : AtPoints calls s) :
    (∀ l, Threads.step (dbSem pg) s l = none) ↔ Finished s ∨ Wedged s := by
  constructor
  · intro hstuck
    by_cases hfinished : Finished s
    · exact Or.inl hfinished
    · -- a call that has not returned finds no connection, so the clean-ups hold all of them
      have hneeds : ∀ i o k, s.prog i = .op o k → o.needsConn = true :=
        fun i o k hp => (take_eq_none_of_stuck hp hstuck).1
      obtain ⟨i, hi⟩ := not_forall.mp hfinished
      obtain ⟨hfree, hopen⟩ : s.shared.pool.free = [] ∧
          s.shared.pool.max ≤ s.shared.pool.numOpen := by
        cases hp : s.prog i with
        | ret a => exact absurd ⟨a, hp⟩ hi
        | op o k => exact (take_eq_none_of_stuck hp hstuck).2
      have hle := held_le_waiting hpoints hneeds
      have hge := waiting_le_held s
      have hcount := hpool.count
      rw [hfree, List.length_nil] at hcount
      have hbound := hpool.bound
      have hlimit := hpool.limit
      exact Or.inr ⟨by omega, hneeds⟩
  · rintro (hfinished | hwedged) ⟨i, c⟩
    · obtain ⟨a, ha⟩ := hfinished i
      simp only [Threads.step, ha]
    · cases hp : s.prog i with
      | ret a => simp only [Threads.step, hp]
      | op o k =>
        have hge := waiting_le_held s
        have hcount := hpool.count
        have hbound := hpool.bound
        have hlimit := hpool.limit
        have hheld := hwedged.held
        have hfree : s.shared.pool.free = [] := List.length_eq_zero_iff.mp (by omega)
        have hopen : s.shared.pool.numOpen = s.shared.pool.max := by omega
        simp only [Threads.step, hp, dbSem, hwedged.needs i o k hp, if_true,
          take_eq_none hfree hopen, Option.map_none]

/-- The connections are counted in every reachable state. -/
theorem poolInv_of_run {s : CallStates ι} (h : (callSystem pg max client calls).Reachable s) :
    PoolInv max s.shared ∧ AtPoints calls s := by
  refine callSystem_invariant (I := fun s => PoolInv max s.shared) ?_ ?_ h
  · exact ⟨rfl, by simp [startState, held], Nat.zero_le _⟩
  · intro s i o k c r s' hinv hpoints hp _ hsem
    refine poolInv_step hinv (fun ho => ?_) hsem
    subst ho
    exact (hpoints i).begin k hp

/-- **Termination.** Every run of the calls is bounded; it can be extended unless all calls have
returned or the pool is wedged; when all have returned no connection is held; and the pool cannot
be wedged by fewer calls than it has connections. -/
theorem runs_end {ls : List (ι × PoolChoice)} {s : CallStates ι}
    (h : LTS.run (Threads.step (dbSem pg)) (startState max client calls) ls = some s) :
    ls.length ≤ 8 * Fintype.card ι ∧
      ((∀ l, Threads.step (dbSem pg) s l = none) ↔ Finished s ∨ Wedged s) ∧
      (Finished s → s.shared.pool.numOpen = s.shared.pool.free.length) ∧
      (Fintype.card ι < max → ¬ Wedged s) := by
  have hreach : (callSystem pg max client calls).Reachable s :=
    LTS.reachable_of_run (.init rfl) h
  obtain ⟨hpool, hpoints⟩ := poolInv_of_run hreach
  refine ⟨?_, stuck_iff hpool hpoints, fun hfinished => ?_, fun hcard hwedged => ?_⟩
  · have hwithin : ∀ i, Prog.Within 8 ((startState max client calls).prog i) :=
      fun i => call_within client (calls i)
    obtain ⟨m, -, hlength⟩ := Threads.run_length (n := fun _ => 8) hwithin h
    have htotal : ∑ _i : ι, 8 = Fintype.card ι * 8 := Finset.sum_const_nat fun _ _ => rfl
    omega
  · have hcount := hpool.count
    rw [held_of_finished hpoints hfinished] at hcount
    exact hcount
  · have hle : (waiting s).card ≤ Fintype.card ι := Finset.card_le_univ _
    have hlimit := hpool.limit
    have hheld := hwedged.held
    omega

/-- Two calls over two connections, one after the other. -/
theorem runs_end_two :
    ∃ s, LTS.run (Threads.step (dbSem Pg.utc)) (startState 2 ⟨"secret"⟩ fun _ : Fin 2 =>
        .getAuditLogs tenantA) (List.replicate 6 (0, .plain) ++ List.replicate 6 (1, .plain)) =
          some s ∧ 12 ≤ 8 * Fintype.card (Fin 2) ∧
      ((∀ l, Threads.step (dbSem Pg.utc) s l = none) ↔ Finished s ∨ Wedged s) := by
  have hrun : (LTS.run (Threads.step (dbSem Pg.utc)) (startState 2 ⟨"secret"⟩ fun _ : Fin 2 =>
      .getAuditLogs tenantA)
      (List.replicate 6 (0, .plain) ++ List.replicate 6 (1, .plain))).isSome := by
    decide
  obtain ⟨s, hs⟩ := Option.isSome_iff_exists.mp hrun
  obtain ⟨hlength, hstuck, -⟩ := runs_end hs
  exact ⟨s, hs, hlength, hstuck⟩

end Stops

end Audit
end DarkServices
