import DarkServices.Lib.Transition
import Mathlib.Algebra.BigOperators.Group.Finset.Basic
import Mathlib.Data.Fintype.Basic
import Mathlib.Tactic.Abel

/-!
# Programs over atomic operations, and their interleavings

A `Prog` asks for one atomic operation after another, the next one chosen from the reply
to the last, and ends in a result. The same program text has two meanings:

* `Prog.exec` runs it alone, over a total meaning of the operations;
* `Threads` runs a family of programs over a shared state, one operation of one of them at
  a time, over a meaning that may also block.

Six rules carry the proofs about programs.

* `Prog.Always` is an assertion about every point a program can reach, over the part of the
  state that belongs to it alone. It is proved by walking through the program text once.
* `Prog.Related.exec` relates two runs of related programs.
* `Threads.decided` finds the moment of a run at which the result of a thread was decided.
* `Threads.run_length` bounds the runs of programs of bounded length.
* `Threads.exists_log` explains a run by the order of its operations.
* `Threads.invariant` is the rule of Owicki and Gries: an invariant of the shared state and
  an assertion for each thread hold in every reachable state when every operation keeps the
  invariant, moves the assertion of its own thread and leaves those of the others in place.
-/

namespace Lib

/-- A program over operations `O`, an operation `o` being answered in `R o`. -/
inductive Prog (O : Type) (R : O → Type) (α : Type)
  | ret (a : α)
  | op (o : O) (k : R o → Prog O R α)

namespace Prog

variable {O : Type} {R : O → Type} {α : Type} {σ : Type*}

/-- Run a program alone. -/
def exec (sem : (o : O) → σ → R o × σ) : Prog O R α → σ → α × σ
  | ret a, s => (a, s)
  | op o k, s => exec sem (k (sem o s).1) (sem o s).2

@[simp] theorem exec_ret (sem : (o : O) → σ → R o × σ) (a : α) (s : σ) :
    exec sem (ret a : Prog O R α) s = (a, s) := rfl

@[simp] theorem exec_op (sem : (o : O) → σ → R o × σ) (o : O) (k : R o → Prog O R α) (s : σ) :
    exec sem (op o k) s = exec sem (k (sem o s).1) (sem o s).2 := rfl

/-- Go on with a program that depends on the result. -/
def bind {β : Type} : Prog O R α → (α → Prog O R β) → Prog O R β
  | ret a, f => f a
  | op o k, f => op o fun r => bind (k r) f

@[simp] theorem ret_bind {β : Type} (a : α) (f : α → Prog O R β) : bind (ret a) f = f a := rfl

@[simp] theorem op_bind {β : Type} (o : O) (k : R o → Prog O R α) (f : α → Prog O R β) :
    bind (op o k) f = op o fun r => bind (k r) f := rfl

/-- What every operation preserves, a run preserves. -/
theorem exec_invariant {sem : (o : O) → σ → R o × σ} {I : σ → Prop}
    (hI : ∀ o s, I s → I (sem o s).2) (p : Prog O R α) {s : σ} (hs : I s) :
    I (exec sem p s).2 := by
  induction p generalizing s with
  | ret a => exact hs
  | op o k ih => exact ih _ (hI o s hs)

/-! ## Assertions about every point of a program -/

section Always

variable {L : Type*} {rel : (o : O) → L → R o → L → Prop} {inv inv' : Prog O R α → L → Prop}

/-- `inv` holds at every point the program reaches from the local state `l`, when an
operation may answer and change the local state in any way `rel` allows. -/
def Always (rel : (o : O) → L → R o → L → Prop) (inv : Prog O R α → L → Prop) :
    Prog O R α → L → Prop
  | ret a, l => inv (ret a) l
  | op o k, l => inv (op o k) l ∧ ∀ r l', rel o l r l' → Always rel inv (k r) l'

theorem Always.here {p : Prog O R α} {l : L} (h : Always rel inv p l) : inv p l := by
  cases p with
  | ret a => exact h
  | op o k => exact h.1

theorem Always.next {o : O} {k : R o → Prog O R α} {l l' : L} {r : R o}
    (h : Always rel inv (op o k) l) (hr : rel o l r l') : Always rel inv (k r) l' :=
  h.2 r l' hr

/-- A weaker assertion. -/
theorem Always.imp (h : ∀ p l, inv p l → inv' p l) {p : Prog O R α} {l : L}
    (hp : Always rel inv p l) : Always rel inv' p l := by
  induction p generalizing l with
  | ret a => exact h _ _ hp
  | op o k ih => exact ⟨h _ _ hp.1, fun r l' hr => ih r (hp.2 r l' hr)⟩

/-- An assertion that always holds needs no walk through the program. -/
theorem Always.of_forall (h : ∀ p l, inv p l) (p : Prog O R α) (l : L) : Always rel inv p l := by
  induction p generalizing l with
  | ret a => exact h _ l
  | op o k ih => exact ⟨h _ l, fun r l' _ => ih r l'⟩

/-- A run of the program alone ends where the assertion says, when `S` ties the state of the
run to the local state. -/
theorem exec_always {sem : (o : O) → σ → R o × σ} {S : σ → L → Prop}
    (hsem : ∀ o s l, S s l → ∃ l', rel o l (sem o s).1 l' ∧ S (sem o s).2 l')
    {p : Prog O R α} {s : σ} {l : L} (h : Always rel inv p l) (hs : S s l) :
    ∃ l', S (exec sem p s).2 l' ∧ inv (ret (exec sem p s).1) l' := by
  induction p generalizing s l with
  | ret a => exact ⟨l, hs, h⟩
  | op o k ih =>
    obtain ⟨l', hrel, hs'⟩ := hsem o s l hs
    exact ih _ (h.next hrel) hs'

end Always

/-! ## Two runs -/

section Related

variable {P : O → Prop} {sim : (o : O) → R o → R o → Prop} {Q : α → α → Prop}

/-- Two programs ask for the same operations, all of the kind `P`, and go on in a related
way after replies that `sim` relates; their results are related by `Q`. -/
inductive Related (P : O → Prop) (sim : (o : O) → R o → R o → Prop) (Q : α → α → Prop) :
    Prog O R α → Prog O R α → Prop
  | ret {a b : α} : Q a b → Related P sim Q (ret a) (ret b)
  | op {o : O} {k k' : R o → Prog O R α} : P o →
      (∀ r r', sim o r r' → Related P sim Q (k r) (k' r')) →
      Related P sim Q (op o k) (op o k')

/-- Related programs started in related states end with related results, in related
states, when every operation of the kind keeps the states related and answers alike. -/
theorem Related.exec {p p' : Prog O R α} (hp : Related P sim Q p p')
    {sem sem' : (o : O) → σ → R o × σ} {S : σ → σ → Prop}
    (hsem : ∀ o s s', P o → S s s' →
      sim o (sem o s).1 (sem' o s').1 ∧ S (sem o s).2 (sem' o s').2)
    {s s' : σ} (hs : S s s') :
    Q (Prog.exec sem p s).1 (Prog.exec sem' p' s').1 ∧
      S (Prog.exec sem p s).2 (Prog.exec sem' p' s').2 := by
  induction hp generalizing s s' with
  | ret h => exact ⟨h, hs⟩
  | @op o k k' ho _ ih =>
    obtain ⟨hr, hs'⟩ := hsem o s s' ho hs
    exact ih _ _ hr hs'

end Related

/-! ## Results decided by one operation -/

section Decided

variable {D : (o : O) → R o → α → Prop} {P Q Q' : α → Prop}

/-- Whatever the operations answer, the result is in `Q`. -/
def Results (Q : α → Prop) : Prog O R α → Prop
  | ret a => Q a
  | op _ k => ∀ r, Results Q (k r)

theorem Results.imp (h : ∀ a, Q a → Q' a) {p : Prog O R α} (hp : Results Q p) :
    Results Q' p := by
  induction p with
  | ret a => exact h a hp
  | op o k ih => exact fun r => ih r (hp r)

theorem Results.exec {σ : Type*} {p : Prog O R α} (hp : Results Q p)
    (sem : (o : O) → σ → R o × σ) (s : σ) : Q (Prog.exec sem p s).1 := by
  induction p generalizing s with
  | ret a => exact hp
  | op o k ih => exact ih _ (hp _) _

/-- Of the results in `P`, each is decided by the reply to one operation, as `D` says. -/
def DecidedBy (D : (o : O) → R o → α → Prop) (P : α → Prop) : Prog O R α → Prop
  | ret a => ¬ P a
  | op o k => ∀ r, DecidedBy D P (k r) ∨ Results (fun a => P a → D o r a) (k r)

/-- A program with no result in `P`. -/
theorem DecidedBy.of_results {p : Prog O R α} (h : Results (fun a => ¬ P a) p) :
    DecidedBy D P p := by
  induction p with
  | ret a => exact h
  | op o k ih => exact fun r => Or.inl (ih r (h r))

/-- In a run of the program alone, the deciding operation is one of its points. -/
theorem DecidedBy.exec {σ L : Type*} {sem : (o : O) → σ → R o × σ}
    {rel : (o : O) → L → R o → L → Prop} {inv : Prog O R α → L → Prop} {S : σ → L → Prop}
    (hsem : ∀ o s l, S s l → ∃ l', rel o l (sem o s).1 l' ∧ S (sem o s).2 l')
    {p : Prog O R α} (hd : DecidedBy D P p) {s : σ} {l : L} (h : Always rel inv p l) (hs : S s l)
    (hP : P (exec sem p s).1) :
    ∃ o k s' l', S s' l' ∧ inv (op o k) l' ∧ D o (sem o s').1 (exec sem p s).1 := by
  induction p generalizing s l with
  | ret a => exact absurd hP hd
  | op o k ih =>
    obtain ⟨l', hrel, hs'⟩ := hsem o s l hs
    obtain hnext | hdecided := hd (sem o s).1
    · exact ih _ hnext (h.next hrel) hs' hP
    · exact ⟨o, k, s, l, hs, h.here, hdecided.exec sem _ hP⟩

end Decided

/-! ## Programs of bounded length -/

/-- The program returns after at most `n` operations, whatever they answer. -/
def Within : ℕ → Prog O R α → Prop
  | _, ret _ => True
  | 0, op _ _ => False
  | n + 1, op _ k => ∀ r, Within n (k r)

theorem within_ret (n : ℕ) (a : α) : Within n (ret a : Prog O R α) := by
  cases n <;> exact trivial

/-- A program that has not returned has an operation left, and one less after it. -/
theorem Within.next {n : ℕ} {o : O} {k : R o → Prog O R α} (h : Within n (op o k)) (r : R o) :
    0 < n ∧ Within (n - 1) (k r) := by
  cases n with
  | zero => exact h.elim
  | succ n => exact ⟨Nat.succ_pos n, h r⟩

theorem Within.mono {m n : ℕ} (hmn : m ≤ n) {p : Prog O R α} (h : Within m p) : Within n p := by
  induction p generalizing m n with
  | ret a => exact within_ret n a
  | op o k ih =>
    cases n with
    | zero =>
      have hm : m = 0 := by omega
      rw [hm] at h
      exact h
    | succ n =>
      intro r
      obtain ⟨hpos, hnext⟩ := h.next r
      exact ih r (by omega) hnext

/-- The program has returned without error. -/
def succeeded {ε β : Type} : Prog O R (Except ε β) → Bool
  | .ret (.ok _) => true
  | _ => false

theorem exists_of_succeeded {ε β : Type} {p : Prog O R (Except ε β)} (h : p.succeeded = true) :
    ∃ b, p = .ret (.ok b) := by
  cases p with
  | ret a =>
    cases a with
    | error e => cases h
    | ok b => exact ⟨b, rfl⟩
  | op o k => cases h

/-! ## What a program has done -/

/-- The program has taken operations with these replies, and the second one is left of it. -/
inductive Took : Prog O R α → List ((o : O) × R o) → Prog O R α → Prop
  | nil {p : Prog O R α} : Took p [] p
  | concat {p : Prog O R α} {es : List ((o : O) × R o)} {o : O} {k : R o → Prog O R α} (r : R o) :
      Took p es (op o k) → Took p (es ++ [⟨o, r⟩]) (k r)

theorem Took.of_ret {a : α} {es : List ((o : O) × R o)} {q : Prog O R α}
    (h : Took (ret a) es q) : es = [] ∧ q = ret a := by
  induction h with
  | nil => exact ⟨rfl, rfl⟩
  | concat r _ ih => cases ih.2

/-- A program that has gone on has taken its first operation first. -/
theorem Took.of_op {o : O} {k : R o → Prog O R α} {es : List ((o : O) × R o)} {q : Prog O R α}
    (h : Took (op o k) es q) :
    (es = [] ∧ q = op o k) ∨ ∃ r es', es = ⟨o, r⟩ :: es' ∧ Took (k r) es' q := by
  induction h with
  | nil => exact Or.inl ⟨rfl, rfl⟩
  | concat r _ ih =>
    obtain ⟨rfl, hq⟩ | ⟨r', es', rfl, hrest⟩ := ih
    · cases hq
      exact Or.inr ⟨r, [], rfl, .nil⟩
    · exact Or.inr ⟨r', _, rfl, hrest.concat r⟩

end Prog

/-- A family of programs over a shared state. -/
structure Threads (σ : Type*) (ι : Type*) (O : Type) (R : O → Type) (α : Type) where
  shared : σ
  prog : ι → Prog O R α

namespace Threads

variable {σ ι κ : Type*} [DecidableEq ι] {O : Type} {R : O → Type} {α : Type}

/-- The meaning of an operation of a thread under an outside choice: `none` when the thread
has to wait. -/
abbrev Sem (σ ι κ : Type*) (O : Type) (R : O → Type) :=
  σ → ι → (o : O) → κ → Option (R o × σ)

/-- Thread `l.1` takes its next operation under the choice `l.2`. -/
def step (sem : Sem σ ι κ O R) (s : Threads σ ι O R α) (l : ι × κ) :
    Option (Threads σ ι O R α) :=
  match s.prog l.1 with
  | .ret _ => none
  | .op o k => (sem s.shared l.1 o l.2).map fun p =>
      ⟨p.2, Function.update s.prog l.1 (k p.1)⟩

/-- What a step does: one operation of one unfinished thread. -/
theorem step_eq_some {sem : Sem σ ι κ O R} {s t : Threads σ ι O R α} {l : ι × κ}
    (h : step sem s l = some t) :
    ∃ o k r s', s.prog l.1 = .op o k ∧ sem s.shared l.1 o l.2 = some (r, s') ∧
      t = ⟨s', Function.update s.prog l.1 (k r)⟩ := by
  unfold step at h
  split at h
  · cases h
  · rename_i o k hp
    obtain ⟨⟨r, s'⟩, hsem, rfl⟩ := Option.map_eq_some_iff.mp h
    exact ⟨o, k, r, s', hp, hsem, rfl⟩

theorem step_of_op {sem : Sem σ ι κ O R} {s : Threads σ ι O R α} {i : ι} {c : κ} {o : O}
    {k : R o → Prog O R α} {r : R o} {s' : σ} (hp : s.prog i = .op o k)
    (hsem : sem s.shared i o c = some (r, s')) :
    step sem s (i, c) = some ⟨s', Function.update s.prog i (k r)⟩ := by
  simp only [step, hp, hsem, Option.map_some]

/-- The interleavings of a family of programs started in one of the given states. -/
def system (init : Threads σ ι O R α → Prop) (sem : Sem σ ι κ O R) :
    LTS (Threads σ ι O R α) (ι × κ) :=
  LTS.ofStep init (step sem)

variable {init : Threads σ ι O R α → Prop} {sem : Sem σ ι κ O R}
  {ok : Threads σ ι O R α → ι × κ → Prop}

/-- **Interleaving rule.** `I` is the invariant of the shared state, `T i` the assertion of
thread `i` about the shared state and the rest of its program. -/
theorem invariant {I : σ → Prop} {T : ι → σ → Prog O R α → Prop}
    (hinit : ∀ s, init s → I s.shared ∧ ∀ i, T i s.shared (s.prog i))
    (hlocal : ∀ (s : Threads σ ι O R α) i o k c r s', I s.shared →
      (∀ j, T j s.shared (s.prog j)) → s.prog i = .op o k → ok s (i, c) →
      sem s.shared i o c = some (r, s') → I s' ∧ T i s' (k r))
    (hothers : ∀ (s : Threads σ ι O R α) i o k c r s' j, j ≠ i → I s.shared →
      (∀ j, T j s.shared (s.prog j)) → s.prog i = .op o k → ok s (i, c) →
      sem s.shared i o c = some (r, s') → T j s' (s.prog j))
    {s : Threads σ ι O R α} (h : (system init sem).ReachableIf ok s) :
    I s.shared ∧ ∀ i, T i s.shared (s.prog i) := by
  refine LTS.ReachableIf.invariant
    (P := fun s : Threads σ ι O R α => I s.shared ∧ ∀ i, T i s.shared (s.prog i))
    hinit ?_ h
  rintro s ⟨i, c⟩ t ⟨hI, hT⟩ hok hst
  obtain ⟨o, k, r, s', hp, hsem, rfl⟩ := step_eq_some hst
  obtain ⟨hI', hTi⟩ := hlocal s i o k c r s' hI hT hp hok hsem
  refine ⟨hI', fun j => ?_⟩
  by_cases hj : j = i
  · subst hj
    simpa using hTi
  · simpa [Function.update_of_ne hj] using hothers s i o k c r s' j hj hI hT hp hok hsem

/-- Assertions about the own part of the state of each thread hold in every reachable
state: an operation moves its thread's part as `rel` allows and leaves the others alone. -/
theorem always {L : Type*} (rel : (o : O) → L → R o → L → Prop) (loc : ι → σ → L)
    {inv : ι → Prog O R α → L → Prop}
    (hinit : ∀ s, init s → ∀ i, Prog.Always rel (inv i) (s.prog i) (loc i s.shared))
    (hrel : ∀ s i o c r s', sem s i o c = some (r, s') → rel o (loc i s) r (loc i s'))
    (hframe : ∀ s i o c r s' j, j ≠ i → sem s i o c = some (r, s') → loc j s' = loc j s)
    {s : Threads σ ι O R α} (h : (system init sem).ReachableIf ok s) (i : ι) :
    Prog.Always rel (inv i) (s.prog i) (loc i s.shared) := by
  refine (invariant (I := fun _ => True)
    (T := fun i σ p => Prog.Always rel (inv i) p (loc i σ)) ?_ ?_ ?_ h).2 i
  · exact fun s hs => ⟨trivial, hinit s hs⟩
  · intro s i o k c r s' _ hT hp _ hsem
    have hi := hT i
    rw [hp] at hi
    exact ⟨trivial, hi.next (hrel _ _ _ _ _ _ hsem)⟩
  · intro s i o k c r s' j hj _ hT _ _ hsem
    rw [hframe _ _ _ _ _ _ _ hj hsem]
    exact hT j

/-- **The moment of decision.** A thread whose results in `P` are each decided by one reply has
not got it yet, or got it at a moment `m` of the run. -/
theorem decided {D : (o : O) → R o → α → Prop} {P : α → Prop} {i : ι} {s t : Threads σ ι O R α}
    (h : Prog.DecidedBy D P (s.prog i)) (hst : ((system init sem).startingAt s).Reachable t) :
    Prog.DecidedBy D P (t.prog i) ∨ ∃ m o k c r σ', (system init sem).Between s m t ∧
      m.prog i = .op o k ∧ sem m.shared i o c = some (r, σ') ∧
      Prog.Results (fun a => P a → D o r a) (t.prog i) := by
  induction hst with
  | init hs =>
    cases hs
    exact Or.inl h
  | @step t t' l ht _ hstep ih =>
    obtain ⟨o, k, r, σ', hp, hsem, rfl⟩ := step_eq_some hstep
    by_cases hi : l.1 = i
    · subst hi
      simp only [Function.update_self]
      obtain hundecided | ⟨m, o', k', c, r', σ'', hm, hp', hsem', hresults⟩ := ih
      · rw [hp] at hundecided
        obtain hnext | hdecided := hundecided r
        · exact Or.inl hnext
        · exact Or.inr ⟨t, o, k, l.2, r, σ', ⟨ht, .step (.init rfl) trivial hstep⟩, hp, hsem,
            hdecided⟩
      · rw [hp] at hresults
        exact Or.inr ⟨m, o', k', c, r', σ'', hm.step hstep, hp', hsem', hresults r⟩
    · simp only [Function.update_of_ne (Ne.symm hi)]
      obtain hundecided | ⟨m, o', k', c, r', σ'', hm, hp', hsem', hresults⟩ := ih
      · exact Or.inl hundecided
      · exact Or.inr ⟨m, o', k', c, r', σ'', hm.step hstep, hp', hsem', hresults⟩

/-! ## Logs -/

/-- An operation of a thread, the outside choice it was made under, and its reply. -/
structure Entry (ι κ : Type*) (O : Type) (R : O → Type) where
  thread : ι
  choice : κ
  op : O
  reply : R op

/-- The operations of a log take one shared state to another. -/
inductive Logged (sem : Sem σ ι κ O R) (s₀ : σ) : List (Entry ι κ O R) → σ → Prop
  | nil : Logged sem s₀ [] s₀
  | concat {log : List (Entry ι κ O R)} {s s' : σ} {i : ι} {o : O} {c : κ} {r : R o} :
      Logged sem s₀ log s → sem s i o c = some (r, s') → Logged sem s₀ (log ++ [⟨i, c, o, r⟩]) s'

/-- The part of a thread in a log. -/
def own (i : ι) (log : List (Entry ι κ O R)) : List ((o : O) × R o) :=
  log.filterMap fun e => if e.thread = i then some ⟨e.op, e.reply⟩ else none

theorem own_concat (i : ι) (log : List (Entry ι κ O R)) (e : Entry ι κ O R) :
    own i (log ++ [e]) = if e.thread = i then own i log ++ [⟨e.op, e.reply⟩] else own i log := by
  by_cases he : e.thread = i
  · simp [own, he]
  · simp [own, he]

theorem mem_own {log : List (Entry ι κ O R)} {e : Entry ι κ O R} (h : e ∈ log) :
    ⟨e.op, e.reply⟩ ∈ own e.thread log :=
  List.mem_filterMap.mpr ⟨e, h, if_pos rfl⟩

/-- The first entry of a thread. -/
theorem own_eq_cons {i : ι} {log : List (Entry ι κ O R)} {o : O} {r : R o}
    {es : List ((o : O) × R o)} (h : own i log = ⟨o, r⟩ :: es) :
    ∃ before c after, log = before ++ ⟨i, c, o, r⟩ :: after ∧ own i after = es := by
  obtain ⟨before, e, after, rfl, -, he, hafter⟩ := List.filterMap_eq_cons_iff.mp h
  obtain ⟨j, c, o', r'⟩ := e
  by_cases hj : j = i
  · subst hj
    rw [if_pos rfl, Option.some.injEq] at he
    cases he
    exact ⟨before, c, after, rfl, hafter⟩
  · rw [if_neg hj] at he
    cases he

omit [DecidableEq ι] in
/-- Every entry of a log is explained by the entries before it. -/
theorem Logged.explained {s₀ s : σ} {log : List (Entry ι κ O R)} (h : Logged sem s₀ log s) :
    Explained (fun before e => ∃ s₁ s₂, Logged sem s₀ before s₁ ∧
      sem s₁ e.thread e.op e.choice = some (e.reply, s₂)) log := by
  induction h with
  | nil => exact Explained.nil
  | concat hlog hsem ih => exact ih.concat ⟨_, _, hlog, hsem⟩

/-- Every run leaves a log, with the choices of the run. -/
theorem exists_log {P : ι → κ → Prop} {s₀ s : Threads σ ι O R α}
    (h : (system (· = s₀) sem).ReachableIf (fun _ l => P l.1 l.2) s) :
    ∃ log, Logged sem s₀.shared log s.shared ∧ (∀ e ∈ log, P e.thread e.choice) ∧
      ∀ i, (s₀.prog i).Took (own i log) (s.prog i) := by
  induction h with
  | init hs =>
    cases hs
    exact ⟨[], .nil, by simp, fun i => .nil⟩
  | @step s t l _ hP hst ih =>
    obtain ⟨log, hlog, hchoices, htook⟩ := ih
    obtain ⟨o, k, r, s', hp, hsem, rfl⟩ := step_eq_some hst
    refine ⟨_, hlog.concat hsem, ?_, fun i => ?_⟩
    · intro e he
      rcases List.mem_append.mp he with hold | hnew
      · exact hchoices e hold
      · rw [List.mem_singleton.mp hnew]
        exact hP
    simp only [own_concat]
    by_cases hi : l.1 = i
    · subst hi
      rw [if_pos rfl, Function.update_self]
      have hold := htook l.1
      rw [hp] at hold
      exact hold.concat r
    · rw [if_neg hi, Function.update_of_ne (Ne.symm hi)]
      exact htook i

/-! ## Families of threads -/

/-- A symmetric relation between every two threads after one of them has changed. -/
theorem pairwise_update {β : Type*} {Q : β → β → Prop}
    (hsymm : ∀ a b, Q a b → Q b a) {f : ι → β} {i : ι} {v : β}
    (hf : Pairwise fun j l => Q (f j) (f l)) (hv : ∀ j, j ≠ i → Q v (f j)) :
    Pairwise fun j l => Q (Function.update f i v j) (Function.update f i v l) := by
  intro j l hjl
  by_cases hj : j = i
  · subst hj
    simpa [Function.update_of_ne hjl.symm] using hv l hjl.symm
  · by_cases hl : l = i
    · subst hl
      simpa [Function.update_of_ne hj] using hsymm _ _ (hv j hj)
    · simpa [Function.update_of_ne hj, Function.update_of_ne hl] using hf hjl

/-- A total over the threads after one of them has changed. -/
theorem total_update_add {β M : Type*} [AddCommMonoid M] [Fintype ι] (F : β → M) (f : ι → β)
    (i : ι) (v : β) : ∑ j, F (Function.update f i v j) + F (f i) = ∑ j, F (f j) + F v := by
  have hrest : ∑ j ∈ Finset.univ.erase i, F (Function.update f i v j) =
      ∑ j ∈ Finset.univ.erase i, F (f j) :=
    Finset.sum_congr rfl fun j hj => by rw [Function.update_of_ne (Finset.ne_of_mem_erase hj)]
  rw [← Finset.add_sum_erase Finset.univ _ (Finset.mem_univ i),
    ← Finset.add_sum_erase Finset.univ (fun j => F (f j)) (Finset.mem_univ i), hrest,
    Function.update_self]
  abel

/-- Every step of a run takes one operation from what its threads have left. -/
theorem run_length [Fintype ι] {s t : Threads σ ι O R α} {ls : List (ι × κ)} {n : ι → ℕ}
    (hn : ∀ i, Prog.Within (n i) (s.prog i)) (h : LTS.run (step sem) s ls = some t) :
    ∃ m : ι → ℕ, (∀ i, Prog.Within (m i) (t.prog i)) ∧ ls.length + ∑ i, m i = ∑ i, n i := by
  induction ls generalizing s n with
  | nil =>
    cases h
    exact ⟨n, hn, Nat.zero_add _⟩
  | cons l ls ih =>
    obtain ⟨s', hstep, hrest⟩ := Option.bind_eq_some_iff.mp h
    obtain ⟨o, k, r, σ', hp, -, rfl⟩ := step_eq_some hstep
    have hl := hn l.1
    rw [hp] at hl
    obtain ⟨hpos, hnext⟩ := hl.next r
    have hleft : ∀ i, Prog.Within (Function.update n l.1 (n l.1 - 1) i)
        (Function.update s.prog l.1 (k r) i) := by
      intro i
      by_cases hi : i = l.1
      · subst hi
        simpa using hnext
      · simpa [Function.update_of_ne hi] using hn i
    obtain ⟨m, hm, hlength⟩ := ih hleft hrest
    refine ⟨m, hm, ?_⟩
    have htotal := total_update_add (fun x : ℕ => x) n l.1 (n l.1 - 1)
    rw [List.length_cons]
    omega

end Threads
end Lib
