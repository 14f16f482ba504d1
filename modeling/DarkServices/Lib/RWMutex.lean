import DarkServices.Lib.Prog
import Mathlib.Data.Finset.Basic

/-!
# Data guarded by a readers-writer lock

Threads that touch shared data only in critical sections: a section takes the lock for reading
or for writing, makes its accesses one by one, and gives the lock back. `lockSem` interleaves
the threads access by access; `sectionSem` runs a whole section as one operation.

* `guarded_simulated`: when the sections that take the lock for reading do not write, every run
  access by access is one section by section;
* `guarded_log`: so there is an order of the sections that explains every reply;
* `guarded_stuck_iff`: no run is stuck before all threads have returned;
* `within_guarded` bounds the threads.

As in Go, a writer that waits for the readers to leave keeps new readers out.
-/

namespace Lib

/-- The operations of a thread: taking and giving back the lock (`true` for writing), waiting
for the readers to leave, and an access to the data. -/
inductive LockOp (O : Type)
  | acquire (write : Bool)
  | drain
  | access (o : O)
  | release (write : Bool)

/-- Only an access has an answer. -/
abbrev LockReply {O : Type} (R : O → Type) : LockOp O → Type
  | .access o => R o
  | _ => Unit

/-- The lock and the data. -/
structure Guarded (ι D : Type*) where
  readers : Finset ι
  writer : Option ι
  data : D

/-- Critical sections: whether one takes the lock for writing, and its accesses. -/
structure Sections (O : Type) (R : O → Type) (S : Type) (B : S → Type) where
  writes : S → Bool
  body : (s : S) → Prog O R (B s)

namespace RWMutex

variable {ι κ D : Type*} [DecidableEq ι] {O : Type} {R : O → Type} {S : Type} {B : S → Type}
  {α β : Type}

/-! ## The two levels -/

/-- The meaning of the operations, given that of the accesses under an outside choice. -/
def lockSem (acc : (o : O) → κ → D → R o × D) :
    Threads.Sem (Guarded ι D) ι κ (LockOp O) (LockReply R) := fun s i o c =>
  match o with
  | .acquire false =>
    if s.writer = none then some ((), { s with readers := insert i s.readers }) else none
  | .acquire true => if s.writer = none then some ((), { s with writer := some i }) else none
  | .drain => if s.readers = ∅ then some ((), s) else none
  | .access o => some ((acc o c s.data).1, { s with data := (acc o c s.data).2 })
  | .release false => some ((), { s with readers := s.readers.erase i })
  | .release true => some ((), { s with writer := none })

/-- The rest of a section, and what follows it. -/
def inside (w : Bool) : Prog O R β → (β → Prog (LockOp O) (LockReply R) α) →
    Prog (LockOp O) (LockReply R) α
  | .ret b, next => .op (.release w) fun _ => next b
  | .op o k, next => .op (.access o) fun r => inside w (k r) next

/-- A section behind its lock. -/
def locked (w : Bool) (p : Prog O R β) (next : β → Prog (LockOp O) (LockReply R) α) :
    Prog (LockOp O) (LockReply R) α :=
  .op (.acquire w) fun _ =>
    if w then .op .drain fun _ => inside true p next else inside false p next

/-- A program over sections, access by access. -/
def guarded (secs : Sections O R S B) : Prog S B α → Prog (LockOp O) (LockReply R) α
  | .ret a => .ret a
  | .op s k => locked (secs.writes s) (secs.body s) fun b => guarded secs (k b)

/-- Make accesses of a program, each under the next choice. -/
def advance (acc : (o : O) → κ → D → R o × D) : List κ → Prog O R β → D → Option (Prog O R β × D)
  | [], p, d => some (p, d)
  | _ :: _, .ret _, _ => none
  | c :: cs, .op o k, d => advance acc cs (k (acc o c d).1) (acc o c d).2

/-- A section as one operation. -/
def sectionSem (acc : (o : O) → κ → D → R o × D) (secs : Sections O R S B) :
    Threads.Sem D ι (List κ) S B := fun d _ s cs =>
  match advance acc cs (secs.body s) d with
  | some (.ret b, d') => some (b, d')
  | _ => none

variable {acc : (o : O) → κ → D → R o × D} {secs : Sections O R S B} {P : ι → κ → Prop}

theorem advance_op {cs : List κ} {d d' : D} {o : O} {k : R o → Prog O R β} {b : β}
    (h : advance acc cs (.op o k) d = some (.ret b, d')) :
    ∃ c cs', cs = c :: cs' ∧
      advance acc cs' (k (acc o c d).1) (acc o c d).2 = some (.ret b, d') := by
  cases cs with
  | nil => cases h
  | cons c cs => exact ⟨c, cs, rfl, h⟩

theorem advance_ret {cs : List κ} {d d' : D} {a b : β}
    (h : advance acc cs (.ret a) d = some (.ret b, d')) : cs = [] ∧ b = a ∧ d' = d := by
  cases cs with
  | nil =>
    cases h
    exact ⟨rfl, rfl, rfl⟩
  | cons c cs => cases h

theorem advance_concat {cs : List κ} {p : Prog O R β} {d d' : D} {o : O}
    {k : R o → Prog O R β} (c : κ) (h : advance acc cs p d = some (.op o k, d')) :
    advance acc (cs ++ [c]) p d = some (k (acc o c d').1, (acc o c d').2) := by
  induction cs generalizing p d with
  | nil =>
    cases h
    rfl
  | cons c' cs ih =>
    cases p with
    | ret b => cases h
    | op o' k' => exact ih h

omit [DecidableEq ι] in
theorem sectionSem_of_advance {cs : List κ} {s : S} {d d' : D} {b : B s} (i : ι)
    (h : advance acc cs (secs.body s) d = some (.ret b, d')) :
    sectionSem acc secs d i s cs = some (b, d') := by
  rw [sectionSem, h]

omit [DecidableEq ι] in
theorem sectionSem_eq_some {cs : List κ} {s : S} {d d' : D} {b : B s} {i : ι}
    (h : sectionSem acc secs d i s cs = some (b, d')) :
    advance acc cs (secs.body s) d = some (.ret b, d') := by
  unfold sectionSem at h
  split at h
  · rename_i heq
    cases h
    exact heq
  · cases h

/-- A section whose accesses depend on no choice runs as it does alone. -/
theorem exec_of_advance {sem : (o : O) → D → R o × D} (hacc : ∀ o c d, acc o c d = sem o d)
    {cs : List κ} {p : Prog O R β} {d d' : D} {b : β}
    (h : advance acc cs p d = some (.ret b, d')) : Prog.exec sem p d = (b, d') := by
  induction cs generalizing p d with
  | nil =>
    cases h
    rfl
  | cons c cs ih =>
    cases p with
    | ret b' => cases h
    | op o k =>
      rw [advance, hacc] at h
      rw [Prog.exec_op]
      exact ih h

/-- The program makes only accesses that leave the data as they are. -/
def ReadsOnly (acc : (o : O) → κ → D → R o × D) : Prog O R β → Prop
  | .ret _ => True
  | .op o k => (∀ c d, (acc o c d).2 = d) ∧ ∀ r, ReadsOnly acc (k r)

theorem ReadsOnly.advance {cs : List κ} {p q : Prog O R β} {d d' : D} (h : ReadsOnly acc p)
    (ha : advance acc cs p d = some (q, d')) : ReadsOnly acc q ∧ d' = d := by
  induction cs generalizing p d with
  | nil =>
    cases ha
    exact ⟨h, rfl⟩
  | cons c cs ih =>
    cases p with
    | ret b => cases ha
    | op o k =>
      obtain ⟨hq, hd⟩ := ih (h.2 _) ha
      exact ⟨hq, hd.trans (h.1 c d)⟩

/-- Sections that take the lock for reading do not write. -/
def Disciplined (acc : (o : O) → κ → D → R o × D) (secs : Sections O R S B) : Prop :=
  ∀ s, secs.writes s = false → ReadsOnly acc (secs.body s)

/-! ## The simulation -/

/-- Where a thread is: its program access by access, and section by section. `d` are the data as
the finished sections have left them, `P` is what holds of the choices. -/
inductive Place (acc : (o : O) → κ → D → R o × D) (secs : Sections O R S B)
    (P : ι → κ → Prop) (g : Guarded ι D)
    (d : D) (i : ι) : Prog (LockOp O) (LockReply R) α → Prog S B α → Prop
  | outside (q : Prog S B α) : i ∉ g.readers → g.writer ≠ some i →
      Place acc secs P g d i (guarded secs q) q
  | reading {s : S} {k : B s → Prog S B α} {cs : List κ} {p : Prog O R (B s)} :
      secs.writes s = false → i ∈ g.readers → g.writer ≠ some i → (∀ c ∈ cs, P i c) →
      advance acc cs (secs.body s) d = some (p, d) →
      Place acc secs P g d i (inside false p fun b => guarded secs (k b)) (.op s k)
  | draining {s : S} {k : B s → Prog S B α} :
      secs.writes s = true → i ∉ g.readers → g.writer = some i → g.data = d →
      Place acc secs P g d i
        (.op .drain fun _ => inside true (secs.body s) fun b => guarded secs (k b)) (.op s k)
  | writing {s : S} {k : B s → Prog S B α} {cs : List κ} {p : Prog O R (B s)} :
      secs.writes s = true → g.readers = ∅ → g.writer = some i → (∀ c ∈ cs, P i c) →
      advance acc cs (secs.body s) d = some (p, g.data) →
      Place acc secs P g d i (inside true p fun b => guarded secs (k b)) (.op s k)

/-- The runs access by access follow those section by section: while no thread writes, the data
are the same. -/
structure Follows (acc : (o : O) → κ → D → R o × D) (secs : Sections O R S B)
    (P : ι → κ → Prop) (s : Threads (Guarded ι D) ι (LockOp O) (LockReply R) α)
    (t : Threads D ι S B α) : Prop where
  place : ∀ i, Place acc secs P s.shared t.shared i (s.prog i) (t.prog i)
  data : s.shared.writer = none ∨ s.shared.readers ≠ ∅ → s.shared.data = t.shared

section Step

variable {g g' : Guarded ι D} {d : D} {i j : ι} {p : Prog (LockOp O) (LockReply R) α}
  {q : Prog S B α}

omit [DecidableEq ι] in
/-- The place of a thread that the step of another one leaves alone. -/
theorem Place.frame (h : Place acc secs P g d j p q)
    (hreaders : j ∈ g'.readers ↔ j ∈ g.readers) (hwriter : g'.writer = some j ↔ g.writer = some j)
    (hheld : g.writer = some j → g'.data = g.data ∧ (g.readers = ∅ → g'.readers = ∅)) :
    Place acc secs P g' d j p q := by
  cases h with
  | outside q hr hw => exact .outside q (mt hreaders.mp hr) (mt hwriter.mp hw)
  | reading hs hr hw hc ha => exact .reading hs (hreaders.mpr hr) (mt hwriter.mp hw) hc ha
  | draining hs hr hw hd =>
    exact .draining hs (mt hreaders.mp hr) (hwriter.mpr hw) ((hheld hw).1.trans hd)
  | writing hs hr hw hc ha =>
    rw [← (hheld hw).1] at ha
    exact .writing hs ((hheld hw).2 hr) (hwriter.mpr hw) hc ha

omit [DecidableEq ι] in
/-- A thread with no part in the lock is outside, whatever the data. -/
theorem Place.outside_of (h : Place acc secs P g d j p q) (hr : j ∉ g.readers)
    (hw : g.writer ≠ some j) {d' : D} (hr' : j ∉ g'.readers) (hw' : g'.writer ≠ some j) :
    Place acc secs P g' d' j p q := by
  cases h with
  | outside q _ _ => exact .outside q hr' hw'
  | reading _ hmem => exact absurd hmem hr
  | draining _ _ hhas => exact absurd hhas hw
  | writing _ _ hhas => exact absurd hhas hw

end Step

section Steps

theorem forall_mem_concat {Q : κ → Prop} {cs : List κ} {c : κ} (h : ∀ c ∈ cs, Q c) (hc : Q c) :
    ∀ c' ∈ cs ++ [c], Q c' := by
  intro c' hc'
  rcases List.mem_append.mp hc' with hold | hnew
  · exact h c' hold
  · rw [List.mem_singleton.mp hnew]
    exact hc

variable {s : Threads (Guarded ι D) ι (LockOp O) (LockReply R) α} {t : Threads D ι S B α} {i : ι}
  {c : κ} {o : LockOp O} {k : LockReply R o → Prog (LockOp O) (LockReply R) α}
  {r : LockReply R o} {g : Guarded ι D}

/-- The threads after a step of thread `i` that leaves the finished sections alone. -/
theorem Follows.stay (h : Follows acc secs P s t) (p : Prog (LockOp O) (LockReply R) α)
    (hplace : Place acc secs P g t.shared i p (t.prog i))
    (hreaders : ∀ j, j ≠ i → (j ∈ g.readers ↔ j ∈ s.shared.readers))
    (hwriter : ∀ j, j ≠ i → (g.writer = some j ↔ s.shared.writer = some j))
    (hheld : ∀ j, j ≠ i → s.shared.writer = some j →
      g.data = s.shared.data ∧ (s.shared.readers = ∅ → g.readers = ∅))
    (hdata : g.writer = none ∨ g.readers ≠ ∅ → g.data = t.shared) :
    Follows acc secs P ⟨g, Function.update s.prog i p⟩ t := by
  refine ⟨fun j => ?_, hdata⟩
  by_cases hj : j = i
  · subst hj
    simpa using hplace
  · simpa [Function.update_of_ne hj] using
      (h.place j).frame (hreaders j hj) (hwriter j hj) (hheld j hj)

/-- The threads after a step by which thread `i` finishes a section. -/
theorem follows_move {sec : S} {next : B sec → Prog S B α}
    {cs : List κ} {b : B sec} {d : D} (hq : t.prog i = .op sec next)
    (hchoices : ∀ c ∈ cs, P i c)
    (hadvance : advance acc cs (secs.body sec) t.shared = some (.ret b, d))
    (hi : i ∉ g.readers) (hi' : g.writer ≠ some i)
    (hothers : ∀ j, j ≠ i → Place acc secs P g d j (s.prog j) (t.prog j))
    (hdata : g.writer = none ∨ g.readers ≠ ∅ → g.data = d) :
    ∃ l' t', (∀ c ∈ l'.2, P l'.1 c) ∧ Threads.step (sectionSem acc secs) t l' = some t' ∧
      Follows acc secs P ⟨g, Function.update s.prog i (guarded secs (next b))⟩ t' := by
  refine ⟨(i, cs), _, hchoices, Threads.step_of_op hq (sectionSem_of_advance i hadvance),
    fun j => ?_, hdata⟩
  by_cases hj : j = i
  · subst hj
    simpa using Place.outside _ hi hi'
  · simpa [Function.update_of_ne hj] using hothers j hj

/-- Taking the lock. -/
theorem Follows.step_outside (h : Follows acc secs P s t) {w : Bool} {sec : S}
    {next : B sec → Prog S B α} (hq : t.prog i = .op sec next) (hw : secs.writes sec = w)
    (hi : i ∉ s.shared.readers) (hsem : lockSem acc s.shared i (.acquire w) c = some ((), g)) :
    Follows acc secs P ⟨g, Function.update s.prog i
      (if w then .op .drain fun _ => inside true (secs.body sec) fun b => guarded secs (next b)
        else inside false (secs.body sec) fun b => guarded secs (next b))⟩ t := by
  cases w with
  | false =>
    obtain ⟨hfree, heq⟩ := Option.ite_none_right_eq_some.mp hsem
    cases heq
    have hdata := h.data (Or.inl hfree)
    have hstart : advance acc [] (secs.body sec) t.shared = some (secs.body sec, t.shared) := rfl
    refine h.stay _ ?_ (fun j hj => ?_) (fun j _ => Iff.rfl) (fun j _ hj => ?_) fun _ => hdata
    · rw [hq]
      exact .reading hw (Finset.mem_insert_self _ _) (by simp [hfree]) (by simp) hstart
    · simp [hj]
    · rw [hfree] at hj
      cases hj
  | true =>
    obtain ⟨hfree, heq⟩ := Option.ite_none_right_eq_some.mp hsem
    cases heq
    have hdata := h.data (Or.inl hfree)
    refine h.stay _ ?_ (fun j _ => Iff.rfl) (fun j hj => ?_) (fun j _ hj => ?_) fun _ => hdata
    · rw [hq]
      exact .draining hw hi rfl hdata
    · simp [hfree, Ne.symm hj]
    · rw [hfree] at hj
      cases hj

/-- A step inside a section that reads, or its end. -/
theorem Follows.step_reading (h : Follows acc secs P s t) (hsecs : Disciplined acc secs) {sec : S}
    {next : B sec → Prog S B α} (hq : t.prog i = .op sec next) (hw : secs.writes sec = false)
    (hi : i ∈ s.shared.readers) (hi' : s.shared.writer ≠ some i) {cs : List κ}
    {p : Prog O R (B sec)} (hchoices : ∀ c ∈ cs, P i c) (hc : P i c)
    (hadvance : advance acc cs (secs.body sec) t.shared = some (p, t.shared))
    (hp : inside false p (fun b => guarded secs (next b)) = .op o k)
    (hsem : lockSem acc s.shared i o c = some (r, g)) :
    Follows acc secs P ⟨g, Function.update s.prog i (k r)⟩ t ∨
      ∃ l' t', (∀ c ∈ l'.2, P l'.1 c) ∧ Threads.step (sectionSem acc secs) t l' = some t' ∧
        Follows acc secs P ⟨g, Function.update s.prog i (k r)⟩ t' := by
  have hdata := h.data (Or.inr (Finset.ne_empty_of_mem hi))
  have hothers : ∀ j, s.shared.writer = some j → s.shared.readers ≠ ∅ :=
    fun _ _ => Finset.ne_empty_of_mem hi
  cases p with
  | op o' k' =>
    cases hp
    cases hsem
    have hkeep : ∀ c, (acc o' c s.shared.data).2 = s.shared.data :=
      fun c => ((hsecs sec hw).advance hadvance).1.1 c _
    have hnext := advance_concat c hadvance
    rw [← hdata, hkeep c] at hnext
    refine Or.inl (h.stay _ ?_ (fun j _ => Iff.rfl) (fun j _ => Iff.rfl)
      (fun j _ _ => ⟨hkeep c, id⟩) fun _ => (hkeep c).trans hdata)
    rw [hq, ← hdata]
    exact .reading hw hi hi' (forall_mem_concat hchoices hc) hnext
  | ret b =>
    cases hp
    cases hsem
    refine Or.inr (follows_move hq hchoices hadvance (Finset.notMem_erase _ _) hi' (fun j hj => ?_)
      fun _ => hdata)
    refine (h.place j).frame (by simp [hj]) Iff.rfl fun hj' => ⟨rfl, fun hempty => ?_⟩
    exact absurd hempty (hothers j hj')

/-- A step of a thread that writes, or the end of its section. -/
theorem Follows.step_writing (h : Follows acc secs P s t) {sec : S} {next : B sec → Prog S B α}
    (hq : t.prog i = .op sec next) (hw : secs.writes sec = true) (hi : s.shared.readers = ∅)
    (hi' : s.shared.writer = some i) {cs : List κ} {p : Prog O R (B sec)}
    (hchoices : ∀ c ∈ cs, P i c) (hc : P i c)
    (hadvance : advance acc cs (secs.body sec) t.shared = some (p, s.shared.data))
    (hp : inside true p (fun b => guarded secs (next b)) = .op o k)
    (hsem : lockSem acc s.shared i o c = some (r, g)) :
    Follows acc secs P ⟨g, Function.update s.prog i (k r)⟩ t ∨
      ∃ l' t', (∀ c ∈ l'.2, P l'.1 c) ∧ Threads.step (sectionSem acc secs) t l' = some t' ∧
        Follows acc secs P ⟨g, Function.update s.prog i (k r)⟩ t' := by
  have hothers : ∀ j, j ≠ i → j ∉ s.shared.readers ∧ s.shared.writer ≠ some j := by
    intro j hj
    rw [hi, hi']
    exact ⟨Finset.notMem_empty j, fun heq => hj (Option.some.inj heq).symm⟩
  cases p with
  | op o' k' =>
    cases hp
    cases hsem
    refine Or.inl (h.stay _ ?_ (fun j _ => Iff.rfl) (fun j _ => Iff.rfl)
      (fun j hj hj' => absurd hj' (hothers j hj).2) fun hidle => ?_)
    · rw [hq]
      exact .writing hw hi hi' (forall_mem_concat hchoices hc) (advance_concat c hadvance)
    · rw [hi'] at hidle
      exact absurd hidle (by simp [hi])
  | ret b =>
    cases hp
    cases hsem
    refine Or.inr (follows_move hq hchoices hadvance ?_ (by simp) (fun j hj => ?_) fun _ => rfl)
    · simp [hi]
    · have hj' := hothers j hj
      exact (h.place j).outside_of hj'.1 hj'.2 hj'.1 (by simp)

/-- **Step lemma.** Each step access by access is one section, or none yet. -/
theorem Follows.step (h : Follows acc secs P s t) (hsecs : Disciplined acc secs) {l : ι × κ}
    {s' : Threads (Guarded ι D) ι (LockOp O) (LockReply R) α} (hc : P l.1 l.2)
    (hst : Threads.step (lockSem acc) s l = some s') :
    Follows acc secs P s' t ∨ ∃ l' t', (∀ c ∈ l'.2, P l'.1 c) ∧
      Threads.step (sectionSem acc secs) t l' = some t' ∧ Follows acc secs P s' t' := by
  obtain ⟨o, k, r, g, hp, hsem, rfl⟩ := Threads.step_eq_some hst
  have hplace := h.place l.1
  generalize hpf : s.prog l.1 = p at hplace hp
  generalize hq : t.prog l.1 = q at hplace
  cases hplace with
  | outside q hr hw =>
    cases q with
    | ret a => cases hp
    | op sec next =>
      cases hp
      have hstep := h.step_outside hq rfl hr hsem
      exact Or.inl hstep
  | reading hw hr hw' hchoices hadvance =>
    exact h.step_reading hsecs hq hw hr hw' hchoices hc hadvance hp hsem
  | @draining sec next hw hr hw' hd =>
    cases hp
    obtain ⟨hempty, heq⟩ := Option.ite_none_right_eq_some.mp hsem
    cases heq
    have hstart : advance acc [] (secs.body sec) t.shared =
        some (secs.body sec, s.shared.data) := by rw [hd]; rfl
    refine Or.inl (h.stay _ ?_ (fun j _ => Iff.rfl) (fun j _ => Iff.rfl)
      (fun j _ _ => ⟨rfl, id⟩) fun _ => hd)
    rw [hq]
    exact .writing hw hempty hw' (by simp) hstart
  | writing hw hr hw' hchoices hadvance =>
    exact h.step_writing hq hw hr hw' hchoices hc hadvance hp hsem

end Steps

/-! ## Runs -/

/-- The threads before their first section. -/
def start (secs : Sections O R S B) (d : D) (p : ι → Prog S B α) :
    Threads (Guarded ι D) ι (LockOp O) (LockReply R) α where
  shared := ⟨∅, none, d⟩
  prog i := guarded secs (p i)

/-- The interleavings of the threads, access by access. -/
def system (acc : (o : O) → κ → D → R o × D) (secs : Sections O R S B) (d : D)
    (p : ι → Prog S B α) : LTS (Threads (Guarded ι D) ι (LockOp O) (LockReply R) α) (ι × κ) :=
  Threads.system (· = start secs d p) (lockSem acc)

variable {d : D} {p : ι → Prog S B α}
  {s : Threads (Guarded ι D) ι (LockOp O) (LockReply R) α}

/-- **Sections are atomic.** Every run access by access follows a run section by section. -/
theorem guarded_simulated (hsecs : Disciplined acc secs)
    (h : (system acc secs d p).ReachableIf (fun _ l => P l.1 l.2) s) :
    ∃ t, (Threads.system (· = ⟨d, p⟩) (sectionSem acc secs)).ReachableIf
        (fun _ l => ∀ c ∈ l.2, P l.1 c) t ∧ Follows acc secs P s t := by
  refine LTS.ReachableIf.simulated _ _ ?_ ?_ h
  · rintro s rfl
    refine ⟨_, rfl, fun i => ?_, fun _ => rfl⟩
    exact .outside _ (Finset.notMem_empty i) nofun
  · intro s l s' t _ _ hfollows hc hst
    obtain hstay | ⟨l', t', hchoices, hst', hfollows'⟩ := hfollows.step hsecs hc hst
    · exact Or.inl hstay
    · exact Or.inr ⟨l', t', hchoices, hst', hfollows'⟩

omit [DecidableEq ι] in
/-- Only a thread outside of all sections can have returned. -/
theorem Place.ret {g : Guarded ι D} {i : ι} {a : α} {q : Prog S B α}
    (h : Place acc secs P g d i (.ret a) q) : q = .ret a := by
  generalize hp : (Prog.ret a : Prog (LockOp O) (LockReply R) α) = p at h
  cases h with
  | outside q _ _ =>
    cases q with
    | ret b =>
      cases hp
      rfl
    | op sec next => cases hp
  | @reading _ _ _ p _ _ _ _ _ => cases p <;> cases hp
  | draining _ _ _ _ => cases hp
  | @writing _ _ _ p _ _ _ _ _ => cases p <;> cases hp

/-- **An order of the sections.** It explains every reply, every result, and the data that are left
while no thread writes. -/
theorem guarded_log (hsecs : Disciplined acc secs)
    (h : (system acc secs d p).ReachableIf (fun _ l => P l.1 l.2) s) :
    ∃ log d', ∃ q : ι → Prog S B α, Threads.Logged (sectionSem acc secs) d log d' ∧
      (∀ e ∈ log, ∀ c ∈ e.choice, P e.thread c) ∧ (∀ i, (p i).Took (Threads.own i log) (q i)) ∧ (∀ i a, s.prog i = .ret a → q i = .ret a) ∧
      (s.shared.writer = none → s.shared.data = d') := by
  obtain ⟨t, ht, hfollows⟩ := guarded_simulated hsecs h
  obtain ⟨log, hlog, hchoices, htook⟩ :=
    Threads.exists_log (P := fun i cs => ∀ c ∈ cs, P i c) ht
  refine ⟨log, t.shared, t.prog, hlog, hchoices, htook, fun i a ha => ?_, fun hw => hfollows.data (.inl hw)⟩
  have hplace := hfollows.place i
  rw [ha] at hplace
  exact hplace.ret

/-- A thread in a section can go on, unless it waits for readers to leave. -/
theorem step_inside (acc : (o : O) → κ → D → R o × D) {i : ι} {w : Bool} {p : Prog O R β}
    {next : β → Prog (LockOp O) (LockReply R) α} (c : κ) (hp : s.prog i = inside w p next) :
    ∃ t, Threads.step (lockSem acc) s (i, c) = some t := by
  cases p with
  | ret b => cases w <;> exact ⟨_, Threads.step_of_op hp rfl⟩
  | op o k => exact ⟨_, Threads.step_of_op hp rfl⟩

/-- **No deadlock.** A run can go on unless all threads have returned. -/
theorem guarded_stuck_iff [Inhabited κ] (hsecs : Disciplined acc secs)
    (h : (system acc secs d p).Reachable s) :
    (∀ l, Threads.step (lockSem acc) s l = none) ↔ ∀ i, ∃ a, s.prog i = .ret a := by
  obtain ⟨t, -, hfollows⟩ := guarded_simulated (P := fun _ _ => True) hsecs h
  constructor
  · intro hstuck i
    have hno : ∀ j s', Threads.step (lockSem acc) s (j, default) ≠ some s' := by
      intro j s' hst
      rw [hstuck] at hst
      cases hst
    -- a reader could go on, and then a writer
    have hreaders : s.shared.readers = ∅ := by
      refine Finset.eq_empty_of_forall_notMem fun j hj => ?_
      have hplace := hfollows.place j
      generalize hpj : s.prog j = pj at hplace
      generalize t.prog j = qj at hplace
      cases hplace with
      | outside q hr _ => exact hr hj
      | reading _ _ _ _ _ =>
        obtain ⟨s', hst⟩ := step_inside acc default hpj
        exact hno j s' hst
      | draining _ hr _ _ => exact hr hj
      | writing _ hr _ _ _ => exact absurd hr (Finset.ne_empty_of_mem hj)
    have hwriter : s.shared.writer = none := by
      cases hw : s.shared.writer with
      | none => rfl
      | some j =>
        have hplace := hfollows.place j
        generalize hpj : s.prog j = pj at hplace
        generalize t.prog j = qj at hplace
        cases hplace with
        | outside q _ hne => exact absurd hw hne
        | reading _ hr _ _ _ => exact absurd hreaders (Finset.ne_empty_of_mem hr)
        | draining _ _ _ _ =>
          exact absurd (Threads.step_of_op hpj (if_pos hreaders)) (hno j _)
        | writing _ _ _ _ _ =>
          obtain ⟨s', hst⟩ := step_inside acc default hpj
          exact absurd hst (hno j s')
    have hplace := hfollows.place i
    generalize hpi : s.prog i = pi at hplace
    generalize t.prog i = qi at hplace
    cases hplace with
    | outside qi _ _ =>
      cases qi with
      | ret a => exact ⟨a, rfl⟩
      | op sec next =>
        rw [guarded, locked] at hpi
        cases hw : secs.writes sec with
        | false =>
          rw [hw] at hpi
          exact absurd (Threads.step_of_op hpi (if_pos hwriter)) (hno i _)
        | true =>
          rw [hw] at hpi
          exact absurd (Threads.step_of_op hpi (if_pos hwriter)) (hno i _)
    | reading _ hr _ _ _ => exact absurd hreaders (Finset.ne_empty_of_mem hr)
    | draining _ _ hw _ => exact absurd (hwriter.symm.trans hw) nofun
    | writing _ _ hw _ _ => exact absurd (hwriter.symm.trans hw) nofun
  · intro hret l
    obtain ⟨a, ha⟩ := hret l.1
    simp only [Threads.step, ha]

/-! ## The length of a run -/

theorem within_inside {w : Bool} {m n : ℕ} {p : Prog O R β}
    {next : β → Prog (LockOp O) (LockReply R) α} (hp : Prog.Within n p)
    (hnext : ∀ b, Prog.Within m (next b)) : Prog.Within (m + n + 1) (inside w p next) := by
  induction p generalizing n with
  | ret b => exact fun _ => (hnext b).mono (Nat.le_add_right m n)
  | op o k ih =>
    intro r
    obtain ⟨hpos, hk⟩ := hp.next r
    exact (ih r hk).mono (by omega)

theorem within_locked {w : Bool} {m n : ℕ} {p : Prog O R β}
    {next : β → Prog (LockOp O) (LockReply R) α} (hp : Prog.Within n p)
    (hnext : ∀ b, Prog.Within m (next b)) : Prog.Within (m + n + 3) (locked w p next) := by
  intro _
  cases w with
  | false => exact (within_inside hp hnext).mono (by omega)
  | true => exact fun _ => within_inside hp hnext

/-- A thread with at most `m` sections of at most `n` accesses. -/
theorem within_guarded {m n : ℕ} (hbody : ∀ s, Prog.Within n (secs.body s)) {p : Prog S B α}
    (hp : Prog.Within m p) : Prog.Within (m * (n + 3)) (guarded secs p) := by
  induction p generalizing m with
  | ret a => exact Prog.within_ret _ a
  | op s k ih =>
    have hpos : 0 < m := by
      cases m with
      | zero => exact hp.elim
      | succ m => exact Nat.succ_pos m
    have hlocked : Prog.Within ((m - 1) * (n + 3) + n + 3) (guarded secs (.op s k)) :=
      within_locked (hbody s) fun b => ih b (hp.next b).2
    have hm : m * (n + 3) = (m - 1) * (n + 3) + n + 3 := by
      obtain ⟨m, rfl⟩ := Nat.exists_eq_succ_of_ne_zero hpos.ne'
      rw [Nat.succ_sub_one, Nat.succ_mul, Nat.add_assoc]
    rw [hm]
    exact hlocked

end RWMutex
end Lib
