import Mathlib.Data.List.Sort
import Mathlib.Data.List.Induction

/-!
# Hash chains

A list of rows is linked from `h` when the first row carries `h` as the hash before it and
every later row the hash of the row just before. Rows enter a chain at its end; the chains
of a table are read in the order of a key, so the second half is about sorting a list that
grows at its end.
-/

namespace Lib
namespace HashChain

variable {ρ η : Type*} (prev hash : ρ → η)

/-- Each row carries the hash of the row before it, the first one `h`. -/
def Linked : η → List ρ → Prop
  | _, [] => True
  | h, r :: rs => prev r = h ∧ Linked (hash r) rs

instance decidableLinked [DecidableEq η] : ∀ (h : η) (l : List ρ), Decidable (Linked prev hash h l)
  | _, [] => inferInstanceAs (Decidable True)
  | h, r :: rs =>
    have := decidableLinked (hash r) rs
    inferInstanceAs (Decidable (prev r = h ∧ Linked prev hash (hash r) rs))

/-- The hash the next row has to carry. -/
def lastHash (h : η) (l : List ρ) : η := (l.getLast?.map hash).getD h

@[simp] theorem lastHash_nil (h : η) : lastHash hash h ([] : List ρ) = h := rfl

@[simp] theorem lastHash_concat (h : η) (l : List ρ) (r : ρ) :
    lastHash hash h (l ++ [r]) = hash r := by
  simp [lastHash]

theorem lastHash_cons (h : η) (r : ρ) (l : List ρ) :
    lastHash hash h (r :: l) = lastHash hash (hash r) l := by
  cases l using List.reverseRecOn with
  | nil => rfl
  | append_singleton l q => rw [← List.cons_append, lastHash_concat, lastHash_concat]

/-- A chain grows by a row that carries the last hash. -/
theorem linked_concat {h : η} {l : List ρ} {r : ρ} :
    Linked prev hash h (l ++ [r]) ↔ Linked prev hash h l ∧ prev r = lastHash hash h l := by
  induction l generalizing h with
  | nil => simp [Linked]
  | cons q l ih => rw [List.cons_append, Linked, Linked, ih, lastHash_cons, and_assoc]

/-- The last hash is the start or the hash of a row. -/
theorem lastHash_eq_or (h : η) (l : List ρ) :
    (l = [] ∧ lastHash hash h l = h) ∨ ∃ r ∈ l, lastHash hash h l = hash r := by
  cases l using List.reverseRecOn with
  | nil => exact Or.inl ⟨rfl, rfl⟩
  | append_singleton l r => exact Or.inr ⟨r, by simp, lastHash_concat hash h l r⟩

variable {prev hash} {h : η} {rows l : List ρ}

/-- A row of a chain carries the start or the hash of a row. -/
theorem Linked.prev_eq (hl : Linked prev hash h l) {r : ρ} (hr : r ∈ l) :
    prev r = h ∨ ∃ q ∈ l, prev r = hash q := by
  induction l generalizing h with
  | nil => cases hr
  | cons q l ih =>
    rcases List.mem_cons.mp hr with rfl | hr
    · exact Or.inl hl.1
    · rcases ih hl.2 hr with hq | ⟨p, hp, heq⟩
      · exact Or.inr ⟨q, List.mem_cons_self, hq⟩
      · exact Or.inr ⟨p, List.mem_cons_of_mem _ hp, heq⟩

/-- When no two hashes of a chain are equal, and none is the start, a chain made of some of its
rows is one of its beginnings. -/
theorem Linked.isPrefix (hrows : Linked prev hash h rows) (hnodup : (h :: rows.map hash).Nodup)
    (hl : Linked prev hash h l) (hsub : ∀ r ∈ l, r ∈ rows) : l <+: rows := by
  induction rows generalizing h l with
  | nil =>
    have hnil : l = [] := List.eq_nil_iff_forall_not_mem.mpr fun r hr => by cases hsub r hr
    exact hnil ▸ List.nil_prefix
  | cons r₀ rows ih =>
    rw [List.nodup_cons] at hnodup
    have hstart : ∀ q ∈ r₀ :: rows, h ≠ hash q :=
      fun q hq heq => hnodup.1 (heq ▸ List.mem_map_of_mem hq)
    cases l with
    | nil => exact List.nil_prefix
    | cons r l =>
      -- only the first row carries the start
      have hfirst : r = r₀ := by
        rcases List.mem_cons.mp (hsub r List.mem_cons_self) with heq | hr
        · exact heq
        · rcases hrows.2.prev_eq hr with heq | ⟨q, hq, heq⟩
          · exact absurd (hl.1.symm.trans heq) (hstart r₀ List.mem_cons_self)
          · exact absurd (hl.1.symm.trans heq) (hstart q (List.mem_cons_of_mem _ hq))
      subst hfirst
      have hlater : ∀ q ∈ l, q ∈ rows := by
        intro q hq
        rcases List.mem_cons.mp (hsub q (List.mem_cons_of_mem _ hq)) with rfl | hmem
        · rcases hl.2.prev_eq hq with heq | ⟨p, hp, heq⟩
          · exact absurd (hl.1.symm.trans heq) (hstart q List.mem_cons_self)
          · exact absurd (hl.1.symm.trans heq) (hstart p (hsub p (List.mem_cons_of_mem _ hp)))
        · exact hmem
      exact List.prefix_cons_inj r |>.mpr (ih hrows.2 hnodup.2 hl.2 hlater)

end HashChain

/-! ## Sorting a list that grows at its end -/

variable {ρ : Type*} (r : ρ → ρ → Prop) [DecidableRel r]

/-- An element that none of the list comes after is inserted at the end. -/
theorem orderedInsert_concat {a : ρ} {l : List ρ} {b : ρ} (h : r a b) :
    (l ++ [b]).orderedInsert r a = l.orderedInsert r a ++ [b] := by
  induction l with
  | nil => simp [List.orderedInsert, h]
  | cons c l ih =>
    rw [List.cons_append, List.orderedInsert, List.orderedInsert]
    split
    · rfl
    · rw [ih, List.cons_append]

/-- Sorting keeps a largest last element last. -/
theorem insertionSort_concat {l : List ρ} {b : ρ} (h : ∀ a ∈ l, r a b) :
    (l ++ [b]).insertionSort r = l.insertionSort r ++ [b] := by
  induction l with
  | nil => rfl
  | cons a l ih =>
    rw [List.cons_append, List.insertionSort_cons, List.insertionSort_cons,
      ih fun c hc => h c (List.mem_cons_of_mem _ hc),
      orderedInsert_concat r (h a List.mem_cons_self)]

end Lib
