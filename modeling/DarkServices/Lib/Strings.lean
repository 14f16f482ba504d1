import Mathlib.Data.List.Basic
import Mathlib.Data.List.DropRight
import Mathlib.Tactic.ByContra

/-!
# String functions of the Go library

The searching, splitting and case-folding functions of package `strings`, over lists of
characters. A search returns the rest of the text from the match on, so that no index can
be out of range.
-/

namespace Lib
namespace Strings

/-- `strings.HasPrefix`. -/
def hasPrefix (s p : String) : Bool := p.toList.isPrefixOf s.toList

/-- The text from the first occurrence of `pat` on (`strings.Index` and a slice). -/
def fromFirst (pat : List Char) : List Char → Option (List Char)
  | [] => if pat = [] then some [] else none
  | c :: cs => if pat.isPrefixOf (c :: cs) then some (c :: cs) else fromFirst pat cs

/-- The text before and after the first `sep` (`strings.SplitN` with two parts). -/
def cut (sep : Char) : List Char → Option (List Char × List Char)
  | [] => none
  | c :: cs => if c = sep then some ([], cs) else (cut sep cs).map fun p => (c :: p.1, p.2)

/-- `strings.Split` at a one-character separator. -/
def split (sep : Char) : List Char → List (List Char)
  | [] => [[]]
  | c :: cs =>
    if c = sep then [] :: split sep cs
    else match split sep cs with
      | [] => [[c]]
      | p :: ps => (c :: p) :: ps

/-- The representative of a character under simple case folding. Outside ASCII only the
two characters that fold to an ASCII letter matter here: one side of every comparison of
the sources is ASCII (a method token, a scheme, a host, a field name). -/
def foldRune (c : Char) : Char :=
  if c = '\u017f' then 's' else if c = '\u212a' then 'k' else c.toLower

/-- `strings.EqualFold`: equal ignoring case. -/
def equalFold (s t : String) : Bool := s.toList.map foldRune == t.toList.map foldRune

@[simp] theorem equalFold_refl (s : String) : equalFold s s = true := beq_self_eq_true _

theorem equalFold_comm (s t : String) : equalFold s t = equalFold t s := BEq.comm

/-! ## Splitting -/

/-- The two parts of a cut text. -/
theorem eq_of_cut {sep : Char} {l a b : List Char} (h : cut sep l = some (a, b)) :
    l = a ++ sep :: b := by
  induction l generalizing a with
  | nil => cases h
  | cons c l ih =>
    rw [cut] at h
    split at h
    · rename_i hc
      cases h
      rw [hc, List.nil_append]
    · obtain ⟨⟨a', b'⟩, hcut, heq⟩ := Option.map_eq_some_iff.mp h
      cases heq
      rw [ih hcut, List.cons_append]

/-- A text is cut at its first separator. -/
theorem cut_append {sep : Char} {a b : List Char} (ha : sep ∉ a) :
    cut sep (a ++ sep :: b) = some (a, b) := by
  induction a with
  | nil => simp [cut]
  | cons c a ih =>
    have hc : c ≠ sep := fun he => ha (he ▸ List.mem_cons_self)
    rw [List.cons_append, cut, if_neg hc, ih fun hm => ha (List.mem_cons_of_mem _ hm),
      Option.map_some]

/-- Texts equal ignoring case have the same characters up to case. -/
theorem foldRune_mem_of_equalFold {s t : String} (h : equalFold s t = true) {c : Char}
    (hc : c ∈ s.toList) : foldRune c ∈ t.toList.map foldRune := by
  rw [equalFold, beq_iff_eq] at h
  rw [← h]
  exact List.mem_map_of_mem hc

/-- A search passes over a text without the first character it looks for. -/
theorem fromFirst_append {c : Char} {pat a : List Char} (ha : c ∉ a) (b : List Char) :
    fromFirst (c :: pat) (a ++ b) = fromFirst (c :: pat) b := by
  induction a with
  | nil => rfl
  | cons d a ih =>
    have hd : ¬ c = d := fun heq => ha (heq ▸ List.mem_cons_self)
    have hpat : (c :: pat).isPrefixOf (d :: (a ++ b)) = false := by
      simp [List.isPrefixOf, hd]
    rw [List.cons_append, fromFirst, hpat]
    exact ih fun hm => ha (List.mem_cons_of_mem _ hm)

/-- A search stops where the text begins with what it looks for. -/
theorem fromFirst_self (c : Char) (pat b : List Char) :
    fromFirst (c :: pat) (c :: pat ++ b) = some (c :: pat ++ b) := by
  have hpat : (c :: pat).isPrefixOf (c :: (pat ++ b)) = true := by
    rw [← List.cons_append, List.isPrefixOf_iff_prefix]
    exact List.prefix_append _ _
  rw [List.cons_append, fromFirst, hpat, if_pos rfl]

theorem fromFirst_eq_none {c : Char} {pat a : List Char} (ha : c ∉ a) :
    fromFirst (c :: pat) a = none := by
  rw [← List.append_nil a, fromFirst_append ha]
  rfl

/-! ## Trimming -/

/-- White space and line ends of JavaScript. -/
def isJsSpace (c : Char) : Bool :=
  c ∈ ['\t', '\n', '\x0b', '\x0c', '\r', ' ', '\u00a0', '\u1680', '\u2028', '\u2029', '\u202f',
    '\u205f', '\u3000', '\ufeff'] || (0x2000 ≤ c.toNat && c.toNat ≤ 0x200a)

/-- `trim()` of JavaScript. -/
def jsTrim (s : String) : List Char := (s.toList.dropWhile isJsSpace).rdropWhile isJsSpace

/-- A text without white space is left as it is. -/
theorem jsTrim_eq {s : String} (h : ∀ c ∈ s.toList, isJsSpace c = false) : jsTrim s = s.toList := by
  have hdrop : s.toList.dropWhile isJsSpace = s.toList := by
    cases hs : s.toList with
    | nil => rfl
    | cons c l => rw [List.dropWhile_cons_of_neg (by simp [h c (by simp [hs])])]
  rw [jsTrim, hdrop, List.rdropWhile_eq_self_iff]
  intro hne
  simp [h _ (List.getLast_mem hne)]

/-! ## Separators -/

/-- A separator that occurs in neither first part splits a text in one way. -/
theorem append_cons_inj {α : Type*} {sep : α} {a a' b b' : List α} (ha : sep ∉ a)
    (ha' : sep ∉ a') (h : a ++ sep :: b = a' ++ sep :: b') : a = a' ∧ b = b' := by
  induction a generalizing a' with
  | nil =>
    cases a' with
    | nil => exact ⟨rfl, List.tail_eq_of_cons_eq h⟩
    | cons d a' =>
      rw [List.nil_append, List.cons_append] at h
      exact absurd (List.head_eq_of_cons_eq h) fun he => ha' (he ▸ List.mem_cons_self)
  | cons c a ih =>
    cases a' with
    | nil =>
      rw [List.nil_append, List.cons_append] at h
      exact absurd (List.head_eq_of_cons_eq h).symm fun he => ha (he ▸ List.mem_cons_self)
    | cons d a' =>
      rw [List.cons_append, List.cons_append, List.cons.injEq] at h
      obtain ⟨rfl, h⟩ := h
      obtain ⟨rfl, rfl⟩ := ih (fun hm => ha (List.mem_cons_of_mem _ hm))
        (fun hm => ha' (List.mem_cons_of_mem _ hm)) h
      exact ⟨rfl, rfl⟩

/-- The characters of one kind at the start of a text, up to the first one of another kind. -/
theorem append_inj_of_forall {α : Type*} {p : α → Prop} {l l' a b : List α} (hl : ∀ c ∈ l, p c)
    (hl' : ∀ c ∈ l', p c) (ha : ∀ c ∈ a.head?, ¬ p c) (hb : ∀ c ∈ b.head?, ¬ p c)
    (h : l ++ a = l' ++ b) : l = l' ∧ a = b := by
  induction l generalizing l' with
  | nil =>
    cases l' with
    | nil => exact ⟨rfl, h⟩
    | cons d l' =>
      have hhead : d ∈ a.head? := by
        rw [List.nil_append] at h
        rw [h]
        rfl
      exact absurd (hl' d List.mem_cons_self) (ha d hhead)
  | cons c l ih =>
    cases l' with
    | nil =>
      have hhead : c ∈ b.head? := by
        rw [List.nil_append] at h
        rw [← h]
        rfl
      exact absurd (hl c List.mem_cons_self) (hb c hhead)
    | cons d l' =>
      rw [List.cons_append, List.cons_append, List.cons.injEq] at h
      obtain ⟨rfl, h⟩ := h
      obtain ⟨rfl, hab⟩ := ih (fun x hx => hl x (List.mem_cons_of_mem _ hx))
        (fun x hx => hl' x (List.mem_cons_of_mem _ hx)) h
      exact ⟨rfl, hab⟩

end Strings
end Lib
