import Mathlib.Algebra.Ring.Int.Defs
import Mathlib.Data.List.TakeWhile

/-!
# Decimal texts of integers

What `%d` writes and what `Sscanf` reads back into a variable of 64 bits. Both directions agree
on every value of the type (`sscanInt_toString`).
-/

namespace Lib
namespace IntText

/-- Whether a text begins with a minus sign, and the text after its sign. -/
def cutSign : List Char → Bool × List Char
  | [] => (false, [])
  | c :: s => if c = '-' then (true, s) else if c = '+' then (false, s) else (false, c :: s)

/-- `fmt.Sscanf(s, "%d", &v)` with `v` zero before: blanks are skipped, a sign may come first, and
`v` keeps its value when there is no digit or the number does not fit. -/
def sscanInt (s : List Char) : Int64 :=
  let (negative, t) := cutSign (s.dropWhile (· == ' '))
  let digits := t.takeWhile Char.isDigit
  let n : ℤ := Nat.ofDigitChars 10 digits 0
  let v := if negative then -n else n
  if digits = [] ∨ v < -2 ^ 63 ∨ 2 ^ 63 ≤ v then 0 else Int64.ofInt v

/-- The text of an integer: the sign, and digits. -/
theorem toList_toString (n : ℤ) :
    (toString n).toList = (if n < 0 then ['-'] else []) ++ Nat.toDigits 10 n.natAbs := by
  cases n with
  | ofNat n =>
    show (Nat.repr n).toList = _
    simp [Nat.repr]
  | negSucc n =>
    show ("-" ++ Nat.repr (n + 1)).toList = _
    simp [Nat.repr]

theorem toList_toString_of_nonneg {n : ℤ} (h : 0 ≤ n) :
    (toString n).toList = Nat.toDigits 10 n.toNat := by
  have habs : n.natAbs = n.toNat := by omega
  rw [toList_toString, if_neg (by omega), List.nil_append, habs]

theorem isDigit_of_mem {n : ℕ} {c : Char} (h : c ∈ Nat.toDigits 10 n) : c.isDigit = true :=
  Nat.isDigit_of_mem_toDigits (by decide) (by decide) h

/-- The characters of an integer are digits and the sign. -/
theorem mem_toString {n : ℤ} {c : Char} (h : c ∈ (toString n).toList) :
    c = '-' ∨ c.isDigit = true := by
  rw [toList_toString, List.mem_append] at h
  rcases h with h | h
  · split at h
    · exact Or.inl (List.mem_singleton.mp h)
    · cases h
  · exact Or.inr (isDigit_of_mem h)

theorem notMem_toString {c : Char} (hsign : c ≠ '-') (hdigit : c.isDigit = false) (n : ℤ) :
    c ∉ (toString n).toList := by
  intro h
  rcases mem_toString h with rfl | h
  · exact hsign rfl
  · rw [hdigit] at h
    cases h

theorem toString_ne_empty (n : ℤ) : (toString n).toList ≠ [] := by
  rw [toList_toString]
  intro h
  exact Nat.toDigits_ne_nil (List.append_eq_nil_iff.mp h).2

/-- The digits of a number have no blank and no sign in front. -/
theorem cutSign_toDigits (n : ℕ) :
    cutSign ((Nat.toDigits 10 n).dropWhile (· == ' ')) = (false, Nat.toDigits 10 n) := by
  obtain ⟨c, s, heq⟩ := List.exists_cons_of_ne_nil (Nat.toDigits_ne_nil (n := n) (b := 10))
  have hdigit : c.isDigit = true := isDigit_of_mem (n := n) (by rw [heq]; exact List.mem_cons_self)
  have hblank : c ≠ ' ' := by
    rintro rfl
    exact absurd hdigit (by decide)
  have hminus : c ≠ '-' := by
    rintro rfl
    exact absurd hdigit (by decide)
  have hplus : c ≠ '+' := by
    rintro rfl
    exact absurd hdigit (by decide)
  rw [heq, List.dropWhile_cons_of_neg (by simpa using hblank), cutSign, if_neg hminus,
    if_neg hplus]

/-- What is written is read back. -/
theorem sscanInt_toString (v : Int64) : sscanInt (toString v.toInt).toList = v := by
  have hlt := v.toInt_lt
  have hle := v.le_toInt
  have hdigits : (Nat.toDigits 10 v.toInt.natAbs).takeWhile Char.isDigit =
      Nat.toDigits 10 v.toInt.natAbs :=
    List.takeWhile_eq_self_iff.mpr fun _ => isDigit_of_mem
  have hcut : cutSign ((toString v.toInt).toList.dropWhile (· == ' ')) =
      (decide (v.toInt < 0), Nat.toDigits 10 v.toInt.natAbs) := by
    rw [toList_toString]
    by_cases hneg : v.toInt < 0
    · rw [if_pos hneg, decide_eq_true hneg]
      rfl
    · rw [if_neg hneg, decide_eq_false hneg]
      exact cutSign_toDigits _
  have hvalue : (if decide (v.toInt < 0) = true then -(v.toInt.natAbs : ℤ) else v.toInt.natAbs) =
      v.toInt := by
    split
    · rename_i hneg
      have := of_decide_eq_true hneg
      omega
    · rename_i hneg
      have := of_decide_eq_false (Bool.eq_false_iff.mpr hneg)
      omega
  have hfits : ¬ (Nat.toDigits 10 v.toInt.natAbs = [] ∨ v.toInt < -2 ^ 63 ∨ 2 ^ 63 ≤ v.toInt) := by
    rintro (hnil | hlow | hhigh)
    · exact Nat.toDigits_ne_nil hnil
    · omega
    · omega
  rw [sscanInt, hcut]
  simp only [hdigits, Nat.ofDigitChars_ten_toDigits, hvalue, if_neg hfits, Int64.ofInt_toInt]

end IntText
end Lib
