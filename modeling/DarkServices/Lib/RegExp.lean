import Mathlib.Data.List.Basic

/-!
# Regular expressions without choice

Literal texts and captured runs `([...]+)` of characters of one class, one after the other, as
JavaScript matches them: a run takes as many characters as it can and gives them back one by
one, and the first start that matches wins. A run that ends where its class ends is captured
whole (`matchHere_run`).
-/

namespace Lib
namespace RegExp

/-- A part of an expression. -/
inductive Item
  | lit (text : List Char)
  | run (p : Char → Bool)

/-- The captured texts of a match that begins at the start of the text. -/
def matchHere : List Item → List Char → Option (List (List Char))
  | [], _ => some []
  | .lit text :: e, s => if text.isPrefixOf s then matchHere e (s.drop text.length) else none
  | .run p :: e, s =>
    (List.range (s.takeWhile p).length).reverse.findSome? fun k =>
      (matchHere e (s.drop (k + 1))).map (s.take (k + 1) :: ·)

/-- The captured texts of the leftmost match (`line.match(...)`). -/
def exec (e : List Item) : List Char → Option (List (List Char))
  | [] => matchHere e []
  | c :: s => (matchHere e (c :: s)).or (exec e s)

variable {e : List Item} {p : Char → Bool} {s w : List Char} {captured : List (List Char)}

@[simp] theorem matchHere_lit (text : List Char) :
    matchHere (.lit text :: e) (text ++ s) = matchHere e s := by
  have hprefix : text.isPrefixOf (text ++ s) = true :=
    List.isPrefixOf_iff_prefix.mpr (List.prefix_append _ _)
  rw [matchHere, if_pos hprefix, List.drop_left]

/-- A run is captured whole when the rest of the expression matches after it. -/
theorem matchHere_run (hne : w ≠ []) (hw : ∀ c ∈ w, p c = true) (hs : ∀ c ∈ s.head?, p c = false)
    (hrest : matchHere e s = some captured) :
    matchHere (.run p :: e) (w ++ s) = some (w :: captured) := by
  have hstop : s.takeWhile p = [] := by
    cases s with
    | nil => rfl
    | cons c s => rw [List.takeWhile_cons_of_neg (by simp [hs c rfl])]
  have hlong : (w ++ s).takeWhile p = w := by
    rw [List.takeWhile_append_of_pos hw, hstop, List.append_nil]
  obtain ⟨n, hn⟩ : ∃ n, w.length = n + 1 := Nat.exists_eq_succ_of_ne_zero (by simpa using hne)
  rw [matchHere, hlong, hn, List.range_succ, List.reverse_append, List.reverse_singleton,
    List.singleton_append, List.findSome?_cons, ← hn, List.drop_left, List.take_left, hrest]
  rfl

theorem exec_of_matchHere (h : matchHere e s = some captured) : exec e s = some captured := by
  cases s with
  | nil => exact h
  | cons c s => rw [exec, h, Option.some_or]

end RegExp
end Lib
