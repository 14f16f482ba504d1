import DarkServices.Lib.Json

/-!
# The text of a JSON value determines the value

A string of JSON text is read back one character at a time (`readEscaped`), whichever of the
two encoders has written it. So a string ends where its closing quotation mark stands, whatever
follows (`goString_append_inj`, `pgString_append_inj`).
-/

namespace Lib
namespace Json

/-! ## Escapes -/

/-- The character that a letter after a backslash stands for. -/
def unescapeLetter (e : Char) : Option Char :=
  ['"', '\\', '\x08', '\x0c', '\n', '\r', '\t'].find? fun c => shortEscape c == some e

/-- The number a list of hexadecimal digits denotes. -/
def natOfHex (l : List Char) : ℕ :=
  l.foldl (fun n c => 16 * n + "0123456789abcdef".toList.idxOf c) 0

/-- Read one character of a string, and what comes after it. -/
def readEscaped : List Char → Option (Char × List Char)
  | [] => none
  | c :: l =>
    if c = '\\' then
      match l with
      | [] => none
      | e :: l =>
        if e = 'u' then some (Char.ofNat (natOfHex (l.take 4)), l.drop 4)
        else (unescapeLetter e).map fun c => (c, l)
    else some (c, l)

/-- The encoder writes a character with one letter, as four digits, or as it is. -/
def IsEscape (f : Char → List Char) : Prop :=
  ∀ c, (∃ e, shortEscape c = some e ∧ f c = ['\\', e]) ∨
    (c.toNat < 65536 ∧ f c = unicodeEscape c) ∨ (c ≠ '"' ∧ c ≠ '\\' ∧ f c = [c])

theorem unescapeLetter_of_shortEscape {c e : Char} (h : shortEscape c = some e) :
    e ≠ 'u' ∧ unescapeLetter e = some c := by
  unfold shortEscape at h
  split_ifs at h with hquote hback hb hf hn hr ht
  all_goals
    cases h
    subst c
    decide

/-- What is written as it is needs no escape. -/
theorem ne_of_shortEscape_eq_none {c : Char} (h : shortEscape c = none) : c ≠ '"' ∧ c ≠ '\\' := by
  constructor
  · rintro rfl
    exact absurd h (by decide)
  · rintro rfl
    exact absurd h (by decide)

theorem isEscape_goEscape : IsEscape goEscape := by
  intro c
  unfold goEscape
  cases hshort : shortEscape c with
  | some e => exact Or.inl ⟨e, rfl, rfl⟩
  | none =>
    refine Or.inr ?_
    show (_ ∧ (if _ then unicodeEscape c else [c]) = _) ∨ _ ∧ _ ∧ (if _ then _ else [c]) = _
    by_cases hspecial : c.toNat < 0x20 ∨ c = '<' ∨ c = '>' ∨ c = '&' ∨ c = '\u2028' ∨ c = '\u2029'
    · refine Or.inl ⟨?_, if_pos hspecial⟩
      rcases hspecial with hlt | rfl | rfl | rfl | rfl | rfl
      · omega
      all_goals decide
    · obtain ⟨hquote, hback⟩ := ne_of_shortEscape_eq_none hshort
      exact Or.inr ⟨hquote, hback, if_neg hspecial⟩

theorem isEscape_pgEscape : IsEscape pgEscape := by
  intro c
  unfold pgEscape
  cases hshort : shortEscape c with
  | some e => exact Or.inl ⟨e, rfl, rfl⟩
  | none =>
    refine Or.inr ?_
    show (_ ∧ (if _ then unicodeEscape c else [c]) = _) ∨ _ ∧ _ ∧ (if _ then _ else [c]) = _
    by_cases hcontrol : c.toNat < 0x20
    · exact Or.inl ⟨by omega, if_pos hcontrol⟩
    · obtain ⟨hquote, hback⟩ := ne_of_shortEscape_eq_none hshort
      exact Or.inr ⟨hquote, hback, if_neg hcontrol⟩

theorem idxOf_hexDigit : ∀ n < 16, "0123456789abcdef".toList.idxOf (hexDigit n) = n := by decide

/-- The four digits of a character denote its number. -/
theorem natOfHex_digits {n : ℕ} (h : n < 65536) :
    natOfHex [hexDigit (n / 4096 % 16), hexDigit (n / 256 % 16), hexDigit (n / 16 % 16),
      hexDigit (n % 16)] = n := by
  have hdigit : ∀ k, "0123456789abcdef".toList.idxOf (hexDigit (k % 16)) = k % 16 :=
    fun k => idxOf_hexDigit _ (Nat.mod_lt _ (by decide))
  simp only [natOfHex, List.foldl_cons, List.foldl_nil, hdigit]
  omega

section

variable {f : Char → List Char} (hf : IsEscape f)

include hf

/-- A character is read back, whatever follows it. -/
theorem IsEscape.readEscaped (c : Char) (rest : List Char) :
    readEscaped (f c ++ rest) = some (c, rest) := by
  rcases hf c with ⟨e, hshort, hfc⟩ | ⟨hlt, hfc⟩ | ⟨-, hback, hfc⟩
  · obtain ⟨hu, hletter⟩ := unescapeLetter_of_shortEscape hshort
    rw [hfc]
    show (if e = 'u' then _ else (unescapeLetter e).map fun c => (c, rest)) = _
    rw [if_neg hu, hletter]
    rfl
  · rw [hfc]
    show some (Char.ofNat (natOfHex [_, _, _, _]), rest) = _
    rw [natOfHex_digits hlt, Char.ofNat_toNat]
  · rw [hfc]
    show (if c = '\\' then _ else some (c, rest)) = _
    rw [if_neg hback]

/-- No character is written with a quotation mark at the start. -/
theorem IsEscape.ne_quote (c : Char) (a b : List Char) : f c ++ a ≠ '"' :: b := by
  intro h
  rcases hf c with ⟨e, -, hfc⟩ | ⟨-, hfc⟩ | ⟨hquote, -, hfc⟩
  · rw [hfc] at h
    exact absurd (List.head_eq_of_cons_eq h) (by decide)
  · rw [hfc] at h
    exact absurd (List.head_eq_of_cons_eq h) (by decide)
  · rw [hfc] at h
    exact hquote (List.head_eq_of_cons_eq h)

/-- A string ends at its closing quotation mark. -/
theorem IsEscape.flatMap_inj {l l' a b : List Char}
    (h : l.flatMap f ++ '"' :: a = l'.flatMap f ++ '"' :: b) : l = l' ∧ a = b := by
  induction l generalizing l' with
  | nil =>
    cases l' with
    | nil => exact ⟨rfl, List.tail_eq_of_cons_eq h⟩
    | cons d l' =>
      rw [List.flatMap_cons, List.append_assoc] at h
      exact absurd h.symm (hf.ne_quote d _ _)
  | cons c l ih =>
    cases l' with
    | nil =>
      rw [List.flatMap_cons, List.append_assoc] at h
      exact absurd h (hf.ne_quote c _ _)
    | cons d l' =>
      rw [List.flatMap_cons, List.flatMap_cons, List.append_assoc, List.append_assoc] at h
      have hread := congrArg Json.readEscaped h
      rw [hf.readEscaped, hf.readEscaped, Option.some.injEq, Prod.mk.injEq] at hread
      obtain ⟨rfl, hrest⟩ := hread
      obtain ⟨rfl, hab⟩ := ih hrest
      exact ⟨rfl, hab⟩

end

/-- A string of `json.Marshal` determines the string, whatever follows it. -/
theorem goString_append_inj {s s' : String} {a b : List Char}
    (h : goString s ++ a = goString s' ++ b) : s = s' ∧ a = b := by
  simp only [goString, List.cons_append, List.append_assoc, List.nil_append, List.cons.injEq,
    true_and] at h
  obtain ⟨hs, hab⟩ := isEscape_goEscape.flatMap_inj h
  exact ⟨String.toList_inj.mp hs, hab⟩

/-- A string of JSONB text determines the string, whatever follows it. -/
theorem pgString_append_inj {s s' : String} {a b : List Char}
    (h : (pgString s).toList ++ a = (pgString s').toList ++ b) : s = s' ∧ a = b := by
  simp only [pgString, String.toList_ofList, List.cons_append, List.append_assoc, List.nil_append,
    List.cons.injEq, true_and] at h
  obtain ⟨hs, hab⟩ := isEscape_pgEscape.flatMap_inj h
  exact ⟨String.toList_inj.mp hs, hab⟩

end Json
end Lib
