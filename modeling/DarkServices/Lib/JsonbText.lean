import DarkServices.Lib.JsonText

/-!
# The text of a JSONB value determines the value

`jsonbText_append_inj`: whatever follows the text of a value, the text determines the value. The
proof follows the grammar: numbers, strings, and lists of elements or members up to their
closing bracket.

A separator may occur in the strings of JSONB text. Still such text ends a text in which the
separator stands before it in one way only (`append_jsonbText_inj`): what follows a separator
inside a string cannot end outside all strings (`after_inside_ne`).
-/

namespace Lib

/-! ## Numbers -/

namespace Decimal

/-- What may come after a value: nothing, a comma or a closing bracket. -/
def Stops (a : List Char) : Prop := ∀ c ∈ a.head?, c = ',' ∨ c = ']' ∨ c = '\x7d'

theorem stops_nil : Stops [] := fun _ h => nomatch h

/-- The digits after the point, with the point. -/
def fraction (d : Decimal) : List Char :=
  if d.scale = 0 then []
  else '.' :: (Nat.toDigits 10 (d.coeff.natAbs % 10 ^ d.scale)).leftpad d.scale '0'

theorem toList_text (d : Decimal) : d.text.toList =
    (if d.coeff < 0 then ['-'] else []) ++
      (Nat.toDigits 10 (d.coeff.natAbs / 10 ^ d.scale) ++ d.fraction) := by
  unfold text fraction
  have hsign : (if d.coeff < 0 then "-" else "").toList = if d.coeff < 0 then ['-'] else [] := by
    split_ifs <;> rfl
  have hpoint : ".".toList = ['.'] := rfl
  by_cases hscale : d.scale = 0
  · simp [hscale, hsign]
  · simp [hscale, hsign, hpoint]

theorem isDigit_of_mem_toDigits {n : ℕ} {c : Char} (h : c ∈ Nat.toDigits 10 n) :
    c.isDigit = true :=
  Nat.isDigit_of_mem_toDigits (by decide) (by decide) h

theorem toDigits_inj {n n' : ℕ} (h : Nat.toDigits 10 n = Nat.toDigits 10 n') : n = n' := by
  rw [← Nat.ofDigitChars_ten_toDigits (n := n), h, Nat.ofDigitChars_ten_toDigits]

/-- A fraction has as many digits as the scale says. -/
theorem length_fractionDigits (d : Decimal) (h : d.scale ≠ 0) :
    ((Nat.toDigits 10 (d.coeff.natAbs % 10 ^ d.scale)).leftpad d.scale '0').length = d.scale := by
  have hlt : d.coeff.natAbs % 10 ^ d.scale < 10 ^ d.scale :=
    Nat.mod_lt _ (Nat.pow_pos (by decide))
  have hle := (Nat.length_toDigits_le_iff (by decide) (Nat.pos_of_ne_zero h)).mpr hlt
  rw [List.length_leftpad]
  omega

theorem ofDigitChars_leftpad (k n : ℕ) :
    Nat.ofDigitChars 10 ((Nat.toDigits 10 n).leftpad k '0') 0 = n := by
  rw [List.leftpad, Nat.ofDigitChars_append, Nat.ofDigitChars_replicate_zero, Nat.mul_zero,
    Nat.ofDigitChars_ten_toDigits]

theorem isDigit_of_mem_leftpad {k n : ℕ} {c : Char}
    (h : c ∈ (Nat.toDigits 10 n).leftpad k '0') : c.isDigit = true := by
  rw [List.leftpad, List.mem_append, List.mem_replicate] at h
  rcases h with ⟨-, rfl⟩ | h
  · decide
  · exact isDigit_of_mem_toDigits h

/-- No digit follows a value. -/
theorem Stops.not_digit {a : List Char} (h : Stops a) : ∀ c ∈ a.head?, ¬ c.isDigit = true := by
  intro c hc
  rcases h c hc with rfl | rfl | rfl
  all_goals decide

/-- No digit follows the digits before the point. -/
theorem Stops.fraction_not_digit {a : List Char} (h : Stops a) (d : Decimal) :
    ∀ c ∈ (d.fraction ++ a).head?, ¬ c.isDigit = true := by
  unfold fraction
  split_ifs with hscale
  · exact h.not_digit
  · intro c hc
    have hpoint : '.' = c := Option.some.inj hc
    subst hpoint
    decide

/-- The fraction determines the scale and the digits after the point. -/
theorem fraction_append_inj {d d' : Decimal} {a b : List Char} (ha : Stops a) (hb : Stops b)
    (h : d.fraction ++ a = d'.fraction ++ b) :
    d.scale = d'.scale ∧
      d.coeff.natAbs % 10 ^ d.scale = d'.coeff.natAbs % 10 ^ d'.scale ∧ a = b := by
  -- what follows a value is no point
  have hpoint : ∀ {x : List Char} {l : List Char}, Stops x → x ≠ '.' :: l := by
    intro x l hx heq
    rw [heq] at hx
    exact absurd (hx '.' rfl) (by decide)
  unfold fraction at h
  split_ifs at h with hscale hscale' hscale'
  · rw [hscale, hscale', pow_zero, Nat.mod_one, Nat.mod_one]
    exact ⟨rfl, rfl, h⟩
  · exact absurd h (hpoint ha)
  · exact absurd h.symm (hpoint hb)
  · obtain ⟨hdigits, hab⟩ := Strings.append_inj_of_forall (fun _ => isDigit_of_mem_leftpad)
      (fun _ => isDigit_of_mem_leftpad) ha.not_digit hb.not_digit (List.tail_eq_of_cons_eq h)
    have hlength := congrArg List.length hdigits
    rw [length_fractionDigits d hscale, length_fractionDigits d' hscale'] at hlength
    have hvalue := congrArg (fun l => Nat.ofDigitChars 10 l 0) hdigits
    simp only [ofDigitChars_leftpad] at hvalue
    exact ⟨hlength, hvalue, hab⟩

/-- The text of a number determines the number, when no digit or point follows. -/
theorem text_append_inj {d d' : Decimal} {a b : List Char} (ha : Stops a) (hb : Stops b)
    (h : d.text.toList ++ a = d'.text.toList ++ b) : d = d' ∧ a = b := by
  rw [toList_text, toList_text, List.append_assoc, List.append_assoc, List.append_assoc,
    List.append_assoc] at h
  -- a digit is no sign
  have hsign : ∀ n l l', Nat.toDigits 10 n ++ l ≠ '-' :: l' := by
    intro n l l' heq
    have hhead : '-' ∈ Nat.toDigits 10 n := by
      cases hn : Nat.toDigits 10 n with
      | nil => exact absurd hn Nat.toDigits_ne_nil
      | cons c cs =>
        rw [hn, List.cons_append] at heq
        rw [List.head_eq_of_cons_eq heq]
        exact List.mem_cons_self
    exact absurd (isDigit_of_mem_toDigits hhead) (by decide)
  have hnumber : (d.coeff < 0 ↔ d'.coeff < 0) ∧
      Nat.toDigits 10 (d.coeff.natAbs / 10 ^ d.scale) ++ (d.fraction ++ a) =
        Nat.toDigits 10 (d'.coeff.natAbs / 10 ^ d'.scale) ++ (d'.fraction ++ b) := by
    split_ifs at h with hneg hneg' hneg'
    · exact ⟨iff_of_true hneg hneg', List.tail_eq_of_cons_eq h⟩
    · exact absurd h.symm (hsign _ _ _)
    · exact absurd h (hsign _ _ _)
    · exact ⟨iff_of_false hneg hneg', h⟩
  obtain ⟨hneg, hdigits⟩ := hnumber
  obtain ⟨hint, hrest⟩ := Strings.append_inj_of_forall (fun _ => isDigit_of_mem_toDigits)
    (fun _ => isDigit_of_mem_toDigits) (ha.fraction_not_digit d) (hb.fraction_not_digit d') hdigits
  obtain ⟨hscale, hmod, hab⟩ := fraction_append_inj ha hb hrest
  have hdiv := toDigits_inj hint
  have habs : d.coeff.natAbs = d'.coeff.natAbs := by
    rw [← Nat.div_add_mod d.coeff.natAbs (10 ^ d.scale), hdiv, hmod, hscale, Nat.div_add_mod]
  have hcoeff : d.coeff = d'.coeff := by omega
  refine ⟨?_, hab⟩
  cases d
  cases d'
  cases hscale
  cases hcoeff
  rfl

end Decimal

/-! ## Values -/

namespace Json

open Decimal (Stops)

/-- The first characters that tell the kinds of values apart. A number has none of them. -/
def kinds : List Char := ['n', 't', 'f', '"', '[', '\x7b', ']']

/-- The kind of a value. -/
def kind : Json → ℕ
  | .null => 0
  | .bool true => 1
  | .bool false => 2
  | .str _ => 3
  | .arr _ => 4
  | .obj _ => 5
  | .num _ => 7

theorem idxOf_kinds_of_isDigit {c : Char} (h : c.isDigit = true) : kinds.idxOf c = 7 := by
  have hnot : c ∉ kinds := by
    intro hmem
    have hall : (kinds.all fun c => !c.isDigit) = true := by decide
    have hnot := List.all_eq_true.mp hall c hmem
    rw [h] at hnot
    cases hnot
  exact List.idxOf_eq_length hnot

/-- The text of a number starts with a sign or a digit. -/
theorem head_text (d : Decimal) : ∃ c l, d.text.toList = c :: l ∧ kinds.idxOf c = 7 := by
  rw [Decimal.toList_text]
  split_ifs
  · exact ⟨'-', _, rfl, by decide⟩
  · cases hn : Nat.toDigits 10 (d.coeff.natAbs / 10 ^ d.scale) with
    | nil => exact absurd hn Nat.toDigits_ne_nil
    | cons c l =>
      have hdigit : c.isDigit = true := by
        apply Decimal.isDigit_of_mem_toDigits (n := d.coeff.natAbs / 10 ^ d.scale)
        rw [hn]
        exact List.mem_cons_self
      exact ⟨c, _, rfl, idxOf_kinds_of_isDigit hdigit⟩

/-- The first character of a text tells the kind of its value. -/
theorem head_jsonbText (j : Json) :
    ∃ c l, (jsonbText j).toList = c :: l ∧ kinds.idxOf c = kind j := by
  cases j with
  | null => exact ⟨'n', _, rfl, by decide⟩
  | bool b => cases b <;> exact ⟨_, _, rfl, by decide⟩
  | num d => exact head_text d
  | str s => exact ⟨'"', _, String.toList_ofList, rfl⟩
  | arr l =>
    rw [jsonbText, String.toList_append, String.toList_append]
    exact ⟨'[', _, rfl, rfl⟩
  | obj m =>
    rw [jsonbText, String.toList_append, String.toList_append]
    exact ⟨'\x7b', _, rfl, rfl⟩

theorem kind_eq_of_append {j j' : Json} {a b : List Char}
    (h : (jsonbText j).toList ++ a = (jsonbText j').toList ++ b) : kind j = kind j' := by
  obtain ⟨c, l, hj, hc⟩ := head_jsonbText j
  obtain ⟨c', l', hj', hc'⟩ := head_jsonbText j'
  rw [hj, hj', List.cons_append, List.cons_append] at h
  rw [← hc, ← hc', List.head_eq_of_cons_eq h]

/-- No value starts with a closing bracket. -/
theorem ne_bracket (j : Json) (a b : List Char) : (jsonbText j).toList ++ a ≠ ']' :: b := by
  intro h
  obtain ⟨c, l, hj, hc⟩ := head_jsonbText j
  rw [hj, List.cons_append] at h
  have hbracket : kinds.idxOf ']' = 6 := by decide
  rw [List.head_eq_of_cons_eq h, hbracket] at hc
  cases j with
  | bool b => cases b <;> cases hc
  | _ => cases hc

/-- What follows the first element of a list: its closing bracket, or the other elements. -/
def listRest (close : Char) (last : Bool) (others a : List Char) : List Char :=
  if last then close :: a else ", ".toList ++ (others ++ close :: a)

theorem stops_listRest {close : Char} (hclose : close = ']' ∨ close = '\x7d') (last : Bool)
    (others a : List Char) : Stops (listRest close last others a) := by
  intro c hc
  cases last with
  | true =>
    have hc' : close = c := Option.some.inj hc
    subst hc'
    exact Or.inr hclose
  | false => exact Or.inl (Option.some.inj hc).symm

theorem listRest_inj {close : Char} (hclose : close ≠ ',') {last last' : Bool}
    {others others' a b : List Char}
    (h : listRest close last others a = listRest close last' others' b) :
    (last = true ∧ last' = true ∧ a = b) ∨
      (last = false ∧ last' = false ∧ others ++ close :: a = others' ++ close :: b) := by
  cases last <;> cases last'
  · exact Or.inr ⟨rfl, rfl, List.append_cancel_left h⟩
  · exact absurd (List.head_eq_of_cons_eq h).symm hclose
  · exact absurd (List.head_eq_of_cons_eq h) hclose
  · exact Or.inl ⟨rfl, rfl, List.tail_eq_of_cons_eq h⟩

theorem toList_jsonbText_arr (l : List Json) (a : List Char) :
    (jsonbText (.arr l)).toList ++ a = '[' :: ((jsonbTextList l).toList ++ ']' :: a) := by
  rw [jsonbText, String.toList_append, String.toList_append, List.append_assoc, List.append_assoc]
  rfl

theorem toList_jsonbText_obj (m : Members) (a : List Char) :
    (jsonbText (.obj m)).toList ++ a =
      '\x7b' :: ((jsonbTextMembers m).toList ++ '\x7d' :: a) := by
  rw [jsonbText, String.toList_append, String.toList_append, List.append_assoc, List.append_assoc]
  rfl

theorem toList_jsonbTextList (j : Json) (l : List Json) (a : List Char) :
    (jsonbTextList (j :: l)).toList ++ ']' :: a =
      (jsonbText j).toList ++ listRest ']' l.isEmpty (jsonbTextList l).toList a := by
  cases l with
  | nil => rfl
  | cons k l =>
    have htext : jsonbTextList (j :: k :: l) = jsonbText j ++ ", " ++ jsonbTextList (k :: l) := rfl
    rw [htext, String.toList_append, String.toList_append, List.append_assoc, List.append_assoc]
    rfl

theorem toList_jsonbTextMembers (k : String) (v : Json) (m : Members) (a : List Char) :
    (jsonbTextMembers ((k, v) :: m)).toList ++ '\x7d' :: a =
      (pgString k).toList ++ (": ".toList ++ ((jsonbText v).toList ++
        listRest '\x7d' m.isEmpty (jsonbTextMembers m).toList a)) := by
  cases m with
  | nil =>
    have htext : jsonbTextMembers [(k, v)] = pgString k ++ ": " ++ jsonbText v := rfl
    rw [htext, String.toList_append, String.toList_append, List.append_assoc, List.append_assoc]
    rfl
  | cons q m =>
    have htext : jsonbTextMembers ((k, v) :: q :: m) =
        pgString k ++ ": " ++ jsonbText v ++ ", " ++ jsonbTextMembers (q :: m) := rfl
    rw [htext]
    simp only [String.toList_append, List.append_assoc]
    rfl

theorem toList_pgString (s : String) :
    (pgString s).toList = '"' :: (s.toList.flatMap pgEscape ++ ['"']) := by
  rw [pgString, String.toList_ofList, List.cons_append]

mutual

/-- **The text of a JSONB value determines the value**, whatever follows it. -/
theorem jsonbText_append_inj (j j' : Json) {a b : List Char} (ha : Stops a) (hb : Stops b)
    (h : (jsonbText j).toList ++ a = (jsonbText j').toList ++ b) : j = j' ∧ a = b := by
  have hkind := kind_eq_of_append h
  cases j with
  | null =>
    cases j' with
    | null => exact ⟨rfl, List.append_cancel_left h⟩
    | bool b => cases b <;> cases hkind
    | _ => cases hkind
  | bool v =>
    cases j' with
    | bool w =>
      cases v <;> cases w
      · exact ⟨rfl, List.append_cancel_left h⟩
      · cases hkind
      · cases hkind
      · exact ⟨rfl, List.append_cancel_left h⟩
    | _ => cases v <;> cases hkind
  | num d =>
    cases j' with
    | num d' =>
      obtain ⟨rfl, hab⟩ := Decimal.text_append_inj ha hb h
      exact ⟨rfl, hab⟩
    | bool b => cases b <;> cases hkind
    | _ => cases hkind
  | str s =>
    cases j' with
    | str s' =>
      obtain ⟨rfl, hab⟩ := pgString_append_inj h
      exact ⟨rfl, hab⟩
    | bool b => cases b <;> cases hkind
    | _ => cases hkind
  | arr l =>
    cases j' with
    | arr l' =>
      rw [toList_jsonbText_arr, toList_jsonbText_arr] at h
      obtain ⟨rfl, hab⟩ := jsonbTextList_append_inj l l' (List.tail_eq_of_cons_eq h)
      exact ⟨rfl, hab⟩
    | bool b => cases b <;> cases hkind
    | _ => cases hkind
  | obj m =>
    cases j' with
    | obj m' =>
      rw [toList_jsonbText_obj, toList_jsonbText_obj] at h
      obtain ⟨rfl, hab⟩ := jsonbTextMembers_append_inj m m' (List.tail_eq_of_cons_eq h)
      exact ⟨rfl, hab⟩
    | bool b => cases b <;> cases hkind
    | _ => cases hkind

theorem jsonbTextList_append_inj (l l' : List Json) {a b : List Char}
    (h : (jsonbTextList l).toList ++ ']' :: a = (jsonbTextList l').toList ++ ']' :: b) :
    l = l' ∧ a = b := by
  cases l with
  | nil =>
    cases l' with
    | nil => exact ⟨rfl, List.tail_eq_of_cons_eq h⟩
    | cons j' l' =>
      rw [toList_jsonbTextList] at h
      exact absurd h.symm (ne_bracket j' _ _)
  | cons j l =>
    cases l' with
    | nil =>
      rw [toList_jsonbTextList] at h
      exact absurd h (ne_bracket j _ _)
    | cons j' l' =>
      rw [toList_jsonbTextList, toList_jsonbTextList] at h
      obtain ⟨rfl, hrest⟩ := jsonbText_append_inj j j' (stops_listRest (by decide) _ _ _)
        (stops_listRest (by decide) _ _ _) h
      rcases listRest_inj (by decide) hrest with ⟨hnil, hnil', hab⟩ | ⟨-, -, hrest⟩
      · rw [List.isEmpty_iff.mp hnil, List.isEmpty_iff.mp hnil']
        exact ⟨rfl, hab⟩
      · obtain ⟨rfl, hab⟩ := jsonbTextList_append_inj l l' hrest
        exact ⟨rfl, hab⟩

theorem jsonbTextMembers_append_inj (m m' : Members) {a b : List Char}
    (h : (jsonbTextMembers m).toList ++ '\x7d' :: a =
      (jsonbTextMembers m').toList ++ '\x7d' :: b) : m = m' ∧ a = b := by
  cases m with
  | nil =>
    cases m' with
    | nil => exact ⟨rfl, List.tail_eq_of_cons_eq h⟩
    | cons p' m' =>
      rw [toList_jsonbTextMembers, toList_pgString] at h
      exact absurd (List.head_eq_of_cons_eq h) (by decide)
  | cons p m =>
    cases m' with
    | nil =>
      rw [toList_jsonbTextMembers, toList_pgString] at h
      exact absurd (List.head_eq_of_cons_eq h) (by decide)
    | cons p' m' =>
      rw [toList_jsonbTextMembers, toList_jsonbTextMembers] at h
      obtain ⟨k, v⟩ := p
      obtain ⟨k', v'⟩ := p'
      obtain ⟨rfl, hvalue⟩ := pgString_append_inj h
      obtain ⟨rfl, hrest⟩ := jsonbText_append_inj v v' (stops_listRest (by decide) _ _ _)
        (stops_listRest (by decide) _ _ _) (List.append_cancel_left hvalue)
      rcases listRest_inj (by decide) hrest with ⟨hnil, hnil', hab⟩ | ⟨-, -, hrest⟩
      · rw [List.isEmpty_iff.mp hnil, List.isEmpty_iff.mp hnil']
        exact ⟨rfl, hab⟩
      · obtain ⟨rfl, hab⟩ := jsonbTextMembers_append_inj m m' hrest
        exact ⟨rfl, hab⟩

end

/-! ## Strings inside a text -/

/-- Where a character of a text stands: outside its strings, in one, or after a backslash. -/
inductive Place
  | outside
  | inside
  | escaped

/-- Read one character. A backslash or a separator outside the strings is refused. -/
def Place.next (sep : Char) : Place → Char → Option Place
  | .outside, c =>
    if c = '"' then some .inside else if c = '\\' ∨ c = sep then none else some .outside
  | .inside, c =>
    if c = '"' then some .outside else if c = '\\' then some .escaped else some .inside
  | .escaped, _ => some .inside

/-- Read a text. -/
def Place.after (sep : Char) (p : Place) (l : List Char) : Option Place :=
  l.foldlM (Place.next sep) p

/-- The characters of JSONB text outside its strings, digits apart. -/
def marks : List Char :=
  ['n', 'u', 'l', 't', 'r', 'e', 'f', 'a', 's', '-', '.', '[', ']', '\x7b', '\x7d', ',', ' ', ':']

/-- JSONB text has the character only in its strings. -/
structure IsSeparator (sep : Char) : Prop where
  digit : sep.isDigit = false
  quote : sep ≠ '"'
  backslash : sep ≠ '\\'
  mark : sep ∉ marks

section

variable {sep : Char}

theorem after_cons {p q : Place} {c : Char} {l : List Char} (h : p.next sep c = some q) :
    p.after sep (c :: l) = q.after sep l := by
  rw [Place.after, List.foldlM_cons, h]
  rfl

/-- Characters that open no string are read outside. -/
theorem after_of_plain {l : List Char}
    (h : ∀ c ∈ l, c ≠ '"' ∧ c ≠ '\\' ∧ c ≠ sep) (l' : List Char) :
    Place.outside.after sep (l ++ l') = Place.outside.after sep l' := by
  induction l with
  | nil => rfl
  | cons c l ih =>
    obtain ⟨hquote, hback, hsep⟩ := h c List.mem_cons_self
    have hnext : Place.outside.next sep c = some .outside := by
      rw [Place.next, if_neg hquote, if_neg (not_or.mpr ⟨hback, hsep⟩)]
    rw [List.cons_append, after_cons hnext]
    exact ih fun d hd => h d (List.mem_cons_of_mem _ hd)

/-- **A text is read from one place only**: what is outside its strings for one reading is
inside them for the other, so that both cannot end outside. -/
theorem after_inside_ne {l : List Char} (h : Place.outside.after sep l = some .outside) :
    Place.inside.after sep l ≠ some .outside := by
  induction l with
  | nil => exact fun h' => nomatch h'
  | cons c l ih =>
    intro h'
    by_cases hquote : c = '"'
    · -- a quotation mark exchanges the two readings
      subst hquote
      rw [after_cons (q := .inside) rfl] at h
      rw [after_cons (q := .outside) rfl] at h'
      exact ih h' h
    by_cases hrefused : c = '\\' ∨ c = sep
    · have hnext : Place.outside.next sep c = none := by
        rw [Place.next, if_neg hquote, if_pos hrefused]
      rw [Place.after, List.foldlM_cons, hnext] at h
      exact nomatch h
    · have hout : Place.outside.next sep c = some .outside := by
        rw [Place.next, if_neg hquote, if_neg hrefused]
      have hin : Place.inside.next sep c = some .inside := by
        rw [Place.next, if_neg hquote, if_neg fun h => hrefused (Or.inl h)]
      rw [after_cons hout] at h
      rw [after_cons hin] at h'
      exact ih h h'

/-- After a separator a text goes on inside a string. -/
theorem after_separator (hsep : IsSeparator sep) {p q : Place} {l l' : List Char}
    (h : p.after sep (l ++ sep :: l') = some q) : Place.inside.after sep l' = some q := by
  rw [Place.after, List.foldlM_append, Option.bind_eq_bind, Option.bind_eq_some_iff] at h
  obtain ⟨r, -, hr⟩ := h
  cases r with
  | outside =>
    have hnext : Place.outside.next sep sep = none := by
      rw [Place.next, if_neg hsep.quote, if_pos (Or.inr rfl)]
    rw [List.foldlM_cons, hnext] at hr
    exact nomatch hr
  | inside =>
    have hnext : Place.inside.next sep sep = some .inside := by
      rw [Place.next, if_neg hsep.quote, if_neg hsep.backslash]
    rw [List.foldlM_cons, hnext] at hr
    exact hr
  | escaped => exact hr

/-! ## Separators after which JSONB text ends a text -/

/-- A character of a string is read inside the string. -/
theorem IsEscape.after_inside {f : Char → List Char} (hf : IsEscape f) (c : Char)
    (l : List Char) : Place.inside.after sep (f c ++ l) = Place.inside.after sep l := by
  have hplain : ∀ d, d ≠ '"' → d ≠ '\\' → Place.inside.next sep d = some .inside := by
    intro d hquote hback
    rw [Place.next, if_neg hquote, if_neg hback]
  have hdigit : ∀ n, Place.inside.next sep (hexDigit n) = some .inside := by
    intro n
    have hall : ("0123456789abcdef".toList.all fun d => decide (d ≠ '"' ∧ d ≠ '\\')) = true := by
      decide
    have hne := of_decide_eq_true (List.all_eq_true.mp hall _ (hexDigit_mem n))
    exact hplain _ hne.1 hne.2
  rcases hf c with ⟨e, -, hfc⟩ | ⟨-, hfc⟩ | ⟨hquote, hback, hfc⟩
  · rw [hfc]
    rfl
  · rw [hfc]
    show Place.inside.after sep (hexDigit _ :: hexDigit _ :: hexDigit _ :: hexDigit _ :: l) = _
    rw [after_cons (hdigit _), after_cons (hdigit _), after_cons (hdigit _),
      after_cons (hdigit _)]
  · rw [hfc]
    exact after_cons (hplain c hquote hback)

/-- A string is closed where it ends. -/
theorem after_pgString (s : String) (l : List Char) :
    Place.outside.after sep ((pgString s).toList ++ l) = Place.outside.after sep l := by
  have hchars : ∀ cs : List Char, Place.inside.after sep (cs.flatMap pgEscape ++ '"' :: l) =
      Place.outside.after sep l := by
    intro cs
    induction cs with
    | nil => rfl
    | cons c cs ih =>
      rw [List.flatMap_cons, List.append_assoc, isEscape_pgEscape.after_inside, ih]
  rw [toList_pgString, List.cons_append, List.append_assoc, after_cons (q := .inside) rfl]
  exact hchars s.toList

section

variable (hsep : IsSeparator sep)

include hsep

/-- Digits and marks open no string. -/
theorem IsSeparator.plain {l : List Char} (hl : ∀ c ∈ l, c.isDigit = true ∨ c ∈ marks) :
    ∀ c ∈ l, c ≠ '"' ∧ c ≠ '\\' ∧ c ≠ sep := by
  intro c hc
  refine ⟨?_, ?_, ?_⟩
  · rintro rfl
    exact absurd (hl _ hc) (by decide)
  · rintro rfl
    exact absurd (hl _ hc) (by decide)
  · rintro rfl
    rcases hl _ hc with hdigit | hmark
    · rw [hsep.digit] at hdigit
      cases hdigit
    · exact hsep.mark hmark

theorem after_marks {l : List Char} (hl : (l.all fun c => decide (c ∈ marks)) = true)
    (l' : List Char) : Place.outside.after sep (l ++ l') = Place.outside.after sep l' :=
  after_of_plain (hsep.plain fun c hc => Or.inr (of_decide_eq_true (List.all_eq_true.mp hl c hc))) l'

theorem after_text (d : Decimal) (l : List Char) :
    Place.outside.after sep (d.text.toList ++ l) = Place.outside.after sep l := by
  apply after_of_plain (hsep.plain _)
  intro c hc
  rw [Decimal.toList_text, List.mem_append, List.mem_append] at hc
  rcases hc with hsign | hint | hfraction
  · split_ifs at hsign
    · rw [List.mem_singleton.mp hsign]
      exact Or.inr (by decide)
    · cases hsign
  · exact Or.inl (Decimal.isDigit_of_mem_toDigits hint)
  · unfold Decimal.fraction at hfraction
    split_ifs at hfraction
    · cases hfraction
    · rcases List.mem_cons.mp hfraction with rfl | hdigit
      · exact Or.inr (by decide)
      · exact Or.inl (Decimal.isDigit_of_mem_leftpad hdigit)

theorem after_close {close : Char} (hclose : close ∈ marks) (l : List Char) :
    Place.outside.after sep (close :: l) = Place.outside.after sep l :=
  after_marks hsep (l := [close]) (by simpa using hclose) l

theorem after_listRest {close : Char} (hclose : close ∈ marks) (last : Bool)
    {others l : List Char} (hothers : Place.outside.after sep (others ++ close :: l) =
      Place.outside.after sep l) :
    Place.outside.after sep (listRest close last others l) = Place.outside.after sep l := by
  cases last with
  | true => exact after_close hsep hclose l
  | false =>
    show Place.outside.after sep (", ".toList ++ (others ++ close :: l)) = _
    rw [after_marks hsep (by decide), hothers]

mutual

/-- A value is closed where its text ends. -/
theorem after_jsonbText (j : Json) (l : List Char) :
    Place.outside.after sep ((jsonbText j).toList ++ l) = Place.outside.after sep l := by
  cases j with
  | null => exact after_marks hsep (by decide) l
  | bool b => cases b <;> exact after_marks hsep (by decide) l
  | num d => exact after_text hsep d l
  | str s => exact after_pgString s l
  | arr a =>
    rw [toList_jsonbText_arr, after_close hsep (by decide)]
    exact after_jsonbTextList a l
  | obj m =>
    rw [toList_jsonbText_obj, after_close hsep (by decide)]
    exact after_jsonbTextMembers m l

theorem after_jsonbTextList (a : List Json) (l : List Char) :
    Place.outside.after sep ((jsonbTextList a).toList ++ ']' :: l) =
      Place.outside.after sep l := by
  cases a with
  | nil => exact after_close hsep (by decide) l
  | cons j a =>
    rw [toList_jsonbTextList, after_jsonbText j]
    exact after_listRest hsep (by decide) _ (after_jsonbTextList a l)

theorem after_jsonbTextMembers (m : Members) (l : List Char) :
    Place.outside.after sep ((jsonbTextMembers m).toList ++ '\x7d' :: l) =
      Place.outside.after sep l := by
  cases m with
  | nil => exact after_close hsep (by decide) l
  | cons p m =>
    obtain ⟨k, v⟩ := p
    rw [toList_jsonbTextMembers, after_pgString, after_marks hsep (by decide), after_jsonbText v]
    exact after_listRest hsep (by decide) _ (after_jsonbTextMembers m l)

end

/-- What follows a separator in a text that ends outside its strings is no JSONB text. -/
theorem jsonbText_ne_append (j j' : Json) (l : List Char) :
    (jsonbText j).toList ≠ l ++ sep :: (jsonbText j').toList := by
  have hclosed : ∀ j : Json, Place.outside.after sep (jsonbText j).toList = some .outside := by
    intro j
    rw [← List.append_nil (jsonbText j).toList, after_jsonbText hsep]
    rfl
  intro h
  have hwhole := hclosed j
  rw [h] at hwhole
  exact after_inside_ne (hclosed j') (after_separator hsep hwhole)

/-- **JSONB text ends a text in one way**, when a separator stands before it. -/
theorem append_jsonbText_inj {u u' : List Char} {j j' : Json}
    (h : u ++ sep :: (jsonbText j).toList = u' ++ sep :: (jsonbText j').toList) :
    u = u' ∧ j = j' := by
  have key : ∀ {u u' : List Char} {j j' : Json} (l : List Char), u' = u ++ l →
      sep :: (jsonbText j).toList = l ++ sep :: (jsonbText j').toList → u = u' ∧ j = j' := by
    intro u u' j j' l hu hl
    cases l with
    | nil =>
      have htext : (jsonbText j).toList ++ [] = (jsonbText j').toList ++ [] := by
        rw [List.tail_eq_of_cons_eq hl]
      rw [List.append_nil] at hu
      exact ⟨hu.symm, (jsonbText_append_inj j j' Decimal.stops_nil Decimal.stops_nil htext).1⟩
    | cons c l => exact absurd (List.tail_eq_of_cons_eq hl) (jsonbText_ne_append hsep j j' l)
  rcases List.append_eq_append_iff.mp h with ⟨l, hu, hl⟩ | ⟨l, hu, hl⟩
  · exact key l hu hl
  · obtain ⟨huu, hjj⟩ := key l hu hl
    exact ⟨huu.symm, hjj.symm⟩

end

end

end Json
end Lib
