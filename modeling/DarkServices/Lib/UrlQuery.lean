import DarkServices.Lib.Bytes
import Mathlib.Algebra.Order.Group.Nat
import Mathlib.Data.List.Nodup
import Mathlib.Data.List.TakeWhile
import Mathlib.Algebra.Order.BigOperators.Group.List

/-!
# Queries of addresses

The functions of package `net/url` on queries, over bytes. A query is read part by part, and a
part that does not parse is left out. Values that are escaped before they are joined are read back
(`parseForm_encodeValues`). Values that are pasted in as they are, are read back exactly when
none of them has a reserved byte (`get_pasteValues_iff`): a byte that is lost makes every part
too short for the value.
-/

namespace Lib
namespace UrlQuery

abbrev Bytes := List UInt8

/-! ## Escaping -/

/-- `ishex` and `unhex`: the value of a hexadecimal digit. -/
def unhex (c : UInt8) : Option ℕ :=
  if '0'.toUInt8 ≤ c ∧ c ≤ '9'.toUInt8 then some (c.toNat - '0'.toNat)
  else if 'a'.toUInt8 ≤ c ∧ c ≤ 'f'.toUInt8 then some (c.toNat - 'a'.toNat + 10)
  else if 'A'.toUInt8 ≤ c ∧ c ≤ 'F'.toUInt8 then some (c.toNat - 'A'.toNat + 10)
  else none

/-- What a byte other than the percent sign stands for in a query. -/
def plusToBlank (c : UInt8) : UInt8 := if c = '+'.toUInt8 then ' '.toUInt8 else c

/-- `unescape`, for a query or for a fragment. -/
def unescape (query : Bool) : Bytes → Option Bytes
  | [] => some []
  | c :: s =>
    if c = '%'.toUInt8 then
      match s with
      | h :: l :: s =>
        match unhex h, unhex l with
        | some h, some l => (unescape query s).map (UInt8.ofNat (16 * h + l) :: ·)
        | _, _ => none
      | _ => none
    else (unescape query s).map ((if query then plusToBlank c else c) :: ·)

/-- `url.QueryUnescape`. -/
def queryUnescape (s : Bytes) : Option Bytes := unescape true s

/-- `!shouldEscape` for a query: letters, digits and four marks. -/
def unreserved (c : UInt8) : Bool :=
  ('a'.toUInt8 ≤ c && c ≤ 'z'.toUInt8) || ('A'.toUInt8 ≤ c && c ≤ 'Z'.toUInt8) ||
    ('0'.toUInt8 ≤ c && c ≤ '9'.toUInt8) || c ∈ ['-', '_', '.', '~'].map Char.toUInt8

/-- `upperhex[n]`. -/
def upperhex (n : ℕ) : UInt8 :=
  if n < 10 then UInt8.ofNat ('0'.toNat + n) else UInt8.ofNat ('A'.toNat + n - 10)

/-- One byte of `url.QueryEscape`. -/
def escapeByte (c : UInt8) : Bytes :=
  if c = ' '.toUInt8 then ['+'.toUInt8]
  else if unreserved c then [c]
  else ['%'.toUInt8, upperhex (c.toNat / 16), upperhex (c.toNat % 16)]

/-- `url.QueryEscape`. -/
def queryEscape (s : Bytes) : Bytes := s.flatMap escapeByte

/-! ## Values -/

/-- `strings.Cut` at a byte: the text before the first `sep`, and the text after it. -/
def cutAt (sep : Char) (s : Bytes) : Bytes × Bytes :=
  (s.takeWhile (· != sep.toUInt8), (s.dropWhile (· != sep.toUInt8)).drop 1)

/-- One part of `url.ParseQuery`, unless it is an error. -/
def parsePart (part : Bytes) : Option (Bytes × Bytes) :=
  if ';'.toUInt8 ∈ part then none
  else
    (queryUnescape (cutAt '=' part).1).bind fun key =>
      (queryUnescape (cutAt '=' part).2).map fun value => (key, value)

/-- The parts of a query that are not empty. -/
def parts (query : Bytes) : List Bytes := (query.splitOn '&'.toUInt8).filter (· ≠ [])

/-- The values of `url.ParseQuery`, which `URL.Query` takes without its error. -/
def parseQuery (query : Bytes) : List (Bytes × Bytes) := (parts query).filterMap parsePart

/-- The values of `url.ParseQuery`, unless it is an error. -/
def parseForm (body : Bytes) : Option (List (Bytes × Bytes)) := (parts body).mapM parsePart

/-- `Values.Get`: the first value of a key. -/
def get (values : List (Bytes × Bytes)) (key : Bytes) : Bytes :=
  match values.find? fun p => p.1 == key with
  | some p => p.2
  | none => []

/-- `Values.Encode`, for values in the order of their keys. -/
def encodeValues (values : List (Bytes × Bytes)) : Bytes :=
  ['&'.toUInt8].intercalate
    (values.map fun p => queryEscape p.1 ++ '='.toUInt8 :: queryEscape p.2)

/-- Values pasted into a query without escaping. -/
def pasteValues (values : List (Bytes × Bytes)) : Bytes :=
  ['&'.toUInt8].intercalate (values.map fun p => p.1 ++ '='.toUInt8 :: p.2)

/-- The bytes that end a value, or stand for another byte. -/
def reserved : List UInt8 := ['#', '%', '&', '+', ';'].map Char.toUInt8

/-- A text without reserved bytes. -/
def Plain (s : Bytes) : Prop := ∀ c ∈ s, c ∉ reserved

instance (s : Bytes) : Decidable (Plain s) :=
  decidable_of_iff (s.all fun c => !reserved.contains c) (by simp [Plain])

/-! ## Escaped values are read back -/

theorem unhex_upperhex : ∀ n < 16, unhex (upperhex n) = some n := by decide

theorem queryUnescape_cons {c : UInt8} (hc : c ≠ '%'.toUInt8) (s : Bytes) :
    queryUnescape (c :: s) = (queryUnescape s).map (plusToBlank c :: ·) := by
  rw [queryUnescape, unescape.eq_def]
  simp only [if_neg hc]
  rfl

/-- An escaped byte is read back, whatever comes after it. -/
theorem queryUnescape_escapeByte (c : UInt8) (s : Bytes) :
    queryUnescape (escapeByte c ++ s) = (queryUnescape s).map (c :: ·) := by
  have hc : c.toNat < 256 := c.toNat_lt
  unfold escapeByte
  split
  · rename_i hblank
    rw [List.singleton_append, queryUnescape_cons (by decide), hblank]
    rfl
  · split
    · rename_i hplain
      have hpercent : c ≠ '%'.toUInt8 := by
        rintro rfl
        exact absurd hplain (by decide)
      have hplus : c ≠ '+'.toUInt8 := by
        rintro rfl
        exact absurd hplain (by decide)
      rw [List.singleton_append, queryUnescape_cons hpercent, plusToBlank, if_neg hplus]
    · have hbyte : UInt8.ofNat (16 * (c.toNat / 16) + c.toNat % 16) = c := by
        rw [Nat.div_add_mod, UInt8.ofNat_toNat]
      rw [queryUnescape, List.cons_append, List.cons_append, List.cons_append, List.nil_append,
        unescape, if_pos rfl]
      simp only [unhex_upperhex _ (show c.toNat / 16 < 16 by omega),
        unhex_upperhex _ (show c.toNat % 16 < 16 by omega), hbyte]
      rfl

theorem queryUnescape_queryEscape (s : Bytes) : queryUnescape (queryEscape s) = some s := by
  induction s with
  | nil => rfl
  | cons c s ih =>
    rw [queryEscape, List.flatMap_cons, queryUnescape_escapeByte, ← queryEscape, ih]
    rfl

/-- An escaped byte is neither of the separators. -/
theorem escapeByte_separators (c : UInt8) :
    ∀ d ∈ escapeByte c, d ≠ '&'.toUInt8 ∧ d ≠ '='.toUInt8 ∧ d ≠ ';'.toUInt8 := by
  have hhex : ∀ n < 16, upperhex n ≠ '&'.toUInt8 ∧ upperhex n ≠ '='.toUInt8 ∧
      upperhex n ≠ ';'.toUInt8 := by
    decide
  have hc : c.toNat < 256 := c.toNat_lt
  intro d hd
  unfold escapeByte at hd
  split at hd
  · rw [List.mem_singleton.mp hd]
    decide
  · split at hd
    · rename_i hplain
      rw [List.mem_singleton.mp hd]
      refine ⟨?_, ?_, ?_⟩
      · rintro rfl
        exact absurd hplain (by decide)
      · rintro rfl
        exact absurd hplain (by decide)
      · rintro rfl
        exact absurd hplain (by decide)
    · simp only [List.mem_cons, List.not_mem_nil, or_false] at hd
      rcases hd with rfl | rfl | rfl
      · decide
      · exact hhex _ (by omega)
      · exact hhex _ (by omega)

theorem queryEscape_separators (s : Bytes) :
    '&'.toUInt8 ∉ queryEscape s ∧ '='.toUInt8 ∉ queryEscape s ∧ ';'.toUInt8 ∉ queryEscape s := by
  have hall : ∀ d ∈ queryEscape s, d ≠ '&'.toUInt8 ∧ d ≠ '='.toUInt8 ∧ d ≠ ';'.toUInt8 := by
    intro d hd
    obtain ⟨c, -, hd⟩ := List.mem_flatMap.mp hd
    exact escapeByte_separators c d hd
  exact ⟨fun h => (hall _ h).1 rfl, fun h => (hall _ h).2.1 rfl, fun h => (hall _ h).2.2 rfl⟩

/-- A text is cut at its first separator. -/
theorem cutAt_append {sep : Char} {a : Bytes} (ha : sep.toUInt8 ∉ a) (b : Bytes) :
    cutAt sep (a ++ sep.toUInt8 :: b) = (a, b) := by
  have hall : ∀ c ∈ a, (c != sep.toUInt8) = true := by
    intro c hc
    rw [bne_iff_ne]
    rintro rfl
    exact ha hc
  rw [cutAt, List.takeWhile_append_of_pos hall, List.dropWhile_append_of_pos hall,
    List.takeWhile_cons_of_neg (by simp), List.dropWhile_cons_of_neg (by simp), List.append_nil,
    List.drop_one, List.tail_cons]

/-- Parts without separators are found again. -/
theorem parts_intercalate {blocks : List Bytes} (hne : ∀ b ∈ blocks, b ≠ [])
    (hamp : ∀ b ∈ blocks, '&'.toUInt8 ∉ b) : parts (['&'.toUInt8].intercalate blocks) = blocks := by
  by_cases hnil : blocks = []
  · subst hnil
    rfl
  · rw [parts, List.splitOn_intercalate _ hamp hnil, List.filter_eq_self]
    exact fun b hb => decide_eq_true (hne b hb)

theorem parsePart_encoded (p : Bytes × Bytes) :
    parsePart (queryEscape p.1 ++ '='.toUInt8 :: queryEscape p.2) = some p := by
  obtain ⟨-, hkey, hkey'⟩ := queryEscape_separators p.1
  obtain ⟨-, -, hvalue⟩ := queryEscape_separators p.2
  have hsemi : ';'.toUInt8 ∉ queryEscape p.1 ++ '='.toUInt8 :: queryEscape p.2 := by
    rw [List.mem_append, List.mem_cons, not_or, not_or]
    exact ⟨hkey', by decide, hvalue⟩
  rw [parsePart, if_neg hsemi, cutAt_append hkey]
  simp only [queryUnescape_queryEscape, Option.bind_some, Option.map_some]

theorem mapM_parsePart_encoded (values : List (Bytes × Bytes)) :
    (values.map fun p => queryEscape p.1 ++ '='.toUInt8 :: queryEscape p.2).mapM parsePart =
      some values := by
  induction values with
  | nil => rfl
  | cons p values ih =>
    rw [List.map_cons, List.mapM_cons, parsePart_encoded, ih]
    rfl

/-- **An encoded form is read back.** -/
theorem parseForm_encodeValues (values : List (Bytes × Bytes)) :
    parseForm (encodeValues values) = some values := by
  have hparts : parts (encodeValues values) =
      values.map fun p => queryEscape p.1 ++ '='.toUInt8 :: queryEscape p.2 := by
    apply parts_intercalate
    · intro b hb
      obtain ⟨p, -, rfl⟩ := List.mem_map.mp hb
      simp
    · intro b hb
      obtain ⟨p, -, rfl⟩ := List.mem_map.mp hb
      rw [List.mem_append, List.mem_cons, not_or, not_or]
      exact ⟨(queryEscape_separators p.1).1, by decide, (queryEscape_separators p.2).1⟩
  rw [parseForm, hparts, mapM_parsePart_encoded]

/-! ## What a reader can get from a part -/

/-- Unescaping makes no text longer; where it keeps the length it changes only plus signs. -/
theorem queryUnescape_length {s t : Bytes} (h : queryUnescape s = some t) :
    t.length ≤ s.length ∧
      (t.length = s.length → '%'.toUInt8 ∉ s ∧ t = s.map plusToBlank) := by
  rw [queryUnescape] at h
  generalize hquery : true = query at h
  fun_induction unescape query s generalizing t with
  | case1 =>
    cases h
    exact ⟨Nat.le_refl _, fun _ => ⟨List.not_mem_nil, rfl⟩⟩
  | case2 h l s _ _ _ _ ih =>
    obtain ⟨t', ht', rfl⟩ := Option.map_eq_some_iff.mp h
    have hle := (ih ht').1
    simp only [List.length_cons]
    exact ⟨by omega, fun hlen => by omega⟩
  | case3 => cases h
  | case4 => cases h
  | case5 c s hc ih =>
    obtain ⟨t', ht', rfl⟩ := Option.map_eq_some_iff.mp h
    obtain ⟨hle, heq⟩ := ih ht'
    simp only [List.length_cons, Nat.add_le_add_iff_right, Nat.add_right_cancel_iff]
    refine ⟨hle, fun hlen => ?_⟩
    obtain ⟨hpercent, rfl⟩ := heq hlen
    rw [List.mem_cons, not_or, if_pos hquery.symm]
    exact ⟨⟨Ne.symm hc, hpercent⟩, rfl⟩

/-- A text that is read back as it is has no percent sign and no plus sign. -/
theorem notMem_of_queryUnescape_self {s : Bytes} (h : queryUnescape s = some s) :
    '%'.toUInt8 ∉ s ∧ '+'.toUInt8 ∉ s := by
  obtain ⟨hpercent, hmap⟩ := (queryUnescape_length h).2 rfl
  refine ⟨hpercent, fun hplus => ?_⟩
  rw [hmap] at hplus
  obtain ⟨c, -, hc⟩ := List.mem_map.mp hplus
  unfold plusToBlank at hc
  split at hc
  · exact absurd hc (by decide)
  · rename_i hne
    exact hne hc

/-- A plain text is read back as it is. -/
theorem queryUnescape_of_plain {s : Bytes} (h : Plain s) : queryUnescape s = some s := by
  induction s with
  | nil => rfl
  | cons c s ih =>
    have hc := h c List.mem_cons_self
    have hpercent : c ≠ '%'.toUInt8 := by
      rintro rfl
      exact hc (by decide)
    have hplus : c ≠ '+'.toUInt8 := by
      rintro rfl
      exact hc (by decide)
    rw [queryUnescape_cons hpercent, ih fun d hd => h d (List.mem_cons_of_mem _ hd), plusToBlank,
      if_neg hplus]
    rfl

theorem length_cutAt (sep : Char) (s : Bytes) :
    (cutAt sep s).1.length + (cutAt sep s).2.length ≤ s.length ∧
      ((cutAt sep s).2 ≠ [] → (cutAt sep s).1.length + 1 + (cutAt sep s).2.length = s.length) := by
  have hsplit := congrArg List.length
    (List.takeWhile_append_dropWhile (p := (· != sep.toUInt8)) (l := s))
  rw [List.length_append] at hsplit
  have hafter : (cutAt sep s).2.length = (s.dropWhile (· != sep.toUInt8)).length - 1 :=
    List.length_drop
  have hbefore : (cutAt sep s).1.length = (s.takeWhile (· != sep.toUInt8)).length := rfl
  refine ⟨by omega, fun hne => ?_⟩
  have hpos : (s.dropWhile (· != sep.toUInt8)).length ≠ 0 := by
    intro hzero
    exact hne (List.length_eq_zero_iff.mp (by omega))
  omega

/-- A part is longer than the key and the value that are read from it. -/
theorem length_of_parsePart {part key value : Bytes} (h : parsePart part = some (key, value))
    (hne : value ≠ []) : key.length + 1 + value.length ≤ part.length := by
  rw [parsePart] at h
  split at h
  · cases h
  · obtain ⟨key', hkey, h⟩ := Option.bind_eq_some_iff.mp h
    obtain ⟨value', hvalue, h⟩ := Option.map_eq_some_iff.mp h
    cases h
    have hcut : (cutAt '=' part).2 ≠ [] := by
      intro hnil
      rw [hnil] at hvalue
      cases hvalue
      exact hne rfl
    have hlen := (length_cutAt '=' part).2 hcut
    have hkeyLen := (queryUnescape_length hkey).1
    have hvalueLen := (queryUnescape_length hvalue).1
    omega

/-- What is read from a part that begins with a plain key. -/
theorem parsePart_of_key {key text : Bytes} (hkey : Plain key) (heq : '='.toUInt8 ∉ key) :
    parsePart (key ++ '='.toUInt8 :: text) =
      if ';'.toUInt8 ∈ text then none else (queryUnescape text).map fun value => (key, value) := by
  have hsemi : ';'.toUInt8 ∈ key ++ '='.toUInt8 :: text ↔ ';'.toUInt8 ∈ text := by
    rw [List.mem_append, List.mem_cons]
    constructor
    · rintro (h | h | h)
      · exact absurd (by decide) (hkey _ h)
      · exact absurd h (by decide)
      · exact h
    · exact fun h => Or.inr (Or.inr h)
  rw [parsePart, cutAt_append heq]
  simp only [hsemi, queryUnescape_of_plain hkey, Option.bind_some]

/-! ## The parts of pasted values -/

/-- The part of a query in front of a fragment. -/
theorem takeWhile_append_cons {sep : UInt8} {a b : Bytes} (c : UInt8) (hc : c ≠ sep) :
    (a ++ c :: b).takeWhile (· != sep) =
      if sep ∈ a then a.takeWhile (· != sep) else a ++ c :: b.takeWhile (· != sep) := by
  induction a with
  | nil => simp [hc]
  | cons d a ih =>
    by_cases hd : d = sep
    · subst hd
      simp
    · have hkeep : (d != sep) = true := bne_iff_ne.mpr hd
      have hmem : sep ∈ d :: a ↔ sep ∈ a := by
        rw [List.mem_cons]
        exact or_iff_right (Ne.symm hd)
      simp only [List.cons_append, List.takeWhile_cons, hkeep, if_true, ih, hmem]
      split
      · rfl
      · rfl

/-- A part of the text before a fragment is a part of one of the blocks that were joined. -/
theorem mem_splitOn_intercalate {blocks : List Bytes} {part : Bytes}
    (h : part ∈ ((['&'.toUInt8].intercalate blocks).takeWhile (· != '#'.toUInt8)).splitOn
      '&'.toUInt8) (hne : part ≠ []) :
    ∃ b ∈ blocks, part ∈ (b.takeWhile (· != '#'.toUInt8)).splitOn '&'.toUInt8 := by
  induction blocks with
  | nil =>
    rw [show ((['&'.toUInt8].intercalate []).takeWhile (· != '#'.toUInt8)).splitOn '&'.toUInt8 =
      [[]] from rfl, List.mem_singleton] at h
    exact absurd h hne
  | cons b blocks ih =>
    cases blocks with
    | nil =>
      rw [List.intercalate_singleton] at h
      exact ⟨b, List.mem_cons_self, h⟩
    | cons b' blocks =>
      rw [List.intercalate_cons_cons, List.append_assoc, List.singleton_append,
        takeWhile_append_cons _ (by decide)] at h
      split at h
      · exact ⟨b, List.mem_cons_self, h⟩
      · rename_i hhash
        rw [List.splitOn_append_cons_self, List.mem_append] at h
        rcases h with h | h
        · refine ⟨b, List.mem_cons_self, ?_⟩
          have hall : b.takeWhile (· != '#'.toUInt8) = b := by
            rw [List.takeWhile_eq_self_iff]
            intro c hc
            rw [bne_iff_ne]
            rintro rfl
            exact hhash hc
          rwa [hall]
        · obtain ⟨b'', hmem, hpart⟩ := ih h
          exact ⟨b'', List.mem_cons_of_mem _ hmem, hpart⟩

theorem length_le_of_mem_splitOn {sep : UInt8} {part s : Bytes} (h : part ∈ s.splitOn sep) :
    part.length ≤ s.length := by
  induction s generalizing part with
  | nil =>
    rw [List.splitOn_nil, List.mem_singleton] at h
    rw [h]
  | cons c s ih =>
    rw [List.splitOn_cons_eq_if_modifyHead] at h
    split at h
    · rcases List.mem_cons.mp h with rfl | h
      · exact Nat.zero_le _
      · exact (ih h).trans (Nat.le_succ _)
    · obtain ⟨first, rest, hsplit⟩ := List.exists_cons_of_ne_nil (List.splitOn_ne_nil sep s)
      rw [hsplit, List.modifyHead_cons] at h
      rw [hsplit] at ih
      rcases List.mem_cons.mp h with rfl | h
      · exact Nat.succ_le_succ (ih List.mem_cons_self)
      · exact (ih (List.mem_cons_of_mem _ h)).trans (Nat.le_succ _)

theorem takeWhile_of_notMem {sep : UInt8} {s : Bytes} (h : sep ∉ s) :
    s.takeWhile (· != sep) = s := by
  rw [List.takeWhile_eq_self_iff]
  intro c hc
  rw [bne_iff_ne]
  rintro rfl
  exact h hc

/-- A part of a text is its beginning, or it comes after a separator and is shorter. -/
theorem mem_splitOn_append {sep : UInt8} {a w part : Bytes} (ha : sep ∉ a)
    (h : part ∈ (a ++ w).splitOn sep) :
    part = a ++ w.takeWhile (· != sep) ∨ sep ∈ w ∧ part.length < w.length := by
  by_cases hsep : sep ∈ w
  · obtain ⟨w₁, w₂, rfl, hw₁⟩ := List.eq_append_cons_of_mem hsep
    have hfirst : sep ∉ a ++ w₁ := by
      rw [List.mem_append, not_or]
      exact ⟨ha, hw₁⟩
    rw [← List.append_assoc, List.splitOn_append_cons_self_of_not_mem hfirst, List.mem_cons] at h
    rcases h with rfl | h
    · left
      have hall : ∀ c ∈ w₁, (c != sep) = true := List.takeWhile_eq_self_iff.mp (takeWhile_of_notMem hw₁)
      rw [List.takeWhile_append_of_pos hall, List.takeWhile_cons_of_neg (by simp), List.append_nil]
    · refine Or.inr ⟨hsep, ?_⟩
      have hle := length_le_of_mem_splitOn h
      rw [List.length_append, List.length_cons]
      omega
  · have hnone : sep ∉ a ++ w := by
      rw [List.mem_append, not_or]
      exact ⟨ha, hsep⟩
    rw [List.splitOn_eq_singleton hnone, List.mem_singleton] at h
    rw [h, takeWhile_of_notMem hsep]
    exact Or.inl rfl

/-! ## Pasted values -/

theorem Plain.notMem {s : Bytes} (h : Plain s) {c : UInt8} (hc : c ∈ reserved) : c ∉ s :=
  fun hmem => h c hmem hc

/-- A text that loses nothing at `#` and `&` and is read back has no reserved byte. -/
theorem plain_of_read {v : Bytes}
    (h : queryUnescape ((v.takeWhile (· != '#'.toUInt8)).takeWhile (· != '&'.toUInt8)) = some v)
    (hsemi : ';'.toUInt8 ∉ (v.takeWhile (· != '#'.toUInt8)).takeWhile (· != '&'.toUInt8)) :
    Plain v := by
  have hlen := (queryUnescape_length h).1
  have houter := (List.takeWhile_prefix (· != '&'.toUInt8)
    (l := v.takeWhile (· != '#'.toUInt8)))
  have hinner := (List.takeWhile_prefix (· != '#'.toUInt8) (l := v))
  have hhash : v.takeWhile (· != '#'.toUInt8) = v :=
    hinner.eq_of_length_le (hlen.trans houter.length_le)
  rw [hhash] at h hsemi houter hlen
  have hamp : v.takeWhile (· != '&'.toUInt8) = v := houter.eq_of_length_le hlen
  rw [hamp] at h hsemi
  obtain ⟨hpercent, hplus⟩ := notMem_of_queryUnescape_self h
  intro c hc hreserved
  have hkeep : c ≠ '#'.toUInt8 ∧ c ≠ '&'.toUInt8 :=
    ⟨bne_iff_ne.mp (List.takeWhile_eq_self_iff.mp hhash c hc),
      bne_iff_ne.mp (List.takeWhile_eq_self_iff.mp hamp c hc)⟩
  simp only [reserved, List.map_cons, List.map_nil, List.mem_cons, List.not_mem_nil,
    or_false] at hreserved
  rcases hreserved with rfl | rfl | rfl | rfl | rfl
  · exact hkeep.1 rfl
  · exact hpercent hc
  · exact hkeep.2 rfl
  · exact hplus hc
  · exact hsemi hc

/-- A value that is read comes from a part. -/
theorem exists_part_of_get {query key : Bytes} (hne : get (parseQuery query) key ≠ []) :
    ∃ part ∈ query.splitOn '&'.toUInt8, part ≠ [] ∧
      parsePart part = some (key, get (parseQuery query) key) := by
  unfold get at hne ⊢
  split at hne
  · rename_i p hfind
    obtain ⟨part, hmem, hpart⟩ := List.mem_filterMap.mp (List.mem_of_find?_eq_some hfind)
    obtain ⟨hsplit, hpartne⟩ := List.mem_filter.mp hmem
    have hkey : p.1 = key := by simpa using List.find?_some hfind
    refine ⟨part, hsplit, of_decide_eq_true hpartne, ?_⟩
    rw [hpart, ← hkey]
  · exact absurd rfl hne

/-- A table with distinct keys gives back each of its values. -/
theorem get_of_mem {values : List (Bytes × Bytes)} (hnodup : (values.map Prod.fst).Nodup)
    {p : Bytes × Bytes} (hp : p ∈ values) : get values p.1 = p.2 := by
  induction values with
  | nil => cases hp
  | cons q values ih =>
    rw [List.map_cons, List.nodup_cons] at hnodup
    rcases List.mem_cons.mp hp with rfl | hp
    · simp [get]
    · have hne : q.1 ≠ p.1 := by
        intro heq
        exact hnodup.1 (heq ▸ List.mem_map_of_mem hp)
      rw [← ih hnodup.2 hp]
      simp [get, hne]

section

variable {values : List (Bytes × Bytes)}

/-- The part of a query in front of the fragment. -/
def beforeFragment (text : Bytes) : Bytes := (cutAt '#' text).1

/-- A value that is read, but is not plain, was hidden in a longer one that is not plain. -/
theorem exists_longer_of_not_plain (hkeys : ∀ p ∈ values, Plain p.1 ∧ '='.toUInt8 ∉ p.1)
    (hnodup : (values.map Prod.fst).Nodup)
    (hread : ∀ p ∈ values, get (parseQuery (beforeFragment (pasteValues values))) p.1 = p.2)
    {p : Bytes × Bytes} (hp : p ∈ values) (hplain : ¬ Plain p.2) :
    ∃ q ∈ values, ¬ Plain q.2 ∧ p.2.length < q.2.length := by
  have hne : p.2 ≠ [] := by
    intro hnil
    rw [hnil] at hplain
    exact hplain fun c hc => absurd hc List.not_mem_nil
  have hsome : get (parseQuery (beforeFragment (pasteValues values))) p.1 ≠ [] := by
    rw [hread p hp]
    exact hne
  obtain ⟨part, hmem, hpartne, hpart⟩ := exists_part_of_get hsome
  rw [hread p hp] at hpart
  have hlong := length_of_parsePart hpart hne
  obtain ⟨b, hb, hmem⟩ := mem_splitOn_intercalate hmem hpartne
  obtain ⟨q, hq, rfl⟩ := List.mem_map.mp hb
  obtain ⟨hkey, heq⟩ := hkeys q hq
  have hsep : '&'.toUInt8 ∉ q.1 ++ ['='.toUInt8] := by
    rw [List.mem_append, List.mem_singleton, not_or]
    exact ⟨hkey.notMem (by decide), by decide⟩
  rw [takeWhile_append_cons _ (by decide), if_neg (hkey.notMem (by decide)),
    ← List.singleton_append, ← List.append_assoc] at hmem
  have hhash := (List.takeWhile_prefix (· != '#'.toUInt8) (l := q.2)).length_le
  rcases mem_splitOn_append hsep hmem with rfl | ⟨hamp, hshort⟩
  · -- the part of its own key, so the value has lost nothing
    rw [List.append_assoc, List.singleton_append, parsePart_of_key hkey heq] at hpart
    split at hpart
    · cases hpart
    · rename_i hsemi
      obtain ⟨value, hvalue, hpair⟩ := Option.map_eq_some_iff.mp hpart
      obtain ⟨hqp, rfl⟩ := Prod.mk.inj hpair
      have hpq : p = q := List.inj_on_of_nodup_map hnodup hp hq hqp.symm
      rw [hpq] at hplain hvalue
      exact absurd (plain_of_read hvalue hsemi) hplain
  · refine ⟨q, hq, fun hq' => ?_, by omega⟩
    rw [takeWhile_of_notMem (hq'.notMem (by decide))] at hamp
    exact hq'.notMem (by decide) hamp

/-- A byte of joined blocks is the separator or a byte of a block. -/
theorem mem_of_mem_intercalate {blocks : List Bytes} {sep c : UInt8} (hc : c ≠ sep)
    (h : c ∈ [sep].intercalate blocks) : ∃ b ∈ blocks, c ∈ b := by
  induction blocks with
  | nil => cases h
  | cons b blocks ih =>
    cases blocks with
    | nil =>
      rw [List.intercalate_singleton] at h
      exact ⟨b, List.mem_cons_self, h⟩
    | cons b' blocks =>
      rw [List.intercalate_cons_cons, List.mem_append, List.mem_append, List.mem_singleton] at h
      rcases h with (h | h) | h
      · exact ⟨b, List.mem_cons_self, h⟩
      · exact absurd h hc
      · obtain ⟨b'', hmem, hin⟩ := ih h
        exact ⟨b'', List.mem_cons_of_mem _ hmem, hin⟩

/-- The bytes of joined blocks are there. -/
theorem mem_intercalate_of_mem {blocks : List Bytes} {sep c : UInt8} {b : Bytes} (hb : b ∈ blocks)
    (hc : c ∈ b) : c ∈ [sep].intercalate blocks := by
  induction blocks with
  | nil => cases hb
  | cons b' blocks ih =>
    cases blocks with
    | nil =>
      rw [List.intercalate_singleton, ← List.mem_singleton.mp hb]
      exact hc
    | cons b'' blocks =>
      rw [List.intercalate_cons_cons, List.mem_append, List.mem_append]
      rcases List.mem_cons.mp hb with rfl | hb
      · exact Or.inl (Or.inl hc)
      · exact Or.inr (ih hb)

theorem mem_pasteValues {p : Bytes × Bytes} {c : UInt8} (hp : p ∈ values) (hc : c ∈ p.2) :
    c ∈ pasteValues values :=
  mem_intercalate_of_mem (List.mem_map_of_mem hp)
    (List.mem_append_right _ (List.mem_cons_of_mem _ hc))

theorem of_mem_pasteValues {c : UInt8} (hc : c ∈ pasteValues values) :
    c = '&'.toUInt8 ∨ c = '='.toUInt8 ∨ ∃ p ∈ values, c ∈ p.1 ∨ c ∈ p.2 := by
  by_cases hamp : c = '&'.toUInt8
  · exact Or.inl hamp
  · obtain ⟨b, hb, hmem⟩ := mem_of_mem_intercalate hamp hc
    obtain ⟨p, hp, rfl⟩ := List.mem_map.mp hb
    rw [List.mem_append, List.mem_cons] at hmem
    rcases hmem with hkey | rfl | hvalue
    · exact Or.inr (Or.inr ⟨p, hp, Or.inl hkey⟩)
    · exact Or.inr (Or.inl rfl)
    · exact Or.inr (Or.inr ⟨p, hp, Or.inr hvalue⟩)

/-- Plain values hold no fragment. -/
theorem hash_notMem_pasteValues (hkeys : ∀ p ∈ values, Plain p.1 ∧ '='.toUInt8 ∉ p.1)
    (hplain : ∀ p ∈ values, Plain p.2) : '#'.toUInt8 ∉ pasteValues values := by
  intro hhash
  rcases of_mem_pasteValues hhash with h | h | ⟨p, hp, h | h⟩
  · exact absurd h (by decide)
  · exact absurd h (by decide)
  · exact (hkeys p hp).1.notMem (by decide) h
  · exact (hplain p hp).notMem (by decide) h

theorem beforeFragment_pasteValues (hkeys : ∀ p ∈ values, Plain p.1 ∧ '='.toUInt8 ∉ p.1)
    (hplain : ∀ p ∈ values, Plain p.2) :
    beforeFragment (pasteValues values) = pasteValues values :=
  takeWhile_of_notMem (hash_notMem_pasteValues hkeys hplain)

/-- Plain values are read back in their order. -/
theorem parseQuery_pasteValues (hkeys : ∀ p ∈ values, Plain p.1 ∧ '='.toUInt8 ∉ p.1)
    (hplain : ∀ p ∈ values, Plain p.2) :
    parseQuery (beforeFragment (pasteValues values)) = values := by
  have hparts : parts (pasteValues values) = values.map fun p => p.1 ++ '='.toUInt8 :: p.2 := by
    apply parts_intercalate
    · intro b hb
      obtain ⟨p, -, rfl⟩ := List.mem_map.mp hb
      simp
    · intro b hb
      obtain ⟨p, hp, rfl⟩ := List.mem_map.mp hb
      rw [List.mem_append, List.mem_cons, not_or, not_or]
      exact ⟨(hkeys p hp).1.notMem (by decide), by decide, (hplain p hp).notMem (by decide)⟩
  have hread : ∀ p ∈ values, parsePart (p.1 ++ '='.toUInt8 :: p.2) = some p := by
    intro p hp
    rw [parsePart_of_key (hkeys p hp).1 (hkeys p hp).2,
      if_neg ((hplain p hp).notMem (by decide)), queryUnescape_of_plain (hplain p hp)]
    rfl
  rw [beforeFragment_pasteValues hkeys hplain, parseQuery, hparts, List.filterMap_map]
  calc values.filterMap (parsePart ∘ fun p => p.1 ++ '='.toUInt8 :: p.2)
      = values.filterMap some := List.filterMap_congr hread
    _ = values := List.filterMap_some

/-- **Pasted values.** The values are read back exactly when none of them has a reserved byte. -/
theorem get_pasteValues_iff (hkeys : ∀ p ∈ values, Plain p.1 ∧ '='.toUInt8 ∉ p.1)
    (hnodup : (values.map Prod.fst).Nodup) :
    (∀ p ∈ values, get (parseQuery (beforeFragment (pasteValues values))) p.1 = p.2) ↔
      ∀ p ∈ values, Plain p.2 := by
  constructor
  · intro hread
    by_contra hnot
    obtain ⟨p, hp, hplain⟩ : ∃ p ∈ values, ¬ Plain p.2 := by
      by_contra hall
      exact hnot fun p hp => by_contra fun hplain => hall ⟨p, hp, hplain⟩
    -- without a longest value that is not plain
    have hlong : ∀ n, ∃ q ∈ values, ¬ Plain q.2 ∧ n ≤ q.2.length := by
      intro n
      induction n with
      | zero => exact ⟨p, hp, hplain, Nat.zero_le _⟩
      | succ n ih =>
        obtain ⟨q, hq, hqplain, hn⟩ := ih
        obtain ⟨r, hr, hrplain, hlt⟩ :=
          exists_longer_of_not_plain hkeys hnodup hread hq hqplain
        exact ⟨r, hr, hrplain, by omega⟩
    obtain ⟨q, hq, -, hn⟩ := hlong ((values.map fun q => q.2.length).sum + 1)
    have hle : q.2.length ≤ (values.map fun q => q.2.length).sum :=
      List.le_sum_of_mem (List.mem_map_of_mem hq)
    omega
  · intro hplain p hp
    rw [parseQuery_pasteValues hkeys hplain]
    exact get_of_mem hnodup hp

end

end UrlQuery
end Lib
