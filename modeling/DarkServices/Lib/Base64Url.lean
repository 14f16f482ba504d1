import DarkServices.Lib.Bytes

/-!
# Unpadded base64url

`encodeToString` and `decodeString` are the two directions of the unpadded URL alphabet of
RFC 4648. The decoder is the lenient one of the Go library: carriage returns and line
feeds are skipped, and unused bits of the last character are not checked.

* `decodeString_encodeToString`: decoding inverts encoding, so the encoding is injective;
* `mem_of_decodeString`: a text that decodes holds characters of the alphabet, carriage
  returns and line feeds only.
-/

namespace Lib
namespace Base64Url

/-- The 64 characters of the URL alphabet. -/
def alphabet : List Char :=
  "ABCDEFGHIJKLMNOPQRSTUVWXYZabcdefghijklmnopqrstuvwxyz0123456789-_".toList

def encodeSextet (n : ℕ) : Char := alphabet.getD n 'A'

def decodeSextet (c : Char) : Option ℕ :=
  if alphabet.idxOf c < 64 then some (alphabet.idxOf c) else none

/-- The six-bit groups of a byte string; a short last group is filled with zero bits. -/
def sextets : List UInt8 → List ℕ
  | [] => []
  | [a] => [a.toNat / 4, a.toNat % 4 * 16]
  | [a, b] => [a.toNat / 4, a.toNat % 4 * 16 + b.toNat / 16, b.toNat % 16 * 4]
  | a :: b :: c :: rest =>
    a.toNat / 4 :: (a.toNat % 4 * 16 + b.toNat / 16) :: (b.toNat % 16 * 4 + c.toNat / 64)
      :: c.toNat % 64 :: sextets rest

/-- The bytes of a list of six-bit groups; a single last group is an error. -/
def ofSextets : List ℕ → Option (List UInt8)
  | [] => some []
  | [_] => none
  | [p, q] => some [UInt8.ofNat (p * 4 + q / 16)]
  | [p, q, r] => some [UInt8.ofNat (p * 4 + q / 16), UInt8.ofNat (q % 16 * 16 + r / 4)]
  | p :: q :: r :: s :: rest =>
    (ofSextets rest).map fun l =>
      UInt8.ofNat (p * 4 + q / 16) :: UInt8.ofNat (q % 16 * 16 + r / 4)
        :: UInt8.ofNat (r % 4 * 64 + s) :: l

/-- Decode the characters one by one; any character outside the alphabet is an error. -/
def decodeChars : List Char → Option (List ℕ)
  | [] => some []
  | c :: cs => (decodeSextet c).bind fun n => (decodeChars cs).map (n :: ·)

/-- `base64.RawURLEncoding.EncodeToString`. -/
def encodeToString (l : List UInt8) : String := String.ofList ((sextets l).map encodeSextet)

/-- `base64.RawURLEncoding.DecodeString`. -/
def decodeString (s : String) : Option (List UInt8) :=
  (decodeChars (s.toList.filter fun c => !(c == '\r' || c == '\n'))).bind ofSextets

/-! ## Decoding inverts encoding -/

theorem decodeSextet_encodeSextet : ∀ n < 64, decodeSextet (encodeSextet n) = some n := by
  decide

theorem encodeSextet_mem : ∀ n < 64, encodeSextet n ∈ alphabet := by decide

theorem sextets_lt (l : List UInt8) : ∀ n ∈ sextets l, n < 64 := by
  fun_induction sextets l with
  | case1 => simp
  | case2 a =>
    have := a.toNat_lt
    simp only [List.mem_cons, List.not_mem_nil, or_false, forall_eq_or_imp, forall_eq]
    omega
  | case3 a b =>
    have := a.toNat_lt
    have := b.toNat_lt
    simp only [List.mem_cons, List.not_mem_nil, or_false, forall_eq_or_imp, forall_eq]
    omega
  | case4 a b c rest ih =>
    have := a.toNat_lt
    have := b.toNat_lt
    have := c.toNat_lt
    simp only [List.mem_cons, forall_eq_or_imp]
    exact ⟨by omega, by omega, by omega, by omega, ih⟩

/-- A byte is recovered from any number congruent to it below 256. -/
theorem ofNat_eq_of_toNat {n : ℕ} {b : UInt8} (h : n = b.toNat) : UInt8.ofNat n = b := by
  rw [h, UInt8.ofNat_toNat]

theorem ofSextets_sextets (l : List UInt8) : ofSextets (sextets l) = some l := by
  fun_induction sextets l with
  | case1 => rfl
  | case2 a =>
    have := a.toNat_lt
    simp only [ofSextets, Option.some.injEq, List.cons.injEq, and_true]
    exact ofNat_eq_of_toNat (by omega)
  | case3 a b =>
    have := a.toNat_lt
    have := b.toNat_lt
    simp only [ofSextets, Option.some.injEq, List.cons.injEq, and_true]
    exact ⟨ofNat_eq_of_toNat (by omega), ofNat_eq_of_toNat (by omega)⟩
  | case4 a b c rest ih =>
    have := a.toNat_lt
    have := b.toNat_lt
    have := c.toNat_lt
    rw [ofSextets, ih, Option.map_some, Option.some.injEq, List.cons.injEq, List.cons.injEq,
      List.cons.injEq]
    exact ⟨ofNat_eq_of_toNat (by omega), ofNat_eq_of_toNat (by omega),
      ofNat_eq_of_toNat (by omega), rfl⟩

theorem decodeChars_map {l : List ℕ} (h : ∀ n ∈ l, n < 64) :
    decodeChars (l.map encodeSextet) = some l := by
  induction l with
  | nil => rfl
  | cons n l ih =>
    rw [List.map_cons, decodeChars, decodeSextet_encodeSextet n (h n List.mem_cons_self),
      Option.bind_some, ih fun m hm => h m (List.mem_cons_of_mem _ hm), Option.map_some]

theorem alphabet_no_newline : ∀ c ∈ alphabet, (!(c == '\r' || c == '\n')) = true := by
  apply List.all_eq_true.mp
  decide

/-- The text of an encoding is in the alphabet. -/
theorem mem_encodeToString {l : List UInt8} {c : Char} (h : c ∈ (encodeToString l).toList) :
    c ∈ alphabet := by
  rw [encodeToString, String.toList_ofList, List.mem_map] at h
  obtain ⟨n, hn, rfl⟩ := h
  exact encodeSextet_mem n (sextets_lt l n hn)

@[simp] theorem decodeString_encodeToString (l : List UInt8) :
    decodeString (encodeToString l) = some l := by
  have hkeep : (encodeToString l).toList.filter (fun c => !(c == '\r' || c == '\n'))
      = (encodeToString l).toList :=
    List.filter_eq_self.mpr fun c hc => alphabet_no_newline c (mem_encodeToString hc)
  rw [decodeString, hkeep, encodeToString, String.toList_ofList, decodeChars_map (sextets_lt l),
    Option.bind_some, ofSextets_sextets]

theorem encodeToString_injective : Function.Injective encodeToString := by
  intro l l' h
  have := congrArg decodeString h
  simpa using this

/-- An encoding is empty only for the empty byte string. -/
theorem encodeToString_ne_empty {l : List UInt8} (h : l ≠ []) : encodeToString l ≠ "" := by
  intro he
  have hnil : encodeToString [] = "" := rfl
  exact h (encodeToString_injective (he.trans hnil.symm))

theorem length_sextets (l : List UInt8) : (sextets l).length = (4 * l.length + 2) / 3 := by
  fun_induction sextets l with
  | case1 => rfl
  | case2 a => simp
  | case3 a b => simp
  | case4 a b c rest ih =>
    simp only [List.length_cons, ih]
    omega

/-- Four characters for every three bytes, and no padding at the end. -/
theorem length_encodeToString (l : List UInt8) :
    (encodeToString l).length = (4 * l.length + 2) / 3 := by
  rw [encodeToString, String.length_ofList, List.length_map, length_sextets]

/-! ## Coordinates of a key -/

/-- A number on 32 bytes, as the coordinates of a key are written. -/
def encodeCoordinate (n : ℕ) : String := encodeToString (leftPad 32 (bigBytes n))

theorem decodeString_encodeCoordinate (n : ℕ) :
    decodeString (encodeCoordinate n) = some (leftPad 32 (bigBytes n)) :=
  decodeString_encodeToString _

theorem encodeCoordinate_ne_empty (n : ℕ) : encodeCoordinate n ≠ "" := by
  apply encodeToString_ne_empty
  intro hnil
  have hlength := congrArg List.length hnil
  rw [leftPad, List.length_append, List.length_replicate, List.length_nil] at hlength
  omega

/-- A coordinate that fits on 32 bytes is written with 43 characters. -/
theorem length_encodeCoordinate {n : ℕ} (h : n < 256 ^ 32) : (encodeCoordinate n).length = 43 := by
  rw [encodeCoordinate, length_encodeToString, length_leftPad (length_bigBytes_le h)]

/-! ## What decodes -/

theorem decodeSextet_mem {c : Char} {n : ℕ} (h : decodeSextet c = some n) : c ∈ alphabet := by
  rw [decodeSextet] at h
  split at h
  · rename_i hlt
    exact List.idxOf_lt_length_iff.mp hlt
  · cases h

theorem decodeChars_mem {l : List Char} {ns : List ℕ} (h : decodeChars l = some ns) :
    ∀ c ∈ l, c ∈ alphabet := by
  induction l generalizing ns with
  | nil => simp
  | cons c l ih =>
    rw [decodeChars] at h
    obtain ⟨n, hn, hrest⟩ := Option.bind_eq_some_iff.mp h
    obtain ⟨ms, hms, -⟩ := Option.map_eq_some_iff.mp hrest
    rintro d (_ | ⟨_, hd⟩)
    · exact decodeSextet_mem hn
    · exact ih hms d hd

/-- A text that decodes is in the alphabet but for carriage returns and line feeds. -/
theorem mem_of_decodeString {s : String} {l : List UInt8} (h : decodeString s = some l) :
    ∀ c ∈ s.toList, c ∈ alphabet ∨ c = '\r' ∨ c = '\n' := by
  intro c hc
  obtain ⟨ns, hns, -⟩ := Option.bind_eq_some_iff.mp h
  by_cases hnl : c = '\r' ∨ c = '\n'
  · exact Or.inr hnl
  · refine Or.inl (decodeChars_mem hns c (List.mem_filter.mpr ⟨hc, ?_⟩))
    simpa using hnl

end Base64Url
end Lib
