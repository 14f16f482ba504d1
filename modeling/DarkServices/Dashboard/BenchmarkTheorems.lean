import DarkServices.Dashboard.Benchmark
import DarkServices.Lib.Der

/-!
# `derToJose` is exact

On the DER text of two numbers below 2^256 every index of `derToJose` is inside its buffer, and
the result is the two numbers on 32 bytes each. The offsets depend on the lengths of the two
integers, which are known only up to a sign byte; `signature_eq` writes the signature with these
lengths, and the reads follow.
-/

namespace DarkServices
namespace Dashboard

open Lib

/-- The DER text of a signature. -/
def derSignature (r s : ℕ) : List UInt8 := Der.sequence [Der.integer r, Der.integer s]

/-- The indices that `derToJose` reads and writes are inside the buffers. -/
structure IndicesInside (signature : List UInt8) : Prop where
  reads : ∃ rLen sLen, byteAt signature (some 3) = some rLen ∧
    byteAt signature (some (4 + rLen + 1)) = some sLen ∧
    4 + rLen ≤ signature.length ∧ 4 + rLen + 2 + sLen ≤ signature.length
  writes : (derNumbers signature).1.length ≤ 32 ∧ (derNumbers signature).2.length ≤ 32

/-! ## One number -/

/-- The sign byte is taken away exactly where it does not fit, and elsewhere it counts as
padding. -/
theorem stripSign_integerBytes {n : ℕ} (h : n < 2 ^ 256) :
    (stripSign (Der.integerBytes n)).length ≤ 32 ∧
      leftPad 32 (stripSign (Der.integerBytes n)) = toBE 32 n := by
  have hn : n < 256 ^ 32 := by
    rw [show 256 ^ 32 = 2 ^ 256 by norm_num]
    exact h
  have hlen := length_bigBytes_le hn
  rw [← leftPad_bigBytes hn]
  unfold stripSign
  rcases Der.integerBytes_eq n with heq | heq
  · have hne : ¬ ((bigBytes n).length = 33 ∧ byteAt (bigBytes n) (some 0) = some 0) := by omega
    rw [heq, if_neg hne]
    exact ⟨hlen, rfl⟩
  · rw [heq]
    by_cases hfull : (bigBytes n).length = 32
    · have hstrip : (0 :: bigBytes n).length = 33 ∧ byteAt (0 :: bigBytes n) (some 0) = some 0 :=
        ⟨by rw [List.length_cons, hfull], rfl⟩
      rw [if_pos hstrip]
      exact ⟨hlen, rfl⟩
    · have hstrip : ¬ ((0 :: bigBytes n).length = 33 ∧
          byteAt (0 :: bigBytes n) (some 0) = some 0) := by
        rw [List.length_cons]
        omega
      rw [if_neg hstrip, List.length_cons]
      exact ⟨by omega, leftPad_zero_cons (by omega)⟩

/-- A number that fits is copied to the end of the zero bytes. -/
theorem copy_zeros {l : List UInt8} {len : ℕ} (h : l.length ≤ len) :
    copy l (List.replicate len 0) (len - l.length) = .ok (leftPad len l) := by
  have hstart : ¬ ((len : ℤ) - l.length < 0) := by omega
  have hnat : ((len : ℤ) - l.length).toNat = len - l.length := by omega
  have hroom : len - (len - l.length) = l.length := by omega
  have hend : len - l.length + l.length = len := by omega
  simp [copy, hstart, hnat, hroom, hend, leftPad]

/-! ## The signature -/

/-- Two contents with their tags and lengths behind the two octets of the sequence. -/
def pairBytes (len : UInt8) (a b : List UInt8) : List UInt8 :=
  [0x30, len, 0x02, UInt8.ofNat a.length] ++ (a ++ ([0x02, UInt8.ofNat b.length] ++ b))

theorem length_pairBytes (len : UInt8) (a b : List UInt8) :
    (pairBytes len a b).length = 6 + a.length + b.length := by
  simp only [pairBytes, List.length_append, List.length_cons, List.length_nil]
  omega

/-- For contents of at most 33 bytes all lengths have one octet. -/
theorem sequence_eq_pairBytes {a b : List UInt8} (ha : a.length ≤ 33) (hb : b.length ≤ 33) :
    Der.sequence [Der.tagged 0x02 a, Der.tagged 0x02 b] =
      pairBytes (UInt8.ofNat (a.length + b.length + 4)) a b := by
  have hlen : [Der.tagged 0x02 a, Der.tagged 0x02 b].flatten.length = a.length + b.length + 4 := by
    rw [Der.tagged_of_short (by omega), Der.tagged_of_short (by omega)]
    simp only [List.flatten_cons, List.flatten_nil, List.length_append, List.length_cons,
      List.length_nil]
    omega
  rw [Der.sequence, Der.tagged_of_short (by omega), hlen, Der.tagged_of_short (by omega),
    Der.tagged_of_short (by omega), pairBytes]
  simp

theorem byteAt_append {l l' : List UInt8} {i : ℕ} {b : UInt8} (hi : l.length = i) :
    byteAt (l ++ b :: l') (some i) = some b.toNat := by
  subst hi
  simp [byteAt]

theorem subarray_append {l m l' : List UInt8} {i j : ℕ} (hi : l.length = i)
    (hj : i + m.length = j) : subarray (l ++ (m ++ l')) (some i) (some j) = m := by
  subst hi hj
  simp [subarray, List.take_append]

section

variable {len : UInt8} {a b : List UInt8}

/-- The length of the first number is read. -/
theorem byteAt_rLen (ha : a.length < 256) :
    byteAt (pairBytes len a b) (some 3) = some a.length := by
  show some (UInt8.ofNat a.length).toNat = _
  rw [UInt8.toNat_ofNat_of_lt' ha]

/-- The length of the second number is read two bytes after the end of the first one. -/
theorem byteAt_sLen (hb : b.length < 256) :
    byteAt (pairBytes len a b) (some (4 + a.length + 1)) = some b.length := by
  have hsplit : pairBytes len a b =
      ([0x30, len, 0x02, UInt8.ofNat a.length] ++ a ++ [0x02]) ++ UInt8.ofNat b.length :: b := by
    simp [pairBytes]
  have hpos : ([0x30, len, 0x02, UInt8.ofNat a.length] ++ a ++ [0x02]).length =
      4 + a.length + 1 := by
    simp only [List.length_append, List.length_cons, List.length_nil]
  rw [hsplit, byteAt_append hpos, UInt8.toNat_ofNat_of_lt' hb]

/-- The two contents are read. -/
theorem derNumbers_pairBytes (ha : a.length < 256) (hb : b.length < 256) :
    derNumbers (pairBytes len a b) = (stripSign a, stripSign b) := by
  have hr : subarray (pairBytes len a b) (some 4) (some (4 + a.length)) = a :=
    subarray_append rfl rfl
  have hs : subarray (pairBytes len a b) (some (4 + a.length + 2))
      (some (4 + a.length + 2 + b.length)) = b := by
    have hsplit : pairBytes len a b = ([0x30, len, 0x02, UInt8.ofNat a.length] ++ a ++
        [0x02, UInt8.ofNat b.length]) ++ (b ++ []) := by
      simp [pairBytes]
    rw [hsplit]
    apply subarray_append
    · simp only [List.length_append, List.length_cons, List.length_nil]
    · rfl
  simp only [derNumbers, byteAt_rLen ha, Option.map_some, Option.bind_some, byteAt_sLen hb, hr, hs]

end

/-- **The conversion is exact.** The two numbers of a signature are written on 32 bytes each,
and no index is outside its buffer. -/
theorem derToJose_derSignature {r s : ℕ} (hr : r < 2 ^ 256) (hs : s < 2 ^ 256) :
    derToJose (derSignature r s) = .ok (Base64Url.encodeToString (toBE 32 r ++ toBE 32 s)) ∧
      IndicesInside (derSignature r s) := by
  have hpow : 2 ^ 256 = 256 ^ 32 := by norm_num
  have hrlen := Der.length_integerBytes_le (hpow ▸ hr)
  have hslen := Der.length_integerBytes_le (hpow ▸ hs)
  obtain ⟨hrfit, hrpad⟩ := stripSign_integerBytes hr
  obtain ⟨hsfit, hspad⟩ := stripSign_integerBytes hs
  have hsig : derSignature r s = pairBytes _ (Der.integerBytes r) (Der.integerBytes s) :=
    sequence_eq_pairBytes hrlen hslen
  have hnumbers : derNumbers (derSignature r s) =
      (stripSign (Der.integerBytes r), stripSign (Der.integerBytes s)) := by
    rw [hsig]
    exact derNumbers_pairBytes (by omega) (by omega)
  constructor
  · have hrcopy := copy_zeros hrfit
    have hscopy := copy_zeros hsfit
    rw [hrpad] at hrcopy
    rw [hspad] at hscopy
    rw [derToJose, hnumbers]
    show (copy _ _ (((32 : ℕ) : ℤ) - _) >>= fun rPad => copy _ _ (((32 : ℕ) : ℤ) - _) >>= _) = _
    rw [hrcopy]
    show (copy _ _ (((32 : ℕ) : ℤ) - _) >>= _) = _
    rw [hscopy]
    rfl
  · refine ⟨⟨(Der.integerBytes r).length, (Der.integerBytes s).length, ?_, ?_, ?_, ?_⟩, ?_⟩
    · rw [hsig, byteAt_rLen (by omega)]
    · rw [hsig, byteAt_sLen (by omega)]
    · rw [hsig, length_pairBytes]
      omega
    · rw [hsig, length_pairBytes]
      omega
    · rw [hnumbers]
      exact ⟨hrfit, hsfit⟩

/-- The number one, which has a single byte, and the greatest number, which has a sign byte. -/
theorem derToJose_derSignature_short :
    derToJose (derSignature 1 (2 ^ 256 - 1)) =
        .ok (Base64Url.encodeToString (toBE 32 1 ++ toBE 32 (2 ^ 256 - 1))) ∧
      IndicesInside (derSignature 1 (2 ^ 256 - 1)) :=
  derToJose_derSignature (by norm_num) (by norm_num)

end Dashboard
end DarkServices
