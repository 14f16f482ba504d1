import Mathlib.Tactic.Ring
import Mathlib.Data.List.Induction

/-!
# Byte strings and big-endian numbers

`beNat` reads a byte string as a big-endian number of any length, `toBE` writes a number
on a fixed number of bytes, and `bigBytes` is the shortest big-endian form. Strings enter
as their UTF-8 bytes.
-/

namespace Lib

/-- The UTF-8 bytes of a string. -/
def utf8 (s : String) : List UInt8 := s.toByteArray.data.toList

/-- The number a byte string denotes, most significant byte first. -/
def beNat (l : List UInt8) : ℕ := l.foldl (fun n b => n * 256 + b.toNat) 0

/-- The low `len` bytes of a number, most significant byte first. -/
def toBE : (len : ℕ) → ℕ → List UInt8
  | 0, _ => []
  | len + 1, n => toBE len (n / 256) ++ [UInt8.ofNat (n % 256)]

/-- The shortest big-endian byte string of a number: no leading zero byte, zero is empty. -/
def bigBytes (n : ℕ) : List UInt8 := (toBE (n.log2 / 8 + 1) n).dropWhile (· == 0)

/-- `copy(pad[len(pad)-len(l):], l)` into zero bytes, for bytes that fit. -/
def leftPad (len : ℕ) (l : List UInt8) : List UInt8 := List.replicate (len - l.length) 0 ++ l

/-- The bytes of a text are those of its characters. -/
theorem utf8_eq_flatMap (s : String) : utf8 s = s.toList.flatMap String.utf8EncodeChar := by
  have hbytes := String.toByteArray_ofList (l := s.toList)
  rw [String.ofList_toList] at hbytes
  rw [utf8, hbytes, List.utf8Encode, List.data_toByteArray]

theorem utf8_injective : Function.Injective utf8 := by
  intro s t h
  apply String.toByteArray_inj.mp
  exact ByteArray.ext (Array.toList_inj.mp h)

@[simp] theorem beNat_nil : beNat [] = 0 := rfl

@[simp] theorem beNat_concat (l : List UInt8) (b : UInt8) :
    beNat (l ++ [b]) = beNat l * 256 + b.toNat := by
  rw [beNat, List.foldl_append]
  rfl

@[simp] theorem length_toBE (len n : ℕ) : (toBE len n).length = len := by
  induction len generalizing n with
  | zero => rfl
  | succ len ih => rw [toBE, List.length_append, ih, List.length_singleton]

/-- A fixed width keeps a number modulo the width. -/
theorem beNat_toBE (len n : ℕ) : beNat (toBE len n) = n % 256 ^ len := by
  induction len generalizing n with
  | zero => simp [toBE, Nat.mod_one]
  | succ len ih =>
    have hbyte : (UInt8.ofNat (n % 256)).toNat = n % 256 := by
      simp [UInt8.toNat_ofNat']
    rw [toBE, beNat_concat, ih, hbyte, pow_succ, Nat.mul_comm (256 ^ len) 256, Nat.mod_mul]
    ring

/-- Reading starts from any accumulator. -/
theorem foldl_beNat (l : List UInt8) (a : ℕ) :
    l.foldl (fun n b => n * 256 + b.toNat) a = a * 256 ^ l.length + beNat l := by
  induction l using List.reverseRecOn generalizing a with
  | nil => simp
  | append_singleton l b ih =>
    rw [List.foldl_append, ih, beNat_concat, List.length_append, List.length_singleton, pow_succ]
    simp only [List.foldl_cons, List.foldl_nil]
    ring

@[simp] theorem beNat_cons (b : UInt8) (l : List UInt8) :
    beNat (b :: l) = b.toNat * 256 ^ l.length + beNat l := by
  rw [beNat, List.foldl_cons, foldl_beNat]
  ring

/-- Leading zero bytes do not change the number. -/
@[simp] theorem beNat_replicate_append (k : ℕ) (l : List UInt8) :
    beNat (List.replicate k 0 ++ l) = beNat l := by
  induction k with
  | zero => rfl
  | succ k ih => rw [List.replicate_succ, List.cons_append, beNat_cons, ih]; simp

theorem beNat_dropWhile_zero (l : List UInt8) : beNat (l.dropWhile (· == 0)) = beNat l := by
  induction l with
  | nil => rfl
  | cons b l ih =>
    by_cases hb : b = 0
    · subst hb
      rw [List.dropWhile_cons_of_pos (by simp), ih, beNat_cons]
      simp
    · rw [List.dropWhile_cons_of_neg (by simpa using hb)]

/-- The shortest form denotes the number it was made from. -/
theorem beNat_bigBytes (n : ℕ) : beNat (bigBytes n) = n := by
  rw [bigBytes, beNat_dropWhile_zero, beNat_toBE]
  refine Nat.mod_eq_of_lt ?_
  calc n < 2 ^ (n.log2 + 1) := Nat.lt_log2_self
    _ ≤ 2 ^ (8 * (n.log2 / 8 + 1)) := Nat.pow_le_pow_right (by norm_num) (by omega)
    _ = 256 ^ (n.log2 / 8 + 1) := by rw [pow_mul]; norm_num

/-- Zero bytes in front do not change it. -/
@[simp] theorem beNat_leftPad_bigBytes (len n : ℕ) : beNat (leftPad len (bigBytes n)) = n := by
  rw [leftPad, beNat_replicate_append, beNat_bigBytes]

/-- A number below `256 ^ len` has at most `len` bytes. -/
theorem length_bigBytes_le {len n : ℕ} (h : n < 256 ^ len) : (bigBytes n).length ≤ len := by
  by_contra hlong
  have hne : bigBytes n ≠ [] := by
    intro hnil
    rw [hnil] at hlong
    exact hlong (Nat.zero_le _)
  -- the first byte is not zero, so the number is at least a power of 256
  obtain ⟨b, l, hl⟩ := List.exists_cons_of_ne_nil hne
  have hb : b ≠ 0 := by
    have hhead := List.head_dropWhile_not (fun b : UInt8 => b == 0) hne
    simp only [show (toBE (n.log2 / 8 + 1) n).dropWhile (· == 0) = b :: l from hl,
      List.head_cons] at hhead
    simpa using hhead
  have hpos : 0 < b.toNat := by
    rw [Nat.pos_iff_ne_zero]
    exact fun hzero => hb (UInt8.toNat_inj.mp hzero)
  have hlen : len ≤ l.length := by
    rw [hl, List.length_cons] at hlong
    omega
  have hn : n = b.toNat * 256 ^ l.length + beNat l := by
    rw [← beNat_cons, ← hl, beNat_bigBytes]
  have hpow : 256 ^ len ≤ 256 ^ l.length := Nat.pow_le_pow_right (by norm_num) hlen
  have hge : 256 ^ l.length ≤ b.toNat * 256 ^ l.length := Nat.le_mul_of_pos_left _ hpos
  omega

/-- Bytes are the number they denote, on their own width. -/
theorem toBE_beNat (l : List UInt8) : toBE l.length (beNat l) = l := by
  induction l using List.reverseRecOn with
  | nil => rfl
  | append_singleton l b ih =>
    have hb : b.toNat < 256 := b.toNat_lt
    have hdiv : (beNat l * 256 + b.toNat) / 256 = beNat l := by omega
    have hmod : (beNat l * 256 + b.toNat) % 256 = b.toNat := by omega
    rw [beNat_concat, List.length_append, List.length_singleton, toBE, hdiv, hmod, ih,
      UInt8.ofNat_toNat]

/-- A zero byte in front is one of the bytes of the padding. -/
theorem leftPad_zero_cons {len : ℕ} {l : List UInt8} (h : l.length < len) :
    leftPad len (0 :: l) = leftPad len l := by
  obtain ⟨k, rfl⟩ := Nat.exists_eq_add_of_lt h
  have hlong : l.length + k + 1 - (0 :: l).length = k := by
    rw [List.length_cons]
    omega
  have hshort : l.length + k + 1 - l.length = k + 1 := by omega
  rw [leftPad, leftPad, hlong, hshort, List.replicate_succ', List.append_assoc]
  rfl

/-- A padded number fills the width. -/
theorem length_leftPad {len : ℕ} {l : List UInt8} (h : l.length ≤ len) :
    (leftPad len l).length = len := by
  rw [leftPad, List.length_append, List.length_replicate]
  omega

/-- The shortest form, padded, is the form of fixed width. -/
theorem leftPad_bigBytes {len n : ℕ} (h : n < 256 ^ len) : leftPad len (bigBytes n) = toBE len n := by
  have hbytes := toBE_beNat (leftPad len (bigBytes n))
  rw [length_leftPad (length_bigBytes_le h), beNat_leftPad_bigBytes] at hbytes
  exact hbytes.symm

end Lib
