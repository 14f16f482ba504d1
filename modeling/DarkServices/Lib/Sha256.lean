import DarkServices.Lib.Bytes
import Mathlib.Data.List.GetD

/-!
# SHA-256 and HMAC-SHA-256

The hash of FIPS 180-4 and the keyed hash built on it, over lists of bytes and 32-bit
words. Both are structural recursions, so that a digest of a concrete message is computed
by the kernel.
-/

namespace Lib
namespace Sha256

abbrev Word := BitVec 32

/-- The round constants. -/
def roundConstants : List Word := [
  0x428a2f98, 0x71374491, 0xb5c0fbcf, 0xe9b5dba5, 0x3956c25b, 0x59f111f1, 0x923f82a4, 0xab1c5ed5,
  0xd807aa98, 0x12835b01, 0x243185be, 0x550c7dc3, 0x72be5d74, 0x80deb1fe, 0x9bdc06a7, 0xc19bf174,
  0xe49b69c1, 0xefbe4786, 0x0fc19dc6, 0x240ca1cc, 0x2de92c6f, 0x4a7484aa, 0x5cb0a9dc, 0x76f988da,
  0x983e5152, 0xa831c66d, 0xb00327c8, 0xbf597fc7, 0xc6e00bf3, 0xd5a79147, 0x06ca6351, 0x14292967,
  0x27b70a85, 0x2e1b2138, 0x4d2c6dfc, 0x53380d13, 0x650a7354, 0x766a0abb, 0x81c2c92e, 0x92722c85,
  0xa2bfe8a1, 0xa81a664b, 0xc24b8b70, 0xc76c51a3, 0xd192e819, 0xd6990624, 0xf40e3585, 0x106aa070,
  0x19a4c116, 0x1e376c08, 0x2748774c, 0x34b0bcb5, 0x391c0cb3, 0x4ed8aa4a, 0x5b9cca4f, 0x682e6ff3,
  0x748f82ee, 0x78a5636f, 0x84c87814, 0x8cc70208, 0x90befffa, 0xa4506ceb, 0xbef9a3f7, 0xc67178f2]

/-- The eight words of the chaining state. -/
structure State where
  a : Word
  b : Word
  c : Word
  d : Word
  e : Word
  f : Word
  g : Word
  h : Word

/-- The initial hash value. -/
def initial : State :=
  ⟨0x6a09e667, 0xbb67ae85, 0x3c6ef372, 0xa54ff53a, 0x510e527f, 0x9b05688c, 0x1f83d9ab, 0x5be0cd19⟩

def rotr (x : Word) (n : ℕ) : Word := (x >>> n) ||| (x <<< (32 - n))

def smallSigma0 (x : Word) : Word := rotr x 7 ^^^ rotr x 18 ^^^ (x >>> 3)
def smallSigma1 (x : Word) : Word := rotr x 17 ^^^ rotr x 19 ^^^ (x >>> 10)
def bigSigma0 (x : Word) : Word := rotr x 2 ^^^ rotr x 13 ^^^ rotr x 22
def bigSigma1 (x : Word) : Word := rotr x 6 ^^^ rotr x 11 ^^^ rotr x 25
def ch (x y z : Word) : Word := (x &&& y) ^^^ (~~~x &&& z)
def maj (x y z : Word) : Word := (x &&& y) ^^^ (x &&& z) ^^^ (y &&& z)

/-- The schedule word that follows the sixteen words of a window. -/
def nextWord (w : List Word) : Word :=
  smallSigma1 (w.getD 14 0) + w.getD 9 0 + smallSigma0 (w.getD 1 0) + w.getD 0 0

/-- One round with constant `k` and schedule word `w`. -/
def round (s : State) (k w : Word) : State :=
  let t₁ := s.h + bigSigma1 s.e + ch s.e s.f s.g + k + w
  let t₂ := bigSigma0 s.a + maj s.a s.b s.c
  ⟨t₁ + t₂, s.a, s.b, s.c, s.d + t₁, s.e, s.f, s.g⟩

/-- The rounds of one block. The message schedule is a window of its last sixteen words,
advanced by one word a round. -/
def rounds : List Word → List Word → State → State
  | [], _, s => s
  | k :: ks, w, s => rounds ks (w.tail ++ [nextWord w]) (round s k (w.headD 0))

/-- The compression function. -/
def compress (s : State) (block : List Word) : State :=
  let r := rounds roundConstants block s
  ⟨s.a + r.a, s.b + r.b, s.c + r.c, s.d + r.d, s.e + r.e, s.f + r.f, s.g + r.g, s.h + r.h⟩

/-- Big-endian 32-bit words of a byte string. -/
def words : List UInt8 → List Word
  | a :: b :: c :: d :: rest => BitVec.ofNat 32 (beNat [a, b, c, d]) :: words rest
  | _ => []

/-- The message, a one bit, zeros up to 56 modulo 64, and the bit length on eight bytes. -/
def pad (m : List UInt8) : List UInt8 :=
  m ++ 0x80 :: List.replicate ((119 - m.length % 64) % 64) 0 ++ toBE 8 (8 * m.length)

/-- Absorb `n` blocks of 64 bytes. -/
def absorb : (n : ℕ) → List UInt8 → State → State
  | 0, _, s => s
  | n + 1, m, s => absorb n (m.drop 64) (compress s (words (m.take 64)))

/-- The bytes of a chaining state. -/
def State.bytes (s : State) : List UInt8 :=
  [s.a, s.b, s.c, s.d, s.e, s.f, s.g, s.h].flatMap fun w => toBE 4 w.toNat

/-- `sha256.Sum256`: the digest of a message. -/
def sum256 (m : List UInt8) : List UInt8 :=
  (absorb ((pad m).length / 64) (pad m) initial).bytes

/-- A digest has 32 bytes. -/
@[simp] theorem length_sum256 (m : List UInt8) : (sum256 m).length = 32 := by
  simp [sum256, State.bytes]

example : sum256 (utf8 "abc") = toBE 32
    0xba7816bf8f01cfea414140de5dae2223b00361a396177a9cb410ff61f20015ad := by
  decide +kernel

/-! ## HMAC -/

/-- A key longer than a block is hashed; the key is then filled with zeros to 64 bytes. -/
def hmacKey (key : List UInt8) : List UInt8 :=
  let k := if 64 < key.length then sum256 key else key
  k ++ List.replicate (64 - k.length) 0

/-- The keyed hash of a message. -/
def hmac (key m : List UInt8) : List UInt8 :=
  let k := hmacKey key
  sum256 (k.map (· ^^^ 0x5c) ++ sum256 (k.map (· ^^^ 0x36) ++ m))

end Sha256

/-! ## Hexadecimal text -/

/-- The digit of a number below 16, in lower case. -/
def hexDigit (n : ℕ) : Char := "0123456789abcdef".toList.getD n '0'

/-- Two hexadecimal digits a byte. -/
def hex (l : List UInt8) : String :=
  String.ofList (l.flatMap fun b => [hexDigit (b.toNat / 16), hexDigit (b.toNat % 16)])

@[simp] theorem length_toList_hex (l : List UInt8) : (hex l).toList.length = 2 * l.length := by
  rw [hex, String.toList_ofList]
  induction l with
  | nil => rfl
  | cons b l ih =>
    rw [List.flatMap_cons, List.length_append, ih]
    simp only [List.length_cons, List.length_nil]
    omega

theorem hexDigit_mem (n : ℕ) : hexDigit n ∈ "0123456789abcdef".toList := by
  by_cases h : n < 16
  · exact (by decide : ∀ k < 16, hexDigit k ∈ "0123456789abcdef".toList) n h
  · rw [hexDigit, List.getD_eq_default _ _ (by simpa using h)]
    decide

/-- The text of a digest holds hexadecimal digits only. -/
theorem mem_hex {l : List UInt8} {c : Char} (h : c ∈ (hex l).toList) :
    c ∈ "0123456789abcdef".toList := by
  rw [hex, String.toList_ofList, List.mem_flatMap] at h
  obtain ⟨b, -, hc⟩ := h
  simp only [List.mem_cons, List.not_mem_nil, or_false] at hc
  rcases hc with rfl | rfl <;> exact hexDigit_mem _

end Lib
