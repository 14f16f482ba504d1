import DarkServices.Lib.Bytes

/-!
# DER integers

The distinguished encoding of natural numbers and of sequences: a tag, the length of the
contents, the contents. An integer is written in two's complement on as few bytes as can be, so
a zero byte comes first when the top bit of the number would be read as a sign
(`integerBytes_eq`).
-/

namespace Lib
namespace Der

/-- The contents of an INTEGER. -/
def integerBytes (n : ℕ) : List UInt8 :=
  match bigBytes n with
  | [] => [0]
  | b :: l => if 128 ≤ b then 0 :: b :: l else b :: l

/-- The length octets: one for the lengths below 128, else their number and the length. -/
def lengthBytes (n : ℕ) : List UInt8 :=
  if n < 128 then [UInt8.ofNat n] else UInt8.ofNat (128 + (bigBytes n).length) :: bigBytes n

def tagged (tag : UInt8) (contents : List UInt8) : List UInt8 :=
  tag :: lengthBytes contents.length ++ contents

def integer (n : ℕ) : List UInt8 := tagged 0x02 (integerBytes n)

def sequence (elements : List (List UInt8)) : List UInt8 := tagged 0x30 elements.flatten

/-- A short value has one length octet. -/
theorem tagged_of_short {tag : UInt8} {contents : List UInt8} (h : contents.length < 128) :
    tagged tag contents = tag :: UInt8.ofNat contents.length :: contents := by
  rw [tagged, lengthBytes, if_pos h]
  rfl

/-- An integer is its shortest big-endian form, with at most a zero byte in front. -/
theorem integerBytes_eq (n : ℕ) :
    integerBytes n = bigBytes n ∨ integerBytes n = 0 :: bigBytes n := by
  unfold integerBytes
  cases bigBytes n with
  | nil => exact Or.inr rfl
  | cons b l =>
    by_cases hb : 128 ≤ b
    · exact Or.inr (if_pos hb)
    · exact Or.inl (if_neg hb)

theorem length_integerBytes_le {len n : ℕ} (h : n < 256 ^ len) :
    (integerBytes n).length ≤ len + 1 := by
  have hlen := length_bigBytes_le h
  rcases integerBytes_eq n with heq | heq
  · rw [heq]
    omega
  · rw [heq, List.length_cons]
    omega

end Der
end Lib
