import DarkServices.Lib.Base64Url

/-!
# The signatures of the benchmark route

`derToJose` of `dashboard/src/app/api/benchmark/route.ts`: Node signs with a DER text, a proof
carries the two numbers on 32 bytes each. A buffer is a list of bytes; an index or a length is
a number or, after a read past the end of a buffer, `NaN`.
-/

namespace DarkServices
namespace Dashboard

open Lib

/-- `buf[i]`: `undefined`, which counts as `NaN`, past the end and for the index `NaN`. -/
def byteAt (buf : List UInt8) (i : Option ℕ) : Option ℕ :=
  i.bind fun i => buf[i]?.map UInt8.toNat

/-- `buf.subarray(start, end)`: both are cut to the length of the buffer, and `NaN` counts as 0. -/
def subarray (buf : List UInt8) (start stop : Option ℕ) : List UInt8 :=
  (buf.take (stop.getD 0)).drop (start.getD 0)

/-- `source.copy(target, targetStart)`: the next contents of `target`. -/
def copy (source target : List UInt8) (targetStart : ℤ) : Except String (List UInt8) :=
  if targetStart < 0 then
    .error ("The value of \"targetStart\" is out of range. It must be >= 0. Received " ++
      toString targetStart)
  else
    let start := targetStart.toNat
    .ok (target.take start ++ source.take (target.length - start) ++
      target.drop (start + source.length))

/-- `if (r.length === 33 && r[0] === 0) { r = r.subarray(1); }`. -/
def stripSign (r : List UInt8) : List UInt8 :=
  if r.length = 33 ∧ byteAt r (some 0) = some 0 then r.drop 1 else r

/-- The variables `r` and `s` of `derToJose` before they are padded. -/
def derNumbers (signature : List UInt8) : List UInt8 × List UInt8 :=
  let rLen := byteAt signature (some 3)
  let r := subarray signature (some 4) (rLen.map (4 + ·))
  let sTagPos := rLen.map (4 + ·)
  let sLen := byteAt signature (sTagPos.map (· + 1))
  let s := subarray signature (sTagPos.map (· + 2))
    (sTagPos.bind fun pos => sLen.map fun len => pos + 2 + len)
  (stripSign r, stripSign s)

/-- `derToJose`. -/
def derToJose (signature : List UInt8) : Except String String := do
  let (r, s) := derNumbers signature
  let rPad ← copy r (List.replicate 32 0) (32 - r.length)
  let sPad ← copy s (List.replicate 32 0) (32 - s.length)
  .ok (Base64Url.encodeToString (rPad ++ sPad))

end Dashboard
end DarkServices
