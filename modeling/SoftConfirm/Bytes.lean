/-!
Byte sequences and their big-endian numbers. A number written on `count` bytes keeps its lowest
`8 * count` bits, so a number that fits is read back unchanged.
-/

namespace SoftConfirm

abbrev Bytes := List UInt8

namespace Bytes

-- The `count` lowest base-256 digits of a number, the most significant first.
def bigEndian : Nat → Nat → Bytes
  | 0, _ => []
  | count + 1, value => bigEndian count (value / 256) ++ [UInt8.ofNat value]

-- The number whose base-256 digits these bytes are, the most significant first.
def toNat (bytes : Bytes) : Nat :=
  bytes.foldl (fun value byte => value * 256 + byte.toNat) 0

@[simp] theorem length_bigEndian (count value : Nat) : (bigEndian count value).length = count := by
  induction count generalizing value with
  | zero => rfl
  | succ count ih => simp [bigEndian, ih]

theorem toNat_append_singleton (bytes : Bytes) (byte : UInt8) :
    toNat (bytes ++ [byte]) = toNat bytes * 256 + byte.toNat := by
  simp [toNat]

end Bytes

end SoftConfirm
