import CWebUI.Basic.Bytes

set_option autoImplicit false

/-! # Big-endian words

Words as bytes, the top byte first, by their bits.
-/

namespace ByteString

/-- The low `k` bytes of a word. -/
def beBytes {w : Nat} (k : Nat) (v : BitVec w) : List UInt8 :=
  (List.range k).map fun i => ⟨v.extractLsb' (8 * (k - 1 - i)) 8⟩

/-- The word that bytes denote. -/
def beWord (w : Nat) (bytes : List UInt8) : BitVec w :=
  bytes.foldl (fun v b => v <<< 8 ||| b.toBitVec.setWidth w) 0

@[simp] theorem length_beBytes {w : Nat} (k : Nat) (v : BitVec w) : (beBytes k v).length = k := by
  rw [beBytes, List.length_map, List.length_range]

end ByteString
