import CWebUI.Basic.BigEndian
import CWebUI.Basic.BlockStream

set_option autoImplicit false

/-! # SHA-1

The hash as the standard defines it (FIPS 180-1): the schedule of eighty words, the four functions
and constants of the rounds, the padding, and the compression of one block after the other. It is
what the code's hash is compared with.
-/

namespace CWebUI.Crypto

open BlockStream ByteString

/-- A word has 32 bits. -/
abbrev Word := BitVec 32

/-- The five words of a state. -/
@[ext]
structure Registers where
  a : Word
  b : Word
  c : Word
  d : Word
  e : Word
  deriving DecidableEq, Repr

/-- The function of a round. -/
def roundFunction (t : Nat) (x y z : Word) : Word :=
  if t < 20 then (x &&& y) ||| (~~~x &&& z)
  else if t < 40 then x ^^^ y ^^^ z
  else if t < 60 then (x &&& y) ||| (x &&& z) ||| (y &&& z)
  else x ^^^ y ^^^ z

/-- The constant of a round. -/
def roundConstant (t : Nat) : Word :=
  if t < 20 then 0x5A827999 else if t < 40 then 0x6ED9EBA1
  else if t < 60 then 0x8F1BBCDC else 0xCA62C1D6

/-- The schedule: sixteen words are those of the block, and every other one comes from four words
before it. -/
def schedule (message : Nat → Word) (t : Nat) : Word :=
  if t < 16 then message t
  else (schedule message (t - 3) ^^^ schedule message (t - 8) ^^^ schedule message (t - 14)
    ^^^ schedule message (t - 16)).rotateLeft 1
termination_by t
decreasing_by all_goals omega

/-- The word of a block with an index. -/
def messageWord (block : List UInt8) (t : Nat) : Word :=
  beWord 32 (ListLemmas.window block (4 * t) 4)

/-- One round, with the word of the schedule. -/
def Registers.round (r : Registers) (t : Nat) (w : Word) : Registers :=
  { a := r.a.rotateLeft 5 + roundFunction t r.b r.c r.d + r.e + w + roundConstant t
    b := r.a
    c := r.b.rotateLeft 30
    d := r.c
    e := r.d }

/-- The registers behind the first `t` rounds. -/
def Registers.rounds (r : Registers) (message : Nat → Word) : Nat → Registers
  | 0 => r
  | t + 1 => (r.rounds message t).round t (schedule message t)

/-- The sum word by word. -/
def Registers.add (r s : Registers) : Registers :=
  { a := r.a + s.a, b := r.b + s.b, c := r.c + s.c, d := r.d + s.d, e := r.e + s.e }

/-- The compression of a block of 64 bytes. -/
def compress (r : Registers) (block : List UInt8) : Registers :=
  r.add (r.rounds (messageWord block) 80)

/-- The start value. -/
def initial : Registers :=
  { a := 0x67452301, b := 0xEFCDAB89, c := 0x98BADCFE, d := 0x10325476, e := 0xC3D2E1F0 }

/-- The padding behind a message of a length: a one, zeros up to a length of 56 in the last block,
and the number of bits in eight bytes. -/
def padding (length : Nat) : List UInt8 :=
  128 :: List.replicate ((119 - length % 64) % 64) 0 ++ beBytes 8 (BitVec.ofNat 64 (8 * length))

/-- The bytes of the registers. -/
def Registers.bytes (r : Registers) : List UInt8 :=
  beBytes 4 r.a ++ beBytes 4 r.b ++ beBytes 4 r.c ++ beBytes 4 r.d ++ beBytes 4 r.e

/-- The hash of a message. -/
def sha1 (message : List UInt8) : List UInt8 :=
  (absorb compress 64 initial (message ++ padding message.length)).bytes

@[simp] theorem length_sha1 (message : List UInt8) : (sha1 message).length = 20 := by
  simp [sha1, Registers.bytes]

theorem schedule_message {message : Nat → Word} {t : Nat} (h : t < 16) :
    schedule message t = message t := by
  rw [schedule, if_pos h]

theorem schedule_step {message : Nat → Word} {t : Nat} (h : 16 ≤ t) :
    schedule message t
      = (schedule message (t - 3) ^^^ schedule message (t - 8) ^^^ schedule message (t - 14)
        ^^^ schedule message (t - 16)).rotateLeft 1 := by
  rw [schedule, if_neg (Nat.not_lt.mpr h)]

/-- The schedule depends on the sixteen words only. -/
theorem schedule_congr {f g : Nat → Word} (h : ∀ u < 16, f u = g u) (t : Nat) :
    schedule f t = schedule g t := by
  induction t using Nat.strongRecOn with
  | ind t ih =>
    by_cases ht : t < 16
    · rw [schedule_message ht, schedule_message ht, h t ht]
    · have h16 : 16 ≤ t := Nat.not_lt.mp ht
      rw [schedule_step h16, schedule_step h16, ih (t - 3) (by omega), ih (t - 8) (by omega),
        ih (t - 14) (by omega), ih (t - 16) (by omega)]

theorem rounds_congr {f g : Nat → Word} (h : ∀ u < 16, f u = g u) (r : Registers) (t : Nat) :
    r.rounds f t = r.rounds g t := by
  induction t with
  | zero => rfl
  | succ t ih => rw [Registers.rounds, Registers.rounds, ih, schedule_congr h]

/-- The compression reads 64 bytes. -/
theorem compress_take (r : Registers) (buffer : List UInt8) :
    compress r (buffer.take 64) = r.add (r.rounds (messageWord buffer) 80) := by
  rw [compress, rounds_congr fun u hu => ?_]
  rw [messageWord, messageWord, ListLemmas.window_take (by omega)]

/-- The padding fills the last block. -/
theorem length_padding (length : Nat) : (length + (padding length).length) % 64 = 0 := by
  simp only [padding, List.length_append, List.length_cons, List.length_replicate, length_beBytes]
  omega

end CWebUI.Crypto
