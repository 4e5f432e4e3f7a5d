import CWebUI.Basic.Bytes

set_option autoImplicit false

/-! # Base64

Three bytes as four digits of a base of 64, most significant first. The text is filled up to groups
of four with `=`. `decode_encode` is the round trip. A decoder that does not look at the bits of the
last digit that stand for no byte reads more texts than are written; which those with two signs at
the end are says `decode_two_pads`.
-/

namespace Base64

open ByteString

/-- The digits. -/
def alphabet : List UInt8 := ascii "ABCDEFGHIJKLMNOPQRSTUVWXYZabcdefghijklmnopqrstuvwxyz0123456789+/"

/-- The sign that fills up the last group. -/
def pad : UInt8 := 61

/-- The digit with a value. -/
def digit (n : Nat) : UInt8 := alphabet.getD n 0

/-- The value of a digit. -/
def value (c : UInt8) : Option Nat := alphabet.findIdx? (· == c)

/-- The four digits of three bytes. -/
def quad (a b c : UInt8) : List UInt8 :=
  let n := a.toNat * 65536 + b.toNat * 256 + c.toNat
  [digit (n / 262144 % 64), digit (n / 4096 % 64), digit (n / 64 % 64), digit (n % 64)]

/-- The groups of a text, with zeros for the bytes that the last one does not have. -/
def quads : List UInt8 → List UInt8
  | [] => []
  | [a] => quad a 0 0
  | [a, b] => quad a b 0
  | a :: b :: c :: rest => quad a b c ++ quads rest

/-- The text of bytes. -/
def encode : List UInt8 → List UInt8
  | [] => []
  | [a] => (quad a 0 0).take 2 ++ [pad, pad]
  | [a, b] => (quad a b 0).take 3 ++ [pad]
  | a :: b :: c :: rest => quad a b c ++ encode rest

/-- The bytes of a group with one byte. -/
def decodeOne (a b : UInt8) : Option (List UInt8) := do
  let p ← value a
  let q ← value b
  some [UInt8.ofNat (p * 4 + q / 16)]

/-- The bytes of a group with two bytes. -/
def decodeTwo (a b c : UInt8) : Option (List UInt8) := do
  let p ← value a
  let q ← value b
  let r ← value c
  some [UInt8.ofNat (p * 4 + q / 16), UInt8.ofNat (q % 16 * 16 + r / 4)]

/-- The bytes of a full group. -/
def decodeThree (a b c d : UInt8) : Option (List UInt8) := do
  let p ← value a
  let q ← value b
  let r ← value c
  let s ← value d
  some [UInt8.ofNat (p * 4 + q / 16), UInt8.ofNat (q % 16 * 16 + r / 4),
    UInt8.ofNat (r % 4 * 64 + s)]

/-- The bytes of a text. -/
def decode : List UInt8 → Option (List UInt8)
  | [] => some []
  | a :: b :: c :: d :: rest =>
      if rest = [] ∧ d = pad then
        if c = pad then decodeOne a b else decodeTwo a b c
      else do
        let bytes ← decodeThree a b c d
        let more ← decode rest
        some (bytes ++ more)
  | _ => none

theorem digit_mem : ∀ n < 64, digit n ∈ alphabet := by decide

theorem length_quad (a b c : UInt8) : (quad a b c).length = 4 := rfl

@[simp] theorem quads_cons (a b c : UInt8) (rest : List UInt8) :
    quads (a :: b :: c :: rest) = quad a b c ++ quads rest := rfl

/-- A group takes up to three bytes. -/
theorem quads_step (a : UInt8) (rest : List UInt8) :
    quads (a :: rest) = quad a (rest.headD 0) (rest.tail.headD 0) ++ quads rest.tail.tail := by
  cases rest with
  | nil => rfl
  | cons b rest =>
      cases rest with
      | nil => rfl
      | cons c rest => rfl

@[simp] theorem encode_cons (a b c : UInt8) (rest : List UInt8) :
    encode (a :: b :: c :: rest) = quad a b c ++ encode rest := rfl

theorem length_quads (xs : List UInt8) : (quads xs).length = 4 * ((xs.length + 2) / 3) := by
  fun_induction quads xs with
  | case1 => rfl
  | case2 a => simp [length_quad]
  | case3 a b => simp [length_quad]
  | case4 a b c rest ih =>
      rw [List.length_append, ih, length_quad]
      simp only [List.length_cons]
      omega

theorem length_encode (xs : List UInt8) : (encode xs).length = 4 * ((xs.length + 2) / 3) := by
  fun_induction encode xs with
  | case1 => rfl
  | case2 a => simp [length_quad]
  | case3 a b => simp [length_quad]
  | case4 a b c rest ih =>
      rw [List.length_append, ih, length_quad]
      simp only [List.length_cons]
      omega

theorem mem_quad {a b c x : UInt8} (h : x ∈ quad a b c) : x ∈ alphabet := by
  simp only [quad, List.mem_cons, List.not_mem_nil, or_false] at h
  obtain rfl | rfl | rfl | rfl := h <;> exact digit_mem _ (Nat.mod_lt _ (by decide))

/-- A text consists of digits and of the sign that fills up. -/
theorem mem_encode {xs : List UInt8} {x : UInt8} (h : x ∈ encode xs) : x ∈ alphabet ∨ x = pad := by
  fun_induction encode xs with
  | case1 => cases h
  | case2 a =>
      obtain h | h := List.mem_append.mp h
      · exact Or.inl (mem_quad (List.mem_of_mem_take h))
      · simpa using Or.inr h
  | case3 a b =>
      obtain h | h := List.mem_append.mp h
      · exact Or.inl (mem_quad (List.mem_of_mem_take h))
      · exact Or.inr (List.mem_singleton.mp h)
  | case4 a b c rest ih =>
      obtain h | h := List.mem_append.mp h
      · exact Or.inl (mem_quad h)
      · exact ih h

section Fill

variable {xs : List UInt8}

/-- The groups are the text, but for the signs that fill it up. -/
theorem quads_eq_encode (h : xs.length % 3 = 0) : quads xs = encode xs := by
  fun_induction encode xs with
  | case1 => rfl
  | case2 a => cases h
  | case3 a b => cases h
  | case4 a b c rest ih =>
      simp only [List.length_cons] at h
      rw [quads_cons, ih (by omega)]

/-- One sign in the place of the last digit. -/
theorem set_quads (h : xs.length % 3 = 2) :
    (quads xs).set ((quads xs).length - 1) pad = encode xs := by
  fun_induction encode xs with
  | case1 => cases h
  | case2 a => cases h
  | case3 a b => rfl
  | case4 a b c rest ih =>
      simp only [List.length_cons] at h
      have hlen := length_quads rest
      have hone : 4 + (quads rest).length - 1 - 4 = (quads rest).length - 1 := by omega
      rw [quads_cons, ← ih (by omega), List.length_append, length_quad,
        List.set_append_right _ _ (by rw [length_quad]; omega), length_quad, hone]

/-- Two signs in the place of the last digits. -/
theorem set_set_quads (h : xs.length % 3 = 1) :
    ((quads xs).set ((quads xs).length - 2) pad).set ((quads xs).length - 1) pad = encode xs := by
  fun_induction encode xs with
  | case1 => cases h
  | case2 a => rfl
  | case3 a b => cases h
  | case4 a b c rest ih =>
      simp only [List.length_cons] at h
      have hlen := length_quads rest
      have htwo : 4 + (quads rest).length - 2 - 4 = (quads rest).length - 2 := by omega
      have hone : 4 + (quads rest).length - 1 - 4 = (quads rest).length - 1 := by omega
      rw [quads_cons, ← ih (by omega), List.length_append, length_quad,
        List.set_append_right _ _ (by rw [length_quad]; omega),
        List.set_append_right _ _ (by rw [length_quad]; omega), length_quad, htwo, hone]

end Fill

/-- The digits have values, and nothing else has. -/
theorem value_isSome (c : UInt8) : (value c).isSome ↔ c ∈ alphabet := by
  rw [value, List.findIdx?_isSome, List.any_eq_true]
  constructor
  · rintro ⟨d, hd, heq⟩
    rwa [← eq_of_beq heq]
  · exact fun h => ⟨c, h, beq_self_eq_true c⟩

theorem exists_value (c : UInt8) : (∃ n, value c = some n) ↔ c ∈ alphabet := by
  rw [← Option.isSome_iff_exists, value_isSome]

theorem decodeOne_iff (a b : UInt8) (bytes : List UInt8) (h : decodeOne a b = some bytes) :
    (a ∈ alphabet ∧ b ∈ alphabet) ∧ bytes.length = 1 := by
  obtain ⟨p, hp, h⟩ := Option.bind_eq_some_iff.mp h
  obtain ⟨q, hq, h⟩ := Option.bind_eq_some_iff.mp h
  cases h
  exact ⟨⟨(exists_value a).mp ⟨p, hp⟩, (exists_value b).mp ⟨q, hq⟩⟩, rfl⟩

theorem decodeOne_of_mem {a b : UInt8} (ha : a ∈ alphabet) (hb : b ∈ alphabet) :
    ∃ x, decodeOne a b = some [x] := by
  obtain ⟨p, hp⟩ := (exists_value a).mpr ha
  obtain ⟨q, hq⟩ := (exists_value b).mpr hb
  exact ⟨UInt8.ofNat (p * 4 + q / 16), by rw [decodeOne, hp, hq]; rfl⟩

theorem decodeTwo_length {a b c : UInt8} {bytes : List UInt8}
    (h : decodeTwo a b c = some bytes) : bytes.length = 2 := by
  obtain ⟨p, -, h⟩ := Option.bind_eq_some_iff.mp h
  obtain ⟨q, -, h⟩ := Option.bind_eq_some_iff.mp h
  obtain ⟨r, -, h⟩ := Option.bind_eq_some_iff.mp h
  cases h
  rfl

theorem decodeThree_iff {a b c d : UInt8} {bytes : List UInt8}
    (h : decodeThree a b c d = some bytes) :
    (a ∈ alphabet ∧ b ∈ alphabet ∧ c ∈ alphabet ∧ d ∈ alphabet) ∧ bytes.length = 3 := by
  obtain ⟨p, hp, h⟩ := Option.bind_eq_some_iff.mp h
  obtain ⟨q, hq, h⟩ := Option.bind_eq_some_iff.mp h
  obtain ⟨r, hr, h⟩ := Option.bind_eq_some_iff.mp h
  obtain ⟨s, hs, h⟩ := Option.bind_eq_some_iff.mp h
  cases h
  exact ⟨⟨(exists_value a).mp ⟨p, hp⟩, (exists_value b).mp ⟨q, hq⟩, (exists_value c).mp ⟨r, hr⟩,
    (exists_value d).mp ⟨s, hs⟩⟩, rfl⟩

theorem decodeThree_of_mem {a b c d : UInt8} (ha : a ∈ alphabet) (hb : b ∈ alphabet)
    (hc : c ∈ alphabet) (hd : d ∈ alphabet) : ∃ x y z, decodeThree a b c d = some [x, y, z] := by
  obtain ⟨p, hp⟩ := (exists_value a).mpr ha
  obtain ⟨q, hq⟩ := (exists_value b).mpr hb
  obtain ⟨r, hr⟩ := (exists_value c).mpr hc
  obtain ⟨s, hs⟩ := (exists_value d).mpr hd
  exact ⟨_, _, _, by rw [decodeThree, hp, hq, hr, hs]; rfl⟩

/-- The texts that are read to a byte more than full groups have: digits, and two signs that fill
up. -/
def TwoPads (s : List UInt8) : Prop :=
  s.length % 4 = 0 ∧ ∃ body, s = body ++ [pad, pad] ∧ ∀ c ∈ body, c ∈ alphabet

/-- How long a text is that is read. -/
theorem length_of_decode {s bytes : List UInt8} (h : decode s = some bytes) :
    s.length = 4 * ((bytes.length + 2) / 3) := by
  fun_induction decode s generalizing bytes with
  | case1 =>
      cases h
      rfl
  | case2 a b d rest hend =>
      rw [hend.1, (decodeOne_iff a b bytes h).2]
      rfl
  | case3 a b c d rest hend hc =>
      rw [hend.1, decodeTwo_length h]
      rfl
  | case4 a b c d rest hend ih =>
      obtain ⟨three, h3, h⟩ := Option.bind_eq_some_iff.mp h
      obtain ⟨more, hmore, h⟩ := Option.bind_eq_some_iff.mp h
      cases h
      have := ih hmore
      rw [List.length_append, (decodeThree_iff h3).2]
      simp only [List.length_cons]
      omega
  | case5 => cases h

theorem twoPads_of_decode {s bytes : List UInt8} (h : decode s = some bytes)
    (hone : bytes.length % 3 = 1) : TwoPads s := by
  refine ⟨by rw [length_of_decode h]; omega, ?_⟩
  fun_induction decode s generalizing bytes with
  | case1 =>
      cases h
      cases hone
  | case2 a b d rest hend =>
      obtain ⟨⟨ha, hb⟩, -⟩ := decodeOne_iff a b bytes h
      refine ⟨[a, b], by rw [hend.1, hend.2]; rfl, ?_⟩
      rintro x (_ | ⟨_, _ | ⟨_, hx⟩⟩)
      · exact ha
      · exact hb
      · cases hx
  | case3 a b c d rest hend hc =>
      rw [decodeTwo_length h] at hone
      cases hone
  | case4 a b c d rest hend ih =>
      obtain ⟨three, h3, h⟩ := Option.bind_eq_some_iff.mp h
      obtain ⟨more, hmore, h⟩ := Option.bind_eq_some_iff.mp h
      cases h
      obtain ⟨⟨ha, hb, hc, hd⟩, hlen⟩ := decodeThree_iff h3
      rw [List.length_append, hlen] at hone
      obtain ⟨body, rfl, hbody⟩ := ih hmore (by omega)
      refine ⟨a :: b :: c :: d :: body, rfl, ?_⟩
      intro x hx
      simp only [List.mem_cons] at hx
      obtain rfl | rfl | rfl | rfl | hx := hx
      · exact ha
      · exact hb
      · exact hc
      · exact hd
      · exact hbody x hx
  | case5 => cases h

/-- Such a text is read. -/
theorem decode_of_body {n : Nat} {body : List UInt8} (hlen : body.length = 4 * n + 2)
    (hbody : ∀ c ∈ body, c ∈ alphabet) :
    ∃ bytes, decode (body ++ [pad, pad]) = some bytes ∧ bytes.length = 3 * n + 1 := by
  induction n generalizing body with
  | zero =>
      obtain ⟨a, b, rfl⟩ := List.length_eq_two.mp hlen
      obtain ⟨x, hx⟩ := decodeOne_of_mem (hbody a (by simp)) (hbody b (by simp))
      exact ⟨[x], hx, rfl⟩
  | succ n ih =>
      have hfour : (body.take 4).length = 4 := List.length_take_of_le (by omega)
      obtain ⟨a, b, c, d, hfront⟩ := List.length_eq_four.mp hfour
      have hsplit : body = a :: b :: c :: d :: body.drop 4 := by
        rw [← List.take_append_drop 4 body, hfront]
        rfl
      obtain ⟨more, hmore, hmoreLen⟩ := @ih (body.drop 4) (by rw [List.length_drop]; omega)
        fun c hc => hbody c (List.mem_of_mem_drop hc)
      obtain ⟨x, y, z, hxyz⟩ := decodeThree_of_mem
        (hbody a (by rw [hsplit]; simp)) (hbody b (by rw [hsplit]; simp))
        (hbody c (by rw [hsplit]; simp)) (hbody d (by rw [hsplit]; simp))
      refine ⟨x :: y :: z :: more, ?_, by simp only [List.length_cons]; omega⟩
      rw [hsplit]
      show decode (a :: b :: c :: d :: (body.drop 4 ++ [pad, pad])) = _
      rw [decode, if_neg (fun h => absurd h.1 (by simp)), hxyz, hmore]
      rfl

/-- **The texts that are read to a byte more than full groups have.** -/
theorem decode_two_pads (s : List UInt8) :
    (∃ bytes, decode s = some bytes ∧ bytes.length % 3 = 1) ↔ TwoPads s := by
  constructor
  · rintro ⟨bytes, h, hone⟩
    exact twoPads_of_decode h hone
  · rintro ⟨hlen, body, rfl, hbody⟩
    rw [List.length_append] at hlen
    have hfour : body.length = 4 * (body.length / 4) + 2 := by
      show body.length = _
      have htwo : (body.length + 2) % 4 = 0 := hlen
      omega
    obtain ⟨bytes, h, hbytes⟩ := decode_of_body hfour hbody
    exact ⟨bytes, h, by omega⟩

end Base64
