import Mathlib.Tactic.IntervalCases
import CWebUI.Crypto.Sha1Standard

set_option autoImplicit false

/-! # The transformation of a block

`SHA1Transform` (`sha1.c`) on a little-endian machine. The eighty rounds are written out one after
the other. They do not move the five variables: every call names them in another order. The
schedule is not laid out either: there are sixteen words, and from the sixteenth round on every
round puts its word into the place of the one that is no longer used.

`sha1Transform_eq` says that this is the compression of the standard.
-/

namespace CWebUI.Crypto

open ByteString ListLemmas

/-! ## The code -/

/-- `rol` -/
def rol (value : Word) (bits : Nat) : Word := (value <<< bits) ||| (value >>> (32 - bits))

/-- The variables of `SHA1Transform`. -/
structure Working where
  vars : Vector Word 5
  /-- `block->l` -/
  l : Vector Word 16

/-- The names of the five variables. -/
inductive Var
  | a | b | c | d | e
  deriving DecidableEq, Repr

def Var.index : Var → Fin 5
  | .a => 0
  | .b => 1
  | .c => 2
  | .d => 3
  | .e => 4

/-- An index of a word of the block, reduced by `& 15`. -/
def slot (i : Nat) : Fin 16 := ⟨i &&& 15, Nat.lt_of_le_of_lt Nat.and_le_right (by decide)⟩

def Working.get (m : Working) (v : Var) : Word := m.vars.get v.index

def Working.set (m : Working) (v : Var) (value : Word) : Working :=
  { m with vars := m.vars.set v.index value }

/-- A store of a word of the block; the word is the value of the expression. -/
def Working.store (m : Working) (i : Fin 16) (word : Word) : Working × Word :=
  ({ m with l := m.l.set i word }, word)

/-- `blk0` -/
def blk0 (i : Nat) (m : Working) : Working × Word :=
  m.store (slot i) ((rol (m.l.get (slot i)) 24 &&& 0xFF00FF00)
    ||| (rol (m.l.get (slot i)) 8 &&& 0x00FF00FF))

/-- `blk` -/
def blk (i : Nat) (m : Working) : Working × Word :=
  m.store (slot i) (rol (m.l.get (slot (i + 13)) ^^^ m.l.get (slot (i + 8))
    ^^^ m.l.get (slot (i + 2)) ^^^ m.l.get (slot i)) 1)

/-- What the macros of the rounds share: `z` gets the sum, and `w` is rotated. -/
def Working.round (f : Word → Word → Word → Word) (expand : Nat → Working → Working × Word)
    (k : Word) (v w x y z : Var) (i : Nat) (m : Working) : Working :=
  let (m₁, word) := expand i m
  let m₂ := m₁.set z
    (m.get z + (f (m.get w) (m.get x) (m.get y) + word + k + rol (m.get v) 5))
  m₂.set w (rol (m₂.get w) 30)

def R0 : Var → Var → Var → Var → Var → Nat → Working → Working :=
  Working.round (fun w x y => (w &&& (x ^^^ y)) ^^^ y) blk0 0x5A827999

def R1 : Var → Var → Var → Var → Var → Nat → Working → Working :=
  Working.round (fun w x y => (w &&& (x ^^^ y)) ^^^ y) blk 0x5A827999

def R2 : Var → Var → Var → Var → Var → Nat → Working → Working :=
  Working.round (fun w x y => w ^^^ x ^^^ y) blk 0x6ED9EBA1

def R3 : Var → Var → Var → Var → Var → Nat → Working → Working :=
  Working.round (fun w x y => ((w ||| x) &&& y) ||| (w &&& x)) blk 0x8F1BBCDC

def R4 : Var → Var → Var → Var → Var → Nat → Working → Working :=
  Working.round (fun w x y => w ^^^ x ^^^ y) blk 0xCA62C1D6

/-- The macros. -/
inductive Macro
  | r0 | r1 | r2 | r3 | r4
  deriving DecidableEq, Repr

def Macro.run : Macro → Var → Var → Var → Var → Var → Nat → Working → Working
  | .r0 => R0
  | .r1 => R1
  | .r2 => R2
  | .r3 => R3
  | .r4 => R4

/-- A call of a macro, with its arguments. -/
structure Call where
  name : Macro
  v : Var
  w : Var
  x : Var
  y : Var
  z : Var
  i : Nat
  deriving DecidableEq, Repr

def Call.run (m : Working) (call : Call) : Working :=
  call.name.run call.v call.w call.x call.y call.z call.i m

open Macro Var in
/-- The eighty calls, as they stand. -/
def calls : List Call := [
  ⟨r0, a, b, c, d, e, 0⟩, ⟨r0, e, a, b, c, d, 1⟩, ⟨r0, d, e, a, b, c, 2⟩, ⟨r0, c, d, e, a, b, 3⟩,
  ⟨r0, b, c, d, e, a, 4⟩, ⟨r0, a, b, c, d, e, 5⟩, ⟨r0, e, a, b, c, d, 6⟩, ⟨r0, d, e, a, b, c, 7⟩,
  ⟨r0, c, d, e, a, b, 8⟩, ⟨r0, b, c, d, e, a, 9⟩, ⟨r0, a, b, c, d, e, 10⟩, ⟨r0, e, a, b, c, d, 11⟩,
  ⟨r0, d, e, a, b, c, 12⟩, ⟨r0, c, d, e, a, b, 13⟩, ⟨r0, b, c, d, e, a, 14⟩,
  ⟨r0, a, b, c, d, e, 15⟩,
  ⟨r1, e, a, b, c, d, 16⟩, ⟨r1, d, e, a, b, c, 17⟩, ⟨r1, c, d, e, a, b, 18⟩,
  ⟨r1, b, c, d, e, a, 19⟩,
  ⟨r2, a, b, c, d, e, 20⟩, ⟨r2, e, a, b, c, d, 21⟩, ⟨r2, d, e, a, b, c, 22⟩,
  ⟨r2, c, d, e, a, b, 23⟩, ⟨r2, b, c, d, e, a, 24⟩, ⟨r2, a, b, c, d, e, 25⟩,
  ⟨r2, e, a, b, c, d, 26⟩, ⟨r2, d, e, a, b, c, 27⟩, ⟨r2, c, d, e, a, b, 28⟩,
  ⟨r2, b, c, d, e, a, 29⟩, ⟨r2, a, b, c, d, e, 30⟩, ⟨r2, e, a, b, c, d, 31⟩,
  ⟨r2, d, e, a, b, c, 32⟩, ⟨r2, c, d, e, a, b, 33⟩, ⟨r2, b, c, d, e, a, 34⟩,
  ⟨r2, a, b, c, d, e, 35⟩, ⟨r2, e, a, b, c, d, 36⟩, ⟨r2, d, e, a, b, c, 37⟩,
  ⟨r2, c, d, e, a, b, 38⟩, ⟨r2, b, c, d, e, a, 39⟩, ⟨r3, a, b, c, d, e, 40⟩,
  ⟨r3, e, a, b, c, d, 41⟩, ⟨r3, d, e, a, b, c, 42⟩, ⟨r3, c, d, e, a, b, 43⟩,
  ⟨r3, b, c, d, e, a, 44⟩, ⟨r3, a, b, c, d, e, 45⟩, ⟨r3, e, a, b, c, d, 46⟩,
  ⟨r3, d, e, a, b, c, 47⟩, ⟨r3, c, d, e, a, b, 48⟩, ⟨r3, b, c, d, e, a, 49⟩,
  ⟨r3, a, b, c, d, e, 50⟩, ⟨r3, e, a, b, c, d, 51⟩, ⟨r3, d, e, a, b, c, 52⟩,
  ⟨r3, c, d, e, a, b, 53⟩, ⟨r3, b, c, d, e, a, 54⟩, ⟨r3, a, b, c, d, e, 55⟩,
  ⟨r3, e, a, b, c, d, 56⟩, ⟨r3, d, e, a, b, c, 57⟩, ⟨r3, c, d, e, a, b, 58⟩,
  ⟨r3, b, c, d, e, a, 59⟩, ⟨r4, a, b, c, d, e, 60⟩, ⟨r4, e, a, b, c, d, 61⟩,
  ⟨r4, d, e, a, b, c, 62⟩, ⟨r4, c, d, e, a, b, 63⟩, ⟨r4, b, c, d, e, a, 64⟩,
  ⟨r4, a, b, c, d, e, 65⟩, ⟨r4, e, a, b, c, d, 66⟩, ⟨r4, d, e, a, b, c, 67⟩,
  ⟨r4, c, d, e, a, b, 68⟩, ⟨r4, b, c, d, e, a, 69⟩, ⟨r4, a, b, c, d, e, 70⟩,
  ⟨r4, e, a, b, c, d, 71⟩, ⟨r4, d, e, a, b, c, 72⟩, ⟨r4, c, d, e, a, b, 73⟩,
  ⟨r4, b, c, d, e, a, 74⟩, ⟨r4, a, b, c, d, e, 75⟩, ⟨r4, e, a, b, c, d, 76⟩,
  ⟨r4, d, e, a, b, c, 77⟩, ⟨r4, c, d, e, a, b, 78⟩, ⟨r4, b, c, d, e, a, 79⟩]

/-- A word of the memory of a little-endian machine. -/
def loadWord (bytes : List UInt8) (i : Nat) : Word :=
  beWord 32 (window bytes (4 * i) 4).reverse

/-- `memcpy(block, buffer, 64)`; a buffer that is shorter is read behind its end. -/
def loadBlock (buffer : List UInt8) : Option (Vector Word 16) :=
  if 64 ≤ buffer.length then some (Vector.ofFn fun i => loadWord buffer i) else none

/-- `SHA1Transform` -/
def sha1Transform (state : Registers) (buffer : List UInt8) : Option Registers := do
  let l ← loadBlock buffer
  let m : Working := { vars := #v[state.a, state.b, state.c, state.d, state.e], l := l }
  let m' := calls.foldl Call.run m
  some {
    a := state.a + m'.get .a
    b := state.b + m'.get .b
    c := state.c + m'.get .c
    d := state.d + m'.get .d
    e := state.e + m'.get .e }

/-! ## Words of the block -/

theorem rol_eq (value : Word) {bits : Nat} (h : bits < 32) :
    rol value bits = value.rotateLeft bits := by
  rw [rol, BitVec.rotateLeft, BitVec.rotateLeftAux, Nat.mod_eq_of_lt h]

/-- Two rotations and two masks turn the bytes of a word around. -/
theorem swap_bytes (p q r s : UInt8) :
    (rol (beWord 32 [s, r, q, p]) 24 &&& 0xFF00FF00)
        ||| (rol (beWord 32 [s, r, q, p]) 8 &&& 0x00FF00FF)
      = beWord 32 [p, q, r, s] := by
  simp only [beWord, List.foldl_cons, List.foldl_nil, rol]
  generalize p.toBitVec = p, q.toBitVec = q, r.toBitVec = r, s.toBitVec = s
  refine BitVec.eq_of_getLsbD_eq fun i hi => ?_
  interval_cases i <;> simp

theorem slot_val (i : Nat) : (slot i).val = i % 16 := Nat.and_two_pow_sub_one_eq_mod i 4

theorem slot_inj {i j : Nat} (h : i < j) (hj : j < i + 16) : slot i ≠ slot j := by
  intro heq
  have hval := congrArg Fin.val heq
  rw [slot_val, slot_val] at hval
  omega

theorem slot_congr {i j : Nat} (h : i % 16 = j % 16) : slot i = slot j :=
  Fin.ext (by rw [slot_val, slot_val, h])

/-- The word that `blk0` makes of a word as it was loaded. -/
theorem swap_loadWord {buffer : List UInt8} {i : Nat} (h : 4 * i + 4 ≤ buffer.length) :
    (rol (loadWord buffer i) 24 &&& 0xFF00FF00) ||| (rol (loadWord buffer i) 8 &&& 0x00FF00FF)
      = messageWord buffer i := by
  have hlen : (window buffer (4 * i) 4).length = 4 := length_window h
  obtain ⟨p, q, r, s, hbytes⟩ := List.length_eq_four.mp hlen
  rw [loadWord, messageWord, hbytes]
  exact swap_bytes p q r s

/-! ## The eighty calls -/

/-- The variable that is the register with an index in a round: every round moves the registers on
by one variable. -/
def role (t r : Nat) : Var :=
  match (r + 4 * t) % 5 with
  | 0 => .a
  | 1 => .b
  | 2 => .c
  | 3 => .d
  | _ => .e

/-- The macro of a round. -/
def macroAt (t : Nat) : Macro :=
  if t < 16 then .r0 else if t < 20 then .r1 else if t < 40 then .r2 else if t < 60 then .r3
  else .r4

def callAt (t : Nat) : Call :=
  ⟨macroAt t, role t 0, role t 1, role t 2, role t 3, role t 4, t⟩

theorem callAt_run (t : Nat) (m : Working) :
    (callAt t).run m = (macroAt t).run (role t 0) (role t 1) (role t 2) (role t 3) (role t 4) t m :=
  rfl

/-- The calls follow one pattern. -/
theorem calls_eq : calls = (List.range 80).map callAt := by decide

theorem role_index (t r : Nat) : (role t r).index.val = (r + 4 * t) % 5 := by
  have hlt : (r + 4 * t) % 5 < 5 := Nat.mod_lt _ (by decide)
  unfold role
  generalize (r + 4 * t) % 5 = n at hlt
  interval_cases n <;> rfl

theorem role_succ (t r : Nat) : role (t + 1) (r + 1) = role t r := by
  rw [role, role, show r + 1 + 4 * (t + 1) = r + 4 * t + 5 by omega, Nat.add_mod_right]

theorem role_wrap (t : Nat) : role (t + 1) 0 = role t 4 := by
  rw [role, role, show 0 + 4 * (t + 1) = 4 + 4 * t by omega]

theorem role_ne {t r s : Nat} (hr : r < 5) (hs : s < 5) (h : r ≠ s) :
    (role t r).index ≠ (role t s).index := by
  intro heq
  have hval := congrArg Fin.val heq
  rw [role_index, role_index] at hval
  omega

section Variables

variable (m : Working) (v : Var) (value : Word)

@[simp] theorem get_set : (m.set v value).get v = value :=
  Vector.getElem_set_self ..

theorem get_set_ne {u : Var} (h : v.index ≠ u.index) : (m.set v value).get u = m.get u :=
  Vector.getElem_set_ne v.index.isLt u.index.isLt fun heq => h (Fin.ext heq)

@[simp] theorem l_set : (m.set v value).l = m.l := rfl

@[simp] theorem get_store (i : Fin 16) : (m.store i value).1.get v = m.get v := rfl

@[simp] theorem word_store (i : Fin 16) : (m.store i value).2 = value := rfl

theorem l_store (i : Fin 16) : (m.store i value).1.l.get i = value :=
  Vector.getElem_set_self ..

theorem l_store_ne {i j : Fin 16} (h : i ≠ j) : (m.store i value).1.l.get j = m.l.get j :=
  Vector.getElem_set_ne i.isLt j.isLt fun heq => h (Fin.ext heq)

end Variables

/-- How the variables stand before the call `t`: the registers by their roles, the last sixteen
words of the schedule, and the words of the block that no round has used. -/
structure Follows (state : Registers) (buffer : List UInt8) (t : Nat) (m : Working) : Prop where
  a : m.get (role t 0) = (state.rounds (messageWord buffer) t).a
  b : m.get (role t 1) = (state.rounds (messageWord buffer) t).b
  c : m.get (role t 2) = (state.rounds (messageWord buffer) t).c
  d : m.get (role t 3) = (state.rounds (messageWord buffer) t).d
  e : m.get (role t 4) = (state.rounds (messageWord buffer) t).e
  words : ∀ u < t, t ≤ u + 16 → m.l.get (slot u) = schedule (messageWord buffer) u
  loaded : ∀ u, t ≤ u → u < 16 → m.l.get (slot u) = loadWord buffer u

section Rounds

variable {state : Registers} {buffer : List UInt8} {t : Nat} {m : Working}

/-- What the macros share does a round, when the word is that of the schedule and the function and
the constant are those of the round. -/
theorem Follows.round (hm : Follows state buffer t m) {f : Word → Word → Word → Word}
    {expand : Nat → Working → Working × Word} {k : Word} (hk : k = roundConstant t)
    (hf : ∀ x y z, f x y z = roundFunction t x y z)
    (hexpand : expand t m = m.store (slot t) (schedule (messageWord buffer) t)) :
    Follows state buffer (t + 1)
      (Working.round f expand k (role t 0) (role t 1) (role t 2) (role t 3)
        (role t 4) t m) := by
  have h41 : (role t 4).index ≠ (role t 1).index := role_ne (by decide) (by decide) (by decide)
  have h14 : (role t 1).index ≠ (role t 4).index := h41.symm
  have h10 : (role t 1).index ≠ (role t 0).index := role_ne (by decide) (by decide) (by decide)
  have h40 : (role t 4).index ≠ (role t 0).index := role_ne (by decide) (by decide) (by decide)
  have h12 : (role t 1).index ≠ (role t 2).index := role_ne (by decide) (by decide) (by decide)
  have h42 : (role t 4).index ≠ (role t 2).index := role_ne (by decide) (by decide) (by decide)
  have h13 : (role t 1).index ≠ (role t 3).index := role_ne (by decide) (by decide) (by decide)
  have h43 : (role t 4).index ≠ (role t 3).index := role_ne (by decide) (by decide) (by decide)
  unfold Working.round
  rw [hexpand]
  constructor
  · rw [role_wrap, get_set_ne _ _ _ h14, get_set, hm.a, hm.b, hm.c, hm.d, hm.e, hf,
      rol_eq _ (by decide), word_store, hk, Registers.rounds]
    generalize state.rounds (messageWord buffer) t = r
    show _ = r.a.rotateLeft 5 + roundFunction t r.b r.c r.d + r.e + _ + _
    ac_rfl
  · rw [role_succ, get_set_ne _ _ _ h10, get_set_ne _ _ _ h40, get_store, hm.a]
    rfl
  · rw [role_succ, get_set, get_set_ne _ _ _ h41, get_store, hm.b, rol_eq _ (by decide)]
    rfl
  · rw [role_succ, get_set_ne _ _ _ h12, get_set_ne _ _ _ h42, get_store, hm.c]
    rfl
  · rw [role_succ, get_set_ne _ _ _ h13, get_set_ne _ _ _ h43, get_store, hm.d]
    rfl
  · intro u hu hlast
    rw [l_set, l_set]
    by_cases hut : u = t
    · rw [hut, l_store]
    · rw [l_store_ne _ _ (slot_inj (by omega) (by omega)).symm]
      exact hm.words u (by omega) (by omega)
  · intro u hu h16
    rw [l_set, l_set, l_store_ne _ _ (slot_inj (by omega) (by omega))]
    exact hm.loaded u (by omega) h16

/-- The word of the first sixteen rounds. -/
theorem Follows.blk0 (hm : Follows state buffer t m) (ht : t < 16) (hbuffer : 64 ≤ buffer.length) :
    blk0 t m = m.store (slot t) (schedule (messageWord buffer) t) := by
  rw [CWebUI.Crypto.blk0, hm.loaded t (Nat.le_refl t) ht, schedule_message ht,
    swap_loadWord (by omega)]

/-- The word of the other rounds. -/
theorem Follows.blk (hm : Follows state buffer t m) (ht : 16 ≤ t) :
    blk t m = m.store (slot t) (schedule (messageWord buffer) t) := by
  have h3 : slot (t + 13) = slot (t - 3) := slot_congr (by omega)
  have h8 : slot (t + 8) = slot (t - 8) := slot_congr (by omega)
  have h14 : slot (t + 2) = slot (t - 14) := slot_congr (by omega)
  have h16 : slot t = slot (t - 16) := slot_congr (by omega)
  have hword : ∀ k, 1 ≤ k → k ≤ 16 →
      m.l.get (slot (t - k)) = schedule (messageWord buffer) (t - k) := fun k hk hle =>
    hm.words (t - k) (by omega) (by omega)
  have hself : m.l.get (slot t) = schedule (messageWord buffer) (t - 16) := by
    rw [h16, hword 16 (by decide) (by decide)]
  rw [CWebUI.Crypto.blk, h3, h8, h14, hself, hword 3 (by decide) (by decide),
    hword 8 (by decide) (by decide), hword 14 (by decide) (by decide), rol_eq _ (by decide),
    ← schedule_step ht]

/-- The choice by two exclusive disjunctions. -/
theorem choose_eq (w x y : Word) : (w &&& (x ^^^ y)) ^^^ y = (w &&& x) ||| (~~~w &&& y) := by
  refine BitVec.eq_of_getLsbD_eq fun i hi => ?_
  simp only [BitVec.getLsbD_xor, BitVec.getLsbD_and, BitVec.getLsbD_or, BitVec.getLsbD_not, hi,
    decide_true, Bool.true_and]
  cases w.getLsbD i <;> simp

/-- The majority with one conjunction less. -/
theorem majority_eq (w x y : Word) :
    ((w ||| x) &&& y) ||| (w &&& x) = (w &&& x) ||| (w &&& y) ||| (x &&& y) := by
  refine BitVec.eq_of_getLsbD_eq fun i _ => ?_
  simp only [BitVec.getLsbD_and, BitVec.getLsbD_or]
  cases w.getLsbD i <;> cases x.getLsbD i <;> simp

/-- **A call does a round.** -/
theorem Follows.call (hm : Follows state buffer t m) (hbuffer : 64 ≤ buffer.length) :
    Follows state buffer (t + 1) ((callAt t).run m) := by
  by_cases h16 : t < 16
  · have hname : macroAt t = .r0 := if_pos h16
    rw [callAt_run, hname, Macro.run, R0]
    exact hm.round (by rw [roundConstant, if_pos (by omega)])
      (fun x y z => by rw [roundFunction, if_pos (by omega), choose_eq]) (hm.blk0 h16 hbuffer)
  have hblk := hm.blk (Nat.not_lt.mp h16)
  by_cases h20 : t < 20
  · have hname : macroAt t = .r1 := by rw [macroAt, if_neg h16, if_pos h20]
    rw [callAt_run, hname, Macro.run, R1]
    exact hm.round (by rw [roundConstant, if_pos h20])
      (fun x y z => by rw [roundFunction, if_pos h20, choose_eq]) hblk
  by_cases h40 : t < 40
  · have hname : macroAt t = .r2 := by rw [macroAt, if_neg h16, if_neg h20, if_pos h40]
    rw [callAt_run, hname, Macro.run, R2]
    exact hm.round (by rw [roundConstant, if_neg h20, if_pos h40])
      (fun x y z => by rw [roundFunction, if_neg h20, if_pos h40]) hblk
  by_cases h60 : t < 60
  · have hname : macroAt t = .r3 := by
      rw [macroAt, if_neg h16, if_neg h20, if_neg h40, if_pos h60]
    rw [callAt_run, hname, Macro.run, R3]
    exact hm.round (by rw [roundConstant, if_neg h20, if_neg h40, if_pos h60])
      (fun x y z => by rw [roundFunction, if_neg h20, if_neg h40, if_pos h60, majority_eq]) hblk
  · have hname : macroAt t = .r4 := by
      rw [macroAt, if_neg h16, if_neg h20, if_neg h40, if_neg h60]
    rw [callAt_run, hname, Macro.run, R4]
    exact hm.round (by rw [roundConstant, if_neg h20, if_neg h40, if_neg h60])
      (fun x y z => by rw [roundFunction, if_neg h20, if_neg h40, if_neg h60]) hblk

/-- The first calls do the first rounds. -/
theorem Follows.calls (hm : Follows state buffer 0 m) (hbuffer : 64 ≤ buffer.length) :
    Follows state buffer t (((List.range t).map callAt).foldl Call.run m) := by
  induction t with
  | zero => exact hm
  | succ t ih =>
      rw [List.range_succ, List.map_append, List.foldl_append]
      exact ih.call hbuffer

/-- The variables behind the copies of the state and the block. -/
theorem follows_start (state : Registers) (buffer : List UInt8) :
    Follows state buffer 0
      { vars := #v[state.a, state.b, state.c, state.d, state.e]
        l := Vector.ofFn fun i : Fin 16 => loadWord buffer i } where
  a := rfl
  b := rfl
  c := rfl
  d := rfl
  e := rfl
  words := fun u hu => absurd hu (Nat.not_lt_zero u)
  loaded := fun u _ h16 => by
    have hslot : (slot u).val = u := by rw [slot_val, Nat.mod_eq_of_lt h16]
    show (Vector.ofFn fun i : Fin 16 => loadWord buffer i)[(slot u).val] = _
    rw [Vector.getElem_ofFn]
    exact congrArg (loadWord buffer) hslot

end Rounds

/-- **The transformation is the compression of the first 64 bytes**; it reads none behind them. -/
theorem sha1Transform_eq (state : Registers) {buffer : List UInt8} (h : 64 ≤ buffer.length) :
    sha1Transform state buffer = some (compress state (buffer.take 64)) := by
  have hend := (follows_start state buffer).calls (t := 80) h
  rw [← calls_eq] at hend
  have ha : role 80 0 = .a := by decide
  have hb : role 80 1 = .b := by decide
  have hc : role 80 2 = .c := by decide
  have hd : role 80 3 = .d := by decide
  have he : role 80 4 = .e := by decide
  rw [sha1Transform, loadBlock, if_pos h, compress_take, Option.bind_eq_bind, Option.bind_some]
  dsimp only
  generalize calls.foldl Call.run _ = m at hend ⊢
  rw [← ha, ← hb, ← hc, ← hd, ← he, hend.a, hend.b, hend.c, hend.d, hend.e]
  rfl

end CWebUI.Crypto
