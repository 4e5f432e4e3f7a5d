import CWebUI.Sockets.Timeouts

set_option autoImplicit false

/-! # The clock of the event loop

`g_loop_now` is set behind every wait, in seconds (`eventLoopBeforeWait` and `eventLoopAfterWait`,
`system_sockets_container.c`). What the loop has spent in its handlers beyond one second is taken
out of it, and 0 is kept free for a stamp that is not set. The clock of the platform and everything
that is computed from it wraps at 32 bits. Its exact readings are natural numbers here.
-/

namespace CWebUI.Timeouts

/-! ## The clock -/

/-- `g_loop_now`, `loop_stall` and `loop_returned_at`. -/
structure LoopClock where
  gLoopNow : UInt32 := 0
  loopStall : UInt32 := 0
  loopReturnedAt : UInt32 := 0
  deriving DecidableEq, Repr

/-- `eventLoopBeforeWait`, where `connMonotonicSec` returns `mono`: the clock, and how long to wait
in milliseconds. -/
def eventLoopBeforeWait (mono : UInt32) (loopSweepPending : Bool) (sockListClients : Int32)
    (c : LoopClock) : LoopClock × Int32 :=
  if mono = 0 then (c, -1)
  else
    let busy := mono - c.loopReturnedAt
    let c :=
      if c.loopReturnedAt ≠ 0 ∧ 1 < busy then { c with loopStall := c.loopStall + (busy - 1) } else c
    (c, if loopSweepPending then 0 else if 0 < sockListClients then 1000 else -1)

/-- `eventLoopAfterWait` -/
def eventLoopAfterWait (mono : UInt32) (c : LoopClock) : LoopClock :=
  if mono = 0 then { c with loopReturnedAt := mono, gLoopNow := 0 }
  else
    let now := mono - c.loopStall
    { c with loopReturnedAt := mono, gLoopNow := if now ≠ 0 then now else 1 }

/-- What the event loop finds in its rounds: the readings of the clock, two in a round, whether a
sweep is pending, and the number of clients. -/
structure LoopInput where
  seconds : Nat → Nat
  loopSweepPending : Nat → Bool
  sockListClients : Nat → Int32

/-- What `connMonotonicSec` returns. -/
def LoopInput.mono (input : LoopInput) (k : Nat) : UInt32 := UInt32.ofNat (input.seconds k)

/-- The clock after some rounds. `start` is what `g_loop_now` was set to before the first one. -/
def loopClock (input : LoopInput) (start : UInt32) : Nat → LoopClock
  | 0 => { gLoopNow := start }
  | n + 1 =>
      eventLoopAfterWait (input.mono (2 * n + 1))
        (eventLoopBeforeWait (input.mono (2 * n)) (input.loopSweepPending n)
          (input.sockListClients n) (loopClock input start n)).1

/-- The clock of the platform does not go back, is never asked less than once in 68 years, and does
not return 0. -/
structure LoopInput.Runs (input : LoopInput) : Prop where
  forward : ∀ k, input.seconds k ≤ input.seconds (k + 1)
  step : ∀ k, input.seconds (k + 1) < input.seconds k + 2 ^ 31
  set : ∀ k, input.mono k ≠ 0

/-! ## The time of the loop -/

/-- The time in the handlers of a round, up to the next wait. -/
def LoopInput.handled (input : LoopInput) (n : Nat) : Nat :=
  input.seconds (2 * n + 2) - input.seconds (2 * n + 1)

/-- The time of the wait of a round. -/
def LoopInput.waited (input : LoopInput) (n : Nat) : Nat :=
  input.seconds (2 * n + 1) - input.seconds (2 * n)

/-- The time of the loop behind the wait of a round: waiting counts fully, and the handlers of a
round count for one second at most. -/
def LoopInput.loopSeconds (input : LoopInput) : Nat → Nat
  | 0 => input.seconds 1
  | n + 1 => input.loopSeconds n + min 1 (input.handled n) + input.waited (n + 1)

/-- The second that a stamp stands for: 0 is not used, whatever the number of wraps. -/
def stampOf (t : Nat) : Nat := if t % 2 ^ 32 = 0 then t + 1 else t

theorem stampOf_mono {t t' : Nat} (h : t ≤ t') : stampOf t ≤ stampOf t' := by
  unfold stampOf
  split <;> split <;> omega

theorem stampOf_ne_zero (t : Nat) : UInt32.ofNat (stampOf t) ≠ 0 := by
  intro hzero
  have hmod : stampOf t % 2 ^ 32 = 0 := by
    have := congrArg UInt32.toNat hzero
    rwa [UInt32.toNat_ofNat'] at this
  unfold stampOf at hmod
  split at hmod <;> omega

/-- What `eventLoopAfterWait` does with the time of the loop. -/
theorem ofNat_stampOf (t : Nat) :
    UInt32.ofNat (stampOf t) = if UInt32.ofNat t ≠ 0 then UInt32.ofNat t else 1 := by
  have hiff : UInt32.ofNat t = 0 ↔ t % 2 ^ 32 = 0 := by
    rw [← UInt32.toNat_inj, UInt32.toNat_ofNat']
    rfl
  unfold stampOf
  by_cases hzero : t % 2 ^ 32 = 0
  · rw [if_pos hzero, if_neg (not_not.mpr (hiff.mpr hzero)), ← UInt32.toNat_inj,
      UInt32.toNat_ofNat', UInt32.toNat_one]
    omega
  · rw [if_neg hzero, if_pos (fun h => hzero (hiff.mp h))]

/-- Behind a wait, the clock of the platform is ahead of the time of the loop by `loop_stall`. -/
structure OnTime (input : LoopInput) (n : Nat) (c : LoopClock) : Prop where
  returned : c.loopReturnedAt = input.mono (2 * n + 1)
  stall : (c.loopStall.toNat + input.loopSeconds n) % 2 ^ 32 = input.seconds (2 * n + 1) % 2 ^ 32
  now : c.gLoopNow = UInt32.ofNat (stampOf (input.loopSeconds n))

variable {input : LoopInput}

theorem LoopInput.mono_toNat (k : Nat) : (input.mono k).toNat = input.seconds k % 2 ^ 32 :=
  UInt32.toNat_ofNat'

/-- The wait ends. -/
theorem onTime_afterWait (h : input.Runs) {n : Nat} {c : LoopClock}
    (hstall : (c.loopStall.toNat + input.loopSeconds n) % 2 ^ 32 =
      input.seconds (2 * n + 1) % 2 ^ 32) :
    OnTime input n (eventLoopAfterWait (input.mono (2 * n + 1)) c) := by
  have hnow : input.mono (2 * n + 1) - c.loopStall = UInt32.ofNat (input.loopSeconds n) := by
    rw [← UInt32.toNat_inj, UInt32.toNat_sub, UInt32.toNat_ofNat', LoopInput.mono_toNat]
    have := c.loopStall.toNat_lt
    omega
  unfold eventLoopAfterWait
  rw [if_neg (h.set _)]
  refine ⟨rfl, hstall, ?_⟩
  dsimp only
  rw [hnow, ofNat_stampOf]

/-- The handlers are through: `loop_stall` grows by what they took beyond one second. -/
theorem stall_beforeWait (h : input.Runs) {n : Nat} {c : LoopClock} (hc : OnTime input n c)
    (pending : Bool) (clients : Int32) :
    ((eventLoopBeforeWait (input.mono (2 * n + 2)) pending clients c).1.loopStall.toNat +
      input.loopSeconds (n + 1)) % 2 ^ 32 = input.seconds (2 * n + 3) % 2 ^ 32 := by
  have hhandled : input.seconds (2 * n + 1) ≤ input.seconds (2 * n + 2) := h.forward _
  have hwait : input.seconds (2 * n + 2) ≤ input.seconds (2 * n + 3) := h.forward _
  have hbusy : (input.mono (2 * n + 2) - c.loopReturnedAt).toNat = input.handled n := by
    have hstep : input.seconds (2 * n + 2) < input.seconds (2 * n + 1) + 2 ^ 31 := h.step _
    rw [hc.returned, UInt32.toNat_sub, LoopInput.mono_toNat, LoopInput.mono_toNat,
      LoopInput.handled]
    omega
  have hstall := hc.stall
  have hset : c.loopReturnedAt ≠ 0 := hc.returned ▸ h.set _
  have hsum : input.loopSeconds (n + 1) + (input.handled n - min 1 (input.handled n)) +
      input.seconds (2 * n + 1) = input.loopSeconds n + input.seconds (2 * n + 3) := by
    have hwaited : input.waited (n + 1) = input.seconds (2 * n + 3) - input.seconds (2 * n + 2) :=
      rfl
    have hspent : input.handled n = input.seconds (2 * n + 2) - input.seconds (2 * n + 1) := rfl
    rw [LoopInput.loopSeconds, hwaited]
    omega
  unfold eventLoopBeforeWait
  rw [if_neg (h.set _)]
  dsimp only
  by_cases hlong : 1 < input.mono (2 * n + 2) - c.loopReturnedAt
  · rw [if_pos ⟨hset, hlong⟩]
    have hlong' : 1 < input.handled n := by
      rw [← hbusy]
      exact hlong
    have hadded : (input.mono (2 * n + 2) - c.loopReturnedAt - 1).toNat = input.handled n - 1 := by
      rw [UInt32.toNat_sub_of_le _ _ (UInt32.le_of_lt hlong), hbusy]
      rfl
    rw [UInt32.toNat_add, hadded]
    omega
  · rw [if_neg (fun hand => hlong hand.2)]
    have hshort : input.handled n ≤ 1 := by
      rw [← hbusy]
      exact UInt32.not_lt.mp hlong
    omega

theorem loopClock_onTime (h : input.Runs) (start : UInt32) (n : Nat) :
    OnTime input n (loopClock input start (n + 1)) := by
  induction n with
  | zero =>
      -- before the first wait there is nothing to be taken out
      refine onTime_afterWait h ?_
      have hfirst : (eventLoopBeforeWait (input.mono (2 * 0)) (input.loopSweepPending 0)
          (input.sockListClients 0) (loopClock input start 0)).1 = { gLoopNow := start } := by
        unfold eventLoopBeforeWait
        rw [if_neg (h.set _)]
        have hunset : ¬ ((loopClock input start 0).loopReturnedAt ≠ 0 ∧
            1 < input.mono (2 * 0) - (loopClock input start 0).loopReturnedAt) :=
          fun hand => hand.1 rfl
        dsimp only
        rw [if_neg hunset]
        rfl
      rw [hfirst]
      change (0 + input.seconds 1) % 2 ^ 32 = input.seconds 1 % 2 ^ 32
      rw [Nat.zero_add]
  | succ n ih =>
      exact onTime_afterWait h (stall_beforeWait h ih _ _)

/-! ## Stamps -/

/-- A machine word as a signed number. -/
theorem toInt_toInt32 (x : UInt32) :
    x.toInt32.toInt = if 2 * x.toNat < 2 ^ 32 then (x.toNat : Int) else x.toNat - 2 ^ 32 :=
  BitVec.toInt_eq_toNat_cond x.toBitVec

/-- `conn_expired` on exact times. -/
theorem connExpired_ofNat {now since : Nat} (hle : since ≤ now) (hlt : now < since + 2 ^ 31)
    (hset : UInt32.ofNat since ≠ 0) (limit : Int32) :
    connExpired (UInt32.ofNat now) (UInt32.ofNat since) limit = true ↔
      0 < limit.toInt ∧ limit.toInt ≤ (now : Int) - since := by
  have hdiff : (UInt32.ofNat now - UInt32.ofNat since).toNat = now - since := by
    rw [UInt32.toNat_sub, UInt32.toNat_ofNat', UInt32.toNat_ofNat']
    omega
  unfold connExpired
  rw [Bool.and_eq_true, Bool.and_eq_true, decide_eq_true_eq, decide_eq_true_eq, decide_eq_true_eq,
    UInt32.le_iff_toNat_le, hdiff, Int32.lt_iff_toInt_lt, Int32.toInt_zero]
  have hpos : 0 < limit.toInt → (limit.toUInt32.toNat : Int) = limit.toInt := by
    intro hpos
    have hsigned := toInt_toInt32 limit.toUInt32
    have hsame : limit.toUInt32.toInt32 = limit := rfl
    have hword := limit.toUInt32.toNat_lt
    rw [hsame] at hsigned
    rw [hsigned] at hpos ⊢
    split at hpos <;> omega
  constructor
  · rintro ⟨⟨hpos', -⟩, hreached⟩
    have := hpos hpos'
    omega
  · rintro ⟨hpos', hreached⟩
    have := hpos hpos'
    exact ⟨⟨hpos', hset⟩, by omega⟩

/-- `conn_later` on exact times. -/
theorem connLater_ofNat {a b : Nat} (hab : a < b + 2 ^ 31) (hba : b < a + 2 ^ 31) :
    connLater (UInt32.ofNat a) (UInt32.ofNat b) = UInt32.ofNat (max a b) := by
  have hdiff : (UInt32.ofNat a - UInt32.ofNat b).toInt32.toInt = (a : Int) - b := by
    rw [toInt_toInt32, UInt32.toNat_sub, UInt32.toNat_ofNat', UInt32.toNat_ofNat']
    split <;> omega
  have hlater : 0 < (UInt32.ofNat a - UInt32.ofNat b).toInt32 ↔ b < a := by
    rw [Int32.lt_iff_toInt_lt, Int32.toInt_zero, hdiff]
    omega
  unfold connLater
  by_cases hlt : b < a
  · rw [if_pos (hlater.mpr hlt), max_eq_left (Nat.le_of_lt hlt)]
  · rw [if_neg (fun h => hlt (hlater.mp h)), max_eq_right (Nat.le_of_not_lt hlt)]

/-! ## Runs -/

/-- What the clock of the event loop is good for: behind every wait `g_loop_now` is the stamp of the
time of the loop, it is set and does not go back, and the deadlines of stamps that are less than
2 ^ 31 seconds apart are those of exact times. -/
structure KeepsTime (input : LoopInput) (start : UInt32) : Prop where
  now : ∀ n, (loopClock input start (n + 1)).gLoopNow =
    UInt32.ofNat (stampOf (input.loopSeconds n))
  set : ∀ n, (loopClock input start (n + 1)).gLoopNow ≠ 0
  forward : ∀ n, stampOf (input.loopSeconds n) ≤ stampOf (input.loopSeconds (n + 1))
  waited : ∀ n, input.loopSeconds n + input.waited (n + 1) ≤ input.loopSeconds (n + 1)
  handled : ∀ n, input.loopSeconds (n + 1) ≤
    input.loopSeconds n + min 1 (input.handled n) + input.waited (n + 1)
  expired : ∀ now since : Nat, ∀ limit : Int32, since ≤ now → now < since + 2 ^ 31 →
    UInt32.ofNat since ≠ 0 →
      (connExpired (UInt32.ofNat now) (UInt32.ofNat since) limit = true ↔
        0 < limit.toInt ∧ limit.toInt ≤ (now : Int) - since)
  later : ∀ a b : Nat, a < b + 2 ^ 31 → b < a + 2 ^ 31 →
    connLater (UInt32.ofNat a) (UInt32.ofNat b) = UInt32.ofNat (max a b)

/-- **The clock of the event loop** keeps the time of the loop, whatever the handlers take and
however often the clock wraps. -/
theorem loopClock_keepsTime {input : LoopInput} (h : input.Runs) (start : UInt32) :
    KeepsTime input start where
  now n := (loopClock_onTime h start n).now
  set n := by
    rw [(loopClock_onTime h start n).now]
    exact stampOf_ne_zero _
  forward n := by
    refine stampOf_mono ?_
    rw [LoopInput.loopSeconds]
    omega
  waited n := by
    rw [LoopInput.loopSeconds]
    omega
  handled n := Nat.le_refl _
  expired _ _ limit hle hlt hset := connExpired_ofNat hle hlt hset limit
  later _ _ hab hba := connLater_ofNat hab hba

/-- A clock that wraps in the third round. A handler has taken five seconds before, so that the time
of the loop comes to 2 ^ 32. -/
def wrappingInput : LoopInput where
  seconds k := 2 ^ 32 - 2 + [0, 0, 5, 5, 5, 6, 6].getD k 7
  loopSweepPending _ := false
  sockListClients _ := 0

theorem wrappingInput_runs : wrappingInput.Runs := by
  have hlate : ∀ k, wrappingInput.seconds (k + 7) = 2 ^ 32 + 5 := fun k => rfl
  refine ⟨fun k => ?_, fun k => ?_, fun k => ?_⟩
  · rcases Nat.lt_or_ge k 7 with hlt | hge
    · revert k
      decide
    · obtain ⟨k, rfl⟩ := Nat.exists_eq_add_of_le' hge
      rw [hlate, Nat.add_right_comm, hlate]
  · rcases Nat.lt_or_ge k 7 with hlt | hge
    · revert k
      decide
    · obtain ⟨k, rfl⟩ := Nat.exists_eq_add_of_le' hge
      rw [Nat.add_right_comm, hlate, hlate]
      omega
  · rcases Nat.lt_or_ge k 7 with hlt | hge
    · revert k
      decide
    · obtain ⟨k, rfl⟩ := Nat.exists_eq_add_of_le' hge
      unfold LoopInput.mono
      rw [hlate]
      decide

theorem loopClock_keepsTime_wrapping : (loopClock wrappingInput 0 4).gLoopNow = 1 := by
  rw [(loopClock_keepsTime wrappingInput_runs 0).now 3]
  decide

/-- The growth of `g_loop_now` itself is not exact: behind 0, which is not used, a second of waiting
does not show. -/
theorem loopClock_skips : ¬ ∀ (input : LoopInput) (start : UInt32), input.Runs →
    ∀ n, ∃ busy ≤ min 1 (input.handled n),
      (loopClock input start (n + 2)).gLoopNow - (loopClock input start (n + 1)).gLoopNow =
        UInt32.ofNat (input.waited (n + 1) + busy) := by
  intro hall
  obtain ⟨busy, hbusy, hgrowth⟩ := hall wrappingInput 0 wrappingInput_runs 2
  have hhandled : wrappingInput.handled 2 = 0 := by decide
  obtain rfl : busy = 0 := by omega
  revert hgrowth
  decide

end CWebUI.Timeouts
