import MsgTrans.Registry.Methods

/-!
# The arithmetic of a request timeout

The machine arithmetic between the timeout a caller gives to a request and the bucket it is scheduled
in: `request_with_options`, `crates/msgtrans/src/transport/transport.rs:746–753`, `register_impl`,
`request_registry.rs:521–527,577–579`, and `schedule_for_deadline`, `request_registry.rs:982–994`.
A duration has fewer than `2^94` nanoseconds, so `as_nanos` is exact.
-/

namespace MsgTrans.Registry

/-- What a step of machine arithmetic can do other than give the number. -/
inductive Defect where
  | panic
  | lostBits
  deriving DecidableEq, Repr

/-- What the registry is compiled for: the last instant its clock represents, and the width of
`usize`. -/
structure Platform where
  instantMax : Instant
  usizeBits : Nat

/-- `Instant + Duration`, which panics past the last instant. -/
def Platform.instantAdd (t : Platform) (now : Instant) (timeout : Duration) :
    Except Defect Instant :=
  if now + timeout ≤ t.instantMax then .ok (now + timeout) else .error .panic

/-- `u128::div_ceil`, which panics on zero. -/
def divCeil (x y : Nat) : Except Defect Nat :=
  if y = 0 then .error .panic else .ok ((x + y - 1) / y)

/-- An `as` cast to an unsigned type of so many bits. -/
def castTo (bits x : Nat) : Except Defect Nat :=
  if x < 2 ^ bits then .ok x else .error .lostBits

/-- `%` on `usize`, which panics on zero. -/
def remainder (x y : Nat) : Except Defect Nat := if y = 0 then .error .panic else .ok (x % y)

/-- `Duration::MAX`. -/
def durationMax : Duration := 2 ^ 64 * 10 ^ 9 - 1

/-- `DEFAULT_WAITER_DEADLINE`, 30 s; `transport.rs:71`. -/
def defaultWaiterDeadline : Duration := 30000000000

section Paths

variable (t : Platform) (cfg : RegistryConfig)

/-- The bucket of `schedule_for_deadline`; `request_registry.rs:983–994`. -/
def scheduleArithmetic (deadlineAt now : Instant) (baseTick : Nat) : Except Defect Nat := do
  let ticks ←
    if deadlineAt ≤ now then pure 1
    else do
      let quotient ← divCeil (deadlineAt - now) cfg.tickDuration
      let narrowed ← castTo 64 quotient
      pure (max narrowed 1)
  let index ← castTo t.usizeBits (targetTick baseTick ticks)
  remainder index cfg.bucketCount

/-- The deadline of `register_impl` and, for a scheduled request, its bucket, with the two readings
of the clock; `request_registry.rs:521–527,577–579`. -/
def registerArithmetic (timeout : Duration) (schedule : Bool) (now later : Instant)
    (baseTick : Nat) : Except Defect (Instant × Option Nat) := do
  let deadlineAt ← t.instantAdd now timeout
  if schedule then do
    let scheduledFor ← t.instantAdd now timeout
    let bucket ← scheduleArithmetic t cfg scheduledFor later baseTick
    pure (deadlineAt, some bucket)
  else pure (deadlineAt, none)

/-- The registration of `request_with_options`; `transport.rs:746–753`. -/
def requestArithmetic (timeout : Option Duration) (now later : Instant) (baseTick : Nat) :
    Except Defect (Instant × Option Nat) :=
  registerArithmetic t cfg (timeout.getD defaultWaiterDeadline) false now later baseTick

end Paths

/-- The time left until a deadline is at most `2^64 - 1` ticks, and where `usize` is narrower than
the tick counter, the tick of the deadline fits in it. -/
def TicksFit (t : Platform) (cfg : RegistryConfig) (remaining : Duration) (baseTick : Nat) : Prop :=
  remaining ≤ (2 ^ 64 - 1) * cfg.tickDuration ∧
    (t.usizeBits < 64 → baseTick + 1 < 2 ^ t.usizeBits ∧
      remaining ≤ (2 ^ t.usizeBits - 1 - baseTick) * cfg.tickDuration)

section Steps

private theorem ok_bind {α β : Type} (x : α) (f : α → Except Defect β) :
    (.ok x >>= f) = f x := rfl

private theorem error_bind {α β : Type} (e : Defect) (f : α → Except Defect β) :
    (.error e >>= f) = .error e := rfl

theorem castTo_ok_iff {bits x y : Nat} : castTo bits x = .ok y ↔ x < 2 ^ bits ∧ y = x := by
  unfold castTo
  split
  next h => simp [h, eq_comm]
  next h => simp [h]

theorem instantAdd_ok_iff {t : Platform} {now deadlineAt : Instant} {timeout : Duration} :
    t.instantAdd now timeout = .ok deadlineAt ↔
      now + timeout ≤ t.instantMax ∧ deadlineAt = now + timeout := by
  unfold Platform.instantAdd
  split
  next h => simp [h, eq_comm]
  next h => simp [h]

/-- A quotient rounded up is bounded as the dividend is. -/
theorem ceil_le_iff {x y m : Nat} (hy : 0 < y) : (x + y - 1) / y ≤ m ↔ x ≤ m * y := by
  rw [← Nat.lt_succ_iff, Nat.div_lt_iff_lt_mul hy, Nat.succ_mul]
  omega

/-- The ticks until a deadline over unbounded numbers. -/
def exactTicks (cfg : RegistryConfig) (remaining : Duration) : Nat :=
  max ((remaining + cfg.tickDuration - 1) / cfg.tickDuration) 1

theorem exactTicks_zero (cfg : RegistryConfig) : exactTicks cfg 0 = 1 := by
  have hpos := cfg.tickDuration_pos
  rw [exactTicks, Nat.zero_add, Nat.div_eq_of_lt (Nat.sub_one_lt_of_lt hpos)]
  rfl

theorem exactTicks_pos (cfg : RegistryConfig) (remaining : Duration) :
    1 ≤ exactTicks cfg remaining := Nat.le_max_right _ _

/-- The tick of a deadline fits in `usize` exactly if it needs no more bits, or saturates below. -/
theorem targetTick_lt_iff {baseTick ticks bits : Nat} :
    targetTick baseTick ticks < 2 ^ bits ↔ (bits < 64 → baseTick + ticks < 2 ^ bits) := by
  rw [targetTick]
  obtain hnarrow | hwide := Nat.lt_or_ge bits 64
  · have hpow : 2 ^ bits ≤ 2 ^ 63 := Nat.pow_le_pow_right (by decide) (by omega)
    simp only [hnarrow, true_imp_iff]
    omega
  · have hpow : 2 ^ 64 ≤ 2 ^ bits := Nat.pow_le_pow_right (by decide) hwide
    refine iff_of_true ?_ (fun h ↦ absurd h (Nat.not_lt.mpr hwide))
    omega

/-- The exact ticks fit in 64 bits, and the tick of the deadline in `usize`, under the condition. -/
theorem ticksFit_iff {t : Platform} {cfg : RegistryConfig} {remaining : Duration} {baseTick : Nat} :
    TicksFit t cfg remaining baseTick ↔ exactTicks cfg remaining < 2 ^ 64 ∧
      targetTick baseTick (exactTicks cfg remaining) < 2 ^ t.usizeBits := by
  have hpos := cfg.tickDuration_pos
  have hceil := ceil_le_iff (x := remaining) (m := 2 ^ 64 - 1) hpos
  have hceil' := ceil_le_iff (x := remaining) (m := 2 ^ t.usizeBits - 1 - baseTick) hpos
  rw [TicksFit, targetTick_lt_iff, ← hceil, ← hceil', exactTicks]
  generalize (remaining + cfg.tickDuration - 1) / cfg.tickDuration = q
  refine and_congr (by omega) (imp_congr_right fun _ ↦ ?_)
  omega

end Steps

section Results

variable {t : Platform} {cfg : RegistryConfig} {deadlineAt now : Instant} {baseTick : Nat}

/-- A deadline that is ahead is at least one tick away. -/
theorem exactTicks_of_lt (h : now < deadlineAt) : exactTicks cfg (deadlineAt - now) =
    (deadlineAt - now + cfg.tickDuration - 1) / cfg.tickDuration := by
  refine max_eq_left ((Nat.one_le_div_iff cfg.tickDuration_pos).mpr ?_)
  exact Nat.le_sub_one_of_lt (Nat.lt_add_of_pos_left (Nat.sub_pos_of_lt h))

/-- The cast to `usize` and the remainder. -/
theorem bucket_ok_iff {ticks bucket : Nat} :
    (castTo t.usizeBits (targetTick baseTick ticks) >>= fun index ↦
      remainder index cfg.bucketCount) = .ok bucket ↔
      targetTick baseTick ticks < 2 ^ t.usizeBits ∧
        bucket = targetTick baseTick ticks % cfg.bucketCount := by
  rw [castTo]
  split
  next h =>
    simp [bind, Except.bind, remainder, Nat.ne_of_gt cfg.bucketCount_pos, h, eq_comm]
  next h => simp [bind, Except.bind, h]

/-- Without a defect the bucket is the exact one. -/
theorem scheduleArithmetic_ok_iff {bucket : Nat} :
    scheduleArithmetic t cfg deadlineAt now baseTick = .ok bucket ↔
      TicksFit t cfg (deadlineAt - now) baseTick ∧
        bucket = targetTick baseTick (exactTicks cfg (deadlineAt - now)) % cfg.bucketCount := by
  rw [scheduleArithmetic, ticksFit_iff]
  obtain hpast | hahead := Nat.lt_or_ge now deadlineAt |>.symm
  · rw [if_pos hpast, Nat.sub_eq_zero_of_le hpast, exactTicks_zero, pure_bind, bucket_ok_iff]
    simp
  · have hticks : exactTicks cfg (deadlineAt - now) = _ := exactTicks_of_lt hahead
    rw [if_neg (Nat.not_le.mpr hahead), divCeil, if_neg (Nat.ne_of_gt cfg.tickDuration_pos), ← hticks]
    have hmax : max (exactTicks cfg (deadlineAt - now)) 1 = exactTicks cfg (deadlineAt - now) :=
      max_eq_left (exactTicks_pos cfg _)
    by_cases hfit : exactTicks cfg (deadlineAt - now) < 2 ^ 64
    · have hcast : castTo 64 (exactTicks cfg (deadlineAt - now)) = .ok _ := if_pos hfit
      simp only [ok_bind, hcast, pure_bind, hmax, hfit, true_and]
      exact bucket_ok_iff
    · have hcast : castTo 64 (exactTicks cfg (deadlineAt - now)) = .error .lostBits := if_neg hfit
      simp only [ok_bind, hcast, error_bind, hfit, false_and]
      simp

/-- Nor does the model of the registry cut anything off then. -/
theorem ticksFromNow_eq (h : TicksFit t cfg (deadlineAt - now) baseTick) :
    ticksFromNow cfg deadlineAt now = exactTicks cfg (deadlineAt - now) := by
  obtain ⟨hfit, -⟩ := ticksFit_iff.1 h
  rw [ticksFromNow]
  split
  next hpast => rw [Nat.sub_eq_zero_of_le hpast, exactTicks_zero]
  next hahead =>
    have hticks : exactTicks cfg (deadlineAt - now) = _ := exactTicks_of_lt (Nat.not_le.mp hahead)
    rw [← hticks, Nat.mod_eq_of_lt hfit]
    exact max_eq_left (exactTicks_pos cfg _)

/-- The registry's own bucket is then the one computed without a defect. -/
theorem bucket_of_scheduleArithmetic {bucket : Nat}
    (h : scheduleArithmetic t cfg deadlineAt now baseTick = .ok bucket) :
    targetTick baseTick (ticksFromNow cfg deadlineAt now) % cfg.bucketCount = bucket := by
  obtain ⟨hfit, rfl⟩ := scheduleArithmetic_ok_iff.1 h
  rw [ticksFromNow_eq hfit]

/-- A registration computes its deadline and its bucket without a defect exactly if the deadline is
an instant and, where it is scheduled, the ticks until then fit. -/
theorem registerArithmetic_ok_iff {timeout : Duration} {schedule : Bool} {later : Instant}
    {r : Instant × Option Nat} :
    registerArithmetic t cfg timeout schedule now later baseTick = .ok r ↔
      now + timeout ≤ t.instantMax ∧
        (schedule = true → TicksFit t cfg (now + timeout - later) baseTick) ∧
          r = (now + timeout, if schedule then some (targetTick baseTick
            (exactTicks cfg (now + timeout - later)) % cfg.bucketCount) else none) := by
  rw [registerArithmetic]
  by_cases hdeadline : now + timeout ≤ t.instantMax
  · have hadd : t.instantAdd now timeout = .ok (now + timeout) := if_pos hdeadline
    cases schedule with
    | false => simp [hadd, ok_bind, hdeadline, pure, Except.pure, eq_comm]
    | true =>
      simp only [hadd, ok_bind, hdeadline, ↓reduceIte, true_and, true_imp_iff]
      cases hbucket : scheduleArithmetic t cfg (now + timeout) later baseTick with
      | ok bucket =>
        obtain ⟨hfit, rfl⟩ := scheduleArithmetic_ok_iff.1 hbucket
        simp [ok_bind, pure, Except.pure, hfit, eq_comm]
      | error e =>
        have hfit : ¬TicksFit t cfg (now + timeout - later) baseTick := by
          intro hfit
          rw [scheduleArithmetic_ok_iff.2 ⟨hfit, rfl⟩] at hbucket
          cases hbucket
        simp [hfit]
  · have hadd : t.instantAdd now timeout = .error .panic := if_neg hdeadline
    simp [hadd, error_bind, hdeadline]

end Results

/-- Whatever the timeout, the readings of the clock, the wheel and its current tick: a request
computes its deadline without a panic exactly if the deadline is an instant; a registration that is
scheduled, exactly if also the ticks until the deadline fit; and scheduling again on a later scan,
exactly if they fit then. -/
theorem timeout_arithmetic_total_iff (t : Platform) (bucketCount : Nat) (tickDuration : Duration)
    (timeout : Option Duration) (lifetime : Duration) (schedule : Bool) (now later : Instant)
    (deadlineAt : Instant) (baseTick : Nat) :
    let cfg := RegistryConfig.newWithTiming bucketCount tickDuration
    ((∃ r, requestArithmetic t cfg timeout now later baseTick = .ok r) ↔
      now + timeout.getD defaultWaiterDeadline ≤ t.instantMax) ∧
    ((∃ r, registerArithmetic t cfg lifetime schedule now later baseTick = .ok r) ↔
      now + lifetime ≤ t.instantMax ∧
        (schedule = true → TicksFit t cfg (now + lifetime - later) baseTick)) ∧
    ((∃ bucket, scheduleArithmetic t cfg deadlineAt now baseTick = .ok bucket) ↔
      TicksFit t cfg (deadlineAt - now) baseTick) := by
  intro cfg
  refine ⟨?_, ?_, ?_⟩
  · simp [requestArithmetic, registerArithmetic_ok_iff]
  · simp [registerArithmetic_ok_iff]
  · simp [scheduleArithmetic_ok_iff]

/-- Where an instant has 63 bits of seconds, the longest timeout makes a request panic. -/
theorem longest_timeout_panics :
    ¬∀ (t : Platform) (bucketCount : Nat) (tickDuration : Duration) (timeout : Option Duration)
      (now later : Instant) (baseTick : Nat), ∃ r, requestArithmetic t
        (.newWithTiming bucketCount tickDuration) timeout now later baseTick = .ok r := by
  intro h
  obtain ⟨r, hr⟩ := h ⟨2 ^ 63 * 10 ^ 9 - 1, 64⟩ 256 defaultTimeoutTick (some durationMax) 0 0 0
  obtain ⟨hdeadline, -⟩ := registerArithmetic_ok_iff.1 hr
  revert hdeadline
  decide

/-- A shorter one, scheduled on the default wheel, loses the high bits of its ticks. -/
example : scheduleArithmetic ⟨2 ^ 63 * 10 ^ 9 - 1, 64⟩ (.newWithTiming 256 defaultTimeoutTick)
    (2 ^ 62 * 10 ^ 9) 0 0 = .error .lostBits := by decide

end MsgTrans.Registry
