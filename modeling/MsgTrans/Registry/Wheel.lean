import Mathlib.Algebra.Order.Floor.Div
import MsgTrans.Base.Machine
import MsgTrans.Registry.Calm

/-!
# Request registry: the timeout wheel

`register_impl`, `scan_timeout_bucket` and `schedule_for_deadline`,
`crates/msgtrans/src/transport/request_registry.rs:503–586,935–999`, in runs of operations made one
at a time. The clock may advance between operations and at each of their readings; scans begin at
least one tick apart.
-/

namespace MsgTrans.Registry

open MsgTrans.Base MsgTrans.Base.Prog MsgTrans.Wire

/-- `u64::MAX`, the largest value of the tick counter. -/
def maxTick : Nat := 2 ^ 64 - 1

/-- An inbound registration that was accepted: its token, how many scans there were before it, and
its timeout. -/
structure Birth where
  token : RequestToken
  tick : Nat
  timeout : Duration
  deriving DecidableEq, Repr

/-- Ticks in a timeout, rounded up. -/
def RegistryConfig.ticks (cfg : RegistryConfig) (timeout : Duration) : Nat :=
  timeout ⌈/⌉ cfg.tickDuration

/-- A registry whose operations are made one at a time, when its last scan began, the inbound
registrations it accepted, and how many scans there were. -/
structure Wheel where
  registry : State
  lastScan : Option Instant
  births : List Birth
  scans : Nat

/-- The next operation: how long after the last one it is made, and what is not its own choice. -/
structure Turn where
  pause : Duration
  op : Op
  choices : List Nat
  deriving DecidableEq

namespace Wheel

variable (cfg : RegistryConfig)

/-- The registry when an operation begins. -/
def begins (w : Wheel) (turn : Turn) : State :=
  { w.registry with clock := w.registry.clock + turn.pause }

/-- What an operation does, from its begin to its end. -/
def ran (w : Wheel) (turn : Turn) : Log Act Act.Resp × Outcome × State :=
  (turn.op.body cfg).solo (Act.exec cfg 0) turn.choices (w.begins turn)

/-- What the operation's answer adds to the accepted registrations. -/
def bornOf (scans : Nat) : Op → Outcome → List Birth
  | .register _ _ _ timeout, .token (some token) => [⟨token, scans, timeout⟩]
  | _, _ => []

/-- A scan begins at least one tick after the one before. -/
def MayScan (w : Wheel) (turn : Turn) : Prop :=
  ∀ last ∈ w.lastScan, last + cfg.tickDuration ≤ (w.begins turn).clock

instance (w : Wheel) (turn : Turn) : Decidable (w.MayScan cfg turn) :=
  inferInstanceAs (Decidable (∀ last ∈ w.lastScan, _))

/-- A scan is not one that brings the tick counter to its largest value. -/
def InRange (w : Wheel) (turn : Turn) : Prop :=
  turn.op = .scanTimeoutBucket → w.scans + 1 < maxTick

instance (w : Wheel) (turn : Turn) : Decidable (w.InRange turn) :=
  inferInstanceAs (Decidable (_ → _))

/-- Operations made one at a time. -/
def machine : Machine Wheel Turn where
  start := ⟨.new, none, [], 0⟩
  step := fun w turn ↦
    let after := w.ran cfg turn
    let births := bornOf w.scans turn.op after.2.1 ++ w.births
    if turn.op = .scanTimeoutBucket then
      if w.MayScan cfg turn then
        some ⟨after.2.2, some (w.begins turn).clock, births, w.scans + 1⟩
      else none
    else some ⟨after.2.2, w.lastScan, births, w.scans⟩

end Wheel

section Arithmetic

variable {cfg : RegistryConfig}

/-- A timeout is at most so many ticks exactly if it rounds up to as many at most. -/
theorem ticks_le_iff {timeout : Duration} {n : Nat} :
    cfg.ticks timeout ≤ n ↔ timeout ≤ cfg.tickDuration * n :=
  ceilDiv_le_iff_le_mul cfg.tickDuration_pos

/-- The rounding of the source. -/
theorem ticks_eq (timeout : Duration) :
    (timeout + cfg.tickDuration - 1) / cfg.tickDuration = cfg.ticks timeout :=
  (Nat.ceilDiv_eq_add_pred_div _ _).symm

/-- An entry is scheduled for a later tick. -/
theorem lt_targetTick {tick ticks : Nat} (htick : tick < maxTick) (hticks : 0 < ticks) :
    tick < targetTick tick ticks :=
  Nat.lt_min.mpr ⟨Nat.lt_add_of_pos_right hticks, htick⟩

theorem ticksFromNow_pos {deadlineAt now : Instant} : 0 < ticksFromNow cfg deadlineAt now := by
  rw [ticksFromNow]
  split
  next => exact Nat.one_pos
  next => exact lt_of_lt_of_le Nat.one_pos (Nat.le_max_right _ _)

/-- An entry that is due within so many ticks is scheduled within as many, or for the next. -/
theorem ticksFromNow_le {deadlineAt now : Instant} {n : Nat}
    (h : deadlineAt ≤ now + cfg.tickDuration * n) : ticksFromNow cfg deadlineAt now ≤ max n 1 := by
  rw [ticksFromNow]
  split
  next => exact Nat.le_max_right _ _
  next =>
    rw [ticks_eq]
    have hticks : cfg.ticks (deadlineAt - now) ≤ n :=
      ticks_le_iff.mpr (Nat.sub_le_iff_le_add'.mpr h)
    exact max_le_max (le_trans (Nat.mod_le _ _) hticks) le_rfl

end Arithmetic

/-- The registration of an entry, and how long ago it is when so many scans began since. -/
structure Timed (cfg : RegistryConfig) (last : Option Instant) (s : State) (entry : RequestEntry)
    (b : Birth) : Prop where
  token : b.token = entry.token
  deadline : entry.deadlineAt = entry.createdAt + b.timeout
  created : entry.createdAt ≤ s.clock
  tick : b.tick ≤ s.currentTick
  paced : b.tick < s.currentTick → ∃ l ∈ last,
    entry.createdAt + cfg.tickDuration * (s.currentTick - b.tick - 1) ≤ l

/-- A key is listed for a tick to come, and in time. -/
def Listed (cfg : RegistryConfig) (s : State) (key : RequestKey) (b : Birth) : Prop :=
  ∃ target, key ∈ s.buckets (target % cfg.bucketCount) ∧ s.currentTick < target ∧
    target ≤ b.tick + cfg.ticks b.timeout + 1

/-- Every pending inbound entry was registered in time and is listed, or is among these keys. -/
structure Sched (cfg : RegistryConfig) (births : List Birth) (last : Option Instant)
    (keys : List RequestKey) (s : State) : Prop where
  keyed : s.Keyed
  listed : ∀ key entry, s.Pending key entry →
    ∃ b ∈ births, Timed cfg last s entry b ∧ (key ∈ keys ∨ Listed cfg s key b)

section Steps

variable {cfg : RegistryConfig} {births : List Birth} {last : Option Instant}
  {keys : List RequestKey} {key : RequestKey} {entry : RequestEntry} {b : Birth} {s s' : State}
  {log : Log Act Act.Resp}

theorem Timed.calm (h : Timed cfg last s entry b) (hs : Calm s s') : Timed cfg last s' entry b where
  token := h.token
  deadline := h.deadline
  created := le_trans h.created hs.clock
  tick := by rw [hs.tick]; exact h.tick
  paced := by rw [hs.tick]; exact h.paced

theorem Listed.calm (h : Listed cfg s key b) (hs : Calm s s') : Listed cfg s' key b := by
  obtain ⟨target, hmem, hlt, hle⟩ := h
  exact ⟨target, hs.buckets _ hmem, by rwa [hs.tick], hle⟩

theorem Sched.calm (h : Sched cfg births last keys s) (hs : Calm s s') :
    Sched cfg births last keys s' where
  keyed := hs.keyed h.keyed
  listed key entry hp := by
    obtain ⟨b, hb, htimed, hlisted⟩ := h.listed key entry (hs.pending h.keyed hp)
    exact ⟨b, hb, htimed.calm hs, hlisted.imp_right (·.calm hs)⟩

/-- A key without a pending entry need not be listed. -/
theorem Sched.skip (h : Sched cfg births last (key :: keys) s) (hno : ∀ entry, ¬s.Pending key entry) :
    Sched cfg births last keys s where
  keyed := h.keyed
  listed key' entry hp := by
    obtain ⟨b, hb, htimed, hlisted⟩ := h.listed key' entry hp
    refine ⟨b, hb, htimed, hlisted.imp_left fun hmem ↦ ?_⟩
    obtain rfl | hmem := List.mem_cons.mp hmem
    · exact absurd hp (hno entry)
    · exact hmem

/-- What `schedule_for_deadline` does. -/
theorem scheduleForDeadline_solo {call : Nat} {deadlineAt : Instant} {v : Unit}
    (h : Solo (Act.exec cfg call) (scheduleForDeadline cfg key deadlineAt) s log v s') :
    Calm s s' ∧ s'.cells = s.cells ∧ s'.entries = s.entries ∧ ∃ now, s.clock ≤ now ∧
      key ∈ s'.buckets
        (targetTick s.currentTick (ticksFromNow cfg deadlineAt now) % cfg.bucketCount) := by
  have hcalm : Calm s s' :=
    solo_calm h (atMost_act rfl fun _ ↦ atMost_act rfl fun _ ↦ atMost_act rfl fun _ ↦ trivial)
  simp only [scheduleForDeadline, perform_bind] at h
  obtain ⟨choice, log₁, h₁, -⟩ := h.of_act
  obtain ⟨choice₂, log₂, h₂, -⟩ := h₁.of_act
  obtain ⟨choice₃, log₃, h₃, -⟩ := h₂.of_act
  obtain ⟨-, rfl, -⟩ := h₃.of_ret
  refine ⟨hcalm, rfl, rfl, s.clock + choice, Nat.le_add_right _ _, ?_⟩
  generalize htarget : targetTick s.currentTick (ticksFromNow cfg deadlineAt (s.clock + choice)) %
    cfg.bucketCount = i
  show key ∈ Function.update s.buckets (targetTick s.currentTick
    (ticksFromNow cfg deadlineAt (s.clock + choice)) % cfg.bucketCount) (_ ++ [key]) i
  rw [htarget, Function.update_self]
  exact List.mem_append_right _ (List.mem_singleton_self key)

/-- An entry that is not due when its scan reads the clock is scheduled in time. -/
theorem Timed.target_le {now now' : Instant} (h : Timed cfg last s entry b)
    (hbefore : b.tick < s.currentTick) (hlast : ∀ l ∈ last, l ≤ now) (hnow : now ≤ now')
    (hdue : now < entry.deadlineAt) :
    targetTick s.currentTick (ticksFromNow cfg entry.deadlineAt now') ≤
      b.tick + cfg.ticks b.timeout + 1 := by
  obtain ⟨l, hl, hpaced⟩ := h.paced hbefore
  have hpassed : entry.createdAt + cfg.tickDuration * (s.currentTick - b.tick - 1) ≤ now :=
    le_trans hpaced (hlast l hl)
  generalize hm : s.currentTick - b.tick - 1 = m at hpassed
  have hlt : m < cfg.ticks b.timeout := by
    rw [← not_le, ticks_le_iff]
    intro htimeout
    rw [h.deadline] at hdue
    exact absurd (le_trans (Nat.add_le_add_left htimeout _) hpassed) (not_le.mpr hdue)
  have hrest : entry.deadlineAt ≤ now' + cfg.tickDuration * (cfg.ticks b.timeout - m) :=
    calc entry.deadlineAt = entry.createdAt + b.timeout := h.deadline
      _ ≤ entry.createdAt + cfg.tickDuration * cfg.ticks b.timeout :=
        Nat.add_le_add_left (ticks_le_iff.mp le_rfl) _
      _ = entry.createdAt + cfg.tickDuration * m +
          cfg.tickDuration * (cfg.ticks b.timeout - m) := by
        rw [Nat.add_assoc, ← Nat.mul_add, Nat.add_sub_cancel' (le_of_lt hlt)]
      _ ≤ now' + cfg.tickDuration * (cfg.ticks b.timeout - m) :=
        Nat.add_le_add_right (le_trans hpassed hnow) _
  have hticks := ticksFromNow_le hrest
  have htarget : targetTick s.currentTick (ticksFromNow cfg entry.deadlineAt now') ≤
      s.currentTick + ticksFromNow cfg entry.deadlineAt now' := Nat.min_le_left _ _
  omega

/-- An entry that is registered is scheduled in time. -/
theorem target_le_of_register {tick : Nat} {createdAt now : Instant} {timeout : Duration}
    (hnow : createdAt ≤ now) :
    targetTick tick (ticksFromNow cfg (createdAt + timeout) now) ≤ tick + cfg.ticks timeout + 1 := by
  have hrest : createdAt + timeout ≤ now + cfg.tickDuration * cfg.ticks timeout :=
    Nat.add_le_add hnow (ticks_le_iff.mp le_rfl)
  have hticks := ticksFromNow_le hrest
  have htarget : targetTick tick (ticksFromNow cfg (createdAt + timeout) now) ≤
      tick + ticksFromNow cfg (createdAt + timeout) now := Nat.min_le_left _ _
  omega

/-- Once a key is scheduled in time it need not be among the others. -/
theorem Sched.schedule (h : Sched cfg births last (key :: keys) s) {call : Nat}
    {deadlineAt : Instant} {v : Unit} (htick : s.currentTick < maxTick)
    (hrun : Solo (Act.exec cfg call) (scheduleForDeadline cfg key deadlineAt) s log v s')
    (htarget : ∀ entry, ∀ b ∈ births, ∀ now, s.Pending key entry → Timed cfg last s entry b →
      s.clock ≤ now → targetTick s.currentTick (ticksFromNow cfg deadlineAt now) ≤
        b.tick + cfg.ticks b.timeout + 1) :
    Sched cfg births last keys s' := by
  obtain ⟨hcalm, hcells, hentries, now, hnow, hmem⟩ := scheduleForDeadline_solo hrun
  refine ⟨hcalm.keyed h.keyed, fun key' entry hp ↦ ?_⟩
  have hp' := hcalm.pending h.keyed hp
  obtain ⟨b, hb, htimed, hlisted⟩ := h.listed key' entry hp'
  refine ⟨b, hb, htimed.calm hcalm, ?_⟩
  obtain hmem' | hlisted := hlisted
  · obtain rfl | hmem' := List.mem_cons.mp hmem'
    · refine .inr ⟨_, hmem, ?_, htarget entry b hb now hp' htimed hnow⟩
      rw [hcalm.tick]
      exact lt_targetTick htick ticksFromNow_pos
    · exact .inl hmem'
  · exact .inr (hlisted.calm hcalm)

end Steps

end MsgTrans.Registry
