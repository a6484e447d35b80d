import MsgTrans.Adapters.EventLoop

/-!
# Liveness timeouts

The ping timer of a WebSocket connection and the idle timer of a TCP or WebSocket connection
(`crates/msgtrans/src/adapters/websocket.rs:391–449`, `crates/msgtrans/src/adapters/tcp.rs:624–634`)
go by what the read loop has noticed. A read loop that is inside `deliver` when a deadline comes has
noticed nothing of what lies on the socket; where it is not, the timers fire only on a peer that was
late or silent.
-/

namespace MsgTrans.Adapters.EventLoop

open MsgTrans.Base

variable {protocol : Protocol} {cfg : LoopConfig}

/-- Time goes on. -/
def Label.ticks : Label protocol → Bool
  | .tick => true
  | _ => false

/-- The ping timer fires. -/
def Label.rings : Label protocol → Bool
  | .alarm => true
  | _ => false

namespace LoopState

/-- A pong can be read from the socket, behind other messages or not. -/
def pongAvailable (s : LoopState protocol) : Bool :=
  s.socket.any fun
    | .ok item => decide (protocol.beat item = .pong)
    | .error _ => false

/-- The time a pong is waited for. -/
def pongDue (cfg : LoopConfig) (s : LoopState protocol) : Option Nat :=
  s.pendingPing.map (· + cfg.keepalive.pongTimeout)

/-- The time some activity is waited for. -/
def activityDue (cfg : LoopConfig) (s : LoopState protocol) : Option Nat :=
  cfg.keepalive.idleTimeout.map (s.activity + ·)

end LoopState

/-- The peer answers in time: when a pong is due it is available, or was read, before. -/
def Answered (cfg : LoopConfig) (s : LoopState protocol) (l : Label protocol) : Prop :=
  (l.ticks = true → s.pongAvailable = true ∨ ∀ due ∈ s.pongDue cfg, s.now + 1 < due) ∧
    (l.rings = true → 0 < cfg.keepalive.pongTimeout)

/-- At every time there is something on the socket that is not read yet or was just read. -/
def Fed (s : LoopState protocol) (l : Label protocol) : Prop :=
  l.ticks = true → s.socket ≠ [] ∨ s.activity = s.now

/-- The clock does not reach this time while the read loop is inside `deliver`. -/
def Unparked (due : Option Nat) (s : LoopState protocol) (l : Label protocol) : Prop :=
  l.ticks = true → s.parked = true → ∀ time ∈ due, s.now + 1 < time

instance (s : LoopState protocol) (l : Label protocol) : Decidable (Answered cfg s l) :=
  inferInstanceAs (Decidable ((_ → _ ∨ ∀ due ∈ s.pongDue cfg, _) ∧ (_ → _)))

instance (s : LoopState protocol) (l : Label protocol) : Decidable (Fed s l) :=
  inferInstanceAs (Decidable (_ → ¬s.socket = [] ∨ _))

instance (due : Option Nat) (s : LoopState protocol) (l : Label protocol) :
    Decidable (Unparked due s l) :=
  inferInstanceAs (Decidable (_ → _ → ∀ time ∈ due, _))

/-- What has to be the case for an arm to return a timeout. -/
def LoopState.Fired (cfg : LoopConfig) (s : LoopState protocol) : Arm → Prop
  | .write => ∃ deadline, s.writer = .waiting deadline ∧ deadline ≤ s.now ∧ s.pendingPing.isSome
  | .idle => ∃ timeout ∈ cfg.keepalive.idleTimeout, s.activity + timeout ≤ s.now
  | .read => True
  | .shutdown => False

/-- What a step does to the clock, to what the timers go by, and to the end of the loops. -/
structure Effect (cfg : LoopConfig) (s : LoopState protocol) (l : Label protocol)
    (s' : LoopState protocol) : Prop where
  now : s'.now = s.now ∨ l.ticks = true ∧ s.stalled cfg = true ∧ s' = { s with now := s.now + 1 }
  activity : s'.activity = s.activity ∨ s'.activity = s.now ∧ s'.now = s.now
  ping : s'.pendingPing = s.pendingPing ∨ s'.pendingPing = none ∨
    l.rings = true ∧ s'.now = s.now ∧ s'.pendingPing = some s.now
  writer : ∀ deadline, s'.writer = .waiting deadline →
    s.writer = .waiting deadline ∧ (s'.pendingPing = s.pendingPing ∨ s'.pendingPing = none) ∨
      deadline = s'.pingDeadline cfg
  ended : ∀ arm, s'.ended = some (arm, .closed .timeout) →
    s.ended = some (arm, .closed .timeout) ∨ s.Fired cfg arm

section Effects

variable {s s' : LoopState protocol} {l : Label protocol}

/-- A step that leaves the clock and the timers alone. -/
theorem Effect.keep (hnow : s'.now = s.now) (hactivity : s'.activity = s.activity)
    (hping : s'.pendingPing = s.pendingPing) (hwriter : s'.writer = s.writer)
    (hended : ∀ arm, s'.ended = some (arm, .closed .timeout) →
      s.ended = some (arm, .closed .timeout) ∨ s.Fired cfg arm) : Effect cfg s l s' where
  now := .inl hnow
  activity := .inl hactivity
  ping := .inl hping
  writer _ hwaiting := .inl ⟨hwriter ▸ hwaiting, .inl hping⟩
  ended := hended

/-- A loop returns. -/
theorem Effect.finish {s₁ : LoopState protocol} {arm : Arm} {stop : Stop} (hnow : s₁.now = s.now)
    (hactivity : s₁.activity = s.activity) (hping : s₁.pendingPing = s.pendingPing)
    (hwriter : s₁.writer = s.writer) (hstop : stop = .closed .timeout → s.Fired cfg arm) :
    Effect cfg s l (s₁.finish arm stop) := by
  have hclock : (s₁.finish arm stop).now = s.now := hnow
  apply Effect.keep hclock hactivity hping hwriter
  intro arm' hended
  obtain ⟨rfl, hclosed⟩ := Prod.mk.inj (Option.some.inj hended)
  exact .inr (hstop hclosed)

/-- The write loop goes back to its top. -/
theorem Effect.await {s₁ : LoopState protocol} (hnow : s₁.now = s.now)
    (hactivity : s₁.activity = s.activity ∨ s₁.activity = s.now)
    (hping : s₁.pendingPing = s.pendingPing) (hended : s₁.ended = s.ended) :
    Effect cfg s l (s₁.await cfg) where
  now := .inl hnow
  activity := hactivity.imp_right fun h ↦ ⟨h, hnow⟩
  ping := .inl hping
  writer _ hwaiting := .inr (WritePhase.waiting.inj hwaiting).symm
  ended _ h := .inl (hended ▸ h)

theorem read_effect {strict : Bool} (h : s.read strict = some s') :
    Effect cfg s (.read strict) s' := by
  unfold LoopState.read at h
  split at h
  next reason socket =>
    cases h
    exact .finish rfl rfl rfl rfl fun _ ↦ trivial
  next item socket hreader =>
    have hkeep : ∀ {arm}, s.ended = some (arm, .closed .timeout) →
        s.ended = some (arm, .closed .timeout) ∨ s.Fired cfg arm := .inl
    split at h <;> cases h
    next =>
      exact ⟨.inl rfl, .inr ⟨rfl, rfl⟩, .inl rfl, fun _ hw ↦ .inl ⟨hw, .inl rfl⟩, fun _ ↦ hkeep⟩
    next =>
      exact ⟨.inl rfl, .inr ⟨rfl, rfl⟩, .inl rfl, fun _ hw ↦ .inl ⟨hw, .inl rfl⟩, fun _ ↦ hkeep⟩
    next =>
      exact ⟨.inl rfl, .inr ⟨rfl, rfl⟩, .inr (.inl rfl), fun _ hw ↦ .inl ⟨hw, .inr rfl⟩,
        fun _ ↦ hkeep⟩
  next => cases h

theorem parse_effect (h : s.parse cfg = some s') : Effect cfg s .parse s' := by
  unfold LoopState.parse at h
  split at h
  next =>
    split at h
    next =>
      split at h <;> cases h
      next => exact .keep rfl rfl rfl rfl fun _ ↦ .inl
      next => exact .finish rfl rfl rfl rfl fun _ ↦ trivial
    next =>
      cases h
      exact .keep rfl rfl rfl rfl fun _ ↦ .inl
    next =>
      cases h
      exact .finish rfl rfl rfl rfl fun _ ↦ trivial
  next => cases h

theorem charge_effect (h : s.charge cfg = some s') : Effect cfg s .charge s' := by
  unfold LoopState.charge at h
  split at h
  next =>
    dsimp only at h
    split at h
    next =>
      cases h
      exact .finish rfl rfl rfl rfl fun _ ↦ trivial
    next =>
      split at h <;> cases h
      exact .keep rfl rfl rfl rfl fun _ ↦ .inl
  next => cases h

theorem send_effect (h : s.send cfg = some s') : Effect cfg s .send s' := by
  unfold LoopState.send at h
  split at h
  next =>
    split at h
    next =>
      cases h
      exact .finish rfl rfl rfl rfl fun _ ↦ trivial
    next =>
      split at h <;> cases h
      exact .keep rfl rfl rfl rfl fun _ ↦ .inl
  next => cases h

theorem wake_effect (h : s.wake cfg = some s') : Effect cfg s .control s' := by
  unfold LoopState.wake at h
  split at h
  next =>
    split at h <;> cases h
    exact ⟨.inl rfl, .inl rfl, .inl rfl, nofun, fun _ ↦ .inl⟩
  next => cases h

theorem alarm_effect (h : s.alarm cfg = some s') : Effect cfg s .alarm s' := by
  unfold LoopState.alarm at h
  split at h
  next deadline _ hwriter _ =>
    split at h
    next hdue =>
      split at h <;> cases h
      next hpending => exact .finish rfl rfl rfl rfl fun _ ↦ ⟨deadline, hwriter, hdue, hpending⟩
      next => exact ⟨.inl rfl, .inl rfl, .inr (.inr ⟨rfl, rfl, rfl⟩), nofun, fun _ ↦ .inl⟩
    next => cases h
  next => cases h

theorem dequeue_effect {item : Option Outbound} (h : s.dequeue cfg item = some s') :
    Effect cfg s (.item item) s' := by
  unfold LoopState.dequeue at h
  split at h
  next =>
    split at h
    next =>
      cases h
      exact .finish rfl rfl rfl rfl nofun
    next =>
      split at h
      next =>
        cases h
        exact ⟨.inl rfl, .inl rfl, .inl rfl, nofun, fun _ ↦ .inl⟩
      next =>
        split at h <;> cases h
        next => exact .finish rfl rfl rfl rfl nofun
        next => exact .await rfl (.inl rfl) rfl rfl
  next => cases h

theorem written_effect (h : s.written cfg = some s') : Effect cfg s .written s' := by
  unfold LoopState.written at h
  split at h
  next => cases h
  next =>
    cases h
    exact .await rfl (.inl rfl) rfl rfl
  next =>
    cases h
    exact .await rfl (.inl rfl) rfl rfl
  next =>
    cases h
    exact .await rfl (.inr rfl) rfl rfl

theorem writeError_effect {error : Option String} (h : (s.writeError error).map
    (fun text ↦ s.finish .write (.closed (.error text))) = some s') : Effect cfg s l s' := by
  obtain ⟨text, -, rfl⟩ := Option.map_eq_some_iff.mp h
  exact .finish rfl rfl rfl rfl nofun

theorem overrun_effect (h : s.overrun = some s') : Effect cfg s .overrun s' := by
  unfold LoopState.overrun at h
  split at h
  next => cases h
  all_goals
    split at h
    next => exact writeError_effect h
    next => cases h

theorem idle_effect (h : s.idle cfg = some s') : Effect cfg s .idle s' := by
  unfold LoopState.idle at h
  split at h
  next => cases h
  next timeout hidle =>
    split at h
    next =>
      split at h <;> cases h
      next hquiet => exact .finish rfl rfl rfl rfl fun _ ↦ ⟨timeout, hidle, hquiet⟩
      next => exact .keep rfl rfl rfl rfl fun _ ↦ .inl
    next => cases h

theorem take_effect (h : s.take cfg = some s') : Effect cfg s .take s' := by
  unfold LoopState.take at h
  split at h <;> cases h
  exact .keep rfl rfl rfl rfl fun _ ↦ .inl

theorem release_effect {i : Nat} (h : s.release i = some s') : Effect cfg s (.release i) s' := by
  obtain ⟨size, -, rfl⟩ := Option.map_eq_some_iff.mp h
  exact .keep rfl rfl rfl rfl fun _ ↦ .inl

/-- What any step does. -/
theorem act_effect (h : s.act cfg l = some s') : Effect cfg s l s' := by
  cases l with
  | tick =>
    obtain ⟨hstalled, h⟩ := Option.ite_none_right_eq_some.mp h
    cases h
    exact ⟨.inr ⟨rfl, hstalled, rfl⟩, .inl rfl, .inl rfl, fun _ hw ↦ .inl ⟨hw, .inl rfl⟩,
      fun _ ↦ .inl⟩
  | arrive =>
    cases h
    exact .keep rfl rfl rfl rfl fun _ ↦ .inl
  | read => exact read_effect h
  | parse => exact parse_effect h
  | charge => exact charge_effect h
  | send => exact send_effect h
  | control => exact wake_effect h
  | alarm => exact alarm_effect h
  | item => exact dequeue_effect h
  | written => exact written_effect h
  | failed => exact writeError_effect h
  | overrun => exact overrun_effect h
  | idle => exact idle_effect h
  | shutdown =>
    cases h
    exact .finish rfl rfl rfl rfl nofun
  | take => exact take_effect h
  | release => exact release_effect h
  | leave =>
    cases h
    exact .keep rfl rfl rfl rfl fun _ ↦ .inl

/-- A read loop that can go no further and is not inside `deliver` has read everything. -/
theorem socket_eq_nil_of_stalled (hstalled : s.stalled cfg = true) (hparked : s.parked = false) :
    s.socket = [] := by
  simp only [LoopState.stalled, Bool.and_eq_true, Option.isNone_iff_eq_none] at hstalled
  obtain ⟨⟨⟨hread, hparse⟩, -⟩, -⟩ := hstalled
  cases hreader : s.reader with
  | reading =>
    cases hsocket : s.socket with
    | nil => rfl
    | cons item socket =>
      unfold LoopState.read at hread
      rw [hreader, hsocket] at hread
      cases item with
      | error reason => cases hread
      | ok item =>
        dsimp only at hread
        split at hread <;> cases hread
  | parsing =>
    unfold LoopState.parse at hparse
    rw [hreader] at hparse
    dsimp only at hparse
    repeat' split at hparse
    all_goals cases hparse
  | charging | sending =>
    rw [LoopState.parked, hreader] at hparked
    cases hparked

end Effects

/-- While every pong is read in time. -/
structure PongKept (cfg : LoopConfig) (s : LoopState protocol) : Prop where
  ended : s.ended ≠ some (.write, .closed .timeout)
  deadline : ∀ deadline, s.writer = .waiting deadline → ∀ due ∈ s.pongDue cfg, deadline = due
  ahead : ∀ due ∈ s.pongDue cfg, s.now < due

/-- While there is some activity in time. -/
structure ActivityKept (cfg : LoopConfig) (s : LoopState protocol) : Prop where
  ended : s.ended ≠ some (.idle, .closed .timeout)
  ahead : ∀ due ∈ s.activityDue cfg, s.now < due

section Steps

variable {s s' : LoopState protocol} {l : Label protocol}

theorem mem_pongDue {due : Nat} :
    due ∈ s.pongDue cfg ↔ ∃ sent, s.pendingPing = some sent ∧ sent + cfg.keepalive.pongTimeout = due :=
  Option.map_eq_some_iff

theorem PongKept.step (hs : PongKept cfg s) (h : Effect cfg s l s') (hpeer : Answered cfg s l)
    (hfree : Unparked (s.pongDue cfg) s l) : PongKept cfg s' := by
  have hstep : ∀ due ∈ s.pongDue cfg, s'.now < due := by
    intro due hdue
    obtain hnow | ⟨htick, hstalled, rfl⟩ := h.now
    · rw [hnow]
      exact hs.ahead due hdue
    · cases hparked : s.parked with
      | true => exact hfree htick hparked due hdue
      | false =>
        have hsocket := socket_eq_nil_of_stalled hstalled hparked
        obtain havailable | hahead := hpeer.1 htick
        · rw [LoopState.pongAvailable, hsocket] at havailable
          cases havailable
        · exact hahead due hdue
  have hkept : s'.pendingPing = s.pendingPing ∨ s'.pendingPing = none →
      ∀ due ∈ s'.pongDue cfg, due ∈ s.pongDue cfg := by
    intro hping due hdue
    obtain ⟨sent, hsent, hdue⟩ := mem_pongDue.mp hdue
    obtain hping | hping := hping
    · exact mem_pongDue.mpr ⟨sent, hping ▸ hsent, hdue⟩
    · cases hping.symm.trans hsent
  refine ⟨fun hended ↦ ?_, fun deadline hwriter due hdue ↦ ?_, fun due hdue ↦ ?_⟩
  · obtain hended | ⟨deadline, hwriter, hdue, hpending⟩ := h.ended _ hended
    · exact hs.ended hended
    · obtain ⟨sent, hsent⟩ := Option.isSome_iff_exists.mp hpending
      have hmem : sent + cfg.keepalive.pongTimeout ∈ s.pongDue cfg :=
        mem_pongDue.mpr ⟨sent, hsent, rfl⟩
      have hahead := hs.ahead _ hmem
      rw [← hs.deadline deadline hwriter _ hmem] at hahead
      omega
  · obtain ⟨hwriter, hping⟩ | rfl := h.writer deadline hwriter
    · exact hs.deadline deadline hwriter due (hkept hping due hdue)
    · obtain ⟨sent, hsent, rfl⟩ := mem_pongDue.mp hdue
      rw [LoopState.pingDeadline, hsent]
  · obtain hping | hping | ⟨hring, hnow, hping⟩ := h.ping
    · exact hstep due (hkept (.inl hping) due hdue)
    · exact hstep due (hkept (.inr hping) due hdue)
    · obtain ⟨sent, hsent, rfl⟩ := mem_pongDue.mp hdue
      obtain rfl := Option.some.inj (hping.symm.trans hsent)
      have htimeout := hpeer.2 hring
      omega

theorem mem_activityDue {due : Nat} : due ∈ s.activityDue cfg ↔
    ∃ timeout, cfg.keepalive.idleTimeout = some timeout ∧ s.activity + timeout = due :=
  Option.map_eq_some_iff

theorem ActivityKept.step (hs : ActivityKept cfg s) (h : Effect cfg s l s') (hpeer : Fed s l)
    (hfree : Unparked (s.activityDue cfg) s l)
    (hlong : ∀ timeout ∈ cfg.keepalive.idleTimeout, 1 < timeout) : ActivityKept cfg s' := by
  refine ⟨fun hended ↦ ?_, fun due hdue ↦ ?_⟩
  · obtain hended | ⟨timeout, htimeout, hdue⟩ := h.ended _ hended
    · exact hs.ended hended
    · have hahead := hs.ahead _ (mem_activityDue.mpr ⟨timeout, htimeout, rfl⟩)
      omega
  · obtain ⟨timeout, htimeout, rfl⟩ := mem_activityDue.mp hdue
    have hmem : s.activity + timeout ∈ s.activityDue cfg :=
      mem_activityDue.mpr ⟨timeout, htimeout, rfl⟩
    have hlong := hlong timeout htimeout
    obtain hactivity | ⟨hactivity, hnow⟩ := h.activity
    · rw [hactivity]
      obtain hnow | ⟨htick, hstalled, rfl⟩ := h.now
      · rw [hnow]
        exact hs.ahead _ hmem
      · cases hparked : s.parked with
        | true => exact hfree htick hparked _ hmem
        | false =>
          have hsocket := socket_eq_nil_of_stalled hstalled hparked
          have hread := (hpeer htick).resolve_left (not_not.mpr hsocket)
          show s.now + 1 < s.activity + timeout
          omega
    · omega

end Steps

/-- Where the peer answers every ping in time, and the clock reaches no time a pong is due at while
the read loop is inside `deliver`, the connection is not closed for want of a pong. Where there is
something on the socket at every time, the idle timeout is more than a tick, and the clock reaches
no time some activity is due at while the read loop is inside `deliver`, it is not closed as idle. -/
theorem no_false_timeout (protocol : Protocol) (cfg : LoopConfig) (s : LoopState protocol) :
    ((eventLoop protocol cfg).ReachableBy (fun s l ↦ Answered cfg s l ∧
        Unparked (s.pongDue cfg) s l) s → s.ended ≠ some (.write, .closed .timeout)) ∧
      ((∀ timeout ∈ cfg.keepalive.idleTimeout, 1 < timeout) →
        (eventLoop protocol cfg).ReachableBy (fun s l ↦ Fed s l ∧
          Unparked (s.activityDue cfg) s l) s → s.ended ≠ some (.idle, .closed .timeout)) := by
  constructor
  · intro h
    have hkept : PongKept cfg s := by
      refine h.invariant ⟨nofun, nofun, nofun⟩ fun s l s' hs hmay hstep ↦ ?_
      exact hs.step (act_effect (Option.ite_none_left_eq_some.mp hstep).2) hmay.1 hmay.2
    exact hkept.ended
  · intro hlong h
    have hstart : ActivityKept cfg (LoopState.new cfg : LoopState protocol) := by
      refine ⟨nofun, fun due hdue ↦ ?_⟩
      obtain ⟨timeout, htimeout, rfl⟩ := mem_activityDue.mp hdue
      have hlong := hlong timeout htimeout
      show 0 < 0 + timeout
      omega
    have hkept : ActivityKept cfg s := by
      refine h.invariant hstart fun s l s' hs hmay hstep ↦ ?_
      exact hs.step (act_effect (Option.ite_none_left_eq_some.mp hstep).2) hmay.1 hmay.2 hlong
    exact hkept.ended

/-- A WebSocket connection on small packets. -/
def smallSocket : Protocol := webSocket
  { usizeBits := 64
    maxFrameSize := 64
    maxPayloadSize := 64
    maxExtHeaderSize := 64
    maxFrameSize_lt := by decide
    maxPayloadSize_lt := by decide
    maxExtHeaderSize_lt := by decide }

private theorem le_sixtyFour : 32 ≤ 64 := by decide

/-- A ping every two ticks that is to be answered within three, an idle timeout of four, and an event
pipe of capacity one. -/
def hastyLoop : LoopConfig where
  keepalive := ⟨some 2, 3, some 4⟩
  writeDeadline := 1
  pipe :=
    { target := ⟨64, le_sixtyFour⟩
      codecs := ⟨none, none⟩
      capacity := 1
      maxPayloadSize := 64
      bufferBytes := 64 }

/-- A data message that is read and delivered. -/
def delivered : List (Label smallSocket) :=
  [.arrive (.ok (.binary [1])), .read false, .parse, .charge, .send, .parse]

/-- A data message that is read and has no place in the pipe. -/
def undelivered : List (Label smallSocket) :=
  [.arrive (.ok (.binary [2])), .read false, .parse, .charge]

/-- Messages that are taken before time goes on, and a ping that is answered at the last moment. -/
def prompt : List (Label smallSocket) :=
  delivered ++ [.take, .tick] ++ delivered ++ [.take, .tick, .alarm, .written] ++
    delivered ++ [.take, .tick] ++ delivered ++ [.take, .tick] ++
    [.arrive (.ok .pong), .read false, .parse, .tick, .control]

theorem no_false_timeout_of_prompt : ∃ s, (eventLoop smallSocket hastyLoop).runBy
      (fun s l ↦ (Answered hastyLoop s l ∧ Unparked (s.pongDue hastyLoop) s l) ∧
        Fed s l ∧ Unparked (s.activityDue hastyLoop) s l) (.new hastyLoop) prompt = some s ∧
    s.now = 5 ∧ s.ended ≠ some (.write, .closed .timeout) ∧
      s.ended ≠ some (.idle, .closed .timeout) := by
  have hrun : ((eventLoop smallSocket hastyLoop).runBy
      (fun s l ↦ (Answered hastyLoop s l ∧ Unparked (s.pongDue hastyLoop) s l) ∧
        Fed s l ∧ Unparked (s.activityDue hastyLoop) s l) (.new hastyLoop) prompt).map
          (fun s ↦ s.now) = some 5 := by decide +kernel
  obtain ⟨s, hs, hnow⟩ := Option.map_eq_some_iff.mp hrun
  have hreach := Machine.ReachableBy.of_runBy .start hs
  have hlong : ∀ timeout ∈ hastyLoop.keepalive.idleTimeout, 1 < timeout := by decide
  obtain ⟨hpong, hidle⟩ := no_false_timeout smallSocket hastyLoop s
  refine ⟨s, hs, hnow, hpong ?_, hidle hlong ?_⟩
  · exact hreach.mono fun _ _ h ↦ h.1
  · exact hreach.mono fun _ _ h ↦ h.2

/-- A consumer that takes nothing: the pong lies on the socket two ticks before it is due, and
messages do all the time, but the read loop is inside `deliver`. -/
theorem parked_reader_times_out :
    (¬∀ (protocol : Protocol) (cfg : LoopConfig) (s : LoopState protocol),
      (eventLoop protocol cfg).ReachableBy (Answered cfg) s →
        s.ended ≠ some (.write, .closed .timeout)) ∧
    ¬∀ (protocol : Protocol) (cfg : LoopConfig) (s : LoopState protocol),
      (∀ timeout ∈ cfg.keepalive.idleTimeout, 1 < timeout) →
        (eventLoop protocol cfg).ReachableBy Fed s → s.ended ≠ some (.idle, .closed .timeout) := by
  constructor
  · intro h
    have hrun : ((eventLoop smallSocket hastyLoop).runBy (Answered hastyLoop) (.new hastyLoop)
        (delivered ++ undelivered ++ ([.tick, .tick, .alarm, .written, .tick,
          .arrive (.ok .pong), .tick, .tick, .alarm] : List (Label smallSocket)))).map (·.ended) =
        some (some (.write, .closed .timeout)) := by decide +kernel
    obtain ⟨s, hs, hended⟩ := Option.map_eq_some_iff.mp hrun
    exact h smallSocket hastyLoop s (.of_runBy .start hs) hended
  · intro h
    have hrun : ((eventLoop smallSocket hastyLoop).runBy Fed (.new hastyLoop)
        (delivered ++ undelivered ++ ([.arrive (.ok (.binary [3])), .tick, .tick, .tick, .tick,
          .idle] : List (Label smallSocket)))).map (·.ended) =
        some (some (.idle, .closed .timeout)) := by decide +kernel
    obtain ⟨s, hs, hended⟩ := Option.map_eq_some_iff.mp hrun
    exact h smallSocket hastyLoop s (by decide) (.of_runBy .start hs) hended

end MsgTrans.Adapters.EventLoop
