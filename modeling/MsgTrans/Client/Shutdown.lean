import MsgTrans.Adapters.Core
import MsgTrans.Base.Threads

/-!
# The client transport: concurrent shutdowns

`TransportClient::shutdown`, `crates/msgtrans/src/transport/client.rs:395–540`: any number of
concurrent calls, each of which may be dropped at any await, and the teardown task they spawn and
observe. One step is one access to the client's shared fields. What `Transport::disconnect` and the
slots that other methods fill answer is the step's choice, and so is a panic of the teardown. A call
that finds the handle of the teardown taken trusts the stored verdict, which the call that took the
handle stores in a later step; the verdicts agree in every run in which no call reads in between.
-/

namespace MsgTrans.Client.Shutdown

open MsgTrans.Base MsgTrans.Adapters

/-- `CLIENT_ACTIVE`, `CLIENT_SHUTTING_DOWN` and `CLIENT_STOPPED`; `client.rs:208–210`. -/
inductive Phase where
  | active
  | shuttingDown
  | stopped
  deriving DecidableEq, Repr

/-- How a teardown task ended: with the error it stored, if any, or by a panic. -/
inductive TeardownEnd where
  | finished (failed : Option TransportError)
  | panicked
  deriving DecidableEq, Repr

/-- The verdict on a panicked teardown; `client.rs:522–524`. -/
def teardownPanicked : TransportError := .connection "client teardown panicked" false

/-- What a shutdown is to report of a teardown. -/
def TeardownEnd.verdict : TeardownEnd → Except TransportError Unit
  | finished none => .ok ()
  | finished (some e) => .error e
  | panicked => .error teardownPanicked

/-- The fields the calls and the teardown share; `client.rs:199–205`. The watch channel is its value
and the number of times it was set, and a join handle is a task's number. -/
structure Shared where
  eventSender : Bool
  phase : Phase
  teardownTask : Option Nat
  teardownDone : Bool
  doneVersion : Nat
  teardownErr : Option TransportError
  /-- How many tasks were spawned. -/
  spawned : Nat
  /-- How the finished ones ended. -/
  joined : Nat → Option TeardownEnd

/-- The steps of a teardown; `client.rs:463–486`. -/
inductive Work where
  | currentSessionId
  | disconnect (wasConnected : Bool)
  | storeErr (e : TransportError)
  | takeForwarding
  | joinForwarding
  | takeAbort
  | takeScanner
  | joinScanner
  | storeRunning
  | storePhase
  | sendDone
  deriving DecidableEq, Repr

/-- The program points of a shutdown call and of a teardown task. -/
inductive Thread where
  | takeEventSender
  | gate
  | gateExchange
  | spawnTeardown
  | subscribe
  | checkDone (seen : Nat)
  | changed (seen : Nat)
  | checkFinished
  | takeHandle
  | yieldNow
  | joinHandle (task : Nat)
  | storePanicked
  | readVerdict
  | returned (verdict : Except TransportError Unit)
  | dropped
  | teardown (task : Nat) (failed : Option TransportError) (work : Work)
  | guardPhase (task : Nat) (result : TeardownEnd)
  | guardDone (task : Nat) (result : TeardownEnd)
  | finish (task : Nat) (result : TeardownEnd)
  | ended (task : Nat)
  deriving DecidableEq, Repr

/-- What is not the program's choice: the answers of the transport, whether a slot held a handle,
a panic of the teardown, and the drop of a call at an await. -/
inductive Choice where
  | go
  | drop
  | panic
  | connected (b : Bool)
  | disconnected (result : Except TransportError Unit)
  | took (b : Bool)
  deriving DecidableEq, Repr

/-- `let _ = done.send_replace(true)`. -/
def Shared.sendDone (s : Shared) : Shared :=
  { s with teardownDone := true, doneVersion := s.doneVersion + 1 }

/-- One step of a teardown's body: the next step or the drop of its guard. -/
def teardownStep (task : Nat) (failed : Option TransportError) :
    Work → Choice → Shared → Option (Thread × Shared)
  | .storePhase, .go, s => some (.teardown task failed .sendDone, { s with phase := .stopped })
  | .sendDone, .go, s => some (.guardPhase task (.finished failed), s.sendDone)
  | .storePhase, _, _ | .sendDone, _, _ => none
  | _, .panic, s => some (.guardPhase task .panicked, s)
  | .currentSessionId, .connected b, s => some (.teardown task failed (.disconnect b), s)
  | .disconnect _, .disconnected (.ok _), s => some (.teardown task failed .takeForwarding, s)
  | .disconnect true, .disconnected (.error e), s =>
    some (.teardown task failed (.storeErr e), s)
  | .disconnect false, .disconnected (.error _), s =>
    some (.teardown task failed .takeForwarding, s)
  | .storeErr e, .go, s =>
    some (.teardown task (some e) .takeForwarding, { s with teardownErr := some e })
  | .takeForwarding, .took true, s => some (.teardown task failed .joinForwarding, s)
  | .takeForwarding, .took false, s => some (.teardown task failed .takeAbort, s)
  | .joinForwarding, .go, s => some (.teardown task failed .takeAbort, s)
  | .takeAbort, .go, s => some (.teardown task failed .takeScanner, s)
  | .takeScanner, .took true, s => some (.teardown task failed .joinScanner, s)
  | .takeScanner, .took false, s => some (.teardown task failed .storeRunning, s)
  | .joinScanner, .go, s => some (.teardown task failed .storeRunning, s)
  | .storeRunning, .go, s => some (.teardown task failed .storePhase, s)
  | _, _, _ => none

/-- One step of a call or of a teardown, with the threads it spawns. -/
def act : Thread → Choice → Shared → Option (Thread × Shared × List Thread)
  | .takeEventSender, _, s => some (.gate, { s with eventSender := false }, [])
  | .gate, _, s => some (if s.phase = .active then .gateExchange else .spawnTeardown, s, [])
  | .gateExchange, _, s =>
    if s.phase = .active then some (.spawnTeardown, { s with phase := .shuttingDown }, [])
    else some (.gate, s, [])
  | .spawnTeardown, _, s =>
    -- One critical section of the slot's mutex; `client.rs:432–488`.
    if s.teardownTask = none ∧ s.phase ≠ .stopped then
      some (.subscribe, { s with teardownTask := some s.spawned, spawned := s.spawned + 1 },
        [.teardown s.spawned none .currentSessionId])
    else some (.subscribe, s, [])
  | .subscribe, _, s => some (.checkDone s.doneVersion, s, [])
  | .checkDone seen, _, s =>
    some (if s.teardownDone then .checkFinished else .changed seen, s, [])
  | .changed _, .drop, s => some (.dropped, s, [])
  | .changed seen, _, s =>
    if s.doneVersion ≠ seen then some (.checkDone s.doneVersion, s, []) else none
  | .checkFinished, _, s =>
    match s.teardownTask with
    | none => some (.readVerdict, s, [])
    | some task => some (if (s.joined task).isSome then .takeHandle else .yieldNow, s, [])
  | .takeHandle, _, s =>
    match s.teardownTask with
    | none => some (.readVerdict, s, [])
    | some task => some (.joinHandle task, { s with teardownTask := none }, [])
  | .yieldNow, .drop, s => some (.dropped, s, [])
  | .yieldNow, _, s => some (.checkFinished, s, [])
  | .joinHandle _, .drop, s => some (.dropped, s, [])
  | .joinHandle task, _, s =>
    match s.joined task with
    | none => none
    | some .panicked => some (.storePanicked, s, [])
    | some (.finished _) => some (.readVerdict, s, [])
  | .storePanicked, _, s => some (.readVerdict, { s with teardownErr := some teardownPanicked }, [])
  | .readVerdict, _, s =>
    match s.teardownErr with
    | some e => some (.returned (.error e), s, [])
    | none => some (.returned (.ok ()), s, [])
  | .teardown task failed work, choice, s =>
    (teardownStep task failed work choice s).map fun r ↦ (r.1, r.2, [])
  | .guardPhase task result, _, s => some (.guardDone task result, { s with phase := .stopped }, [])
  | .guardDone task result, _, s => some (.finish task result, s.sendDone, [])
  | .finish task result, _, s =>
    some (.ended task, { s with joined := Function.update s.joined task (some result) }, [])
  | .returned _, _, _ | .dropped, _, _ | .ended _, _, _ => none

/-- A new client; `client.rs:236–240`. -/
def Shared.new : Shared where
  eventSender := true
  phase := .active
  teardownTask := none
  teardownDone := false
  doneVersion := 0
  teardownErr := none
  spawned := 0
  joined := fun _ ↦ none

/-- The shutdown calls of one client and the tasks they spawn. -/
def client : Threads Shared Thread Choice where
  init := .new
  entry := fun x ↦ x = .takeEventSender
  act := act

/-- At most one teardown is spawned, every call that completed did so after it had ended, and
reports its verdict. -/
def Agreed (p : Pool Shared Thread) : Prop :=
  p.shared.spawned ≤ 1 ∧ ∀ v, .returned v ∈ p.threads →
    ∃ result, p.shared.joined 0 = some result ∧ v = result.verdict

/-- A teardown panicked and the verdict on it is not stored. -/
def Shared.Unreported (s : Shared) : Prop :=
  ∃ task < s.spawned, s.joined task = some .panicked ∧ s.teardownErr ≠ some teardownPanicked

instance (s : Shared) : Decidable s.Unreported :=
  inferInstanceAs (Decidable (∃ task < s.spawned, _ ∧ _))

/-- No call reads the stored verdict between the end of a panicked teardown and the step that
stores what its join reported. -/
def readsReported (s : Shared) (x : Thread) : Prop := x = .readVerdict → ¬ s.Unreported

instance (s : Shared) (x : Thread) : Decidable (readsReported s x) :=
  inferInstanceAs (Decidable (x = .readVerdict → ¬ s.Unreported))

/-- A teardown whose handle is not finished. -/
def Thread.running : Thread → Bool
  | .teardown .. | .guardPhase .. | .guardDone .. | .finish .. => true
  | _ => false

/-- What is known at a program point; in a `strict` run, returned verdicts are right. -/
def Thread.Holds (strict : Prop) (s : Shared) : Thread → Prop
  | .subscribe | .checkDone _ | .changed _ | .checkFinished | .yieldNow => 0 < s.spawned
  | .takeHandle => (s.joined 0).isSome = true
  | .joinHandle task => s.teardownTask = none ∧ task < s.spawned
  | .storePanicked => s.teardownTask = none ∧ 0 < s.spawned ∧ s.joined 0 = some .panicked
  | .readVerdict => s.teardownTask = none ∧ 0 < s.spawned
  | .returned v => ∃ result, s.joined 0 = some result ∧ (strict → v = result.verdict)
  | .teardown task failed work => task < s.spawned ∧ s.joined task = none ∧
    s.teardownErr = failed ∧ (work = .sendDone → s.phase = .stopped)
  | .guardPhase task result => task < s.spawned ∧ s.joined task = none ∧
    ∀ failed, result = .finished failed → s.teardownErr = failed
  | .guardDone task result | .finish task result => task < s.spawned ∧ s.joined task = none ∧
    s.phase = .stopped ∧ ∀ failed, result = .finished failed → s.teardownErr = failed
  | _ => True

/-- What holds of the shared fields. -/
structure Shared.Ok (s : Shared) : Prop where
  once : s.spawned ≤ 1
  handle : ∀ task, s.teardownTask = some task → task < s.spawned
  taken : s.teardownTask = none → 0 < s.spawned → (s.joined 0).isSome = true
  joined : ∀ task, (s.joined task).isSome = true → task < s.spawned ∧ s.phase = .stopped
  stopped : s.phase = .stopped → 0 < s.spawned
  clean : s.spawned = 0 → s.teardownErr = none
  failed : ∀ failed, s.joined 0 = some (.finished failed) → s.teardownErr = failed

/-- The invariant of a client's shutdowns. -/
structure Inv (strict : Prop) (s : Shared) (M : Multiset Thread) : Prop where
  shared : s.Ok
  points : ∀ x ∈ M, x.Holds strict s
  running : M.countP (fun x ↦ x.running = true) + (if (s.joined 0).isSome then 1 else 0) =
    s.spawned

/-- What no step takes back. -/
structure Shared.Grows (s s' : Shared) : Prop where
  spawned : s.spawned ≤ s'.spawned
  taken : 0 < s.spawned → s.teardownTask = none → s'.teardownTask = none
  joined : ∀ task result, s.joined task = some result → s'.joined task = some result
  stopped : s.phase = .stopped → s'.phase = .stopped

section Invariant

variable {strict : Prop} {s s' : Shared} {M : Multiset Thread} {x : Thread}

theorem Shared.Grows.refl : s.Grows s := ⟨le_rfl, fun _ h ↦ h, fun _ _ h ↦ h, fun h ↦ h⟩

/-- What is known at a point stays known, at a running teardown's as long as no other one writes
its fields. -/
theorem Thread.Holds.mono (h : x.Holds strict s) (hg : s.Grows s')
    (hrun : x.running = true → s'.joined = s.joined ∧ s'.teardownErr = s.teardownErr) :
    x.Holds strict s' := by
  have hpos : 0 < s.spawned → 0 < s'.spawned := fun h ↦ Nat.lt_of_lt_of_le h hg.spawned
  cases x with
  | subscribe | checkDone | changed | checkFinished | yieldNow => exact hpos h
  | takeHandle =>
    obtain ⟨result, hresult⟩ := Option.isSome_iff_exists.mp h
    exact Option.isSome_iff_exists.mpr ⟨result, hg.joined 0 result hresult⟩
  | joinHandle task =>
    exact ⟨hg.taken (Nat.lt_of_le_of_lt (Nat.zero_le _) h.2) h.1, Nat.lt_of_lt_of_le h.2 hg.spawned⟩
  | storePanicked => exact ⟨hg.taken h.2.1 h.1, hpos h.2.1, hg.joined _ _ h.2.2⟩
  | readVerdict => exact ⟨hg.taken h.2 h.1, hpos h.2⟩
  | returned v =>
    obtain ⟨result, hresult, hv⟩ := h
    exact ⟨result, hg.joined _ _ hresult, hv⟩
  | teardown task failed work =>
    obtain ⟨hj, he⟩ := hrun rfl
    exact ⟨Nat.lt_of_lt_of_le h.1 hg.spawned, hj ▸ h.2.1, he.trans h.2.2.1,
      fun hw ↦ hg.stopped (h.2.2.2 hw)⟩
  | guardPhase task result =>
    obtain ⟨hj, he⟩ := hrun rfl
    exact ⟨Nat.lt_of_lt_of_le h.1 hg.spawned, hj ▸ h.2.1, fun f hf ↦ he.trans (h.2.2 f hf)⟩
  | guardDone task result | finish task result =>
    obtain ⟨hj, he⟩ := hrun rfl
    exact ⟨Nat.lt_of_lt_of_le h.1 hg.spawned, hj ▸ h.2.1, hg.stopped h.2.2.1,
      fun f hf ↦ he.trans (h.2.2.2 f hf)⟩
  | _ => trivial

/-- Beside a running teardown, or after one has ended, none runs. -/
private theorem Inv.others_idle (h : Inv strict s (x ::ₘ M))
    (hx : x.running = true ∨ (s.joined 0).isSome = true) : ∀ z ∈ M, z.running = false := by
  have hcount := h.running
  have hle := h.shared.once
  rw [Multiset.countP_cons] at hcount
  have hzero : M.countP (fun z ↦ z.running = true) = 0 := by
    obtain hx | hj := hx
    · rw [if_pos hx] at hcount
      omega
    · rw [if_pos hj] at hcount
      omega
  intro z hz
  have hne := Multiset.countP_eq_zero.mp hzero z hz
  simpa using hne

/-- One thread moves on, and no running teardown has its fields written by another. -/
private theorem Inv.move {y : Thread} (h : Inv strict s (x ::ₘ M)) (hok : s'.Ok) (hg : s.Grows s')
    (hspawned : s'.spawned = s.spawned) (hy : y.Holds strict s')
    (hothers : (∀ z ∈ M, z.running = false) ∨
      s'.joined = s.joined ∧ s'.teardownErr = s.teardownErr)
    (hcount : (if y.running = true then 1 else 0) + (if (s'.joined 0).isSome = true then 1 else 0) =
      (if x.running = true then 1 else 0) + (if (s.joined 0).isSome = true then 1 else 0)) :
    Inv strict s' (y ::ₘ M) where
  shared := hok
  points := by
    intro z hz
    obtain rfl | hz := Multiset.mem_cons.mp hz
    · exact hy
    · refine (h.points z (Multiset.mem_cons_of_mem hz)).mono hg fun hrun ↦ ?_
      obtain hidle | hsame := hothers
      · rw [hidle z hz] at hrun
        cases hrun
      · exact hsame
  running := by
    have hold := h.running
    rw [Multiset.countP_cons] at hold ⊢
    rw [hspawned]
    omega

/-- A step that changes none of the fields the invariant is about. -/
private theorem Inv.still {y : Thread} (h : Inv strict s (x ::ₘ M))
    (hspawned : s'.spawned = s.spawned) (htask : s'.teardownTask = s.teardownTask)
    (hjoined : s'.joined = s.joined) (hphase : s'.phase = s.phase)
    (herr : s'.teardownErr = s.teardownErr) (hy : y.Holds strict s')
    (hrun : y.running = x.running) : Inv strict s' (y ::ₘ M) := by
  have hok := h.shared
  refine h.move ⟨?_, ?_, ?_, ?_, ?_, ?_, ?_⟩ ⟨?_, ?_, ?_, ?_⟩ hspawned hy (.inr ⟨hjoined, herr⟩) ?_
  all_goals simp only [hspawned, htask, hjoined, hphase, herr, hrun]
  exacts [hok.once, hok.handle, hok.taken, hok.joined, hok.stopped, hok.clean, hok.failed, le_rfl,
    fun _ h ↦ h, fun _ _ h ↦ h, fun h ↦ h]

/-- The phase reaches `Stopped` while a teardown runs. -/
private theorem Inv.stop {y : Thread} (h : Inv strict s (x ::ₘ M)) (hpos : 0 < s.spawned)
    (hy : y.Holds strict { s with phase := .stopped }) (hrun : y.running = x.running) :
    Inv strict { s with phase := .stopped } (y ::ₘ M) := by
  have hok := h.shared
  refine h.move ⟨hok.once, hok.handle, hok.taken, fun task ht ↦ ⟨(hok.joined task ht).1, rfl⟩,
    fun _ ↦ hpos, hok.clean, hok.failed⟩ ⟨le_rfl, fun _ h ↦ h, fun _ _ h ↦ h, fun _ ↦ rfl⟩ rfl hy
    (.inr ⟨rfl, rfl⟩) ?_
  rw [hrun]

/-- A client nobody has shut down. -/
theorem Inv.new : Inv strict .new 0 := by
  refine ⟨⟨?_, ?_, ?_, ?_, ?_, ?_, ?_⟩, ?_, ?_⟩ <;> simp [Shared.new]

/-- A new call. -/
theorem Inv.start (h : Inv strict s M) (hx : client.entry x = true) : Inv strict s (x ::ₘ M) := by
  obtain rfl : x = .takeEventSender := by simpa [client] using hx
  refine ⟨h.shared, fun z hz ↦ ?_, ?_⟩
  · obtain rfl | hz := Multiset.mem_cons.mp hz
    · trivial
    · exact h.points z hz
  · rw [Multiset.countP_cons_of_neg _ (by simp [Thread.running])]
    exact h.running

/-- What a step of a teardown's body does. -/
private theorem teardownStep_cases {task : Nat} {failed : Option TransportError} {work : Work}
    {choice : Choice} {y : Thread} (h : teardownStep task failed work choice s = some (y, s')) :
    (∃ work', work' ≠ .sendDone ∧ y = .teardown task failed work' ∧ s' = s) ∨
    (∃ e, y = .teardown task (some e) .takeForwarding ∧ s' = { s with teardownErr := some e }) ∨
    (y = .guardPhase task .panicked ∧ s' = s) ∨
    (y = .teardown task failed .sendDone ∧ s' = { s with phase := .stopped }) ∨
    (y = .guardPhase task (.finished failed) ∧ s' = s.sendDone) := by
  unfold teardownStep at h
  split at h <;> cases h <;> simp

/-- The steps of a teardown's body. -/
private theorem Inv.teardown {task : Nat} {failed : Option TransportError} {work : Work}
    {choice : Choice} {y : Thread} (h : Inv strict s (.teardown task failed work ::ₘ M))
    (hstep : teardownStep task failed work choice s = some (y, s')) :
    Inv strict s' (y ::ₘ M) := by
  obtain ⟨hlt, hnone, herr, -⟩ := h.points _ (Multiset.mem_cons_self _ M)
  have hpos : 0 < s.spawned := Nat.lt_of_le_of_lt (Nat.zero_le _) hlt
  have hok := h.shared
  obtain rfl : task = 0 := by have := hok.once; omega
  obtain ⟨work', hwork, rfl, rfl⟩ | ⟨e, rfl, rfl⟩ | ⟨rfl, rfl⟩ | ⟨rfl, rfl⟩ | ⟨rfl, rfl⟩ :=
    teardownStep_cases hstep
  · exact h.still rfl rfl rfl rfl rfl ⟨hlt, hnone, herr, fun h ↦ absurd h hwork⟩ rfl
  · refine h.move ⟨hok.once, hok.handle, hok.taken, hok.joined, hok.stopped, ?_, ?_⟩
      ⟨le_rfl, fun _ h ↦ h, fun _ _ h ↦ h, fun h ↦ h⟩ rfl ⟨hlt, hnone, rfl, by simp⟩
      (.inl (h.others_idle (.inl rfl))) rfl
    · intro hzero
      exact absurd hzero (Nat.ne_of_gt hpos)
    · intro failed' hjoined
      rw [hnone] at hjoined
      cases hjoined
  · exact h.still rfl rfl rfl rfl rfl ⟨hlt, hnone, by simp⟩ rfl
  · exact h.stop hpos ⟨hlt, hnone, herr, fun _ ↦ rfl⟩ rfl
  · refine h.still rfl rfl rfl rfl rfl ⟨hlt, hnone, fun failed' hf ↦ ?_⟩ rfl
    rw [← TeardownEnd.finished.inj hf]
    exact herr

/-- The critical section that spawns the teardown. -/
private theorem Inv.spawn (h : Inv strict s (.spawnTeardown ::ₘ M)) (htask : s.teardownTask = none)
    (hphase : s.phase ≠ .stopped) :
    Inv strict { s with teardownTask := some s.spawned, spawned := s.spawned + 1 }
      (.subscribe ::ₘ .teardown s.spawned none .currentSessionId ::ₘ M) := by
  have hok := h.shared
  -- A handle that was taken is a finished one, and then the phase would be `Stopped`.
  have hzero : s.spawned = 0 := by
    by_contra hne
    have hjoined := hok.taken htask (Nat.pos_of_ne_zero hne)
    exact hphase (hok.joined 0 hjoined).2
  have hnone : ∀ task, s.joined task = none := by
    intro task
    by_contra hne
    have := (hok.joined task (Option.isSome_iff_ne_none.mpr hne)).1
    omega
  refine ⟨⟨?_, ?_, ?_, ?_, ?_, ?_, ?_⟩, ?_, ?_⟩
  · exact Nat.succ_le_succ (Nat.le_of_eq hzero)
  · intro task ht
    cases ht
    exact Nat.lt_succ_self _
  · intro ht
    cases ht
  · intro task ht
    rw [hnone] at ht
    cases ht
  · intro hstopped
    exact absurd hstopped hphase
  · intro h0
    exact absurd h0 (Nat.succ_ne_zero _)
  · intro failed hf
    rw [hnone] at hf
    cases hf
  · intro z hz
    obtain rfl | hz := Multiset.mem_cons.mp hz
    · exact Nat.succ_pos _
    obtain rfl | hz := Multiset.mem_cons.mp hz
    · exact ⟨Nat.lt_succ_self _, hnone _, hok.clean hzero, by simp⟩
    · have hg : s.Grows { s with teardownTask := some s.spawned, spawned := s.spawned + 1 } :=
        ⟨Nat.le_succ _, fun hpos ↦ absurd hzero (Nat.ne_of_gt hpos), fun _ _ h ↦ h, fun h ↦ h⟩
      exact (h.points z (Multiset.mem_cons_of_mem hz)).mono hg fun _ ↦ ⟨rfl, rfl⟩
  · have hcount := h.running
    rw [Multiset.countP_cons_of_neg _ (by simp [Thread.running])] at hcount
    rw [Multiset.countP_cons_of_neg _ (by simp [Thread.running]),
      Multiset.countP_cons_of_pos _ (by simp [Thread.running])]
    show M.countP _ + 1 + _ = s.spawned + 1
    rw [← hcount]
    show _ + 1 + (if (s.joined 0).isSome = true then 1 else 0) = _
    omega

private theorem Inv.alone {y : Thread} (h : Inv strict s' (y ::ₘ M)) :
    Inv strict s' (y ::ₘ (M + (([] : List Thread) : Multiset Thread))) := by
  rwa [Multiset.coe_nil, add_zero]

/-- The stored verdict is right where a call may read it. -/
private theorem verdict_read (hok : s.Ok) (htaken : s.teardownTask = none) (hpos : 0 < s.spawned)
    (hread : strict → ¬ s.Unreported) {v : Except TransportError Unit}
    (hv : v = match s.teardownErr with
      | some e => .error e
      | none => .ok ()) :
    ∃ result, s.joined 0 = some result ∧ (strict → v = result.verdict) := by
  obtain ⟨result, hresult⟩ := Option.isSome_iff_exists.mp (hok.taken htaken hpos)
  refine ⟨result, hresult, fun hstrict ↦ ?_⟩
  cases result with
  | panicked =>
    have herr : s.teardownErr = some teardownPanicked := by
      by_contra hne
      exact hread hstrict ⟨0, hpos, hresult, hne⟩
    rw [hv, herr]
    rfl
  | finished failed =>
    rw [hv, hok.failed failed hresult]
    cases failed <;> rfl

/-- A teardown becomes joinable. -/
private theorem Inv.finish {task : Nat} {result : TeardownEnd}
    (h : Inv strict s (.finish task result ::ₘ M)) :
    Inv strict { s with joined := Function.update s.joined task (some result) }
      (.ended task ::ₘ M) := by
  obtain ⟨hlt, hnone, hphase, herr⟩ := h.points _ (Multiset.mem_cons_self _ M)
  have hok := h.shared
  obtain rfl : task = 0 := by have := hok.once; omega
  refine h.move ⟨hok.once, hok.handle, ?_, ?_, hok.stopped, hok.clean, ?_⟩
    ⟨le_rfl, fun _ h ↦ h, ?_, fun h ↦ h⟩ rfl trivial (.inl (h.others_idle (.inl rfl))) ?_
  · intro _ _
    simp
  · intro task ht
    by_cases heq : task = 0
    · exact ⟨heq ▸ hlt, hphase⟩
    · simp only [Function.update_of_ne heq] at ht
      exact hok.joined task ht
  · intro failed hf
    simp only [Function.update_self, Option.some.injEq] at hf
    exact herr failed hf
  · intro task result' hr
    by_cases heq : task = 0
    · rw [heq, hnone] at hr
      cases hr
    · simp only [Function.update_of_ne heq]
      exact hr
  · simp [Thread.running, hnone]

/-- One step of any thread; in a strict run, no verdict is read before it is stored. -/
theorem Inv.step {choice : Choice} {y : Thread} {new : List Thread} (h : Inv strict s (x ::ₘ M))
    (hread : strict → readsReported s x) (hstep : act x choice s = some (y, s', new)) :
    Inv strict s' (y ::ₘ (M + (new : Multiset Thread))) := by
  have hx := h.points _ (Multiset.mem_cons_self _ M)
  have hok := h.shared
  cases x with
  | takeEventSender =>
    cases hstep
    exact Inv.alone (h.still rfl rfl rfl rfl rfl trivial rfl)
  | gate =>
    cases hstep
    refine Inv.alone (h.still rfl rfl rfl rfl rfl ?_ ?_)
    all_goals split <;> trivial
  | gateExchange =>
    simp only [act] at hstep
    split at hstep
    next hactive =>
      cases hstep
      refine Inv.alone (h.move ⟨hok.once, hok.handle, hok.taken, fun task ht ↦ ?_, fun h ↦ ?_,
        hok.clean, hok.failed⟩ ⟨le_rfl, fun _ h ↦ h, fun _ _ h ↦ h, fun h ↦ ?_⟩ rfl trivial
        (.inr ⟨rfl, rfl⟩) rfl)
      · have := (hok.joined task ht).2
        rw [hactive] at this
        cases this
      · cases h
      · rw [hactive] at h
        cases h
    next =>
      cases hstep
      exact Inv.alone (h.still rfl rfl rfl rfl rfl trivial rfl)
  | spawnTeardown =>
    simp only [act] at hstep
    split at hstep
    next hfree =>
      cases hstep
      rw [Multiset.coe_singleton, Multiset.add_comm, Multiset.singleton_add]
      exact h.spawn hfree.1 hfree.2
    next hbusy =>
      cases hstep
      refine Inv.alone (h.still rfl rfl rfl rfl rfl ?_ rfl)
      show 0 < s.spawned
      cases htask : s.teardownTask with
      | some task => exact Nat.lt_of_le_of_lt (Nat.zero_le _) (hok.handle task htask)
      | none =>
        refine hok.stopped ?_
        by_contra hphase
        exact hbusy ⟨htask, hphase⟩
  | subscribe =>
    cases hstep
    exact Inv.alone (h.still rfl rfl rfl rfl rfl hx rfl)
  | checkDone seen =>
    cases hstep
    refine Inv.alone (h.still rfl rfl rfl rfl rfl ?_ ?_)
    · split <;> exact hx
    · split <;> rfl
  | changed seen =>
    unfold act at hstep
    split at hstep <;> cases ‹Thread.changed seen = _›
    · cases hstep
      exact Inv.alone (h.still rfl rfl rfl rfl rfl trivial rfl)
    · split at hstep
      next =>
        cases hstep
        exact Inv.alone (h.still rfl rfl rfl rfl rfl hx rfl)
      next => cases hstep
  | checkFinished =>
    simp only [act] at hstep
    split at hstep
    next htask =>
      cases hstep
      exact Inv.alone (h.still rfl rfl rfl rfl rfl ⟨htask, hx⟩ rfl)
    next task htask =>
      cases hstep
      refine Inv.alone (h.still rfl rfl rfl rfl rfl ?_ ?_)
      · split
        next hfinished =>
          have hlt := hok.handle task htask
          obtain rfl : task = 0 := by have := hok.once; omega
          exact hfinished
        next => exact hx
      · split <;> rfl
  | takeHandle =>
    have hpos := (hok.joined 0 hx).1
    simp only [act] at hstep
    split at hstep
    next htask =>
      cases hstep
      exact Inv.alone (h.still rfl rfl rfl rfl rfl ⟨htask, hpos⟩ rfl)
    next task htask =>
      cases hstep
      exact Inv.alone (h.move ⟨hok.once, fun _ h ↦ (nomatch h), fun _ _ ↦ hx, hok.joined, hok.stopped,
        hok.clean, hok.failed⟩ ⟨le_rfl, fun _ _ ↦ rfl, fun _ _ h ↦ h, fun h ↦ h⟩ rfl
        ⟨rfl, hok.handle task htask⟩ (.inr ⟨rfl, rfl⟩) rfl)
  | yieldNow =>
    unfold act at hstep
    split at hstep <;> cases ‹Thread.yieldNow = _›
    all_goals cases hstep
    · exact Inv.alone (h.still rfl rfl rfl rfl rfl trivial rfl)
    · exact Inv.alone (h.still rfl rfl rfl rfl rfl hx rfl)
  | joinHandle task =>
    obtain ⟨htaken, hlt⟩ := hx
    have hpos : 0 < s.spawned := Nat.lt_of_le_of_lt (Nat.zero_le _) hlt
    obtain rfl : task = 0 := by have := hok.once; omega
    unfold act at hstep
    split at hstep <;> cases ‹Thread.joinHandle 0 = _›
    · cases hstep
      exact Inv.alone (h.still rfl rfl rfl rfl rfl trivial rfl)
    · split at hstep
      next => cases hstep
      next hpanicked =>
        cases hstep
        exact Inv.alone (h.still rfl rfl rfl rfl rfl ⟨htaken, hpos, hpanicked⟩ rfl)
      next =>
        cases hstep
        exact Inv.alone (h.still rfl rfl rfl rfl rfl ⟨htaken, hpos⟩ rfl)
  | storePanicked =>
    cases hstep
    obtain ⟨htaken, hpos, hpanicked⟩ := hx
    have hsome : (s.joined 0).isSome = true := by rw [hpanicked]; rfl
    refine Inv.alone (h.move ⟨hok.once, hok.handle, hok.taken, hok.joined, hok.stopped,
      fun hzero ↦ absurd hzero (Nat.ne_of_gt hpos), fun failed hf ↦ ?_⟩
      ⟨le_rfl, fun _ h ↦ h, fun _ _ h ↦ h, fun h ↦ h⟩ rfl ⟨htaken, hpos⟩
      (.inl (h.others_idle (.inr hsome))) rfl)
    rw [hpanicked] at hf
    cases hf
  | readVerdict =>
    have hverdict := fun v ↦ verdict_read (v := v) hok hx.1 hx.2 fun hstrict ↦ hread hstrict rfl
    simp only [act] at hstep
    split at hstep
    next e he =>
      cases hstep
      exact Inv.alone (h.still rfl rfl rfl rfl rfl (hverdict _ (by rw [he])) rfl)
    next he =>
      cases hstep
      exact Inv.alone (h.still rfl rfl rfl rfl rfl (hverdict _ (by rw [he])) rfl)
  | teardown task failed work =>
    obtain ⟨⟨y', s''⟩, hwork, heq⟩ := Option.map_eq_some_iff.mp hstep
    cases heq
    exact Inv.alone (h.teardown hwork)
  | guardPhase task result =>
    cases hstep
    obtain ⟨hlt, hnone, herr⟩ := hx
    exact Inv.alone (h.stop (Nat.lt_of_le_of_lt (Nat.zero_le _) hlt) ⟨hlt, hnone, rfl, herr⟩ rfl)
  | guardDone task result =>
    cases hstep
    exact Inv.alone (h.still rfl rfl rfl rfl rfl hx rfl)
  | finish task result =>
    cases hstep
    exact Inv.alone h.finish
  | returned v => cases hstep
  | dropped => cases hstep
  | ended task => cases hstep

end Invariant

/-- In any run, one teardown is spawned at most, and a call that completed did so after it had
ended. -/
theorem shutdown_after_teardown {p : Pool Shared Thread} (hp : client.machine.Reachable p) :
    p.shared.spawned ≤ 1 ∧
      ∀ v, .returned v ∈ p.threads → (p.shared.joined 0).isSome = true := by
  have h : Inv False p.shared p.threads := by
    refine Threads.invariant (fun _ _ ↦ True) .new (fun _ _ _ hJ ↦ hJ.start) ?_
      (Threads.reachable_restricted hp fun _ _ ↦ trivial)
    exact fun _ _ _ _ _ _ _ hJ _ ↦ hJ.step False.elim
  refine ⟨h.shared.once, fun v hv ↦ ?_⟩
  obtain ⟨result, hresult, -⟩ := h.points (.returned v) (Multiset.mem_coe.mpr hv)
  rw [hresult]
  rfl

/-- In every run in which no call reads the verdict between the end of a panicked teardown and the
step that stores what its join reported, all completed calls report what the one teardown came
to. -/
theorem shutdowns_agree {p : Pool Shared Thread}
    (hp : client.machine.ReachableBy (Threads.restricted readsReported) p) : Agreed p := by
  have h : Inv True p.shared p.threads := by
    refine Threads.invariant _ .new (fun _ _ _ hJ ↦ hJ.start) ?_ hp
    exact fun _ _ _ _ _ _ _ hJ hread ↦ hJ.step fun _ ↦ hread
  refine ⟨h.shared.once, fun v hv ↦ ?_⟩
  obtain ⟨result, hresult, hverdict⟩ := h.points (.returned v) (Multiset.mem_coe.mpr hv)
  exact ⟨result, hresult, hverdict trivial⟩

/-- Two calls and a teardown that panics, up to where the first call has taken its handle. -/
def panickedTeardown : List (Turn Thread Choice) :=
  .start .takeEventSender :: .start .takeEventSender :: List.replicate 6 (.run 0 .go) ++
    List.replicate 5 (.run 1 .go) ++ .run 2 .panic :: List.replicate 3 (.run 2 .go) ++
    List.replicate 4 (.run 0 .go)

theorem shutdowns_agree_of_panicked : ∃ p,
    client.machine.ReachableBy (Threads.restricted readsReported) p ∧
      p.threads.count (.returned (.error teardownPanicked)) = 2 ∧ Agreed p := by
  have hrun : (client.machine.runBy (Threads.restricted readsReported) client.machine.start
      (panickedTeardown ++ List.replicate 3 (Turn.run 0 Choice.go) ++
        List.replicate 4 (Turn.run 1 Choice.go))).map
      (fun p ↦ p.threads.count (.returned (.error teardownPanicked))) = some 2 := by decide +kernel
  obtain ⟨p, hp, hcount⟩ := Option.map_eq_some_iff.mp hrun
  have hreach := Machine.ReachableBy.start.of_runBy hp
  exact ⟨p, hreach, hcount, shutdowns_agree hreach⟩

/-- The second call finds the handle taken and reads the verdict before the first one stores it. -/
theorem shutdown_ok_after_panic : ∃ p, client.machine.Reachable p ∧
    p.shared.joined 0 = some .panicked ∧ .returned (.ok ()) ∈ p.threads ∧ ¬ Agreed p := by
  have hrun : (client.machine.run client.machine.start
      (panickedTeardown ++ List.replicate 4 (Turn.run 1 Choice.go))).map
      (fun p ↦ (p.shared.joined 0, decide (.returned (.ok ()) ∈ p.threads))) =
      some (some .panicked, true) := by decide +kernel
  obtain ⟨p, hp, hfacts⟩ := Option.map_eq_some_iff.mp hrun
  obtain ⟨hjoined, hmem⟩ : p.shared.joined 0 = some .panicked ∧
      Thread.returned (.ok ()) ∈ p.threads := by simpa using hfacts
  refine ⟨p, Machine.Reachable.of_run .start hp, hjoined, hmem, fun hagreed ↦ ?_⟩
  obtain ⟨result, hresult, hverdict⟩ := hagreed.2 _ hmem
  rw [hjoined] at hresult
  obtain rfl := Option.some.inj hresult
  cases hverdict

end MsgTrans.Client.Shutdown
