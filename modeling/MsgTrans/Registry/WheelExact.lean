import MsgTrans.Registry.Wheel

/-!
# Request registry: the timeout wheel in runs

`scan_timeout_bucket` and `register`, `crates/msgtrans/src/transport/request_registry.rs:487–586,
935–971`, as steps of a run: a scan times out what is due and reschedules the rest in time, a
registration is scheduled in time. Over every run each pending inbound entry is on the wheel and
leaves `Pending` within one tick of its timeout, as long as the tick counter stays below its
largest value.
-/

namespace MsgTrans.Registry

open MsgTrans.Base MsgTrans.Base.Prog MsgTrans.Wire

/-- The actions that change the state of a registration, or an entry other than this key's. -/
def Act.touches (key : RequestKey) : Act → Bool
  | .entriesInsert _ | .tryTransition .. => true
  | .entriesRemove _ key' => decide (key' ≠ key)
  | _ => false

/-- The states of the registrations and the entries of other keys are as before. -/
structure Spares (key : RequestKey) (s s' : State) : Prop where
  cells : s'.cells = s.cells
  entries : ∀ key', key' ≠ key → s'.entries.lookup key' = s.entries.lookup key'

/-- What a scan that read this clock may do: pending inbound entries stay so, or are due and time
out. -/
structure Expires (now : Instant) (s s' : State) : Prop where
  fate : ∀ key entry, s.Pending key entry → s'.Pending key entry ∨
    s'.cells entry.token = some .timedOut ∧ entry.deadlineAt ≤ now
  settled : ∀ token, s.cells token = some .timedOut → s'.cells token = some .timedOut

section Scan

variable {cfg : RegistryConfig} {births : List Birth} {last : Option Instant} {now : Instant}
  {keys : List RequestKey} {key : RequestKey} {entry : RequestEntry} {s s' s'' : State}
  {log : Log Act Act.Resp}

theorem Spares.refl (key : RequestKey) (s : State) : Spares key s s := ⟨rfl, fun _ _ ↦ rfl⟩

theorem Spares.trans (h : Spares key s s') (h' : Spares key s' s'') : Spares key s s'' where
  cells := h'.cells.trans h.cells
  entries key' hkey := (h'.entries key' hkey).trans (h.entries key' hkey)

theorem Act.exec_spares {call choice : Nat} {a : Act} (ha : a.touches key = false) :
    Spares key s (a.exec cfg call choice s).2 := by
  cases a with
  | entriesInsert | tryTransition => cases ha
  | entriesRemove caller key' =>
    have hkey : key' = key := not_not.mp (of_decide_eq_false ha)
    simp only [exec, State.entriesRemove]
    split
    next => exact ⟨rfl, fun key'' hne ↦ AList.lookup_erase_ne (hkey ▸ hne)⟩
    next => exact .refl key s
  | channelDrop channel =>
    simp only [exec, State.channelDrop]
    split <;> exact ⟨rfl, fun _ _ ↦ rfl⟩
  | sessionsOrInsert sid =>
    simp only [exec, State.sessionsOrInsert]
    split <;> exact ⟨rfl, fun _ _ ↦ rfl⟩
  | nextRequestIdFetchUpdate rt =>
    simp only [exec, State.nextRequestIdFetchUpdate]
    split <;> exact ⟨rfl, fun _ _ ↦ rfl⟩
  | _ => exact ⟨rfl, fun _ _ ↦ rfl⟩

theorem solo_spares {call : Nat} {α : Type} {p : Task α} {v : α}
    (h : Solo (Act.exec cfg call) p s log v s') (hp : p.Without (Act.touches key)) :
    Spares key s s' :=
  h.keeps (Spares.refl key) (fun _ _ _ ↦ Spares.trans) (fun _ _ _ ↦ Act.exec_spares) hp

theorem Expires.refl (now : Instant) (s : State) : Expires now s s :=
  ⟨fun _ _ h ↦ .inl h, fun _ h ↦ h⟩

theorem Expires.trans (h : Expires now s s') (h' : Expires now s' s'') : Expires now s s'' where
  fate key entry hp := by
    obtain hp' | ⟨hc, hdue⟩ := h.fate key entry hp
    · exact h'.fate key entry hp'
    · exact .inr ⟨h'.settled _ hc, hdue⟩
  settled token hc := h'.settled token (h.settled token hc)

/-- A step that leaves the entries and their states alone times nothing out. -/
theorem Expires.of_eq (hentries : s'.entries = s.entries) (hcells : s'.cells = s.cells) :
    Expires now s s' where
  fate _ _ hp := .inl ⟨hp.1, hentries ▸ hp.2.1, hcells ▸ hp.2.2⟩
  settled _ hc := hcells ▸ hc

private theorem untouched_removeTerminalEntry {caller : Caller} :
    (removeTerminalEntry caller key).Without (Act.touches key) := by
  refine atMost_act (decide_eq_false (not_not.mpr rfl)) fun _ ↦ ?_
  split
  next => trivial
  next =>
    refine atMost_act rfl fun runtime ↦ ?_
    cases runtime with
    | none => trivial
    | some rt => exact atMost_act rfl fun _ ↦ trivial

private theorem untouched_dropWaiter : (dropWaiter key).Without (Act.touches key) := by
  refine atMost_act rfl fun sender ↦ ?_
  cases sender with
  | none => trivial
  | some channel => exact atMost_act rfl fun _ ↦ trivial

/-- What `mark_timed_out` does to a pending entry that is due. -/
theorem markTimedOut_solo {call : Nat} {v : MarkResult} (hkeyed : s.Keyed)
    (hfound : s.entries.lookup key = some entry) (hcell : s.cells entry.token = some .pending)
    (hdue : entry.deadlineAt ≤ now)
    (h : Solo (Act.exec cfg call) (markTimedOut key) s log v s') :
    Expires now s s' ∧ ∀ entry', ¬s'.Pending key entry' := by
  have hcalm := solo_calm h (without_markTimedOut.imp fun _ ↦ Act.stirs_of_moves)
  obtain ⟨hcells, hentries⟩ : s'.cells = Function.update s.cells entry.token (some .timedOut) ∧
      ∀ key', key' ≠ key → s'.entries.lookup key' = s.entries.lookup key' := by
    simp only [markTimedOut, perform_bind] at h
    obtain ⟨choice, log₁, h₁, -⟩ := h.of_act
    simp only [Act.exec, hfound] at h₁
    obtain ⟨choice₂, log₂, h₂, -⟩ := h₁.of_act
    simp only [Act.exec, State.tryTransition, hcell, if_true] at h₂
    have hspares := solo_spares h₂ <| atMost_act rfl fun _ ↦ atMost_act rfl fun _ ↦
      untouched_removeTerminalEntry.bind fun _ ↦ untouched_dropWaiter.bind fun _ ↦ trivial
    exact ⟨hspares.cells, hspares.entries⟩
  have htimedOut : s'.cells entry.token = some .timedOut := by rw [hcells, Function.update_self]
  have hother : ∀ token, token ≠ entry.token → s'.cells token = s.cells token := fun token hne ↦ by
    rw [hcells, Function.update_of_ne hne]
  refine ⟨⟨fun key' entry' hp ↦ ?_, fun token hc ↦ ?_⟩, fun entry' hp ↦ ?_⟩
  · obtain ⟨hin, hl, hc⟩ := hp
    by_cases hkey : key' = key
    · subst hkey
      obtain rfl := Option.some.inj (hl.symm.trans hfound)
      exact .inr ⟨htimedOut, hdue⟩
    · have htoken : entry'.token ≠ entry.token := by
        intro heq
        have heq := congrArg RequestToken.key heq
        rw [RequestEntry.key_token, RequestEntry.key_token, hkeyed _ _ hl, hkeyed _ _ hfound] at heq
        exact hkey heq
      exact .inl ⟨hin, (hentries key' hkey).trans hl, (hother _ htoken).trans hc⟩
  · have htoken : token ≠ entry.token := by
      rintro rfl
      rw [hcell] at hc
      cases hc
    exact (hother token htoken).trans hc
  · have hp' := hcalm.pending hkeyed hp
    obtain rfl := Option.some.inj (hp'.2.1.symm.trans hfound)
    cases htimedOut.symm.trans hp.2.2

/-- What a scan does at one key: nothing where no registration of it is pending, time it out where
it is due, or schedule it again. -/
inductive Looked (cfg : RegistryConfig) (call : Nat) (now : Instant) (key : RequestKey) (s : State) :
    List (Move RequestKey) → State → Prop where
  | skipped : (∀ entry, ¬s.Pending key entry) → Looked cfg call now key s [] s
  | due {entry : RequestEntry} {log : Log Act Act.Resp} {v : MarkResult} {s' : State} :
      s.entries.lookup key = some entry → s.cells entry.token = some .pending →
      entry.deadlineAt ≤ now → Solo (Act.exec cfg call) (markTimedOut key) s log v s' →
      Looked cfg call now key s [] s'
  | again {entry : RequestEntry} {log : Log Act Act.Resp} {v : Unit} {s' : State} :
      s.entries.lookup key = some entry → s.cells entry.token = some .pending →
      now < entry.deadlineAt →
      Solo (Act.exec cfg call) (scheduleForDeadline cfg key entry.deadlineAt) s log v s' →
      Looked cfg call now key s (movesOf log) s'

/-- A scan looks at its first key and goes on with the others. -/
theorem scanKeys_cons {call n m : Nat}
    (h : Solo (Act.exec cfg call) (scanKeys cfg now (key :: keys) n) s log m s') :
    ∃ n' s₁ moves log', Looked cfg call now key s moves s₁ ∧
      Solo (Act.exec cfg call) (scanKeys cfg now keys n') s₁ log' m s' ∧
      movesOf log = moves ++ movesOf log' := by
  simp only [scanKeys, perform_bind] at h
  obtain ⟨choice, log₁, h₁, rfl⟩ := h.of_act
  clear h
  rw [movesOf_cons rfl]
  simp only [Act.exec] at h₁
  cases hfound : s.entries.lookup key with
  | none =>
    rw [hfound] at h₁
    refine ⟨_, s, [], log₁, .skipped fun entry hp ↦ ?_, h₁, rfl⟩
    cases hfound.symm.trans hp.2.1
  | some entry =>
    rw [hfound] at h₁
    obtain ⟨choice₂, log₂, h₂, rfl⟩ := h₁.of_act
    clear h₁
    rw [movesOf_cons rfl]
    split at h₂
    next hstate =>
      have hstate : (s.cells entry.token).getD .dropped ≠ .pending := hstate
      refine ⟨_, s, [], log₂, .skipped fun entry' hp ↦ hstate ?_, h₂, rfl⟩
      obtain rfl := Option.some.inj (hfound.symm.trans hp.2.1)
      rw [hp.2.2, Option.getD_some]
    next hstate =>
      have hcell : s.cells entry.token = some .pending := by
        have hstate : (s.cells entry.token).getD .dropped = .pending := not_not.mp hstate
        cases hc : s.cells entry.token with
        | none =>
          rw [hc] at hstate
          cases hstate
        | some state =>
          rw [hc, Option.getD_some] at hstate
          rw [hstate]
      split at h₂
      next hdue =>
        obtain ⟨marked, s₁, log₃, log₄, h₃, h₄, rfl⟩ := h₂.of_bind
        refine ⟨_, s₁, [], log₄, .due hfound hcell hdue h₃, h₄, ?_⟩
        rw [movesOf_append, movesOf_eq_nil h₃ without_markTimedOut]
      next hdue =>
        obtain ⟨scheduled, s₁, log₃, log₄, h₃, h₄, rfl⟩ := h₂.of_bind
        exact ⟨_, s₁, _, log₄, .again hfound hcell (not_le.mp hdue) h₃, h₄, movesOf_append _ _⟩

/-- Looking at a key stirs nothing, and times out what is due at most. -/
theorem Looked.calm {call : Nat} {moves : List (Move RequestKey)} (h : Looked cfg call now key s moves s')
    (hkeyed : s.Keyed) :
    Calm s s' ∧ Expires now s s' := by
  cases h with
  | skipped => exact ⟨.refl s, .refl now s⟩
  | due hfound hcell hdue h =>
    exact ⟨solo_calm h (without_markTimedOut.imp fun _ ↦ Act.stirs_of_moves),
      (markTimedOut_solo hkeyed hfound hcell hdue h).1⟩
  | again hfound hcell hdue h =>
    obtain ⟨hcalm, hcells, hentries, -⟩ := scheduleForDeadline_solo h
    exact ⟨hcalm, .of_eq hentries hcells⟩

/-- A scan of drained keys keeps every pending entry listed. -/
theorem scanKeys_solo {call n m : Nat} (h : Solo (Act.exec cfg call) (scanKeys cfg now keys n) s log m s')
    (hs : Sched cfg births last keys s) (hlast : ∀ l ∈ last, l ≤ now) (hnow : now ≤ s.clock)
    (htick : s.currentTick < maxTick) (hbefore : ∀ b ∈ births, b.tick < s.currentTick) :
    Sched cfg births last [] s' ∧ Calm s s' ∧ Expires now s s' := by
  induction keys generalizing s log n with
  | nil =>
    obtain ⟨-, rfl, -⟩ := h.of_ret
    exact ⟨hs, .refl s', .refl now s'⟩
  | cons key keys ih =>
    obtain ⟨n', s₁, moves, log₁, hlooked, hrest, -⟩ := scanKeys_cons h
    obtain ⟨hcalm, hexpires⟩ := hlooked.calm hs.keyed
    have hsched : Sched cfg births last keys s₁ := by
      cases hlooked with
      | skipped hno => exact hs.skip hno
      | due hfound hcell hdue hrun =>
        exact (hs.calm hcalm).skip (markTimedOut_solo hs.keyed hfound hcell hdue hrun).2
      | again hfound hcell hdue hrun =>
        refine hs.schedule htick hrun fun entry' b hb now' hp htimed hnow' ↦ ?_
        obtain rfl := Option.some.inj (hfound.symm.trans hp.2.1)
        exact htimed.target_le (hbefore b hb) hlast (le_trans hnow hnow') hdue
    obtain ⟨hsched', hcalm', hexpires'⟩ := ih hrest hsched (le_trans hnow hcalm.clock)
      (hcalm.tick ▸ htick) (hcalm.tick ▸ hbefore)
    exact ⟨hsched', hcalm.trans hcalm', hexpires.trans hexpires'⟩

/-- The instants the clock readings of a log answered. -/
def readings (log : Log Act Act.Resp) : List Instant :=
  log.filterMap fun
    | ⟨.now, now⟩ => some now
    | _ => none

/-- The registry once a scan has drained its bucket. -/
def State.turned (cfg : RegistryConfig) (s : State) : State :=
  { s with
    currentTick := s.currentTick + 1
    buckets := Function.update s.buckets ((s.currentTick + 1) % cfg.bucketCount) [] }

/-- A scan that has drained its bucket owes the drained keys a look. -/
theorem Sched.turned (hs : Sched cfg births last [] s)
    (hpaced : ∀ l ∈ last, l + cfg.tickDuration ≤ s.clock) :
    Sched cfg births (some s.clock) (s.buckets ((s.currentTick + 1) % cfg.bucketCount))
      (s.turned cfg) where
  keyed := hs.keyed
  listed key entry hp := by
    obtain ⟨b, hb, htimed, hlisted⟩ := hs.listed key entry hp
    refine ⟨b, hb, ⟨htimed.token, htimed.deadline, htimed.created, ?_, fun _ ↦ ?_⟩, ?_⟩
    · exact Nat.le_succ_of_le htimed.tick
    · refine ⟨s.clock, rfl, ?_⟩
      show entry.createdAt + cfg.tickDuration * (s.currentTick + 1 - b.tick - 1) ≤ s.clock
      obtain hlt | heq := lt_or_eq_of_le htimed.tick
      · obtain ⟨l, hl, hbefore⟩ := htimed.paced hlt
        have hcount : s.currentTick + 1 - b.tick - 1 = s.currentTick - b.tick - 1 + 1 := by omega
        calc entry.createdAt + cfg.tickDuration * (s.currentTick + 1 - b.tick - 1)
            = entry.createdAt + cfg.tickDuration * (s.currentTick - b.tick - 1) +
                cfg.tickDuration := by rw [hcount, Nat.mul_add, Nat.mul_one, Nat.add_assoc]
          _ ≤ l + cfg.tickDuration := Nat.add_le_add_right hbefore _
          _ ≤ s.clock := hpaced l hl
      · rw [heq, Nat.add_sub_cancel_left, Nat.sub_self, Nat.mul_zero]
        exact htimed.created
    · obtain hmem | ⟨target, hmem, hlt, hle⟩ := hlisted
      · cases hmem
      · by_cases hbucket : target % cfg.bucketCount = (s.currentTick + 1) % cfg.bucketCount
        · exact .inl (hbucket ▸ hmem)
        · refine .inr ⟨target, ?_, ?_, hle⟩
          · show key ∈ Function.update s.buckets _ [] (target % cfg.bucketCount)
            rwa [Function.update_of_ne hbucket]
          · have hne : target ≠ s.currentTick + 1 := fun heq ↦ hbucket (heq ▸ rfl)
            exact lt_of_le_of_ne hlt hne.symm

/-- What a scan does to the wheel: it begins at the clock of the state and times out what is due
at its first clock reading. -/
structure Rotated (cfg : RegistryConfig) (births : List Birth) (s : State)
    (log : Log Act Act.Resp) (s' : State) : Prop where
  sched : Sched cfg births (some s.clock) [] s'
  tick : s'.currentTick = s.currentTick + 1
  generation : s.nextGeneration ≤ s'.nextGeneration
  fate : ∀ key entry, s.Pending key entry → s'.Pending key entry ∨
    s'.cells entry.token = some .timedOut ∧
      ∃ now ∈ (readings log).head?, entry.deadlineAt ≤ now

theorem scanTimeoutBucket_solo {call n : Nat}
    (h : Solo (Act.exec cfg call) (scanTimeoutBucket cfg) s log n s')
    (hs : Sched cfg births last [] s) (htick : s.currentTick + 1 < maxTick)
    (hpaced : ∀ l ∈ last, l + cfg.tickDuration ≤ s.clock)
    (hborn : ∀ b ∈ births, b.tick ≤ s.currentTick) : Rotated cfg births s log s' := by
  have hnext : (s.currentTick + 1) % 2 ^ 64 = s.currentTick + 1 :=
    Nat.mod_eq_of_lt (lt_trans htick (by decide))
  simp only [scanTimeoutBucket, perform_bind] at h
  obtain ⟨choice, log₁, h₁, rfl⟩ := h.of_act
  obtain ⟨choice₂, log₂, h₂, rfl⟩ := h₁.of_act
  clear h h₁
  simp only [Act.exec, hnext] at h₂ ⊢
  have hturned := hs.turned hpaced
  generalize s.buckets ((s.currentTick + 1) % cfg.bucketCount) = drained at h₂ hturned ⊢
  change Solo _ _ (s.turned cfg) _ _ _ at h₂
  split at h₂
  next hempty =>
    subst hempty
    obtain ⟨-, rfl, -⟩ := h₂.of_ret
    exact ⟨hturned, rfl, le_rfl, fun _ _ hp ↦ .inl hp⟩
  next =>
    obtain ⟨choice₃, log₃, h₃, rfl⟩ := h₂.of_act
    have hcalm : Calm (s.turned cfg) (Act.now.exec cfg call choice₃ (s.turned cfg)).2 :=
      Act.exec_calm rfl
    obtain ⟨hsched, hcalm', hexpires⟩ := scanKeys_solo h₃ (hturned.calm hcalm)
      (fun l hl ↦ Option.mem_some.mp hl ▸ Nat.le_add_right _ _) le_rfl htick
      (fun b hb ↦ Nat.lt_succ_of_le (hborn b hb))
    refine ⟨hsched, (hcalm.trans hcalm').tick, (hcalm.trans hcalm').generation,
      fun key entry hp ↦ ?_⟩
    obtain hp' | ⟨hc, hdue⟩ := hexpires.fate key entry hp
    · exact .inl hp'
    · exact .inr ⟨hc, _, rfl, hdue⟩

end Scan

section Register

variable {cfg : RegistryConfig} {births : List Birth} {last : Option Instant} {call : Nat}
  {key : RequestKey} {entry : RequestEntry} {s s' : State} {log : Log Act Act.Resp}

/-- What `resolve_runtime` answers: a session it names is open. -/
theorem resolveRuntime_solo {v : Option (Option Nat)}
    (h : Solo (Act.exec cfg call) (resolveRuntime key) s log v s') :
    s' = s ∧ ∀ rt, v = some (some rt) → (s.runtimes rt).isOpen = true := by
  simp only [resolveRuntime, perform_bind] at h
  split at h
  next =>
    obtain ⟨rfl, rfl, -⟩ := h.of_ret
    exact ⟨rfl, by rintro rt ⟨⟩⟩
  next sid _ =>
    obtain ⟨choice, log₁, h₁, -⟩ := h.of_act
    simp only [Act.exec] at h₁
    cases hrt : s.sessions.lookup sid with
    | none =>
      rw [hrt] at h₁
      obtain ⟨rfl, rfl, -⟩ := h₁.of_ret
      exact ⟨rfl, by rintro rt ⟨⟩⟩
    | some rt =>
      rw [hrt] at h₁
      obtain ⟨choice₂, log₂, h₂, -⟩ := h₁.of_act
      split at h₂
      next hopen =>
        obtain ⟨rfl, rfl, -⟩ := h₂.of_ret
        refine ⟨rfl, fun rt' heq ↦ ?_⟩
        cases heq
        exact hopen
      next =>
        obtain ⟨rfl, rfl, -⟩ := h₂.of_ret
        exact ⟨rfl, by rintro rt ⟨⟩⟩

/-- A new entry of its time has to be scheduled. -/
theorem Sched.insert (hs : Sched cfg births last [] s) (hvacant : s.entries.lookup entry.key = none)
    (hcreated : entry.createdAt = s.clock) {timeout : Duration}
    (hdeadline : entry.deadlineAt = entry.createdAt + timeout) :
    Sched cfg (⟨entry.token, s.currentTick, timeout⟩ :: births) last [entry.key]
      (s.entriesInsert call entry).2 := by
  simp only [State.entriesInsert, hvacant]
  refine ⟨fun key found hl ↦ hs.keyed.insert entry hl, fun key found hp ↦ ?_⟩
  obtain ⟨hin, hl, hc⟩ := hp
  by_cases hkey : key = entry.key
  · subst hkey
    have hfound : (s.entries.insert entry.key entry).lookup entry.key = some found := hl
    rw [AList.lookup_insert] at hfound
    obtain rfl := Option.some.inj hfound
    refine ⟨_, List.mem_cons_self, ⟨rfl, hdeadline, le_of_eq hcreated, le_rfl, fun hlt ↦ ?_⟩,
      .inl (List.mem_singleton_self _)⟩
    exact absurd hlt (lt_irrefl _)
  · have hl' : s.entries.lookup key = some found := (AList.lookup_insert_ne hkey).symm.trans hl
    have htoken : found.token ≠ entry.token := by
      intro heq
      have heq := congrArg RequestToken.key heq
      rw [RequestEntry.key_token, RequestEntry.key_token, hs.keyed _ _ hl'] at heq
      exact hkey heq
    obtain ⟨b, hb, htimed, hlisted⟩ := hs.listed key found
      ⟨hin, hl', (Function.update_of_ne htoken _ _).symm.trans hc⟩
    exact ⟨b, List.mem_cons_of_mem _ hb, ⟨htimed.token, htimed.deadline, htimed.created,
      htimed.tick, htimed.paced⟩,
      hlisted.imp (fun hnil ↦ absurd hnil List.not_mem_nil) id⟩

/-- What a registration does to the wheel: nothing, or its token is new and its entry is scheduled
in time. -/
inductive Registers (cfg : RegistryConfig) (births : List Birth) (last : Option Instant)
    (timeout : Duration) (generation : Nat) (s s' : State) : Option RequestToken → Prop where
  | refused : Sched cfg births last [] s' →
      Registers cfg births last timeout generation s s' none
  | accepted {token : RequestToken} : token.generation = generation →
      generation < s'.nextGeneration →
      Sched cfg (⟨token, s.currentTick, timeout⟩ :: births) last [] s' →
      Registers cfg births last timeout generation s s' (some token)

/-- What the end of an accepted registration does. -/
theorem acceptRegistration_solo {v : Option RequestToken}
    (h : Solo (Act.exec cfg call) (acceptRegistration cfg entry true) s log v s') :
    v = some entry.token ∧
      Solo (Act.exec cfg call) (scheduleForDeadline cfg entry.key entry.deadlineAt) s log () s' := by
  obtain ⟨scheduled, s₁, log₁, log₂, h₁, h₂, hlog⟩ := h.of_bind
  obtain ⟨rfl, rfl, rfl⟩ := h₂.of_ret
  rw [List.append_nil] at hlog
  exact ⟨rfl, hlog ▸ h₁⟩

/-- A registration whose session is open ends with its schedule. -/
theorem indexRegistration_solo {runtime : Option Nat} {v : Option RequestToken}
    (h : Solo (Act.exec cfg call) (indexRegistration cfg entry true runtime) s log v s')
    (hopen : ∀ rt, runtime = some rt → (s.runtimes rt).isOpen = true) :
    v = some entry.token ∧ ∃ s₁ log₁, Calm s s₁ ∧ s₁.entries = s.entries ∧ s₁.cells = s.cells ∧
      movesOf log = movesOf log₁ ∧
      Solo (Act.exec cfg call) (scheduleForDeadline cfg entry.key entry.deadlineAt) s₁ log₁ () s' := by
  cases runtime with
  | none =>
    obtain ⟨hv, hrun⟩ := acceptRegistration_solo h
    exact ⟨hv, s, log, .refl s, rfl, rfl, rfl, hrun⟩
  | some rt =>
    simp only [indexRegistration, perform_bind] at h
    obtain ⟨choice, log₁, h₁, rfl⟩ := h.of_act
    obtain ⟨choice₂, log₂, h₂, rfl⟩ := h₁.of_act
    clear h h₁
    have hcalm : Calm s ((Act.requestsInsert rt entry.token).exec cfg call choice s).2 :=
      Act.exec_calm rfl
    split at h₂
    next =>
      obtain ⟨hv, hrun⟩ := acceptRegistration_solo h₂
      refine ⟨hv, _, log₂, hcalm, rfl, rfl, ?_, hrun⟩
      rw [movesOf_cons rfl, movesOf_cons rfl]
    next hclosed =>
      refine absurd ?_ hclosed
      show (Function.update s.runtimes rt { s.runtimes rt with requests := _ } rt).isOpen = true
      rw [Function.update_self]
      exact hopen rt rfl

/-- How a registration ends: refused, or with the insertion and the schedule of a new entry. -/
inductive Registered (cfg : RegistryConfig) (call : Nat) (key : RequestKey) (timeout : Duration)
    (s : State) : List (Move RequestKey) → Option RequestToken → State → Prop where
  | refused {s' : State} : Calm s s' → Registered cfg call key timeout s [] none s'
  | accepted {entry : RequestEntry} {s₁ s₂ s' : State} {log : Log Act Act.Resp} :
      entry.key = key → entry.generation = s.nextGeneration → Calm s s₁ →
      s.nextGeneration < s₁.nextGeneration → s₁.entries.lookup entry.key = none →
      entry.createdAt = s₁.clock → entry.deadlineAt = entry.createdAt + timeout →
      Calm (s₁.entriesInsert call entry).2 s₂ →
      s₂.entries = (s₁.entriesInsert call entry).2.entries →
      s₂.cells = (s₁.entriesInsert call entry).2.cells →
      Solo (Act.exec cfg call) (scheduleForDeadline cfg entry.key entry.deadlineAt) s₂ log () s' →
      Registered cfg call key timeout s (movesOf log) (some entry.token) s'

/-- The insertion of a new entry and what follows it. -/
private theorem insertRegistration_solo {runtime : Option Nat} {timeout : Duration}
    {bizType : UInt8} {v : Option RequestToken} {s₁ : State} (hcalm : Calm s s₁)
    (hlt : s.nextGeneration < s₁.nextGeneration)
    (hopen : ∀ rt, runtime = some rt → (s₁.runtimes rt).isOpen = true)
    (hentry : entry = ⟨key, bizType, s₁.clock, s₁.clock + timeout, s.nextGeneration⟩)
    (h : Solo (Act.exec cfg call) (.act (.entriesInsert entry) fun vacant ↦
      if vacant then indexRegistration cfg entry true runtime
      else .act .pendingFetchSub fun _ ↦ .ret none) s₁ log v s') :
    Registered cfg call key timeout s (movesOf log) v s' := by
  obtain ⟨choice, log₁, h₁, rfl⟩ := h.of_act
  clear h
  rw [movesOf_cons rfl]
  simp only [Act.exec, State.entriesInsert] at h₁
  cases hfound : s₁.entries.lookup entry.key with
  | some found =>
    simp only [hfound] at h₁
    obtain ⟨choice₂, log₂, h₂, rfl⟩ := h₁.of_act
    obtain ⟨rfl, rfl, rfl⟩ := h₂.of_ret
    exact .refused (hcalm.trans (Act.exec_calm (a := .pendingFetchSub) rfl))
  | none =>
    simp only [hfound] at h₁
    obtain ⟨rfl, s₂, log₂, hcalm', hentries, hcells, hmoves, hrun⟩ :=
      indexRegistration_solo h₁ hopen
    rw [hmoves]
    refine .accepted ?_ ?_ hcalm hlt hfound ?_ ?_ ?_ ?_ ?_ hrun
    · rw [hentry]
    · rw [hentry]
    · rw [hentry]
    · rw [hentry]
    all_goals rwa [State.entriesInsert, hfound]

/-- How `register` ends. -/
theorem register_cases {requestId : UInt32} {sid : Option SessionId} {bizType : UInt8}
    {timeout : Duration} {v : Option RequestToken}
    (h : Solo (Act.exec cfg call) (register cfg requestId sid bizType timeout) s log v s') :
    Registered cfg call (.inbound sid requestId) timeout s (movesOf log) v s' := by
  simp only [register, registerImpl] at h
  obtain ⟨resolved, s₁, log₁, log₂, h₁, h₂, rfl⟩ := h.of_bind
  rw [movesOf_append, movesOf_eq_nil h₁ without_resolveRuntime, List.nil_append]
  obtain ⟨rfl, hopen⟩ := resolveRuntime_solo h₁
  clear h h₁
  cases resolved with
  | none =>
    obtain ⟨rfl, rfl, rfl⟩ := h₂.of_ret
    exact .refused (.refl s')
  | some runtime =>
    simp only [perform_bind] at h₂
    obtain ⟨choice, log₃, h₃, rfl⟩ := h₂.of_act
    obtain ⟨choice₄, log₄, h₄, rfl⟩ := h₃.of_act
    obtain ⟨choice₅, log₅, h₅, rfl⟩ := h₄.of_act
    clear h₂ h₃ h₄
    rw [movesOf_cons rfl, movesOf_cons rfl, movesOf_cons rfl]
    have hcalm : Calm s₁ (Act.pendingFetchAdd.exec cfg call choice₅
        (Act.nextGenerationFetchAdd.exec cfg call choice₄
          (Act.now.exec cfg call choice s₁).2).2).2 :=
      (Act.exec_calm rfl).trans ((Act.exec_calm rfl).trans (Act.exec_calm rfl))
    exact insertRegistration_solo hcalm (Nat.lt_succ_self _) (fun rt heq ↦ hopen rt (heq ▸ rfl)) rfl h₅

/-- What `register` does. -/
theorem register_solo {requestId : UInt32} {sid : Option SessionId} {bizType : UInt8}
    {timeout : Duration} {v : Option RequestToken}
    (h : Solo (Act.exec cfg call) (register cfg requestId sid bizType timeout) s log v s')
    (hs : Sched cfg births last [] s) (htick : s.currentTick < maxTick)
    (hborn : ∀ b ∈ births, b.token.generation < s.nextGeneration) :
    Registers cfg births last timeout s.nextGeneration s s' v ∧ s'.currentTick = s.currentTick ∧
      s.nextGeneration ≤ s'.nextGeneration := by
  have hcases := register_cases h
  generalize movesOf log = moves at hcases
  cases hcases with
  | refused hcalm => exact ⟨.refused (hs.calm hcalm), hcalm.tick, hcalm.generation⟩
  | @accepted entry s₁ s₂ _ log hkey hgeneration hcalm hlt hvacant hcreated hdeadline hcalm'
      hentries hcells hrun =>
    have hinsert : Sched cfg (⟨entry.token, s₁.currentTick, timeout⟩ :: births) last [entry.key]
        (s₁.entriesInsert call entry).2 := (hs.calm hcalm).insert hvacant hcreated hdeadline
    have hscheduled := (scheduleForDeadline_solo hrun).1
    have htick₂ : s₂.currentTick = s.currentTick := by
      rw [hcalm'.tick, State.entriesInsert, hvacant, ← hcalm.tick]
      rfl
    have hclock₂ : entry.createdAt ≤ s₂.clock := by
      refine le_trans (le_of_eq hcreated) (le_trans ?_ hcalm'.clock)
      rw [State.entriesInsert, hvacant]
      exact le_rfl
    have hnext : s.nextGeneration < s'.nextGeneration := by
      refine lt_of_lt_of_le hlt (le_trans ?_ (le_trans hcalm'.generation hscheduled.generation))
      rw [State.entriesInsert, hvacant]
      exact le_rfl
    have hsched := (hinsert.calm hcalm').schedule (htick₂ ▸ htick) hrun
      fun found b hb now hp htimed hnow ↦ by
        have hfound : found = entry := by
          have hl := hp.2.1
          rw [hentries, State.entriesInsert, hvacant] at hl
          exact Option.some.inj (hl.symm.trans (AList.lookup_insert _))
        obtain rfl | hb := List.mem_cons.mp hb
        · rw [htick₂, ← hcalm.tick, hdeadline]
          exact target_le_of_register (le_trans hclock₂ hnow)
        · have hold := hborn b hb
          rw [htimed.token, hfound, RequestEntry.generation_token, hgeneration] at hold
          exact absurd hold (lt_irrefl _)
    exact ⟨.accepted hgeneration hnext (hcalm.tick ▸ hsched), hscheduled.tick.trans htick₂,
      le_of_lt hnext⟩

end Register

namespace Wheel

variable {cfg : RegistryConfig}

/-- What holds between operations. -/
structure Inv (cfg : RegistryConfig) (w : Wheel) : Prop where
  sched : Sched cfg w.births w.lastScan [] w.registry
  scans : w.registry.currentTick = w.scans
  range : w.registry.currentTick < maxTick
  tick : ∀ b ∈ w.births, b.tick ≤ w.registry.currentTick
  generation : ∀ b ∈ w.births, b.token.generation < w.registry.nextGeneration
  distinct : ∀ b ∈ w.births, ∀ b' ∈ w.births, b.token = b'.token → b = b'

theorem Inv.start : Inv cfg (machine cfg).start where
  sched := ⟨fun _ _ h ↦ absurd h (by simp [machine, State.new, AList.lookup_empty]),
    fun _ _ h ↦ absurd h.2.1 (by simp [machine, State.new, AList.lookup_empty])⟩
  scans := rfl
  range := Nat.zero_lt_of_lt (by decide : 1 < maxTick)
  tick := nofun
  generation := nofun
  distinct := nofun

theorem calm_begins (w : Wheel) (turn : Turn) : Calm w.registry (w.begins turn) :=
  ⟨rfl, Nat.le_add_right _ _, fun _ ↦ List.Subset.refl _, fun _ _ _ h ↦ h, fun _ _ h ↦ h, le_rfl,
    id⟩

/-- An operation is made alone. -/
theorem solo_ran (cfg : RegistryConfig) (w : Wheel) (turn : Turn) :
    Solo (Act.exec cfg 0) (turn.op.body cfg) (w.begins turn) (w.ran cfg turn).1
      (w.ran cfg turn).2.1 (w.ran cfg turn).2.2 := solo_spec _ _ _

theorem bornOf_eq_nil {scans : Nat} {o : Op} {v : Outcome}
    (h : ∀ id sid bizType timeout, o ≠ .register id sid bizType timeout) :
    bornOf scans o v = [] := by
  unfold bornOf
  split
  next => exact absurd rfl (h _ _ _ _)
  next => rfl

section Step

variable {w w' : Wheel} {turn : Turn}

/-- What a scan does. -/
theorem step_scan (hi : Inv cfg w) (hrange : w.InRange turn) (hop : turn.op = .scanTimeoutBucket)
    (h : (machine cfg).step w turn = some w') :
    Rotated cfg w.births (w.begins turn) (w.ran cfg turn).1 w'.registry ∧
      w'.lastScan = some (w.begins turn).clock ∧ w'.births = w.births ∧ w'.scans = w.scans + 1 := by
  have hborn : bornOf w.scans turn.op (w.ran cfg turn).2.1 = [] :=
    bornOf_eq_nil (by rw [hop]; nofun)
  simp only [machine, if_pos hop, hborn, List.nil_append] at h
  split at h
  next hmay =>
    cases h
    refine ⟨?_, rfl, rfl, rfl⟩
    have hsolo := solo_ran cfg w turn
    generalize w.ran cfg turn = after at hsolo ⊢
    rw [hop] at hsolo
    obtain ⟨n, s₁, log₁, log₂, h₁, h₂, hlog⟩ := hsolo.of_bind
    obtain ⟨-, rfl, rfl⟩ := h₂.of_ret
    rw [hlog, List.append_nil]
    exact scanTimeoutBucket_solo h₁ (hi.sched.calm (calm_begins w turn)) (hi.scans ▸ hrange hop) hmay
      hi.tick
  next => cases h

/-- What a registration does. -/
theorem step_register (hi : Inv cfg w) {id : UInt32} {sid : Option SessionId} {bizType : UInt8}
    {timeout : Duration} (hop : turn.op = .register id sid bizType timeout)
    (h : (machine cfg).step w turn = some w') : ∃ v,
      Registers cfg w.births w.lastScan timeout w.registry.nextGeneration (w.begins turn)
        w'.registry v ∧
      w'.registry.currentTick = w.registry.currentTick ∧
      w.registry.nextGeneration ≤ w'.registry.nextGeneration ∧ w'.lastScan = w.lastScan ∧
      w'.scans = w.scans ∧ w'.births = (v.map fun token ↦ ⟨token, w.scans, timeout⟩).toList ++ w.births := by
  simp only [machine, hop, reduceCtorEq, if_false, Option.some.injEq] at h
  subst h
  have hsolo := solo_ran cfg w turn
  generalize w.ran cfg turn = after at hsolo ⊢
  rw [hop] at hsolo
  obtain ⟨v, s₁, log₁, log₂, h₁, h₂, -⟩ := hsolo.of_bind
  obtain ⟨hv, rfl, -⟩ := h₂.of_ret
  obtain ⟨hregisters, htick, hgeneration⟩ :=
    register_solo h₁ (hi.sched.calm (calm_begins w turn)) hi.range hi.generation
  refine ⟨v, hregisters, htick, hgeneration, rfl, rfl, ?_⟩
  rw [hv]
  cases v <;> rfl

/-- What every other operation does. -/
theorem step_other (hregister : ∀ id sid bizType timeout, turn.op ≠ .register id sid bizType timeout)
    (hscan : turn.op ≠ .scanTimeoutBucket) (h : (machine cfg).step w turn = some w') :
    Calm w.registry w'.registry ∧ w'.lastScan = w.lastScan ∧ w'.births = w.births ∧
      w'.scans = w.scans := by
  simp only [machine, if_neg hscan, bornOf_eq_nil hregister, Option.some.injEq] at h
  subst h
  exact ⟨(calm_begins w turn).trans (solo_calm (solo_spec _ _ _)
    ((Op.body_without hregister hscan).imp fun _ ↦ Act.stirs_of_moves)),
    rfl, rfl, rfl⟩

/-- A step that accepts no registration. -/
theorem Inv.keep (hi : Inv cfg w) (hbirths : w'.births = w.births)
    (hsched : Sched cfg w.births w'.lastScan [] w'.registry)
    (hscans : w'.registry.currentTick = w'.scans) (hrange : w'.registry.currentTick < maxTick)
    (htick : w.registry.currentTick ≤ w'.registry.currentTick)
    (hgeneration : w.registry.nextGeneration ≤ w'.registry.nextGeneration) : Inv cfg w' := by
  refine ⟨hbirths ▸ hsched, hscans, hrange, ?_, ?_, ?_⟩ <;> rw [hbirths]
  · exact fun b hb ↦ le_trans (hi.tick b hb) htick
  · exact fun b hb ↦ lt_of_lt_of_le (hi.generation b hb) hgeneration
  · exact hi.distinct

/-- A step that accepts one, under a new token. -/
theorem Inv.birth (hi : Inv cfg w) {b : Birth} (hbirths : w'.births = b :: w.births)
    (hsched : Sched cfg (b :: w.births) w'.lastScan [] w'.registry)
    (htick : w'.registry.currentTick = w.registry.currentTick) (hscans : w'.scans = w.scans)
    (hb : b.tick = w.registry.currentTick)
    (hnew : b.token.generation = w.registry.nextGeneration)
    (hgeneration : w.registry.nextGeneration < w'.registry.nextGeneration) : Inv cfg w' := by
  have hother : ∀ b' ∈ w.births, b'.token ≠ b.token := by
    intro b' hb' heq
    have hlt := hi.generation b' hb'
    rw [heq, hnew] at hlt
    exact absurd hlt (lt_irrefl _)
  refine ⟨hbirths ▸ hsched, htick.trans (hi.scans.trans hscans.symm), htick ▸ hi.range, ?_, ?_, ?_⟩ <;> rw [hbirths]
  · rintro b' (_ | ⟨_, hb'⟩)
    · exact le_of_eq (hb.trans htick.symm)
    · exact htick ▸ hi.tick b' hb'
  · rintro b' (_ | ⟨_, hb'⟩)
    · exact hnew ▸ hgeneration
    · exact lt_trans (hi.generation b' hb') hgeneration
  · rintro b₁ (_ | ⟨_, hb₁⟩) b₂ (_ | ⟨_, hb₂⟩) heq
    · rfl
    · exact absurd heq.symm (hother b₂ hb₂)
    · exact absurd heq (hother b₁ hb₁)
    · exact hi.distinct b₁ hb₁ b₂ hb₂ heq

theorem Inv.step (hi : Inv cfg w) (hrange : w.InRange turn)
    (h : (machine cfg).step w turn = some w') : Inv cfg w' := by
  by_cases hscan : turn.op = .scanTimeoutBucket
  · obtain ⟨hrotated, hlast, hbirths, hscans⟩ := step_scan hi hrange hscan h
    have htick : w'.registry.currentTick = w.registry.currentTick + 1 := hrotated.tick
    have hbound : w.registry.currentTick + 1 < maxTick := hi.scans ▸ hrange hscan
    exact hi.keep hbirths (hlast ▸ hrotated.sched) (by rw [htick, hscans, hi.scans])
      (htick ▸ hbound) (htick ▸ Nat.le_succ _) hrotated.generation
  · by_cases hregister : ∃ id sid bizType timeout, turn.op = .register id sid bizType timeout
    · obtain ⟨id, sid, bizType, timeout, hop⟩ := hregister
      obtain ⟨v, hregisters, htick, hgeneration, hlast, hscans, hbirths⟩ := step_register hi hop h
      have hcount : w'.registry.currentTick = w'.scans := by rw [htick, hscans, hi.scans]
      cases hregisters with
      | refused hsched =>
        exact hi.keep hbirths (hlast ▸ hsched) hcount (htick ▸ hi.range) (le_of_eq htick.symm)
          hgeneration
      | accepted hnew hlt hsched =>
        refine hi.birth hbirths ?_ htick hscans hi.scans.symm hnew hlt
        rw [hlast, ← hi.scans]
        exact hsched
    · push Not at hregister
      obtain ⟨hcalm, hlast, hbirths, hscans⟩ := step_other hregister hscan h
      exact hi.keep hbirths (hlast ▸ hi.sched.calm hcalm) (by rw [hcalm.tick, hscans, hi.scans])
        (hcalm.tick ▸ hi.range) (le_of_eq hcalm.tick.symm) hcalm.generation

end Step

/-- In every run whose scans stay in range. -/
theorem inv_of_reachable {w : Wheel} (h : (machine cfg).ReachableBy InRange w) : Inv cfg w :=
  h.invariant Inv.start fun _ _ _ hi hrange hstep ↦ hi.step hrange hstep

/-- The wheel is exact within one tick: every pending inbound entry is in a bucket, a scan leaves
it alone or finds it due, and it is pending for no more scans than its timeout has ticks. -/
structure Exact (cfg : RegistryConfig) (w : Wheel) : Prop where
  listed : ∀ key entry, w.registry.Pending key entry →
    ∃ i < cfg.bucketCount, key ∈ w.registry.buckets i
  scan : ∀ turn w', turn.op = .scanTimeoutBucket → w.InRange turn →
    (machine cfg).step w turn = some w' → ∀ key entry, w.registry.Pending key entry →
      w'.registry.Pending key entry ∨ w'.registry.cells entry.token = some .timedOut ∧
        ∃ now ∈ (readings (w.ran cfg turn).1).head?, entry.deadlineAt ≤ now
  born : ∀ key entry, w.registry.Pending key entry →
    ∃ b ∈ w.births, b.token = entry.token ∧ entry.deadlineAt = entry.createdAt + b.timeout
  late : ∀ b ∈ w.births, ∀ key entry, w.registry.Pending key entry → b.token = entry.token →
    w.scans ≤ b.tick + cfg.ticks b.timeout

/-- In every run of fewer than 2^64 − 1 scans, the wheel is exact. -/
theorem exact_of_inRange {cfg : RegistryConfig} {w : Wheel}
    (h : (machine cfg).ReachableBy InRange w) : Exact cfg w where
  listed key entry hp := by
    obtain ⟨b, -, -, hlisted⟩ := (inv_of_reachable h).sched.listed key entry hp
    obtain hmem | ⟨target, hmem, -⟩ := hlisted
    · cases hmem
    · exact ⟨target % cfg.bucketCount, Nat.mod_lt _ cfg.bucketCount_pos, hmem⟩
  scan turn w' hop hrange hstep key entry hp :=
    (step_scan (inv_of_reachable h) hrange hop hstep).1.fate key entry hp
  born key entry hp := by
    obtain ⟨b, hb, htimed, -⟩ := (inv_of_reachable h).sched.listed key entry hp
    exact ⟨b, hb, htimed.token, htimed.deadline⟩
  late b hb key entry hp htoken := by
    have hi := inv_of_reachable h
    obtain ⟨b', hb', htimed, hlisted⟩ := hi.sched.listed key entry hp
    obtain rfl := hi.distinct b' hb' b hb (htimed.token.trans htoken.symm)
    obtain hmem | ⟨target, -, hlt, hle⟩ := hlisted
    · cases hmem
    · rw [← hi.scans]
      exact Nat.le_of_lt_succ (lt_of_lt_of_le hlt hle)

/-- The registry with its default wheel. -/
def defaultConfig : RegistryConfig :=
  .newWithTiming defaultTimeoutBucketCount defaultTimeoutTick

/-- A scan one tick after the last operation. -/
def nextScan : Turn := ⟨defaultTimeoutTick, .scanTimeoutBucket, []⟩

/-- An inbound request without a session, to be answered within so long. -/
def request (timeout : Duration) : Turn := ⟨0, .register 1 none 0 timeout, []⟩

/-- A request of three quarters of a tick more than a rotation. -/
theorem exact_of_inRange_of_rotation : ∃ w, w.scans = 2 ∧
    w.births = [⟨⟨none, 1, .inbound, 1⟩, 1, 25675000000⟩] ∧ Exact defaultConfig w := by
  have hrun : ((machine defaultConfig).runBy InRange (machine defaultConfig).start
      [nextScan, request 25675000000, nextScan]).map (fun w ↦ (w.scans, w.births)) =
      some (2, [⟨⟨none, 1, .inbound, 1⟩, 1, 25675000000⟩]) := by decide +kernel
  obtain ⟨w, hw, heq⟩ := Option.map_eq_some_iff.mp hrun
  obtain ⟨hscans, hbirths⟩ := Prod.mk.inj heq
  exact ⟨w, hscans, hbirths, exact_of_inRange (.of_runBy .start hw)⟩

/-- A registry after so many scans and nothing else. -/
def idle (n : Nat) : Wheel where
  registry := { State.new with currentTick := n % 2 ^ 64, clock := n * defaultTimeoutTick }
  lastScan := if n = 0 then none else some (n * defaultTimeoutTick)
  births := []
  scans := n

theorem step_idle (n : Nat) : (machine defaultConfig).step (idle n) nextScan = some (idle (n + 1)) := by
  have hmay : (idle n).MayScan defaultConfig nextScan := by
    intro last hlast
    unfold idle at hlast
    split at hlast
    next => cases hlast
    next =>
      cases hlast
      exact le_rfl
  have hbuckets : ∀ i, Function.update State.new.buckets i [] = State.new.buckets :=
    fun i ↦ Function.update_eq_self i State.new.buckets
  have htick : (n % 2 ^ 64 + 1) % 2 ^ 64 = (n + 1) % 2 ^ 64 := Nat.mod_add_mod n (2 ^ 64) 1
  have hclock : n * defaultTimeoutTick + nextScan.pause = (n + 1) * defaultTimeoutTick :=
    (Nat.succ_mul n defaultTimeoutTick).symm
  have hran : ((idle n).ran defaultConfig nextScan).2 = (.count 0, ({ State.new with
      currentTick := (n % 2 ^ 64 + 1) % 2 ^ 64
      buckets := Function.update State.new.buckets
        ((n % 2 ^ 64 + 1) % 2 ^ 64 % defaultConfig.bucketCount) []
      clock := n * defaultTimeoutTick + nextScan.pause } : State)) := rfl
  rw [hbuckets, htick, hclock] at hran
  have hlast : ((idle n).begins nextScan).clock = (n + 1) * defaultTimeoutTick := hclock
  have hscan : nextScan.op = .scanTimeoutBucket := rfl
  simp only [machine, if_pos hscan, if_pos hmay, hran, hlast]
  rfl

theorem run_idle (n : Nat) : (machine defaultConfig).run (machine defaultConfig).start
    (List.replicate n nextScan) = some (idle n) := by
  induction n with
  | zero => rfl
  | succ n ih =>
    rw [List.replicate_succ', Machine.run_append ih, Machine.run, step_idle, Option.bind_some]
    rfl

/-- A request made when the tick counter has its largest value is still pending two scans later,
past its timeout of one tick. -/
theorem late_past_range : ∃ w, (machine defaultConfig).run (machine defaultConfig).start
      (List.replicate maxTick nextScan ++ [request defaultTimeoutTick, nextScan, nextScan]) = some w ∧
    ∃ b ∈ w.births, ∃ key entry, w.registry.Pending key entry ∧ b.token = entry.token ∧
      b.tick + defaultConfig.ticks b.timeout + 1 ≤ w.scans := by
  rw [Machine.run_append (run_idle maxTick)]
  have hrun : ((machine defaultConfig).run (idle maxTick)
      [request defaultTimeoutTick, nextScan, nextScan]).map (fun w ↦ (w.scans, w.births,
        w.registry.entries.lookup (.inbound none 1), w.registry.cells ⟨none, 1, .inbound, 1⟩)) =
      some (maxTick + 2, [⟨⟨none, 1, .inbound, 1⟩, maxTick, defaultTimeoutTick⟩],
        some ⟨.inbound none 1, 0, maxTick * defaultTimeoutTick,
          maxTick * defaultTimeoutTick + defaultTimeoutTick, 1⟩, some .pending) := by
    decide +kernel
  obtain ⟨w, hw, heq⟩ := Option.map_eq_some_iff.mp hrun
  obtain ⟨hscans, hbirths, hentry, hcell⟩ : w.scans = _ ∧ w.births = _ ∧
      w.registry.entries.lookup _ = _ ∧ w.registry.cells _ = _ := by
    simpa only [Prod.mk.injEq] using heq
  refine ⟨w, hw, _, hbirths ▸ List.mem_singleton_self _, _, _, ⟨rfl, hentry, hcell⟩, rfl, ?_⟩
  rw [hscans]
  decide +kernel

end Wheel

end MsgTrans.Registry
