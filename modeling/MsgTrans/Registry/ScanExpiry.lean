import MsgTrans.Base.Watch
import MsgTrans.Registry.Runs

/-!
# Request registry: what a timeout scan expires

`scan_timeout_bucket`, `crates/msgtrans/src/transport/request_registry.rs:935–971`, decides on the
registration it looked up and then acts on the key, which it looks up once more. Between the two a
key may come to name another registration. A watch over the registry's calls keeps what a scan read
and decided; as long as no entry is inserted under the key of an open decision, a scan expires only
registrations that it found due itself.
-/

namespace MsgTrans.Registry

open MsgTrans.Base MsgTrans.Wire

/-- What is seen of a call: the first clock reading, the answer of its last lookup, the
registration it found pending and due since that lookup, the one it had found so before the lookup
and under its key, all it found so, and the entries it inserted. -/
structure ScanView where
  reading : Option Instant := none
  looked : Option RequestEntry := none
  due : Option RequestEntry := none
  decided : Option RequestEntry := none
  found : List RequestEntry := []
  inserted : List RequestEntry := []

namespace ScanView

/-- The state of a registration was read: the last one looked up, pending, and its deadline not
past the clock reading. -/
def check (v : ScanView) (token : RequestToken) (state : RequestState) : ScanView :=
  match v.looked, v.reading with
  | some entry, some now =>
    if entry.token = token ∧ state = .pending ∧ entry.deadlineAt ≤ now then
      { v with due := some entry, found := entry :: v.found }
    else v
  | _, _ => v

/-- The view after an answered action. -/
def see (v : ScanView) : (a : Act) → a.Resp → ScanView
  | .now, i => { v with reading := some (v.reading.getD i) }
  | .entriesGet key, found =>
    { v with looked := found, due := none, decided := v.due.filter fun due ↦ due.key = key }
  | .stateLoad token, state => v.check token state
  | .entriesInsert entry, true => { v with inserted := entry :: v.inserted }
  | _, _ => v

end ScanView

/-- The watch over the registry's calls. -/
def scanWatch : Watch Act Act.Resp ScanView where
  init := {}
  see := ScanView.see

/-- The registry, its callers and what is seen of them. -/
def watchedSystem (cfg : RegistryConfig) : System Act Act.Resp (State × List ScanView) Op Outcome :=
  (system cfg).watched scanWatch

/-- The entries that were ever inserted. -/
def insertedEntries (vs : List ScanView) : List RequestEntry := vs.flatMap ScanView.inserted

/-- The action inserts no entry under the key of a registration that some call found pending and due
and did not look up again yet. -/
def Act.Fenced (vs : List ScanView) : Act → Prop
  | .entriesInsert entry => ∀ v ∈ vs, ∀ due ∈ v.due, due.key ≠ entry.key
  | _ => True

instance (vs : List ScanView) (a : Act) : Decidable (a.Fenced vs) :=
  match a with
  | .entriesInsert entry =>
    inferInstanceAs (Decidable (∀ v ∈ vs, ∀ due ∈ v.due, due.key ≠ entry.key))
  | .now | .nextGenerationFetchAdd | .pendingFetchAdd | .pendingFetchSub | .counterFetchAdd ..
  | .entriesGet _ | .entriesRemove .. | .entriesShard _ | .stateLoad _ | .tryTransition ..
  | .waitersInsert .. | .waitersRemove _ | .channelSend .. | .channelDrop _ | .sessionsOrInsert _
  | .sessionsGet _ | .sessionsRemove _ | .sessionsShard _ | .runtimeIsOpen _
  | .runtimeBeginClose _ | .requestsInsert .. | .requestsRemove .. | .requestsShard ..
  | .requestsClear _ | .nextRequestIdFetchUpdate _ | .nextIdFetchAdd | .currentTickFetchAdd
  | .currentTickLoad | .bucketSwap _ | .bucketPush .. => isTrue trivial

/-- The environment in which any call may be made at any time, and no entry is inserted under a key
between a scan's decision on it and the scan's next lookup of it. -/
def fencedScans : System.Env Act Act.Resp (State × List ScanView) Op Outcome where
  mayStart := fun _ _ ↦ True
  mayAct := fun a s ↦ a.Fenced s.2

instance (c : Config Act Act.Resp (State × List ScanView) Op Outcome) (o : Op) :
    Decidable (fencedScans.mayStart c o) := inferInstanceAs (Decidable True)

instance (a : Act) (s : State × List ScanView) : Decidable (fencedScans.mayAct a s) :=
  inferInstanceAs (Decidable (a.Fenced s.2))

/-- The environment in which any call may be made at any time. -/
def anyScans : System.Env Act Act.Resp (State × List ScanView) Op Outcome where
  mayStart := fun _ _ ↦ True
  mayAct := fun _ _ ↦ True

instance (c : Config Act Act.Resp (State × List ScanView) Op Outcome) (o : Op) :
    Decidable (anyScans.mayStart c o) := inferInstanceAs (Decidable True)

instance (a : Act) (s : State × List ScanView) : Decidable (anyScans.mayAct a s) :=
  inferInstanceAs (Decidable True)

/-- Whatever a scan expired it had found pending and due itself, and every registration under that
token has a deadline that is not past the scan's clock reading. -/
def ExpiresInTime (c : Config Act Act.Resp (State × List ScanView) Op Outcome) : Prop :=
  ∀ t call token, c.calls[t]? = some call → call.op = .scanTimeoutBucket →
    .transition t .key token .pending .timedOut ∈ c.shared.1.history →
    ∃ now, (scanWatch.view c.shared.2 t).reading = some now ∧
      (∃ entry ∈ (scanWatch.view c.shared.2 t).found, entry.token = token) ∧
      ∀ entry ∈ insertedEntries c.shared.2, entry.token = token → entry.deadlineAt ≤ now

/-- An entry is found under its own key. -/
def Act.Possible : (a : Act) → a.Resp → Prop
  | .entriesGet key, some entry => entry.key = key
  | _, _ => True

/-- What a scan may do: it expires only what it looked up after a decision on that key. -/
def scanOk (v : ScanView) : Act → Prop
  | .tryTransition .key token .pending .timedOut =>
    ∃ due entry, v.decided = some due ∧ v.looked = some entry ∧ entry.token = token
  | _ => True

/-- What a call may do; only scans are restricted. -/
def Op.Ok : Op → ScanView → Act → Prop
  | .scanTimeoutBucket => scanOk
  | _ => fun _ _ ↦ True

section Conforms

variable {cfg : RegistryConfig} {v : ScanView} {now : Instant}

/-- A program conforms as part of a scan. -/
private abbrev Scans {α : Type} (p : Task α) (v : ScanView) (Q : α → ScanView → Prop) : Prop :=
  scanWatch.Conforms Act.Possible scanOk Q p v

private theorem scans_removeTerminalEntry {caller : Caller} {key : RequestKey} :
    Scans (removeTerminalEntry caller key) v fun _ v' ↦ v' = v := by
  refine ⟨trivial, fun _ _ ↦ ?_⟩
  cases hsid : key.sessionId with
  | none => rfl
  | some sid =>
    refine ⟨trivial, fun runtime _ ↦ ?_⟩
    cases runtime with
    | none => rfl
    | some rt => exact ⟨trivial, fun _ _ ↦ rfl⟩

private theorem scans_dropWaiter {key : RequestKey} :
    Scans (dropWaiter key) v fun _ v' ↦ v' = v := by
  refine ⟨trivial, fun sender _ ↦ ?_⟩
  cases sender with
  | none => rfl
  | some channel => exact ⟨trivial, fun _ _ ↦ rfl⟩

private theorem scans_scheduleForDeadline {key : RequestKey} {deadlineAt : Instant}
    (hread : v.reading.isSome = true) :
    Scans (scheduleForDeadline cfg key deadlineAt) v fun _ v' ↦ v' = v := by
  refine ⟨trivial, fun i _ ↦ ⟨trivial, fun _ _ ↦ ⟨trivial, fun _ _ ↦ ?_⟩⟩⟩
  obtain ⟨now, hnow⟩ := Option.isSome_iff_exists.mp hread
  show ({ v with reading := some (v.reading.getD i) } : ScanView) = v
  rw [hnow, Option.getD_some, ← hnow]

/-- The expiry looks up the key of the decision and expires what it finds there. -/
private theorem scans_markTimedOut {key : RequestKey} {due : RequestEntry}
    (hdue : v.due = some due) (hkey : due.key = key) :
    Scans (markTimedOut key) v fun _ v' ↦ v'.reading = v.reading ∧ v'.due = none := by
  refine ⟨trivial, fun found _ ↦ ?_⟩
  cases found with
  | none => exact ⟨rfl, rfl⟩
  | some entry =>
    have hdecided : v.due.filter (fun due ↦ due.key = key) = some due := by
      rw [hdue, Option.filter_some_pos (by simpa using hkey)]
    refine ⟨⟨due, entry, hdecided, rfl, rfl⟩, fun won _ ↦ ?_⟩
    cases won with
    | error state => exact ⟨rfl, rfl⟩
    | ok _ =>
      refine ⟨trivial, fun _ _ ↦ ⟨trivial, fun _ _ ↦ ?_⟩⟩
      refine scans_removeTerminalEntry.bind fun _ v' hv' ↦ ?_
      refine scans_dropWaiter.bind fun _ v'' hv'' ↦ ?_
      rw [hv'', hv']
      exact ⟨rfl, rfl⟩

private theorem see_due {key : RequestKey} {entry : RequestEntry} (hnow : v.reading = some now)
    (hdeadline : entry.deadlineAt ≤ now) :
    scanWatch.see (scanWatch.see v (.entriesGet key) (some entry)) (.stateLoad entry.token)
      .pending =
        { v with looked := some entry, due := some entry
                 decided := v.due.filter fun due ↦ due.key = key
                 found := entry :: v.found } := by
  simp [scanWatch, ScanView.see, ScanView.check, hnow, hdeadline]

private theorem see_undue {key : RequestKey} {entry : RequestEntry} {state : RequestState}
    (hnow : v.reading = some now) (hdue : ¬(state = .pending ∧ entry.deadlineAt ≤ now)) :
    scanWatch.see (scanWatch.see v (.entriesGet key) (some entry)) (.stateLoad entry.token) state =
      { v with looked := some entry, due := none
               decided := v.due.filter fun due ↦ due.key = key } := by
  simp only [scanWatch, ScanView.see, ScanView.check, hnow, true_and, if_neg hdue]

/-- The loop begins every round without an open decision. -/
private theorem scans_scanKeys (keys : List RequestKey) (timedOut : Nat)
    (hnow : v.reading = some now) (hdue : v.due = none) :
    Scans (scanKeys cfg now keys timedOut) v fun _ _ ↦ True := by
  induction keys generalizing v timedOut with
  | nil => trivial
  | cons key keys ih =>
    refine ⟨trivial, fun found hfound ↦ ?_⟩
    cases found with
    | none => exact ih timedOut hnow rfl
    | some entry =>
      refine ⟨trivial, fun state _ ↦ ?_⟩
      by_cases hdue' : state = .pending ∧ entry.deadlineAt ≤ now
      · obtain ⟨rfl, hdeadline⟩ := hdue'
        rw [see_due hnow hdeadline]
        simp only [Prog.bind_eq, Prog.ret_bind, ne_eq, not_true_eq_false, if_false,
          if_pos hdeadline]
        refine Watch.Conforms.bind (scans_markTimedOut rfl hfound) fun marked v' hv' ↦ ?_
        exact ih _ (hv'.1.trans hnow) hv'.2
      · rw [see_undue hnow hdue']
        simp only [Prog.bind_eq, Prog.ret_bind]
        by_cases hstate : state = .pending
        · rw [if_neg (not_not.mpr hstate), if_neg fun h ↦ hdue' ⟨hstate, h⟩]
          have hread : v.reading.isSome = true := by rw [hnow]; rfl
          refine Watch.Conforms.bind (scans_scheduleForDeadline hread) fun _ v' hv' ↦ ?_
          rw [hv']
          exact ih _ hnow rfl
        · rw [if_pos hstate]
          exact ih _ hnow rfl

/-- Every call conforms from the start. -/
theorem body_conforms (cfg : RegistryConfig) (o : Op) :
    scanWatch.Conforms Act.Possible o.Ok (fun _ _ ↦ True) (o.body cfg) scanWatch.init := by
  cases o with
  | scanTimeoutBucket =>
    have hscan : Scans (scanTimeoutBucket cfg) scanWatch.init fun _ _ ↦ True := by
      refine ⟨trivial, fun tick _ ↦ ⟨trivial, fun drained _ ↦ ?_⟩⟩
      show Scans (if drained = [] then pure 0 else op .now >>= fun now ↦ scanKeys cfg now drained 0)
        scanWatch.init _
      by_cases hdrained : drained = []
      · rw [if_pos hdrained]
        trivial
      · rw [if_neg hdrained]
        exact ⟨trivial, fun now _ ↦ scans_scanKeys drained 0 rfl rfl⟩
    exact hscan.bind fun _ _ _ ↦ trivial
  | _ => exact Watch.conforms_of_free (fun _ _ ↦ trivial) _ _

end Conforms

section Effects

variable {cfg : RegistryConfig} {t choice : Nat} {a : Act} {s : State}

/-- What is found under a key after an operation was found there before it, or the operation
inserted it. -/
theorem lookup_cases {key : RequestKey} {entry : RequestEntry}
    (h : (a.exec cfg t choice s).2.entries.lookup key = some entry) :
    s.entries.lookup key = some entry ∨
      a = .entriesInsert entry ∧ key = entry.key ∧ (s.entriesInsert t entry).1 = true := by
  cases a with
  | entriesInsert e =>
    cases hr : (s.entriesInsert t e).1 with
    | false =>
      rw [Act.exec, entriesInsert_false hr] at h
      exact .inl h
    | true =>
      rw [Act.exec, (entriesInsert_true hr).2] at h
      simp only [State.record] at h
      by_cases heq : key = e.key
      · subst heq
        rw [AList.lookup_insert] at h
        obtain rfl := Option.some.inj h
        exact .inr ⟨rfl, rfl, hr⟩
      · rw [AList.lookup_insert_ne heq] at h
        exact .inl h
  | entriesRemove caller key' =>
    left
    simp only [Act.exec, State.entriesRemove] at h
    split at h
    next =>
      simp only [State.record] at h
      by_cases heq : key = key'
      · subst heq
        rw [AList.lookup_erase] at h
        cases h
      · rwa [AList.lookup_erase_ne heq] at h
    next => exact h
  | tryTransition caller token source target =>
    simp only [Act.exec, State.tryTransition] at h
    repeat' split at h
    all_goals exact .inl h
  | channelDrop channel =>
    simp only [Act.exec, State.channelDrop] at h
    split at h <;> exact .inl h
  | sessionsOrInsert sid =>
    simp only [Act.exec, State.sessionsOrInsert] at h
    split at h <;> exact .inl h
  | nextRequestIdFetchUpdate rt =>
    simp only [Act.exec, State.nextRequestIdFetchUpdate] at h
    split at h <;> exact .inl h
  | _ => exact .inl h

/-- A registration that was ever made has a state for ever. -/
theorem cells_isSome {token : RequestToken} (h : (s.cells token).isSome = true) :
    ((a.exec cfg t choice s).2.cells token).isSome = true := by
  have hupdate : ∀ (u : RequestToken) (state : RequestState),
      (Function.update s.cells u (some state) token).isSome = true := by
    intro u state
    by_cases heq : token = u
    · rw [heq, Function.update_self]
      rfl
    · rwa [Function.update_of_ne heq]
  cases a with
  | entriesInsert entry =>
    simp only [Act.exec, State.entriesInsert]
    split
    next => exact h
    next => exact hupdate _ _
  | entriesRemove caller key =>
    simp only [Act.exec, State.entriesRemove]
    split <;> exact h
  | tryTransition caller u source target =>
    simp only [Act.exec, State.tryTransition]
    repeat' split
    all_goals first | exact h | exact hupdate _ _
  | channelDrop channel =>
    simp only [Act.exec, State.channelDrop]
    split <;> exact h
  | sessionsOrInsert sid =>
    simp only [Act.exec, State.sessionsOrInsert]
    split <;> exact h
  | nextRequestIdFetchUpdate rt =>
    simp only [Act.exec, State.nextRequestIdFetchUpdate]
    split <;> exact h
  | _ => exact h

/-- Only a transition records one. -/
theorem transition_cases {call : Nat} {caller : Caller} {token : RequestToken}
    {source target : RequestState}
    (h : .transition call caller token source target ∈ (a.exec cfg t choice s).2.history) :
    .transition call caller token source target ∈ s.history ∨
      call = t ∧ a = .tryTransition caller token source target := by
  cases a with
  | entriesInsert entry =>
    simp only [Act.exec, State.entriesInsert] at h
    split at h <;> simpa [State.record] using h
  | entriesRemove caller' key =>
    simp only [Act.exec, State.entriesRemove] at h
    split at h <;> simpa [State.record] using h
  | tryTransition caller' token' source' target' =>
    simp only [Act.exec, State.tryTransition] at h
    split at h
    next =>
      split at h
      next =>
        simp only [State.record, List.mem_append, List.mem_singleton, Event.transition.injEq] at h
        obtain h | ⟨rfl, rfl, rfl, rfl, rfl⟩ := h
        · exact .inl h
        · exact .inr ⟨rfl, rfl⟩
      next => exact .inl h
    next => exact .inl h
  | channelDrop channel =>
    simp only [Act.exec, State.channelDrop] at h
    split at h <;> exact .inl h
  | sessionsOrInsert sid =>
    simp only [Act.exec, State.sessionsOrInsert] at h
    split at h <;> simpa [State.record] using h
  | nextRequestIdFetchUpdate rt =>
    simp only [Act.exec, State.nextRequestIdFetchUpdate] at h
    split at h <;> simpa [State.record, State.setRuntime] using h
  | channelSend | sessionsRemove | requestsInsert =>
    left
    simpa [Act.exec, State.channelSend, State.record, State.setRuntime] using h
  | _ => exact .inl h

end Effects

/-- What is seen of one call agrees with the registry, when `known` are the entries inserted so
far. -/
structure ScanView.Sees (v : ScanView) (s : State) (known : List RequestEntry) : Prop where
  open_decision : ∀ due, v.due = some due →
    due ∈ v.found ∧ ∀ entry, s.entries.lookup due.key = some entry → entry = due
  decided : ∀ due, v.decided = some due →
    due ∈ v.found ∧ ∀ entry, v.looked = some entry → entry = due
  looked : ∀ entry, v.looked = some entry → entry ∈ known
  found : ∀ entry ∈ v.found, entry ∈ known ∧ ∃ now, v.reading = some now ∧ entry.deadlineAt ≤ now

/-- What is seen of all calls agrees with the registry, and a token names one inserted entry. -/
structure Fence (s : State) (vs : List ScanView) : Prop where
  views : ∀ v ∈ vs, v.Sees s (insertedEntries vs)
  map : ∀ key entry, s.entries.lookup key = some entry → entry ∈ insertedEntries vs
  cells : ∀ entry ∈ insertedEntries vs, (s.cells entry.token).isSome = true
  unique : ∀ entry ∈ insertedEntries vs, ∀ entry' ∈ insertedEntries vs,
    entry.token = entry'.token → entry = entry'

section Fence

variable {cfg : RegistryConfig} {t choice : Nat} {a : Act} {r : a.Resp} {s s' : State}
  {vs : List ScanView} {v : ScanView} {known known' : List RequestEntry}

theorem sees_init : ScanView.Sees {} s known := by
  constructor <;> simp

theorem Fence.new : Fence State.new [] := by
  constructor <;> simp [State.new, insertedEntries]

/-- A call of which nothing new is seen, while no entry comes under the key of its decision. -/
theorem ScanView.Sees.mono (h : v.Sees s known) (hknown : known ⊆ known')
    (hmap : ∀ due, v.due = some due → ∀ entry, s'.entries.lookup due.key = some entry →
      s.entries.lookup due.key = some entry) : v.Sees s' known' where
  open_decision := by
    intro due hdue
    obtain ⟨hmem, hsame⟩ := h.open_decision due hdue
    exact ⟨hmem, fun entry he ↦ hsame entry (hmap due hdue entry he)⟩
  decided := h.decided
  looked := fun entry he ↦ hknown (h.looked entry he)
  found := fun entry he ↦ ⟨hknown (h.found entry he).1, (h.found entry he).2⟩

/-- The clock is read. -/
private theorem ScanView.Sees.now (h : v.Sees s known) (i : Instant) :
    (v.see .now i).Sees s known where
  open_decision := h.open_decision
  decided := h.decided
  looked := h.looked
  found := by
    intro entry he
    obtain ⟨hmem, now, hnow, hle⟩ := h.found entry he
    refine ⟨hmem, now, ?_, hle⟩
    show some (v.reading.getD i) = some now
    rw [hnow, Option.getD_some]

/-- A key is looked up; after a decision on it, what is found is what was decided on. -/
private theorem ScanView.Sees.get (h : v.Sees s known) (key : RequestKey)
    (hmap : ∀ entry, s.entries.lookup key = some entry → entry ∈ known) :
    (v.see (.entriesGet key) (s.entries.lookup key)).Sees s known where
  open_decision := by
    intro due hdue
    cases hdue
  decided := by
    intro due hdue
    obtain ⟨hdue, hkey⟩ := Option.filter_eq_some_iff.mp hdue
    obtain ⟨hmem, hsame⟩ := h.open_decision due hdue
    obtain rfl : due.key = key := by simpa using hkey
    exact ⟨hmem, hsame⟩
  looked := hmap
  found := h.found

/-- The state of a registration is read; one that is pending is the one under its key. -/
private theorem ScanView.Sees.check (h : v.Sees s known) (token : RequestToken)
    (state : RequestState)
    (hlive : state = .pending → ∀ entry ∈ known, entry.token = token →
      ∀ entry', s.entries.lookup entry.key = some entry' → entry' = entry) :
    (v.check token state).Sees s known := by
  unfold ScanView.check
  split
  next entry now hlooked hnow =>
    split
    next hdue =>
      obtain ⟨htoken, hstate, hdeadline⟩ := hdue
      have hknown := h.looked entry hlooked
      constructor
      · intro due hdue
        obtain rfl := Option.some.inj hdue
        exact ⟨List.mem_cons_self, hlive hstate entry hknown htoken⟩
      · intro due hdecided
        obtain ⟨hmem, hsame⟩ := h.decided due hdecided
        exact ⟨List.mem_cons_of_mem _ hmem, hsame⟩
      · exact h.looked
      · intro e he
        obtain rfl | he := List.mem_cons.mp he
        · exact ⟨hknown, now, hnow, hdeadline⟩
        · exact h.found e he
    next => exact h
  next => exact h

theorem mem_insertedEntries {entry : RequestEntry} :
    entry ∈ insertedEntries vs ↔ ∃ v ∈ vs, entry ∈ v.inserted := List.mem_flatMap

/-- What is seen of a call only adds to the entries it inserted. -/
private theorem inserted_see : v.inserted ⊆ (v.see a r).inserted := by
  cases a with
  | entriesInsert entry =>
    cases r with
    | false => exact List.Subset.refl _
    | true => exact List.subset_cons_self entry v.inserted
  | stateLoad token =>
    have hcheck : (v.check token r).inserted = v.inserted := by
      unfold ScanView.check
      repeat' split
      all_goals rfl
    exact hcheck ▸ List.Subset.refl _
  | _ => exact List.Subset.refl _

/-- An entry seen to be inserted was so before, or the operation inserted it. -/
private theorem see_inserted {entry : RequestEntry} (hr : (a.exec cfg t choice s).1 = r)
    (h : entry ∈ (v.see a r).inserted) :
    entry ∈ v.inserted ∨ a = .entriesInsert entry ∧ (s.entriesInsert t entry).1 = true := by
  cases a with
  | entriesInsert e =>
    cases r with
    | false => exact .inl h
    | true =>
      obtain rfl | h := List.mem_cons.mp h
      · exact .inr ⟨rfl, hr⟩
      · exact .inl h
  | stateLoad token =>
    have hcheck : (v.check token r).inserted = v.inserted := by
      unfold ScanView.check
      repeat' split
      all_goals rfl
    exact .inl (hcheck ▸ h)
  | _ => exact .inl h

/-- The views after an answered action of call `t`. -/
private abbrev noted (vs : List ScanView) (t : Nat) (a : Act) (r : a.Resp) : List ScanView :=
  scanWatch.note vs t (scanWatch.see (scanWatch.view vs t) a r)

private theorem known_mono : insertedEntries vs ⊆ insertedEntries (noted vs t a r) := by
  intro entry he
  rw [mem_insertedEntries] at he ⊢
  exact Watch.exists_note he fun h ↦ inserted_see h

private theorem known_cases {entry : RequestEntry} (hr : (a.exec cfg t choice s).1 = r)
    (h : entry ∈ insertedEntries (noted vs t a r)) :
    entry ∈ insertedEntries vs ∨
      a = .entriesInsert entry ∧ (s.entriesInsert t entry).1 = true := by
  obtain ⟨v, hv, he⟩ := mem_insertedEntries.mp h
  have hall : ∀ v ∈ noted vs t a r, ∀ entry ∈ v.inserted, entry ∈ insertedEntries vs ∨
      a = .entriesInsert entry ∧ (s.entriesInsert t entry).1 = true := by
    refine Watch.forall_note ?_ ?_ ?_
    · exact fun v hv entry he ↦ .inl (mem_insertedEntries.mpr ⟨v, hv, he⟩)
    · intro entry he
      cases he
    · intro entry he
      refine (see_inserted hr he).imp_left fun hold ↦ ?_
      obtain hmem | hinit := Watch.view_mem_or scanWatch vs t
      · exact mem_insertedEntries.mpr ⟨_, hmem, hold⟩
      · rw [hinit] at hold
        cases hold
  exact hall v hv entry he

/-- No operation that the fence allows puts an entry under the key of an open decision. -/
private theorem Fence.lookup_due (hfence : a.Fenced vs) (hv : v ∈ vs) {due : RequestEntry}
    (hdue : v.due = some due) {entry : RequestEntry}
    (h : (a.exec cfg t choice s).2.entries.lookup due.key = some entry) :
    s.entries.lookup due.key = some entry := by
  obtain h | ⟨rfl, hkey, -⟩ := lookup_cases h
  · exact h
  · exact absurd hkey (hfence v hv due hdue)

/-- Two entries under one token are one entry. -/
private theorem Fence.live (h : Fence s vs) {b : Books} (hcore : Core s b) {token : RequestToken}
    (hstate : (s.cells token).getD .dropped = .pending) {entry entry' : RequestEntry}
    (he : entry ∈ insertedEntries vs) (htoken : entry.token = token)
    (he' : s.entries.lookup entry.key = some entry') : entry' = entry := by
  have hcell : s.cells token = some .pending := by
    cases hc : s.cells token with
    | none => simp [hc] at hstate
    | some state => simpa [hc] using hstate
  obtain ⟨found, hfound, hft⟩ := hcore.lookup_of_mem (hcore.live token _ hcell rfl)
  rw [← htoken, RequestEntry.key_token, he'] at hfound
  obtain rfl := Option.some.inj hfound
  exact h.unique _ (h.map _ _ he') _ he (hft.trans htoken.symm)

/-- One operation that the fence allows. -/
theorem Fence.step (h : Fence s vs) {b : Books} (hcore : Core s b) (hfence : a.Fenced vs)
    (hfresh : ∀ entry, a = .entriesInsert entry → (s.entriesInsert t entry).1 = true →
      s.cells entry.token = none) (hr : (a.exec cfg t choice s).1 = r) :
    Fence (a.exec cfg t choice s).2 (noted vs t a r) := by
  have hview : (scanWatch.view vs t).Sees s (insertedEntries vs) := by
    obtain hmem | hinit := Watch.view_mem_or scanWatch vs t
    · exact h.views _ hmem
    · rw [hinit]
      exact sees_init
  have hlookup : ∀ due, (scanWatch.view vs t).due = some due → ∀ entry,
      (a.exec cfg t choice s).2.entries.lookup due.key = some entry →
        s.entries.lookup due.key = some entry := by
    intro due hdue entry he
    obtain hmem | hinit := Watch.view_mem_or scanWatch vs t
    · exact Fence.lookup_due hfence hmem hdue he
    · rw [hinit] at hdue
      cases hdue
  have hinserted : ∀ entry, a = .entriesInsert entry → (s.entriesInsert t entry).1 = true →
      entry ∈ insertedEntries (noted vs t a r) := by
    rintro entry rfl hsome
    obtain rfl : r = true := hr.symm.trans hsome
    exact mem_insertedEntries.mpr ⟨_, Watch.mem_note, List.mem_cons_self⟩
  constructor
  case views =>
    refine Watch.forall_note (fun v hv ↦ ?_) sees_init ?_
    · exact (h.views v hv).mono known_mono fun due hdue entry he ↦
        Fence.lookup_due hfence hv hdue he
    · cases a with
      | now => exact (hview.now r).mono known_mono fun _ _ _ he ↦ he
      | entriesGet key =>
        rw [← hr]
        exact (hview.get key (h.map key)).mono known_mono fun _ _ _ he ↦ he
      | stateLoad token =>
        refine (hview.check token r fun hstate entry he htoken entry' he' ↦ ?_).mono known_mono
          fun _ _ _ he ↦ he
        exact h.live hcore (hr.trans hstate) he htoken he'
      | entriesInsert entry =>
        have hmono := hview.mono (known_mono (t := t) (a := .entriesInsert entry) (r := r)) hlookup
        cases r with
        | false => exact hmono
        | true =>
          exact ⟨hmono.open_decision, hmono.decided, hmono.looked, hmono.found⟩
      | _ => exact hview.mono known_mono hlookup
  case map =>
    intro key entry he
    obtain he | ⟨ha, -, hsome⟩ := lookup_cases he
    · exact known_mono (h.map key entry he)
    · exact hinserted entry ha hsome
  case cells =>
    intro entry he
    obtain he | ⟨rfl, hsome⟩ := known_cases hr he
    · exact cells_isSome (h.cells entry he)
    · rw [Act.exec, (entriesInsert_true hsome).2]
      simp [State.record]
  case unique =>
    have hnew : ∀ entry, a = .entriesInsert entry → (s.entriesInsert t entry).1 = true →
        ∀ entry' ∈ insertedEntries vs, entry'.token ≠ entry.token := by
      intro entry ha hsome entry' he' htoken
      have hcell := h.cells entry' he'
      rw [htoken, hfresh entry ha hsome] at hcell
      cases hcell
    intro entry he entry' he' htoken
    obtain he | ⟨ha, hsome⟩ := known_cases hr he <;>
      obtain he' | ⟨ha', hsome'⟩ := known_cases hr he'
    · exact h.unique entry he entry' he' htoken
    · exact absurd htoken (hnew entry' ha' hsome' entry he)
    · exact absurd htoken.symm (hnew entry ha hsome entry' he')
    · rw [ha] at ha'
      cases ha'
      rfl

end Fence

/-- The registry's runs, what is seen of them and what the scans expired. -/
structure Scanned (cfg : RegistryConfig)
    (c : Config Act Act.Resp (State × List ScanView) Op Outcome) : Prop where
  reaches : (system cfg).Reaches anyCalls ⟨State.new, []⟩ c.unwatched
  inOrder : scanWatch.InOrder Act.Possible Op.Ok c
  fence : Fence c.shared.1 c.shared.2
  callers : ∀ t caller token source target,
    .transition t caller token source target ∈ c.shared.1.history → t < c.calls.length
  expired : ∀ t call token, c.calls[t]? = some call → call.op = .scanTimeoutBucket →
    .transition t .key token .pending .timedOut ∈ c.shared.1.history →
    ∃ entry ∈ (scanWatch.view c.shared.2 t).found, entry.token = token

section Scanned

variable {cfg : RegistryConfig} {c c' : Config Act Act.Resp (State × List ScanView) Op Outcome}

/-- What is seen of a call only adds to what it found due. -/
private theorem found_see {v : ScanView} {a : Act} {r : a.Resp} : v.found ⊆ (v.see a r).found := by
  cases a with
  | stateLoad token =>
    show v.found ⊆ (v.check token r).found
    unfold ScanView.check
    repeat' split
    all_goals first | exact List.subset_cons_self _ _ | exact List.Subset.refl _
  | entriesInsert entry => cases r <;> exact List.Subset.refl _
  | _ => exact List.Subset.refl _

/-- The generation of an entry about to be inserted was never used. -/
private theorem Scanned.fresh (h : Scanned cfg c) {t : Nat} {o : Op} {entry : RequestEntry}
    {k : Bool → Task Outcome} (hc : c.calls[t]? = some ⟨o, .act (.entriesInsert entry) k⟩) :
    c.shared.1.cells entry.token = none := by
  obtain ⟨ds, hds⟩ := balanced_of_reaches h.reaches
  have hnext : c.unwatched.next? t = some (.entriesInsert entry) := by
    have hc' : c.unwatched.calls[t]? = some ⟨o, .act (.entriesInsert entry) k⟩ := hc
    rw [Config.next?, hc']
  obtain ⟨d, G, hJ, href | ⟨e, e', F, rfl, hm⟩⟩ := hds.next hnext true
  · cases href
  · have hmem : entry.generation ∈ (books (e + F + G)).fresh := by
      refine mem_part.mpr ⟨.fresh entry.generation, ?_, rfl⟩
      cases hm <;> simp
    exact hJ.core.fresh_unused _ hmem entry.token rfl

theorem Scanned.step (h : Scanned cfg c) {l : Label Op} (ha : fencedScans.Allows c l)
    (hstep : (watchedSystem cfg).step c l = some c') : Scanned cfg c' := by
  obtain ⟨ds, hds⟩ := balanced_of_reaches h.reaches
  have hallows : anyCalls.Allows c.unwatched l := by
    cases l with
    | start o => trivial
    | run t choice => exact fun _ _ ↦ trivial
  have hreaches := h.reaches.tail hallows (System.unwatched_step hstep)
  have hpossible : ∀ t a choice r s', (system cfg).exec t a choice c.shared.1 = some (r, s') →
      a.Possible r := by
    intro t a choice r s' he
    obtain ⟨rfl, -⟩ := Prod.mk.inj (Option.some.inj he)
    cases a with
    | entriesGet key =>
      cases hlookup : c.shared.1.entries.lookup key with
      | none => simp [hlookup, Act.Possible]
      | some entry => simpa [hlookup, Act.Possible] using hds.inv.core.key_eq _ _ hlookup
    | _ => trivial
  have hinOrder := h.inOrder.step (body_conforms cfg) hpossible hstep
  obtain ⟨o, rfl, rfl⟩ | ⟨t, choice, o, a, k, r, s, rfl, hc, he, rfl⟩ := System.step_cases hstep
  · refine ⟨hreaches, hinOrder, h.fence, fun t caller token source target hmem ↦ ?_, ?_⟩
    · have hlt := h.callers t caller token source target hmem
      rw [List.length_append]
      omega
    · intro t call token hcall hop hmem
      have hlt := h.callers t _ _ _ _ hmem
      rw [List.getElem?_append_left hlt] at hcall
      exact h.expired t call token hcall hop hmem
  · obtain ⟨he', hviews⟩ := System.watched_exec he
    have hr : (a.exec cfg t choice c.shared.1).1 = r := (Prod.mk.inj (Option.some.inj he')).1
    have hs : (a.exec cfg t choice c.shared.1).2 = s.1 := (Prod.mk.inj (Option.some.inj he')).2
    have hlt : t < c.calls.length := (List.getElem?_eq_some_iff.mp hc).1
    have hnext : c.next? t = some a := by rw [Config.next?, hc]
    have hfence : Fence s.1 s.2 := by
      rw [hviews, ← hs]
      refine h.fence.step hds.inv.core (ha a hnext) ?_ hr
      rintro entry rfl -
      exact h.fresh hc
    refine ⟨hreaches, hinOrder, hfence, fun u caller token source target hmem ↦ ?_, ?_⟩
    · rw [List.length_set]
      rw [← hs] at hmem
      obtain hmem | ⟨rfl, -⟩ := transition_cases hmem
      · exact h.callers u caller token source target hmem
      · exact hlt
    · intro u call token hcall hop hmem
      rw [← hs] at hmem
      rw [hviews]
      obtain hold | ⟨rfl, rfl⟩ := transition_cases hmem
      · -- Found before this step; the views only gain.
        by_cases hut : u = t
        · subst hut
          rw [List.getElem?_set_self hlt] at hcall
          obtain rfl := Option.some.inj hcall
          obtain ⟨entry, hfound, htoken⟩ := h.expired u _ token hc hop hold
          rw [Watch.view_note_self]
          exact ⟨entry, found_see hfound, htoken⟩
        · rw [List.getElem?_set_ne (Ne.symm hut)] at hcall
          rw [Watch.view_note_ne hut]
          exact h.expired u call token hcall hop hold
      · -- The scan expires now what it found after its decision.
        rw [List.getElem?_set_self hlt] at hcall
        obtain rfl := Option.some.inj hcall
        obtain rfl : o = .scanTimeoutBucket := hop
        obtain ⟨due, entry, hdecided, hlooked, htoken⟩ := h.inOrder.next hc
        obtain ⟨hfound, hsame⟩ : due ∈ (scanWatch.view c.shared.2 u).found ∧
            ∀ entry, (scanWatch.view c.shared.2 u).looked = some entry → entry = due := by
          obtain hmem | hinit := Watch.view_mem_or scanWatch c.shared.2 u
          · exact (h.fence.views _ hmem).decided due hdecided
          · rw [hinit] at hdecided
            cases hdecided
        rw [Watch.view_note_self]
        exact ⟨due, hfound, hsame entry hlooked ▸ htoken⟩

theorem Scanned.new : Scanned cfg ⟨(State.new, []), []⟩ where
  reaches := .refl
  inOrder := .init
  fence := .new
  callers := by simp [State.new]
  expired := by simp

end Scanned

/-- In every run in which no entry is inserted under a key between a scan's decision on it and the
scan's next lookup of it, scans expire in time and only what they found due themselves. -/
theorem scans_expire_in_time (cfg : RegistryConfig)
    {c : Config Act Act.Resp (State × List ScanView) Op Outcome}
    (hc : (watchedSystem cfg).Reaches fencedScans ⟨(State.new, []), []⟩ c) : ExpiresInTime c := by
  have h : Scanned cfg c := hc.invariant (fun _ _ _ hd ha hs ↦ Scanned.step hd ha hs) .new
  intro t call token hcall hop hmem
  obtain ⟨entry, hfound, htoken⟩ := h.expired t call token hcall hop hmem
  obtain hview | hinit := Watch.view_mem_or scanWatch c.shared.2 t
  · obtain ⟨hknown, now, hnow, hdeadline⟩ := (h.fence.views _ hview).found entry hfound
    refine ⟨now, hnow, ⟨entry, hfound, htoken⟩, fun entry' hknown' htoken' ↦ ?_⟩
    rw [h.fence.unique entry' hknown' entry hknown (htoken'.trans htoken.symm)]
    exact hdeadline
  · rw [hinit] at hfound
    cases hfound

/-- A run in which a request is registered and a scan expires it. -/
def dueScanRun : List (Label Op) :=
  .start (.register 7 none 0 1) :: List.replicate 7 (.run 0 0) ++
    .start .scanTimeoutBucket :: .run 1 0 :: .run 1 0 :: .run 1 5 :: List.replicate 8 (.run 1 0)

theorem scans_expire_in_time_of_due : ∃ c,
    (watchedSystem (.newWithTiming 8 1)).Reaches fencedScans ⟨(State.new, []), []⟩ c ∧
      c.shared.1.counters.requestTimeoutTotal = 1 ∧ ExpiresInTime c := by
  have hrun : ((watchedSystem (.newWithTiming 8 1)).runAll fencedScans ⟨(State.new, []), []⟩
      dueScanRun).map (fun c ↦ c.shared.1.counters.requestTimeoutTotal) = some 1 := by
    decide +kernel
  obtain ⟨c, hc, htotal⟩ := Option.map_eq_some_iff.mp hrun
  have hreach := System.Reaches.of_runAll hc
  exact ⟨c, hreach, htotal, scans_expire_in_time _ hreach⟩

/-- A run in which a scan finds a registration due, the request is answered, its id is registered
again with a later deadline, and the scan expires the new registration. -/
def reusedIdRun : List (Label Op) :=
  .start (.register 7 none 0 1) :: List.replicate 7 (.run 0 0) ++
    .start .scanTimeoutBucket :: [.run 1 0, .run 1 0, .run 1 5, .run 1 0, .run 1 0] ++
    .start (.beginRespond ⟨none, 7, .inbound, 1⟩) :: List.replicate 2 (.run 2 0) ++
    .start (.finishRespond ⟨none, 7, .inbound, 1⟩ true) :: List.replicate 4 (.run 3 0) ++
    .start (.register 7 none 0 100) :: List.replicate 7 (.run 4 0) ++ List.replicate 2 (.run 1 0)

theorem scan_expires_later_registration : ∃ c,
    (watchedSystem (.newWithTiming 8 1)).Reaches anyScans ⟨(State.new, []), []⟩ c ∧
      ¬ ExpiresInTime c := by
  have hrun : ((watchedSystem (.newWithTiming 8 1)).runAll anyScans ⟨(State.new, []), []⟩
      reusedIdRun).map (fun c ↦ (c.calls[1]?.map Call.op,
        decide (.transition 1 .key ⟨none, 7, .inbound, 2⟩ .pending .timedOut ∈ c.shared.1.history),
        (scanWatch.view c.shared.2 1).reading,
        decide (⟨.inbound none 7, 0, 5, 105, 2⟩ ∈ insertedEntries c.shared.2))) =
      some (some Op.scanTimeoutBucket, true, some 5, true) := by decide +kernel
  obtain ⟨c, hc, hfacts⟩ := Option.map_eq_some_iff.mp hrun
  obtain ⟨hop, hmem, hreading, hinserted⟩ : c.calls[1]?.map Call.op = some Op.scanTimeoutBucket ∧
      Event.transition 1 .key ⟨none, 7, .inbound, 2⟩ .pending .timedOut ∈ c.shared.1.history ∧
      (scanWatch.view c.shared.2 1).reading = some 5 ∧
      (⟨.inbound none 7, 0, 5, 105, 2⟩ : RequestEntry) ∈ insertedEntries c.shared.2 := by
    simpa using hfacts
  obtain ⟨call, hcall, hcop⟩ := Option.map_eq_some_iff.mp hop
  refine ⟨c, System.Reaches.of_runAll hc, fun h ↦ ?_⟩
  obtain ⟨now, hnow, -, hdeadline⟩ := h 1 call _ hcall hcop hmem
  have hlate : (105 : Nat) ≤ now := hdeadline _ hinserted rfl
  rw [hreading] at hnow
  obtain rfl := Option.some.inj hnow
  exact absurd hlate (by decide)

end MsgTrans.Registry
