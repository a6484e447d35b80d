import MsgTrans.Base.Slots
import MsgTrans.Base.Solo
import MsgTrans.Registry.Runs

/-!
# Request registry: operations that leave the timeout wheel alone

Operations of `crates/msgtrans/src/transport/request_registry.rs:404–999` run one at a time. Only a
registration of an inbound request and a scan touch what the timeout wheel rests on; every other
operation resolves pending inbound entries at most.
-/

namespace MsgTrans.Registry

open MsgTrans.Base MsgTrans.Base.Prog MsgTrans.Wire

/-- An inbound entry that is still pending. -/
def State.Pending (s : State) (key : RequestKey) (entry : RequestEntry) : Prop :=
  key.direction = .inbound ∧ s.entries.lookup key = some entry ∧
    s.cells entry.token = some .pending

/-- Every entry is found under its own key. -/
def State.Keyed (s : State) : Prop :=
  ∀ key entry, s.entries.lookup key = some entry → entry.key = key

theorem State.Keyed.insert {s : State} (hs : s.Keyed) (entry : RequestEntry) {key : RequestKey}
    {found : RequestEntry} (h : (s.entries.insert entry.key entry).lookup key = some found) :
    found.key = key := by
  by_cases hkey : key = entry.key
  · subst hkey
    rw [AList.lookup_insert] at h
    rw [← Option.some.inj h]
  · exact hs key found (AList.lookup_insert_ne hkey ▸ h)

/-- The wheel is as it was and no inbound entry became pending. -/
structure Calm (s s' : State) : Prop where
  tick : s'.currentTick = s.currentTick
  clock : s.clock ≤ s'.clock
  buckets : ∀ i, s.buckets i ⊆ s'.buckets i
  entries : ∀ key entry, key.direction = .inbound → s'.entries.lookup key = some entry →
    s.entries.lookup key = some entry
  cells : ∀ token, token.direction = .inbound → s'.cells token = some .pending →
    s.cells token = some .pending
  generation : s.nextGeneration ≤ s'.nextGeneration
  keyed : s.Keyed → s'.Keyed

namespace Calm

variable {s s' s'' : State}

theorem refl (s : State) : Calm s s :=
  ⟨rfl, le_rfl, fun _ ↦ List.Subset.refl _, fun _ _ _ h ↦ h, fun _ _ h ↦ h, le_rfl, id⟩

theorem trans (h : Calm s s') (h' : Calm s' s'') : Calm s s'' where
  tick := h'.tick.trans h.tick
  clock := le_trans h.clock h'.clock
  buckets i := List.Subset.trans (h.buckets i) (h'.buckets i)
  entries key entry hin hl := h.entries key entry hin (h'.entries key entry hin hl)
  cells token hin hc := h.cells token hin (h'.cells token hin hc)
  generation := le_trans h.generation h'.generation
  keyed hs := h'.keyed (h.keyed hs)

/-- A pending entry was pending before. -/
theorem pending (h : Calm s s') (hs : s.Keyed) {key : RequestKey} {entry : RequestEntry}
    (hp : s'.Pending key entry) : s.Pending key entry := by
  obtain ⟨hin, hl, hc⟩ := hp
  have hl' := h.entries key entry hin hl
  refine ⟨hin, hl', h.cells _ ?_ hc⟩
  rw [RequestEntry.token, hs key entry hl']
  exact hin

end Calm

/-- The actions that move the wheel or may make an inbound entry pending. -/
def Act.stirs : Act → Bool
  | .entriesInsert entry => decide (entry.key.direction = .inbound)
  | .tryTransition _ _ _ target => decide (target = .pending)
  | .currentTickFetchAdd | .bucketSwap _ => true
  | _ => false

private theorem calm_cells {s : State} {token : RequestToken} {target : RequestState} {e : Event}
    (h : target ≠ .pending) :
    Calm s ({ s with cells := Function.update s.cells token (some target) }.record e) where
  tick := rfl
  clock := le_rfl
  buckets _ := List.Subset.refl _
  entries _ _ _ hl := hl
  cells token' _ hc := by
    have hc : Function.update s.cells token (some target) token' = some .pending := hc
    by_cases htoken : token' = token
    · rw [htoken, Function.update_self] at hc
      exact absurd (Option.some.inj hc) h
    · rwa [Function.update_of_ne htoken] at hc
  generation := le_rfl
  keyed hs := hs

private theorem calm_insert {s : State} {entry : RequestEntry} {e : Event}
    (h : entry.key.direction ≠ .inbound) :
    Calm s ({ s with
      entries := s.entries.insert entry.key entry
      cells := Function.update s.cells entry.token (some .pending) }.record e) where
  tick := rfl
  clock := le_rfl
  buckets _ := List.Subset.refl _
  entries key _ hin hl := by
    have hkey : key ≠ entry.key := fun heq ↦ h (heq ▸ hin)
    exact (AList.lookup_insert_ne hkey).symm.trans hl
  cells token hin hc := by
    have htoken : token ≠ entry.token := by
      rintro rfl
      exact h hin
    exact (Function.update_of_ne htoken _ _).symm.trans hc
  generation := le_rfl
  keyed hs _ _ hl := hs.insert entry hl

private theorem calm_erase {s : State} {key : RequestKey} {e : Event} :
    Calm s ({ s with entries := s.entries.erase key }.record e) where
  tick := rfl
  clock := le_rfl
  buckets _ := List.Subset.refl _
  entries key' _ _ hl := by
    have hl : (s.entries.erase key).lookup key' = some _ := hl
    by_cases hkey : key' = key
    · rw [hkey, AList.lookup_erase] at hl
      cases hl
    · rwa [AList.lookup_erase_ne hkey] at hl
  cells _ _ hc := hc
  generation := le_rfl
  keyed hs key' entry hl := by
    have hl : (s.entries.erase key).lookup key' = some entry := hl
    by_cases hkey : key' = key
    · rw [hkey, AList.lookup_erase] at hl
      cases hl
    · exact hs key' entry (AList.lookup_erase_ne hkey ▸ hl)

private theorem calm_push {s : State} {i : Nat} {key : RequestKey} :
    Calm s { s with buckets := Function.update s.buckets i (s.buckets i ++ [key]) } where
  tick := rfl
  clock := le_rfl
  buckets j := by
    show s.buckets j ⊆ Function.update s.buckets i (s.buckets i ++ [key]) j
    by_cases hj : j = i
    · rw [hj, Function.update_self]
      exact List.subset_append_left _ _
    · rw [Function.update_of_ne hj]
      exact List.Subset.refl _
  entries _ _ _ hl := hl
  cells _ _ hc := hc
  generation := le_rfl
  keyed hs := hs

theorem Act.exec_calm {cfg : RegistryConfig} {call choice : Nat} {a : Act} {s : State}
    (ha : a.stirs = false) : Calm s (a.exec cfg call choice s).2 := by
  cases a with
  | now =>
    exact ⟨rfl, Nat.le_add_right _ _, fun _ ↦ List.Subset.refl _, fun _ _ _ h ↦ h, fun _ _ h ↦ h,
      le_rfl, id⟩
  | nextGenerationFetchAdd =>
    exact ⟨rfl, le_rfl, fun _ ↦ List.Subset.refl _, fun _ _ _ h ↦ h, fun _ _ h ↦ h,
      Nat.le_succ _, id⟩
  | entriesInsert entry =>
    simp only [exec, State.entriesInsert]
    split
    next => exact .refl s
    next => exact calm_insert (of_decide_eq_false ha)
  | entriesRemove caller key =>
    simp only [exec, State.entriesRemove]
    split
    next => exact calm_erase
    next => exact .refl s
  | tryTransition caller token source target =>
    simp only [exec, State.tryTransition]
    split
    next =>
      split
      next => exact calm_cells (of_decide_eq_false ha)
      next => exact .refl s
    next => exact .refl s
  | channelDrop channel =>
    simp only [exec, State.channelDrop]
    split <;> exact ⟨rfl, le_rfl, fun _ ↦ List.Subset.refl _, fun _ _ _ h ↦ h, fun _ _ h ↦ h,
      le_rfl, id⟩
  | sessionsOrInsert sid =>
    simp only [exec, State.sessionsOrInsert]
    split <;> exact ⟨rfl, le_rfl, fun _ ↦ List.Subset.refl _, fun _ _ _ h ↦ h, fun _ _ h ↦ h,
      le_rfl, id⟩
  | nextRequestIdFetchUpdate rt =>
    simp only [exec, State.nextRequestIdFetchUpdate]
    split <;> exact ⟨rfl, le_rfl, fun _ ↦ List.Subset.refl _, fun _ _ _ h ↦ h, fun _ _ h ↦ h,
      le_rfl, id⟩
  | bucketPush i key => exact calm_push
  | currentTickFetchAdd | bucketSwap => cases ha
  | _ =>
    exact ⟨rfl, le_rfl, fun _ ↦ List.Subset.refl _, fun _ _ _ h ↦ h, fun _ _ h ↦ h, le_rfl, id⟩

/-- Those, and the ones that put a key on the wheel. -/
def Act.moves : Act → Bool
  | .bucketPush _ _ => true
  | a => a.stirs

theorem Act.stirs_of_moves {a : Act} (ha : a.moves = false) : a.stirs = false := by
  cases a <;> first | exact ha | rfl

/-- The change of the wheel an answered action is, if any. -/
def moveOf : ((a : Act) × a.Resp) → Option (Move RequestKey)
  | ⟨.bucketSwap i, _⟩ => some (.drain i)
  | ⟨.bucketPush i key, _⟩ => some (.put i key)
  | _ => none

/-- The changes of the wheel a log tells of. -/
def movesOf (log : Prog.Log Act Act.Resp) : List (Move RequestKey) := log.filterMap moveOf

@[simp] theorem movesOf_append (log log' : Prog.Log Act Act.Resp) :
    movesOf (log ++ log') = movesOf log ++ movesOf log' := List.filterMap_append

theorem movesOf_cons {x : (a : Act) × a.Resp} (hx : moveOf x = none)
    (log : Prog.Log Act Act.Resp) : movesOf (x :: log) = movesOf log :=
  List.filterMap_cons_none hx

/-- An action that neither stirs nor schedules changes nothing on the wheel. -/
theorem moveOf_eq_none {x : (a : Act) × a.Resp} (hx : x.1.moves = false) : moveOf x = none := by
  obtain ⟨a, r⟩ := x
  cases a <;> first | rfl | cases hx

/-- A program without actions that move the wheel changes nothing on it. -/
theorem movesOf_eq_nil {cfg : RegistryConfig} {call : Nat} {α : Type} {p : Task α} {s s' : State}
    {log : Prog.Log Act Act.Resp} {v : α} (h : Prog.Solo (Act.exec cfg call) p s log v s')
    (hp : p.Without Act.moves) : movesOf log = [] := by
  have hlog := h.log_without hp
  clear h
  induction log with
  | nil => rfl
  | cons x log ih =>
    rw [movesOf_cons (moveOf_eq_none (hlog x List.mem_cons_self))]
    exact ih fun y hy ↦ hlog y (List.mem_cons_of_mem x hy)

/-- A program without actions that stir leaves the wheel alone. -/
theorem solo_calm {cfg : RegistryConfig} {call : Nat} {α : Type} {p : Task α} {s s' : State}
    {log : Prog.Log Act Act.Resp} {v : α} (h : Prog.Solo (Act.exec cfg call) p s log v s')
    (hp : p.Without Act.stirs) : Calm s s' :=
  h.keeps Calm.refl (fun _ _ _ ↦ Calm.trans) (fun _ _ _ ↦ Act.exec_calm) hp

section Without

variable {cfg : RegistryConfig} {key : RequestKey} {caller : Caller}

private theorem without_dropWaiter : (dropWaiter key).Without Act.moves := by
  refine atMost_act rfl fun sender ↦ ?_
  cases sender with
  | none => trivial
  | some channel => exact atMost_act rfl fun _ ↦ trivial

private theorem without_removeTerminalEntry : (removeTerminalEntry caller key).Without Act.moves := by
  refine atMost_act rfl fun _ ↦ ?_
  split
  next => trivial
  next =>
    refine atMost_act rfl fun runtime ↦ ?_
    cases runtime with
    | none => trivial
    | some rt => exact atMost_act rfl fun _ ↦ trivial

theorem without_resolveRuntime : (resolveRuntime key).Without Act.moves := by
  unfold resolveRuntime
  split
  next => trivial
  next =>
    refine atMost_act rfl fun runtime ↦ ?_
    cases runtime with
    | none => trivial
    | some rt =>
      refine atMost_act rfl fun isOpen ↦ ?_
      cases isOpen <;> trivial

private theorem without_undoRegistration : (undoRegistration key).Without Act.moves := by
  refine atMost_act rfl fun found ↦ ?_
  cases found with
  | none => exact without_dropWaiter
  | some entry =>
    refine atMost_act rfl fun won ↦ ?_
    cases won with
    | error _ => exact without_dropWaiter
    | ok _ =>
      exact atMost_act rfl fun _ ↦ without_removeTerminalEntry |>.bind fun _ ↦ without_dropWaiter

theorem without_tryRegisterWaiter {id : UInt32} {sid : Option SessionId} {bizType : UInt8}
    {timeout : Duration} : (tryRegisterWaiter cfg id sid bizType timeout).Without Act.moves := by
  have hconfirm : ∀ key token, (confirmWaiter key token).Without Act.moves := by
    intro key token
    refine atMost_act rfl fun found ↦ ?_
    cases found with
    | none => exact without_dropWaiter |>.bind fun _ ↦ trivial
    | some _ => trivial
  have hregister : (registerImpl cfg (.outbound sid id) bizType timeout false).Without
      Act.moves := by
    refine without_resolveRuntime |>.bind fun resolved ↦ ?_
    cases resolved with
    | none => trivial
    | some runtime =>
      refine atMost_act rfl fun now ↦ atMost_act rfl fun generation ↦ atMost_act rfl fun _ ↦ ?_
      refine atMost_act rfl fun vacant ↦ ?_
      cases vacant with
      | false => exact atMost_act rfl fun _ ↦ trivial
      | true =>
        cases runtime with
        | none => trivial
        | some rt =>
          refine atMost_act rfl fun _ ↦ atMost_act rfl fun isOpen ↦ ?_
          cases isOpen with
          | false => exact without_undoRegistration |>.bind fun _ ↦ trivial
          | true => trivial
  refine hregister.bind fun registered ↦ ?_
  cases registered with
  | none => trivial
  | some token =>
    refine atMost_act rfl fun replaced ↦ ?_
    cases replaced with
    | none => exact hconfirm _ _
    | some channel => exact atMost_act rfl fun _ ↦ hconfirm _ _

private theorem without_markRespondedKey : (markRespondedKey key).Without Act.moves := by
  simp only [markRespondedKey, Prog.perform_bind]
  refine atMost_act rfl fun found ↦ ?_
  cases found with
  | none => exact atMost_act rfl fun _ ↦ trivial
  | some entry =>
    refine atMost_act rfl fun won ↦ ?_
    cases won with
    | ok _ => exact atMost_act rfl fun _ ↦ without_removeTerminalEntry |>.bind fun _ ↦ trivial
    | error state =>
      dsimp only
      split
      next => exact atMost_act rfl fun _ ↦ trivial
      next => trivial

theorem without_completeWaiter {sid : Option SessionId} {id : UInt32} {packet : Packet} :
    (completeWaiter sid id packet).Without Act.moves := by
  refine without_markRespondedKey |>.bind fun marked ↦ ?_
  cases marked with
  | updated =>
    refine atMost_act rfl fun sender ↦ ?_
    cases sender with
    | none => trivial
    | some channel => exact atMost_act rfl fun _ ↦ trivial
  | already | notFound => trivial

private theorem without_markDroppedKey : (markDroppedKey key).Without Act.moves := by
  refine atMost_act rfl fun found ↦ ?_
  cases found with
  | none => trivial
  | some entry =>
    refine atMost_act rfl fun won ↦ ?_
    cases won with
    | ok _ => exact atMost_act rfl fun _ ↦ without_removeTerminalEntry |>.bind fun _ ↦ trivial
    | error _ => trivial

theorem without_abortWaiter {sid : Option SessionId} {id : UInt32} :
    (abortWaiter sid id).Without Act.moves :=
  without_markDroppedKey |>.bind fun _ ↦ without_dropWaiter |>.bind fun _ ↦ trivial

private theorem without_collectShards {α : Type} {shard : Nat → Task (List α)}
    (hshard : ∀ i, (shard i).Without Act.moves) (n : Nat) :
    (collectShards cfg shard n).Without Act.moves := by
  induction n with
  | zero => trivial
  | succ n ih => exact (hshard _).bind fun _ ↦ ih.bind fun _ ↦ trivial

private theorem without_closeRuntimes (sids : List SessionId) :
    (closeRuntimes sids).Without Act.moves := by
  induction sids with
  | nil => trivial
  | cons sid sids ih =>
    refine atMost_act rfl fun removed ↦ ?_
    cases removed with
    | none => exact ih
    | some rt => exact atMost_act rfl fun _ ↦ ih

private theorem without_abortKeys (keys : List RequestKey) (n : Nat) :
    (abortKeys keys n).Without Act.moves := by
  induction keys generalizing n with
  | nil => trivial
  | cons key keys ih =>
    exact without_markDroppedKey |>.bind fun _ ↦ without_dropWaiter |>.bind fun _ ↦ ih _

theorem without_abortAll : (abortAll cfg).Without Act.moves := by
  have hsessions : ∀ i, (op (.sessionsShard i)).Without Act.moves :=
    fun i ↦ atMost_act rfl fun _ ↦ trivial
  have hentries : ∀ i, (op (.entriesShard i)).Without Act.moves :=
    fun i ↦ atMost_act rfl fun _ ↦ trivial
  refine (without_collectShards hsessions _).bind fun sids ↦ ?_
  refine (without_closeRuntimes sids).bind fun _ ↦ ?_
  exact (without_collectShards hentries _).bind fun keys ↦ without_abortKeys keys 0

theorem without_beginRespond {token : RequestToken} : (beginRespond token).Without Act.moves := by
  simp only [beginRespond, Prog.perform_bind]
  refine atMost_act rfl fun found ↦ ?_
  cases found with
  | none => exact atMost_act rfl fun _ ↦ trivial
  | some entry =>
    dsimp only
    split
    next => exact atMost_act rfl fun _ ↦ trivial
    next =>
      refine atMost_act rfl fun won ↦ ?_
      cases won with
      | ok _ => trivial
      | error state =>
        dsimp only
        split
        next => exact atMost_act rfl fun _ ↦ trivial
        next => trivial

theorem without_finishRespond {token : RequestToken} {confirmed : Bool} :
    (finishRespond token confirmed).Without Act.moves := by
  simp only [finishRespond, Prog.perform_bind]
  refine atMost_act rfl fun found ↦ ?_
  cases found with
  | none => trivial
  | some entry =>
    dsimp only
    split
    next => trivial
    next =>
      refine atMost_act (by cases confirmed <;> rfl) fun won ↦ ?_
      cases won with
      | error _ => trivial
      | ok _ =>
        refine atMost_act rfl fun _ ↦ ?_
        split
        next => exact without_removeTerminalEntry |>.bind fun _ ↦ trivial
        next => exact atMost_act rfl fun _ ↦ without_removeTerminalEntry |>.bind fun _ ↦ trivial

theorem without_markTimedOut : (markTimedOut key).Without Act.moves := by
  refine atMost_act rfl fun found ↦ ?_
  cases found with
  | none => trivial
  | some entry =>
    refine atMost_act rfl fun won ↦ ?_
    cases won with
    | error _ => trivial
    | ok _ =>
      refine atMost_act rfl fun _ ↦ atMost_act rfl fun _ ↦ ?_
      exact without_removeTerminalEntry |>.bind fun _ ↦ without_dropWaiter |>.bind fun _ ↦ trivial

theorem without_abortRequestToken {token : RequestToken} :
    (abortRequestToken token).Without Act.moves := by
  simp only [abortRequestToken, Prog.perform_bind]
  refine atMost_act rfl fun found ↦ ?_
  cases found with
  | none => trivial
  | some entry =>
    dsimp only
    split
    next => trivial
    next =>
      refine atMost_act rfl fun won ↦ ?_
      cases won with
      | error _ => trivial
      | ok _ =>
        refine atMost_act rfl fun _ ↦ without_removeTerminalEntry |>.bind fun _ ↦ ?_
        exact without_dropWaiter |>.bind fun _ ↦ trivial

private theorem without_drainKeys (keys : List RequestKey) (n : Nat) :
    (drainKeys keys n).Without Act.moves := by
  have hdies : ∀ token, (dieWithSession token).Without Act.moves := by
    intro token
    refine atMost_act rfl fun pending ↦ ?_
    cases pending with
    | ok _ => trivial
    | error _ =>
      refine atMost_act rfl fun responding ↦ ?_
      cases responding <;> trivial
  induction keys generalizing n with
  | nil => trivial
  | cons key keys ih =>
    refine atMost_act rfl fun found ↦ ?_
    cases found with
    | none => exact ih _
    | some entry =>
      refine (hdies _).bind fun died ↦ ?_
      cases died with
      | false => exact ih _
      | true =>
        refine atMost_act rfl fun _ ↦ atMost_act rfl fun _ ↦ ?_
        exact without_dropWaiter |>.bind fun _ ↦ ih _

private theorem without_drainShards (rt n closed : Nat) :
    (drainShards cfg rt n closed).Without Act.moves := by
  induction n generalizing closed with
  | zero => trivial
  | succ n ih => exact atMost_act rfl fun keys ↦ (without_drainKeys keys closed).bind fun _ ↦ ih _

theorem without_closeSessionPending {sid : SessionId} :
    (closeSessionPending cfg sid).Without Act.moves := by
  simp only [closeSessionPending, Prog.perform_bind]
  refine atMost_act rfl fun removed ↦ ?_
  cases removed with
  | none => trivial
  | some rt =>
    refine atMost_act rfl fun _ ↦ (without_drainShards rt _ _).bind fun closed ↦ ?_
    refine atMost_act rfl fun _ ↦ ?_
    split
    next => exact atMost_act rfl fun _ ↦ trivial
    next => trivial

theorem without_nextRequestId {sid : Option SessionId} :
    (nextRequestId sid).Without Act.moves := by
  cases sid with
  | none => exact atMost_act rfl fun _ ↦ trivial
  | some sid =>
    refine atMost_act rfl fun runtime ↦ ?_
    cases runtime with
    | none => trivial
    | some rt =>
      refine atMost_act rfl fun isOpen ↦ ?_
      cases isOpen with
      | false => trivial
      | true => exact atMost_act rfl fun _ ↦ trivial

end Without

/-- Every call but an inbound registration and a scan leaves the wheel alone. -/
theorem Op.body_without {cfg : RegistryConfig} {o : Op}
    (hregister : ∀ id sid bizType timeout, o ≠ .register id sid bizType timeout)
    (hscan : o ≠ .scanTimeoutBucket) : (o.body cfg).Without Act.moves := by
  cases o with
  | openSession => exact atMost_act rfl fun _ ↦ trivial
  | nextRequestId => exact without_nextRequestId |>.bind fun _ ↦ trivial
  | register => exact absurd rfl (hregister _ _ _ _)
  | tryRegisterWaiter => exact without_tryRegisterWaiter |>.bind fun _ ↦ trivial
  | completeWaiter => exact without_completeWaiter |>.bind fun _ ↦ trivial
  | abortWaiter => exact without_abortWaiter |>.bind fun _ ↦ trivial
  | abortAll => exact without_abortAll |>.bind fun _ ↦ trivial
  | beginRespond => exact without_beginRespond |>.bind fun _ ↦ trivial
  | finishRespond => exact without_finishRespond |>.bind fun _ ↦ trivial
  | markTimedOut => exact without_markTimedOut |>.bind fun _ ↦ trivial
  | abortRequestToken => exact without_abortRequestToken |>.bind fun _ ↦ trivial
  | closeSessionPending => exact without_closeSessionPending |>.bind fun _ ↦ trivial
  | scanTimeoutBucket => exact absurd rfl hscan

end MsgTrans.Registry
