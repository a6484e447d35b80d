import MsgTrans.Registry.Shows

/-!
# Request registry: the view refines the code

The methods of `crates/msgtrans/src/transport/request_registry.rs:404–999`, run one at a time at
a fixed instant, answer and do what the abstract view says. Whatever order the hash shards are
iterated in, a scan, the drain of a closing session and `abort_all` come to the same.
-/

namespace MsgTrans.Registry

open MsgTrans.Base MsgTrans.Base.Prog MsgTrans.Wire

section Methods

variable {cfg : RegistryConfig} {call : Nat} {now : Instant} {s s' : State} {V : View}
  {key : RequestKey} {log : Log Act Act.Resp}

private theorem dropWaiter_shows {v : Unit}
    (h : Solo (Act.execAt cfg call now) (dropWaiter key) s log v s') (hs : s.Shows V) :
    s'.Shows ((V.set key (V.slots key).unhook).ring (V.slots key).waiter Reply.hangUp) := by
  simp only [dropWaiter, perform_bind] at h
  obtain ⟨choice, log₁, h₁, -⟩ := h.of_act
  simp only [Act.execAt, Act.exec] at h₁
  have hs₁ := hs.unhooked key
  rw [← hs.waiter key]
  split at h₁
  next channel hwaiter =>
    obtain ⟨choice₂, log₂, h₂, -⟩ := h₁.of_act
    obtain ⟨-, rfl, -⟩ := h₂.of_ret
    rw [hwaiter]
    exact hs₁.dropped channel
  next hwaiter =>
    obtain ⟨-, rfl, -⟩ := h₁.of_ret
    rw [hwaiter]
    exact hs₁

private theorem removeTerminalEntry_shows {caller : Caller} {v : Unit}
    (h : Solo (Act.execAt cfg call now) (removeTerminalEntry caller key) s log v s')
    (hs : s.Shows V) :
    s'.Shows (V.set key (V.slots key).retire) := by
  simp only [removeTerminalEntry, perform_bind] at h
  obtain ⟨choice, log₁, h₁, -⟩ := h.of_act
  have hs₁ := hs.erased call caller key
  change Solo _ _ (s.entriesRemove call caller key) _ _ _ at h₁
  generalize s.entriesRemove call caller key = s₁ at h₁ hs₁
  have hlisted : (∀ sid, key.sessionId = some sid → s₁.sessions.lookup sid = none) →
      s₁.Shows (V.set key (V.slots key).retire) := by
    intro hclosed
    have hfalse := hs₁.unlisted hclosed
    rw [View.set_slots_self] at hfalse
    have hretire : { V.slots key with entry := none, status := .dropped } = (V.slots key).retire :=
      Slot.ext rfl rfl rfl hfalse rfl
    rwa [← hretire]
  split at h₁
  next hsid =>
    obtain ⟨-, rfl, -⟩ := h₁.of_ret
    exact hlisted fun sid hsid' ↦ absurd (hsid.symm.trans hsid') (Option.some_ne_none sid).symm
  next sid hsid =>
    obtain ⟨choice₂, log₂, h₂, -⟩ := h₁.of_act
    simp only [Act.execAt, Act.exec] at h₂
    cases hrt : s₁.sessions.lookup sid with
    | none =>
      rw [hrt] at h₂
      obtain ⟨-, rfl, -⟩ := h₂.of_ret
      refine hlisted fun sid' hsid' ↦ ?_
      rwa [← Option.some.inj (hsid.symm.trans hsid')]
    | some rt =>
      rw [hrt] at h₂
      obtain ⟨choice₃, log₃, h₃, -⟩ := h₂.of_act
      obtain ⟨-, rfl, -⟩ := h₃.of_ret
      have hindex := hs₁.index false ((s₁.runtimes rt).requests.filter (· ≠ key)) hrt
        hsid (fun key' hkey' ↦ hs₁.tidy.homed sid rt hrt key' (List.mem_filter.mp hkey').1)
        (by simp) (fun key' hne ↦ by simp [hne])
      rwa [View.set_slots_self, View.set_set] at hindex

-- The same, where the slot has been written before.
private theorem retired {caller : Caller} {slot : Slot} {v : Unit}
    (h : Solo (Act.execAt cfg call now) (removeTerminalEntry caller key) s log v s')
    (hs : s.Shows (V.set key slot)) : s'.Shows (V.set key slot.retire) := by
  have hs' := removeTerminalEntry_shows h hs
  rwa [View.set_slots_self, View.set_set] at hs'

private theorem unhooked {slot : Slot} {v : Unit}
    (h : Solo (Act.execAt cfg call now) (dropWaiter key) s log v s')
    (hs : s.Shows (V.set key slot)) :
    s'.Shows ((V.set key slot.unhook).ring slot.waiter Reply.hangUp) := by
  have hs' := dropWaiter_shows h hs
  rwa [View.set_slots_self, View.set_set] at hs'

private theorem markRespondedKey_shows {v : MarkResult}
    (h : Solo (Act.execAt cfg call now) (markRespondedKey key) s log v s') (hs : s.Shows V) :
    v = (V.slots key).mark .pending ∧
      s'.Shows (V.set key ((V.slots key).settle ((V.slots key).mark .pending) Slot.retire)) := by
  simp only [markRespondedKey, perform_bind] at h
  obtain ⟨choice, log₁, h₁, -⟩ := h.of_act
  simp only [Act.execAt, Act.exec, hs.entry key] at h₁
  cases hentry : (V.slots key).entry with
  | none =>
    rw [hentry] at h₁
    obtain ⟨choice₂, log₂, h₂, -⟩ := h₁.of_act
    obtain ⟨rfl, rfl, -⟩ := h₂.of_ret
    simp only [Slot.mark, hentry, Slot.settle, reduceCtorEq, if_false, View.set_self]
    exact ⟨trivial, hs.same⟩
  | some entry =>
    rw [hentry] at h₁
    obtain ⟨choice₂, log₂, h₂, -⟩ := h₁.of_act
    simp only [Act.execAt, Act.exec] at h₂
    by_cases hstatus : (V.slots key).status = .pending
    · obtain ⟨hok, hs₂⟩ := hs.transition call .key .responded hentry
        hstatus (by decide)
      rw [hok] at h₂
      obtain ⟨choice₃, log₃, h₃, -⟩ := h₂.of_act
      obtain ⟨_, s₄, log₄, log₅, h₄, h₅, -⟩ := h₃.of_bind
      obtain ⟨rfl, rfl, -⟩ := h₅.of_ret
      simp only [Slot.mark, hentry, hstatus, if_true, Slot.settle]
      have hs₄ := retired h₄ hs₂.same
      exact ⟨trivial, hs₄⟩
    · rw [hs.refused hentry hstatus] at h₂
      dsimp only at h₂
      simp only [Slot.mark, hentry, hstatus, if_false, Slot.settle, reduceCtorEq, View.set_self]
      split at h₂
      next =>
        obtain ⟨choice₃, log₃, h₃, -⟩ := h₂.of_act
        obtain ⟨rfl, rfl, -⟩ := h₃.of_ret
        exact ⟨rfl, hs.same⟩
      next =>
        obtain ⟨rfl, rfl, -⟩ := h₂.of_ret
        exact ⟨rfl, hs⟩

private theorem markDroppedKey_shows {v : MarkResult}
    (h : Solo (Act.execAt cfg call now) (markDroppedKey key) s log v s') (hs : s.Shows V) :
    v = (V.slots key).mark .pending ∧
      s'.Shows (V.set key ((V.slots key).settle ((V.slots key).mark .pending) Slot.retire)) := by
  simp only [markDroppedKey, perform_bind] at h
  obtain ⟨choice, log₁, h₁, -⟩ := h.of_act
  simp only [Act.execAt, Act.exec, hs.entry key] at h₁
  cases hentry : (V.slots key).entry with
  | none =>
    rw [hentry] at h₁
    obtain ⟨rfl, rfl, -⟩ := h₁.of_ret
    simp only [Slot.mark, hentry, Slot.settle, reduceCtorEq, if_false, View.set_self]
    exact ⟨trivial, hs⟩
  | some entry =>
    rw [hentry] at h₁
    obtain ⟨choice₂, log₂, h₂, -⟩ := h₁.of_act
    simp only [Act.execAt, Act.exec] at h₂
    by_cases hstatus : (V.slots key).status = .pending
    · obtain ⟨hok, hs₂⟩ := hs.transition call .key .dropped hentry
        hstatus (by decide)
      rw [hok] at h₂
      obtain ⟨choice₃, log₃, h₃, -⟩ := h₂.of_act
      obtain ⟨_, s₄, log₄, log₅, h₄, h₅, -⟩ := h₃.of_bind
      obtain ⟨rfl, rfl, -⟩ := h₅.of_ret
      simp only [Slot.mark, hentry, hstatus, if_true, Slot.settle]
      have hs₄ := retired h₄ hs₂.same
      exact ⟨trivial, hs₄⟩
    · rw [hs.refused hentry hstatus] at h₂
      obtain ⟨rfl, rfl, -⟩ := h₂.of_ret
      simp only [Slot.mark, hentry, hstatus, if_false, Slot.settle, reduceCtorEq, View.set_self]
      exact ⟨trivial, hs⟩

private theorem markTimedOut_shows {v : MarkResult}
    (h : Solo (Act.execAt cfg call now) (markTimedOut key) s log v s') (hs : s.Shows V) :
    v = (V.slots key).mark .pending ∧ s'.Shows ((V.set key
      ((V.slots key).settle ((V.slots key).mark .pending) fun slot ↦ slot.retire.unhook)).ring
        (V.slots key).waiter
          (if (V.slots key).mark .pending = .updated then Reply.hangUp else id)) := by
  simp only [markTimedOut, perform_bind] at h
  obtain ⟨choice, log₁, h₁, -⟩ := h.of_act
  simp only [Act.execAt, Act.exec, hs.entry key] at h₁
  cases hentry : (V.slots key).entry with
  | none =>
    rw [hentry] at h₁
    obtain ⟨rfl, rfl, -⟩ := h₁.of_ret
    simp only [Slot.mark, hentry, Slot.settle, reduceCtorEq, if_false, View.set_self, View.ring_id]
    exact ⟨trivial, hs⟩
  | some entry =>
    rw [hentry] at h₁
    obtain ⟨choice₂, log₂, h₂, -⟩ := h₁.of_act
    simp only [Act.execAt, Act.exec] at h₂
    by_cases hstatus : (V.slots key).status = .pending
    · obtain ⟨hok, hs₂⟩ := hs.transition call .key .timedOut hentry
        hstatus (by decide)
      rw [hok] at h₂
      obtain ⟨choice₃, log₃, h₃, -⟩ := h₂.of_act
      obtain ⟨choice₄, log₄, h₄, -⟩ := h₃.of_act
      obtain ⟨_, s₅, log₅, log₆, h₅, h₆, -⟩ := h₄.of_bind
      obtain ⟨_, s₇, log₇, log₈, h₇, h₈, -⟩ := h₆.of_bind
      obtain ⟨rfl, rfl, -⟩ := h₈.of_ret
      simp only [Slot.mark, hentry, hstatus, if_true, Slot.settle]
      have hs₅ := retired h₅ hs₂.same
      have hs₇ := unhooked h₇ hs₅
      exact ⟨trivial, hs₇⟩
    · rw [hs.refused hentry hstatus] at h₂
      obtain ⟨rfl, rfl, -⟩ := h₂.of_ret
      simp only [Slot.mark, hentry, hstatus, if_false, Slot.settle, reduceCtorEq, View.set_self,
        View.ring_id]
      exact ⟨trivial, hs⟩

/-- A token of another registration is turned away. -/
private theorem claim_of_ne {slot : Slot} {entry : RequestEntry} {token : RequestToken}
    {source : RequestState} (hentry : slot.entry = some entry)
    (hne : entry.generation ≠ token.generation) : slot.claim token source = .notFound := by
  simp [Slot.claim, hentry, hne]

/-- A token of this registration gets what the mark says. -/
private theorem claim_of_eq {slot : Slot} {entry : RequestEntry} {token : RequestToken}
    {source : RequestState} (hentry : slot.entry = some entry)
    (heq : entry.generation = token.generation) : slot.claim token source = slot.mark source := by
  simp [Slot.claim, hentry, heq]

private theorem beginRespond_shows {token : RequestToken} {v : MarkResult}
    (h : Solo (Act.execAt cfg call now) (beginRespond token) s log v s') (hs : s.Shows V) :
    v = (V.slots token.key).claim token .pending ∧ s'.Shows (V.set token.key
      ((V.slots token.key).settle ((V.slots token.key).claim token .pending)
        fun slot ↦ { slot with status := .responding })) := by
  simp only [beginRespond, perform_bind] at h
  obtain ⟨choice, log₁, h₁, -⟩ := h.of_act
  simp only [Act.execAt, Act.exec, hs.entry token.key] at h₁
  cases hentry : (V.slots token.key).entry with
  | none =>
    rw [hentry] at h₁
    obtain ⟨choice₂, log₂, h₂, -⟩ := h₁.of_act
    obtain ⟨rfl, rfl, -⟩ := h₂.of_ret
    simp only [Slot.claim, hentry, Slot.settle, Option.any_none, Bool.false_eq_true, if_false,
      reduceCtorEq, View.set_self]
    exact ⟨trivial, hs.same⟩
  | some entry =>
    rw [hentry] at h₁
    dsimp only at h₁
    split at h₁
    next hne =>
      obtain ⟨choice₂, log₂, h₂, -⟩ := h₁.of_act
      obtain ⟨rfl, rfl, -⟩ := h₂.of_ret
      simp only [claim_of_ne hentry hne, Slot.settle, reduceCtorEq, if_false, View.set_self]
      exact ⟨trivial, hs.same⟩
    next heq =>
      rw [claim_of_eq hentry (not_not.mp heq)]
      obtain ⟨choice₂, log₂, h₂, -⟩ := h₁.of_act
      simp only [Act.execAt, Act.exec] at h₂
      by_cases hstatus : (V.slots token.key).status = .pending
      · obtain ⟨hok, hs₂⟩ :=
          hs.transition call (.token token) .responding hentry hstatus (by decide)
        rw [hok] at h₂
        obtain ⟨rfl, rfl, -⟩ := h₂.of_ret
        have hmark : (V.slots token.key).mark .pending = .updated := by
          simp only [Slot.mark, hentry, hstatus, if_true]
        rw [hmark, Slot.settle, if_pos rfl]
        exact ⟨rfl, hs₂⟩
      · rw [hs.refused hentry hstatus] at h₂
        dsimp only at h₂
        simp only [Slot.mark, hentry, hstatus, if_false, Slot.settle, reduceCtorEq, View.set_self]
        split at h₂
        next =>
          obtain ⟨choice₃, log₃, h₃, -⟩ := h₂.of_act
          obtain ⟨rfl, rfl, -⟩ := h₃.of_ret
          exact ⟨rfl, hs.same⟩
        next =>
          obtain ⟨rfl, rfl, -⟩ := h₂.of_ret
          exact ⟨rfl, hs⟩

private theorem finishRespond_shows {token : RequestToken} {confirmed : Bool} {v : MarkResult}
    (h : Solo (Act.execAt cfg call now) (finishRespond token confirmed) s log v s')
    (hs : s.Shows V) :
    v = (V.slots token.key).claim token .responding ∧ s'.Shows (V.set token.key
      ((V.slots token.key).settle ((V.slots token.key).claim token .responding) Slot.retire)) := by
  simp only [finishRespond, perform_bind] at h
  obtain ⟨choice, log₁, h₁, -⟩ := h.of_act
  simp only [Act.execAt, Act.exec, hs.entry token.key] at h₁
  cases hentry : (V.slots token.key).entry with
  | none =>
    rw [hentry] at h₁
    obtain ⟨rfl, rfl, -⟩ := h₁.of_ret
    simp only [Slot.claim, hentry, Slot.settle, Option.any_none, Bool.false_eq_true, if_false,
      reduceCtorEq, View.set_self]
    exact ⟨trivial, hs⟩
  | some entry =>
    rw [hentry] at h₁
    dsimp only at h₁
    split at h₁
    next hne =>
      obtain ⟨rfl, rfl, -⟩ := h₁.of_ret
      simp only [claim_of_ne hentry hne, Slot.settle, reduceCtorEq, if_false, View.set_self]
      exact ⟨trivial, hs⟩
    next heq =>
      rw [claim_of_eq hentry (not_not.mp heq)]
      obtain ⟨choice₂, log₂, h₂, -⟩ := h₁.of_act
      simp only [Act.execAt, Act.exec] at h₂
      by_cases hstatus : (V.slots token.key).status = .responding
      · obtain ⟨hok, hs₂⟩ := hs.transition call (.token token)
          (respondTarget confirmed) hentry hstatus (by decide)
        rw [hok] at h₂
        obtain ⟨choice₃, log₃, h₃, -⟩ := h₂.of_act
        simp only [Slot.mark, hentry, hstatus, if_true, Slot.settle]
        split at h₃
        next =>
          obtain ⟨_, s₄, log₄, log₅, h₄, h₅, -⟩ := h₃.of_bind
          obtain ⟨rfl, rfl, -⟩ := h₅.of_ret
          have hs₄ := retired h₄ hs₂.same
          exact ⟨rfl, hs₄⟩
        next =>
          obtain ⟨choice₄, log₄, h₄, -⟩ := h₃.of_act
          obtain ⟨_, s₅, log₅, log₆, h₅, h₆, -⟩ := h₄.of_bind
          obtain ⟨rfl, rfl, -⟩ := h₆.of_ret
          have hs₅ := retired h₅ hs₂.same
          exact ⟨rfl, hs₅⟩
      · rw [hs.refused hentry hstatus] at h₂
        obtain ⟨rfl, rfl, -⟩ := h₂.of_ret
        simp only [Slot.mark, hentry, hstatus, if_false, Slot.settle, reduceCtorEq, View.set_self]
        exact ⟨trivial, hs⟩

private theorem abortRequestToken_shows {token : RequestToken} {v : Bool}
    (h : Solo (Act.execAt cfg call now) (abortRequestToken token) s log v s') (hs : s.Shows V) :
    v = decide ((V.slots token.key).claim token .pending = .updated) ∧ s'.Shows ((V.set token.key
      ((V.slots token.key).settle ((V.slots token.key).claim token .pending)
        fun slot ↦ slot.retire.unhook)).ring (V.slots token.key).waiter
          (if (V.slots token.key).claim token .pending = .updated then Reply.hangUp else id)) := by
  simp only [abortRequestToken, perform_bind] at h
  obtain ⟨choice, log₁, h₁, -⟩ := h.of_act
  simp only [Act.execAt, Act.exec, hs.entry token.key] at h₁
  cases hentry : (V.slots token.key).entry with
  | none =>
    rw [hentry] at h₁
    obtain ⟨rfl, rfl, -⟩ := h₁.of_ret
    simp only [Slot.claim, hentry, Slot.settle, Option.any_none, Bool.false_eq_true, if_false,
      reduceCtorEq, View.set_self, View.ring_id, decide_false]
    exact ⟨trivial, hs⟩
  | some entry =>
    rw [hentry] at h₁
    dsimp only at h₁
    split at h₁
    next hne =>
      obtain ⟨rfl, rfl, -⟩ := h₁.of_ret
      simp only [claim_of_ne hentry hne, Slot.settle, reduceCtorEq, if_false, View.set_self,
        View.ring_id, decide_false]
      exact ⟨trivial, hs⟩
    next heq =>
      rw [claim_of_eq hentry (not_not.mp heq)]
      obtain ⟨choice₂, log₂, h₂, -⟩ := h₁.of_act
      simp only [Act.execAt, Act.exec] at h₂
      by_cases hstatus : (V.slots token.key).status = .pending
      · obtain ⟨hok, hs₂⟩ := hs.transition call (.token token) .dropped hentry hstatus (by decide)
        rw [hok] at h₂
        obtain ⟨choice₃, log₃, h₃, -⟩ := h₂.of_act
        obtain ⟨_, s₄, log₄, log₅, h₄, h₅, -⟩ := h₃.of_bind
        obtain ⟨_, s₆, log₆, log₇, h₆, h₇, -⟩ := h₅.of_bind
        obtain ⟨rfl, rfl, -⟩ := h₇.of_ret
        simp only [Slot.mark, hentry, hstatus, if_true, Slot.settle, decide_true]
        have hs₄ := retired h₄ hs₂.same
        have hs₆ := unhooked h₆ hs₄
        exact ⟨trivial, hs₆⟩
      · rw [hs.refused hentry hstatus] at h₂
        obtain ⟨rfl, rfl, -⟩ := h₂.of_ret
        simp only [Slot.mark, hentry, hstatus, if_false, Slot.settle, reduceCtorEq, View.set_self,
          View.ring_id, decide_false]
        exact ⟨trivial, hs⟩

private theorem completeWaiter_shows {sid : Option SessionId} {requestId : UInt32} {packet : Packet}
    {v : Bool}
    (h : Solo (Act.execAt cfg call now) (completeWaiter sid requestId packet) s log v s')
    (hs : s.Shows V) (hkey : key = .outbound sid requestId) :
    v = decide ((V.slots key).mark .pending = .updated) ∧
      s'.Shows ((V.set key
        ((V.slots key).settle ((V.slots key).mark .pending) fun slot ↦ slot.retire.unhook)).ring
          (V.slots key).waiter
            (if (V.slots key).mark .pending = .updated then fun _ ↦ .value packet else id)) := by
  obtain ⟨marked, s₁, log₁, log₂, h₁, h₂, -⟩ := h.of_bind
  rw [← hkey] at h₁ h₂
  obtain ⟨rfl, hs₁⟩ := markRespondedKey_shows h₁ hs
  cases hmark : (V.slots key).mark .pending with
  | updated =>
    rw [hmark] at h₂ hs₁
    simp only [Slot.settle, if_true, decide_true] at hs₁ ⊢
    dsimp only [perform_bind] at h₂
    obtain ⟨choice, log₃, h₃, -⟩ := h₂.of_act
    simp only [Act.execAt, Act.exec] at h₃
    have hs₂ := hs₁.unhooked key
    have hwaiter := hs₁.waiter key
    rw [View.set_slots_self] at hs₂ hwaiter
    rw [View.set_set] at hs₂
    rw [← show s₁.waiters.lookup key = (V.slots key).waiter from hwaiter]
    split at h₃
    next channel hchannel =>
      obtain ⟨choice₂, log₄, h₄, -⟩ := h₃.of_act
      obtain ⟨rfl, rfl, -⟩ := h₄.of_ret
      rw [hchannel]
      exact ⟨rfl, (hs₂.rung channel fun _ ↦ .value packet).same⟩
    next hchannel =>
      obtain ⟨rfl, rfl, -⟩ := h₃.of_ret
      rw [hchannel]
      exact ⟨rfl, hs₂⟩
  | already | notFound =>
    rw [hmark] at h₂ hs₁
    obtain ⟨rfl, rfl, -⟩ := h₂.of_ret
    simp only [Slot.settle, reduceCtorEq, if_false, decide_false, View.set_self] at hs₁ ⊢
    rw [View.ring_id]
    exact ⟨trivial, hs₁⟩

private theorem abortWaiter_shows {sid : Option SessionId} {id : UInt32} {v : Bool}
    (h : Solo (Act.execAt cfg call now) (abortWaiter sid id) s log v s') (hs : s.Shows V)
    (hkey : key = .outbound sid id) : v = decide ((V.slots key).mark .pending = .updated) ∧
      s'.Shows ((V.set key (V.slots key).abandon).ring (V.slots key).waiter Reply.hangUp) := by
  subst hkey
  obtain ⟨marked, s₁, log₁, log₂, h₁, h₂, -⟩ := h.of_bind
  obtain ⟨rfl, hs₁⟩ := markDroppedKey_shows h₁ hs
  obtain ⟨_, s₂, log₃, log₄, h₃, h₄, -⟩ := h₂.of_bind
  obtain ⟨rfl, rfl, -⟩ := h₄.of_ret
  have hs₂ := unhooked h₃ hs₁
  rw [Slot.settle_waiter Slot.waiter_retire] at hs₂
  exact ⟨rfl, hs₂⟩

private theorem nextRequestId_shows {sid : Option SessionId} {v : Option UInt32}
    (h : Solo (Act.execAt cfg call now) (nextRequestId sid) s log v s') (hs : s.Shows V) :
    v = (V.allocate sid).1 ∧ s'.Shows (V.allocate sid).2 := by
  cases sid with
  | none =>
    obtain ⟨choice, log₁, h₁, -⟩ := h.of_act
    obtain ⟨rfl, rfl, -⟩ := h₁.of_ret
    have hnumbered := hs.numbered (s.nextId + 1)
    obtain ⟨-, rfl⟩ := hs
    exact ⟨rfl, hnumbered⟩
  | some sid =>
    obtain ⟨choice, log₁, h₁, -⟩ := h.of_act
    have hdoor := hs.door sid
    simp only [Act.execAt, Act.exec] at h₁
    cases hrt : s.sessions.lookup sid with
    | none =>
      rw [hrt] at h₁ hdoor
      obtain ⟨rfl, rfl, -⟩ := h₁.of_ret
      rw [View.allocate, hdoor]
      exact ⟨rfl, hs⟩
    | some rt =>
      rw [hrt] at h₁ hdoor
      rw [View.allocate, hdoor]
      obtain ⟨choice₂, log₂, h₂, -⟩ := h₁.of_act
      simp only [Act.execAt, Act.exec, hs.tidy.isOpen sid rt hrt] at h₂
      obtain ⟨choice₃, log₃, h₃, -⟩ := h₂.of_act
      obtain ⟨rfl, rfl, -⟩ := h₃.of_ret
      simp only [Option.map_some, Act.execAt, Act.exec, State.nextRequestIdFetchUpdate]
      by_cases hmax : (s.runtimes rt).nextRequestId ≠ 4294967295
      · rw [if_pos hmax, if_pos hmax]
        refine ⟨rfl, State.Shows.same ?_⟩
        have hset := hs.setRuntime
          (r := { s.runtimes rt with nextRequestId := (s.runtimes rt).nextRequestId + 1 }) hrt
          (hs.tidy.isOpen sid rt hrt) (hs.tidy.homed sid rt hrt)
        refine ⟨hset.tidy, hset.view.trans ?_⟩
        refine View.ext (funext fun key ↦ ?_) rfl rfl rfl rfl rfl
        show (if key.sessionId = some sid then _ else _) = V.slots key
        split
        next hkey => exact Slot.ext rfl rfl rfl (hs.listed hrt hkey).symm rfl
        next => rfl
      · rw [if_neg hmax, if_neg hmax]
        exact ⟨rfl, hs⟩

private theorem scheduleForDeadline_shows {deadlineAt : Instant} {slot : Slot} {v : Unit}
    (h : Solo (Act.execAt cfg call now) (scheduleForDeadline cfg key deadlineAt) s log v s')
    (hs : s.Shows (V.set key slot)) :
    s'.Shows (V.set key (slot.schedule (bucketFor cfg V.tick now deadlineAt))) := by
  have htick : s.currentTick = V.tick := congrArg View.tick hs.view
  simp only [scheduleForDeadline, perform_bind] at h
  obtain ⟨choice, log₁, h₁, -⟩ := h.of_act
  obtain ⟨choice₂, log₂, h₂, -⟩ := h₁.of_act
  obtain ⟨choice₃, log₃, h₃, -⟩ := h₂.of_act
  obtain ⟨-, rfl, -⟩ := h₃.of_ret
  have hs₁ : ({ s with clock := now } : State).Shows (V.set key slot) := hs.same
  have hpushed := hs₁.pushed (bucketFor cfg V.tick now deadlineAt) key
  rw [View.set_slots_self, View.set_set] at hpushed
  rw [← htick] at hpushed ⊢
  exact hpushed

/-- The runtime a registration goes to, if its session is open. -/
private theorem resolveRuntime_shows {v : Option (Option Nat)}
    (h : Solo (Act.execAt cfg call now) (resolveRuntime key) s log v s') (hs : s.Shows V) :
    s' = s ∧ (V.admits key.sessionId = false ∧ v = none ∨
      V.admits key.sessionId = true ∧ (key.sessionId = none ∧ v = some none ∨
        ∃ sid rt, key.sessionId = some sid ∧ s.sessions.lookup sid = some rt ∧
          v = some (some rt))) := by
  unfold resolveRuntime at h
  split at h
  next hsid =>
    obtain ⟨rfl, rfl, -⟩ := h.of_ret
    rw [hsid]
    exact ⟨rfl, .inr ⟨rfl, .inl ⟨rfl, rfl⟩⟩⟩
  next sid hsid =>
    have hdoor := hs.door sid
    rw [hsid]
    obtain ⟨choice, log₁, h₁, -⟩ := h.of_act
    simp only [Act.execAt, Act.exec] at h₁
    cases hrt : s.sessions.lookup sid with
    | none =>
      rw [hrt] at h₁ hdoor
      obtain ⟨rfl, rfl, -⟩ := h₁.of_ret
      exact ⟨rfl, .inl ⟨by rw [View.admits, hdoor]; rfl, rfl⟩⟩
    | some rt =>
      rw [hrt] at h₁ hdoor
      obtain ⟨choice₂, log₂, h₂, -⟩ := h₁.of_act
      simp only [Act.execAt, Act.exec, hs.tidy.isOpen sid rt hrt] at h₂
      obtain ⟨rfl, rfl, -⟩ := h₂.of_ret
      exact ⟨rfl, .inr ⟨by rw [View.admits, hdoor]; rfl, .inr ⟨sid, rt, rfl, hrt, rfl⟩⟩⟩

/-- The accepted entry is scheduled if it is inbound. -/
private def scheduled (cfg : RegistryConfig) (tick : Nat) (now : Instant) (schedule : Bool)
    (entry : RequestEntry) (slot : Slot) : Slot :=
  if schedule then slot.schedule (bucketFor cfg tick now entry.deadlineAt) else slot

private theorem acceptRegistration_shows {entry : RequestEntry} {schedule : Bool} {slot : Slot}
    {v : Option RequestToken}
    (h : Solo (Act.execAt cfg call now) (acceptRegistration cfg entry schedule) s log v s')
    (hs : s.Shows (V.set entry.key slot)) : v = some entry.token ∧
      s'.Shows (V.set entry.key (scheduled cfg V.tick now schedule entry slot)) := by
  unfold acceptRegistration at h
  split at h
  next hschedule =>
    obtain ⟨_, s₁, log₁, log₂, h₁, h₂, -⟩ := h.of_bind
    obtain ⟨rfl, rfl, -⟩ := h₂.of_ret
    rw [scheduled, if_pos hschedule]
    exact ⟨rfl, scheduleForDeadline_shows h₁ hs⟩
  next hschedule =>
    obtain ⟨rfl, rfl, -⟩ := h.of_ret
    rw [scheduled, if_neg hschedule]
    exact ⟨rfl, hs⟩

private theorem indexRegistration_shows {entry : RequestEntry} {schedule : Bool}
    {runtime : Option Nat}
    {v : Option RequestToken}
    (h : Solo (Act.execAt cfg call now) (indexRegistration cfg entry schedule runtime) s log v s')
    (hs : s.Shows (V.set entry.key
      { V.slots entry.key with entry := some entry, status := .pending }))
    (hunlisted : entry.key.sessionId = none → (V.slots entry.key).listed = false)
    (hruntime : entry.key.sessionId = none ∧ runtime = none ∨ ∃ sid rt,
      entry.key.sessionId = some sid ∧ s.sessions.lookup sid = some rt ∧ runtime = some rt) :
    v = some entry.token ∧ s'.Shows (V.set entry.key
      (scheduled cfg V.tick now schedule entry ((V.slots entry.key).enroll entry))) := by
  obtain ⟨hsid, rfl⟩ | ⟨sid, rt, hsid, hrt, rfl⟩ := hruntime
  · have henroll : { V.slots entry.key with entry := some entry, status := .pending } =
        (V.slots entry.key).enroll entry := by
      refine Slot.ext rfl rfl rfl ?_ rfl
      show (V.slots entry.key).listed = entry.key.sessionId.isSome
      rw [hunlisted hsid, hsid]
      rfl
    rw [henroll] at hs
    exact acceptRegistration_shows h hs
  · simp only [indexRegistration, perform_bind] at h
    obtain ⟨choice, log₁, h₁, -⟩ := h.of_act
    have hrequests : ∀ key', key' ∈ entry.token.key ::
        (s.runtimes rt).requests.filter (· ≠ entry.token.key) ↔
          key' = entry.key ∨ key' ∈ (s.runtimes rt).requests ∧ key' ≠ entry.key := by
      simp
    have hindex := hs.index true (entry.token.key ::
      (s.runtimes rt).requests.filter (· ≠ entry.token.key)) hrt hsid
      (fun key' hkey' ↦ ?_) ?_ fun key' hne ↦ ?_
    · rw [View.set_slots_self, View.set_set] at hindex
      obtain ⟨choice₂, log₂, h₂, -⟩ := h₁.of_act
      have hopen :
          ((Act.requestsInsert rt entry.token).execAt cfg call now choice s).2.runtimes rt =
          { s.runtimes rt with requests := entry.token.key ::
            (s.runtimes rt).requests.filter (· ≠ entry.token.key) } := Function.update_self _ _ _
      have htrue : ((Act.runtimeIsOpen rt).execAt cfg call now choice₂
          ((Act.requestsInsert rt entry.token).execAt cfg call now choice s).2).1 = true := by
        show (_ : SessionRuntime).isOpen = true
        rw [hopen]
        exact hs.tidy.isOpen sid rt hrt
      rw [htrue] at h₂
      have henroll : ({ V.slots entry.key with
          entry := some entry, status := .pending, listed := true } : Slot) =
          (V.slots entry.key).enroll entry := by
        refine Slot.ext rfl rfl rfl ?_ rfl
        show true = entry.key.sessionId.isSome
        rw [hsid]
        rfl
      rw [henroll] at hindex
      exact acceptRegistration_shows h₂ hindex.same
    · obtain rfl | ⟨hmem, -⟩ := (hrequests key').mp hkey'
      · exact hsid
      · exact hs.tidy.homed sid rt hrt key' hmem
    · simp
    · rw [hrequests]
      simp [hne]

private theorem enterRegistration_shows (entry : RequestEntry) {schedule : Bool}
    {runtime : Option Nat}
    {v : Option RequestToken}
    (h : Solo (Act.execAt cfg call now) (.act (.entriesInsert entry) fun vacant ↦
      if vacant then indexRegistration cfg entry schedule runtime
      else do
        op .pendingFetchSub
        pure none) s log v s') (hs : s.Shows V)
    (hruntime : entry.key.sessionId = none ∧ runtime = none ∨ ∃ sid rt,
      entry.key.sessionId = some sid ∧ s.sessions.lookup sid = some rt ∧ runtime = some rt) :
    (v, s'.view) = (if (V.slots entry.key).entry.isSome then (none, V)
      else (some entry.token, V.set entry.key
        (scheduled cfg V.tick now schedule entry ((V.slots entry.key).enroll entry)))) ∧
      s'.Tidy := by
  simp only [perform_bind] at h
  obtain ⟨choice, log₁, h₁, -⟩ := h.of_act
  have hexec :
      (Act.entriesInsert entry).execAt cfg call now choice s = s.entriesInsert call entry := rfl
  simp only [hexec] at h₁
  cases hentry : (V.slots entry.key).entry with
  | some old =>
    have hoccupied : s.entriesInsert call entry = (false, s) :=
      hs.occupied call (by rw [hentry]; exact Option.some_ne_none old)
    simp only [hoccupied, Bool.false_eq_true, if_false] at h₁
    obtain ⟨choice₂, log₂, h₂, -⟩ := h₁.of_act
    obtain ⟨rfl, rfl, -⟩ := h₂.of_ret
    exact ⟨congrArg (Prod.mk none) hs.view, hs.same.tidy⟩
  | none =>
    obtain ⟨htrue, hs₁⟩ := hs.inserted call hentry
    simp only [htrue, if_true] at h₁
    have hsessions : (s.entriesInsert call entry).2.sessions = s.sessions := by
      rw [State.entriesInsert]
      split <;> rfl
    obtain ⟨rfl, hs₂⟩ := indexRegistration_shows h₁ hs₁ (fun hsid ↦ hs.unlisted fun sid hsid' ↦
      absurd (hsid.symm.trans hsid') (Option.some_ne_none sid).symm) (by rwa [hsessions])
    exact ⟨congrArg (Prod.mk _) hs₂.view, hs₂.tidy⟩

private theorem registerImpl_shows {bizType : UInt8} {timeout : Duration} {schedule : Bool}
    {v : Option RequestToken}
    (h : Solo (Act.execAt cfg call now) (registerImpl cfg key bizType timeout schedule) s log v s')
    (hs : s.Shows V) :
    (v, s'.view) = V.enroll key bizType now timeout (scheduled cfg V.tick now schedule) ∧
      s'.Tidy := by
  obtain ⟨resolved, s₀, log₁, log₂, h₁, h₂, -⟩ := h.of_bind
  obtain ⟨rfl, ⟨hadmits, rfl⟩ | ⟨hadmits, hresolved⟩⟩ := resolveRuntime_shows h₁ hs
  · obtain ⟨rfl, rfl, -⟩ := h₂.of_ret
    simp only [View.enroll, hadmits]
    exact ⟨congrArg (Prod.mk none) hs.view, hs.tidy⟩
  obtain ⟨runtime, rfl, hruntime⟩ : ∃ runtime, resolved = some runtime ∧
      (key.sessionId = none ∧ runtime = none ∨ ∃ sid rt, key.sessionId = some sid ∧
        s₀.sessions.lookup sid = some rt ∧ runtime = some rt) := by
    obtain ⟨hsid, rfl⟩ | ⟨sid, rt, hsid, hrt, rfl⟩ := hresolved
    · exact ⟨none, rfl, .inl ⟨hsid, rfl⟩⟩
    · exact ⟨some rt, rfl, .inr ⟨sid, rt, hsid, hrt, rfl⟩⟩
  have hgenerated := hs.generated (s₀.nextGeneration + 1)
  obtain ⟨-, rfl⟩ := hs
  obtain ⟨choice, log₃, h₃, -⟩ := h₂.of_act
  obtain ⟨choice₂, log₄, h₄, -⟩ := h₃.of_act
  obtain ⟨choice₃, log₅, h₅, -⟩ := h₄.of_act
  simp only [View.enroll, hadmits, if_true]
  exact enterRegistration_shows ⟨key, bizType, now, now + timeout, s₀.nextGeneration⟩ h₅
    hgenerated.same hruntime

private theorem register_shows {id : UInt32} {sid : Option SessionId} {bizType : UInt8}
    {timeout : Duration} {v : Option RequestToken}
    (h : Solo (Act.execAt cfg call now) (register cfg id sid bizType timeout) s log v s')
    (hs : s.Shows V) : (v, s'.view) = V.enroll (.inbound sid id) bizType now timeout
      (fun entry slot ↦ slot.schedule (bucketFor cfg V.tick now entry.deadlineAt)) ∧ s'.Tidy :=
  registerImpl_shows h hs

/-- The waiter is put in, and the entry is still there. -/
private theorem attachWaiter_shows {token : RequestToken} {entry : RequestEntry}
    {v : Except DuplicateRequest (Nat × RequestToken)}
    (h : Solo (Act.execAt cfg call now) (attachWaiter key token) s log v s') (hs : s.Shows V)
    (hentry : (V.slots key).entry = some entry) :
    v = .ok (token.generation, token) ∧ s'.Shows (V.hook key token.generation) := by
  have hconfirm : ∀ {s₁ log₁}, s₁.Shows (V.hook key token.generation) →
      Solo (Act.execAt cfg call now) (confirmWaiter key token) s₁ log₁ v s' →
      v = .ok (token.generation, token) ∧ s'.Shows (V.hook key token.generation) := by
    intro s₁ log₁ hs₁ h₁
    obtain ⟨choice, log₂, h₂, -⟩ := h₁.of_act
    have hfound : s₁.entries.lookup key = some entry := by
      rw [hs₁.entry key, View.hook, View.ring_slots, View.ring_slots, View.set_slots_self]
      exact hentry
    simp only [Act.execAt, Act.exec, hfound] at h₂
    obtain ⟨rfl, rfl, -⟩ := h₂.of_ret
    exact ⟨rfl, hs₁⟩
  simp only [attachWaiter, perform_bind] at h
  obtain ⟨choice, log₁, h₁, -⟩ := h.of_act
  have hs₁ := (hs.waiting key token.generation).rung token.generation fun _ ↦ .empty
  simp only [Act.execAt, Act.exec] at h₁
  rw [View.hook, ← hs.waiter key] at hconfirm ⊢
  split at h₁
  next channel hold =>
    obtain ⟨choice₂, log₂, h₂, -⟩ := h₁.of_act
    rw [hold] at hconfirm ⊢
    exact hconfirm (hs₁.dropped channel) h₂
  next hold =>
    rw [hold] at hconfirm ⊢
    exact hconfirm hs₁ h₁

private theorem tryRegisterWaiter_shows {requestId : UInt32} {sid : Option SessionId}
    {bizType : UInt8} {timeout : Duration} {v : Except DuplicateRequest (Nat × RequestToken)}
    (h : Solo (Act.execAt cfg call now)
      (tryRegisterWaiter cfg requestId sid bizType timeout) s log v s')
    (hs : s.Shows V) :
    (v, s'.view) = V.await requestId sid bizType now timeout ∧ s'.Tidy := by
  obtain ⟨registered, s₁, log₁, log₂, h₁, h₂, -⟩ := h.of_bind
  obtain ⟨heq, htidy⟩ := registerImpl_shows h₁ hs
  have hplain : scheduled cfg V.tick now false = fun _ slot ↦ slot := rfl
  rw [hplain] at heq
  have hentry : ∀ token, registered = some token →
      ((s₁.view.slots (.outbound sid requestId)).entry).isSome := by
    rintro token rfl
    unfold View.enroll at heq
    dsimp only at heq
    split at heq
    next hadmits =>
      split at heq
      next => cases heq
      next =>
        rw [(Prod.mk.inj heq).2, View.set_slots_self]
        rfl
    next => cases heq
  unfold View.await
  rw [← heq]
  cases registered with
  | none =>
    obtain ⟨rfl, rfl, -⟩ := h₂.of_ret
    exact ⟨rfl, htidy⟩
  | some token =>
    obtain ⟨entry, hentry⟩ := Option.isSome_iff_exists.mp (hentry token rfl)
    obtain ⟨rfl, hs'⟩ := attachWaiter_shows h₂ htidy.shows hentry
    exact ⟨congrArg (Prod.mk _) hs'.view, hs'.tidy⟩

end Methods

namespace View

variable {V : View} {key : RequestKey} {f : Slot → Slot}

/-- A visit that leaves the waiter. -/
theorem visit_of_waiter (h : (f (V.slots key)).waiter = (V.slots key).waiter) :
    V.visit f key = V.set key (f (V.slots key)) := by
  rw [visit, h]
  cases hwaiter : (V.slots key).waiter with
  | none => rfl
  | some channel => rw [if_neg (Option.some_ne_none channel), ring_id]

theorem visit_of_eq (h : f (V.slots key) = V.slots key) : V.visit f key = V := by
  rw [visit_of_waiter (congrArg Slot.waiter h), h, set_self]

/-- A visit after which the waiter is gone. -/
theorem visit_of_gone (h : (f (V.slots key)).waiter = none) :
    V.visit f key = (V.set key (f (V.slots key))).ring (V.slots key).waiter Reply.hangUp := by
  rw [visit, if_pos h]

@[simp] theorem visit_tick : (V.visit f key).tick = V.tick := by
  unfold visit ring
  split <;> rfl

end View

namespace Slot

variable {cfg : RegistryConfig} {tick : Nat} {now : Instant}

theorem sheds_visit : Sheds (visit cfg tick now) := by
  intro slot
  unfold visit
  split
  · exact .inl rfl
  · split
    · exact .inl rfl
    · split
      · exact .inr rfl
      · exact .inl rfl

/-- After a visit nothing is overdue. -/
theorem overdue_visit (slot : Slot) : (slot.visit cfg tick now).overdue now = false := by
  unfold visit
  split
  next hentry => simp [overdue, hentry]
  next entry hentry =>
    split
    next hstatus => simp [overdue, hentry, hstatus]
    next hstatus =>
      split
      next => rfl
      next hdeadline => simp [overdue, schedule, hentry, hdeadline]

theorem sheds_drain : Sheds drain := by
  intro slot
  unfold drain
  split
  · exact .inr rfl
  · exact .inl rfl

/-- After the drain nothing dies any more. -/
theorem dies_drain (slot : Slot) : slot.drain.dies = false := by
  unfold drain
  split
  next => rfl
  next h => exact Bool.not_eq_true _ ▸ h

theorem drain_drain (slot : Slot) : slot.drain.drain = slot.drain := by
  rw [drain, if_neg (by rw [dies_drain]; exact Bool.false_ne_true)]

/-- What the index lists is nothing to the drain. -/
theorem drain_hide (slot : Slot) :
    { slot with listed := false }.drain = { slot.drain with listed := false } := by
  have hdies : { slot with listed := false }.dies = slot.dies := rfl
  rw [drain, drain, hdies]
  split <;> rfl

theorem sheds_abandon : Sheds abandon := fun _ ↦ .inr rfl

/-- An entry is aborted by the key once. -/
theorem mark_abandon (slot : Slot) : slot.abandon.mark .pending ≠ .updated := by
  have hunhook : ∀ slot : Slot, slot.unhook.mark .pending = slot.mark .pending := fun _ ↦ rfl
  rw [abandon, hunhook, settle]
  split
  next => exact MarkResult.noConfusion
  next h => exact h

theorem abandon_hide (slot : Slot) :
    { slot with listed := false }.abandon = { slot.abandon with listed := false } := by
  have hmark : { slot with listed := false }.mark .pending = slot.mark .pending := rfl
  rw [abandon, abandon, hmark, settle, settle]
  split <;> rfl

theorem abandon_abandon (slot : Slot) : slot.abandon.abandon = slot.abandon := by
  rw [abandon, settle, if_neg slot.mark_abandon]
  rfl

end Slot

section Loops

variable {cfg : RegistryConfig} {call : Nat} {now : Instant} {s s' : State} {V : View}
  {log : Log Act Act.Resp}

private theorem scanKeys_shows {keys : List RequestKey} {n v : Nat}
    (h : Solo (Act.execAt cfg call now) (scanKeys cfg now keys n) s log v s') (hs : s.Shows V) :
    v = n + V.tally (·.overdue now) keys ∧ s'.Shows (V.pass (Slot.visit cfg V.tick now) keys) := by
  induction keys generalizing n s V log with
  | nil =>
    obtain ⟨rfl, rfl, -⟩ := h.of_ret
    rw [View.tally_nil, View.pass_nil]
    exact ⟨rfl, hs⟩
  | cons key keys ih =>
    rw [View.tally_cons (f := Slot.visit cfg V.tick now) Slot.overdue_visit,
      View.pass_cons Slot.sheds_visit]
    -- What is left of the loop, after a visit that was no timeout.
    have hskip : ∀ {s₁ log₁}, s₁.Shows (V.visit (Slot.visit cfg V.tick now) key) →
        (V.slots key).overdue now = false →
        Solo (Act.execAt cfg call now) (scanKeys cfg now keys n) s₁ log₁ v s' →
        v = n + ((if (V.slots key).overdue now then 1 else 0) +
          (V.visit (Slot.visit cfg V.tick now) key).tally (·.overdue now) keys) ∧
        s'.Shows ((V.visit (Slot.visit cfg V.tick now) key).pass (Slot.visit cfg V.tick now)
          keys) := by
      intro s₁ log₁ hs₁ hfine h₁
      have hrest := ih h₁ hs₁
      rw [View.visit_tick] at hrest
      rw [hfine, if_neg Bool.false_ne_true, Nat.zero_add]
      exact hrest
    simp only [scanKeys, perform_bind] at h
    obtain ⟨choice, log₁, h₁, -⟩ := h.of_act
    simp only [Act.execAt, Act.exec, hs.entry key] at h₁
    cases hentry : (V.slots key).entry with
    | none =>
      rw [hentry] at h₁
      have hvisit : V.visit (Slot.visit cfg V.tick now) key = V :=
        View.visit_of_eq (by simp only [Slot.visit, hentry])
      exact hskip (by rwa [hvisit]) (by simp [Slot.overdue, hentry]) h₁
    | some entry =>
      rw [hentry] at h₁
      obtain ⟨choice₂, log₂, h₂, -⟩ := h₁.of_act
      simp only [Act.execAt, Act.exec, hs.status hentry] at h₂
      split at h₂
      next hstatus =>
        have hvisit : V.visit (Slot.visit cfg V.tick now) key = V :=
          View.visit_of_eq (by simp only [Slot.visit, hentry, if_pos hstatus])
        exact hskip (by rwa [hvisit]) (by simp [Slot.overdue, hentry, hstatus]) h₂
      next hstatus =>
        split at h₂
        next hdeadline =>
          have hvisit : (V.slots key).visit cfg V.tick now = (V.slots key).retire.unhook := by
            simp only [Slot.visit, hentry, if_neg hstatus, if_pos hdeadline]
          have hmark : (V.slots key).mark .pending = .updated := by
            simp only [Slot.mark, hentry, if_pos (not_not.mp hstatus)]
          have hover : (V.slots key).overdue now = true := by
            simp [Slot.overdue, hentry, not_not.mp hstatus, hdeadline]
          obtain ⟨marked, s₃, log₃, log₄, h₃, h₄, -⟩ := h₂.of_bind
          obtain ⟨rfl, hs₃⟩ := markTimedOut_shows h₃ hs
          rw [hmark, Slot.settle, if_pos rfl, if_pos rfl, ← hvisit,
            ← View.visit_of_gone (by rw [hvisit]; rfl)] at hs₃
          rw [hmark, if_pos rfl] at h₄
          have hrest := ih h₄ hs₃
          rw [View.visit_tick] at hrest
          rw [hover, if_pos rfl, ← Nat.add_assoc]
          exact hrest
        next hdeadline =>
          have hvisit : (V.slots key).visit cfg V.tick now =
              (V.slots key).schedule (bucketFor cfg V.tick now entry.deadlineAt) := by
            simp only [Slot.visit, hentry, if_neg hstatus, if_neg hdeadline]
          obtain ⟨_, s₃, log₃, log₄, h₃, h₄, -⟩ := h₂.of_bind
          have hkept : s.Shows (V.set key (V.slots key)) := by rwa [View.set_self]
          have hs₃ := scheduleForDeadline_shows h₃ hkept
          rw [← hvisit, ← View.visit_of_waiter (by rw [hvisit]; rfl)] at hs₃
          exact hskip hs₃ (by simp [Slot.overdue, hentry, hdeadline]) h₄

private theorem scanTimeoutBucket_shows {v : Nat}
    (h : Solo (Act.execAt cfg call now) (scanTimeoutBucket cfg) s log v s') (hs : s.Shows V) :
    (v, s'.view) = V.scan cfg now ∧ s'.Tidy := by
  obtain ⟨V₁, hV₁, hs₁⟩ : ∃ V₁, _ = V₁ ∧ State.Shows _ V₁ :=
    ⟨_, rfl, (hs.ticked ((s.currentTick + 1) % 2 ^ 64)).swapped
      ((s.currentTick + 1) % 2 ^ 64 % cfg.bucketCount)⟩
  have htick : (s.currentTick + 1) % 2 ^ 64 = V₁.tick := by rw [← hV₁]
  obtain ⟨-, rfl⟩ := hs
  simp only [scanTimeoutBucket, perform_bind] at h
  obtain ⟨choice, log₁, h₁, -⟩ := h.of_act
  obtain ⟨choice₂, log₂, h₂, -⟩ := h₁.of_act
  have hscan : v = V₁.tally (·.overdue now) (s.buckets (V₁.tick % cfg.bucketCount)) ∧
      s'.Shows (V₁.pass (Slot.visit cfg V₁.tick now) (s.buckets (V₁.tick % cfg.bucketCount))) := by
    rw [← htick]
    split at h₂
    next hempty =>
      obtain ⟨rfl, rfl, -⟩ := h₂.of_ret
      have hnone : s.buckets ((s.currentTick + 1) % 2 ^ 64 % cfg.bucketCount) = [] := hempty
      rw [hnone, View.tally_nil, View.pass_nil]
      exact ⟨rfl, hs₁⟩
    next =>
      obtain ⟨choice₃, log₃, h₃, -⟩ := h₂.of_act
      have hkeys := scanKeys_shows h₃ hs₁.same
      rw [Nat.zero_add, ← htick] at hkeys
      exact hkeys
  subst hV₁
  obtain ⟨rfl, hs'⟩ := hscan
  refine ⟨congrArg₂ Prod.mk ?_ hs'.view, hs'.tidy⟩
  rw [View.tally]
  congr 1
  ext key
  show _ ∧ _ ↔ List.count key _ ≠ 0 ∧ _
  rw [← Nat.pos_iff_ne_zero, List.count_pos_iff]
  rfl

private theorem dieWithSession_shows {key : RequestKey} {entry : RequestEntry} {v : Bool}
    (h : Solo (Act.execAt cfg call now) (dieWithSession entry.token) s log v s') (hs : s.Shows V)
    (hentry : (V.slots key).entry = some entry) :
    v = (V.slots key).dies ∧ s'.runtimes = s.runtimes ∧ s'.sessions = s.sessions ∧
      ∃ status, s'.Shows (V.set key { V.slots key with status := status }) ∧
        (v = false → status = (V.slots key).status) := by
  have hsame : ∀ caller source target,
      (s.tryTransition call caller entry.token source target).2.runtimes = s.runtimes ∧
      (s.tryTransition call caller entry.token source target).2.sessions = s.sessions := by
    intro caller source target
    unfold State.tryTransition
    repeat' split
    all_goals exact ⟨rfl, rfl⟩
  have hpresent : (V.slots key).entry.isSome = true := by rw [hentry]; rfl
  simp only [dieWithSession, perform_bind] at h
  obtain ⟨choice, log₁, h₁, -⟩ := h.of_act
  simp only [Act.execAt, Act.exec] at h₁
  by_cases hpending : (V.slots key).status = .pending
  · obtain ⟨hok, hs₁⟩ := hs.transition call .drain .sessionClosed hentry hpending (by decide)
    rw [hok] at h₁
    obtain ⟨rfl, rfl, -⟩ := h₁.of_ret
    obtain ⟨hruntimes, hsessions⟩ := hsame .drain .pending .sessionClosed
    refine ⟨?_, hruntimes, hsessions, _, hs₁, Bool.noConfusion⟩
    simp [Slot.dies, hpresent, hpending]
  rw [hs.refused hentry hpending] at h₁
  obtain ⟨choice₂, log₂, h₂, -⟩ := h₁.of_act
  simp only [Act.execAt, Act.exec] at h₂
  by_cases hresponding : (V.slots key).status = .responding
  · obtain ⟨hok, hs₂⟩ := hs.transition call .drain .sessionClosed hentry hresponding (by decide)
    rw [hok] at h₂
    obtain ⟨rfl, rfl, -⟩ := h₂.of_ret
    obtain ⟨hruntimes, hsessions⟩ := hsame .drain .responding .sessionClosed
    refine ⟨?_, hruntimes, hsessions, _, hs₂, Bool.noConfusion⟩
    simp [Slot.dies, hpresent, hresponding]
  · rw [hs.refused hentry hresponding] at h₂
    obtain ⟨rfl, rfl, -⟩ := h₂.of_ret
    refine ⟨?_, rfl, rfl, (V.slots key).status, ?_, fun _ ↦ rfl⟩
    · simp [Slot.dies, hpending, hresponding]
    · rwa [View.set_self]

private theorem dropWaiter_same {key : RequestKey} {v : Unit}
    (h : Solo (Act.execAt cfg call now) (dropWaiter key) s log v s') :
    s'.runtimes = s.runtimes ∧ s'.sessions = s.sessions := by
  simp only [dropWaiter, perform_bind] at h
  obtain ⟨choice, log₁, h₁, -⟩ := h.of_act
  split at h₁
  next channel _ =>
    obtain ⟨choice₂, log₂, h₂, -⟩ := h₁.of_act
    obtain ⟨-, rfl, -⟩ := h₂.of_ret
    simp only [Act.execAt, Act.exec, State.channelDrop]
    split <;> exact ⟨rfl, rfl⟩
  next =>
    obtain ⟨-, rfl, -⟩ := h₁.of_ret
    exact ⟨rfl, rfl⟩

private theorem drainKeys_shows {keys : List RequestKey} {n v : Nat}
    (h : Solo (Act.execAt cfg call now) (drainKeys keys n) s log v s') (hs : s.Shows V) :
    v = n + V.tally Slot.dies keys ∧ s'.Shows (V.pass Slot.drain keys) ∧
      s'.runtimes = s.runtimes ∧ s'.sessions = s.sessions := by
  induction keys generalizing n s V log with
  | nil =>
    obtain ⟨rfl, rfl, -⟩ := h.of_ret
    rw [View.tally_nil, View.pass_nil]
    exact ⟨rfl, hs, rfl, rfl⟩
  | cons key keys ih =>
    rw [View.tally_cons (f := Slot.drain) Slot.dies_drain, View.pass_cons Slot.sheds_drain]
    simp only [drainKeys, perform_bind] at h
    obtain ⟨choice, log₁, h₁, -⟩ := h.of_act
    simp only [Act.execAt, Act.exec, hs.entry key] at h₁
    cases hentry : (V.slots key).entry with
    | none =>
      rw [hentry] at h₁
      have hlives : (V.slots key).dies = false := by simp [Slot.dies, hentry]
      have hvisit : V.visit Slot.drain key = V :=
        View.visit_of_eq (by rw [Slot.drain, hlives]; rfl)
      rw [hvisit, hlives, if_neg Bool.false_ne_true, Nat.zero_add]
      exact ih h₁ hs
    | some entry =>
      rw [hentry] at h₁
      obtain ⟨died, s₂, log₂, log₃, h₂, h₃, -⟩ := h₁.of_bind
      obtain ⟨rfl, hruntimes, hsessions, status, hs₂, hstatus⟩ := dieWithSession_shows h₂ hs hentry
      rw [← hruntimes, ← hsessions]
      split at h₃
      next hdies =>
        obtain ⟨choice₄, log₄, h₄, -⟩ := h₃.of_act
        obtain ⟨choice₅, log₅, h₅, -⟩ := h₄.of_act
        obtain ⟨_, s₆, log₆, log₇, h₆, h₇, -⟩ := h₅.of_bind
        have hs₄ : ((Act.pendingFetchSub).execAt cfg call now choice₄ s₂).2.Shows _ := hs₂.same
        have hs₅ := hs₄.erased call .drain key
        rw [View.set_slots_self, View.set_set] at hs₅
        have hs₆ := unhooked h₆ hs₅
        have hdrain : (V.slots key).drain =
            { (V.slots key).unhook with entry := none, status := .dropped } := by
          rw [Slot.drain, if_pos hdies]
        have hvisit : V.visit Slot.drain key = (V.set key (V.slots key).drain).ring
            (V.slots key).waiter Reply.hangUp :=
          View.visit_of_gone (by rw [hdrain]; rfl)
        rw [hdrain] at hvisit
        rw [hvisit, if_pos hdies, ← Nat.add_assoc]
        have hremoved : ∀ s : State, (s.entriesRemove call .drain key).runtimes = s.runtimes ∧
            (s.entriesRemove call .drain key).sessions = s.sessions := by
          intro s
          unfold State.entriesRemove
          split <;> exact ⟨rfl, rfl⟩
        obtain ⟨hv, hs', hruntimes', hsessions'⟩ := ih h₇ hs₆
        obtain ⟨hruntimes₆, hsessions₆⟩ := dropWaiter_same h₆
        obtain ⟨hruntimes₅, hsessions₅⟩ :=
          hremoved ((Act.pendingFetchSub).execAt cfg call now choice₄ s₂).2
        exact ⟨hv, hs', (hruntimes'.trans hruntimes₆).trans hruntimes₅,
          (hsessions'.trans hsessions₆).trans hsessions₅⟩
      next hlives =>
        have hsame := hstatus (Bool.not_eq_true _ ▸ hlives)
        rw [hsame, View.set_self] at hs₂
        have hvisit : V.visit Slot.drain key = V :=
          View.visit_of_eq (by rw [Slot.drain, if_neg hlives])
        rw [hvisit, if_neg hlives, Nat.zero_add]
        exact ih h₃ hs₂

private theorem drainShards_shows {rt : Nat} {n closed v : Nat}
    (h : Solo (Act.execAt cfg call now) (drainShards cfg rt n closed) s log v s')
    (hn : n ≤ cfg.shards) (hs : s.Shows V) :
    ∃ keys, (∀ key, key ∈ keys ↔
        key ∈ (s.runtimes rt).requests ∧ cfg.shards - n ≤ cfg.shardOf key) ∧
      v = closed + V.tally Slot.dies keys ∧ s'.Shows (V.pass Slot.drain keys) ∧
      s'.runtimes = s.runtimes ∧ s'.sessions = s.sessions := by
  induction n generalizing closed s V log with
  | zero =>
    obtain ⟨rfl, rfl, -⟩ := h.of_ret
    refine ⟨[], fun key ↦ ?_, ?_, ?_, rfl, rfl⟩
    · have hlt := cfg.shardOf_lt key
      simp only [List.not_mem_nil, false_iff, not_and, Nat.sub_zero]
      omega
    · rw [View.tally_nil, Nat.add_zero]
    · rwa [View.pass_nil]
  | succ n ih =>
    simp only [drainShards, perform_bind] at h
    obtain ⟨choice, log₁, h₁, -⟩ := h.of_act
    obtain ⟨closed₂, s₂, log₂, log₃, h₂, h₃, -⟩ := h₁.of_bind
    change Solo _ (drainKeys (arrange choice ((s.runtimes rt).requests.filter
      fun key ↦ cfg.shardOf key = cfg.shards - (n + 1))) closed) s _ _ _ at h₂
    obtain ⟨rfl, hs₂, hruntimes, hsessions⟩ := drainKeys_shows h₂ hs
    obtain ⟨keys, hkeys, rfl, hs', hruntimes', hsessions'⟩ := ih h₃ (Nat.le_of_succ_le hn) hs₂
    refine ⟨arrange choice ((s.runtimes rt).requests.filter
      fun key ↦ cfg.shardOf key = cfg.shards - (n + 1)) ++ keys, fun key ↦ ?_, ?_, ?_,
        hruntimes'.trans hruntimes, hsessions'.trans hsessions⟩
    · rw [List.mem_append, hkeys, mem_arrange, List.mem_filter, hruntimes, decide_eq_true_iff,
        ← and_or_left]
      have hlt := cfg.shardOf_lt key
      refine and_congr_right fun _ ↦ ?_
      omega
    · exact (Nat.add_assoc _ _ _).trans
        (congrArg _ (View.tally_append Slot.sheds_drain Slot.dies_drain _ _).symm)
    · rwa [View.pass_append Slot.sheds_drain]

private theorem closeSessionPending_shows {sid : SessionId} {v : Nat}
    (h : Solo (Act.execAt cfg call now) (closeSessionPending cfg sid) s log v s')
    (hs : s.Shows V) : (v, s'.view) = V.close sid ∧ s'.Tidy := by
  have hdoor := hs.door sid
  simp only [closeSessionPending, perform_bind] at h
  obtain ⟨choice, log₁, h₁, -⟩ := h.of_act
  simp only [Act.execAt, Act.exec] at h₁
  cases hrt : s.sessions.lookup sid with
  | none =>
    rw [hrt] at h₁ hdoor
    obtain ⟨rfl, rfl, -⟩ := h₁.of_ret
    have hclose : V.close sid = (0, V) := by rw [View.close, hdoor]; rfl
    have hleft := hs.left sid
    have hsame : View.mk (fun key ↦ if key.sessionId = some sid then
        { V.slots key with listed := false } else V.slots key)
        (Function.update V.doors sid none) V.replies V.tick V.generation V.nextId = V := by
      refine View.ext (funext fun key ↦ ?_) ?_ rfl rfl rfl rfl
      · dsimp only
        split
        next hkey =>
          refine Slot.ext rfl rfl rfl (hs.unlisted fun sid' hsid' ↦ ?_).symm rfl
          rwa [← Option.some.inj (hkey.symm.trans hsid')]
        next => rfl
      · exact Function.update_eq_self_iff.mpr hdoor.symm
    rw [hclose]
    exact ⟨congrArg (Prod.mk 0) (hleft.view.trans hsame), hleft.same.tidy⟩
  | some rt =>
    rw [hrt] at h₁ hdoor
    have hgone : ∀ sid', (s.sessions.erase sid).lookup sid' ≠ some rt := by
      intro sid' h
      by_cases heq : sid' = sid
      · rw [heq, AList.lookup_erase] at h
        cases h
      · rw [AList.lookup_erase_ne heq] at h
        exact heq (hs.tidy.distinct sid' sid rt h hrt)
    obtain ⟨W, hW, hs₁⟩ : ∃ W, _ = W ∧ (State.record _ (.closed sid)).Shows W :=
      ⟨_, rfl, (hs.left sid).same⟩
    obtain ⟨choice₂, log₂, h₂, -⟩ := h₁.of_act
    have hs₂ := hs₁.hidden hgone { s.runtimes rt with isOpen := false }
    obtain ⟨closed, s₃, log₃, log₄, h₃, h₄, -⟩ := h₂.of_bind
    obtain ⟨keys, hkeys, rfl, hs₃, hruntimes, hsessions⟩ :=
      drainShards_shows h₃ (Nat.le_refl _) hs₂
    obtain ⟨choice₅, log₅, h₅, -⟩ := h₄.of_act
    have hs₄ := hs₃.hidden (fun sid' ↦ by rw [hsessions]; exact hgone sid')
      { s₃.runtimes rt with requests := [] }
    have hend : v = 0 + W.tally Slot.dies keys ∧ s'.Shows (W.pass Slot.drain keys) := by
      split at h₅
      next =>
        obtain ⟨choice₆, log₆, h₆, -⟩ := h₅.of_act
        obtain ⟨rfl, rfl, -⟩ := h₆.of_ret
        exact ⟨rfl, hs₄.same⟩
      next =>
        obtain ⟨rfl, rfl, -⟩ := h₅.of_ret
        exact ⟨rfl, hs₄⟩
    obtain ⟨rfl, hs'⟩ := hend
    have hmem : ∀ key, key ∈ keys ↔ key.sessionId = some sid ∧ (V.slots key).listed = true := by
      intro key
      have hrequests : key ∈ keys ↔ key ∈ (s.runtimes rt).requests := by
        rw [hkeys, Nat.sub_self]
        refine (and_iff_left (Nat.zero_le _)).trans ?_
        show key ∈ (Function.update s.runtimes rt _ rt).requests ↔ _
        rw [Function.update_self]
        rfl
      rw [hrequests]
      constructor
      · intro hkey
        have hsid := hs.tidy.homed sid rt hrt key hkey
        exact ⟨hsid, by rw [hs.listed hrt hsid]; exact decide_eq_true hkey⟩
      · rintro ⟨hsid, hlisted⟩
        rw [hs.listed hrt hsid] at hlisted
        exact of_decide_eq_true hlisted
    have hclose : V.close sid = ({key : RequestKey | key.sessionId = some sid ∧
        (V.slots key).listed ∧ (V.slots key).dies}.ncard,
        { V.sweep fun key slot ↦ if key.sessionId = some sid then slot.close else slot with
          doors := Function.update V.doors sid none }) := by
      rw [View.close, hdoor]
      rfl
    rw [View.pass_of_idempotent Slot.drain_drain] at hs'
    have hcongr := W.sweep_congr (V := V)
      (f := fun key slot ↦ if key ∈ keys then slot.drain else slot)
      (g := fun key slot ↦ if key.sessionId = some sid then slot.close else slot) ?_ ?_ ?_
    · rw [hclose]
      refine ⟨congrArg₂ Prod.mk ?_ (hs'.view.trans ?_), hs'.tidy⟩
      · rw [Nat.zero_add, View.tally]
        congr 1
        ext key
        have hdies : (W.slots key).dies = (V.slots key).dies := by
          rw [← hW]
          dsimp only
          split <;> rfl
        show key ∈ keys ∧ (W.slots key).dies = true ↔ _
        rw [hmem, hdies, and_assoc]
        rfl
      · refine View.ext hcongr.1 ?_ hcongr.2 ?_ ?_ ?_
        all_goals
          rw [← hW]
          rfl
    · intro key
      rw [← hW]
      dsimp only
      by_cases hsid : key.sessionId = some sid
      · rw [if_pos hsid, if_pos hsid, Slot.close]
        by_cases hlisted : (V.slots key).listed = true
        · rw [if_pos ((hmem key).mpr ⟨hsid, hlisted⟩), if_pos hlisted]
          exact Slot.drain_hide _
        · rw [if_neg fun h ↦ hlisted ((hmem key).mp h).2, if_neg hlisted]
      · rw [if_neg hsid, if_neg hsid, if_neg fun h ↦ hsid ((hmem key).mp h).1]
    · intro key
      rw [← hW]
      dsimp only
      split <;> rfl
    · rw [← hW]

/-- Every shard read, the keys of the map are collected. -/
private theorem collectShards_reads {α : Type} {shard : Nat → Task (List α)} {P : State → α → Prop}
    {shardOf : α → Nat} (hlt : ∀ x, shardOf x < cfg.shards)
    (hshard : ∀ i {s s' log v}, Solo (Act.execAt cfg call now) (shard i) s log v s' →
      s' = s ∧ ∀ x, x ∈ v ↔ P s x ∧ shardOf x = i) {n : Nat} {v : List α}
    (h : Solo (Act.execAt cfg call now) (collectShards cfg shard n) s log v s')
    (hn : n ≤ cfg.shards) : s' = s ∧ ∀ x, x ∈ v ↔ P s x ∧ cfg.shards - n ≤ shardOf x := by
  induction n generalizing v log s' with
  | zero =>
    obtain ⟨rfl, rfl, -⟩ := h.of_ret
    refine ⟨rfl, fun x ↦ ?_⟩
    have hx := hlt x
    simp only [List.not_mem_nil, false_iff, not_and, Nat.sub_zero]
    omega
  | succ n ih =>
    obtain ⟨here, s₁, log₁, log₂, h₁, h₂, -⟩ := h.of_bind
    obtain ⟨rfl, hhere⟩ := hshard _ h₁
    obtain ⟨rest, s₂, log₃, log₄, h₃, h₄, -⟩ := h₂.of_bind
    obtain ⟨rfl, hrest⟩ := ih h₃ (Nat.le_of_succ_le hn)
    obtain ⟨rfl, rfl, -⟩ := h₄.of_ret
    refine ⟨rfl, fun x ↦ ?_⟩
    rw [List.mem_append, hhere, hrest, ← and_or_left]
    have hx := hlt x
    refine and_congr_right fun _ ↦ ?_
    omega

/-- The sessions of a list are closed, and of the view only doors and indexes change. -/
private theorem closeRuntimes_shows {sids : List SessionId} {v : Unit}
    (h : Solo (Act.execAt cfg call now) (closeRuntimes sids) s log v s') (hs : s.Shows V) :
    ∃ W, s'.Shows W ∧ (∀ key, { W.slots key with listed := false } =
        { V.slots key with listed := false }) ∧ W.replies = V.replies ∧ W.tick = V.tick ∧
      W.generation = V.generation ∧ W.nextId = V.nextId ∧
      ∀ sid, sid ∈ sids ∨ s.sessions.lookup sid = none → s'.sessions.lookup sid = none := by
  induction sids generalizing s V log with
  | nil =>
    obtain ⟨-, rfl, -⟩ := h.of_ret
    exact ⟨V, hs, fun _ ↦ rfl, rfl, rfl, rfl, rfl, fun sid h ↦
      h.resolve_left List.not_mem_nil⟩
  | cons sid sids ih =>
    simp only [closeRuntimes, perform_bind] at h
    obtain ⟨choice, log₁, h₁, -⟩ := h.of_act
    obtain ⟨V₁, hV₁, hs₁⟩ : ∃ V₁, _ = V₁ ∧
        ((Act.sessionsRemove sid).execAt cfg call now choice s).2.Shows V₁ :=
      ⟨_, rfl, (hs.left sid).same⟩
    have hlookup : ∀ sid', sid' ∈ sid :: sids ∨ s.sessions.lookup sid' = none →
        sid' ∈ sids ∨ (s.sessions.erase sid).lookup sid' = none := by
      intro sid' h
      by_cases heq : sid' = sid
      · exact .inr (by rw [heq, AList.lookup_erase])
      · rw [AList.lookup_erase_ne heq]
        exact h.imp_left fun hmem ↦ (List.mem_cons.mp hmem).resolve_left heq
    obtain ⟨s₂, log₂, hs₂, hsessions, h₂⟩ : ∃ s₂ log₂, s₂.Shows V₁ ∧
        s₂.sessions = s.sessions.erase sid ∧
        Solo (Act.execAt cfg call now) (closeRuntimes sids) s₂ log₂ v s' := by
      cases hrt : s.sessions.lookup sid with
      | none =>
        have hnone : ((Act.sessionsRemove sid).execAt cfg call now choice s).1 = none := hrt
        rw [hnone] at h₁
        exact ⟨_, _, hs₁, rfl, h₁⟩
      | some rt =>
        have hsome : ((Act.sessionsRemove sid).execAt cfg call now choice s).1 = some rt := hrt
        rw [hsome] at h₁
        obtain ⟨choice₂, log₂, h₂, -⟩ := h₁.of_act
        refine ⟨_, _, hs₁.hidden (fun sid' h ↦ ?_) _, rfl, h₂⟩
        change (s.sessions.erase sid).lookup sid' = some rt at h
        by_cases heq : sid' = sid
        · rw [heq, AList.lookup_erase] at h
          cases h
        · rw [AList.lookup_erase_ne heq] at h
          exact heq (hs.tidy.distinct sid' sid rt h hrt)
    obtain ⟨W, hW, hslots, hreplies, htick, hgeneration, hnextId, hclosed⟩ := ih h₂ hs₂
    subst hV₁
    refine ⟨W, hW, fun key ↦ (hslots key).trans ?_, hreplies, htick, hgeneration, hnextId,
      fun sid' h ↦ hclosed sid' (by rw [hsessions]; exact hlookup sid' h)⟩
    dsimp only
    split <;> rfl

private theorem abortKeys_shows {keys : List RequestKey} {n v : Nat}
    (h : Solo (Act.execAt cfg call now) (abortKeys keys n) s log v s') (hs : s.Shows V) :
    v = n + V.tally (fun slot ↦ slot.mark .pending = .updated) keys ∧
      s'.Shows (V.pass Slot.abandon keys) := by
  induction keys generalizing n s V log with
  | nil =>
    obtain ⟨rfl, rfl, -⟩ := h.of_ret
    rw [View.tally_nil, View.pass_nil]
    exact ⟨rfl, hs⟩
  | cons key keys ih =>
    rw [View.tally_cons (f := Slot.abandon) fun slot ↦ decide_eq_false slot.mark_abandon,
      View.pass_cons Slot.sheds_abandon]
    obtain ⟨marked, s₁, log₁, log₂, h₁, h₂, -⟩ := h.of_bind
    obtain ⟨rfl, hs₁⟩ := markDroppedKey_shows h₁ hs
    obtain ⟨_, s₂, log₃, log₄, h₃, h₄, -⟩ := h₂.of_bind
    have hs₂ := unhooked h₃ hs₁
    rw [Slot.settle_waiter Slot.waiter_retire] at hs₂
    have hvisit : V.visit Slot.abandon key = (V.set key (V.slots key).abandon).ring
        (V.slots key).waiter Reply.hangUp := View.visit_of_gone rfl
    have hvisited : s₂.Shows (V.visit Slot.abandon key) := by
      rw [hvisit]
      exact hs₂
    obtain ⟨rfl, hs'⟩ := ih h₄ hvisited
    refine ⟨?_, hs'⟩
    by_cases hmark : (V.slots key).mark .pending = .updated
    · simp only [hmark, decide_true, if_true, Nat.add_assoc]
    · simp only [hmark, decide_false, Bool.false_eq_true, if_false, Nat.zero_add]

private theorem abortAll_shows {v : Nat}
    (h : Solo (Act.execAt cfg call now) (abortAll cfg) s log v s') (hs : s.Shows V)
    (hshard : ∀ sid, cfg.sessionShardOf sid < cfg.shards) :
    (v, s'.view) = V.abortAll ∧ s'.Tidy := by
  obtain ⟨sids, s₁, log₁, log₂, h₁, h₂, -⟩ := h.of_bind
  obtain ⟨rfl, hsids⟩ := collectShards_reads (P := fun s sid ↦ sid ∈ s.sessions.keys) hshard
    (fun i s s' log v h ↦ by
      obtain ⟨choice, log₁, h₁, -⟩ := h.of_act
      obtain ⟨rfl, rfl, -⟩ := h₁.of_ret
      simp [Act.execAt, Act.exec]) h₁ (Nat.le_refl _)
  obtain ⟨_, s₂, log₃, log₄, h₃, h₄, -⟩ := h₂.of_bind
  obtain ⟨W, hW, hslots, hreplies, htick, hgeneration, hnextId, hclosed⟩ :=
    closeRuntimes_shows h₃ hs
  obtain ⟨keys, s₅, log₅, log₆, h₅, h₆, -⟩ := h₄.of_bind
  obtain ⟨rfl, hkeys⟩ := collectShards_reads (P := fun s key ↦ key ∈ s.entries.keys) cfg.shardOf_lt
    (fun i s s' log v h ↦ by
      obtain ⟨choice, log₁, h₁, -⟩ := h.of_act
      obtain ⟨rfl, rfl, -⟩ := h₁.of_ret
      simp [Act.execAt, Act.exec]) h₅ (Nat.le_refl _)
  obtain ⟨rfl, hs'⟩ := abortKeys_shows h₆ hW
  rw [Nat.sub_self] at hsids hkeys
  -- Every session is closed now, and no index lists anything.
  have hnone : ∀ sid, s₅.sessions.lookup sid = none := by
    intro sid
    refine hclosed sid ?_
    by_cases hmem : sid ∈ s₁.sessions
    · exact .inl ((hsids sid).mpr ⟨hmem, Nat.zero_le _⟩)
    · exact .inr (AList.lookup_eq_none.mpr hmem)
  have hslot : ∀ key, W.slots key = { V.slots key with listed := false } := by
    intro key
    rw [← hslots key]
    exact Slot.ext rfl rfl rfl (hW.unlisted fun sid _ ↦ hnone sid) rfl
  have hdoors : W.doors = fun _ ↦ none := by
    funext sid
    rw [hW.door sid, hnone sid]
    rfl
  have hmem : ∀ key, key ∈ keys ↔ (V.slots key).entry.isSome = true := by
    intro key
    rw [hkeys key, and_iff_left (Nat.zero_le _), ← AList.mem_keys, ← AList.lookup_isSome,
      hW.entry key, hslot key]
  rw [View.pass_of_idempotent Slot.abandon_abandon] at hs'
  have hcongr := W.sweep_congr (V := V)
    (f := fun key slot ↦ if key ∈ keys then slot.abandon else slot) (g := fun _ slot ↦ slot.abort)
    (fun key ↦ ?_) (fun key ↦ by rw [hslot key]) hreplies
  · refine ⟨congrArg₂ Prod.mk ?_ (hs'.view.trans ?_), hs'.tidy⟩
    · rw [Nat.zero_add, View.tally]
      congr 1
      ext key
      show key ∈ keys ∧ decide _ = true ↔ (V.slots key).mark .pending = .updated
      rw [hmem, decide_eq_true_iff, hslot key]
      refine and_iff_right_of_imp fun hmark ↦ ?_
      change (V.slots key).mark .pending = .updated at hmark
      unfold Slot.mark at hmark
      split at hmark
      next => cases hmark
      next hentry =>
        rw [hentry]
        rfl
    · exact View.ext hcongr.1 hdoors hcongr.2 htick hgeneration hnextId
  · rw [hslot key, Slot.abort]
    by_cases hentry : (V.slots key).entry.isSome = true
    · rw [if_pos ((hmem key).mpr hentry), if_pos hentry]
      exact Slot.abandon_hide _
    · rw [if_neg fun h ↦ hentry ((hmem key).mp h), if_neg hentry]

end Loops

section Runs

variable {cfg : RegistryConfig} {call : Nat} {now : Instant} {s s' : State} {V : View}

/-- A method run at an instant answers and does what the view says. -/
private theorem body_shows {o : Op} {log : Log Act Act.Resp} {v : Outcome}
    (h : Solo (Act.execAt cfg call now) (o.body cfg) s log v s') (hs : s.Shows V)
    (hshard : ∀ sid, cfg.sessionShardOf sid < cfg.shards) :
    (v, s'.view) = V.step cfg ⟨o, now⟩ ∧ s'.Tidy := by
  cases o with
  | openSession sid =>
    obtain ⟨_, log₁, h₁, rfl⟩ := h.of_answer
    obtain ⟨choice, log₂, h₂, -⟩ := h₁.of_act
    obtain ⟨-, rfl, -⟩ := h₂.of_ret
    have hs' := hs.opened sid
    exact ⟨congrArg (Prod.mk _) hs'.view, hs'.tidy⟩
  | nextRequestId sid =>
    obtain ⟨v₁, log₁, h₁, rfl⟩ := h.of_answer
    obtain ⟨rfl, hs'⟩ := nextRequestId_shows h₁ hs
    exact ⟨congrArg (Prod.mk _) hs'.view, hs'.tidy⟩
  | register id sid bizType timeout =>
    obtain ⟨v₁, log₁, h₁, rfl⟩ := h.of_answer
    obtain ⟨heq, htidy⟩ := register_shows h₁ hs
    refine ⟨?_, htidy⟩
    rw [View.step, ← heq]
    rfl
  | tryRegisterWaiter id sid bizType timeout =>
    obtain ⟨v₁, log₁, h₁, rfl⟩ := h.of_answer
    obtain ⟨heq, htidy⟩ := tryRegisterWaiter_shows h₁ hs
    refine ⟨?_, htidy⟩
    rw [View.step, ← heq]
    rfl
  | completeWaiter sid id packet =>
    obtain ⟨v₁, log₁, h₁, rfl⟩ := h.of_answer
    obtain ⟨rfl, hs'⟩ := completeWaiter_shows h₁ hs rfl
    exact ⟨congrArg (Prod.mk _) hs'.view, hs'.tidy⟩
  | abortWaiter sid id =>
    obtain ⟨v₁, log₁, h₁, rfl⟩ := h.of_answer
    obtain ⟨rfl, hs'⟩ := abortWaiter_shows h₁ hs rfl
    exact ⟨congrArg (Prod.mk _) hs'.view, hs'.tidy⟩
  | abortAll =>
    obtain ⟨v₁, log₁, h₁, rfl⟩ := h.of_answer
    obtain ⟨heq, htidy⟩ := abortAll_shows h₁ hs hshard
    refine ⟨?_, htidy⟩
    rw [View.step, ← heq]
    rfl
  | beginRespond token =>
    obtain ⟨v₁, log₁, h₁, rfl⟩ := h.of_answer
    obtain ⟨rfl, hs'⟩ := beginRespond_shows h₁ hs
    rw [← View.ring_id (V := V.set _ _) (V.slots token.key).waiter] at hs'
    exact ⟨congrArg (Prod.mk _) hs'.view, hs'.tidy⟩
  | finishRespond token confirmed =>
    obtain ⟨v₁, log₁, h₁, rfl⟩ := h.of_answer
    obtain ⟨rfl, hs'⟩ := finishRespond_shows h₁ hs
    rw [← View.ring_id (V := V.set _ _) (V.slots token.key).waiter] at hs'
    exact ⟨congrArg (Prod.mk _) hs'.view, hs'.tidy⟩
  | markTimedOut key =>
    obtain ⟨v₁, log₁, h₁, rfl⟩ := h.of_answer
    obtain ⟨rfl, hs'⟩ := markTimedOut_shows h₁ hs
    exact ⟨congrArg (Prod.mk _) hs'.view, hs'.tidy⟩
  | abortRequestToken token =>
    obtain ⟨v₁, log₁, h₁, rfl⟩ := h.of_answer
    obtain ⟨rfl, hs'⟩ := abortRequestToken_shows h₁ hs
    exact ⟨congrArg (Prod.mk _) hs'.view, hs'.tidy⟩
  | closeSessionPending sid =>
    obtain ⟨v₁, log₁, h₁, rfl⟩ := h.of_answer
    obtain ⟨heq, htidy⟩ := closeSessionPending_shows h₁ hs
    refine ⟨?_, htidy⟩
    rw [View.step, ← heq]
    rfl
  | scanTimeoutBucket =>
    obtain ⟨v₁, log₁, h₁, rfl⟩ := h.of_answer
    obtain ⟨heq, htidy⟩ := scanTimeoutBucket_shows h₁ hs
    refine ⟨?_, htidy⟩
    rw [View.step, ← heq]
    rfl

/-- The operation is performed alone, and whenever it reads the clock this shows the instant. -/
def Deed.Done (cfg : RegistryConfig) (deed : Deed) (s : State) (v : Outcome) (s' : State) : Prop :=
  ∃ call log, Solo (Act.exec cfg call) (deed.op.body cfg) s log v s' ∧
    ∀ t, ⟨.now, t⟩ ∈ log → t = deed.time

/-- The operations are performed one after another. -/
inductive Serves (cfg : RegistryConfig) : State → List Deed → List Outcome → State → Prop
  | nil {s : State} : Serves cfg s [] [] s
  | cons {s s₁ s' : State} {deed : Deed} {deeds : List Deed} {v : Outcome} {vs : List Outcome} :
      deed.Done cfg s v s₁ → Serves cfg s₁ deeds vs s' → Serves cfg s (deed :: deeds) (v :: vs) s'

/-- The answers and the effect of operations one after another. -/
noncomputable def View.run (cfg : RegistryConfig) (V : View) : List Deed → List Outcome × View
  | [] => ([], V)
  | deed :: deeds =>
    (((V.step cfg deed).1 :: ((V.step cfg deed).2.run cfg deeds).1),
      ((V.step cfg deed).2.run cfg deeds).2)

/-- Where the clock is right, a run of the actions is a run at the instant. -/
theorem solo_execAt {α : Type} {p : Task α} {v : α} {log : Log Act Act.Resp}
    (h : Solo (Act.exec cfg call) p s log v s') (hnow : ∀ t, ⟨.now, t⟩ ∈ log → t = now) :
    Solo (Act.execAt cfg call now) p s log v s' := by
  induction h with
  | ret => exact .ret
  | @act a k s s' log v choice h ih =>
    have heq : a.execAt cfg call now choice s = a.exec cfg call choice s := by
      cases a with
      | now =>
        have ht := hnow _ List.mem_cons_self
        simp only [Act.exec] at ht
        simp only [Act.execAt, Act.exec, ht]
      | _ => rfl
    rw [← heq]
    refine .act choice ?_
    rw [heq]
    exact ih fun t ht ↦ hnow t (List.mem_cons_of_mem _ ht)

/-- A run at an instant that is not past is a run of the actions, with the clock right. -/
theorem solo_exec {α : Type} {p : Task α} {v : α} {log : Log Act Act.Resp}
    (h : Solo (Act.execAt cfg call now) p s log v s') (hclock : s.clock ≤ now) :
    Solo (Act.exec cfg call) p s log v s' ∧ (∀ t, ⟨.now, t⟩ ∈ log → t = now) ∧ s'.clock ≤ now := by
  induction h with
  | ret => exact ⟨.ret, fun t ht ↦ absurd ht List.not_mem_nil, hclock⟩
  | @act a k s s' log v choice h ih =>
    obtain ⟨hsolo, hnow, hclock'⟩ := ih (a.clock_execAt cfg call hclock choice)
    obtain ⟨choice', heq⟩ := a.execAt_eq cfg call hclock choice
    refine ⟨?_, fun t ht ↦ ?_, hclock'⟩
    · rw [heq] at hsolo ⊢
      exact .act choice' hsolo
    · obtain heq | hmem := List.mem_cons.mp ht
      · cases heq
        rfl
      · exact hnow t hmem

/-- An operation can be performed at every instant that is not past. -/
theorem Deed.exists_done (cfg : RegistryConfig) {deed : Deed} (hclock : s.clock ≤ deed.time) :
    ∃ v s', deed.Done cfg s v s' ∧ s'.clock ≤ deed.time := by
  have hrun : Solo (Act.execAt cfg 0 deed.time) (deed.op.body cfg) s _ _ _ :=
    solo_spec (deed.op.body cfg) [] s
  obtain ⟨hsolo, hnow, hclock'⟩ := solo_exec hrun hclock
  exact ⟨_, _, ⟨0, _, hsolo, hnow⟩, hclock'⟩

/-- Operations can be performed in the order of their instants. -/
theorem Serves.exists_of_sorted (cfg : RegistryConfig) {deeds : List Deed}
    (hsorted : deeds.Pairwise (·.time ≤ ·.time)) (hclock : ∀ deed ∈ deeds, s.clock ≤ deed.time) :
    ∃ vs s', Serves cfg s deeds vs s' := by
  induction deeds generalizing s with
  | nil => exact ⟨[], s, .nil⟩
  | cons deed deeds ih =>
    obtain ⟨hfirst, hsorted⟩ := List.pairwise_cons.mp hsorted
    obtain ⟨v, s₁, hdone, hclock₁⟩ := deed.exists_done cfg (hclock deed List.mem_cons_self)
    obtain ⟨vs, s', hserves⟩ := ih hsorted fun deed' hmem ↦ le_trans hclock₁ (hfirst deed' hmem)
    exact ⟨v :: vs, s', .cons hdone hserves⟩

theorem Serves.exists_of_new (cfg : RegistryConfig) (deeds : List Deed)
    (hsorted : deeds.Pairwise (·.time ≤ ·.time)) : ∃ vs s', Serves cfg State.new deeds vs s' :=
  Serves.exists_of_sorted cfg hsorted fun _ _ ↦ Nat.zero_le _

/-- The registry answers as the view does, whatever is done to it. -/
theorem Serves.shows {deeds : List Deed} {vs : List Outcome} (h : Serves cfg s deeds vs s')
    (hs : s.Tidy) (hshard : ∀ sid, cfg.sessionShardOf sid < cfg.shards) :
    (vs, s'.view) = s.view.run cfg deeds ∧ s'.Tidy := by
  induction h with
  | nil => exact ⟨rfl, hs⟩
  | cons hdone _ ih =>
    obtain ⟨call, log, hsolo, hnow⟩ := hdone
    obtain ⟨heq, htidy⟩ := body_shows (solo_execAt hsolo hnow) hs.shows hshard
    obtain ⟨heqs, htidy'⟩ := ih htidy
    refine ⟨?_, htidy'⟩
    rw [View.run, ← heq, ← heqs]

/-- What a new registry shows. -/
theorem view_new : State.new.view = View.new := by
  refine View.ext (funext fun key ↦ Slot.ext rfl rfl rfl ?_ rfl) rfl rfl rfl rfl rfl
  show State.new.listed key = false
  unfold State.listed
  cases key.sessionId <;> rfl

/-- The registry is what the view says it is for: whatever operations are performed on it one after
another, however its maps are sharded and their shards iterated, it gives the answers of the view
and holds what the view holds. -/
theorem registry_refines_view (hshard : ∀ sid, cfg.sessionShardOf sid < cfg.shards)
    {deeds : List Deed} {vs : List Outcome} (h : Serves cfg State.new deeds vs s') :
    vs = (View.new.run cfg deeds).1 ∧ s'.view = (View.new.run cfg deeds).2 := by
  obtain ⟨heq, -⟩ := h.shows State.tidy_new hshard
  rw [← view_new, ← heq]
  exact ⟨rfl, rfl⟩

theorem registry_refines_view_close : ∃ (vs : List Outcome) (s' : State),
    vs = (View.new.run (.newWithTiming 8 1000)
      [⟨.openSession 1, 0⟩, ⟨.register 7 (some 1) 0 500, 5⟩, ⟨.closeSessionPending 1, 9⟩]).1 ∧
    s'.view = (View.new.run (.newWithTiming 8 1000)
      [⟨.openSession 1, 0⟩, ⟨.register 7 (some 1) 0 500, 5⟩, ⟨.closeSessionPending 1, 9⟩]).2 := by
  obtain ⟨vs, s', h⟩ := Serves.exists_of_new (.newWithTiming 8 1000)
    [⟨.openSession 1, 0⟩, ⟨.register 7 (some 1) 0 500, 5⟩, ⟨.closeSessionPending 1, 9⟩] (by decide)
  exact ⟨vs, s', registry_refines_view (fun _ ↦ Nat.one_pos) h⟩

end Runs

end MsgTrans.Registry
