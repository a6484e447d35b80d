import MsgTrans.Client.Connection

/-!
# The client transport: the copies of its connection agree

The slot, the recorded session id and the consumer task of a connection are set up and torn down in
separate steps (`client.rs:245–302,548–581`, `transport.rs:370–457`). Between them a connection in
the slot is in the hands of a call. A call that is dropped there leaves a connection that nothing
names, so the copies agree in every run in which none is. The threads play roles, their steps are
moves of the roles, and the invariant is about the link and all roles together.
-/

namespace MsgTrans.Client.Connection

open MsgTrans.Base MsgTrans.Adapters MsgTrans.Registry MsgTrans.Transport

/-- The call has the client borrowed. -/
def Thread.running : Thread → Bool
  | .connect (.borrowing) | .connect (.returned _) | .connect (.dropped) => false
  | .connect _ => true
  | .disconnect _ (.borrowing) | .disconnect _ (.returned _) | .disconnect _ (.refused _)
  | .disconnect _ (.dropped) => false
  | .disconnect .. => true
  | _ => false

/-- The task is in the loop over the events of its pipe. -/
def Consumer.consuming : Consumer → Bool
  | .retiring (some _) | .marking (some _) _ | .removing (some _) _ | .ended _ => false
  | _ => true

/-- The thread consumes the event pipe of this generation. -/
def Thread.consumes (sid : SessionId) : Thread → Bool
  | .consumer sid' point => sid' == sid && point.consuming
  | _ => false

/-- The generation that a call has installed and not recorded, or whose recorded id it has taken and
not looked for in the slot yet. -/
def Thread.holds : Thread → Option SessionId
  | .connect (.adding sid) | .connect (.announcing sid) | .connect (.spawning sid)
  | .connect (.policing sid) | .connect (.recording sid) => some sid
  | .disconnect _ (.starting sid) | .disconnect _ (.vacating sid) => some sid
  | _ => none

/-- A call is not dropped while it alone knows the connection that is in the slot. -/
def keepsHold (s : Shared) (_ : Multiset Thread) (x : Thread) (choice : Choice) : Prop :=
  choice = .drop → ∀ sid ∈ x.holds, s.slot ≠ some sid

instance (s : Shared) (M : Multiset Thread) (x : Thread) (choice : Choice) :
    Decidable (keepsHold s M x choice) :=
  inferInstanceAs (Decidable (choice = .drop → ∀ sid ∈ x.holds, s.slot ≠ some sid))

variable (capacity : Nat)

/-- A further `disconnect`, run to its end, finds this connection, takes it and closes it. -/
def DisconnectCloses (p : Pool Shared Thread) (force : Bool) (sid : SessionId) : Prop :=
  ∃ p', (client capacity).machine.run p (.start (.disconnect force .borrowing) ::
      (List.replicate 7 .go).map (.run p.threads.length)) = some p' ∧
    p'.threads = p.threads ++ [.disconnect force (.returned sid)] ∧
    p'.shared.slot = none ∧ sid ∈ p'.shared.closed

/-- If no call is running and the client is connected, the recorded session id is the slot's,
`disconnect` closes the connection, and its event pipe is being consumed. -/
def Coherent (p : Pool Shared Thread) : Prop :=
  (∀ x ∈ p.threads, x.running = false) → ∀ sid ∈ p.shared.slot,
    p.shared.current = some sid ∧ (∀ force, DisconnectCloses capacity p force sid) ∧
      ∃ x ∈ p.threads, x.consumes sid = true

/-- What a thread has to do with the connection in the slot. -/
inductive Role where
  | other
  /-- A `connect` without a connection, or with a recorded one. -/
  | connecting
  /-- A `connect` whose connection has no state yet. -/
  | fresh (sid : SessionId)
  /-- A `connect` whose connection has no consumer yet. -/
  | unserved (sid : SessionId)
  /-- A `connect` whose connection is not recorded yet. -/
  | unrecorded (sid : SessionId)
  /-- A `disconnect` without a session id. -/
  | disconnecting
  /-- A `disconnect` that has taken this id. -/
  | starting (sid : SessionId)
  /-- A `disconnect` that has to look for this id in the slot. -/
  | vacating (sid : SessionId)
  /-- A `disconnect` that has looked for this id in the slot. -/
  | departing (sid : SessionId)
  /-- A consumer in its loop that has not retired its generation. -/
  | attached (sid : SessionId)
  /-- A consumer whose generation is not in the slot any more. -/
  | detached (sid : SessionId)
  deriving DecidableEq

namespace Role

/-- The call borrows the client mutably. -/
def owns : Role → Bool
  | connecting | fresh _ | unserved _ | unrecorded _ => true
  | _ => false

/-- The call borrows the client. -/
def shares : Role → Bool
  | disconnecting | starting _ | vacating _ | departing _ => true
  | _ => false

/-- The generation that is in the hands of the call. -/
def holds : Role → Option SessionId
  | fresh sid | unserved sid | unrecorded sid | starting sid | vacating sid => some sid
  | _ => none

/-- The generation in the slot that the role says something about. -/
def names : Role → Option SessionId
  | attached sid => some sid
  | r => r.holds

/-- What is known of a generation whose thread plays the role. -/
def Known (l : Link) : Role → Prop
  | fresh sid | unserved sid | unrecorded sid => sid = l.connectionEpoch
  | starting sid | vacating sid | attached sid => sid ≤ l.connectionEpoch
  | departing sid | detached sid => sid ≤ l.connectionEpoch ∧ l.slot ≠ some sid
  | other | connecting | disconnecting => True

end Role

/-- The role of a thread. -/
def Thread.role : Thread → Role
  | .connect .borrowing | .connect (.returned _) | .connect .dropped => .other
  | .connect .checking | .connect .building | .connect .installing | .connect .starting
  | .connect .takingStream | .connect .storing => .connecting
  | .connect (.adding sid) => .fresh sid
  | .connect (.announcing sid) | .connect (.spawning sid) => .unserved sid
  | .connect (.policing sid) | .connect (.recording sid) => .unrecorded sid
  | .disconnect _ .borrowing | .disconnect _ (.returned _) | .disconnect _ (.refused _)
  | .disconnect _ .dropped => .other
  | .disconnect _ .taking => .disconnecting
  | .disconnect _ (.starting sid) => .starting sid
  | .disconnect _ (.vacating sid) => .vacating sid
  | .disconnect _ (.closing sid) | .disconnect _ (.closingAgain sid)
  | .disconnect _ (.marking sid) | .disconnect _ (.removing sid) => .departing sid
  | .consumer sid .waiting | .consumer sid (.received _) | .consumer sid .handling
  | .consumer sid (.retiring none) => .attached sid
  | .consumer sid (.forwarding closing) => if closing then .detached sid else .attached sid
  | .consumer sid _ => .detached sid
  | .forwarder _ | .reader _ => .other

/-- What a step does to the link and to the role of its thread, and which roles it adds. In a
`strict` run no call is dropped with the slot's connection in its hands. -/
inductive Move (strict : Prop) (l : Link) : Role → Link → Role → Multiset Role → Prop where
  | still {r : Role} : Move strict l r l r 0
  | forward : Move strict l .connecting l .connecting {.other}
  | borrowMut (hfree : ¬ (l.borrowedMut = true ∨ l.borrows ≠ 0)) :
      Move strict l .other { l with borrowedMut := true } .connecting 0
  | releaseMut {r : Role} (hr : r.owns = true)
      (hold : strict → ∀ sid ∈ r.holds, l.slot ≠ some sid) :
      Move strict l r { l with borrowedMut := false } .other 0
  | install :
      Move strict l .connecting
        { l with slot := some (l.connectionEpoch + 1), connectionEpoch := l.connectionEpoch + 1 }
        (.fresh (l.connectionEpoch + 1)) 0
  | add {sid : SessionId} :
      Move strict l (.fresh sid)
        { l with states := Function.update l.states sid (some .connected) } (.unserved sid) 0
  | serve {sid : SessionId} : Move strict l (.unserved sid) l (.unrecorded sid) {.attached sid}
  | record {sid : SessionId} :
      Move strict l (.unrecorded sid) { l with current := some sid } .connecting 0
  | borrow (hfree : l.borrowedMut = false) :
      Move strict l .other { l with borrows := l.borrows + 1 } .disconnecting 0
  | release {r : Role} (hr : r.shares = true)
      (hold : strict → ∀ sid ∈ r.holds, l.slot ≠ some sid) :
      Move strict l r { l with borrows := l.borrows - 1 } .other 0
  | take {sid : SessionId} (hcurrent : l.current = some sid) :
      Move strict l .disconnecting { l with current := none } (.starting sid) 0
  | takeStale {sid : SessionId} (hcurrent : l.current = some sid) (hstate : l.states sid = none) :
      Move strict l .disconnecting { l with current := none, borrows := l.borrows - 1 } .other 0
  | start {sid : SessionId} (v : Option ConnectionState) :
      Move strict l (.starting sid) { l with states := Function.update l.states sid v }
        (.vacating sid) 0
  | startFailed {sid : SessionId} (hstate : l.states sid ≠ some .connected) :
      Move strict l (.starting sid) { l with borrows := l.borrows - 1 } .other 0
  | vacate {sid : SessionId} :
      Move strict l (.vacating sid) { l with slot := none } (.departing sid) 0
  | vacated {sid : SessionId} (hslot : l.slot ≠ some sid) :
      Move strict l (.vacating sid) l (.departing sid) 0
  | mark {sid : SessionId} {r : Role} (hr : r = .departing sid ∨ r = .detached sid)
      (v : Option ConnectionState) :
      Move strict l r { l with states := Function.update l.states sid v } r 0
  | depart {sid : SessionId} (v : Option ConnectionState) :
      Move strict l (.departing sid)
        { l with states := Function.update l.states sid v, borrows := l.borrows - 1 } .other 0
  | retire {sid : SessionId} {r : Role} (hr : r = .attached sid ∨ r = .detached sid) :
      Move strict l r { l with slot := none } (.detached sid) 0
  | retired {sid : SessionId} (hslot : l.slot ≠ some sid) :
      Move strict l (.attached sid) l (.detached sid) 0
  | stale {sid : SessionId} (hepoch : l.connectionEpoch ≠ sid) :
      Move strict l (.attached sid) l (.detached sid) 0

section Simulation

variable {capacity : Nat} {strict : Prop} {s s' : Shared} {choice : Choice} {x y : Thread}
  {new : List Thread}

private theorem connect_moves {c c' : Connect}
    (hkeep : strict → choice = .drop → ∀ sid ∈ (Thread.connect c).holds, s.slot ≠ some sid)
    (h : connectStep capacity c choice s = some (c', s', new)) :
    Move strict s.toLink (Thread.connect c).role s'.toLink (Thread.connect c').role
      (new.map Thread.role : List Role) := by
  revert h
  fun_cases connectStep capacity c choice s
  case case1 | case10 | case27 => exact fun h ↦ nomatch h
  all_goals rintro ⟨⟩
  case case2 hfree => exact .borrowMut hfree
  case case7 => exact .install
  case case8 => exact .add
  case case11 => exact .serve
  case case13 => exact .record
  case case16 => exact .forward
  case case3 | case6 | case14 | case17 | case18 => exact .releaseMut rfl fun _ _ h ↦ nomatch h
  -- A drop at an await.
  case case19 | case20 | case21 | case22 | case23 | case24 | case25 | case26 =>
    exact .releaseMut rfl fun hs ↦ hkeep hs rfl
  all_goals exact .still

/-- A close that does not start finds no entry of a connected session. -/
private theorem not_connected_of_refused {v : Option ConnectionState}
    (h : ¬ (tryStartClosing v).1 = true) : v ≠ some .connected := by
  rintro rfl
  exact h rfl

private theorem disconnect_moves {force : Bool} {d d' : Disconnect}
    (hkeep : strict → choice = .drop → ∀ sid ∈ (Thread.disconnect force d).holds, s.slot ≠ some sid)
    (h : disconnectStep force d choice s = some (d', s')) :
    Move strict s.toLink (Thread.disconnect force d).role s'.toLink
      (Thread.disconnect force d').role 0 := by
  revert h
  fun_cases disconnectStep force d choice s
  case case1 | case22 => exact fun h ↦ nomatch h
  all_goals rintro ⟨⟩
  case case2 hfree => exact .borrow (by simpa using hfree)
  case case3 => exact .release rfl fun _ _ h ↦ nomatch h
  case case4 hcurrent _ => exact .take hcurrent
  case case5 hcurrent hstate => exact .takeStale hcurrent (by simpa using hstate)
  case case6 => exact .start _
  case case7 hrefused => exact .startFailed (not_connected_of_refused hrefused)
  case case8 => exact .vacate
  case case9 hslot => exact .vacated hslot
  case case11 => cases force <;> exact .still
  case case14 => exact .mark (.inl rfl) _
  case case15 => exact .depart _
  -- A drop at an await.
  case case16 | case17 | case18 | case19 | case20 | case21 =>
    exact .release rfl fun hs ↦ hkeep hs rfl
  all_goals exact .still

private theorem consumer_moves {sid : SessionId} {c c' : Consumer}
    (h : consumerStep capacity sid c choice s = some (c', s')) :
    Move strict s.toLink (Thread.consumer sid c).role s'.toLink
      (Thread.consumer sid c').role 0 := by
  revert h
  fun_cases consumerStep capacity sid c choice s
  case case12 | case14 => exact fun h ↦ nomatch h
  all_goals rintro ⟨⟩
  case case3 => split <;> exact .still
  case case4 hepoch => exact .stale hepoch
  case case7 exit _ =>
    cases exit with
    | none => exact .retire (.inl rfl)
    | some _ => exact .retire (.inr rfl)
  case case8 exit hslot =>
    cases exit with
    | none => exact .retired hslot
    | some _ => exact .still
  case case9 => exact .mark (.inr rfl) _
  case case10 exit taken _ =>
    cases taken <;> cases exit <;> exact .mark (.inr rfl) _
  case case11 closing _ => cases closing <;> exact .still
  all_goals exact .still

/-- Every step is a move of its thread's role. -/
theorem act_moves
    (hkeep : strict → choice = .drop → ∀ sid ∈ x.holds, s.slot ≠ some sid)
    (h : act capacity x choice s = some (y, s', new)) :
    Move strict s.toLink x.role s'.toLink y.role (new.map Thread.role : List Role) := by
  cases x <;> simp only [act, Option.map_eq_some_iff, Prod.mk.injEq, Prod.exists] at h
  case connect => obtain ⟨c', t, n, hc, rfl, rfl, rfl⟩ := h; exact connect_moves hkeep hc
  case disconnect => obtain ⟨d', t, hd, rfl, rfl, rfl⟩ := h; exact disconnect_moves hkeep hd
  case consumer => obtain ⟨c', t, hc, rfl, rfl, rfl⟩ := h; exact consumer_moves hc
  case forwarder f =>
    obtain ⟨f', t, hf, rfl, rfl, rfl⟩ := h
    have hlink : t.toLink = s.toLink := by
      revert hf
      fun_cases forwarderStep capacity f choice s
      all_goals rintro ⟨⟩ <;> rfl
    rw [hlink]
    exact .still
  case reader r =>
    obtain ⟨r', t, hr, rfl, rfl, rfl⟩ := h
    have hlink : t.toLink = s.toLink := by
      revert hr
      fun_cases readerStep r s
      all_goals rintro ⟨⟩ <;> rfl
    rw [hlink]
    exact .still

end Simulation

/-- The client's borrows are those of the calls: one on `&mut self`, or any number on `&self`. -/
structure Borrowed (l : Link) (R : Multiset Role) : Prop where
  owned : R.countP (fun r ↦ r.owns = true) = l.borrowedMut.toNat
  shared : R.countP (fun r ↦ r.shares = true) = l.borrows
  apart : l.borrowedMut = true → l.borrows = 0

section Borrows

variable {strict : Prop} {l l' : Link} {r r' : Role} {N R : Multiset Role}

/-- A thread that takes the place of another with the same borrows, beside ones without any. -/
theorem Borrowed.replace (h : Borrowed l (r ::ₘ R)) (howns : r'.owns = r.owns)
    (hshares : r'.shares = r.shares) (hnew : ∀ q ∈ N, q.owns = false ∧ q.shares = false)
    (hmut : l'.borrowedMut = l.borrowedMut) (hborrows : l'.borrows = l.borrows) :
    Borrowed l' (r' ::ₘ (R + N)) where
  owned := by
    have hzero : N.countP (fun r ↦ r.owns = true) = 0 :=
      Multiset.countP_eq_zero.mpr fun q hq ↦ by simp [(hnew q hq).1]
    rw [Multiset.countP_cons, Multiset.countP_add, hzero, add_zero, hmut, ← h.owned,
      Multiset.countP_cons, howns]
  shared := by
    have hzero : N.countP (fun r ↦ r.shares = true) = 0 :=
      Multiset.countP_eq_zero.mpr fun q hq ↦ by simp [(hnew q hq).2]
    rw [Multiset.countP_cons, Multiset.countP_add, hzero, add_zero, hborrows, ← h.shared,
      Multiset.countP_cons, hshares]
  apart := by
    rw [hmut, hborrows]
    exact h.apart

/-- Who borrows the client does so in one way. -/
theorem Role.owns_eq_false (h : r.shares = true) : r.owns = false := by
  cases r <;> first | rfl | cases h

/-- A call on `&self` ends. -/
theorem Borrowed.giveBack (h : Borrowed l (r ::ₘ R)) (hr : r.shares = true)
    (hmut : l'.borrowedMut = l.borrowedMut) (hborrows : l'.borrows = l.borrows - 1) :
    Borrowed l' (.other ::ₘ (R + 0)) := by
  have hown := h.owned
  have hshare := h.shared
  rw [Multiset.countP_cons] at hown hshare
  rw [if_neg (by simp [Role.owns_eq_false hr])] at hown
  rw [if_pos hr] at hshare
  refine ⟨?_, ?_, fun hm ↦ ?_⟩
  · rw [add_zero, Multiset.countP_cons, hmut]
    exact hown
  · rw [add_zero, Multiset.countP_cons, hborrows, ← hshare]
    rfl
  · rw [hborrows, h.apart (hmut ▸ hm)]

/-- A call on `&mut self` has the client borrowed mutably. -/
theorem Borrowed.borrowedMut (h : Borrowed l (r ::ₘ R)) (hr : r.owns = true) :
    l.borrowedMut = true := by
  have hown := h.owned
  rw [Multiset.countP_cons, if_pos hr] at hown
  by_contra hne
  rw [Bool.not_eq_true] at hne
  rw [hne] at hown
  exact absurd hown (Nat.succ_ne_zero _)

/-- A call gives its borrow back, or takes one. -/
theorem Borrowed.moves (h : Borrowed l (r ::ₘ R)) (hmove : Move strict l r l' r' N) :
    Borrowed l' (r' ::ₘ (R + N)) := by
  have hown := h.owned
  have hshare := h.shared
  rw [Multiset.countP_cons] at hown hshare
  cases hmove with
  | forward => exact h.replace rfl rfl (by simp [Role.owns, Role.shares]) rfl rfl
  | serve => exact h.replace rfl rfl (by simp [Role.owns, Role.shares]) rfl rfl
  | borrowMut hfree =>
    obtain ⟨hmut, hzero⟩ := not_or.mp hfree
    rw [Bool.not_eq_true] at hmut
    rw [hmut] at hown
    refine ⟨?_, ?_, fun _ ↦ not_not.mp hzero⟩ <;>
      simpa [Role.owns, Role.shares] using (by assumption)
  | releaseMut hr _ =>
    rw [if_pos hr] at hown
    rw [if_neg (by
      intro hs
      rw [Role.owns_eq_false hs] at hr
      cases hr)] at hshare
    rw [h.borrowedMut hr] at hown
    refine ⟨?_, ?_, fun hm ↦ nomatch hm⟩
    · rw [add_zero, Multiset.countP_cons]
      exact Nat.succ.inj hown
    · rw [add_zero, Multiset.countP_cons]
      exact hshare
  | borrow hfree =>
    refine ⟨?_, ?_, fun hm ↦ ?_⟩
    · rw [add_zero, Multiset.countP_cons]
      exact hown
    · rw [add_zero, Multiset.countP_cons, ← hshare]
      rfl
    · rw [hfree] at hm
      cases hm
  | release hr _ => exact h.giveBack hr rfl rfl
  | takeStale | startFailed | depart => exact h.giveBack rfl rfl rfl
  | retire hr =>
    obtain rfl | rfl := hr <;> exact h.replace rfl rfl (by simp) rfl rfl
  | _ => exact h.replace rfl rfl (by simp) rfl rfl

/-- Beside a call on `&mut self` no other call runs. -/
theorem Borrowed.alone (h : Borrowed l (r ::ₘ R)) (hr : r.owns = true) {q : Role} (hq : q ∈ R) :
    q.owns = false ∧ q.shares = false := by
  have hown := h.owned
  have hshare := h.shared
  rw [Multiset.countP_cons, if_pos hr] at hown
  rw [h.borrowedMut hr] at hown
  rw [h.apart (h.borrowedMut hr), Multiset.countP_cons] at hshare
  have howns := Multiset.countP_eq_zero.mp (Nat.succ.inj hown) q hq
  have hshares := Multiset.countP_eq_zero.mp (Nat.eq_zero_of_add_eq_zero hshare).1 q hq
  simpa using And.intro howns hshares

/-- Beside a call on `&self` no call on `&mut self` runs. -/
theorem Borrowed.none_owns (h : Borrowed l (r ::ₘ R)) (hr : r.shares = true) {q : Role}
    (hq : q ∈ R) : q.owns = false := by
  by_contra hne
  rw [Bool.not_eq_false] at hne
  obtain ⟨F, rfl⟩ := Multiset.exists_cons_of_mem hq
  rw [Multiset.cons_swap] at h
  have hs := (h.alone hne (Multiset.mem_cons_self r F)).2
  rw [hr] at hs
  cases hs

end Borrows

/-- The connection in the slot is accounted for: a `connect` is setting it up, or its consumer
serves it and its id is recorded or in a call's hands. -/
inductive Covered (l : Link) (R : Multiset Role) (sid : SessionId) : Prop where
  | fresh (h : Role.fresh sid ∈ R)
  | unserved (h : Role.unserved sid ∈ R) (hstate : l.states sid = some .connected)
  | served (hserved : Role.attached sid ∈ R) (hstate : l.states sid = some .connected)
      (h : l.current = some sid ∨ Role.unrecorded sid ∈ R ∨ Role.starting sid ∈ R)
  | vacating (hserved : Role.attached sid ∈ R) (h : Role.vacating sid ∈ R)

/-- The invariant of a client's link and roles. -/
structure Inv (strict : Prop) (l : Link) (R : Multiset Role) : Prop extends Borrowed l R where
  known : ∀ r ∈ R, r.Known l
  recorded : ∀ sid ∈ l.current, sid ≤ l.connectionEpoch
  newest : ∀ sid ∈ l.slot, sid = l.connectionEpoch
  covered : strict → ∀ sid ∈ l.slot, Covered l R sid

section Invariant

variable {strict : Prop} {l l' : Link} {r r' : Role} {N R : Multiset Role} {sid : SessionId}

/-- What is known of a role's generation stays known as long as nothing is installed. -/
theorem Role.Known.mono (h : r.Known l) (hepoch : l'.connectionEpoch = l.connectionEpoch)
    (hslot : ∀ sid, l'.slot = some sid → l.slot = some sid) : r.Known l' := by
  cases r with
  | fresh | unserved | unrecorded => exact h.trans hepoch.symm
  | starting | vacating | attached => exact h.trans (Nat.le_of_eq hepoch.symm)
  | departing | detached =>
    exact ⟨h.1.trans (Nat.le_of_eq hepoch.symm), fun hs ↦ h.2 (hslot _ hs)⟩
  | other | connecting | disconnecting => trivial

/-- An installation beside roles that are not a `connect`'s. -/
theorem Role.Known.install (h : r.Known l) (hr : r.owns = false)
    (hepoch : l'.connectionEpoch = l.connectionEpoch + 1)
    (hslot : l'.slot = some (l.connectionEpoch + 1)) : r.Known l' := by
  cases r with
  | fresh | unserved | unrecorded => cases hr
  | starting | vacating | attached => exact h.trans (by rw [hepoch]; exact Nat.le_succ _)
  | departing | detached =>
    refine ⟨h.1.trans (by rw [hepoch]; exact Nat.le_succ _), fun hs ↦ ?_⟩
    rw [hslot, Option.some.injEq] at hs
    exact absurd h.1 (by rw [← hs]; exact Nat.not_succ_le_self _)
  | other | connecting | disconnecting => trivial

/-- The connection stays accounted for while its state, its record and the roles that name it
stay. -/
theorem Covered.frame {R' : Multiset Role} (h : Covered l R sid)
    (hR : ∀ q ∈ R, q.names = some sid → q ∈ R') (hstate : l'.states sid = l.states sid)
    (hcurrent : l.current = some sid → l'.current = some sid) : Covered l' R' sid := by
  cases h with
  | fresh h => exact .fresh (hR _ h rfl)
  | unserved h hs => exact .unserved (hR _ h rfl) (hstate.trans hs)
  | served hserved hs h =>
    refine .served (hR _ hserved rfl) (hstate.trans hs) ?_
    obtain h | h | h := h
    · exact .inl (hcurrent h)
    · exact .inr (.inl (hR _ h rfl))
    · exact .inr (.inr (hR _ h rfl))
  | vacating hserved h => exact .vacating (hR _ hserved rfl) (hR _ h rfl)

/-- What is known of all roles, one of them moved and some added. -/
private theorem known_of (hR : ∀ q ∈ R, q.Known l) (hepoch : l'.connectionEpoch = l.connectionEpoch)
    (hslot : ∀ sid, l'.slot = some sid → l.slot = some sid) (hr' : r'.Known l')
    (hN : ∀ q ∈ N, q.Known l') : ∀ q ∈ r' ::ₘ (R + N), q.Known l' := by
  intro q hq
  obtain rfl | hq := Multiset.mem_cons.mp hq
  · exact hr'
  obtain hq | hq := Multiset.mem_add.mp hq
  · exact (hR q hq).mono hepoch hslot
  · exact hN q hq

private theorem Inv.known_moves (h : Inv strict l (r ::ₘ R)) (hmove : Move strict l r l' r' N) :
    ∀ q ∈ r' ::ₘ (R + N), q.Known l' := by
  have hr : r.Known l := h.known r (Multiset.mem_cons_self r R)
  have hR : ∀ q ∈ R, q.Known l := fun q hq ↦ h.known q (Multiset.mem_cons_of_mem hq)
  have hnone : ∀ q ∈ (0 : Multiset Role), q.Known l' := fun q hq ↦
    absurd hq (Multiset.notMem_zero q)
  cases hmove with
  | install =>
    intro q hq
    rw [add_zero] at hq
    obtain rfl | hq := Multiset.mem_cons.mp hq
    · rfl
    · exact (hR q hq).install (h.alone rfl hq).1 rfl rfl
  | still => exact known_of hR rfl (fun _ h ↦ h) hr hnone
  | forward => exact known_of hR rfl (fun _ h ↦ h) trivial (by simp [Role.Known])
  | serve =>
    refine known_of hR rfl (fun _ h ↦ h) hr fun q hq ↦ ?_
    obtain rfl := Multiset.mem_singleton.mp hq
    exact Nat.le_of_eq hr
  | add => exact known_of hR rfl (fun _ h ↦ h) hr hnone
  | borrowMut | releaseMut | record | borrow | release | takeStale | startFailed | depart =>
    exact known_of hR rfl (fun _ h ↦ h) trivial hnone
  | take hcurrent => exact known_of hR rfl (fun _ h ↦ h) (h.recorded _ hcurrent) hnone
  | start => exact known_of hR rfl (fun _ h ↦ h) hr hnone
  | vacate => exact known_of hR rfl (fun _ h ↦ nomatch h) ⟨hr, fun h ↦ nomatch h⟩ hnone
  | vacated hslot => exact known_of hR rfl (fun _ h ↦ h) ⟨hr, hslot⟩ hnone
  | mark hr' v =>
    refine known_of hR rfl (fun _ h ↦ h) ?_ hnone
    obtain rfl | rfl := hr' <;> exact hr
  | retire hr' =>
    refine known_of hR rfl (fun _ h ↦ nomatch h) ⟨?_, fun h ↦ nomatch h⟩ hnone
    obtain rfl | rfl := hr'
    · exact hr
    · exact hr.1
  | retired hslot => exact known_of hR rfl (fun _ h ↦ h) ⟨hr, hslot⟩ hnone
  | stale hepoch =>
    exact known_of hR rfl (fun _ h ↦ h) ⟨hr, fun hs ↦ hepoch (h.newest _ hs).symm⟩ hnone

/-- The link alone: the recorded id is no later than the epoch, and the slot's is the newest. -/
private theorem Inv.link_moves (h : Inv strict l (r ::ₘ R)) (hmove : Move strict l r l' r' N) :
    (∀ sid ∈ l'.current, sid ≤ l'.connectionEpoch) ∧ ∀ sid ∈ l'.slot, sid = l'.connectionEpoch := by
  have hrecorded := h.recorded
  have hnewest := h.newest
  cases hmove with
  | install =>
    refine ⟨fun sid hsid ↦ (hrecorded sid hsid).trans (Nat.le_succ _), fun sid hsid ↦ ?_⟩
    exact (Option.some.inj hsid).symm
  | record =>
    refine ⟨fun sid hsid ↦ ?_, hnewest⟩
    obtain rfl := Option.some.inj hsid
    exact Nat.le_of_eq (h.known _ (Multiset.mem_cons_self _ R))
  | take | takeStale => exact ⟨fun _ hsid ↦ (nomatch hsid), hnewest⟩
  | vacate | retire => exact ⟨hrecorded, fun _ hsid ↦ nomatch hsid⟩
  | _ => exact ⟨hrecorded, hnewest⟩

/-- The moved role is one among those after the move. -/
private theorem mem_moved : r' ∈ r' ::ₘ (R + N) := Multiset.mem_cons_self r' _

/-- The other roles are still there after a move. -/
private theorem mem_others {q : Role} (hq : q ∈ R) : q ∈ r' ::ₘ (R + N) :=
  Multiset.mem_cons_of_mem (Multiset.mem_add.mpr (.inl hq))

/-- A move of a role that does not name the slot's generation leaves it accounted for. -/
private theorem Covered.others (h : Covered l (r ::ₘ R) sid) (hr : r.names ≠ some sid)
    (hstate : l'.states sid = l.states sid)
    (hcurrent : l.current = some sid → l'.current = some sid) :
    Covered l' (r' ::ₘ (R + N)) sid := by
  refine h.frame (fun q hq hnames ↦ ?_) hstate hcurrent
  obtain rfl | hq := Multiset.mem_cons.mp hq
  · exact absurd hnames hr
  · exact mem_others hq

/-- A `connect` records its connection. -/
private theorem Covered.record (h : Covered l (.unrecorded sid ::ₘ R) sid)
    (hborrowed : Borrowed l (.unrecorded sid ::ₘ R)) (hstate : l'.states = l.states)
    (hcurrent : l'.current = some sid) : Covered l' (r' ::ₘ (R + N)) sid := by
  have halone : ∀ q ∈ R, q.owns = false ∧ q.shares = false := fun q hq ↦ hborrowed.alone rfl hq
  cases h with
  | fresh h | unserved h _ =>
    have hmem := (Multiset.mem_cons.mp h).resolve_left (by simp)
    exact absurd (halone _ hmem).1 (by simp [Role.owns])
  | served hserved hs _ =>
    have hmem := (Multiset.mem_cons.mp hserved).resolve_left (by simp)
    exact .served (mem_others hmem) (by rw [hstate, hs]) (.inl hcurrent)
  | vacating _ h =>
    have hmem := (Multiset.mem_cons.mp h).resolve_left (by simp)
    exact absurd (halone _ hmem).2 (by simp [Role.shares])

/-- A `connect` spawns the consumer of its connection. -/
private theorem Covered.serve (h : Covered l (.unserved sid ::ₘ R) sid)
    (hborrowed : Borrowed l (.unserved sid ::ₘ R)) :
    Covered l (.unrecorded sid ::ₘ (R + {.attached sid})) sid := by
  have halone : ∀ q ∈ R, q.owns = false ∧ q.shares = false := fun q hq ↦ hborrowed.alone rfl hq
  have hserved : Role.attached sid ∈ Role.unrecorded sid ::ₘ (R + {.attached sid}) := by simp
  cases h with
  | fresh h =>
    have hmem := (Multiset.mem_cons.mp h).resolve_left (by simp)
    exact absurd (halone _ hmem).1 (by simp [Role.owns])
  | unserved _ hs | served _ hs _ => exact .served hserved hs (.inr (.inl mem_moved))
  | vacating _ h =>
    have hmem := (Multiset.mem_cons.mp h).resolve_left (by simp)
    exact absurd (halone _ hmem).2 (by simp [Role.shares])

/-- A `disconnect` starts to close the slot's connection. -/
private theorem Covered.start (h : Covered l (.starting sid ::ₘ R) sid)
    (hborrowed : Borrowed l (.starting sid ::ₘ R)) :
    Covered l' (.vacating sid ::ₘ (R + N)) sid := by
  have hothers : ∀ q ∈ R, q.owns = false := fun q hq ↦ hborrowed.none_owns rfl hq
  cases h with
  | fresh h | unserved h _ =>
    have hmem := (Multiset.mem_cons.mp h).resolve_left (by simp)
    exact absurd (hothers _ hmem) (by simp [Role.owns])
  | served hserved _ _ | vacating hserved _ =>
    have hmem := (Multiset.mem_cons.mp hserved).resolve_left (by simp)
    exact .vacating (mem_others hmem) mem_moved

/-- A close that is refused is not the only one that knows the slot's connection. -/
private theorem Covered.startFailed (h : Covered l (.starting sid ::ₘ R) sid)
    (hborrowed : Borrowed l (.starting sid ::ₘ R)) (hstate : l.states sid ≠ some .connected) :
    Covered l' (r' ::ₘ (R + N)) sid := by
  have hothers : ∀ q ∈ R, q.owns = false := fun q hq ↦ hborrowed.none_owns rfl hq
  cases h with
  | fresh h =>
    have hmem := (Multiset.mem_cons.mp h).resolve_left (by simp)
    exact absurd (hothers _ hmem) (by simp [Role.owns])
  | unserved _ hs | served _ hs _ => exact absurd hs hstate
  | vacating hserved h =>
    have hserved := (Multiset.mem_cons.mp hserved).resolve_left (by simp)
    have hmem := (Multiset.mem_cons.mp h).resolve_left (by simp)
    exact .vacating (mem_others hserved) (mem_others hmem)

/-- A `disconnect` takes the recorded id; it goes on with it unless the id is not a connected
session's. -/
private theorem Covered.take (h : Covered l (.disconnecting ::ₘ R) sid)
    (htaken : l.current = some sid → l.states sid = some .connected → r' = .starting sid)
    (hstate : l'.states = l.states) : Covered l' (r' ::ₘ (R + N)) sid := by
  have hR : ∀ q, q ∈ Role.disconnecting ::ₘ R → q ≠ .disconnecting → q ∈ r' ::ₘ (R + N) :=
    fun q hq hne ↦ mem_others ((Multiset.mem_cons.mp hq).resolve_left hne)
  cases h with
  | fresh h => exact .fresh (hR _ h (by simp))
  | unserved h hs => exact .unserved (hR _ h (by simp)) (by rw [hstate, hs])
  | served hserved hs h =>
    refine .served (hR _ hserved (by simp)) (by rw [hstate, hs]) (.inr ?_)
    obtain h | h | h := h
    · obtain rfl := htaken h hs
      exact .inr mem_moved
    · exact .inl (hR _ h (by simp))
    · exact .inr (hR _ h (by simp))
  | vacating hserved h => exact .vacating (hR _ hserved (by simp)) (hR _ h (by simp))

/-- Every move of a strict run leaves the slot's connection accounted for. -/
private theorem Inv.covered_moves (h : Inv strict l (r ::ₘ R)) (hmove : Move strict l r l' r' N)
    (hs : strict) : ∀ sid ∈ l'.slot, Covered l' (r' ::ₘ (R + N)) sid := by
  have hcovered := h.covered hs
  have hborrowed := h.toBorrowed
  have hr : r.Known l := h.known r (Multiset.mem_cons_self r R)
  intro sid hsid
  cases hmove with
  | still =>
    rw [add_zero]
    exact hcovered sid hsid
  | forward | borrowMut | borrow =>
    exact (hcovered sid hsid).others (by simp [Role.names, Role.holds]) rfl fun h ↦ h
  | releaseMut howns hold =>
    refine (hcovered sid hsid).others (fun hnames ↦ ?_) rfl fun h ↦ h
    have hholds : r.holds = some sid := by
      cases r <;> first | exact hnames | cases howns
    exact hold hs sid hholds hsid
  | install =>
    obtain rfl := Option.some.inj hsid
    exact .fresh mem_moved
  | @add sid' =>
    obtain rfl : sid = sid' := (h.newest sid hsid).trans hr.symm
    exact .unserved mem_moved (Function.update_self ..)
  | @serve sid' =>
    obtain rfl : sid = sid' := (h.newest sid hsid).trans hr.symm
    exact (hcovered sid hsid).serve hborrowed
  | @record sid' =>
    obtain rfl : sid = sid' := (h.newest sid hsid).trans hr.symm
    exact (hcovered sid hsid).record hborrowed rfl rfl
  | release hshares hold =>
    refine (hcovered sid hsid).others (fun hnames ↦ ?_) rfl fun h ↦ h
    have hholds : r.holds = some sid := by
      cases r <;> first | exact hnames | cases hshares
    exact hold hs sid hholds hsid
  | take hcurrent =>
    refine (hcovered sid hsid).take (fun h _ ↦ ?_) rfl
    rw [Option.some.inj (hcurrent.symm.trans h)]
  | takeStale hcurrent hnone =>
    refine (hcovered sid hsid).take (fun h hstate ↦ ?_) rfl
    rw [← Option.some.inj (hcurrent.symm.trans h), hnone] at hstate
    cases hstate
  | @start sid' =>
    obtain rfl | hne := eq_or_ne sid' sid
    · exact (hcovered sid' hsid).start hborrowed
    · exact (hcovered sid hsid).others (by simp [Role.names, Role.holds, hne])
        (Function.update_of_ne hne.symm ..) fun h ↦ h
  | @startFailed sid' hstate =>
    obtain rfl | hne := eq_or_ne sid' sid
    · exact (hcovered sid' hsid).startFailed hborrowed hstate
    · exact (hcovered sid hsid).others (by simp [Role.names, Role.holds, hne]) rfl fun h ↦ h
  | vacate | retire => cases hsid
  | @vacated sid' hslot | @retired sid' hslot =>
    have hne : sid' ≠ sid := fun h ↦ hslot (h ▸ hsid)
    exact (hcovered sid hsid).others (by simp [Role.names, Role.holds, hne]) rfl fun h ↦ h
  | @mark sid' _ hdone v =>
    have hne : sid ≠ sid' := by
      rintro rfl
      obtain rfl | rfl := hdone <;> exact hr.2 hsid
    refine (hcovered sid hsid).others ?_ (Function.update_of_ne hne ..) fun h ↦ h
    obtain rfl | rfl := hdone <;> simp [Role.names, Role.holds]
  | @depart sid' v =>
    have hne : sid ≠ sid' := by
      rintro rfl
      exact hr.2 hsid
    exact (hcovered sid hsid).others (by simp [Role.names, Role.holds])
      (Function.update_of_ne hne ..) fun h ↦ h
  | @stale sid' hepoch =>
    have hne : sid' ≠ sid := fun he ↦ hepoch (he ▸ (h.newest sid hsid).symm)
    exact (hcovered sid hsid).others (by simp [Role.names, hne]) rfl fun h ↦ h

/-- The invariant survives every move. -/
theorem Inv.moves (h : Inv strict l (r ::ₘ R)) (hmove : Move strict l r l' r' N) :
    Inv strict l' (r' ::ₘ (R + N)) where
  toBorrowed := h.toBorrowed.moves hmove
  known := h.known_moves hmove
  recorded := (h.link_moves hmove).1
  newest := (h.link_moves hmove).2
  covered := h.covered_moves hmove

/-- A call that has not begun changes nothing. -/
theorem Inv.start (h : Inv strict l R) : Inv strict l (.other ::ₘ R) := by
  refine ⟨⟨?_, ?_, h.apart⟩, ?_, h.recorded, h.newest, fun hs sid hsid ↦ ?_⟩
  · rw [Multiset.countP_cons]
    exact h.owned
  · rw [Multiset.countP_cons]
    exact h.shared
  · intro q hq
    obtain rfl | hq := Multiset.mem_cons.mp hq
    · trivial
    · exact h.known q hq
  · exact (h.covered hs sid hsid).frame (fun q hq _ ↦ Multiset.mem_cons_of_mem hq) rfl fun h ↦ h

end Invariant

section Runs

variable {capacity : Nat} {strict : Prop} {p p' : Pool Shared Thread} {turn : Turn Thread Choice}
  {s : Shared} {x : Thread} {sid : SessionId}

/-- The roles of all threads. -/
def roles (p : Pool Shared Thread) : Multiset Role := (p.threads : Multiset Thread).map Thread.role

theorem Inv.init : Inv strict Shared.new.toLink 0 where
  owned := rfl
  shared := rfl
  apart _ := rfl
  known _ h := absurd h (Multiset.notMem_zero _)
  recorded _ h := nomatch h
  newest _ h := nomatch h
  covered _ _ h := nomatch h

theorem entry_role (h : x.entry = true) : x.role = .other := by
  revert h
  fun_cases Thread.entry x
  · exact fun _ ↦ rfl
  · exact fun _ ↦ rfl
  · exact fun _ ↦ rfl
  · exact fun h ↦ nomatch h

/-- A step of the pool keeps the invariant; in a strict run it must not drop a call with the slot's
connection in its hands. -/
theorem inv_step (h : Inv strict p.shared.toLink (roles p))
    (hmay : strict → Threads.permitted keepsHold p turn)
    (hstep : (client capacity).machine.step p turn = some p') :
    Inv strict p'.shared.toLink (roles p') := by
  refine Threads.permitted_step (J := fun s M ↦ Inv strict s.toLink (M.map Thread.role))
    (fun s M x choice ↦ strict → keepsHold s M x choice) ?_ ?_ h ?_ hstep
  · intro s M x hinv hx
    rw [Multiset.map_cons, entry_role hx]
    exact hinv.start
  · intro s M x choice y s' new hinv hkeep hact
    rw [Multiset.map_cons] at hinv
    rw [Multiset.map_cons, Multiset.map_add, Multiset.map_coe]
    exact hinv.moves (act_moves hkeep hact)
  · cases turn with
    | start x => trivial
    | run t choice => exact fun x hx hs ↦ hmay hs x hx

/-- The invariant holds in every run that drops no call with the slot's connection in its hands. -/
theorem inv_of_held (h : (client capacity).machine.ReachableBy (Threads.permitted keepsHold) p) :
    Inv True p.shared.toLink (roles p) :=
  h.invariant (P := fun p ↦ Inv True p.shared.toLink (roles p)) Inv.init
    fun _ _ _ hinv hmay hstep ↦ inv_step hinv (fun _ ↦ hmay) hstep

/-- Where no call runs, no role is one of a running call. -/
theorem idle_of_not_running (h : x.running = false) :
    x.role.owns = false ∧ x.role.shares = false := by
  cases x with
  | connect c => cases c <;> first | exact ⟨rfl, rfl⟩ | cases h
  | disconnect force d => cases d <;> first | exact ⟨rfl, rfl⟩ | cases h
  | consumer sid c =>
    cases c with
    | retiring exit => cases exit <;> exact ⟨rfl, rfl⟩
    | forwarding closing => cases closing <;> exact ⟨rfl, rfl⟩
    | _ => exact ⟨rfl, rfl⟩
  | forwarder | reader => exact ⟨rfl, rfl⟩

/-- Who is attached to a generation consumes its pipe. -/
theorem consumes_of_attached (h : x.role = .attached sid) : x.consumes sid = true := by
  cases x with
  | connect c => cases c <;> cases h
  | disconnect force d => cases d <;> cases h
  | consumer sid' c =>
    have hsid : sid' = sid ∧ c.consuming = true := by
      cases c with
      | retiring exit =>
        cases exit with
        | none => exact ⟨Role.attached.inj h, rfl⟩
        | some forwarded => cases h
      | forwarding closing =>
        cases closing with
        | true => cases h
        | false => exact ⟨Role.attached.inj h, rfl⟩
      | waiting | received | handling => exact ⟨Role.attached.inj h, rfl⟩
      | marking | removing | drained | ended => cases h
    simp [Thread.consumes, hsid]
  | forwarder | reader => cases h

/-- A `disconnect` that runs by itself from where the slot's session is recorded and connected. -/
private theorem disconnect_alone (capacity : Nat) (force : Bool) (hmut : s.borrowedMut = false)
    (hslot : s.slot = some sid) (hcurrent : s.current = some sid)
    (hstate : s.states sid = some .connected) :
    ∃ s', Threads.alone (client capacity) (.disconnect force .borrowing) (List.replicate 7 .go) s =
      some (.disconnect force (.returned sid), s') ∧ s'.slot = none ∧ sid ∈ s'.closed := by
  simp [Threads.alone, client, act, disconnectStep, hmut, hcurrent, hstate, hslot,
    tryStartClosing, Shared.setState, Shared.close, Shared.release, List.replicate]

/-- In every run in which no call is dropped while it alone knows the connection in the slot, the
copies of the connection agree whenever no call runs. -/
theorem coherent_of_held (capacity : Nat) {p : Pool Shared Thread}
    (h : (client capacity).machine.ReachableBy (Threads.permitted keepsHold) p) :
    Coherent capacity p := by
  intro hquiet sid hsid
  have hinv := inv_of_held h
  have hroles : ∀ r ∈ roles p, ∃ x ∈ p.threads, x.role = r := fun r hr ↦ by
    simpa [roles] using hr
  have hidle : ∀ r ∈ roles p, r.owns = false ∧ r.shares = false := by
    intro r hr
    obtain ⟨x, hx, rfl⟩ := hroles r hr
    exact idle_of_not_running (hquiet x hx)
  have hmut : p.shared.borrowedMut = false := by
    have hzero : (roles p).countP (fun r ↦ r.owns = true) = 0 :=
      Multiset.countP_eq_zero.mpr fun r hr ↦ by simp [(hidle r hr).1]
    rw [hinv.owned] at hzero
    exact Bool.toNat_eq_zero.mp hzero
  cases hinv.covered trivial sid hsid with
  | fresh h | unserved h _ => exact absurd (hidle _ h).1 (by simp [Role.owns])
  | vacating _ h => exact absurd (hidle _ h).2 (by simp [Role.shares])
  | served hserved hstate h =>
    have hcurrent : p.shared.current = some sid := by
      obtain h | h | h := h
      · exact h
      · exact absurd (hidle _ h).1 (by simp [Role.owns])
      · exact absurd (hidle _ h).2 (by simp [Role.shares])
    obtain ⟨x, hx, hrole⟩ := hroles _ hserved
    refine ⟨hcurrent, fun force ↦ ?_, x, hx, consumes_of_attached hrole⟩
    obtain ⟨s', halone, hslot, hclosed⟩ :=
      disconnect_alone capacity force hmut hsid hcurrent hstate
    refine ⟨⟨s', p.threads ++ [Thread.disconnect force (.returned sid)]⟩, ?_, rfl, hslot, hclosed⟩
    rw [Machine.run, show (client capacity).machine.step p (.start (.disconnect force .borrowing)) =
      some ⟨p.shared, p.threads ++ [.disconnect force .borrowing]⟩ from rfl, Option.bind_some]
    exact Threads.run_alone halone

end Runs

/-- The first `connect` of a client, as thread `t`. -/
def connected (t : Nat) : List (Turn Thread Choice) :=
  .start (.connect .borrowing) :: List.replicate 12 (.run t .go)

/-- After a whole `connect` the copies agree. -/
theorem coherent_of_held_of_connected :
    ∃ p, (client 1).machine.runBy (Threads.permitted keepsHold) (client 1).machine.start
        (connected 0) = some p ∧ p.shared.slot = some 1 ∧ Coherent 1 p := by
  obtain ⟨p, hrun, hslot⟩ : ∃ p, (client 1).machine.runBy (Threads.permitted keepsHold)
      (client 1).machine.start (connected 0) = some p ∧ p.shared.slot = some 1 := ⟨_, rfl, rfl⟩
  exact ⟨p, hrun, hslot, coherent_of_held 1 (.of_runBy .start hrun)⟩

-- A message out of the pipe of thread `t` into the transport's queue.
private def message (t : Nat) : List (Turn Thread Choice) :=
  .run t .data :: List.replicate 3 (.run t .go)

-- A client that reads no events connects, gets two messages and disconnects. The transport's queue
-- is full then, so a second `connect` waits with its connection installed, and is dropped.
private def overfull : List (Turn Thread Choice) :=
  List.flatten [connected 0, [.run 2 .go, .run 2 .go], message 1, [.run 2 .go], message 1,
    [.start (.disconnect false .borrowing)], List.replicate 7 (.run 3 .go),
    [.start (.connect .borrowing)], List.replicate 5 (.run 4 .go), [.run 4 .drop]]

/-- A `connect` that is dropped while it waits for room in the event queue leaves a client that is
connected and on which `connect` is refused because it is and `disconnect` because it is not. -/
theorem dropped_connect_sticks :
    ∃ p, (client 1).machine.run (client 1).machine.start overfull = some p ∧
      (∀ x ∈ p.threads, x.running = false) ∧ ¬ Coherent 1 p ∧
      ((Threads.alone (client 1) (.connect .borrowing) [.go, .go] p.shared).map fun r ↦ r.1) =
        some (.connect (.returned (.error (alreadyConnectedError 2)))) ∧
      ∀ force, ((Threads.alone (client 1) (.disconnect force .borrowing) [.go, .go]
        p.shared).map fun r ↦ r.1) = some (.disconnect force (.refused notConnectedError)) := by
  refine ⟨_, rfl, ?_, fun hcoherent ↦ ?_, rfl, fun force ↦ rfl⟩
  · decide
  · obtain ⟨hcurrent, -⟩ := hcoherent (by decide) 2 rfl
    cases hcurrent

end MsgTrans.Client.Connection
