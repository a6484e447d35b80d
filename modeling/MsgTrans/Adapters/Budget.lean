import MsgTrans.Base.Machine
import MsgTrans.Base.Shared
import MsgTrans.Transport.Limits

/-!
# Byte budgets

`ByteBudget::charge`, `crates/msgtrans/src/adapters/budget.rs:14–75`, under `send_with_completion`,
`outbound.rs:150–168`, and the event pipe. `Bytes` is a reference-counted handle, and
`Bytes::from_owner` a new buffer that owns a `ChargedBytes`; a permit is a token with a share in each
of the buffers it is moved or cloned into, and goes back to its semaphore with the last of them. A
semaphore hands out permits to the charges that wait for them in any order, at once or in parts.
-/

namespace MsgTrans.Adapters.Budget

open MsgTrans.Base MsgTrans.Wire MsgTrans.Transport

/-- The capacity of a budget, which a setter bounds; `limits.rs:117–124`. -/
structure Capacity where
  permits : Nat
  le : permits ≤ 1024 * 1024 * 1024

/-- The budget of a connection of a server. -/
def Capacity.server (t : Target) (setters : List ServerSetter) : Capacity where
  permits := (ServerLimits.build t setters).connection.bufferBytes
  le := server_build (P := fun c ↦ c.bufferBytes ≤ 1024 * 1024 * 1024) (bufferBytes_default t)
    (fun _ setter ↦ bufferBytes_set setter) setters

/-- The budget of a connection of a client. -/
def Capacity.client (t : Target) (setters : List Setter) : Capacity where
  permits := (ClientLimits.build t setters).connection.bufferBytes
  le := client_build (P := fun c ↦ c.bufferBytes ≤ 1024 * 1024 * 1024) (bufferBytes_default t)
    (fun _ setter ↦ bufferBytes_set setter) setters

/-- What a charge took from a budget, and the bytes of the packet it was made for. -/
structure Charge where
  budget : Nat
  permits : Nat
  length : Nat
  deriving DecidableEq, Repr

/-- A call of `charge` that waits for its permits, with those it was handed so far. -/
structure Call where
  charge : Charge
  aside : Nat
  payload : Handle Bytes
  ext : Handle Bytes
  deriving DecidableEq

/-- The handles, the calls that wait, the budgets' semaphores, and the charges that were made, named
by the tokens of their permits; the released ones are recorded, which no operation reads. -/
structure State where
  store : Store
  handles : List (Handle Bytes)
  calls : List Call
  charges : Nat → Charge
  available : Nat → Nat
  released : List Nat

/-- What is done to packets and handles. -/
inductive Op where
  | alloc (contents : List Bytes)
  | clone (handle : Handle Bytes)
  | drop (handle : Handle Bytes)
  | charge (budget : Nat) (payload ext : Handle Bytes)
  | assign (call : Call) (permits : Nat)
  | grant (call : Call)
  | cancel (call : Call)
  deriving DecidableEq

/-- The size of a packet to a budget; `budget.rs:37–41`. -/
def packetSize (t : Target) (payload ext : Bytes) : Nat :=
  max (min (payload.length + ext.length) (2 ^ t.usizeBits - 1)) 1

namespace State

/-- Permits go back to their semaphores. -/
def giveBack (s : State) : List Nat → State
  | [] => s
  | t :: ts =>
    giveBack
      { s with
        available := Function.update s.available (s.charges t).budget
          (s.available (s.charges t).budget + (s.charges t).permits)
        released := t :: s.released } ts

/-- The end of `charge`: the payload is wrapped with the permit, and an extension that is not empty
with a clone of it; `budget.rs:55–73`. -/
def granted (s : State) (c : Call) : State :=
  let token := s.store.mint
  let payload := token.2.wrap c.payload token.1
  let s := { s with
    calls := s.calls.erase c
    charges := Function.update s.charges token.1 c.charge }
  if c.ext.content = [] then
    { s with store := payload.2, handles := payload.1 :: c.ext :: s.handles }
  else
    let ext := payload.2.wrap c.ext token.1
    { s with store := ext.2, handles := payload.1 :: ext.1 :: s.handles }

end State

section Machine

variable (t : Target) (capacity : Nat → Capacity)

/-- One operation. A packet that is refused, or whose charge is given up, is dropped next. -/
def step (s : State) : Op → Option State
  | .alloc contents =>
    let new := s.store.alloc contents
    some { s with store := new.2, handles := new.1 ++ s.handles }
  | .clone h =>
    if h ∈ s.handles then some { s with store := s.store.clone h, handles := h :: s.handles }
    else none
  | .drop h =>
    if h ∈ s.handles then
      let dropped := s.store.drop h
      some (State.giveBack { s with store := dropped.2, handles := s.handles.erase h } dropped.1)
    else none
  | .charge b payload ext =>
    if payload ∈ s.handles ∧ ext ∈ s.handles.erase payload then
      let size := packetSize t payload.content ext.content
      if size > (capacity b).permits then some s
      else
        some { s with
          handles := (s.handles.erase payload).erase ext
          calls := ⟨⟨b, size % 2 ^ 32, payload.content.length + ext.content.length⟩, 0,
            payload, ext⟩ :: s.calls }
    else none
  | .assign c n =>
    if c ∈ s.calls ∧ n ≤ s.available c.charge.budget ∧ c.aside + n ≤ c.charge.permits then
      some { s with
        calls := { c with aside := c.aside + n } :: s.calls.erase c
        available := Function.update s.available c.charge.budget
          (s.available c.charge.budget - n) }
    else none
  | .grant c => if c ∈ s.calls ∧ c.aside = c.charge.permits then some (s.granted c) else none
  | .cancel c =>
    if c ∈ s.calls then
      some { s with
        handles := c.payload :: c.ext :: s.handles
        calls := s.calls.erase c
        available := Function.update s.available c.charge.budget
          (s.available c.charge.budget + c.aside) }
    else none

/-- Budgets nothing was charged to. -/
def machine : Machine State Op where
  start := ⟨.empty, [], [], fun _ ↦ ⟨0, 0, 0⟩, fun b ↦ (capacity b).permits, []⟩
  step := step t capacity

end Machine

namespace State

/-- Every handle there is. -/
def held (s : State) : List (Handle Bytes) :=
  s.handles ++ s.calls.flatMap fun c ↦ [c.payload, c.ext]

/-- The permits of a charge, if it is on this budget. -/
def permitsOn (s : State) (b x : Nat) : Nat :=
  if (s.charges x).budget = b then (s.charges x).permits else 0

/-- The sum of the charges on a budget that are not released. -/
def live (s : State) (b : Nat) : Nat :=
  ∑ x ∈ Finset.range s.store.nextToken with x ∉ s.released, s.permitsOn b x

/-- The permits of a budget that calls were handed while they wait for the rest. -/
def aside (s : State) (b : Nat) : Nat :=
  (s.calls.map fun c ↦ if c.charge.budget = b then c.aside else 0).sum

end State

-- One semaphore changes, the others do not.
private theorem update_add (f : Nat → Nat) (a n b : Nat) :
    Function.update f a (f a + n) b = f b + if a = b then n else 0 := by
  rw [Function.update_apply]
  simp only [eq_comm (a := b)]
  split
  next h => rw [h]
  next => rfl

private theorem update_sub (f : Nat → Nat) (a n b : Nat) :
    Function.update f a (f a - n) b = f b - if a = b then n else 0 := by
  rw [Function.update_apply]
  simp only [eq_comm (a := b)]
  split
  next h => rw [h]
  next => rfl

section GiveBack

variable {s : State} {ts : List Nat}

@[simp] theorem giveBack_store : (s.giveBack ts).store = s.store := by
  induction ts generalizing s with
  | nil => rfl
  | cons t ts ih => exact ih

@[simp] theorem giveBack_handles : (s.giveBack ts).handles = s.handles := by
  induction ts generalizing s with
  | nil => rfl
  | cons t ts ih => exact ih

@[simp] theorem giveBack_calls : (s.giveBack ts).calls = s.calls := by
  induction ts generalizing s with
  | nil => rfl
  | cons t ts ih => exact ih

@[simp] theorem giveBack_charges : (s.giveBack ts).charges = s.charges := by
  induction ts generalizing s with
  | nil => rfl
  | cons t ts ih => exact ih

theorem giveBack_released : (s.giveBack ts).released = ts.reverse ++ s.released := by
  induction ts generalizing s with
  | nil => rfl
  | cons t ts ih =>
    rw [State.giveBack, ih, List.reverse_cons, List.append_assoc]
    rfl

/-- A charge that is released is no longer counted. -/
theorem live_release {x : Nat} (hlt : x < s.store.nextToken) (hx : x ∉ s.released)
    (available : Nat → Nat) (b : Nat) : s.live b = s.permitsOn b x +
      State.live { s with available := available, released := x :: s.released } b := by
  have hmem : x ∈ (Finset.range s.store.nextToken).filter (· ∉ s.released) :=
    Finset.mem_filter.mpr ⟨Finset.mem_range.mpr hlt, hx⟩
  rw [State.live, ← Finset.add_sum_erase _ _ hmem, State.live]
  congr 2
  ext y
  simp only [Finset.mem_erase, Finset.mem_filter, List.mem_cons, not_or]
  tauto

/-- What goes back to a semaphore is no longer charged. -/
theorem giveBack_balance (hts : ts.Nodup)
    (hnew : ∀ t ∈ ts, t < s.store.nextToken ∧ t ∉ s.released) (b : Nat) :
    (s.giveBack ts).available b + (s.giveBack ts).live b = s.available b + s.live b := by
  induction ts generalizing s with
  | nil => rfl
  | cons t ts ih =>
    obtain ⟨hfresh, hrest⟩ := List.nodup_cons.mp hts
    obtain ⟨hlt, hkept⟩ := hnew t List.mem_cons_self
    rw [State.giveBack, ih hrest, live_release hlt hkept
      (Function.update s.available (s.charges t).budget
        (s.available (s.charges t).budget + (s.charges t).permits)) b, ← Nat.add_assoc]
    · congr 1
      exact update_add _ _ _ b
    · intro y hy
      refine ⟨(hnew y (List.mem_cons_of_mem _ hy)).1, fun hmem ↦ ?_⟩
      obtain rfl | hmem := List.mem_cons.mp hmem
      · exact hfresh hy
      · exact (hnew y (List.mem_cons_of_mem _ hy)).2 hmem

end GiveBack

/-- What holds of the budgets between two operations. -/
structure Inv (capacity : Nat → Capacity) (s : State) : Prop where
  counted : ∃ nodes, Counted s.store (s.held : Multiset (Handle Bytes)) nodes 0
  balance : ∀ b, s.available b + s.live b + s.aside b = (capacity b).permits
  once : s.released.Nodup
  released : ∀ x, x ∈ s.released ↔ x < s.store.nextToken ∧ s.store.shares x = 0
  exact : ∀ x < s.store.nextToken, (s.charges x).permits = max (s.charges x).length 1
  waiting : ∀ c ∈ s.calls, c.charge.permits = max c.charge.length 1 ∧
    c.charge.length = c.payload.content.length + c.ext.content.length

section Steps

variable {t : Target} {capacity : Nat → Capacity} {s s' : State}

theorem inv_alloc (h : Inv capacity s) (contents : List Bytes) :
    Inv capacity { s with
      store := (s.store.alloc contents).2, handles := (s.store.alloc contents).1 ++ s.handles } := by
  obtain ⟨nodes, hc⟩ := h.counted
  refine ⟨⟨nodes, ?_⟩, h.balance, h.once, h.released, h.exact, h.waiting⟩
  rw [State.held, List.append_assoc]
  exact hc.alloc contents

theorem inv_clone (h : Inv capacity s) {x : Handle Bytes} (hx : x ∈ s.handles) :
    Inv capacity { s with store := s.store.clone x, handles := x :: s.handles } := by
  obtain ⟨nodes, hc⟩ := h.counted
  refine ⟨⟨nodes, ?_⟩, h.balance, h.once, h.released, h.exact, h.waiting⟩
  exact hc.clone (List.mem_append_left _ hx)

theorem inv_drop (h : Inv capacity s) {x : Handle Bytes} (hx : x ∈ s.handles) :
    Inv capacity (State.giveBack { s with
      store := (s.store.drop x).2, handles := s.handles.erase x } (s.store.drop x).1) := by
  obtain ⟨nodes, hc⟩ := h.counted
  have hheld : (s.held : Multiset (Handle Bytes)) =
      x ::ₘ (s.handles.erase x ++ s.calls.flatMap fun c ↦ [c.payload, c.ext] : List _) :=
    Multiset.coe_eq_coe.mpr ((List.perm_cons_erase hx).append_right _)
  rw [hheld] at hc
  obtain ⟨nodes', hc', hrel⟩ := hc.drop
  have hnew : ∀ y ∈ (s.store.drop x).1, y < s.store.nextToken ∧ y ∉ s.released := by
    intro y hy
    obtain ⟨hpos, -⟩ := (hrel.mem_iff y).mp hy
    refine ⟨hc.minted y hpos, fun hmem ↦ ?_⟩
    rw [((h.released y).mp hmem).2] at hpos
    exact Nat.lt_irrefl 0 hpos
  constructor
  · refine ⟨nodes', ?_⟩
    rw [State.held, giveBack_handles, giveBack_calls, giveBack_store]
    exact hc'
  · intro b
    have hlive : State.live { s with
        store := (s.store.drop x).2, handles := s.handles.erase x } b = s.live b := by
      simp only [State.live, hrel.next]
      rfl
    rw [giveBack_balance hrel.nodup (by rwa [hrel.next]) b, State.aside, giveBack_calls, hlive]
    exact h.balance b
  · rw [giveBack_released]
    refine List.nodup_append'.mpr ⟨List.nodup_reverse.mpr hrel.nodup, h.once, fun y hy hmem ↦ ?_⟩
    exact (hnew y (List.mem_reverse.mp hy)).2 hmem
  · intro y
    rw [giveBack_released, giveBack_store, List.mem_append, List.mem_reverse, hrel.mem_iff,
      h.released, hrel.next]
    have hle := hrel.le y
    have hminted := hc.minted y
    simp only
    omega
  · intro y hy
    rw [giveBack_store, hrel.next] at hy
    rw [giveBack_charges]
    exact h.exact y hy
  · intro c hc
    rw [giveBack_calls] at hc
    exact h.waiting c hc

/-- Calls that wait, one of them taken out. -/
theorem aside_erase {calls : List Call} {c : Call} (hc : c ∈ calls) (b : Nat) :
    (calls.map fun c ↦ if c.charge.budget = b then c.aside else 0).sum =
      (if c.charge.budget = b then c.aside else 0) +
        ((calls.erase c).map fun c ↦ if c.charge.budget = b then c.aside else 0).sum := by
  rw [((List.perm_cons_erase hc).map _).sum_eq, List.map_cons, List.sum_cons]

theorem held_erase {c : Call} (hc : c ∈ s.calls) : (s.held : Multiset (Handle Bytes)) =
    (c.payload :: c.ext :: (s.handles ++ (s.calls.erase c).flatMap fun c ↦ [c.payload, c.ext]) :
      List _) := by
  refine Multiset.coe_eq_coe.mpr ?_
  have hperm := ((List.perm_cons_erase hc).flatMap_right fun c ↦ [c.payload, c.ext])
  exact (hperm.append_left s.handles).trans
    (List.perm_append_comm_assoc s.handles [c.payload, c.ext] _)

/-- The permits of a packet that its budget admits are its bytes, and the cast is exact. -/
theorem packetSize_eq {payload ext : Bytes} {b : Nat}
    (hsize : packetSize t payload ext ≤ (capacity b).permits) :
    packetSize t payload ext % 2 ^ 32 = max (payload.length + ext.length) 1 := by
  have hcap := (capacity b).le
  have hpow := Nat.pow_le_pow_right (n := 2) (by decide) t.le_usizeBits
  rw [Nat.mod_eq_of_lt (by omega)]
  rw [packetSize] at hsize ⊢
  omega

theorem inv_charge (h : Inv capacity s) {b : Nat} {payload ext : Handle Bytes}
    (hpayload : payload ∈ s.handles) (hext : ext ∈ s.handles.erase payload)
    (hsize : packetSize t payload.content ext.content ≤ (capacity b).permits) :
    Inv capacity { s with
      handles := (s.handles.erase payload).erase ext
      calls := ⟨⟨b, packetSize t payload.content ext.content % 2 ^ 32,
        payload.content.length + ext.content.length⟩, 0, payload, ext⟩ :: s.calls } := by
  obtain ⟨nodes, hc⟩ := h.counted
  refine ⟨⟨nodes, ?_⟩, fun b' ↦ ?_, h.once, h.released, h.exact, fun c hc ↦ ?_⟩
  · have hperm : s.handles.Perm ([payload, ext] ++ (s.handles.erase payload).erase ext) :=
      (List.perm_cons_erase hpayload).trans ((List.perm_cons_erase hext).cons payload)
    have hheld := hperm.append_right (s.calls.flatMap fun c ↦ [c.payload, c.ext])
    rw [List.append_assoc] at hheld
    rwa [State.held, Multiset.coe_eq_coe.mpr
      (hheld.trans (List.perm_append_comm_assoc [payload, ext] _ _))] at hc
  · rw [← h.balance b', State.aside, State.aside, List.map_cons, List.sum_cons, ite_self,
      Nat.zero_add]
    rfl
  · obtain rfl | hc := List.mem_cons.mp hc
    · exact ⟨packetSize_eq hsize, rfl⟩
    · exact h.waiting c hc

theorem inv_assign (h : Inv capacity s) {c : Call} {n : Nat} (hc : c ∈ s.calls)
    (hn : n ≤ s.available c.charge.budget) :
    Inv capacity { s with
      calls := { c with aside := c.aside + n } :: s.calls.erase c
      available := Function.update s.available c.charge.budget
        (s.available c.charge.budget - n) } := by
  obtain ⟨nodes, hcounted⟩ := h.counted
  refine ⟨⟨nodes, ?_⟩, fun b ↦ ?_, h.once, h.released, h.exact, fun c' hc' ↦ ?_⟩
  · rw [held_erase hc] at hcounted
    rwa [State.held, List.flatMap_cons, Multiset.coe_eq_coe.mpr
      (List.perm_append_comm_assoc _ [c.payload, c.ext] _)]
  · have hbalance := h.balance b
    rw [State.aside, aside_erase hc] at hbalance
    have hlive : State.live { s with
        calls := { c with aside := c.aside + n } :: s.calls.erase c
        available := Function.update s.available c.charge.budget
          (s.available c.charge.budget - n) } b = s.live b := rfl
    rw [hlive, State.aside]
    simp only [List.map_cons, List.sum_cons, update_sub]
    by_cases hb : c.charge.budget = b
    · subst hb
      simp only [↓reduceIte] at hbalance ⊢
      omega
    · simp only [hb, ↓reduceIte] at hbalance ⊢
      omega
  · obtain rfl | hc' := List.mem_cons.mp hc'
    · exact h.waiting c hc
    · exact h.waiting c' (List.mem_of_mem_erase hc')

theorem inv_cancel (h : Inv capacity s) {c : Call} (hc : c ∈ s.calls) :
    Inv capacity { s with
      handles := c.payload :: c.ext :: s.handles
      calls := s.calls.erase c
      available := Function.update s.available c.charge.budget
        (s.available c.charge.budget + c.aside) } := by
  obtain ⟨nodes, hcounted⟩ := h.counted
  refine ⟨⟨nodes, ?_⟩, fun b ↦ ?_, h.once, h.released, h.exact, fun c' hc' ↦ ?_⟩
  · rwa [held_erase hc] at hcounted
  · have hbalance := h.balance b
    rw [State.aside, aside_erase hc] at hbalance
    have hlive : State.live { s with
        handles := c.payload :: c.ext :: s.handles
        calls := s.calls.erase c
        available := Function.update s.available c.charge.budget
          (s.available c.charge.budget + c.aside) } b = s.live b := rfl
    rw [hlive, State.aside]
    simp only [update_add]
    omega
  · exact h.waiting c' (List.mem_of_mem_erase hc')

/-- A charge that is granted is counted from then on. -/
theorem live_mint (hbound : ∀ x ∈ s.released, x < s.store.nextToken) {charge : Charge}
    (hnext : s'.store.nextToken = s.store.nextToken + 1)
    (hcharges : s'.charges = Function.update s.charges s.store.nextToken charge)
    (hreleased : s'.released = s.released) (b : Nat) :
    s'.live b = s.live b + if charge.budget = b then charge.permits else 0 := by
  have hfresh : s.store.nextToken ∉ s.released := fun hmem ↦ Nat.lt_irrefl _ (hbound _ hmem)
  have hsame : ∀ x ∈ Finset.range s.store.nextToken,
      (if x ∉ s.released then s'.permitsOn b x else 0) =
        if x ∉ s.released then s.permitsOn b x else 0 := by
    intro x hx
    have hne : x ≠ s.store.nextToken := Nat.ne_of_lt (Finset.mem_range.mp hx)
    rw [State.permitsOn, hcharges, Function.update_of_ne hne, ← State.permitsOn]
  rw [State.live, State.live, hnext, hreleased, Finset.sum_filter, Finset.sum_filter,
    Finset.sum_range_succ, Finset.sum_congr rfl hsame, if_pos hfresh, State.permitsOn, hcharges,
    Function.update_self]

/-- The store after a charge is granted. -/
theorem granted_counted (h : Inv capacity s) {c : Call} (hc : c ∈ s.calls) :
    ∃ nodes, Counted (s.granted c).store ((s.granted c).held : Multiset (Handle Bytes)) nodes 0 := by
  obtain ⟨nodes, hcounted⟩ := h.counted
  rw [held_erase hc, ← Multiset.cons_coe] at hcounted
  have hlt : s.store.nextToken < s.store.mint.2.nextToken := Nat.lt_succ_self _
  have hpayload := hcounted.mint.wrap hlt
  rw [State.granted]
  split
  next => exact ⟨_, hpayload⟩
  next =>
    rw [← Multiset.cons_coe, Multiset.cons_swap] at hpayload
    have hext := hpayload.wrap hlt
    rw [Multiset.cons_swap] at hext
    exact ⟨_, hext⟩

/-- Only the new token gained shares. -/
theorem granted_shares {c : Call} (x : Nat) :
    (x ≠ s.store.nextToken → (s.granted c).store.shares x = s.store.shares x) ∧
      0 < (s.granted c).store.shares s.store.nextToken := by
  rw [State.granted]
  split
  next =>
    simp only [Store.wrap_shares, Store.mint]
    exact ⟨fun hne ↦ (by rw [if_neg (Ne.symm hne), Nat.add_zero]), by simp⟩
  next =>
    simp only [Store.wrap_shares, Store.mint]
    exact ⟨fun hne ↦ (by rw [if_neg (Ne.symm hne), Nat.add_zero]), by simp⟩

theorem granted_fields {c : Call} :
    (s.granted c).store.nextToken = s.store.nextToken + 1 ∧
      (s.granted c).charges = Function.update s.charges s.store.nextToken c.charge ∧
        (s.granted c).released = s.released ∧ (s.granted c).available = s.available ∧
          (s.granted c).calls = s.calls.erase c := by
  rw [State.granted]
  split
  next => exact ⟨rfl, rfl, rfl, rfl, rfl⟩
  next => exact ⟨rfl, rfl, rfl, rfl, rfl⟩

theorem inv_granted (h : Inv capacity s) {c : Call} (hc : c ∈ s.calls)
    (hall : c.aside = c.charge.permits) : Inv capacity (s.granted c) := by
  obtain ⟨hnext, hcharges, hreleased, havailable, hcalls⟩ := granted_fields (s := s) (c := c)
  have hbound : ∀ x ∈ s.released, x < s.store.nextToken := fun x hx ↦ ((h.released x).mp hx).1
  constructor
  · exact granted_counted h hc
  · intro b
    have hbalance := h.balance b
    rw [State.aside, aside_erase hc] at hbalance
    rw [live_mint hbound hnext hcharges hreleased b, State.aside, hcalls, havailable, ← hall]
    omega
  · rw [hreleased]
    exact h.once
  · intro x
    obtain ⟨hother, hself⟩ := granted_shares (s := s) (c := c) x
    rw [hreleased, h.released, hnext]
    obtain rfl | hne := eq_or_ne x s.store.nextToken
    · omega
    · rw [hother hne]
      omega
  · intro x hx
    rw [hnext] at hx
    rw [hcharges]
    obtain rfl | hne := eq_or_ne x s.store.nextToken
    · rw [Function.update_self]
      exact (h.waiting c hc).1
    · rw [Function.update_of_ne hne]
      exact h.exact x (by omega)
  · intro c' hc'
    rw [hcalls] at hc'
    exact h.waiting c' (List.mem_of_mem_erase hc')

/-- Every operation keeps it. -/
theorem inv_step (h : Inv capacity s) {op : Op} (hstep : step t capacity s op = some s') :
    Inv capacity s' := by
  cases op with
  | alloc contents =>
    cases hstep
    exact inv_alloc h contents
  | clone x =>
    obtain ⟨hx, hcall⟩ := Option.ite_none_right_eq_some.mp hstep
    cases hcall
    exact inv_clone h hx
  | drop x =>
    obtain ⟨hx, hcall⟩ := Option.ite_none_right_eq_some.mp hstep
    cases hcall
    exact inv_drop h hx
  | charge b payload ext =>
    obtain ⟨⟨hpayload, hext⟩, hcall⟩ := Option.ite_none_right_eq_some.mp hstep
    split at hcall
    next =>
      cases hcall
      exact h
    next hsize =>
      cases hcall
      exact inv_charge h hpayload hext (Nat.le_of_not_lt hsize)
  | assign c n =>
    obtain ⟨⟨hc, hn, -⟩, hcall⟩ := Option.ite_none_right_eq_some.mp hstep
    cases hcall
    exact inv_assign h hc hn
  | grant c =>
    obtain ⟨⟨hc, hall⟩, hcall⟩ := Option.ite_none_right_eq_some.mp hstep
    cases hcall
    exact inv_granted h hc hall
  | cancel c =>
    obtain ⟨hc, hcall⟩ := Option.ite_none_right_eq_some.mp hstep
    cases hcall
    exact inv_cancel h hc

end Steps

end MsgTrans.Adapters.Budget
