import MsgTrans.Adapters.Pipeline
import MsgTrans.Base.Custody

/-!
# What a confirmed send is told is what happened

Results on the pipeline of `Adapters.Pipeline`. The completion of a confirmed send is in one hand at
a time: the send's, the queue's, or the write loop's, and it ends once. It ends with success exactly
when the packet was written completely on the connection the send is bound to.
-/

namespace MsgTrans.Adapters.Pipeline

open MsgTrans.Wire MsgTrans.Transport MsgTrans.Base

/-- The completions that some items carry. -/
def completions (items : List Outbound) : List Nat := items.filterMap Outbound.completion

/-- What a socket takes for some items. -/
def Kind.units (kind : Kind) (items : List Outbound) : Bytes :=
  (items.map fun item ↦ kind.unit item.packet).flatten

@[simp] theorem completions_nil : completions [] = [] := rfl

@[simp] theorem completions_append (items items' : List Outbound) :
    completions (items ++ items') = completions items ++ completions items' :=
  List.filterMap_append

@[simp] theorem Kind.units_nil (kind : Kind) : kind.units [] = [] := rfl

@[simp] theorem Kind.units_append (kind : Kind) (items items' : List Outbound) :
    kind.units (items ++ items') = kind.units items ++ kind.units items' := by
  rw [units, List.map_append, List.flatten_append]
  rfl

theorem mem_completions {items : List Outbound} {n : Nat} :
    n ∈ completions items ↔ ∃ item ∈ items, item.completion = some n := List.mem_filterMap

section Turn

/-- What one turn of a write loop does with the items it received: the ones that can be encoded are
its write, and the completions of the others are resolved with an error that names no resource. -/
structure Turn.Spec (kind : Kind) (items : List Outbound) (turn : Turn) : Prop where
  completions (n : Nat) : (completions items).count n =
    (turn.flight.elim [] Flight.completions).count n + (turn.resolved.map Prod.fst).count n
  flight : ∀ flight, turn.flight = some flight →
    flight.items = items.filter Outbound.encodable ∧
      flight.completions = Pipeline.completions flight.items ∧
      flight.rest = kind.units flight.items ∧ turn.returns = false
  skipped : turn.flight = none → items.filter Outbound.encodable = []
  resolved : ∀ r ∈ turn.resolved, ∃ e, r.2 = .error e ∧ ∀ name current limit,
    e ≠ .resource name current limit

theorem complete_completions (item : Outbound) (result : Except TransportError Unit) :
    (item.complete result).map Prod.fst = completions [item] := by
  rw [Outbound.complete, completions, List.filterMap_cons, List.map_map]
  cases item.completion <;> rfl

/-- A write of one item. -/
theorem Turn.spec_single {kind : Kind} {item : Outbound} {packetBytes : Bytes}
    (h : item.packet.tryEncode = .ok packetBytes)
    (hkind : kind.unit item.packet = item.packet.frame) :
    Turn.Spec kind [item]
      ⟨[], some ⟨[item], item.completion.toList, packetBytes⟩, false⟩ := by
  have henc : item.encodable = true := by
    rw [Outbound.encodable, h]
    rfl
  obtain ⟨-, -, rfl⟩ := (Packet.tryEncode_ok_iff _ _).mp h
  have hown : item.completion.toList = Pipeline.completions [item] := by
    rw [Pipeline.completions, List.filterMap_cons]
    cases item.completion <;> rfl
  constructor
  · intro n
    rw [Option.elim_some, hown]
    rfl
  · rintro flight ⟨⟩
    refine ⟨?_, hown, ?_, rfl⟩
    · rw [List.filter_singleton, henc]
      rfl
    · rw [Kind.units, List.map_singleton, List.flatten_singleton, hkind]
  · rintro ⟨⟩
  · intro r hr
    cases hr

/-- A refusal of one item. -/
theorem Turn.spec_refusal {kind : Kind} {item : Outbound} {e : PacketError} {error : TransportError}
    {returns : Bool} (h : item.packet.tryEncode = .error e)
    (herror : ∀ name current limit, error ≠ .resource name current limit) :
    Turn.Spec kind [item] ⟨item.complete (.error error), none, returns⟩ := by
  have henc : item.encodable = false := by
    rw [Outbound.encodable, h]
    rfl
  constructor
  · intro n
    rw [complete_completions, Option.elim_none, List.count_nil, Nat.zero_add]
  · rintro flight ⟨⟩
  · intro _
    rw [List.filter_singleton, henc]
    rfl
  · intro r hr
    obtain ⟨_, -, rfl⟩ := List.mem_map.mp hr
    exact ⟨error, rfl, herror⟩

/-- A batch carries the completions of its items, some resolved and some to be resolved. -/
theorem batch_completions (items : List Outbound) (n : Nat) :
    (completions items).count n =
      (Quic.prepareQuicBatch [] items).completions.count n +
        ((Quic.prepareQuicBatch [] items).resolved.map Prod.fst).count n := by
  have hperm := (Quic.resolved_perm items).map Prod.fst
  have hown : (items.flatMap fun item ↦ item.complete (ownResult Quic.encodeError item)).map
      Prod.fst = completions items := by
    rw [List.map_flatMap]
    simp only [complete_completions]
    rw [completions, List.filterMap_eq_flatMap_toList]
    apply List.flatMap_congr
    intro item _
    rw [completions, List.filterMap_cons]
    cases item.completion <;> rfl
  have hcount := hperm.count_eq n
  rw [hown, List.map_append, List.map_map, List.count_append] at hcount
  have hid : (Prod.fst ∘ fun completion ↦ ((completion, .ok ()) : Resolution)) = id := rfl
  rw [hid, List.map_id] at hcount
  omega

/-- A write of a batch. -/
theorem Turn.spec_batch (items : List Outbound) :
    Turn.Spec .quic items
      ⟨(Quic.prepareQuicBatch [] items).resolved,
        some ⟨items.filter Outbound.encodable, (Quic.prepareQuicBatch [] items).completions,
          (Quic.prepareQuicBatch [] items).writeBuf⟩, false⟩ := by
  constructor
  · exact batch_completions items
  · rintro flight ⟨⟩
    rw [Quic.prepareQuicBatch_eq]
    exact ⟨rfl, rfl, rfl, rfl⟩
  · rintro ⟨⟩
  · intro r hr
    rw [Quic.prepareQuicBatch_eq] at hr
    obtain ⟨item, -, hr⟩ := List.mem_flatMap.mp hr
    unfold Quic.refusal at hr
    split at hr
    next e _ =>
      obtain ⟨_, -, rfl⟩ := List.mem_map.mp hr
      exact ⟨Quic.encodeError e, rfl, by rintro _ _ _ ⟨⟩⟩
    next => cases hr

theorem Kind.turn_spec {kind : Kind} {items : List Outbound} {turn : Turn}
    (h : kind.turn items = some turn) : Turn.Spec kind items turn := by
  unfold Kind.turn at h
  split at h
  · split at h
    next e he =>
      cases h
      exact Turn.spec_refusal he (by rintro _ _ _ ⟨⟩)
    next packetBytes hbytes =>
      cases h
      exact Turn.spec_single hbytes rfl
  · split at h
    next e he =>
      cases h
      exact Turn.spec_refusal he (by rintro _ _ _ ⟨⟩)
    next packetBytes hbytes =>
      cases h
      exact Turn.spec_single hbytes rfl
  · split at h
    · cases h
      exact Turn.spec_batch _
    · cases h
  · cases h

end Turn

namespace Conn

/-- The items of the write under way. -/
def inHand (conn : Conn) : List Outbound := conn.flight.elim [] Flight.items

/-- The bytes of the write under way that the socket has not taken. -/
def unsent (conn : Conn) : Bytes := conn.flight.elim [] Flight.rest

/-- The completions that the queue and the write loop hold. -/
def held (conn : Conn) : List Nat :=
  completions conn.queue ++ conn.flight.elim [] Flight.completions

/-- What is so in every state of a connection: its queue and what came out of it are in the order
of arrival, and the socket has taken the packets that came out and can be encoded, one after the
other, the last one perhaps in part. -/
structure Tidy (conn : Conn) : Prop where
  arrived : conn.received <+: conn.accepted
  queued : conn.receiving = true → conn.received ++ conn.queue = conn.accepted
  flight : ∀ flight, conn.flight = some flight →
    conn.running = true ∧ flight.completions = completions flight.items
  items : conn.running = true →
    conn.written ++ conn.inHand = conn.received.filter Outbound.encodable
  bytes : conn.running = true →
    conn.wire ++ conn.unsent = conn.kind.units (conn.written ++ conn.inHand)
  written : conn.written <+: conn.received.filter Outbound.encodable
  whole : conn.kind.units conn.written <+: conn.wire
  wire : conn.wire <+: conn.kind.units (conn.received.filter Outbound.encodable)
  released : conn.receiving = false → conn.running = false ∧ conn.queue = []

/-- The completions that end with success. -/
def succeeded (log : List (Nat × Fate)) : List Nat :=
  log.filterMap fun r ↦ if r.2 = .completed (.ok ()) then some r.1 else none

/-- A completion that ended with an error did not run out of a resource. -/
def Unexhausted (log : List (Nat × Fate)) : Prop :=
  ∀ r ∈ log, ∀ name current limit, r.2 ≠ .completed (.error (.resource name current limit))

/-- What a step of the write side does: the completions it takes from the connection end, with
success where their items are written. -/
structure Writes (conn conn' : Conn) (out : List (Nat × Fate)) : Prop where
  tidy : conn'.Tidy
  sessionId : conn'.sessionId = conn.sessionId
  bufferBytes : conn'.bufferBytes = conn.bufferBytes
  accepted : conn'.accepted = conn.accepted
  held (n : Nat) : conn.held.count n = conn'.held.count n + (out.map Prod.fst).count n
  written : completions conn'.written = completions conn.written ++ succeeded out
  unexhausted : Unexhausted out

theorem succeeded_append (log log' : List (Nat × Fate)) :
    succeeded (log ++ log') = succeeded log ++ succeeded log' := List.filterMap_append

/-- Completions that end in one way other than success. -/
theorem succeeded_map {fate : Fate} (hfate : fate ≠ .completed (.ok ())) (ns : List Nat) :
    succeeded (ns.map (·, fate)) = [] := by
  rw [succeeded, List.filterMap_map, List.filterMap_eq_nil_iff]
  intro n _
  exact if_neg hfate

theorem succeeded_ok (ns : List Nat) : succeeded (ns.map (·, .completed (.ok ()))) = ns := by
  rw [succeeded, List.filterMap_map]
  exact List.filterMap_some

theorem map_fst_same (fate : Fate) (ns : List Nat) : (ns.map (·, fate)).map Prod.fst = ns := by
  rw [List.map_map]
  exact List.map_id ns

theorem unexhausted_map {fate : Fate} {ns : List Nat}
    (h : ∀ name current limit, fate ≠ .completed (.error (.resource name current limit))) :
    Unexhausted (ns.map (·, fate)) := by
  intro r hr
  obtain ⟨n, -, rfl⟩ := List.mem_map.mp hr
  exact h

theorem tidy_new (kind : Kind) (sessionId outboundCapacity bufferBytes : Nat) :
    (new kind sessionId outboundCapacity bufferBytes).Tidy where
  arrived := List.prefix_rfl
  queued := fun _ ↦ rfl
  flight := by rintro _ ⟨⟩
  items := fun _ ↦ rfl
  bytes := fun _ ↦ rfl
  written := List.prefix_rfl
  whole := List.prefix_rfl
  wire := List.prefix_rfl
  released := by rintro ⟨⟩

section Steps

variable {conn conn' : Conn} {out : List (Nat × Fate)}

theorem tidy_push (h : conn.Tidy) (item : Outbound) (hopen : conn.receiving = true) :
    (conn.push item).Tidy where
  arrived := h.arrived.trans (List.prefix_append _ _)
  queued := by
    intro _
    show conn.received ++ (conn.queue ++ [item]) = conn.accepted ++ [item]
    rw [← List.append_assoc, h.queued hopen]
  flight := h.flight
  items := h.items
  bytes := h.bytes
  written := h.written
  whole := h.whole
  wire := h.wire
  released := fun hclosed ↦ absurd hopen (Bool.eq_false_iff.mp hclosed)

/-- What a turn takes off the queue is what it writes and what it refuses. -/
theorem writes_take (h : conn.Tidy) {count : Nat} (hstep : conn.take count = some (conn', out)) :
    Writes conn conn' out := by
  obtain ⟨⟨hrunning, hidle⟩, hturn⟩ := Option.ite_none_right_eq_some.mp hstep
  obtain ⟨turn, hsome, heq⟩ := Option.map_eq_some_iff.mp hturn
  have hspec := Kind.turn_spec hsome
  cases heq
  have hreceiving : conn.receiving = true := by
    by_contra hclosed
    have hstopped := (h.released (Bool.eq_false_of_not_eq_true hclosed)).1
    exact absurd hrunning (Bool.eq_false_iff.mp hstopped)
  have hwritten : conn.written = conn.received.filter Outbound.encodable := by
    have hitems := h.items hrunning
    rw [inHand, hidle, Option.elim_none, List.append_nil] at hitems
    exact hitems
  have hwire : conn.wire = conn.kind.units conn.written := by
    have hbytes := h.bytes hrunning
    rw [unsent, inHand, hidle, Option.elim_none, Option.elim_none, List.append_nil,
      List.append_nil] at hbytes
    exact hbytes
  have hprefix : conn.received.filter Outbound.encodable <+:
      (conn.received ++ conn.queue.take count).filter Outbound.encodable := by
    rw [List.filter_append]
    exact List.prefix_append _ _
  have hsplit : conn.received ++ conn.queue.take count ++ conn.queue.drop count =
      conn.accepted := by
    rw [List.append_assoc, List.take_append_drop]
    exact h.queued hreceiving
  constructor
  · constructor
    · exact ⟨_, hsplit⟩
    · exact fun _ ↦ hsplit
    · intro flight hflight
      obtain ⟨-, hcompletions, -, hreturns⟩ := hspec.flight flight hflight
      refine ⟨?_, hcompletions⟩
      rw [hreturns]
      rfl
    · intro _
      show conn.written ++ turn.flight.elim [] Flight.items = _
      rw [List.filter_append, ← hwritten]
      congr 1
      cases hflight : turn.flight with
      | none => exact (hspec.skipped hflight).symm
      | some flight => exact (hspec.flight flight hflight).1
    · intro _
      show conn.wire ++ turn.flight.elim [] Flight.rest =
        conn.kind.units (conn.written ++ turn.flight.elim [] Flight.items)
      rw [Kind.units_append, hwire]
      congr 1
      cases hflight : turn.flight with
      | none => rfl
      | some flight => exact (hspec.flight flight hflight).2.2.1
    · exact h.written.trans hprefix
    · exact h.whole
    · obtain ⟨rest, hrest⟩ := hprefix
      refine h.wire.trans ⟨conn.kind.units rest, ?_⟩
      rw [← Kind.units_append, hrest]
    · exact fun hclosed ↦ absurd hreceiving (Bool.eq_false_iff.mp hclosed)
  · rfl
  · rfl
  · rfl
  · intro n
    have hcount := hspec.completions n
    have hqueue : completions conn.queue =
        completions (conn.queue.take count) ++ completions (conn.queue.drop count) := by
      rw [← completions_append, List.take_append_drop]
    rw [held, held, hidle, hqueue, List.map_map]
    simp only [List.count_append, Option.elim_none, List.count_nil]
    have hfst : (Prod.fst ∘ fun r : Resolution ↦ (r.1, Fate.completed r.2)) = Prod.fst := rfl
    rw [hfst]
    omega
  · have hnone : succeeded (turn.resolved.map fun r ↦ (r.1, Fate.completed r.2)) = [] := by
      rw [succeeded, List.filterMap_map, List.filterMap_eq_nil_iff]
      intro r hr
      obtain ⟨e, he, -⟩ := hspec.resolved r hr
      refine if_neg fun (hok : Fate.completed r.2 = _) ↦ ?_
      rw [he] at hok
      cases hok
    rw [hnone, List.append_nil]
  · intro entry hentry name current limit hres
    obtain ⟨r, hr, rfl⟩ := List.mem_map.mp hentry
    obtain ⟨e, he, hne⟩ := hspec.resolved r hr
    have hfate : Fate.completed r.2 = .completed (.error (.resource name current limit)) := hres
    rw [he] at hfate
    cases hfate
    exact hne _ _ _ rfl

/-- The socket takes bytes in their order. -/
theorem writes_accept (h : conn.Tidy) {count : Nat}
    (hstep : conn.accept count = some (conn', out)) : Writes conn conn' out := by
  obtain ⟨flight, hflight, heq⟩ := Option.map_eq_some_iff.mp hstep
  cases heq
  obtain ⟨hrunning, hcompletions⟩ := h.flight flight hflight
  have hinHand : conn.inHand = flight.items := by rw [inHand, hflight, Option.elim_some]
  have hunsent : conn.unsent = flight.rest := by rw [unsent, hflight, Option.elim_some]
  have hitems := h.items hrunning
  have hbytes := h.bytes hrunning
  rw [hinHand] at hitems hbytes
  rw [hunsent] at hbytes
  have hmoved : conn.wire ++ flight.rest.take count ++ flight.rest.drop count =
      conn.kind.units (conn.written ++ flight.items) := by
    rw [List.append_assoc, List.take_append_drop]
    exact hbytes
  constructor
  · constructor
    · exact h.arrived
    · exact h.queued
    · rintro _ ⟨⟩
      exact ⟨hrunning, hcompletions⟩
    · exact fun _ ↦ hitems
    · exact fun _ ↦ hmoved
    · exact h.written
    · exact h.whole.trans (List.prefix_append _ _)
    · rw [← hitems]
      exact ⟨_, hmoved⟩
    · exact h.released
  · rfl
  · rfl
  · rfl
  · intro n
    rw [held, held, hflight]
    rfl
  · exact (List.append_nil _).symm
  · intro r hr
    cases hr

/-- A write that the socket has taken whole ends its completions with success. -/
theorem writes_finish (h : conn.Tidy) (hstep : conn.finish = some (conn', out)) :
    Writes conn conn' out := by
  obtain ⟨flight, hflight, hif⟩ := Option.bind_eq_some_iff.mp hstep
  obtain ⟨hrest, heq⟩ := Option.ite_none_right_eq_some.mp hif
  cases heq
  obtain ⟨hrunning, hcompletions⟩ := h.flight flight hflight
  have hinHand : conn.inHand = flight.items := by rw [inHand, hflight, Option.elim_some]
  have hunsent : conn.unsent = [] := by rw [unsent, hflight, Option.elim_some, hrest]
  have hitems := h.items hrunning
  have hbytes := h.bytes hrunning
  rw [hinHand] at hitems hbytes
  rw [hunsent, List.append_nil] at hbytes
  constructor
  · constructor
    · exact h.arrived
    · exact h.queued
    · rintro _ ⟨⟩
    · intro _
      show conn.written ++ flight.items ++ [] = _
      rw [List.append_nil]
      exact hitems
    · intro _
      show conn.wire ++ [] = conn.kind.units (conn.written ++ flight.items ++ [])
      rw [List.append_nil, List.append_nil]
      exact hbytes
    · show conn.written ++ flight.items <+: _
      rw [hitems]
    · show conn.kind.units (conn.written ++ flight.items) <+: conn.wire
      rw [hbytes]
    · exact h.wire
    · exact h.released
  · rfl
  · rfl
  · rfl
  · intro n
    rw [held, held, hflight, map_fst_same]
    simp only [List.count_append, Option.elim_some, Option.elim_none, List.count_nil]
    omega
  · rw [succeeded_ok, hcompletions, completions_append]
  · exact unexhausted_map (by rintro _ _ _ ⟨⟩)

/-- A loop that is gone has no write under way, and what the socket took of its last one stays. -/
theorem tidy_halt (h : conn.Tidy) :
    { conn with flight := none, running := false : Conn }.Tidy where
  arrived := h.arrived
  queued := h.queued
  flight := by rintro _ ⟨⟩
  items := by rintro ⟨⟩
  bytes := by rintro ⟨⟩
  written := h.written
  whole := h.whole
  wire := h.wire
  released := fun hclosed ↦ ⟨rfl, (h.released hclosed).2⟩

/-- The write loop ends and its completions with it, in one way other than success. -/
theorem writes_halt (h : conn.Tidy) (fate : Fate) (hok : fate ≠ .completed (.ok ()))
    (hresource : ∀ name current limit,
      fate ≠ .completed (.error (.resource name current limit))) :
    Writes conn { conn with flight := none, running := false }
      ((conn.flight.elim [] Flight.completions).map (·, fate)) where
  tidy := tidy_halt h
  sessionId := rfl
  bufferBytes := rfl
  accepted := rfl
  held := by
    intro n
    rw [held, held, map_fst_same]
    simp only [List.count_append, Option.elim_none, List.count_nil]
    omega
  written := by rw [succeeded_map hok, List.append_nil]
  unexhausted := unexhausted_map hresource

theorem writes_fail (h : conn.Tidy) {fault : Option String}
    (hstep : conn.fail fault = some (conn', out)) : Writes conn conn' out := by
  obtain ⟨flight, hflight, heq⟩ := Option.map_eq_some_iff.mp hstep
  cases heq
  have hhalt := writes_halt h (.completed (.error (conn.kind.writeFailed fault)))
    (by rintro ⟨⟩) (by cases hk : conn.kind <;> cases fault <;> rintro _ _ _ ⟨⟩)
  rw [hflight, Option.elim_some] at hhalt
  exact hhalt

theorem writes_stop (h : conn.Tidy) (hstep : conn.stop = some (conn', out)) :
    Writes conn conn' out := by
  obtain ⟨-, heq⟩ := Option.ite_none_right_eq_some.mp hstep
  cases heq
  exact writes_halt h .dropped (by rintro ⟨⟩) (by rintro _ _ _ ⟨⟩)

/-- With the receiver go the items that are still queued. -/
theorem writes_release (h : conn.Tidy) (hstep : conn.release = some (conn', out)) :
    Writes conn conn' out := by
  obtain ⟨⟨-, hstopped⟩, heq⟩ := Option.ite_none_right_eq_some.mp hstep
  cases heq
  constructor
  · constructor
    · exact h.arrived
    · rintro ⟨⟩
    · exact h.flight
    · exact h.items
    · exact h.bytes
    · exact h.written
    · exact h.whole
    · exact h.wire
    · exact fun _ ↦ ⟨hstopped, rfl⟩
  · rfl
  · rfl
  · rfl
  · intro n
    rw [held, held, map_fst_same]
    simp only [List.count_append, completions_nil, List.count_nil]
    exact Nat.zero_add _ ▸ Nat.add_comm _ _
  · rw [succeeded_map (by rintro ⟨⟩), List.append_nil]
  · exact unexhausted_map (by rintro _ _ _ ⟨⟩)

end Steps

end Conn

section Effects

/-- The byte budget has taken the packet of the send. -/
def Phase.charged : Phase → Bool
  | .offering | .waiting => true
  | _ => false

theorem Phase.owns_of_charged {phase : Phase} (h : phase.charged = true) : phase.owns = true := by
  cases phase <;> first | rfl | cases h

/-- The byte budget of the connection that the send is bound to has room for its packet. -/
def State.Charged (t : Target) (s : State) (send : Send) : Prop :=
  ∀ c conn, send.conn = some c → s.conns[c]? = some conn →
    chargeSize t send.packet ≤ conn.bufferBytes

/-- What a step does to the system. -/
inductive Effect (t : Target) (s : State) : State → Prop where
  | install (kind : Kind) (sessionId outboundCapacity bufferBytes : Nat) : Effect t s
      { s with
        slot := some s.conns.length
        conns := s.conns ++ [.new kind sessionId outboundCapacity bufferBytes] }
  | vacate : Effect t s { s with slot := none }
  | send (packet : Packet) (confirmed : Bool) (expectedSession : Option Nat) : Effect t s
      { s with sends := s.sends ++ [⟨packet, confirmed, expectedSession, none, .locking⟩] }
  | bind {n c : Nat} {send : Send} {conn : Conn} (hsend : s.sends[n]? = some send)
      (hphase : send.phase = .locking) (hconn : s.conns[c]? = some conn)
      (hsession : ∀ expected, send.expectedSession = some expected → conn.sessionId = expected) :
      Effect t s (s.enter n { send with conn := some c } .charging)
  | move {n : Nat} {send : Send} {phase : Phase} (hsend : s.sends[n]? = some send)
      (howns : send.phase.owns = true) (hphase : phase.owns = true)
      (hcharged : send.phase.charged = true ∨ s.Charged t send) :
      Effect t s (s.enter n send phase)
  | settle {n : Nat} {send : Send} {phase : Phase} (hsend : s.sends[n]? = some send)
      (hover : phase = .cancelled ∧ send.phase.active = true ∨
        send.phase.owns = true ∧ ∃ e, phase = .done (.error e)) :
      Effect t s (s.settle n send phase)
  | enqueue {n c : Nat} {send : Send} {conn : Conn} (hsend : s.sends[n]? = some send)
      (hcharged : send.phase.charged = true) (hbound : send.conn = some c)
      (hconn : s.conns[c]? = some conn) (hopen : conn.receiving = true) :
      Effect t s (s.enqueue n c send conn)
  | learn {n : Nat} {send : Send} {fate : Fate} (hsend : s.sends[n]? = some send)
      (hphase : send.phase = .receipt) (hfate : (n, fate) ∈ s.log) :
      Effect t s (s.enter n send (.done (State.told fate)))
  | write {c : Nat} {conn conn' : Conn} {out : List (Nat × Fate)} (hconn : s.conns[c]? = some conn)
      (hwrites : conn.Tidy → conn.Writes conn' out) :
      Effect t s { s with conns := s.conns.set c conn', log := s.log ++ out }

variable {t : Target} {s s' : State}

theorem State.onConn_effect {c : Nat} {f : Conn → Option (Conn × List (Nat × Fate))}
    (h : s.onConn c f = some s')
    (hf : ∀ conn conn' out, f conn = some (conn', out) → conn.Tidy → conn.Writes conn' out) :
    Effect t s s' := by
  obtain ⟨conn, hconn, hmap⟩ := Option.bind_eq_some_iff.mp h
  obtain ⟨⟨conn', out⟩, hout, rfl⟩ := Option.map_eq_some_iff.mp hmap
  exact .write hconn (hf _ _ _ hout)

theorem State.onSend_eq {n : Nat} {phase : Phase} {f : Send → Option State}
    (h : s.onSend n phase f = some s') :
    ∃ send, s.sends[n]? = some send ∧ send.phase = phase ∧ f send = some s' := by
  obtain ⟨send, hfilter, hf⟩ := Option.bind_eq_some_iff.mp h
  obtain ⟨hsend, hphase⟩ := Option.filter_eq_some_iff.mp hfilter
  exact ⟨send, hsend, of_decide_eq_true hphase, hf⟩

theorem State.onWriter_eq {n : Nat} {phase : Phase} {f : Nat → Nat → Send → Conn → Option State}
    (h : s.onWriter n phase f = some s') :
    ∃ send c conn, s.sends[n]? = some send ∧ send.phase = phase ∧ send.conn = some c ∧
      s.conns[c]? = some conn ∧ f n c send conn = some s' := by
  obtain ⟨send, hsend, hphase, hbind⟩ := State.onSend_eq h
  obtain ⟨c, hc, hbind⟩ := Option.bind_eq_some_iff.mp hbind
  obtain ⟨conn, hconn, hf⟩ := Option.bind_eq_some_iff.mp hbind
  exact ⟨send, c, conn, hsend, hphase, hc, hconn, hf⟩

/-- A send that still owns its item is refused. -/
theorem Effect.refuse {n : Nat} {send : Send} (hsend : s.sends[n]? = some send)
    (howns : send.phase.owns = true) (e : TransportError) : Effect t s (s.refuse n send e) :=
  .settle hsend (Or.inr ⟨howns, e, rfl⟩)

theorem State.lock_effect {n : Nat} {send : Send} (hsend : s.sends[n]? = some send)
    (hphase : send.phase = .locking) (h : s.lock n send = some s') : Effect t s s' := by
  have howns : send.phase.owns = true := by rw [hphase]; rfl
  unfold State.lock at h
  split at h
  next =>
    cases h
    exact .refuse hsend howns _
  next c conn hslot =>
    obtain ⟨c', -, hmap⟩ := Option.bind_eq_some_iff.mp hslot
    obtain ⟨conn', hconn, heq⟩ := Option.map_eq_some_iff.mp hmap
    cases heq
    split at h
    next hsession =>
      cases h
      exact .bind hsend hphase hconn hsession
    next =>
      cases h
      exact .refuse hsend howns _

theorem State.offer_effect {full : Bool} {n c : Nat} {send : Send} {conn : Conn}
    (hsend : s.sends[n]? = some send) (hphase : send.phase = .offering)
    (hbound : send.conn = some c) (hconn : s.conns[c]? = some conn)
    (h : s.offer full n c send conn = some s') : Effect t s s' := by
  have howns : send.phase.owns = true := by rw [hphase]; rfl
  unfold State.offer at h
  split at h
  · cases h
    exact .refuse hsend howns _
  · next hopen =>
    split at h
    · obtain ⟨-, heq⟩ := Option.ite_none_right_eq_some.mp h
      cases heq
      exact .move hsend howns rfl (Or.inl (by rw [hphase]; rfl))
    · obtain ⟨-, heq⟩ := Option.ite_none_right_eq_some.mp h
      cases heq
      exact .enqueue hsend (by rw [hphase]; rfl) hbound hconn (Bool.eq_true_of_not_eq_false hopen)

/-- Every step is one of these. -/
theorem step_effect {l : Label} (h : s.step t l = some s') : Effect t s s' := by
  cases l with
  | install kind sessionId outboundCapacity bufferBytes =>
    cases h
    exact .install ..
  | vacate =>
    cases h
    exact .vacate
  | send packet confirmed expectedSession =>
    cases h
    exact .send ..
  | lock n =>
    obtain ⟨send, hsend, hphase, hlock⟩ := State.onSend_eq h
    exact State.lock_effect hsend hphase hlock
  | charge n =>
    obtain ⟨send, c, conn, hsend, hphase, hbound, hconn, hcharge⟩ := State.onWriter_eq h
    have howns : send.phase.owns = true := by rw [hphase]; rfl
    unfold State.charge at hcharge
    split at hcharge
    next hroom =>
      cases hcharge
      refine .move hsend howns rfl (Or.inr fun d other hd hother ↦ ?_)
      rw [hbound] at hd
      cases hd
      rw [hconn] at hother
      cases hother
      exact hroom
    next =>
      cases hcharge
      exact .refuse hsend howns _
  | starve n =>
    obtain ⟨send, c, conn, hsend, hphase, -, -, hstarve⟩ := State.onWriter_eq h
    obtain ⟨-, heq⟩ := Option.ite_none_right_eq_some.mp hstarve
    cases heq
    exact .refuse hsend (by rw [hphase]; rfl) _
  | offer n full =>
    obtain ⟨send, c, conn, hsend, hphase, hbound, hconn, hoffer⟩ := State.onWriter_eq h
    exact State.offer_effect hsend hphase hbound hconn hoffer
  | grant n =>
    obtain ⟨send, c, conn, hsend, hphase, hbound, hconn, hgrant⟩ := State.onWriter_eq h
    obtain ⟨⟨hopen, -⟩, heq⟩ := Option.ite_none_right_eq_some.mp hgrant
    cases heq
    exact .enqueue hsend (by rw [hphase]; rfl) hbound hconn hopen
  | expire n depth =>
    obtain ⟨send, c, conn, hsend, hphase, -, -, hexpire⟩ := State.onWriter_eq h
    obtain ⟨-, heq⟩ := Option.ite_none_right_eq_some.mp hexpire
    cases heq
    exact .refuse hsend (by rw [hphase]; rfl) _
  | hangUp n =>
    obtain ⟨send, c, conn, hsend, hphase, -, -, hhang⟩ := State.onWriter_eq h
    obtain ⟨-, heq⟩ := Option.ite_none_right_eq_some.mp hhang
    cases heq
    exact .refuse hsend (by rw [hphase]; rfl) _
  | cancel n =>
    obtain ⟨send, hfilter, rfl⟩ := Option.map_eq_some_iff.mp h
    obtain ⟨hsend, hactive⟩ := Option.filter_eq_some_iff.mp hfilter
    exact .settle hsend (Or.inl ⟨rfl, hactive⟩)
  | learn n =>
    obtain ⟨send, hsend, hphase, hlearn⟩ := State.onSend_eq h
    obtain ⟨fate, hfate, rfl⟩ := Option.map_eq_some_iff.mp hlearn
    obtain ⟨l₁, l₂, hlog, -⟩ := List.lookup_eq_some_iff.mp hfate
    refine .learn hsend hphase ?_
    rw [hlog]
    exact List.mem_append_right _ List.mem_cons_self
  | take c count => exact State.onConn_effect h fun _ _ _ hf htidy ↦ Conn.writes_take htidy hf
  | accept c count => exact State.onConn_effect h fun _ _ _ hf htidy ↦ Conn.writes_accept htidy hf
  | finish c => exact State.onConn_effect h fun _ _ _ hf htidy ↦ Conn.writes_finish htidy hf
  | fail c fault => exact State.onConn_effect h fun _ _ _ hf htidy ↦ Conn.writes_fail htidy hf
  | stop c => exact State.onConn_effect h fun _ _ _ hf htidy ↦ Conn.writes_stop htidy hf
  | release c => exact State.onConn_effect h fun _ _ _ hf htidy ↦ Conn.writes_release htidy hf

end Effects

section Soundness

/-- Its item has been in a queue, as far as its phase tells. -/
def Phase.entered : Phase → Bool
  | .receipt | .cancelled => true
  | .done (.error (.resource _ _ _)) => false
  | .done _ => true
  | _ => false

/-- How often a send owns its own completion. -/
def Send.owned (send : Send) : Nat :=
  if send.confirmed = true ∧ send.phase.owns = true then 1 else 0

/-- How many completions a send has made. -/
def Send.issued (send : Send) : Nat := if send.confirmed = true then 1 else 0

/-- What is so in every state of the system. -/
structure Sound (s : State) : Prop where
  tidy (c : Nat) (conn : Conn) : s.conns[c]? = some conn → conn.Tidy
  bound (n : Nat) (send : Send) (c : Nat) : s.sends[n]? = some send → send.conn = some c →
    ∃ conn, s.conns[c]? = some conn ∧
      ∀ expected, send.expectedSession = some expected → conn.sessionId = expected
  origin (c : Nat) (conn : Conn) (item : Outbound) (n : Nat) : s.conns[c]? = some conn →
    item ∈ conn.accepted → item.completion = some n →
      ∃ send, s.sends[n]? = some send ∧ send.confirmed = true ∧ item.packet = send.packet ∧
        send.conn = some c ∧ send.phase.entered = true
  once (n : Nat) : (inHands (fun conn ↦ completions conn.accepted) s.conns).count n ≤ 1
  custody (n : Nat) : s.sends[n]?.elim 0 Send.owned + (inHands Conn.held s.conns).count n +
    (s.log.map Prod.fst).count n = s.sends[n]?.elim 0 Send.issued
  written (n : Nat) : (inHands (fun conn ↦ completions conn.written) s.conns).count n =
    (Conn.succeeded s.log).count n
  unexhausted : Conn.Unexhausted s.log
  outcome (n : Nat) (send : Send) (result : Except TransportError Unit) :
    s.sends[n]? = some send → send.confirmed = true → send.phase = .done result →
      ∃ fate, (n, fate) ∈ s.log ∧ (fate = .completed (.ok ()) ↔ result = .ok ())

theorem sound_new : Sound .new where
  tidy := by rintro _ _ ⟨⟩
  bound := by rintro _ _ _ ⟨⟩
  origin := by rintro _ _ _ _ ⟨⟩
  once := fun _ ↦ Nat.zero_le _
  custody := fun _ ↦ rfl
  written := fun _ ↦ rfl
  unexhausted := by rintro _ ⟨⟩
  outcome := by rintro _ _ _ ⟨⟩

variable {s s' : State} {n c : Nat} {send send' : Send} {conn conn' : Conn}
  {out : List (Nat × Fate)}

/-- What is dropped ends without success and without an error of a resource. -/
theorem dropped_log (hout : ∀ r ∈ out, r.2 = .dropped) :
    Conn.succeeded out = [] ∧ Conn.Unexhausted out := by
  constructor
  · rw [Conn.succeeded, List.filterMap_eq_nil_iff]
    intro r hr
    refine if_neg fun hok ↦ ?_
    rw [hout r hr] at hok
    cases hok
  · intro r hr name current limit hres
    rw [hout r hr] at hres
    cases hres

/-- A step of one send keeps all this, if it accounts for the completion of the send. -/
theorem Sound.update (h : Sound s) (out : List (Nat × Fate)) (hsend : s.sends[n]? = some send)
    (hpacket : send'.packet = send.packet) (hconfirmed : send'.confirmed = send.confirmed)
    (hbound : ∀ c, send'.conn = some c → ∃ conn, s.conns[c]? = some conn ∧
      ∀ expected, send'.expectedSession = some expected → conn.sessionId = expected)
    (hentered : send.phase.entered = true →
      send'.conn = send.conn ∧ send'.phase.entered = true)
    (howned : send.owned = send'.owned + (out.map Prod.fst).count n)
    (hothers : ∀ m, m ≠ n → (out.map Prod.fst).count m = 0)
    (hdropped : ∀ r ∈ out, r.2 = .dropped)
    (houtcome : ∀ result, send'.confirmed = true → send'.phase = .done result →
      ∃ fate, (n, fate) ∈ s.log ++ out ∧ (fate = .completed (.ok ()) ↔ result = .ok ())) :
    Sound { s with sends := s.sends.set n send', log := s.log ++ out } := by
  obtain ⟨hnone, hunexhausted⟩ := dropped_log hdropped
  constructor
  · exact h.tidy
  · intro m other c hm hc
    rw [getElem?_set_of_some hsend] at hm
    split at hm
    · cases hm
      exact hbound c hc
    · exact h.bound m other c hm hc
  · intro c conn item m hconn hitem hm
    obtain ⟨other, hother, hconf, hpack, hc, hent⟩ := h.origin c conn item m hconn hitem hm
    show ∃ send, (s.sends.set n send')[m]? = some send ∧ _
    rw [getElem?_set_of_some hsend]
    split
    next heq =>
      subst heq
      rw [hsend] at hother
      cases hother
      obtain ⟨hsame, hent'⟩ := hentered hent
      exact ⟨send', rfl, hconfirmed.trans hconf, hpack.trans hpacket.symm, hsame.trans hc, hent'⟩
    next => exact ⟨other, hother, hconf, hpack, hc, hent⟩
  · exact h.once
  · intro m
    have hcustody := h.custody m
    show (s.sends.set n send')[m]?.elim 0 Send.owned + (inHands Conn.held s.conns).count m +
      ((s.log ++ out).map Prod.fst).count m = (s.sends.set n send')[m]?.elim 0 Send.issued
    rw [getElem?_set_of_some hsend, List.map_append, List.count_append]
    split
    next heq =>
      subst heq
      rw [hsend, Option.elim_some, Option.elim_some] at hcustody
      rw [Option.elim_some, Option.elim_some]
      have hissued : send'.issued = send.issued := by rw [Send.issued, Send.issued, hconfirmed]
      omega
    next hne =>
      have hzero := hothers m hne
      omega
  · intro m
    show _ = (Conn.succeeded (s.log ++ out)).count m
    rw [Conn.succeeded_append, hnone, List.append_nil]
    exact h.written m
  · intro r hr
    obtain hr | hr := List.mem_append.mp hr
    · exact h.unexhausted r hr
    · exact hunexhausted r hr
  · intro m other result hm hconf hdone
    rw [getElem?_set_of_some hsend] at hm
    split at hm
    next heq =>
      subst heq
      cases hm
      exact houtcome result hconf hdone
    next =>
      obtain ⟨fate, hfate, hiff⟩ := h.outcome m other result hm hconf hdone
      exact ⟨fate, List.mem_append_left _ hfate, hiff⟩

/-- A send that owns its item has not been in a queue. -/
theorem Phase.not_entered {phase : Phase} (h : phase.owns = true) : phase.entered = false := by
  cases phase <;> first | rfl | cases h

/-- The same when no completion ends. -/
theorem Sound.enter (h : Sound s) (hsend : s.sends[n]? = some send)
    (hpacket : send'.packet = send.packet) (hconfirmed : send'.confirmed = send.confirmed)
    (hbound : ∀ c, send'.conn = some c → ∃ conn, s.conns[c]? = some conn ∧
      ∀ expected, send'.expectedSession = some expected → conn.sessionId = expected)
    (hentered : send.phase.entered = true →
      send'.conn = send.conn ∧ send'.phase.entered = true)
    (howned : send.owned = send'.owned)
    (houtcome : ∀ result, send'.confirmed = true → send'.phase = .done result →
      ∃ fate, (n, fate) ∈ s.log ∧ (fate = .completed (.ok ()) ↔ result = .ok ())) :
    Sound { s with sends := s.sends.set n send' } := by
  have hupdate := h.update [] hsend hpacket hconfirmed hbound hentered howned
    (fun _ _ ↦ rfl) (by rintro _ ⟨⟩) (by rwa [List.append_nil])
  rwa [List.append_nil] at hupdate

/-- What a send drops with itself is what it owned. -/
theorem count_dropping (n : Nat) (send : Send) :
    ((State.dropping n send).map Prod.fst).count n = send.owned := by
  unfold State.dropping Send.owned
  split
  · exact List.count_singleton_self
  · rfl

theorem Sound.settle (h : Sound s) {phase : Phase} (hsend : s.sends[n]? = some send)
    (hover : phase = .cancelled ∧ send.phase.active = true ∨
      send.phase.owns = true ∧ ∃ e, phase = .done (.error e)) : Sound (s.settle n send phase) := by
  have howns : phase.owns = false := by
    obtain ⟨rfl, -⟩ | ⟨-, e, rfl⟩ := hover <;> rfl
  have hout : ∀ r ∈ State.dropping n send, r = (n, .dropped) := by
    intro r hr
    unfold State.dropping at hr
    split at hr
    · exact List.mem_singleton.mp hr
    · cases hr
  refine h.update _ hsend rfl rfl (fun c hc ↦ h.bound n send c hsend hc) ?_ ?_ ?_ ?_ ?_
  · intro hentered
    refine ⟨rfl, ?_⟩
    obtain ⟨rfl, -⟩ | ⟨howned, -⟩ := hover
    · rfl
    · rw [Phase.not_entered howned] at hentered
      cases hentered
  · rw [count_dropping]
    have hnone : Send.owned { send with phase } = 0 :=
      if_neg fun hboth ↦ absurd hboth.2 (Bool.eq_false_iff.mp howns)
    rw [hnone, Nat.zero_add]
  · intro m hm
    rw [List.count_eq_zero, List.mem_map]
    rintro ⟨r, hr, rfl⟩
    rw [hout r hr] at hm
    exact hm rfl
  · intro r hr
    rw [hout r hr]
  · rintro result hconf hdone
    obtain ⟨rfl, -⟩ | ⟨howned, e, rfl⟩ := hover
    · cases hdone
    · cases hdone
      refine ⟨.dropped, List.mem_append_right _ ?_, ?_⟩
      · unfold State.dropping
        rw [if_pos ⟨hconf, howned⟩]
        exact List.mem_singleton_self _
      · constructor <;> rintro ⟨⟩

/-- What a send learns of its completion is how it ended. -/
theorem Sound.learn (h : Sound s) {fate : Fate} (hsend : s.sends[n]? = some send)
    (hphase : send.phase = .receipt) (hfate : (n, fate) ∈ s.log) :
    Sound (s.enter n send (.done (State.told fate))) := by
  refine h.enter hsend rfl rfl (fun c hc ↦ h.bound n send c hsend hc) ?_ ?_ ?_
  · intro _
    refine ⟨rfl, ?_⟩
    cases fate with
    | dropped => rfl
    | completed result =>
      cases result with
      | ok => rfl
      | error e =>
        cases e with
        | resource name current limit => exact absurd rfl (h.unexhausted _ hfate name current limit)
        | connection _ _ => rfl
        | protocol _ _ => rfl
        | configuration _ _ => rfl
  · have hnone : send.owned = 0 := if_neg fun hboth ↦ by
      rw [hphase] at hboth
      exact absurd hboth.2 Bool.false_ne_true
    rw [hnone]
    exact (if_neg fun hboth ↦ absurd hboth.2 Bool.false_ne_true).symm
  · rintro result - hdone
    cases hdone
    refine ⟨fate, hfate, ?_⟩
    cases fate with
    | dropped => constructor <;> rintro ⟨⟩
    | completed result =>
      constructor
      · rintro ⟨⟩
        rfl
      · intro hok
        rw [show result = .ok () from hok]

/-- An item that a send still owns is in no queue's history. -/
theorem Sound.not_accepted (h : Sound s) (hsend : s.sends[n]? = some send)
    (howns : send.phase.owns = true) :
    (inHands (fun conn ↦ completions conn.accepted) s.conns).count n = 0 := by
  rw [List.count_eq_zero, mem_inHands]
  rintro ⟨c, conn, hconn, hmem⟩
  obtain ⟨item, hitem, hn⟩ := mem_completions.mp hmem
  obtain ⟨other, hother, -, -, -, hentered⟩ := h.origin c conn item n hconn hitem hn
  rw [hsend] at hother
  cases hother
  rw [Phase.not_entered howns] at hentered
  cases hentered

/-- A connection that changes keeps its session. -/
theorem exists_conn_set {P : Nat → Prop} {conns : List Conn} (hconn : conns[c]? = some conn)
    (hsession : conn'.sessionId = conn.sessionId) {d : Nat}
    (h : ∃ conn, conns[d]? = some conn ∧ P conn.sessionId) :
    ∃ conn, (conns.set c conn')[d]? = some conn ∧ P conn.sessionId := by
  obtain ⟨other, hother, hP⟩ := h
  rw [getElem?_set_of_some hconn]
  split
  next heq =>
    subst heq
    rw [hconn] at hother
    cases hother
    exact ⟨conn', rfl, hsession ▸ hP⟩
  next => exact ⟨other, hother, hP⟩

/-- The item of a send carries the completion of the send. -/
theorem count_item (n m : Nat) (send : Send) :
    (completions [State.item n send]).count m = if m = n then send.issued else 0 := by
  unfold State.item Send.issued completions
  cases send.confirmed with
  | false =>
    rw [if_neg Bool.false_ne_true, if_neg Bool.false_ne_true]
    split <;> rfl
  | true =>
    rw [if_pos rfl, if_pos rfl]
    show [n].count m = _
    rw [List.count_singleton]
    simp only [beq_iff_eq, eq_comm (a := m)]

/-- The item of a send enters the queue of the connection the send is bound to. -/
theorem Sound.enqueue (h : Sound s) (hsend : s.sends[n]? = some send)
    (howns : send.phase.owns = true) (hbound : send.conn = some c) (hconn : s.conns[c]? = some conn)
    (hopen : conn.receiving = true) : Sound (s.enqueue n c send conn) := by
  have howned : send.owned = send.issued := by
    unfold Send.owned Send.issued
    simp only [howns, and_true]
  have hlast : Send.owned { send with phase := if send.confirmed then .receipt else .done (.ok ()) }
      = 0 := by
    refine if_neg fun hboth ↦ ?_
    have hphase := hboth.2
    rw [show send.confirmed = true from hboth.1, if_pos rfl] at hphase
    cases hphase
  constructor
  · intro d other hother
    rw [show (s.enqueue n c send conn).conns = s.conns.set c _ from rfl,
      getElem?_set_of_some hconn] at hother
    split at hother
    · cases hother
      exact Conn.tidy_push (h.tidy c conn hconn) _ hopen
    · exact h.tidy d other hother
  · intro m other d hm hd
    refine exists_conn_set (P := fun sessionId ↦
      ∀ expected, other.expectedSession = some expected → sessionId = expected) hconn
      (show (conn.push (State.item n send)).sessionId = conn.sessionId from rfl) ?_
    rw [show (s.enqueue n c send conn).sends = s.sends.set n _ from rfl,
      getElem?_set_of_some hsend] at hm
    split at hm
    · cases hm
      exact h.bound n send d hsend hd
    · exact h.bound m other d hm hd
  · intro d other item m hother hitem hm
    show ∃ send', (s.sends.set n _)[m]? = some send' ∧ _
    rw [getElem?_set_of_some hsend]
    rw [show (s.enqueue n c send conn).conns = s.conns.set c _ from rfl,
      getElem?_set_of_some hconn] at hother
    have hold : ∀ conn, s.conns[d]? = some conn → item ∈ conn.accepted → m ≠ n := by
      rintro conn hconn hitem rfl
      obtain ⟨origin, horigin, -, -, -, hentered⟩ := h.origin d conn item m hconn hitem hm
      rw [hsend] at horigin
      cases horigin
      rw [Phase.not_entered howns] at hentered
      cases hentered
    split at hother
    next heq =>
      subst heq
      cases hother
      obtain hitem | hitem := List.mem_append.mp hitem
      · rw [if_neg (hold conn hconn hitem)]
        exact h.origin d conn item m hconn hitem hm
      · cases List.mem_singleton.mp hitem
        obtain ⟨hconf, hn⟩ := Option.ite_none_right_eq_some.mp hm
        cases hn
        rw [if_pos rfl, hconf]
        exact ⟨_, rfl, rfl, rfl, hbound, rfl⟩
    next =>
      rw [if_neg (hold other hother hitem)]
      exact h.origin d other item m hother hitem hm
  · intro m
    have hset := count_inHands_set (fun conn ↦ completions conn.accepted) hconn
      (conn.push (State.item n send)) m
    have hsplit : (completions (conn.push (State.item n send)).accepted).count m =
        (completions conn.accepted).count m + (completions [State.item n send]).count m := by
      rw [Conn.push, completions_append, List.count_append]
    rw [hsplit, count_item] at hset
    have honce := h.once m
    show (inHands (fun conn ↦ completions conn.accepted)
      (s.conns.set c (conn.push (State.item n send)))).count m ≤ 1
    split at hset
    next heq =>
      subst heq
      have hzero := h.not_accepted hsend howns
      have hissued : send.issued ≤ 1 := by
        unfold Send.issued
        split <;> omega
      omega
    next => omega
  · intro m
    have hset := count_inHands_set Conn.held hconn (conn.push (State.item n send)) m
    have hsplit : (conn.push (State.item n send)).held.count m =
        conn.held.count m + (completions [State.item n send]).count m := by
      rw [Conn.held, Conn.held, Conn.push, completions_append]
      simp only [List.count_append]
      omega
    rw [hsplit, count_item] at hset
    have hcustody := h.custody m
    show (s.sends.set n _)[m]?.elim 0 Send.owned +
      (inHands Conn.held (s.conns.set c (conn.push (State.item n send)))).count m +
      (s.log.map Prod.fst).count m = (s.sends.set n _)[m]?.elim 0 Send.issued
    rw [getElem?_set_of_some hsend]
    split at hset
    next heq =>
      subst heq
      rw [hsend, Option.elim_some, Option.elim_some] at hcustody
      rw [if_pos rfl, Option.elim_some, Option.elim_some, hlast]
      show _ = send.issued
      omega
    next hne =>
      rw [if_neg hne]
      omega
  · intro m
    have hset := count_inHands_set (fun conn ↦ completions conn.written) hconn
      (conn.push (State.item n send)) m
    have hwritten := h.written m
    show (inHands (fun conn ↦ completions conn.written)
      (s.conns.set c (conn.push (State.item n send)))).count m = (Conn.succeeded s.log).count m
    have hsame : (conn.push (State.item n send)).written = conn.written := rfl
    rw [hsame] at hset
    omega
  · exact h.unexhausted
  · intro m other result hm hconf hdone
    rw [show (s.enqueue n c send conn).sends = s.sends.set n _ from rfl,
      getElem?_set_of_some hsend] at hm
    split at hm
    · cases hm
      rw [show send.confirmed = true from hconf, if_pos rfl] at hdone
      cases hdone
    · exact h.outcome m other result hm hconf hdone

/-- A write step keeps all this, since it accounts for every completion it takes. -/
theorem Sound.write (h : Sound s) (hconn : s.conns[c]? = some conn)
    (hwrites : conn.Writes conn' out) :
    Sound { s with conns := s.conns.set c conn', log := s.log ++ out } := by
  constructor
  · intro d other hother
    rw [getElem?_set_of_some hconn] at hother
    split at hother
    · cases hother
      exact hwrites.tidy
    · exact h.tidy d other hother
  · intro m other d hm hd
    exact exists_conn_set (P := fun sessionId ↦
      ∀ expected, other.expectedSession = some expected → sessionId = expected) hconn
      hwrites.sessionId (h.bound m other d hm hd)
  · intro d other item m hother hitem hm
    rw [getElem?_set_of_some hconn] at hother
    split at hother
    next heq =>
      subst heq
      cases hother
      rw [hwrites.accepted] at hitem
      exact h.origin d conn item m hconn hitem hm
    next => exact h.origin d other item m hother hitem hm
  · intro m
    have hset := count_inHands_set (fun conn ↦ completions conn.accepted) hconn conn' m
    have honce := h.once m
    rw [hwrites.accepted] at hset
    show (inHands (fun conn ↦ completions conn.accepted) (s.conns.set c conn')).count m ≤ 1
    omega
  · intro m
    have hset := count_inHands_set Conn.held hconn conn' m
    have hheld := hwrites.held m
    have hcustody := h.custody m
    show s.sends[m]?.elim 0 Send.owned + (inHands Conn.held (s.conns.set c conn')).count m +
      ((s.log ++ out).map Prod.fst).count m = s.sends[m]?.elim 0 Send.issued
    rw [List.map_append, List.count_append]
    omega
  · intro m
    have hset := count_inHands_set (fun conn ↦ completions conn.written) hconn conn' m
    have hwritten := h.written m
    show (inHands (fun conn ↦ completions conn.written) (s.conns.set c conn')).count m =
      (Conn.succeeded (s.log ++ out)).count m
    rw [hwrites.written, List.count_append] at hset
    rw [Conn.succeeded_append, List.count_append]
    omega
  · intro r hr
    obtain hr | hr := List.mem_append.mp hr
    · exact h.unexhausted r hr
    · exact hwrites.unexhausted r hr
  · intro m other result hm hconf hdone
    obtain ⟨fate, hfate, hiff⟩ := h.outcome m other result hm hconf hdone
    exact ⟨fate, List.mem_append_left _ hfate, hiff⟩

/-- A new connection holds nothing. -/
theorem Sound.install (h : Sound s) (kind : Kind) (sessionId outboundCapacity bufferBytes : Nat) :
    Sound { s with
      slot := some s.conns.length
      conns := s.conns ++ [.new kind sessionId outboundCapacity bufferBytes] } := by
  have hlookup : ∀ (d : Nat) (other : Conn),
      (s.conns ++ [Conn.new kind sessionId outboundCapacity bufferBytes])[d]? = some other →
      s.conns[d]? = some other ∨ other = Conn.new kind sessionId outboundCapacity bufferBytes := by
    intro d other hother
    obtain hlt | hge := Nat.lt_or_ge d s.conns.length
    · rw [List.getElem?_append_left hlt] at hother
      exact Or.inl hother
    · rw [List.getElem?_append_right hge] at hother
      exact Or.inr (List.mem_singleton.mp (List.mem_of_getElem? hother))
  constructor
  · intro d other hother
    obtain hold | rfl := hlookup d other hother
    · exact h.tidy d other hold
    · exact Conn.tidy_new ..
  · intro m other d hm hd
    obtain ⟨conn, hconn, hsession⟩ := h.bound m other d hm hd
    refine ⟨conn, ?_, hsession⟩
    rw [List.getElem?_append_left (List.getElem?_eq_some_iff.mp hconn).1]
    exact hconn
  · intro d other item m hother hitem hm
    obtain hold | rfl := hlookup d other hother
    · exact h.origin d other item m hold hitem hm
    · cases hitem
  · intro m
    show (inHands _ (s.conns ++ [_])).count m ≤ 1
    rw [inHands_concat]
    exact (List.append_nil (inHands _ s.conns)).symm ▸ h.once m
  · intro m
    have hcustody := h.custody m
    show _ + (inHands Conn.held (s.conns ++ [_])).count m + _ = _
    rw [inHands_concat]
    exact (List.append_nil (inHands Conn.held s.conns)).symm ▸ hcustody
  · intro m
    show (inHands _ (s.conns ++ [_])).count m = _
    rw [inHands_concat]
    exact (List.append_nil (inHands _ s.conns)).symm ▸ h.written m
  · exact h.unexhausted
  · exact h.outcome

/-- A new send owns the completion it makes. -/
theorem Sound.call (h : Sound s) (packet : Packet) (confirmed : Bool)
    (expectedSession : Option Nat) :
    Sound { s with
      sends := s.sends ++ [⟨packet, confirmed, expectedSession, none, .locking⟩] } := by
  have hlookup : ∀ (m : Nat) (other : Send),
      (s.sends ++ [⟨packet, confirmed, expectedSession, none, .locking⟩])[m]? = some other →
      s.sends[m]? = some other ∨
        s.sends[m]? = none ∧ other = ⟨packet, confirmed, expectedSession, none, .locking⟩ := by
    intro m other hother
    obtain hlt | hge := Nat.lt_or_ge m s.sends.length
    · rw [List.getElem?_append_left hlt] at hother
      exact Or.inl hother
    · rw [List.getElem?_append_right hge] at hother
      exact Or.inr ⟨List.getElem?_eq_none hge, List.mem_singleton.mp (List.mem_of_getElem? hother)⟩
  constructor
  · exact h.tidy
  · intro m other d hm hd
    obtain hold | ⟨-, rfl⟩ := hlookup m other hm
    · exact h.bound m other d hold hd
    · cases hd
  · intro d other item m hother hitem hm
    obtain ⟨origin, horigin, hrest⟩ := h.origin d other item m hother hitem hm
    refine ⟨origin, ?_, hrest⟩
    rw [List.getElem?_append_left (List.getElem?_eq_some_iff.mp horigin).1]
    exact horigin
  · exact h.once
  · intro m
    have hcustody := h.custody m
    show (s.sends ++ [_])[m]?.elim 0 Send.owned + (inHands Conn.held s.conns).count m +
      (s.log.map Prod.fst).count m = (s.sends ++ [_])[m]?.elim 0 Send.issued
    cases hm : (s.sends ++ [⟨packet, confirmed, expectedSession, none, .locking⟩])[m]? with
    | none =>
      have hlt := List.getElem?_eq_none_iff.mp hm
      rw [List.length_append] at hlt
      rw [List.getElem?_eq_none (by omega)] at hcustody
      exact hcustody
    | some other =>
      obtain hold | ⟨hnone, rfl⟩ := hlookup m other hm
      · rw [hold] at hcustody
        exact hcustody
      · rw [hnone, Option.elim_none, Option.elim_none] at hcustody
        have howned : Send.owned ⟨packet, confirmed, expectedSession, none, .locking⟩ =
            Send.issued ⟨packet, confirmed, expectedSession, none, .locking⟩ := by
          unfold Send.owned Send.issued Phase.owns
          simp only [and_true]
        rw [Option.elim_some, Option.elim_some, howned]
        omega
  · exact h.written
  · exact h.unexhausted
  · intro m other result hm hconf hdone
    obtain hold | ⟨-, rfl⟩ := hlookup m other hm
    · exact h.outcome m other result hold hconf hdone
    · cases hdone

/-- Every step keeps all this. -/
theorem Sound.step {t : Target} (h : Sound s) (heffect : Effect t s s') : Sound s' := by
  cases heffect with
  | install kind sessionId outboundCapacity bufferBytes => exact h.install ..
  | vacate =>
    exact ⟨h.tidy, h.bound, h.origin, h.once, h.custody, h.written, h.unexhausted, h.outcome⟩
  | send packet confirmed expectedSession => exact h.call ..
  | @bind n c send conn hsend hphase hconn hsession =>
    refine h.enter hsend rfl rfl ?_ ?_ ?_ ?_
    · rintro d ⟨⟩
      exact ⟨conn, hconn, hsession⟩
    · rw [hphase]
      rintro ⟨⟩
    · unfold Send.owned
      rw [hphase]
      rfl
    · rintro _ _ ⟨⟩
  | @move n send phase hsend howns hphase _ =>
    refine h.enter hsend rfl rfl (fun c hc ↦ h.bound n send c hsend hc) ?_ ?_ ?_
    · intro hentered
      rw [Phase.not_entered howns] at hentered
      cases hentered
    · unfold Send.owned
      simp only [howns, hphase]
    · rintro result - rfl
      cases hphase
  | settle hsend hover => exact h.settle hsend hover
  | enqueue hsend hcharged hbound hconn hopen =>
    exact h.enqueue hsend (Phase.owns_of_charged hcharged) hbound hconn hopen
  | learn hsend hphase hfate => exact h.learn hsend hphase hfate
  | write hconn hwrites => exact h.write hconn (hwrites (h.tidy _ _ hconn))

theorem sound_reachable {t : Target} (h : (machine t).Reachable s) : Sound s :=
  h.invariant sound_new fun _ _ _ hs _ hstep ↦ hs.step (step_effect hstep)

end Soundness

/-- The socket has taken the packet of a send whole, and this once: its bytes follow those of what
was written before it. -/
def Conn.Carries (conn : Conn) (n : Nat) (p : Packet) : Prop :=
  p.tryEncode = .ok p.frame ∧ ∃ before after,
    conn.written = before ++ ⟨p, some n⟩ :: after ∧
      n ∉ completions before ∧ n ∉ completions after ∧
      conn.kind.units before ++ conn.kind.unit p ++ conn.kind.units after <+: conn.wire

/-- The completion of a send is resolved with success, with an error, or dropped. -/
def State.fates (s : State) (n : Nat) : List Fate := (s.log.filter (·.1 = n)).map Prod.snd

section Truthful

variable {s : State} {n c : Nat} {send : Send} {conn : Conn}

theorem State.length_fates (s : State) (n : Nat) :
    (s.fates n).length = (s.log.map Prod.fst).count n := by
  unfold State.fates
  rw [List.length_map, List.count, List.countP_map, ← List.countP_eq_length_filter]
  rfl

theorem Sound.issued (h : Sound s) (hsend : s.sends[n]? = some send)
    (hconfirmed : send.confirmed = true) :
    send.owned + (inHands Conn.held s.conns).count n + (s.fates n).length = 1 := by
  have hcustody := h.custody n
  rw [hsend, Option.elim_some, Option.elim_some, Send.issued, if_pos hconfirmed] at hcustody
  rw [State.length_fates]
  exact hcustody

end Truthful

end MsgTrans.Adapters.Pipeline
