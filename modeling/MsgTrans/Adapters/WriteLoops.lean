import MsgTrans.Adapters.Quic
import MsgTrans.Adapters.Tcp
import MsgTrans.Adapters.WebSocket

/-!
# The three write loops

Model of the write halves of the adapters: `tcp.rs:591–630,644–664`, `websocket.rs:391–437` and
`quic.rs:739–824`, over a socket whose writes succeed in time and with no close requested. What a
loop puts on the wire, which completions it resolves, the diagnostics it emits and whether it
returns are its outcome. The WebSocket and QUIC loops skip a packet that cannot be encoded; the
TCP loop returns on it, which ends the connection.
-/

namespace MsgTrans.Adapters

open MsgTrans.Wire

/-- The outcome of a write loop: what it wrote, the completions it resolved, the ids of its
`MessageSent` diagnostics, the completions it dropped unresolved, and its close reason once it has
returned. -/
structure Written (α : Type) where
  wire : List α
  resolved : List Resolution
  sent : List UInt32
  dropped : List Nat
  returned : Option CloseReason

/-- A loop that waits on an empty queue. -/
def Written.idle {α : Type} : Written α := ⟨[], [], [], [], none⟩

namespace Tcp

/-- The error of a packet that `write_packet_to_stream` cannot encode; `tcp.rs:598–602,655–657`. -/
def writeError (e : PacketError) : TransportError :=
  .connection ("TCP write failed: " ++
    (TcpError.config ("encode failed: " ++ e.display)).debug) false

/-- The write loop on the items of the queue; `tcp.rs:591–630`. A failed write returns, and the
rest of the queue goes with the loop. -/
def writeLoop : List Outbound → Written Bytes
  | [] => .idle
  | item :: items =>
    match item.packet.tryEncode with
    | .error e =>
      { wire := []
        resolved := item.complete (.error (writeError e))
        sent := []
        dropped := items.filterMap Outbound.completion
        returned := some (.error (writeError e).display) }
    | .ok packetBytes =>
      let rest := writeLoop items
      { rest with
        wire := packetBytes :: rest.wire
        resolved := item.complete (.ok ()) ++ rest.resolved
        sent := item.packet.header.messageId :: rest.sent }

end Tcp

namespace WebSocket

/-- What wakes the write loop: a control notification, the ping timer, or the next item of the
queue. A pong that the reader takes in between clears the pending ping. -/
inductive Wake where
  | control
  | pong
  | pingDue
  | item (item : Outbound)
  deriving DecidableEq, Repr

/-- The item a wake takes from the queue. -/
def Wake.item? : Wake → Option Outbound
  | .item x => some x
  | _ => none

/-- The error of a packet that cannot be encoded; `websocket.rs:419`. -/
def writeError (e : PacketError) : TransportError :=
  .protocol "websocket" ("encode failed: " ++ e.display)

/-- The write loop on what wakes it, with or without a ping in flight; `websocket.rs:391–437`. -/
def writeLoop (pendingPing : Bool) : List Wake → Written Message
  | [] => .idle
  | .control :: wakes => writeLoop pendingPing wakes
  | .pong :: wakes => writeLoop false wakes
  | .pingDue :: wakes =>
    if pendingPing then { Written.idle with
      dropped := (wakes.filterMap Wake.item?).filterMap Outbound.completion
      returned := some .timeout }
    else
      let rest := writeLoop true wakes
      { rest with wire := .ping :: rest.wire }
  | .item item :: wakes =>
    let rest := writeLoop pendingPing wakes
    match item.packet.tryEncode with
    | .error e => { rest with resolved := item.complete (.error (writeError e)) ++ rest.resolved }
    | .ok encoded =>
      { rest with
        wire := .binary encoded :: rest.wire
        resolved := item.complete (.ok ()) ++ rest.resolved
        sent := item.packet.header.messageId :: rest.sent }

/-- Every ping is answered before the next one is due. -/
def Answered (pendingPing : Bool) : List Wake → Prop
  | [] => True
  | .control :: wakes => Answered pendingPing wakes
  | .pong :: wakes => Answered false wakes
  | .pingDue :: wakes => pendingPing = false ∧ Answered true wakes
  | .item _ :: wakes => Answered pendingPing wakes

/-- The payload of a binary message. -/
def Message.binary? : Message → Option Bytes
  | .binary data => some data
  | _ => none

end WebSocket

namespace Quic

/-- `WRITE_BATCH_SIZE`; `quic.rs:745`. -/
def writeBatchSize : Nat := 32

/-- The write task on the batches that `recv_many` returns; `quic.rs:751–822`. -/
def writeTask : List (List Outbound) → Written Bytes
  | [] => .idle
  | items :: batches =>
    let batch := prepareQuicBatch [] items
    let rest := writeTask batches
    { rest with
      wire := batch.writeBuf :: rest.wire
      resolved := batch.resolved ++ batch.completions.map (·, .ok ()) ++ rest.resolved
      sent := batch.packetIds ++ rest.sent }

/-- The batches are a way of taking the items off the queue. -/
def Batches (batches : List (List Outbound)) (items : List Outbound) : Prop :=
  batches.flatten = items ∧ ∀ batch ∈ batches, batch ≠ [] ∧ batch.length ≤ writeBatchSize

end Quic

/-- Every item resolves its own completion and no other: with success when its packet can be
encoded, with an error when it cannot. -/
def ResolvesOwn (resolved : List Resolution) (items : List Outbound) : Prop :=
  ∃ result : Outbound → Except TransportError Unit,
    (∀ item ∈ items, item.encodable = true → result item = .ok ()) ∧
    (∀ item ∈ items, item.encodable = false → ∃ e, result item = .error e) ∧
    resolved.Perm (items.flatMap fun item ↦ item.complete (result item))

/-- The packets that belong on the wire: those that can be encoded, in queue order. -/
def writable (items : List Outbound) : List Packet :=
  (items.filter Outbound.encodable).map Outbound.packet

/-- The three loops put the same packets on the wire in queue order, exactly those that can be
encoded; an item that cannot resolves its own completion with an error; and no loop returns. -/
def LoopsAgree (items : List Outbound) : Prop :=
  ∀ wakes batches, wakes.filterMap WebSocket.Wake.item? = items → WebSocket.Answered false wakes →
    Quic.Batches batches items →
    ((Tcp.writeLoop items).wire = (writable items).map Packet.frame ∧
      ResolvesOwn (Tcp.writeLoop items).resolved items ∧
      (Tcp.writeLoop items).returned = none) ∧
    ((WebSocket.writeLoop false wakes).wire.filterMap WebSocket.Message.binary? =
        (writable items).map Packet.frame ∧
      ResolvesOwn (WebSocket.writeLoop false wakes).resolved items ∧
      (WebSocket.writeLoop false wakes).returned = none) ∧
    ((Quic.writeTask batches).wire.flatten =
        ((writable items).map Quic.lengthPrefixed).flatten ∧
      ResolvesOwn (Quic.writeTask batches).resolved items ∧
      (Quic.writeTask batches).returned = none)

/-- The lengths of a packet fit their wire fields. -/
def Encodable (p : Packet) : Prop :=
  p.extHeader.length ≤ 65535 ∧ p.payload.length ≤ 4294967295

instance (p : Packet) : Decidable (Encodable p) := inferInstanceAs (Decidable (_ ∧ _))

theorem encodable_eq_decide (item : Outbound) : item.encodable = decide (Encodable item.packet) := by
  cases henc : item.encodable with
  | true =>
    obtain ⟨hext, hpayload, -⟩ := (Packet.tryEncode_ok_iff _ _).mp (Quic.encodable_iff.mp henc)
    exact (decide_eq_true ⟨hext, hpayload⟩).symm
  | false =>
    obtain ⟨e, he⟩ := Quic.encodable_false_iff.1 henc
    refine (decide_eq_false fun h ↦ ?_).symm
    rw [(Packet.tryEncode_ok_iff _ _).mpr ⟨h.1, h.2, rfl⟩] at he
    cases he

theorem writable_cons (item : Outbound) (items : List Outbound) :
    writable (item :: items) =
      if item.encodable then item.packet :: writable items else writable items := by
  unfold writable
  rw [List.filter_cons]
  split <;> rfl

section Tcp

/-- The TCP loop goes on exactly as long as every packet can be encoded. -/
theorem Tcp.writeLoop_returned_iff (items : List Outbound) :
    (Tcp.writeLoop items).returned = none ↔ ∀ item ∈ items, item.encodable = true := by
  induction items with
  | nil => simp [Tcp.writeLoop, Written.idle]
  | cons item items ih =>
    rw [Tcp.writeLoop]
    cases henc : item.encodable with
    | true =>
      rw [Quic.encodable_iff.mp henc]
      simp [ih, henc]
    | false =>
      obtain ⟨e, he⟩ := Quic.encodable_false_iff.1 henc
      rw [he]
      simp [henc]

end Tcp

/-- What an item is resolved with on its own, with the loop's error for one that cannot be
encoded. -/
def ownResult (error : PacketError → TransportError) (item : Outbound) :
    Except TransportError Unit :=
  match item.packet.tryEncode with
  | .ok _ => .ok ()
  | .error e => .error (error e)

theorem ownResult_ok {error : PacketError → TransportError} {item : Outbound}
    (h : item.encodable = true) : ownResult error item = .ok () := by
  rw [ownResult, Quic.encodable_iff.mp h]

theorem ownResult_error {error : PacketError → TransportError} {item : Outbound} {e : PacketError}
    (h : item.packet.tryEncode = .error e) : ownResult error item = .error (error e) := by
  rw [ownResult, h]

theorem resolvesOwn_of_perm {error : PacketError → TransportError} {resolved : List Resolution}
    {items : List Outbound}
    (h : resolved.Perm (items.flatMap fun item ↦ item.complete (ownResult error item))) :
    ResolvesOwn resolved items := by
  refine ⟨ownResult error, fun item _ henc ↦ ownResult_ok henc, fun item _ henc ↦ ?_, h⟩
  obtain ⟨e, he⟩ := Quic.encodable_false_iff.1 henc
  exact ⟨error e, ownResult_error he⟩

/-- The TCP loop, on packets that can all be encoded, writes them and resolves every completion
with success. -/
theorem Tcp.writeLoop_encodable (items : List Outbound)
    (h : ∀ item ∈ items, item.encodable = true) :
    (Tcp.writeLoop items).wire = (writable items).map Packet.frame ∧
      (Tcp.writeLoop items).resolved =
        items.flatMap fun item ↦ item.complete (ownResult Tcp.writeError item) := by
  induction items with
  | nil => exact ⟨rfl, rfl⟩
  | cons item items ih =>
    have henc := h item (by simp)
    have hrest := ih fun item hitem ↦ h item (by simp [hitem])
    rw [Tcp.writeLoop, Quic.encodable_iff.mp henc, writable_cons, if_pos henc]
    simp only [hrest, List.map_cons, List.flatMap_cons, ownResult_ok henc, and_self]

/-- The WebSocket loop writes what can be encoded and resolves every item by itself, however
pings come in between. -/
theorem WebSocket.writeLoop_spec (pendingPing : Bool) (wakes : List Wake)
    (h : Answered pendingPing wakes) :
    (writeLoop pendingPing wakes).wire.filterMap Message.binary? =
        (writable (wakes.filterMap Wake.item?)).map Packet.frame ∧
      (writeLoop pendingPing wakes).resolved = (wakes.filterMap Wake.item?).flatMap
        (fun item ↦ item.complete (ownResult writeError item)) ∧
      (writeLoop pendingPing wakes).returned = none := by
  induction wakes generalizing pendingPing with
  | nil => exact ⟨rfl, rfl, rfl⟩
  | cons wake wakes ih =>
    cases wake with
    | control => exact ih pendingPing h
    | pong => exact ih false h
    | pingDue =>
      obtain ⟨rfl, hrest⟩ := h
      exact ih true hrest
    | item item =>
      obtain ⟨hwire, hresolved, hreturned⟩ := ih pendingPing h
      simp only [writeLoop, List.filterMap_cons, Wake.item?, writable_cons, List.flatMap_cons]
      cases henc : item.encodable with
      | true =>
        rw [Quic.encodable_iff.mp henc, ownResult_ok henc]
        simp only [Message.binary?, List.filterMap_cons, hwire, hresolved, hreturned, ↓reduceIte,
          List.map_cons, and_self]
      | false =>
        obtain ⟨e, he⟩ := Quic.encodable_false_iff.1 henc
        rw [he, ownResult_error he]
        simp only [hwire, hresolved, hreturned, Bool.false_eq_true, ↓reduceIte, and_self]

private theorem completions_written (items : List Outbound) :
    ((items.filter Outbound.encodable).filterMap Outbound.completion).map
        (fun completion ↦ ((completion, .ok ()) : Resolution)) =
      items.flatMap fun item ↦ if item.encodable then item.complete (.ok ()) else [] := by
  induction items with
  | nil => rfl
  | cons item items ih =>
    rw [List.flatMap_cons, ← ih, List.filter_cons]
    cases henc : item.encodable with
    | true =>
      simp only [↓reduceIte, List.filterMap_cons, Outbound.complete]
      cases item.completion <;> rfl
    | false => rfl

/-- One batch resolves every item of it by itself: refusals first, then the written ones. -/
theorem Quic.resolved_perm (items : List Outbound) :
    ((prepareQuicBatch [] items).resolved ++
        (prepareQuicBatch [] items).completions.map
          (fun completion ↦ ((completion, .ok ()) : Resolution))).Perm
      (items.flatMap fun item ↦ item.complete (ownResult encodeError item)) := by
  rw [prepareQuicBatch_eq, completions_written]
  refine (List.flatMap_append_perm items refusal _).trans (List.Perm.of_eq ?_)
  apply List.flatMap_congr
  intro item _
  cases henc : item.encodable with
  | true =>
    rw [refusal, encodable_iff.mp henc, ownResult_ok henc]
    rfl
  | false =>
    obtain ⟨e, he⟩ := encodable_false_iff.1 henc
    rw [refusal, he, ownResult_error he]
    simp

theorem Quic.writeTask_spec (batches : List (List Outbound)) :
    (writeTask batches).wire.flatten =
        ((writable batches.flatten).map lengthPrefixed).flatten ∧
      (writeTask batches).resolved.Perm
        (batches.flatten.flatMap fun item ↦ item.complete (ownResult encodeError item)) ∧
      (writeTask batches).returned = none := by
  induction batches with
  | nil => exact ⟨rfl, .rfl, rfl⟩
  | cons items batches ih =>
    obtain ⟨hwire, hresolved, hreturned⟩ := ih
    refine ⟨?_, ?_, hreturned⟩
    · simp only [writeTask, List.flatten_cons, hwire, prepareQuicBatch_eq, List.nil_append,
        writable, List.filter_append, List.map_append, List.flatten_append, List.map_map]
      rfl
    · simp only [writeTask, List.flatten_cons, List.flatMap_append]
      exact (resolved_perm items).append hresolved

/-- The three write loops agree on a queue exactly when every packet in it can be encoded. -/
theorem write_loops_agree_iff (items : List Outbound) :
    LoopsAgree items ↔ ∀ item ∈ items, Encodable item.packet := by
  have hencodable : (∀ item ∈ items, Encodable item.packet) ↔
      ∀ item ∈ items, item.encodable = true := by
    simp only [encodable_eq_decide, decide_eq_true_eq]
  rw [hencodable]
  constructor
  · intro hagree
    have hsingletons : Quic.Batches (items.map fun item ↦ [item]) items := by
      constructor
      · rw [← List.flatMap_def, List.flatMap_singleton']
      · intro batch hbatch
        obtain ⟨item, -, rfl⟩ := List.mem_map.mp hbatch
        exact ⟨List.cons_ne_nil _ _, by simp [Quic.writeBatchSize]⟩
    have hwakes : WebSocket.Answered false (items.map WebSocket.Wake.item) := by
      clear hagree hencodable hsingletons
      induction items with
      | nil => trivial
      | cons item items ih => exact ih
    have hitems : (items.map WebSocket.Wake.item).filterMap WebSocket.Wake.item? = items := by
      rw [List.filterMap_map]
      exact List.filterMap_some
    have htcp := (hagree _ _ hitems hwakes hsingletons).1
    exact (Tcp.writeLoop_returned_iff items).mp htcp.2.2
  · intro hall wakes batches hitems hanswered hbatches
    obtain ⟨hwire, hresolved⟩ := Tcp.writeLoop_encodable items hall
    refine ⟨⟨hwire, ?_, (Tcp.writeLoop_returned_iff items).mpr hall⟩, ?_, ?_⟩
    · exact resolvesOwn_of_perm (List.Perm.of_eq hresolved)
    · obtain ⟨hws, hwsResolved, hwsReturned⟩ := WebSocket.writeLoop_spec false wakes hanswered
      rw [hitems] at hws hwsResolved
      exact ⟨hws, resolvesOwn_of_perm (List.Perm.of_eq hwsResolved), hwsReturned⟩
    · obtain ⟨hquic, hquicResolved, hquicReturned⟩ := Quic.writeTask_spec batches
      rw [hbatches.1] at hquic hquicResolved
      exact ⟨hquic, resolvesOwn_of_perm hquicResolved, hquicReturned⟩

/-- An item whose extension header is one byte too long. -/
def oversizedItem : Outbound :=
  ⟨{ Packet.oneWay 1 [] with extHeader := List.replicate 65536 0 }, some 1⟩

/-- In front of a packet that is in order, it makes the TCP loop return. -/
theorem write_loops_disagree : ¬ ∀ items, LoopsAgree items := by
  intro h
  have htcp := (h [oversizedItem, ⟨Packet.oneWay 2 [], some 2⟩]
    [.item oversizedItem, .item ⟨Packet.oneWay 2 [], some 2⟩]
    [[oversizedItem, ⟨Packet.oneWay 2 [], some 2⟩]] rfl trivial
    ⟨rfl, by simp [Quic.writeBatchSize]⟩).1.2.2
  have hencodable := (Tcp.writeLoop_returned_iff _).mp htcp oversizedItem (List.mem_cons_self ..)
  rw [encodable_eq_decide, decide_eq_true_eq] at hencodable
  have hext := hencodable.1
  rw [oversizedItem, List.length_replicate] at hext
  omega

end MsgTrans.Adapters
