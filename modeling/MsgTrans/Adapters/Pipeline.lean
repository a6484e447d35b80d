import MsgTrans.Adapters.WriteLoops
import MsgTrans.Base.Machine

/-!
# The way of a packet from a send to the socket

Model of `Transport::send` and `Transport::send_confirmed_with`,
`crates/msgtrans/src/transport/transport.rs:101–169`, of the writer they take from the slot,
`adapters/outbound.rs:44–168`, of `WriteCompletion`, `connection.rs:46–86`, and of the write loops,
`adapters/tcp.rs:591–664`, `adapters/websocket.rs:387–440` and `adapters/quic.rs:739–824`, as one
system: any number of sends, any number of connections that replace each other in the slot, and any
order of their steps. A send may be cancelled at any await, a write may fail or run into its
deadline after any part of its bytes, and a connection may end at any time.

A bounded queue either takes an item or gives it back, and dropping its receiver drops what is
queued. The wait for the byte budget ends whenever it likes; how permits are counted is the subject
of `Adapters.Budget`.
-/

namespace MsgTrans.Adapters.Pipeline

open MsgTrans.Wire MsgTrans.Transport MsgTrans.Base

/-- The built-in adapters. -/
inductive Kind where
  | tcp
  | webSocket
  | quic
  deriving DecidableEq, Repr

/-- The name of an outbound queue in an error; `tcp.rs:788`, `websocket.rs:549`, `quic.rs:925`. -/
def Kind.queueName : Kind → String
  | .tcp => "tcp_outbound_queue"
  | .webSocket => "websocket_outbound_queue"
  | .quic => "quic_outbound_queue"

/-- What a send on a closed queue is told; `tcp.rs:789`, `websocket.rs:550`, `quic.rs:926`. -/
def Kind.closedMsg : Kind → String
  | .tcp => "TCP connection closed"
  | .webSocket => "WebSocket connection closed"
  | .quic => "QUIC connection closed"

/-- What a failed write resolves its completions with, after an error of the socket or at the write
deadline; `tcp.rs:598–606`, `websocket.rs:423–427`, `quic.rs:793–801`. -/
def Kind.writeFailed : Kind → Option String → TransportError
  | .tcp, some e => .connection ("TCP write failed: " ++ e) false
  | .tcp, none => .connection "TCP write deadline exceeded" false
  | .webSocket, some e => .connection ("WebSocket write failed: " ++ e) false
  | .webSocket, none => .connection "WebSocket write deadline exceeded" false
  | .quic, _ => .connection "QUIC write failed" false

/-- How a completion ended: resolved with the result of a write, or dropped; `connection.rs:78–85`.
The observer and the respond claim of a completion both learn of it. -/
inductive Fate where
  | completed (result : Except TransportError Unit)
  | dropped
  deriving DecidableEq, Repr

/-- A write under way: its items, the completions that wait for it, and the bytes the socket has not
taken yet. -/
structure Flight where
  items : List Outbound
  completions : List Nat
  rest : Bytes
  deriving DecidableEq

/-- What one turn of a write loop makes of the items it has received: the completions it resolves at
once, the write it starts, and whether the loop returns. -/
structure Turn where
  resolved : List Resolution
  flight : Option Flight
  returns : Bool

/-- One turn of a write loop: TCP and WebSocket take one item off the queue, `tcp.rs:592–618` and
`websocket.rs:413–421`; QUIC a batch, `quic.rs:757–777`. A packet that cannot be encoded ends the
TCP loop. -/
def Kind.turn : Kind → List Outbound → Option Turn
  | .tcp, [item] =>
    match item.packet.tryEncode with
    | .error e => some ⟨item.complete (.error (Tcp.writeError e)), none, true⟩
    | .ok packetBytes => some ⟨[], some ⟨[item], item.completion.toList, packetBytes⟩, false⟩
  | .webSocket, [item] =>
    match item.packet.tryEncode with
    | .error e => some ⟨item.complete (.error (WebSocket.writeError e)), none, false⟩
    | .ok encoded => some ⟨[], some ⟨[item], item.completion.toList, encoded⟩, false⟩
  | .quic, item :: items =>
    if (item :: items).length ≤ Quic.writeBatchSize then
      let batch := Quic.prepareQuicBatch [] (item :: items)
      some ⟨batch.resolved,
        some ⟨(item :: items).filter Outbound.encodable, batch.completions, batch.writeBuf⟩, false⟩
    else none
  | _, _ => none

/-- The bytes of one packet: its frame, on a WebSocket as the payload of a message, behind its
length on a QUIC stream. -/
def Kind.unit (kind : Kind) (p : Packet) : Bytes :=
  match kind with
  | .quic => Quic.lengthPrefixed p
  | _ => p.frame

/-- A connection: what its writer was built with, its bounded queue, its write loop, and the bytes
the socket has taken. The last three fields are its history: the items the queue took, those the
loop received, and those that were written completely, each in order. -/
structure Conn where
  kind : Kind
  sessionId : Nat
  outboundCapacity : Nat
  bufferBytes : Nat
  queue : List Outbound
  receiving : Bool
  running : Bool
  flight : Option Flight
  wire : Bytes
  accepted : List Outbound
  received : List Outbound
  written : List Outbound
  deriving DecidableEq

namespace Conn

/-- A new connection. -/
def new (kind : Kind) (sessionId outboundCapacity bufferBytes : Nat) : Conn where
  kind
  sessionId
  outboundCapacity
  bufferBytes
  queue := []
  receiving := true
  running := true
  flight := none
  wire := []
  accepted := []
  received := []
  written := []

/-- The queue takes an item. -/
def push (item : Outbound) (conn : Conn) : Conn :=
  { conn with queue := conn.queue ++ [item], accepted := conn.accepted ++ [item] }

/-- The write loop receives the first items of the queue. -/
def take (count : Nat) (conn : Conn) : Option (Conn × List (Nat × Fate)) :=
  if conn.running ∧ conn.flight = none then
    (conn.kind.turn (conn.queue.take count)).map fun turn ↦
      ({ conn with
          queue := conn.queue.drop count
          received := conn.received ++ conn.queue.take count
          flight := turn.flight
          running := !turn.returns },
        turn.resolved.map fun r ↦ (r.1, .completed r.2))
  else none

/-- The socket takes some bytes of the write. -/
def accept (count : Nat) (conn : Conn) : Option (Conn × List (Nat × Fate)) :=
  conn.flight.map fun flight ↦
    ({ conn with
        wire := conn.wire ++ flight.rest.take count
        flight := some { flight with rest := flight.rest.drop count } }, [])

/-- The socket has taken all bytes: the completions of the write are resolved with success. -/
def finish (conn : Conn) : Option (Conn × List (Nat × Fate)) :=
  conn.flight.bind fun flight ↦
    if flight.rest = [] then
      some ({ conn with flight := none, written := conn.written ++ flight.items },
        flight.completions.map (·, .completed (.ok ())))
    else none

/-- The write fails, or runs into its deadline: its completions learn why, and the loop returns. -/
def fail (fault : Option String) (conn : Conn) : Option (Conn × List (Nat × Fate)) :=
  conn.flight.map fun flight ↦
    ({ conn with flight := none, running := false },
      flight.completions.map (·, .completed (.error (conn.kind.writeFailed fault))))

/-- The write loop is dropped, with the write it may be in: another arm of the `select!` has
returned, the shutdown signal came, or the task was aborted. -/
def stop (conn : Conn) : Option (Conn × List (Nat × Fate)) :=
  if conn.running then
    some ({ conn with flight := none, running := false },
      (conn.flight.elim [] Flight.completions).map (·, .dropped))
  else none

/-- The receiver of the queue is dropped after the loop, with all that is queued. -/
def release (conn : Conn) : Option (Conn × List (Nat × Fate)) :=
  if conn.receiving ∧ conn.running = false then
    some ({ conn with receiving := false, queue := [] },
      (conn.queue.filterMap Outbound.completion).map (·, .dropped))
  else none

end Conn

/-- Where a send stands: at the slot lock, in the wait for the byte budget, in front of the queue,
in the wait for its room, in the wait for the receipt, or at its end. -/
inductive Phase where
  | locking
  | charging
  | offering
  | waiting
  | receipt
  | done (result : Except TransportError Unit)
  | cancelled
  deriving DecidableEq, Repr

/-- The send still owns its packet and its completion. -/
def Phase.owns : Phase → Bool
  | .locking | .charging | .offering | .waiting => true
  | .receipt | .done _ | .cancelled => false

/-- The send is not over. -/
def Phase.active : Phase → Bool
  | .done _ | .cancelled => false
  | _ => true

/-- A call of `send`, or of `send_confirmed_with` when it is confirmed, with the generation it is
bound to and the connection whose writer it has taken. -/
structure Send where
  packet : Packet
  confirmed : Bool
  expectedSession : Option Nat
  conn : Option Nat
  phase : Phase
  deriving DecidableEq

/-- The state of the system: the connection in the slot, every connection there was, every send, and
how the completions ended. The completion of a confirmed send has the number of the send. -/
structure State where
  slot : Option Nat
  conns : List Conn
  sends : List Send
  log : List (Nat × Fate)
  deriving DecidableEq

/-- What happens next. -/
inductive Label where
  | install (kind : Kind) (sessionId outboundCapacity bufferBytes : Nat)
  | vacate
  | send (packet : Packet) (confirmed : Bool) (expectedSession : Option Nat)
  | lock (n : Nat)
  | charge (n : Nat)
  | starve (n : Nat)
  | offer (n : Nat) (full : Bool)
  | grant (n : Nat)
  | expire (n depth : Nat)
  | hangUp (n : Nat)
  | cancel (n : Nat)
  | learn (n : Nat)
  | take (c count : Nat)
  | accept (c count : Nat)
  | finish (c : Nat)
  | fail (c : Nat) (fault : Option String)
  | stop (c : Nat)
  | release (c : Nat)
  deriving DecidableEq, Repr

namespace State

/-- Nothing has happened yet. -/
def new : State := ⟨none, [], [], []⟩

/-- The completion of a send is dropped with the send, where there is one. -/
def dropping (n : Nat) (send : Send) : List (Nat × Fate) :=
  if send.confirmed ∧ send.phase.owns then [(n, .dropped)] else []

/-- A send is over, and what it still owned is dropped. -/
def settle (s : State) (n : Nat) (send : Send) (phase : Phase) : State :=
  { s with sends := s.sends.set n { send with phase }, log := s.log ++ dropping n send }

/-- A send ends with an error before its item was in a queue. -/
def refuse (s : State) (n : Nat) (send : Send) (e : TransportError) : State :=
  s.settle n send (.done (.error e))

/-- A send goes on to another phase. -/
def enter (s : State) (n : Nat) (send : Send) (phase : Phase) : State :=
  { s with sends := s.sends.set n { send with phase } }

/-- The slot lock: the writer of the connection in the slot, if it is of the expected generation;
`transport.rs:104–112,144–165`. -/
def lock (s : State) (n : Nat) (send : Send) : Option State :=
  match s.slot.bind fun c ↦ s.conns[c]?.map (c, ·) with
  | none => some (s.refuse n send (.connection "Not connected" false))
  | some (c, conn) =>
    if ∀ expected, send.expectedSession = some expected → conn.sessionId = expected then
      some (s.enter n { send with conn := some c } .charging)
    else some (s.refuse n send
      (.connection "connection replaced since the request was received" false))

/-- The item of a send. The completion of a send that nobody observes is left away;
`outbound.rs:60–64`. -/
def item (n : Nat) (send : Send) : Outbound :=
  ⟨send.packet, if send.confirmed then some n else none⟩

/-- The queue takes the item of a send, which waits for its receipt if it is confirmed. -/
def enqueue (s : State) (n c : Nat) (send : Send) (conn : Conn) : State :=
  { s with
    conns := s.conns.set c (conn.push (item n send))
    sends := s.sends.set n
      { send with phase := if send.confirmed then .receipt else .done (.ok ()) } }

/-- The byte budget has taken the packet, or refuses it for good; `budget.rs:36–52`. -/
def charge (t : Target) (s : State) (n _c : Nat) (send : Send) (conn : Conn) : Option State :=
  if chargeSize t send.packet ≤ conn.bufferBytes then some (s.enter n send .offering)
  else some (s.refuse n send
    (.resource "connection byte budget" (chargeSize t send.packet) conn.bufferBytes))

/-- The wait for the byte budget has taken too long; `outbound.rs:156–158`, `budget.rs:26–28`. -/
def starve (t : Target) (s : State) (n _c : Nat) (send : Send) (conn : Conn) : Option State :=
  if chargeSize t send.packet ≤ conn.bufferBytes then
    some (s.refuse n send (.resource "outbound byte budget" conn.bufferBytes conn.bufferBytes))
  else none

/-- The sends that wait for room in the queue of a connection. -/
def waitingOn (s : State) (c : Nat) : Nat :=
  s.sends.countP fun send ↦ send.conn = some c ∧ send.phase = .waiting

/-- `try_send`. Room that is promised to a waiting send is not free; `outbound.rs:95–101`. -/
def offer (s : State) (full : Bool) (n c : Nat) (send : Send) (conn : Conn) : Option State :=
  if conn.receiving = false then some (s.refuse n send (.connection conn.kind.closedMsg false))
  else if full then
    if conn.outboundCapacity ≤ conn.queue.length + s.waitingOn c then
      some (s.enter n send .waiting)
    else none
  else if conn.queue.length < conn.outboundCapacity then some (s.enqueue n c send conn)
  else none

/-- `send_timeout` finds room; `outbound.rs:103–104`. -/
def grant (s : State) (n c : Nat) (send : Send) (conn : Conn) : Option State :=
  if conn.receiving ∧ conn.queue.length < conn.outboundCapacity then
    some (s.enqueue n c send conn)
  else none

/-- `send_timeout` runs out of time, and the error shows how deep the queue is;
`outbound.rs:105–110`. -/
def expire (s : State) (depth n _c : Nat) (send : Send) (conn : Conn) : Option State :=
  if depth ≤ conn.outboundCapacity then
    some (s.refuse n send (.resource conn.kind.queueName depth conn.outboundCapacity))
  else none

/-- `send_timeout` finds the queue closed; `outbound.rs:111–113`. -/
def hangUp (s : State) (n _c : Nat) (send : Send) (conn : Conn) : Option State :=
  if conn.receiving = false then some (s.refuse n send (.connection conn.kind.closedMsg false))
  else none

/-- What a send is told of the fate of its completion; `outbound.rs:76–84`. -/
def told : Fate → Except TransportError Unit
  | .completed result => result
  | .dropped => .error (.connection "connection closed before write" false)

/-- The send learns how its completion ended; `transport.rs:167–168`. -/
def learn (s : State) (n : Nat) (send : Send) : Option State :=
  (s.log.lookup n).map fun fate ↦ s.enter n send (.done (told fate))

/-- A step of a send in some phase. -/
def onSend (s : State) (n : Nat) (phase : Phase) (f : Send → Option State) : Option State :=
  (s.sends[n]?.filter (·.phase = phase)).bind f

/-- A step of a send on the connection whose writer it has taken. -/
def onWriter (s : State) (n : Nat) (phase : Phase)
    (f : Nat → Nat → Send → Conn → Option State) : Option State :=
  s.onSend n phase fun send ↦ send.conn.bind fun c ↦ s.conns[c]?.bind fun conn ↦ f n c send conn

/-- A step of the write side of a connection. -/
def onConn (s : State) (c : Nat) (f : Conn → Option (Conn × List (Nat × Fate))) : Option State :=
  s.conns[c]?.bind fun conn ↦ (f conn).map fun out ↦
    { s with conns := s.conns.set c out.1, log := s.log ++ out.2 }

/-- One step. -/
def step (t : Target) (s : State) : Label → Option State
  | .install kind sessionId outboundCapacity bufferBytes =>
    some { s with
      slot := some s.conns.length
      conns := s.conns ++ [.new kind sessionId outboundCapacity bufferBytes] }
  | .vacate => some { s with slot := none }
  | .send packet confirmed expectedSession =>
    some { s with sends := s.sends ++ [⟨packet, confirmed, expectedSession, none, .locking⟩] }
  | .lock n => s.onSend n .locking (s.lock n)
  | .charge n => s.onWriter n .charging (s.charge t)
  | .starve n => s.onWriter n .charging (s.starve t)
  | .offer n full => s.onWriter n .offering (s.offer full)
  | .grant n => s.onWriter n .waiting s.grant
  | .expire n depth => s.onWriter n .waiting (s.expire depth)
  | .hangUp n => s.onWriter n .waiting s.hangUp
  | .cancel n =>
    (s.sends[n]?.filter (·.phase.active)).map fun send ↦ s.settle n send .cancelled
  | .learn n => s.onSend n .receipt (s.learn n)
  | .take c count => s.onConn c (Conn.take count)
  | .accept c count => s.onConn c (Conn.accept count)
  | .finish c => s.onConn c Conn.finish
  | .fail c fault => s.onConn c (Conn.fail fault)
  | .stop c => s.onConn c Conn.stop
  | .release c => s.onConn c Conn.release

end State

/-- The system of sends and connections. -/
def machine (t : Target) : Machine State Label where
  start := .new
  step := State.step t

end MsgTrans.Adapters.Pipeline
