import MsgTrans.Adapters.Events
import MsgTrans.Adapters.WriteLoops

/-!
# The event loop of a connection in discrete time

Model of the task that `start_event_loop` spawns for a TCP or a WebSocket connection,
`crates/msgtrans/src/adapters/tcp.rs:546–641` and `crates/msgtrans/src/adapters/websocket.rs:334–464`:
a read loop that delivers into the event pipe (`adapters/events.rs:110–149`), a write loop with its
ping timer, an idle timer, and beside them the peer and the consumer of the pipe. One `select!` owns
the loops, so the first to return ends the task.

Time is counted in ticks. Between two ticks the read loop goes as far as it can; every other step is
taken at any speed, in any order. The completions of outbound items are left out, since no timer
reads them.
-/

namespace MsgTrans.Adapters.EventLoop

open MsgTrans.Wire MsgTrans.Base MsgTrans.Adapters.Events

/-- `WsKeepalive`; `websocket.rs:36–41`. A TCP connection has an idle timeout at most. -/
structure WsKeepalive where
  pingInterval : Option Nat
  pongTimeout : Nat
  idleTimeout : Option Nat
  deriving DecidableEq, Repr

/-- How an event loop is set up. -/
structure LoopConfig where
  keepalive : WsKeepalive
  writeDeadline : Nat
  pipe : PipeConfig

/-- What a read tells the keepalive; `websocket.rs:362–368`. -/
inductive Beat where
  | none
  | ping
  | pong
  deriving DecidableEq, Repr

/-- What a reader makes of what it has read. -/
inductive Parsed where
  | packet (packet : Packet)
  | more
  | stop (stop : Stop)

/-- What the two event loops do each in their own way: what one read yields, how it is parsed under
the frame policy of its time, and the text a failed write ends the loop with. -/
structure Protocol where
  Item : Type
  Buffer : Type
  buffer : Buffer
  beat : Item → Beat
  fill : Buffer → Item → Bool → Buffer
  parse : Buffer → Parsed × Buffer
  encodeFailed : PacketError → Option String
  writeFailed : String → String
  writeOverrun : String

/-- The reader of `tcp.rs:563–590` and the errors of `tcp.rs:598–618`. A read yields some bytes. -/
def tcp (limits : DecodeLimits) : Protocol where
  Item := Bytes
  Buffer := Tcp.ReadBuffer × Bool
  buffer := (.new limits, false)
  beat := fun _ ↦ .none
  fill := fun b chunk strict ↦ ({ b.1 with buffer := b.1.buffer ++ chunk }, strict)
  parse := fun b ↦
    match b.1.tryParseNextPacket b.2 with
    | (.ok (some packet), b') => (.packet packet, b', b.2)
    | (.ok none, b') => (.more, b', b.2)
    | (.error (.tcp error), b') => (.stop (.closed (.error error.debug)), b', b.2)
    | (.error .panic, b') => (.stop .panicked, b', b.2)
  encodeFailed := fun e ↦ some (Tcp.writeError e).display
  writeFailed := fun e ↦ (TransportError.connection ("TCP write failed: " ++ e) false).display
  writeOverrun := (TransportError.connection "TCP write deadline exceeded" false).display

/-- The reader of `websocket.rs:352–391` and the errors of `websocket.rs:417–431`. A read yields one
message. -/
def webSocket (limits : DecodeLimits) : Protocol where
  Item := WebSocket.Message
  Buffer := Option (WebSocket.Message × Bool)
  buffer := none
  beat
    | .ping => .ping
    | .pong => .pong
    | _ => .none
  fill := fun _ message strict ↦ some (message, strict)
  parse
    | none => (.more, none)
    | some (message, strict) =>
      match WebSocket.processWebsocketMessage message strict limits with
      | .ok (.packet packet) => (.packet packet, none)
      | .ok .heartbeat => (.more, none)
      | .ok .peerClosed => (.stop (.closed .normal), none)
      | .ok .invalidMessageType => (.stop (.closed (.error "InvalidMessageType")), none)
      | .error stop => (.stop stop, none)
  encodeFailed := fun _ ↦ none
  writeFailed := fun e ↦
    (TransportError.connection ("WebSocket write failed: " ++ e) false).display
  writeOverrun := (TransportError.connection "WebSocket write deadline exceeded" false).display

/-- Where the read loop stands: at a read, between two packets of a read, or in `deliver`, in front
of the byte budget or of the queue. -/
inductive ReadPhase where
  | reading
  | parsing
  | charging (packet : Packet)
  | sending (packet : Packet)
  deriving DecidableEq, Repr

/-- Where the write loop stands: at its `select!`, with the deadline it has computed for the ping
timer, or in a write that has until some time. -/
inductive WritePhase where
  | waiting (pingDeadline : Nat)
  | flushing (deadline : Nat)
  | pinging (deadline : Nat)
  | sending (item : Outbound) (deadline : Nat)
  deriving DecidableEq, Repr

/-- The arms of the `select!` that owns the loops; `websocket.rs:450–455`. -/
inductive Arm where
  | read
  | write
  | idle
  | shutdown
  deriving DecidableEq, Repr

/-- The state of a connection: the clock, what can be read from the socket, the loops with what they
share, the event pipe with the bytes that are charged on its budget and those of the packets the
consumer holds, and how the loops ended. -/
structure LoopState (protocol : Protocol) where
  now : Nat
  socket : List (Except CloseReason protocol.Item)
  buffer : protocol.Buffer
  reader : ReadPhase
  activity : Nat
  pendingPing : Option Nat
  control : Bool
  writer : WritePhase
  nextPing : Nat
  idleDeadline : Nat
  queue : List DataEvent
  charged : Nat
  held : List Nat
  receiving : Bool
  cell : Option CloseReason
  ended : Option (Arm × Stop)

/-- What happens next. -/
inductive Label (protocol : Protocol) where
  | tick
  | arrive (item : Except CloseReason protocol.Item)
  | read (strict : Bool)
  | parse
  | charge
  | send
  | control
  | alarm
  | item (item : Option Outbound)
  | written
  | failed (error : String)
  | overrun
  | idle
  | shutdown
  | take
  | release (i : Nat)
  | leave

namespace LoopState

variable {protocol : Protocol} (cfg : LoopConfig)

/-- The loops when they are polled first; `websocket.rs:348–350,391–393,440–444`. -/
def new : LoopState protocol where
  now := 0
  socket := []
  buffer := protocol.buffer
  reader := .reading
  activity := 0
  pendingPing := none
  control := false
  writer := .waiting (cfg.keepalive.pingInterval.getD 0)
  nextPing := cfg.keepalive.pingInterval.getD 0
  idleDeadline := cfg.keepalive.idleTimeout.getD 0
  queue := []
  charged := 0
  held := []
  receiving := true
  cell := none
  ended := none

/-- An arm returns; its reason is published unless there is one. -/
def finish (s : LoopState protocol) (arm : Arm) (stop : Stop) : LoopState protocol :=
  { s with
    cell := match stop with
      | .closed reason => s.cell.or (some reason)
      | .panicked => s.cell
    ended := some (arm, stop) }

/-- A read; `tcp.rs:567–576`, `websocket.rs:353–371`. -/
def read (strict : Bool) (s : LoopState protocol) : Option (LoopState protocol) :=
  match s.reader, s.socket with
  | .reading, .error reason :: socket =>
    some ({ s with socket := socket }.finish .read (.closed reason))
  | .reading, .ok item :: socket =>
    let s' : LoopState protocol := { s with
      socket := socket
      activity := s.now
      buffer := protocol.fill s.buffer item strict
      reader := .parsing }
    match protocol.beat item with
    | .none => some s'
    | .ping => some { s' with control := true }
    | .pong => some { s' with pendingPing := none, control := true }
  | _, _ => none

/-- The next packet of what was read, up to the charge in `deliver`; `tcp.rs:577–588`,
`websocket.rs:372–388`, `events.rs:111–119`. -/
def parse (s : LoopState protocol) : Option (LoopState protocol) :=
  match s.reader with
  | .parsing =>
    match protocol.parse s.buffer with
    | (.packet packet, buffer) =>
      match normalizeInbound cfg.pipe.codecs packet cfg.pipe.maxPayloadSize with
      | .ok packet => some { s with buffer := buffer, reader := .charging packet }
      | .error reason =>
        some ({ s with buffer := buffer, cell := s.cell.or (some (.error reason)) }.finish .read
          (.closed .normal))
    | (.more, buffer) => some { s with buffer := buffer, reader := .reading }
    | (.stop stop, buffer) => some ({ s with buffer := buffer }.finish .read stop)
  | _ => none

/-- The charge of a packet on the byte budget; `events.rs:120–130`, `budget.rs:35–52`. -/
def charge (s : LoopState protocol) : Option (LoopState protocol) :=
  match s.reader with
  | .charging packet =>
    let size := chargeSize cfg.pipe.target packet
    if cfg.pipe.bufferBytes < size then
      let error := TransportError.resource "connection byte budget" size cfg.pipe.bufferBytes
      some ({ s with cell := s.cell.or (some (.error error.display)) }.finish .read
        (.closed .normal))
    else if s.charged + size ≤ cfg.pipe.bufferBytes then
      some { s with charged := s.charged + size, reader := .sending packet }
    else none
  | _ => none

/-- The send of a packet into the queue; `events.rs:140–148`. -/
def send (s : LoopState protocol) : Option (LoopState protocol) :=
  match s.reader with
  | .sending packet =>
    if s.receiving = false then some (s.finish .read (.closed .normal))
    else if s.queue.length < cfg.pipe.capacity then
      some { s with queue := s.queue ++ [.messageReceived packet], reader := .parsing }
    else none
  | _ => none

/-- The read loop can go no further for now. -/
def stalled (s : LoopState protocol) : Bool :=
  (s.read false).isNone && (s.parse cfg).isNone && (s.charge cfg).isNone && (s.send cfg).isNone

/-- The read loop is inside `deliver`. -/
def parked (s : LoopState protocol) : Bool :=
  match s.reader with
  | .charging _ | .sending _ => true
  | .reading | .parsing => false

/-- When the ping timer is to fire; `websocket.rs:395–399`. -/
def pingDeadline (s : LoopState protocol) : Nat :=
  match s.pendingPing with
  | some sent => sent + cfg.keepalive.pongTimeout
  | none => s.nextPing

/-- The top of the write loop. -/
def await (s : LoopState protocol) : LoopState protocol :=
  { s with writer := .waiting (s.pingDeadline cfg) }

/-- The control arm; `websocket.rs:401–402`. -/
def wake (s : LoopState protocol) : Option (LoopState protocol) :=
  match s.writer with
  | .waiting _ =>
    if s.control then
      some { s with control := false, writer := .flushing (s.now + cfg.writeDeadline) }
    else none
  | _ => none

/-- The timer arm; `websocket.rs:406–410`. -/
def alarm (s : LoopState protocol) : Option (LoopState protocol) :=
  match s.writer, cfg.keepalive.pingInterval with
  | .waiting deadline, some _ =>
    if deadline ≤ s.now then
      if s.pendingPing.isSome then some (s.finish .write (.closed .timeout))
      else some { s with
        pendingPing := some s.now
        writer := .pinging (s.now + cfg.writeDeadline) }
    else none
  | _, _ => none

/-- The queue arm; `tcp.rs:592–597`, `websocket.rs:415–423`. -/
def dequeue (item : Option Outbound) (s : LoopState protocol) : Option (LoopState protocol) :=
  match s.writer with
  | .waiting _ =>
    match item with
    | none => some (s.finish .write (.closed .normal))
    | some item =>
      match item.packet.tryEncode with
      | .ok _ => some { s with writer := .sending item (s.now + cfg.writeDeadline) }
      | .error e =>
        match protocol.encodeFailed e with
        | some text => some (s.finish .write (.closed (.error text)))
        | none => some (s.await cfg)
  | _ => none

/-- A write succeeds; `tcp.rs:619–622`, `websocket.rs:413,432–433`. -/
def written (s : LoopState protocol) : Option (LoopState protocol) :=
  match s.writer with
  | .waiting _ => none
  | .flushing _ => some (s.await cfg)
  | .pinging _ =>
    some ({ s with nextPing := s.now + cfg.keepalive.pingInterval.getD 0 }.await cfg)
  | .sending item _ =>
    let sent := DataEvent.messageSent item.packet.header.messageId
    some ({ s with
      activity := s.now
      queue := if s.receiving ∧ s.queue.length < cfg.pipe.capacity then s.queue ++ [sent]
        else s.queue }.await cfg)

/-- The text a failed write ends the loop with, on an error of the socket or for want of time. -/
def writeError (error : Option String) (s : LoopState protocol) : Option String :=
  match s.writer with
  | .waiting _ => none
  | .flushing _ => some "WebSocket control write failed"
  | .pinging _ => some "WebSocket ping write failed"
  | .sending _ _ => some (error.elim protocol.writeOverrun protocol.writeFailed)

/-- A write fails; `tcp.rs:606–618`, `websocket.rs:402–404,411–412,424–431`. -/
def failed (error : String) (s : LoopState protocol) : Option (LoopState protocol) :=
  (s.writeError (some error)).map fun text ↦ s.finish .write (.closed (.error text))

/-- A write has taken too long. -/
def overrun (s : LoopState protocol) : Option (LoopState protocol) :=
  match s.writer with
  | .waiting _ => none
  | .flushing deadline | .pinging deadline | .sending _ deadline =>
    if deadline ≤ s.now then
      (s.writeError none).map fun text ↦ s.finish .write (.closed (.error text))
    else none

/-- The idle timer wakes; `tcp.rs:624–634`, `websocket.rs:438–449`. -/
def idle (s : LoopState protocol) : Option (LoopState protocol) :=
  match cfg.keepalive.idleTimeout with
  | none => none
  | some timeout =>
    if s.idleDeadline ≤ s.now then
      if s.activity + timeout ≤ s.now then some (s.finish .idle (.closed .timeout))
      else some { s with idleDeadline := s.activity + timeout }
    else none

/-- The bytes that are charged for an event of the queue. -/
def sizeOf (event : DataEvent) : Nat :=
  match event with
  | .messageReceived packet => chargeSize cfg.pipe.target packet
  | _ => 0

/-- The consumer takes an event, and holds on to what it is charged for. -/
def take (s : LoopState protocol) : Option (LoopState protocol) :=
  match s.queue with
  | [] => none
  | event :: queue => some { s with queue := queue, held := sizeOf cfg event :: s.held }

/-- The consumer lets go of an event. -/
def release (i : Nat) (s : LoopState protocol) : Option (LoopState protocol) :=
  s.held[i]?.map fun size ↦ { s with charged := s.charged - size, held := s.held.eraseIdx i }

/-- The consumer drops its end of the pipe. -/
def leave (s : LoopState protocol) : LoopState protocol :=
  { s with
    receiving := false
    queue := []
    charged := s.charged - (s.queue.map (sizeOf cfg)).sum }

/-- One step of a connection that has not ended. -/
def act (s : LoopState protocol) : Label protocol → Option (LoopState protocol)
  | .tick => if s.stalled cfg then some { s with now := s.now + 1 } else none
  | .arrive item => some { s with socket := s.socket ++ [item] }
  | .read strict => s.read strict
  | .parse => s.parse cfg
  | .charge => s.charge cfg
  | .send => s.send cfg
  | .control => s.wake cfg
  | .alarm => s.alarm cfg
  | .item item => s.dequeue cfg item
  | .written => s.written cfg
  | .failed error => s.failed error
  | .overrun => s.overrun
  | .idle => s.idle cfg
  | .shutdown => some (s.finish .shutdown (.closed .normal))
  | .take => s.take cfg
  | .release i => s.release i
  | .leave => some (s.leave cfg)

end LoopState

/-- The event loop of a connection. -/
def eventLoop (protocol : Protocol) (cfg : LoopConfig) :
    Machine (LoopState protocol) (Label protocol) where
  start := .new cfg
  step := fun s l ↦ if s.ended.isSome then none else s.act cfg l

end MsgTrans.Adapters.EventLoop
