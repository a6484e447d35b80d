import MsgTrans.Adapters.Core
import MsgTrans.Base.Machine
import MsgTrans.Wire.Compression

/-!
# The event pipe

Model of `crates/msgtrans/src/adapters/events.rs:23–216` over tokio's bounded `mpsc` and `watch`
channels. Calls of `deliver`, `diagnostic` and `close` by any number of tasks, the calls of `next`
by the one consumer and the drop of the pipe are interleaved at every point where they touch shared
state. A send takes a permit before it pushes; a closed channel gives no permits but keeps what it
has, and reports its end only when the queue is empty and no permit is out. The close cell is
written at most once, so a subscriber that saw it empty is woken exactly when it is full. How long
a charge on the byte budget waits is left to the schedule.
-/

namespace MsgTrans.Adapters.Events

open MsgTrans.Wire MsgTrans.Transport MsgTrans.Base

/-- `normalize_inbound`; `events.rs:78–93`. -/
def normalizeInbound (codecs : Codecs) (packet : Packet) (maxPayloadSize : Nat) :
    Except String Packet :=
  if packet.header.compression = .none then
    if packet.payload.length > maxPayloadSize then
      .error ("payload exceeds " ++ toString maxPayloadSize ++ " bytes")
    else .ok packet
  else
    match packet.decompressPayloadWithLimit codecs maxPayloadSize with
    | .ok packet => .ok (packet.setCompression .none)
    | .error e => .error ("failed to decompress packet: " ++ e.display)

/-- What travels through the data plane: every `TransportEvent` but `ConnectionClosed`, which the
control plane makes; `event.rs:12–31`. -/
inductive DataEvent where
  | messageReceived (packet : Packet)
  | messageSent (packetId : UInt32)
  | connectionEstablished
  | transportError (error : TransportError)
  deriving DecidableEq, Repr

/-- What a `next` call returns: a queued event with the call that enqueued it, the closing event,
or `None`. -/
inductive Output where
  | event (call : Nat) (event : DataEvent)
  | connectionClosed (reason : CloseReason)
  | none
  deriving DecidableEq, Repr

/-- How a pipe is made; `events.rs:52–71`. -/
structure PipeConfig where
  target : Target
  codecs : Codecs
  capacity : Nat
  maxPayloadSize : Nat
  bufferBytes : Nat

/-- The reason for a pipe that vanished; `events.rs:196–198`. -/
def endedWithoutClose : CloseReason := .error "connection ended without close"

/-- What a task called. -/
inductive Kind where
  | deliver (event : DataEvent)
  | diagnostic (event : DataEvent)
  deriving DecidableEq, Repr

/-- Where a call stands. -/
inductive Phase where
  | entered
  | charging (packet : Packet)
  | checking (event : DataEvent)
  | sending (event : DataEvent)
  | reserved (event : DataEvent)
  | returned (accepted : Bool)
  | dropped
  deriving DecidableEq, Repr

/-- A call with what it was asked to do and where it stands. -/
structure PipeCall where
  kind : Kind
  phase : Phase
  deriving DecidableEq, Repr

/-- Both halves of the pipe, every call made on it, and the history: what was enqueued, the
reasons given to `close` in order, and what the consumer got. -/
structure PipeState where
  queue : List (Nat × DataEvent)
  rxClosed : Bool
  cell : Option CloseReason
  dropped : Bool
  closeEmitted : Bool
  inNext : Bool
  calls : List PipeCall
  enqueued : List (Nat × DataEvent)
  published : List CloseReason
  received : List Output
  deriving DecidableEq, Repr

/-- What the scheduler does next. -/
inductive PipeLabel where
  | call (kind : Kind)
  | close (reason : CloseReason)
  | enter (t : Nat)
  | charge (t : Nat)
  | check (t : Nat)
  | observe (t : Nat)
  | reserve (t : Nat)
  | push (t : Nat)
  | abandon (t : Nat)
  | dropPipe
  | next
  | recv
  | changed
  | abandonNext
  deriving DecidableEq, Repr

/-- A call has its permit and has not pushed yet. -/
def Phase.holdsPermit : Phase → Bool
  | .reserved _ => true
  | _ => false

/-- A call is over. -/
def Phase.finished : Phase → Bool
  | .returned _ | .dropped => true
  | _ => false

namespace PipeState

/-- A fresh pipe; `events.rs:52–71`. -/
def new : PipeState where
  queue := []
  rxClosed := false
  cell := none
  dropped := false
  closeEmitted := false
  inNext := false
  calls := []
  enqueued := []
  published := []
  received := []

/-- The number of permits that are out. -/
def permits (s : PipeState) : Nat := s.calls.countP (·.phase.holdsPermit)

/-- Move a call on. -/
def setPhase (s : PipeState) (t : Nat) (call : PipeCall) (phase : Phase) : PipeState :=
  { s with calls := s.calls.set t { call with phase := phase } }

/-- `EventPipe::close`: the first reason wins; `events.rs:158–170`. -/
def close (s : PipeState) (reason : CloseReason) : PipeState :=
  { s with
    cell := s.cell.or (some reason)
    published := s.published ++ [reason] }

/-- The first part of `deliver`, up to the charge; `events.rs:111–137`. -/
def enter (cfg : PipeConfig) (s : PipeState) (t : Nat) : Option PipeState :=
  match s.calls[t]? with
  | some ⟨.deliver (.messageReceived packet), .entered⟩ =>
    let call : PipeCall := ⟨.deliver (.messageReceived packet), .entered⟩
    match normalizeInbound cfg.codecs packet cfg.maxPayloadSize with
    | .error reason => some ((s.close (.error reason)).setPhase t call (.returned false))
    | .ok packet' =>
      if s.cell.isSome then some (s.setPhase t call (.returned false))
      else some (s.setPhase t call (.charging packet'))
  | some ⟨.deliver event, .entered⟩ =>
    some (s.setPhase t ⟨.deliver event, .entered⟩ (.checking event))
  | _ => none

/-- The charge on the byte budget; `events.rs:120–130`, `budget.rs:35–52`. -/
def charge (cfg : PipeConfig) (s : PipeState) (t : Nat) : Option PipeState :=
  match s.calls[t]? with
  | some ⟨kind, .charging packet⟩ =>
    let call : PipeCall := ⟨kind, .charging packet⟩
    let size := chargeSize cfg.target packet
    if size > cfg.bufferBytes then
      let error := TransportError.resource "connection byte budget" size cfg.bufferBytes
      some ((s.close (.error error.display)).setPhase t call (.returned false))
    else some (s.setPhase t call (.checking (.messageReceived packet)))
  | _ => none

/-- The second look at the close cell; `events.rs:140–143`. -/
def check (s : PipeState) (t : Nat) : Option PipeState :=
  match s.calls[t]? with
  | some ⟨kind, .checking event⟩ =>
    some (s.setPhase t ⟨kind, .checking event⟩
      (if s.cell.isSome then .returned false else .sending event))
  | _ => none

/-- A parked call is woken by the close cell; `events.rs:122,145`. -/
def observe (s : PipeState) (t : Nat) : Option PipeState :=
  match s.calls[t]? with
  | some ⟨kind, .charging packet⟩ =>
    if s.cell.isSome then some (s.setPhase t ⟨kind, .charging packet⟩ (.returned false)) else none
  | some ⟨kind, .sending event⟩ =>
    if s.cell.isSome then some (s.setPhase t ⟨kind, .sending event⟩ (.returned false)) else none
  | _ => none

/-- A send asks for its permit and waits on a full queue; the `try_send` of a diagnostic gives up
on one; `events.rs:146,152–154`. -/
def reserve (cfg : PipeConfig) (s : PipeState) (t : Nat) : Option PipeState :=
  match s.calls[t]? with
  | some ⟨kind, .sending event⟩ =>
    if s.rxClosed then some (s.setPhase t ⟨kind, .sending event⟩ (.returned false))
    else if s.queue.length + s.permits < cfg.capacity then
      some (s.setPhase t ⟨kind, .sending event⟩ (.reserved event))
    else none
  | some ⟨.diagnostic event, .entered⟩ =>
    if s.rxClosed = false ∧ s.queue.length + s.permits < cfg.capacity then
      some (s.setPhase t ⟨.diagnostic event, .entered⟩ (.reserved event))
    else some (s.setPhase t ⟨.diagnostic event, .entered⟩ (.returned false))
  | _ => none

/-- A send with its permit pushes its event and returns. -/
def push (s : PipeState) (t : Nat) : Option PipeState :=
  match s.calls[t]? with
  | some ⟨kind, .reserved event⟩ =>
    some { s.setPhase t ⟨kind, .reserved event⟩ (.returned true) with
      queue := s.queue ++ [(t, event)]
      enqueued := s.enqueued ++ [(t, event)] }
  | _ => none

/-- A `deliver` future is dropped before its first poll or where it is parked. -/
def abandon (s : PipeState) (t : Nat) : Option PipeState :=
  match s.calls[t]? with
  | some ⟨.deliver event, .entered⟩ => some (s.setPhase t ⟨.deliver event, .entered⟩ .dropped)
  | some ⟨kind, .charging packet⟩ => some (s.setPhase t ⟨kind, .charging packet⟩ .dropped)
  | some ⟨kind, .sending event⟩ => some (s.setPhase t ⟨kind, .sending event⟩ .dropped)
  | _ => none

/-- The receive arm of `next`; `events.rs:190–202`. -/
def recv (s : PipeState) : Option PipeState :=
  if s.inNext then
    match s.queue with
    | (t, event) :: rest =>
      some { s with
        queue := rest
        inNext := false
        received := s.received ++ [.event t event] }
    | [] =>
      if (s.rxClosed || s.dropped) && s.permits == 0 then
        if s.closeEmitted then
          some { s with
            inNext := false
            received := s.received ++ [.none] }
        else
          some { s with
            inNext := false
            closeEmitted := true
            received := s.received ++ [.connectionClosed (s.cell.getD endedWithoutClose)] }
      else none
  else none

/-- One step of the pipe, its callers and its consumer. -/
def step (cfg : PipeConfig) (s : PipeState) : PipeLabel → Option PipeState
  | .call kind =>
    if s.dropped then none else some { s with calls := s.calls ++ [⟨kind, .entered⟩] }
  | .close reason => if s.dropped then none else some (s.close reason)
  | .enter t => s.enter cfg t
  | .charge t => s.charge cfg t
  | .check t => s.check t
  | .observe t => s.observe t
  | .reserve t => s.reserve cfg t
  | .push t => s.push t
  | .abandon t => s.abandon t
  -- A call borrows the pipe, so the pipe outlives every call.
  | .dropPipe =>
    if s.calls.all (·.phase.finished) then some { s with dropped := true } else none
  | .next =>
    if s.inNext then none
    else some { s with
      inNext := true
      rxClosed := s.rxClosed || (!s.closeEmitted && s.cell.isSome) }
  | .recv => s.recv
  | .changed =>
    if s.inNext && !s.closeEmitted && (s.cell.isSome || s.dropped) then
      some { s with rxClosed := s.rxClosed || s.cell.isSome }
    else none
  | .abandonNext => if s.inNext then some { s with inNext := false } else none

end PipeState

/-- The pipe as a machine. -/
def pipe (cfg : PipeConfig) : Machine PipeState PipeLabel where
  start := .new
  step := PipeState.step cfg

end MsgTrans.Adapters.Events
