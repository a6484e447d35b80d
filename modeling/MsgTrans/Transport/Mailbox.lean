import MsgTrans.Transport.SessionActor

/-!
# Write-confirmed sends through the mailbox of a session

Model of `TransportServer::send_to_session`,
`crates/msgtrans/src/transport/transport_server.rs:218–255`, with `SessionHandle::enqueue` and
`send_packet_with_reply`, `session_actor.rs:362–409`, in front of the session actor: any number of
callers, the pump with its handle, the handle in the server's map, and the actor, in any order of
their steps. A caller is no task of the session's own handler, and it may be cancelled at any
await.

A send on a mailbox fails once its receiver is dropped. What is queued at that moment goes with the
last sender handle, and a caller keeps its own handle until it returns.
-/

namespace MsgTrans.Transport

open MsgTrans.Wire MsgTrans.Adapters MsgTrans.Base

/-- Where a caller stands: in front of the map of handles, at `try_send`, in the wait for room, in
the wait for its reply, on the direct way that a caller without a handle takes, or at its end. -/
inductive CallerPhase where
  | looking
  | offering
  | parked
  | awaiting
  | direct
  | done (result : Except TransportError Unit)
  | cancelled
  deriving DecidableEq, Repr

/-- The caller has a sender handle of its own. -/
def CallerPhase.holds : CallerPhase → Bool
  | .offering | .parked | .awaiting => true
  | _ => false

/-- A call of `send_to_session`. Its reply channel has the number of the call. -/
structure Caller where
  packet : Packet
  phase : CallerPhase
  deriving DecidableEq

/-- The actor with those that hold a handle to its mailbox. -/
structure MailboxState where
  actor : ActorState
  registered : Bool
  pump : Bool
  callers : List Caller
  deriving DecidableEq

/-- What happens next. -/
inductive MailboxLabel where
  | call (packet : Packet)
  | look (n : Nat)
  | offer (n : Nat)
  | grant (n : Nat)
  | expire (n : Nat)
  | hangUp (n : Nat)
  | learn (n : Nat)
  | cancelCall (n : Nat)
  | post (message : ActorMessage)
  | act (label : ActorLabel)
  | cancelSession
  | endPump
  | remove
  | dropSenders
  deriving DecidableEq, Repr

/-- The reply channel of a command. -/
def ActorMessage.reply? : ActorMessage → Option Nat
  | .sendWithReply _ reply => some reply
  | .inboundEvent _ | .send _ => none

/-- The reply channels of the commands among some messages. -/
def commands (mails : List Mail) : List Nat := mails.filterMap fun mail ↦ mail.1.reply?

/-- The messages that the actor has received and not handled. -/
def ActorPhase.batch : ActorPhase → List Mail
  | .draining batch | .processing batch _ => batch
  | _ => []

/-- The reply channels that somebody still holds the sender of. -/
def ActorState.owed (s : ActorState) : List Nat := commands (s.phase.batch ++ s.mailbox)

/-- `is_connection_dead`; `transport_server.rs:67–69`. -/
def isConnectionDead : TransportError → Bool
  | .connection _ _ => true
  | _ => false

/-- The error of a send on a mailbox without a receiver; `session_actor.rs:369–374,379–382`. -/
def channelClosed : TransportError := .connection "Actor channel closed" false

namespace MailboxState

/-- A session whose actor was spawned. -/
def new : MailboxState where
  actor := .new
  registered := true
  pump := true
  callers := []

/-- A caller goes on to another phase. -/
def enter (s : MailboxState) (n : Nat) (caller : Caller) (phase : CallerPhase) : MailboxState :=
  { s with callers := s.callers.set n { caller with phase } }

/-- A caller returns. An error of a dead connection removes the session;
`transport_server.rs:232–254`. -/
def finish (s : MailboxState) (n : Nat) (caller : Caller) :
    Except TransportError Unit → MailboxState
  | .ok () => s.enter n caller (.done (.ok ()))
  | .error e =>
    if isConnectionDead e then
      { s with registered := false }.enter n caller
        (.done (.error (.connection "Connection closed during send" false)))
    else s.enter n caller (.done (.error e))

/-- The command of a caller enters the mailbox, and the caller waits for its reply. -/
def push (s : MailboxState) (n : Nat) (caller : Caller) : Option MailboxState :=
  (s.actor.arrive (.sendWithReply caller.packet n)).map fun actor ↦
    { s with actor }.enter n caller .awaiting

/-- The lookup in the map of handles; `transport_server.rs:231`. -/
def look (s : MailboxState) (n : Nat) (caller : Caller) : Option MailboxState :=
  some (s.enter n caller (if s.registered then .offering else .direct))

/-- `try_send`; `session_actor.rs:366–375`. -/
def offer (capacity : Nat) (s : MailboxState) (n : Nat) (caller : Caller) : Option MailboxState :=
  if s.actor.phase.receiving then
    if s.actor.mailbox.length < capacity then s.push n caller else some (s.enter n caller .parked)
  else some (s.finish n caller (.error channelClosed))

/-- `send_async` finds room; `session_actor.rs:377–378`. -/
def grant (capacity : Nat) (s : MailboxState) (n : Nat) (caller : Caller) : Option MailboxState :=
  if s.actor.mailbox.length < capacity then s.push n caller else none

/-- The wait for room has taken too long; `session_actor.rs:383–387`. -/
def expire (capacity : Nat) (s : MailboxState) (n : Nat) (caller : Caller) : Option MailboxState :=
  some (s.finish n caller
    (.error (.resource "session_actor_outbound_queue" s.actor.mailbox.length capacity)))

/-- `send_async` finds no receiver; `session_actor.rs:379–382`. -/
def hangUp (s : MailboxState) (n : Nat) (caller : Caller) : Option MailboxState :=
  if s.actor.phase.receiving then none else some (s.finish n caller (.error channelClosed))

/-- The reply has come, or its sender was dropped; `session_actor.rs:407–409`. -/
def learn (s : MailboxState) (n : Nat) (caller : Caller) : Option MailboxState :=
  match s.actor.replies.lookup n with
  | some result => some (s.finish n caller result)
  | none =>
    if n ∈ s.actor.owed then none
    else some (s.finish n caller (.error (.connection "Actor dropped before reply" false)))

/-- A step of a caller in some phase. -/
def onCaller (s : MailboxState) (n : Nat) (phase : CallerPhase)
    (f : Nat → Caller → Option MailboxState) : Option MailboxState :=
  (s.callers[n]?.filter (·.phase = phase)).bind (f n)

/-- The pump or another task puts a message into the mailbox that asks for no reply. -/
def post (capacity : Nat) (s : MailboxState) (message : ActorMessage) : Option MailboxState :=
  if message.reply? = none ∧ s.actor.mailbox.length < capacity then
    (s.actor.arrive message).map fun actor ↦ { s with actor }
  else none

/-- Nobody has a sender handle: not the map, not the pump, no caller. -/
def Deserted (s : MailboxState) : Prop :=
  s.registered = false ∧ s.pump = false ∧ ∀ caller ∈ s.callers, caller.phase.holds = false

instance (s : MailboxState) : Decidable s.Deserted := inferInstanceAs (Decidable (_ ∧ _ ∧ _))

/-- The last sender handle is dropped. With it goes what is queued, unless there is a receiver. -/
def dropSenders (s : MailboxState) : Option MailboxState :=
  if s.Deserted then
    some { s with actor := { s.actor with
      sendersGone := true
      mailbox := if s.actor.phase.receiving then s.actor.mailbox else [] } }
  else none

/-- One step. -/
def step (cfg : ActorConfig) (limit capacity : Nat) (s : MailboxState) :
    MailboxLabel → Option MailboxState
  | .call packet => some { s with callers := s.callers ++ [⟨packet, .looking⟩] }
  | .look n => s.onCaller n .looking s.look
  | .offer n => s.onCaller n .offering (s.offer capacity)
  | .grant n => s.onCaller n .parked (s.grant capacity)
  | .expire n => s.onCaller n .parked (s.expire capacity)
  | .hangUp n => s.onCaller n .parked s.hangUp
  | .learn n => s.onCaller n .awaiting s.learn
  | .cancelCall n =>
    (s.callers[n]?.filter (·.phase.holds)).map fun caller ↦ s.enter n caller .cancelled
  | .post message => s.post capacity message
  | .act label =>
    if label.own then (s.actor.step cfg limit label).map fun actor ↦ { s with actor } else none
  | .cancelSession => some { s with actor := { s.actor with cancelled := true } }
  | .endPump => some { s with pump := false }
  | .remove => some { s with registered := false }
  | .dropSenders => s.dropSenders

end MailboxState

/-- A session with its callers. -/
def mailbox (cfg : ActorConfig) (limit capacity : Nat) : Machine MailboxState MailboxLabel where
  start := .new
  step := MailboxState.step cfg limit capacity

end MsgTrans.Transport
