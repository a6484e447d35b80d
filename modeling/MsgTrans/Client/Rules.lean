import MsgTrans.Client.Methods
import MsgTrans.Registry.Specs

/-!
# The client transport: who holds what

The ghost tokens a call of the transport carries and the rules that move them: those of the
registry, and on top a connection that is about to be installed, a writer or a connection that was
taken out of the slot, a packet that was enqueued, and the borrow of the client. One specification
for each method says from which tokens it runs and which it leaves behind.
-/

namespace MsgTrans.Client

open MsgTrans.Wire MsgTrans.Adapters MsgTrans.Base MsgTrans.Registry MsgTrans.Transport

/-- What the callers of a transport promise. -/
structure Mode where
  registry : Registry.Mode
  /-- The callers borrow the client, and enqueue a request only once and under an id that they
  registered for the session it goes to. -/
  exclusive : Bool := false

/-- What a call that borrows the client has seen in the slot. -/
inductive Seen where
  | nothing
  | empty
  | session (sessionId : SessionId)
  deriving DecidableEq

/-- The tokens of the transport's calls. -/
inductive Tok where
  | registry (x : Registry.Tok)
  /-- The connection was handed over and is not installed yet. -/
  | installing (connection : Nat)
  /-- The call holds a writer that was taken under this expectation. -/
  | writer (expected : Option SessionId) (connection : Nat)
  /-- The packet was enqueued by this call. -/
  | queued (call connection : Nat) (expected : Option SessionId) (packet : Packet)
  /-- The connection was taken out of the slot of this generation. -/
  | taken (sessionId : SessionId) (connection : Nat)
  /-- The call has not enqueued its request yet. -/
  | ticket
  /-- The call borrows the client and has seen this in the slot. -/
  | sharing (seen : Seen)
  /-- The call borrows the client mutably. -/
  | owning

namespace Tok

/-- The registry's part of a token. -/
def inner? : Tok → Option Registry.Tok
  | .registry x => some x
  | _ => none

/-- The token belongs to a call with this number and names only sessions in its scope. -/
def Within (call : Nat) (scope : Option SessionId → Prop) : Tok → Prop
  | .registry x => x.Within call scope
  | .taken sid _ => scope (some sid)
  | .queued c .. => c = call
  | _ => True

end Tok

/-- The registry's part of the registry's tokens. -/
@[simp] theorem part_registry (d : Multiset Registry.Tok) :
    part Tok.inner? (d.map .registry) = d := by
  have h : ∀ x : Registry.Tok, (Tok.registry x).inner? = some x := fun _ ↦ rfl
  exact part_map h d

/-- The token rules of the atomic actions. -/
inductive Moves (cfg : Setup) (m : Mode) (call : Nat) :
    (a : Act) → a.Resp → Multiset Tok → Multiset Tok → Prop where
  | registry {a : Registry.Act} {r : a.Resp} {e e' : Multiset Registry.Tok} :
      Registry.Moves cfg.registry m.registry call a r e e' →
      Moves cfg m call (.registry a) r (e.map .registry) (e'.map .registry)
  | resume {b : Bool} : Moves cfg m call .resume b 0 0
  | install {sid : SessionId} {connection : Nat} : m.exclusive = false →
      Moves cfg m call (.slotInstall connection) sid {.installing connection}
        {.registry (.unopened sid)}
  | installOwned {sid : SessionId} {connection : Nat} :
      Moves cfg m call (.slotInstall connection) sid ({.installing connection} + {.owning})
        ({.registry (.unopened sid)} + {.owning})
  | sessionId {found : Option SessionId} : Moves cfg m call .slotSessionId found 0 0
  | sessionNone {seen : Seen} :
      Moves cfg m call .slotSessionId none {.sharing seen} {.sharing .empty}
  | sessionSome {seen : Seen} {sid : SessionId} :
      Moves cfg m call .slotSessionId (some sid) {.sharing seen} {.sharing (.session sid)}
  | writerRefused {expected : Option SessionId} {e : TransportError} :
      Moves cfg m call (.slotWriter expected) (.error e) 0 0
  | writer {expected : Option SessionId} {connection : Nat} :
      Moves cfg m call (.slotWriter expected) (.ok connection) 0 {.writer expected connection}
  | takeNone {sid : SessionId} : Moves cfg m call (.slotTake sid) none 0 0
  | take {sid : SessionId} {connection : Nat} :
      Moves cfg m call (.slotTake sid) (some connection) 0 {.taken sid connection}
  | close {sid : SessionId} {connection : Nat} {closed : Bool} :
      Moves cfg m call (.connectionClose connection) closed {.taken sid connection}
        {.taken sid connection}
  | drop {sid : SessionId} {connection : Nat} :
      Moves cfg m call (.connectionDrop connection) () {.taken sid connection} 0
  | addConnection {sid : SessionId} : Moves cfg m call (.addConnection sid) () 0 0
  | tryStartClosing {sid : SessionId} {b : Bool} : Moves cfg m call (.tryStartClosing sid) b 0 0
  | markClosed {sid : SessionId} : Moves cfg m call (.markClosed sid) () 0 0
  | removeConnection {sid : SessionId} : Moves cfg m call (.removeConnection sid) () 0 0
  | epochLoad {epoch : Nat} : Moves cfg m call .epochLoad epoch 0 0
  | upgrade {b : Bool} : Moves cfg m call .upgrade b 0 0
  | forward {sid : SessionId} {token : Option RequestToken} {event : TransportEvent} :
      Moves cfg m call (.forward sid token event) () 0 0
  | enqueueRefused {connection : Nat} {expected : Option SessionId} {packet : Packet}
      {e : TransportError} : Moves cfg m call (.enqueue connection expected packet) (.error e)
        {.writer expected connection} 0
  | enqueue {connection : Nat} {expected : Option SessionId} {packet : Packet} :
      (m.exclusive = true → packet.header.packetType ≠ .request) →
      Moves cfg m call (.enqueue connection expected packet) (.ok ())
        {.writer expected connection} {.queued call connection expected packet}
  | enqueueRequest {connection : Nat} {sid : SessionId} {packet : Packet} {token : RequestToken} :
      token.key = .outbound (some sid) packet.header.messageId →
      Moves cfg m call (.enqueue connection (some sid) packet) (.ok ())
        ({.writer (some sid) connection} + ({.ticket} + {.registry (.minted token)}))
        ({.queued call connection (some sid) packet} + {.registry (.minted token)})
  | receipt {written : Except TransportError Unit} : Moves cfg m call .receipt written 0 0
  | awaitReply {channel : Nat} {awaited : Awaited} :
      Moves cfg m call (.awaitReply channel) awaited 0 0
  | currentSet {sid : SessionId} : Moves cfg m call (.currentSet sid) () 0 0
  | currentTake {sid : Option SessionId} : Moves cfg m call .currentTake sid 0 0
  | borrow : m.exclusive = true → Moves cfg m call .borrow () 0 {.sharing .nothing}
  | release {seen : Seen} : Moves cfg m call .release () {.sharing seen} 0
  | borrowMut : Moves cfg m call .borrowMut () 0 {.owning}
  | releaseMut : Moves cfg m call .releaseMut () {.owning} 0

/-- Answers that the tokens held rule out: those the registry's rules do, and a connection other
than the one that was seen in the slot during this borrow. -/
inductive Refuted (m : Mode) : (a : Act) → a.Resp → Multiset Tok → Prop where
  | registry {a : Registry.Act} {r : a.Resp} {d : Multiset Registry.Tok} {F : Multiset Tok} :
      Registry.Refuted m.registry a r d → Refuted m (.registry a) r (d.map .registry + F)
  | connected {sid : SessionId} {d : Multiset Tok} : .sharing .empty ∈ d →
      Refuted m .slotSessionId (some sid) d
  | replaced {sid sid' : SessionId} {d : Multiset Tok} : .sharing (.session sid) ∈ d →
      sid' ≠ sid → Refuted m .slotSessionId (some sid') d
  | wired {connection : Nat} {d : Multiset Tok} : .sharing .empty ∈ d →
      Refuted m (.slotWriter none) (.ok connection) d

/-- The transport's rules. -/
def rules (cfg : Setup) (m : Mode) : Rules Act Act.Resp Tok where
  moves := Moves cfg m
  refuted := fun _ ↦ Refuted m
  await := fun _ ↦ False
  idle := fun _ ↦ True

/-- The registry's rules inside the transport's. -/
theorem registry_embeds (cfg : Setup) (m : Mode) :
    Embeds (Registry.rules cfg.registry m.registry) (rules cfg m) Act.registry (fun _ r ↦ r)
      Tok.registry where
  await := fun _ h ↦ h
  moves := fun _ _ _ _ _ h ↦ .registry h
  refuted := fun _ _ _ _ _ h ↦ .registry h

/-- The program of call `t`, within the scope `P`, follows the transport's rules. -/
abbrev Keeps (cfg : Setup) (m : Mode) (t : Nat) (P : Option SessionId → Prop)
    {α : Type} (Q : α → Multiset Tok → Prop) : Task α → Multiset Tok → Prop :=
  Follows (rules cfg m) t (Tok.Within t P) Q

section Specs

variable {cfg : Setup} {m : Mode} {t : Nat} {P : Option SessionId → Prop} {α β : Type}
  {Q : α → Multiset Tok → Prop} {F : Multiset Tok} {sid : SessionId}

/-- An action that moves no token. -/
theorem keeps_neutral {a : Act} {k : a.Resp → Task α} (hm : ∀ r, Moves cfg m t a r 0 0)
    (h : ∀ r, Keeps cfg m t P Q (k r) F) : Keeps cfg m t P Q (.act a k) F :=
  follows_neutral (fun h' ↦ h') hm h

/-- An action that moves the tokens it is given. -/
theorem keeps_move {a : Act} {k : a.Resp → Task α} {e : Multiset Tok}
    (h : ∀ r, ∃ e', Moves cfg m t a r e e' ∧ (∀ x ∈ e', x.Within t P) ∧
      Keeps cfg m t P Q (k r) (e' + F)) : Keeps cfg m t P Q (.act a k) (e + F) :=
  follows_move (fun h' ↦ h') h

/-- An action that gives up nothing. -/
theorem keeps_gain {a : Act} {k : a.Resp → Task α}
    (h : ∀ r, ∃ e', Moves cfg m t a r 0 e' ∧ (∀ x ∈ e', x.Within t P) ∧
      Keeps cfg m t P Q (k r) (e' + F)) : Keeps cfg m t P Q (.act a k) F :=
  follows_gain (fun h' ↦ h') h

/-- A method of the registry, with what it promises. -/
theorem onRegistry_spec {Q₁ : β → Multiset Registry.Tok → Prop} {p : Registry.Task β}
    {d : Multiset Registry.Tok} {k : β → Task α}
    (h : Registry.Keeps cfg.registry m.registry t P Q₁ p d)
    (hk : ∀ v d', Q₁ v d' → Keeps cfg m t P Q (k v) (d'.map .registry + F)) :
    Keeps cfg m t P Q (onRegistry p >>= k) (d.map .registry + F) :=
  Follows.lift_bind (registry_embeds cfg m) (fun _ hx ↦ hx) h hk

/-- A method of the registry that needs no token. -/
theorem onRegistry_free {Q₁ : β → Multiset Registry.Tok → Prop} {p : Registry.Task β}
    {k : β → Task α} (h : Registry.Keeps cfg.registry m.registry t P Q₁ p 0)
    (hk : ∀ v d, Q₁ v d → Keeps cfg m t P Q (k v) (d.map .registry + F)) :
    Keeps cfg m t P Q (onRegistry p >>= k) F := by
  have h' := onRegistry_spec (F := F) h hk
  rwa [Multiset.map_zero, zero_add] at h'

theorem closeSessionPending_spec {k : Nat → Task α} (hP : P (some sid))
    (h : ∀ n, Keeps cfg m t P Q (k n) ({.registry (.gone sid)} + F)) :
    Keeps cfg m t P Q (onRegistry (closeSessionPending cfg.registry sid) >>= k) F := by
  have hclose : Registry.Keeps cfg.registry m.registry t P (fun _ d ↦ d = {.gone sid})
      (closeSessionPending cfg.registry sid >>= pure) 0 :=
    Registry.closeSessionPending_spec hP fun n ↦ by rw [add_zero]; exact follows_ret rfl
  rw [bind_pure] at hclose
  refine onRegistry_free hclose fun n d hd ↦ ?_
  rw [hd, Multiset.map_singleton]
  exact h n

theorem dropTaken_spec {connection : Nat} {k : Unit → Task α}
    (h : Keeps cfg m t P Q (k ()) F) :
    Keeps cfg m t P Q (dropTaken (some connection) >>= k) ({.taken sid connection} + F) := by
  simp only [dropTaken, Prog.perform_bind]
  exact keeps_move fun _ ↦ ⟨0, .drop, by simp, by rwa [zero_add]⟩

/-- The end of a close drops what is still in hand. -/
theorem markAndRemove_spec {taken : Option Nat} {k : Unit → Task α}
    (h : Keeps cfg m t P Q (dropTaken taken >>= k) F) :
    Keeps cfg m t P Q (markAndRemove sid taken >>= k) F := by
  simp only [markAndRemove, Prog.perform_bind]
  refine keeps_neutral (fun _ ↦ .resume) fun resumed ↦ ?_
  cases resumed with
  | false => exact h
  | true =>
    refine keeps_neutral (fun _ ↦ .markClosed) fun _ ↦ ?_
    exact keeps_neutral (fun _ ↦ .removeConnection) fun _ ↦ h

/-- The slot lock of a close. -/
theorem slotTake_spec {k : Option Nat → Task α} (hP : P (some sid))
    (hnone : Keeps cfg m t P Q (k none) F)
    (hsome : ∀ connection, Keeps cfg m t P Q (k (some connection)) ({.taken sid connection} + F)) :
    Keeps cfg m t P Q (op (.slotTake sid) >>= k) F := by
  refine keeps_gain fun taken ↦ ?_
  cases taken with
  | none => exact ⟨0, .takeNone, by simp, by rwa [zero_add]⟩
  | some connection =>
    exact ⟨_, .take, by simpa [Tok.Within] using hP, hsome connection⟩

theorem retireGeneration_spec {k : Unit → Task α} (hP : P (some sid))
    (h : Keeps cfg m t P Q (k ()) F) : Keeps cfg m t P Q (retireGeneration sid >>= k) F := by
  simp only [retireGeneration, bind_assoc]
  exact slotTake_spec hP (markAndRemove_spec h) fun connection ↦
    markAndRemove_spec (dropTaken_spec h)

/-- A connection that was taken is closed and dropped. -/
theorem closeTaken_spec {force : Bool} {connection : Nat} {k : Bool → Task α} (hP : P (some sid))
    (h : ∀ completed, Keeps cfg m t P Q (k completed) F) :
    Keeps cfg m t P Q (closeTaken force connection >>= k) ({.taken sid connection} + F) := by
  have hclose : ∀ {k' : Bool → Task α},
      (∀ b, Keeps cfg m t P Q (k' b) ({.taken sid connection} + F)) →
      Keeps cfg m t P Q (.act (.connectionClose connection) k') ({.taken sid connection} + F) :=
    fun hk ↦ keeps_move fun b ↦ ⟨_, .close, by simpa [Tok.Within] using hP, hk b⟩
  have hdrop : ∀ {k' : Unit → Task α}, Keeps cfg m t P Q (k' ()) F →
      Keeps cfg m t P Q (.act (.connectionDrop connection) k') ({.taken sid connection} + F) :=
    fun hk ↦ keeps_move fun _ ↦ ⟨0, .drop, by simp, by rwa [zero_add]⟩
  simp only [closeTaken, Prog.perform_bind, Prog.act_bind]
  refine hclose fun closed ↦ keeps_neutral (fun _ ↦ .resume) fun resumed ↦ ?_
  cases resumed with
  | false => exact hdrop (h false)
  | true =>
    cases hend : force || closed with
    | true => exact hdrop (h true)
    | false =>
      refine hclose fun _ ↦ ?_
      exact keeps_neutral (fun _ ↦ .resume) fun resumed ↦ hdrop (h resumed)

/-- A close leaves nothing in hand. -/
theorem close_spec {force : Bool} {k : Unit → Task α} (hP : P (some sid))
    (h : ∀ G, Keeps cfg m t P Q (k ()) (G + F)) :
    Keeps cfg m t P Q (close cfg force sid >>= k) F := by
  have h0 := h 0
  rw [zero_add] at h0
  have hend : ∀ G, Keeps cfg m t P Q (markAndRemove sid none >>= k) (G + F) := fun G ↦
    markAndRemove_spec (h G)
  simp only [close, Prog.perform_bind, Prog.act_bind]
  refine keeps_neutral (fun _ ↦ .tryStartClosing) fun started ↦ ?_
  cases started with
  | false => exact h0
  | true =>
    simp only [if_true, bind_assoc]
    refine closeSessionPending_spec hP fun _ ↦ ?_
    simp only [Prog.act_bind]
    refine keeps_neutral (fun _ ↦ .resume) fun resumed ↦ ?_
    cases resumed with
    | false => exact h _
    | true =>
      refine slotTake_spec hP (hend _) fun connection ↦ ?_
      simp only [Prog.bind_eq, bind_assoc]
      refine closeTaken_spec hP fun completed ↦ ?_
      cases completed with
      | false => exact h _
      | true => exact hend _

/-- The response packet that an event hands to `complete_waiter`. -/
def arrivalFor (m : Mode) (call : Nat) (sid : SessionId) : TransportEvent → Multiset Tok
  | .data (.messageReceived packet) =>
    (responseFor m.registry call (some sid) packet.header.messageId packet false).map .registry
  | _ => 0

private theorem completed {id : UInt32} {packet : Packet} (hP : P (some sid)) :
    Registry.Keeps cfg.registry m.registry t P (fun _ _ ↦ True)
      (completeWaiter (some sid) id packet)
      (responseFor m.registry t (some sid) id packet false) := by
  have h : Registry.Keeps cfg.registry m.registry t P (fun _ _ ↦ True)
      (completeWaiter (some sid) id packet >>= pure)
      (responseFor m.registry t (some sid) id packet false + 0) :=
    completeWaiter_spec hP (follows_ret trivial) (follows_ret trivial)
  rwa [bind_pure, add_zero] at h

private theorem registered {id : UInt32} {bizType : UInt8} {timeout : Duration}
    (hP : P (some sid)) :
    Registry.Keeps cfg.registry m.registry t P (fun _ _ ↦ True)
      (register cfg.registry id (some sid) bizType timeout) 0 := by
  have h : Registry.Keeps cfg.registry m.registry t P (fun _ _ ↦ True)
      (register cfg.registry id (some sid) bizType timeout >>= pure)
      (idFor m.registry (.inbound (some sid) id) + 0) :=
    registerImpl_spec hP (fun _ _ ↦ rfl) (fun _ _ ↦ follows_ret trivial)
      fun _ _ ↦ follows_ret trivial
  have hid : idFor m.registry (.inbound (some sid) id) = 0 := by
    simp [idFor, RequestKey.inbound]
  rwa [bind_pure, hid, add_zero] at h

/-- An event leaves rights and facts behind, but nothing owed. -/
theorem onEvent_spec {event : TransportEvent} {k : Unit → Task α} (hP : P (some sid))
    (h : ∀ G, Keeps cfg m t P Q (k ()) (G + F)) :
    Keeps cfg m t P Q (onEvent cfg sid event >>= k) (arrivalFor m t sid event + F) := by
  have hforward : ∀ {token : Option RequestToken} {event : TransportEvent} (G : Multiset Tok),
      Keeps cfg m t P Q (op (.forward sid token event) >>= k) (G + F) := fun G ↦
    keeps_neutral (fun _ ↦ .forward) fun _ ↦ h G
  unfold onEvent
  split
  next packet =>
    split
    next =>
      simp only [bind_assoc]
      refine onRegistry_spec (completed hP) fun completed d _ ↦ ?_
      cases completed with
      | true => exact h _
      | false => exact hforward _
    next =>
      simp only [bind_assoc]
      refine onRegistry_free (registered hP) fun token d _ ↦ ?_
      rw [← add_assoc]
      cases token with
      | none => exact h _
      | some token => exact hforward _
    next => exact hforward _
  next reason =>
    simp only [bind_assoc]
    refine closeSessionPending_spec hP fun _ ↦ ?_
    rw [← add_assoc]
    exact retireGeneration_spec hP (hforward _)
  next => exact hforward _

/-- The packets that the events of a pipe hand to `complete_waiter`. -/
def arrivalsFor (m : Mode) (call : Nat) (sid : SessionId) (events : List TransportEvent) :
    Multiset Tok := (events.map (arrivalFor m call sid)).sum

theorem teardown_spec {k : Unit → Task α} (hP : P (some sid))
    (h : ∀ G, Keeps cfg m t P Q (k ()) (G + F)) :
    Keeps cfg m t P Q (teardown cfg sid >>= k) F := by
  have h0 := h 0
  rw [zero_add] at h0
  simp only [teardown, Prog.perform_bind, Prog.act_bind]
  refine keeps_neutral (fun _ ↦ .upgrade) fun strong ↦ ?_
  cases strong with
  | false => exact h0
  | true =>
    simp only [if_true, bind_assoc]
    refine retireGeneration_spec hP ?_
    exact closeSessionPending_spec hP fun _ ↦ h _

/-- The consumer task handles its events one by one, or breaks off, and tears down. -/
theorem consume_spec {events : List TransportEvent} {k : Unit → Task α} (hP : P (some sid))
    (h : ∀ G, Keeps cfg m t P Q (k ()) (G + F)) :
    Keeps cfg m t P Q (consume cfg sid events >>= k) (arrivalsFor m t sid events + F) := by
  induction events generalizing F with
  | nil =>
    simp only [consume, arrivalsFor, List.map_nil, List.sum_nil, zero_add]
    exact teardown_spec hP h
  | cons event events ih =>
    have hteardown : ∀ G, Keeps cfg m t P Q (teardown cfg sid >>= k) (G + F) := by
      intro G
      refine teardown_spec hP fun G' ↦ ?_
      rw [← add_assoc]
      exact h _
    simp only [consume, Prog.perform_bind, Prog.act_bind]
    refine keeps_neutral (fun _ ↦ .upgrade) fun strong ↦ ?_
    cases strong with
    | false => exact hteardown _
    | true =>
      simp only [if_true, Prog.act_bind]
      refine keeps_neutral (fun _ ↦ .epochLoad) fun epoch ↦ ?_
      by_cases hepoch : epoch = sid
      · simp only [if_pos hepoch, bind_assoc]
        have hsplit : arrivalsFor m t sid (event :: events) + F =
            arrivalFor m t sid event + (arrivalsFor m t sid events + F) := by
          rw [arrivalsFor, List.map_cons, List.sum_cons, add_assoc]
          rfl
        rw [hsplit]
        refine onEvent_spec hP fun G ↦ ?_
        rw [add_left_comm]
        refine ih fun G' ↦ ?_
        rw [← add_assoc]
        exact h _
      · simp only [if_neg hepoch]
        exact hteardown _

/-- A future that is dropped at an await leaves its tokens as they are. -/
theorem resuming_spec {rest : Task (Except Failure β)} {k : Except Failure β → Task α}
    (hcancelled : Keeps cfg m t P Q (k (.error .cancelled)) F)
    (h : Keeps cfg m t P Q (rest >>= k) F) : Keeps cfg m t P Q (resuming rest >>= k) F := by
  simp only [resuming, Prog.perform_bind, Prog.act_bind]
  refine keeps_neutral (fun _ ↦ .resume) fun resumed ↦ ?_
  cases resumed with
  | false => exact hcancelled
  | true => exact h

/-- The part of a send after the slot lock: an enqueue under the given rule and its receipt. -/
private theorem enqueue_spec {connection : Nat} {expected : Option SessionId} {packet : Packet}
    {e : Multiset Tok} {k : Except TransportError Unit → Task α}
    (hm : ∃ e', Moves cfg m t (.enqueue connection expected packet) (.ok ())
      ({.writer expected connection} + e) ({.queued t connection expected packet} + e') ∧
      ∀ x ∈ e', x.Within t P)
    (hfailed : ∀ err, Keeps cfg m t P Q (k (.error err)) (e + F))
    (hqueued : ∀ e', Keeps cfg m t P Q (k (.ok ()))
      ({.queued t connection expected packet} + (e' + F))) :
    Keeps cfg m t P Q (.act (.enqueue connection expected packet) k)
      ({.writer expected connection} + (e + F)) := by
  refine follows_act (fun h' ↦ h') fun r ↦ ?_
  cases r with
  | error err =>
    exact ⟨_, 0, e + F, rfl, .enqueueRefused, by simp, by rw [zero_add]; exact hfailed err⟩
  | ok v =>
    obtain ⟨e', hmove, hok⟩ := hm
    refine ⟨_, _, F, (add_assoc _ _ _).symm, hmove, ?_, ?_⟩
    · intro x hx
      obtain hx | hx := Multiset.mem_add.mp hx
      · rw [Multiset.mem_singleton.mp hx]
        rfl
      · exact hok x hx
    · rw [add_assoc]
      exact hqueued e'

/-- A send fails, or the packet was enqueued on the connection whose writer was taken. -/
theorem sendConfirmedWith_spec {packet : Packet} {expected : Option SessionId}
    {e : Multiset Tok} {k : Except Failure Unit → Task α}
    (hm : ∀ connection, Refuted m (.slotWriter expected) (.ok connection) (e + F) ∨
      ∃ e', Moves cfg m t (.enqueue connection expected packet) (.ok ())
        ({.writer expected connection} + e) ({.queued t connection expected packet} + e') ∧
        ∀ x ∈ e', x.Within t P)
    (hfailed : ∀ err G, Keeps cfg m t P Q (k (.error err)) (G + F))
    (hsent : ∀ connection e', Keeps cfg m t P Q (k (.ok ()))
      ({.queued t connection expected packet} + (e' + F))) :
    Keeps cfg m t P Q (sendConfirmedWith packet expected >>= k) (e + F) := by
  simp only [sendConfirmedWith]
  refine resuming_spec (hfailed _ _) ?_
  simp only [Prog.perform_bind, Prog.act_bind]
  refine ⟨fun h' ↦ h'.elim, fun writer ↦ ?_⟩
  cases writer with
  | error err =>
    refine .inr ⟨0, 0, e + F, (zero_add _).symm, .writerRefused, by simp, ?_⟩
    rw [zero_add]
    exact hfailed _ _
  | ok connection =>
    refine (hm connection).imp id fun henqueue ↦ ?_
    refine ⟨0, _, e + F, (zero_add _).symm, .writer, by simp [Tok.Within], ?_⟩
    have hcancelled : Keeps cfg m t P Q (k (.error .cancelled))
        ({.writer expected connection} + (e + F)) := by
      rw [← add_assoc]
      exact hfailed _ _
    refine resuming_spec hcancelled ?_
    simp only [Prog.act_bind]
    refine enqueue_spec henqueue (fun err ↦ hfailed _ _) fun e' ↦ ?_
    have hlost : ∀ err, Keeps cfg m t P Q (k (.error err))
        ({.queued t connection expected packet} + (e' + F)) := by
      intro err
      rw [← add_assoc]
      exact hfailed _ _
    refine resuming_spec (hlost _) ?_
    simp only [Prog.act_bind]
    refine keeps_neutral (fun _ ↦ .receipt) fun written ↦ ?_
    cases written with
    | error err => exact hlost _
    | ok v => exact hsent connection e'

/-- An installed connection gets the tracking of its session opened. -/
theorem setConnection_spec {connection : Nat} {e e' : Multiset Tok} {k : SessionId → Task α}
    (hP : ∀ sid, P sid) (hnumbered : m.registry.numbered = true)
    (hm : ∀ sid, Moves cfg m t (.slotInstall connection) sid e ({.registry (.unopened sid)} + e'))
    (he' : ∀ x ∈ e', x.Within t P) (h : ∀ sid, Keeps cfg m t P Q (k sid) (e' + F)) :
    Keeps cfg m t P Q (setConnection connection >>= k) (e + F) := by
  simp only [setConnection, Prog.perform_bind, Prog.act_bind]
  refine keeps_move fun sid ↦ ⟨_, hm sid, ?_, ?_⟩
  · intro x hx
    obtain hx | hx := Multiset.mem_add.mp hx
    · rw [Multiset.mem_singleton.mp hx]
      exact hP _
    · exact he' x hx
  refine keeps_neutral (fun _ ↦ .addConnection) fun _ ↦ ?_
  have hopen : Registry.Keeps cfg.registry m.registry t P (fun _ d ↦ d = 0)
      (openSession sid >>= pure) (openFor m.registry sid + 0) :=
    openSession_spec (follows_ret rfl)
  rw [bind_pure, add_zero, openFor, if_pos hnumbered] at hopen
  simp only [bind_assoc]
  rw [add_assoc, ← Multiset.map_singleton Tok.registry]
  refine onRegistry_spec hopen fun _ d hd ↦ ?_
  rw [hd, Multiset.map_zero, zero_add]
  exact keeps_neutral (fun _ ↦ .forward) fun _ ↦ h sid

/-- A detached send that needs no token. -/
theorem send_spec {packet : Packet} {k : Except Failure Unit → Task α}
    (hm : m.exclusive = true → packet.header.packetType ≠ .request)
    (h : ∀ r G, Keeps cfg m t P Q (k r) (G + F)) : Keeps cfg m t P Q (send packet >>= k) F := by
  have h0 : ∀ r, Keeps cfg m t P Q (k r) F := by
    intro r
    have h' := h r 0
    rwa [zero_add] at h'
  simp only [send]
  refine resuming_spec (h0 _) ?_
  simp only [Prog.perform_bind, Prog.act_bind]
  refine keeps_gain fun writer ↦ ?_
  cases writer with
  | error err => exact ⟨0, .writerRefused, by simp, h _ 0⟩
  | ok connection =>
    refine ⟨_, .writer, by simp [Tok.Within], ?_⟩
    refine resuming_spec (h _ _) ?_
    simp only [Prog.act_bind]
    refine keeps_move fun enqueued ↦ ?_
    cases enqueued with
    | error err => exact ⟨0, .enqueueRefused, by simp, h _ 0⟩
    | ok v => exact ⟨_, .enqueue hm, by simp [Tok.Within], h _ _⟩

end Specs

end MsgTrans.Client
