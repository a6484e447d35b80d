import MsgTrans.Exchange.Methods
import MsgTrans.Registry.Specs

/-!
# The request exchange of the server: who holds what

The ghost tokens a call of the exchange carries and the rules that move them: those of the registry,
and on top a packet that was taken out of a channel, a respond claim on its way through a completion,
and what is known of that completion. One specification for each method says from which tokens it
runs and which it leaves behind.
-/

namespace MsgTrans.Exchange

open MsgTrans.Wire MsgTrans.Adapters MsgTrans.Base MsgTrans.Registry MsgTrans.Transport
open MsgTrans.Client (Setup Awaited pollReply idSpaceError)

/-- What the server's sessions promise the registry; nothing else calls it. -/
def serverMode : Registry.Mode where
  strict := true
  routed := true
  bound := true
  claimed := true
  numbered := true

/-- The tokens of the exchange's calls. -/
inductive Tok where
  | registry (x : Registry.Tok)
  /-- The call took this packet out of the channel. -/
  | got (channel : Nat) (packet : Packet)
  /-- The call has the completion that this claim is in. -/
  | lent (completion : Nat) (claim : RequestToken)
  /-- The call resolved the claim in this completion so. -/
  | settled (completion : Nat) (writeConfirmed : Bool)
  /-- The call handed a response over with this completion. -/
  | awaits (call completion : Nat) (claim : RequestToken)
  /-- The call was told that the write of this completion is confirmed. -/
  | told (completion : Nat)
  deriving DecidableEq

namespace Tok

/-- The registry's part of a token. -/
def inner? : Tok → Option Registry.Tok
  | .registry x => some x
  | _ => none

/-- The token belongs to a call with this number, which hands over only claims it asks for. -/
def Within (call : Nat) (asks : RequestToken → Prop) : Tok → Prop
  | .registry x => x.Within call fun _ ↦ True
  | .awaits c _ claim => c = call ∧ asks claim
  | _ => True

/-- A call may keep this token when it has returned: a fact, but neither a debt nor a claim. -/
def rest : Tok → Prop
  | .registry x => x.idle ∧ ∀ token, x ≠ .claim token
  | .lent .. => False
  | _ => True

end Tok

/-- The registry's part of the registry's tokens. -/
@[simp] theorem part_registry (d : Multiset Registry.Tok) :
    part Tok.inner? (d.map .registry) = d := by
  have h : ∀ x : Registry.Tok, (Tok.registry x).inner? = some x := fun _ ↦ rfl
  exact part_map h d

/-- What a call leaves behind when it returns. -/
def Rest (G : Multiset Tok) : Prop := ∀ x ∈ G, x.rest

theorem rest_zero : Rest 0 := by simp [Rest]

theorem Rest.add {G H : Multiset Tok} (hG : Rest G) (hH : Rest H) : Rest (G + H) := by
  intro x hx
  obtain hx | hx := Multiset.mem_add.mp hx
  · exact hG x hx
  · exact hH x hx

theorem rest_spare {G : Multiset Registry.Tok} (hG : Spare G) : Rest (G.map .registry) := by
  intro x hx
  obtain ⟨y, hy, rfl⟩ := Multiset.mem_map.mp hx
  refine ⟨hG.idle y hy, fun token heq ↦ ?_⟩
  subst heq
  exact hG _ hy

/-- The token rules of the atomic actions. -/
inductive Moves (cfg : Setup) (call : Nat) :
    (a : Act) → a.Resp → Multiset Tok → Multiset Tok → Prop where
  | registry {a : Registry.Act} {r : a.Resp} {e e' : Multiset Registry.Tok} :
      Registry.Moves cfg.registry serverMode call a r e e' →
      Moves cfg call (.registry a) r (e.map .registry) (e'.map .registry)
  | resume {b : Bool} : Moves cfg call .resume b 0 0
  | generate {sid : SessionId} :
      Moves cfg call .generateSessionId sid 0 {.registry (.unopened sid)}
  | admissionOpen {b : Bool} : Moves cfg call .admissionOpen b 0 0
  | transportsInsert {sid : SessionId} : Moves cfg call (.transportsInsert sid) () 0 0
  | transportsGet {sid : SessionId} {b : Bool} : Moves cfg call (.transportsGet sid) b 0 0
  | transportsRemove {sid : SessionId} : Moves cfg call (.transportsRemove sid) () 0 0
  | handlesInsert {sid : SessionId} : Moves cfg call (.handlesInsert sid) () 0 0
  | handlesGet {sid : SessionId} {b : Bool} : Moves cfg call (.handlesGet sid) b 0 0
  | handlesRemove {sid : SessionId} : Moves cfg call (.handlesRemove sid) () 0 0
  | isConnected {sid : SessionId} {b : Bool} : Moves cfg call (.isConnected sid) b 0 0
  | sendResult {sid : SessionId} {packet : Packet} {sent : Except TransportError Unit} :
      Moves cfg call (.sendResult sid packet) sent 0 0
  | sendEvent {sid : SessionId} {event : TransportEvent} {b : Bool} :
      Moves cfg call (.sendEvent sid event) b 0 0
  | unanswered {channel : Nat} {awaited : Awaited} :
      Moves cfg call (.awaitReply channel) awaited 0 0
  | received {channel : Nat} {packet : Packet} :
      Moves cfg call (.awaitReply channel) (.received packet) 0 {.got channel packet}
  | slotWriter {sid : SessionId} {writer : Except TransportError Unit} :
      Moves cfg call (.slotWriter sid) writer 0 0
  | handOver {sid : SessionId} {packet : Packet} {claim : RequestToken} {completion : Nat} :
      claim.key = .inbound (some sid) packet.header.messageId →
      packet.header.packetType = .response →
      Moves cfg call (.handOver sid packet claim) completion
        ({.registry (.claim claim)} + {.registry (.minted claim)})
        ({.lent completion claim} + ({.awaits call completion claim} +
          {.registry (.minted claim)}))
  | enqueueRefused {item : Outbound} {e : TransportError} :
      Moves cfg call (.enqueue item) (.error e) 0 0
  | enqueue {item : Outbound} :
      Moves cfg call (.enqueue item) (.ok ()) {.lent item.completion item.claim} 0
  | receiptFailed {completion : Nat} {e : TransportError} :
      Moves cfg call (.awaitReceipt completion) (.error e) 0 0
  | receipt {completion : Nat} :
      Moves cfg call (.awaitReceipt completion) (.ok ()) 0 {.told completion}
  | dequeue {item : Outbound} :
      Moves cfg call .dequeue item 0 {.lent item.completion item.claim}
  | write {item : Outbound} {written : Option (Except TransportError Unit)} :
      Moves cfg call (.write item) written 0 0
  | resolveUnsent {claim : RequestToken} {writeConfirmed : Bool} :
      Moves cfg call (.resolve none claim writeConfirmed) () {.registry (.claim claim)}
        {.registry (.resolving claim)}
  | resolve {completion : Nat} {claim : RequestToken} {writeConfirmed : Bool} :
      Moves cfg call (.resolve (some completion) claim writeConfirmed) ()
        {.lent completion claim}
        ({.registry (.resolving claim)} + {.settled completion writeConfirmed})
  | observeFailure {completion : Nat} {e : TransportError} :
      Moves cfg call (.observe completion (.error e)) () 0 0
  | observe {completion : Nat} :
      Moves cfg call (.observe completion (.ok ())) () {.settled completion true}
        {.settled completion true}

/-- Answers that are ruled out: those the registry's rules rule out, and a queued claim that is none
of an inbound request. -/
inductive Refuted : (a : Act) → a.Resp → Multiset Tok → Prop where
  | registry {a : Registry.Act} {r : a.Resp} {d : Multiset Registry.Tok} {F : Multiset Tok} :
      Registry.Refuted serverMode a r d → Refuted (.registry a) r (d.map .registry + F)
  | outward {item : Outbound} {d : Multiset Tok} : item.claim.direction ≠ .inbound →
      Refuted .dequeue item d

/-- The exchange's rules. -/
def rules (cfg : Setup) : Rules Act Act.Resp Tok where
  moves := Moves cfg
  refuted := fun _ ↦ Refuted
  await := fun _ ↦ False
  idle := fun _ ↦ True

/-- The registry's rules inside the exchange's. -/
theorem registry_embeds (cfg : Setup) :
    Embeds (Registry.rules cfg.registry serverMode) (rules cfg) Act.registry (fun _ r ↦ r)
      Tok.registry where
  await := fun _ h ↦ h
  moves := fun _ _ _ _ _ h ↦ .registry h
  refuted := fun _ _ _ _ _ h ↦ .registry h

/-- The program of call `t`, which asks for the claims in `A`, follows the exchange's rules. -/
abbrev Keeps (cfg : Setup) (t : Nat) (A : RequestToken → Prop) {α : Type}
    (Q : α → Multiset Tok → Prop) : Task α → Multiset Tok → Prop :=
  Follows (rules cfg) t (Tok.Within t A) Q

section Specs

variable {cfg : Setup} {t : Nat} {A : RequestToken → Prop} {α β : Type}
  {Q : α → Multiset Tok → Prop} {F : Multiset Tok} {sid : SessionId}

/-- An action that moves no token. -/
theorem keeps_neutral {a : Act} {k : a.Resp → Task α} (hm : ∀ r, Moves cfg t a r 0 0)
    (h : ∀ r, Keeps cfg t A Q (k r) F) : Keeps cfg t A Q (.act a k) F :=
  follows_neutral (fun h' ↦ h') hm h

/-- An action that moves the tokens it is given. -/
theorem keeps_move {a : Act} {k : a.Resp → Task α} {e : Multiset Tok}
    (h : ∀ r, ∃ e', Moves cfg t a r e e' ∧ (∀ x ∈ e', x.Within t A) ∧
      Keeps cfg t A Q (k r) (e' + F)) : Keeps cfg t A Q (.act a k) (e + F) :=
  follows_move (fun h' ↦ h') h

/-- An action that gives up nothing. -/
theorem keeps_gain {a : Act} {k : a.Resp → Task α}
    (h : ∀ r, ∃ e', Moves cfg t a r 0 e' ∧ (∀ x ∈ e', x.Within t A) ∧
      Keeps cfg t A Q (k r) (e' + F)) : Keeps cfg t A Q (.act a k) F :=
  follows_gain (fun h' ↦ h') h

/-- A method of the registry, with what it promises. -/
theorem onRegistry_spec {Q₁ : β → Multiset Registry.Tok → Prop} {p : Registry.Task β}
    {d : Multiset Registry.Tok} {k : β → Task α}
    (h : Registry.Keeps cfg.registry serverMode t (fun _ ↦ True) Q₁ p d)
    (hk : ∀ v d', Q₁ v d' → Keeps cfg t A Q (k v) (d'.map .registry + F)) :
    Keeps cfg t A Q (onRegistry p >>= k) (d.map .registry + F) :=
  Follows.lift_bind (registry_embeds cfg) (fun _ hx ↦ hx) h hk

/-- A method of the registry that needs no token. -/
theorem onRegistry_free {Q₁ : β → Multiset Registry.Tok → Prop} {p : Registry.Task β}
    {k : β → Task α} (h : Registry.Keeps cfg.registry serverMode t (fun _ ↦ True) Q₁ p 0)
    (hk : ∀ v d, Q₁ v d → Keeps cfg t A Q (k v) (d.map .registry + F)) :
    Keeps cfg t A Q (onRegistry p >>= k) F := by
  have h' := onRegistry_spec (F := F) h hk
  rwa [Multiset.map_zero, zero_add] at h'

theorem closeSessionPending_spec {k : Nat → Task α}
    (h : ∀ n, Keeps cfg t A Q (k n) ({.registry (.gone sid)} + F)) :
    Keeps cfg t A Q (onRegistry (closeSessionPending cfg.registry sid) >>= k) F := by
  have hclose : Registry.Keeps cfg.registry serverMode t (fun _ ↦ True) (fun _ d ↦ d = {.gone sid})
      (closeSessionPending cfg.registry sid >>= pure) 0 :=
    Registry.closeSessionPending_spec trivial fun n ↦ by rw [add_zero]; exact follows_ret rfl
  rw [bind_pure] at hclose
  refine onRegistry_free hclose fun n d hd ↦ ?_
  rw [hd, Multiset.map_singleton]
  exact h n

theorem abortRequestToken_spec {token : RequestToken} {k : Bool → Task α}
    (h : ∀ b, Keeps cfg t A Q (k b) F) :
    Keeps cfg t A Q (onRegistry (abortRequestToken token) >>= k) F := by
  have habort : Registry.Keeps cfg.registry serverMode t (fun _ ↦ True) (fun _ d ↦ d = 0)
      (abortRequestToken token >>= pure) 0 :=
    Registry.abortRequestToken_spec trivial fun b ↦ follows_ret rfl
  rw [bind_pure] at habort
  refine onRegistry_free habort fun b d hd ↦ ?_
  rw [hd, Multiset.map_zero, zero_add]
  exact h b

theorem removeSession_spec {k : Unit → Task α}
    (h : Keeps cfg t A Q (k ()) ({.registry (.gone sid)} + F)) :
    Keeps cfg t A Q (removeSession cfg sid >>= k) F := by
  simp only [removeSession, bind_assoc]
  refine closeSessionPending_spec fun _ ↦ ?_
  simp only [Prog.perform_bind]
  refine keeps_neutral (fun _ ↦ .transportsRemove) fun _ ↦ ?_
  exact keeps_neutral (fun _ ↦ .handlesRemove) fun _ ↦ h

theorem rest_gone : Rest {.registry (.gone sid)} := by
  simp [Rest, Tok.rest, Registry.Tok.idle]

theorem pumpTeardown_spec {k : Unit → Task α}
    (h : ∀ G, Rest G → Keeps cfg t A Q (k ()) (G + F)) :
    Keeps cfg t A Q (pumpTeardown cfg sid >>= k) F := by
  simp only [pumpTeardown, bind_assoc]
  refine closeSessionPending_spec fun _ ↦ ?_
  simp only [Prog.perform_bind]
  refine keeps_neutral (fun _ ↦ .transportsGet) fun transport ↦ ?_
  cases transport with
  | false => exact h _ rest_gone
  | true =>
    refine removeSession_spec ?_
    rw [← add_assoc]
    exact h _ (rest_gone.add rest_gone)

/-- A send ends with its result, whatever becomes of the session. -/
theorem finishSend_spec {sent : Except TransportError Unit} {k : Except Failure Unit → Task α}
    (h : ∀ r G, Rest G → Keeps cfg t A Q (k r) (G + F)) :
    Keeps cfg t A Q (finishSend cfg sid sent >>= k) F := by
  have h0 : ∀ r, Keeps cfg t A Q (k r) F := fun r ↦ by
    have h' := h r 0 rest_zero
    rwa [zero_add] at h'
  cases sent with
  | ok u => exact h0 _
  | error e =>
    by_cases hdead : isConnectionDead e = true
    · simp only [finishSend, hdead, if_true, bind_assoc]
      exact removeSession_spec (h _ _ rest_gone)
    · simp only [finishSend, hdead, Bool.false_eq_true, if_false]
      exact h0 _

/-- Before its await a call may be dropped. -/
private theorem resuming_spec {rest : Task (Except Failure β)} {k : Except Failure β → Task α}
    (hdropped : Keeps cfg t A Q (k (.error .cancelled)) F)
    (hresumed : Keeps cfg t A Q (rest >>= k) F) : Keeps cfg t A Q (resuming rest >>= k) F := by
  simp only [resuming, Prog.perform_bind, Prog.act_bind]
  refine keeps_neutral (fun _ ↦ .resume) fun resumed ↦ ?_
  cases resumed with
  | false => exact hdropped
  | true => exact hresumed

theorem sendToSession_spec {packet : Packet} {k : Except Failure Unit → Task α}
    (h : ∀ r G, Rest G → Keeps cfg t A Q (k r) (G + F)) :
    Keeps cfg t A Q (sendToSession cfg sid packet >>= k) F := by
  have h0 : ∀ r, Keeps cfg t A Q (k r) F := fun r ↦ by
    have h' := h r 0 rest_zero
    rwa [zero_add] at h'
  have hsend : Keeps cfg t A Q (op (.sendResult sid packet) >>= fun sent ↦
      finishSend cfg sid sent >>= k) F :=
    keeps_neutral (fun _ ↦ .sendResult) fun sent ↦ finishSend_spec h
  simp only [sendToSession, Prog.perform_bind, Prog.act_bind]
  refine keeps_neutral (fun _ ↦ .handlesGet) fun handle ↦ ?_
  cases handle with
  | true => exact resuming_spec (h0 _) hsend
  | false =>
    simp only [Bool.false_eq_true, if_false, Prog.act_bind]
    refine keeps_neutral (fun _ ↦ .transportsGet) fun transport ↦ ?_
    cases transport with
    | false => exact h0 _
    | true =>
      refine resuming_spec (h0 _) ?_
      simp only [Prog.act_bind]
      refine keeps_neutral (fun _ ↦ .isConnected) fun connected ↦ ?_
      cases connected with
      | true => exact resuming_spec (h0 _) hsend
      | false =>
        simp only [Bool.false_eq_true, if_false, bind_assoc]
        exact removeSession_spec (h _ _ rest_gone)

/-- A wait for a response ends with what was in the channel, or with an error. -/
theorem awaitResponse_spec {channel : Nat} {token : RequestToken} {timeout : Duration}
    {k : Except Failure Packet → Task α} (herror : ∀ e, Keeps cfg t A Q (k (.error e)) F)
    (hok : ∀ packet, Keeps cfg t A Q (k (.ok packet)) ({.got channel packet} + F)) :
    Keeps cfg t A Q (awaitResponse channel token timeout >>= k) F := by
  simp only [awaitResponse, Prog.perform_bind, Prog.act_bind]
  refine keeps_neutral (fun _ ↦ .resume) fun resumed ↦ ?_
  cases resumed with
  | false =>
    simp only [Bool.false_eq_true, if_false, bind_assoc]
    exact abortRequestToken_spec fun _ ↦ herror _
  | true =>
    simp only [if_true, Prog.act_bind]
    refine keeps_gain fun awaited ↦ ?_
    cases awaited with
    | received packet => exact ⟨_, .received, by simp [Tok.Within], hok packet⟩
    | closed | timedOut =>
      refine ⟨0, .unanswered, by simp, ?_⟩
      rw [zero_add]
      simp only [bind_assoc]
      exact abortRequestToken_spec fun _ ↦ herror _

private theorem registers {id : UInt32} {bizType : UInt8} {timeout : Duration} :
    Registry.Keeps cfg.registry serverMode t (fun _ ↦ True)
      (fun v d ↦ (∀ e, v = .error e → Spare d) ∧ ∀ channel token, v = .ok (channel, token) →
        channel = token.generation ∧ token.key = .outbound (some sid) id ∧ d = {.minted token})
      (tryRegisterWaiter cfg.registry id (some sid) bizType timeout) {.id sid id} := by
  have h : Registry.Keeps cfg.registry serverMode t (fun _ ↦ True)
      (fun v d ↦ (∀ e, v = .error e → Spare d) ∧ ∀ channel token, v = .ok (channel, token) →
        channel = token.generation ∧ token.key = .outbound (some sid) id ∧ d = {.minted token})
      (tryRegisterWaiter cfg.registry id (some sid) bizType timeout >>= pure)
      (idFor serverMode (.outbound (some sid) id) + 0) := by
    refine tryRegisterWaiter_leaves trivial (by simp) (fun e G hG ↦ ?_) fun token hkey ↦ ?_
    · rw [add_zero]
      exact follows_ret ⟨fun _ _ ↦ hG, fun channel token hv ↦ by cases hv⟩
    · refine follows_ret ⟨fun e hv ↦ (by cases hv), fun channel token' hv ↦ ?_⟩
      cases hv
      exact ⟨rfl, hkey, add_zero _⟩
  rwa [bind_pure, add_zero] at h

/-- A registered request is answered with a packet from its channel, or it fails. -/
theorem sendAndAwait_spec {packet : Packet} {channel : Nat} {token : RequestToken}
    {timeout : Duration} {k : Except Failure Packet → Task α}
    (herror : ∀ e G, Rest G → Keeps cfg t A Q (k (.error e)) (G + F))
    (hok : ∀ response G, Rest G →
      Keeps cfg t A Q (k (.ok response)) ({.got channel response} + (G + F))) :
    Keeps cfg t A Q (sendAndAwait cfg sid packet channel token timeout >>= k) F := by
  simp only [sendAndAwait, bind_assoc]
  refine sendToSession_spec fun sent G hG ↦ ?_
  cases sent with
  | error e =>
    simp only [bind_assoc]
    exact abortRequestToken_spec fun _ ↦ herror e G hG
  | ok u => exact awaitResponse_spec (fun e ↦ herror e G hG) fun response ↦ hok response G hG

/-- A request whose id its call drew is registered under that id, and what it is answered with comes
from the channel of that registration. -/
theorem requestToSession_spec {packet : Packet} {timeout : Duration}
    {k : Except Failure Packet → Task α}
    (herror : ∀ e G, Rest G → Keeps cfg t A Q (k (.error e)) (G + F))
    (hok : ∀ response token G, token.key = .outbound (some sid) packet.header.messageId → Rest G →
      Keeps cfg t A Q (k (.ok response))
        ({.got token.generation response} + (G + ({.registry (.minted token)} + F)))) :
    Keeps cfg t A Q (requestToSession cfg sid packet timeout >>= k)
      ({.registry (.id sid packet.header.messageId)} + F) := by
  have hid : Rest {.registry (.id sid packet.header.messageId)} := by
    simp [Rest, Tok.rest, Registry.Tok.idle]
  simp only [requestToSession, Prog.perform_bind, Prog.act_bind]
  refine keeps_neutral (fun _ ↦ .transportsGet) fun transport ↦ ?_
  cases transport with
  | false => exact herror _ _ hid
  | true =>
    by_cases hrequest : packet.header.packetType = .request
    swap
    · simp only [if_true, if_neg hrequest]
      exact herror _ _ hid
    simp only [if_true, if_pos hrequest, bind_assoc]
    rw [← Multiset.map_singleton Tok.registry]
    refine onRegistry_spec registers fun registered d hd ↦ ?_
    cases registered with
    | error e => exact herror _ _ (rest_spare (hd.1 e rfl))
    | ok pair =>
      obtain ⟨channel, token⟩ := pair
      obtain ⟨rfl, hkey, rfl⟩ := hd.2 channel token rfl
      rw [Multiset.map_singleton]
      refine sendAndAwait_spec (fun e G hG ↦ ?_) fun response G hG ↦ hok response token G hkey hG
      rw [← add_assoc]
      refine herror e _ (hG.add ?_)
      simp [Rest, Tok.rest, Registry.Tok.idle]

private theorem draws : Registry.Keeps cfg.registry serverMode t (fun _ ↦ True)
    (fun v d ↦ (v = none → Spare d) ∧ ∀ id, v = some id → d = {.id sid id})
    (nextRequestId (some sid)) 0 := by
  have h : Registry.Keeps cfg.registry serverMode t (fun _ ↦ True)
      (fun v d ↦ (v = none → Spare d) ∧ ∀ id, v = some id → d = {.id sid id})
      (nextRequestId (some sid) >>= pure) 0 := by
    refine nextRequestId_leaves trivial (fun G hG ↦ ?_) (fun hnone ↦ by cases hnone)
      fun sid' id hsome ↦ ?_
    · rw [add_zero]
      exact follows_ret ⟨fun _ ↦ hG, fun id hv ↦ by cases hv⟩
    · cases hsome
      refine follows_ret ⟨fun hv ↦ (by cases hv), fun id' hv ↦ ?_⟩
      cases hv
      exact add_zero _
  rwa [bind_pure] at h

/-- An id is drawn for the session, or the request fails at once. -/
private theorem allocate_spec {k : Option UInt32 → Task α}
    (hnone : ∀ G, Rest G → Keeps cfg t A Q (k none) (G + F))
    (hsome : ∀ id, Keeps cfg t A Q (k (some id)) ({.registry (.id sid id)} + F)) :
    Keeps cfg t A Q (onRegistry (nextRequestId (some sid)) >>= k) F := by
  refine onRegistry_free draws fun id d hd ↦ ?_
  cases id with
  | none => exact hnone _ (rest_spare (hd.1 rfl))
  | some id =>
    rw [hd.2 id rfl, Multiset.map_singleton]
    exact hsome id

/-- What a request leaves behind that was answered with this packet. -/
def Answered (sid : SessionId) (response : Packet) (d : Multiset Tok) : Prop :=
  ∃ token : RequestToken, token.direction = .outbound ∧ token.sessionId = some sid ∧
    .registry (.minted token) ∈ d ∧ .got token.generation response ∈ d

private theorem answered_of_token {response : Packet} {token : RequestToken} {id : UInt32}
    (hkey : token.key = .outbound (some sid) id) (G : Multiset Tok) :
    Answered sid response
      ({.got token.generation response} + (G + ({.registry (.minted token)} + F))) := by
  refine ⟨token, ?_, ?_, by simp, by simp⟩
  · rw [← RequestToken.direction_key, hkey]
    rfl
  · rw [← RequestToken.sessionId_key, hkey]
    rfl

private theorem rest_answered {response : Packet} {token : RequestToken} {G : Multiset Tok}
    (hG : Rest G) :
    Rest ({.got token.generation response} + (G + {.registry (.minted token)})) := by
  have hgot : Rest {.got token.generation response} := by simp [Rest, Tok.rest]
  have hminted : Rest {.registry (.minted token)} := by simp [Rest, Tok.rest, Registry.Tok.idle]
  exact hgot.add (hG.add hminted)

section Requests

variable {data : Bytes} {k : Except Failure Bytes → Task α}
  (herror : ∀ e G, Rest G → Keeps cfg t A Q (k (.error e)) G)
  (hok : ∀ response G, Rest G → Answered sid response G →
    Keeps cfg t A Q (k (.ok response.payload)) G)

include herror hok

-- The packet of a request carries the id that was drawn for it.
private theorem respondTo_spec {packet : Packet} {timeout : Duration} {id : UInt32}
    (hid : packet.header.messageId = id) :
    Keeps cfg t A Q (requestToSession cfg sid packet timeout >>= fun response ↦
      k (response.map fun packet ↦ packet.payload)) ({.registry (.id sid id)} + 0) := by
  subst hid
  refine requestToSession_spec (fun e G hG ↦ ?_) fun response token G hkey hG ↦ ?_
  · rw [add_zero]
    exact herror e G hG
  · refine hok response _ ?_ (answered_of_token hkey G)
    rw [add_zero]
    exact rest_answered hG

theorem request_spec : Keeps cfg t A Q (request cfg sid data >>= k) 0 := by
  simp only [request, bind_assoc]
  refine allocate_spec (fun G hG ↦ ?_) fun id ↦ ?_
  · rw [add_zero]
    exact herror _ G hG
  · simp only [bind_assoc]
    exact respondTo_spec herror hok rfl

theorem requestWithOptions_spec {options : SendOptions} {timeout : Option Duration} :
    Keeps cfg t A Q (requestWithOptions cfg sid data options timeout >>= k) 0 := by
  simp only [requestWithOptions, bind_assoc]
  refine allocate_spec (fun G hG ↦ ?_) fun id ↦ ?_
  · rw [add_zero]
    exact herror _ G hG
  · cases happly : options.applyOver cfg.codecs (.request id data) 0 with
    | error e =>
      simp only [happly]
      refine herror _ _ ?_
      simp [Rest, Tok.rest, Registry.Tok.idle]
    | ok packet =>
      simp only [happly, bind_assoc]
      exact respondTo_spec herror hok (applyOver_header happly).1

end Requests

private theorem nextOnewayId_spec {k : UInt32 → Task α} (h : ∀ id, Keeps cfg t A Q (k id) F) :
    Keeps cfg t A Q (onRegistry nextOnewayId >>= k) F := by
  have hid : Registry.Keeps cfg.registry serverMode t (fun _ ↦ True) (fun _ d ↦ d = 0)
      nextOnewayId 0 := Registry.keeps_neutral (fun _ ↦ .onewayId) fun _ ↦ follows_ret rfl
  refine onRegistry_free hid fun id d hd ↦ ?_
  rw [hd, Multiset.map_zero, zero_add]
  exact h id

theorem send_spec {data : Bytes} {k : Except Failure UInt32 → Task α}
    (h : ∀ r G, Rest G → Keeps cfg t A Q (k r) (G + F)) :
    Keeps cfg t A Q (send cfg sid data >>= k) F := by
  simp only [send, bind_assoc]
  exact nextOnewayId_spec fun id ↦ sendToSession_spec fun sent G hG ↦ h _ G hG

theorem sendWithOptions_spec {data : Bytes} {options : SendOptions}
    {k : Except Failure UInt32 → Task α} (h : ∀ r G, Rest G → Keeps cfg t A Q (k r) (G + F)) :
    Keeps cfg t A Q (sendWithOptions cfg sid data options >>= k) F := by
  simp only [sendWithOptions, bind_assoc]
  refine nextOnewayId_spec fun id ↦ ?_
  cases happly : options.applyOver cfg.codecs (.oneWay id data) 0 with
  | error e =>
    have h' := h (.error (.error e)) 0 rest_zero
    rwa [zero_add] at h'
  | ok packet =>
    simp only [bind_assoc]
    exact sendToSession_spec fun sent G hG ↦ h _ G hG

theorem forwardEvent_spec {event : TransportEvent} {k : Bool → Task α}
    (h : ∀ keep, Keeps cfg t A Q (k keep) F) :
    Keeps cfg t A Q (forwardEvent sid event >>= k) F := by
  simp only [forwardEvent, Prog.perform_bind, Prog.act_bind]
  refine keeps_neutral (fun _ ↦ .resume) fun resumed ↦ ?_
  cases resumed with
  | false => exact h _
  | true =>
    simp only [if_true, Prog.act_bind]
    refine keeps_neutral (fun _ ↦ .sendEvent) fun sent ↦ ?_
    cases event with
    | data event => exact h _
    | connectionClosed reason => exact h _

/-- The response packet that an event hands to `complete_waiter`. -/
def arrivalFor (call : Nat) (sid : SessionId) : TransportEvent → Multiset Tok
  | .data (.messageReceived packet) =>
    if packet.header.packetType = .response then
      {.registry (.response call (some sid) packet.header.messageId packet false)}
    else 0
  | _ => 0

private theorem completes {id : UInt32} {packet : Packet} :
    Registry.Keeps cfg.registry serverMode t (fun _ ↦ True)
      (fun _ d ↦ ∃ used, d = {.response t (some sid) id packet used})
      (completeWaiter (some sid) id packet) {.response t (some sid) id packet false} := by
  have h : Registry.Keeps cfg.registry serverMode t (fun _ ↦ True)
      (fun _ d ↦ ∃ used, d = {.response t (some sid) id packet used})
      (completeWaiter (some sid) id packet >>= pure)
      (responseFor serverMode t (some sid) id packet false + 0) :=
    completeWaiter_spec trivial (follows_ret ⟨false, add_zero _⟩) (follows_ret ⟨true, add_zero _⟩)
  rwa [bind_pure, add_zero] at h

theorem pumpOneEvent_spec {event : TransportEvent} {k : Bool → Task α}
    (h : ∀ keep G, Rest G → Keeps cfg t A Q (k keep) (G + F)) :
    Keeps cfg t A Q (pumpOneEvent sid event >>= k) (arrivalFor t sid event + F) := by
  have h0 : ∀ keep, Keeps cfg t A Q (k keep) (0 + F) := fun keep ↦ h keep 0 rest_zero
  cases event with
  | connectionClosed reason => exact forwardEvent_spec h0
  | data event =>
    cases event with
    | messageReceived packet =>
      by_cases hresponse : packet.header.packetType = .response
      · simp only [pumpOneEvent, arrivalFor, if_pos hresponse, bind_assoc]
        rw [← Multiset.map_singleton Tok.registry]
        refine onRegistry_spec completes fun completed d hd ↦ ?_
        obtain ⟨used, rfl⟩ := hd
        rw [Multiset.map_singleton]
        have hrest : Rest {.registry (.response t (some sid) packet.header.messageId packet
            used)} := by
          simp [Rest, Tok.rest, Registry.Tok.idle]
        cases completed with
        | true => exact h _ _ hrest
        | false => exact forwardEvent_spec fun keep ↦ h keep _ hrest
      · simp only [pumpOneEvent, arrivalFor, if_neg hresponse]
        exact forwardEvent_spec h0
    | _ => exact forwardEvent_spec h0

theorem addSession_spec {k : SessionId → Task α}
    (h : ∀ sid G, Rest G → Keeps cfg t A Q (k sid) (G + F)) :
    Keeps cfg t A Q (addSession >>= k) F := by
  have hopens : ∀ sid, Registry.Keeps cfg.registry serverMode t (fun _ ↦ True) (fun _ d ↦ d = 0)
      (openSession sid) {.unopened sid} := by
    intro sid
    have h' : Registry.Keeps cfg.registry serverMode t (fun _ ↦ True) (fun _ d ↦ d = 0)
        (openSession sid >>= pure) (openFor serverMode sid + 0) :=
      openSession_spec (follows_ret rfl)
    rwa [bind_pure, add_zero] at h'
  simp only [addSession, Prog.perform_bind, Prog.act_bind]
  refine keeps_gain fun sid ↦ ⟨_, .generate, by simp [Tok.Within, Registry.Tok.Within], ?_⟩
  refine keeps_neutral (fun _ ↦ .admissionOpen) fun isOpen ↦ ?_
  cases isOpen with
  | false =>
    refine h sid _ ?_
    simp [Rest, Tok.rest, Registry.Tok.idle]
  | true =>
    simp only [if_true, Prog.act_bind]
    refine keeps_neutral (fun _ ↦ .transportsInsert) fun _ ↦ ?_
    simp only [bind_assoc]
    rw [← Multiset.map_singleton Tok.registry]
    refine onRegistry_spec (hopens sid) fun _ d hd ↦ ?_
    rw [hd, Multiset.map_zero]
    simp only [Prog.act_bind]
    exact keeps_neutral (fun _ ↦ .handlesInsert) fun _ ↦ h sid 0 rest_zero

theorem scanTimeoutBucket_spec {k : Nat → Task α} (h : ∀ n, Keeps cfg t A Q (k n) F) :
    Keeps cfg t A Q (onRegistry (scanTimeoutBucket cfg.registry) >>= k) F := by
  have hscan : Registry.Keeps cfg.registry serverMode t (fun _ ↦ True) (fun _ d ↦ d = 0)
      (scanTimeoutBucket cfg.registry >>= pure) 0 :=
    Registry.scanTimeoutBucket_spec (fun _ ↦ trivial) fun _ ↦ follows_ret rfl
  rw [bind_pure] at hscan
  refine onRegistry_free hscan fun n d hd ↦ ?_
  rw [hd, Multiset.map_zero, zero_add]
  exact h n

section Claims

variable {claim : RequestToken} {writeConfirmed : Bool}

private theorem finishes (hin : claim.direction = .inbound) :
    Registry.Keeps cfg.registry serverMode t (fun _ ↦ True) (fun _ d ↦ d = 0)
      (finishRespond claim writeConfirmed) {.resolving claim} := by
  have h : Registry.Keeps cfg.registry serverMode t (fun _ ↦ True) (fun _ d ↦ d = 0)
      (finishRespond claim writeConfirmed >>= pure) (claimFor serverMode claim + 0) :=
    finishRespond_spec trivial (fun _ ↦ hin) fun _ ↦ follows_ret rfl
  rwa [bind_pure, add_zero] at h

private theorem finish_spec {k : MarkResult → Task α} (hin : claim.direction = .inbound)
    (h : ∀ r, Keeps cfg t A Q (k r) F) :
    Keeps cfg t A Q (onRegistry (finishRespond claim writeConfirmed) >>= k)
      ({.registry (.resolving claim)} + F) := by
  rw [← Multiset.map_singleton Tok.registry]
  refine onRegistry_spec (finishes hin) fun r d hd ↦ ?_
  rw [hd, Multiset.map_zero, zero_add]
  exact h r

/-- A claim that is in no completion is resolved by its holder. -/
theorem resolveUnsent_spec {k : Unit → Task α} (hin : claim.direction = .inbound)
    (h : Keeps cfg t A Q (k ()) F) :
    Keeps cfg t A Q (resolveClaim none claim writeConfirmed >>= k)
      ({.registry (.claim claim)} + F) := by
  simp only [resolveClaim, Prog.perform_bind, Prog.act_bind, bind_assoc]
  refine keeps_move fun _ ↦ ⟨_, .resolveUnsent, by simp [Tok.Within, Registry.Tok.Within], ?_⟩
  exact finish_spec hin fun _ ↦ h

/-- A claim in a completion is resolved by whoever has the completion. -/
theorem resolveLent_spec {completion : Nat} {k : Unit → Task α} (hin : claim.direction = .inbound)
    (h : Keeps cfg t A Q (k ()) ({.settled completion writeConfirmed} + F)) :
    Keeps cfg t A Q (resolveClaim (some completion) claim writeConfirmed >>= k)
      ({.lent completion claim} + F) := by
  simp only [resolveClaim, Prog.perform_bind, Prog.act_bind, bind_assoc]
  refine keeps_move fun _ ↦ ⟨_, .resolve, by simp [Tok.Within, Registry.Tok.Within], ?_⟩
  rw [add_assoc]
  exact finish_spec hin fun _ ↦ h

theorem awaitReceipt_spec {completion : Nat} {k : Except Failure Unit → Task α}
    (herror : ∀ e, Keeps cfg t A Q (k (.error e)) F)
    (hok : Keeps cfg t A Q (k (.ok ())) ({.told completion} + F)) :
    Keeps cfg t A Q (awaitReceipt completion >>= k) F := by
  simp only [awaitReceipt]
  refine resuming_spec (herror _) ?_
  simp only [Prog.perform_bind, Prog.act_bind]
  refine keeps_gain fun receipt ↦ ?_
  cases receipt with
  | ok u => exact ⟨_, .receipt, by simp [Tok.Within], hok⟩
  | error e => exact ⟨0, .receiptFailed, by simp, by rw [zero_add]; exact herror _⟩

/-- What a response leaves behind whose write was confirmed. -/
def Written (call : Nat) (claim : RequestToken) (d : Multiset Tok) : Prop :=
  ∃ completion, .awaits call completion claim ∈ d ∧ .told completion ∈ d

/-- A response that was handed over with its claim is written, or its claim is resolved. -/
theorem sendWithCompletion_spec {packet : Packet} {k : Except Failure Unit → Task α}
    (hkey : claim.key = .inbound (some sid) packet.header.messageId)
    (htype : packet.header.packetType = .response) (hasks : A claim)
    (herror : ∀ e G, Rest G → Keeps cfg t A Q (k (.error e)) (G + F))
    (hok : ∀ G, Rest G → Written t claim G → Keeps cfg t A Q (k (.ok ())) (G + F)) :
    Keeps cfg t A Q (sendWithCompletion sid packet claim >>= k)
      ({.registry (.claim claim)} + ({.registry (.minted claim)} + F)) := by
  have hin : claim.direction = .inbound := by
    rw [← RequestToken.direction_key, hkey]
    rfl
  have hminted : Rest {.registry (.minted claim)} := by simp [Rest, Tok.rest, Registry.Tok.idle]
  simp only [sendWithCompletion, Prog.perform_bind, Prog.act_bind]
  rw [← add_assoc]
  refine keeps_move fun completion ↦ ⟨_, .handOver hkey htype, ?_, ?_⟩
  · simp [Tok.Within, Registry.Tok.Within, hasks]
  have hawaits : Rest ({.awaits t completion claim} + {.registry (.minted claim)}) := by
    have h' : Rest {.awaits t completion claim} := by simp [Rest, Tok.rest]
    exact h'.add hminted
  -- The completion that comes back is dropped.
  have hdropped : ∀ e, Keeps cfg t A Q (resolveClaim (some completion) claim false >>= fun _ ↦
      k (.error e)) ({.lent completion claim} +
        ({.awaits t completion claim} + {.registry (.minted claim)} + F)) := by
    intro e
    refine resolveLent_spec hin ?_
    rw [← add_assoc]
    have hsettled : Rest {.settled completion false} := by simp [Rest, Tok.rest]
    exact herror e _ (hsettled.add hawaits)
  rw [add_assoc]
  refine keeps_neutral (fun _ ↦ .resume) fun resumed ↦ ?_
  cases resumed with
  | false =>
    simp only [Bool.false_eq_true, if_false, bind_assoc]
    exact hdropped _
  | true =>
    simp only [if_true, Prog.act_bind]
    refine follows_act (fun h' ↦ h') fun enqueued ↦ ?_
    cases enqueued with
    | error e =>
      refine ⟨0, 0, _, (zero_add _).symm, .enqueueRefused, by simp, ?_⟩
      rw [zero_add]
      simp only [bind_assoc]
      exact hdropped _
    | ok u =>
      refine ⟨_, 0, _, rfl, .enqueue, by simp, ?_⟩
      rw [zero_add]
      refine awaitReceipt_spec (fun e ↦ herror e _ hawaits) ?_
      rw [← add_assoc]
      have htold : Rest {.told completion} := by simp [Rest, Tok.rest]
      exact hok _ (htold.add hawaits) ⟨completion, by simp, by simp⟩

/-- A response is sent with its claim, or the claim is resolved. -/
theorem sendConfirmedWith_spec {packet : Packet} {k : Except Failure Unit → Task α}
    (hkey : claim.key = .inbound (some sid) packet.header.messageId)
    (htype : packet.header.packetType = .response) (hasks : A claim)
    (herror : ∀ e G, Rest G → Keeps cfg t A Q (k (.error e)) (G + F))
    (hok : ∀ G, Rest G → Written t claim G → Keeps cfg t A Q (k (.ok ())) (G + F)) :
    Keeps cfg t A Q (sendConfirmedWith sid packet claim >>= k)
      ({.registry (.claim claim)} + ({.registry (.minted claim)} + F)) := by
  have hin : claim.direction = .inbound := by
    rw [← RequestToken.direction_key, hkey]
    rfl
  have hdropped : ∀ e, Keeps cfg t A Q (resolveClaim none claim false >>= fun _ ↦ k (.error e))
      ({.registry (.claim claim)} + ({.registry (.minted claim)} + F)) := by
    intro e
    refine resolveUnsent_spec hin (herror e _ ?_)
    simp [Rest, Tok.rest, Registry.Tok.idle]
  simp only [sendConfirmedWith, Prog.perform_bind, Prog.act_bind]
  refine keeps_neutral (fun _ ↦ .resume) fun resumed ↦ ?_
  cases resumed with
  | false =>
    simp only [Bool.false_eq_true, if_false, bind_assoc]
    exact hdropped _
  | true =>
    simp only [if_true, Prog.act_bind]
    refine keeps_neutral (fun _ ↦ .slotWriter) fun writer ↦ ?_
    cases writer with
    | error e =>
      simp only [bind_assoc]
      exact hdropped _
    | ok u => exact sendWithCompletion_spec hkey htype hasks herror hok

private theorem begins : Registry.Keeps cfg.registry serverMode t (fun _ ↦ True)
    (fun v d ↦ (v = .updated → d = {.claim claim} + {.minted claim}) ∧
      (v ≠ .updated → d = {.minted claim}))
    (beginRespond claim) {.minted claim} := by
  have h : Registry.Keeps cfg.registry serverMode t (fun _ ↦ True)
      (fun v d ↦ (v = .updated → d = {.claim claim} + {.minted claim}) ∧
        (v ≠ .updated → d = {.minted claim}))
      (beginRespond claim >>= pure) (mintFor serverMode claim + 0) := by
    refine beginRespond_spec trivial (follows_ret ⟨fun _ ↦ rfl, fun hne ↦ absurd rfl hne⟩)
      fun r hr ↦ follows_ret ⟨fun heq ↦ absurd heq hr, fun _ ↦ rfl⟩
  rwa [bind_pure, add_zero] at h

/-- A response to a registered request is written, or the claim it took is resolved. -/
theorem respond_spec {bizType : UInt8} {data : Bytes} {options : SendOptions}
    {k : Except Failure RespondOutcome → Task α}
    (hkey : claim.key = .inbound (some sid) claim.requestId) (hasks : A claim)
    (hother : ∀ r G, r ≠ .ok .written → Rest G → Keeps cfg t A Q (k r) (G + F))
    (hwritten : ∀ G, Rest G → Written t claim G → Keeps cfg t A Q (k (.ok .written)) (G + F)) :
    Keeps cfg t A Q (respond cfg sid claim bizType data options >>= k)
      ({.registry (.minted claim)} + F) := by
  have hin : claim.direction = .inbound := by
    rw [← RequestToken.direction_key, hkey]
    rfl
  have hminted : Rest {.registry (.minted claim)} := by simp [Rest, Tok.rest, Registry.Tok.idle]
  simp only [respond, bind_assoc]
  rw [← Multiset.map_singleton Tok.registry]
  refine onRegistry_spec begins fun begun d hd ↦ ?_
  by_cases hbegun : begun = .updated
  swap
  · rw [hd.2 hbegun, if_neg hbegun, Multiset.map_singleton]
    exact hother _ _ (by simp) hminted
  rw [hd.1 hbegun, if_pos hbegun, Multiset.map_add, Multiset.map_singleton,
    Multiset.map_singleton, add_assoc]
  cases happly : options.applyOver cfg.codecs (responseWithBiz claim.requestId bizType data)
      bizType with
  | error e =>
    simp only [bind_assoc]
    exact resolveUnsent_spec hin (hother _ _ (by simp) hminted)
  | ok packet =>
    simp only [bind_assoc]
    obtain ⟨hid, htype⟩ := applyOver_header happly
    refine sendConfirmedWith_spec (by rw [hid]; exact hkey) htype hasks (fun e G hG ↦ ?_)
      fun G hG hw ↦ hwritten G hG hw
    exact hother _ G (by simp [Except.map]) hG

theorem respondWithOptions_spec {bizType : UInt8} {data : Bytes} {options : SendOptions}
    {k : Except Failure RespondOutcome → Task α}
    (hkey : claim.key = .inbound (some sid) claim.requestId) (hasks : A claim)
    (hother : ∀ r G, r ≠ .ok .written → Rest G → Keeps cfg t A Q (k r) (G + F))
    (hwritten : ∀ G, Rest G → Written t claim G → Keeps cfg t A Q (k (.ok .written)) (G + F)) :
    Keeps cfg t A Q (respondWithOptions cfg sid claim bizType data options >>= k)
      ({.registry (.minted claim)} + F) := by
  simp only [respondWithOptions, bind_assoc]
  exact respond_spec hkey hasks (fun r G hr hG ↦ abortRequestToken_spec fun _ ↦ hother r G hr hG)
    fun G hG hw ↦ abortRequestToken_spec fun _ ↦ hwritten G hG hw

private theorem accepts {id : UInt32} {bizType : UInt8} {timeout : Duration} :
    Registry.Keeps cfg.registry serverMode t (fun _ ↦ True)
      (fun v d ↦ (v = none → Spare d) ∧ ∀ token, v = some token →
        token.key = .inbound (some sid) id ∧ d = {.minted token})
      (register cfg.registry id (some sid) bizType timeout) 0 := by
  have hid : idFor serverMode (.inbound (some sid) id) = 0 := rfl
  have h : Registry.Keeps cfg.registry serverMode t (fun _ ↦ True)
      (fun v d ↦ (v = none → Spare d) ∧ ∀ token, v = some token →
        token.key = .inbound (some sid) id ∧ d = {.minted token})
      (registerImpl cfg.registry (.inbound (some sid) id) bizType timeout true >>= pure)
      (idFor serverMode (.inbound (some sid) id) + 0) := by
    refine registerImpl_leaves trivial (fun _ _ ↦ rfl) (fun G hG ↦ ?_) fun token hkey ↦ ?_
    · rw [add_zero]
      exact follows_ret ⟨fun _ ↦ hG, fun token hv ↦ by cases hv⟩
    · refine follows_ret ⟨fun hv ↦ (by cases hv), fun token' hv ↦ ?_⟩
      cases hv
      exact ⟨hkey, add_zero _⟩
  rwa [bind_pure, add_zero, hid] at h

/-- A request that a packet makes is registered, and answered at most once. -/
theorem dispatch_spec {packet : Packet} {answer : Option (Bytes × SendOptions)}
    {k : Option (Except Failure RespondOutcome) → Task α}
    (hasks : ∀ token : RequestToken, token.key = .inbound (some sid) packet.header.messageId →
      A token)
    (hother : ∀ r G, r ≠ some (.ok .written) → Rest G → Keeps cfg t A Q (k r) (G + F))
    (hwritten : ∀ claim G, A claim → Rest G → Written t claim G →
      Keeps cfg t A Q (k (some (.ok .written))) (G + F)) :
    Keeps cfg t A Q (dispatch cfg sid packet answer >>= k) F := by
  by_cases hrequest : packet.header.packetType = .request
  swap
  · simp only [dispatch, if_neg hrequest]
    have h' := hother none 0 (by simp) rest_zero
    rwa [zero_add] at h'
  simp only [dispatch, if_pos hrequest, bind_assoc]
  refine onRegistry_free accepts fun token d hd ↦ ?_
  cases token with
  | none => exact hother _ _ (by simp) (rest_spare (hd.1 rfl))
  | some token =>
    obtain ⟨hkey, rfl⟩ := hd.2 token rfl
    have hid : token.requestId = packet.header.messageId := by
      rw [← RequestToken.requestId_key, hkey]
      rfl
    rw [Multiset.map_singleton]
    cases answer with
    | none =>
      simp only [bind_assoc]
      refine abortRequestToken_spec fun _ ↦ hother _ _ (by simp) ?_
      simp [Rest, Tok.rest, Registry.Tok.idle]
    | some pair =>
      simp only [bind_assoc]
      refine respondWithOptions_spec (by rw [hid]; exact hkey) (hasks token hkey)
        (fun r G hr hG ↦ ?_) fun G hG hw ↦ hwritten token G (hasks token hkey) hG hw
      exact hother _ G (by simpa using hr) hG

/-- A write loop resolves the claim of the item it took. -/
theorem writeNext_spec {k : Unit → Task α} (h : ∀ G, Rest G → Keeps cfg t A Q (k ()) (G + F)) :
    Keeps cfg t A Q (writeNext >>= k) F := by
  have hsettled : ∀ completion b, Rest {.settled completion b} := by simp [Rest, Tok.rest]
  simp only [writeNext, Prog.perform_bind, Prog.act_bind]
  refine ⟨fun h' ↦ h'.elim, fun item ↦ ?_⟩
  by_cases hin : item.claim.direction = .inbound
  swap
  · exact .inl (.outward hin)
  refine .inr ⟨0, _, F, (zero_add F).symm, .dequeue, by simp [Tok.Within], ?_⟩
  refine keeps_neutral (fun _ ↦ .write) fun written ↦ ?_
  cases written with
  | none =>
    simp only [Prog.act_bind]
    refine keeps_neutral (fun _ ↦ .observeFailure) fun _ ↦ ?_
    exact resolveLent_spec hin (h _ (hsettled _ _))
  | some result =>
    cases result with
    | ok u =>
      simp only [bind_assoc]
      refine resolveLent_spec hin ?_
      exact keeps_move fun _ ↦ ⟨_, .observe, by simp [Tok.Within], h _ (hsettled _ _)⟩
    | error e =>
      simp only [bind_assoc]
      refine resolveLent_spec hin ?_
      exact keeps_neutral (fun _ ↦ .observeFailure) fun _ ↦ h _ (hsettled _ _)

end Claims

end Specs

end MsgTrans.Exchange
