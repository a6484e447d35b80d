import MsgTrans.Transport.SessionFeed

/-!
# Inbound order of a server session

What the pipe accepted reaches the handler in order and, when the connection ends on its own,
completely (`transport_server.rs:603–650,770–842`, `session_actor.rs:499–673`): the trace of the
actor read against the invariant of the pump.
-/

namespace MsgTrans.Transport

open MsgTrans.Wire MsgTrans.Adapters MsgTrans.Adapters.Events MsgTrans.Base

/-- The packet is a request. -/
def isRequest (packet : Packet) : Bool := packet.header.packetType = .request

/-- The received packet that an effect is about. -/
def Effect.packet? : Effect → Option Packet
  | .onMessage packet | .onRequest packet _ | .refused packet | .unregistered packet => some packet
  | _ => none

/-- The packet of an `on_message` call. -/
def Effect.message? : Effect → Option Packet
  | .onMessage packet => some packet
  | _ => none

/-- The packet of an `on_request` call or of a request whose registration was refused. -/
def Effect.request? : Effect → Option Packet
  | .onRequest packet _ | .refused packet => some packet
  | _ => none

namespace SessionState

/-- The packets that the pipe accepted, in order, less the responses that completed a waiter. -/
def accepted (s : SessionState) : List Packet := deliverable s.completed s.pipe.enqueued

/-- The packets that the handler got or whose registration was refused, in order. -/
def handed (s : SessionState) : List Packet := s.actor.trace.filterMap Effect.packet?

/-- The packets of the `on_message` calls, in order. -/
def messages (s : SessionState) : List Packet := s.actor.trace.filterMap Effect.message?

end SessionState

section Order

variable {cfg : SessionConfig} {s : SessionState}

-- What one message makes the actor do with its packet.
private theorem turn_packets {cfg : ActorConfig} (hregistry : cfg.inboundRegistry = true)
    (mail : Mail) :
    (cfg.turn mail).effects.filterMap Effect.packet? = mail.1.packet?.toList ∧
    (cfg.turn mail).effects.filterMap Effect.message? =
      mail.1.packet?.toList.filter (! isRequest ·) ∧
    (cfg.turn mail).effects.filterMap Effect.request? = mail.1.packet?.toList.filter isRequest := by
  obtain ⟨message, n⟩ := mail
  unfold ActorConfig.turn
  cases message with
  | send packet => exact ⟨rfl, rfl, rfl⟩
  | sendWithReply packet reply => exact ⟨rfl, rfl, rfl⟩
  | inboundEvent event =>
    cases event with
    | connectionClosed reason => exact ⟨rfl, rfl, rfl⟩
    | data event =>
      cases event with
      | messageSent packetId => exact ⟨rfl, rfl, rfl⟩
      | transportError error => exact ⟨rfl, rfl, rfl⟩
      | connectionEstablished => exact ⟨rfl, rfl, rfl⟩
      | messageReceived packet =>
        simp only [handle, ActorMessage.packet?, packetOf, Option.toList_some]
        unfold handlePacket
        split
        next hrequest =>
          split
          · simp [Answer.callback, Effect.packet?, Effect.message?, Effect.request?, isRequest,
              hrequest]
          · simp [Turn.quiet, Effect.packet?, Effect.message?, Effect.request?, isRequest, hrequest]
        next hrequest =>
          simp [Answer.callback, Effect.packet?, Effect.message?, Effect.request?, isRequest,
            hrequest]

-- What the handled messages make the actor do with their packets.
private theorem effects_packets {cfg : ActorConfig} (hregistry : cfg.inboundRegistry = true)
    (mails : List Mail) :
    (cfg.effects mails).filterMap Effect.packet? = packetsOf (mails.map Prod.fst) ∧
    (cfg.effects mails).filterMap Effect.message? =
      (packetsOf (mails.map Prod.fst)).filter (! isRequest ·) ∧
    (cfg.effects mails).filterMap Effect.request? =
      (packetsOf (mails.map Prod.fst)).filter isRequest := by
  induction mails with
  | nil => exact ⟨rfl, rfl, rfl⟩
  | cons mail mails ih =>
    obtain ⟨hpackets, hmessages, hrequests⟩ := turn_packets hregistry mail
    have heffects : cfg.effects (mail :: mails) = (cfg.turn mail).effects ++ cfg.effects mails := rfl
    have hfront : packetsOf ((mail :: mails).map Prod.fst) =
        mail.1.packet?.toList ++ packetsOf (mails.map Prod.fst) := by
      simp only [packetsOf, List.map_cons, List.filterMap_cons]
      cases mail.1.packet? with
      | none => rfl
      | some packet => rfl
    rw [heffects, hfront, List.filterMap_append, List.filterMap_append, List.filterMap_append,
      List.filter_append, List.filter_append, hpackets, hmessages, hrequests, ih.1, ih.2.1, ih.2.2]
    exact ⟨rfl, rfl, rfl⟩

/-- The packets that the handler got are those of the first messages of the mailbox. -/
theorem Flow.handled (h : Flow cfg s) :
    ∃ done, done <+: s.actor.arrived ∧ s.handed = packetsOf done ∧
      s.messages = s.handed.filter (! isRequest ·) ∧
      s.actor.trace.filterMap Effect.request? = s.handed.filter isRequest := by
  obtain ⟨done, hdone, -, htrace⟩ := h.actor.handled
  have hregistry : cfg.actor.inboundRegistry = true := rfl
  obtain ⟨hpackets, hmessages, hrequests⟩ := effects_packets hregistry done
  have hends : ∀ f : Effect → Option Packet, f .onConnected = none →
      (∀ reason, f (.onDisconnected reason) = none) →
        s.actor.trace.filterMap f = (cfg.actor.effects done).filterMap f := by
    intro f hconnected hdisconnected
    have hopening : s.actor.phase.opening.filterMap f = [] := by
      unfold ActorPhase.opening
      split
      · rfl
      · simp [hconnected]
    have hfinal : s.actor.phase.final.filterMap f = [] := by
      unfold ActorPhase.final
      split
      · simp [hdisconnected]
      · rfl
    rw [htrace, List.filterMap_append, List.filterMap_append, hopening, hfinal, List.nil_append,
      List.append_nil]
  have hhanded : s.handed = packetsOf (done.map Prod.fst) :=
    (hends Effect.packet? rfl fun _ ↦ rfl).trans hpackets
  refine ⟨done.map Prod.fst, ?_, hhanded, ?_, ?_⟩
  · have hmap := hdone.map Prod.fst
    rwa [List.zipIdx_map_fst] at hmap
  · rw [hhanded]
    exact (hends Effect.message? rfl fun _ ↦ rfl).trans hmessages
  · rw [hhanded]
    exact (hends Effect.request? rfl fun _ ↦ rfl).trans hrequests

/-- What entered the mailbox are the packets that the pipe accepted first. -/
theorem Flow.forwarded (h : Flow cfg s) : packetsOf s.actor.arrived <+: s.accepted := by
  have htaken : packetsOf s.actor.arrived <+: deliverable s.completed s.pipe.taken := by
    cases hpump : s.pump.stopped with
    | true => exact (h.feed.stopped hpump).front
    | false => exact ⟨_, (h.feed.running hpump).all⟩
  refine htaken.trans ?_
  rw [SessionState.accepted, h.pipe.split, deliverable_append]
  exact List.prefix_append ..

theorem Flow.responses (h : Flow cfg s) : Responses s.completed s.pipe.enqueued := by
  have htaken : Responses s.completed s.pipe.taken := by
    cases hpump : s.pump.stopped with
    | true => exact (h.feed.stopped hpump).responses
    | false => exact (h.feed.running hpump).responses
  intro call hcall
  obtain ⟨packet, hmem, htype⟩ := htaken call hcall
  rw [h.pipe.split]
  exact ⟨packet, List.mem_append.mpr (.inl hmem), htype⟩

-- A close in the mailbox does not let the loop go on.
private theorem not_allContinue {cfg : ActorConfig} {arrived : List ActorMessage}
    {reason : CloseReason} (hmem : .inboundEvent (.connectionClosed reason) ∈ arrived) :
    ¬ cfg.AllContinue arrived.zipIdx := by
  intro hall
  obtain ⟨i, hi⟩ := List.getElem?_of_mem hmem
  have houtcome := hall (_, i) (List.mk_mem_zipIdx_iff_getElem?.mpr hi)
  cases houtcome

/-- When the connection ended on its own, the whole sequence was handed over. -/
theorem Flow.whole (h : Flow cfg s) {reason : CloseReason}
    (hphase : s.actor.phase = .ended (some reason)) (hcancel : s.actor.cancelled = false)
    (hserver : s.serverClosed = false) :
    s.handed = s.accepted ∧ ∃ front, s.actor.trace = front ++ [.onDisconnected reason] := by
  have hstanding := h.actor
  simp only [Standing, hphase] at hstanding
  obtain ⟨done, hexit, htrace⟩ := hstanding
  refine ⟨?_, _, htrace⟩
  have hnotCancelled : ¬ s.actor.cancelled = true := by rw [hcancel]; simp
  -- The trace has the packets of the handled messages.
  have hregistry : cfg.actor.inboundRegistry = true := rfl
  have hhanded : s.handed = packetsOf (done.map Prod.fst) := by
    rw [SessionState.handed, htrace, List.filterMap_append, ← List.append_nil (packetsOf _),
      ← (effects_packets hregistry done).1]
    rfl
  cases hexit with
  | cancelled hc => exact absurd hc hnotCancelled
  | gone hgone hconnect hall =>
    have hstopped : s.pump.stopped = true := by
      cases hpump : s.pump.stopped with
      | true => rfl
      | false =>
        rw [(h.feed.running hpump).senders] at hgone
        cases hgone
    obtain hc | ⟨reason, hmem⟩ | hpanic := (h.feed.stopped hstopped).why
    · exact absurd hc hnotCancelled
    · exact absurd hall (not_allContinue hmem)
    · rw [hphase] at hpanic
      cases hpanic
  | @closed done mail _ hconnect hdone hall hmail =>
    obtain ⟨behind, hbehind⟩ := hdone
    have hsplit : s.actor.arrived = done.map Prod.fst ++
        .inboundEvent (.connectionClosed reason) :: behind.map Prod.fst := by
      rw [← handle_closed hmail, ← List.zipIdx_map_fst 0 s.actor.arrived, ← hbehind]
      simp
    have hstopped : s.pump.stopped = true := by
      cases hpump : s.pump.stopped with
      | true => rfl
      | false =>
        refine absurd ?_ ((h.feed.running hpump).unclosed hserver reason)
        rw [hsplit]
        simp
    obtain ⟨hemitted, hall, hback⟩ := (h.feed.stopped hstopped).closed hserver _ _ _ hsplit
    have hqueue := (h.pipe.done hemitted).1
    rw [SessionState.accepted, h.pipe.split, hqueue, List.append_nil, ← hall, hhanded, hsplit,
      List.map_append, List.map_singleton, handle_closed hmail]
    simp only [packetsOf, List.filterMap_append, List.filterMap_cons] at hback ⊢
    rw [hback]
    rfl

/-- A session whose connection has ended and in which neither the pump nor the actor has a step
left is one whose actor has ended. -/
theorem Flow.quiet (h : Flow cfg s) (hend : s.pipe.cell.isSome = true ∨ s.pipe.dropped = true)
    (hpermits : s.pipe.permits = 0)
    (hquiet : ∀ l, l.own = true → s.step cfg l = none) : s.actor.phase.final ≠ [] := by
  intro hfinal
  -- The actor waits on an empty mailbox.
  have hstuck : s.actor.phase = .waiting ∧ s.actor.mailbox = [] ∧ s.actor.cancelled = false := by
    by_contra hcontra
    obtain ⟨l, hown, hsome⟩ := s.actor.progress cfg.actor batchSize hfinal (by grind)
    have hnone := hquiet (.act l) hown
    simp only [SessionState.step, hown, ↓reduceIte, Option.map_eq_none_iff] at hnone
    rw [hnone] at hsome
    cases hsome
  obtain ⟨hphase, hmailbox, hcancel⟩ := hstuck
  cases hpump : s.pump with
  | idle =>
    have hrun := h.feed.running (by rw [hpump]; rfl)
    have hnext : ¬ s.pipe.inNext = true := by rw [hrun.next, hpump]; simp
    have hnone := hquiet .next rfl
    simp [SessionState.step, hpump, PipeState.step, hnext] at hnone
  | polling =>
    have hrun := h.feed.running (by rw [hpump]; rfl)
    obtain ⟨pipe, hstep | hstep, -⟩ := h.pipe.progress (hrun.next.mpr hpump) hpermits hend
    · have hnone := hquiet .recv rfl
      obtain ⟨_, hrecv, -⟩ := Option.bind_eq_some_iff.mp hstep
      simp only [SessionState.step, SessionState.recv, hpump, Option.map_eq_none_iff] at hnone
      cases hnone.symm.trans hrecv
    · have hnone := hquiet .changed rfl
      obtain ⟨_, hchanged, -⟩ := Option.bind_eq_some_iff.mp hstep
      simp only [SessionState.step, hpump, Option.map_eq_none_iff] at hnone
      cases hnone.symm.trans hchanged
  | handling call event =>
    have hnone := hquiet (.dispatch false) rfl
    simp only [SessionState.step, SessionState.dispatch, hpump] at hnone
    split at hnone
    next =>
      split at hnone
      · cases hnone
      · cases hnone
    next => cases hnone
    next hne => exact hne call event rfl
  | forwarding call event =>
    have hrun := h.feed.running (by rw [hpump]; rfl)
    have hnone := hquiet .forward rfl
    simp [SessionState.step, SessionState.forward, hpump, hphase, ActorPhase.receiving,
      SessionState.enqueue, hmailbox, ActorState.arrive, hrun.senders] at hnone
  | teardown =>
    have hnone := hquiet .tearDown rfl
    simp [SessionState.step, hpump] at hnone
  | finished =>
    obtain hc | ⟨reason, hmem⟩ | hpanic := (h.feed.stopped (by rw [hpump]; rfl)).why
    · rw [hcancel] at hc
      cases hc
    · have hstanding := h.actor
      simp only [Standing, hphase] at hstanding
      obtain ⟨done, hserving⟩ := hstanding
      have hall : cfg.actor.AllContinue s.actor.arrived.zipIdx := by
        rw [hserving.split, hmailbox]
        simpa using hserving.all
      exact not_allContinue hmem hall
    · rw [hphase] at hpanic
      cases hpanic

end Order

end MsgTrans.Transport
