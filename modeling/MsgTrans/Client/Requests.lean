import MsgTrans.Client.Generations
import MsgTrans.Registry.Provenance

/-!
# The client transport: what a request holds

The calls of a `TransportClient` under the token rules. `connect` takes `&mut self`, so no other call
runs beside it; everything else interleaves with the consumer tasks of the connections, with
responders and with the timeout scanner. A request reads the session of the slot three times, for
its id, for its registration and for its send
(`crates/msgtrans/src/transport/transport.rs:498–553,719–821`), and the slot can be emptied between
any two of them: then the id comes from the session-less counter, the registration has no session,
or the send has nothing to check. No such mixture reaches a connection.
-/

namespace MsgTrans.Client

open MsgTrans.Wire MsgTrans.Adapters MsgTrans.Base MsgTrans.Registry MsgTrans.Transport

/-- The callers borrow the client, session ids are drawn from the epoch, and outbound requests are
registered under ids of their session. -/
def Mode.client : Mode where
  registry := { routed := true, numbered := true }
  exclusive := true

section Specs

variable {cfg : Setup} {t : Nat} {P : Option SessionId → Prop} {α β : Type}
  {Q : α → Multiset Tok → Prop} {F : Multiset Tok}

private theorem aborts {token : RequestToken} (hP : ∀ sid, P sid) :
    Registry.Keeps cfg.registry Mode.client.registry t P (fun _ d ↦ d = 0)
      (abortRequestToken token) 0 := by
  have h : Registry.Keeps cfg.registry Mode.client.registry t P (fun _ d ↦ d = 0)
      (abortRequestToken token >>= pure) 0 := abortRequestToken_spec (hP _) fun _ ↦ follows_ret rfl
  rwa [bind_pure] at h

private theorem abort_spec {token : RequestToken} {k : Bool → Task α} (hP : ∀ sid, P sid)
    (h : ∀ b, Keeps cfg .client t P Q (k b) F) :
    Keeps cfg .client t P Q (onRegistry (abortRequestToken token) >>= k) F := by
  refine onRegistry_free (aborts hP) fun b d hd ↦ ?_
  rw [hd, Multiset.map_zero, zero_add]
  exact h b

/-- A registered request is sent under the rule for its send, and its guard aborts it. -/
private theorem sendAndAwait_spec {packet : Packet} {session : Option SessionId} {channel : Nat}
    {token : RequestToken} {e : Multiset Tok} {k : Except Failure Packet → Task α}
    (hP : ∀ sid, P sid)
    (hm : ∀ connection, Refuted .client (.slotWriter session) (.ok connection) (e + F) ∨
      ∃ e', Moves cfg .client t (.enqueue connection session packet) (.ok ())
        ({.writer session connection} + e) ({.queued t connection session packet} + e') ∧
        ∀ x ∈ e', x.Within t P)
    (h : ∀ r G, Keeps cfg .client t P Q (k r) (G + F)) :
    Keeps cfg .client t P Q (sendAndAwait packet session channel token >>= k) (e + F) := by
  simp only [sendAndAwait, bind_assoc]
  refine sendConfirmedWith_spec hm (fun err G ↦ ?_) fun connection e' ↦ ?_
  · simp only [bind_assoc]
    exact abort_spec hP fun _ ↦ h _ G
  · have hend : ∀ r, Keeps cfg .client t P Q (k r)
        ({.queued t connection session packet} + (e' + F)) := by
      intro r
      rw [← add_assoc]
      exact h r _
    have habort : ∀ r : Except Failure Packet, Keeps cfg .client t P Q
        ((onRegistry (abortRequestToken token) >>= fun _ ↦ pure r) >>= k)
        ({.queued t connection session packet} + (e' + F)) := by
      intro r
      rw [bind_assoc]
      exact abort_spec hP fun _ ↦ hend r
    simp only [Prog.perform_bind, Prog.act_bind]
    refine keeps_neutral (fun _ ↦ .resume) fun resumed ↦ ?_
    cases resumed with
    | false => exact habort _
    | true =>
      refine keeps_neutral (fun _ ↦ .awaitReply) fun awaited ↦ ?_
      cases awaited with
      | received response => exact hend _
      | closed => exact habort _
      | timedOut => exact habort _

/-- The id of a request goes with what its call saw in the slot: it was allocated from the session
there, or the slot was empty. -/
inductive Held (id : UInt32) : Seen → Multiset Tok → Prop where
  | session {sid : SessionId} : Held id (.session sid) {.registry (.id sid id)}
  | empty : Held id .empty 0

private theorem registers (id : UInt32) (session : Option SessionId) (bizType : UInt8)
    (timeout : Duration) (hP : ∀ sid, P sid) :
    Registry.Keeps cfg.registry Mode.client.registry t P
      (fun v d ↦ ∀ channel token, v = .ok (channel, token) →
        token.key = .outbound session id ∧ d = {.minted token})
      (tryRegisterWaiter cfg.registry id session bizType timeout)
      (idFor Mode.client.registry (.outbound session id)) := by
  have h : Registry.Keeps cfg.registry Mode.client.registry t P
      (fun v d ↦ ∀ channel token, v = .ok (channel, token) →
        token.key = .outbound session id ∧ d = {.minted token})
      (tryRegisterWaiter cfg.registry id session bizType timeout >>= pure)
      (idFor Mode.client.registry (.outbound session id) + 0) := by
    refine tryRegisterWaiter_spec (hP _) (by simp [Mode.client]) (fun e G _ ↦ ?_) fun token hkey ↦ ?_
    · exact follows_ret fun channel token hv ↦ by cases hv
    · refine follows_ret fun channel token' hv ↦ ?_
      cases hv
      exact ⟨hkey, add_zero _⟩
  rwa [bind_pure, add_zero] at h

/-- A request is registered under the session that its id comes from and sent there, or it has no
session and no connection either. -/
private theorem registerAndSend_spec {packet : Packet} {timeout : Duration} {seen : Seen}
    {I : Multiset Tok} {k : Except Failure Packet → Task α} (hP : ∀ sid, P sid)
    (hI : Held packet.header.messageId seen I)
    (h : ∀ r seen G, Keeps cfg .client t P Q (k r) ({.sharing seen} + (G + F))) :
    Keeps cfg .client t P Q (registerAndSend cfg packet timeout >>= k)
      ({.sharing seen} + ({.ticket} + I + F)) := by
  simp only [registerAndSend]
  refine resuming_spec (h _ _ _) ?_
  simp only [Prog.perform_bind, Prog.act_bind, bind_assoc]
  refine ⟨fun h' ↦ h'.elim, fun session ↦ ?_⟩
  cases session with
  | none =>
    refine .inr ⟨_, _, _, rfl, .sessionNone, by simp [Tok.Within], ?_⟩
    refine onRegistry_free (registers packet.header.messageId none _ _ hP) fun registered d hd ↦ ?_
    cases registered with
    | error e =>
      rw [add_left_comm, ← add_assoc (d.map _)]
      exact h _ _ _
    | ok pair =>
      obtain ⟨channel, token⟩ := pair
      rw [← zero_add (d.map _ + _)]
      refine sendAndAwait_spec hP (fun connection ↦ .inl (.wired (by simp))) fun r G ↦ ?_
      rw [add_left_comm (d.map _), add_left_comm G, ← add_assoc (d.map _), ← add_assoc G]
      exact h _ _ _
  | some sid =>
    cases hI with
    | empty => exact .inl (.connected (by simp))
    | @session sid₀ =>
      by_cases hsid : sid = sid₀
      swap
      · exact .inl (.replaced (by simp) hsid)
      subst hsid
      refine .inr ⟨_, _, _, rfl, .sessionSome, by simp [Tok.Within], ?_⟩
      have hid : (idFor Mode.client.registry
          (.outbound (some sid) packet.header.messageId)).map Tok.registry =
          {.registry (.id sid packet.header.messageId)} := rfl
      have hsplit : ({.sharing (.session sid)} : Multiset Tok) +
          ({.ticket} + {.registry (.id sid packet.header.messageId)} + F) =
          (idFor Mode.client.registry (.outbound (some sid) packet.header.messageId)).map
            Tok.registry + ({.ticket} + ({.sharing (.session sid)} + F)) := by
        rw [hid]
        abel
      rw [hsplit]
      refine onRegistry_spec (registers packet.header.messageId (some sid) _ _ hP)
        fun registered d hd ↦ ?_
      cases registered with
      | error e =>
        rw [← add_assoc, add_left_comm]
        exact h _ _ _
      | ok pair =>
        obtain ⟨channel, token⟩ := pair
        obtain ⟨hkey, rfl⟩ := hd channel token rfl
        rw [Multiset.map_singleton, ← add_assoc, add_comm {Tok.registry _}]
        refine sendAndAwait_spec hP (fun connection ↦ .inr ⟨{.registry (.minted token)}, ?_, ?_⟩)
          fun r G ↦ ?_
        · exact .enqueueRequest hkey
        · simpa [Tok.Within, Registry.Tok.Within] using hP _
        · rw [add_left_comm]
          exact h _ _ _

private theorem draws {session : Option SessionId} (hP : ∀ sid, P sid) :
    Registry.Keeps cfg.registry Mode.client.registry t P
      (fun v d ↦ ∀ id, v = some id →
        (session = none ∧ d = 0) ∨ ∃ sid, session = some sid ∧ d = {.id sid id})
      (nextRequestId session) 0 := by
  have h : Registry.Keeps cfg.registry Mode.client.registry t P
      (fun v d ↦ ∀ id, v = some id →
        (session = none ∧ d = 0) ∨ ∃ sid, session = some sid ∧ d = {.id sid id})
      (nextRequestId session >>= pure) 0 := by
    refine nextRequestId_spec (hP _) (fun G _ ↦ ?_) (fun hnone id ↦ ?_) fun sid id hsome ↦ ?_
    · exact follows_ret fun id hv ↦ by cases hv
    · exact follows_ret fun id hv ↦ .inl ⟨hnone, rfl⟩
    · refine follows_ret fun id' hv ↦ .inr ⟨sid, hsome, ?_⟩
      cases hv
      exact add_zero _
  rwa [bind_pure] at h

/-- The session of the slot is read and an id is allocated for it. -/
private theorem allocate_spec {seen : Seen} {k : Option UInt32 → Task α} (hP : ∀ sid, P sid)
    (hnone : ∀ seen G, Keeps cfg .client t P Q (k none) ({.sharing seen} + (G + F)))
    (hsome : ∀ id seen I, Held id seen I →
      Keeps cfg .client t P Q (k (some id)) ({.sharing seen} + (I + F))) :
    Keeps cfg .client t P Q
      (.act .slotSessionId fun session ↦ onRegistry (nextRequestId session) >>= k)
      ({.sharing seen} + F) := by
  refine keeps_move fun session ↦ ?_
  cases session with
  | none =>
    refine ⟨_, .sessionNone, by simp [Tok.Within], ?_⟩
    refine onRegistry_free (draws hP) fun id d hd ↦ ?_
    rw [add_left_comm]
    cases id with
    | none => exact hnone _ _
    | some id =>
      obtain ⟨-, rfl⟩ | ⟨sid, hsid, -⟩ := hd id rfl
      · exact hsome id _ _ .empty
      · cases hsid
  | some sid =>
    refine ⟨_, .sessionSome, by simp [Tok.Within], ?_⟩
    refine onRegistry_free (draws hP) fun id d hd ↦ ?_
    rw [add_left_comm]
    cases id with
    | none => exact hnone _ _
    | some id =>
      obtain ⟨hsid, -⟩ | ⟨sid', hsid, rfl⟩ := hd id rfl
      · cases hsid
      · cases hsid
        exact hsome id _ _ .session

private theorem transportRequestWithOptions_spec {data : Bytes} {options : SendOptions}
    {timeout : Option Duration} {seen : Seen} {k : Except Failure Bytes → Task α}
    (hP : ∀ sid, P sid)
    (h : ∀ r seen G, Keeps cfg .client t P Q (k r) ({.sharing seen} + (G + F))) :
    Keeps cfg .client t P Q (transportRequestWithOptions cfg data options timeout >>= k)
      ({.sharing seen} + ({.ticket} + F)) := by
  simp only [transportRequestWithOptions]
  refine resuming_spec (h _ _ _) ?_
  simp only [Prog.perform_bind, Prog.act_bind, bind_assoc]
  refine allocate_spec hP (fun seen G ↦ ?_) fun id seen I hI ↦ ?_
  · rw [← add_assoc G]
    exact h _ _ _
  · rw [add_left_comm I, ← add_assoc ({Tok.ticket} : Multiset Tok)]
    cases happly : options.applyOver cfg.codecs (.request id data) 0 with
    | error e =>
      simp only [happly]
      exact h _ _ _
    | ok packet =>
      simp only [happly, bind_assoc]
      have hid : packet.header.messageId = id := (applyOver_header happly).1
      exact registerAndSend_spec hP (hid ▸ hI) fun r seen G ↦ h _ _ _

/-- A call on `&self` borrows the client and gives it back, whatever it has seen. -/
private theorem borrowing_spec {p : Task β} {k : β → Task α}
    (h : Keeps cfg .client t P Q (p >>= fun v ↦ op .release >>= fun _ ↦ k v)
      ({.sharing .nothing} + F)) : Keeps cfg .client t P Q (borrowing p >>= k) F := by
  simp only [borrowing, Prog.perform_bind, Prog.act_bind, bind_assoc]
  exact keeps_gain fun _ ↦ ⟨_, .borrow rfl, by simp [Tok.Within], h⟩

private theorem release_spec {seen : Seen} {k : Unit → Task α}
    (h : Keeps cfg .client t P Q (k ()) F) :
    Keeps cfg .client t P Q (op .release >>= k) ({.sharing seen} + F) :=
  keeps_move fun _ ↦ ⟨0, .release, by simp, by rwa [zero_add]⟩

theorem requestWithOptions_spec {data : Bytes} {options : SendOptions}
    {timeout : Option Duration} {k : Except Failure Bytes → Task α} (hP : ∀ sid, P sid)
    (h : ∀ r G, Keeps cfg .client t P Q (k r) (G + F)) :
    Keeps cfg .client t P Q (requestWithOptions cfg data options timeout >>= k)
      ({.ticket} + F) := by
  refine borrowing_spec (transportRequestWithOptions_spec hP fun r seen G ↦ ?_)
  exact release_spec (h r G)

/-- The slot is read whatever was seen in it before. -/
private theorem slotSessionId_spec {seen : Seen} {k : Option SessionId → Task α}
    (h : ∀ found seen, Keeps cfg .client t P Q (k found) ({.sharing seen} + F)) :
    Keeps cfg .client t P Q (.act .slotSessionId k) ({.sharing seen} + F) := by
  refine keeps_move fun found ↦ ?_
  cases found with
  | none => exact ⟨_, .sessionNone, by simp [Tok.Within], h _ _⟩
  | some sid => exact ⟨_, .sessionSome, by simp [Tok.Within], h _ _⟩

theorem request_spec {data : Bytes} {k : Except Failure Bytes → Task α} (hP : ∀ sid, P sid)
    (h : ∀ r G, Keeps cfg .client t P Q (k r) (G + F)) :
    Keeps cfg .client t P Q (request cfg data >>= k) ({.ticket} + F) := by
  have hend : ∀ r seen G, Keeps cfg .client t P Q (op .release >>= fun _ ↦ k r)
      ({.sharing seen} + (G + F)) := fun r seen G ↦ release_spec (h r G)
  refine borrowing_spec (resuming_spec (hend _ _ _) ?_)
  simp only [Prog.perform_bind, Prog.act_bind]
  refine slotSessionId_spec fun connected seen ↦ ?_
  cases connected with
  | none => exact hend _ _ _
  | some sid =>
    simp only [Option.isSome_some, if_true]
    refine resuming_spec (hend _ _ _) ?_
    simp only [Prog.act_bind, bind_assoc]
    refine allocate_spec hP (fun seen G ↦ ?_) fun id seen I hI ↦ ?_
    · rw [← add_assoc G]
      exact hend _ _ _
    · rw [add_left_comm I, ← add_assoc ({Tok.ticket} : Multiset Tok)]
      simp only [transportRequest, bind_assoc]
      exact registerAndSend_spec hP hI fun r seen G ↦ hend _ _ _

/-- A packet that is no request is sent without a token. -/
theorem sendConfirmedWith_plain {packet : Packet} {expected : Option SessionId}
    {k : Except Failure Unit → Task α} (hpacket : packet.header.packetType ≠ .request)
    (h : ∀ r G, Keeps cfg .client t P Q (k r) (G + F)) :
    Keeps cfg .client t P Q (sendConfirmedWith packet expected >>= k) F := by
  rw [← zero_add F]
  refine sendConfirmedWith_spec (fun connection ↦ .inr ⟨0, ?_, by simp⟩) (fun err G ↦ h _ _)
    fun connection e' ↦ ?_
  · rw [add_zero, add_zero]
    exact .enqueue fun _ ↦ hpacket
  · rw [← add_assoc]
    exact h _ _

private theorem nextOnewayId_spec {k : UInt32 → Task α}
    (h : ∀ id, Keeps cfg .client t P Q (k id) F) :
    Keeps cfg .client t P Q (onRegistry nextOnewayId >>= k) F := by
  have hid : Registry.Keeps cfg.registry Mode.client.registry t P (fun _ d ↦ d = 0)
      nextOnewayId 0 := Registry.keeps_neutral (fun _ ↦ .onewayId) fun _ ↦ follows_ret rfl
  refine onRegistry_free hid fun id d hd ↦ ?_
  rw [hd, Multiset.map_zero, zero_add]
  exact h id

private theorem oneWay_ne {id : UInt32} {data : Bytes} :
    (Packet.oneWay id data).header.packetType ≠ .request := fun h ↦ by cases h

section Ends

variable {γ : Type} {k : γ → Task α} (h : ∀ r G, Keeps cfg .client t P Q (k r) (G + F))

include h

-- A call on `&self` may end with anything in hand.
private theorem ends_with (r : γ) (seen : Seen) (G : Multiset Tok) :
    Keeps cfg .client t P Q (op .release >>= fun _ ↦ k r) (G + ({.sharing seen} + F)) := by
  rw [add_left_comm]
  exact release_spec (h r G)

private theorem ends_now (r : γ) (seen : Seen) :
    Keeps cfg .client t P Q (op .release >>= fun _ ↦ k r) ({.sharing seen} + F) := by
  have hend := ends_with h r seen 0
  rwa [zero_add] at hend

end Ends

theorem sendMessage_spec {data : Bytes} {k : Except Failure Unit → Task α}
    (h : ∀ r G, Keeps cfg .client t P Q (k r) (G + F)) :
    Keeps cfg .client t P Q (sendMessage data >>= k) F := by
  refine borrowing_spec (resuming_spec (ends_now h _ _) ?_)
  simp only [Prog.perform_bind, Prog.act_bind]
  refine slotSessionId_spec fun session seen ↦ ?_
  cases session with
  | none => exact ends_now h _ _
  | some sid =>
    simp only [Option.isSome_some, if_true, bind_assoc]
    refine nextOnewayId_spec fun id ↦ ?_
    exact sendConfirmedWith_plain oneWay_ne fun r G ↦ ends_with h _ _ _

theorem sendDetached_spec {data : Bytes} {k : Except Failure Unit → Task α}
    (h : ∀ r G, Keeps cfg .client t P Q (k r) (G + F)) :
    Keeps cfg .client t P Q (sendDetached data >>= k) F := by
  refine borrowing_spec (resuming_spec (ends_now h _ _) ?_)
  simp only [Prog.perform_bind, Prog.act_bind]
  refine slotSessionId_spec fun session seen ↦ ?_
  cases session with
  | none => exact ends_now h _ _
  | some sid =>
    simp only [Option.isSome_some, if_true, bind_assoc]
    refine nextOnewayId_spec fun id ↦ ?_
    exact send_spec (fun _ ↦ oneWay_ne) fun r G ↦ ends_with h _ _ _

theorem sendWithOptions_spec {data : Bytes} {options : SendOptions}
    {k : Except Failure Unit → Task α} (h : ∀ r G, Keeps cfg .client t P Q (k r) (G + F)) :
    Keeps cfg .client t P Q (sendWithOptions cfg data options >>= k) F := by
  refine borrowing_spec ?_
  simp only [bind_assoc]
  refine nextOnewayId_spec fun id ↦ ?_
  cases happly : options.applyOver cfg.codecs (.oneWay id data) 0 with
  | error e => exact ends_now h _ _
  | ok packet =>
    have hpacket : packet.header.packetType ≠ .request := by
      rw [(applyOver_header happly).2]
      exact oneWay_ne
    simp only
    refine resuming_spec (ends_now h _ _) ?_
    simp only [Prog.perform_bind, Prog.act_bind]
    refine slotSessionId_spec fun session seen ↦ ?_
    exact sendConfirmedWith_plain hpacket fun r G ↦ ends_with h _ _ _

theorem disconnect_spec {force : Bool} {k : Except Failure Unit → Task α} (hP : ∀ sid, P sid)
    (h : ∀ r G, Keeps cfg .client t P Q (k r) (G + F)) :
    Keeps cfg .client t P Q (disconnect cfg force >>= k) F := by
  refine borrowing_spec ?_
  simp only [Prog.perform_bind, Prog.act_bind]
  refine keeps_neutral (fun _ ↦ .currentTake) fun session ↦ ?_
  cases session with
  | none => exact ends_now h _ _
  | some sid =>
    simp only [bind_assoc]
    exact close_spec (hP _) fun G ↦ ends_with h _ _ _

/-- A connection is installed while its call owns the client. -/
theorem connect_spec {connection : Nat} {k : Except Failure SessionId → Task α}
    (hP : ∀ sid, P sid) (h : ∀ r G, Keeps cfg .client t P Q (k r) (G + F)) :
    Keeps cfg .client t P Q (connect connection >>= k) ({.installing connection} + F) := by
  have hrelease : ∀ r G, Keeps cfg .client t P Q (.act .releaseMut fun _ ↦ k r)
      ({.owning} + (G + F)) := fun r G ↦
    keeps_move fun _ ↦ ⟨0, .releaseMut, by simp, by rw [zero_add]; exact h r G⟩
  simp only [connect, Prog.perform_bind, Prog.act_bind]
  refine keeps_gain fun _ ↦ ⟨_, .borrowMut, by simp [Tok.Within], ?_⟩
  refine keeps_neutral (fun _ ↦ .sessionId) fun session ↦ ?_
  cases session with
  | some sid => exact hrelease _ _
  | none =>
    refine keeps_neutral (fun _ ↦ .resume) fun built ↦ ?_
    cases built with
    | false => exact hrelease _ _
    | true =>
      simp only [if_true, Prog.bind_eq, bind_assoc]
      rw [← add_assoc, add_comm ({Tok.owning} : Multiset Tok)]
      refine setConnection_spec hP rfl (fun sid ↦ .installOwned) (by simp [Tok.Within])
        fun sid ↦ ?_
      simp only [Prog.act_bind]
      refine keeps_neutral (fun _ ↦ .resume) fun resumed ↦ ?_
      rw [← zero_add F]
      cases resumed with
      | false => exact hrelease _ _
      | true => exact keeps_neutral (fun _ ↦ .currentSet) fun _ ↦ hrelease _ _

end Specs

end MsgTrans.Client
