import MsgTrans.Adapters.Receipts
import MsgTrans.Adapters.StrictFraming

/-!
# From one end of a connection to the other

The pipeline of `Adapters.Pipeline` in front of the peer's read loop, `tcp.rs:563–590`,
`websocket.rs:352–391` or `quic.rs:617–733`: at any time the peer has read the first packets that
the outbound queue accepted and that can be encoded, in their order and each once.
-/

namespace MsgTrans.Adapters

open MsgTrans.Wire MsgTrans.Transport MsgTrans.Base

namespace Tcp

end Tcp

namespace WebSocket

end WebSocket

namespace Pipeline

section Budget

/-- What is charged on a byte budget is within it. -/
structure InBudget (t : Target) (s : State) : Prop where
  sends (n : Nat) (send : Send) : s.sends[n]? = some send → send.phase.charged = true →
    s.Charged t send
  accepted (c : Nat) (conn : Conn) (item : Outbound) : s.conns[c]? = some conn →
    item ∈ conn.accepted → chargeSize t item.packet ≤ conn.bufferBytes

variable {t : Target} {s s' : State} {n c : Nat} {send send' : Send} {conn conn' : Conn}

/-- A send that is not charged now, or was before. -/
theorem InBudget.enter (h : InBudget t s) (hsend : s.sends[n]? = some send)
    {log : List (Nat × Fate)}
    (hcharged : send'.phase.charged = true → s.Charged t send') :
    InBudget t { s with sends := s.sends.set n send', log } where
  sends := by
    intro m other hm hphase
    rw [getElem?_set_of_some hsend] at hm
    split at hm
    · cases hm
      exact hcharged hphase
    · exact h.sends m other hm hphase
  accepted := h.accepted

/-- A connection that changes keeps the size of its budget. -/
theorem charged_set (hconn : s.conns[c]? = some conn)
    (hbytes : conn'.bufferBytes = conn.bufferBytes) {sends : List Send} {log : List (Nat × Fate)}
    (h : s.Charged t send) :
    State.Charged t { s with conns := s.conns.set c conn', sends, log } send := by
  intro d other hd hother
  rw [getElem?_set_of_some hconn] at hother
  split at hother
  next heq =>
    subst heq
    cases hother
    rw [hbytes]
    exact h d conn hd hconn
  next => exact h d other hd hother

theorem InBudget.step (h : InBudget t s) (hs : Sound s) (heffect : Effect t s s') :
    InBudget t s' := by
  cases heffect with
  | install kind sessionId outboundCapacity bufferBytes =>
    constructor
    · intro m other hm hphase d conn hd hconn
      obtain ⟨bound, hbound, -⟩ := hs.bound m other d hm hd
      rw [List.getElem?_append_left (List.getElem?_eq_some_iff.mp hbound).1, hbound] at hconn
      cases hconn
      exact h.sends m other hm hphase d _ hd hbound
    · intro d conn item hconn hitem
      obtain hlt | hge := Nat.lt_or_ge d s.conns.length
      · rw [List.getElem?_append_left hlt] at hconn
        exact h.accepted d conn item hconn hitem
      · rw [List.getElem?_append_right hge] at hconn
        cases List.mem_singleton.mp (List.mem_of_getElem? hconn)
        cases hitem
  | vacate => exact ⟨h.sends, h.accepted⟩
  | send packet confirmed expectedSession =>
    refine ⟨fun m other hm hphase ↦ ?_, h.accepted⟩
    obtain hlt | hge := Nat.lt_or_ge m s.sends.length
    · rw [List.getElem?_append_left hlt] at hm
      exact h.sends m other hm hphase
    · rw [List.getElem?_append_right hge] at hm
      cases List.mem_singleton.mp (List.mem_of_getElem? hm)
      cases hphase
  | bind hsend => exact h.enter hsend (by rintro ⟨⟩)
  | @move n send phase hsend howns hphase hcharged =>
    refine h.enter hsend fun _ ↦ ?_
    obtain hbefore | hnow := hcharged
    · exact h.sends n send hsend hbefore
    · exact hnow
  | @settle n send phase hsend hover =>
    refine h.enter hsend ?_
    obtain ⟨rfl, -⟩ | ⟨-, e, rfl⟩ := hover <;> rintro ⟨⟩
  | @enqueue n c send conn hsend hcharged hbound hconn hopen =>
    have hroom := h.sends n send hsend hcharged
    constructor
    · intro m other hm hphase
      rw [show (s.enqueue n c send conn).sends = s.sends.set n _ from rfl,
        getElem?_set_of_some hsend] at hm
      refine charged_set hconn (show (conn.push (State.item n send)).bufferBytes = _ from rfl) ?_
      split at hm
      · cases hm
        exact hroom
      · exact h.sends m other hm hphase
    · intro d other item hother hitem
      rw [show (s.enqueue n c send conn).conns = s.conns.set c _ from rfl,
        getElem?_set_of_some hconn] at hother
      split at hother
      next heq =>
        subst heq
        cases hother
        obtain hitem | hitem := List.mem_append.mp hitem
        · exact h.accepted d conn item hconn hitem
        · cases List.mem_singleton.mp hitem
          exact hroom d conn hbound hconn
      next => exact h.accepted d other item hother hitem
  | learn hsend => exact h.enter hsend (by rintro ⟨⟩)
  | @write c conn conn' out hconn hwrites =>
    have hw := hwrites (hs.tidy c conn hconn)
    constructor
    · intro m other hm hphase
      exact charged_set hconn hw.bufferBytes (h.sends m other hm hphase)
    · intro d other item hother hitem
      rw [getElem?_set_of_some hconn] at hother
      split at hother
      next heq =>
        subst heq
        cases hother
        rw [hw.accepted] at hitem
        rw [hw.bufferBytes]
        exact h.accepted d conn item hconn hitem
      next => exact h.accepted d other item hother hitem

end Budget

section Peer

/-- What the peer's reader makes of the first bytes of a connection: TCP however the kernel cuts
them, a WebSocket message by message, QUIC from the stream. It has failed on none of them. -/
def Kind.Reads (kind : Kind) (strict : Bool) (limits : DecodeLimits) (w : Bytes)
    (packets : List Packet) : Prop :=
  match kind with
  | .tcp => ∃ rest, ∀ chunks, (∀ chunk ∈ chunks, chunk ≠ []) → chunks.flatten = w →
    Tcp.readLoop strict 0 (.new limits) chunks = (packets, .reading rest)
  | .webSocket =>
    WebSocket.readLoop strict limits false (packets.map fun p ↦ .ok (.binary p.frame)) =
      (packets, .reading [])
  | .quic => ∃ rest, Quic.readTask strict limits false w = (packets, .reading rest)

/-- The packets of some items. -/
def packets (items : List Outbound) : List Packet := items.map Outbound.packet

/-- What has arrived at the peer of a connection: the packets of the first items that the queue
accepted and that can be encoded, as many of them as are whole. -/
structure Delivered (conn : Conn) (strict : Bool) (limits : DecodeLimits) (w : Bytes)
    (arrived : List Packet) : Prop where
  reads : conn.kind.Reads strict limits w arrived
  inOrder : arrived <+: packets (conn.accepted.filter Outbound.encodable)
  whole : ∀ items, items <+: conn.accepted.filter Outbound.encodable →
    conn.kind.units items <+: w → packets items <+: arrived

variable {t : Target} {s : State} {c : Nat} {conn : Conn} {limits : DecodeLimits}

/-- The frames of some items, each with its packet. -/
def Kind.frames (kind : Kind) (items : List Outbound) : List (Packet × Bytes) :=
  items.map fun item ↦ (item.packet, kind.unit item.packet)

end Peer

end Pipeline

end MsgTrans.Adapters
