import MsgTrans.Adapters.Quic
import MsgTrans.Adapters.StrictFraming
import MsgTrans.Adapters.WebSocket
import MsgTrans.Transport.Limits

/-!
# The three transports accept the same packets

Each reader has a cap of its own in front of the shared decoder: the stream parser of TCP judges
the header, the WebSocket library is given a message cap, and the QUIC reader checks a length
prefix. For limits that come out of the setters of `transport/limits.rs` none of these caps
refuses a packet that the decoder accepts.
-/

namespace MsgTrans.Adapters

open MsgTrans.Wire MsgTrans.Base MsgTrans.Transport

/-- Both lengths of a packet are within the configured maxima. -/
def Within (limits : DecodeLimits) (p : Packet) : Prop :=
  p.payload.length ≤ limits.maxPayloadSize ∧ p.extHeader.length ≤ limits.maxExtHeaderSize

section Codec

variable {limits : DecodeLimits} {p : Packet}

/-- Under derived limits the two maxima are all there is. -/
theorem fits_of_within (hlimits : Derived limits) (hversion : p.header.version = 1)
    (hext : p.extHeader.length ≤ 65535) (hpayload : p.payload.length ≤ 4294967295)
    (h : Within limits p) : p.Fits limits := by
  have hframe := hlimits.frame
  constructor
  · exact hversion
  · exact Nat.le_min.mpr ⟨hext, h.2⟩
  · exact Nat.le_min.mpr ⟨hpayload, h.1⟩
  · have hp := h.1
    have he := h.2
    omega

/-- A prefix of a frame over a maximum is refused as soon as it holds the header. -/
theorem frame_take_refused (hversion : p.header.version = 1)
    (hext : p.extHeader.length ≤ 65535) (hpayload : p.payload.length ≤ 4294967295)
    (h : ¬ Within limits p) {n : Nat} (hn : 16 ≤ n) :
    ∃ e, Packet.decodeOneWith (p.frame.take n) limits = .error (.packet e) := by
  have hlen := Packet.length_frame p
  have hheader : IsHeader (p.frame.take n) p.header (UInt16.ofNat p.extHeader.length)
      (UInt32.ofNat p.payload.length) := by
    constructor
    · exact hversion
    · rw [List.take_take, Nat.min_eq_left hn, Packet.frame, List.append_assoc]
      exact List.take_left' (FixedHeader.length_toBytes _ _ _)
  apply (Packet.decodeOneWith_error_iff _ limits).mpr
  constructor
  · rw [List.length_take]
    omega
  · rintro ⟨header, e, l, hother, hadmits⟩
    obtain ⟨-, rfl, rfl⟩ := hheader.unique hother
    obtain ⟨hp, he, -⟩ := hadmits
    rw [UInt32.toNat_ofNat_of_lt' (by simp only [UInt32.size]; omega)] at hp
    rw [UInt16.toNat_ofNat_of_lt' (by simp only [UInt16.size]; omega)] at he
    exact h ⟨hp, he⟩

theorem frame_refused (hversion : p.header.version = 1)
    (hext : p.extHeader.length ≤ 65535) (hpayload : p.payload.length ≤ 4294967295)
    (h : ¬ Within limits p) :
    ∃ e, Packet.decodeOneWith p.frame limits = .error (.packet e) := by
  have hlen := Packet.length_frame p
  have hrefused := frame_take_refused hversion hext hpayload h (n := p.frame.length) (by omega)
  rwa [List.take_length] at hrefused

end Codec

section Readers

variable {limits : DecodeLimits} {p : Packet}

/-- The strict TCP reader on the chunks of a stream. -/
def tcpReads (limits : DecodeLimits) (chunks : List Bytes) : List Packet × LoopEnd :=
  let r := Tcp.readLoop true 0 (.new limits) chunks
  (r.1, r.2.loopEnd)

theorem tcpReads_frame {chunks : List Bytes} (hne : ∀ chunk ∈ chunks, chunk ≠ [])
    (hflat : chunks.flatten = p.frame) (hfits : p.Fits limits)
    (hencode : p.tryEncode = .ok p.frame) : tcpReads limits chunks = ([p], .reading []) := by
  have hdecode := Tcp.decodeStream_frames limits [(p, p.frame)] (by simpa using ⟨hfits, hencode⟩)
  simp only [List.map_cons, List.map_nil, List.flatten_cons, List.flatten_nil,
    List.append_nil] at hdecode
  rw [tcpReads, Tcp.readLoop_strict_eq limits hne, hflat, hdecode]
  rfl

theorem tcpReads_refused {chunks : List Bytes} {e : PacketError}
    (hne : ∀ chunk ∈ chunks, chunk ≠ []) (hflat : chunks.flatten = p.frame)
    (h : Packet.decodeOneWith p.frame limits = .error (.packet e)) :
    (tcpReads limits chunks).1 = [] ∧ (tcpReads limits chunks).2.Fails := by
  have hdecode : Tcp.decodeStream limits p.frame = ([], .failed (.packet e) 0) :=
    Decoder.run_fail 0 (Tcp.next_fail_iff.mpr h)
  rw [tcpReads, Tcp.readLoop_strict_eq limits hne, hflat, hdecode]
  exact ⟨rfl, trivial⟩

/-- The strict WebSocket reader on what the library makes of one binary message. -/
def webSocketReads (library : WebSocket.WebSocketConfig → Bytes →
    Except WebSocket.TungsteniteError WebSocket.Message) (limits : DecodeLimits)
    (message : Bytes) : List Packet × LoopEnd :=
  WebSocket.readLoop true limits false [library (WebSocket.wsProtocolConfig limits) message]

theorem readLoop_binary (hfits : p.Fits limits) :
    WebSocket.readLoop true limits false [.ok (.binary p.frame)] = ([p], .reading []) := by
  have hlen := Packet.length_frame p
  simp only [WebSocket.readLoop, WebSocket.processWebsocketMessage,
    if_neg (by omega : ¬ p.frame.length < 16), Packet.decodeExactFrom_frame hfits]
  rfl

theorem readLoop_binary_refused {e : PacketError}
    (h : Packet.decodeOneWith p.frame limits = .error (.packet e)) :
    (WebSocket.readLoop true limits false [.ok (.binary p.frame)]).1 = [] ∧
      (WebSocket.readLoop true limits false [.ok (.binary p.frame)]).2.Fails := by
  have hlen := Packet.length_frame p
  simp only [WebSocket.readLoop, WebSocket.processWebsocketMessage,
    if_neg (by omega : ¬ p.frame.length < 16), Packet.decodeExactFrom_of_error h]
  exact ⟨rfl, trivial⟩

/-- The strict QUIC reader on the batch of one packet. -/
def quicReads (limits : DecodeLimits) (item : Outbound) : List Packet × LoopEnd :=
  Quic.readTask true limits false (Quic.prepareQuicBatch [] [item]).writeBuf

theorem writeBuf_singleton {item : Outbound} (h : item.encodable = true) :
    (Quic.prepareQuicBatch [] [item]).writeBuf = Quic.lengthPrefixed item.packet := by
  rw [Quic.prepareQuicBatch_eq]
  simp [h]

theorem quicReads_frame {item : Outbound} (henc : item.encodable = true)
    (hfits : item.packet.Fits limits) (hlt : item.packet.frame.length < 2 ^ 32) :
    quicReads limits item = ([item.packet], .reading []) := by
  have hnext : (Quic.frameDecoder true limits).next (Quic.lengthPrefixed item.packet) =
      .item item.packet (Quic.lengthPrefixed item.packet).length := by
    have h := Quic.readFrame_lengthPrefixed true hfits hlt []
    rwa [List.append_nil] at h
  have hnil : (Quic.frameDecoder true limits).next [] = .more := rfl
  rw [quicReads, Quic.readTask, writeBuf_singleton henc, Decoder.run_item _ hnext,
    List.drop_length, Decoder.run_more _ hnil]
  rfl

/-- A prefix of a frame over a maximum is no packet under the strict policy. -/
theorem decodeFrame_take_refused (n : Nat) (h : ∀ n, 16 ≤ n →
      ∃ e, Packet.decodeOneWith (p.frame.take n) limits = .error (.packet e)) :
    ∃ stop, Quic.decodeFrame true limits (p.frame.take n) = .error stop ∧ stop.Fails := by
  by_cases hshort : (p.frame.take n).length < 16
  · exact ⟨_, if_pos hshort, trivial⟩
  · have hn : 16 ≤ n := by
      rw [List.length_take] at hshort
      omega
    obtain ⟨e, he⟩ := h n hn
    refine ⟨.closed (.error "Undecodable frame (strict policy)"), ?_, trivial⟩
    rw [Quic.decodeFrame, if_neg hshort, Packet.decodeExactFrom_of_error he]
    rfl

/-- A frame over a maximum stops the QUIC reader, whatever the cast to `u32` made of its
length. -/
theorem quicReads_refused {item : Outbound} (henc : item.encodable = true)
    (h : ∀ n, 16 ≤ n →
      ∃ e, Packet.decodeOneWith (item.packet.frame.take n) limits = .error (.packet e)) :
    (quicReads limits item).1 = [] ∧ (quicReads limits item).2.Fails := by
  have h4 : (u32ToBeBytes (UInt32.ofNat item.packet.frame.length)).length = 4 :=
    length_u32ToBeBytes _
  have hlength : (Quic.lengthPrefixed item.packet).length = 4 + item.packet.frame.length := by
    rw [Quic.lengthPrefixed, List.length_append, h4]
  have hannounced : Quic.frameLen limits (Quic.lengthPrefixed item.packet) ≤
      item.packet.frame.length := by
    have hlen := Quic.frameLen_lengthPrefixed limits item.packet []
    rw [List.append_nil] at hlen
    rw [hlen]
    calc (UInt32.ofNat item.packet.frame.length).toNat % 2 ^ limits.usizeBits
        ≤ (UInt32.ofNat item.packet.frame.length).toNat := Nat.mod_le _ _
      _ = item.packet.frame.length % 2 ^ 32 := UInt32.toNat_ofNat'
      _ ≤ item.packet.frame.length := Nat.mod_le _ _
  have hfail : ∃ stop, (Quic.frameDecoder true limits).next (Quic.lengthPrefixed item.packet) =
      .fail stop ∧ stop.Fails := by
    by_cases hmax : Quic.frameLen limits (Quic.lengthPrefixed item.packet) > limits.maxFrameSize
    · refine ⟨.closed (.error "Frame too large"), ?_, trivial⟩
      show Quic.readFrame true limits (Quic.lengthPrefixed item.packet) = _
      rw [Quic.readFrame, if_neg (by omega), if_pos hmax]
    · obtain ⟨stop, hstop, hfails⟩ :=
        decodeFrame_take_refused (Quic.frameLen limits (Quic.lengthPrefixed item.packet)) h
      refine ⟨stop, ?_, hfails⟩
      have hwhole := Quic.readFrame_of_whole true [] (b := Quic.lengthPrefixed item.packet)
        (by omega) (Nat.le_of_not_lt hmax) (by omega)
      have hbody : (Quic.lengthPrefixed item.packet).drop 4 = item.packet.frame := by
        rw [Quic.lengthPrefixed, List.drop_left' h4]
      rw [List.append_nil, hbody, hstop] at hwhole
      exact hwhole
  obtain ⟨stop, hnext, hfails⟩ := hfail
  rw [quicReads, Quic.readTask, writeBuf_singleton henc, Decoder.run_fail _ hnext]
  exact ⟨rfl, hfails⟩

end Readers

/-- The three transports accept the same packets. For limits made by any sequence of setters and
a library that hands over whole every binary message within its caps and refuses a larger one with
an error or hands it over too: a packet within both maxima is handed to the event pipe by all three
readers, whatever the chunks of the TCP stream, and a packet over one of them ends the connection
with an error on all three. -/
theorem transports_accept_alike (limits : DecodeLimits) (hlimits : Configured limits)
    (library : WebSocket.WebSocketConfig → Bytes →
      Except WebSocket.TungsteniteError WebSocket.Message)
    (hwhole : ∀ config message, (∀ cap, config.maxMessageSize = some cap → message.length ≤ cap) →
      (∀ cap, config.maxFrameSize = some cap → message.length ≤ cap) →
        library config message = .ok (.binary message))
    (hover : ∀ config message, library config message = .ok (.binary message) ∨
      ∃ debug, library config message = .error (.other debug))
    (p : Packet) (hversion : p.header.version = 1) (bytes : Bytes)
    (hencode : p.tryEncode = .ok bytes) (completion : Option Nat) (chunks : List Bytes)
    (hne : ∀ chunk ∈ chunks, chunk ≠ []) (hflat : chunks.flatten = bytes) :
    (Within limits p →
      tcpReads limits chunks = ([p], .reading []) ∧
        webSocketReads library limits bytes = ([p], .reading []) ∧
          quicReads limits ⟨p, completion⟩ = ([p], .reading [])) ∧
    (¬ Within limits p →
      ((tcpReads limits chunks).1 = [] ∧ (tcpReads limits chunks).2.Fails) ∧
        ((webSocketReads library limits bytes).1 = [] ∧
          (webSocketReads library limits bytes).2.Fails) ∧
        ((quicReads limits ⟨p, completion⟩).1 = [] ∧
          (quicReads limits ⟨p, completion⟩).2.Fails)) := by
  have hderived := hlimits.derived
  obtain ⟨hext, hpayload, rfl⟩ := (Packet.tryEncode_ok_iff p bytes).mp hencode
  have henc : Outbound.encodable ⟨p, completion⟩ = true := Quic.encodable_iff.mpr hencode
  constructor
  · intro hwithin
    have hfits := fits_of_within hderived hversion hext hpayload hwithin
    have hframe := hfits.frame
    have hlen := Packet.length_frame p
    have hcap : p.frame.length ≤ limits.maxFrameSize := by omega
    have hlt : p.frame.length < 2 ^ 32 := by
      have hp := hderived.payload
      have he := hderived.ext
      have hf := hderived.frame
      simp only [defaultMaxPayloadSize, defaultMaxExtHeaderSize] at hp he
      omega
    refine ⟨tcpReads_frame hne hflat hfits hencode, ?_, quicReads_frame henc hfits hlt⟩
    rw [webSocketReads, hwhole]
    · exact readLoop_binary hfits
    · intro cap hcaps
      cases hcaps
      exact hcap
    · intro cap hcaps
      cases hcaps
      exact hcap
  · intro hwithin
    obtain ⟨e, he⟩ := frame_refused hversion hext hpayload hwithin
    refine ⟨tcpReads_refused hne hflat he, ?_, quicReads_refused henc fun n hn ↦
      frame_take_refused hversion hext hpayload hwithin hn⟩
    obtain hdelivered | ⟨debug, herror⟩ := hover (WebSocket.wsProtocolConfig limits) p.frame
    · rw [webSocketReads, hdelivered]
      exact readLoop_binary_refused he
    · rw [webSocketReads, herror]
      exact ⟨rfl, trivial⟩

/-- A library that refuses messages over its message cap. -/
def cappedLibrary (config : WebSocket.WebSocketConfig) (message : Bytes) :
    Except WebSocket.TungsteniteError WebSocket.Message :=
  if config.maxMessageSize.all (message.length ≤ ·) ∧
      config.maxFrameSize.all (message.length ≤ ·) then .ok (.binary message)
  else .error (.other "Capacity(MessageTooLong)")

theorem transports_accept_two_bytes :
    tcpReads (ClientLimits.build ⟨64, by decide⟩ [.maxPayloadSize 64]).connection.decode
        [[1, 0, 0, 0, 0, 0, 0, 7], [0, 0, 0, 0, 0, 2, 0, 0, 1, 2]] =
      ([Packet.oneWay 7 [1, 2]], .reading []) := by
  refine ((transports_accept_alike
    (ClientLimits.build ⟨64, by decide⟩ [.maxPayloadSize 64]).connection.decode
    ⟨⟨64, by decide⟩, .inr ⟨[.maxPayloadSize 64], rfl⟩⟩ cappedLibrary
    (fun config message hmessage hframe ↦ if_pos ?_) (fun config message ↦ ?_)
    (Packet.oneWay 7 [1, 2]) rfl [1, 0, 0, 0, 0, 0, 0, 7, 0, 0, 0, 0, 0, 2, 0, 0, 1, 2] rfl none
    [[1, 0, 0, 0, 0, 0, 0, 7], [0, 0, 0, 0, 0, 2, 0, 0, 1, 2]] (by simp) rfl).1 ?_).1
  · obtain ⟨m, f⟩ := config
    cases m <;> cases f <;> simp_all
  · rw [cappedLibrary]
    split
    · exact .inl rfl
    · exact .inr ⟨_, rfl⟩
  · exact ⟨by decide, by decide⟩

end MsgTrans.Adapters
