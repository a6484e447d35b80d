import MsgTrans.Wire.Packet

/-!
# Resource limits of a connection

Model of `crates/msgtrans/src/transport/limits.rs:12–274`: the limits of a connection, the
server and client records with all their setters, and the derived frame cap. The setters can be
called in any order and any number of times; what they keep is that the frame cap is the sum of
its parts.
-/

namespace MsgTrans.Transport

open MsgTrans.Wire

/-- A compilation target: the width of `usize`, at least 32 bits, since the constants of the
limits do not fit fewer. -/
structure Target where
  usizeBits : Nat
  le_usizeBits : 32 ≤ usizeBits

/-- `DEFAULT_MAX_PAYLOAD_SIZE`; `limits.rs:43`, `packet.rs:130`. -/
def defaultMaxPayloadSize : Nat := 16 * 1024 * 1024

/-- `DEFAULT_MAX_EXT_HEADER_SIZE`; `limits.rs:47`. -/
def defaultMaxExtHeaderSize : Nat := 65535

/-- `Ord::clamp`. -/
def clamp (x lo hi : Nat) : Nat := max lo (min x hi)

/-- `decode_limits`; `limits.rs:247–257`. The arguments are `usize` values and the sum is a
`usize` sum. -/
def decodeLimits (t : Target) (maxPayloadSize maxExtHeaderSize : Nat) : DecodeLimits where
  usizeBits := t.usizeBits
  maxFrameSize := (fixedHeaderSize + maxExtHeaderSize + maxPayloadSize) % 2 ^ t.usizeBits
  maxPayloadSize := maxPayloadSize % 2 ^ t.usizeBits
  maxExtHeaderSize := maxExtHeaderSize % 2 ^ t.usizeBits
  maxFrameSize_lt := Nat.mod_lt _ (Nat.two_pow_pos _)
  maxPayloadSize_lt := Nat.mod_lt _ (Nat.two_pow_pos _)
  maxExtHeaderSize_lt := Nat.mod_lt _ (Nat.two_pow_pos _)

/-- `clamp_payload`; `limits.rs:259–261`. -/
def clampPayload (size : Nat) : Nat := clamp size 64 defaultMaxPayloadSize

/-- `clamp_ext`; `limits.rs:263–265`. -/
def clampExt (size : Nat) : Nat := min size defaultMaxExtHeaderSize

/-- `clamp_deadline`; `limits.rs:267–270`. Durations are counted in nanoseconds. -/
def clampDeadline (deadline : Nat) : Nat := clamp (deadline / 1000000) 10 600000 * 1000000

/-- `ConnectionLimits`; `limits.rs:53–60`. -/
structure ConnectionLimits where
  bufferBytes : Nat
  writeDeadline : Nat
  pipeCapacity : Nat
  outboundCapacity : Nat
  decode : DecodeLimits

/-- The defaults; `limits.rs:14–18,87–97`. -/
def ConnectionLimits.default (t : Target) : ConnectionLimits where
  bufferBytes := 64 * 1024 * 1024
  writeDeadline := 30 * 1000000000
  pipeCapacity := 8192
  outboundCapacity := 2048
  decode := decodeLimits t defaultMaxPayloadSize defaultMaxExtHeaderSize

/-- `ServerLimits`; `limits.rs:102–106`. -/
structure ServerLimits where
  connection : ConnectionLimits
  mailboxCapacity : Nat

/-- `ClientLimits`; `limits.rs:187–190`. -/
structure ClientLimits where
  connection : ConnectionLimits

/-- The setters that both records have, with their arguments. -/
inductive Setter where
  | bufferBytes (bytes : Nat)
  | writeDeadline (deadline : Nat)
  | pipeCapacity (capacity : Nat)
  | outboundQueueCapacity (capacity : Nat)
  | maxPayloadSize (size : Nat)
  | maxExtHeaderSize (size : Nat)
  deriving DecidableEq, Repr

/-- What a setter does to the limits of the connection; `limits.rs:121–183,196–240`. -/
def Setter.apply (t : Target) (c : ConnectionLimits) : Setter → ConnectionLimits
  | .bufferBytes bytes => { c with bufferBytes := clamp bytes (64 * 1024) (1024 * 1024 * 1024) }
  | .writeDeadline deadline => { c with writeDeadline := clampDeadline deadline }
  | .pipeCapacity capacity => { c with pipeCapacity := clamp capacity 1 65536 }
  | .outboundQueueCapacity capacity => { c with outboundCapacity := clamp capacity 1 65536 }
  | .maxPayloadSize size =>
    { c with decode := decodeLimits t (clampPayload size) c.decode.maxExtHeaderSize }
  | .maxExtHeaderSize size =>
    { c with decode := decodeLimits t c.decode.maxPayloadSize (clampExt size) }

/-- A server has one more setter; `limits.rs:163–166`. -/
inductive ServerSetter where
  | connection (setter : Setter)
  | mailboxCapacity (capacity : Nat)
  deriving DecidableEq, Repr

namespace ServerLimits

/-- `ServerLimits::new`; `limits.rs:108–129`. -/
def new (t : Target) : ServerLimits where
  connection := .default t
  mailboxCapacity := 512

/-- One setter call. -/
def set (t : Target) (l : ServerLimits) : ServerSetter → ServerLimits
  | .connection setter => { l with connection := setter.apply t l.connection }
  | .mailboxCapacity capacity => { l with mailboxCapacity := max capacity 1 }

/-- The limits after a sequence of setter calls. -/
def build (t : Target) (setters : List ServerSetter) : ServerLimits :=
  setters.foldl (set t) (new t)

end ServerLimits

namespace ClientLimits

/-- `ClientLimits::new`; `limits.rs:187,203–205`. -/
def new (t : Target) : ClientLimits where
  connection := .default t

/-- One setter call. -/
def set (t : Target) (l : ClientLimits) (setter : Setter) : ClientLimits where
  connection := setter.apply t l.connection

/-- The limits after a sequence of setter calls. -/
def build (t : Target) (setters : List Setter) : ClientLimits :=
  setters.foldl (set t) (new t)

end ClientLimits

/-- What the setters keep of the decode limits: both parts are in range and the frame cap is
their sum with the header. -/
structure Derived (limits : DecodeLimits) : Prop where
  payload : limits.maxPayloadSize ≤ defaultMaxPayloadSize
  ext : limits.maxExtHeaderSize ≤ defaultMaxExtHeaderSize
  frame : limits.maxFrameSize = 16 + limits.maxExtHeaderSize + limits.maxPayloadSize
  usize : 32 ≤ limits.usizeBits

section Setters

variable {t : Target} {P : ConnectionLimits → Prop}

/-- What holds of the defaults and survives every setter holds of the limits a server builds. -/
theorem server_build (hdefault : P (.default t))
    (hset : ∀ (c) (setter : Setter), P c → P (setter.apply t c))
    (setters : List ServerSetter) : P (ServerLimits.build t setters).connection := by
  suffices h : ∀ l : ServerLimits, P l.connection →
      P (setters.foldl (ServerLimits.set t) l).connection from h _ hdefault
  induction setters with
  | nil => exact fun _ h ↦ h
  | cons setter setters ih =>
    intro l h
    apply ih
    cases setter with
    | connection setter => exact hset _ setter h
    | mailboxCapacity capacity => exact h

/-- And of those a client builds. -/
theorem client_build (hdefault : P (.default t))
    (hset : ∀ (c) (setter : Setter), P c → P (setter.apply t c))
    (setters : List Setter) : P (ClientLimits.build t setters).connection := by
  suffices h : ∀ l : ClientLimits, P l.connection →
      P (setters.foldl (ClientLimits.set t) l).connection from h _ hdefault
  induction setters with
  | nil => exact fun _ h ↦ h
  | cons setter setters ih =>
    intro l h
    apply ih
    exact hset _ setter h

end Setters

section Derived

variable {t : Target} {payload ext : Nat}

theorem two_pow_le (t : Target) : 2 ^ 32 ≤ 2 ^ t.usizeBits :=
  Nat.pow_le_pow_right (by omega) t.le_usizeBits

/-- In range nothing wraps. -/
theorem decodeLimits_eq (hpayload : payload ≤ defaultMaxPayloadSize)
    (hext : ext ≤ defaultMaxExtHeaderSize) :
    (decodeLimits t payload ext).maxPayloadSize = payload ∧
      (decodeLimits t payload ext).maxExtHeaderSize = ext ∧
        (decodeLimits t payload ext).maxFrameSize = 16 + ext + payload := by
  have hpow := two_pow_le t
  simp only [defaultMaxPayloadSize, defaultMaxExtHeaderSize] at hpayload hext
  refine ⟨?_, ?_, ?_⟩
  · apply Nat.mod_eq_of_lt
    omega
  · apply Nat.mod_eq_of_lt
    omega
  · apply Nat.mod_eq_of_lt
    simp only [fixedHeaderSize]
    omega

theorem derived_decodeLimits (hpayload : payload ≤ defaultMaxPayloadSize)
    (hext : ext ≤ defaultMaxExtHeaderSize) : Derived (decodeLimits t payload ext) := by
  obtain ⟨hp, he, hf⟩ := decodeLimits_eq (t := t) hpayload hext
  constructor
  · rwa [hp]
  · rwa [he]
  · rw [hp, he, hf]
  · exact t.le_usizeBits

theorem clampPayload_le (size : Nat) : clampPayload size ≤ defaultMaxPayloadSize := by
  simp only [clampPayload, clamp, defaultMaxPayloadSize]
  omega

theorem clampExt_le (size : Nat) : clampExt size ≤ defaultMaxExtHeaderSize :=
  Nat.min_le_right _ _

theorem derived_default (t : Target) : Derived (ConnectionLimits.default t).decode :=
  derived_decodeLimits (Nat.le_refl _) (Nat.le_refl _)

/-- Every setter keeps the frame cap derived. -/
theorem Derived.set {c : ConnectionLimits} (h : Derived c.decode) (setter : Setter) :
    Derived (setter.apply t c).decode := by
  cases setter with
  | maxPayloadSize size => exact derived_decodeLimits (clampPayload_le size) h.ext
  | maxExtHeaderSize size => exact derived_decodeLimits h.payload (clampExt_le size)
  | _ => exact h

theorem derived_server (t : Target) (setters : List ServerSetter) :
    Derived (ServerLimits.build t setters).connection.decode :=
  server_build (P := fun c ↦ Derived c.decode) (derived_default t) (fun _ setter h ↦ h.set setter)
    setters

theorem derived_client (t : Target) (setters : List Setter) :
    Derived (ClientLimits.build t setters).connection.decode :=
  client_build (P := fun c ↦ Derived c.decode) (derived_default t) (fun _ setter h ↦ h.set setter)
    setters

end Derived

/-- Every setter keeps the byte budget bounded. -/
theorem bufferBytes_set {t : Target} {c : ConnectionLimits} (setter : Setter)
    (h : c.bufferBytes ≤ 1024 * 1024 * 1024) :
    (setter.apply t c).bufferBytes ≤ 1024 * 1024 * 1024 := by
  cases setter with
  | bufferBytes bytes =>
    simp only [Setter.apply, clamp]
    omega
  | _ => exact h

theorem bufferBytes_default (t : Target) :
    (ConnectionLimits.default t).bufferBytes ≤ 1024 * 1024 * 1024 := by
  simp only [ConnectionLimits.default]
  omega

/-- Decode limits that some sequence of server or client setters gives. -/
def Configured (limits : DecodeLimits) : Prop :=
  ∃ t, (∃ setters, limits = (ServerLimits.build t setters).connection.decode) ∨
    ∃ setters, limits = (ClientLimits.build t setters).connection.decode

theorem Configured.derived {limits : DecodeLimits} (h : Configured limits) : Derived limits := by
  obtain ⟨t, ⟨setters, rfl⟩ | ⟨setters, rfl⟩⟩ := h
  · exact derived_server t setters
  · exact derived_client t setters

end MsgTrans.Transport
