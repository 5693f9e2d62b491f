import EasyTierEdge.Lib.FixedWidth

/-!
# EasyTier frames

The framing of `wasm/src/packet.rs`: a 16-byte little-endian header, then the
payload, followed by a 28-byte AEAD tail (a 16-byte tag and a 12-byte nonce)
when the encrypted flag is set. The length field counts the payload without
the tail. On the deployed target `usize` has 32 bits, and the expected length is
a wrapping sum (`parsePacket`).
-/

namespace EasyTierEdge

/-- A byte string. -/
abbrev Bytes := List UInt8

def headerSize : ℕ := 16
def aeadTailSize : ℕ := 28
def encryptedFlag : UInt8 := 0x01
def maxForwardHops : UInt8 := 7
/-- The fixed part of the header of a foreign network packet. -/
def foreignHeaderMinLen : ℕ := 10

namespace PacketType

def data : UInt8 := 1
def ping : UInt8 := 4
def pong : UInt8 := 5
def foreignNetwork : UInt8 := 10
def kcpSrc : UInt8 := 11
def kcpDst : UInt8 := 12
def quicSrc : UInt8 := 16
def quicDst : UInt8 := 17
def dataKcpModified : UInt8 := 18
def dataQuicModified : UInt8 := 19

end PacketType

/-- The header of a frame. -/
structure PacketHeader where
  fromPeerId : UInt32
  toPeerId : UInt32
  packetType : UInt8
  flags : UInt8
  forwardCounter : UInt8
  reserved : UInt8
  len : UInt32
  deriving DecidableEq, Inhabited

namespace PacketHeader

/-- The header at the start of `bytes`. -/
def fromBytes (bytes : Bytes) : Except String PacketHeader :=
  if bytes.length < headerSize then
    .error s!"header too short: {bytes.length} < {headerSize}"
  else
    .ok
      { fromPeerId := UInt32.fromLeBytes (bytes.take 4)
        toPeerId := UInt32.fromLeBytes ((bytes.drop 4).take 4)
        packetType := bytes.getD 8 0
        flags := bytes.getD 9 0
        forwardCounter := bytes.getD 10 0
        reserved := bytes.getD 11 0
        len := UInt32.fromLeBytes ((bytes.drop 12).take 4) }

/-- The sixteen bytes of a header. -/
def toBytes (h : PacketHeader) : Bytes :=
  h.fromPeerId.toLeBytes ++ h.toPeerId.toLeBytes ++
    [h.packetType, h.flags, h.forwardCounter, h.reserved] ++ h.len.toLeBytes

@[simp] theorem length_toBytes (h : PacketHeader) : h.toBytes.length = headerSize := rfl

@[simp] theorem toBytes_ne_nil (h : PacketHeader) : h.toBytes ≠ [] := List.cons_ne_nil _ _

/-- A header is read back from the frame it starts. -/
theorem fromBytes_toBytes_append (h : PacketHeader) (payload : Bytes) :
    fromBytes (h.toBytes ++ payload) = .ok h := by
  have hlen : ¬(h.toBytes ++ payload).length < headerSize := by simp
  have h₀ : (h.toBytes ++ payload).take 4 = h.fromPeerId.toLeBytes := rfl
  have h₄ : ((h.toBytes ++ payload).drop 4).take 4 = h.toPeerId.toLeBytes := rfl
  have h₁₂ : ((h.toBytes ++ payload).drop 12).take 4 = h.len.toLeBytes := rfl
  rw [fromBytes, if_neg hlen, h₀, h₄, h₁₂]
  simp only [UInt32.fromLeBytes_toLeBytes]
  rfl

/-- Whether the payload is followed by an AEAD tail. -/
def encrypted (h : PacketHeader) : Bool := h.flags &&& encryptedFlag != 0

end PacketHeader

/-- The header of a frame, whose length must be the one the header announces. -/
def parsePacket (bytes : Bytes) : Except String PacketHeader := do
  let header ← PacketHeader.fromBytes bytes
  let payloadLen := bytes.length - headerSize
  let expectedLen :=
    (header.len.toNat + if header.flags &&& encryptedFlag == 0 then 0 else aeadTailSize) % 2 ^ 32
  if payloadLen ≠ expectedLen then
    throw s!"payload length mismatch: {payloadLen} != {expectedLen}"
  return header

/-- A frame made of a header and a payload. -/
def joinHeaderPayload (header : PacketHeader) (payload : Bytes) : Bytes :=
  header.toBytes ++ payload

@[simp] theorem fromBytes_joinHeaderPayload (header : PacketHeader) (payload : Bytes) :
    PacketHeader.fromBytes (joinHeaderPayload header payload) = .ok header :=
  header.fromBytes_toBytes_append payload

@[simp] theorem drop_joinHeaderPayload (header : PacketHeader) (payload : Bytes) :
    (joinHeaderPayload header payload).drop headerSize = payload := rfl

theorem length_joinHeaderPayload (header : PacketHeader) (payload : Bytes) :
    (joinHeaderPayload header payload).length = headerSize + payload.length := by
  simp [joinHeaderPayload]

/-- A byte string with room for a header is a header and a payload. -/
theorem exists_joinHeaderPayload {bytes : Bytes} (h : headerSize ≤ bytes.length) :
    ∃ header payload, bytes = joinHeaderPayload header payload := by
  obtain ⟨front, payload, rfl, hfront⟩ :
      ∃ front payload, bytes = front ++ payload ∧ front.length = headerSize :=
    ⟨bytes.take headerSize, bytes.drop headerSize, (List.take_append_drop _ _).symm,
      by simpa using h⟩
  match front, hfront with
  | [f₀, f₁, f₂, f₃, t₀, t₁, t₂, t₃, packetType, flags, forwardCounter, reserved,
      l₀, l₁, l₂, l₃], _ =>
    refine ⟨⟨UInt32.fromLeBytes [f₀, f₁, f₂, f₃], UInt32.fromLeBytes [t₀, t₁, t₂, t₃], packetType,
      flags, forwardCounter, reserved, UInt32.fromLeBytes [l₀, l₁, l₂, l₃]⟩, payload, ?_⟩
    simp only [joinHeaderPayload, PacketHeader.toBytes, UInt32.toLeBytes_fromLeBytes]
    rfl

/-- A control frame with a fresh hop counter. -/
def wrapPacket (sender receiver : UInt32) (packetType flags : UInt8) (payload : Bytes) : Bytes :=
  joinHeaderPayload
    { fromPeerId := sender, toPeerId := receiver, packetType, flags, forwardCounter := 1,
      reserved := 0, len := UInt32.ofNat payload.length } payload

/-- A control frame without flags, whose payload must fit the length field. -/
def buildPacket (fromPeerId toPeerId : UInt32) (packetType : UInt8) (payload : Bytes) :
    Except String Bytes := do
  if payload.length ≥ 2 ^ 32 then
    throw "packet payload exceeds the EasyTier u32 length"
  return joinHeaderPayload
    { fromPeerId, toPeerId, packetType, flags := 0, forwardCounter := 1, reserved := 0,
      len := UInt32.ofNat payload.length } payload

/-- The frame as it is passed on, one hop further. -/
def prepareForward (bytes : Bytes) : Except String Bytes := do
  let header ← parsePacket bytes
  if header.forwardCounter > maxForwardHops then
    throw "EasyTier forwarding hop limit exceeded"
  return bytes.set 10 (header.forwardCounter + 1)

/-- The answer to a ping. -/
def preparePong (bytes : Bytes) : Except String Bytes := do
  let header ← parsePacket bytes
  if header.packetType ≠ PacketType.ping then
    throw "only an EasyTier Ping packet can become Pong"
  return bytes.set 8 PacketType.pong

def isDataPlanePacketType (packetType : UInt8) : Bool :=
  packetType ∈ [PacketType.data, PacketType.kcpSrc, PacketType.kcpDst, PacketType.quicSrc,
    PacketType.quicDst, PacketType.dataKcpModified, PacketType.dataQuicModified]

def isRelayDataPacketType (packetType : UInt8) : Bool :=
  isDataPlanePacketType packetType || packetType == PacketType.foreignNetwork

/-- The type of the packet inside a foreign network packet, if it can be found. -/
def foreignNetworkInnerPacketType (bytes : Bytes) : Option UInt8 :=
  let payload := bytes.drop headerSize
  if payload.length < foreignHeaderMinLen then
    none
  else
    let headerLen := FixedWidth.ofLeBytes (payload.take 2)
    if headerLen < foreignHeaderMinLen ∨ payload.length < headerLen then
      none
    else
      let inner := payload.drop headerLen
      if inner.length < headerSize then none else inner[8]?

/-- Whether a frame carries relayed data. What cannot be seen through counts as data. -/
def isRelayDataPacket (bytes : Bytes) : Except String Bool := do
  let header ← PacketHeader.fromBytes bytes
  if header.packetType == PacketType.foreignNetwork then
    return ((foreignNetworkInnerPacketType bytes).map isRelayDataPacketType).getD true
  return isDataPlanePacketType header.packetType

/-- The header and the payload of a frame. -/
def splitPacket (bytes : Bytes) : Except String (PacketHeader × Bytes) :=
  (parsePacket bytes).map fun header => (header, bytes.drop headerSize)

/-- A frame that splits starts with its header, and the payload follows. -/
theorem splitPacket_eq_ok {bytes : Bytes} {header : PacketHeader} {payload : Bytes}
    (h : splitPacket bytes = .ok (header, payload)) :
    PacketHeader.fromBytes bytes = .ok header ∧ payload = bytes.drop headerSize := by
  unfold splitPacket parsePacket at h
  cases hheader : PacketHeader.fromBytes bytes with
  | error e => simp [hheader, bind, Except.bind, Except.map] at h
  | ok header' =>
    simp only [hheader, bind, Except.bind, pure, Except.pure] at h
    split_ifs at h
    · cases h
    · cases h
      exact ⟨rfl, rfl⟩
    · cases h
    · cases h
      exact ⟨rfl, rfl⟩

end EasyTierEdge
