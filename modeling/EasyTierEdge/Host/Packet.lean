import EasyTierEdge.Packet
import EasyTierEdge.Lib.Except

/-!
# Frames in the host

`src/core/packet.ts` handles frames without crossing into the WebAssembly module, and
is meant to agree with `wasm/src/packet.rs`. A number of the host is a double: its
bitwise operators go through 32-bit integers (signed, but for `>>>`), while its sums
do not wrap at `2 ^ 32`. The sum of a length field and the AEAD tail is where the two
implementations part (`LengthWraps`); everywhere else they agree
(`packetCode_agrees_iff`).
-/

namespace EasyTierEdge

namespace Host

open FixedWidth

/-- The header of a frame, in numbers of the host. -/
structure PacketHeader where
  fromPeerId : ℕ
  toPeerId : ℕ
  packetType : ℕ
  flags : ℕ
  forwardCounter : ℕ
  reserved : ℕ
  payloadLength : ℕ
  deriving DecidableEq

/-- The byte at an index, as an operand of a bitwise operator. -/
def byteAt (bytes : Bytes) (i : ℕ) : Int32 := Int32.ofNat (bytes.getD i 0).toNat

def readU32 (bytes : Bytes) (offset : ℕ) : ℕ :=
  -- The operands of `|` are signed, and `>>> 0` reads the bits as an unsigned number.
  (byteAt bytes offset ||| (byteAt bytes (offset + 1) <<< 8) |||
    (byteAt bytes (offset + 2) <<< 16) ||| (byteAt bytes (offset + 3) <<< 24)).toUInt32.toNat

/-- The four bytes that `writeU32` stores. -/
def writeU32 (value : ℕ) : Bytes :=
  [UInt8.ofNat (Int32.ofNat value &&& 0xff).toUInt32.toNat,
    UInt8.ofNat ((UInt32.ofNat value >>> 8).toInt32 &&& 0xff).toUInt32.toNat,
    UInt8.ofNat ((UInt32.ofNat value >>> 16).toInt32 &&& 0xff).toUInt32.toNat,
    UInt8.ofNat ((UInt32.ofNat value >>> 24).toInt32 &&& 0xff).toUInt32.toNat]

/-- The header and the payload of a frame. -/
def parsePacket (bytes : Bytes) : Except String (PacketHeader × Bytes) := do
  if bytes.length < headerSize then
    throw s!"EasyTier packet header too short: {bytes.length} < {headerSize}"
  let flags := bytes.getD 9 0
  let payloadLength := readU32 bytes 12
  let actual := bytes.length - headerSize
  let expected := payloadLength + if flags &&& encryptedFlag == 0 then 0 else aeadTailSize
  if actual ≠ expected then
    throw s!"payload length mismatch: {actual} != {expected}"
  return ({ fromPeerId := readU32 bytes 0
            toPeerId := readU32 bytes 4
            packetType := (bytes.getD 8 0).toNat
            flags := flags.toNat
            forwardCounter := (bytes.getD 10 0).toNat
            reserved := (bytes.getD 11 0).toNat
            payloadLength }, bytes.drop headerSize)

def createPacket (fromPeerId toPeerId packetType : ℕ) (payload : Bytes) : Except String Bytes := do
  if payload.length > 0xffffffff then
    throw "packet payload exceeds the EasyTier u32 length"
  return writeU32 fromPeerId ++ writeU32 toPeerId ++ [UInt8.ofNat packetType, 0, 1, 0] ++
    writeU32 payload.length ++ payload

/-- The frame with its hop counter raised, in place. -/
def incrementForwardCounter (frame : Bytes) : Except String Bytes := do
  if frame.length < headerSize then
    throw "EasyTier packet header too short"
  let counter := frame.getD 10 0
  if counter > maxForwardHops then
    throw "EasyTier forwarding hop limit exceeded"
  return frame.set 10 (counter + 1)

def createPong (frame : Bytes) : Except String Bytes := do
  if frame.length < headerSize ∨ frame.getD 8 0 ≠ PacketType.ping then
    throw "only an EasyTier Ping packet can become Pong"
  return frame.set 8 PacketType.pong

def relayDataPlaneTypes : List UInt8 := [1, 11, 12, 16, 17, 18, 19]

/-- Whether a frame carries relayed data. Only foreign network packets, and frames
    without a header, are left to the module. -/
def isRelayDataPacket (frame : Bytes) : Except String Bool :=
  if frame.length ≥ headerSize ∧ frame.getD 8 0 ≠ PacketType.foreignNetwork then
    .ok (frame.getD 8 0 ∈ relayDataPlaneTypes)
  else
    EasyTierEdge.isRelayDataPacket frame

/-- A header of the module in numbers of the host. -/
def PacketHeader.ofWasm (h : EasyTierEdge.PacketHeader) : PacketHeader where
  fromPeerId := h.fromPeerId.toNat
  toPeerId := h.toPeerId.toNat
  packetType := h.packetType.toNat
  flags := h.flags.toNat
  forwardCounter := h.forwardCounter.toNat
  reserved := h.reserved.toNat
  payloadLength := h.len.toNat

/-- The bytes of a number are read as the number: a set sign bit is not lost. -/
theorem readU32_eq {bytes : Bytes} {offset : ℕ} (x : UInt32)
    (h : ∀ i < 4, bytes.getD (offset + i) 0 = x.toLeBytes.getD i 0) :
    readU32 bytes offset = x.toNat := by
  have hbyte : ∀ i, (byteAt bytes i).toUInt32.toNat = (bytes.getD i 0).toNat := by
    intro i
    have := (bytes.getD i 0).toNat_lt
    simp only [byteAt, Int32.toUInt32_ofNat', UInt32.toNat_ofNat']
    omega
  -- A byte shifted by at most 24 places stays within 32 bits.
  have hshift : ∀ i, ∀ k ∈ [8, 16, 24],
      (byteAt bytes i).toUInt32.toNat <<< k % 2 ^ 32 = (bytes.getD i 0).toNat <<< k := by
    intro i k hk
    have := (bytes.getD i 0).toNat_lt
    rw [hbyte, Nat.shiftLeft_eq]
    apply Nat.mod_eq_of_lt
    simp only [List.mem_cons, List.not_mem_nil, or_false] at hk
    rcases hk with rfl | rfl | rfl <;> omega
  have h₁ : (byteAt bytes (offset + 1) <<< 8).toUInt32.toNat = _ := hshift _ 8 (by decide)
  have h₂ : (byteAt bytes (offset + 2) <<< 16).toUInt32.toNat = _ := hshift _ 16 (by decide)
  have h₃ : (byteAt bytes (offset + 3) <<< 24).toUInt32.toNat = _ := hshift _ 24 (by decide)
  have hsum : readU32 bytes offset = ofLeBytes [bytes.getD (offset + 0) 0,
      bytes.getD (offset + 1) 0, bytes.getD (offset + 2) 0, bytes.getD (offset + 3) 0] := by
    rw [← or_shiftLeft_eq_ofLeBytes, readU32, Int32.toUInt32_or, Int32.toUInt32_or,
      Int32.toUInt32_or, UInt32.toNat_or, UInt32.toNat_or, UInt32.toNat_or, hbyte, h₁, h₂, h₃]
    rfl
  rw [hsum, h 0 (by decide), h 1 (by decide), h 2 (by decide), h 3 (by decide)]
  exact x.ofLeBytes_toLeBytes

theorem writeU32_toNat (x : UInt32) : writeU32 x.toNat = x.toLeBytes := by
  have hbyte : ∀ y : UInt32, UInt8.ofNat (y.toInt32 &&& 0xff).toUInt32.toNat = y.toUInt8 := by
    intro y
    apply UInt8.toNat.inj
    have hand : (y.toInt32 &&& 0xff).toUInt32.toNat = y.toNat % 2 ^ 8 :=
      Nat.and_two_pow_sub_one_eq_mod y.toNat 8
    rw [hand, UInt8.toNat_ofNat', UInt32.toNat_toUInt8, Nat.mod_mod]
  have hx : Int32.ofNat x.toNat = x.toInt32 := congrArg UInt32.toInt32 UInt32.ofNat_toNat
  rw [writeU32, hx, UInt32.ofNat_toNat, hbyte, hbyte, hbyte, hbyte]
  rfl

/-- The length the host expects after the header. -/
def expectedLength (header : EasyTierEdge.PacketHeader) : ℕ :=
  header.len.toNat + if header.flags &&& encryptedFlag == 0 then 0 else aeadTailSize

section Frames

variable (header : EasyTierEdge.PacketHeader) (payload : Bytes)

/-- The host reads the header that the module wrote. -/
theorem parsePacket_joinHeaderPayload :
    (parsePacket (joinHeaderPayload header payload)).toOption =
      if payload.length = expectedLength header then some (.ofWasm header, payload) else none := by
  have hfrom : readU32 (joinHeaderPayload header payload) 0 = header.fromPeerId.toNat := by
    refine readU32_eq _ fun i hi => ?_
    interval_cases i <;> rfl
  have hto : readU32 (joinHeaderPayload header payload) 4 = header.toPeerId.toNat := by
    refine readU32_eq _ fun i hi => ?_
    interval_cases i <;> rfl
  have hlen : readU32 (joinHeaderPayload header payload) 12 = header.len.toNat := by
    refine readU32_eq _ fun i hi => ?_
    interval_cases i <;> rfl
  have hflags : (joinHeaderPayload header payload).getD 9 0 = header.flags := rfl
  have hshort : ¬(headerSize + payload.length < headerSize) := by omega
  rw [parsePacket, hfrom, hto, hlen, hflags, length_joinHeaderPayload, if_neg hshort,
    Nat.add_sub_cancel_left, expectedLength]
  dsimp only
  split_ifs <;> first | rfl | contradiction

/-- The module expects the same length, up to a multiple of `2 ^ 32`. -/
theorem wasm_parsePacket_joinHeaderPayload :
    (EasyTierEdge.parsePacket (joinHeaderPayload header payload)).toOption =
      if payload.length = expectedLength header % 2 ^ 32 then some header else none := by
  rw [EasyTierEdge.parsePacket, fromBytes_joinHeaderPayload, length_joinHeaderPayload,
    Nat.add_sub_cancel_left, expectedLength]
  simp only [bind, Except.bind]
  split_ifs <;> first | rfl | contradiction

/-- Both sides raise the hop counter of a frame that the module accepts in the same way. -/
theorem incrementForwardCounter_joinHeaderPayload
    (h : payload.length = expectedLength header % 2 ^ 32) :
    (incrementForwardCounter (joinHeaderPayload header payload)).toOption =
      (prepareForward (joinHeaderPayload header payload)).toOption := by
  have hparse : EasyTierEdge.parsePacket (joinHeaderPayload header payload) = .ok header := by
    rw [← Except.toOption_eq_some, wasm_parsePacket_joinHeaderPayload, if_pos h]
  have hshort : ¬(joinHeaderPayload header payload).length < headerSize := by
    simp [length_joinHeaderPayload]
  have hcounter : (joinHeaderPayload header payload).getD 10 0 = header.forwardCounter := rfl
  rw [incrementForwardCounter, prepareForward, if_neg hshort, hcounter, hparse]
  rfl

/-- Both sides answer the same pings among the frames that the module accepts. -/
theorem createPong_joinHeaderPayload (h : payload.length = expectedLength header % 2 ^ 32) :
    (createPong (joinHeaderPayload header payload)).toOption =
      (preparePong (joinHeaderPayload header payload)).toOption := by
  have hparse : EasyTierEdge.parsePacket (joinHeaderPayload header payload) = .ok header := by
    rw [← Except.toOption_eq_some, wasm_parsePacket_joinHeaderPayload, if_pos h]
  have hshort : ¬(joinHeaderPayload header payload).length < headerSize := by
    simp [length_joinHeaderPayload]
  have htype : (joinHeaderPayload header payload).getD 8 0 = header.packetType := rfl
  rw [createPong, preparePong, htype, hparse]
  simp only [hshort, false_or]
  rfl

end Frames

/-- The host classifies every frame as the module does. -/
theorem isRelayDataPacket_eq (frame : Bytes) :
    isRelayDataPacket frame = EasyTierEdge.isRelayDataPacket frame := by
  rw [isRelayDataPacket]
  split_ifs with h
  · obtain ⟨hlen, htype⟩ := h
    obtain ⟨header, payload, rfl⟩ := exists_joinHeaderPayload hlen
    have htype' : ¬(header.packetType == PacketType.foreignNetwork) = true :=
      fun h => htype (beq_iff_eq.1 h)
    rw [EasyTierEdge.isRelayDataPacket, fromBytes_joinHeaderPayload]
    simp only [bind, Except.bind]
    rw [if_neg htype']
    rfl
  · rfl

/-- What `parsePacket`, `incrementForwardCounter`, `createPong` and `isRelayDataPacket` make
    of a byte string is what the module makes of it. -/
structure FrameCodeAgrees (bytes : Bytes) : Prop where
  parse : (parsePacket bytes).toOption.map Prod.fst =
    (EasyTierEdge.parsePacket bytes).toOption.map PacketHeader.ofWasm
  forward : (parsePacket bytes).isOk →
    (incrementForwardCounter bytes).toOption = (prepareForward bytes).toOption
  pong : (parsePacket bytes).isOk → (createPong bytes).toOption = (preparePong bytes).toOption
  relayData : (isRelayDataPacket bytes).toOption = (EasyTierEdge.isRelayDataPacket bytes).toOption

/-- The host builds the frame that the module builds, and reads it back. -/
structure BuildCodeAgrees (fromPeerId toPeerId : UInt32) (packetType : UInt8)
    (payload : Bytes) : Prop where
  build : (createPacket fromPeerId.toNat toPeerId.toNat packetType.toNat payload).toOption =
    (buildPacket fromPeerId toPeerId packetType payload).toOption
  parse : ∀ bytes,
    createPacket fromPeerId.toNat toPeerId.toNat packetType.toNat payload = .ok bytes →
    ∃ header, parsePacket bytes = .ok (header, payload) ∧ header.fromPeerId = fromPeerId.toNat ∧
      header.toPeerId = toPeerId.toNat ∧ header.packetType = packetType.toNat

/-- An encrypted frame whose length field and AEAD tail add up to `2 ^ 32` more than the
    payload it has. -/
def LengthWraps (bytes : Bytes) : Prop :=
  headerSize ≤ bytes.length ∧ bytes.getD 9 0 &&& encryptedFlag ≠ 0 ∧
    ofLeBytes ((bytes.drop 12).take 4) + aeadTailSize = bytes.length - headerSize + 2 ^ 32

theorem lengthWraps_joinHeaderPayload (header : EasyTierEdge.PacketHeader) (payload : Bytes) :
    LengthWraps (joinHeaderPayload header payload) ↔
      expectedLength header = payload.length + 2 ^ 32 := by
  have hflags : (joinHeaderPayload header payload).getD 9 0 = header.flags := rfl
  have hlen : ((joinHeaderPayload header payload).drop 12).take 4 = header.len.toLeBytes := rfl
  have := header.len.toNat_lt
  rw [LengthWraps, hflags, hlen, UInt32.ofLeBytes_toLeBytes, length_joinHeaderPayload,
    Nat.add_sub_cancel_left, expectedLength]
  by_cases h : header.flags &&& encryptedFlag = 0
  · simp only [h, ne_eq, not_true_eq_false, false_and, and_false, beq_self_eq_true, if_true,
      false_iff]
    omega
  · simp [h]

/-- Frames without a header are rejected on both sides. -/
theorem FrameCodeAgrees.of_short {bytes : Bytes} (h : bytes.length < headerSize) :
    FrameCodeAgrees bytes := by
  have hparse : (parsePacket bytes).toOption = none := by
    rw [parsePacket, if_pos h]
    rfl
  have hwasm : (EasyTierEdge.parsePacket bytes).toOption = none := by
    rw [EasyTierEdge.parsePacket, EasyTierEdge.PacketHeader.fromBytes, if_pos h]
    rfl
  have hrejected : ¬(parsePacket bytes).isOk := by
    rw [Except.isOk_iff_exists]
    rintro ⟨a, ha⟩
    rw [ha] at hparse
    cases hparse
  exact ⟨by rw [hparse, hwasm]; rfl, fun h => absurd h hrejected, fun h => absurd h hrejected,
    by rw [isRelayDataPacket_eq]⟩

/-- The two implementations agree on a byte string if and only if its length does not wrap. -/
theorem frameCodeAgrees_iff {bytes : Bytes} (hlen : bytes.length < 2 ^ 31) :
    FrameCodeAgrees bytes ↔ ¬LengthWraps bytes := by
  by_cases hshort : bytes.length < headerSize
  · exact iff_of_true (.of_short hshort) fun h => absurd h.1 (not_le.2 hshort)
  obtain ⟨header, payload, rfl⟩ := exists_joinHeaderPayload (not_lt.1 hshort)
  rw [length_joinHeaderPayload] at hlen
  rw [lengthWraps_joinHeaderPayload]
  have hwrap : expectedLength header < 2 ^ 32 + 28 := by
    have := header.len.toNat_lt
    rw [expectedLength, aeadTailSize]
    split_ifs <;> omega
  constructor
  · -- A frame that wraps is accepted by the module only.
    rintro ⟨hparse, -, -, -⟩ h
    rw [parsePacket_joinHeaderPayload, wasm_parsePacket_joinHeaderPayload, h,
      if_neg (by omega), if_pos (by omega)] at hparse
    cases hparse
  · intro h
    have hmod : payload.length = expectedLength header ↔
        payload.length = expectedLength header % 2 ^ 32 := by omega
    have haccepted (hok : (parsePacket (joinHeaderPayload header payload)).isOk) :
        payload.length = expectedLength header % 2 ^ 32 := by
      obtain ⟨a, ha⟩ := Except.isOk_iff_exists.1 hok
      have hsome := parsePacket_joinHeaderPayload header payload
      rw [ha] at hsome
      by_contra hne
      rw [if_neg (mt hmod.1 hne)] at hsome
      cases hsome
    refine ⟨?_, fun hok => ?_, fun hok => ?_, by rw [isRelayDataPacket_eq]⟩
    · rw [parsePacket_joinHeaderPayload, wasm_parsePacket_joinHeaderPayload]
      simp only [hmod]
      split_ifs <;> rfl
    · exact incrementForwardCounter_joinHeaderPayload header payload (haccepted hok)
    · exact createPong_joinHeaderPayload header payload (haccepted hok)

/-- The frames of the host are those of the module, and are read back. -/
theorem buildCodeAgrees (fromPeerId toPeerId : UInt32) (packetType : UInt8) (payload : Bytes) :
    BuildCodeAgrees fromPeerId toPeerId packetType payload := by
  by_cases h : payload.length ≥ 2 ^ 32
  · have hcreate : (createPacket fromPeerId.toNat toPeerId.toNat packetType.toNat payload) =
        .error "packet payload exceeds the EasyTier u32 length" := by
      rw [createPacket, if_pos (show payload.length > 0xffffffff by omega)]
      rfl
    refine ⟨?_, fun bytes hbytes => ?_⟩
    · rw [hcreate, buildPacket, if_pos h]
      rfl
    · rw [hcreate] at hbytes
      cases hbytes
  set header : EasyTierEdge.PacketHeader :=
    { fromPeerId, toPeerId, packetType, flags := 0, forwardCounter := 1, reserved := 0,
      len := UInt32.ofNat payload.length } with hheader
  have hlen : header.len.toNat = payload.length := by
    rw [hheader, UInt32.toNat_ofNat']
    omega
  have hcreate : (createPacket fromPeerId.toNat toPeerId.toNat packetType.toNat payload) =
      .ok (joinHeaderPayload header payload) := by
    rw [createPacket, if_neg (show ¬payload.length > 0xffffffff by omega), ← hlen, writeU32_toNat,
      writeU32_toNat, writeU32_toNat, UInt8.ofNat_toNat]
    rfl
  refine ⟨?_, fun bytes hbytes => ?_⟩
  · rw [hcreate, buildPacket, if_neg h]
    rfl
  · rw [hcreate] at hbytes
    obtain rfl := Except.ok.inj hbytes
    have hparse := parsePacket_joinHeaderPayload header payload
    have hexpected : payload.length = expectedLength header := by
      have hplain : (0 &&& encryptedFlag == 0) = true := by decide
      rw [expectedLength, hlen, if_pos hplain, Nat.add_zero]
    rw [if_pos hexpected] at hparse
    exact ⟨_, Except.toOption_eq_some.1 hparse, rfl, rfl, rfl⟩

/-- The two implementations of the framing agree, but on the frames whose length wraps. -/
theorem packetCode_agrees_iff {bytes : Bytes} (hlen : bytes.length < 2 ^ 31)
    (fromPeerId toPeerId : UInt32) (packetType : UInt8) (payload : Bytes) :
    FrameCodeAgrees bytes ∧ BuildCodeAgrees fromPeerId toPeerId packetType payload ↔
      ¬LengthWraps bytes := by
  rw [and_iff_left (buildCodeAgrees fromPeerId toPeerId packetType payload)]
  exact frameCodeAgrees_iff hlen

/-- A ping of two bytes is handled in the same way. -/
theorem packetCode_agrees_on_ping :
    let ping : Bytes := [7, 0, 0, 0, 9, 0, 0, 0, 4, 0, 1, 0, 2, 0, 0, 0, 5, 6]
    FrameCodeAgrees ping ∧ BuildCodeAgrees 7 9 4 [5, 6] :=
  (packetCode_agrees_iff (by decide) 7 9 4 [5, 6]).2 (fun h => absurd h.2.1 (by decide))

/-- An encrypted frame without a payload that announces `2 ^ 32 - 28` bytes is accepted by
    the module and rejected by the host. -/
theorem wrapped_length_disagrees :
    let frame : Bytes := [7, 0, 0, 0, 9, 0, 0, 0, 1, 1, 1, 0, 0xe4, 0xff, 0xff, 0xff]
    frame.length < 2 ^ 31 ∧ (EasyTierEdge.parsePacket frame).isOk ∧ ¬(parsePacket frame).isOk ∧
      ¬FrameCodeAgrees frame := by
  intro frame
  have hwasm : (EasyTierEdge.parsePacket frame).isOk = true := by decide +kernel
  have hhost : (parsePacket frame).isOk = false := by decide +kernel
  refine ⟨by decide, hwasm, by simp [hhost], fun h => ?_⟩
  have hwraps : LengthWraps frame := ⟨by decide, by decide, by decide +kernel⟩
  exact (frameCodeAgrees_iff (by decide)).1 h hwraps

end Host
end EasyTierEdge
