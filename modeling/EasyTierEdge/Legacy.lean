import EasyTierEdge.Lib.Except
import EasyTierEdge.Lib.SipHash
import EasyTierEdge.Packet
import EasyTierEdge.Secure.Crates

/-!
# Clients without secure mode

`wasm/src/legacy.rs`: the handshake of a client that cannot use Noise, and the cipher of its
control packets. In the handshake the client names its network and proves that it knows the
secret by a digest of both, made of four chained SipHash values. The key of the cipher is made
of the secret in the same way.

The random nonce of a packet is an argument. `HandshakeCodec` is what `prost` generates for the
message of the handshake.
-/

namespace EasyTierEdge

def packetTypeHandshake : UInt8 := 2

def legacyMagic : UInt32 := 0xd1e1a5e1

def legacyVersion : UInt32 := 1

def digestSize : ℕ := 32

structure HandshakeRequest where
  magic : UInt32
  myPeerId : UInt32
  version : UInt32
  features : List String
  networkName : String
  networkSecretDigest : Bytes

/-- What `prost` generates for `HandshakeRequest`. -/
structure HandshakeCodec where
  decode : Bytes → Except String HandshakeRequest
  encode : HandshakeRequest → Bytes

/-- What `parse_legacy_handshake` tells the host. -/
structure LegacyHandshakeInfo where
  peerId : UInt32
  networkName : String
  networkSecretDigestBase64 : String

/-! ## The digest -/

/-- The rest of a digest: in each of `n` rounds the hash of all that was written so far, which
    then has the digest up to there written to it. -/
def digestShards : ℕ → (written digest : Bytes) → Bytes
  | 0, _, digest => digest
  | n + 1, written, digest =>
    let digest := digest ++ (SipHash.hash written).toBeBytes
    digestShards n (written ++ digest) digest

def generateDigestFromStr (networkName networkSecret : String) : Bytes :=
  digestShards (digestSize / 8) (utf8 networkName ++ utf8 networkSecret) []

-- The reference vector of the source's tests.
example : generateDigestFromStr "office" "secret123" =
    [0xe0, 0x55, 0x03, 0x95, 0xe5, 0x20, 0x8d, 0xc4, 0x0b, 0x9c, 0xf6, 0x5f, 0x66, 0xb8, 0x7e, 0xea,
      0x57, 0x5a, 0x18, 0x44, 0xc8, 0x33, 0x32, 0x2e, 0x1a, 0x06, 0xb6, 0x81, 0xc2, 0x60, 0xe8,
      0x6b] := by
  decide +kernel

theorem length_digestShards (n : ℕ) (written digest : Bytes) :
    (digestShards n written digest).length = 8 * n + digest.length := by
  induction n generalizing written digest with
  | zero => simp [digestShards]
  | succ n ih =>
    rw [digestShards, ih, List.length_append, UInt64.length_toBeBytes]
    omega

theorem length_generateDigestFromStr (networkName networkSecret : String) :
    (generateDigestFromStr networkName networkSecret).length = digestSize := by
  rw [generateDigestFromStr, length_digestShards]
  rfl

/-- Comparing without an early return. -/
def constantTimeEq (left right : Bytes) : Bool :=
  if left.length ≠ right.length then false
  else (left.zip right).foldl (fun diff p => diff ||| (p.1 ^^^ p.2)) 0 == 0

/-- Whether a digest is that of the network and its secret. -/
def verifyNetworkSecretDigest (digest : Bytes) (networkName networkSecret : String) :
    Except String Bool :=
  if networkName = "" then .error "network_name must not be empty"
  else if digest.length ≠ digestSize then .ok false
  else .ok (constantTimeEq digest (generateDigestFromStr networkName networkSecret))

/-- The differences of two lists come together to nothing when the lists are equal. -/
theorem foldl_or_xor_eq_zero (l r : Bytes) (h : l.length = r.length) (diff : UInt8) :
    (l.zip r).foldl (fun diff p => diff ||| (p.1 ^^^ p.2)) diff = 0 ↔ diff = 0 ∧ l = r := by
  induction l generalizing r diff with
  | nil =>
    obtain rfl : r = [] := List.length_eq_zero_iff.1 h.symm
    simp
  | cons a l ih =>
    cases r with
    | nil => cases h
    | cons b r =>
      rw [List.zip_cons_cons, List.foldl_cons, ih r (Nat.succ.inj h), List.cons.injEq,
        UInt8.or_eq_zero_iff, UInt8.xor_eq_zero_iff, and_assoc]

theorem constantTimeEq_iff {left right : Bytes} : constantTimeEq left right = true ↔ left = right := by
  unfold constantTimeEq
  split_ifs with h
  · simp only [false_iff]
    rintro rfl
    exact h rfl
  · rw [beq_iff_eq, foldl_or_xor_eq_zero left right (not_not.1 h)]
    simp

/-- Only the digest itself passes. -/
theorem verifyNetworkSecretDigest_eq_ok_true {digest : Bytes} {networkName networkSecret : String}
    (h : verifyNetworkSecretDigest digest networkName networkSecret = .ok true) :
    digest = generateDigestFromStr networkName networkSecret := by
  unfold verifyNetworkSecretDigest at h
  split_ifs at h
  · cases h
  · exact constantTimeEq_iff.1 (Except.ok.inj h)

/-! ## The handshake -/

def decodeHandshakeRequest (codec : HandshakeCodec) (header : PacketHeader) (packet : Bytes) :
    Except String HandshakeRequest := do
  let request ← (codec.decode (packet.drop headerSize)).mapError fun _ =>
    "legacy handshake payload is not a valid HandshakeRequest protobuf"
  if request.magic ≠ legacyMagic then
    throw "legacy handshake magic mismatch"
  if request.version ≠ legacyVersion then
    throw "unsupported legacy handshake version"
  if request.myPeerId = 0 then
    throw "legacy handshake my_peer_id must not be zero"
  if request.myPeerId ≠ header.fromPeerId then
    throw "legacy handshake peer id mismatch between header and payload"
  if request.networkName = "" ∨ 255 < (utf8 request.networkName).length then
    throw "legacy handshake network_name must be 1-255 bytes"
  if request.networkSecretDigest.length ≠ digestSize then
    throw "legacy handshake network_secret_digest must be 32 bytes"
  return request

/-- `parse_legacy_handshake`. -/
def parseLegacyHandshake (codec : HandshakeCodec) (base64Encode : Bytes → String) (packet : Bytes) :
    Except String LegacyHandshakeInfo := do
  let header ← parsePacket packet
  if header.packetType ≠ packetTypeHandshake then
    throw "legacy handshake requires PacketType::HandShake"
  if header.flags &&& encryptedFlag ≠ 0 then
    throw "legacy handshake must not set the encrypted flag"
  let request ← decodeHandshakeRequest codec header packet
  return { peerId := request.myPeerId
           networkName := request.networkName
           networkSecretDigestBase64 := base64Encode request.networkSecretDigest }

def buildLegacyHandshakeResponse (codec : HandshakeCodec) (serverPeerId : UInt32)
    (networkName networkSecret : String) : Except String Bytes := do
  if serverPeerId = 0 then
    throw "server peer id must not be zero"
  if networkName = "" ∨ 255 < (utf8 networkName).length then
    throw "network_name must be 1-255 bytes"
  if networkSecret = "" then
    throw "network_secret must not be empty"
  let response : HandshakeRequest :=
    { magic := legacyMagic
      myPeerId := serverPeerId
      version := legacyVersion
      features := []
      networkName
      networkSecretDigest := generateDigestFromStr networkName networkSecret }
  return wrapPacket serverPeerId 0 packetTypeHandshake 0 (codec.encode response)

/-! ## The cipher -/

/-- The key of a secret. -/
def deriveKey128 (secret : String) : Bytes := digestShards 2 (utf8 secret) []

structure LegacyCipher where
  key128 : Bytes

namespace LegacyCipher

def new (networkSecret : String) : Except String LegacyCipher :=
  if networkSecret = "" then .error "network_secret must not be empty"
  else .ok ⟨deriveKey128 networkSecret⟩

variable {HS : Type} (c : Crates HS) (cipher : LegacyCipher)

/-- The flags of a frame replaced. -/
def setFlags (packet : Bytes) (f : UInt8 → UInt8) : Bytes := packet.set 9 (f (packet.getD 9 0))

def encryptPacket (packet : Bytes) (nonce : Except String (Vector UInt8 12)) :
    Except String Bytes := do
  if packet.length < headerSize then
    throw "legacy packet is shorter than the EasyTier header"
  let nonce ← nonce.mapError fun e => s!"legacy nonce generation failed: {e}"
  match c.aeadSeal .aesGcm cipher.key128 nonce.toList (packet.drop headerSize) with
  | none => throw "legacy AES-128-GCM encryption failed"
  | some (ciphertext, tag) =>
    return setFlags (packet.take headerSize ++ ciphertext ++ tag.toList ++ nonce.toList)
      (· ||| encryptedFlag)

def decryptPacket (packet : Bytes) : Except String Bytes := do
  if packet.length < headerSize then
    throw "legacy encrypted packet is shorter than the EasyTier header"
  let header ← PacketHeader.fromBytes packet
  if header.flags &&& encryptedFlag = 0 then
    return packet
  if packet.length < headerSize + aeadTailSize then
    throw "legacy encrypted packet is missing the AEAD tail"
  let ciphertextLen := packet.length - headerSize - aeadTailSize
  let ciphertext := (packet.drop headerSize).take ciphertextLen
  let tail := packet.drop (headerSize + ciphertextLen)
  match c.aeadOpen .aesGcm cipher.key128 (tail.drop 16) ciphertext (tail.take 16) with
  | none => throw "legacy AES-128-GCM decryption failed"
  | some plaintext => return setFlags (packet.take headerSize ++ plaintext) (· &&& ~~~encryptedFlag)

end LegacyCipher

end EasyTierEdge
