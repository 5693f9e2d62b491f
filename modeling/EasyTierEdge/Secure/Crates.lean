import EasyTierEdge.Proto

/-!
# What the secure layer is built on

The messages of the Noise handshake (`protos/peer_rpc.proto`), the errors of
`wasm/src/secure.rs`, and the third-party crates it calls, as parameters:
`snow` (the Noise handshake), `prost` (protobuf), `hmac`, `aes-gcm` and
`chacha20poly1305` (AEAD), `x25519-dalek` and `base64`. Of `snow` the code relies
on its documented turns: a handshake can only be read from when it is the other
side's turn, and only written to when it is ours.
-/

namespace EasyTierEdge

/-- A 32-byte key. -/
abbrev Key32 := Vector UInt8 32

/-- The bytes of a string. -/
def utf8 (s : String) : Bytes := s.toUTF8.data.toList

/-- Equality of strings up to the case of ASCII letters. -/
def eqIgnoreAsciiCase (a b : String) : Bool := a.toList.map Char.toLower == b.toList.map Char.toLower

/-- `PeerConnSessionActionPb`: what message 2 tells the client to do. -/
inductive SessionAction
  | join
  | sync
  | create
  deriving DecidableEq

structure PeerConnNoiseMsg1Pb where
  version : UInt32
  aNetworkName : String
  aSessionGeneration : Option UInt32
  aConnId : Option Uuid
  clientEncryptionAlgorithm : String

structure PeerConnNoiseMsg2Pb where
  bNetworkName : String
  roleHint : UInt32
  action : SessionAction
  bSessionGeneration : UInt32
  rootKey32 : Option Bytes
  initialEpoch : UInt32
  bConnId : Option Uuid
  aConnIdEcho : Option Uuid
  secretProof32 : Option Bytes
  serverEncryptionAlgorithm : String

structure PeerConnNoiseMsg3Pb where
  aConnIdEcho : Option Uuid
  bConnIdEcho : Option Uuid
  secretProof32 : Option Bytes

/-- The AEAD ciphers, as `normalized_algorithm` names them. -/
inductive Cipher
  | aesGcm
  | aes256Gcm
  | chacha20
  deriving DecidableEq

/-- The errors of the secure layer. -/
inductive SecureError
  | crate (message : String)
  | packet (message : String)
  | serverPeerIdZero
  | keyNotBase64 (label : String)
  | keyLength (label : String) (length : ℕ)
  | keyMismatch
  | handshakeAlreadyStarted
  | notMsg1
  | invalidPeerId
  | unsupportedVersion
  | invalidNetworkName
  | unsupportedAlgorithm
  | emptySecret
  | msg2AlreadyBuilt
  | msg1NotReceived
  | msg1WithoutNetwork
  | msg1WithoutAlgorithm
  | algorithmChanged
  | sessionCapacity
  | sessionKeyMissing
  | disappearedAttaching
  | attachmentsExhausted
  | disappearedLoading
  | disappearedSaving
  | invalidMsg3Envelope
  | msg2NotSent
  | connIdEchoMismatch
  | proofMissing
  | secretNotSelected
  | challengeMissing
  | proofFailed
  | staticKeyMissing
  | disappearedAuthenticating
  | staticKeyChanged
  | notAuthenticated
  | notAddressed
  | alreadyEncrypted
  | sequenceExhausted
  | rootKeyMissing
  | payloadTooShort
  | sealFailed (cipher : Cipher)
  | openFailed
  /-- `Option::unwrap` on `None`: the module aborts. -/
  | panicked
  deriving DecidableEq

/-- The text of an error. -/
def SecureError.message : SecureError → String
  | .crate message => message
  | .packet message => message
  | .serverPeerIdZero => "server peer id must not be zero"
  | .keyNotBase64 label => s!"local_{label}_key is not valid base64"
  | .keyLength label length => s!"local_{label}_key must decode to 32 bytes, got {length}"
  | .keyMismatch => "local_public_key does not match local_private_key"
  | .handshakeAlreadyStarted => "handshake already started"
  | .notMsg1 => "secure mode requires an unencrypted NoiseHandshakeMsg1"
  | .invalidPeerId => "invalid or conflicting client peer id"
  | .unsupportedVersion => "unsupported EasyTier secure handshake version"
  | .invalidNetworkName => "invalid network_name"
  | .unsupportedAlgorithm => "unsupported EasyTier encryption algorithm"
  | .emptySecret => "network_secret must not be empty"
  | .msg2AlreadyBuilt => "message 2 was already built"
  | .msg1NotReceived => "message 1 not received"
  | .msg1WithoutNetwork => "message 1 has no network"
  | .msg1WithoutAlgorithm => "message 1 has no encryption algorithm"
  | .algorithmChanged => "reconnecting peer changed its secure-session encryption algorithm"
  | .sessionCapacity => "secure peer session capacity exceeded"
  | .sessionKeyMissing => "secure session key is missing"
  | .disappearedAttaching => "secure session disappeared while attaching connection"
  | .attachmentsExhausted => "secure session attachment count exhausted"
  | .disappearedLoading => "secure session disappeared while loading state"
  | .disappearedSaving => "secure session disappeared while saving state"
  | .invalidMsg3Envelope => "invalid NoiseHandshakeMsg3 envelope"
  | .msg2NotSent => "message 2 not sent"
  | .connIdEchoMismatch => "Noise connection id echo mismatch"
  | .proofMissing => "client did not provide a network-secret proof"
  | .secretNotSelected => "network secret is not selected"
  | .challengeMissing => "proof challenge is missing"
  | .proofFailed => "network-secret proof verification failed"
  | .staticKeyMissing => "client Noise static public key is missing"
  | .disappearedAuthenticating => "secure session disappeared during authentication"
  | .staticKeyChanged => "reconnecting peer changed its Noise static public key"
  | .notAuthenticated => "secure session is not authenticated"
  | .notAddressed => "packet is not addressed over this direct session"
  | .alreadyEncrypted => "packet is already encrypted"
  | .sequenceExhausted => "secure packet sequence exhausted"
  | .rootKeyMissing => "root key is missing"
  | .payloadTooShort => "encrypted EasyTier payload is too short"
  | .sealFailed .aesGcm => "AES-128-GCM encryption failed"
  | .sealFailed .aes256Gcm => "AES-256-GCM encryption failed"
  | .sealFailed .chacha20 => "ChaCha20-Poly1305 encryption failed"
  | .openFailed => "EasyTier session decryption failed"
  | .panicked => "called `Option::unwrap()` on a `None` value"

/-- The errors of a connection that finds its stored session gone. -/
def SecureError.disappeared : SecureError → Bool
  | .disappearedAttaching | .disappearedLoading | .disappearedSaving
  | .disappearedAuthenticating => true
  | _ => false

/-- The third-party crates, `HS` being the handshake states of `snow`. -/
structure Crates (HS : Type) where
  /-- `Builder::new(params).prologue(..).local_private_key(..).build_responder()`. -/
  buildResponder : (pattern : String) → (prologue : Bytes) → (localPrivate : Key32) →
    Except String HS
  /-- `HandshakeState::read_message`: the state after it and the payload. -/
  readMessage : HS → Bytes → Except String (HS × Bytes)
  /-- `HandshakeState::write_message`: the state after it, also after an error. -/
  writeMessage : HS → Bytes → HS × Except String Bytes
  handshakeHash : HS → Bytes
  remoteStatic : HS → Option Bytes
  isMyTurn : HS → Bool
  /-- A responder starts by reading. -/
  build_turn : ∀ {pattern prologue key hs},
    buildResponder pattern prologue key = .ok hs → isMyTurn hs = false
  /-- Reading needs the other side's turn, and makes it ours. -/
  read_turn : ∀ {hs m hs' payload}, readMessage hs m = .ok (hs', payload) →
    isMyTurn hs = false ∧ isMyTurn hs' = true
  /-- Writing makes it the other side's turn. -/
  write_turn : ∀ {hs m bytes}, (writeMessage hs m).2 = .ok bytes →
    isMyTurn (writeMessage hs m).1 = false
  /-- A failed write leaves the turn. -/
  write_error_turn : ∀ {hs m e}, (writeMessage hs m).2 = .error e →
    isMyTurn (writeMessage hs m).1 = isMyTurn hs
  decodeMsg1 : Bytes → Except String PeerConnNoiseMsg1Pb
  encodeMsg2 : PeerConnNoiseMsg2Pb → Bytes
  decodeMsg3 : Bytes → Except String PeerConnNoiseMsg3Pb
  hmacSha256 : (key message : Bytes) → Key32
  aeadSeal : Cipher → (key nonce plaintext : Bytes) → Option (Bytes × Vector UInt8 16)
  aeadOpen : Cipher → (key nonce ciphertext : Bytes) → (tag : Bytes) → Option Bytes
  x25519Public : Key32 → Key32
  base64Decode : String → Option Bytes
  base64Encode : Bytes → String

/-! ## Crates to run with -/

/-- A handshake that only keeps whose turn it is and the messages so far. -/
structure Transcript where
  myTurn : Bool
  messages : List Bytes
  deriving DecidableEq

namespace Transcript

def read (hs : Transcript) (m : Bytes) : Except String (Transcript × Bytes) :=
  if hs.myTurn then .error "not their turn" else .ok (⟨true, m :: hs.messages⟩, m)

def write (hs : Transcript) (m : Bytes) : Transcript × Except String Bytes :=
  if hs.myTurn then (⟨false, m :: hs.messages⟩, .ok m) else (hs, .error "not my turn")

end Transcript

/-- A string of ASCII bytes. -/
def asciiString (bytes : Bytes) : String := String.ofList (bytes.map fun b => Char.ofNat b.toNat)

/-- Crates without cryptography, to run the model with. Message 1 is the claimed
    generation (`0` for none) and the network name, message 3 the client's static
    key and its proof. -/
def Crates.transparent : Crates Transcript where
  buildResponder _ _ _ := .ok ⟨false, []⟩
  readMessage := Transcript.read
  writeMessage := Transcript.write
  handshakeHash hs := [UInt8.ofNat hs.messages.length]
  remoteStatic hs := hs.messages.head?.map (List.take 32)
  isMyTurn := Transcript.myTurn
  build_turn h := by cases h; rfl
  read_turn {hs m hs' payload} h := by
    unfold Transcript.read at h
    split_ifs at h with hturn
    cases h
    exact ⟨by simpa using hturn, rfl⟩
  write_turn {hs m bytes} h := by
    unfold Transcript.write at h ⊢
    split_ifs at h ⊢ with hturn
    rfl
  write_error_turn {hs m e} h := by
    unfold Transcript.write at h ⊢
    split_ifs at h ⊢ with hturn
    rfl
  decodeMsg1
    | [] => .error "empty message"
    | generation :: name =>
      .ok
        { version := 1
          aNetworkName := asciiString name
          aSessionGeneration := if generation = 0 then none else some generation.toUInt32
          aConnId := none
          clientEncryptionAlgorithm := "aes-gcm" }
  encodeMsg2 m := utf8 m.bNetworkName
  decodeMsg3 m := .ok { aConnIdEcho := none, bConnIdEcho := some ⟨0, 0, 0, 0⟩,
                        secretProof32 := some (m.drop 32) }
  hmacSha256 key message := Vector.replicate 32 (key.sum + message.sum)
  aeadSeal _ _ _ plaintext := some (plaintext, Vector.replicate 16 0)
  aeadOpen _ _ _ ciphertext tag := if tag = List.replicate 16 0 then some ciphertext else none
  x25519Public key := key
  base64Decode s := some (utf8 s)
  base64Encode := asciiString

end EasyTierEdge
