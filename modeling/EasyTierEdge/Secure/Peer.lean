import EasyTierEdge.Lib.Except
import EasyTierEdge.Secure.Session

/-!
# Secure connections

`SecurePeer` of `wasm/src/secure.rs`: the Noise XX handshake of a connection
(`readMsg1`, `buildMsg2`, `finishMsg3`), and the protection of its packets
(`encryptPacket`, `decryptPacket`) with the state of the stored session, loaded
before and saved after every packet.

A method returns its result, the connection and, where it works on them, the
stored sessions: a failed call may have changed them too. What a method draws at
random and every reading of the clock is an argument.
-/

namespace EasyTierEdge

def noisePattern : String := "Noise_XX_25519_ChaChaPoly_SHA256"
def noisePrologue : Bytes := utf8 "easytier-peerconn-noise"
def easytierProtocolVersion : UInt32 := 1
def packetNoiseMsg1 : UInt8 := 13
def packetNoiseMsg2 : UInt8 := 14
def packetNoiseMsg3 : UInt8 := 15

/-- What `read_msg1` tells the host. -/
structure Msg1Info where
  peerId : UInt32
  networkName : String
  clientEncryptionAlgorithm : String
  deriving DecidableEq

/-- What `finish_msg3` tells the host. -/
structure AuthInfo where
  peerId : UInt32
  networkName : String
  remotePublicKeyBase64 : String
  authLevel : String
  deriving DecidableEq

/-- A connection; `HS` are the handshake states of `snow`. -/
structure SecurePeer (HS : Type) extends TrafficState where
  localPrivate : Key32
  localPublic : Key32
  serverPeerId : UInt32
  peerId : Option UInt32
  networkName : Option String
  clientAlgorithm : Option String
  aSessionGeneration : Option UInt32
  aConnId : Option Uuid
  bConnId : Option Uuid
  handshake : Option HS
  proofChallenge : Option Bytes
  networkSecret : Option Bytes
  rootKey : Option Key32
  sessionKey : Option SessionKey
  sessionAttached : Bool
  authenticated : Bool

variable {HS : Type} (c : Crates HS)

/-- `<[u8; 32]>::try_from`. -/
def key32 (bytes : Bytes) : Option Key32 :=
  if h : bytes.length = 32 then some ⟨bytes.toArray, by simpa using h⟩ else none

def decodeKey (value label : String) : Except SecureError Key32 := do
  let decoded ← .okOr (c.base64Decode value) (.keyNotBase64 label)
  .okOr (key32 decoded) (.keyLength label decoded.length)

/-- The proof of knowing `secret`, for a challenge. -/
def secretProof (secret challenge : Bytes) : Bytes :=
  (c.hmacSha256 secret (utf8 "easytier secret proof" ++ challenge)).toList

/-- What message 2 draws at random, and its readings of the clock. -/
structure Msg2Draws where
  rootKey : Except String Key32
  bConnId : Except String Uuid
  upsertMs : UInt64
  attachMs : UInt64

/-- The readings of the clock while a packet is encrypted or decrypted. -/
structure PacketClock where
  payloadMs : UInt64
  persistMs : UInt64

namespace SecurePeer

/-- The constructor. -/
def new (localPrivateKeyBase64 localPublicKeyBase64 : String) (serverPeerId : UInt32)
    (currentMs : UInt64) : Except SecureError (SecurePeer HS) := do
  .rejectIf (serverPeerId = 0) .serverPeerIdZero
  let localPrivate ← decodeKey c localPrivateKeyBase64 "private"
  let configuredPublic ← decodeKey c localPublicKeyBase64 "public"
  .rejectIf (c.x25519Public localPrivate ≠ configuredPublic) .keyMismatch
  return {
    localPrivate
    localPublic := configuredPublic
    serverPeerId
    peerId := none
    networkName := none
    clientAlgorithm := none
    aSessionGeneration := none
    aConnId := none
    bConnId := none
    handshake := none
    proofChallenge := none
    networkSecret := none
    rootKey := none
    sessionKey := none
    sessionAttached := false
    sendEpoch := 0
    sendSeq := fun _ => 0
    sendEpochStartedMs := currentMs
    sendPacketsSinceEpoch := 0
    rxSlots := default
    syncRxGrace := default
    decryptFailCount := 0
    authenticated := false }

variable (p : SecurePeer HS) (sessions : SessionStore)

/-! ## The stored session of a connection -/

/-- The connection with the state of its session. -/
def load (s : StoredSession) : SecurePeer HS :=
  { p with rootKey := some s.rootKey, toTrafficState := s.toTrafficState }

def attachSession (currentMs : UInt64) : Except SecureError (SecurePeer HS × SessionStore) :=
  match p.sessionKey with
  | none => .error .sessionKeyMissing
  | some key =>
    match sessions.lookup key with
    | none => .error .disappearedAttaching
    | some session =>
      match session.attachments.checkedAdd 1 with
      | none => .error .attachmentsExhausted
      | some attachments =>
        .ok ({ p with sessionAttached := true },
          sessions.insert key { session with attachments, lastTouchMs := currentMs })

def loadSessionState : Except SecureError (SecurePeer HS) :=
  match p.sessionKey with
  | none => .error .sessionKeyMissing
  | some key =>
    match sessions.lookup key with
    | none => .error .disappearedLoading
    | some session => .ok (p.load session)

def persistSessionState (currentMs : UInt64) : Except SecureError SessionStore :=
  match p.sessionKey with
  | none => .error .sessionKeyMissing
  | some key =>
    match sessions.lookup key with
    | none => .error .disappearedSaving
    | some session =>
      .ok (sessions.insert key
        { session with toTrafficState := p.toTrafficState, lastTouchMs := currentMs })

def ensureAuthenticated : Except SecureError Unit :=
  if p.authenticated && p.rootKey.isSome then .ok () else .error .notAuthenticated

/-- The destructor: the session loses a connection. -/
def drop (currentMs : UInt64) : SessionStore :=
  if p.sessionAttached then
    match p.sessionKey with
    | none => sessions
    | some key => sessions.modify key fun session =>
        { session with attachments := session.attachments.saturatingSub 1, lastTouchMs := currentMs }
  else sessions

/-! ## The handshake -/

/-- Message 1: the client's ids, network and algorithm. -/
def readMsg1 (packet : Bytes) : Except SecureError (Msg1Info × SecurePeer HS) := do
  .rejectIf (p.handshake.isSome || p.authenticated) .handshakeAlreadyStarted
  let (header, payload) ← (splitPacket packet).mapError .packet
  .rejectIf (header.packetType ≠ packetNoiseMsg1 || header.encrypted) .notMsg1
  .rejectIf (header.fromPeerId = 0 || header.fromPeerId = p.serverPeerId) .invalidPeerId
  let handshake ← (c.buildResponder noisePattern noisePrologue p.localPrivate).mapError .crate
  let (handshake, decoded) ← (c.readMessage handshake payload).mapError .crate
  let message ← (c.decodeMsg1 decoded).mapError .crate
  .rejectIf (message.version ≠ easytierProtocolVersion) .unsupportedVersion
  .rejectIf (message.aNetworkName = "" || 255 < message.aNetworkName.utf8ByteSize)
    .invalidNetworkName
  validateAlgorithm message.clientEncryptionAlgorithm
  return (
    { peerId := header.fromPeerId
      networkName := message.aNetworkName
      clientEncryptionAlgorithm := message.clientEncryptionAlgorithm },
    { p with
      peerId := some header.fromPeerId
      networkName := some message.aNetworkName
      clientAlgorithm := some message.clientEncryptionAlgorithm
      aSessionGeneration := message.aSessionGeneration
      aConnId := message.aConnId
      handshake := some handshake })

/-- The key of the session of message 2. -/
def msg2SessionKey (networkName : String) (peerId : UInt32) : SessionKey :=
  { networkName, peerId, serverPeerId := p.serverPeerId, serverPublicKey := p.localPublic }

/-- The contents of message 2. -/
def msg2 (networkName : String) (session : SessionSelection) (bConnId : Uuid) (proof : Bytes) :
    PeerConnNoiseMsg2Pb where
  bNetworkName := networkName
  roleHint := 1
  action := session.action
  bSessionGeneration := session.generation
  rootKey32 := session.rootKeyForPeer.map Vector.toList
  initialEpoch := session.initialEpoch
  bConnId := some bConnId
  aConnIdEcho := p.aConnId
  secretProof32 := some proof
  serverEncryptionAlgorithm := serverEncryptionAlgorithm

/-- Message 2, once it is written: attaching to the session. -/
def attachMsg2 (peerId : UInt32) (bConnId : Uuid) (noiseMessage : Bytes) (attachMs : UInt64) :
    Except SecureError Bytes × SecurePeer HS × SessionStore :=
  match p.attachSession sessions attachMs with
  | .error e => (.error e, p, sessions)
  | .ok (p, sessions) =>
    match p.loadSessionState sessions with
    | .error e => (.error e, p, sessions)
    | .ok p =>
      (.ok (wrapPacket p.serverPeerId peerId packetNoiseMsg2 0 noiseMessage),
        { p with bConnId := some bConnId }, sessions)

/-- Message 2, once its session is selected: writing it. -/
def sendMsg2 (networkSecret networkName : String) (peerId : UInt32) (handshake : HS)
    (session : SessionSelection) (draws : Msg2Draws) :
    Except SecureError Bytes × SecurePeer HS × SessionStore :=
  let proof := secretProof c (utf8 networkSecret) (c.handshakeHash handshake)
  match draws.bConnId with
  | .error e => (.error (.crate e), p, sessions)
  | .ok bConnId =>
    let message := p.msg2 networkName session bConnId proof
    match c.writeMessage handshake (c.encodeMsg2 message) with
    | (handshake, .error e) => (.error (.crate e), { p with handshake := some handshake }, sessions)
    | (handshake, .ok noiseMessage) =>
      let p :=
        { p with
          handshake := some handshake
          proofChallenge := some (c.handshakeHash handshake)
          networkSecret := some (utf8 networkSecret)
          rootKey := some session.sessionRootKey
          sessionKey := some (p.msg2SessionKey networkName peerId) }
      p.attachMsg2 sessions peerId bConnId noiseMessage draws.attachMs

/-- Message 2: the selected session, and the server's proof of the secret. -/
def buildMsg2 (networkSecret : String) (draws : Msg2Draws) :
    Except SecureError Bytes × SecurePeer HS × SessionStore :=
  if networkSecret = "" then (.error .emptySecret, p, sessions)
  else if p.sessionKey.isSome then (.error .msg2AlreadyBuilt, p, sessions)
  else
    match p.peerId, p.networkName, p.handshake, p.clientAlgorithm with
    | none, _, _, _ => (.error .msg1NotReceived, p, sessions)
    | some _, none, _, _ => (.error .msg1WithoutNetwork, p, sessions)
    | some _, some _, none, _ => (.error .msg1NotReceived, p, sessions)
    | some _, some _, some _, none => (.error .msg1WithoutAlgorithm, p, sessions)
    | some peerId, some networkName, some handshake, some clientAlgorithm =>
      match upsertSession sessions (p.msg2SessionKey networkName peerId) p.aSessionGeneration
        clientAlgorithm draws.rootKey draws.upsertMs with
      | (.error e, sessions) => (.error e, p, sessions)
      | (.ok session, sessions) =>
        p.sendMsg2 c sessions networkSecret networkName peerId handshake session draws

/-- Message 3, read by `handshake`: the client's echoes and its proof of the
    secret, and its static key. -/
def checkMsg3 (handshake : HS) (payload : Bytes) : Except SecureError Key32 := do
  let (handshake, decoded) ← (c.readMessage handshake payload).mapError .crate
  let message ← (c.decodeMsg3 decoded).mapError .crate
  .rejectIf (message.aConnIdEcho ≠ p.aConnId || message.bConnIdEcho ≠ p.bConnId)
    .connIdEchoMismatch
  let proof ← .okOr message.secretProof32 .proofMissing
  let secret ← .okOr p.networkSecret .secretNotSelected
  let challenge ← .okOr p.proofChallenge .challengeMissing
  .rejectIf (proof ≠ secretProof c secret challenge) .proofFailed
  let remotePublic ← .okOr (c.remoteStatic handshake) .staticKeyMissing
  .okOr (key32 remotePublic) .staticKeyMissing

/-- The connection without its handshake. -/
def takeHandshake : SecurePeer HS := { p with handshake := none }

/-- The connection authenticated. -/
def authenticate : SecurePeer HS := { p with authenticated := true }

/-- Message 3: from here on the connection is authenticated. The handshake is
    taken before it is read, and lost when the message is refused. -/
def finishMsg3 (packet : Bytes) (confirmMs : UInt64) :
    Except SecureError AuthInfo × SecurePeer HS × SessionStore :=
  match splitPacket packet with
  | .error m => (.error (.packet m), p, sessions)
  | .ok (header, payload) =>
    match p.peerId with
    | none => (.error .msg1NotReceived, p, sessions)
    | some peerId =>
      if header.packetType ≠ packetNoiseMsg3 || header.fromPeerId ≠ peerId ||
          header.toPeerId ≠ p.serverPeerId || header.encrypted then
        (.error .invalidMsg3Envelope, p, sessions)
      else
        match p.handshake with
        | none => (.error .msg2NotSent, p, sessions)
        | some handshake =>
          match p.checkMsg3 c handshake payload with
          | .error e => (.error e, p.takeHandshake, sessions)
          | .ok remotePublicKey =>
            match p.sessionKey with
            | none => (.error .sessionKeyMissing, p.takeHandshake, sessions)
            | some key =>
              match confirmSessionPublicKey sessions key remotePublicKey confirmMs with
              | .error e => (.error e, p.takeHandshake, sessions)
              | .ok sessions =>
                (.ok
                  { peerId, networkName := p.networkName.getD ""
                    remotePublicKeyBase64 := c.base64Encode remotePublicKey.toList
                    authLevel := "NetworkSecretConfirmed" },
                  p.takeHandshake.authenticate, sessions)

/-! ## Packets -/

/-- A packet of the client to the server, in clear; empty when it is dropped. -/
def decryptPacket (packet : Bytes) (clock : PacketClock) :
    Except SecureError Bytes × SecurePeer HS × SessionStore :=
  match p.ensureAuthenticated with
  | .error e => (.error e, p, sessions)
  | .ok () =>
    match p.loadSessionState sessions with
    | .error e => (.error e, p, sessions)
    | .ok p =>
      match splitPacket packet with
      | .error m => (.error (.packet m), p, sessions)
      | .ok (header, payload) =>
        match p.peerId with
        | none => (.error .panicked, p, sessions)
        | some peerId =>
          if header.fromPeerId ≠ peerId || header.toPeerId ≠ p.serverPeerId then
            (.error .notAddressed, p, sessions)
          else if !header.encrypted then (.ok packet, p, sessions)
          else
            let algorithm := p.clientAlgorithm.getD "aes-gcm"
            let direction := directionIndex header.fromPeerId header.toPeerId
            let (result, t) :=
              p.decryptPayload c p.rootKey algorithm direction payload clock.payloadMs
            let p := { p with toTrafficState := t }
            match p.persistSessionState sessions clock.persistMs with
            | .error e => (.error e, p, sessions)
            | .ok sessions =>
              match result with
              | .error e => (.error e, p, sessions)
              | .ok none => (.ok [], p, sessions)
              | .ok (some plaintext) =>
                (.ok (joinHeaderPayload
                  { header with flags := header.flags &&& ~~~encryptedFlag } plaintext),
                  p, sessions)

/-- A packet of the server to the client, encrypted. -/
def encryptPacket (packet : Bytes) (clock : PacketClock) :
    Except SecureError Bytes × SecurePeer HS × SessionStore :=
  match p.ensureAuthenticated with
  | .error e => (.error e, p, sessions)
  | .ok () =>
    match p.loadSessionState sessions with
    | .error e => (.error e, p, sessions)
    | .ok p =>
      match splitPacket packet with
      | .error m => (.error (.packet m), p, sessions)
      | .ok (header, payload) =>
        match p.peerId with
        | none => (.error .panicked, p, sessions)
        | some peerId =>
          if header.fromPeerId ≠ p.serverPeerId || header.toPeerId ≠ peerId then
            (.error .notAddressed, p, sessions)
          else if header.encrypted then (.error .alreadyEncrypted, p, sessions)
          else
            let direction := directionIndex header.fromPeerId header.toPeerId
            let (result, t) :=
              p.encryptPayload c p.rootKey serverEncryptionAlgorithm direction payload
                clock.payloadMs
            let p := { p with toTrafficState := t }
            match p.persistSessionState sessions clock.persistMs with
            | .error e => (.error e, p, sessions)
            | .ok sessions =>
              match result with
              | .error e => (.error e, p, sessions)
              | .ok encrypted =>
                (.ok (joinHeaderPayload
                  { header with flags := header.flags ||| encryptedFlag } encrypted),
                  p, sessions)

end SecurePeer

end EasyTierEdge
