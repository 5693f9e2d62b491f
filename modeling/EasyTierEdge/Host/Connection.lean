import EasyTierEdge.Host.State

/-!
# The connections of the host

`src/runtime/connection.ts`, `rooms.ts` and `messages.ts`: what the host asks of the
`SecurePeer` of a connection, and how it reads the answers, which cross into it as JSON;
sending a frame to a connection within its limits; and the ends of a handshake and of
a connection.
-/

namespace EasyTierEdge

namespace Host

variable {HS : Type} (crates : HostCrates HS)

/-! ## Answers of the module -/

structure HandshakeInfo where
  peerId : UInt32
  networkName : String

structure LegacyInfo where
  peerId : UInt32
  networkName : String
  networkSecretDigest : Bytes

structure AuthenticationInfo where
  peerId : UInt32
  networkName : String
  remotePublicKey : Bytes

def readPeerId (value : UInt32) (field : String) : Except String UInt32 :=
  if value = 0 then .error s!"{field} must be a non-zero u32 peer id" else .ok value

def readString (value field : String) : Except String String :=
  if value = "" then .error s!"{field} must be a non-empty string" else .ok value

def parseHandshakeInfo (value : Msg1Info) : Except String HandshakeInfo := do
  let _ ← readString value.clientEncryptionAlgorithm "client_encryption_algorithm"
  let peerId ← readPeerId value.peerId "peer_id"
  let networkName ← readString value.networkName "network_name"
  return { peerId, networkName }

/-- The 32 bytes of a field. -/
def decodeField (field base64 : String) : Except String Bytes :=
  match crates.atob base64 with
  | none => .error s!"{field} is not valid base64"
  | some bytes =>
    if bytes.length ≠ 32 then .error s!"{field} must decode to 32 bytes" else .ok bytes

def decodePublicKey (base64 : String) : Except String Bytes :=
  decodeField crates "remote_public_key_base64" base64

def decodeDigest (base64 : String) : Except String Bytes :=
  decodeField crates "network_secret_digest_base64" base64

def parseLegacyHandshakeInfo (value : LegacyHandshakeInfo) : Except String LegacyInfo := do
  let peerId ← readPeerId value.peerId "peer_id"
  let networkName ← readString value.networkName "network_name"
  let base64 ← readString value.networkSecretDigestBase64 "network_secret_digest_base64"
  return { peerId, networkName, networkSecretDigest := ← decodeDigest crates base64 }

def parseAuthenticationInfo (value : AuthInfo) : Except String AuthenticationInfo := do
  if value.authLevel ≠ "NetworkSecretConfirmed" then
    throw "secure handshake did not confirm the network secret"
  let peerId ← readPeerId value.peerId "peer_id"
  let networkName ← readString value.networkName "network_name"
  let base64 ← readString value.remotePublicKeyBase64 "remote_public_key_base64"
  return { peerId, networkName, remotePublicKey := ← decodePublicKey crates base64 }

/-! ## The secure peer of a connection -/

/-- A method called on the `SecurePeer` of a connection. -/
def HostState.callSecure (s : HostState HS) (c : ConnId) (h : Handle) (call : Call) :
    Output × HostState HS :=
  let (world, output) := s.world.step crates.secure (.call h call)
  (output, { s with world }.note (.secure c call output))

/-- Calling a method of the `SecurePeer` of a connection, which must not have been freed. -/
def callSecure (c : ConnId) (call : Call) : Action HS Output := do
  match ((← get).conn c).secure with
  | none => throw "null pointer passed to rust"
  | some h => modifyGet (·.callSecure crates c h call)

/-- Why a call has no result of the kind that is asked for. -/
def failure (output : Output) : String :=
  (output.error?.map SecureError.message).getD "null pointer passed to rust"

def msg1Result : Output → Except String Msg1Info
  | .msg1 (.ok info) => .ok info
  | output => .error (failure output)

def frameResult : Output → Except String Bytes
  | .frame (.ok bytes) => .ok bytes
  | output => .error (failure output)

def authResult : Output → Except String AuthInfo
  | .auth (.ok info) => .ok info
  | output => .error (failure output)

def readMsg1 (c : ConnId) (packet : Bytes) : Action HS Msg1Info := do
  .ofExcept (msg1Result (← callSecure crates c (.readMsg1 packet)))

def buildMsg2 (c : ConnId) (networkSecret : String) : Action HS Bytes := do
  let a ← consult
  .ofExcept (frameResult (← callSecure crates c (.buildMsg2 networkSecret a.msg2Draws)))

def finishMsg3 (c : ConnId) (packet : Bytes) : Action HS AuthInfo := do
  let a ← consult
  .ofExcept (authResult (← callSecure crates c (.finishMsg3 packet a.clockMs)))

def decryptPacket (c : ConnId) (packet : Bytes) : Action HS Bytes := do
  let a ← consult
  .ofExcept (frameResult (← callSecure crates c (.decryptPacket packet a.packetClock)))

def encryptPacket (c : ConnId) (packet : Bytes) : Action HS Bytes := do
  let a ← consult
  .ofExcept (frameResult (← callSecure crates c (.encryptPacket packet a.packetClock)))

/-! ## Connections -/

namespace HostState

variable (s : HostState HS)

/-- `createConnection`, once its `SecurePeer` is constructed. -/
def createConnection (h : Handle) (clientIp : String) (a : Ambient) : HostState HS :=
  { s with
    conns := s.conns ++
      [{ secure := some h
         legacyCipher := none
         remotePublicKey := []
         phase := .msg1
         mode := .secure
         peerId := 0
         networkName := ""
         clientIp
         serverSessionId := a.randomU64
         handshakeTimer := true
         sendWindowStartedAt := a.now
         sentBytesInWindow := 0
         sentFramesInWindow := 0 }]
    connections := s.connections ++ [s.conns.length] }

/-- The window of a connection starts anew when its time is over. -/
def rollWindow (c : ConnId) (now : ℕ) : HostState HS :=
  if (sendWindowMs : ℤ) ≤ now - (s.conn c).sendWindowStartedAt then
    s.modifyConn c (·.withWindow now 0 0)
  else s

def completeHandshake (c : ConnId) : HostState HS :=
  s.modifyConn c fun conn => { conn with handshakeTimer := false, phase := .ready }

/-- `disposeConnection`: the `SecurePeer` and the cipher are freed. -/
def disposeConnection (c : ConnId) (a : Ambient) : HostState HS :=
  let world :=
    match (s.conn c).secure with
    | some h => (s.world.step crates.secure (.drop h a.clockMs)).1
    | none => s.world
  ({ s with world }.modifyConn c fun conn =>
    { conn with handshakeTimer := false, secure := none, legacyCipher := none }).note (.disposed c)

end HostState

/-- `connection.encrypt`. -/
def encrypt (c : ConnId) (packet : Bytes) : Action HS Bytes := do
  let conn := (← get).conn c
  match conn.mode, conn.legacyCipher with
  | .legacy, some cipher =>
    let a ← consult
    .ofExcept (cipher.encryptPacket crates.secure packet a.nonce)
  | .legacy, none => return packet
  | .secure, _ => encryptPacket crates c packet

/-- `sendConnection`: within the window a connection is sent so much and no more. -/
def sendConnection (c : ConnId) (packet : Bytes) (origin : Origin) : Action HS Unit := do
  let a ← consult
  modify (·.rollWindow c a.now)
  let conn := (← get).conn c
  if maxSendBytesPerWindow < conn.sentBytesInWindow + packet.length ∨
      maxSendFramesPerWindow ≤ conn.sentFramesInWindow then
    throw "WebSocket outbound relay capacity exceeded"
  if !a.isOpen then
    throw "WebSocket is not open"
  modify fun s => s.modifyConn c (·.withWindow conn.sendWindowStartedAt
    (conn.sentBytesInWindow + packet.length) (conn.sentFramesInWindow + 1))
  if a.sendThrows then
    throw "WebSocket send failed"
  modify fun s => s.note (.sent c packet origin)

end Host

end EasyTierEdge
