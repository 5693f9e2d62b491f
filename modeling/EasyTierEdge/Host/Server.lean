import EasyTierEdge.Host.RouteSync

/-!
# The server

`EasyTierServer` of `src/server.ts` as a machine (`server`), with a step for each event: a
WebSocket upgrade, a frame of a client, the end of a socket, a handshake that takes too long, the
maintenance, and the failure to persist a route id. Nothing interrupts an event, and what
it throws at last leaves the state as it is by then.

Closing a connection announces the change to the rest of its network, which may close other
connections in turn. Every round of this recursion closes a connection, so that as many rounds
as there are open connections are enough (`removeConnection`).

The connections of a room are visited live: those that were deleted meanwhile are skipped, and
none is added meanwhile.
-/

namespace EasyTierEdge

namespace Host

variable {HS : Type} (config : ServerConfig) (crates : HostCrates HS)

/-- What a client sends. -/
inductive Data
  | text (text : String)
  | binary (bytes : Bytes)

structure Request where
  pathname : String
  upgrade : Option String
  connectingIp : Option String

structure Response where
  status : ℕ
  body : String
  deriving DecidableEq

def toUint8Array : Data → Except String Bytes
  | .text _ => .error "EasyTier accepts binary WebSocket messages only"
  | .binary bytes => .ok bytes

namespace HostState

variable (s : HostState HS)

/-- An unfinished handshake less, of the client of a connection. -/
def releaseHandshakeSlot (c : ConnId) : HostState HS :=
  let clientIp := (s.conn c).clientIp
  let remaining := (s.pendingHandshakesByIp.lookup clientIp).getD 1 - 1
  { s with
    pendingHandshakes := if 0 < s.pendingHandshakes then s.pendingHandshakes - 1
      else s.pendingHandshakes
    pendingHandshakesByIp :=
      if 0 < remaining then s.pendingHandshakesByIp.insert clientIp remaining
      else s.pendingHandshakesByIp.erase clientIp }

def scheduleMaintenance : HostState HS :=
  if s.maintenanceTimer || s.connections.isEmpty then s else { s with maintenanceTimer := true }

/-- A new connection, which takes a slot for its handshake, unless its `SecurePeer` cannot be
    constructed. -/
def accept (ipKey : String) (a : Ambient) : Bool × HostState HS :=
  match s.world.step crates.secure
    (.new a.handle config.localPrivateKey config.localPublicKey serverPeerId a.clockMs) with
  | (world, .constructed (.ok ())) =>
    let s := { s with world }.createConnection a.handle ipKey a
    (true, { s with
      pendingHandshakes := s.pendingHandshakes + 1
      pendingHandshakesByIp := s.pendingHandshakesByIp.insert ipKey
        ((s.pendingHandshakesByIp.lookup ipKey).getD 0 + 1) }.scheduleMaintenance)
  | _ => (false, s)

/-- A connection marked closed, and taken from the books of the host. -/
def unregister (c : ConnId) : HostState HS :=
  let conn := s.conn c
  let s := (s.modifyConn c fun conn => { conn with phase := .closed }).note (.closed c)
  let s := { s with connections := s.connections.erase c }
  let s := if conn.phase = .ready then s else s.releaseHandshakeSlot c
  let s := if s.connections.isEmpty && s.maintenanceTimer then { s with maintenanceTimer := false }
    else s
  { s with rooms := s.rooms.delete conn.networkName conn.peerId c }

/-- A connection registered in its room. -/
def register (c : ConnId) : HostState HS :=
  { s with rooms := s.rooms.set (s.conn c).networkName (s.conn c).peerId c }

end HostState

/-! ## Closing connections -/

/-- The first half of `removeConnection`: a connection leaves the books of the host, and its
    peer those of the core if it was there. -/
def leave (c : ConnId) : Action HS Unit := do
  let a ← consult
  modify fun s =>
    if (s.conn c).phase = .ready then (s.unregister c).removePeer crates c a else s.unregister c

/-- `close`, which removes the connection by `remove`. -/
def closeBy (remove : ConnId → Action HS Unit) (c : ConnId) : Action HS Unit := do
  if ((← get).conn c).phase = .closed then return
  let a ← consult
  if a.closeDispatches then remove c
  remove c

/-- A round of the loop of `broadcastRouteUpdate`, for an entry of a room that may have been
    deleted meanwhile. -/
def tellBy (remove : ConnId → Action HS Unit) (networkName : String)
    (excludePeerId : Option UInt32) (forceFull : Bool) (entry : UInt32 × ConnId) :
    Action HS Unit := do
  let s ← get
  let peer := s.conn entry.2
  if s.rooms.get networkName entry.1 ≠ some entry.2 then return
  if some peer.peerId = excludePeerId ∨ peer.phase ≠ .ready then return
  try
    sendRouteUpdate crates entry.2 forceFull
  catch _ =>
    closeBy remove entry.2

/-- `broadcastRouteUpdate`, which removes connections by `remove`. -/
def broadcastRouteUpdateBy (remove : ConnId → Action HS Unit) (networkName : String)
    (excludePeerId : Option UInt32) (forceFull : Bool) : Action HS Unit := do
  let peers := (← get).rooms.peers networkName
  Prog.forEach (tellBy crates remove networkName excludePeerId forceFull) peers

/-- `removeConnection`, with at most so many rounds of recursion. -/
def removeConnectionIn : ℕ → ConnId → Action HS Unit
  | 0, _ => return
  | rounds + 1, c => do
    let conn := (← get).conn c
    if conn.phase = .closed then return
    leave crates c
    if conn.phase = .ready then
      broadcastRouteUpdateBy crates (removeConnectionIn rounds) conn.networkName none false
    let a ← consult
    modify (·.disposeConnection crates c a)

def removeConnection (c : ConnId) : Action HS Unit := do
  removeConnectionIn crates (← get).openConnections c

def close (c : ConnId) : Action HS Unit := closeBy (removeConnection crates) c

def broadcastRouteUpdate (networkName : String) (excludePeerId : Option UInt32)
    (forceFull : Bool) : Action HS Unit :=
  broadcastRouteUpdateBy crates (removeConnection crates) networkName excludePeerId forceFull

def failConnection (c : ConnId) : Action HS Unit := close crates c

/-! ## Handshakes -/

/-- The route id of a network is persisted when the network is first seen. -/
def persistPeerRouteId (networkName : String) : Action HS Unit := do
  if networkName = "" ∨ networkName ∈ (← get).persistedRouteIds then return
  modify fun s => { s with persistedRouteIds := insert networkName s.persistedRouteIds }
  let _ ← getPeerRouteId networkName

def registerConnection (c : ConnId) : Action HS Unit := do
  let s ← get
  let replaced := s.rooms.get (s.conn c).networkName (s.conn c).peerId
  modify (·.register c)
  match replaced with
  | some r => if r ≠ c then close crates r
  | none => pure ()
  addPeer c
  persistPeerRouteId ((← get).conn c).networkName

/-- The rest of the network learns of a new peer; the first one after a restart is sent a
    full update. -/
def announcePeer (networkName : String) : Action HS Unit := do
  let forceFull := decide (networkName ∈ (← get).resyncPendingNetworks)
  modify fun s => { s with resyncPendingNetworks := s.resyncPendingNetworks.erase networkName }
  broadcastRouteUpdate crates networkName none forceFull

/-- The end of a handshake: the connection is registered and ready. -/
def finishHandshake (c : ConnId) : Action HS Unit := do
  registerConnection crates c
  modify fun s => (s.completeHandshake c).releaseHandshakeSlot c
  announcePeer crates ((← get).conn c).networkName

def handleHandshakeMessage1 (c : ConnId) (frame : Bytes) (packetType : ℕ) : Action HS Unit := do
  if packetType ≠ PacketType.noiseHandshakeMsg1 then
    throw "unexpected or out-of-order handshake packet"
  if config.connectionMode = .legacy then
    throw "CONNECTION_MODE=legacy rejects secure-mode handshakes"
  let info ← .ofExcept (parseHandshakeInfo (← readMsg1 crates c frame))
  match config.rooms.lookup info.networkName with
  | none => close crates c
  | some networkSecret =>
    modify (·.modifyConn c fun conn =>
      { conn with peerId := info.peerId, networkName := info.networkName })
    sendConnection c (← buildMsg2 crates c networkSecret) .relay
    modify (·.modifyConn c fun conn => { conn with phase := .msg3 })

def handleLegacyHandshake (c : ConnId) (frame : Bytes) (header : PacketHeader) :
    Action HS Unit := do
  if config.connectionMode = .secure then
    throw "CONNECTION_MODE=secure rejects legacy plaintext handshakes"
  if header.fromPeerId = serverPeerId.toNat then
    throw "legacy handshake peer id conflicts with the relay peer id"
  let value ← .ofExcept (parseLegacyHandshake crates.handshake crates.secure.base64Encode frame)
  let info ← .ofExcept (parseLegacyHandshakeInfo crates value)
  match config.rooms.lookup info.networkName with
  | none => close crates c
  | some networkSecret =>
    let digestOk ← .ofExcept
      (verifyNetworkSecretDigest info.networkSecretDigest info.networkName networkSecret)
    if !digestOk then
      throw "legacy handshake network-secret digest mismatch"
    modify (·.modifyConn c fun conn =>
      { conn with peerId := info.peerId, networkName := info.networkName, mode := .legacy })
    let cipher ← .ofExcept (LegacyCipher.new networkSecret)
    modify (·.modifyConn c fun conn => { conn with legacyCipher := some cipher })
    let response ← .ofExcept
      (buildLegacyHandshakeResponse crates.handshake serverPeerId info.networkName networkSecret)
    sendConnection c response .relay
    finishHandshake crates c

def handleHandshakeMessage3 (c : ConnId) (frame : Bytes) (packetType : ℕ) : Action HS Unit := do
  if packetType ≠ PacketType.noiseHandshakeMsg3 then
    throw "expected NoiseHandshakeMsg3"
  let auth ← .ofExcept (parseAuthenticationInfo crates (← finishMsg3 crates c frame))
  let conn := (← get).conn c
  if auth.peerId ≠ conn.peerId ∨ auth.networkName ≠ conn.networkName then
    throw "secure handshake identity mismatch"
  modify (·.modifyConn c fun conn => { conn with remotePublicKey := auth.remotePublicKey })
  finishHandshake crates c

/-! ## Packets of ready connections -/

/-- The connection that a frame to a peer is delivered to, or one that stands for it. -/
def resolveRecipient (networkName : String) (toPeerId : UInt32) : Action HS (Option ConnId) := do
  let s ← get
  match s.rooms.get networkName toPeerId with
  | some direct => return if (s.conn direct).phase = .ready then some direct else none
  | none =>
    let gatewayId ← getNextHop networkName toPeerId
    if gatewayId = 0 ∨ gatewayId = toPeerId then return none
    match s.rooms.get networkName gatewayId with
    | some gateway => return if (s.conn gateway).phase = .ready then some gateway else none
    | none => return none

/-- A frame for another peer that is not dropped. -/
def deliver (c : ConnId) (frame : Bytes) (toPeerId : UInt32) : Action HS Unit := do
  match ← resolveRecipient ((← get).conn c).networkName toPeerId with
  | none => return
  | some target =>
    let forwarded ← .ofExcept (incrementForwardCounter frame)
    try
      sendConnection target forwarded (.peer c)
    catch _ =>
      close crates target

/-- A frame for another peer. -/
def forward (c : ConnId) (frame : Bytes) (toPeerId : UInt32) : Action HS Unit := do
  let isDropped ← if config.disableRelayData then .ofExcept (isRelayDataPacket frame)
    else pure false
  if isDropped then return
  deliver crates c frame toPeerId

/-- The payload of a packet that was decrypted; none when it is dropped. -/
def payloadOf (clear : Bytes) : Action HS (Option Bytes) := do
  if clear.length = 0 then return none
  let (_, payload) ← .ofExcept (parsePacket clear)
  return some payload

/-- The clear payload of a call or a response; none when it is dropped. -/
def clearPayload (c : ConnId) (frame : Bytes) (header : PacketHeader) (payload : Bytes) :
    Action HS (Option Bytes) := do
  let conn := (← get).conn c
  let encrypted := header.flags &&& encryptedFlag.toNat ≠ 0
  match conn.mode with
  | .legacy =>
    let some cipher := conn.legacyCipher
      | throw "legacy connection is missing its network-secret cipher"
    if !encrypted then return some payload
    payloadOf (← .ofExcept (cipher.decryptPacket crates.secure frame))
  | .secure =>
    if !encrypted then
      throw "secure_mode requires encrypted direct RPC packets"
    payloadOf (← decryptPacket crates c frame)

/-- A frame for the relay itself. -/
def handleDirectPacket (c : ConnId) (frame : Bytes) (header : PacketHeader) (payload : Bytes) :
    Action HS Unit := do
  if header.fromPeerId ≠ ((← get).conn c).peerId.toNat then
    throw "direct control packet source does not match the authenticated peer"
  if (header.packetType = PacketType.ping ∨ header.packetType = PacketType.pong) ∧
      header.flags &&& encryptedFlag.toNat ≠ 0 then
    throw "EasyTier Ping and Pong packets must remain unencrypted"
  if header.packetType = PacketType.ping then
    sendConnection c (← .ofExcept (createPong frame)) .relay
    return
  if header.packetType = PacketType.pong then return
  if header.packetType ≠ PacketType.rpcReq ∧ header.packetType ≠ PacketType.rpcResp then return
  match ← clearPayload crates c frame header payload with
  | none => return
  | some payload =>
    if header.packetType = PacketType.rpcReq then
      let result ← handleRequest crates c payload
      if result = .route then
        let conn := (← get).conn c
        broadcastRouteUpdate crates conn.networkName (some conn.peerId) false
    else handleResponse crates c payload

def handleReadyPacket (c : ConnId) (frame : Bytes) (header : PacketHeader) (payload : Bytes) :
    Action HS Unit :=
  if header.toPeerId ≠ serverPeerId.toNat then
    forward config crates c frame (UInt32.ofNat header.toPeerId)
  else handleDirectPacket crates c frame header payload

def handleMessage (c : ConnId) (data : Data) : Action HS Unit := do
  let frame ← .ofExcept (toUint8Array data)
  if config.maxFrameBytes < frame.length then
    throw "EasyTier frame exceeds MAX_FRAME_BYTES"
  let (header, payload) ← .ofExcept (parsePacket frame)
  let phase := ((← get).conn c).phase
  if phase = .closed then return
  modify (·.note (.received c frame))
  match phase with
  | .msg1 =>
    if header.packetType = PacketType.handshake then
      handleLegacyHandshake config crates c frame header
    else handleHandshakeMessage1 config crates c frame header.packetType
  | .msg3 => handleHandshakeMessage3 crates c frame header.packetType
  | .ready => handleReadyPacket config crates c frame header payload
  | .closed => return

/-! ## Events -/

def fetch (request : Request) : Action HS Response := do
  if request.pathname ≠ "/" then return ⟨404, "Not found"⟩
  if request.upgrade.map String.toLower ≠ some "websocket" then
    return ⟨426, "Expected a WebSocket upgrade"⟩
  let ipKey := request.connectingIp.getD unknownIp
  let s ← get
  if maxConnections ≤ s.connections.length ∨ maxPendingHandshakes ≤ s.pendingHandshakes ∨
      config.maxPendingPerIp ≤ (s.pendingHandshakesByIp.lookup ipKey).getD 0 then
    return ⟨503, "EasyTier connection capacity exceeded"⟩
  let a ← consult
  if ← modifyGet (·.accept config crates ipKey a) then return ⟨101, ""⟩
  else return ⟨503, "Server secure-mode configuration is invalid"⟩

/-- The callback of the maintenance timer. -/
def maintenance : Action HS Unit := do
  modify fun s => { s with maintenanceTimer := false }
  let a ← consult
  let (routeChangedNetworks, failures) ← cleanExpired crates a.now
  Prog.forEach (fun failure : RouteSyncFailure => do
    if failure.peerId < 2 ^ 32 then
      match (← get).rooms.get failure.networkName (UInt32.ofNat failure.peerId) with
      | some c => close crates c
      | none => pure ()) failures
  Prog.forEach (fun networkName => broadcastRouteUpdate crates networkName none false)
    routeChangedNetworks
  let connections := (← get).connections
  Prog.forEach (fun c => do
    let s ← get
    if c ∉ s.connections ∨ (s.conn c).phase ≠ .ready then return
    try
      maintainPeer crates c a.now
    catch _ =>
      close crates c) connections
  modify (·.scheduleMaintenance)

/-- What happens to the server. -/
inductive ServerEvent
  | upgrade (request : Request)
  | message (c : ConnId) (data : Data)
  /-- The `close` or the `error` event of a socket. -/
  | socketClosed (c : ConnId)
  | handshakeTimeout (c : ConnId)
  | maintenance
  /-- The route id of a network could not be persisted. -/
  | persistFailed (networkName : String)

/-- Handling an event. A timer only fires while it runs. -/
def handleEvent : ServerEvent → Action HS (Option Response)
  | .upgrade request => return some (← fetch config crates request)
  | .message c data => do
    try
      handleMessage config crates c data
    catch _ =>
      failConnection crates c
    return none
  | .socketClosed c => do
    removeConnection crates c
    return none
  | .handshakeTimeout c => do
    if ((← get).conn c).handshakeTimer then close crates c
    return none
  | .maintenance => do
    if (← get).maintenanceTimer then maintenance crates
    return none
  | .persistFailed networkName => do
    modify fun s => { s with persistedRouteIds := s.persistedRouteIds.erase networkName }
    return none

/-- The server as a machine. An event comes with all the ambient that it consults. -/
def server : Machine (HostState HS) (ServerEvent × (ℕ → Ambient)) (Except String (Option Response))
    where
  init := .init config
  step s input :=
    let (result, s) := handleEvent config crates input.1 { s with ambient := input.2 }
    (s, result)

end Host

end EasyTierEdge
