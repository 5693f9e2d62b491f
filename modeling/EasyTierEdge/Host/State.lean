import EasyTierEdge.Host.Packet
import EasyTierEdge.Legacy
import EasyTierEdge.Lib.JsMap
import EasyTierEdge.Lib.Program
import EasyTierEdge.Route.State
import EasyTierEdge.Rpc.Core
import EasyTierEdge.Secure.Store

/-!
# The state of the host

What `EasyTierServer` of `src/server.ts` keeps: the connections, the rooms they are registered
in, the counters of unfinished handshakes, the core of remote procedure calls with the states
of the route updates (`src/core/rpc.ts`), and the store of the secure sessions. A connection is
told by its number, in the order in which they were accepted, which also stands for its socket.

What the host does is recorded (`trace`). What it cannot foresee, like the time, random numbers
and the failures of a socket, comes from the `ambient`, a reading for each time it is consulted.
-/

namespace EasyTierEdge

namespace Host

/-! ## Configuration -/

def serverPeerId : UInt32 := 10000001
def maxConnections : ℕ := 2048
/-- The quota of unfinished handshakes. -/
def maxPendingHandshakes : ℕ := 256
def unknownIp : String := "unknown"
def sendWindowMs : ℕ := 1000
def maxSendBytesPerWindow : ℕ := 32 * 1024 * 1024
def maxSendFramesPerWindow : ℕ := 4096
def routeSyncTimeoutMs : ℕ := 3000
def routeMaintenanceIntervalMs : ℕ := 10000

namespace PacketType

def handshake : ℕ := 2
def ping : ℕ := 4
def pong : ℕ := 5
def rpcReq : ℕ := 8
def rpcResp : ℕ := 9
def noiseHandshakeMsg1 : ℕ := 13
def noiseHandshakeMsg3 : ℕ := 15

end PacketType

/-- How a connection is authenticated: by Noise, or by the digest of a client without secure
    mode. -/
inductive HandshakeMode
  | secure
  | legacy
  deriving DecidableEq

/-- The configuration of the server, with the identity it resolved and the route ids that were
    persisted before a restart. -/
structure ServerConfig where
  /-- The networks and their secrets. -/
  rooms : FinMap String String
  hostname : String
  localPrivateKey : String
  localPublicKey : String
  localPublicKeyBytes : Bytes
  disableRelayData : Bool
  maxFrameBytes : ℕ
  maxPendingPerIp : ℕ
  connectionMode : HandshakeMode
  routeIds : FinMap String UInt64
  length_localPublicKeyBytes : localPublicKeyBytes.length = 32

/-- How the server sets up the core. -/
def ServerConfig.core (config : ServerConfig) : CoreConfig where
  publicKey := config.localPublicKeyBytes
  hostname := config.hostname
  serverPeerId
  avoidRelayData := config.disableRelayData
  routeIds := config.routeIds
  publicKey_length := config.length_localPublicKeyBytes
  serverPeerId_ne_zero := by decide

/-- The third-party code the module is built on, and `atob`. -/
structure HostCrates (HS : Type) where
  secure : Crates HS
  rpc : RpcCrates
  handshake : HandshakeCodec
  atob : String → Option Bytes

/-! ## Connections -/

/-- A connection, by the number of those accepted before it. -/
abbrev ConnId := ℕ

inductive Phase
  | msg1
  | msg3
  | ready
  | closed
  deriving DecidableEq

/-- The handshake is not finished. -/
def Phase.pending : Phase → Bool
  | .msg1 | .msg3 => true
  | .ready | .closed => false

structure Connection where
  /-- The `SecurePeer`, until it is freed. -/
  secure : Option Handle
  legacyCipher : Option LegacyCipher
  remotePublicKey : Bytes
  phase : Phase
  mode : HandshakeMode
  peerId : UInt32
  networkName : String
  clientIp : String
  serverSessionId : UInt64
  /-- The timer of the handshake runs. -/
  handshakeTimer : Bool
  sendWindowStartedAt : ℕ
  sentBytesInWindow : ℕ
  sentFramesInWindow : ℕ

/-- There is no such connection. -/
instance : Inhabited Connection where
  default :=
    { secure := none
      legacyCipher := none
      remotePublicKey := []
      phase := .closed
      mode := .secure
      peerId := 0
      networkName := ""
      clientIp := ""
      serverSessionId := 1
      handshakeTimer := false
      sendWindowStartedAt := 0
      sentBytesInWindow := 0
      sentFramesInWindow := 0 }

/-- What a connection sent in the current window. -/
def Connection.withWindow (conn : Connection) (startedAt bytes frames : ℕ) : Connection :=
  { conn with
    sendWindowStartedAt := startedAt
    sentBytesInWindow := bytes
    sentFramesInWindow := frames }

/-- What the host cannot foresee. -/
structure Ambient where
  /-- `Date.now()`, up to the largest time there is. -/
  now : Fin 8640000000000001
  /-- The socket is open. -/
  isOpen : Bool
  /-- `socket.send` throws. -/
  sendThrows : Bool
  /-- `socket.close` dispatches the close event before it returns. -/
  closeDispatches : Bool
  /-- The clock of the module. -/
  clockMs : UInt64
  groupDraws : GroupDraws
  transactionIds : Vector (Except String UInt64) 16
  msg2Draws : Msg2Draws
  packetClock : PacketClock
  nonce : Except String (Vector UInt8 12)
  /-- The address of a new `SecurePeer`. -/
  handle : Handle
  random : UInt64

instance : Inhabited Ambient where
  default :=
    { now := ⟨0, by decide⟩
      isOpen := true
      sendThrows := false
      closeDispatches := false
      clockMs := 0
      groupDraws := ⟨⟨0, 0, 0, 0⟩, 0⟩
      transactionIds := Vector.replicate 16 (.ok 1)
      msg2Draws := ⟨.ok (Vector.replicate 32 0), .ok ⟨0, 0, 0, 0⟩, 0, 0⟩
      packetClock := ⟨0, 0⟩
      nonce := .ok (Vector.replicate 12 0)
      handle := ⟨0, by decide⟩
      random := 0 }

/-- `Date.now()` as a `BigInt`. -/
def Ambient.nowMs (a : Ambient) : UInt64 := UInt64.ofNat a.now

/-- A random number that is not zero. -/
def Ambient.randomU64 (a : Ambient) : UInt64 := if a.random = 0 then 1 else a.random

/-! ## Rooms -/

/-- The registered connections of every network, by peer id. -/
abbrev RoomRegistry := JsMap String (JsMap UInt32 ConnId)

namespace RoomRegistry

variable (rooms : RoomRegistry)

def get (networkName : String) (peerId : UInt32) : Option ConnId :=
  (JsMap.get rooms networkName).bind fun room => room.get peerId

/-- The registry with a connection, which may replace another one. -/
def set (networkName : String) (peerId : UInt32) (c : ConnId) : RoomRegistry :=
  JsMap.set rooms networkName (((JsMap.get rooms networkName).getD ∅).set peerId c)

/-- The registry without a connection, unless another one took its place. -/
def delete (networkName : String) (peerId : UInt32) (c : ConnId) : RoomRegistry :=
  match JsMap.get rooms networkName with
  | none => rooms
  | some room =>
    if room.get peerId ≠ some c then rooms
    else
      let room := room.delete peerId
      if room.size = 0 then JsMap.delete rooms networkName else JsMap.set rooms networkName room

/-- The entries of a room. -/
def peers (networkName : String) : List (UInt32 × ConnId) :=
  ((JsMap.get rooms networkName).getD ∅).entries

end RoomRegistry

/-! ## Route updates -/

/-- A network and a peer id of it. -/
abbrev PeerKey := String × UInt32

/-- The route updates of a peer. -/
structure RouteSyncState where
  peer : ConnId
  /-- An update waits for its response. -/
  inFlight : Bool
  /-- A change was announced since the last update. -/
  dirty : Bool
  /-- The next update must be a full one. -/
  forceFull : Bool
  sentAt : ℕ
  lastCompletedAt : ℕ

/-! ## The state -/

/-- Whose frame is sent to a connection: one of the relay, or of another peer. -/
inductive Origin
  | relay
  | peer (c : ConnId)
  deriving DecidableEq

/-- What the host does. -/
inductive Effect
  /-- A frame of a connection is handled. -/
  | received (c : ConnId) (frame : Bytes)
  /-- A method of the `SecurePeer` of a connection is called. -/
  | secure (c : ConnId) (call : Call) (output : Output)
  /-- A frame is sent to a connection. -/
  | sent (c : ConnId) (frame : Bytes) (origin : Origin)
  /-- The peer of a connection is added to the core. -/
  | added (c : ConnId)
  /-- The peer of a connection is removed from the core. -/
  | removed (c : ConnId)
  /-- A change of the routes is announced to a connection. -/
  | announced (c : ConnId) (forceFull : Bool)
  /-- A route update is built for a connection. -/
  | built (c : ConnId) (forceFull : Bool)
  /-- A connection is marked closed. -/
  | closed (c : ConnId)
  /-- A connection is disposed. -/
  | disposed (c : ConnId)

structure HostState (HS : Type) where
  /-- The accepted connections, also those closed since. -/
  conns : List Connection
  /-- The open ones. -/
  connections : List ConnId
  rooms : RoomRegistry
  pendingHandshakes : ℕ
  pendingHandshakesByIp : FinMap String ℕ
  /-- The timer of the maintenance runs. -/
  maintenanceTimer : Bool
  persistedRouteIds : Finset String
  resyncPendingNetworks : Finset String
  core : WasmRpcCore
  routeSyncStates : JsMap PeerKey RouteSyncState
  world : World HS
  ambient : ℕ → Ambient
  trace : List Effect

namespace HostState

variable {HS : Type}

/-- A server without connections. -/
def init (config : ServerConfig) : HostState HS where
  conns := []
  connections := []
  rooms := ∅
  pendingHandshakes := 0
  pendingHandshakesByIp := ∅
  maintenanceTimer := false
  persistedRouteIds := config.routeIds.keys
  resyncPendingNetworks := config.routeIds.keys
  core := .new config.core
  routeSyncStates := ∅
  world := { sessions := ∅, peers := ∅ }
  ambient := default
  trace := []

variable (s : HostState HS)

/-- A connection; a closed one when it was never accepted. -/
def conn (c : ConnId) : Connection := s.conns.getD c default

def modifyConn (c : ConnId) (f : Connection → Connection) : HostState HS :=
  { s with conns := s.conns.modify c f }

/-- The number of connections that are not closed. -/
def openConnections : ℕ := s.conns.countP fun conn => conn.phase ≠ .closed

/-- `routeSyncKey`. -/
def routeSyncKey (c : ConnId) : PeerKey := ((s.conn c).networkName, (s.conn c).peerId)

/-- The state after the ambient was consulted. -/
def tick : HostState HS := { s with ambient := fun n => s.ambient (n + 1) }

/-- The state with an effect recorded. -/
def note (e : Effect) : HostState HS := { s with trace := s.trace ++ [e] }

end HostState

/-- The programs of the host. -/
abbrev Action (HS α : Type) := Prog (HostState HS) String α

/-- Consulting the ambient. -/
def consult {HS : Type} : Action HS Ambient := modifyGet fun s => (s.ambient 0, s.tick)

end Host

end EasyTierEdge
