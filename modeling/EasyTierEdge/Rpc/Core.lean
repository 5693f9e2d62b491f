import EasyTierEdge.Lib.Machine
import EasyTierEdge.PeerCenter
import EasyTierEdge.Route.Sync
import EasyTierEdge.Rpc.Fragments

/-!
# The core of remote procedure calls

`WasmRpcCore` of `wasm/src/rpc.rs`: it takes the calls and responses of the peers, builds
the route updates for them and remembers which ones wait for a response. `rpcCore` is
the core as a machine, with a step for each of its methods.

The host configures the core before the first peer is there (`CoreConfig`). What a
method draws at random, and its readings of the clock, are arguments.
-/

namespace EasyTierEdge

def routeRpcTimeoutMs : UInt64 := 3000
def peerCenterTtlSeconds : UInt64 := 180
def resultHandled : UInt8 := 1
def resultRoute : UInt8 := 2
def resultRouteSession : UInt8 := 3

structure OutstandingRoute where
  deadlineMs : UInt64
  peerInfoVersions : List (PeerId × UInt32)
  topologyVersion : Option UInt64

structure WasmRpcCore where
  routes : RouteState
  peerCenter : PeerCenter
  configuredGroups : Finset String
  peerInitiator : FinMap (String × UInt32) Bool
  fragments : Fragments
  outstandingRoutes : FinMap RpcKey OutstandingRoute
  publicKey : Bytes
  hostname : String
  serverPeerId : UInt32
  avoidRelayData : Bool

/-- How the host sets up the core: the arguments of the constructor, the flag of
    `set_avoid_relay_data` and the ids of `set_peer_route_id`. -/
structure CoreConfig where
  publicKey : Bytes
  hostname : String
  serverPeerId : UInt32
  avoidRelayData : Bool
  routeIds : FinMap String UInt64
  publicKey_length : publicKey.length = 32
  serverPeerId_ne_zero : serverPeerId ≠ 0

/-- The code of `prost`, and the hash of the standard library. -/
structure RpcCrates where
  prost : Prost
  hash : PeerMapHash

/-- The core as the host sets it up. -/
def WasmRpcCore.new (config : CoreConfig) : WasmRpcCore where
  routes := { groups := ∅, myPeerId := config.serverPeerId, routeIdOverrides := config.routeIds }
  peerCenter := ∅
  configuredGroups := ∅
  peerInitiator := ∅
  fragments := { pending := ∅, pendingBytes := 0, pendingPieces := 0 }
  outstandingRoutes := ∅
  publicKey := config.publicKey
  hostname := config.hostname
  serverPeerId := config.serverPeerId
  avoidRelayData := config.avoidRelayData

def noCompression : RpcCompressionInfo := ⟨compressionAlgoNone, compressionAlgoNone⟩

def isService (descriptor : RpcDescriptor) (expected : String) : Bool :=
  descriptor.serviceName = expected &&
    (descriptor.protoName = "peer_rpc." ++ expected || descriptor.protoName = "peer_rpc" ||
      descriptor.protoName = expected)

def invalidMethodError (descriptor : RpcDescriptor) : RpcError :=
  .invalidMethodIndex descriptor.serviceName descriptor.methodIndex

def validateCompression (packet : RpcPacket) : Except String Unit :=
  if packet.compressionInfo.any (compressionAlgoNone < ·.algo) then
    .error "compressed RPC is not negotiated by this relay"
  else .ok ()

/-- The first of the random transaction ids that is not in use. -/
def firstFree (outstandingRoutes : FinMap RpcKey OutstandingRoute) (network : String)
    (peerId : UInt32) : List (Except String UInt64) → Except String Int64
  | [] => .error "failed to allocate a unique RPC transaction id"
  | .error e :: _ => .error e
  | .ok bits :: draws =>
    let transactionId := (bits &&& 0x7FFFFFFFFFFFFFFF).toInt64
    if transactionId ≠ 0 ∧
        (outstandingRoutes.lookup ⟨network, peerId, transactionId, false⟩).isNone then
      .ok transactionId
    else firstFree outstandingRoutes network peerId draws

/-- What the relay answers to a call. -/
structure Reply where
  body : Bytes
  error : Option RpcError := none
  result : UInt8 := resultHandled

namespace WasmRpcCore

variable (core : WasmRpcCore) (crates : RpcCrates)

def validateEnvelope (packet : RpcPacket) (network : String) (peerId : UInt32) (isRequest : Bool) :
    Except String Unit :=
  if packet.fromPeer ≠ peerId ∨ packet.toPeer ≠ core.serverPeerId then
    .error "RPC protobuf envelope does not match its EasyTier header"
  else if packet.isRequest ≠ isRequest then .error "unexpected RPC request/response direction"
  else if packet.descriptor.any (·.domainName ≠ network) then
    .error "cross-network RPC domain rejected"
  else .ok ()

/-! ## Members -/

/-- The relay's own info in a group, when its first member is added. -/
def configureGroup (g : RouteGroupData) : RouteGroupData :=
  let g := (g.setHostname core.hostname).setMyNoisePublicKey core.publicKey
  if core.avoidRelayData then g.setMyAvoidRelayData true else g

def addPeer (network : String) (peerId : UInt32) (remotePublicKey : Bytes) (nowMs : UInt64)
    (draws : GroupDraws) : Except String WasmRpcCore :=
  match core.routes.addPeer network peerId remotePublicKey nowMs draws with
  | .error e => .error e
  | .ok routes =>
    let routes :=
      if network ∈ core.configuredGroups then routes
      else routes.withGroup network (core.configureGroup (routes.ensureGroup network draws))
    .ok
      { core with
        routes
        configuredGroups := insert network core.configuredGroups
        peerInitiator := core.peerInitiator.insert (network, peerId) false }

def removePeer (network : String) (peerId : UInt32) (draws : GroupDraws) : WasmRpcCore :=
  { core with
    routes := core.routes.removePeer network peerId draws
    peerCenter := core.peerCenter.removePeer crates.hash network peerId
    peerInitiator := core.peerInitiator.erase (network, peerId)
    fragments := core.fragments.removeAll fun key _ => key.network = network && key.peerId = peerId
    outstandingRoutes := core.outstandingRoutes.retain fun key _ =>
      key.network ≠ network || key.peerId ≠ peerId }

/-! ## Calls of the peers -/

/-- A route synchronization. Whatever is wrong with it, the connection stays alive. -/
def serveRoute (network : String) (peerId : UInt32) (request : Bytes) (nowMs : UInt64)
    (draws : GroupDraws) : Reply × WasmRpcCore :=
  let weAreInitiator :=
    match crates.prost.decodeSyncRouteInfoRequest request with
    | .ok sync => !sync.isInitiator
    | .error _ => true
  let core :=
    { core with peerInitiator := core.peerInitiator.insert (network, peerId) weAreInitiator }
  match core.routes.handleSyncRouteInfoRequest crates.prost network peerId request nowMs draws with
  | .error _ =>
    ({ body := crates.prost.encodeSyncRouteInfoResponse { error := some syncRouteInfoErrorStopped } },
      core)
  | .ok (outcome, routes) =>
    ({ body := outcome.response
       result :=
         if outcome.routeChanged then resultRoute
         else if outcome.sessionChanged then resultRouteSession
         else resultHandled },
      { core with routes })

/-- Serving a call, by the service and method of its descriptor. -/
def serve (network : String) (peerId : UInt32) (descriptor : RpcDescriptor) (request : Bytes)
    (nowMs clockMs : UInt64) (draws : GroupDraws) : Except String (Reply × WasmRpcCore) :=
  if isService descriptor "OspfRouteRpc" then
    if descriptor.methodIndex ≠ 1 then
      .ok ({ body := [], error := some (invalidMethodError descriptor) }, core)
    else .ok (core.serveRoute crates network peerId request nowMs draws)
  else if isService descriptor "PeerCenterRpc" then
    if descriptor.methodIndex = 1 then
      (core.peerCenter.reportPeers crates.hash crates.prost network peerId request clockMs).map
        fun (body, peerCenter) => ({ body }, { core with peerCenter })
    else if descriptor.methodIndex = 2 then
      (core.peerCenter.getGlobalPeerMap crates.prost network request).map
        fun (body, peerCenter) => ({ body }, { core with peerCenter })
    else .ok ({ body := [], error := some (invalidMethodError descriptor) }, core)
  else .ok ({ body := [], error := some (.invalidService descriptor.serviceName) }, core)

/-- The packet of a reply, after a byte that tells the host what has changed. -/
def replyPacket (peerId : UInt32) (packet : RpcPacket) (reply : Reply) : Bytes :=
  reply.result :: crates.prost.encodeRpcPacket
    { fromPeer := core.serverPeerId
      toPeer := peerId
      transactionId := packet.transactionId
      descriptor := packet.descriptor
      body := crates.prost.encodeRpcResponse
        { response := reply.body, error := reply.error, runtimeUs := 0 }
      isRequest := false
      totalPieces := 1
      pieceIdx := 0
      traceId := packet.traceId
      compressionInfo := some noCompression }

/-- A whole call: `handle_request` once the pieces are merged. -/
def handleCall (network : String) (peerId : UInt32) (packet : RpcPacket) (nowMs clockMs : UInt64)
    (draws : GroupDraws) : Except String (Bytes × WasmRpcCore) := do
  validateCompression packet
  let some descriptor := packet.descriptor
    | throw "RPC request is missing its descriptor"
  let request ← (crates.prost.decodeRpcRequest packet.body).mapError
    fun e => s!"decode RpcRequest failed: {e}"
  let (reply, core) ← core.serve crates network peerId descriptor request.request nowMs clockMs draws
  return (core.replyPacket crates peerId packet reply, core)

def handleRequest (network : String) (authenticatedPeerId : UInt32) (payload : Bytes)
    (nowMs clockMs : UInt64) (draws : GroupDraws) : Except String Bytes × WasmRpcCore :=
  match crates.prost.decodeRpcPacket payload with
  | .error e => (.error s!"decode RpcPacket failed: {e}", core)
  | .ok packet =>
    match core.validateEnvelope packet network authenticatedPeerId true with
    | .error e => (.error e, core)
    | .ok () =>
      let (merged, fragments) := core.fragments.mergePacket network authenticatedPeerId packet nowMs
      let core := { core with fragments }
      match merged with
      | .error e => (.error e, core)
      | .ok .pending => (.ok [0], core)
      | .ok (.complete packet) =>
        match core.handleCall crates network authenticatedPeerId packet nowMs clockMs draws with
        | .error e => (.error e, core)
        | .ok (bytes, core) => (.ok bytes, core)

/-! ## Responses of the peers -/

/-- What a response to a route update says. -/
inductive Verdict
  /-- It is ignored. -/
  | ignored
  /-- The update was refused. -/
  | refused
  /-- The update was accepted, in this session. -/
  | accepted (sessionId : UInt64)
  deriving DecidableEq

/-- A whole response. -/
def readResponse (packet : RpcPacket) : Except String Verdict :=
  match validateCompression packet with
  | .error e => .error e
  | .ok () =>
    match packet.descriptor with
    | none => .error "RPC response is missing its descriptor"
    | some descriptor =>
      if !isService descriptor "OspfRouteRpc" || descriptor.methodIndex ≠ 1 then .ok .ignored
      else
        match crates.prost.decodeRpcResponse packet.body with
        | .error _ => .ok .ignored
        | .ok response =>
          if response.error.isSome then .ok .refused
          else
            match crates.prost.decodeSyncRouteInfoResponse response.response with
            | .error _ => .ok .ignored
            | .ok sync => .ok (if sync.error.isSome then .refused else .accepted sync.sessionId)

/-- An accepted update: the session is acknowledged, and what the update carried is
    committed. -/
def commit (network : String) (peerId : UInt32) (outstanding : OutstandingRoute)
    (sessionId nowMs : UInt64) (draws : GroupDraws) : WasmRpcCore :=
  let weAreInitiator := (core.peerInitiator.lookup (network, peerId)).getD true
  let g := (core.routes.ensureGroup network draws).onRouteSessionAck peerId sessionId weAreInitiator
    nowMs
  { core with
    routes := core.routes.withGroup network
      (g.commitRouteUpdate peerId outstanding.peerInfoVersions outstanding.topologyVersion nowMs) }

/-- What becomes of the transaction of a response. -/
inductive Settlement
  /-- No such transaction waits for a response. -/
  | unknown
  /-- The response is too late. -/
  | late (key : RpcKey)
  /-- There are more pieces to come. -/
  | pending
  /-- The response is ignored. -/
  | ignored
  /-- The update was refused. -/
  | refused (key : RpcKey)
  /-- The update was accepted, in this session. -/
  | accepted (key : RpcKey) (outstanding : OutstandingRoute) (sessionId : UInt64)

/-- Examining a response, which may be a piece of one. -/
def examineResponse (network : String) (authenticatedPeerId : UInt32) (payload : Bytes)
    (nowMs : UInt64) : Except String Settlement × Fragments :=
  match crates.prost.decodeRpcPacket payload with
  | .error e => (.error s!"decode RpcPacket failed: {e}", core.fragments)
  | .ok packet =>
    match core.validateEnvelope packet network authenticatedPeerId false with
    | .error e => (.error e, core.fragments)
    | .ok () =>
      let key := RpcKey.mk network authenticatedPeerId packet.transactionId false
      match core.outstandingRoutes.lookup key with
      | none => (.ok .unknown, core.fragments)
      | some outstanding =>
        if outstanding.deadlineMs < nowMs then (.ok (.late key), core.fragments)
        else
          match core.fragments.mergePacket network authenticatedPeerId packet nowMs with
          | (.error e, fragments) => (.error e, fragments)
          | (.ok .pending, fragments) => (.ok .pending, fragments)
          | (.ok (.complete packet), fragments) =>
            ((readResponse crates packet).map fun verdict =>
              match verdict with
              | .ignored => .ignored
              | .refused => .refused key
              | .accepted sessionId => .accepted key outstanding sessionId, fragments)

/-- The core without a transaction. -/
def settle (key : RpcKey) : WasmRpcCore :=
  { core with outstandingRoutes := core.outstandingRoutes.erase key }

def handleResponse (network : String) (authenticatedPeerId : UInt32) (payload : Bytes)
    (nowMs : UInt64) (draws : GroupDraws) : Except String Bool × WasmRpcCore :=
  let (settlement, fragments) := core.examineResponse crates network authenticatedPeerId payload nowMs
  let core := { core with fragments }
  match settlement with
  | .error e => (.error e, core)
  | .ok .unknown => (.ok false, core)
  | .ok (.late key) => (.ok false, core.settle key)
  | .ok .pending => (.ok false, core)
  | .ok .ignored => (.ok false, core)
  | .ok (.refused key) => (.ok true, core.settle key)
  | .ok (.accepted key outstanding sessionId) =>
    (.ok true,
      (core.settle key).commit network authenticatedPeerId outstanding sessionId nowMs draws)

/-! ## Route updates -/

def cleanRpcState (nowMs : UInt64) : WasmRpcCore :=
  { core with
    fragments := core.fragments.cleanPending nowMs
    outstandingRoutes := core.outstandingRoutes.retain fun _ route => nowMs ≤ route.deadlineMs }

def nextTransactionId (network : String) (peerId : UInt32)
    (draws : Vector (Except String UInt64) 16) : Except String Int64 :=
  firstFree core.outstandingRoutes network peerId draws.toList

/-- The packet of a route update. -/
def updatePacket (network : String) (peerId : UInt32) (transactionId : Int64) (payload : Bytes) :
    RpcPacket where
  fromPeer := core.serverPeerId
  toPeer := peerId
  transactionId
  descriptor := some
    { domainName := network
      protoName := "OspfRouteRpc"
      serviceName := "OspfRouteRpc"
      methodIndex := 1 }
  body := crates.prost.encodeRpcRequest
    { request := payload, timeoutMs := routeRpcTimeoutMs.toUInt32.toInt32 }
  isRequest := true
  totalPieces := 1
  pieceIdx := 0
  traceId := 0
  compressionInfo := some noCompression

def buildRouteUpdate (network : String) (peerId : UInt32) (serverSessionId : UInt64)
    (forceFull : Bool) (nowMs : UInt64) (draws : GroupDraws)
    (ids : Vector (Except String UInt64) 16) : Except String Bytes × WasmRpcCore :=
  let core := core.cleanRpcState nowMs
  let weAreInitiator := (core.peerInitiator.lookup (network, peerId)).getD true
  let (update, g) := (core.routes.ensureGroup network draws).buildSyncRouteInfoRequest
    core.routes.myPeerId crates.prost peerId serverSessionId weAreInitiator forceFull nowMs
  let core := { core with routes := core.routes.withGroup network g }
  match update with
  | .error e => (.error e, core)
  | .ok update =>
    match core.nextTransactionId network peerId ids with
    | .error e => (.error e, core)
    | .ok transactionId =>
      (.ok (crates.prost.encodeRpcPacket
          (core.updatePacket crates network peerId transactionId update.payload)),
        { core with
          outstandingRoutes := core.outstandingRoutes.insert ⟨network, peerId, transactionId, false⟩
            { deadlineMs := nowMs.saturatingAdd routeRpcTimeoutMs
              peerInfoVersions := update.peerInfoVersions
              topologyVersion := update.topologyVersion } })

def cleanExpired (nowMs clockMs : UInt64) : RouteState.SweepOutcome × WasmRpcCore :=
  let core := core.cleanRpcState nowMs
  (core.routes.sweepOutcome nowMs,
    { core with
      routes := core.routes.sweepExpiredRouteInfo nowMs
      peerCenter := core.peerCenter.cleanOutdated crates.hash peerCenterTtlSeconds clockMs })

end WasmRpcCore

/-! ## The core as a machine -/

/-- A call of a method of the core. -/
inductive CoreOp
  | addPeer (network : String) (peerId : UInt32) (remotePublicKey : Bytes) (nowMs : UInt64)
      (draws : GroupDraws)
  | removePeer (network : String) (peerId : UInt32) (draws : GroupDraws)
  | handleRequest (network : String) (peerId : UInt32) (payload : Bytes) (nowMs clockMs : UInt64)
      (draws : GroupDraws)
  | handleResponse (network : String) (peerId : UInt32) (payload : Bytes) (nowMs : UInt64)
      (draws : GroupDraws)
  | buildRouteUpdate (network : String) (peerId : UInt32) (serverSessionId : UInt64)
      (forceFull : Bool) (nowMs : UInt64) (draws : GroupDraws)
      (ids : Vector (Except String UInt64) 16)
  | cleanExpired (nowMs clockMs : UInt64)

/-- What a method returns. -/
inductive CoreOutput
  | done (result : Except String Unit)
  | reply (result : Except String Bytes)
  | handled (result : Except String Bool)
  | update (result : Except String Bytes)
  | swept (outcome : RouteState.SweepOutcome)

/-- One call. -/
def WasmRpcCore.step (crates : RpcCrates) (core : WasmRpcCore) : CoreOp → WasmRpcCore × CoreOutput
  | .addPeer network peerId remotePublicKey nowMs draws =>
    match core.addPeer network peerId remotePublicKey nowMs draws with
    | .error e => (core, .done (.error e))
    | .ok core => (core, .done (.ok ()))
  | .removePeer network peerId draws =>
    (core.removePeer crates network peerId draws, .done (.ok ()))
  | .handleRequest network peerId payload nowMs clockMs draws =>
    let (result, core) := core.handleRequest crates network peerId payload nowMs clockMs draws
    (core, .reply result)
  | .handleResponse network peerId payload nowMs draws =>
    let (result, core) := core.handleResponse crates network peerId payload nowMs draws
    (core, .handled result)
  | .buildRouteUpdate network peerId serverSessionId forceFull nowMs draws ids =>
    let (result, core) :=
      core.buildRouteUpdate crates network peerId serverSessionId forceFull nowMs draws ids
    (core, .update result)
  | .cleanExpired nowMs clockMs =>
    let (outcome, core) := core.cleanExpired crates nowMs clockMs
    (core, .swept outcome)

/-- The core as a machine. -/
def rpcCore (crates : RpcCrates) (config : CoreConfig) : Machine WasmRpcCore CoreOp CoreOutput where
  init := .new config
  step := WasmRpcCore.step crates

end EasyTierEdge
