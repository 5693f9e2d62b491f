import EasyTierEdge.Route.Group
import EasyTierEdge.Wire

/-!
# Route synchronization

The updates the relay sends to a peer and the requests it gets from one
(`build_sync_route_info_request` and `handle_sync_route_info_request` of
`wasm/src/route_state.rs`), and `RouteState`, the groups of all networks.

An update leaves out the infos whose versions the peer has acknowledged, and the
connection info when it has acknowledged the current topology version. What is random
about a new group is an argument.
-/

namespace EasyTierEdge

/-- `RouteUpdate`: the encoded request, and what its acknowledgement will commit. -/
structure RouteUpdate where
  payload : Bytes
  peerInfoVersions : List (PeerId × UInt32)
  topologyVersion : Option UInt64

/-- `RouteSyncOutcome`: the encoded response, and what has changed. -/
structure RouteSyncOutcome where
  response : Bytes
  routeChanged : Bool
  sessionChanged : Bool

/-- Setting the bit of a row and a column in a bitmap of `n` columns. -/
def setBit (n row col : ℕ) (bitmap : Bytes) : Bytes :=
  bitmap.modify ((row * n + col) / 8) (· ||| (1 <<< UInt8.ofNat ((row * n + col) % 8)))

/-- The bit of a row and a column in a bitmap of `n` columns: an index of 32 bits on the
    deployed target. -/
def testBitmap (n row col : ℕ) (bitmap : Bytes) : Bool :=
  let bit := (row * n + col) % 2 ^ 32
  (bitmap[bit / 8]?).any fun byte => byte &&& (1 <<< UInt8.ofNat (bit % 8)) ≠ 0

namespace RouteGroupData

variable (g : RouteGroupData) (myPeerId : PeerId)

/-! ## Updates -/

/-- The members, and the peers with an info or a row. -/
def knownIds : Finset PeerId := g.peers ∪ g.peerInfos.keys ∪ g.connRows.keys

/-- The peers an update for `targetPeerId` is about. -/
def relevantPeers (targetPeerId : PeerId) : List PeerId :=
  (insert targetPeerId (insert myPeerId g.knownIds)).ascending

/-- The info of a peer, or the relay's own. -/
def infoOf (pid : PeerId) : Option RoutePeerInfo :=
  if pid = myPeerId then some g.myInfo else g.peerInfos.lookup pid

/-- Everything is sent to a peer whose session id is not known. -/
def forceFullLocal (targetPeerId : PeerId) (forceFull : Bool) : Bool :=
  forceFull || (g.sessions.lookup targetPeerId).all (·.dstSessionId.isNone)

/-- The version of the info of `pid` that `targetPeerId` has acknowledged. -/
def prevVersion (targetPeerId pid : PeerId) (forceFull : Bool) (nowMs : UInt64) : UInt32 :=
  if g.forceFullLocal targetPeerId forceFull then 0
  else ((g.sessions.lookup targetPeerId).getD default).savedVersion pid nowMs

/-- The infos that an update carries, with their peers. -/
def typedItems (targetPeerId : PeerId) (forceFull : Bool) (nowMs : UInt64) :
    List (PeerId × RoutePeerInfo) :=
  (g.relevantPeers myPeerId targetPeerId).filterMap fun pid =>
    if pid = targetPeerId then none
    else
      match g.infoOf myPeerId pid with
      | none => none
      | some info =>
        if g.forceFullLocal targetPeerId forceFull ||
            g.prevVersion targetPeerId pid forceFull nowMs < max info.version 1 then
          some (pid, info)
        else none

/-- Whether a peer reads connection lists. -/
def supportsConnList (targetPeerId : PeerId) : Bool :=
  ((g.peerInfos.lookup targetPeerId).bind (·.featureFlag)).any (·.supportConnListSync)

/-- The row of a peer: the reported one, or an empty one. -/
def connRowFor (pid : PeerId) : ConnRow := (g.connRows.lookup pid).getD default

/-- The rows of the peers as a list. -/
def connPeerListOf (relevantPeers : List PeerId) : RouteConnPeerList where
  peerConnInfos := relevantPeers.map fun pid =>
    { peerId := some { peerId := pid, version := (g.connRowFor pid).version }
      connectedPeerIds := (g.connRowFor pid).connected.ascending }

/-- The rows of the peers as a bitmap, every edge in both directions. -/
def connBitmapOf (relevantPeers : List PeerId) : RouteConnBitmap :=
  let n := relevantPeers.length
  let setLink (i : ℕ) (bitmap : Bytes) (link : PeerId) : Bytes :=
    match relevantPeers.idxOf? link with
    | some j => setBit n j i (setBit n i j bitmap)
    | none => bitmap
  { peerIds := relevantPeers.map fun pid => { peerId := pid, version := (g.connRowFor pid).version }
    bitmap := relevantPeers.zipIdx.foldl
      (fun bitmap (pid, i) => (g.connRowFor pid).connected.ascending.foldl (setLink i) bitmap)
      (List.replicate ((n * n + 7) / 8) 0) }

/-- The connection info of an update, from the cache of the topology version if it is
    there. -/
def buildConnInfo (relevantPeers : List PeerId) (targetPeerId : PeerId) (supportsConnList : Bool)
    (nowMs : UInt64) : Except String (Option ConnInfo) × RouteGroupData :=
  if relevantPeers.isEmpty then (.ok none, g)
  else if (g.sessions.lookup targetPeerId).any (·.hasTopology g.topologyVersion nowMs) then
    (.ok none, g)
  else if supportsConnList then
    match g.cachedConnPeerList.filter (·.1 = g.topologyVersion) with
    | some (_, cached) => (.ok (some (.connPeerList cached)), g)
    | none =>
      let result := g.connPeerListOf relevantPeers
      (.ok (some (.connPeerList result)),
        { g with cachedConnPeerList := some (g.topologyVersion, result) })
  else
    match g.cachedConnBitmap.filter (·.1 = g.topologyVersion) with
    | some (_, cached) => (.ok (some (.connBitmap cached)), g)
    | none =>
      if maxLegacyBitmapPeers < relevantPeers.length then
        (.error "peer does not support sparse route synchronization and the legacy bitmap limit was exceeded",
          g)
      else
        let result := g.connBitmapOf relevantPeers
        (.ok (some (.connBitmap result)),
          { g with cachedConnBitmap := some (g.topologyVersion, result) })

/-- The session of the target, once an update is built for it. -/
def openSession (targetPeerId : PeerId) (serverSessionId : UInt64) : RouteGroupData :=
  { g with
    sessions := g.sessions.upsert targetPeerId fun s => { s with mySessionId := some serverSessionId } }

/-- The update with these infos and this connection info, in the session of the relay. -/
def routeUpdate (prost : Prost) (serverSessionId : UInt64) (weAreInitiator : Bool)
    (typedItems : List (PeerId × RoutePeerInfo)) (connInfo : Option ConnInfo) : RouteUpdate :=
  let request :=
    { myPeerId, mySessionId := serverSessionId, isInitiator := weAreInitiator, peerInfos := none,
      connInfo }
  let field := typedItems.flatMap fun (_, info) =>
    pushLenDelimited 1 (prost.encodeRoutePeerInfo info)
  { payload := prost.encodeSyncRouteInfoRequest request ++
      if typedItems.isEmpty then [] else pushLenDelimited 4 field
    peerInfoVersions := typedItems.map fun (pid, info) => (pid, max info.version 1)
    topologyVersion := connInfo.map fun _ => g.topologyVersion }

/-- The update for a peer. -/
def buildSyncRouteInfoRequest (prost : Prost) (targetPeerId : PeerId) (serverSessionId : UInt64)
    (weAreInitiator forceFull : Bool) (nowMs : UInt64) :
    Except String RouteUpdate × RouteGroupData :=
  let g := g.openSession targetPeerId serverSessionId
  let typedItems := g.typedItems myPeerId targetPeerId forceFull nowMs
  match g.buildConnInfo (g.relevantPeers myPeerId targetPeerId) targetPeerId
    (g.supportsConnList targetPeerId) nowMs with
  | (.error e, g) => (.error e, g)
  | (.ok connInfo, g) =>
    (.ok (g.routeUpdate myPeerId prost serverSessionId weAreInitiator typedItems connInfo), g)

/-! ## Requests -/

/-- `validate_or_bind_reported_key`: the first 32-byte key is kept. -/
def bindReportedKey (authenticated reported : Bytes) : Bytes :=
  if reported.length ≠ 32 then authenticated
  else if authenticated.isEmpty then reported
  else authenticated

/-- The session of a peer that sends a request. -/
def touchSession (fromPeerId : PeerId) (request : SyncRouteInfoRequest) (nowMs : UInt64) :
    RouteGroupData :=
  { g with
    sessions := g.sessions.upsert fromPeerId fun s =>
      { { s with lastTouchMs := nowMs }.setDstSessionId request.mySessionId with
        weAreInitiator := !request.isInitiator } }

/-- Whether the peer has a new session id. -/
def sessionChanges (fromPeerId : PeerId) (sessionId : UInt64) : Bool :=
  ((g.sessions.lookup fromPeerId).getD default).dstSessionId != some sessionId

/-- The info is of another instance than the stored one. -/
def instanceChanged (info : RoutePeerInfo) : Bool :=
  (g.peerInfos.lookup info.peerId).any (·.instId ≠ info.instId)

/-- The info replaces the stored one, if there is one. -/
def shouldUpdate (info : RoutePeerInfo) : Bool :=
  g.instanceChanged info || (g.peerInfos.lookup info.peerId).all (·.version < info.version)

/-- The key that the sender of an info reports. -/
def bindKey (fromPeerId : PeerId) (info : RoutePeerInfo) : RouteGroupData :=
  { g with
    authenticatedPeerKeys := g.authenticatedPeerKeys.insert fromPeerId
      (bindReportedKey ((g.authenticatedPeerKeys.lookup fromPeerId).getD []) info.noiseStaticPubkey) }

/-- Storing an info: nobody has acknowledged anything of a new instance. -/
def putInfo (info : RoutePeerInfo) (nowMs : UInt64) : RouteGroupData :=
  { g with
    sessions :=
      if g.instanceChanged info then
        g.sessions.mapValues fun s =>
          { s with peerInfoVerMap := s.peerInfoVerMap.erase info.peerId }
      else g.sessions
    peerInfos := g.peerInfos.insert info.peerId
      { info with lastUpdate := some { seconds := (nowMs / 1000).toInt64, nanos := 0 } } }

/-- What a request has changed so far. -/
structure Stored where
  group : RouteGroupData
  routeChanged : Bool
  needBump : Bool

/-- An info of a request: only the sender's own one counts. -/
def storeInfo (fromPeerId : PeerId) (nowMs : UInt64) (acc : Stored) (info : RoutePeerInfo) : Stored :=
  if info.peerId ≠ fromPeerId then acc
  else
    let g := acc.group.bindKey fromPeerId info
    if !g.shouldUpdate info then { acc with group := g }
    else
      { group := g.putInfo info nowMs
        routeChanged := true
        needBump := acc.needBump || (g.peerInfos.lookup info.peerId).isNone }

/-- A row of a request: only the sender's own one counts, when its version is higher.
    Neighbours the relay does not know are left out. -/
def acceptRow (fromPeerId : PeerId) (acc : RouteGroupData × Bool)
    (row : PeerId × UInt32 × Finset PeerId) : RouteGroupData × Bool :=
  let (pid, version, connected) := row
  let (g, changed) := acc
  if pid ≠ fromPeerId ∨ pid = myPeerId ∨ version = 0 then (g, changed)
  else
    let knownNeighbors := connected.filter fun neighbor =>
      neighbor = myPeerId ∨ neighbor ∈ g.peers ∨ (g.peerInfos.lookup neighbor).isSome
    let entry := g.connRowFor pid
    if entry.version < version then
      ({ g with connRows := g.connRows.insert pid { version, connected := knownNeighbors } }, true)
    else ({ g with connRows := g.connRows.insert pid entry }, changed)

/-- The rows of a connection info. -/
def connInfoRows : ConnInfo → List (PeerId × UInt32 × Finset PeerId)
  | .connPeerList list => list.peerConnInfos.filterMap fun row =>
      row.peerId.map fun pv => (pv.peerId, pv.version, row.connectedPeerIds.toFinset)
  | .connBitmap bitmap => bitmap.peerIds.zipIdx.map fun (pv, i) =>
      (pv.peerId, pv.version,
        (bitmap.peerIds.zipIdx.filterMap fun (other, j) =>
          if i ≠ j ∧ testBitmap bitmap.peerIds.length i j bitmap.bitmap then some other.peerId
          else none).toFinset)

/-- Storing the rows of a request, and whether they changed. -/
def storeConnRows (connInfo : Option ConnInfo) (fromPeerId : PeerId) : RouteGroupData × Bool :=
  match connInfo with
  | none => (g, false)
  | some conn => (connInfoRows conn).foldl (acceptRow myPeerId fromPeerId) (g, false)

/-- A request of a peer, once it is decoded. -/
def syncRouteInfo (prost : Prost) (fromPeerId : PeerId) (request : SyncRouteInfoRequest)
    (nowMs : UInt64) : RouteSyncOutcome × RouteGroupData :=
  let sessionChanged := g.sessionChanges fromPeerId request.mySessionId
  let stored := (request.peerInfos.getD []).foldl (storeInfo fromPeerId nowMs)
    { group := g.touchSession fromPeerId request nowMs, routeChanged := false, needBump := false }
  let (g, connRowsChanged) := stored.group.storeConnRows myPeerId request.connInfo fromPeerId
  let g := if stored.needBump || connRowsChanged then g.noteTopologyChange else g
  let response :=
    { isInitiator := !request.isInitiator
      sessionId := ((g.sessions.lookup fromPeerId).bind (·.mySessionId)).getD 1
      error := none }
  ({ response := prost.encodeSyncRouteInfoResponse response
     routeChanged := stored.routeChanged || connRowsChanged
     sessionChanged }, g)

end RouteGroupData

/-! ## The groups of all networks -/

/-- What is random about a new group. -/
structure GroupDraws where
  instId : Uuid
  peerRouteId : UInt64

structure RouteState where
  groups : FinMap String RouteGroupData
  myPeerId : PeerId
  routeIdOverrides : FinMap String UInt64

/-- The new group of a network. -/
def RouteGroupData.new (myPeerId : PeerId) (persistedRouteId : Option UInt64) (draws : GroupDraws) :
    RouteGroupData where
  peers := ∅
  peerInfos := ∅
  authenticatedPeerKeys := ∅
  sessions := ∅
  connRows := ∅
  topologyVersion := 1
  cachedConnBitmap := none
  cachedConnPeerList := none
  myInfo :=
    { peerId := myPeerId
      instId := some draws.instId
      cost := 0
      version := 1
      networkLength := 24
      easytierVersion
      hostname := some "edge"
      peerRouteId := persistedRouteId.getD draws.peerRouteId
      featureFlag := some
        { isPublicServer := true
          avoidRelayData := false
          kcpInput := false
          noRelayKcp := false
          supportConnListSync := true
          disableP2p := true } }
  myInfoVersion := 1

namespace RouteState

variable (r : RouteState)

/-- The group of a network, created if it is missing. -/
def ensureGroup (network : String) (draws : GroupDraws) : RouteGroupData :=
  match r.groups.lookup network with
  | some g => g
  | none => .new r.myPeerId (r.routeIdOverrides.lookup network) draws

/-- Working on the group of a network. -/
def withGroup (network : String) (g : RouteGroupData) : RouteState :=
  { r with
    groups := r.groups.insert network g
    routeIdOverrides := r.routeIdOverrides.erase network }

theorem lookup_withGroup (n network : String) (g : RouteGroupData) :
    (r.withGroup n g).groups.lookup network =
      if network = n then some g else r.groups.lookup network :=
  Finmap.lookup_insert_ite _ _ _ _

theorem ensureGroup_of_lookup {r : RouteState} {network : String} {g : RouteGroupData}
    (h : r.groups.lookup network = some g) (draws : GroupDraws) : r.ensureGroup network draws = g := by
  simp [ensureGroup, h]

@[simp] theorem ensureGroup_withGroup (network : String) (g : RouteGroupData) (draws : GroupDraws) :
    (r.withGroup network g).ensureGroup network draws = g :=
  ensureGroup_of_lookup ((r.lookup_withGroup network network g).trans (if_pos rfl)) draws

def addPeer (network : String) (peerId : PeerId) (publicKey : Bytes) (nowMs : UInt64)
    (draws : GroupDraws) : Except String RouteState :=
  if !publicKey.isEmpty && publicKey.length ≠ 32 then
    .error "authenticated peer public key must be 32 bytes or empty for legacy peers"
  else
    .ok (r.withGroup network
      ((r.ensureGroup network draws).addPeer r.myPeerId peerId publicKey nowMs))

def removePeer (network : String) (peerId : PeerId) (draws : GroupDraws) : RouteState :=
  r.withGroup network ((r.ensureGroup network draws).removePeer r.myPeerId peerId)

/-- Removing what has expired, from all networks. -/
def sweepExpiredRouteInfo (nowMs : UInt64) : RouteState :=
  { r with groups := r.groups.mapValues fun g => g.sweep r.myPeerId nowMs }

/-- `SweepOutcome`: the networks whose routes changed, and the silent members that were
    removed. -/
structure SweepOutcome where
  routeChangedNetworks : List String
  deadDirectPeers : List String
  deriving DecidableEq

/-- What the host is told about a sweep. -/
def sweepOutcome (nowMs : UInt64) : SweepOutcome where
  routeChangedNetworks :=
    (r.groups.keys.filter fun network =>
      (r.groups.lookup network).any (·.sweepChanges r.myPeerId nowMs)).ascending
  deadDirectPeers := r.groups.keys.ascending.flatMap fun network =>
    match r.groups.lookup network with
    | some g => (g.deadDirect nowMs).map fun pid => s!"{network}\x1f{pid}"
    | none => []

/-- A request of a peer. -/
def handleSyncRouteInfoRequest (prost : Prost) (network : String) (fromPeerId : PeerId)
    (requestBytes : Bytes) (nowMs : UInt64) (draws : GroupDraws) :
    Except String (RouteSyncOutcome × RouteState) :=
  match prost.decodeSyncRouteInfoRequest requestBytes with
  | .error e => .error s!"decode SyncRouteInfoRequest failed: {e}"
  | .ok request =>
    if request.myPeerId ≠ fromPeerId then
      .error "SyncRouteInfoRequest peer id does not match the authenticated connection"
    else
      let (outcome, g) := (r.ensureGroup network draws).syncRouteInfo r.myPeerId prost fromPeerId
        request nowMs
      .ok (outcome, r.withGroup network g)

end RouteState

end EasyTierEdge
