import EasyTierEdge.Lib.Ascending
import EasyTierEdge.Lib.FinMap
import EasyTierEdge.Proto

/-!
# Route groups

The routes of one network, `RouteGroupData` of `wasm/src/route_state.rs`: the members
of the network, the infos and connection rows they have reported, and what each of
them has acknowledged. `topologyVersion` counts the changes of members and rows, and
the connection info of an update is cached for a version.

Hash maps are finite maps, and where the code iterates over one it is gone through in
ascending order: no result depends on it.
-/

namespace EasyTierEdge

abbrev PeerId := UInt32

def easytierVersion : String := "2.6.4-8428a89d-edge"
def maxLegacyBitmapPeers : ℕ := 8192
def savedRouteVersionTtlMs : UInt64 := 60000
def removeUnreachablePeerInfoAfterMs : UInt64 := 90000
def removeDeadPeerInfoAfterMs : UInt64 := 3660000

/-- The neighbours of a peer, with the version its owner gives them. -/
structure ConnRow where
  version : UInt32
  connected : Finset PeerId
  deriving DecidableEq

instance : Inhabited ConnRow := ⟨0, ∅⟩

structure SavedVersion where
  version : UInt32
  touchedAtMs : UInt64
  deriving DecidableEq

structure SessionState where
  mySessionId : Option UInt64
  dstSessionId : Option UInt64
  weAreInitiator : Bool
  peerInfoVerMap : FinMap PeerId SavedVersion
  foreignNetVer : UInt32
  lastTouchMs : UInt64
  lastTopologyVersion : UInt64
  lastTopologyTouchMs : UInt64

instance : Inhabited SessionState := ⟨none, none, false, ∅, 0, 0, 0, 0⟩

structure RouteGroupData where
  peers : Finset PeerId
  peerInfos : FinMap PeerId RoutePeerInfo
  authenticatedPeerKeys : FinMap PeerId Bytes
  sessions : FinMap PeerId SessionState
  connRows : FinMap PeerId ConnRow
  topologyVersion : UInt64
  cachedConnBitmap : Option (UInt64 × RouteConnBitmap)
  cachedConnPeerList : Option (UInt64 × RouteConnPeerList)
  myInfo : RoutePeerInfo
  myInfoVersion : UInt32

namespace SessionState

variable (s : SessionState)

/-- The peer was heard of at most 90 s before `nowMs`. -/
def reachable (nowMs : UInt64) : Bool :=
  nowMs.saturatingSub s.lastTouchMs ≤ removeUnreachablePeerInfoAfterMs

/-- The session without what it acknowledged of `peerId`, and of the topology. -/
def forget (peerId : PeerId) : SessionState :=
  { s with peerInfoVerMap := s.peerInfoVerMap.erase peerId, lastTopologyVersion := 0 }

/-- The other side's session id: when it is a new one, nothing is acknowledged. -/
def setDstSessionId (sessionId : UInt64) : SessionState :=
  if s.dstSessionId ≠ some sessionId then
    { s with
      peerInfoVerMap := ∅
      foreignNetVer := 0
      lastTopologyVersion := 0
      dstSessionId := some sessionId }
  else s

/-- The version of the info of `pid` that was acknowledged in the last 60 s. -/
def savedVersion (pid : PeerId) (nowMs : UInt64) : UInt32 :=
  match s.peerInfoVerMap.lookup pid with
  | some saved =>
    if nowMs.saturatingSub saved.touchedAtMs < savedRouteVersionTtlMs then saved.version else 0
  | none => 0

/-- Whether the topology `version` was acknowledged in the last 60 s. -/
def hasTopology (version nowMs : UInt64) : Bool :=
  s.lastTopologyVersion == version &&
    nowMs.saturatingSub s.lastTopologyTouchMs < savedRouteVersionTtlMs

/-- The version of an info that was acknowledged. -/
def saveVersion (nowMs : UInt64) (sent : PeerId × UInt32) : SessionState :=
  { s with
    peerInfoVerMap := s.peerInfoVerMap.insert sent.1
      { version :=
          match s.peerInfoVerMap.lookup sent.1 with
          | some saved => max saved.version sent.2
          | none => sent.2
        touchedAtMs := nowMs } }

/-- The topology version that was acknowledged, if the update had one. -/
def saveTopology (topologyVersion : Option UInt64) (nowMs : UInt64) : SessionState :=
  match topologyVersion with
  | some version =>
    { s with
      lastTopologyVersion := if s.lastTopologyVersion ≤ version then version else s.lastTopologyVersion
      lastTopologyTouchMs := nowMs }
  | none => s

/-- The session once the other side has answered in its session. -/
def acknowledge (theirSessionId : UInt64) (weAreInitiator : Bool) (nowMs : UInt64) : SessionState :=
  { s.setDstSessionId theirSessionId with weAreInitiator, lastTouchMs := nowMs }

/-- The session once the other side has accepted an update. -/
def commit (peerInfoVersions : List (PeerId × UInt32)) (topologyVersion : Option UInt64)
    (nowMs : UInt64) : SessionState :=
  { (peerInfoVersions.foldl (·.saveVersion nowMs ·) s).saveTopology topologyVersion nowMs with
    lastTouchMs := nowMs }

end SessionState

namespace RouteGroupData

variable (g : RouteGroupData) (myPeerId : PeerId)

/-- The relay's own row: a new version only when its neighbours have changed. -/
def updateMyConnRow : RouteGroupData :=
  { g with
    connRows := g.connRows.upsert myPeerId fun row =>
      if row.connected ≠ g.peers then { version := row.version + 1, connected := g.peers } else row }

/-- A new topology version, and empty caches. -/
def noteTopologyChange : RouteGroupData :=
  { g with
    topologyVersion := if g.topologyVersion + 1 = 0 then 1 else g.topologyVersion + 1
    cachedConnBitmap := none
    cachedConnPeerList := none }

/-! ## Members -/

def addPeer (peerId : PeerId) (publicKey : Bytes) (nowMs : UInt64) : RouteGroupData :=
  let g :=
    { g with
      sessions := g.sessions.upsert peerId fun s => { s with lastTouchMs := nowMs }
      authenticatedPeerKeys := g.authenticatedPeerKeys.insert peerId publicKey }
  if peerId ∈ g.peers then g
  else
    (({ g with peers := insert peerId g.peers } : RouteGroupData).updateMyConnRow
      myPeerId).noteTopologyChange

/-- The group without a trace of `peerId`. -/
def forgetPeer (peerId : PeerId) : RouteGroupData :=
  { g with
    peers := g.peers.erase peerId
    peerInfos := g.peerInfos.erase peerId
    authenticatedPeerKeys := g.authenticatedPeerKeys.erase peerId
    connRows := g.connRows.erase peerId
    sessions := (g.sessions.erase peerId).mapValues (·.forget peerId) }

def removePeer (peerId : PeerId) : RouteGroupData :=
  let wasPresent := decide (peerId ∈ g.peers)
  let hadInfo := (g.peerInfos.lookup peerId).isSome
  let g := g.forgetPeer peerId
  if wasPresent || hadInfo then (g.updateMyConnRow myPeerId).noteTopologyChange else g

/-! ## Expiry -/

/-- The members that have been silent for over 90 s. -/
def deadDirect (nowMs : UInt64) : List PeerId :=
  (g.peers.filter fun pid => !(g.sessions.lookup pid).any (·.reachable nowMs)).ascending

/-- The age of an info, by the time it was received. -/
def ageMs (info : RoutePeerInfo) (nowMs : UInt64) : UInt64 :=
  match info.lastUpdate with
  | some ts => nowMs.saturatingSub ((max ts.seconds 0).toUInt64 * 1000)
  | none => 0xFFFFFFFFFFFFFFFF

/-- Whether the info of `pid` has expired. -/
def expired (nowMs : UInt64) (pid : PeerId) (info : RoutePeerInfo) : Bool :=
  if ageMs info nowMs ≤ removeUnreachablePeerInfoAfterMs then false
  else if removeDeadPeerInfoAfterMs < ageMs info nowMs then true
  else !(g.sessions.lookup pid).any (·.reachable nowMs)

/-- The peers whose infos have expired. -/
def purge (nowMs : UInt64) : List PeerId :=
  (g.peerInfos.keys.filter fun pid => (g.peerInfos.lookup pid).any (g.expired nowMs pid)).ascending

/-- The group without the info and the row of `pid`. -/
def purgePeer (pid : PeerId) : RouteGroupData :=
  { g with
    peerInfos := g.peerInfos.erase pid
    authenticatedPeerKeys := g.authenticatedPeerKeys.erase pid
    connRows := g.connRows.erase pid
    sessions := g.sessions.mapValues (·.forget pid) }

/-- Removing the silent members. -/
def sweepMembers (nowMs : UInt64) : RouteGroupData :=
  (g.deadDirect nowMs).foldl (fun g pid => g.removePeer myPeerId pid) g

/-- Removing the expired infos. -/
def sweepInfos (nowMs : UInt64) : RouteGroupData :=
  if g.purge nowMs = [] then g
  else ((g.purge nowMs).foldl (fun g pid => g.purgePeer pid) g).noteTopologyChange

/-- Removing what has expired. -/
def sweep (nowMs : UInt64) : RouteGroupData := (g.sweepMembers myPeerId nowMs).sweepInfos nowMs

/-- Whether something has expired. -/
def sweepChanges (nowMs : UInt64) : Bool :=
  !(g.deadDirect nowMs).isEmpty || !((g.sweepMembers myPeerId nowMs).purge nowMs).isEmpty

/-! ## Acknowledgements -/

def onRouteSessionAck (peerId : PeerId) (theirSessionId : UInt64) (weAreInitiator : Bool)
    (nowMs : UInt64) : RouteGroupData :=
  { g with sessions := g.sessions.upsert peerId (·.acknowledge theirSessionId weAreInitiator nowMs) }

def commitRouteUpdate (peerId : PeerId) (peerInfoVersions : List (PeerId × UInt32))
    (topologyVersion : Option UInt64) (nowMs : UInt64) : RouteGroupData :=
  { g with sessions := g.sessions.upsert peerId (·.commit peerInfoVersions topologyVersion nowMs) }

/-- The session of a peer that has accepted an update. -/
theorem lookup_commitRouteUpdate (peerId : PeerId) (theirSessionId : UInt64) (weAreInitiator : Bool)
    (peerInfoVersions : List (PeerId × UInt32)) (topologyVersion : Option UInt64) (nowMs : UInt64)
    (pid : PeerId) :
    ((g.onRouteSessionAck peerId theirSessionId weAreInitiator nowMs).commitRouteUpdate peerId
        peerInfoVersions topologyVersion nowMs).sessions.lookup pid =
      if pid = peerId then
        some ((((g.sessions.lookup pid).getD default).acknowledge theirSessionId weAreInitiator
          nowMs).commit peerInfoVersions topologyVersion nowMs)
      else g.sessions.lookup pid := by
  rw [commitRouteUpdate, onRouteSessionAck, Finmap.lookup_upsert, Finmap.lookup_upsert]
  split_ifs with h
  · rw [Option.getD_some]
  · rfl

/-! ## The relay's own info -/

/-- `set_my_info_field` for the host name, the only field the core sets. -/
def setHostname (value : String) : RouteGroupData :=
  { g with
    myInfoVersion := g.myInfoVersion + 1
    myInfo := { g.myInfo with hostname := some value, version := g.myInfoVersion + 1 } }

def setMyNoisePublicKey (publicKey : Bytes) : RouteGroupData :=
  { g with
    myInfoVersion := g.myInfoVersion + 1
    myInfo := { g.myInfo with noiseStaticPubkey := publicKey, version := g.myInfoVersion + 1 } }

def setMyAvoidRelayData (enabled : Bool) : RouteGroupData :=
  let featureFlag := g.myInfo.featureFlag.getD {}
  if featureFlag.avoidRelayData = enabled then
    { g with myInfo := { g.myInfo with featureFlag := some featureFlag } }
  else
    { g with
      myInfoVersion := g.myInfoVersion + 1
      myInfo :=
        { g.myInfo with
          featureFlag := some { featureFlag with avoidRelayData := enabled }
          version := g.myInfoVersion + 1 } }

end RouteGroupData

end EasyTierEdge
