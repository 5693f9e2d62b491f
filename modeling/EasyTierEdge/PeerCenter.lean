import EasyTierEdge.Lib.Ascending
import EasyTierEdge.Lib.FinMap
import EasyTierEdge.Proto

/-!
# The peer center

`PeerCenter` of `wasm/src/peer_center.rs`: the latencies the peers of a network have
reported to each other, with a digest of all of them. A peer that knows the current
digest is told that nothing has changed. The hash of the standard library, which is
not specified, is a parameter.
-/

namespace EasyTierEdge

/-- `SrcDstPeerPair`: a source and a destination, ordered lexicographically. -/
abbrev SrcDstPeerPair := UInt32 ×ₗ UInt32

structure PeerCenterInfoEntry where
  info : DirectConnectedPeerInfo
  updateTimeMs : UInt64

structure PeerCenterGroupData where
  globalPeerMap : FinMap SrcDstPeerPair PeerCenterInfoEntry
  peerReportTime : FinMap UInt32 UInt64
  digest : UInt64

instance : Inhabited PeerCenterGroupData := ⟨∅, ∅, 0⟩

/-- `DefaultHasher` on a list of pairs with their infos. -/
abbrev PeerMapHash := List (SrcDstPeerPair × DirectConnectedPeerInfo) → UInt64

namespace PeerCenterGroupData

variable (data : PeerCenterGroupData)

/-- The digest of the pairs, in ascending order. -/
def calcDigest (hash : PeerMapHash) : UInt64 :=
  hash (data.globalPeerMap.keys.ascending.filterMap fun pair =>
    (data.globalPeerMap.lookup pair).map fun entry => (pair, entry.info))

/-- A report of a peer on its direct peers. -/
def report (hash : PeerMapHash) (myPeerId : UInt32) (directPeers : PeerInfoForGlobalMap)
    (nowMs : UInt64) : PeerCenterGroupData :=
  let data :=
    { data with
      peerReportTime := data.peerReportTime.insert myPeerId nowMs
      globalPeerMap := directPeers.foldl
        (fun map (peerId, info) => map.insert (toLex (myPeerId, peerId)) ⟨info, nowMs⟩)
        data.globalPeerMap }
  { data with digest := data.calcDigest hash }

/-- The group without the reports of a peer and about it. -/
def removePeer (hash : PeerMapHash) (peerId : UInt32) : PeerCenterGroupData :=
  let data :=
    { data with
      peerReportTime := data.peerReportTime.erase peerId
      globalPeerMap := data.globalPeerMap.retain fun pair _ =>
        (ofLex pair).1 ≠ peerId && (ofLex pair).2 ≠ peerId }
  { data with digest := data.calcDigest hash }

/-- The group without what was reported `ttlMs` ago or earlier. -/
def cleanOutdated (hash : PeerMapHash) (ttlMs nowMs : UInt64) : PeerCenterGroupData :=
  let data :=
    { data with
      peerReportTime := data.peerReportTime.retain fun _ value => nowMs.saturatingSub value < ttlMs
      globalPeerMap := data.globalPeerMap.retain fun _ value =>
        nowMs.saturatingSub value.updateTimeMs < ttlMs }
  { data with digest := data.calcDigest hash }

/-- Nothing is reported. -/
def isEmpty : Bool := data.globalPeerMap.size = 0 && data.peerReportTime.size = 0

/-- The reported infos, by their sources. -/
def peerMap : List (UInt32 × PeerInfoForGlobalMap) :=
  let sources := data.globalPeerMap.keys.image fun pair => (ofLex pair).1
  sources.ascending.map fun src =>
    (src, data.globalPeerMap.keys.ascending.filterMap fun pair =>
      if (ofLex pair).1 = src then
        (data.globalPeerMap.lookup pair).map fun entry => ((ofLex pair).2, entry.info)
      else none)

end PeerCenterGroupData

/-- The groups of all networks. -/
abbrev PeerCenter := FinMap String PeerCenterGroupData

namespace PeerCenter

variable (center : PeerCenter) (hash : PeerMapHash)

def reportPeers (prost : Prost) (network : String) (authenticatedPeerId : UInt32)
    (reportBytes : Bytes) (nowMs : UInt64) : Except String (Bytes × PeerCenter) :=
  match prost.decodeReportPeersRequest reportBytes with
  | .error e => .error s!"decode ReportPeersRequest failed: {e}"
  | .ok request =>
    if request.myPeerId ≠ authenticatedPeerId then
      .error "ReportPeersRequest peer id does not match the authenticated connection"
    else
      .ok (prost.encodeReportPeersResponse,
        center.upsert network (·.report hash request.myPeerId (request.peerInfos.getD []) nowMs))

def removePeer (network : String) (peerId : UInt32) : PeerCenter :=
  match center.lookup network with
  | none => center
  | some data =>
    let data := data.removePeer hash peerId
    if data.isEmpty then center.erase network else center.insert network data

def getGlobalPeerMap (prost : Prost) (network : String) (requestBytes : Bytes) :
    Except String (Bytes × PeerCenter) :=
  match prost.decodeGetGlobalPeerMapRequest requestBytes with
  | .error e => .error s!"decode GetGlobalPeerMapRequest failed: {e}"
  | .ok request =>
    let data := (center.lookup network).getD default
    let response : GetGlobalPeerMapResponse :=
      if request.digest = data.digest && request.digest ≠ 0 then {}
      else { globalPeerMap := data.peerMap, digest := some data.digest }
    .ok (prost.encodeGetGlobalPeerMapResponse response, center.insert network data)

def cleanOutdated (ttlSec nowMs : UInt64) : PeerCenter :=
  (center.mapValues (·.cleanOutdated hash (ttlSec.saturatingMul 1000) nowMs)).retain
    fun _ data => !data.isEmpty

end PeerCenter

end EasyTierEdge
