import EasyTierEdge.Proto
import EasyTierEdge.Wire

/-!
# The encoding of the messages

How `prost` encodes the messages of a route synchronization, by the field numbers of
`protos/common.proto`, `protos/error.proto` and `protos/peer_rpc.proto`: the fields in
ascending order, without those that have their default value. `Prost.listed` is a
codec for runs on given messages. It encodes as `prost` does, and decodes what is the
encoding of a listed message.
-/

namespace EasyTierEdge

namespace Encoding

/-- A field with a varint. -/
def varintField (fieldNo : UInt32) (value : UInt64) : Bytes :=
  if value = 0 then [] else pushVarint (fieldNo.toUInt64 <<< 3) ++ pushVarint value

/-- A field with bytes. -/
def bytesField (fieldNo : UInt32) (bytes : Bytes) : Bytes :=
  if bytes.isEmpty then [] else pushLenDelimited fieldNo bytes

/-- A field with a string. -/
def stringField (fieldNo : UInt32) (s : String) : Bytes := bytesField fieldNo s.toUTF8.toList

/-- A field with a message or an optional value, which is there even when it is empty. -/
def messageField (fieldNo : UInt32) (bytes : Option Bytes) : Bytes :=
  match bytes with
  | some bytes => pushLenDelimited fieldNo bytes
  | none => []

def uuid (id : Uuid) : Bytes :=
  varintField 1 id.part1.toUInt64 ++ varintField 2 id.part2.toUInt64 ++
    varintField 3 id.part3.toUInt64 ++ varintField 4 id.part4.toUInt64

def timestamp (ts : Timestamp) : Bytes :=
  varintField 1 ts.seconds.toUInt64 ++ varintField 2 ts.nanos.toInt64.toUInt64

def peerFeatureFlag (flag : PeerFeatureFlag) : Bytes :=
  varintField 1 flag.isPublicServer.toUInt64 ++ varintField 2 flag.avoidRelayData.toUInt64 ++
    varintField 3 flag.kcpInput.toUInt64 ++ varintField 4 flag.noRelayKcp.toUInt64 ++
    varintField 5 flag.supportConnListSync.toUInt64 ++ varintField 6 flag.quicInput.toUInt64 ++
    varintField 7 flag.noRelayQuic.toUInt64 ++ varintField 8 flag.isCredentialPeer.toUInt64 ++
    varintField 9 flag.needP2p.toUInt64 ++ varintField 10 flag.disableP2p.toUInt64 ++
    varintField 11 flag.ipv6PublicAddrProvider.toUInt64

/-- The fields the relay does not look at come last here. -/
def routePeerInfo (info : RoutePeerInfo) : Bytes :=
  varintField 1 info.peerId.toUInt64 ++ messageField 2 (info.instId.map uuid) ++
    varintField 3 info.cost.toUInt64 ++ messageField 6 (info.hostname.map (·.toUTF8.toList)) ++
    messageField 8 (info.lastUpdate.map timestamp) ++ varintField 9 info.version.toUInt64 ++
    stringField 10 info.easytierVersion ++ messageField 11 (info.featureFlag.map peerFeatureFlag) ++
    varintField 12 info.peerRouteId ++ varintField 13 info.networkLength.toUInt64 ++
    bytesField 18 info.noiseStaticPubkey ++ info.others

def peerIdVersion (pv : PeerIdVersion) : Bytes :=
  varintField 1 pv.peerId.toUInt64 ++ varintField 2 pv.version.toUInt64

def routeConnBitmap (bitmap : RouteConnBitmap) : Bytes :=
  bitmap.peerIds.flatMap (fun pv => pushLenDelimited 1 (peerIdVersion pv)) ++
    bytesField 2 bitmap.bitmap

def peerConnInfo (row : PeerConnInfo) : Bytes :=
  messageField 1 (row.peerId.map peerIdVersion) ++
    bytesField 2 (row.connectedPeerIds.flatMap fun pid => pushVarint pid.toUInt64)

def routeConnPeerList (list : RouteConnPeerList) : Bytes :=
  list.peerConnInfos.flatMap fun row => pushLenDelimited 1 (peerConnInfo row)

def connInfo : ConnInfo → Bytes
  | .connBitmap bitmap => pushLenDelimited 5 (routeConnBitmap bitmap)
  | .connPeerList list => pushLenDelimited 7 (routeConnPeerList list)

def syncRouteInfoRequest (request : SyncRouteInfoRequest) : Bytes :=
  varintField 1 request.myPeerId.toUInt64 ++ varintField 2 request.mySessionId ++
    varintField 3 request.isInitiator.toUInt64 ++
    messageField 4 (request.peerInfos.map fun infos =>
      infos.flatMap fun info => pushLenDelimited 1 (routePeerInfo info)) ++
    (request.connInfo.map connInfo).getD []

def syncRouteInfoResponse (response : SyncRouteInfoResponse) : Bytes :=
  varintField 1 response.isInitiator.toUInt64 ++ varintField 2 response.sessionId ++
    match response.error with
    | some e => pushVarint 24 ++ pushVarint e.toInt64.toUInt64
    | none => []

def rpcDescriptor (descriptor : RpcDescriptor) : Bytes :=
  stringField 1 descriptor.domainName ++ stringField 2 descriptor.protoName ++
    stringField 3 descriptor.serviceName ++ varintField 4 descriptor.methodIndex.toUInt64

def rpcCompressionInfo (info : RpcCompressionInfo) : Bytes :=
  varintField 1 info.algo.toInt64.toUInt64 ++ varintField 2 info.acceptedAlgo.toInt64.toUInt64

def rpcPacket (packet : RpcPacket) : Bytes :=
  varintField 1 packet.fromPeer.toUInt64 ++ varintField 2 packet.toPeer.toUInt64 ++
    varintField 3 packet.transactionId.toUInt64 ++
    messageField 4 (packet.descriptor.map rpcDescriptor) ++ bytesField 5 packet.body ++
    varintField 6 packet.isRequest.toUInt64 ++ varintField 7 packet.totalPieces.toUInt64 ++
    varintField 8 packet.pieceIdx.toUInt64 ++ varintField 9 packet.traceId.toInt64.toUInt64 ++
    messageField 10 (packet.compressionInfo.map rpcCompressionInfo)

def rpcRequest (request : RpcRequest) : Bytes :=
  bytesField 2 request.request ++ varintField 3 request.timeoutMs.toInt64.toUInt64

def rpcError : RpcError → Bytes
  | .invalidMethodIndex serviceName methodIndex =>
    pushLenDelimited 2 (stringField 1 serviceName ++ varintField 2 methodIndex.toUInt64)
  | .invalidService serviceName => pushLenDelimited 3 (stringField 1 serviceName)
  | .other => pushLenDelimited 1 []

def rpcResponse (response : RpcResponse) : Bytes :=
  bytesField 1 response.response ++ messageField 2 (response.error.map rpcError) ++
    varintField 3 response.runtimeUs

def directConnectedPeerInfo (info : DirectConnectedPeerInfo) : Bytes :=
  varintField 1 info.latencyMs.toInt64.toUInt64

/-- An entry of a map, without a key or a value that is the default one. -/
def mapEntry (key : UInt32) (value : Bytes) : Bytes :=
  varintField 1 key.toUInt64 ++ bytesField 2 value

def peerInfoForGlobalMap (peers : PeerInfoForGlobalMap) : Bytes :=
  peers.flatMap fun (peerId, info) =>
    pushLenDelimited 1 (mapEntry peerId (directConnectedPeerInfo info))

def reportPeersRequest (request : ReportPeersRequest) : Bytes :=
  varintField 1 request.myPeerId.toUInt64 ++
    messageField 2 (request.peerInfos.map peerInfoForGlobalMap)

def getGlobalPeerMapRequest (request : GetGlobalPeerMapRequest) : Bytes :=
  varintField 1 request.digest

def getGlobalPeerMapResponse (response : GetGlobalPeerMapResponse) : Bytes :=
  response.globalPeerMap.flatMap (fun (peerId, peers) =>
      pushLenDelimited 1 (mapEntry peerId (peerInfoForGlobalMap peers))) ++
    match response.digest with
    | some digest => pushVarint 16 ++ pushVarint digest
    | none => []

theorem length_varintField_le (fieldNo : UInt32) (value : UInt64) :
    (varintField fieldNo value).length ≤ 20 := by
  have htag := length_pushVarint_le_ten (fieldNo.toUInt64 <<< 3)
  have hvalue := length_pushVarint_le_ten value
  unfold varintField
  split_ifs
  · exact Nat.zero_le _
  · rw [List.length_append]
    omega

/-- What a bitmap takes in a message. -/
theorem length_routeConnBitmap_le (bitmap : RouteConnBitmap) :
    (routeConnBitmap bitmap).length ≤ bitmap.peerIds.length * 60 + (bitmap.bitmap.length + 20) := by
  rw [routeConnBitmap, List.length_append, List.length_flatMap]
  refine Nat.add_le_add ?_ ?_
  · have hsum := List.sum_le_card_nsmul
      (bitmap.peerIds.map fun pv => (pushLenDelimited 1 (peerIdVersion pv)).length) 60 ?_
    · rwa [List.length_map, smul_eq_mul] at hsum
    · intro length hmem
      obtain ⟨pv, -, rfl⟩ := List.mem_map.1 hmem
      have hfield := length_pushLenDelimited_le 1 (peerIdVersion pv)
      have hid := length_varintField_le 1 pv.peerId.toUInt64
      have hversion := length_varintField_le 2 pv.version.toUInt64
      rw [peerIdVersion, List.length_append] at hfield
      exact hfield.trans (by omega)
  · unfold bytesField
    split_ifs
    · exact Nat.zero_le _
    · exact length_pushLenDelimited_le 2 bitmap.bitmap

/-- What a request with a bitmap, and without infos, takes. -/
theorem length_syncRouteInfoRequest_le {request : SyncRouteInfoRequest} {bitmap : RouteConnBitmap}
    (hinfos : request.peerInfos = none) (hconn : request.connInfo = some (.connBitmap bitmap)) :
    (syncRouteInfoRequest request).length ≤
      bitmap.peerIds.length * 60 + (bitmap.bitmap.length + 100) := by
  have hid := length_varintField_le 1 request.myPeerId.toUInt64
  have hsession := length_varintField_le 2 request.mySessionId
  have hinitiator := length_varintField_le 3 request.isInitiator.toUInt64
  have hbitmap := length_routeConnBitmap_le bitmap
  have hfield := length_pushLenDelimited_le 5 (routeConnBitmap bitmap)
  unfold syncRouteInfoRequest
  rw [hinfos, hconn]
  simp only [List.length_append, Option.map_none, Option.map_some, Option.getD_some, messageField,
    List.length_nil, connInfo]
  omega

/-- The listed message that is encoded as `bytes`. -/
def decodeListed {α : Type} (encode : α → Bytes) (messages : List α) (bytes : Bytes) :
    Except String α :=
  match messages.find? (encode · = bytes) with
  | some m => .ok m
  | none => .error "not a listed message"

/-- The first of the listed messages with this encoding is decoded. -/
theorem decodeListed_encode {α : Type} {encode : α → Bytes} {before after : List α} {m : α}
    (h : ∀ x ∈ before, encode x ≠ encode m) :
    decodeListed encode (before ++ m :: after) (encode m) = .ok m := by
  have hfind : (before ++ m :: after).find? (encode · = encode m) = some m := by
    rw [List.find?_eq_some_iff_append]
    refine ⟨by simp, before, after, rfl, fun x hx => ?_⟩
    simpa using h x hx
  rw [decodeListed, hfind]

end Encoding

open Encoding in
/-- The codec that knows the listed messages. The requests of the peer center, and the
    answers to them, have no part in it. -/
def Prost.listed (packets : List RpcPacket) (requests : List RpcRequest)
    (responses : List RpcResponse) (syncRequests : List SyncRouteInfoRequest)
    (syncResponses : List SyncRouteInfoResponse) : Prost where
  decodeRpcPacket := decodeListed rpcPacket packets
  encodeRpcPacket := rpcPacket
  decodeRpcRequest := decodeListed rpcRequest requests
  encodeRpcRequest := rpcRequest
  decodeRpcResponse := decodeListed rpcResponse responses
  encodeRpcResponse := rpcResponse
  encodeRoutePeerInfo := routePeerInfo
  decodeSyncRouteInfoRequest := decodeListed syncRouteInfoRequest syncRequests
  encodeSyncRouteInfoRequest := syncRouteInfoRequest
  decodeSyncRouteInfoResponse := decodeListed syncRouteInfoResponse syncResponses
  encodeSyncRouteInfoResponse := syncRouteInfoResponse
  decodeReportPeersRequest _ := .error "not a listed message"
  encodeReportPeersResponse := []
  decodeGetGlobalPeerMapRequest _ := .error "not a listed message"
  encodeGetGlobalPeerMapResponse _ := []

open Encoding in
/-- The codec that knows the listed requests to the peer center. -/
def Prost.listedForPeerCenter (reports : List ReportPeersRequest)
    (requests : List GetGlobalPeerMapRequest) : Prost :=
  { Prost.listed [] [] [] [] [] with
    decodeReportPeersRequest := decodeListed reportPeersRequest reports
    decodeGetGlobalPeerMapRequest := decodeListed getGlobalPeerMapRequest requests
    encodeGetGlobalPeerMapResponse := getGlobalPeerMapResponse }

end EasyTierEdge
