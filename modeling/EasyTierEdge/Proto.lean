import EasyTierEdge.Packet

/-!
# Messages

The protobuf messages of `protos/common.proto`, `protos/error.proto` and
`protos/peer_rpc.proto` that the relay reads and writes, with the fields it uses. The
code that encodes and decodes them is generated by `prost`, and is a parameter
(`Prost`): nothing is assumed of it. Of the errors that `prost` returns only the
text is kept.
-/

namespace EasyTierEdge

structure Uuid where
  part1 : UInt32
  part2 : UInt32
  part3 : UInt32
  part4 : UInt32
  deriving DecidableEq

/-! ## Routes -/

structure Timestamp where
  seconds : Int64
  nanos : Int32
  deriving DecidableEq

structure PeerFeatureFlag where
  isPublicServer : Bool := false
  avoidRelayData : Bool := false
  kcpInput : Bool := false
  noRelayKcp : Bool := false
  supportConnListSync : Bool := false
  quicInput : Bool := false
  noRelayQuic : Bool := false
  isCredentialPeer : Bool := false
  needP2p : Bool := false
  disableP2p : Bool := false
  ipv6PublicAddrProvider : Bool := false
  deriving DecidableEq

structure RoutePeerInfo where
  peerId : UInt32 := 0
  instId : Option Uuid := none
  cost : UInt32 := 0
  hostname : Option String := none
  lastUpdate : Option Timestamp := none
  version : UInt32 := 0
  easytierVersion : String := ""
  featureFlag : Option PeerFeatureFlag := none
  peerRouteId : UInt64 := 0
  networkLength : UInt32 := 0
  noiseStaticPubkey : Bytes := []
  /-- The other fields, which the relay passes on without looking at them. -/
  others : Bytes := []
  deriving DecidableEq

structure PeerIdVersion where
  peerId : UInt32
  version : UInt32
  deriving DecidableEq

structure RouteConnBitmap where
  peerIds : List PeerIdVersion
  bitmap : Bytes
  deriving DecidableEq

structure PeerConnInfo where
  peerId : Option PeerIdVersion
  connectedPeerIds : List UInt32
  deriving DecidableEq

structure RouteConnPeerList where
  peerConnInfos : List PeerConnInfo
  deriving DecidableEq

inductive ConnInfo
  | connBitmap (bitmap : RouteConnBitmap)
  | connPeerList (list : RouteConnPeerList)
  deriving DecidableEq

structure SyncRouteInfoRequest where
  myPeerId : UInt32
  mySessionId : UInt64
  isInitiator : Bool
  peerInfos : Option (List RoutePeerInfo)
  connInfo : Option ConnInfo

structure SyncRouteInfoResponse where
  isInitiator : Bool := false
  sessionId : UInt64 := 0
  error : Option Int32 := none

/-- `SyncRouteInfoError::Stopped`. -/
def syncRouteInfoErrorStopped : Int32 := 1

/-! ## The peer center -/

structure DirectConnectedPeerInfo where
  latencyMs : Int32
  deriving DecidableEq

/-- The direct peers of a peer, as `prost` reads them from a map. -/
abbrev PeerInfoForGlobalMap := List (UInt32 × DirectConnectedPeerInfo)

structure ReportPeersRequest where
  myPeerId : UInt32
  peerInfos : Option PeerInfoForGlobalMap

structure GetGlobalPeerMapRequest where
  digest : UInt64

structure GetGlobalPeerMapResponse where
  globalPeerMap : List (UInt32 × PeerInfoForGlobalMap) := []
  digest : Option UInt64 := none

/-! ## Remote procedure calls -/

structure RpcDescriptor where
  domainName : String
  protoName : String
  serviceName : String
  methodIndex : UInt32
  deriving DecidableEq

structure RpcCompressionInfo where
  algo : Int32
  acceptedAlgo : Int32
  deriving DecidableEq

/-- `CompressionAlgoPb::None`. -/
def compressionAlgoNone : Int32 := 1

structure RpcPacket where
  fromPeer : UInt32
  toPeer : UInt32
  transactionId : Int64
  descriptor : Option RpcDescriptor
  body : Bytes
  isRequest : Bool
  totalPieces : UInt32
  pieceIdx : UInt32
  traceId : Int32
  compressionInfo : Option RpcCompressionInfo
  deriving DecidableEq

structure RpcRequest where
  request : Bytes
  timeoutMs : Int32

/-- `Error`, by its kinds that the relay returns. -/
inductive RpcError
  | invalidMethodIndex (serviceName : String) (methodIndex : UInt32)
  | invalidService (serviceName : String)
  | other

structure RpcResponse where
  response : Bytes
  error : Option RpcError
  runtimeUs : UInt64

/-- What `prost` generates for the messages. -/
structure Prost where
  decodeRpcPacket : Bytes → Except String RpcPacket
  encodeRpcPacket : RpcPacket → Bytes
  decodeRpcRequest : Bytes → Except String RpcRequest
  encodeRpcRequest : RpcRequest → Bytes
  decodeRpcResponse : Bytes → Except String RpcResponse
  encodeRpcResponse : RpcResponse → Bytes
  encodeRoutePeerInfo : RoutePeerInfo → Bytes
  decodeSyncRouteInfoRequest : Bytes → Except String SyncRouteInfoRequest
  encodeSyncRouteInfoRequest : SyncRouteInfoRequest → Bytes
  decodeSyncRouteInfoResponse : Bytes → Except String SyncRouteInfoResponse
  encodeSyncRouteInfoResponse : SyncRouteInfoResponse → Bytes
  decodeReportPeersRequest : Bytes → Except String ReportPeersRequest
  /-- `ReportPeersResponse` has no fields. -/
  encodeReportPeersResponse : Bytes
  decodeGetGlobalPeerMapRequest : Bytes → Except String GetGlobalPeerMapRequest
  encodeGetGlobalPeerMapResponse : GetGlobalPeerMapResponse → Bytes

end EasyTierEdge
