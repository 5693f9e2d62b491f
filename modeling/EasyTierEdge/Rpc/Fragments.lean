import EasyTierEdge.Lib.FinMap
import EasyTierEdge.Proto

/-!
# Fragmented calls

The reassembly of fragmented packets in `wasm/src/rpc.rs`: the pieces of a transaction
are kept until all of them are there, within limits on the number of transactions of a
peer and on the pieces and bytes of all of them.
-/

namespace EasyTierEdge

def maxRpcPieces : UInt32 := 32768
def maxPendingTransactionsPerPeer : ℕ := 64
def maxPendingBytes : ℕ := 32 * 1024 * 1024
def maxPendingPieces : ℕ := 32768
def rpcFragmentTtlMs : UInt64 := 10000

structure RpcKey where
  network : String
  peerId : UInt32
  transactionId : Int64
  isRequest : Bool
  deriving DecidableEq

structure PendingRpc where
  totalPieces : UInt32
  pieces : List (Option Bytes)
  first : Option RpcPacket
  receivedPieces : UInt32
  bodyBytes : ℕ
  updatedAtMs : UInt64

/-- The fields `pending`, `pending_bytes` and `pending_pieces` of the core. -/
structure Fragments where
  pending : FinMap RpcKey PendingRpc
  pendingBytes : ℕ
  pendingPieces : ℕ

inductive MergedPacket
  | pending
  | complete (packet : RpcPacket)

/-- A transaction with one more piece. -/
def PendingRpc.put (pending : PendingRpc) (packet : RpcPacket) (nowMs : UInt64) : PendingRpc :=
  let index := packet.pieceIdx.toNat
  let previous := pending.pieces.getD index none
  { pending with
    receivedPieces := if previous.isNone then pending.receivedPieces + 1 else pending.receivedPieces
    bodyBytes := pending.bodyBytes - (previous.getD []).length + packet.body.length
    pieces := pending.pieces.set index (some packet.body)
    updatedAtMs := nowMs
    first := if index = 0 then some packet else pending.first }

/-- The packet of a transaction with all its pieces. -/
def PendingRpc.assemble (completed : PendingRpc) : Except String RpcPacket :=
  match completed.first with
  | none => .error "fragmented RPC first piece was not received"
  | some first =>
    if completed.pieces.any Option.isNone then .error "fragmented RPC contains a missing piece"
    else
      .ok
        { first with
          body := completed.pieces.flatMap fun piece => piece.getD []
          totalPieces := 1
          pieceIdx := 0 }

namespace Fragments

variable (f : Fragments)

def removePending (key : RpcKey) : Fragments :=
  match f.pending.lookup key with
  | none => f
  | some pending =>
    { pending := f.pending.erase key
      pendingBytes := f.pendingBytes - pending.bodyBytes
      pendingPieces := f.pendingPieces - pending.totalPieces.toNat }

/-- Removing the transactions `keys` accepts. What is left does not depend on their
    order: the counters only go down to `0`. -/
def removeAll (keys : RpcKey → PendingRpc → Bool) : Fragments where
  pending := f.pending.retain fun key pending => !keys key pending
  pendingBytes := f.pendingBytes -
    ((f.pending.retain keys).entries.map fun e => e.2.bodyBytes).sum
  pendingPieces := f.pendingPieces -
    ((f.pending.retain keys).entries.map fun e => e.2.totalPieces.toNat).sum

/-- Removing the transactions without a new piece for 10 s. -/
def cleanPending (nowMs : UInt64) : Fragments :=
  f.removeAll fun _ pending => rpcFragmentTtlMs ≤ nowMs.saturatingSub pending.updatedAtMs

/-- A transaction without pieces, if the limits allow one more. -/
def openPending (key : RpcKey) (totalPieces : UInt32) (nowMs : UInt64) : Except String Fragments :=
  if (f.pending.lookup key).isSome then .ok f
  else if maxPendingTransactionsPerPeer ≤
      f.pending.count fun key' _ => key'.network = key.network && key'.peerId = key.peerId then
    .error "too many pending fragmented RPC transactions"
  else if maxPendingPieces < f.pendingPieces + totalPieces.toNat then
    .error "pending fragmented RPC piece limit exceeded"
  else
    .ok
      { f with
        pending := f.pending.insert key
          { totalPieces, pieces := List.replicate totalPieces.toNat none, first := none,
            receivedPieces := 0, bodyBytes := 0, updatedAtMs := nowMs }
        pendingPieces := f.pendingPieces + totalPieces.toNat }

/-- A piece of the transaction under `key`, which is open. An index that is out of range
    would be a panic. -/
def putPiece (key : RpcKey) (packet : RpcPacket) (nowMs : UInt64) :
    Except String MergedPacket × Fragments :=
  match f.pending.lookup key with
  | none => (.error "pending RPC state disappeared during merge", f)
  | some pending =>
    match pending.pieces[packet.pieceIdx.toNat]? with
    | none => (.error "index out of bounds", f)
    | some previous =>
      let nextTotalBytes := f.pendingBytes - (previous.getD []).length + packet.body.length
      if maxPendingBytes < nextTotalBytes then
        (.error "pending fragmented RPC byte limit exceeded", f.removePending key)
      else
        let pending := pending.put packet nowMs
        let f := { f with pending := f.pending.insert key pending, pendingBytes := nextTotalBytes }
        if pending.receivedPieces ≠ packet.totalPieces then (.ok .pending, f)
        else
          match f.pending.lookup key with
          | none => (.error "completed RPC state disappeared during merge", f)
          | some completed => (completed.assemble.map .complete, f.removePending key)

/-- A packet that may be a piece of one. -/
def mergePacket (network : String) (peerId : UInt32) (packet : RpcPacket) (nowMs : UInt64) :
    Except String MergedPacket × Fragments :=
  let totalPieces := packet.totalPieces
  if totalPieces = 0 ∧ packet.pieceIdx = 0 then (.ok (.complete packet), f)
  else if totalPieces = 0 ∨ maxRpcPieces < totalPieces ∨ totalPieces ≤ packet.pieceIdx then
    (.error "invalid fragmented RPC envelope", f)
  else if totalPieces = 1 then (.ok (.complete packet), f)
  else if packet.pieceIdx = 0 ∧ packet.descriptor.isNone then
    (.error "fragmented RPC first piece is missing its descriptor", f)
  else
    let f := f.cleanPending nowMs
    let key := RpcKey.mk network peerId packet.transactionId packet.isRequest
    if (f.pending.lookup key).any (·.totalPieces ≠ totalPieces) then
      (.error "fragmented RPC changed its declared piece count", f.removePending key)
    else
      match f.openPending key totalPieces nowMs with
      | .error e => (.error e, f)
      | .ok f => f.putPiece key packet nowMs

end Fragments

end EasyTierEdge
