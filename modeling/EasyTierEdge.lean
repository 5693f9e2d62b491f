import EasyTierEdge.Lib.Machine
import EasyTierEdge.Lib.FinMap
import EasyTierEdge.Lib.Except
import EasyTierEdge.Lib.Ascending
import EasyTierEdge.Packet
import EasyTierEdge.Host.Runs
import EasyTierEdge.Host.Reconnects
import EasyTierEdge.Host.Cascades
import EasyTierEdge.Host.Rebuilds
import EasyTierEdge.Host.Admission
import EasyTierEdge.Host.Ownership
import EasyTierEdge.Host.Sending
import EasyTierEdge.Host.Timers
import EasyTierEdge.Wire.Reader
import EasyTierEdge.Encoding
import EasyTierEdge.PeerCenter.Digest
import EasyTierEdge.PeerCenter.Latest
import EasyTierEdge.Route.Sync
import EasyTierEdge.Rpc.Members
import EasyTierEdge.Rpc.Networks
import EasyTierEdge.Rpc.Rejection
import EasyTierEdge.Rpc.Accounting
import EasyTierEdge.Rpc.Reassembly
import EasyTierEdge.Rpc.ConnCache
import EasyTierEdge.Rpc.WithheldInfos
import EasyTierEdge.Rpc.WithheldTopology
import EasyTierEdge.Route.Topology
import EasyTierEdge.Route.Sweep
import EasyTierEdge.Route.Owner
import EasyTierEdge.Route.Ghosts
import EasyTierEdge.Route.Recovery
import EasyTierEdge.Route.Restart
import EasyTierEdge.Route.Encodings
import EasyTierEdge.Route.Snapshot
import EasyTierEdge.Secure.Attachments
import EasyTierEdge.Secure.Nonces
import EasyTierEdge.Secure.Replay
import EasyTierEdge.Secure.Slots
import EasyTierEdge.Secure.ExactWindow
import EasyTierEdge.Secure.Receiving
import EasyTierEdge.Secure.Honest
import EasyTierEdge.Secure.Framing
import EasyTierEdge.Secure.Agreement
import EasyTierEdge.Secure.Unfinished
import EasyTierEdge.Secure.Shared
import EasyTierEdge.Rpc.RouteIds
