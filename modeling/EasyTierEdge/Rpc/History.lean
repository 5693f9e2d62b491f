import EasyTierEdge.Encoding
import EasyTierEdge.Rpc.Effects

/-!
# Updates and their responses

What the history of the core says about the updates it has sent: the last one under a
transaction (`lastSent`) is the one that a response to it acknowledges
(`acknowledged`). The core remembers just what that update carried, until the response
(`outstanding_sent`).
-/

namespace EasyTierEdge

/-- The updates sent in a run. -/
def sentUpdates (tr : List CoreEvent) : List SentUpdate := tr.filterMap fun e => e.pre.sent e.input

/-- The last update sent under a transaction. -/
def lastSent (tr : List CoreEvent) (key : RpcKey) : Option SentUpdate :=
  (sentUpdates tr).reverse.find? (·.key = key)

/-- The update that a response acknowledges, after the events `before`. -/
def acknowledged (crates : RpcCrates) (before : List CoreEvent) (e : CoreEvent) : Option SentUpdate :=
  match e.input with
  | .handleResponse network peerId payload nowMs _ =>
    (e.pre.acceptance crates network peerId payload nowMs).bind fun accepted =>
      lastSent before accepted.1
  | _ => none

/-- The update `u` was acknowledged in `tr`, and the events `after` followed. -/
def Acknowledged (crates : RpcCrates) (tr : List CoreEvent) (u : SentUpdate)
    (after : List CoreEvent) : Prop :=
  ∃ before e, tr = before ++ e :: after ∧ acknowledged crates before e = some u

section LastSent

variable {tr : List CoreEvent} {e : CoreEvent} {key : RpcKey} {u : SentUpdate}

theorem lastSent_snoc_of_sent (h : e.pre.sent e.input = some u) :
    lastSent (tr ++ [e]) key = if u.key = key then some u else lastSent tr key := by
  have hsnoc : sentUpdates (tr ++ [e]) = sentUpdates tr ++ [u] := by
    simp [sentUpdates, h]
  rw [lastSent, hsnoc, List.reverse_append, List.reverse_singleton, List.singleton_append,
    List.find?_cons]
  split_ifs with hkey
  · simp [hkey]
  · simp [hkey, lastSent]

/-- An event that sends nothing under the transaction. -/
theorem lastSent_snoc (h : ∀ u, e.pre.sent e.input = some u → u.key ≠ key) :
    lastSent (tr ++ [e]) key = lastSent tr key := by
  cases hsent : e.pre.sent e.input with
  | none => simp [lastSent, sentUpdates, hsent]
  | some u => rw [lastSent_snoc_of_sent hsent, if_neg (h u hsent)]

theorem key_of_lastSent (h : lastSent tr key = some u) : u.key = key := by
  simpa using List.find?_some h

/-- The last update under a transaction was sent in the run. -/
theorem mem_of_lastSent (h : lastSent tr key = some u) : ∃ e ∈ tr, e.pre.sent e.input = some u := by
  have hmem := List.mem_of_find?_eq_some h
  rw [List.mem_reverse, sentUpdates, List.mem_filterMap] at hmem
  exact hmem

end LastSent

namespace Acknowledged

variable {crates : RpcCrates} {tr after : List CoreEvent} {e : CoreEvent} {u : SentUpdate}

/-- An update that has just been acknowledged. -/
theorem last (h : acknowledged crates tr e = some u) : Acknowledged crates (tr ++ [e]) u [] :=
  ⟨tr, e, rfl, h⟩

theorem snoc (h : Acknowledged crates tr u after) (e : CoreEvent) :
    Acknowledged crates (tr ++ [e]) u (after ++ [e]) := by
  obtain ⟨before, a, rfl, hack⟩ := h
  exact ⟨before, a, by simp, hack⟩

/-- An update that was acknowledged was sent before. -/
theorem sent (h : Acknowledged crates tr u after) : ∃ e ∈ tr, e.pre.sent e.input = some u := by
  obtain ⟨before, a, rfl, hack⟩ := h
  unfold acknowledged at hack
  split at hack
  · obtain ⟨accepted, -, hlast⟩ := Option.bind_eq_some_iff.1 hack
    obtain ⟨e, he, hsent⟩ := mem_of_lastSent hlast
    exact ⟨e, List.mem_append_left _ he, hsent⟩
  · cases hack

end Acknowledged

/-! ## The updates that wait for a response -/

/-- The core remembers what the last update under a transaction carried. -/
def OutstandingSent (tr : List CoreEvent) (core : WasmRpcCore) : Prop :=
  ∀ key o, core.outstandingRoutes.lookup key = some o →
    ∃ u, lastSent tr key = some u ∧ u.RecordedBy o

section Outstanding

variable {crates : RpcCrates} {config : CoreConfig} {tr : List CoreEvent} {core : WasmRpcCore}

/-- A transaction that was already waiting, and is not used again. -/
theorem OutstandingSent.of_frame {network : String} {core' : WasmRpcCore} {e : CoreEvent}
    (h : OutstandingSent tr core) (hframe : Frame network core core')
    (hsent : ∀ u, e.pre.sent e.input = some u → u.key.network ≠ network) {key : RpcKey}
    (hkey : key.network = network) {o : OutstandingRoute}
    (ho : core'.outstandingRoutes.lookup key = some o) :
    ∃ u, lastSent (tr ++ [e]) key = some u ∧ u.RecordedBy o := by
  rw [lastSent_snoc fun u hu heq => hsent u hu (heq ▸ hkey)]
  exact h key o (hframe.outstanding key o hkey ho)

theorem OutstandingSent.step (h : OutstandingSent tr core) (op : CoreOp) :
    OutstandingSent (tr ++ [(rpcCore crates config).event core op])
      ((rpcCore crates config).step core op).1 := by
  intro key o ho
  change (core.step crates op).1.outstandingRoutes.lookup key = some o at ho
  have heff := core_cases crates core key.network op
  generalize (core.step crates op).1 = core' at heff ho
  cases heff with
  | kept hframe _ hsent => exact h.of_frame hframe hsent rfl ho
  | added _ _ hout =>
    rw [lastSent_snoc (by simp [Machine.event, WasmRpcCore.sent])]
    exact h key o (hout ▸ ho)
  | removed hframe => exact h.of_frame hframe (by simp [Machine.event, WasmRpcCore.sent]) rfl ho
  | synced hframe => exact h.of_frame hframe (by simp [Machine.event, WasmRpcCore.sent]) rfl ho
  | committed hframe => exact h.of_frame hframe (by simp [Machine.event, WasmRpcCore.sent]) rfl ho
  | swept hframe => exact h.of_frame hframe (by simp [Machine.event, WasmRpcCore.sent]) rfl ho
  | @built peerId sessionId forceFull nowMs draws ids _ _ _ hwaiting =>
    have hkept := hwaiting key o ho
    cases hu : core.sent (.buildRouteUpdate key.network peerId sessionId forceFull nowMs draws ids) with
    | none =>
      rw [lastSent_snoc (by simp [Machine.event, hu])]
      rw [hu] at hkept
      exact h key o hkept
    | some u =>
      rw [lastSent_snoc_of_sent (u := u) hu]
      simp only [hu] at hkept
      split_ifs at hkept ⊢ with heq
      · exact ⟨u, rfl, hkept⟩
      · exact h key o hkept

/-- In every run, the core remembers what the last update under a transaction carried. -/
theorem outstanding_sent (ops : List CoreOp) :
    OutstandingSent ((rpcCore crates config).history (rpcCore crates config).init ops)
      ((rpcCore crates config).run (rpcCore crates config).init ops) :=
  Machine.history_invariant (C := fun _ _ => True) (fun key o h => by
    simp [rpcCore, WasmRpcCore.new] at h) (fun _ _ op h _ => h.step op) ops fun _ _ _ _ => trivial

/-- A response that is accepted acknowledges the update it is remembered for. -/
theorem OutstandingSent.acknowledged (h : OutstandingSent tr core) (config : CoreConfig)
    (draws : GroupDraws) {network : String} {peerId : UInt32} {payload : Bytes} {nowMs : UInt64} {key : RpcKey}
    {o : OutstandingRoute} {sessionId : UInt64}
    (haccept : core.acceptance crates network peerId payload nowMs = some (key, o, sessionId))
    (hout : core.outstandingRoutes.lookup key = some o) :
    ∃ u, EasyTierEdge.acknowledged crates tr ((rpcCore crates config).event core
        (.handleResponse network peerId payload nowMs draws)) = some u ∧
      u.key = key ∧ u.RecordedBy o := by
  obtain ⟨u, hlast, hrecorded⟩ := h key o hout
  refine ⟨u, ?_, key_of_lastSent hlast, hrecorded⟩
  simp only [EasyTierEdge.acknowledged, Machine.event, haccept, Option.bind_some, hlast]

end Outstanding

/-! ## Runs to try

The network `net` of the relay `99`, whose peers are numbered from `1`. -/

namespace RouteSample

def relay : UInt32 := 99

def config : CoreConfig where
  publicKey := List.replicate 32 1
  hostname := "relay"
  serverPeerId := relay
  avoidRelayData := false
  routeIds := ∅
  publicKey_length := by decide
  serverPeerId_ne_zero := by decide

/-- What the relay draws for a new group. -/
def draws : GroupDraws := ⟨⟨7, 7, 7, 7⟩, 12⟩

/-- The report of a peer: its info, of this instance and version. -/
def report (peer instance_ version : UInt32) : SyncRouteInfoRequest where
  myPeerId := peer
  mySessionId := 7
  isInitiator := true
  peerInfos := some [{ peerId := peer, instId := some ⟨instance_, 0, 0, 0⟩, version }]
  connInfo := some (.connPeerList ⟨[⟨some ⟨peer, 1⟩, [relay]⟩]⟩)

/-- A packet between a peer and the relay. -/
def packet (peer : UInt32) (transactionId : Int64) (isRequest : Bool) (body : Bytes) : RpcPacket where
  fromPeer := peer
  toPeer := relay
  transactionId
  descriptor := some ⟨"net", "peer_rpc", "OspfRouteRpc", 1⟩
  body
  isRequest
  totalPieces := 1
  pieceIdx := 0
  traceId := 0
  compressionInfo := some noCompression

def rpcRequest (sync : SyncRouteInfoRequest) : RpcRequest :=
  ⟨Encoding.syncRouteInfoRequest sync, 3000⟩

/-- The answer of a peer that accepts an update. -/
def accepts : SyncRouteInfoResponse := { sessionId := 7 }

def rpcResponse : RpcResponse := ⟨Encoding.syncRouteInfoResponse accepts, none, 0⟩

def requestPacket (sync : SyncRouteInfoRequest) : RpcPacket :=
  packet sync.myPeerId 5 true (Encoding.rpcRequest (rpcRequest sync))

def responsePacket (peer : UInt32) (transactionId : Int64) : RpcPacket :=
  packet peer transactionId false (Encoding.rpcResponse rpcResponse)

/-- The reports of the runs below. -/
def reports : List SyncRouteInfoRequest := [report 1 1 1, report 2 1 5, report 2 2 1, report 2 1 6]

def crates : RpcCrates where
  prost := Prost.listed
    (reports.map requestPacket ++ [responsePacket 1 1, responsePacket 1 2])
    (reports.map rpcRequest) [rpcResponse] reports [accepts]
  hash _ := 0

/-- A peer is added. -/
def join (peer : UInt32) (ms : UInt64) : CoreOp := .addPeer "net" peer [] ms draws

/-- A peer reports. -/
def reporting (sync : SyncRouteInfoRequest) (ms : UInt64) : CoreOp :=
  .handleRequest "net" sync.myPeerId (Encoding.rpcPacket (requestPacket sync)) ms ms draws

/-- An update for a peer, in the transaction `id`. -/
def build (peer : UInt32) (forceFull : Bool) (id : UInt64) (ms : UInt64) : CoreOp :=
  .buildRouteUpdate "net" peer 4 forceFull ms draws (Vector.replicate 16 (.ok id))

/-- A peer accepts the update of a transaction. -/
def accept (peer : UInt32) (transactionId : Int64) (ms : UInt64) : CoreOp :=
  .handleResponse "net" peer (Encoding.rpcPacket (responsePacket peer transactionId)) ms draws

/-- The history of a run. -/
def history (ops : List CoreOp) : List CoreEvent :=
  (rpcCore crates config).history (rpcCore crates config).init ops

/-- The core after a run. -/
def coreAfter (ops : List CoreOp) : WasmRpcCore :=
  (rpcCore crates config).run (rpcCore crates config).init ops

end RouteSample

end EasyTierEdge
