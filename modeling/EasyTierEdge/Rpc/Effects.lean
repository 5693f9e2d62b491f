import EasyTierEdge.Lib.Except
import EasyTierEdge.Route.Topology
import EasyTierEdge.Rpc.Core

/-!
# What a call does to the routes of a network

The routes of a network change when a peer is added or removed, a route request of a
peer is served, its response commits an update, an update is built, or the expired
routes are swept. `core_cases` lists what a call of the core can do to the group of a
network and to the updates that wait for a response.
-/

namespace EasyTierEdge

/-- A call of the core: the core before it, the arguments and the result. -/
abbrev CoreEvent := Event WasmRpcCore CoreOp CoreOutput

/-- An update that was sent: its transaction, the group it was built from, and the infos
    and the connection info it carried. -/
structure SentUpdate where
  key : RpcKey
  group : RouteGroupData
  items : List (PeerId × RoutePeerInfo)
  connInfo : Option ConnInfo

/-- What the core remembers of an update until the response. -/
structure SentUpdate.RecordedBy (u : SentUpdate) (o : OutstandingRoute) : Prop where
  peerInfoVersions : o.peerInfoVersions = u.items.map fun (pid, info) => (pid, max info.version 1)
  topologyVersion : o.topologyVersion = u.connInfo.map fun _ => u.group.topologyVersion

namespace WasmRpcCore

variable (crates : RpcCrates) (core : WasmRpcCore)

/-- The route request that a call serves. -/
def syncRequest (network : String) (peerId : UInt32) (payload : Bytes) (nowMs : UInt64) :
    Option SyncRouteInfoRequest := do
  let packet ← (crates.prost.decodeRpcPacket payload).toOption
  (core.validateEnvelope packet network peerId true).toOption
  let .complete packet ← (core.fragments.mergePacket network peerId packet nowMs).1.toOption | none
  (validateCompression packet).toOption
  let descriptor ← packet.descriptor
  let request ← (crates.prost.decodeRpcRequest packet.body).toOption
  if isService descriptor "OspfRouteRpc" && descriptor.methodIndex = 1 then
    let sync ← (crates.prost.decodeSyncRouteInfoRequest request.request).toOption
    if sync.myPeerId = peerId then some sync else none
  else none

/-- The transaction that a response accepts, with its update and session. -/
def acceptance (network : String) (peerId : UInt32) (payload : Bytes) (nowMs : UInt64) :
    Option (RpcKey × OutstandingRoute × UInt64) :=
  match (core.examineResponse crates network peerId payload nowMs).1 with
  | .ok (.accepted key outstanding sessionId) => some (key, outstanding, sessionId)
  | _ => none

/-- The group that an update for a peer is built from, its session opened. -/
def updateGroup (network : String) (peerId : UInt32) (serverSessionId : UInt64) (draws : GroupDraws) :
    RouteGroupData :=
  (core.routes.ensureGroup network draws).openSession peerId serverSessionId

/-- Configuring a group gives the relay's own info a new version, and changes nothing
    else. -/
theorem configureGroup_eq (g : RouteGroupData) :
    ∃ info version, core.configureGroup g = { g with myInfo := info, myInfoVersion := version } ∧
      (info.version = g.myInfoVersion + 1 + 1 ∨ info.version = g.myInfoVersion + 1 + 1 + 1) := by
  unfold configureGroup
  dsimp only
  split_ifs
  · unfold RouteGroupData.setMyAvoidRelayData
    dsimp only
    split_ifs
    · exact ⟨_, _, rfl, .inl rfl⟩
    · exact ⟨_, _, rfl, .inr rfl⟩
  · exact ⟨_, _, rfl, .inl rfl⟩

/-- The relay's own info is no part of the topology. -/
theorem configureGroup_renews (g : RouteGroupData) :
    RouteGroupData.Renews 0 g (core.configureGroup g) := by
  obtain ⟨info, version, heq, -⟩ := core.configureGroup_eq g
  rw [heq]
  exact .of_eq rfl rfl rfl rfl

theorem sessions_configureGroup (g : RouteGroupData) :
    (core.configureGroup g).sessions = g.sessions := by
  obtain ⟨info, version, heq, -⟩ := core.configureGroup_eq g
  rw [heq]

/-- The update that a call sends. -/
def sent : CoreOp → Option SentUpdate
  | .buildRouteUpdate network peerId serverSessionId forceFull nowMs draws ids =>
    let g := core.updateGroup network peerId serverSessionId draws
    match g.connInfoFor core.routes.myPeerId peerId nowMs,
      (core.cleanRpcState nowMs).nextTransactionId network peerId ids with
    | .ok connInfo, .ok transactionId => some
      { key := ⟨network, peerId, transactionId, false⟩
        group := g
        items := g.typedItems core.routes.myPeerId peerId forceFull nowMs
        connInfo }
    | _, _ => none
  | _ => none

/-- The routes of the networks after serving a call. -/
theorem serve_eq {network : String} {peerId : UInt32} {descriptor : RpcDescriptor} {request : Bytes}
    {nowMs clockMs : UInt64} {draws : GroupDraws} {reply : Reply} {core' : WasmRpcCore}
    (h : core.serve crates network peerId descriptor request nowMs clockMs draws = .ok (reply, core')) :
    core'.outstandingRoutes = core.outstandingRoutes ∧
      core'.configuredGroups = core.configuredGroups ∧
      core'.routes =
        if isService descriptor "OspfRouteRpc" && descriptor.methodIndex = 1 then
          match (crates.prost.decodeSyncRouteInfoRequest request).toOption with
          | some sync =>
            if sync.myPeerId = peerId then
              core.routes.withGroup network ((core.routes.ensureGroup network draws).syncRouteInfo
                core.routes.myPeerId crates.prost peerId sync nowMs).2
            else core.routes
          | none => core.routes
        else core.routes := by
  unfold serve at h
  cases hospf : isService descriptor "OspfRouteRpc" with
  | true =>
    simp only [hospf, if_true] at h
    by_cases hmethod : descriptor.methodIndex = 1
    · simp only [hmethod, ne_eq, not_true_eq_false, if_false, Except.ok.injEq] at h
      simp only [hmethod, Bool.true_and, decide_true, if_true]
      unfold serveRoute RouteState.handleSyncRouteInfoRequest at h
      cases hdecode : crates.prost.decodeSyncRouteInfoRequest request with
      | error e =>
        simp only [hdecode, Prod.mk.injEq] at h
        rw [← h.2]
        exact ⟨rfl, rfl, rfl⟩
      | ok sync =>
        simp only [hdecode] at h
        by_cases hid : sync.myPeerId = peerId
        · simp only [hid, ne_eq, not_true_eq_false, if_false, Prod.mk.injEq] at h
          rw [← h.2]
          refine ⟨rfl, rfl, ?_⟩
          simp only [Except.toOption, hid, if_true]
        · simp only [hid, ne_eq, not_false_eq_true, if_true, Prod.mk.injEq] at h
          rw [← h.2]
          refine ⟨rfl, rfl, ?_⟩
          simp only [Except.toOption, hid, if_false]
    · simp only [hmethod, ne_eq, not_false_eq_true, if_true, Except.ok.injEq, Prod.mk.injEq] at h
      rw [← h.2]
      simp [hmethod]
  | false =>
    simp only [hospf, Bool.false_eq_true, if_false, Bool.false_and] at h ⊢
    split_ifs at h
    · obtain ⟨result, -, heq⟩ := Except.map_eq_ok.1 h
      rw [← (Prod.mk.inj heq).2]
      exact ⟨rfl, rfl, rfl⟩
    · obtain ⟨result, -, heq⟩ := Except.map_eq_ok.1 h
      rw [← (Prod.mk.inj heq).2]
      exact ⟨rfl, rfl, rfl⟩
    · rw [← (Prod.mk.inj (Except.ok.inj h)).2]
      exact ⟨rfl, rfl, rfl⟩
    · rw [← (Prod.mk.inj (Except.ok.inj h)).2]
      exact ⟨rfl, rfl, rfl⟩

/-- Serving a route request never fails. -/
theorem isService_of_serve_error {network : String} {peerId : UInt32} {descriptor : RpcDescriptor}
    {request : Bytes} {nowMs clockMs : UInt64} {draws : GroupDraws} {e : String}
    (h : core.serve crates network peerId descriptor request nowMs clockMs draws = .error e) :
    isService descriptor "OspfRouteRpc" = false := by
  unfold serve at h
  by_contra hospf
  rw [Bool.not_eq_false] at hospf
  rw [if_pos hospf] at h
  split_ifs at h

/-- The routes of the networks after a call. -/
theorem handleRequest_routes (network : String) (peerId : UInt32) (payload : Bytes)
    (nowMs clockMs : UInt64) (draws : GroupDraws) :
    (core.handleRequest crates network peerId payload nowMs clockMs draws).2.outstandingRoutes =
        core.outstandingRoutes ∧
      (core.handleRequest crates network peerId payload nowMs clockMs draws).2.configuredGroups =
        core.configuredGroups ∧
      (core.handleRequest crates network peerId payload nowMs clockMs draws).2.routes =
        match core.syncRequest crates network peerId payload nowMs with
        | some sync =>
          core.routes.withGroup network ((core.routes.ensureGroup network draws).syncRouteInfo
            core.routes.myPeerId crates.prost peerId sync nowMs).2
        | none => core.routes := by
  unfold handleRequest syncRequest
  cases crates.prost.decodeRpcPacket payload with
  | error e => exact ⟨rfl, rfl, rfl⟩
  | ok packet =>
    simp only [Except.toOption, Option.bind_eq_bind, Option.bind_some]
    cases core.validateEnvelope packet network peerId true with
    | error e => exact ⟨rfl, rfl, rfl⟩
    | ok u =>
      simp only [Option.bind_some]
      generalize core.fragments.mergePacket network peerId packet nowMs = merging
      obtain ⟨merged, fragments⟩ := merging
      cases merged with
      | error e => exact ⟨rfl, rfl, rfl⟩
      | ok merged =>
        cases merged with
        | pending => exact ⟨rfl, rfl, rfl⟩
        | complete packet =>
          simp only [Option.bind_some, handleCall]
          cases validateCompression packet with
          | error e => exact ⟨rfl, rfl, rfl⟩
          | ok u =>
            simp only [Option.bind_some, bind, Except.bind]
            cases packet.descriptor with
            | none => exact ⟨rfl, rfl, rfl⟩
            | some descriptor =>
              simp only [Option.bind]
              cases crates.prost.decodeRpcRequest packet.body with
              | error e => exact ⟨rfl, rfl, rfl⟩
              | ok request =>
                simp only [Except.mapError]
                cases hresult : ({ core with fragments } : WasmRpcCore).serve crates network peerId
                  descriptor request.request nowMs clockMs draws with
                | error e =>
                  refine ⟨rfl, rfl, ?_⟩
                  simp only [isService_of_serve_error crates _ hresult, Bool.false_and,
                    Bool.false_eq_true, if_false]
                | ok result =>
                  obtain ⟨reply, core'⟩ := result
                  obtain ⟨hout, hconf, hroutes⟩ := serve_eq crates _ hresult
                  refine ⟨hout, hconf, hroutes.trans ?_⟩
                  split_ifs with hospf
                  · cases crates.prost.decodeSyncRouteInfoRequest request.request with
                    | error e => rfl
                    | ok sync =>
                      simp only [Except.toOption]
                      split_ifs <;> rfl
                  · rfl

section Sent

variable {core : WasmRpcCore} {n : String} {peerId : UInt32} {sessionId : UInt64}
  {forceFull : Bool} {nowMs : UInt64} {draws : GroupDraws}
  {ids : Vector (Except String UInt64) 16} {u : SentUpdate}
  (h : core.sent (.buildRouteUpdate n peerId sessionId forceFull nowMs draws ids) = some u)

include h

/-- What is sent is what was built. -/
theorem sent_eq_some : u.key.network = n ∧ u.key.peerId = peerId ∧
    u.group = core.updateGroup n peerId sessionId draws := by
  unfold sent at h
  dsimp only at h
  split at h
  · obtain rfl := Option.some.inj h
    exact ⟨rfl, rfl, rfl⟩
  · cases h

theorem network_of_sent : u.key.network = n := (sent_eq_some h).1

theorem group_of_sent : u.group = core.updateGroup n peerId sessionId draws := (sent_eq_some h).2.2

end Sent

end WasmRpcCore

/-! ## The effects on a network -/

/-- Nothing of `network` but its group changes, and no update for one of its peers is
    added to those that wait for a response. -/
structure Frame (network : String) (core core' : WasmRpcCore) : Prop where
  myPeerId : core'.routes.myPeerId = core.routes.myPeerId
  configured : network ∈ core'.configuredGroups ↔ network ∈ core.configuredGroups
  outstanding : ∀ key o, key.network = network → core'.outstandingRoutes.lookup key = some o →
    core.outstandingRoutes.lookup key = some o

/-- What a call does to the routes of `network`, by the core afterwards. -/
inductive NetEffect (crates : RpcCrates) (core : WasmRpcCore) (network : String) :
    CoreOp → WasmRpcCore → Prop
  /-- The group stays, and nothing is sent. -/
  | kept {op : CoreOp} {core' : WasmRpcCore} : Frame network core core' →
      core'.routes.groups.lookup network = core.routes.groups.lookup network →
      (∀ u, core.sent op = some u → u.key.network ≠ network) →
      NetEffect crates core network op core'
  /-- A peer is added. -/
  | added {peerId : UInt32} {publicKey : Bytes} {nowMs : UInt64} {draws : GroupDraws}
      {core' : WasmRpcCore} :
      core'.routes.myPeerId = core.routes.myPeerId → network ∈ core'.configuredGroups →
      core'.outstandingRoutes = core.outstandingRoutes →
      core'.routes.groups.lookup network = some
        (let g := (core.routes.ensureGroup network draws).addPeer core.routes.myPeerId peerId publicKey
          nowMs
        if network ∈ core.configuredGroups then g else core.configureGroup g) →
      NetEffect crates core network (.addPeer network peerId publicKey nowMs draws) core'
  /-- A peer is removed. -/
  | removed {peerId : UInt32} {draws : GroupDraws} {core' : WasmRpcCore} :
      Frame network core core' →
      core'.routes.groups.lookup network =
        some ((core.routes.ensureGroup network draws).removePeer core.routes.myPeerId peerId) →
      NetEffect crates core network (.removePeer network peerId draws) core'
  /-- A route request is served. -/
  | synced {peerId : UInt32} {payload : Bytes} {nowMs clockMs : UInt64} {draws : GroupDraws}
      {request : SyncRouteInfoRequest} {core' : WasmRpcCore} : Frame network core core' →
      core.syncRequest crates network peerId payload nowMs = some request →
      core'.routes.groups.lookup network =
        some ((core.routes.ensureGroup network draws).syncRouteInfo core.routes.myPeerId crates.prost
          peerId request nowMs).2 →
      NetEffect crates core network (.handleRequest network peerId payload nowMs clockMs draws) core'
  /-- A response commits an update. -/
  | committed {peerId : UInt32} {payload : Bytes} {nowMs : UInt64} {draws : GroupDraws} {key : RpcKey}
      {outstanding : OutstandingRoute} {sessionId : UInt64} {weAreInitiator : Bool}
      {core' : WasmRpcCore} : Frame network core core' →
      core.acceptance crates network peerId payload nowMs = some (key, outstanding, sessionId) →
      key.network = network → key.peerId = peerId →
      core.outstandingRoutes.lookup key = some outstanding →
      core'.routes.groups.lookup network =
        some (((core.routes.ensureGroup network draws).onRouteSessionAck peerId sessionId
          weAreInitiator nowMs).commitRouteUpdate peerId outstanding.peerInfoVersions
            outstanding.topologyVersion nowMs) →
      NetEffect crates core network (.handleResponse network peerId payload nowMs draws) core'
  /-- An update is built. If it is sent, it waits for a response. -/
  | built {peerId : UInt32} {sessionId : UInt64} {forceFull : Bool} {nowMs : UInt64}
      {draws : GroupDraws} {ids : Vector (Except String UInt64) 16} {core' : WasmRpcCore} :
      core'.routes.myPeerId = core.routes.myPeerId →
      (network ∈ core'.configuredGroups ↔ network ∈ core.configuredGroups) →
      (∀ key o, core'.outstandingRoutes.lookup key = some o →
        match core.sent (.buildRouteUpdate network peerId sessionId forceFull nowMs draws ids) with
        | some u => if u.key = key then u.RecordedBy o else core.outstandingRoutes.lookup key = some o
        | none => core.outstandingRoutes.lookup key = some o) →
      core'.routes.groups.lookup network =
        some ((core.updateGroup network peerId sessionId draws).cachedFor core.routes.myPeerId peerId
          nowMs) →
      NetEffect crates core network
        (.buildRouteUpdate network peerId sessionId forceFull nowMs draws ids) core'
  /-- The expired routes are swept. -/
  | swept {nowMs clockMs : UInt64} {g : RouteGroupData} {core' : WasmRpcCore} :
      Frame network core core' → core.routes.groups.lookup network = some g →
      core'.routes.groups.lookup network = some (g.sweep core.routes.myPeerId nowMs) →
      NetEffect crates core network (.cleanExpired nowMs clockMs) core'

section Cases

variable {crates : RpcCrates} {core : WasmRpcCore} {network : String}

theorem acceptance_eq_some {n : String} {peerId : UInt32} {payload : Bytes} {nowMs : UInt64}
    {key : RpcKey} {outstanding : OutstandingRoute} {sessionId : UInt64}
    (h : core.acceptance crates n peerId payload nowMs = some (key, outstanding, sessionId)) :
    key.network = n ∧ key.peerId = peerId ∧ core.outstandingRoutes.lookup key = some outstanding := by
  unfold WasmRpcCore.acceptance WasmRpcCore.examineResponse at h
  cases hdecode : crates.prost.decodeRpcPacket payload with
  | error e => simp [hdecode] at h
  | ok packet =>
    simp only [hdecode] at h
    cases hvalid : core.validateEnvelope packet n peerId false with
    | error e => simp [hvalid] at h
    | ok u =>
      simp only [hvalid] at h
      cases hout : core.outstandingRoutes.lookup ⟨n, peerId, packet.transactionId, false⟩ with
      | none => simp [hout] at h
      | some o =>
        simp only [hout] at h
        split_ifs at h
        · rcases hmerge : core.fragments.mergePacket n peerId packet nowMs with
            ⟨e | _ | packet, fragments⟩
          · simp [hmerge] at h
          · simp [hmerge] at h
          · simp only [hmerge] at h
            cases hread : WasmRpcCore.readResponse crates packet with
            | error e => simp [hread, Except.map] at h
            | ok verdict =>
              cases verdict with
              | ignored => simp [hread, Except.map] at h
              | refused => simp [hread, Except.map] at h
              | accepted sid =>
                obtain ⟨rfl, rfl, rfl⟩ : _ = key ∧ o = outstanding ∧ sid = sessionId := by
                  simpa [hread, Except.map] using h
                exact ⟨rfl, rfl, hout⟩

/-- The transactions that are left were there before. -/
theorem outstanding_of_retain {p : RpcKey → OutstandingRoute → Bool} {key : RpcKey}
    {o : OutstandingRoute} (h : (core.outstandingRoutes.retain p).lookup key = some o) :
    core.outstandingRoutes.lookup key = some o := by
  rw [Finmap.lookup_retain, Option.filter_eq_some_iff] at h
  exact h.1

theorem outstanding_of_erase {key key' : RpcKey} {o : OutstandingRoute}
    (h : (core.outstandingRoutes.erase key').lookup key = some o) :
    core.outstandingRoutes.lookup key = some o := by
  rw [Finmap.lookup_erase_ite] at h
  split_ifs at h
  exact h

/-- A response changes the routes of a network only when it commits an update. -/
theorem handleResponse_cases (n : String) (peerId : UInt32) (payload : Bytes) (nowMs : UInt64)
    (draws : GroupDraws) :
    NetEffect crates core network (.handleResponse n peerId payload nowMs draws)
      (core.handleResponse crates n peerId payload nowMs draws).2 := by
  have haccept : ∀ key o sid,
      (core.examineResponse crates n peerId payload nowMs).1 = .ok (.accepted key o sid) →
      core.acceptance crates n peerId payload nowMs = some (key, o, sid) := by
    intro key o sid h
    simp [WasmRpcCore.acceptance, h]
  unfold WasmRpcCore.handleResponse
  generalize core.examineResponse crates n peerId payload nowMs = examined at haccept
  obtain ⟨settlement, fragments⟩ := examined
  rcases settlement with e | _ | key | _ | _ | key | ⟨key, o, sid⟩
  · exact .kept ⟨rfl, .rfl, fun _ _ _ h => h⟩ rfl (by simp [WasmRpcCore.sent])
  · exact .kept ⟨rfl, .rfl, fun _ _ _ h => h⟩ rfl (by simp [WasmRpcCore.sent])
  · exact .kept ⟨rfl, .rfl, fun _ _ _ h => outstanding_of_erase h⟩ rfl (by simp [WasmRpcCore.sent])
  · exact .kept ⟨rfl, .rfl, fun _ _ _ h => h⟩ rfl (by simp [WasmRpcCore.sent])
  · exact .kept ⟨rfl, .rfl, fun _ _ _ h => h⟩ rfl (by simp [WasmRpcCore.sent])
  · exact .kept ⟨rfl, .rfl, fun _ _ _ h => outstanding_of_erase h⟩ rfl (by simp [WasmRpcCore.sent])
  · have haccepted := haccept key o sid rfl
    obtain ⟨hnet, hpeer, hout⟩ := acceptance_eq_some haccepted
    by_cases hn : network = n
    · subst hn
      exact .committed ⟨rfl, .rfl, fun _ _ _ h => outstanding_of_erase h⟩ haccepted hnet hpeer hout
        ((RouteState.lookup_withGroup _ _ _ _).trans (if_pos rfl))
    · refine .kept ⟨rfl, .rfl, fun _ _ _ h => outstanding_of_erase h⟩ ?_ (by simp [WasmRpcCore.sent])
      exact (RouteState.lookup_withGroup _ _ _ _).trans (if_neg hn)

/-- The core after building an update: if it is sent, it waits for a response. -/
theorem buildRouteUpdate_snd (crates : RpcCrates) (core : WasmRpcCore) (n : String)
    (peerId : UInt32) (sessionId : UInt64) (forceFull : Bool) (nowMs : UInt64) (draws : GroupDraws) (ids : Vector (Except String UInt64) 16) :
    (core.buildRouteUpdate crates n peerId sessionId forceFull nowMs draws ids).2 =
      { core.cleanRpcState nowMs with
        routes := (core.cleanRpcState nowMs).routes.withGroup n
          ((core.updateGroup n peerId sessionId draws).cachedFor core.routes.myPeerId peerId nowMs)
        outstandingRoutes :=
          match core.sent (.buildRouteUpdate n peerId sessionId forceFull nowMs draws ids) with
          | some u => (core.cleanRpcState nowMs).outstandingRoutes.insert u.key
              { deadlineMs := nowMs.saturatingAdd routeRpcTimeoutMs
                peerInfoVersions := u.items.map fun (pid, info) => (pid, max info.version 1)
                topologyVersion := u.connInfo.map fun _ => u.group.topologyVersion }
          | none => (core.cleanRpcState nowMs).outstandingRoutes } := by
  have hgroup : ((core.cleanRpcState nowMs).routes.ensureGroup n draws).openSession peerId sessionId =
      core.updateGroup n peerId sessionId draws := rfl
  have hmine : (core.cleanRpcState nowMs).routes.myPeerId = core.routes.myPeerId := rfl
  unfold WasmRpcCore.buildRouteUpdate WasmRpcCore.sent
  simp only [RouteGroupData.buildSyncRouteInfoRequest_eq, hgroup, hmine]
  cases (core.updateGroup n peerId sessionId draws).connInfoFor core.routes.myPeerId peerId nowMs with
  | error e => rfl
  | ok connInfo =>
    have hids : ∀ routes, ({ core.cleanRpcState nowMs with routes } : WasmRpcCore).nextTransactionId n
        peerId ids = (core.cleanRpcState nowMs).nextTransactionId n peerId ids := fun _ => rfl
    simp only [Except.map, hids]
    cases (core.cleanRpcState nowMs).nextTransactionId n peerId ids with
    | error e => rfl
    | ok transactionId => rfl

/-- What building an update does. -/
theorem buildRouteUpdate_cases (n : String) (peerId : UInt32) (sessionId : UInt64)
    (forceFull : Bool) (nowMs : UInt64) (draws : GroupDraws)
    (ids : Vector (Except String UInt64) 16) :
    NetEffect crates core network (.buildRouteUpdate n peerId sessionId forceFull nowMs draws ids)
      (core.buildRouteUpdate crates n peerId sessionId forceFull nowMs draws ids).2 := by
  have hsnd := buildRouteUpdate_snd crates core n peerId sessionId forceFull
    nowMs draws ids
  generalize (core.buildRouteUpdate crates n peerId sessionId forceFull nowMs draws ids).2 = core'
    at hsnd ⊢
  have hmine : core'.routes.myPeerId = core.routes.myPeerId := by rw [hsnd]; rfl
  have hconf : core'.configuredGroups = core.configuredGroups := by rw [hsnd]; rfl
  have hgroup : core'.routes.groups.lookup network =
      if network = n then
        some ((core.updateGroup n peerId sessionId draws).cachedFor core.routes.myPeerId peerId nowMs)
      else core.routes.groups.lookup network := by
    rw [hsnd]
    exact RouteState.lookup_withGroup _ _ _ _
  have hwaiting : ∀ key o, core'.outstandingRoutes.lookup key = some o →
      match core.sent (.buildRouteUpdate n peerId sessionId forceFull nowMs draws ids) with
      | some u => if u.key = key then u.RecordedBy o else core.outstandingRoutes.lookup key = some o
      | none => core.outstandingRoutes.lookup key = some o := by
    intro key o h
    rw [hsnd] at h
    cases hu : core.sent (.buildRouteUpdate n peerId sessionId forceFull nowMs draws ids) with
    | none =>
      simp only [hu] at h
      exact outstanding_of_retain h
    | some u =>
      simp only [hu, Finmap.lookup_insert_ite] at h
      by_cases heq : key = u.key
      · rw [if_pos heq] at h
        obtain rfl := Option.some.inj h
        exact (if_pos heq.symm).mpr ⟨rfl, rfl⟩
      · rw [if_neg heq] at h
        exact (if_neg (Ne.symm heq)).mpr (outstanding_of_retain h)
  by_cases hn : network = n
  · subst hn
    refine .built hmine (by rw [hconf]) hwaiting ?_
    rw [hgroup, if_pos rfl]
  · refine .kept ⟨hmine, by rw [hconf], fun key o hkey h => ?_⟩ (by rw [hgroup, if_neg hn]) ?_
    · have hkept := hwaiting key o h
      cases hu : core.sent (.buildRouteUpdate n peerId sessionId forceFull nowMs draws ids) with
      | none =>
        rw [hu] at hkept
        exact hkept
      | some u =>
        have hne : u.key ≠ key := by
          rintro rfl
          exact hn (hkey.symm.trans (WasmRpcCore.network_of_sent hu))
        simp only [hu, hne, if_false] at hkept
        exact hkept
    · exact fun u hu heq => hn (heq.symm.trans (WasmRpcCore.network_of_sent hu))

/-- What adding a peer does. -/
theorem addPeer_cases (n : String) (peerId : UInt32) (publicKey : Bytes) (nowMs : UInt64)
    (draws : GroupDraws) :
    NetEffect crates core network (.addPeer n peerId publicKey nowMs draws)
      (core.step crates (.addPeer n peerId publicKey nowMs draws)).1 := by
  unfold WasmRpcCore.step WasmRpcCore.addPeer RouteState.addPeer
  by_cases hkey : (!publicKey.isEmpty && decide (publicKey.length ≠ 32)) = true
  · simp only [hkey, if_true]
    exact .kept ⟨rfl, .rfl, fun _ _ _ h => h⟩ rfl (by simp [WasmRpcCore.sent])
  simp only [hkey, Bool.false_eq_true, if_false]
  by_cases hn : network = n
  · subst hn
    refine .added ?_ (Finset.mem_insert_self _ _) rfl ?_
    · dsimp only
      split_ifs <;> rfl
    · dsimp only
      split_ifs with hconf
      · exact (RouteState.lookup_withGroup _ _ _ _).trans (if_pos rfl)
      · refine (RouteState.lookup_withGroup _ _ _ _).trans ((if_pos rfl).trans ?_)
        congr 2
        exact RouteState.ensureGroup_of_lookup
          ((RouteState.lookup_withGroup _ _ _ _).trans (if_pos rfl)) draws
  · refine .kept ⟨?_, ?_, fun _ _ _ h => h⟩ ?_ (by simp [WasmRpcCore.sent])
    · dsimp only
      split_ifs <;> rfl
    · exact Finset.mem_insert.trans (or_iff_right hn)
    · dsimp only
      split_ifs
      · exact (RouteState.lookup_withGroup _ _ _ _).trans (if_neg hn)
      · exact (RouteState.lookup_withGroup _ _ _ _).trans ((if_neg hn).trans
          ((RouteState.lookup_withGroup _ _ _ _).trans (if_neg hn)))

/-- What a call does to the routes of a network is one of the effects. -/
theorem core_cases (crates : RpcCrates) (core : WasmRpcCore) (network : String) (op : CoreOp) :
    NetEffect crates core network op (core.step crates op).1 := by
  cases op with
  | addPeer n peerId publicKey nowMs draws => exact addPeer_cases n peerId publicKey nowMs draws
  | removePeer n peerId draws =>
    by_cases hn : network = n
    · subst hn
      refine .removed ⟨rfl, .rfl, fun _ _ _ h => outstanding_of_retain h⟩ ?_
      exact (RouteState.lookup_withGroup _ _ _ _).trans (if_pos rfl)
    · refine .kept ⟨rfl, .rfl, fun _ _ _ h => outstanding_of_retain h⟩ ?_ (by simp [WasmRpcCore.sent])
      exact (RouteState.lookup_withGroup _ _ _ _).trans (if_neg hn)
  | handleRequest n peerId payload nowMs clockMs draws =>
    obtain ⟨hout, hconf, hroutes⟩ :=
      core.handleRequest_routes crates n peerId payload nowMs clockMs draws
    have hmine : (core.handleRequest crates n peerId payload nowMs clockMs draws).2.routes.myPeerId =
        core.routes.myPeerId := by
      rw [hroutes]
      split <;> rfl
    have hf : Frame network core
        (core.handleRequest crates n peerId payload nowMs clockMs draws).2 :=
      ⟨hmine, by rw [hconf], fun _ _ _ h => hout ▸ h⟩
    cases hsync : core.syncRequest crates n peerId payload nowMs with
    | none =>
      refine .kept hf ?_ (by simp [WasmRpcCore.sent])
      simp only [WasmRpcCore.step, hroutes, hsync]
    | some request =>
      simp only [hsync] at hroutes
      by_cases hn : network = n
      · subst hn
        refine .synced hf hsync ?_
        simp only [WasmRpcCore.step, hroutes, RouteState.lookup_withGroup, if_true]
      · refine .kept hf ?_ (by simp [WasmRpcCore.sent])
        simp only [WasmRpcCore.step, hroutes, RouteState.lookup_withGroup, hn, if_false]
  | handleResponse n peerId payload nowMs draws => exact handleResponse_cases n peerId payload nowMs draws
  | buildRouteUpdate n peerId sessionId forceFull nowMs draws ids =>
    exact buildRouteUpdate_cases n peerId sessionId forceFull nowMs draws ids
  | cleanExpired nowMs clockMs =>
    have hf : Frame network core (core.step crates (.cleanExpired nowMs clockMs)).1 :=
      ⟨rfl, .rfl, fun _ _ _ h => outstanding_of_retain h⟩
    have hlookup : (core.step crates (.cleanExpired nowMs clockMs)).1.routes.groups.lookup network =
        (core.routes.groups.lookup network).map fun g => g.sweep core.routes.myPeerId nowMs :=
      Finmap.lookup_mapValues _ _ _
    cases hg : core.routes.groups.lookup network with
    | none => exact .kept hf (by rw [hlookup, hg]; rfl) (by simp [WasmRpcCore.sent])
    | some g => exact .swept hf hg (by rw [hlookup, hg]; rfl)

end Cases

end EasyTierEdge
