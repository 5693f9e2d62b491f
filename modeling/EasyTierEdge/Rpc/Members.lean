import EasyTierEdge.Route.Sweep
import EasyTierEdge.Rpc.Effects

/-!
# Members and transactions of the core

What each method of the core does to the members of the networks and to the route updates that
wait for a response, which are all that the host has to agree with.
-/

namespace EasyTierEdge

namespace RouteGroupData

theorem peers_syncRouteInfo (g : RouteGroupData) (myPeerId : PeerId) (prost : Prost)
    (fromPeerId : PeerId) (request : SyncRouteInfoRequest) (nowMs : UInt64) :
    (g.syncRouteInfo myPeerId prost fromPeerId request nowMs).2.peers = g.peers := by
  obtain ⟨stored, acc, hstored, hrows, -, heq⟩ :=
    g.syncRouteInfo_eq myPeerId prost fromPeerId request nowMs
  have hpeers : acc.1.peers = g.peers := by
    rw [← hstored.peers, ← hrows.group]
  rw [heq]
  split_ifs
  · exact hpeers
  · exact hpeers

theorem peers_cachedFor (g : RouteGroupData) (myPeerId targetPeerId : PeerId) (nowMs : UInt64) :
    (g.cachedFor myPeerId targetPeerId nowMs).peers = g.peers := by
  obtain ⟨list, bitmap, heq⟩ := g.cachedFor_eq myPeerId targetPeerId nowMs
  rw [heq]

end RouteGroupData

namespace RouteState

theorem members_withGroup (r : RouteState) (n network : String) (g : RouteGroupData) :
    (r.withGroup n g).members network = if network = n then g.peers else r.members network := by
  rw [members, lookup_withGroup]
  split_ifs <;> rfl

/-- Working on a group without touching its members. -/
theorem members_withGroup_eq (r : RouteState) (n network : String) (draws : GroupDraws)
    {g : RouteGroupData} (hg : g.peers = (r.ensureGroup n draws).peers) :
    (r.withGroup n g).members network = r.members network := by
  rw [members_withGroup]
  split_ifs with h
  · rw [hg, h, r.members_eq n draws]
  · rfl

theorem members_addPeer {r r' : RouteState} {n : String} {peerId : PeerId} {publicKey : Bytes}
    {nowMs : UInt64} {draws : GroupDraws} (h : r.addPeer n peerId publicKey nowMs draws = .ok r')
    (network : String) : r'.members network =
      if network = n then insert peerId (r.members n) else r.members network := by
  unfold addPeer at h
  split_ifs at h
  obtain rfl := Except.ok.inj h
  rw [members_withGroup, RouteGroupData.peers_addPeer, ← r.members_eq]

theorem members_myPeerRouteId (r : RouteState) (n network : String) (draws : GroupDraws) :
    (r.myPeerRouteId n draws).2.members network = r.members network :=
  r.members_withGroup_eq n network draws rfl

end RouteState

namespace WasmRpcCore

variable (crates : RpcCrates) {core core' : WasmRpcCore}

/-! ## Members -/

theorem members_addPeer {n : String} {peerId : UInt32} {publicKey : Bytes} {nowMs : UInt64}
    {draws : GroupDraws} (h : core.addPeer n peerId publicKey nowMs draws = .ok core')
    (network : String) : core'.routes.members network =
      if network = n then insert peerId (core.routes.members n) else core.routes.members network := by
  -- Configuring a group does not touch its members.
  have hconfigure : ∀ g, (core.configureGroup g).peers = g.peers := by
    intro g
    obtain ⟨info, version, heq, -⟩ := core.configureGroup_eq g
    rw [heq]
  unfold addPeer at h
  cases hadd : core.routes.addPeer n peerId publicKey nowMs draws with
  | error e =>
    rw [hadd] at h
    cases h
  | ok routes =>
    rw [hadd] at h
    obtain rfl := Except.ok.inj h
    rw [← RouteState.members_addPeer hadd]
    dsimp only
    split_ifs with hconf
    · rfl
    · exact routes.members_withGroup_eq n network draws (hconfigure _)

theorem members_removePeer (core : WasmRpcCore) (n : String) (peerId : UInt32) (draws : GroupDraws)
    (network : String) : (core.removePeer crates n peerId draws).routes.members network =
      if network = n then (core.routes.members n).erase peerId else core.routes.members network := by
  rw [removePeer, RouteState.removePeer, RouteState.members_withGroup,
    RouteGroupData.peers_removePeer, ← core.routes.members_eq]

theorem members_handleRequest (core : WasmRpcCore) (n : String) (peerId : UInt32) (payload : Bytes)
    (nowMs clockMs : UInt64) (draws : GroupDraws) (network : String) :
    (core.handleRequest crates n peerId payload nowMs clockMs draws).2.routes.members network =
      core.routes.members network := by
  rw [(core.handleRequest_routes crates n peerId payload nowMs clockMs draws).2.2]
  cases core.syncRequest crates n peerId payload nowMs with
  | none => rfl
  | some sync =>
    exact core.routes.members_withGroup_eq n network draws (RouteGroupData.peers_syncRouteInfo ..)

theorem members_buildRouteUpdate (core : WasmRpcCore) (n : String) (peerId : UInt32)
    (serverSessionId : UInt64) (forceFull : Bool) (nowMs : UInt64) (draws : GroupDraws)
    (ids : Vector (Except String UInt64) 16) (network : String) :
    (core.buildRouteUpdate crates n peerId serverSessionId forceFull nowMs draws
      ids).2.routes.members network = core.routes.members network := by
  rw [buildRouteUpdate_snd]
  exact core.routes.members_withGroup_eq n network draws (RouteGroupData.peers_cachedFor ..)

theorem members_handleResponse (core : WasmRpcCore) (n : String) (peerId : UInt32) (payload : Bytes)
    (nowMs : UInt64) (draws : GroupDraws) (network : String) :
    (core.handleResponse crates n peerId payload nowMs draws).2.routes.members network =
      core.routes.members network := by
  unfold handleResponse
  obtain ⟨settlement, fragments⟩ := core.examineResponse crates n peerId payload nowMs
  rcases settlement with e | _ | key | _ | _ | key | ⟨key, o, sid⟩
  all_goals first
    | rfl
    | exact core.routes.members_withGroup_eq n network draws rfl

/-- A sweep removes the silent members. -/
theorem mem_members_cleanExpired {core : WasmRpcCore} {nowMs clockMs : UInt64} {network : String}
    {pid : UInt32} :
    pid ∈ (core.cleanExpired crates nowMs clockMs).2.routes.members network ↔
      pid ∈ core.routes.members network ∧
        ∀ g, core.routes.groups.lookup network = some g → pid ∉ g.deadDirect nowMs := by
  have hlookup : (core.cleanExpired crates nowMs clockMs).2.routes.groups.lookup network =
      (core.routes.groups.lookup network).map fun g => g.sweep core.routes.myPeerId nowMs :=
    Finmap.lookup_mapValues _ _ _
  rw [RouteState.members, RouteState.members, hlookup]
  cases core.routes.groups.lookup network with
  | none => simp
  | some g => simp [RouteGroupData.peers_sweep]

/-- A member that a sweep removes is reported. -/
theorem mem_deadDirectPeers {core : WasmRpcCore} {nowMs clockMs : UInt64} {network : String}
    {pid : UInt32} (h : pid ∈ core.routes.members network)
    (hnot : pid ∉ (core.cleanExpired crates nowMs clockMs).2.routes.members network) :
    s!"{network}\x1f{pid}" ∈ (core.cleanExpired crates nowMs clockMs).1.deadDirectPeers := by
  rw [mem_members_cleanExpired, not_and] at hnot
  have hdead := hnot h
  push Not at hdead
  obtain ⟨g, hg, hpid⟩ := hdead
  exact RouteState.mem_deadDirectPeers.2 ⟨network, g, pid, hg, hpid, rfl⟩

/-! ## Transactions -/

/-- The updates that wait for a response of a peer. -/
def waiting (core : WasmRpcCore) (n : String) (peerId : UInt32) (key : RpcKey)
    (o : OutstandingRoute) : Prop :=
  key.network = n ∧ key.peerId = peerId ∧ core.outstandingRoutes.lookup key = some o

/-- Building an update drops the transactions whose time is over, and starts one when it
    succeeds. -/
theorem outstanding_buildRouteUpdate (core : WasmRpcCore) (n : String) (peerId : UInt32)
    (serverSessionId : UInt64) (forceFull : Bool) (nowMs : UInt64) (draws : GroupDraws)
    (ids : Vector (Except String UInt64) 16) :
    ((∃ e, (core.buildRouteUpdate crates n peerId serverSessionId forceFull nowMs draws ids).1 =
        .error e) ∧
      ∀ key, (core.buildRouteUpdate crates n peerId serverSessionId forceFull nowMs draws
        ids).2.outstandingRoutes.lookup key =
          (core.outstandingRoutes.lookup key).filter fun o => nowMs ≤ o.deadlineMs) ∨
    ∃ bytes transactionId o,
      (core.buildRouteUpdate crates n peerId serverSessionId forceFull nowMs draws ids).1 =
        .ok bytes ∧ o.deadlineMs = nowMs.saturatingAdd routeRpcTimeoutMs ∧
      ∀ key, (core.buildRouteUpdate crates n peerId serverSessionId forceFull nowMs draws
        ids).2.outstandingRoutes.lookup key =
          if key = ⟨n, peerId, transactionId, false⟩ then some o
          else (core.outstandingRoutes.lookup key).filter fun o => nowMs ≤ o.deadlineMs := by
  have hclean : ∀ key, (core.cleanRpcState nowMs).outstandingRoutes.lookup key =
      (core.outstandingRoutes.lookup key).filter fun o => nowMs ≤ o.deadlineMs := fun key =>
    Finmap.lookup_retain _ _ _
  unfold buildRouteUpdate
  dsimp only
  generalize RouteGroupData.buildSyncRouteInfoRequest _ _ _ _ _ _ _ _ = built
  obtain ⟨update, g⟩ := built
  cases update with
  | error e => exact .inl ⟨⟨e, rfl⟩, hclean⟩
  | ok update =>
    dsimp only
    generalize nextTransactionId _ _ _ _ = drawn
    cases drawn with
    | error e => exact .inl ⟨⟨e, rfl⟩, hclean⟩
    | ok transactionId =>
      refine .inr ⟨_, transactionId, ⟨nowMs.saturatingAdd routeRpcTimeoutMs,
        update.peerInfoVersions, update.topologyVersion⟩, rfl, rfl, fun key => ?_⟩
      rw [Finmap.lookup_insert_ite, hclean]

/-- What a response does to the transactions: one that completes an update was waited for, and
    no other is touched. -/
theorem outstanding_handleResponse (core : WasmRpcCore) (n : String) (peerId : UInt32)
    (payload : Bytes) (nowMs : UInt64) (draws : GroupDraws) :
    ((core.handleResponse crates n peerId payload nowMs draws).1 ≠ .ok true ∧
      ∀ key o, (core.handleResponse crates n peerId payload nowMs draws).2.outstandingRoutes.lookup
        key = some o → core.outstandingRoutes.lookup key = some o) ∨
    ∃ done o, (core.handleResponse crates n peerId payload nowMs draws).1 = .ok true ∧
      core.waiting n peerId done o ∧ nowMs ≤ o.deadlineMs ∧
      ∀ key, (core.handleResponse crates n peerId payload nowMs draws).2.outstandingRoutes.lookup
        key = if key = done then none else core.outstandingRoutes.lookup key := by
  -- A response that completes an update finds it in time.
  have hfound : ∀ key, ((core.examineResponse crates n peerId payload nowMs).1 = .ok (.refused key) ∨
      ∃ o sid, (core.examineResponse crates n peerId payload nowMs).1 =
        .ok (.accepted key o sid)) → ∃ o, core.waiting n peerId key o ∧ nowMs ≤ o.deadlineMs := by
    intro key hkey
    unfold examineResponse at hkey
    cases hdecode : crates.prost.decodeRpcPacket payload with
    | error e => simp [hdecode] at hkey
    | ok packet =>
      simp only [hdecode] at hkey
      cases hvalid : core.validateEnvelope packet n peerId false with
      | error e => simp [hvalid] at hkey
      | ok u =>
        simp only [hvalid] at hkey
        cases hout : core.outstandingRoutes.lookup ⟨n, peerId, packet.transactionId, false⟩ with
        | none => simp [hout] at hkey
        | some o =>
          simp only [hout] at hkey
          by_cases hlate : o.deadlineMs < nowMs
          · simp [hlate] at hkey
          · simp only [hlate, if_false] at hkey
            obtain rfl : key = ⟨n, peerId, packet.transactionId, false⟩ := by
              generalize core.fragments.mergePacket n peerId packet nowMs = merged at hkey
              obtain ⟨merged, fragments⟩ := merged
              rcases merged with e | _ | packet
              · simp at hkey
              · simp at hkey
              · cases hread : readResponse crates packet with
                | error e => simp [hread, Except.map] at hkey
                | ok verdict => cases verdict <;> simp_all [Except.map]
            exact ⟨o, ⟨rfl, rfl, hout⟩, UInt64.not_lt.1 hlate⟩
  unfold handleResponse
  generalize core.examineResponse crates n peerId payload nowMs = examined at hfound
  obtain ⟨settlement, fragments⟩ := examined
  rcases settlement with e | _ | key | _ | _ | key | ⟨key, o, sid⟩
  · exact .inl ⟨nofun, fun _ _ h => h⟩
  · exact .inl ⟨by simp, fun _ _ h => h⟩
  · exact .inl ⟨by simp, fun _ _ h => outstanding_of_erase h⟩
  · exact .inl ⟨by simp, fun _ _ h => h⟩
  · exact .inl ⟨by simp, fun _ _ h => h⟩
  · obtain ⟨o, hwaiting, htime⟩ := hfound key (.inl rfl)
    exact .inr ⟨key, o, rfl, hwaiting, htime, fun key' => Finmap.lookup_erase_ite _ _ _⟩
  · obtain ⟨o, hwaiting, htime⟩ := hfound key (.inr ⟨o, sid, rfl⟩)
    exact .inr ⟨key, o, rfl, hwaiting, htime, fun key' => Finmap.lookup_erase_ite _ _ _⟩

end WasmRpcCore

end EasyTierEdge
