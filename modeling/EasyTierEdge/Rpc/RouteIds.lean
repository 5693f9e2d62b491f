import EasyTierEdge.Rpc.Members

/-!
# Route ids

The relay goes by a route id in every network: the one that was persisted before a restart, or one
that is drawn with the group of the network. No method of the core changes the id of a network that
has one (`RouteState.KeepsRouteIds`); clients that have seen it would take the relay for another
one.
-/

namespace EasyTierEdge

namespace RouteState

/-- The route id of a network: the one its group has, or will have. -/
def routeId (r : RouteState) (network : String) : Option UInt64 :=
  match r.groups.lookup network with
  | some g => some g.myInfo.peerRouteId
  | none => r.routeIdOverrides.lookup network

/-- The networks that have a route id keep it. -/
def KeepsRouteIds (r r' : RouteState) : Prop :=
  ∀ ⦃network id⦄, r.routeId network = some id → r'.routeId network = some id

theorem KeepsRouteIds.refl (r : RouteState) : r.KeepsRouteIds r := fun _ _ h => h

theorem KeepsRouteIds.trans {r r' r'' : RouteState} (h : r.KeepsRouteIds r')
    (h' : r'.KeepsRouteIds r'') : r.KeepsRouteIds r'' := fun _ _ hid => h' (h hid)

variable (r : RouteState)

theorem routeId_withGroup (n network : String) (g : RouteGroupData) :
    (r.withGroup n g).routeId network =
      if network = n then some g.myInfo.peerRouteId else r.routeId network := by
  rw [routeId, lookup_withGroup]
  split_ifs with hn
  · rfl
  · rw [routeId]
    have herase : (r.withGroup n g).routeIdOverrides.lookup network =
        r.routeIdOverrides.lookup network := (Finmap.lookup_erase_ite _ _ _).trans (if_neg hn)
    rw [herase]

/-- A group comes with the id of its network. -/
theorem peerRouteId_ensureGroup {network : String} {id : UInt64} (h : r.routeId network = some id)
    (draws : GroupDraws) : (r.ensureGroup network draws).myInfo.peerRouteId = id := by
  rw [routeId] at h
  rw [ensureGroup]
  cases hg : r.groups.lookup network with
  | some g =>
    rw [hg] at h
    exact Option.some.inj h
  | none =>
    rw [hg] at h
    change (r.routeIdOverrides.lookup network).getD draws.peerRouteId = id
    rw [show r.routeIdOverrides.lookup network = some id from h, Option.getD_some]

/-- Working on a group without touching its id. -/
theorem keepsRouteIds_withGroup (n : String) (draws : GroupDraws) {g : RouteGroupData}
    (hg : g.myInfo.peerRouteId = (r.ensureGroup n draws).myInfo.peerRouteId) :
    r.KeepsRouteIds (r.withGroup n g) := by
  intro network id h
  rw [routeId_withGroup]
  split_ifs with hn
  · rw [hg, r.peerRouteId_ensureGroup (hn ▸ h)]
  · exact h

/-- A network whose id was read has one. -/
theorem routeId_myPeerRouteId (network : String) (draws : GroupDraws) :
    (r.myPeerRouteId network draws).2.routeId network =
      some (r.myPeerRouteId network draws).1 :=
  (r.routeId_withGroup network network _).trans (if_pos rfl)

theorem keepsRouteIds_myPeerRouteId (network : String) (draws : GroupDraws) :
    r.KeepsRouteIds (r.myPeerRouteId network draws).2 :=
  r.keepsRouteIds_withGroup network draws rfl

theorem keepsRouteIds_addPeer {r' : RouteState} {n : String} {peerId : PeerId} {publicKey : Bytes}
    {nowMs : UInt64} {draws : GroupDraws} (h : r.addPeer n peerId publicKey nowMs draws = .ok r') :
    r.KeepsRouteIds r' := by
  unfold addPeer at h
  split_ifs at h
  obtain rfl := Except.ok.inj h
  refine r.keepsRouteIds_withGroup n draws ?_
  unfold RouteGroupData.addPeer
  dsimp only
  split_ifs <;> rfl

theorem keepsRouteIds_sweepExpiredRouteInfo (nowMs : UInt64) :
    r.KeepsRouteIds (r.sweepExpiredRouteInfo nowMs) := by
  intro network id h
  have hlookup : (r.sweepExpiredRouteInfo nowMs).groups.lookup network =
      (r.groups.lookup network).map fun g => g.sweep r.myPeerId nowMs :=
    Finmap.lookup_mapValues _ _ _
  rw [routeId] at h
  rw [routeId, hlookup]
  cases hg : r.groups.lookup network with
  | none =>
    rw [hg] at h
    exact h
  | some g =>
    rw [hg] at h
    rw [← h]
    exact congrArg (fun info => some info.peerRouteId) (g.myInfo_sweep nowMs).1

end RouteState

theorem RouteGroupData.myInfo_syncRouteInfo (g : RouteGroupData) (myPeerId : PeerId) (prost : Prost)
    (fromPeerId : PeerId) (request : SyncRouteInfoRequest) (nowMs : UInt64) :
    (g.syncRouteInfo myPeerId prost fromPeerId request nowMs).2.myInfo = g.myInfo := by
  obtain ⟨stored, acc, hstored, hrows, -, heq⟩ :=
    g.syncRouteInfo_eq myPeerId prost fromPeerId request nowMs
  have hmine : acc.1.myInfo = g.myInfo := by
    rw [← hstored.mine.1, ← hrows.group]
  rw [heq]
  split_ifs
  · exact hmine
  · exact hmine

namespace WasmRpcCore

variable (crates : RpcCrates) (core : WasmRpcCore)

theorem keepsRouteIds_addPeer {core' : WasmRpcCore} {n : String} {peerId : UInt32}
    {publicKey : Bytes} {nowMs : UInt64} {draws : GroupDraws}
    (h : core.addPeer n peerId publicKey nowMs draws = .ok core') :
    core.routes.KeepsRouteIds core'.routes := by
  -- Configuring a group does not touch its id.
  have hconfigure : ∀ g, (core.configureGroup g).myInfo.peerRouteId = g.myInfo.peerRouteId := by
    intro g
    unfold configureGroup RouteGroupData.setMyAvoidRelayData
    dsimp only
    split_ifs <;> rfl
  unfold addPeer at h
  cases hadd : core.routes.addPeer n peerId publicKey nowMs draws with
  | error e =>
    rw [hadd] at h
    cases h
  | ok routes =>
    rw [hadd] at h
    obtain rfl := Except.ok.inj h
    have hroutes := core.routes.keepsRouteIds_addPeer hadd
    dsimp only
    split_ifs
    · exact hroutes
    · exact hroutes.trans (routes.keepsRouteIds_withGroup n draws (hconfigure _))

/-- A network that a peer was added to has a route id. -/
theorem routeId_addPeer {core' : WasmRpcCore} {n : String} {peerId : UInt32} {publicKey : Bytes}
    {nowMs : UInt64} {draws : GroupDraws}
    (h : core.addPeer n peerId publicKey nowMs draws = .ok core') :
    ∃ id, core'.routes.routeId n = some id := by
  have hmember : peerId ∈ core'.routes.members n := by
    rw [members_addPeer h, if_pos rfl]
    exact Finset.mem_insert_self _ _
  rw [RouteState.members] at hmember
  rw [RouteState.routeId]
  cases hg : core'.routes.groups.lookup n with
  | some g => exact ⟨_, rfl⟩
  | none =>
    rw [hg] at hmember
    exact absurd hmember (Finset.notMem_empty _)

theorem keepsRouteIds_removePeer (n : String) (peerId : UInt32) (draws : GroupDraws) :
    core.routes.KeepsRouteIds (core.removePeer crates n peerId draws).routes := by
  refine core.routes.keepsRouteIds_withGroup n draws ?_
  unfold RouteGroupData.removePeer
  dsimp only
  split_ifs <;> rfl

theorem keepsRouteIds_handleRequest (n : String) (peerId : UInt32) (payload : Bytes)
    (nowMs clockMs : UInt64) (draws : GroupDraws) :
    core.routes.KeepsRouteIds
      (core.handleRequest crates n peerId payload nowMs clockMs draws).2.routes := by
  rw [(core.handleRequest_routes crates n peerId payload nowMs clockMs draws).2.2]
  cases core.syncRequest crates n peerId payload nowMs with
  | none => exact .refl _
  | some sync =>
    refine core.routes.keepsRouteIds_withGroup n draws ?_
    rw [RouteGroupData.myInfo_syncRouteInfo]

theorem keepsRouteIds_handleResponse (n : String) (peerId : UInt32) (payload : Bytes)
    (nowMs : UInt64) (draws : GroupDraws) :
    core.routes.KeepsRouteIds (core.handleResponse crates n peerId payload nowMs draws).2.routes := by
  unfold handleResponse
  obtain ⟨settlement, fragments⟩ := core.examineResponse crates n peerId payload nowMs
  rcases settlement with e | _ | key | _ | _ | key | ⟨key, o, sid⟩
  all_goals first
    | exact RouteState.KeepsRouteIds.refl _
    | exact core.routes.keepsRouteIds_withGroup n draws rfl

theorem keepsRouteIds_buildRouteUpdate (n : String) (peerId : UInt32) (serverSessionId : UInt64)
    (forceFull : Bool) (nowMs : UInt64) (draws : GroupDraws)
    (ids : Vector (Except String UInt64) 16) :
    core.routes.KeepsRouteIds (core.buildRouteUpdate crates n peerId serverSessionId forceFull nowMs
      draws ids).2.routes := by
  rw [buildRouteUpdate_snd]
  refine core.routes.keepsRouteIds_withGroup n draws ?_
  obtain ⟨list, bitmap, heq⟩ := (core.updateGroup n peerId serverSessionId draws).cachedFor_eq
    core.routes.myPeerId peerId nowMs
  rw [heq]
  rfl

theorem keepsRouteIds_cleanExpired (nowMs clockMs : UInt64) :
    core.routes.KeepsRouteIds (core.cleanExpired crates nowMs clockMs).2.routes :=
  core.routes.keepsRouteIds_sweepExpiredRouteInfo nowMs

end WasmRpcCore

end EasyTierEdge
