import EasyTierEdge.Rpc.History

/-!
# Updates without a connection info

A peer that has acknowledged the topology version of its group gets no connection info.
What it has acknowledged is the version of an update that it has accepted
(`TopologyAcked`), and as versions do not come back, that update was built from the
present topology (`withheld_topology_acknowledged`).

For this the versions have to tell topologies apart. Only members may send requests,
the relay itself is not removed while it has a row but is no member, and there are fewer
than `2 ^ 64 - 1` new versions: the version `0` is skipped, and the next one is the first
one again. A relay that is removed loses its row without a new version
(`relay_removed_unnoticed`).
-/

namespace EasyTierEdge

/-! ## The acknowledged versions -/

namespace SessionState

variable {s s' : SessionState}

/-- A session that has an acknowledged topology version still has it, for the same
    session id, unless it has lost it. -/
def Keeps (s s' : SessionState) : Prop :=
  s'.lastTopologyVersion ≠ 0 →
    s.lastTopologyVersion = s'.lastTopologyVersion ∧ s.dstSessionId = s'.dstSessionId

theorem Keeps.trans {s'' : SessionState} (h : s.Keeps s') (h' : s'.Keeps s'') : s.Keeps s'' := by
  intro hne
  obtain ⟨hversion, hid⟩ := h' hne
  obtain ⟨hversion', hid'⟩ := h (hversion ▸ hne)
  exact ⟨hversion'.trans hversion, hid'.trans hid⟩

theorem keeps_setDstSessionId (s : SessionState) (sessionId : UInt64) :
    s.Keeps (s.setDstSessionId sessionId) := by
  unfold setDstSessionId
  split_ifs
  · exact fun h => absurd rfl h
  · exact fun _ => ⟨rfl, rfl⟩

/-- Saving the versions of infos has nothing to do with the topology. -/
theorem keeps_saveVersions (s : SessionState) (nowMs : UInt64) (sent : List (PeerId × UInt32)) :
    s.Keeps (sent.foldl (·.saveVersion nowMs ·) s) := by
  induction sent generalizing s with
  | nil => exact fun _ => ⟨rfl, rfl⟩
  | cons v sent ih => exact ih (s.saveVersion nowMs v)

/-- The version that is acknowledged once an update is accepted is the one of the update,
    or it was acknowledged before. -/
theorem commit_keeps (s : SessionState) (sessionId : UInt64) (weAreInitiator : Bool)
    (versions : List (PeerId × UInt32)) (topologyVersion : Option UInt64) (nowMs : UInt64) :
    topologyVersion = some ((s.acknowledge sessionId weAreInitiator nowMs).commit versions
        topologyVersion nowMs).lastTopologyVersion ∨
      s.Keeps ((s.acknowledge sessionId weAreInitiator nowMs).commit versions topologyVersion nowMs) := by
  have hack : s.Keeps (s.acknowledge sessionId weAreInitiator nowMs) :=
    s.keeps_setDstSessionId sessionId
  have hkeeps : s.Keeps (versions.foldl (·.saveVersion nowMs ·)
      (s.acknowledge sessionId weAreInitiator nowMs)) :=
    hack.trans (keeps_saveVersions _ nowMs versions)
  unfold commit saveTopology
  cases topologyVersion with
  | none => exact .inr hkeeps
  | some version =>
    dsimp only
    split_ifs
    · exact .inl rfl
    · exact .inr hkeeps

end SessionState

namespace RouteGroupData

variable {g g' g'' : RouteGroupData} {myPeerId : PeerId}

/-- A topology version that is acknowledged in a session of `g'` was so in `g`, for the
    same session id. -/
def Retains (g g' : RouteGroupData) : Prop :=
  ∀ peerId s', g'.sessions.lookup peerId = some s' → s'.lastTopologyVersion ≠ 0 →
    ∃ s, g.sessions.lookup peerId = some s ∧ s.lastTopologyVersion = s'.lastTopologyVersion ∧
      s.dstSessionId = s'.dstSessionId

namespace Retains

theorem of_sessions (h : g'.sessions = g.sessions) : Retains g g' := by
  intro peerId s' hs' _
  exact ⟨s', h ▸ hs', rfl, rfl⟩

theorem trans (h : Retains g g') (h' : Retains g' g'') : Retains g g'' := by
  intro peerId s'' hs'' hne
  obtain ⟨s', hs', hversion, hid⟩ := h' peerId s'' hs'' hne
  obtain ⟨s, hs, hversion', hid'⟩ := h peerId s' hs' (hversion ▸ hne)
  exact ⟨s, hs, hversion'.trans hversion, hid'.trans hid⟩

/-- One session is updated, or created without an acknowledged version. -/
theorem upsert (peerId : PeerId) (f : SessionState → SessionState)
    (h : g'.sessions = g.sessions.upsert peerId f) (hf : ∀ s : SessionState, s.Keeps (f s)) :
    Retains g g' := by
  intro q s' hs' hne
  rw [h, Finmap.lookup_upsert] at hs'
  split_ifs at hs' with hq
  · obtain rfl := Option.some.inj hs'
    cases hlookup : g.sessions.lookup q with
    | none =>
      rw [hlookup] at hne
      exact absurd (hf _ hne).1.symm hne
    | some s =>
      rw [hlookup] at hne
      exact ⟨s, rfl, hf s hne⟩
  · exact ⟨s', hs', rfl, rfl⟩

/-- Every session is updated. -/
theorem mapValues {f : SessionState → SessionState} (h : g'.sessions = g.sessions.mapValues f)
    (hf : ∀ s : SessionState, s.Keeps (f s)) : Retains g g' := by
  intro q s' hs' hne
  rw [h, Finmap.lookup_mapValues, Option.map_eq_some_iff] at hs'
  obtain ⟨s, hs, rfl⟩ := hs'
  exact ⟨s, hs, hf s hne⟩

/-- Every session forgets the topology. -/
theorem forgotten (sessions : FinMap PeerId SessionState) (peerId : PeerId)
    (h : g'.sessions = sessions.mapValues (·.forget peerId)) : Retains g g' := by
  intro q s' hs' hne
  rw [h, Finmap.lookup_mapValues, Option.map_eq_some_iff] at hs'
  obtain ⟨s, -, rfl⟩ := hs'
  exact absurd rfl hne

theorem addPeer (g : RouteGroupData) (myPeerId peerId : PeerId) (publicKey : Bytes)
    (nowMs : UInt64) : Retains g (g.addPeer myPeerId peerId publicKey nowMs) := by
  obtain ⟨_, _, _, _, _, _, heq⟩ :=
    g.addPeer_eq myPeerId peerId publicKey nowMs
  rw [heq]
  exact upsert peerId (fun s => { s with lastTouchMs := nowMs }) rfl fun _ _ => ⟨rfl, rfl⟩

theorem removePeer (g : RouteGroupData) (peerId : PeerId) :
    Retains g (g.removePeer myPeerId peerId) := by
  obtain ⟨_, _, _, _, heq⟩ := g.removePeer_eq myPeerId peerId
  exact forgotten _ _ (congrArg RouteGroupData.sessions heq)

theorem removePeers (g : RouteGroupData) (pids : List PeerId) :
    Retains g (pids.foldl (fun g pid => g.removePeer myPeerId pid) g) := by
  induction pids generalizing g with
  | nil => exact of_sessions rfl
  | cons pid pids ih => exact (removePeer g pid).trans (ih _)

theorem purgePeers (g : RouteGroupData) (pids : List PeerId) :
    Retains g (pids.foldl (fun g pid => g.purgePeer pid) g) := by
  induction pids generalizing g with
  | nil => exact of_sessions rfl
  | cons pid pids ih =>
    have hpurge : Retains g (g.purgePeer pid) := forgotten g.sessions pid rfl
    exact hpurge.trans (ih _)

theorem sweep (g : RouteGroupData) (nowMs : UInt64) : Retains g (g.sweep myPeerId nowMs) := by
  have hmembers : Retains g (g.sweepMembers myPeerId nowMs) := removePeers g _
  unfold RouteGroupData.sweep sweepInfos
  split_ifs
  · exact hmembers
  · exact (hmembers.trans (purgePeers _ _)).trans (of_sessions rfl)

theorem storeInfo (fromPeerId : PeerId) (nowMs : UInt64) (acc : Stored) (info : RoutePeerInfo) :
    Retains acc.group (storeInfo fromPeerId nowMs acc info).group := by
  unfold RouteGroupData.storeInfo
  dsimp only
  split_ifs
  · exact of_sessions rfl
  · exact of_sessions rfl
  · by_cases hinst : (acc.group.bindKey fromPeerId info).instanceChanged info = true
    · exact mapValues (if_pos hinst) fun _ _ => ⟨rfl, rfl⟩
    · exact of_sessions (if_neg hinst)

theorem storeInfos (fromPeerId : PeerId) (nowMs : UInt64) (acc : Stored)
    (infos : List RoutePeerInfo) :
    Retains acc.group (infos.foldl (RouteGroupData.storeInfo fromPeerId nowMs) acc).group := by
  induction infos generalizing acc with
  | nil => exact of_sessions rfl
  | cons info infos ih => exact (storeInfo fromPeerId nowMs acc info).trans (ih _)

theorem syncRouteInfo (g : RouteGroupData) (prost : Prost) (fromPeerId : PeerId)
    (request : SyncRouteInfoRequest) (nowMs : UInt64) :
    Retains g (g.syncRouteInfo myPeerId prost fromPeerId request nowMs).2 := by
  obtain ⟨stored, acc, -, hrows, hstored, heq⟩ :=
    g.syncRouteInfo_eq myPeerId prost fromPeerId request nowMs
  have htouch : Retains g (g.touchSession fromPeerId request nowMs) := by
    refine upsert fromPeerId (fun s =>
      { { s with lastTouchMs := nowMs }.setDstSessionId request.mySessionId with
        weAreInitiator := !request.isInitiator }) rfl fun s h => ?_
    exact SessionState.keeps_setDstSessionId { s with lastTouchMs := nowMs } request.mySessionId h
  have hgroup : Retains g stored.group := by
    rw [hstored]
    exact htouch.trans (storeInfos fromPeerId nowMs _ _)
  have hsessions : acc.1.sessions = stored.group.sessions := by
    rw [← hrows.group]
  rw [heq]
  split_ifs
  · exact hgroup.trans (of_sessions hsessions)
  · exact hgroup.trans (of_sessions hsessions)

theorem openSession (g : RouteGroupData) (peerId : PeerId) (sessionId : UInt64) :
    Retains g (g.openSession peerId sessionId) :=
  upsert peerId (fun s => { s with mySessionId := some sessionId }) rfl
    fun _ _ => ⟨rfl, rfl⟩

theorem cachedFor (g : RouteGroupData) (peerId : PeerId) (nowMs : UInt64) :
    Retains g (g.cachedFor myPeerId peerId nowMs) := by
  obtain ⟨list, bitmap, heq⟩ := g.cachedFor_eq myPeerId peerId nowMs
  rw [heq]
  exact of_sessions rfl

end Retains

end RouteGroupData

/-! ## The versions of a network -/

namespace WasmRpcCore

variable (core : WasmRpcCore) (network : String)

/-- The topology of a network. -/
def topology : Topology :=
  match core.routes.groups.lookup network with
  | some g => g.topology
  | none => ⟨∅, ∅, ∅⟩

/-- The topology version of a network. -/
def topologyVersion : UInt64 :=
  match core.routes.groups.lookup network with
  | some g => g.topologyVersion
  | none => 1

/-- The session id that a peer has told the relay. -/
def dstSessionId (peerId : UInt32) : Option UInt64 :=
  ((core.routes.groups.lookup network).bind (·.sessions.lookup peerId)).bind (·.dstSessionId)

end WasmRpcCore

/-- The number of new topology versions of `network` that a call makes. -/
def topologyChanges (crates : RpcCrates) (network : String) (e : CoreEvent) : ℕ :=
  ((e.pre.step crates e.input).1.topologyVersion network - e.pre.topologyVersion network).toNat

/-- A route request of `network` comes from a member. -/
def FromMember (crates : RpcCrates) (network : String) (e : CoreEvent) : Prop :=
  match e.input with
  | .handleRequest n peerId payload nowMs _ _ => n = network →
    (e.pre.syncRequest crates network peerId payload nowMs).isSome →
      peerId ∈ (e.pre.topology network).peers
  | _ => True

instance (crates : RpcCrates) (network : String) : ∀ e, Decidable (FromMember crates network e)
  | ⟨pre, .handleRequest n peerId payload nowMs _ _, _⟩ =>
    inferInstanceAs (Decidable (n = network →
      (pre.syncRequest crates network peerId payload nowMs).isSome →
        peerId ∈ (pre.topology network).peers))
  | ⟨_, .addPeer .., _⟩ | ⟨_, .removePeer .., _⟩ | ⟨_, .handleResponse .., _⟩
  | ⟨_, .buildRouteUpdate .., _⟩ | ⟨_, .cleanExpired .., _⟩ => isTrue trivial

/-- If it is the relay itself that is removed, then it is a member, has an info, or has
    no row. -/
def RelayRemovalNoted (network : String) (e : CoreEvent) : Prop :=
  match e.input with
  | .removePeer n peerId draws => n = network → peerId = e.pre.routes.myPeerId →
    (e.pre.routes.ensureGroup network draws).RemovalNoted peerId
  | _ => True

instance (network : String) : ∀ e, Decidable (RelayRemovalNoted network e)
  | ⟨pre, .removePeer n peerId draws, _⟩ =>
    inferInstanceAs (Decidable (n = network → peerId = pre.routes.myPeerId →
      (pre.routes.ensureGroup network draws).RemovalNoted peerId))
  | ⟨_, .addPeer .., _⟩ | ⟨_, .handleRequest .., _⟩ | ⟨_, .handleResponse .., _⟩
  | ⟨_, .buildRouteUpdate .., _⟩ | ⟨_, .cleanExpired .., _⟩ => isTrue trivial

section Versions

open RouteGroupData

variable {crates : RpcCrates} {config : CoreConfig} {core core' : WasmRpcCore} {network : String}

theorem topology_ensureGroup (core : WasmRpcCore) (network : String) (draws : GroupDraws) :
    (core.routes.ensureGroup network draws).topology = core.topology network ∧
      (core.routes.ensureGroup network draws).topologyVersion = core.topologyVersion network := by
  unfold RouteState.ensureGroup WasmRpcCore.topology WasmRpcCore.topologyVersion
  cases core.routes.groups.lookup network with
  | some g => exact ⟨rfl, rfl⟩
  | none => exact ⟨rfl, rfl⟩

theorem topology_of_lookup {g : RouteGroupData} (h : core.routes.groups.lookup network = some g) :
    core.topology network = g.topology ∧ core.topologyVersion network = g.topologyVersion := by
  simp only [WasmRpcCore.topology, WasmRpcCore.topologyVersion, h, and_self]

/-- The topology of a network is `n` versions ahead. -/
def TopologyRenews (n : ℕ) (network : String) (core core' : WasmRpcCore) : Prop :=
  core'.topologyVersion network = nextTopologyVersion^[n] (core.topologyVersion network) ∧
    (n = 0 → core'.topology network = core.topology network)

/-- The topology of the group that a call leaves. -/
theorem topologyRenews_of_lookup {n : ℕ} {g' : RouteGroupData} (draws : GroupDraws)
    (hg' : core'.routes.groups.lookup network = some g')
    (hversion : g'.topologyVersion =
      nextTopologyVersion^[n] (core.routes.ensureGroup network draws).topologyVersion)
    (hsame : n = 0 → g'.topology = (core.routes.ensureGroup network draws).topology) :
    TopologyRenews n network core core' := by
  obtain ⟨htop, hbefore⟩ := topology_ensureGroup core network draws
  obtain ⟨htop', hafter⟩ := topology_of_lookup hg'
  rw [TopologyRenews, htop', hafter, ← htop, ← hbefore]
  exact ⟨hversion, hsame⟩

/-- Only members of the network, and the relay, have a row. -/
def NetworkRowsOfMembers (network : String) (core : WasmRpcCore) : Prop :=
  ∀ g, core.routes.groups.lookup network = some g → RowsOfMembers core.routes.myPeerId g

theorem NetworkRowsOfMembers.ensureGroup (h : NetworkRowsOfMembers network core)
    (draws : GroupDraws) :
    RowsOfMembers core.routes.myPeerId (core.routes.ensureGroup network draws) := by
  cases hg : core.routes.groups.lookup network with
  | some g =>
    rw [RouteState.ensureGroup_of_lookup hg]
    exact h g hg
  | none =>
    rw [RouteState.ensureGroup, hg]
    exact fun pid _ _ => rfl

/-- What a call does to the topology: it is some versions ahead, and the rows are still
    those of members. -/
theorem step_topologyRenews (hrows : NetworkRowsOfMembers network core) {op : CoreOp}
    (hmember : FromMember crates network ((rpcCore crates config).event core op))
    (hrelay : RelayRemovalNoted network ((rpcCore crates config).event core op)) :
    (∃ n ≤ 2 ^ 32 + 1, TopologyRenews n network core (core.step crates op).1) ∧
      NetworkRowsOfMembers network (core.step crates op).1 := by
  have heff := core_cases crates core network op
  generalize (core.step crates op).1 = core' at heff ⊢
  -- In all cases but one the group afterwards is known.
  have hafter : ∀ {g'}, core'.routes.groups.lookup network = some g' →
      core'.routes.myPeerId = core.routes.myPeerId → RowsOfMembers core.routes.myPeerId g' →
      NetworkRowsOfMembers network core' := by
    intro g' hg' hmine hmembers g hg
    obtain rfl := Option.some.inj (hg'.symm.trans hg)
    rw [hmine]
    exact hmembers
  cases heff with
  | kept hframe hgroup =>
    refine ⟨⟨0, Nat.zero_le _, ?_, fun _ => ?_⟩, fun g hg => ?_⟩
    · simp only [WasmRpcCore.topologyVersion, hgroup]
      rfl
    · simp only [WasmRpcCore.topology, hgroup]
    · rw [hframe.myPeerId]
      exact hrows g (hgroup ▸ hg)
  | @added peerId publicKey nowMs draws _ hmine _ _ hgroup =>
    have hmembers := (hrows.ensureGroup draws).addPeer peerId publicKey nowMs
    obtain ⟨n, hn, hrenews⟩ := (core.routes.ensureGroup network draws).addPeer_renews
      core.routes.myPeerId peerId publicKey nowMs
    by_cases hconf : network ∈ core.configuredGroups
    · simp only [hconf, if_true] at hgroup
      exact ⟨⟨n, by omega, topologyRenews_of_lookup draws hgroup hrenews.version hrenews.same⟩,
        hafter hgroup hmine hmembers⟩
    · simp only [hconf, if_false] at hgroup
      have hconfig := core.configureGroup_renews
        ((core.routes.ensureGroup network draws).addPeer core.routes.myPeerId peerId publicKey nowMs)
      have hboth := hrenews.trans hconfig
      exact ⟨⟨n + 0, by omega, topologyRenews_of_lookup draws hgroup hboth.version hboth.same⟩,
        hafter hgroup hmine (hmembers.of_topology (hconfig.same rfl))⟩
  | @removed peerId draws _ hframe hgroup =>
    have hnoted : (core.routes.ensureGroup network draws).RemovalNoted peerId := by
      by_cases hpeer : peerId = core.routes.myPeerId
      · exact hrelay rfl hpeer
      · exact (hrows.ensureGroup draws).removalNoted hpeer
    obtain ⟨n, hn, hrenews⟩ := removePeer_renews core.routes.myPeerId hnoted
    exact ⟨⟨n, by omega, topologyRenews_of_lookup draws hgroup hrenews.version hrenews.same⟩,
      hafter hgroup hframe.myPeerId ((hrows.ensureGroup draws).removePeer peerId)⟩
  | @synced peerId payload nowMs clockMs draws request _ hframe hsync hgroup =>
    have hfrom : peerId ∈ (core.routes.ensureGroup network draws).topology.peers := by
      rw [(topology_ensureGroup core network draws).1]
      exact hmember rfl (Option.isSome_iff_exists.2 ⟨request, hsync⟩)
    obtain ⟨n, hn, hrenews⟩ := (core.routes.ensureGroup network draws).syncRouteInfo_renews
      core.routes.myPeerId crates.prost peerId request nowMs
    exact ⟨⟨n, by omega, topologyRenews_of_lookup draws hgroup hrenews.version hrenews.same⟩,
      hafter hgroup hframe.myPeerId
        ((hrows.ensureGroup draws).syncRouteInfo crates.prost hfrom request nowMs)⟩
  | @committed peerId payload nowMs draws _ _ _ _ _ hframe _ _ _ _ hgroup =>
    exact ⟨⟨0, Nat.zero_le _, topologyRenews_of_lookup draws hgroup rfl fun _ => rfl⟩,
      hafter hgroup hframe.myPeerId ((hrows.ensureGroup draws).of_topology rfl)⟩
  | @built peerId sessionId forceFull nowMs draws ids _ hmine _ _ hgroup =>
    have htop := topology_cachedFor (core.updateGroup network peerId sessionId draws)
      core.routes.myPeerId peerId nowMs
    refine ⟨⟨0, Nat.zero_le _, topologyRenews_of_lookup draws hgroup ?_ fun _ => htop⟩,
      hafter hgroup hmine ((hrows.ensureGroup draws).of_topology htop)⟩
    exact topologyVersion_cachedFor (core.updateGroup network peerId sessionId draws) peerId nowMs
  | @swept nowMs clockMs g _ hframe hg hgroup =>
    obtain ⟨n, hn, hrenews⟩ := g.sweep_renews core.routes.myPeerId nowMs
    obtain ⟨htop, hversion⟩ := topology_of_lookup hg
    obtain ⟨htop', hversion'⟩ := topology_of_lookup hgroup
    refine ⟨⟨n, hn, ?_⟩, hafter hgroup hframe.myPeerId ((hrows g hg).sweep nowMs)⟩
    rw [TopologyRenews, htop, htop', hversion, hversion']
    exact ⟨hrenews.version, hrenews.same⟩

/-- An update is built from the topology that there still is afterwards. -/
theorem topology_of_sent (crates : RpcCrates) {op : CoreOp} {u : SentUpdate} (hnet : u.key.network = network)
    (h : core.sent op = some u) :
    u.group.topology = (core.step crates op).1.topology network ∧
      u.group.topologyVersion = (core.step crates op).1.topologyVersion network := by
  cases op with
  | buildRouteUpdate n peerId sessionId forceFull nowMs draws ids =>
    obtain rfl : n = network := (WasmRpcCore.network_of_sent h).symm.trans hnet
    have hlookup : (core.step crates (.buildRouteUpdate n peerId sessionId forceFull nowMs draws
        ids)).1.routes.groups.lookup n =
          some ((core.updateGroup n peerId sessionId draws).cachedFor core.routes.myPeerId peerId
            nowMs) := by
      change (core.buildRouteUpdate crates n peerId sessionId forceFull nowMs draws
        ids).2.routes.groups.lookup n = _
      rw [buildRouteUpdate_snd]
      exact (RouteState.lookup_withGroup _ _ _ _).trans (if_pos rfl)
    rw [(topology_of_lookup hlookup).1, (topology_of_lookup hlookup).2, topology_cachedFor,
      topologyVersion_cachedFor, WasmRpcCore.group_of_sent h]
    exact ⟨rfl, rfl⟩
  | _ => cases h

/-- What the versions of a network tell of its topology, in a run without more of them
    than there are numbers. -/
structure VersionsTell (crates : RpcCrates) (network : String) (tr : List CoreEvent)
    (core : WasmRpcCore) : Prop where
  rows : NetworkRowsOfMembers network core
  count : (core.topologyVersion network).toNat =
    1 + (tr.map (topologyChanges crates network)).sum
  sent : ∀ e ∈ tr, ∀ u, e.pre.sent e.input = some u → u.key.network = network →
    (u.group.topologyVersion).toNat ≤ (core.topologyVersion network).toNat ∧
      (u.group.topologyVersion = core.topologyVersion network →
        u.group.topology = core.topology network)

/-- Without a new version, a call leaves the topology as it was. -/
theorem topology_of_version (hversion : (core.topologyVersion network).toNat ≠ 0)
    (hrenews : ∃ n ≤ 2 ^ 32 + 1, TopologyRenews n network core core')
    (h : core'.topologyVersion network = core.topologyVersion network) :
    core'.topology network = core.topology network := by
  obtain ⟨n, hn, hnext, hsame⟩ := hrenews
  refine hsame (by_contra fun hne => ?_)
  have hzero : core.topologyVersion network ≠ 0 := fun h0 => hversion (by rw [h0]; rfl)
  exact iterate_nextTopologyVersion_ne hzero hne (by omega) (hnext.symm.trans h)

theorem VersionsTell.step {tr : List CoreEvent} (h : VersionsTell crates network tr core) {op : CoreOp}
    (hmember : FromMember crates network ((rpcCore crates config).event core op))
    (hrelay : RelayRemovalNoted network ((rpcCore crates config).event core op))
    (hcount : ((tr ++ [(rpcCore crates config).event core op]).map
      (topologyChanges crates network)).sum < 2 ^ 64 - 1) :
    VersionsTell crates network (tr ++ [(rpcCore crates config).event core op])
      (core.step crates op).1 := by
  obtain ⟨hrenews, hrows⟩ := step_topologyRenews h.rows hmember hrelay
  have hbefore := h.count
  rw [List.map_append, List.sum_append, List.map_singleton, List.sum_singleton] at hcount
  have hchanges : topologyChanges crates network ((rpcCore crates config).event core op) =
      ((core.step crates op).1.topologyVersion network - core.topologyVersion network).toNat := rfl
  -- There is no wraparound: the difference of the versions is the one of their numbers.
  have hafter : ((core.step crates op).1.topologyVersion network).toNat =
      (core.topologyVersion network).toNat +
        topologyChanges crates network ((rpcCore crates config).event core op) := by
    have hlt := ((core.step crates op).1.topologyVersion network).toNat_lt
    rw [hchanges, UInt64.toNat_sub] at hcount ⊢
    omega
  refine ⟨hrows, ?_, fun e he u hu hnet => ?_⟩
  · rw [List.map_append, List.sum_append, List.map_singleton, List.sum_singleton]
    omega
  rw [List.mem_append, List.mem_singleton] at he
  rcases he with he | rfl
  · obtain ⟨hle, heq⟩ := h.sent e he u hu hnet
    refine ⟨by omega, fun hversion => ?_⟩
    have hnat := congrArg UInt64.toNat hversion
    have hsame : (core.step crates op).1.topologyVersion network = core.topologyVersion network :=
      UInt64.toNat.inj (by omega)
    rw [topology_of_version (by omega) hrenews hsame]
    exact heq (hversion.trans hsame)
  · -- The update has just been built, which leaves the topology as it was.
    obtain ⟨htop, hversion⟩ := topology_of_sent crates hnet hu
    exact ⟨(congrArg UInt64.toNat hversion).le, fun _ => htop⟩

end Versions

/-! ## What the peers have acknowledged -/

/-- A topology version that a peer has acknowledged is the one of an update it has
    accepted, since it told the relay its session id. -/
def TopologyAcked (crates : RpcCrates) (network : String) (tr : List CoreEvent) (core : WasmRpcCore) :
    Prop :=
  ∀ g peerId s, core.routes.groups.lookup network = some g → g.sessions.lookup peerId = some s →
    s.lastTopologyVersion ≠ 0 →
    ∃ u after, Acknowledged crates tr u after ∧ u.key.network = network ∧ u.key.peerId = peerId ∧
      u.connInfo.isSome ∧ u.group.topologyVersion = s.lastTopologyVersion ∧
      ∀ e ∈ after, e.pre.dstSessionId network peerId = s.dstSessionId

section Acked

open RouteGroupData

variable {crates : RpcCrates} {config : CoreConfig} {core core' : WasmRpcCore} {network : String}
  {tr : List CoreEvent} {op : CoreOp}

/-- The sessions of a group that was created are none. -/
theorem lookup_of_ensureGroup {draws : GroupDraws} {peerId : UInt32} {s : SessionState}
    (h : (core.routes.ensureGroup network draws).sessions.lookup peerId = some s) :
    core.routes.groups.lookup network = some (core.routes.ensureGroup network draws) := by
  cases hg : core.routes.groups.lookup network with
  | some g => rw [RouteState.ensureGroup_of_lookup hg]
  | none =>
    rw [RouteState.ensureGroup, hg] at h
    exact absurd h (by simp [RouteGroupData.new])

/-- What was acknowledged in a session before a call, and still is. -/
theorem TopologyAcked.snoc (h : TopologyAcked crates network tr core) (draws : GroupDraws)
    {peerId : UInt32} {s s' : SessionState}
    (hs : (core.routes.ensureGroup network draws).sessions.lookup peerId = some s)
    (hne : s'.lastTopologyVersion ≠ 0) (hversion : s.lastTopologyVersion = s'.lastTopologyVersion)
    (hid : s.dstSessionId = s'.dstSessionId) :
    ∃ u after, Acknowledged crates (tr ++ [(rpcCore crates config).event core op]) u after ∧
      u.key.network = network ∧ u.key.peerId = peerId ∧ u.connInfo.isSome ∧
      u.group.topologyVersion = s'.lastTopologyVersion ∧
      ∀ e ∈ after, e.pre.dstSessionId network peerId = s'.dstSessionId := by
  have hg := lookup_of_ensureGroup hs
  obtain ⟨u, after, hack, hnet, hpeer, hconn, htop, hafter⟩ :=
    h _ peerId s hg hs (hversion ▸ hne)
  refine ⟨u, after ++ [(rpcCore crates config).event core op], hack.snoc _, hnet, hpeer, hconn,
    htop.trans hversion, fun e he => ?_⟩
  rcases List.mem_append.1 he with he | he
  · exact (hafter e he).trans hid
  · obtain rfl := List.mem_singleton.1 he
    simp only [Machine.event, WasmRpcCore.dstSessionId, hg, hs, Option.bind_some]
    exact hid

/-- A call that acknowledges nothing. -/
theorem TopologyAcked.of_retains (h : TopologyAcked crates network tr core) (draws : GroupDraws)
    {g' : RouteGroupData} (hretains : Retains (core.routes.ensureGroup network draws) g')
    (hg' : core'.routes.groups.lookup network = some g') :
    TopologyAcked crates network (tr ++ [(rpcCore crates config).event core op]) core' := by
  intro g peerId s' hg hs' hne
  obtain rfl := Option.some.inj (hg'.symm.trans hg)
  obtain ⟨s, hs, hversion, hid⟩ := hretains peerId s' hs' hne
  exact h.snoc draws hs hne hversion hid

/-- A response that accepts an update. -/
theorem TopologyAcked.committed (h : TopologyAcked crates network tr core)
    (hsent : OutstandingSent tr core) {peerId : UInt32} {payload : Bytes} {nowMs : UInt64}
    {draws : GroupDraws} {key : RpcKey} {o : OutstandingRoute} {sessionId : UInt64}
    {weAreInitiator : Bool}
    (haccept : core.acceptance crates network peerId payload nowMs = some (key, o, sessionId))
    (hnet : key.network = network) (hpeer : key.peerId = peerId)
    (hout : core.outstandingRoutes.lookup key = some o)
    (hgroup : core'.routes.groups.lookup network =
      some (((core.routes.ensureGroup network draws).onRouteSessionAck peerId sessionId weAreInitiator
        nowMs).commitRouteUpdate peerId o.peerInfoVersions o.topologyVersion nowMs)) :
    TopologyAcked crates network (tr ++ [(rpcCore crates config).event core
      (.handleResponse network peerId payload nowMs draws)]) core' := by
  intro g q s' hg hs' hne
  obtain rfl := Option.some.inj (hgroup.symm.trans hg)
  rw [lookup_commitRouteUpdate] at hs'
  split_ifs at hs' with hq
  swap
  · exact h.snoc draws hs' hne rfl rfl
  subst hq
  obtain rfl := Option.some.inj hs'
  rcases ((((core.routes.ensureGroup network draws).sessions.lookup q).getD default).commit_keeps
    sessionId weAreInitiator o.peerInfoVersions o.topologyVersion nowMs) with hnew | hkeeps
  · -- It is the version of the update.
    obtain ⟨u, hack, rfl, hrecorded⟩ := hsent.acknowledged config draws haccept hout
    obtain ⟨connInfo, hconn, hversion⟩ :=
      Option.map_eq_some_iff.1 (hrecorded.topologyVersion.symm.trans hnew)
    exact ⟨u, [], .last hack, hnet, hpeer, by rw [hconn]; rfl, hversion,
      fun e he => absurd he List.not_mem_nil⟩
  · -- It was acknowledged before, in a session that there was.
    obtain ⟨hversion, hid⟩ := hkeeps hne
    cases hs : (core.routes.ensureGroup network draws).sessions.lookup q with
    | none =>
      rw [hs] at hversion hne
      exact absurd hversion.symm hne
    | some s =>
      rw [hs] at hversion hid hne
      exact h.snoc draws hs hne hversion hid

theorem TopologyAcked.step (h : TopologyAcked crates network tr core) (hsent : OutstandingSent tr core)
    (op : CoreOp) :
    TopologyAcked crates network (tr ++ [(rpcCore crates config).event core op])
      (core.step crates op).1 := by
  have heff := core_cases crates core network op
  generalize (core.step crates op).1 = core' at heff ⊢
  cases heff with
  | kept _ hgroup =>
    intro g peerId s hg hs hne
    have hg' : core.routes.groups.lookup network = some g := hgroup ▸ hg
    exact h.snoc ⟨⟨0, 0, 0, 0⟩, 0⟩ (by rw [RouteState.ensureGroup_of_lookup hg']; exact hs) hne
      rfl rfl
  | @added peerId publicKey nowMs draws _ _ _ _ hgroup =>
    have hretains := Retains.addPeer (core.routes.ensureGroup network draws) core.routes.myPeerId
      peerId publicKey nowMs
    refine h.of_retains draws ?_ hgroup
    dsimp only
    split_ifs
    · exact hretains
    · exact hretains.trans (.of_sessions (core.sessions_configureGroup _))
  | removed _ hgroup => exact h.of_retains _ (Retains.removePeer _ _) hgroup
  | synced _ _ hgroup => exact h.of_retains _ (Retains.syncRouteInfo _ _ _ _ _) hgroup
  | committed _ haccept hnet hpeer hout hgroup => exact h.committed hsent haccept hnet hpeer hout hgroup
  | built _ _ _ hgroup =>
    exact h.of_retains _ ((Retains.openSession _ _ _).trans (Retains.cachedFor _ _ _)) hgroup
  | @swept nowMs clockMs g _ _ hg hgroup =>
    refine h.of_retains ⟨⟨0, 0, 0, 0⟩, 0⟩ ?_ hgroup
    rw [RouteState.ensureGroup_of_lookup hg]
    exact Retains.sweep g nowMs

end Acked

/-! ## Runs -/

section Runs

open RouteGroupData

variable {crates : RpcCrates} {config : CoreConfig} {network : String}

/-- Members only, the relay is not removed unnoticed, and the versions do not come round. -/
def VersionSafe (crates : RpcCrates) (network : String) (before : List CoreEvent) (e : CoreEvent) :
    Prop :=
  FromMember crates network e ∧ RelayRemovalNoted network e ∧
    ((before ++ [e]).map (topologyChanges crates network)).sum < 2 ^ 64 - 1

/-- What holds after every run whose calls are all safe. -/
theorem topology_invariant (ops : List CoreOp)
    (hsafe : Along (VersionSafe crates network)
      ((rpcCore crates config).history (rpcCore crates config).init ops)) :
    OutstandingSent ((rpcCore crates config).history (rpcCore crates config).init ops)
        ((rpcCore crates config).run (rpcCore crates config).init ops) ∧
      TopologyAcked crates network ((rpcCore crates config).history (rpcCore crates config).init ops)
        ((rpcCore crates config).run (rpcCore crates config).init ops) ∧
      VersionsTell crates network ((rpcCore crates config).history (rpcCore crates config).init ops)
        ((rpcCore crates config).run (rpcCore crates config).init ops) := by
  refine Machine.history_invariant (m := rpcCore crates config) (P := fun tr core =>
    OutstandingSent tr core ∧ TopologyAcked crates network tr core ∧
      VersionsTell crates network tr core) ⟨?_, ?_, ?_⟩ ?_ ops hsafe
  · exact outstanding_sent []
  · intro g peerId s hg
    simp [rpcCore, WasmRpcCore.new] at hg
  · refine ⟨fun g hg => ?_, rfl, fun e he => absurd he List.not_mem_nil⟩
    simp [rpcCore, WasmRpcCore.new] at hg
  · rintro tr core op ⟨hsent, hacked, htell⟩ ⟨hmember, hrelay, hcount⟩
    exact ⟨hsent.step op, hacked.step hsent op, htell.step hmember hrelay hcount⟩

/-- An update has no connection info only for a peer that has acknowledged the version. -/
theorem hasTopology_of_connInfoFor {g : RouteGroupData} {myPeerId peerId : PeerId} {nowMs : UInt64}
    (h : g.connInfoFor myPeerId peerId nowMs = .ok none) :
    (g.sessions.lookup peerId).any (·.hasTopology g.topologyVersion nowMs) = true := by
  have hempty := isEmpty_relevantPeers g myPeerId peerId
  unfold connInfoFor buildConnInfo at h
  by_contra hnew
  simp only [hempty, hnew, Bool.false_eq_true, if_false] at h
  split_ifs at h <;> split at h <;> simp at h

/-- The update that was accepted by a peer which gets no connection info. -/
theorem acknowledged_of_withheld {tr : List CoreEvent} {core : WasmRpcCore}
    (hacked : TopologyAcked crates network tr core) (htell : VersionsTell crates network tr core)
    {peerId : UInt32} {sessionId : UInt64} {nowMs : UInt64} {draws : GroupDraws}
    (h : (core.updateGroup network peerId sessionId draws).connInfoFor core.routes.myPeerId peerId
      nowMs = .ok none) :
    ∃ u after, Acknowledged crates tr u after ∧ u.key.network = network ∧ u.key.peerId = peerId ∧
      u.connInfo.isSome ∧ u.group.topology = core.topology network ∧
      ∀ e ∈ after, e.pre.dstSessionId network peerId = core.dstSessionId network peerId := by
  have hversion : (core.updateGroup network peerId sessionId draws).topologyVersion =
      core.topologyVersion network := (topology_ensureGroup core network draws).2
  have hzero : core.topologyVersion network ≠ 0 := by
    intro h0
    have hcount := htell.count
    rw [h0, UInt64.toNat_zero] at hcount
    omega
  have htopology := hasTopology_of_connInfoFor h
  have hlookup : (core.updateGroup network peerId sessionId draws).sessions.lookup peerId =
      some { ((core.routes.ensureGroup network draws).sessions.lookup peerId).getD default with
        mySessionId := some sessionId } := (Finmap.lookup_upsert _ _ _ _).trans (if_pos rfl)
  rw [hlookup, hversion, Option.any_some, SessionState.hasTopology, Bool.and_eq_true, beq_iff_eq]
    at htopology
  cases hs : (core.routes.ensureGroup network draws).sessions.lookup peerId with
  | none =>
    rw [hs] at htopology
    exact absurd htopology.1.symm hzero
  | some s =>
    rw [hs] at htopology
    have hlast : s.lastTopologyVersion = core.topologyVersion network := htopology.1
    have hg := lookup_of_ensureGroup hs
    obtain ⟨u, after, hack, hnet, hpeer, hconn, hsame, hafter⟩ :=
      hacked _ peerId s hg hs (hlast ▸ hzero)
    obtain ⟨e, he, hsent⟩ := hack.sent
    refine ⟨u, after, hack, hnet, hpeer, hconn, (htell.sent e he u hsent hnet).2 (hsame.trans hlast),
      fun e he => (hafter e he).trans ?_⟩
    simp only [WasmRpcCore.dstSessionId, hg, hs, Option.bind_some]

end Runs

/-- In every run in which only members send route requests, the relay is not removed
    unnoticed and there are fewer than `2 ^ 64 - 1` new topology versions: an update for a
    peer has no connection info only if the peer has accepted, since it told the relay its
    session id, an update with the connection info of the present topology. And every
    call that changes the topology changes its version. -/
theorem withheld_topology_acknowledged (crates : RpcCrates) (config : CoreConfig) (network : String)
    (ops : List CoreOp)
    (hmembers : ∀ e ∈ (rpcCore crates config).history (rpcCore crates config).init ops,
      FromMember crates network e)
    (hrelay : ∀ e ∈ (rpcCore crates config).history (rpcCore crates config).init ops,
      RelayRemovalNoted network e)
    (hchanges : (((rpcCore crates config).history (rpcCore crates config).init ops).map
      (topologyChanges crates network)).sum < 2 ^ 64 - 1) :
    let tr := (rpcCore crates config).history (rpcCore crates config).init ops
    let core := (rpcCore crates config).run (rpcCore crates config).init ops
    (∀ peerId sessionId nowMs draws,
      (core.updateGroup network peerId sessionId draws).connInfoFor core.routes.myPeerId peerId nowMs =
        .ok none →
      ∃ u after, Acknowledged crates tr u after ∧ u.key.network = network ∧ u.key.peerId = peerId ∧
        u.connInfo.isSome ∧ u.group.topology = core.topology network ∧
        ∀ e ∈ after, e.pre.dstSessionId network peerId = core.dstSessionId network peerId) ∧
    ∀ e ∈ tr,
      (e.pre.step crates e.input).1.topologyVersion network = e.pre.topologyVersion network →
      (e.pre.step crates e.input).1.topology network = e.pre.topology network := by
  intro tr core
  have hsafe : Along (VersionSafe crates network) tr := by
    intro before e after hsplit
    have hmem : e ∈ tr := hsplit ▸ List.mem_append_right _ List.mem_cons_self
    refine ⟨hmembers e hmem, hrelay e hmem, lt_of_le_of_lt ?_ hchanges⟩
    have hupto : tr = (before ++ [e]) ++ after := by rw [hsplit]; simp
    have hsum : (tr.map (topologyChanges crates network)).sum =
        ((before ++ [e]).map (topologyChanges crates network)).sum +
          (after.map (topologyChanges crates network)).sum := by
      rw [hupto, List.map_append, List.sum_append]
    rw [hsum]
    exact Nat.le_add_right _ _
  obtain ⟨-, hacked, htell⟩ := topology_invariant ops hsafe
  refine ⟨fun peerId sessionId nowMs draws hnone => ?_, fun e he hversion => ?_⟩
  · exact acknowledged_of_withheld hacked htell hnone
  · obtain ⟨before, after, hsplit⟩ := List.append_of_mem he
    obtain ⟨hmember, hremoval, -⟩ := hsafe before e after hsplit
    obtain ⟨js, op, -, -, rfl, rfl⟩ := Machine.history_split hsplit
    rw [hsplit] at hsafe
    obtain ⟨-, -, hbefore⟩ := topology_invariant js hsafe.append_left
    have hcount := hbefore.count
    exact topology_of_version (by simp only [Machine.event]; omega)
      (step_topologyRenews hbefore.rows hmember hremoval).1 hversion

open RouteSample

/-- A member that has accepted an update, and then gets no connection info. -/
theorem withheld_from_member :
    let ops := [join 1 1000, reporting (report 1 1 1) 1500, build 1 true 1 2000, accept 1 1 3000]
    ∃ u after, Acknowledged crates (history ops) u after ∧ u.key.network = "net" ∧ u.key.peerId = 1 ∧
      u.connInfo.isSome ∧ u.group.topology = (coreAfter ops).topology "net" ∧
      ∀ e ∈ after, e.pre.dstSessionId "net" 1 = (coreAfter ops).dstSessionId "net" 1 :=
  (withheld_topology_acknowledged crates config "net"
    [join 1 1000, reporting (report 1 1 1) 1500, build 1 true 1 2000, accept 1 1 3000]
    (by decide +kernel) (by decide +kernel) (by decide +kernel)).1 1 4 4000 draws (by decide +kernel)

/-- The relay is removed while an update is on its way. The relay's row is gone, without a
    new version: once the update is accepted, no other one tells of it. -/
theorem relay_removed_unnoticed :
    let ops := [join 1 1000, build 1 true 1 2000, .removePeer "net" relay draws, accept 1 1 3000]
    (∀ e ∈ history ops, FromMember crates "net" e) ∧
    ((history ops).map (topologyChanges crates "net")).sum < 2 ^ 64 - 1 ∧
    ((coreAfter ops).updateGroup "net" 1 4 draws).connInfoFor relay 1 4000 = .ok none ∧
    ¬ ∃ u after, Acknowledged crates (history ops) u after ∧
      u.group.topology = (coreAfter ops).topology "net" := by
  refine ⟨by decide +kernel, by decide +kernel, by decide +kernel, ?_⟩
  rintro ⟨u, after, hack, htop⟩
  obtain ⟨e, he, hsent⟩ := hack.sent
  -- The only update that was sent knew the relay's row.
  have hrow : ∀ e ∈ history [join 1 1000, build 1 true 1 2000, .removePeer "net" relay draws,
      accept 1 1 3000], ∀ u ∈ e.pre.sent e.input, (u.group.topology.rows.lookup relay).isSome := by
    decide +kernel
  have hnone : ((coreAfter [join 1 1000, build 1 true 1 2000, .removePeer "net" relay draws,
      accept 1 1 3000]).topology "net").rows.lookup relay = none := by
    decide +kernel
  have hsome := hrow e he u hsent
  rw [htop, hnone] at hsome
  exact absurd hsome (by decide)

end EasyTierEdge
