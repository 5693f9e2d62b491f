import EasyTierEdge.Rpc.History

/-!
# The caches of the connection info

The connection info of an update is cached for a topology version. It is about the
peers that are known, and about the target of the update as well: as long as updates
are only built for known peers, and every removal is noted, the caches hold what would
be computed again (`CacheExact`), and no update shows that there are any
(`conn_info_cache_transparent`).

An update for a stranger, such as a peer that the sweep has just removed, leaves the
stranger in the cache for everyone else (`stranger_in_cache`).
-/

namespace EasyTierEdge

namespace RouteGroupData

variable {g g' : RouteGroupData} {myPeerId targetPeerId : PeerId}

/-- The group with both caches emptied. -/
def uncached (g : RouteGroupData) : RouteGroupData :=
  { g with cachedConnPeerList := none, cachedConnBitmap := none }

/-- The relay and the peers it knows. -/
def Knows (myPeerId : PeerId) (g : RouteGroupData) (pid : PeerId) : Prop :=
  pid = myPeerId ∨ pid ∈ g.knownIds

instance (g : RouteGroupData) (pid : PeerId) : Decidable (g.Knows myPeerId pid) :=
  inferInstanceAs (Decidable (_ ∨ _))

/-- An update for a known peer is about the known peers. -/
theorem relevantPeers_of_knows (h : g.Knows myPeerId targetPeerId) :
    g.relevantPeers myPeerId targetPeerId = g.relevantPeers myPeerId myPeerId := by
  have hmem : targetPeerId ∈ insert myPeerId g.knownIds := Finset.mem_insert.2 h
  rw [relevantPeers, relevantPeers, Finset.insert_eq_of_mem hmem, Finset.insert_idem]

section Topology

variable (h : g'.topology = g.topology)

include h

theorem relevantPeers_of_topology (targetPeerId : PeerId) :
    g'.relevantPeers myPeerId targetPeerId = g.relevantPeers myPeerId targetPeerId := by
  obtain ⟨hpeers, hinfos, hrows⟩ := topology_eq_iff.1 h
  simp only [relevantPeers, knownIds, hpeers, hinfos, hrows]

theorem connRowFor_of_topology : g'.connRowFor = g.connRowFor := by
  funext pid
  rw [connRowFor, connRowFor, (topology_eq_iff.1 h).2.2]

theorem connPeerListOf_of_topology (pids : List PeerId) :
    g'.connPeerListOf pids = g.connPeerListOf pids := by
  simp only [connPeerListOf, connRowFor_of_topology h]

theorem connBitmapOf_of_topology (pids : List PeerId) :
    g'.connBitmapOf pids = g.connBitmapOf pids := by
  simp only [connBitmapOf, connRowFor_of_topology h]

end Topology

/-! ## What is cached -/

/-- What is cached is the connection info about the known peers. -/
structure CacheExact (myPeerId : PeerId) (g : RouteGroupData) : Prop where
  list : ∀ cached ∈ g.cachedConnPeerList,
    cached.2 = g.connPeerListOf (g.relevantPeers myPeerId myPeerId)
  bitmap : ∀ cached ∈ g.cachedConnBitmap,
    (g.relevantPeers myPeerId myPeerId).length ≤ maxLegacyBitmapPeers ∧
      cached.2 = g.connBitmapOf (g.relevantPeers myPeerId myPeerId)

namespace CacheExact

theorem of_empty (hlist : g.cachedConnPeerList = none) (hbitmap : g.cachedConnBitmap = none) :
    CacheExact myPeerId g where
  list := by simp [hlist]
  bitmap := by simp [hbitmap]

/-- The caches of an untouched topology are still exact. -/
theorem of_topology (h : CacheExact myPeerId g) (htop : g'.topology = g.topology)
    (hlist : g'.cachedConnPeerList = g.cachedConnPeerList)
    (hbitmap : g'.cachedConnBitmap = g.cachedConnBitmap) : CacheExact myPeerId g' where
  list := by
    rw [hlist, connPeerListOf_of_topology htop, relevantPeers_of_topology htop]
    exact h.list
  bitmap := by
    rw [hbitmap, connBitmapOf_of_topology htop, relevantPeers_of_topology htop]
    exact h.bitmap

theorem renews (h : CacheExact myPeerId g) {n : ℕ} (hrenews : Renews n g g') :
    CacheExact myPeerId g' := by
  by_cases hn : n = 0
  · exact h.of_topology (hrenews.same hn) (hrenews.kept hn).1 (hrenews.kept hn).2
  · exact .of_empty (hrenews.emptied hn).1 (hrenews.emptied hn).2

/-- The removal of a peer is noted, or nothing is cached. -/
theorem removePeer (h : CacheExact myPeerId g) {peerId : PeerId}
    (hnoted : g.RemovalNoted peerId ∨ g.cachedConnPeerList = none ∧ g.cachedConnBitmap = none) :
    CacheExact myPeerId (g.removePeer myPeerId peerId) := by
  rcases hnoted with hnoted | ⟨hlist, hbitmap⟩
  · obtain ⟨n, -, hrenews⟩ := removePeer_renews myPeerId hnoted
    exact h.renews hrenews
  · unfold RouteGroupData.removePeer
    dsimp only
    split_ifs
    · exact .of_empty rfl rfl
    · exact .of_empty hlist hbitmap

end CacheExact

/-- No stranger is let into the cache: the target of an update is a known peer, or it has
    acknowledged the topology and gets no connection info. -/
def TargetKnown (myPeerId : PeerId) (g : RouteGroupData) (targetPeerId : PeerId) (nowMs : UInt64) :
    Prop :=
  g.Knows myPeerId targetPeerId ∨
    (g.sessions.lookup targetPeerId).any (·.hasTopology g.topologyVersion nowMs)

instance (g : RouteGroupData) (nowMs : UInt64) :
    Decidable (g.TargetKnown myPeerId targetPeerId nowMs) :=
  inferInstanceAs (Decidable (_ ∨ _))

/-- With exact caches, the list of rows is the one that would be computed, and so is what
    is cached afterwards. -/
theorem buildConnInfo_list (h : CacheExact myPeerId g) {relevantPeers : List PeerId}
    (hrelevant : relevantPeers = g.relevantPeers myPeerId myPeerId) {nowMs : UInt64}
    (hempty : relevantPeers.isEmpty = false)
    (hnew : (g.sessions.lookup targetPeerId).any (·.hasTopology g.topologyVersion nowMs) = false) :
    (g.buildConnInfo relevantPeers targetPeerId true nowMs).1 =
        .ok (some (.connPeerList (g.connPeerListOf relevantPeers))) ∧
      CacheExact myPeerId (g.buildConnInfo relevantPeers targetPeerId true nowMs).2 := by
  unfold buildConnInfo
  simp only [hempty, hnew, Bool.false_eq_true, if_false, if_true]
  cases hcached : g.cachedConnPeerList.filter (·.1 = g.topologyVersion) with
  | some cached =>
    obtain ⟨v, list⟩ := cached
    obtain ⟨hmem, -⟩ := Option.filter_eq_some_iff.1 hcached
    refine ⟨?_, h⟩
    rw [hrelevant, ← h.list (v, list) hmem]
  | none =>
    refine ⟨rfl, ⟨?_, h.bitmap⟩⟩
    rintro cached hmem
    obtain rfl := Option.some.inj hmem
    exact congrArg g.connPeerListOf hrelevant

/-- And so is the bitmap. -/
theorem buildConnInfo_bitmap (h : CacheExact myPeerId g) {relevantPeers : List PeerId}
    (hrelevant : relevantPeers = g.relevantPeers myPeerId myPeerId) {nowMs : UInt64}
    (hempty : relevantPeers.isEmpty = false)
    (hnew : (g.sessions.lookup targetPeerId).any (·.hasTopology g.topologyVersion nowMs) = false) :
    (g.buildConnInfo relevantPeers targetPeerId false nowMs).1 =
        (g.uncached.buildConnInfo relevantPeers targetPeerId false nowMs).1 ∧
      CacheExact myPeerId (g.buildConnInfo relevantPeers targetPeerId false nowMs).2 := by
  have hnew' : (g.uncached.sessions.lookup targetPeerId).any
      (·.hasTopology g.uncached.topologyVersion nowMs) = false := hnew
  unfold buildConnInfo
  simp only [hempty, hnew, hnew', Bool.false_eq_true, if_false]
  cases hcached : g.cachedConnBitmap.filter (·.1 = g.topologyVersion) with
  | some cached =>
    obtain ⟨v, bitmap⟩ := cached
    obtain ⟨hmem, -⟩ := Option.filter_eq_some_iff.1 hcached
    obtain ⟨hlength, heq⟩ := h.bitmap (v, bitmap) hmem
    rw [← hrelevant] at hlength heq
    refine ⟨?_, h⟩
    simp only [uncached, Option.filter_none, if_neg (Nat.not_lt.2 hlength)]
    obtain rfl : bitmap = _ := heq
    rfl
  | none =>
    simp only [uncached, Option.filter_none]
    split_ifs with hlength
    · exact ⟨rfl, h⟩
    · refine ⟨rfl, ⟨h.list, ?_⟩⟩
      rintro cached hmem
      obtain rfl := Option.some.inj hmem
      rw [Nat.not_lt, hrelevant] at hlength
      exact ⟨hlength, congrArg g.connBitmapOf hrelevant⟩

/-- The connection info for a known peer, and what it leaves in exact caches. -/
theorem connInfoFor_of_exact (h : CacheExact myPeerId g) {nowMs : UInt64}
    (htarget : g.TargetKnown myPeerId targetPeerId nowMs) :
    g.connInfoFor myPeerId targetPeerId nowMs = g.uncached.connInfoFor myPeerId targetPeerId nowMs ∧
      CacheExact myPeerId (g.cachedFor myPeerId targetPeerId nowMs) := by
  unfold connInfoFor cachedFor
  have hrelevant : g.uncached.relevantPeers myPeerId targetPeerId =
      g.relevantPeers myPeerId targetPeerId := rfl
  have hsupports : g.uncached.supportsConnList targetPeerId = g.supportsConnList targetPeerId := rfl
  have hempty := isEmpty_relevantPeers g myPeerId targetPeerId
  rw [hrelevant, hsupports]
  cases hnew : (g.sessions.lookup targetPeerId).any (·.hasTopology g.topologyVersion nowMs) with
  | true =>
    -- Nothing is sent, and nothing is cached.
    have hnew' : (g.uncached.sessions.lookup targetPeerId).any
        (·.hasTopology g.uncached.topologyVersion nowMs) = true := hnew
    unfold buildConnInfo
    simp only [hempty, hnew, hnew', Bool.false_eq_true, if_false, if_true]
    exact ⟨trivial, h⟩
  | false =>
    have hknown : g.Knows myPeerId targetPeerId := by
      rcases htarget with hknown | hacked
      · exact hknown
      · rw [hnew] at hacked
        exact absurd hacked Bool.false_ne_true
    have hpeers := relevantPeers_of_knows hknown
    cases g.supportsConnList targetPeerId with
    | true =>
      obtain ⟨heq, hexact⟩ := buildConnInfo_list h hpeers hempty hnew
      have huncached : CacheExact myPeerId g.uncached := .of_empty rfl rfl
      rw [heq, (buildConnInfo_list huncached hpeers hempty hnew).1]
      exact ⟨rfl, hexact⟩
    | false => exact buildConnInfo_bitmap h hpeers hempty hnew

end RouteGroupData

/-! ## Runs -/

open RouteGroupData

/-- A call that keeps the caches of `network` exact: updates are for known peers, and
    removals are noted or nothing is cached. -/
def CacheSafe (network : String) (e : CoreEvent) : Prop :=
  match e.input with
  | .buildRouteUpdate n peerId sessionId _ nowMs draws _ => n = network →
    (e.pre.updateGroup network peerId sessionId draws).TargetKnown e.pre.routes.myPeerId peerId nowMs
  | .removePeer n peerId draws => n = network →
    (e.pre.routes.ensureGroup network draws).RemovalNoted peerId ∨
      (e.pre.routes.ensureGroup network draws).cachedConnPeerList = none ∧
        (e.pre.routes.ensureGroup network draws).cachedConnBitmap = none
  | _ => True

instance (network : String) : ∀ e : CoreEvent, Decidable (CacheSafe network e)
  | ⟨pre, .buildRouteUpdate n peerId sessionId _ nowMs draws _, _⟩ =>
    inferInstanceAs (Decidable (n = network →
      (pre.updateGroup network peerId sessionId draws).TargetKnown pre.routes.myPeerId peerId nowMs))
  | ⟨pre, .removePeer n peerId draws, _⟩ =>
    inferInstanceAs (Decidable (n = network →
      (pre.routes.ensureGroup network draws).RemovalNoted peerId ∨
        (pre.routes.ensureGroup network draws).cachedConnPeerList = none ∧
          (pre.routes.ensureGroup network draws).cachedConnBitmap = none))
  | ⟨_, .addPeer .., _⟩ | ⟨_, .handleRequest .., _⟩ | ⟨_, .handleResponse .., _⟩
  | ⟨_, .cleanExpired .., _⟩ => isTrue trivial

section Runs

variable {crates : RpcCrates} {config : CoreConfig} {core : WasmRpcCore} {network : String}

/-- The caches of the group of `network` are exact. -/
def CachesExact (network : String) (core : WasmRpcCore) : Prop :=
  ∀ g, core.routes.groups.lookup network = some g → CacheExact core.routes.myPeerId g

/-- A group that is created has empty caches. -/
theorem CachesExact.ensureGroup (h : CachesExact network core) (draws : GroupDraws) :
    CacheExact core.routes.myPeerId (core.routes.ensureGroup network draws) := by
  cases hg : core.routes.groups.lookup network with
  | some g =>
    rw [RouteState.ensureGroup_of_lookup hg]
    exact h g hg
  | none =>
    rw [RouteState.ensureGroup, hg]
    exact .of_empty rfl rfl

theorem CachesExact.step (h : CachesExact network core) (op : CoreOp)
    (hsafe : CacheSafe network ((rpcCore crates config).event core op)) :
    CachesExact network ((rpcCore crates config).step core op).1 := by
  intro g' hg'
  change (core.step crates op).1.routes.groups.lookup network = some g' at hg'
  change CacheExact (core.step crates op).1.routes.myPeerId g'
  have heff := core_cases crates core network op
  generalize (core.step crates op).1 = core' at heff hg' ⊢
  cases heff with
  | kept hframe hgroup =>
    rw [hframe.myPeerId]
    exact h g' (hgroup ▸ hg')
  | @added peerId publicKey nowMs draws _ hmine _ _ hgroup =>
    obtain rfl := Option.some.inj (hgroup.symm.trans hg')
    obtain ⟨n, -, hrenews⟩ := (core.routes.ensureGroup network draws).addPeer_renews
      core.routes.myPeerId peerId publicKey nowMs
    have hadded := (h.ensureGroup draws).renews hrenews
    rw [hmine]
    split_ifs
    · exact hadded
    · exact hadded.renews (core.configureGroup_renews _)
  | @removed peerId draws _ hframe hgroup =>
    obtain rfl := Option.some.inj (hgroup.symm.trans hg')
    rw [hframe.myPeerId]
    exact (h.ensureGroup draws).removePeer (hsafe rfl)
  | @synced peerId payload nowMs clockMs draws request _ hframe _ hgroup =>
    obtain rfl := Option.some.inj (hgroup.symm.trans hg')
    obtain ⟨n, -, hrenews⟩ := (core.routes.ensureGroup network draws).syncRouteInfo_renews
      core.routes.myPeerId crates.prost peerId request nowMs
    rw [hframe.myPeerId]
    exact (h.ensureGroup draws).renews hrenews
  | @committed peerId payload nowMs draws _ _ _ _ _ hframe _ _ _ _ hgroup =>
    obtain rfl := Option.some.inj (hgroup.symm.trans hg')
    rw [hframe.myPeerId]
    exact (h.ensureGroup draws).of_topology rfl rfl rfl
  | @built peerId sessionId forceFull nowMs draws ids _ hmine _ _ hgroup =>
    obtain rfl := Option.some.inj (hgroup.symm.trans hg')
    rw [hmine]
    have hopen : CacheExact core.routes.myPeerId (core.updateGroup network peerId sessionId draws) :=
      (h.ensureGroup draws).of_topology rfl rfl rfl
    exact (connInfoFor_of_exact hopen (hsafe rfl)).2
  | @swept nowMs clockMs g _ hframe hg hgroup =>
    obtain rfl := Option.some.inj (hgroup.symm.trans hg')
    obtain ⟨n, -, hrenews⟩ := g.sweep_renews core.routes.myPeerId nowMs
    rw [hframe.myPeerId]
    exact (h g hg).renews hrenews

/-- In every run all of whose calls are safe, the caches are exact. -/
theorem caches_exact (ops : List CoreOp)
    (hsafe : Along (fun _ e => CacheSafe network e)
      ((rpcCore crates config).history (rpcCore crates config).init ops)) :
    CachesExact network ((rpcCore crates config).run (rpcCore crates config).init ops) :=
  Machine.history_invariant (P := fun _ core => CachesExact network core)
    (fun g hg => by simp [rpcCore, WasmRpcCore.new] at hg) (fun _ _ op h hop => h.step op hop) ops hsafe

end Runs

/-- In every run all of whose calls are safe, the connection info of every update is the
    one that would be built with both caches emptied, and so is the whole update. -/
theorem conn_info_cache_transparent (crates : RpcCrates) (config : CoreConfig) (network : String)
    (ops : List CoreOp)
    (hsafe : Along (fun _ e => CacheSafe network e)
      ((rpcCore crates config).history (rpcCore crates config).init ops))
    {e : CoreEvent} (he : e ∈ (rpcCore crates config).history (rpcCore crates config).init ops)
    {peerId : UInt32} {sessionId : UInt64} {forceFull : Bool} {nowMs : UInt64} {draws : GroupDraws}
    {ids : Vector (Except String UInt64) 16}
    (hbuild : e.input = .buildRouteUpdate network peerId sessionId forceFull nowMs draws ids) :
    let g := e.pre.routes.ensureGroup network draws
    (g.openSession peerId sessionId).connInfoFor e.pre.routes.myPeerId peerId nowMs =
        (g.uncached.openSession peerId sessionId).connInfoFor e.pre.routes.myPeerId peerId nowMs ∧
      ∀ weAreInitiator,
        (g.buildSyncRouteInfoRequest e.pre.routes.myPeerId crates.prost peerId sessionId weAreInitiator
            forceFull nowMs).1 =
          (g.uncached.buildSyncRouteInfoRequest e.pre.routes.myPeerId crates.prost peerId sessionId
            weAreInitiator forceFull nowMs).1 := by
  obtain ⟨before, after, hsplit⟩ := List.append_of_mem he
  have hsafe' := hsafe before e after hsplit
  obtain ⟨js, op, ks, rfl, rfl, rfl⟩ := Machine.history_split hsplit
  rw [Machine.history_append] at hsafe
  have hexact := caches_exact js hsafe.append_left
  simp only [Machine.event] at hbuild hsafe' ⊢
  subst hbuild
  have hopen : CacheExact
      ((rpcCore crates config).run (rpcCore crates config).init js).routes.myPeerId
      (((rpcCore crates config).run (rpcCore crates config).init js).updateGroup network peerId
        sessionId draws) := (hexact.ensureGroup draws).of_topology rfl rfl rfl
  have hconn := (connInfoFor_of_exact hopen (hsafe' rfl)).1
  refine ⟨hconn, fun weAreInitiator => ?_⟩
  rw [buildSyncRouteInfoRequest_eq, buildSyncRouteInfoRequest_eq]
  exact congrArg (Except.map _) hconn

open RouteSample

/-- An update for the second member after one for the first member is served from the
    cache, as without it. -/
theorem conn_info_cached_for_second :
    let g := (coreAfter [join 1 1000, join 2 1000, build 1 true 1 2000]).routes.ensureGroup "net" draws
    g.cachedConnBitmap.isSome ∧
      (g.openSession 2 4).connInfoFor relay 2 2000 =
        (g.uncached.openSession 2 4).connInfoFor relay 2 2000 :=
  ⟨by decide +kernel,
    (conn_info_cache_transparent crates config "net"
      [join 1 1000, join 2 1000, build 1 true 1 2000, build 2 true 2 2000] (by decide +kernel)
      (e := (rpcCore crates config).event (coreAfter [join 1 1000, join 2 1000, build 1 true 1 2000])
        (build 2 true 2 2000))
      (by simp [coreAfter]) rfl).1⟩

/-- The second member is silent, and swept. An update that is still built for it stays in
    the cache: the first member gets a row of the removed one. -/
theorem stranger_in_cache :
    let g := (coreAfter [join 1 0, join 2 0, join 1 80000, .cleanExpired 100000 100000,
      build 2 true 1 100000]).routes.ensureGroup "net" draws
    2 ∉ g.knownIds ∧
      (g.openSession 1 4).connInfoFor relay 1 100000 ≠
        (g.uncached.openSession 1 4).connInfoFor relay 1 100000 := by
  decide +kernel

end EasyTierEdge
