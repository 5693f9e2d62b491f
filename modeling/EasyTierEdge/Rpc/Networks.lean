import EasyTierEdge.Lib.Unwinding
import EasyTierEdge.PeerCenter.Latest
import EasyTierEdge.Route.Sweep
import EasyTierEdge.Rpc.Isolation
import EasyTierEdge.Rpc.Members

/-!
# Networks are isolated

The networks of a relay share its core. What a network sees of the core, that is what is returned
by the calls made for it and what the sweeps report of it, only depends on these calls and sweeps
(`networks_isolated`): whatever is done for the other networks in between, by whomever and with
whatever bytes, is not noticed, as long as the clock does not go back and no packet of the network
meets a limit on the fragments of all networks.

* `RouteState.SameIn`, `WasmRpcCore.SameIn`: what a network cannot tell apart. A transaction that
  has expired counts as gone: a call for another network may be the one that removes it;
* `WasmRpcCore.step_elsewhere`: a call for another network is not noticed;
* `WasmRpcCore.SameIn.step`: a call for the network returns the same in both cores.
-/

namespace EasyTierEdge

/-! ## Routes -/

namespace RouteState

/-- The routes of a network are the same. -/
structure SameIn (network : String) (r₁ r₂ : RouteState) : Prop where
  group : r₁.groups.lookup network = r₂.groups.lookup network
  override : r₁.routeIdOverrides.lookup network = r₂.routeIdOverrides.lookup network
  myPeerId : r₁.myPeerId = r₂.myPeerId

namespace SameIn

variable {network : String} {r r₁ r₂ r₃ : RouteState}

theorem refl (network : String) (r : RouteState) : r.SameIn network r := ⟨rfl, rfl, rfl⟩

theorem symm (h : r₁.SameIn network r₂) : r₂.SameIn network r₁ :=
  ⟨h.group.symm, h.override.symm, h.myPeerId.symm⟩

theorem trans (h : r₁.SameIn network r₂) (h' : r₂.SameIn network r₃) : r₁.SameIn network r₃ :=
  ⟨h.group.trans h'.group, h.override.trans h'.override, h.myPeerId.trans h'.myPeerId⟩

theorem ensureGroup (h : r₁.SameIn network r₂) (draws : GroupDraws) :
    r₁.ensureGroup network draws = r₂.ensureGroup network draws := by
  rw [RouteState.ensureGroup, RouteState.ensureGroup, h.group, h.override, h.myPeerId]

theorem withGroup (h : r₁.SameIn network r₂) (g : RouteGroupData) :
    (r₁.withGroup network g).SameIn network (r₂.withGroup network g) where
  group := by rw [lookup_withGroup, lookup_withGroup, if_pos rfl, if_pos rfl]
  override := by
    rw [RouteState.withGroup, RouteState.withGroup, Finmap.lookup_erase, Finmap.lookup_erase]
  myPeerId := h.myPeerId

theorem addPeer (h : r₁.SameIn network r₂) (peerId : PeerId) (publicKey : Bytes) (nowMs : UInt64)
    (draws : GroupDraws) :
    (∃ e, r₁.addPeer network peerId publicKey nowMs draws = .error e ∧
        r₂.addPeer network peerId publicKey nowMs draws = .error e) ∨
      ∃ r₁' r₂', r₁.addPeer network peerId publicKey nowMs draws = .ok r₁' ∧
        r₂.addPeer network peerId publicKey nowMs draws = .ok r₂' ∧ r₁'.SameIn network r₂' := by
  rw [RouteState.addPeer, RouteState.addPeer, h.ensureGroup, h.myPeerId]
  split_ifs
  · exact .inl ⟨_, rfl, rfl⟩
  · exact .inr ⟨_, _, rfl, rfl, h.withGroup _⟩

/-- Work on the group of another network. -/
theorem of_ne {network' : String} (hne : network ≠ network') (r : RouteState) (g : RouteGroupData) :
    (r.withGroup network' g).SameIn network r where
  group := Finmap.lookup_insert_of_ne _ hne
  override := Finmap.lookup_erase_ne hne
  myPeerId := rfl

theorem sweep (h : r₁.SameIn network r₂) (nowMs : UInt64) :
    (r₁.sweepExpiredRouteInfo nowMs).SameIn network (r₂.sweepExpiredRouteInfo nowMs) where
  group := by
    rw [sweepExpiredRouteInfo, sweepExpiredRouteInfo, Finmap.lookup_mapValues,
      Finmap.lookup_mapValues, h.group, h.myPeerId]
  override := h.override
  myPeerId := h.myPeerId

/-- A sweep reports the same of the network. -/
theorem routeChanged_iff (h : r₁.SameIn network r₂) (nowMs : UInt64) :
    network ∈ (r₁.sweepOutcome nowMs).routeChangedNetworks ↔
      network ∈ (r₂.sweepOutcome nowMs).routeChangedNetworks := by
  rw [mem_routeChangedNetworks, mem_routeChangedNetworks, h.group, h.myPeerId]

theorem dead_iff (h : r₁.SameIn network r₂) (nowMs : UInt64) (pid : PeerId) :
    deadEntry network pid ∈ (r₁.sweepOutcome nowMs).deadDirectPeers ↔
      deadEntry network pid ∈ (r₂.sweepOutcome nowMs).deadDirectPeers := by
  have hdead : ∀ r : RouteState, deadEntry network pid ∈ (r.sweepOutcome nowMs).deadDirectPeers ↔
      ∃ g, r.groups.lookup network = some g ∧ pid ∈ g.deadDirect nowMs := by
    intro r
    rw [mem_deadDirectPeers]
    constructor
    · rintro ⟨network', g, pid', hg, hpid, heq⟩
      obtain ⟨rfl, rfl⟩ := deadEntry_injective heq
      exact ⟨g, hg, hpid⟩
    · rintro ⟨g, hg, hpid⟩
      exact ⟨network, g, pid, hg, hpid, rfl⟩
  rw [hdead, hdead, h.group]

end SameIn

end RouteState

/-! ## The peer center -/

namespace PeerCenter

variable {hash : PeerMapHash} {network : String} {center₁ center₂ : PeerCenter}

theorem lookup_removePeer_congr (h : center₁.lookup network = center₂.lookup network)
    (peerId : UInt32) : (center₁.removePeer hash network peerId).lookup network =
      (center₂.removePeer hash network peerId).lookup network := by
  rw [removePeer, removePeer, ← h]
  cases hlookup : center₁.lookup network with
  | none => rw [hlookup, ← h, hlookup]
  | some data =>
    dsimp only
    split_ifs
    · rw [Finmap.lookup_erase, Finmap.lookup_erase]
    · rw [Finmap.lookup_insert, Finmap.lookup_insert]

end PeerCenter

/-! ## The core -/

namespace WasmRpcCore

/-- What the host set up. -/
def setup (core : WasmRpcCore) : Bytes × String × UInt32 × Bool :=
  (core.publicKey, core.hostname, core.serverPeerId, core.avoidRelayData)

/-- A network has the same routes and reports, and the same peers are initiators. -/
structure SameParts (network : String) (core₁ core₂ : WasmRpcCore) : Prop where
  routes : core₁.routes.SameIn network core₂.routes
  center : core₁.peerCenter.lookup network = core₂.peerCenter.lookup network
  configured : network ∈ core₁.configuredGroups ↔ network ∈ core₂.configuredGroups
  initiator : ∀ peerId, core₁.peerInitiator.lookup (network, peerId) =
    core₂.peerInitiator.lookup (network, peerId)
  setup : core₁.setup = core₂.setup

/-- The transaction under a key, unless it has expired. -/
def outstandingAt (core : WasmRpcCore) (nowMs : UInt64) (key : RpcKey) : Option OutstandingRoute :=
  (core.outstandingRoutes.lookup key).filter fun o => nowMs ≤ o.deadlineMs

/-- Two cores that a network cannot tell apart from the given times on. -/
structure SameIn (network : String) (sinceMs₁ sinceMs₂ : UInt64) (core₁ core₂ : WasmRpcCore) : Prop
    extends SameParts network core₁ core₂ where
  fragments : ∀ peerId laterMs, sinceMs₁ ≤ laterMs → sinceMs₂ ≤ laterMs →
    (core₁.fragments.cleanPending laterMs).SameFor (network, peerId)
      (core₂.fragments.cleanPending laterMs)
  outstanding : ∀ key : RpcKey, key.network = network → ∀ laterMs, sinceMs₁ ≤ laterMs →
    sinceMs₂ ≤ laterMs → core₁.outstandingAt laterMs key = core₂.outstandingAt laterMs key

namespace SameParts

variable {network : String} {core core₁ core₂ core₃ : WasmRpcCore}

theorem refl (network : String) (core : WasmRpcCore) : core.SameParts network core :=
  ⟨.refl network _, rfl, .rfl, fun _ => rfl, rfl⟩

theorem symm (h : core₁.SameParts network core₂) : core₂.SameParts network core₁ :=
  ⟨h.routes.symm, h.center.symm, h.configured.symm, fun peerId => (h.initiator peerId).symm,
    h.setup.symm⟩

theorem trans (h : core₁.SameParts network core₂) (h' : core₂.SameParts network core₃) :
    core₁.SameParts network core₃ :=
  ⟨h.routes.trans h'.routes, h.center.trans h'.center, h.configured.trans h'.configured,
    fun peerId => (h.initiator peerId).trans (h'.initiator peerId), h.setup.trans h'.setup⟩

theorem publicKey (h : core₁.SameParts network core₂) : core₁.publicKey = core₂.publicKey :=
  congrArg (fun x => x.1) h.setup

theorem hostname (h : core₁.SameParts network core₂) : core₁.hostname = core₂.hostname :=
  congrArg (fun x => x.2.1) h.setup

theorem serverPeerId (h : core₁.SameParts network core₂) : core₁.serverPeerId = core₂.serverPeerId :=
  congrArg (fun x => x.2.2.1) h.setup

theorem avoidRelayData (h : core₁.SameParts network core₂) :
    core₁.avoidRelayData = core₂.avoidRelayData :=
  congrArg (fun x => x.2.2.2) h.setup

end SameParts

/-! ### Calls of the peers -/

/-- Two results that agree, and leave cores that a relation holds of. -/
inductive Paired {α : Type} (R : WasmRpcCore → WasmRpcCore → Prop) :
    Except String (α × WasmRpcCore) → Except String (α × WasmRpcCore) → Prop
  | error (e : String) : Paired R (.error e) (.error e)
  | ok {core₁ core₂ : WasmRpcCore} (v : α) (h : R core₁ core₂) :
    Paired R (.ok (v, core₁)) (.ok (v, core₂))

theorem Paired.of_fst {α : Type} {R : WasmRpcCore → WasmRpcCore → Prop} {x y : α × WasmRpcCore}
    (h : x.1 = y.1) (hR : R x.2 y.2) : Paired R (.ok x) (.ok y) := by
  obtain ⟨v, core₁⟩ := x
  obtain ⟨w, core₂⟩ := y
  obtain rfl : v = w := h
  exact .ok v hR

section Serving

variable {crates : RpcCrates} {network network' : String} {peerId : UInt32}
  {core core₁ core₂ : WasmRpcCore} {nowMs clockMs : UInt64} {draws : GroupDraws}

theorem serveRoute_same (h : core₁.SameParts network core₂) (crates : RpcCrates)
    (peerId : UInt32) (request : Bytes) (nowMs : UInt64) (draws : GroupDraws) :
    (core₁.serveRoute crates network peerId request nowMs draws).1 =
        (core₂.serveRoute crates network peerId request nowMs draws).1 ∧
      (core₁.serveRoute crates network peerId request nowMs draws).2.SameParts network
        (core₂.serveRoute crates network peerId request nowMs draws).2 := by
  have hinitiator : ∀ b peer, (core₁.peerInitiator.insert (network, peerId) b).lookup (network, peer) =
      (core₂.peerInitiator.insert (network, peerId) b).lookup (network, peer) := by
    intro b peer
    rw [Finmap.lookup_insert_ite, Finmap.lookup_insert_ite, h.initiator]
  simp only [serveRoute, RouteState.handleSyncRouteInfoRequest]
  cases crates.prost.decodeSyncRouteInfoRequest request with
  | error e => exact ⟨rfl, h.routes, h.center, h.configured, hinitiator _, h.setup⟩
  | ok sync =>
    dsimp only
    by_cases hid : sync.myPeerId ≠ peerId
    · simp only [if_pos hid]
      exact ⟨trivial, h.routes, h.center, h.configured, hinitiator _, h.setup⟩
    · simp only [if_neg hid, h.routes.ensureGroup, h.routes.myPeerId]
      exact ⟨trivial, h.routes.withGroup _, h.center, h.configured, hinitiator _, h.setup⟩

theorem serveRoute_elsewhere (hne : network ≠ network') (request : Bytes) :
    (core.serveRoute crates network' peerId request nowMs draws).2.SameParts network core := by
  have hinitiator : ∀ b peer, (core.peerInitiator.insert (network', peerId) b).lookup (network, peer) =
      core.peerInitiator.lookup (network, peer) :=
    fun b peer => Finmap.lookup_insert_of_ne _ fun heq => hne (Prod.mk.inj heq).1
  simp only [serveRoute, RouteState.handleSyncRouteInfoRequest]
  cases crates.prost.decodeSyncRouteInfoRequest request with
  | error e => exact ⟨.refl _ _, rfl, .rfl, hinitiator _, rfl⟩
  | ok sync =>
    dsimp only
    by_cases hid : sync.myPeerId ≠ peerId
    · simp only [if_pos hid]
      exact ⟨.refl _ _, rfl, .rfl, hinitiator _, rfl⟩
    · simp only [if_neg hid]
      exact ⟨.of_ne hne _ _, rfl, .rfl, hinitiator _, rfl⟩

theorem serve_same (h : core₁.SameParts network core₂) (crates : RpcCrates) (peerId : UInt32)
    (descriptor : RpcDescriptor) (request : Bytes) (nowMs clockMs : UInt64) (draws : GroupDraws) :
    Paired (SameParts network)
      (core₁.serve crates network peerId descriptor request nowMs clockMs draws)
      (core₂.serve crates network peerId descriptor request nowMs clockMs draws) := by
  have hcenter : ∀ {c₁ c₂ : PeerCenter}, c₁.lookup network = c₂.lookup network →
      SameParts network { core₁ with peerCenter := c₁ } { core₂ with peerCenter := c₂ } :=
    fun hlookup => ⟨h.routes, hlookup, h.configured, h.initiator, h.setup⟩
  unfold serve
  split_ifs
  · exact .ok _ h
  · obtain ⟨hreply, hparts⟩ := serveRoute_same h crates peerId request nowMs draws
    exact .of_fst hreply hparts
  · rw [PeerCenter.reportPeers, PeerCenter.reportPeers]
    cases crates.prost.decodeReportPeersRequest request with
    | error e => exact .error _
    | ok report =>
      dsimp only
      split_ifs
      · exact .error _
      · refine .ok _ (hcenter ?_)
        rw [Finmap.lookup_upsert, Finmap.lookup_upsert, h.center]
  · rw [PeerCenter.getGlobalPeerMap, PeerCenter.getGlobalPeerMap]
    cases crates.prost.decodeGetGlobalPeerMapRequest request with
    | error e => exact .error _
    | ok question =>
      dsimp only
      rw [h.center]
      refine .ok _ (hcenter ?_)
      rw [Finmap.lookup_insert, Finmap.lookup_insert]
  · exact .ok _ h
  · exact .ok _ h

theorem serve_elsewhere (hne : network ≠ network') {descriptor : RpcDescriptor} {request : Bytes}
    {result : Reply × WasmRpcCore}
    (h : core.serve crates network' peerId descriptor request nowMs clockMs draws = .ok result) :
    result.2.SameParts network core := by
  have hcenter : ∀ {c : PeerCenter}, c.lookup network = core.peerCenter.lookup network →
      SameParts network { core with peerCenter := c } core :=
    fun hlookup => ⟨.refl _ _, hlookup, .rfl, fun _ => rfl, rfl⟩
  unfold serve at h
  split_ifs at h
  · obtain rfl := Except.ok.inj h
    exact .refl _ _
  · obtain rfl := Except.ok.inj h
    exact serveRoute_elsewhere hne request
  · obtain ⟨⟨bytes, center⟩, hreport, rfl⟩ := Except.map_eq_ok.1 h
    refine hcenter ?_
    rw [PeerCenter.reportPeers] at hreport
    cases hdecode : crates.prost.decodeReportPeersRequest request with
    | error e => simp [hdecode] at hreport
    | ok report =>
      simp only [hdecode] at hreport
      split_ifs at hreport
      obtain ⟨-, rfl⟩ := Prod.mk.inj (Except.ok.inj hreport)
      rw [Finmap.lookup_upsert, if_neg hne]
  · obtain ⟨⟨bytes, center⟩, hget, rfl⟩ := Except.map_eq_ok.1 h
    refine hcenter ?_
    rw [PeerCenter.getGlobalPeerMap] at hget
    cases hdecode : crates.prost.decodeGetGlobalPeerMapRequest request with
    | error e => simp [hdecode] at hget
    | ok question =>
      simp only [hdecode] at hget
      obtain ⟨-, rfl⟩ := Prod.mk.inj (Except.ok.inj hget)
      exact Finmap.lookup_insert_of_ne _ hne
  · obtain rfl := Except.ok.inj h
    exact .refl _ _
  · obtain rfl := Except.ok.inj h
    exact .refl _ _

theorem handleCall_same (h : core₁.SameParts network core₂) (crates : RpcCrates) (peerId : UInt32)
    (packet : RpcPacket) (nowMs clockMs : UInt64) (draws : GroupDraws) :
    Paired (SameParts network) (core₁.handleCall crates network peerId packet nowMs clockMs draws)
      (core₂.handleCall crates network peerId packet nowMs clockMs draws) := by
  have hreply : ∀ {c₁ c₂ : WasmRpcCore}, c₁.SameParts network c₂ → ∀ reply,
      c₁.replyPacket crates peerId packet reply = c₂.replyPacket crates peerId packet reply :=
    fun hparts reply => by rw [replyPacket, replyPacket, hparts.serverPeerId]
  simp only [handleCall]
  cases validateCompression packet with
  | error e => exact .error e
  | ok u =>
    cases packet.descriptor with
    | none => exact .error _
    | some descriptor =>
      cases crates.prost.decodeRpcRequest packet.body with
      | error e => exact .error _
      | ok request =>
        have hserve := serve_same h crates peerId descriptor request.request nowMs clockMs draws
        simp only [bind, Except.bind, Except.mapError]
        generalize core₁.serve crates network peerId descriptor request.request nowMs clockMs draws =
          served₁ at hserve
        generalize core₂.serve crates network peerId descriptor request.request nowMs clockMs draws =
          served₂ at hserve
        cases hserve with
        | error e => exact .error e
        | ok reply hparts => exact .of_fst (hreply hparts reply) hparts

theorem handleCall_elsewhere (hne : network ≠ network') {packet : RpcPacket}
    {result : Bytes × WasmRpcCore}
    (h : core.handleCall crates network' peerId packet nowMs clockMs draws = .ok result) :
    result.2.SameParts network core := by
  rw [handleCall, Except.bind_eq_ok] at h
  obtain ⟨-, -, h⟩ := h
  cases hdescriptor : packet.descriptor with
  | none => simp [hdescriptor] at h
  | some descriptor =>
    simp only [hdescriptor, Except.bind_eq_ok, Except.pure_eq_ok] at h
    obtain ⟨request, -, ⟨reply, core'⟩, hserve, rfl⟩ := h
    exact serve_elsewhere hne hserve

theorem outstandingRoutes_handleCall {packet : RpcPacket} {result : Bytes × WasmRpcCore}
    (h : core.handleCall crates network peerId packet nowMs clockMs draws = .ok result) :
    result.2.outstandingRoutes = core.outstandingRoutes := by
  rw [handleCall, Except.bind_eq_ok] at h
  obtain ⟨-, -, h⟩ := h
  cases hdescriptor : packet.descriptor with
  | none => simp [hdescriptor] at h
  | some descriptor =>
    simp only [hdescriptor, Except.bind_eq_ok, Except.pure_eq_ok] at h
    obtain ⟨request, -, ⟨reply, core'⟩, hserve, rfl⟩ := h
    exact (serve_eq crates core hserve).1

end Serving

/-! ### Transactions -/

section Outstanding

variable {network network' : String} {peerId : UInt32} {core core₁ core₂ : WasmRpcCore}
  {nowMs laterMs : UInt64} {key : RpcKey}

/-- What has expired stays expired. -/
theorem outstandingAt_eq_filter (hle : nowMs ≤ laterMs) : core.outstandingAt laterMs key =
    (core.outstandingAt nowMs key).filter fun o => laterMs ≤ o.deadlineMs := by
  rw [outstandingAt, outstandingAt, Option.filter_filter]
  congr 1
  funext o
  have himp : laterMs ≤ o.deadlineMs → nowMs ≤ o.deadlineMs := UInt64.le_trans hle
  by_cases ho : laterMs ≤ o.deadlineMs
  · simp [ho, himp ho]
  · simp [ho]

theorem outstandingAt_congr (h : core₁.outstandingRoutes = core₂.outstandingRoutes) :
    core₁.outstandingAt nowMs key = core₂.outstandingAt nowMs key := by
  rw [outstandingAt, h, outstandingAt]

theorem lookup_cleanRpcState (nowMs : UInt64) (key : RpcKey) :
    (core.cleanRpcState nowMs).outstandingRoutes.lookup key = core.outstandingAt nowMs key :=
  Finmap.lookup_retain _ _ _

/-- Dropping what has expired is not noticed later. -/
theorem outstandingAt_cleanRpcState (hle : nowMs ≤ laterMs) :
    (core.cleanRpcState nowMs).outstandingAt laterMs key = core.outstandingAt laterMs key := by
  rw [outstandingAt, lookup_cleanRpcState, ← outstandingAt_eq_filter hle]

end Outstanding

end WasmRpcCore

/-! ### Calls for other networks -/

/-- A call for a network, or a sweep, which is for all of them. -/
def CoreOp.isIn (network : String) : CoreOp → Bool
  | .addPeer network' .. | .removePeer network' .. | .handleRequest network' ..
  | .handleResponse network' .. | .buildRouteUpdate network' .. => network' = network
  | .cleanExpired .. => true

namespace WasmRpcCore

section Elsewhere

variable {crates : RpcCrates} {network network' : String} {peerId : UInt32} {core : WasmRpcCore}
  {sinceMs : UInt64}

/-- The fragments of the peers of a network after a call for another one. -/
theorem fragments_elsewhere {op : CoreOp} (hop : op.isIn network = false)
    {laterMs : UInt64} (hnow : ∀ nowMs ∈ op.nowMs, nowMs ≤ laterMs) (peerId : UInt32) :
    ((core.step crates op).1.fragments.cleanPending laterMs).SameFor (network, peerId)
      (core.fragments.cleanPending laterMs) := by
  have hmerged : ∀ network' peerId' nowMs, network' ≠ network → nowMs ≤ laterMs →
      (core.fragmentCall crates op = .none ∨
        ∃ packet, core.fragmentCall crates op = .merge network' peerId' packet nowMs) →
      ((core.step crates op).1.fragments.cleanPending laterMs).SameFor (network, peerId)
        (core.fragments.cleanPending laterMs) := by
    intro network' peerId' nowMs hne hle hcall
    rw [(core.fragments_step crates op).1]
    rcases hcall with hcall | ⟨packet, hcall⟩
    · rw [hcall]
      exact fun _ _ => rfl
    · rw [hcall]
      exact Fragments.SameFor.of_foreign (fun heq => hne (Prod.mk.inj heq).1) hle
  cases op with
  | addPeer network' peerId' publicKey nowMs draws =>
    rw [(core.fragments_step crates _).1]
    exact fun _ _ => rfl
  | removePeer network' peerId' draws =>
    have hne : network' ≠ network := by simpa [CoreOp.isIn] using hop
    intro key hkey
    have hkeep : (key.network = network' && key.peerId = peerId') = false := by
      obtain ⟨rfl, -⟩ := Prod.mk.inj (RpcKey.isOf_iff.1 hkey)
      simp [Ne.symm hne]
    change ((core.fragments.removeAll _).cleanPending laterMs).pending.lookup key = _
    rw [Fragments.lookup_cleanPending, Fragments.removeAll, Finmap.lookup_retain,
      Fragments.lookup_cleanPending, Option.filter_filter]
    simp [hkeep]
  | handleRequest network' peerId' payload nowMs clockMs draws =>
    exact hmerged network' peerId' nowMs (by simpa [CoreOp.isIn] using hop) (hnow nowMs rfl)
      (core.fragmentCall_handleRequest crates _ _ _ _ _ _)
  | handleResponse network' peerId' payload nowMs draws =>
    exact hmerged network' peerId' nowMs (by simpa [CoreOp.isIn] using hop) (hnow nowMs rfl)
      (core.fragmentCall_handleResponse crates _ _ _ _ _)
  | buildRouteUpdate network' peerId' sessionId forceFull nowMs draws ids =>
    rw [(core.fragments_step crates _).1]
    exact fun key _ => Fragments.lookup_cleanPending_of_le (hnow nowMs rfl)
  | cleanExpired nowMs clockMs => cases hop

/-- The transactions of a network after a call for another one. -/
theorem outstandingAt_elsewhere {op : CoreOp} (hop : op.isIn network = false) {laterMs : UInt64}
    (hnow : ∀ nowMs ∈ op.nowMs, nowMs ≤ laterMs) {key : RpcKey} (hkey : key.network = network) :
    (core.step crates op).1.outstandingAt laterMs key = core.outstandingAt laterMs key := by
  cases op with
  | addPeer network' peerId' publicKey nowMs draws =>
    refine outstandingAt_congr ?_
    simp only [step, addPeer]
    cases core.routes.addPeer network' peerId' publicKey nowMs draws <;> rfl
  | removePeer network' peerId' draws =>
    have hne : key.network ≠ network' := by
      have hne : network' ≠ network := by simpa [CoreOp.isIn] using hop
      exact hkey ▸ hne.symm
    change ((core.outstandingRoutes.retain _).lookup key).filter _ = _
    rw [Finmap.lookup_retain, Option.filter_filter, outstandingAt]
    simp [hne]
  | handleRequest network' peerId' payload nowMs clockMs draws =>
    exact outstandingAt_congr
      (core.handleRequest_routes crates network' peerId' payload nowMs clockMs draws).1
  | handleResponse network' peerId' payload nowMs draws =>
    have hne : key.network ≠ network' := by
      have hne : network' ≠ network := by simpa [CoreOp.isIn] using hop
      exact hkey ▸ hne.symm
    change ((core.handleResponse crates network' peerId' payload nowMs draws).2).outstandingAt
      laterMs key = _
    -- It only ends a transaction of its own network.
    have hended : ∀ key', core.settledKey crates network' peerId' payload nowMs = some key' →
        key' ≠ key := by
      rintro key' hsettled rfl
      exact hne (Prod.mk.inj (RpcKey.isOf_iff.1 (core.isOf_settledKey crates hsettled))).1
    have hsettle : ∀ key', key' ≠ key →
        ((core.outstandingRoutes.erase key').lookup key) = core.outstandingRoutes.lookup key :=
      fun key' hne => Finmap.lookup_erase_ne hne.symm
    rw [← key_examineResponse] at hended
    rw [outstandingAt, outstandingAt]
    congr 1
    unfold handleResponse
    rcases hexamine : core.examineResponse crates network' peerId' payload nowMs with
      ⟨e | _ | key' | _ | _ | key' | ⟨key', o, sessionId⟩, fragments⟩
    · rfl
    · rfl
    · exact hsettle key' (hended key' (by rw [hexamine]; rfl))
    · rfl
    · rfl
    · exact hsettle key' (hended key' (by rw [hexamine]; rfl))
    · exact hsettle key' (hended key' (by rw [hexamine]; rfl))
  | buildRouteUpdate network' peerId' sessionId forceFull nowMs draws ids =>
    have hne : key.network ≠ network' := by
      have hne : network' ≠ network := by simpa [CoreOp.isIn] using hop
      exact hkey ▸ hne.symm
    change ((core.buildRouteUpdate crates network' peerId' sessionId forceFull nowMs draws
      ids).2).outstandingAt laterMs key = _
    have hlookup : (core.buildRouteUpdate crates network' peerId' sessionId forceFull nowMs draws
        ids).2.outstandingRoutes.lookup key = core.outstandingAt nowMs key := by
      rcases core.outstanding_buildRouteUpdate crates network' peerId' sessionId forceFull nowMs
        draws ids with ⟨-, hlookup⟩ | ⟨_, transactionId, o, -, -, hlookup⟩
      · exact hlookup key
      · rw [hlookup, if_neg]
        · rfl
        · rintro rfl
          exact hne rfl
    rw [outstandingAt, hlookup, ← outstandingAt_eq_filter (hnow nowMs rfl)]
  | cleanExpired nowMs clockMs => cases hop

/-- A network has the same routes and reports after a call for another one. -/
theorem sameParts_elsewhere {op : CoreOp} (hop : op.isIn network = false) :
    (core.step crates op).1.SameParts network core := by
  cases op with
  | addPeer network' peerId' publicKey nowMs draws =>
    have hne : network ≠ network' := by simpa [CoreOp.isIn, eq_comm] using hop
    simp only [step, addPeer]
    cases hadd : core.routes.addPeer network' peerId' publicKey nowMs draws with
    | error e => exact .refl _ _
    | ok routes =>
      have hroutes : routes.SameIn network core.routes := by
        unfold RouteState.addPeer at hadd
        split_ifs at hadd
        obtain rfl := Except.ok.inj hadd
        exact .of_ne hne _ _
      refine ⟨?_, rfl, ?_, fun peerId => ?_, rfl⟩
      · dsimp only
        split_ifs
        · exact hroutes
        · exact (RouteState.SameIn.of_ne hne _ _).trans hroutes
      · simp [hne]
      · exact Finmap.lookup_insert_of_ne _ fun heq => hne (Prod.mk.inj heq).1
  | removePeer network' peerId' draws =>
    have hne : network ≠ network' := by simpa [CoreOp.isIn, eq_comm] using hop
    exact ⟨.of_ne hne _ _, PeerCenter.lookup_removePeer_of_ne hne _, .rfl,
      fun peerId => Finmap.lookup_erase_ne fun heq => hne (Prod.mk.inj heq).1, rfl⟩
  | handleRequest network' peerId' payload nowMs clockMs draws =>
    have hne : network ≠ network' := by simpa [CoreOp.isIn, eq_comm] using hop
    have hfragments : ∀ fragments : Fragments,
        SameParts network { core with fragments } core := fun _ => ⟨.refl _ _, rfl, .rfl, fun _ => rfl, rfl⟩
    simp only [step, handleRequest]
    cases crates.prost.decodeRpcPacket payload with
    | error e => exact .refl _ _
    | ok packet =>
      dsimp only
      cases core.validateEnvelope packet network' peerId' true with
      | error e => exact .refl _ _
      | ok u =>
        dsimp only
        rcases core.fragments.mergePacket network' peerId' packet nowMs with
          ⟨e | _ | merged, fragments⟩
        · exact hfragments fragments
        · exact hfragments fragments
        · dsimp only
          cases hcall : ({ core with fragments } : WasmRpcCore).handleCall crates network' peerId'
            merged nowMs clockMs draws with
          | error e => exact hfragments fragments
          | ok result => exact (handleCall_elsewhere hne hcall).trans (hfragments fragments)
  | handleResponse network' peerId' payload nowMs draws =>
    have hne : network ≠ network' := by simpa [CoreOp.isIn, eq_comm] using hop
    simp only [step, handleResponse]
    rcases core.examineResponse crates network' peerId' payload nowMs with
      ⟨e | _ | key' | _ | _ | key' | ⟨key', o, sessionId⟩, fragments⟩
    all_goals first
      | exact ⟨.refl _ _, rfl, .rfl, fun _ => rfl, rfl⟩
      | exact ⟨.of_ne hne _ _, rfl, .rfl, fun _ => rfl, rfl⟩
  | buildRouteUpdate network' peerId' sessionId forceFull nowMs draws ids =>
    have hne : network ≠ network' := by simpa [CoreOp.isIn, eq_comm] using hop
    have hbuilt : (core.step crates (.buildRouteUpdate network' peerId' sessionId forceFull nowMs
        draws ids)).1 = (core.buildRouteUpdate crates network' peerId' sessionId forceFull nowMs draws
          ids).2 := rfl
    rw [hbuilt, buildRouteUpdate_snd]
    exact ⟨.of_ne hne _ _, rfl, .rfl, fun _ => rfl, rfl⟩
  | cleanExpired nowMs clockMs => cases hop

/-- A call for another network is not noticed. -/
theorem step_elsewhere {op : CoreOp} (hop : op.isIn network = false) (sinceMs : UInt64) :
    (core.step crates op).1.SameIn network (op.nowMs.getD sinceMs) sinceMs core where
  toSameParts := sameParts_elsewhere hop
  fragments peerId laterMs hlater _ := by
    refine fragments_elsewhere hop (fun nowMs hnow => ?_) peerId
    rw [hnow] at hlater
    exact hlater
  outstanding key hkey laterMs hlater _ := by
    refine outstandingAt_elsewhere hop (fun nowMs hnow => ?_) hkey
    rw [hnow] at hlater
    exact hlater

end Elsewhere

namespace SameIn

variable {network : String} {sinceMs₁ sinceMs₂ sinceMs₃ : UInt64} {core₁ core₂ core₃ : WasmRpcCore}

theorem symm (h : core₁.SameIn network sinceMs₁ sinceMs₂ core₂) :
    core₂.SameIn network sinceMs₂ sinceMs₁ core₁ where
  toSameParts := h.toSameParts.symm
  fragments peerId laterMs h₁ h₂ key hkey := (h.fragments peerId laterMs h₂ h₁ key hkey).symm
  outstanding key hkey laterMs h₁ h₂ := (h.outstanding key hkey laterMs h₂ h₁).symm

theorem trans (h : core₁.SameIn network sinceMs₁ sinceMs₂ core₂) (hle : sinceMs₂ ≤ sinceMs₁)
    (h' : core₂.SameIn network sinceMs₂ sinceMs₃ core₃) :
    core₁.SameIn network sinceMs₁ sinceMs₃ core₃ where
  toSameParts := h.toSameParts.trans h'.toSameParts
  fragments peerId laterMs h₁ h₃ key hkey :=
    (h.fragments peerId laterMs h₁ (UInt64.le_trans hle h₁) key hkey).trans
      (h'.fragments peerId laterMs (UInt64.le_trans hle h₁) h₃ key hkey)
  outstanding key hkey laterMs h₁ h₃ :=
    (h.outstanding key hkey laterMs h₁ (UInt64.le_trans hle h₁)).trans
      (h'.outstanding key hkey laterMs (UInt64.le_trans hle h₁) h₃)

/-- A packet of the network meets the same fate in both cores. -/
theorem merge {nowMs : UInt64} (h : core₁.SameIn network nowMs nowMs core₂) (peerId : UInt32)
    (packet : RpcPacket)
    (hlimit₁ : ¬Fragments.LimitExceeded (core₁.fragments.mergePacket network peerId packet nowMs).1)
    (hlimit₂ : ¬Fragments.LimitExceeded (core₂.fragments.mergePacket network peerId packet nowMs).1) :
    (core₁.fragments.mergePacket network peerId packet nowMs).1 =
        (core₂.fragments.mergePacket network peerId packet nowMs).1 ∧
      ∀ peerId' laterMs, nowMs ≤ laterMs →
        ((core₁.fragments.mergePacket network peerId packet nowMs).2.cleanPending laterMs).SameFor
          (network, peerId')
          ((core₂.fragments.mergePacket network peerId packet nowMs).2.cleanPending laterMs) := by
  obtain ⟨houtcome, hafter⟩ := Fragments.mergePacket_same (q := (network, peerId))
    (h.fragments peerId nowMs UInt64.le_rfl UInt64.le_rfl) hlimit₁ hlimit₂
  refine ⟨houtcome, fun peerId' laterMs hle => ?_⟩
  by_cases hpeer : peerId = peerId'
  · rw [← hpeer]
    exact hafter laterMs hle
  · -- The packet is one of another peer of the network.
    have hforeign : (network, peerId) ≠ (network, peerId') := fun heq => hpeer (Prod.mk.inj heq).2
    have hbefore := h.fragments peerId' laterMs hle hle
    intro key hkey
    exact (Fragments.SameFor.of_foreign hforeign hle key hkey).trans ((hbefore key hkey).trans
      (Fragments.SameFor.of_foreign hforeign hle key hkey).symm)

theorem validateEnvelope (h : core₁.SameIn network sinceMs₁ sinceMs₂ core₂) (packet : RpcPacket)
    (peerId : UInt32) (isRequest : Bool) :
    core₁.validateEnvelope packet network peerId isRequest =
      core₂.validateEnvelope packet network peerId isRequest := by
  rw [WasmRpcCore.validateEnvelope, WasmRpcCore.validateEnvelope, h.serverPeerId]

theorem refl (network : String) (sinceMs₁ sinceMs₂ : UInt64) (core : WasmRpcCore) :
    core.SameIn network sinceMs₁ sinceMs₂ core where
  toSameParts := .refl network core
  fragments _ _ _ _ _ _ := rfl
  outstanding _ _ _ _ _ := rfl

section Now

variable {nowMs : UInt64}

/-- Cores that have not changed but for the time. -/
theorem later (h : core₁.SameIn network sinceMs₁ sinceMs₂ core₂) (hsince₁ : sinceMs₁ ≤ nowMs)
    (hsince₂ : sinceMs₂ ≤ nowMs) : core₁.SameIn network nowMs nowMs core₂ where
  toSameParts := h.toSameParts
  fragments peerId laterMs h₁ h₂ :=
    h.fragments peerId laterMs (UInt64.le_trans hsince₁ h₁) (UInt64.le_trans hsince₂ h₂)
  outstanding key hkey laterMs h₁ h₂ :=
    h.outstanding key hkey laterMs (UInt64.le_trans hsince₁ h₁) (UInt64.le_trans hsince₂ h₂)

/-- Fragments that are the same for the network. -/
theorem withFragments (h : core₁.SameIn network nowMs nowMs core₂) {f₁ f₂ : Fragments}
    (hf : ∀ peerId laterMs, nowMs ≤ laterMs →
      (f₁.cleanPending laterMs).SameFor (network, peerId) (f₂.cleanPending laterMs)) :
    SameIn network nowMs nowMs { core₁ with fragments := f₁ } { core₂ with fragments := f₂ } where
  toSameParts := ⟨h.routes, h.center, h.configured, h.initiator, h.setup⟩
  fragments peerId laterMs h₁ _ := hf peerId laterMs h₁
  outstanding key hkey laterMs h₁ h₂ := h.outstanding key hkey laterMs h₁ h₂

/-- Work on the group of the network. -/
theorem withGroup (h : core₁.SameIn network sinceMs₁ sinceMs₂ core₂) (g : RouteGroupData) :
    SameIn network sinceMs₁ sinceMs₂ { core₁ with routes := core₁.routes.withGroup network g }
      { core₂ with routes := core₂.routes.withGroup network g } where
  toSameParts := ⟨h.routes.withGroup g, h.center, h.configured, h.initiator, h.setup⟩
  fragments peerId laterMs h₁ h₂ := h.fragments peerId laterMs h₁ h₂
  outstanding key hkey laterMs h₁ h₂ := h.outstanding key hkey laterMs h₁ h₂

/-- Work on the parts that leaves the fragments and the transactions alone. -/
theorem withParts (h : core₁.SameIn network sinceMs₁ sinceMs₂ core₂) {core₁' core₂' : WasmRpcCore}
    (hparts : core₁'.SameParts network core₂') (hf₁ : core₁'.fragments = core₁.fragments)
    (hf₂ : core₂'.fragments = core₂.fragments)
    (ho₁ : core₁'.outstandingRoutes = core₁.outstandingRoutes)
    (ho₂ : core₂'.outstandingRoutes = core₂.outstandingRoutes) :
    core₁'.SameIn network sinceMs₁ sinceMs₂ core₂' where
  toSameParts := hparts
  fragments peerId laterMs h₁ h₂ := by
    rw [hf₁, hf₂]
    exact h.fragments peerId laterMs h₁ h₂
  outstanding key hkey laterMs h₁ h₂ := by
    rw [outstandingAt_congr ho₁, outstandingAt_congr ho₂]
    exact h.outstanding key hkey laterMs h₁ h₂

theorem settle (h : core₁.SameIn network sinceMs₁ sinceMs₂ core₂) (key : RpcKey) :
    (core₁.settle key).SameIn network sinceMs₁ sinceMs₂ (core₂.settle key) where
  toSameParts := ⟨h.routes, h.center, h.configured, h.initiator, h.setup⟩
  fragments peerId laterMs h₁ h₂ := h.fragments peerId laterMs h₁ h₂
  outstanding key' hkey' laterMs h₁ h₂ := by
    have hsame := h.outstanding key' hkey' laterMs h₁ h₂
    rw [outstandingAt, outstandingAt] at hsame
    rw [outstandingAt, WasmRpcCore.settle, Finmap.lookup_erase_ite, outstandingAt,
      WasmRpcCore.settle, Finmap.lookup_erase_ite]
    split_ifs
    · rfl
    · exact hsame

theorem commit (h : core₁.SameIn network sinceMs₁ sinceMs₂ core₂) (peerId : UInt32)
    (outstanding : OutstandingRoute) (sessionId nowMs : UInt64) (draws : GroupDraws) :
    (core₁.commit network peerId outstanding sessionId nowMs draws).SameIn network sinceMs₁ sinceMs₂
      (core₂.commit network peerId outstanding sessionId nowMs draws) := by
  rw [WasmRpcCore.commit, WasmRpcCore.commit, h.initiator, h.routes.ensureGroup]
  exact h.withGroup _

/-- Forgetting a transaction that has expired. -/
theorem settle_gone {core : WasmRpcCore} {key : RpcKey} (hgone : core.outstandingAt nowMs key = none) :
    (core.settle key).SameIn network nowMs nowMs core where
  toSameParts := ⟨.refl network _, rfl, .rfl, fun _ => rfl, rfl⟩
  fragments _ _ _ _ _ _ := rfl
  outstanding key' _ laterMs hlater _ := by
    by_cases hkey : key' = key
    · rw [hkey, @outstandingAt_eq_filter core _ _ _ hlater, hgone, outstandingAt,
        WasmRpcCore.settle, Finmap.lookup_erase]
    · rw [outstandingAt, WasmRpcCore.settle, Finmap.lookup_erase_ne hkey, outstandingAt]

theorem cleanRpcState (h : core₁.SameIn network nowMs nowMs core₂) :
    (core₁.cleanRpcState nowMs).SameIn network nowMs nowMs (core₂.cleanRpcState nowMs) where
  toSameParts := ⟨h.routes, h.center, h.configured, h.initiator, h.setup⟩
  fragments peerId laterMs hlater _ key hkey := by
    rw [WasmRpcCore.cleanRpcState, WasmRpcCore.cleanRpcState,
      Fragments.lookup_cleanPending_of_le hlater, Fragments.lookup_cleanPending_of_le hlater]
    exact h.fragments peerId laterMs hlater hlater key hkey
  outstanding key hkey laterMs hlater _ := by
    rw [outstandingAt_cleanRpcState hlater, outstandingAt_cleanRpcState hlater]
    exact h.outstanding key hkey laterMs hlater hlater

end Now

/-! ### Calls for the network -/

section Own

variable {crates : RpcCrates} {peerId : UInt32} {payload : Bytes} {nowMs clockMs : UInt64}
  {draws : GroupDraws}

theorem addPeer (h : core₁.SameIn network nowMs nowMs core₂) (crates : RpcCrates) (peerId : UInt32)
    (publicKey : Bytes) (draws : GroupDraws) :
    (core₁.step crates (.addPeer network peerId publicKey nowMs draws)).2 =
        (core₂.step crates (.addPeer network peerId publicKey nowMs draws)).2 ∧
      (core₁.step crates (.addPeer network peerId publicKey nowMs draws)).1.SameIn network nowMs nowMs
        (core₂.step crates (.addPeer network peerId publicKey nowMs draws)).1 := by
  rw [WasmRpcCore.step, WasmRpcCore.step, WasmRpcCore.addPeer, WasmRpcCore.addPeer]
  rcases h.routes.addPeer peerId publicKey nowMs draws with
    ⟨e, he₁, he₂⟩ | ⟨routes₁, routes₂, hr₁, hr₂, hroutes⟩
  · rw [he₁, he₂]
    exact ⟨rfl, h⟩
  · rw [hr₁, hr₂]
    refine ⟨rfl, h.withParts ⟨?_, h.center, ?_, fun peer => ?_, h.setup⟩ rfl rfl rfl rfl⟩
    · have hconfigure : core₁.configureGroup = core₂.configureGroup := by
        funext g
        rw [configureGroup, configureGroup, h.hostname, h.publicKey, h.avoidRelayData]
      dsimp only
      by_cases hconfigured : network ∈ core₂.configuredGroups
      · rw [if_pos hconfigured, if_pos (h.configured.2 hconfigured)]
        exact hroutes
      · rw [if_neg hconfigured, if_neg fun hmem => hconfigured (h.configured.1 hmem),
          hroutes.ensureGroup, hconfigure]
        exact hroutes.withGroup _
    · simp
    · dsimp only
      rw [Finmap.lookup_insert_ite, Finmap.lookup_insert_ite, h.initiator]

theorem removePeer (h : core₁.SameIn network sinceMs₁ sinceMs₂ core₂) (crates : RpcCrates)
    (peerId : UInt32) (draws : GroupDraws) :
    (core₁.removePeer crates network peerId draws).SameIn network sinceMs₁ sinceMs₂
      (core₂.removePeer crates network peerId draws) where
  routes := by
    rw [WasmRpcCore.removePeer, WasmRpcCore.removePeer, RouteState.removePeer,
      RouteState.removePeer, h.routes.ensureGroup, h.routes.myPeerId]
    exact h.routes.withGroup _
  center := PeerCenter.lookup_removePeer_congr h.center peerId
  configured := h.configured
  initiator peer := by
    rw [WasmRpcCore.removePeer, WasmRpcCore.removePeer, Finmap.lookup_erase_ite,
      Finmap.lookup_erase_ite, h.initiator]
  setup := h.setup
  fragments peer laterMs h₁ h₂ := (h.fragments peer laterMs h₁ h₂).removeAll _
  outstanding key hkey laterMs h₁ h₂ := by
    have hsame := h.outstanding key hkey laterMs h₁ h₂
    have hremove : ∀ core : WasmRpcCore,
        (core.removePeer crates network peerId draws).outstandingAt laterMs key =
          (core.outstandingAt laterMs key).filter fun _ =>
            key.network ≠ network || key.peerId ≠ peerId := by
      intro core
      rw [outstandingAt, WasmRpcCore.removePeer, Finmap.lookup_retain, Option.filter_filter,
        outstandingAt, Option.filter_filter]
      simp only [Bool.and_comm]
    rw [hremove, hremove, hsame]

theorem handleRequest (h : core₁.SameIn network nowMs nowMs core₂)
    (hlimit₁ : ∀ o ∈ core₁.mergeOutcome crates (.handleRequest network peerId payload nowMs clockMs
      draws), ¬Fragments.LimitExceeded o)
    (hlimit₂ : ∀ o ∈ core₂.mergeOutcome crates (.handleRequest network peerId payload nowMs clockMs
      draws), ¬Fragments.LimitExceeded o) :
    (core₁.handleRequest crates network peerId payload nowMs clockMs draws).1 =
        (core₂.handleRequest crates network peerId payload nowMs clockMs draws).1 ∧
      (core₁.handleRequest crates network peerId payload nowMs clockMs draws).2.SameIn network nowMs
        nowMs (core₂.handleRequest crates network peerId payload nowMs clockMs draws).2 := by
  unfold WasmRpcCore.handleRequest
  cases hdecode : crates.prost.decodeRpcPacket payload with
  | error e => exact ⟨rfl, h⟩
  | ok packet =>
    dsimp only
    have henvelope₁ := h.validateEnvelope packet peerId true
    rw [henvelope₁]
    cases henvelope : core₂.validateEnvelope packet network peerId true with
    | error e => exact ⟨rfl, h⟩
    | ok u =>
      dsimp only
      obtain ⟨houtcome, hafter⟩ := h.merge peerId packet
        (hlimit₁ _ (by simp [mergeOutcome, fragmentCall, hdecode, henvelope₁, henvelope]))
        (hlimit₂ _ (by simp [mergeOutcome, fragmentCall, hdecode, henvelope]))
      generalize core₁.fragments.mergePacket network peerId packet nowMs = merged₁ at houtcome hafter
      generalize core₂.fragments.mergePacket network peerId packet nowMs = merged₂ at houtcome hafter
      obtain ⟨merged, fragments₁⟩ := merged₁
      obtain ⟨merged₂, fragments₂⟩ := merged₂
      obtain rfl : merged = merged₂ := houtcome
      have hfragments := h.withFragments hafter
      rcases merged with e | _ | merged
      · exact ⟨rfl, hfragments⟩
      · exact ⟨rfl, hfragments⟩
      · -- The whole call is served alike.
        dsimp only
        have hcall := handleCall_same hfragments.toSameParts crates peerId merged nowMs clockMs draws
        generalize hcall₁ : WasmRpcCore.handleCall _ crates network peerId merged nowMs clockMs draws =
          called₁ at hcall
        generalize hcall₂ : WasmRpcCore.handleCall _ crates network peerId merged nowMs clockMs draws =
          called₂ at hcall
        cases hcall with
        | error e => exact ⟨rfl, hfragments⟩
        | ok bytes hparts =>
          exact ⟨rfl, hfragments.withParts hparts (handleCall_frame crates _ hcall₁).1
            (handleCall_frame crates _ hcall₂).1 (outstandingRoutes_handleCall hcall₁)
            (outstandingRoutes_handleCall hcall₂)⟩

/-- A response to an update that does not wait for one any more. -/
theorem handleResponse_gone {core : WasmRpcCore} {packet : RpcPacket} (draws : GroupDraws)
    (hdecode : crates.prost.decodeRpcPacket payload = .ok packet)
    (henvelope : core.validateEnvelope packet network peerId false = .ok ())
    (hgone : core.outstandingAt nowMs ⟨network, peerId, packet.transactionId, false⟩ = none) :
    (core.handleResponse crates network peerId payload nowMs draws).1 = .ok false ∧
      (core.handleResponse crates network peerId payload nowMs draws).2.SameIn network nowMs nowMs
        core := by
  have hsettle : (core.settle _).SameIn network nowMs nowMs core := settle_gone hgone
  unfold WasmRpcCore.handleResponse examineResponse
  simp only [hdecode, henvelope]
  cases hlookup : core.outstandingRoutes.lookup ⟨network, peerId, packet.transactionId, false⟩ with
  | none => exact ⟨rfl, refl network nowMs nowMs core⟩
  | some o =>
    rw [outstandingAt, hlookup] at hgone
    have hlate : o.deadlineMs < nowMs := by simpa using hgone
    dsimp only
    rw [if_pos hlate]
    exact ⟨rfl, hsettle⟩

/-- What a merged response says about the transaction that waits for it. -/
def settlementOf (crates : RpcCrates) (key : RpcKey) (o : OutstandingRoute) :
    Except String MergedPacket → Except String Settlement
  | .error e => .error e
  | .ok .pending => .ok .pending
  | .ok (.complete packet) => (readResponse crates packet).map fun
    | .ignored => .ignored
    | .refused => .refused key
    | .accepted sessionId => .accepted key o sessionId

/-- A response to an update that waits for one. -/
theorem examineResponse_waiting {core : WasmRpcCore} {packet : RpcPacket} {o : OutstandingRoute}
    (draws : GroupDraws) (hdecode : crates.prost.decodeRpcPacket payload = .ok packet)
    (henvelope : core.validateEnvelope packet network peerId false = .ok ())
    (hwaiting : core.outstandingAt nowMs ⟨network, peerId, packet.transactionId, false⟩ = some o) :
    core.mergeOutcome crates (.handleResponse network peerId payload nowMs draws) =
        some (core.fragments.mergePacket network peerId packet nowMs).1 ∧
      core.examineResponse crates network peerId payload nowMs =
        (settlementOf crates ⟨network, peerId, packet.transactionId, false⟩ o
          (core.fragments.mergePacket network peerId packet nowMs).1,
          (core.fragments.mergePacket network peerId packet nowMs).2) := by
  obtain ⟨hlookup, hle⟩ := Option.filter_eq_some_iff.1 hwaiting
  have hnotLate : ¬o.deadlineMs < nowMs := by simpa using hle
  constructor
  · simp only [mergeOutcome, fragmentCall, hdecode, henvelope, hlookup, if_neg hnotLate]
  · simp only [examineResponse, hdecode, henvelope, hlookup, if_neg hnotLate]
    rcases core.fragments.mergePacket network peerId packet nowMs with ⟨e | _ | merged, fragments⟩
    · rfl
    · rfl
    · rfl

theorem handleResponse (h : core₁.SameIn network nowMs nowMs core₂)
    (hlimit₁ : ∀ o ∈ core₁.mergeOutcome crates (.handleResponse network peerId payload nowMs draws),
      ¬Fragments.LimitExceeded o)
    (hlimit₂ : ∀ o ∈ core₂.mergeOutcome crates (.handleResponse network peerId payload nowMs draws),
      ¬Fragments.LimitExceeded o) :
    (core₁.handleResponse crates network peerId payload nowMs draws).1 =
        (core₂.handleResponse crates network peerId payload nowMs draws).1 ∧
      (core₁.handleResponse crates network peerId payload nowMs draws).2.SameIn network nowMs nowMs
        (core₂.handleResponse crates network peerId payload nowMs draws).2 := by
  cases hdecode : crates.prost.decodeRpcPacket payload with
  | error e =>
    simp only [WasmRpcCore.handleResponse, examineResponse, hdecode]
    exact ⟨trivial, h⟩
  | ok packet =>
    have henvelope₁ := h.validateEnvelope packet peerId false
    cases henvelope₂ : core₂.validateEnvelope packet network peerId false with
    | error e =>
      simp only [WasmRpcCore.handleResponse, examineResponse, hdecode, henvelope₁, henvelope₂]
      exact ⟨trivial, h⟩
    | ok u =>
      rw [henvelope₂] at henvelope₁
      have hsame := h.outstanding ⟨network, peerId, packet.transactionId, false⟩ rfl nowMs
        UInt64.le_rfl UInt64.le_rfl
      cases hwaiting : core₂.outstandingAt nowMs ⟨network, peerId, packet.transactionId, false⟩ with
      | none =>
        -- One of them may have removed the transaction, and the other one does so now.
        obtain ⟨hresult₁, hgone₁⟩ := handleResponse_gone draws hdecode henvelope₁ (hsame.trans hwaiting)
        obtain ⟨hresult₂, hgone₂⟩ := handleResponse_gone draws hdecode henvelope₂ hwaiting
        rw [hresult₁, hresult₂]
        exact ⟨rfl, (hgone₁.trans UInt64.le_rfl h).trans UInt64.le_rfl hgone₂.symm⟩
      | some o =>
        obtain ⟨hmerge₁, hexamine₁⟩ := examineResponse_waiting draws hdecode henvelope₁
          (hsame.trans hwaiting)
        obtain ⟨hmerge₂, hexamine₂⟩ := examineResponse_waiting draws hdecode henvelope₂ hwaiting
        obtain ⟨houtcome, hafter⟩ := h.merge peerId packet (hlimit₁ _ hmerge₁) (hlimit₂ _ hmerge₂)
        have hfragments := h.withFragments hafter
        unfold WasmRpcCore.handleResponse
        rw [hexamine₁, hexamine₂, houtcome]
        rcases settlementOf crates _ o _ with e | _ | key | _ | _ | key | ⟨key, o, sessionId⟩
        · exact ⟨rfl, hfragments⟩
        · exact ⟨rfl, hfragments⟩
        · exact ⟨rfl, hfragments.settle key⟩
        · exact ⟨rfl, hfragments⟩
        · exact ⟨rfl, hfragments⟩
        · exact ⟨rfl, hfragments.settle key⟩
        · exact ⟨rfl, (hfragments.settle key).commit peerId o sessionId nowMs draws⟩

theorem buildRouteUpdate (h : core₁.SameIn network nowMs nowMs core₂) (crates : RpcCrates)
    (peerId : UInt32) (sessionId : UInt64) (forceFull : Bool) (draws : GroupDraws)
    (ids : Vector (Except String UInt64) 16) :
    (core₁.buildRouteUpdate crates network peerId sessionId forceFull nowMs draws ids).1 =
        (core₂.buildRouteUpdate crates network peerId sessionId forceFull nowMs draws ids).1 ∧
      (core₁.buildRouteUpdate crates network peerId sessionId forceFull nowMs draws ids).2.SameIn
        network nowMs nowMs
        (core₂.buildRouteUpdate crates network peerId sessionId forceFull nowMs draws ids).2 := by
  have hclean := h.cleanRpcState
  have hlookup : ∀ key : RpcKey, key.network = network →
      (core₁.cleanRpcState nowMs).outstandingRoutes.lookup key =
        (core₂.cleanRpcState nowMs).outstandingRoutes.lookup key := by
    intro key hkey
    rw [lookup_cleanRpcState, lookup_cleanRpcState]
    exact h.outstanding key hkey nowMs UInt64.le_rfl UInt64.le_rfl
  unfold WasmRpcCore.buildRouteUpdate
  generalize core₁.cleanRpcState nowMs = cleaned₁ at hclean hlookup
  generalize core₂.cleanRpcState nowMs = cleaned₂ at hclean hlookup
  dsimp only
  rw [hclean.routes.ensureGroup, hclean.routes.myPeerId, hclean.initiator]
  generalize RouteGroupData.buildSyncRouteInfoRequest _ _ _ peerId sessionId _ forceFull nowMs = built
  obtain ⟨update, g⟩ := built
  have hgroup := hclean.withGroup g
  cases update with
  | error e => exact ⟨rfl, hgroup⟩
  | ok update =>
    have hids : ∀ routes₁ routes₂,
        ({ cleaned₁ with routes := routes₁ } : WasmRpcCore).nextTransactionId network peerId ids =
          ({ cleaned₂ with routes := routes₂ } : WasmRpcCore).nextTransactionId network peerId ids := by
      intro routes₁ routes₂
      refine firstFree_congr (fun key hkey => ?_) _
      exact congrArg _ (hlookup key (Prod.mk.inj (RpcKey.isOf_iff.1 hkey)).1)
    have hpacket : ∀ routes₁ routes₂ transactionId,
        ({ cleaned₁ with routes := routes₁ } : WasmRpcCore).updatePacket crates network peerId
          transactionId update.payload =
        ({ cleaned₂ with routes := routes₂ } : WasmRpcCore).updatePacket crates network peerId
          transactionId update.payload := by
      intro routes₁ routes₂ transactionId
      rw [updatePacket, updatePacket]
      exact congrArg (fun id => ({ fromPeer := id, .. } : RpcPacket)) hclean.serverPeerId
    dsimp only
    rw [hids _ (cleaned₂.routes.withGroup network g)]
    cases WasmRpcCore.nextTransactionId _ network peerId ids with
    | error e => exact ⟨rfl, hgroup⟩
    | ok transactionId =>
      dsimp only
      rw [hpacket _ (cleaned₂.routes.withGroup network g)]
      refine ⟨rfl, ⟨hgroup.routes, hgroup.center, hgroup.configured, hgroup.initiator,
        hgroup.setup⟩, hgroup.fragments, fun key hkey laterMs _ _ => ?_⟩
      rw [outstandingAt, outstandingAt, Finmap.lookup_insert_ite, Finmap.lookup_insert_ite,
        hlookup key hkey]

theorem cleanExpired (h : core₁.SameIn network nowMs nowMs core₂) (crates : RpcCrates)
    (clockMs : UInt64) :
    (core₁.cleanExpired crates nowMs clockMs).2.SameIn network nowMs nowMs
      (core₂.cleanExpired crates nowMs clockMs).2 := by
  have hclean := h.cleanRpcState
  refine hclean.withParts ⟨h.routes.sweep nowMs, ?_, h.configured, h.initiator, h.setup⟩ rfl rfl rfl
    rfl
  change (core₁.peerCenter.cleanOutdated crates.hash peerCenterTtlSeconds clockMs).lookup network =
    (core₂.peerCenter.cleanOutdated crates.hash peerCenterTtlSeconds clockMs).lookup network
  rw [PeerCenter.cleanOutdated, PeerCenter.cleanOutdated, Finmap.lookup_retain, Finmap.lookup_retain,
    Finmap.lookup_mapValues, Finmap.lookup_mapValues, h.center]

end Own

end SameIn

end WasmRpcCore

/-- What a network sees of what a method returns: all of it, but of a sweep what it reports of the
    network. -/
inductive SeenOutput
  | returned (output : CoreOutput)
  | swept (changed : Prop) (dead : Set PeerId)

def CoreOutput.seenIn (network : String) : CoreOutput → SeenOutput
  | .swept outcome =>
    .swept (network ∈ outcome.routeChangedNetworks)
      { pid | deadEntry network pid ∈ outcome.deadDirectPeers }
  | output => .returned output

/-- A call for the network returns the same in both cores. -/
theorem WasmRpcCore.SameIn.step {crates : RpcCrates} {network : String} {sinceMs₁ sinceMs₂ : UInt64}
    {core₁ core₂ : WasmRpcCore} {op : CoreOp} (h : core₁.SameIn network sinceMs₁ sinceMs₂ core₂)
    (hop : op.isIn network) (hsince₁ : ∀ nowMs ∈ op.nowMs, sinceMs₁ ≤ nowMs)
    (hsince₂ : ∀ nowMs ∈ op.nowMs, sinceMs₂ ≤ nowMs)
    (hlimit₁ : ∀ o ∈ core₁.mergeOutcome crates op, ¬Fragments.LimitExceeded o)
    (hlimit₂ : ∀ o ∈ core₂.mergeOutcome crates op, ¬Fragments.LimitExceeded o) :
    (core₁.step crates op).2.seenIn network = (core₂.step crates op).2.seenIn network ∧
      (core₁.step crates op).1.SameIn network (op.nowMs.getD sinceMs₁) (op.nowMs.getD sinceMs₂)
        (core₂.step crates op).1 := by
  have hlater : ∀ nowMs ∈ op.nowMs, core₁.SameIn network nowMs nowMs core₂ :=
    fun nowMs hnow => h.later (hsince₁ nowMs hnow) (hsince₂ nowMs hnow)
  cases op with
  | addPeer network' peerId publicKey nowMs draws =>
    obtain rfl : network' = network := by simpa [CoreOp.isIn] using hop
    obtain ⟨houtput, hsame⟩ := (hlater nowMs rfl).addPeer crates peerId publicKey draws
    exact ⟨congrArg _ houtput, hsame⟩
  | removePeer network' peerId draws =>
    obtain rfl : network' = network := by simpa [CoreOp.isIn] using hop
    exact ⟨rfl, h.removePeer crates peerId draws⟩
  | handleRequest network' peerId payload nowMs clockMs draws =>
    obtain rfl : network' = network := by simpa [CoreOp.isIn] using hop
    obtain ⟨hresult, hsame⟩ := (hlater nowMs rfl).handleRequest hlimit₁ hlimit₂
    exact ⟨congrArg (fun r => SeenOutput.returned (.reply r)) hresult, hsame⟩
  | handleResponse network' peerId payload nowMs draws =>
    obtain rfl : network' = network := by simpa [CoreOp.isIn] using hop
    obtain ⟨hresult, hsame⟩ := (hlater nowMs rfl).handleResponse hlimit₁ hlimit₂
    exact ⟨congrArg (fun r => SeenOutput.returned (.handled r)) hresult, hsame⟩
  | buildRouteUpdate network' peerId sessionId forceFull nowMs draws ids =>
    obtain rfl : network' = network := by simpa [CoreOp.isIn] using hop
    obtain ⟨hresult, hsame⟩ := (hlater nowMs rfl).buildRouteUpdate crates peerId sessionId forceFull
      draws ids
    exact ⟨congrArg (fun r => SeenOutput.returned (.update r)) hresult, hsame⟩
  | cleanExpired nowMs clockMs =>
    refine ⟨?_, (hlater nowMs rfl).cleanExpired crates clockMs⟩
    exact congrArg₂ SeenOutput.swept (propext (h.routes.routeChanged_iff nowMs))
      (Set.ext fun pid => h.routes.dead_iff nowMs pid)

/-! ## Runs -/

/-- No packet of the network meets a limit on the fragments of all networks. -/
def SparedIn (crates : RpcCrates) (network : String) (tr : List CoreEvent) : Prop :=
  ∀ e ∈ tr, e.input.isIn network → ∀ o ∈ e.pre.mergeOutcome crates e.input, ¬Fragments.LimitExceeded o

section Runs

variable {crates : RpcCrates} {config : CoreConfig} {network : String}

/-- The condition on a step: the clock does not go back, and no limit on all fragments is met. -/
def StepSpared (crates : RpcCrates) (network : String) (sinceMs : UInt64) (core : WasmRpcCore)
    (op : CoreOp) : Prop :=
  (∀ nowMs ∈ op.nowMs, sinceMs ≤ nowMs) ∧
    (op.isIn network → ∀ o ∈ core.mergeOutcome crates op, ¬Fragments.LimitExceeded o)

theorem meets_of_spared {core : WasmRpcCore} {sinceMs : UInt64} {ops : List CoreOp}
    (hclock : ClockedFrom sinceMs ops)
    (hlimit : SparedIn crates network ((rpcCore crates config).history core ops)) :
    (rpcCore crates config).Meets (fun sinceMs op => op.nowMs.getD sinceMs) (StepSpared crates network)
      sinceMs core ops := by
  induction ops generalizing core sinceMs with
  | nil => trivial
  | cons op ops ih =>
    obtain ⟨hsince, hclock⟩ := hclock.cons
    rw [SparedIn, Machine.history_cons, List.forall_mem_cons] at hlimit
    exact ⟨⟨hsince, hlimit.1⟩, ih hclock hlimit.2⟩

/-- A network cannot tell apart what differs in calls for others. -/
theorem rpcCore_unwinding (crates : RpcCrates) (config : CoreConfig) (network : String) :
    (rpcCore crates config).Unwinding (fun sinceMs op => op.nowMs.getD sinceMs)
      (StepSpared crates network) (CoreOp.isIn network) (CoreOutput.seenIn network)
      fun a b => a.2.SameIn network a.1 b.1 b.2 where
  symm _ _ h := h.symm
  others sinceMs _ _ _ hop hspared h :=
    (WasmRpcCore.step_elsewhere hop sinceMs).trans (le_getD hspared.1) h
  own _ _ _ _ _ hop hspared₁ hspared₂ h :=
    h.step hop hspared₁.1 hspared₂.1 (hspared₁.2 hop) (hspared₂.2 hop)

end Runs

/-- What is returned by the calls for a network, and what the sweeps report of it, does not depend
    on the calls for other networks, as long as the clock does not go back and no packet of the
    network meets a limit on the fragments of all networks. -/
theorem networks_isolated (crates : RpcCrates) (config : CoreConfig) (network : String)
    (ops₁ ops₂ : List CoreOp) (hsame : ops₁.filter (·.isIn network) = ops₂.filter (·.isIn network))
    (hclock₁ : ClockedFrom 0 ops₁) (hclock₂ : ClockedFrom 0 ops₂)
    (hlimit₁ : SparedIn crates network
      ((rpcCore crates config).history (rpcCore crates config).init ops₁))
    (hlimit₂ : SparedIn crates network
      ((rpcCore crates config).history (rpcCore crates config).init ops₂)) :
    (rpcCore crates config).observed (·.isIn network) (·.seenIn network) (rpcCore crates config).init
        ops₁ =
      (rpcCore crates config).observed (·.isIn network) (·.seenIn network)
        (rpcCore crates config).init ops₂ :=
  (rpcCore_unwinding crates config network).observed_eq hsame (meets_of_spared hclock₁ hlimit₁)
    (meets_of_spared hclock₂ hlimit₂) (.refl network 0 0 _)

/-! ## Runs to try -/

namespace NetworkSample

open RouteSample

/-- A peer joins, reports, and accepts an update. -/
def alone : List CoreOp :=
  [join 1 0, reporting (report 1 1 1) 100, build 1 true 1 200, accept 1 1 300]

/-- Between them, a peer of the same id joins another network and sends the same bytes there. -/
def together : List CoreOp :=
  [join 1 0, .addPeer "other" 1 [] 50 draws, reporting (report 1 1 1) 100,
    .handleRequest "other" 1 (Encoding.rpcPacket (requestPacket (report 1 1 1))) 120 120 draws,
    build 1 true 1 200, .buildRouteUpdate "other" 1 4 true 250 draws (Vector.replicate 16 (.ok 1)),
    accept 1 1 300]

theorem spared_of_accepted {ops : List CoreOp}
    (h : ∀ o ∈ ((rpcCore crates config).history (rpcCore crates config).init ops).filterMap
      fun e => e.pre.mergeOutcome crates e.input, o.isOk = true) :
    SparedIn crates "net" ((rpcCore crates config).history (rpcCore crates config).init ops) := by
  rintro e he - o ho ⟨text, -, rfl⟩
  exact absurd (h _ (List.mem_filterMap.2 ⟨e, he, ho⟩)) (by simp [Except.isOk, Except.toBool])

end NetworkSample

open RouteSample NetworkSample in
/-- What is done in the other network is not noticed. -/
theorem networks_isolated_of_two :
    (rpcCore crates config).observed (·.isIn "net") (·.seenIn "net") (rpcCore crates config).init
        together =
      (rpcCore crates config).observed (·.isIn "net") (·.seenIn "net") (rpcCore crates config).init
        alone :=
  networks_isolated crates config "net" together alone (by rfl)
    (by unfold ClockedFrom; decide +kernel) (by unfold ClockedFrom; decide +kernel)
    (spared_of_accepted (by decide +kernel)) (spared_of_accepted (by decide +kernel))

end EasyTierEdge
