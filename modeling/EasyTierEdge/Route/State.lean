import EasyTierEdge.Encoding
import EasyTierEdge.Lib.Machine
import EasyTierEdge.Route.Topology

/-!
# The routes of all networks as a machine

`RouteState` of `wasm/src/route_state.rs` with a step for each of its methods
(`routeState`). A method works on the group of one network, which it creates if it is
missing, except for a sweep, which goes through all of them; one that fails before it
gets to the group leaves the state as it was.

* `RouteState.step_sync_cases`: what a route request does;
* `RouteState.step_group`: what a call can have done to a group that is there afterwards
  (`GroupStep`), and so what `RouteState.run_groups` asks of an invariant of the groups.

Runs on given reports of the peers are put together in `RoutesSample`.
-/

namespace EasyTierEdge

namespace RouteState

variable (r : RouteState)

/-- The routes of a relay that has just started. -/
def new (myPeerId : PeerId) : RouteState where
  groups := ∅
  myPeerId
  routeIdOverrides := ∅

/-- The route id that was persisted before a restart. -/
def setPersistedRouteId (network : String) (routeId : UInt64) : RouteState :=
  match r.groups.lookup network with
  | some g =>
    { r with
      groups := r.groups.insert network { g with myInfo := { g.myInfo with peerRouteId := routeId } } }
  | none => { r with routeIdOverrides := r.routeIdOverrides.insert network routeId }

def myPeerRouteId (network : String) (draws : GroupDraws) : UInt64 × RouteState :=
  let g := r.ensureGroup network draws
  (g.myInfo.peerRouteId, r.withGroup network g)

/-- The next hop to a peer: every peer is a direct one, or unknown. -/
def getNextHop (network : String) (targetPeerId : PeerId) : Option PeerId :=
  match r.groups.lookup network with
  | some g => if targetPeerId ∈ g.peers then some targetPeerId else none
  | none => none

/-- The update for a peer. -/
def buildSyncRouteInfoRequest (prost : Prost) (network : String) (targetPeerId : PeerId)
    (serverSessionId : UInt64) (weAreInitiator forceFull : Bool) (nowMs : UInt64)
    (draws : GroupDraws) : Except String RouteUpdate × RouteState :=
  let (update, g) := (r.ensureGroup network draws).buildSyncRouteInfoRequest r.myPeerId prost
    targetPeerId serverSessionId weAreInitiator forceFull nowMs
  (update, r.withGroup network g)

end RouteState

/-- A call of a method of the routes. -/
inductive RouteOp
  | setPersistedRouteId (network : String) (routeId : UInt64)
  | myPeerRouteId (network : String) (draws : GroupDraws)
  | addPeer (network : String) (peerId : PeerId) (publicKey : Bytes) (nowMs : UInt64)
      (draws : GroupDraws)
  | removePeer (network : String) (peerId : PeerId) (draws : GroupDraws)
  | sweepExpiredRouteInfo (nowMs : UInt64)
  | onRouteSessionAck (network : String) (peerId : PeerId) (theirSessionId : UInt64)
      (weAreInitiator : Bool) (nowMs : UInt64) (draws : GroupDraws)
  | commitRouteUpdate (network : String) (peerId : PeerId)
      (peerInfoVersions : List (PeerId × UInt32)) (topologyVersion : Option UInt64)
      (nowMs : UInt64) (draws : GroupDraws)
  | setHostname (network : String) (value : String) (draws : GroupDraws)
  | setMyNoisePublicKey (network : String) (publicKey : Bytes) (draws : GroupDraws)
  | setMyAvoidRelayData (network : String) (enabled : Bool) (draws : GroupDraws)
  | buildSyncRouteInfoRequest (network : String) (targetPeerId : PeerId)
      (serverSessionId : UInt64) (weAreInitiator forceFull : Bool) (nowMs : UInt64)
      (draws : GroupDraws)
  | handleSyncRouteInfoRequest (network : String) (fromPeerId : PeerId) (requestBytes : Bytes)
      (nowMs : UInt64) (draws : GroupDraws)

/-- What a method returns. -/
inductive RouteOutput
  | done (result : Except String Unit)
  | routeId (id : UInt64)
  | swept (outcome : RouteState.SweepOutcome)
  | update (result : Except String RouteUpdate)
  | synced (result : Except String RouteSyncOutcome)

/-- One call. -/
def RouteState.step (prost : Prost) (r : RouteState) : RouteOp → RouteState × RouteOutput
  | .setPersistedRouteId network routeId => (r.setPersistedRouteId network routeId, .done (.ok ()))
  | .myPeerRouteId network draws =>
    let (id, r) := r.myPeerRouteId network draws
    (r, .routeId id)
  | .addPeer network peerId publicKey nowMs draws =>
    match r.addPeer network peerId publicKey nowMs draws with
    | .error e => (r, .done (.error e))
    | .ok r => (r, .done (.ok ()))
  | .removePeer network peerId draws => (r.removePeer network peerId draws, .done (.ok ()))
  | .sweepExpiredRouteInfo nowMs => (r.sweepExpiredRouteInfo nowMs, .swept (r.sweepOutcome nowMs))
  | .onRouteSessionAck network peerId theirSessionId weAreInitiator nowMs draws =>
    (r.withGroup network ((r.ensureGroup network draws).onRouteSessionAck peerId theirSessionId
      weAreInitiator nowMs), .done (.ok ()))
  | .commitRouteUpdate network peerId peerInfoVersions topologyVersion nowMs draws =>
    (r.withGroup network ((r.ensureGroup network draws).commitRouteUpdate peerId peerInfoVersions
      topologyVersion nowMs), .done (.ok ()))
  | .setHostname network value draws =>
    (r.withGroup network ((r.ensureGroup network draws).setHostname value), .done (.ok ()))
  | .setMyNoisePublicKey network publicKey draws =>
    if publicKey.length ≠ 32 then (r, .done (.error "Noise public key must be 32 bytes"))
    else
      (r.withGroup network ((r.ensureGroup network draws).setMyNoisePublicKey publicKey),
        .done (.ok ()))
  | .setMyAvoidRelayData network enabled draws =>
    (r.withGroup network ((r.ensureGroup network draws).setMyAvoidRelayData enabled), .done (.ok ()))
  | .buildSyncRouteInfoRequest network targetPeerId serverSessionId weAreInitiator forceFull nowMs
      draws =>
    let (update, r) := r.buildSyncRouteInfoRequest prost network targetPeerId serverSessionId
      weAreInitiator forceFull nowMs draws
    (r, .update update)
  | .handleSyncRouteInfoRequest network fromPeerId requestBytes nowMs draws =>
    match r.handleSyncRouteInfoRequest prost network fromPeerId requestBytes nowMs draws with
    | .error e => (r, .synced (.error e))
    | .ok (outcome, r) => (r, .synced (.ok outcome))

/-- A peer with a key of a valid length is added. -/
theorem RouteState.step_add (prost : Prost) (r : RouteState) (network : String) (peerId : PeerId)
    {publicKey : Bytes} (hkey : publicKey = [] ∨ publicKey.length = 32) (nowMs : UInt64)
    (draws : GroupDraws) :
    r.step prost (.addPeer network peerId publicKey nowMs draws) =
      (r.withGroup network ((r.ensureGroup network draws).addPeer r.myPeerId peerId publicKey nowMs),
        .done (.ok ())) := by
  have hvalid : ¬ (!publicKey.isEmpty && decide (publicKey.length ≠ 32)) = true := by
    rcases hkey with rfl | hkey
    · simp
    · simp [hkey]
  unfold step addPeer
  dsimp only
  rw [if_neg hvalid]

/-- A request of the peer that it names. -/
theorem RouteState.step_sync (prost : Prost) (r : RouteState) (network : String)
    {requestBytes : Bytes} {request : SyncRouteInfoRequest}
    (hdecode : prost.decodeSyncRouteInfoRequest requestBytes = .ok request) (nowMs : UInt64)
    (draws : GroupDraws) :
    r.step prost (.handleSyncRouteInfoRequest network request.myPeerId requestBytes nowMs draws) =
      (r.withGroup network ((r.ensureGroup network draws).syncRouteInfo r.myPeerId prost
          request.myPeerId request nowMs).2,
        .synced (.ok ((r.ensureGroup network draws).syncRouteInfo r.myPeerId prost request.myPeerId
          request nowMs).1)) := by
  unfold step handleSyncRouteInfoRequest
  dsimp only
  rw [hdecode]
  dsimp only
  rw [if_neg (not_not.2 rfl)]

/-- A request fails before it gets to the group, or else it is the sender's own one. -/
theorem RouteState.step_sync_cases (prost : Prost) (r : RouteState) (network : String)
    (fromPeerId : PeerId) (requestBytes : Bytes) (nowMs : UInt64) (draws : GroupDraws) :
    (∃ e, r.step prost (.handleSyncRouteInfoRequest network fromPeerId requestBytes nowMs draws) =
      (r, .synced (.error e))) ∨
    ∃ request, prost.decodeSyncRouteInfoRequest requestBytes = .ok request ∧
      request.myPeerId = fromPeerId ∧
      r.step prost (.handleSyncRouteInfoRequest network fromPeerId requestBytes nowMs draws) =
        (r.withGroup network ((r.ensureGroup network draws).syncRouteInfo r.myPeerId prost fromPeerId
            request nowMs).2,
          .synced (.ok ((r.ensureGroup network draws).syncRouteInfo r.myPeerId prost fromPeerId
            request nowMs).1)) := by
  cases hdecode : prost.decodeSyncRouteInfoRequest requestBytes with
  | error e =>
    unfold step handleSyncRouteInfoRequest
    dsimp only
    rw [hdecode]
    exact .inl ⟨_, rfl⟩
  | ok request =>
    by_cases hid : request.myPeerId = fromPeerId
    · rw [← hid]
      exact .inr ⟨request, rfl, rfl, r.step_sync prost network hdecode nowMs draws⟩
    · unfold step handleSyncRouteInfoRequest
      dsimp only
      rw [hdecode]
      dsimp only
      rw [if_pos hid]
      exact .inl ⟨_, rfl⟩

/-- Building an update opens a session, fills the caches and returns the update with the
    connection info. -/
theorem RouteState.step_build (prost : Prost) (r : RouteState) (network : String)
    (targetPeerId : PeerId) (serverSessionId : UInt64) (weAreInitiator forceFull : Bool)
    (nowMs : UInt64) (draws : GroupDraws) :
    r.step prost (.buildSyncRouteInfoRequest network targetPeerId serverSessionId weAreInitiator
        forceFull nowMs draws) =
      let g := (r.ensureGroup network draws).openSession targetPeerId serverSessionId
      (r.withGroup network (g.cachedFor r.myPeerId targetPeerId nowMs),
        .update ((g.connInfoFor r.myPeerId targetPeerId nowMs).map
          (g.routeUpdate r.myPeerId prost serverSessionId weAreInitiator
            (g.typedItems r.myPeerId targetPeerId forceFull nowMs)))) := by
  unfold step buildSyncRouteInfoRequest
  dsimp only
  rw [RouteGroupData.buildSyncRouteInfoRequest_eq]

/-- The routes of a relay as a machine. -/
def routeState (prost : Prost) (myPeerId : PeerId) : Machine RouteState RouteOp RouteOutput where
  init := .new myPeerId
  step := RouteState.step prost

/-- A call of a method of the routes: the state before it, the arguments and the result. -/
abbrev RouteEvent := Event RouteState RouteOp RouteOutput

/-! ## What a call does to a group -/

/-- What a call leaves of the group of `network`. -/
inductive GroupStep (prost : Prost) (r : RouteState) (network : String) :
    RouteOp → RouteGroupData → Prop
  /-- At most the sessions and the relay's own info have changed. -/
  | quiet {op : RouteOp} (draws : GroupDraws) (sessions : FinMap PeerId SessionState)
      (info : RoutePeerInfo) (version : UInt32) :
      GroupStep prost r network op
        { r.ensureGroup network draws with
          sessions, myInfo := info, myInfoVersion := version }
  /-- A peer is added. -/
  | added (peerId : PeerId) (publicKey : Bytes) (nowMs : UInt64) (draws : GroupDraws) :
      GroupStep prost r network (.addPeer network peerId publicKey nowMs draws)
        ((r.ensureGroup network draws).addPeer r.myPeerId peerId publicKey nowMs)
  /-- A peer is removed. -/
  | removed (peerId : PeerId) (draws : GroupDraws) :
      GroupStep prost r network (.removePeer network peerId draws)
        ((r.ensureGroup network draws).removePeer r.myPeerId peerId)
  /-- What has expired is swept. -/
  | swept (nowMs : UInt64) {g : RouteGroupData} : r.groups.lookup network = some g →
      GroupStep prost r network (.sweepExpiredRouteInfo nowMs) (g.sweep r.myPeerId nowMs)
  /-- An update is built. -/
  | built (targetPeerId : PeerId) (serverSessionId : UInt64) (weAreInitiator forceFull : Bool)
      (nowMs : UInt64) (draws : GroupDraws) :
      GroupStep prost r network
        (.buildSyncRouteInfoRequest network targetPeerId serverSessionId weAreInitiator forceFull
          nowMs draws)
        (((r.ensureGroup network draws).openSession targetPeerId serverSessionId).cachedFor
          r.myPeerId targetPeerId nowMs)
  /-- A request is accepted. -/
  | synced (fromPeerId : PeerId) (requestBytes : Bytes) (nowMs : UInt64) (draws : GroupDraws)
      {request : SyncRouteInfoRequest} :
      prost.decodeSyncRouteInfoRequest requestBytes = .ok request →
      GroupStep prost r network
        (.handleSyncRouteInfoRequest network fromPeerId requestBytes nowMs draws)
        ((r.ensureGroup network draws).syncRouteInfo r.myPeerId prost fromPeerId request nowMs).2

section GroupSteps

variable {prost : Prost} {r : RouteState} {network : String} {g g' : RouteGroupData}

/-- A group that stays as it was. -/
theorem GroupStep.kept (op : RouteOp) (h : r.groups.lookup network = some g) :
    GroupStep prost r network op g := by
  have hquiet := @GroupStep.quiet prost r network op ⟨⟨0, 0, 0, 0⟩, 0⟩ g.sessions g.myInfo
    g.myInfoVersion
  rw [RouteState.ensureGroup_of_lookup h] at hquiet
  exact hquiet

/-- A call that works on the group of one network. -/
theorem GroupStep.of_withGroup {op : RouteOp} {n : String} {gₙ : RouteGroupData}
    (hstep : network = n → GroupStep prost r network op gₙ)
    (h : (r.withGroup n gₙ).groups.lookup network = some g') : GroupStep prost r network op g' := by
  rw [RouteState.lookup_withGroup] at h
  split_ifs at h with hn
  · obtain rfl := Option.some.inj h
    exact hstep hn
  · exact .kept op h

theorem RouteGroupData.setMyAvoidRelayData_eq (g : RouteGroupData) (enabled : Bool) :
    ∃ info version, g.setMyAvoidRelayData enabled =
      { g with myInfo := info, myInfoVersion := version } := by
  unfold RouteGroupData.setMyAvoidRelayData
  dsimp only
  split_ifs
  · exact ⟨_, _, rfl⟩
  · exact ⟨_, _, rfl⟩

/-- What a call can have done to a group that is there afterwards. -/
theorem RouteState.step_group {op : RouteOp}
    (h : (r.step prost op).1.groups.lookup network = some g') : GroupStep prost r network op g' := by
  cases op with
  | setPersistedRouteId n routeId =>
    change (r.setPersistedRouteId n routeId).groups.lookup network = some g' at h
    unfold setPersistedRouteId at h
    cases hn : r.groups.lookup n with
    | none =>
      rw [hn] at h
      exact .kept _ h
    | some g =>
      rw [hn] at h
      dsimp only at h
      rw [Finmap.lookup_insert_ite] at h
      split_ifs at h with heq
      · obtain rfl := Option.some.inj h
        have hquiet := @GroupStep.quiet prost r network (.setPersistedRouteId n routeId)
          ⟨⟨0, 0, 0, 0⟩, 0⟩ g.sessions { g.myInfo with peerRouteId := routeId } g.myInfoVersion
        rw [ensureGroup_of_lookup (heq ▸ hn)] at hquiet
        exact hquiet
      · exact .kept _ h
  | myPeerRouteId n draws =>
    refine .of_withGroup (fun hn => ?_) h
    rw [← hn]
    exact .quiet draws _ _ _
  | addPeer n peerId publicKey nowMs draws =>
    unfold step addPeer at h
    dsimp only at h
    split_ifs at h with hkey
    · exact .kept _ h
    · refine .of_withGroup (fun hn => ?_) h
      rw [← hn]
      exact .added peerId publicKey nowMs draws
  | removePeer n peerId draws =>
    refine .of_withGroup (fun hn => ?_) h
    rw [← hn]
    exact .removed peerId draws
  | sweepExpiredRouteInfo nowMs =>
    change (r.groups.mapValues fun g => g.sweep r.myPeerId nowMs).lookup network = some g' at h
    rw [Finmap.lookup_mapValues, Option.map_eq_some_iff] at h
    obtain ⟨g, hg, rfl⟩ := h
    exact .swept nowMs hg
  | onRouteSessionAck n peerId theirSessionId weAreInitiator nowMs draws =>
    refine .of_withGroup (fun hn => ?_) h
    rw [← hn]
    exact .quiet draws _ _ _
  | commitRouteUpdate n peerId peerInfoVersions topologyVersion nowMs draws =>
    refine .of_withGroup (fun hn => ?_) h
    rw [← hn]
    exact .quiet draws _ _ _
  | setHostname n value draws =>
    refine .of_withGroup (fun hn => ?_) h
    rw [← hn]
    exact .quiet draws _ _ _
  | setMyNoisePublicKey n publicKey draws =>
    unfold step at h
    dsimp only at h
    split_ifs at h with hkey
    · exact .kept _ h
    · refine .of_withGroup (fun hn => ?_) h
      rw [← hn]
      exact .quiet draws _ _ _
  | setMyAvoidRelayData n enabled draws =>
    refine .of_withGroup (fun hn => ?_) h
    obtain ⟨info, version, heq⟩ := (r.ensureGroup n draws).setMyAvoidRelayData_eq enabled
    rw [heq, ← hn]
    exact .quiet draws _ _ _
  | buildSyncRouteInfoRequest n targetPeerId serverSessionId weAreInitiator forceFull nowMs draws =>
    rw [step_build] at h
    refine .of_withGroup (fun hn => ?_) h
    rw [← hn]
    exact .built targetPeerId serverSessionId weAreInitiator forceFull nowMs draws
  | handleSyncRouteInfoRequest n fromPeerId requestBytes nowMs draws =>
    rcases r.step_sync_cases prost n fromPeerId requestBytes nowMs draws with
      ⟨e, heq⟩ | ⟨request, hdecode, -, heq⟩
    · rw [heq] at h
      exact .kept _ h
    · rw [heq] at h
      refine .of_withGroup (fun hn => ?_) h
      rw [← hn]
      exact .synced fromPeerId requestBytes nowMs draws hdecode

/-- A group is never dropped. -/
theorem RouteState.lookup_step_of_none {op : RouteOp}
    (h : (r.step prost op).1.groups.lookup network = none) : r.groups.lookup network = none := by
  have hwith : ∀ n g, (r.withGroup n g).groups.lookup network = none →
      r.groups.lookup network = none := by
    intro n g hnone
    rw [lookup_withGroup] at hnone
    split_ifs at hnone
    exact hnone
  cases op with
  | setPersistedRouteId n routeId =>
    change (r.setPersistedRouteId n routeId).groups.lookup network = none at h
    unfold setPersistedRouteId at h
    cases hn : r.groups.lookup n with
    | none =>
      rw [hn] at h
      exact h
    | some g =>
      rw [hn] at h
      dsimp only at h
      rw [Finmap.lookup_insert_ite] at h
      split_ifs at h
      exact h
  | addPeer n peerId publicKey nowMs draws =>
    unfold step addPeer at h
    dsimp only at h
    split_ifs at h
    · exact h
    · exact hwith _ _ h
  | sweepExpiredRouteInfo nowMs =>
    change (r.groups.mapValues fun g => g.sweep r.myPeerId nowMs).lookup network = none at h
    rwa [Finmap.lookup_mapValues, Option.map_eq_none_iff] at h
  | setMyNoisePublicKey n publicKey draws =>
    unfold step at h
    dsimp only at h
    split_ifs at h
    · exact h
    · exact hwith _ _ h
  | buildSyncRouteInfoRequest n targetPeerId serverSessionId weAreInitiator forceFull nowMs draws =>
    rw [step_build] at h
    exact hwith _ _ h
  | handleSyncRouteInfoRequest n fromPeerId requestBytes nowMs draws =>
    rcases r.step_sync_cases prost n fromPeerId requestBytes nowMs draws with
      ⟨e, heq⟩ | ⟨request, -, -, heq⟩
    · rwa [heq] at h
    · rw [heq] at h
      exact hwith _ _ h
  | myPeerRouteId n draws => exact hwith _ _ h
  | removePeer n peerId draws => exact hwith _ _ h
  | onRouteSessionAck n peerId theirSessionId weAreInitiator nowMs draws => exact hwith _ _ h
  | commitRouteUpdate n peerId peerInfoVersions topologyVersion nowMs draws => exact hwith _ _ h
  | setHostname n value draws => exact hwith _ _ h
  | setMyAvoidRelayData n enabled draws => exact hwith _ _ h

@[simp] theorem RouteState.myPeerId_step (prost : Prost) (r : RouteState) (op : RouteOp) :
    (r.step prost op).1.myPeerId = r.myPeerId := by
  cases op with
  | setPersistedRouteId n routeId =>
    change (r.setPersistedRouteId n routeId).myPeerId = r.myPeerId
    unfold setPersistedRouteId
    cases r.groups.lookup n <;> rfl
  | addPeer n peerId publicKey nowMs draws =>
    unfold step addPeer
    dsimp only
    split_ifs <;> rfl
  | setMyNoisePublicKey n publicKey draws =>
    unfold step
    dsimp only
    split_ifs <;> rfl
  | handleSyncRouteInfoRequest n fromPeerId requestBytes nowMs draws =>
    rcases r.step_sync_cases prost n fromPeerId requestBytes nowMs draws with
      ⟨e, heq⟩ | ⟨request, -, -, heq⟩
    · rw [heq]
    · rw [heq]
      rfl
  | _ => rfl

end GroupSteps

/-- The groups have the property `I`. -/
def RouteState.Groups (I : RouteGroupData → Prop) (r : RouteState) : Prop :=
  ∀ network g, r.groups.lookup network = some g → I g

/-- A group that is created for a call has the property if a new one has. -/
theorem RouteState.Groups.ensureGroup {I : RouteGroupData → Prop} {r : RouteState}
    (h : r.Groups I) (hnew : ∀ id draws, I (.new r.myPeerId id draws)) (network : String)
    (draws : GroupDraws) : I (r.ensureGroup network draws) := by
  unfold RouteState.ensureGroup
  cases hg : r.groups.lookup network with
  | some g => exact h network g hg
  | none => exact hnew _ draws

/-- In a run whose calls meet the condition `C`, the groups have a property that a new
    group has and that every such call preserves. -/
theorem RouteState.run_groups {prost : Prost} {myPeerId : PeerId} {I : RouteGroupData → Prop}
    {C : RouteState → RouteOp → Prop}
    (hstep : ∀ r op network g, r.myPeerId = myPeerId → r.Groups I → C r op →
      GroupStep prost r network op g → I g)
    (ops : List RouteOp)
    (hC : Along (fun _ e => C e.pre e.input) ((routeState prost myPeerId).history (.new myPeerId) ops)) :
    ((routeState prost myPeerId).run (.new myPeerId) ops).myPeerId = myPeerId ∧
      ((routeState prost myPeerId).run (.new myPeerId) ops).Groups I := by
  refine (routeState prost myPeerId).history_invariant
    (P := fun _ r => r.myPeerId = myPeerId ∧ r.Groups I) ?_ ?_ ops hC
  · exact ⟨rfl, fun network g h => absurd h (by simp [routeState, RouteState.new])⟩
  · rintro tr r op ⟨hid, hgroups⟩ hop
    refine ⟨(RouteState.myPeerId_step prost r op).trans hid, fun network g h => ?_⟩
    exact hstep r op network g hid hgroups hop (RouteState.step_group h)

namespace RoutesSample

def relay : PeerId := 99

/-- What the relay draws for a new group. -/
def draws : GroupDraws := ⟨⟨7, 7, 7, 7⟩, 12⟩

/-- The report of a peer that reads connection lists: its info, of this version, and these
    rows. -/
def report (peer version : UInt32) (rows : List PeerConnInfo) : SyncRouteInfoRequest where
  myPeerId := peer
  mySessionId := 7
  isInitiator := true
  peerInfos := some
    [{ peerId := peer, instId := some ⟨peer, 0, 0, 0⟩, version,
       featureFlag := some { supportConnListSync := true } }]
  connInfo := some (.connPeerList ⟨rows⟩)

/-- The row of a peer. -/
def row (peer version : UInt32) (connected : List PeerId) : PeerConnInfo :=
  ⟨some ⟨peer, version⟩, connected⟩

/-- A peer is added. -/
def join (peer : PeerId) (ms : UInt64) : RouteOp := .addPeer "net" peer [] ms draws

/-- A peer is removed. -/
def leave (peer : PeerId) : RouteOp := .removePeer "net" peer draws

/-- A peer reports. -/
def reporting (sync : SyncRouteInfoRequest) (ms : UInt64) : RouteOp :=
  .handleSyncRouteInfoRequest "net" sync.myPeerId (Encoding.syncRouteInfoRequest sync) ms draws

/-- An update for a peer is built. -/
def build (peer : PeerId) (ms : UInt64) : RouteOp :=
  .buildSyncRouteInfoRequest "net" peer 4 false false ms draws

/-- The routes after a run on these reports. -/
def routesAfter (reports : List SyncRouteInfoRequest) (ops : List RouteOp) : RouteState :=
  (routeState (Prost.listed [] [] [] reports []) relay).run (.new relay) ops

end RoutesSample

end EasyTierEdge
