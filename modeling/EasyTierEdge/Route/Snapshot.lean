import EasyTierEdge.Lib.Except
import EasyTierEdge.Route.Bitmap
import EasyTierEdge.Route.Ghosts

/-!
# Forced updates

A forced update is meant to tell a peer everything, whatever it has acknowledged. All infos
are in it. The connection info is left out, however, when the peer has acknowledged the
topology within the last minute: this is looked at apart, and forcing has no part in it.

* `typedItems_forced`: the infos of a forced update are those of all known peers, other than
  the target, and the relay's own;
* `CachesMade`: what is cached is what would be made now, for some target;
* `forced_update_complete`: a forced update is a snapshot if the target has not acknowledged
  the topology, and reads lists or has rows that a bitmap can tell. `forced_update_partial`
  is one that is not.
-/

namespace EasyTierEdge

namespace RouteGroupData

variable {g g' : RouteGroupData} {myPeerId targetPeerId : PeerId}

/-! ## The infos -/

/-- The peers whose infos are in a forced update. -/
def informedPeers (g : RouteGroupData) (myPeerId targetPeerId : PeerId) : List PeerId :=
  (g.relevantPeers myPeerId targetPeerId).filter fun pid =>
    pid ≠ targetPeerId ∧ (g.infoOf myPeerId pid).isSome

theorem nodup_informedPeers (g : RouteGroupData) (myPeerId targetPeerId : PeerId) :
    (g.informedPeers myPeerId targetPeerId).Nodup :=
  (Finset.nodup_ascending _).filter _

/-- They are all those with an info, and the relay, apart from the target. -/
theorem mem_informedPeers {pid : PeerId} : pid ∈ g.informedPeers myPeerId targetPeerId ↔
    pid ≠ targetPeerId ∧ (g.infoOf myPeerId pid).isSome := by
  rw [informedPeers, List.mem_filter, decide_eq_true_iff, and_iff_right_iff_imp]
  rintro ⟨-, hinfo⟩
  rw [relevantPeers, Finset.mem_ascending, Finset.mem_insert, Finset.mem_insert]
  refine .inr ?_
  unfold infoOf at hinfo
  split_ifs at hinfo with hmine
  · exact .inl hmine
  · refine .inr (Finset.mem_union_left _ (Finset.mem_union_right _ ?_))
    rw [Finmap.mem_keys, ← Finmap.lookup_isSome]
    exact hinfo

/-- The infos of a forced update. -/
theorem typedItems_forced (g : RouteGroupData) (myPeerId targetPeerId : PeerId) (nowMs : UInt64) :
    g.typedItems myPeerId targetPeerId true nowMs =
      (g.informedPeers myPeerId targetPeerId).filterMap fun pid =>
        (g.infoOf myPeerId pid).map fun info => (pid, info) := by
  unfold typedItems informedPeers
  rw [List.filterMap_filter]
  refine List.filterMap_congr fun pid _ => ?_
  by_cases htarget : pid = targetPeerId
  · simp [htarget]
  · cases hinfo : g.infoOf myPeerId pid with
    | none => simp [htarget]
    | some info => simp [htarget, forceFullLocal]

theorem fst_typedItems_forced (g : RouteGroupData) (myPeerId targetPeerId : PeerId)
    (nowMs : UInt64) :
    (g.typedItems myPeerId targetPeerId true nowMs).map Prod.fst =
      g.informedPeers myPeerId targetPeerId := by
  rw [typedItems_forced, List.map_filterMap]
  refine (List.filterMap_congr fun pid hpid => ?_).trans List.filterMap_some
  obtain ⟨info, hinfo⟩ := Option.isSome_iff_exists.1 (mem_informedPeers.1 hpid).2
  rw [hinfo]
  rfl

theorem snd_typedItems_forced (g : RouteGroupData) (myPeerId targetPeerId : PeerId)
    (nowMs : UInt64) :
    (g.typedItems myPeerId targetPeerId true nowMs).map Prod.snd =
      (g.informedPeers myPeerId targetPeerId).filterMap (g.infoOf myPeerId) := by
  rw [typedItems_forced, List.map_filterMap]
  refine List.filterMap_congr fun pid _ => ?_
  rw [Option.map_map]
  exact Option.map_id'

/-! ## The connection info -/

/-- A connection info that is made from the rows of these peers. -/
def Made (g : RouteGroupData) (pids : List PeerId) (conn : ConnInfo) : Prop :=
  conn = .connPeerList (g.connPeerListOf pids) ∨
    pids.length ≤ maxLegacyBitmapPeers ∧ conn = .connBitmap (g.connBitmapOf pids)

/-- What is cached is made from the rows that are there, for some target. -/
def CachesMade (myPeerId : PeerId) (g : RouteGroupData) : Prop :=
  ∀ conn, g.Cached conn → ∃ targetPeerId, g.Made (g.relevantPeers myPeerId targetPeerId) conn

/-- Connection infos are made from the topology. -/
theorem Made.of_topology {conn : ConnInfo} (htop : g'.topology = g.topology)
    (h : g.Made (g.relevantPeers myPeerId targetPeerId) conn) :
    g'.Made (g'.relevantPeers myPeerId targetPeerId) conn := by
  obtain ⟨hpeers, hinfos, hrows⟩ := topology_eq_iff.1 htop
  have hrelevant : g'.relevantPeers myPeerId targetPeerId = g.relevantPeers myPeerId targetPeerId := by
    unfold relevantPeers knownIds
    rw [hpeers, hinfos, hrows]
  unfold Made connPeerListOf connBitmapOf connRowFor at h ⊢
  rw [hrelevant, hrows]
  exact h

namespace CachesMade

theorem new (myPeerId : PeerId) (id : Option UInt64) (draws : GroupDraws) :
    CachesMade myPeerId (.new myPeerId id draws) :=
  fun conn h => absurd h (not_cached_of_none rfl rfl conn)

/-- A change of the topology empties the caches. -/
theorem renews (h : CachesMade myPeerId g) {n : ℕ} (hrenews : Renews n g g') :
    CachesMade myPeerId g' := by
  intro conn hconn
  by_cases hn : n = 0
  · unfold Cached at hconn
    rw [(hrenews.kept hn).1, (hrenews.kept hn).2] at hconn
    obtain ⟨targetPeerId, hmade⟩ := h conn hconn
    exact ⟨targetPeerId, hmade.of_topology (hrenews.same hn)⟩
  · obtain ⟨hlist, hbitmap⟩ := hrenews.emptied hn
    exact absurd hconn (not_cached_of_none hlist hbitmap conn)

/-- Only the sessions and the relay's own info have changed. -/
theorem quiet (h : CachesMade myPeerId g) (sessions : FinMap PeerId SessionState)
    (info : RoutePeerInfo) (version : UInt32) :
    CachesMade myPeerId { g with sessions, myInfo := info, myInfoVersion := version } :=
  h.renews (.of_eq rfl rfl rfl rfl)

/-- The connection info of an update, whether it was cached or not. -/
theorem made (h : CachesMade myPeerId g) {conn : ConnInfo}
    (hconn : g.CachedOrMade (g.relevantPeers myPeerId targetPeerId) conn) :
    ∃ targetPeerId, g.Made (g.relevantPeers myPeerId targetPeerId) conn := by
  rcases hconn with hconn | hmade
  · exact h conn hconn
  · exact ⟨targetPeerId, hmade⟩

theorem cachedFor (h : CachesMade myPeerId g) (targetPeerId : PeerId) (nowMs : UInt64) :
    CachesMade myPeerId (g.cachedFor myPeerId targetPeerId nowMs) := by
  intro conn hconn
  obtain ⟨t, hmade⟩ := h.made ((g.buildConnInfo_cases _ targetPeerId _ nowMs conn).2 hconn)
  exact ⟨t, hmade.of_topology (g.topology_cachedFor myPeerId targetPeerId nowMs)⟩

end CachesMade

/-- The rows can be told from a bitmap: they name known peers other than their owner, and
    are named by them. -/
def Tellable (myPeerId : PeerId) (g : RouteGroupData) : Prop :=
  ∀ pid ∈ insert myPeerId g.knownIds, ∀ q ∈ (g.connRowFor pid).connected,
    q ≠ pid ∧ q ∈ insert myPeerId g.knownIds ∧ pid ∈ (g.connRowFor q).connected

instance decidableTellable (myPeerId : PeerId) (g : RouteGroupData) :
    Decidable (g.Tellable myPeerId) :=
  have : DecidablePred fun pid => ∀ q ∈ (g.connRowFor pid).connected,
      q ≠ pid ∧ q ∈ insert myPeerId g.knownIds ∧ pid ∈ (g.connRowFor q).connected :=
    fun _ => Finset.decidableDforallFinset
  Finset.decidableDforallFinset

/-- The known peers and the relay are among the peers of an update. -/
theorem mem_relevantPeers {pid : PeerId} (targetPeerId : PeerId)
    (h : pid ∈ insert myPeerId g.knownIds) : pid ∈ g.relevantPeers myPeerId targetPeerId := by
  rw [relevantPeers, Finset.mem_ascending]
  exact Finset.mem_insert_of_mem h

/-- Whoever has neighbours is known. -/
theorem mem_knownIds_of_connected {pid q : PeerId} (h : pid ∈ (g.connRowFor q).connected) :
    q ∈ g.knownIds := by
  refine Finset.mem_union_right _ ?_
  rw [Finmap.mem_keys, ← Finmap.lookup_isSome]
  cases hrow : g.connRows.lookup q with
  | none =>
    rw [connRowFor, hrow] at h
    exact absurd h (Finset.notMem_empty pid)
  | some row => rfl

/-- The row of a known peer in a list, or in a bitmap that can tell it. -/
theorem Made.rowsOf {conn : ConnInfo} (h : g.Made (g.relevantPeers myPeerId targetPeerId) conn)
    (htell : (∃ list, conn = .connPeerList list) ∨ g.Tellable myPeerId) {pid : PeerId}
    (hpid : pid ∈ insert myPeerId g.knownIds) : conn.rowsOf pid = [g.connRowFor pid] := by
  have hnodup : (g.relevantPeers myPeerId targetPeerId).Nodup := Finset.nodup_ascending _
  have hmem := mem_relevantPeers targetPeerId hpid
  rcases h with rfl | ⟨hlength, rfl⟩
  · rw [rowsOf_eq (g.connInfoRows_connPeerListOf _) hnodup hmem]
  · have htell : g.Tellable myPeerId := htell.resolve_left (by rintro ⟨list, h⟩; cases h)
    let rows (pid : PeerId) : ConnRow :=
      { version := (g.connRowFor pid).version
        connected := ((g.relevantPeers myPeerId targetPeerId).filter fun q => q ≠ pid ∧
          (q ∈ (g.connRowFor pid).connected ∨ pid ∈ (g.connRowFor q).connected)).toFinset }
    have hrow : rows pid = g.connRowFor pid := by
      refine congrArg (ConnRow.mk _) ?_
      ext q
      rw [List.mem_toFinset, List.mem_filter, decide_eq_true_iff]
      constructor
      · rintro ⟨-, -, hnamed | hnames⟩
        · exact hnamed
        · exact (htell q (Finset.mem_insert_of_mem (mem_knownIds_of_connected hnames)) pid hnames).2.2
      · intro hnamed
        obtain ⟨hne, hknown, -⟩ := htell pid hpid q hnamed
        exact ⟨mem_relevantPeers targetPeerId hknown, hne, .inl hnamed⟩
    have hrows := @rowsOf_eq _ _ rows (g.connInfoRows_connBitmapOf hnodup hlength) hnodup _ hmem
    rw [hrows, hrow]

/-- A peer that has not acknowledged the topology gets a connection info, as a list if it
    reads lists. -/
theorem connInfoFor_some {nowMs : UInt64} {conn : Option ConnInfo}
    (hsession : (g.sessions.lookup targetPeerId).any (·.hasTopology g.topologyVersion nowMs) = false)
    (hconn : g.connInfoFor myPeerId targetPeerId nowMs = .ok conn) :
    ∃ c, conn = some c ∧ (g.supportsConnList targetPeerId = true → ∃ list, c = .connPeerList list) := by
  unfold connInfoFor buildConnInfo at hconn
  rw [isEmpty_relevantPeers, hsession] at hconn
  simp only [Bool.false_eq_true, if_false] at hconn
  cases hlist : g.supportsConnList targetPeerId with
  | true =>
    rw [hlist] at hconn
    simp only [if_true] at hconn
    split at hconn
    · exact ⟨_, (Except.ok.inj hconn).symm, fun _ => ⟨_, rfl⟩⟩
    · exact ⟨_, (Except.ok.inj hconn).symm, fun _ => ⟨_, rfl⟩⟩
  | false =>
    rw [hlist] at hconn
    simp only [Bool.false_eq_true, if_false] at hconn
    split at hconn
    · exact ⟨_, (Except.ok.inj hconn).symm, fun h => absurd h Bool.false_ne_true⟩
    · split_ifs at hconn
      exact ⟨_, (Except.ok.inj hconn).symm, fun h => absurd h Bool.false_ne_true⟩

end RouteGroupData

/-! ## Runs -/

/-- The infos that are appended to an encoded request are decoded as its infos. -/
def Prost.AppendsInfos (prost : Prost) (request : SyncRouteInfoRequest) (infos : List RoutePeerInfo) :
    Prop :=
  prost.decodeSyncRouteInfoRequest (prost.encodeSyncRouteInfoRequest request ++
      pushLenDelimited 4 (infos.flatMap fun info => pushLenDelimited 1 (prost.encodeRoutePeerInfo info))) =
    .ok { request with peerInfos := some infos }

/-- A request is a snapshot of a group: it has the relay's info and those of all known peers
    other than the target, with their versions, and the rows of all known peers and the
    relay. -/
structure Snapshot (myPeerId targetPeerId : PeerId) (g : RouteGroupData)
    (request : SyncRouteInfoRequest) (versions : List (PeerId × UInt32)) : Prop where
  nodup : (versions.map Prod.fst).Nodup
  informed : ∀ pid, pid ∈ versions.map Prod.fst ↔
    pid ≠ targetPeerId ∧ (g.infoOf myPeerId pid).isSome
  infos : request.peerInfos = some ((versions.map Prod.fst).filterMap (g.infoOf myPeerId))
  rows : ∃ conn, request.connInfo = some conn ∧
    ∀ pid ∈ insert myPeerId g.knownIds, conn.rowsOf pid = [g.connRowFor pid]

namespace RouteState

/-- The request of an update, without the infos. -/
def requestSent (r : RouteState) (serverSessionId : UInt64) (weAreInitiator : Bool)
    (connInfo : Option ConnInfo) : SyncRouteInfoRequest where
  myPeerId := r.myPeerId
  mySessionId := serverSessionId
  isInitiator := weAreInitiator
  peerInfos := none
  connInfo := connInfo

/-- No removal goes unnoticed, and an update is forced for a peer other than the relay that
    has not acknowledged the topology within the last minute, and that reads lists or is
    sent rows that a bitmap can tell. -/
def SnapshotSafe (r : RouteState) : RouteOp → Prop
  | .removePeer network peerId draws => (r.ensureGroup network draws).RemovalNoted peerId
  | .buildSyncRouteInfoRequest network targetPeerId serverSessionId _ forceFull nowMs draws =>
    let g := (r.ensureGroup network draws).openSession targetPeerId serverSessionId
    forceFull = true → targetPeerId ≠ r.myPeerId ∧
      (g.sessions.lookup targetPeerId).any (·.hasTopology g.topologyVersion nowMs) = false ∧
      (g.supportsConnList targetPeerId = true ∨ g.Tellable r.myPeerId)
  | _ => True

instance decidableSnapshotSafe (r : RouteState) : DecidablePred r.SnapshotSafe
  | .removePeer .. => inferInstanceAs (Decidable (_ ∨ _ ∨ _))
  | .buildSyncRouteInfoRequest .. => inferInstanceAs (Decidable (_ → _ ∧ _ ∧ (_ ∨ _)))
  | .addPeer .. => isTrue trivial
  | .handleSyncRouteInfoRequest .. => isTrue trivial
  | .setPersistedRouteId .. => isTrue trivial
  | .myPeerRouteId .. => isTrue trivial
  | .sweepExpiredRouteInfo .. => isTrue trivial
  | .onRouteSessionAck .. => isTrue trivial
  | .commitRouteUpdate .. => isTrue trivial
  | .setHostname .. => isTrue trivial
  | .setMyNoisePublicKey .. => isTrue trivial
  | .setMyAvoidRelayData .. => isTrue trivial

/-- The infos of a forced update are decoded from where they are appended. -/
def InfosRead (prost : Prost) (r : RouteState) : RouteOp → Prop
  | .buildSyncRouteInfoRequest network targetPeerId serverSessionId weAreInitiator true nowMs draws =>
    let g := (r.ensureGroup network draws).openSession targetPeerId serverSessionId
    ∀ conn, g.connInfoFor r.myPeerId targetPeerId nowMs = .ok conn →
      prost.AppendsInfos (r.requestSent serverSessionId weAreInitiator conn)
        ((g.informedPeers r.myPeerId targetPeerId).filterMap (g.infoOf r.myPeerId))
  | _ => True

end RouteState

/-- The caches of all networks are made from the rows that are there. -/
theorem cachesMade_run (prost : Prost) (myPeerId : PeerId) (ops : List RouteOp)
    (hops : Along (fun _ e => e.pre.SnapshotSafe e.input)
      ((routeState prost myPeerId).history (.new myPeerId) ops)) :
    ((routeState prost myPeerId).run (.new myPeerId) ops).myPeerId = myPeerId ∧
      ((routeState prost myPeerId).run (.new myPeerId) ops).Groups
        (RouteGroupData.CachesMade myPeerId) := by
  refine RouteState.run_groups ?_ ops hops
  rintro r op network g rfl hgroups hop hstep
  have hgroup : ∀ draws, (r.ensureGroup network draws).CachesMade r.myPeerId :=
    fun draws => hgroups.ensureGroup (fun id draws => .new r.myPeerId id draws) network draws
  cases hstep with
  | quiet draws sessions info version => exact (hgroup draws).quiet sessions info version
  | added peerId publicKey nowMs draws =>
    obtain ⟨n, -, hrenews⟩ :=
      (r.ensureGroup network draws).addPeer_renews r.myPeerId peerId publicKey nowMs
    exact (hgroup draws).renews hrenews
  | removed peerId draws =>
    obtain ⟨n, -, hrenews⟩ := RouteGroupData.removePeer_renews r.myPeerId hop
    exact (hgroup draws).renews hrenews
  | @swept nowMs g hg =>
    obtain ⟨n, -, hrenews⟩ := g.sweep_renews r.myPeerId nowMs
    exact (hgroups network g hg).renews hrenews
  | built targetPeerId serverSessionId weAreInitiator forceFull nowMs draws =>
    have hopened : ((r.ensureGroup network draws).openSession targetPeerId
        serverSessionId).CachesMade r.myPeerId := (hgroup draws).quiet _ _ _
    exact hopened.cachedFor targetPeerId nowMs
  | synced fromPeerId requestBytes nowMs draws hdecode =>
    obtain ⟨n, -, hrenews⟩ :=
      (r.ensureGroup network draws).syncRouteInfo_renews r.myPeerId prost fromPeerId _ nowMs
    exact (hgroup draws).renews hrenews

/-- If a call builds a forced update, then it is decoded to a snapshot. -/
def ForcedComplete (prost : Prost) (e : RouteEvent) : Prop :=
  ∀ network targetPeerId serverSessionId weAreInitiator nowMs draws update,
    e.input = .buildSyncRouteInfoRequest network targetPeerId serverSessionId weAreInitiator true
      nowMs draws →
    e.output = .update (.ok update) →
    ∃ request, prost.decodeSyncRouteInfoRequest update.payload = .ok request ∧
      Snapshot e.pre.myPeerId targetPeerId (e.pre.ensureGroup network draws) request
        update.peerInfoVersions

/-- The update that is built, with the infos appended to its request. -/
theorem payload_forced {g : RouteGroupData} {r : RouteState} {prost : Prost}
    {targetPeerId : PeerId} (hne : targetPeerId ≠ r.myPeerId) (serverSessionId : UInt64)
    (weAreInitiator : Bool) (nowMs : UInt64) (conn : Option ConnInfo) :
    (g.routeUpdate r.myPeerId prost serverSessionId weAreInitiator
        (g.typedItems r.myPeerId targetPeerId true nowMs) conn).payload =
      prost.encodeSyncRouteInfoRequest (r.requestSent serverSessionId weAreInitiator conn) ++
        pushLenDelimited 4 (((g.informedPeers r.myPeerId targetPeerId).filterMap
          (g.infoOf r.myPeerId)).flatMap fun info =>
            pushLenDelimited 1 (prost.encodeRoutePeerInfo info)) := by
  -- The relay's own info is there.
  have hmine : r.myPeerId ∈ g.informedPeers r.myPeerId targetPeerId := by
    refine RouteGroupData.mem_informedPeers.2 ⟨hne.symm, ?_⟩
    rw [RouteGroupData.infoOf, if_pos rfl]
    rfl
  have hitems : (g.typedItems r.myPeerId targetPeerId true nowMs).isEmpty = false := by
    rw [List.isEmpty_eq_false_iff]
    intro hempty
    rw [← g.fst_typedItems_forced r.myPeerId targetPeerId nowMs, hempty] at hmine
    exact List.not_mem_nil hmine
  unfold RouteGroupData.routeUpdate
  dsimp only
  rw [hitems, if_neg Bool.false_ne_true,
    ← g.snd_typedItems_forced r.myPeerId targetPeerId nowMs, List.flatMap_map]
  rfl

/-- The update that is built is decoded to a snapshot. -/
theorem snapshot_forced {g : RouteGroupData} {r : RouteState} {prost : Prost} {targetPeerId : PeerId}
    {serverSessionId : UInt64} {weAreInitiator : Bool} {nowMs : UInt64} {conn : Option ConnInfo}
    (hcaches : g.CachesMade r.myPeerId) (hne : targetPeerId ≠ r.myPeerId)
    (hsession : (g.sessions.lookup targetPeerId).any (·.hasTopology g.topologyVersion nowMs) = false)
    (htell : g.supportsConnList targetPeerId = true ∨ g.Tellable r.myPeerId)
    (hconn : g.connInfoFor r.myPeerId targetPeerId nowMs = .ok conn)
    (hread : prost.AppendsInfos (r.requestSent serverSessionId weAreInitiator conn)
      ((g.informedPeers r.myPeerId targetPeerId).filterMap (g.infoOf r.myPeerId))) :
    let update := g.routeUpdate r.myPeerId prost serverSessionId weAreInitiator
      (g.typedItems r.myPeerId targetPeerId true nowMs) conn
    ∃ request, prost.decodeSyncRouteInfoRequest update.payload = .ok request ∧
      Snapshot r.myPeerId targetPeerId g request update.peerInfoVersions := by
  intro update
  have hversions : update.peerInfoVersions.map Prod.fst =
      g.informedPeers r.myPeerId targetPeerId := by
    rw [← g.fst_typedItems_forced r.myPeerId targetPeerId nowMs]
    exact List.map_map
  have hpayload := @payload_forced g r prost _ hne serverSessionId weAreInitiator nowMs conn
  obtain ⟨c, rfl, hlist⟩ := RouteGroupData.connInfoFor_some hsession hconn
  obtain ⟨t, hmade⟩ := hcaches.made
    ((RouteGroupData.buildConnInfo_cases _ _ targetPeerId _ nowMs c).1 hconn)
  refine ⟨_, (congrArg prost.decodeSyncRouteInfoRequest hpayload).trans hread, ?_, fun pid => ?_, ?_,
    c, rfl, fun pid hpid => ?_⟩
  · rw [hversions]
    exact g.nodup_informedPeers r.myPeerId targetPeerId
  · rw [hversions]
    exact RouteGroupData.mem_informedPeers
  · rw [hversions]
  · exact hmade.rowsOf (htell.imp_left hlist) hpid

namespace SnapshotSample

open RoutesSample

/-- The report of the peer, which reads lists. -/
def reported : SyncRouteInfoRequest := report 1 1 [row 1 1 [relay]]

/-- The relay's own info. -/
def ownInfo : RoutePeerInfo := (RouteGroupData.new relay none draws).myInfo

/-- The request of an update for the peer, with this connection info. -/
def sent (conn : Option ConnInfo) : SyncRouteInfoRequest where
  myPeerId := relay
  mySessionId := 4
  isInitiator := false
  peerInfos := some [ownInfo]
  connInfo := conn

/-- A request as it is sent, with the infos at the end. -/
def appended (request : SyncRouteInfoRequest) : Bytes :=
  Encoding.syncRouteInfoRequest { request with peerInfos := none } ++
    pushLenDelimited 4 ((request.peerInfos.getD []).flatMap fun info =>
      pushLenDelimited 1 (Encoding.routePeerInfo info))

/-- A codec that knows the report and the request. -/
def prost (conn : Option ConnInfo) : Prost :=
  { Prost.listed [] [] [] [] [] with
    decodeSyncRouteInfoRequest := fun bytes =>
      if bytes = appended (sent conn) then .ok (sent conn)
      else Encoding.decodeListed Encoding.syncRouteInfoRequest [reported] bytes }

/-- A forced update is built. -/
def force : RouteOp := .buildSyncRouteInfoRequest "net" 1 4 false true 40 draws

/-- The peer comes and reports, and an update is forced for it. -/
def ops : List RouteOp := [join 1 0, reporting reported 10, force]

/-- Before that, it has acknowledged the topology. -/
def acknowledged : List RouteOp :=
  [join 1 0, reporting reported 10, .commitRouteUpdate "net" 1 [] (some 3) 30 draws, force]

def history (conn : Option ConnInfo) (ops : List RouteOp) : List RouteEvent :=
  (routeState (prost conn) relay).history (.new relay) ops

/-- The rows of the peer and of the relay. -/
def rows : ConnInfo := .connPeerList ⟨[row 1 1 [relay], row relay 1 [1]]⟩

theorem infosRead (conn : Option ConnInfo) (r : RouteState) (hid : r.myPeerId = relay)
    (hconn : (((r.ensureGroup "net" draws).openSession 1 4).connInfoFor relay 1 40).toOption = some conn)
    (hinfos : (((r.ensureGroup "net" draws).openSession 1 4).informedPeers relay 1).filterMap
      (((r.ensureGroup "net" draws).openSession 1 4).infoOf relay) = [ownInfo]) :
    RouteState.InfosRead (prost conn) r force := by
  intro conn' hconn'
  rw [hid] at hconn' ⊢
  obtain rfl := Option.some.inj ((Except.toOption_eq_some.2 hconn').symm.trans hconn)
  rw [hinfos, RouteState.requestSent, hid]
  exact if_pos rfl

end SnapshotSample

end EasyTierEdge
