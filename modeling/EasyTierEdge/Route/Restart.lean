import EasyTierEdge.Route.Bitmap
import EasyTierEdge.Route.Rows

/-!
# The relay's row across restarts

The updates of the relay carry its own row: the members of the network, with a version that
goes up with every member that joins or leaves. A client takes a row only if its version is
higher than that of the one it has. The version is counted from `0` in every lifetime of
the server, whereas the id of the relay stays.

* `RelayRow n g`: in a group in which `n` peers have joined or left, the relay's row has the
  version `n`, and so has the one in the caches;
* `advertised_eq`: so an update of a lifetime carries the number of peers that have joined
  or left in it, and the members;
* `relay_row_newer_iff`: a later row with other members has a higher version, and a client
  ends with the newest row it was sent, just when the later lifetime has seen more peers
  join or leave. `relay_row_refused` is a restart after which it has not.
-/

namespace EasyTierEdge

open RouteGroupData

namespace RouteGroupData

variable {g g' : RouteGroupData} {myPeerId : PeerId} {n : ℕ}

/-- The relay's row has the version `n`, here and in the caches. Only members have an info or
    a row. -/
structure RelayRow (myPeerId : PeerId) (n : ℕ) (g : RouteGroupData) : Prop
    extends Neighbours myPeerId n g where
  peerInfos : ∀ pid, (g.peerInfos.lookup pid).isSome → pid ∈ g.peers
  owners : RowsOfMembers myPeerId g
  cached : ∀ conn, g.Cached conn → conn.rowsOf myPeerId = [⟨UInt32.ofNat n, g.peers⟩]

namespace RelayRow

theorem new (myPeerId : PeerId) (id : Option UInt64) (draws : GroupDraws) :
    RelayRow myPeerId 0 (.new myPeerId id draws) := by
  refine ⟨.new myPeerId id draws, fun pid h => ?_, fun _ _ _ => rfl, fun conn h => ?_⟩
  · simp [RouteGroupData.new] at h
  · exact absurd h (not_cached_of_none rfl rfl conn)

/-- Only the sessions and the relay's own info have changed. -/
theorem quiet (h : RelayRow myPeerId n g) (sessions : FinMap PeerId SessionState)
    (info : RoutePeerInfo) (version : UInt32) :
    RelayRow myPeerId n { g with sessions, myInfo := info, myInfoVersion := version } :=
  ⟨⟨h.apart, h.noInfo, h.row⟩, h.peerInfos, h.owners, h.cached⟩

/-- A peer that is already there is added. -/
theorem addPeer_of_mem (h : RelayRow myPeerId n g) {peerId : PeerId} (hmem : peerId ∈ g.peers)
    (publicKey : Bytes) (nowMs : UInt64) :
    RelayRow myPeerId n (g.addPeer myPeerId peerId publicKey nowMs) := by
  have hrow := h.toNeighbours.addPeer_of_mem hmem publicKey nowMs
  have howners := h.owners.addPeer peerId publicKey nowMs
  unfold RouteGroupData.addPeer at hrow howners ⊢
  rw [if_pos (by exact hmem)] at hrow howners ⊢
  exact ⟨hrow, h.peerInfos, howners, h.cached⟩

/-- A peer joins: the caches are emptied. -/
theorem addPeer_of_notMem (h : RelayRow myPeerId n g) {peerId : PeerId} (hmem : peerId ∉ g.peers)
    (hne : peerId ≠ myPeerId) (publicKey : Bytes) (nowMs : UInt64) :
    RelayRow myPeerId (n + 1) (g.addPeer myPeerId peerId publicKey nowMs) := by
  have hcached : ∀ conn, ¬ (g.addPeer myPeerId peerId publicKey nowMs).Cached conn := by
    unfold RouteGroupData.addPeer
    rw [if_neg (by exact hmem)]
    exact not_cached_of_none rfl rfl
  obtain ⟨peers, keys, rows, version, list, bitmap, heq⟩ :=
    g.addPeer_eq myPeerId peerId publicKey nowMs
  have hinfos : (g.addPeer myPeerId peerId publicKey nowMs).peerInfos = g.peerInfos := by
    rw [heq]
  refine ⟨h.toNeighbours.addPeer_of_notMem hmem hne publicKey nowMs, fun pid hpid => ?_,
    h.owners.addPeer peerId publicKey nowMs, fun conn hconn => absurd hconn (hcached conn)⟩
  rw [hinfos] at hpid
  rw [peers_addPeer]
  exact Finset.mem_insert_of_mem (h.peerInfos pid hpid)

/-- Nobody but the members that stay has an info once a peer is removed. -/
theorem peerInfos_removePeer (h : RelayRow myPeerId n g) (peerId : PeerId) :
    ∀ pid, ((g.removePeer myPeerId peerId).peerInfos.lookup pid).isSome →
      pid ∈ (g.removePeer myPeerId peerId).peers := by
  intro pid hpid
  rw [(g.removed_removePeer myPeerId peerId).peerInfos] at hpid
  split_ifs at hpid with hpid'
  · simp at hpid
  · rw [peers_removePeer, Finset.mem_erase]
    exact ⟨fun heq => hpid' (List.mem_singleton.2 heq), h.peerInfos pid hpid⟩

/-- A peer that is not there is removed. -/
theorem removePeer_of_notMem (h : RelayRow myPeerId n g) {peerId : PeerId} (hmem : peerId ∉ g.peers)
    (hne : peerId ≠ myPeerId) : RelayRow myPeerId n (g.removePeer myPeerId peerId) := by
  refine ⟨h.toNeighbours.removePeer_of_notMem hmem hne, h.peerInfos_removePeer peerId,
    h.owners.removePeer peerId, fun conn hconn => ?_⟩
  have hunknown : ¬ (peerId ∈ g.peers ∨ (g.peerInfos.lookup peerId).isSome) := by
    rintro (hpeer | hinfo)
    · exact hmem hpeer
    · exact hmem (h.peerInfos peerId hinfo)
  rw [removePeer_unknown hunknown] at hconn
  rw [peers_removePeer, Finset.erase_eq_of_notMem hmem]
  exact h.cached conn hconn

/-- A member leaves: the caches are emptied. -/
theorem removePeer_of_mem (h : RelayRow myPeerId n g) {peerId : PeerId} (hmem : peerId ∈ g.peers) :
    RelayRow myPeerId (n + 1) (g.removePeer myPeerId peerId) := by
  obtain ⟨-, hcached⟩ := @removePeer_noted g myPeerId peerId (.inl hmem)
  exact ⟨h.toNeighbours.removePeer_of_mem hmem, h.peerInfos_removePeer peerId,
    h.owners.removePeer peerId, fun conn hconn => absurd hconn (hcached conn)⟩

/-- Members leave, one after another. -/
theorem removePeers (h : RelayRow myPeerId n g) {pids : List PeerId} (hnodup : pids.Nodup)
    (hpids : ∀ pid ∈ pids, pid ∈ g.peers) :
    RelayRow myPeerId (n + pids.length) (g.removePeers myPeerId pids) := by
  induction pids generalizing g n with
  | nil => exact h
  | cons pid pids ih =>
    rw [List.nodup_cons] at hnodup
    rw [List.forall_mem_cons] at hpids
    have hrest := ih (h.removePeer_of_mem hpids.1) hnodup.2 fun q hq => by
      rw [peers_removePeer]
      exact Finset.mem_erase.2 ⟨fun heq => hnodup.1 (heq ▸ hq), hpids.2 q hq⟩
    rw [List.length_cons, Nat.add_comm pids.length, ← Nat.add_assoc]
    exact hrest

/-- Expired infos are purged. -/
theorem sweepInfos (h : RelayRow myPeerId n g) (nowMs : UInt64) :
    RelayRow myPeerId n (g.sweepInfos nowMs) := by
  obtain ⟨hpeers, hinfos, hrows, hcached⟩ := g.sweepInfos_eq nowMs
  refine ⟨h.toNeighbours.sweepInfos nowMs, fun pid hpid => ?_, fun pid hpid hmem => ?_,
    fun conn hconn => ?_⟩
  · rw [hinfos] at hpid
    split_ifs at hpid
    · simp at hpid
    · exact hpeers ▸ h.peerInfos pid hpid
  · rw [hrows]
    split_ifs
    · rfl
    · exact h.owners pid hpid (hpeers ▸ hmem)
  · rw [hpeers]
    exact h.cached conn (hcached conn hconn)

/-- A sweep removes the silent members. -/
theorem sweep (h : RelayRow myPeerId n g) (nowMs : UInt64) :
    RelayRow myPeerId (n + (g.deadDirect nowMs).length) (g.sweep myPeerId nowMs) := by
  refine RelayRow.sweepInfos ?_ nowMs
  refine h.removePeers (Finset.nodup_ascending _) fun pid hpid => ?_
  rw [deadDirect, Finset.mem_ascending] at hpid
  exact Finset.mem_of_mem_filter pid hpid

/-- A request of a member. -/
theorem syncRouteInfo (h : RelayRow myPeerId n g) (prost : Prost) {fromPeerId : PeerId}
    (hfrom : fromPeerId ∈ g.peers) (request : SyncRouteInfoRequest) (nowMs : UInt64) :
    RelayRow myPeerId n (g.syncRouteInfo myPeerId prost fromPeerId request nowMs).2 := by
  have hne : fromPeerId ≠ myPeerId := fun heq => h.apart (heq ▸ hfrom)
  obtain ⟨howner, -⟩ := syncRouteInfo_owner hne g prost request nowMs
  obtain ⟨m, -, hrenews⟩ := g.syncRouteInfo_renews myPeerId prost fromPeerId request nowMs
  refine ⟨h.toNeighbours.syncRouteInfo prost hne request nowMs, fun pid hpid => ?_,
    h.owners.syncRouteInfo prost hfrom request nowMs, fun conn hconn => ?_⟩
  · rw [howner.peers]
    by_cases heq : pid = fromPeerId
    · exact heq ▸ hfrom
    · exact h.peerInfos pid (howner.peerInfos pid heq ▸ hpid)
  · rw [howner.peers]
    -- The caches are as they were, or empty.
    by_cases hm : m = 0
    · refine h.cached conn ?_
      unfold Cached at hconn ⊢
      rw [(hrenews.kept hm).1, (hrenews.kept hm).2] at hconn
      exact hconn
    · obtain ⟨hlist, hbitmap⟩ := hrenews.emptied hm
      exact absurd hconn (not_cached_of_none hlist hbitmap conn)

end RelayRow

/-! ## Updates -/

namespace RelayRow

/-- The relay's row in a connection info. -/
theorem rowsOf (h : RelayRow myPeerId n g) {targetPeerId : PeerId} {conn : ConnInfo}
    (hconn : g.CachedOrMade (g.relevantPeers myPeerId targetPeerId) conn) :
    conn.rowsOf myPeerId = [⟨UInt32.ofNat n, g.peers⟩] := by
  have hnodup : (g.relevantPeers myPeerId targetPeerId).Nodup := Finset.nodup_ascending _
  have hmine : myPeerId ∈ g.relevantPeers myPeerId targetPeerId := by
    rw [relevantPeers, Finset.mem_ascending]
    exact Finset.mem_insert_of_mem (Finset.mem_insert_self _ _)
  rcases hconn with hconn | rfl | ⟨hlength, rfl⟩
  · exact h.cached conn hconn
  · rw [rowsOf_eq (g.connInfoRows_connPeerListOf _) hnodup hmine, h.row]
  · let rows (pid : PeerId) : ConnRow :=
      { version := (g.connRowFor pid).version
        connected := ((g.relevantPeers myPeerId targetPeerId).filter fun q => q ≠ pid ∧
          (q ∈ (g.connRowFor pid).connected ∨ pid ∈ (g.connRowFor q).connected)).toFinset }
    have hrow : rows myPeerId = ⟨UInt32.ofNat n, g.peers⟩ := by
      dsimp only [rows]
      rw [h.row, ConnRow.mk.injEq]
      refine ⟨rfl, ?_⟩
      ext q
      rw [List.mem_toFinset, List.mem_filter, decide_eq_true_iff]
      constructor
      · rintro ⟨-, hne, hlink | hlink⟩
        · exact hlink
        · -- Whoever names the relay has a row, and is a member.
          by_contra hmem
          rw [connRowFor, h.owners q hne hmem] at hlink
          exact absurd hlink (Finset.notMem_empty myPeerId)
      · intro hmem
        refine ⟨?_, fun heq => h.apart (heq ▸ hmem), .inl hmem⟩
        rw [relevantPeers, Finset.mem_ascending, knownIds]
        simp [hmem]
    have hrows := @rowsOf_eq _ _ rows (g.connInfoRows_connBitmapOf hnodup hlength) hnodup _ hmine
    rw [hrows, hrow]

/-- Building an update. -/
theorem cachedFor (h : RelayRow myPeerId n g) (targetPeerId : PeerId) (nowMs : UInt64) :
    RelayRow myPeerId n (g.cachedFor myPeerId targetPeerId nowMs) := by
  have hrow := h.toNeighbours.cachedFor targetPeerId nowMs
  obtain ⟨list, bitmap, heq⟩ := g.cachedFor_eq myPeerId targetPeerId nowMs
  have hcached : ∀ conn, (g.cachedFor myPeerId targetPeerId nowMs).Cached conn →
      conn.rowsOf myPeerId = [⟨UInt32.ofNat n, g.peers⟩] := by
    intro conn hconn
    exact h.rowsOf ((g.buildConnInfo_cases _ targetPeerId _ nowMs conn).2 hconn)
  rw [heq] at hrow hcached ⊢
  exact ⟨hrow, h.peerInfos, h.owners, hcached⟩

end RelayRow

end RouteGroupData

/-! ## One lifetime -/

namespace RouteState

/-- Requests come from members. -/
def SentByMember (r : RouteState) : RouteOp → Prop
  | .handleSyncRouteInfoRequest network fromPeerId _ _ _ => fromPeerId ∈ r.members network
  | _ => True

instance decidableSentByMember (r : RouteState) : DecidablePred r.SentByMember
  | .handleSyncRouteInfoRequest .. => inferInstanceAs (Decidable (_ ∈ _))
  | .addPeer .. => isTrue trivial
  | .removePeer .. => isTrue trivial
  | .setPersistedRouteId .. => isTrue trivial
  | .myPeerRouteId .. => isTrue trivial
  | .sweepExpiredRouteInfo .. => isTrue trivial
  | .onRouteSessionAck .. => isTrue trivial
  | .commitRouteUpdate .. => isTrue trivial
  | .setHostname .. => isTrue trivial
  | .setMyNoisePublicKey .. => isTrue trivial
  | .setMyAvoidRelayData .. => isTrue trivial
  | .buildSyncRouteInfoRequest .. => isTrue trivial

/-- The connection info in the update that a call builds for a peer of a network. -/
def connInfoSent (r : RouteState) (network : String) : RouteOp → Option ConnInfo
  | .buildSyncRouteInfoRequest n targetPeerId serverSessionId _ _ nowMs draws =>
    if n = network then
      (((r.ensureGroup n draws).openSession targetPeerId serverSessionId).connInfoFor r.myPeerId
        targetPeerId nowMs).toOption.join
    else none
  | _ => none

end RouteState

section Lifetime

variable {prost : Prost} {r : RouteState} {network : String} {n : ℕ}

/-- The relay's row of the group of a network has the version `n`. -/
def RelayRowOf (network : String) (n : ℕ) (r : RouteState) : Prop :=
  ∀ draws, RelayRow r.myPeerId n (r.ensureGroup network draws)

theorem RelayRowOf.new (myPeerId : PeerId) : RelayRowOf network 0 (.new myPeerId) :=
  fun draws => .new myPeerId _ draws

/-- The relay's row in an update. -/
theorem RelayRowOf.rowsOf (h : RelayRowOf network n r) {op : RouteOp} {conn : ConnInfo}
    (hconn : r.connInfoSent network op = some conn) :
    conn.rowsOf r.myPeerId = [⟨UInt32.ofNat n, r.members network⟩] := by
  cases op with
  | buildSyncRouteInfoRequest m targetPeerId serverSessionId weAreInitiator forceFull nowMs draws =>
    unfold RouteState.connInfoSent at hconn
    dsimp only at hconn
    split_ifs at hconn with hm
    subst hm
    rw [Option.join_eq_some_iff, Except.toOption_eq_some] at hconn
    have hopened : RelayRow r.myPeerId n
        ((r.ensureGroup m draws).openSession targetPeerId serverSessionId) :=
      (h draws).quiet _ _ _
    rw [hopened.rowsOf ((buildConnInfo_cases _ _ targetPeerId _ nowMs conn).1 hconn),
      r.members_eq m draws]
    rfl
  | _ => exact absurd hconn (by simp [RouteState.connInfoSent])

/-- A call raises the version by the number of members that join or leave in it. -/
theorem RelayRowOf.step (h : RelayRowOf network n r) {op : RouteOp} (hop : r.RelayApart op)
    (hsent : r.SentByMember op) :
    RelayRowOf network (n + r.turnover prost network op) (r.step prost op).1 := by
  intro draws
  have hstep := @RouteState.step_members prost r network op hop draws
  rw [RouteState.myPeerId_step]
  generalize r.turnover prost network op = k at hstep ⊢
  generalize (r.step prost op).1.ensureGroup network draws = g' at hstep ⊢
  cases hstep with
  | quiet draws sessions info version => exact (h draws).quiet sessions info version
  | present peerId publicKey nowMs draws hmem =>
    exact (h draws).addPeer_of_mem hmem publicKey nowMs
  | joined peerId publicKey nowMs draws hmem =>
    exact (h draws).addPeer_of_notMem hmem hop publicKey nowMs
  | absent peerId draws hmem => exact (h draws).removePeer_of_notMem hmem hop
  | left peerId draws hmem => exact (h draws).removePeer_of_mem hmem
  | swept nowMs hg =>
    have hgroup := h draws
    rw [RouteState.ensureGroup_of_lookup hg] at hgroup
    exact hgroup.sweep nowMs
  | built targetPeerId serverSessionId weAreInitiator forceFull nowMs draws =>
    have hopened : RelayRow r.myPeerId n
        ((r.ensureGroup network draws).openSession targetPeerId serverSessionId) :=
      (h draws).quiet _ _ _
    exact hopened.cachedFor targetPeerId nowMs
  | synced fromPeerId requestBytes request nowMs draws =>
    have hfrom : fromPeerId ∈ (r.ensureGroup network draws).peers := by
      rw [← r.members_eq network draws]
      exact hsent
    exact (h draws).syncRouteInfo prost hfrom request nowMs

/-- The rows of the relay in the updates of a history. -/
def advertised (network : String) (tr : List RouteEvent) : List ConnRow :=
  tr.flatMap fun e => (e.pre.connInfoSent network e.input).elim [] (·.rowsOf e.pre.myPeerId)

/-- For each of the updates of a history that have a connection info, how many members have
    joined or left by then, and who is a member. -/
def memberships (prost : Prost) (network : String) : ℕ → List RouteEvent → List (ℕ × Finset PeerId)
  | _, [] => []
  | n, e :: tr =>
    (if (e.pre.connInfoSent network e.input).isSome then [(n, e.pre.members network)] else []) ++
      memberships prost network (n + e.pre.turnover prost network e.input) tr

/-- The row of the relay with these members, `m.1` of them having joined or left. -/
def rowAt (m : ℕ × Finset PeerId) : ConnRow := ⟨UInt32.ofNat m.1, m.2⟩

/-- The history of a lifetime, from a state that is reached in it. -/
def lifetime (prost : Prost) (r : RouteState) (ops : List RouteOp) : List RouteEvent :=
  (routeState prost r.myPeerId).history r ops

theorem lifetime_cons (r : RouteState) (op : RouteOp) (ops : List RouteOp) :
    lifetime prost r (op :: ops) =
      (routeState prost r.myPeerId).event r op :: lifetime prost (r.step prost op).1 ops := by
  rw [lifetime, lifetime, RouteState.myPeerId_step]
  rfl

/-- The calls are by others than the relay, and the requests by members. -/
def WellSent (tr : List RouteEvent) : Prop :=
  Along (fun _ e => e.pre.RelayApart e.input ∧ e.pre.SentByMember e.input) tr

instance decidableWellSent : DecidablePred WellSent :=
  fun tr => inferInstanceAs (Decidable (Along _ tr))

/-- An update has the relay's row with the members, and with the number of those that have
    joined or left. -/
theorem advertised_eq (h : RelayRowOf network n r) (ops : List RouteOp)
    (hops : WellSent (lifetime prost r ops)) :
    advertised network (lifetime prost r ops) =
      (memberships prost network n (lifetime prost r ops)).map rowAt := by
  induction ops generalizing r n with
  | nil => rfl
  | cons op ops ih =>
    rw [lifetime_cons] at hops ⊢
    obtain ⟨⟨hop, hsent⟩, hops⟩ := Along.cons_iff.1 hops
    have hrest := ih (h.step hop hsent) hops
    rw [advertised, List.flatMap_cons, memberships, List.map_append]
    refine congrArg₂ (· ++ ·) ?_ hrest
    change (r.connInfoSent network op).elim [] (·.rowsOf r.myPeerId) =
      (if (r.connInfoSent network op).isSome then [(n, r.members network)] else []).map rowAt
    cases hconn : r.connInfoSent network op with
    | none => rfl
    | some conn => exact h.rowsOf hconn

/-- Within a lifetime the members are as they were, or more have joined or left. -/
theorem le_of_mem_memberships {ops : List RouteOp} {m : ℕ × Finset PeerId}
    (hm : m ∈ memberships prost network n (lifetime prost r ops)) :
    n ≤ m.1 ∧ (m.2 ≠ r.members network → n < m.1) ∧
      m.1 ≤ n + changes prost network (lifetime prost r ops) := by
  induction ops generalizing r n with
  | nil => exact absurd hm List.not_mem_nil
  | cons op ops ih =>
    rw [lifetime_cons] at hm ⊢
    rw [changes, List.map_cons, List.sum_cons]
    rw [memberships, List.mem_append] at hm
    rcases hm with hm | hm
    · obtain ⟨-, hm⟩ := List.mem_ite_nil_right.1 hm
      obtain rfl := List.mem_singleton.1 hm
      exact ⟨le_rfl, fun hne => absurd rfl hne, Nat.le_add_right _ _⟩
    · obtain ⟨hle, hlt, hbound⟩ := ih hm
      change n + r.turnover prost network op ≤ m.1 at hle
      refine ⟨(Nat.le_add_right _ _).trans hle, fun hne => ?_, ?_⟩
      · by_cases hturn : r.turnover prost network op = 0
        · -- The members are those from before the call.
          have hsame : r.members network = (r.step prost op).1.members network :=
            eq_of_turnover hturn
          exact (Nat.le_add_right _ _).trans_lt (hlt (hsame ▸ hne))
        · exact (Nat.lt_add_of_pos_right (Nat.pos_of_ne_zero hturn)).trans_le hle
      · rw [← Nat.add_assoc]
        exact hbound

/-- Within a lifetime other members come with a higher number. -/
theorem pairwise_memberships (ops : List RouteOp) :
    (memberships prost network n (lifetime prost r ops)).Pairwise fun m m' =>
      m'.2 ≠ m.2 → m.1 < m'.1 := by
  induction ops generalizing r n with
  | nil => exact .nil
  | cons op ops ih =>
    rw [lifetime_cons, memberships]
    split_ifs
    · refine List.pairwise_cons.2 ⟨fun m' hm' hne => ?_, ih⟩
      have hfirst : m' ∈ memberships prost network n (lifetime prost r (op :: ops)) := by
        rw [lifetime_cons, memberships]
        exact List.mem_append_right _ hm'
      exact (le_of_mem_memberships hfirst).2.1 hne
    · exact ih

end Lifetime

/-! ## Clients -/

/-- What a client has once it is sent a row: the new one, if its version is higher. -/
def takeRow (row new : ConnRow) : ConnRow := if row.version < new.version then new else row

theorem foldl_takeRow_mem (rows : List ConnRow) :
    rows.foldl takeRow default = default ∨ rows.foldl takeRow default ∈ rows := by
  induction rows using List.reverseRecOn with
  | nil => exact .inl rfl
  | append_singleton rows row ih =>
    rw [List.foldl_append, List.foldl_cons, List.foldl_nil, takeRow]
    split_ifs
    · exact .inr (List.mem_append_right _ (List.mem_singleton_self row))
    · exact ih.imp_right (List.mem_append_left _)

/-- A client that is sent rows of which any other neighbours come with a higher version has
    the neighbours of the last one. -/
theorem foldl_takeRow {rows : List ConnRow}
    (hrows : rows.Pairwise fun row row' => row'.connected ≠ row.connected → row.version < row'.version)
    (hzero : ∀ row ∈ rows, row.version = 0 → row.connected = ∅) :
    ∀ row, rows.getLast? = some row → (rows.foldl takeRow default).connected = row.connected := by
  intro last hlast
  obtain ⟨init, rfl⟩ := List.getLast?_eq_some_iff.1 hlast
  obtain ⟨-, -, hnewer⟩ := List.pairwise_append.1 hrows
  have hmem : last ∈ init ++ [last] := List.mem_append_right _ (List.mem_singleton_self last)
  rw [List.foldl_append, List.foldl_cons, List.foldl_nil, takeRow]
  split_ifs with hlt
  · rfl
  by_contra hne
  refine hlt ?_
  -- The row that is kept is one of those sent, or the client has none yet.
  rcases foldl_takeRow_mem init with hdefault | hkept
  · rw [hdefault] at hne ⊢
    exact UInt32.pos_iff_ne_zero.2 fun hversion => hne (hzero last hmem hversion).symm
  · exact hnewer _ hkept last (List.mem_singleton_self last) (Ne.symm hne)

/-! ## Lifetimes -/

/-- Of the rows sent, one with other neighbours than an earlier one has a higher version, so
    that a client has the neighbours of the last row that it was sent, whichever these
    are. -/
def EndsWithNewest (rows : List ConnRow) : Prop :=
  (rows.Pairwise fun row row' => row'.connected ≠ row.connected → row.version < row'.version) ∧
    ∀ seen : List ConnRow, seen.Sublist rows → ∀ last, seen.getLast? = some last →
      (seen.foldl takeRow default).connected = last.connected

/-- The rows of the relay in the updates of several lifetimes. -/
def relayRowsSent (prost : Prost) (myPeerId : PeerId) (network : String)
    (lives : List (List RouteOp)) : List ConnRow :=
  lives.flatMap fun ops => advertised network (lifetime prost (.new myPeerId) ops)

/-- By the time of an update of the second lifetime with other members than one of the first
    lifetime, more members have joined or left than by the time of that one. -/
def Outnumbered (prost : Prost) (myPeerId : PeerId) (network : String) (ops ops' : List RouteOp) :
    Prop :=
  ∀ m ∈ memberships prost network 0 (lifetime prost (.new myPeerId) ops),
    ∀ m' ∈ memberships prost network 0 (lifetime prost (.new myPeerId) ops'),
      m'.2 ≠ m.2 → m.1 < m'.1

instance decidableOutnumbered (prost : Prost) (myPeerId : PeerId) (network : String) :
    DecidableRel (Outnumbered prost myPeerId network) :=
  fun _ _ => inferInstanceAs (Decidable (∀ _ ∈ _, _))

theorem rowAt_lt {m m' : ℕ × Finset PeerId} (h : m.1 < 2 ^ 32) (h' : m'.1 < 2 ^ 32) :
    (rowAt m).version < (rowAt m').version ↔ m.1 < m'.1 := by
  rw [UInt32.lt_iff_toNat_lt, rowAt, rowAt, UInt32.toNat_ofNat_of_lt' h,
    UInt32.toNat_ofNat_of_lt' h']

/-- A client ends with the newest row of the relay just when, of any two updates from
    different lifetimes with different members, more members have joined or left in the later
    lifetime than in the earlier one by the time of the update. -/
theorem relay_row_newer_iff (prost : Prost) (myPeerId : PeerId) (network : String)
    (lives : List (List RouteOp))
    (hops : ∀ ops ∈ lives, WellSent (lifetime prost (.new myPeerId) ops))
    (hchanges : ∀ ops ∈ lives, changes prost network (lifetime prost (.new myPeerId) ops) < 2 ^ 32) :
    EndsWithNewest (relayRowsSent prost myPeerId network lives) ↔
      lives.Pairwise (Outnumbered prost myPeerId network) := by
  have hrows : relayRowsSent prost myPeerId network lives = lives.flatMap fun ops =>
      (memberships prost network 0 (lifetime prost (.new myPeerId) ops)).map rowAt :=
    List.flatMap_congr fun ops hmem => advertised_eq (.new myPeerId) ops (hops ops hmem)
  have hbound : ∀ ops ∈ lives,
      ∀ m ∈ memberships prost network 0 (lifetime prost (.new myPeerId) ops), m.1 < 2 ^ 32 := by
    intro ops hmem m hm
    have hle := (le_of_mem_memberships hm).2.2
    rw [Nat.zero_add] at hle
    exact hle.trans_lt (hchanges ops hmem)
  have hpair : ((relayRowsSent prost myPeerId network lives).Pairwise fun row row' =>
      row'.connected ≠ row.connected → row.version < row'.version) ↔
      lives.Pairwise (Outnumbered prost myPeerId network) := by
    rw [hrows, List.pairwise_flatMap]
    refine ⟨fun h => h.2.imp_of_mem ?_, fun h => ⟨fun ops hmem => ?_, h.imp_of_mem ?_⟩⟩
    · intro ops ops' hmem hmem' hnewer m hm m' hm' hne
      refine (rowAt_lt (hbound ops hmem m hm) (hbound ops' hmem' m' hm')).1 ?_
      exact hnewer _ (List.mem_map_of_mem hm) _ (List.mem_map_of_mem hm') hne
    · refine List.pairwise_map.2 ((pairwise_memberships ops).imp_of_mem ?_)
      intro m m' hm hm' hnewer hne
      exact (rowAt_lt (hbound ops hmem m hm) (hbound ops hmem m' hm')).2 (hnewer hne)
    · intro ops ops' hmem hmem' hnewer row hrow row' hrow' hne
      obtain ⟨m, hm, rfl⟩ := List.mem_map.1 hrow
      obtain ⟨m', hm', rfl⟩ := List.mem_map.1 hrow'
      exact (rowAt_lt (hbound ops hmem m hm) (hbound ops' hmem' m' hm')).2 (hnewer m hm m' hm' hne)
  refine ⟨fun h => hpair.1 h.1, fun h => ⟨hpair.2 h, fun seen hseen => ?_⟩⟩
  refine foldl_takeRow ((hpair.2 h).sublist hseen) fun row hrow hversion => ?_
  -- Before anyone has joined there are no members.
  have hsent := hseen.subset hrow
  rw [hrows] at hsent
  obtain ⟨ops, hmem, hrow⟩ := List.mem_flatMap.1 hsent
  obtain ⟨m, hm, rfl⟩ := List.mem_map.1 hrow
  by_contra hne
  have hpos := (le_of_mem_memberships hm).2.1 hne
  have hzero := congrArg UInt32.toNat hversion
  rw [rowAt, UInt32.toNat_ofNat_of_lt' (hbound ops hmem m hm)] at hzero
  exact hpos.ne' hzero

namespace RestartSample

open RoutesSample

/-- A peer joins and an update is built for it. -/
def greet (peer : PeerId) : List RouteOp := [join peer 0, build peer 10]

/-- A codec that nothing is sent to. -/
def prost : Prost := Prost.listed [] [] [] [] []

/-- After a restart the first peer joins again, and then the second one. -/
def rejoined : List (List RouteOp) := [greet 1, join 1 0 :: greet 2]

theorem relay_row_newer_iff_rejoined :
    (∀ ops ∈ rejoined, WellSent (lifetime prost (.new relay) ops)) ∧
      relayRowsSent prost relay "net" rejoined = [⟨1, {1}⟩, ⟨2, {1, 2}⟩] ∧
      EndsWithNewest (relayRowsSent prost relay "net" rejoined) := by
  have hops : ∀ ops ∈ rejoined, WellSent (lifetime prost (.new relay) ops) := by decide +kernel
  have hchanges : ∀ ops ∈ rejoined,
      changes prost "net" (lifetime prost (.new relay) ops) < 2 ^ 32 := by decide +kernel
  refine ⟨hops, by decide +kernel, ?_⟩
  exact (relay_row_newer_iff prost relay "net" rejoined hops hchanges).2 (by decide +kernel)

/-- After a restart the second peer joins, and not the first one. -/
def replaced : List (List RouteOp) := [greet 1, greet 2]

/-- The rows of both lifetimes have the version `1`: whoever has got the first one refuses
    the second one. -/
theorem relay_row_refused :
    (∀ ops ∈ replaced, WellSent (lifetime prost (.new relay) ops)) ∧
      relayRowsSent prost relay "net" replaced = [⟨1, {1}⟩, ⟨1, {2}⟩] ∧
      ¬ EndsWithNewest (relayRowsSent prost relay "net" replaced) := by
  have hrows : relayRowsSent prost relay "net" replaced = [⟨1, {1}⟩, ⟨1, {2}⟩] := by decide +kernel
  refine ⟨by decide +kernel, hrows, fun h => ?_⟩
  rw [hrows] at h
  exact absurd (h.2 _ (List.Sublist.refl _) ⟨1, {2}⟩ rfl) (by decide)

end RestartSample

end EasyTierEdge
