import EasyTierEdge.Route.Sync

/-!
# The topology of a group

What the connection info of an update is made from: the members of a group, the peers
it has infos of and the connection rows. `topologyVersion` counts its changes, from `1`
and, past the largest 64-bit number, again from `1`.

* `Renews n g g'`: the group `g'` is `n` topology versions ahead of `g`. Without a new
  version the topology is the same, and so are the caches; with one the caches are empty;
* `addPeer_renews`, `removePeer_renews`, `sweep_renews`, `syncRouteInfo_renews`: so do
  the operations on a group, except that a peer with a row which is no member and has no
  info is removed without a new version (`RemovalNoted`);
* `RowsOfMembers`: when only members send requests, the members and the relay are the
  only ones with a row.
-/

namespace EasyTierEdge

/-- The version after a change. -/
def nextTopologyVersion (version : UInt64) : UInt64 := if version + 1 = 0 then 1 else version + 1

/-- The versions go round through the `2 ^ 64 - 1` numbers from `1` on. -/
theorem toNat_iterate_nextTopologyVersion {v : UInt64} (hv : v ≠ 0) (n : ℕ) :
    (nextTopologyVersion^[n] v).toNat = (v.toNat - 1 + n) % (2 ^ 64 - 1) + 1 := by
  have hpos : 0 < v.toNat := by
    rw [Nat.pos_iff_ne_zero]
    exact fun h => hv (UInt64.toNat.inj h)
  have hlt := v.toNat_lt
  induction n with
  | zero =>
    rw [Function.iterate_zero_apply, Nat.add_zero, Nat.mod_eq_of_lt (by omega)]
    omega
  | succ n ih =>
    rw [Function.iterate_succ_apply']
    generalize nextTopologyVersion^[n] v = w at ih
    have hw := w.toNat_lt
    have hsucc : (w + 1).toNat = (w.toNat + 1) % 2 ^ 64 := by
      rw [UInt64.toNat_add, UInt64.toNat_one]
    have hzero : w + 1 = 0 ↔ (w + 1).toNat = 0 := by
      rw [← UInt64.toNat_inj, UInt64.toNat_zero]
    unfold nextTopologyVersion
    split_ifs with h
    · rw [hzero, hsucc] at h
      rw [UInt64.toNat_one]
      omega
    · rw [hzero, hsucc] at h
      rw [hsucc]
      omega

/-- A version only comes back after `2 ^ 64 - 1` changes. -/
theorem iterate_nextTopologyVersion_ne {v : UInt64} (hv : v ≠ 0) {n : ℕ} (hn : n ≠ 0)
    (hlt : n < 2 ^ 64 - 1) : nextTopologyVersion^[n] v ≠ v := by
  intro h
  have hnat := toNat_iterate_nextTopologyVersion hv n
  rw [h] at hnat
  have := v.toNat_lt
  omega

theorem iterate_nextTopologyVersion_ne_zero {v : UInt64} (hv : v ≠ 0) (n : ℕ) :
    nextTopologyVersion^[n] v ≠ 0 := by
  intro h
  have hnat := toNat_iterate_nextTopologyVersion hv n
  rw [h, UInt64.toNat_zero] at hnat
  omega

/-- The members of a group, the peers it has infos of and the connection rows. -/
structure Topology where
  peers : Finset PeerId
  infos : Finset PeerId
  rows : FinMap PeerId ConnRow

namespace RouteGroupData

variable {g g' g'' : RouteGroupData} {myPeerId : PeerId}

/-- The topology of a group. -/
def topology (g : RouteGroupData) : Topology := ⟨g.peers, g.peerInfos.keys, g.connRows⟩

theorem topology_eq_iff : g'.topology = g.topology ↔
    g'.peers = g.peers ∧ g'.peerInfos.keys = g.peerInfos.keys ∧ g'.connRows = g.connRows := by
  rw [topology, topology, Topology.mk.injEq]

/-- The group `g'` is `n` topology versions ahead of `g`. -/
structure Renews (n : ℕ) (g g' : RouteGroupData) : Prop where
  version : g'.topologyVersion = nextTopologyVersion^[n] g.topologyVersion
  same : n = 0 → g'.topology = g.topology
  kept : n = 0 → g'.cachedConnPeerList = g.cachedConnPeerList ∧
    g'.cachedConnBitmap = g.cachedConnBitmap
  emptied : n ≠ 0 → g'.cachedConnPeerList = none ∧ g'.cachedConnBitmap = none

namespace Renews

variable {m n : ℕ}

/-- A group whose topology, version and caches are untouched. -/
theorem of_eq (htop : g'.topology = g.topology) (hversion : g'.topologyVersion = g.topologyVersion)
    (hlist : g'.cachedConnPeerList = g.cachedConnPeerList)
    (hbitmap : g'.cachedConnBitmap = g.cachedConnBitmap) : Renews 0 g g' :=
  ⟨hversion, fun _ => htop, fun _ => ⟨hlist, hbitmap⟩, fun h => absurd rfl h⟩

theorem refl (g : RouteGroupData) : Renews 0 g g := of_eq rfl rfl rfl rfl

/-- A group that has noted a change. -/
theorem note (hversion : g'.topologyVersion = g.topologyVersion) :
    Renews 1 g g'.noteTopologyChange :=
  ⟨congrArg nextTopologyVersion hversion, fun h => absurd h one_ne_zero,
    fun h => absurd h one_ne_zero, fun _ => ⟨rfl, rfl⟩⟩

theorem trans (h : Renews m g g') (h' : Renews n g' g'') : Renews (m + n) g g'' where
  version := by
    rw [h'.version, h.version, ← Function.iterate_add_apply, Nat.add_comm]
  same hmn := by
    obtain ⟨hm, hn⟩ := Nat.add_eq_zero_iff.1 hmn
    rw [h'.same hn, h.same hm]
  kept hmn := by
    obtain ⟨hm, hn⟩ := Nat.add_eq_zero_iff.1 hmn
    rw [(h'.kept hn).1, (h'.kept hn).2]
    exact h.kept hm
  emptied hmn := by
    rcases Nat.eq_zero_or_pos n with hn | hn
    · rw [(h'.kept hn).1, (h'.kept hn).2]
      exact h.emptied (by omega)
    · exact h'.emptied hn.ne'

/-- A change that no new version tells of leaves the topology as it was. -/
theorem topology_eq (h : Renews n g g') (hn : n < 2 ^ 64 - 1) (hzero : g.topologyVersion ≠ 0)
    (hversion : g'.topologyVersion = g.topologyVersion) : g'.topology = g.topology := by
  by_contra htop
  have hne : n ≠ 0 := fun h0 => htop (h.same h0)
  exact iterate_nextTopologyVersion_ne hzero hne hn (h.version.symm.trans hversion)

end Renews

/-! ## Members -/

/-- Adding a peer touches its session, and besides it only the topology. -/
theorem addPeer_eq (g : RouteGroupData) (myPeerId peerId : PeerId) (publicKey : Bytes) (nowMs : UInt64) :
    ∃ peers keys rows version list bitmap, g.addPeer myPeerId peerId publicKey nowMs =
      { g with
        peers, authenticatedPeerKeys := keys, connRows := rows, topologyVersion := version,
        cachedConnPeerList := list, cachedConnBitmap := bitmap
        sessions := g.sessions.upsert peerId fun s => { s with lastTouchMs := nowMs } } := by
  unfold addPeer
  dsimp only
  split_ifs
  · exact ⟨_, _, _, _, _, _, rfl⟩
  · exact ⟨_, _, _, _, _, _, rfl⟩

theorem peers_addPeer (g : RouteGroupData) (myPeerId peerId : PeerId) (publicKey : Bytes)
    (nowMs : UInt64) :
    (g.addPeer myPeerId peerId publicKey nowMs).peers = insert peerId g.peers := by
  unfold addPeer
  by_cases h : peerId ∈ g.peers
  · rw [if_pos (by exact h)]
    exact (Finset.insert_eq_of_mem h).symm
  · rw [if_neg (by exact h)]
    rfl

/-- The rows of the others are unchanged by a new row of the relay. -/
theorem lookup_updateMyConnRow {pid : PeerId} (hpid : pid ≠ myPeerId) :
    (g.updateMyConnRow myPeerId).connRows.lookup pid = g.connRows.lookup pid :=
  (Finmap.lookup_upsert _ _ _ _).trans (if_neg hpid)

/-- Only the relay has another row when a peer is added. -/
theorem lookup_addPeer_connRows (g : RouteGroupData) (peerId : PeerId) (publicKey : Bytes)
    (nowMs : UInt64) {pid : PeerId} (hpid : pid ≠ myPeerId) :
    (g.addPeer myPeerId peerId publicKey nowMs).connRows.lookup pid = g.connRows.lookup pid := by
  unfold addPeer
  dsimp only
  split_ifs
  · rfl
  · exact lookup_updateMyConnRow hpid

theorem addPeer_renews (g : RouteGroupData) (myPeerId peerId : PeerId) (publicKey : Bytes)
    (nowMs : UInt64) :
    ∃ n ≤ 1, Renews n g (g.addPeer myPeerId peerId publicKey nowMs) := by
  unfold addPeer
  by_cases h : peerId ∈ g.peers
  · exact ⟨0, zero_le_one, by rw [if_pos (by exact h)]; exact .of_eq rfl rfl rfl rfl⟩
  · exact ⟨1, le_rfl, by rw [if_neg (by exact h)]; exact .note rfl⟩

/-- The removal of a peer is noted: it is a member or has an info, or else no row is
    lost. -/
def RemovalNoted (g : RouteGroupData) (peerId : PeerId) : Prop :=
  peerId ∈ g.peers ∨ (g.peerInfos.lookup peerId).isSome ∨ g.connRows.lookup peerId = none

instance (g : RouteGroupData) (peerId : PeerId) : Decidable (g.RemovalNoted peerId) :=
  inferInstanceAs (Decidable (_ ∨ _ ∨ _))

/-- A stranger without a row leaves no trace in the topology. -/
theorem topology_forgetPeer {peerId : PeerId} (hpeers : peerId ∉ g.peers)
    (hinfo : g.peerInfos.lookup peerId = none) (hrow : g.connRows.lookup peerId = none) :
    (g.forgetPeer peerId).topology = g.topology := by
  rw [topology_eq_iff]
  refine ⟨Finset.erase_eq_of_notMem hpeers, ?_, ?_⟩
  · exact congrArg Finmap.keys (Finmap.erase_eq_self (Finmap.lookup_eq_none.1 hinfo))
  · exact Finmap.erase_eq_self (Finmap.lookup_eq_none.1 hrow)

theorem removePeer_renews (myPeerId : PeerId) {peerId : PeerId} (h : g.RemovalNoted peerId) :
    ∃ n ≤ 1, Renews n g (g.removePeer myPeerId peerId) := by
  unfold removePeer
  by_cases hpresent : (decide (peerId ∈ g.peers) || (g.peerInfos.lookup peerId).isSome) = true
  · exact ⟨1, le_rfl, by rw [if_pos (by exact hpresent)]; exact .note rfl⟩
  · refine ⟨0, zero_le_one, ?_⟩
    rw [if_neg (by exact hpresent)]
    simp only [Bool.or_eq_true, decide_eq_true_eq, not_or, Bool.not_eq_true,
      Option.isSome_eq_false_iff, Option.isNone_iff_eq_none] at hpresent
    obtain ⟨hpeers, hinfo⟩ := hpresent
    have hrow : g.connRows.lookup peerId = none := by
      rcases h with h | h | h
      · exact absurd h hpeers
      · simp [hinfo] at h
      · exact h
    exact .of_eq (topology_forgetPeer hpeers hinfo hrow) rfl rfl rfl

/-! ## Expiry -/

/-- Up to the topology version and the caches, which depend on whether it was there, a
    removed peer is forgotten and the relay's row updated if need be. -/
theorem removePeer_eq (g : RouteGroupData) (myPeerId peerId : PeerId) :
    ∃ rows version list bitmap, g.removePeer myPeerId peerId =
      { g.forgetPeer peerId with
        connRows := rows, topologyVersion := version, cachedConnPeerList := list,
        cachedConnBitmap := bitmap } := by
  unfold removePeer
  dsimp only
  split_ifs
  · exact ⟨_, _, _, _, rfl⟩
  · exact ⟨_, _, _, _, rfl⟩

@[simp] theorem peers_removePeer (g : RouteGroupData) (peerId : PeerId) :
    (g.removePeer myPeerId peerId).peers = g.peers.erase peerId := by
  obtain ⟨rows, version, list, bitmap, heq⟩ := g.removePeer_eq myPeerId peerId
  rw [heq]
  rfl

/-- Removing members, one after another. -/
theorem removePeers_renews (myPeerId : PeerId) {pids : List PeerId} (hnodup : pids.Nodup)
    (hpids : ∀ pid ∈ pids, pid ∈ g.peers) :
    ∃ n ≤ pids.length, Renews n g (pids.foldl (fun g pid => g.removePeer myPeerId pid) g) := by
  induction pids generalizing g with
  | nil => exact ⟨0, le_rfl, .refl g⟩
  | cons pid pids ih =>
    rw [List.nodup_cons] at hnodup
    rw [List.forall_mem_cons] at hpids
    obtain ⟨m, hm, hfirst⟩ := removePeer_renews myPeerId (.inl hpids.1)
    -- The other members are still members.
    obtain ⟨n, hn, hrest⟩ := ih (g := g.removePeer myPeerId pid) hnodup.2 fun q hq => by
      rw [peers_removePeer]
      exact Finset.mem_erase.2 ⟨fun h => hnodup.1 (h ▸ hq), hpids.2 q hq⟩
    refine ⟨m + n, ?_, hfirst.trans hrest⟩
    rw [List.length_cons]
    omega

theorem sweepMembers_renews (g : RouteGroupData) (myPeerId : PeerId) (nowMs : UInt64) :
    ∃ n ≤ 2 ^ 32, Renews n g (g.sweepMembers myPeerId nowMs) := by
  have hdead : ∀ pid ∈ g.deadDirect nowMs, pid ∈ g.peers := by
    intro pid hpid
    rw [deadDirect, Finset.mem_ascending] at hpid
    exact Finset.mem_of_mem_filter pid hpid
  have hnodup : (g.deadDirect nowMs).Nodup := Finset.nodup_ascending _
  obtain ⟨n, hn, h⟩ := removePeers_renews myPeerId hnodup hdead
  exact ⟨n, hn.trans (UInt32.length_le_of_nodup hnodup), h⟩

theorem topologyVersion_purgePeers (g : RouteGroupData) (pids : List PeerId) :
    (pids.foldl (fun g pid => g.purgePeer pid) g).topologyVersion = g.topologyVersion := by
  induction pids generalizing g with
  | nil => rfl
  | cons pid pids ih => exact ih (g.purgePeer pid)

/-- A sweep does not touch the relay's own info. -/
theorem myInfo_sweep (g : RouteGroupData) (nowMs : UInt64) :
    (g.sweep myPeerId nowMs).myInfo = g.myInfo ∧
      (g.sweep myPeerId nowMs).myInfoVersion = g.myInfoVersion := by
  have hmembers : ∀ (pids : List PeerId) (g : RouteGroupData),
      (pids.foldl (fun g pid => g.removePeer myPeerId pid) g).myInfo = g.myInfo ∧
        (pids.foldl (fun g pid => g.removePeer myPeerId pid) g).myInfoVersion = g.myInfoVersion := by
    intro pids
    induction pids with
    | nil => exact fun g => ⟨rfl, rfl⟩
    | cons pid pids ih =>
      intro g
      obtain ⟨_, _, _, _, heq⟩ := g.removePeer_eq myPeerId pid
      obtain ⟨hinfo, hversion⟩ := ih (g.removePeer myPeerId pid)
      rw [heq] at hinfo hversion
      rw [List.foldl_cons, heq]
      exact ⟨hinfo, hversion⟩
  have hinfos : ∀ (pids : List PeerId) (g : RouteGroupData),
      (pids.foldl (fun g pid => g.purgePeer pid) g).myInfo = g.myInfo ∧
        (pids.foldl (fun g pid => g.purgePeer pid) g).myInfoVersion = g.myInfoVersion := by
    intro pids
    induction pids with
    | nil => exact fun g => ⟨rfl, rfl⟩
    | cons pid pids ih => exact fun g => ih (g.purgePeer pid)
  obtain ⟨hinfo, hversion⟩ := hmembers (g.deadDirect nowMs) g
  unfold sweep sweepInfos
  split_ifs
  · exact ⟨hinfo, hversion⟩
  · obtain ⟨hinfo', hversion'⟩ :=
      hinfos ((g.sweepMembers myPeerId nowMs).purge nowMs) (g.sweepMembers myPeerId nowMs)
    exact ⟨hinfo'.trans hinfo, hversion'.trans hversion⟩

theorem sweepInfos_renews (g : RouteGroupData) (nowMs : UInt64) :
    ∃ n ≤ 1, Renews n g (g.sweepInfos nowMs) := by
  unfold sweepInfos
  split_ifs
  · exact ⟨0, zero_le_one, .refl g⟩
  · exact ⟨1, le_rfl, .note (topologyVersion_purgePeers g _)⟩

theorem sweep_renews (g : RouteGroupData) (myPeerId : PeerId) (nowMs : UInt64) :
    ∃ n ≤ 2 ^ 32 + 1, Renews n g (g.sweep myPeerId nowMs) := by
  obtain ⟨m, hm, hmembers⟩ := g.sweepMembers_renews myPeerId nowMs
  obtain ⟨n, hn, hinfos⟩ := sweepInfos_renews (g.sweepMembers myPeerId nowMs) nowMs
  exact ⟨m + n, by omega, hmembers.trans hinfos⟩

/-! ## Requests -/

/-- Storing infos keeps the relay's own info and everything else of the topology, and the
    peers that have one unless there is a new one to tell of. -/
structure StoredFrom (g : RouteGroupData) (acc : Stored) : Prop where
  mine : acc.group.myInfo = g.myInfo ∧ acc.group.myInfoVersion = g.myInfoVersion
  peers : acc.group.peers = g.peers
  connRows : acc.group.connRows = g.connRows
  version : acc.group.topologyVersion = g.topologyVersion
  list : acc.group.cachedConnPeerList = g.cachedConnPeerList
  bitmap : acc.group.cachedConnBitmap = g.cachedConnBitmap
  infos : acc.needBump = false → acc.group.peerInfos.keys = g.peerInfos.keys

/-- Before any info is stored, the session of the sender is touched. -/
theorem StoredFrom.touchSession (g : RouteGroupData) (fromPeerId : PeerId)
    (request : SyncRouteInfoRequest) (nowMs : UInt64) :
    StoredFrom g
      { group := g.touchSession fromPeerId request nowMs, routeChanged := false,
        needBump := false } :=
  ⟨⟨rfl, rfl⟩, rfl, rfl, rfl, rfl, rfl, fun _ => rfl⟩

theorem StoredFrom.storeInfo {acc : Stored} (h : StoredFrom g acc) (fromPeerId : PeerId)
    (nowMs : UInt64) (info : RoutePeerInfo) :
    StoredFrom g (storeInfo fromPeerId nowMs acc info) := by
  unfold RouteGroupData.storeInfo
  dsimp only
  split_ifs
  · exact h
  · exact ⟨h.mine, h.peers, h.connRows, h.version, h.list, h.bitmap, h.infos⟩
  · refine ⟨h.mine, h.peers, h.connRows, h.version, h.list, h.bitmap, fun hbump => ?_⟩
    obtain ⟨hacc, hknown⟩ := Bool.or_eq_false_iff.1 hbump
    rw [← h.infos hacc]
    -- The info replaces a stored one.
    have hmem : info.peerId ∈ acc.group.peerInfos := by
      rw [← Finmap.lookup_isSome, ← Option.not_isNone, Bool.not_eq_true']
      exact hknown
    ext pid
    rw [Finmap.mem_keys, Finmap.mem_keys]
    exact (Finmap.mem_insert).trans (or_iff_right_of_imp fun hpid => hpid ▸ hmem)

theorem StoredFrom.storeInfos {acc : Stored} (h : StoredFrom g acc) (fromPeerId : PeerId)
    (nowMs : UInt64) (infos : List RoutePeerInfo) :
    StoredFrom g (infos.foldl (RouteGroupData.storeInfo fromPeerId nowMs) acc) := by
  induction infos generalizing acc with
  | nil => exact h
  | cons info infos ih => exact ih (h.storeInfo fromPeerId nowMs info)

/-- Storing rows keeps everything else, and the rows unless the one of the sender has
    changed. -/
structure RowsFrom (g : RouteGroupData) (fromPeerId : PeerId) (acc : RouteGroupData × Bool) :
    Prop where
  group : { acc.1 with connRows := g.connRows } = g
  rows : acc.2 = false → acc.1.connRows = g.connRows
  others : ∀ pid, pid ≠ fromPeerId → acc.1.connRows.lookup pid = g.connRows.lookup pid

/-- A row is stored when it is the sender's and of a higher version; else nothing is
    changed. -/
theorem acceptRow_eq (g : RouteGroupData) (myPeerId fromPeerId : PeerId) (changed : Bool)
    (row : PeerId × UInt32 × Finset PeerId) :
    acceptRow myPeerId fromPeerId (g, changed) row =
      if (row.1 = fromPeerId ∧ row.1 ≠ myPeerId) ∧ (g.connRowFor row.1).version < row.2.1 then
        ({ g with
            connRows := g.connRows.insert row.1
              ⟨row.2.1, row.2.2.filter fun neighbor =>
                neighbor = myPeerId ∨ neighbor ∈ g.peers ∨ (g.peerInfos.lookup neighbor).isSome⟩ },
          true)
      else (g, changed) := by
  obtain ⟨pid, version, connected⟩ := row
  unfold acceptRow
  dsimp only
  by_cases hskip : pid ≠ fromPeerId ∨ pid = myPeerId ∨ version = 0
  · rw [if_pos hskip, if_neg]
    rintro ⟨⟨hpid, hmine⟩, hversion⟩
    rcases hskip with h | h | h
    · exact h hpid
    · exact hmine h
    · -- No version is below zero.
      rw [h] at hversion
      exact absurd hversion UInt32.not_lt_zero
  · have howner : pid = fromPeerId ∧ pid ≠ myPeerId :=
      ⟨by_contra fun h => hskip (.inl h), fun h => hskip (.inr (.inl h))⟩
    rw [if_neg hskip]
    by_cases hlt : (g.connRowFor pid).version < version
    · rw [if_pos hlt, if_pos ⟨howner, hlt⟩]
    · rw [if_neg hlt, if_neg fun h => hlt h.2]
      -- The version of the entry is positive: the row was there, and is put back.
      have hrow : g.connRows.lookup pid = some (g.connRowFor pid) := by
        unfold connRowFor at hlt ⊢
        cases hlookup : g.connRows.lookup pid with
        | some entry => rfl
        | none =>
          rw [hlookup] at hlt
          exact absurd (UInt32.pos_iff_ne_zero.2 fun h => hskip (.inr (.inr h))) hlt
      rw [Finmap.insert_eq_self hrow]

theorem RowsFrom.acceptRow {fromPeerId : PeerId} {acc : RouteGroupData × Bool}
    (h : RowsFrom g fromPeerId acc) (row : PeerId × UInt32 × Finset PeerId) :
    RowsFrom g fromPeerId (acceptRow myPeerId fromPeerId acc row) := by
  obtain ⟨g₁, changed⟩ := acc
  rw [acceptRow_eq]
  split_ifs with hstored
  · refine ⟨h.group, fun h => absurd h (by simp), fun q hq => ?_⟩
    refine (Finmap.lookup_insert_of_ne _ ?_).trans (h.others q hq)
    rw [hstored.1.1]
    exact hq
  · exact h

theorem RowsFrom.acceptRows {fromPeerId : PeerId} {acc : RouteGroupData × Bool}
    (h : RowsFrom g fromPeerId acc) (rows : List (PeerId × UInt32 × Finset PeerId)) :
    RowsFrom g fromPeerId (rows.foldl (RouteGroupData.acceptRow myPeerId fromPeerId) acc) := by
  induction rows generalizing acc with
  | nil => exact h
  | cons row rows ih => exact ih (h.acceptRow row)

theorem rowsFrom_storeConnRows (g : RouteGroupData) (connInfo : Option ConnInfo)
    (fromPeerId : PeerId) :
    RowsFrom g fromPeerId (g.storeConnRows myPeerId connInfo fromPeerId) := by
  have h : RowsFrom g fromPeerId (g, false) := ⟨rfl, fun _ => rfl, fun _ _ => rfl⟩
  cases connInfo with
  | none => exact h
  | some conn => exact h.acceptRows (connInfoRows conn)

/-- The infos of a request, stored. -/
def storedInfos (g : RouteGroupData) (fromPeerId : PeerId) (request : SyncRouteInfoRequest)
    (nowMs : UInt64) : Stored :=
  (request.peerInfos.getD []).foldl (storeInfo fromPeerId nowMs)
    { group := g.touchSession fromPeerId request nowMs, routeChanged := false, needBump := false }

/-- The rows of a request, stored after its infos. -/
def storedRows (g : RouteGroupData) (myPeerId fromPeerId : PeerId) (request : SyncRouteInfoRequest)
    (nowMs : UInt64) : RouteGroupData × Bool :=
  (g.storedInfos fromPeerId request nowMs).group.storeConnRows myPeerId request.connInfo fromPeerId

section Stored

variable (g : RouteGroupData) (myPeerId : PeerId) (prost : Prost) (fromPeerId : PeerId)
  (request : SyncRouteInfoRequest) (nowMs : UInt64)

theorem storedFrom_storedInfos : StoredFrom g (g.storedInfos fromPeerId request nowMs) :=
  (StoredFrom.touchSession g fromPeerId request nowMs).storeInfos fromPeerId nowMs _

theorem rowsFrom_storedRows :
    RowsFrom (g.storedInfos fromPeerId request nowMs).group fromPeerId
      (g.storedRows myPeerId fromPeerId request nowMs) :=
  rowsFrom_storeConnRows _ request.connInfo fromPeerId

/-- What a request leaves of the group: the infos and rows that were stored, with a new
    topology version if they call for one. -/
theorem snd_syncRouteInfo : (g.syncRouteInfo myPeerId prost fromPeerId request nowMs).2 =
    if (g.storedInfos fromPeerId request nowMs).needBump ||
        (g.storedRows myPeerId fromPeerId request nowMs).2 then
      (g.storedRows myPeerId fromPeerId request nowMs).1.noteTopologyChange
    else (g.storedRows myPeerId fromPeerId request nowMs).1 := rfl

theorem routeChanged_syncRouteInfo :
    (g.syncRouteInfo myPeerId prost fromPeerId request nowMs).1.routeChanged =
      ((g.storedInfos fromPeerId request nowMs).routeChanged ||
        (g.storedRows myPeerId fromPeerId request nowMs).2) := rfl

theorem syncRouteInfo_eq :
    ∃ stored acc, StoredFrom g stored ∧ RowsFrom stored.group fromPeerId acc ∧
      stored = (request.peerInfos.getD []).foldl (storeInfo fromPeerId nowMs)
        { group := g.touchSession fromPeerId request nowMs, routeChanged := false,
          needBump := false } ∧
      (g.syncRouteInfo myPeerId prost fromPeerId request nowMs).2 =
        if stored.needBump || acc.2 then acc.1.noteTopologyChange else acc.1 :=
  ⟨_, _, storedFrom_storedInfos g fromPeerId request nowMs,
    rowsFrom_storedRows g myPeerId fromPeerId request nowMs, rfl, rfl⟩

end Stored

theorem syncRouteInfo_renews (g : RouteGroupData) (myPeerId : PeerId) (prost : Prost) (fromPeerId : PeerId)
    (request : SyncRouteInfoRequest) (nowMs : UInt64) :
    ∃ n ≤ 1, Renews n g (g.syncRouteInfo myPeerId prost fromPeerId request nowMs).2 := by
  obtain ⟨stored, ⟨g₁, connRowsChanged⟩, hstored, hrows, -, heq⟩ :=
    g.syncRouteInfo_eq myPeerId prost fromPeerId request nowMs
  rw [heq]
  have hgroup : { g₁ with connRows := stored.group.connRows } = stored.group := hrows.group
  have hversion : g₁.topologyVersion = g.topologyVersion := by
    rw [← hstored.version, ← hgroup]
  cases hbump : stored.needBump || connRowsChanged with
  | true => exact ⟨1, le_rfl, .note hversion⟩
  | false =>
    obtain ⟨hinfos, hchanged⟩ := Bool.or_eq_false_iff.1 hbump
    obtain rfl : g₁ = stored.group := by
      rw [← hgroup, ← hrows.rows hchanged]
    refine ⟨0, zero_le_one, .of_eq ?_ hversion hstored.list hstored.bitmap⟩
    exact topology_eq_iff.2 ⟨hstored.peers, hstored.infos hinfos, hstored.connRows⟩

/-! ## Updates -/

theorem isEmpty_relevantPeers (g : RouteGroupData) (myPeerId targetPeerId : PeerId) :
    (g.relevantPeers myPeerId targetPeerId).isEmpty = false := by
  have hmem : targetPeerId ∈ g.relevantPeers myPeerId targetPeerId :=
    Finset.mem_ascending.2 (Finset.mem_insert_self _ _)
  rw [List.isEmpty_eq_false_iff]
  exact List.ne_nil_of_mem hmem

theorem buildConnInfo_eq (g : RouteGroupData) (relevantPeers : List PeerId) (targetPeerId : PeerId)
    (supportsConnList : Bool) (nowMs : UInt64) :
    ∃ list bitmap, (g.buildConnInfo relevantPeers targetPeerId supportsConnList nowMs).2 =
      { g with cachedConnPeerList := list, cachedConnBitmap := bitmap } := by
  unfold buildConnInfo
  split_ifs
  · exact ⟨_, _, rfl⟩
  · exact ⟨_, _, rfl⟩
  · split
    · exact ⟨_, _, rfl⟩
    · exact ⟨_, _, rfl⟩
  all_goals
    split
    · exact ⟨_, _, rfl⟩
    · exact ⟨_, _, rfl⟩

/-- The connection info of an update for a peer. -/
def connInfoFor (g : RouteGroupData) (myPeerId targetPeerId : PeerId) (nowMs : UInt64) :
    Except String (Option ConnInfo) :=
  (g.buildConnInfo (g.relevantPeers myPeerId targetPeerId) targetPeerId
    (g.supportsConnList targetPeerId) nowMs).1

/-- The group once the connection info of an update for a peer is cached. -/
def cachedFor (g : RouteGroupData) (myPeerId targetPeerId : PeerId) (nowMs : UInt64) :
    RouteGroupData :=
  (g.buildConnInfo (g.relevantPeers myPeerId targetPeerId) targetPeerId
    (g.supportsConnList targetPeerId) nowMs).2

theorem cachedFor_eq (g : RouteGroupData) (myPeerId targetPeerId : PeerId) (nowMs : UInt64) :
    ∃ list bitmap, g.cachedFor myPeerId targetPeerId nowMs =
      { g with cachedConnPeerList := list, cachedConnBitmap := bitmap } :=
  g.buildConnInfo_eq _ targetPeerId _ nowMs

@[simp] theorem topology_cachedFor (g : RouteGroupData) (myPeerId targetPeerId : PeerId) (nowMs : UInt64) :
    (g.cachedFor myPeerId targetPeerId nowMs).topology = g.topology := by
  obtain ⟨list, bitmap, heq⟩ := g.cachedFor_eq myPeerId targetPeerId nowMs
  rw [heq]
  rfl

@[simp] theorem topologyVersion_cachedFor (g : RouteGroupData) (targetPeerId : PeerId)
    (nowMs : UInt64) : (g.cachedFor myPeerId targetPeerId nowMs).topologyVersion = g.topologyVersion := by
  obtain ⟨list, bitmap, heq⟩ := g.cachedFor_eq myPeerId targetPeerId nowMs
  rw [heq]

/-- Building an update opens a session, and besides it only fills the caches. -/
theorem buildSyncRouteInfoRequest_eq (g : RouteGroupData) (prost : Prost) (targetPeerId : PeerId)
    (serverSessionId : UInt64) (weAreInitiator forceFull : Bool) (nowMs : UInt64) :
    g.buildSyncRouteInfoRequest myPeerId prost targetPeerId serverSessionId weAreInitiator forceFull
        nowMs =
      (((g.openSession targetPeerId serverSessionId).connInfoFor myPeerId targetPeerId nowMs).map
          ((g.openSession targetPeerId serverSessionId).routeUpdate myPeerId prost serverSessionId
            weAreInitiator ((g.openSession targetPeerId serverSessionId).typedItems myPeerId
              targetPeerId forceFull nowMs)),
        (g.openSession targetPeerId serverSessionId).cachedFor myPeerId targetPeerId nowMs) := by
  generalize hg : g.openSession targetPeerId serverSessionId = g'
  obtain ⟨list, bitmap, heq⟩ := g'.cachedFor_eq myPeerId targetPeerId nowMs
  unfold buildSyncRouteInfoRequest
  dsimp only
  rw [hg]
  unfold cachedFor at heq ⊢
  unfold connInfoFor
  generalize buildConnInfo _ _ _ _ _ = built at heq ⊢
  obtain ⟨connInfo, g''⟩ := built
  obtain rfl : g'' = _ := heq
  cases connInfo with
  | error e => rfl
  | ok connInfo => rfl

/-! ## The rows -/

/-- Only members, and the relay, have a row. -/
def RowsOfMembers (myPeerId : PeerId) (g : RouteGroupData) : Prop :=
  ∀ pid, pid ≠ myPeerId → pid ∉ g.peers → g.connRows.lookup pid = none

namespace RowsOfMembers

theorem of_topology (h : RowsOfMembers myPeerId g) (htop : g'.topology = g.topology) :
    RowsOfMembers myPeerId g' := by
  obtain ⟨hpeers, -, hrows⟩ := topology_eq_iff.1 htop
  intro pid hpid hmem
  rw [hrows]
  exact h pid hpid (hpeers ▸ hmem)

theorem addPeer (h : RowsOfMembers myPeerId g) (peerId : PeerId) (publicKey : Bytes)
    (nowMs : UInt64) : RowsOfMembers myPeerId (g.addPeer myPeerId peerId publicKey nowMs) := by
  intro pid hpid hpeers
  rw [peers_addPeer] at hpeers
  rw [lookup_addPeer_connRows g peerId publicKey nowMs hpid]
  exact h pid hpid fun hp => hpeers (Finset.mem_insert_of_mem hp)

theorem removePeer (h : RowsOfMembers myPeerId g) (peerId : PeerId) :
    RowsOfMembers myPeerId (g.removePeer myPeerId peerId) := by
  intro pid hpid hpeers
  rw [peers_removePeer, Finset.mem_erase, not_and_or, not_not] at hpeers
  have hforget : (g.forgetPeer peerId).connRows.lookup pid = none := by
    refine (Finmap.lookup_erase_ite _ _ _).trans ?_
    split_ifs with heq
    · rfl
    · exact h pid hpid (hpeers.resolve_left heq)
  unfold RouteGroupData.removePeer
  dsimp only
  split_ifs
  · exact (lookup_updateMyConnRow hpid).trans hforget
  · exact hforget

theorem removePeers (h : RowsOfMembers myPeerId g) (pids : List PeerId) :
    RowsOfMembers myPeerId (pids.foldl (fun g pid => g.removePeer myPeerId pid) g) := by
  induction pids generalizing g with
  | nil => exact h
  | cons pid pids ih => exact ih (h.removePeer pid)

theorem purgePeers (h : RowsOfMembers myPeerId g) (pids : List PeerId) :
    RowsOfMembers myPeerId (pids.foldl (fun g pid => g.purgePeer pid) g) := by
  induction pids generalizing g with
  | nil => exact h
  | cons pid pids ih =>
    refine ih (g := g.purgePeer pid) fun q hq hpeers => ?_
    refine (Finmap.lookup_erase_ite _ _ _).trans ?_
    split_ifs with heq
    · rfl
    · exact h q hq hpeers

theorem sweep (h : RowsOfMembers myPeerId g) (nowMs : UInt64) :
    RowsOfMembers myPeerId (g.sweep myPeerId nowMs) := by
  have hmembers : RowsOfMembers myPeerId (g.sweepMembers myPeerId nowMs) := h.removePeers _
  unfold RouteGroupData.sweep sweepInfos
  split_ifs
  · exact hmembers
  · exact hmembers.purgePeers _

/-- A request of a member keeps the rows to the members. -/
theorem syncRouteInfo (h : RowsOfMembers myPeerId g) (prost : Prost) {fromPeerId : PeerId}
    (hfrom : fromPeerId ∈ g.peers) (request : SyncRouteInfoRequest) (nowMs : UInt64) :
    RowsOfMembers myPeerId (g.syncRouteInfo myPeerId prost fromPeerId request nowMs).2 := by
  obtain ⟨stored, acc, hstored, hrows, -, heq⟩ :=
    g.syncRouteInfo_eq myPeerId prost fromPeerId request nowMs
  have hpeers : acc.1.peers = g.peers := by
    rw [← hstored.peers, ← hrows.group]
  have hacc : RowsOfMembers myPeerId acc.1 := by
    intro pid hpid hmem
    rw [hpeers] at hmem
    rw [hrows.others pid fun heq => hmem (heq ▸ hfrom), hstored.connRows]
    exact h pid hpid hmem
  rw [heq]
  split_ifs
  · exact hacc
  · exact hacc

/-- Unless it is the relay itself, the removal of a peer is noted. -/
theorem removalNoted (h : RowsOfMembers myPeerId g) {peerId : PeerId} (hne : peerId ≠ myPeerId) :
    g.RemovalNoted peerId := by
  by_cases hmem : peerId ∈ g.peers
  · exact .inl hmem
  · exact .inr (.inr (h peerId hne hmem))

end RowsOfMembers

end RouteGroupData

end EasyTierEdge
