import EasyTierEdge.Lib.Except
import EasyTierEdge.Route.Owner

/-!
# Ghosts in the connection info

The connection info of an update names peers: the owners of its rows and, in a list, the
neighbours of each row; the neighbours in a bitmap are among the owners. A *ghost* is a
peer that is named but not known to the relay: neither itself, nor a member, nor one with
an info.

Neighbours that are not known are left out of a row when it is stored, but a row is not
looked at again when a neighbour is removed. So there are no ghosts as long as the peers
that are removed, or swept because they are silent, are not named by the rows that stay
(`LeavesNoName`).

* `Unhaunted`: the members are the only peers with an info or a row, and the rows and
  the cached connection infos name nobody else but the relay;
* `connInfo_names_present`: then an update for a member names present peers;
* `no_ghosts`: so it is in every run in which the members alone send requests, and which
  leaves no name behind. `no_ghosts_fails` is a run that does leave one.
-/

namespace EasyTierEdge

/-- A connection info names a peer: the peer owns a row, or is a neighbour in one. -/
def ConnInfo.Names : ConnInfo → PeerId → Prop
  | .connPeerList list, pid => ∃ row ∈ list.peerConnInfos,
      (∃ pv ∈ row.peerId, pv.peerId = pid) ∨ pid ∈ row.connectedPeerIds
  | .connBitmap bitmap, pid => ∃ pv ∈ bitmap.peerIds, pv.peerId = pid

namespace RouteGroupData

variable {g g' : RouteGroupData} {myPeerId : PeerId}

/-! ## Removing peers -/

/-- The group once the peers of the list are removed, one after another. -/
def removePeers (g : RouteGroupData) (myPeerId : PeerId) (pids : List PeerId) : RouteGroupData :=
  pids.foldl (fun g pid => g.removePeer myPeerId pid) g

/-- What is left when the peers of the list are removed. The row of the relay is looked at
    apart: it is made anew. -/
structure Removed (myPeerId : PeerId) (pids : List PeerId) (g g' : RouteGroupData) : Prop where
  peers : g'.peers = g.peers \ pids.toFinset
  peerInfos : ∀ pid, g'.peerInfos.lookup pid =
    if pid ∈ pids then none else g.peerInfos.lookup pid
  connRows : ∀ pid, pid ≠ myPeerId → g'.connRows.lookup pid =
    if pid ∈ pids then none else g.connRows.lookup pid
  reachable : ∀ pid nowMs, pid ∉ pids → (g'.sessions.lookup pid).any (·.reachable nowMs) =
    (g.sessions.lookup pid).any (·.reachable nowMs)

namespace Removed

theorem nil (myPeerId : PeerId) (g : RouteGroupData) : Removed myPeerId [] g g := by
  refine ⟨by simp, fun _ => ?_, fun _ _ => ?_, fun _ _ _ => rfl⟩
  · rw [if_neg List.not_mem_nil]
  · rw [if_neg List.not_mem_nil]

theorem cons {g'' : RouteGroupData} {pid : PeerId} {pids : List PeerId}
    (h : Removed myPeerId [pid] g g') (h' : Removed myPeerId pids g' g'') :
    Removed myPeerId (pid :: pids) g g'' where
  peers := by
    ext q
    rw [h'.peers, h.peers]
    simp only [Finset.mem_sdiff, List.mem_toFinset, List.mem_cons, List.not_mem_nil, or_false,
      not_or, and_assoc]
  peerInfos q := by
    rw [h'.peerInfos, h.peerInfos]
    by_cases hq : q = pid <;> by_cases hmem : q ∈ pids <;> simp [hq, hmem]
  connRows q hmine := by
    rw [h'.connRows q hmine, h.connRows q hmine]
    by_cases hq : q = pid <;> by_cases hmem : q ∈ pids <;> simp [hq, hmem]
  reachable q nowMs hq := by
    rw [List.mem_cons, not_or] at hq
    rw [h'.reachable q nowMs hq.2, h.reachable q nowMs (List.mem_singleton.not.2 hq.1)]

end Removed

theorem removed_removePeer (g : RouteGroupData) (myPeerId peerId : PeerId) :
    Removed myPeerId [peerId] g (g.removePeer myPeerId peerId) := by
  have hrows : ∀ pid, pid ≠ myPeerId → (g.removePeer myPeerId peerId).connRows.lookup pid =
      (g.forgetPeer peerId).connRows.lookup pid := by
    intro pid hmine
    unfold removePeer
    dsimp only
    split_ifs
    · exact lookup_updateMyConnRow hmine
    · rfl
  obtain ⟨rows, version, list, bitmap, heq⟩ := g.removePeer_eq myPeerId peerId
  refine ⟨?_, fun pid => ?_, fun pid hmine => ?_, fun pid nowMs hpid => ?_⟩
  · rw [peers_removePeer, List.toFinset_cons, List.toFinset_nil, insert_empty_eq,
      Finset.sdiff_singleton_eq_erase]
  · rw [heq]
    simp only [List.mem_singleton]
    exact Finmap.lookup_erase_ite _ _ _
  · rw [hrows pid hmine]
    simp only [List.mem_singleton]
    exact Finmap.lookup_erase_ite _ _ _
  · rw [heq]
    have hne : pid ≠ peerId := List.mem_singleton.not.1 hpid
    have hsession : ((g.sessions.erase peerId).mapValues (·.forget peerId)).lookup pid =
        (g.sessions.lookup pid).map (·.forget peerId) := by
      rw [Finmap.lookup_mapValues, Finmap.lookup_erase_ne hne]
    exact (congrArg (Option.any _) hsession).trans Option.any_map

theorem removed_removePeers (g : RouteGroupData) (myPeerId : PeerId) (pids : List PeerId) :
    Removed myPeerId pids g (g.removePeers myPeerId pids) := by
  induction pids generalizing g with
  | nil => exact .nil myPeerId g
  | cons pid pids ih => exact (g.removed_removePeer myPeerId pid).cons (ih _)

/-! ## The rows and the caches -/

/-- A connection info is cached. -/
def Cached (g : RouteGroupData) (conn : ConnInfo) : Prop :=
  (∃ version list, g.cachedConnPeerList = some (version, list) ∧ conn = .connPeerList list) ∨
    ∃ version bitmap, g.cachedConnBitmap = some (version, bitmap) ∧ conn = .connBitmap bitmap

/-- A member of the group, or the relay. -/
def MemberOrRelay (myPeerId : PeerId) (g : RouteGroupData) (pid : PeerId) : Prop :=
  pid = myPeerId ∨ pid ∈ g.peers

/-- There are no ghosts: only members have an info or a row, and only they and the relay
    are named, in the rows and in the caches. -/
structure Unhaunted (myPeerId : PeerId) (g : RouteGroupData) : Prop where
  peerInfos : ∀ pid, (g.peerInfos.lookup pid).isSome → pid ∈ g.peers
  owners : RowsOfMembers myPeerId g
  neighbours : ∀ pid row, g.connRows.lookup pid = some row →
    ∀ q ∈ row.connected, g.MemberOrRelay myPeerId q
  cached : ∀ conn, g.Cached conn → ∀ pid, conn.Names pid → g.MemberOrRelay myPeerId pid

theorem not_cached_of_none (hlist : g.cachedConnPeerList = none) (hbitmap : g.cachedConnBitmap = none)
    (conn : ConnInfo) : ¬ g.Cached conn := by
  rintro (⟨_, _, h, -⟩ | ⟨_, _, h, -⟩)
  · simp [hlist] at h
  · simp [hbitmap] at h

/-- The relay's row, once it is updated, has the members as neighbours. -/
theorem connected_updateMyConnRow {row : ConnRow}
    (h : (g.updateMyConnRow myPeerId).connRows.lookup myPeerId = some row) :
    row.connected = g.peers := by
  have hrow := (Finmap.lookup_upsert myPeerId myPeerId _ g.connRows).symm.trans h
  rw [if_pos rfl] at hrow
  obtain rfl := Option.some.inj hrow
  split_ifs with hne
  · rfl
  · exact not_not.1 hne

namespace Unhaunted

/-- A new group. -/
theorem new (myPeerId : PeerId) (id : Option UInt64) (draws : GroupDraws) :
    Unhaunted myPeerId (.new myPeerId id draws) := by
  refine ⟨fun pid h => ?_, fun _ _ _ => rfl, fun pid row h => ?_, fun conn h => ?_⟩
  · simp [RouteGroupData.new] at h
  · simp [RouteGroupData.new] at h
  · exact absurd h (not_cached_of_none rfl rfl conn)

theorem addPeer (h : Unhaunted myPeerId g) (peerId : PeerId) (publicKey : Bytes) (nowMs : UInt64) :
    Unhaunted myPeerId (g.addPeer myPeerId peerId publicKey nowMs) := by
  have howners := h.owners.addPeer peerId publicKey nowMs
  unfold RouteGroupData.addPeer at howners ⊢
  by_cases hmem : peerId ∈ g.peers
  · rw [if_pos (by exact hmem)] at howners ⊢
    exact ⟨h.peerInfos, howners, h.neighbours, h.cached⟩
  · rw [if_neg (by exact hmem)] at howners ⊢
    have hmono : ∀ q, g.MemberOrRelay myPeerId q → q = myPeerId ∨ q ∈ insert peerId g.peers :=
      fun q hq => hq.imp_right fun hq => Finset.mem_insert_of_mem hq
    refine ⟨fun pid hpid => Finset.mem_insert_of_mem (h.peerInfos pid hpid), howners,
      fun pid row hrow q hq => ?_, fun conn hconn => absurd hconn (not_cached_of_none rfl rfl conn)⟩
    by_cases hmine : pid = myPeerId
    · rw [hmine] at hrow
      rw [connected_updateMyConnRow hrow] at hq
      exact .inr hq
    · have hold := (lookup_updateMyConnRow hmine).symm.trans hrow
      exact hmono q (h.neighbours pid row hold q hq)

/-- Only the sessions and the relay's own info have changed. -/
theorem quiet (h : Unhaunted myPeerId g) (sessions : FinMap PeerId SessionState)
    (info : RoutePeerInfo) (version : UInt32) :
    Unhaunted myPeerId { g with sessions, myInfo := info, myInfoVersion := version } :=
  ⟨h.peerInfos, h.owners, h.neighbours, h.cached⟩

end Unhaunted

/-- The rows that stay, when those of `dropped` go, do not name the members of `gone`. -/
def LeavesNoName (g : RouteGroupData) (myPeerId : PeerId) (gone dropped : List PeerId) : Prop :=
  ∀ pid ∈ g.connRows.keys, pid ≠ myPeerId → pid ∉ dropped →
    ∀ q ∈ (g.connRowFor pid).connected, q ∈ gone → q = myPeerId

instance (g : RouteGroupData) (myPeerId : PeerId) (gone dropped : List PeerId) :
    Decidable (g.LeavesNoName myPeerId gone dropped) :=
  have : ∀ pid, Decidable (∀ q ∈ (g.connRowFor pid).connected, q ∈ gone → q = myPeerId) :=
    fun _ => Finset.decidableDforallFinset
  Finset.decidableDforallFinset

theorem LeavesNoName.of_lookup {gone dropped : List PeerId} (h : g.LeavesNoName myPeerId gone dropped)
    {pid q : PeerId} {row : ConnRow} (hrow : g.connRows.lookup pid = some row)
    (hmine : pid ≠ myPeerId) (hpid : pid ∉ dropped) (hq : q ∈ row.connected) (hgone : q ∈ gone) :
    q = myPeerId := by
  refine h pid (Finmap.mem_keys.2 (Finmap.mem_of_lookup_eq_some hrow)) hmine hpid q ?_ hgone
  rw [connRowFor, hrow]
  exact hq

/-- The relay's row and the caches, once a peer that the relay knew is removed. -/
theorem removePeer_noted {peerId : PeerId}
    (h : peerId ∈ g.peers ∨ (g.peerInfos.lookup peerId).isSome) :
    (∀ row, (g.removePeer myPeerId peerId).connRows.lookup myPeerId = some row →
      row.connected = (g.removePeer myPeerId peerId).peers) ∧
    ∀ conn, ¬ (g.removePeer myPeerId peerId).Cached conn := by
  unfold removePeer
  dsimp only
  rw [if_pos (by simpa using h)]
  refine ⟨fun row hrow => ?_, not_cached_of_none rfl rfl⟩
  exact @connected_updateMyConnRow (g.forgetPeer peerId) myPeerId row hrow

/-- A peer that the relay does not know is forgotten, and that is all. -/
theorem removePeer_unknown {peerId : PeerId}
    (h : ¬ (peerId ∈ g.peers ∨ (g.peerInfos.lookup peerId).isSome)) :
    g.removePeer myPeerId peerId = g.forgetPeer peerId := by
  unfold removePeer
  dsimp only
  rw [if_neg (by simpa using h)]

/-- The same, once members are removed one after another. -/
theorem removePeers_noted {pids : List PeerId} (hne : pids ≠ []) (hnodup : pids.Nodup)
    (hpids : ∀ pid ∈ pids, pid ∈ g.peers) :
    (∀ row, (g.removePeers myPeerId pids).connRows.lookup myPeerId = some row →
      row.connected = (g.removePeers myPeerId pids).peers) ∧
    ∀ conn, ¬ (g.removePeers myPeerId pids).Cached conn := by
  -- The last one is still a member when its turn comes.
  obtain ⟨init, last, rfl⟩ := (List.eq_nil_or_concat' pids).resolve_left hne
  have hlast : last ∈ (g.removePeers myPeerId init).peers := by
    rw [(g.removed_removePeers myPeerId init).peers, Finset.mem_sdiff, List.mem_toFinset]
    refine ⟨hpids last (by simp), fun hmem => ?_⟩
    exact (List.nodup_append.1 hnodup).2.2 last hmem last (List.mem_singleton_self last) rfl
  have hsnoc : g.removePeers myPeerId (init ++ [last]) =
      (g.removePeers myPeerId init).removePeer myPeerId last := by
    rw [removePeers, List.foldl_append]
    rfl
  rw [hsnoc]
  exact removePeer_noted (.inl hlast)

/-- What is left when the infos of the peers of the list are purged. -/
theorem purgePeers_eq (g : RouteGroupData) (pids : List PeerId) :
    (pids.foldl (fun g pid => g.purgePeer pid) g).peers = g.peers ∧
      (∀ pid, (pids.foldl (fun g pid => g.purgePeer pid) g).peerInfos.lookup pid =
        if pid ∈ pids then none else g.peerInfos.lookup pid) ∧
      ∀ pid, (pids.foldl (fun g pid => g.purgePeer pid) g).connRows.lookup pid =
        if pid ∈ pids then none else g.connRows.lookup pid := by
  induction pids generalizing g with
  | nil => simp
  | cons pid pids ih =>
    obtain ⟨hpeers, hinfos, hrows⟩ := ih (g.purgePeer pid)
    rw [List.foldl_cons]
    refine ⟨hpeers, fun q => ?_, fun q => ?_⟩
    · rw [hinfos, purgePeer, Finmap.lookup_erase_ite]
      by_cases hq : q = pid <;> by_cases hmem : q ∈ pids <;> simp [hq, hmem]
    · rw [hrows, purgePeer, Finmap.lookup_erase_ite]
      by_cases hq : q = pid <;> by_cases hmem : q ∈ pids <;> simp [hq, hmem]

/-- What is left when the expired infos are purged. -/
theorem sweepInfos_eq (g : RouteGroupData) (nowMs : UInt64) :
    (g.sweepInfos nowMs).peers = g.peers ∧
      (∀ pid, (g.sweepInfos nowMs).peerInfos.lookup pid =
        if pid ∈ g.purge nowMs then none else g.peerInfos.lookup pid) ∧
      (∀ pid, (g.sweepInfos nowMs).connRows.lookup pid =
        if pid ∈ g.purge nowMs then none else g.connRows.lookup pid) ∧
      ∀ conn, (g.sweepInfos nowMs).Cached conn → g.Cached conn := by
  unfold sweepInfos
  split_ifs with hnone
  · rw [hnone]
    refine ⟨rfl, fun pid => ?_, fun pid => ?_, fun conn hconn => hconn⟩
    · rw [if_neg List.not_mem_nil]
    · rw [if_neg List.not_mem_nil]
  · obtain ⟨hpeers, hinfos, hrows⟩ := purgePeers_eq g (g.purge nowMs)
    exact ⟨hpeers, hinfos, hrows, fun conn hconn => absurd hconn (not_cached_of_none rfl rfl conn)⟩

/-- A peer that is not silent is purged whether or not the silent ones are there. -/
theorem mem_purge_sweepMembers {pid : PeerId} {nowMs : UInt64} (hpurge : pid ∈ g.purge nowMs)
    (hdead : pid ∉ g.deadDirect nowMs) : pid ∈ (g.sweepMembers myPeerId nowMs).purge nowMs := by
  have hremoved : Removed myPeerId _ g (g.sweepMembers myPeerId nowMs) :=
    g.removed_removePeers myPeerId (g.deadDirect nowMs)
  have hinfo : (g.sweepMembers myPeerId nowMs).peerInfos.lookup pid = g.peerInfos.lookup pid := by
    rw [hremoved.peerInfos pid, if_neg hdead]
  have hexpired : (g.sweepMembers myPeerId nowMs).expired nowMs pid = g.expired nowMs pid := by
    funext info
    unfold expired
    rw [hremoved.reachable pid nowMs hdead]
  rw [purge, Finset.mem_ascending, Finset.mem_filter] at hpurge ⊢
  rw [hinfo, hexpired]
  refine ⟨?_, hpurge.2⟩
  rw [Finmap.mem_keys, ← Finmap.lookup_isSome, hinfo, Finmap.lookup_isSome, ← Finmap.mem_keys]
  exact hpurge.1

namespace Unhaunted

/-- Members are removed, but none that is named in a row that stays. -/
theorem shrunk {gone dropped : List PeerId} (h : Unhaunted myPeerId g)
    (hnames : g.LeavesNoName myPeerId gone dropped)
    (hpeers : g'.peers = g.peers \ gone.toFinset)
    (hinfos : ∀ pid, (g'.peerInfos.lookup pid).isSome →
      (g.peerInfos.lookup pid).isSome ∧ pid ∉ gone)
    (hrows : ∀ pid row, pid ≠ myPeerId → g'.connRows.lookup pid = some row →
      g.connRows.lookup pid = some row ∧ pid ∉ gone ∧ pid ∉ dropped)
    (hmine : ∀ row, g'.connRows.lookup myPeerId = some row → row.connected = g'.peers ∨
      g.connRows.lookup myPeerId = some row ∧ g'.peers = g.peers)
    (hcached : ∀ conn, g'.Cached conn → g.Cached conn ∧ g'.peers = g.peers) :
    Unhaunted myPeerId g' := by
  have hkept : ∀ pid ∈ g.peers, pid ∉ gone → pid ∈ g'.peers := by
    intro pid hpid hgone
    rw [hpeers, Finset.mem_sdiff, List.mem_toFinset]
    exact ⟨hpid, hgone⟩
  refine ⟨fun pid hpid => ?_, fun pid hpid hmem => ?_, fun pid row hrow q hq => ?_,
    fun conn hconn pid hpid => ?_⟩
  · obtain ⟨hpid, hgone⟩ := hinfos pid hpid
    exact hkept pid (h.peerInfos pid hpid) hgone
  · rw [Option.eq_none_iff_forall_not_mem]
    intro row hrow
    obtain ⟨hrow, hgone, -⟩ := hrows pid row hpid hrow
    have hmember : pid ∈ g.peers := by
      by_contra hnot
      rw [h.owners pid hpid hnot] at hrow
      exact absurd hrow (Option.some_ne_none row).symm
    exact hmem (hkept pid hmember hgone)
  · by_cases hpid : pid = myPeerId
    · rcases hmine row (hpid ▸ hrow) with hconn | ⟨hold, hsame⟩
      · exact .inr (hconn ▸ hq)
      · exact (h.neighbours myPeerId row hold q hq).imp_right fun hq => hsame ▸ hq
    · obtain ⟨hold, -, hdropped⟩ := hrows pid row hpid hrow
      rcases h.neighbours pid row hold q hq with hq' | hmember
      · exact .inl hq'
      · by_cases hgone : q ∈ gone
        · exact .inl (hnames.of_lookup hold hpid hdropped hq hgone)
        · exact .inr (hkept q hmember hgone)
  · obtain ⟨hold, hsame⟩ := hcached conn hconn
    exact (h.cached conn hold pid hpid).imp_right fun hmem => hsame ▸ hmem

theorem removePeer {peerId : PeerId} (h : Unhaunted myPeerId g)
    (hnames : g.LeavesNoName myPeerId [peerId] [peerId]) :
    Unhaunted myPeerId (g.removePeer myPeerId peerId) := by
  have hremoved := g.removed_removePeer myPeerId peerId
  refine h.shrunk hnames hremoved.peers (fun pid hpid => ?_) (fun pid row hmine hrow => ?_) ?_ ?_
  · rw [hremoved.peerInfos] at hpid
    split_ifs at hpid with hmem
    · simp at hpid
    · exact ⟨hpid, hmem⟩
  · rw [hremoved.connRows pid hmine] at hrow
    split_ifs at hrow with hmem
    exact ⟨hrow, hmem, hmem⟩
  all_goals by_cases hknown : peerId ∈ g.peers ∨ (g.peerInfos.lookup peerId).isSome
  · exact fun row hrow => .inl ((removePeer_noted hknown).1 row hrow)
  · intro row hrow
    rw [removePeer_unknown hknown] at hrow ⊢
    refine .inr ⟨?_, Finset.erase_eq_of_notMem fun hmem => hknown (.inl hmem)⟩
    have herase := (Finmap.lookup_erase_ite _ _ _).symm.trans hrow
    split_ifs at herase
    exact herase
  · exact fun conn hconn => absurd hconn ((removePeer_noted hknown).2 conn)
  · intro conn hconn
    rw [removePeer_unknown hknown] at hconn ⊢
    exact ⟨hconn, Finset.erase_eq_of_notMem fun hmem => hknown (.inl hmem)⟩

/-- Sweeping away silent members and expired infos. -/
theorem sweep {nowMs : UInt64} (h : Unhaunted myPeerId g)
    (hnames : g.LeavesNoName myPeerId (g.deadDirect nowMs) (g.deadDirect nowMs ++ g.purge nowMs)) :
    Unhaunted myPeerId (g.sweep myPeerId nowMs) := by
  set swept := g.sweepMembers myPeerId nowMs with hswept
  have hremoved : Removed myPeerId (g.deadDirect nowMs) g swept :=
    g.removed_removePeers myPeerId (g.deadDirect nowMs)
  obtain ⟨hpeers, hinfos, hrows, hcached⟩ := swept.sweepInfos_eq nowMs
  rw [RouteGroupData.sweep, ← hswept]
  -- Someone was removed, or the members are all there.
  have hnoted : ((∀ row, swept.connRows.lookup myPeerId = some row → row.connected = swept.peers) ∧
      ∀ conn, ¬ swept.Cached conn) ∨ swept = g := by
    by_cases hdead : g.deadDirect nowMs = []
    · right
      rw [hswept, sweepMembers, hdead]
      rfl
    · left
      refine removePeers_noted hdead (Finset.nodup_ascending _) fun pid hpid => ?_
      rw [deadDirect, Finset.mem_ascending] at hpid
      exact Finset.mem_of_mem_filter pid hpid
  refine h.shrunk hnames (hpeers.trans hremoved.peers) (fun pid hpid => ?_)
    (fun pid row hmine hrow => ?_) (fun row hrow => ?_) fun conn hconn => ?_
  · rw [hinfos] at hpid
    split_ifs at hpid with hpurged
    · simp at hpid
    · rw [hremoved.peerInfos] at hpid
      split_ifs at hpid with hdead
      · simp at hpid
      · exact ⟨hpid, hdead⟩
  · rw [hrows] at hrow
    split_ifs at hrow with hpurged
    rw [hremoved.connRows pid hmine] at hrow
    split_ifs at hrow with hdead
    refine ⟨hrow, hdead, fun hmem => ?_⟩
    rcases List.mem_append.1 hmem with hmem | hmem
    · exact hdead hmem
    · exact hpurged (mem_purge_sweepMembers hmem hdead)
  · rw [hrows] at hrow
    split_ifs at hrow with hpurged
    rw [hpeers]
    rcases hnoted with ⟨hconnected, -⟩ | hsame
    · exact .inl (hconnected row hrow)
    · rw [hsame] at hrow ⊢
      exact .inr ⟨hrow, rfl⟩
  · rw [hpeers]
    rcases hnoted with ⟨-, hnone⟩ | hsame
    · exact absurd (hcached conn hconn) (hnone conn)
    · have hold := hcached conn hconn
      rw [hsame] at hold ⊢
      exact ⟨hold, rfl⟩

end Unhaunted

/-! ## Requests -/

/-- The rows name members and the relay, and the infos are those of members. -/
def NamesMembers (myPeerId : PeerId) (g : RouteGroupData) : Prop :=
  (∀ pid, (g.peerInfos.lookup pid).isSome → pid ∈ g.peers) ∧
    ∀ pid row, g.connRows.lookup pid = some row → ∀ q ∈ row.connected, g.MemberOrRelay myPeerId q

/-- A row is stored without the neighbours that are not known. -/
theorem NamesMembers.acceptRows (h : NamesMembers myPeerId g) (fromPeerId : PeerId) (changed : Bool)
    (rows : List (PeerId × UInt32 × Finset PeerId)) :
    NamesMembers myPeerId (rows.foldl (acceptRow myPeerId fromPeerId) (g, changed)).1 := by
  induction rows generalizing g changed with
  | nil => exact h
  | cons row rows ih =>
    rw [List.foldl_cons, acceptRow_eq]
    split_ifs
    · refine ih ?_ true
      refine ⟨h.1, fun pid stored hstored q hq => ?_⟩
      rw [Finmap.lookup_insert_ite] at hstored
      split_ifs at hstored
      · obtain rfl := Option.some.inj hstored
        rcases (Finset.mem_filter.1 hq).2 with hmine | hmem | hinfo
        · exact .inl hmine
        · exact .inr hmem
        · exact .inr (h.1 q hinfo)
      · exact h.2 pid stored hstored q hq
    · exact ih h changed

namespace Unhaunted

/-- A request of a member. -/
theorem syncRouteInfo (h : Unhaunted myPeerId g) (prost : Prost) {fromPeerId : PeerId}
    (hfrom : fromPeerId ∈ g.peers) (request : SyncRouteInfoRequest) (nowMs : UInt64) :
    Unhaunted myPeerId (g.syncRouteInfo myPeerId prost fromPeerId request nowMs).2 := by
  have hstored := storedFrom_storedInfos g fromPeerId request nowMs
  have hrows := rowsFrom_storedRows g myPeerId fromPeerId request nowMs
  obtain ⟨-, -, howner⟩ := @storeInfos_eq fromPeerId nowMs
    { group := g.touchSession fromPeerId request nowMs, routeChanged := false, needBump := false }
    (request.peerInfos.getD [])
  -- The only new info is the sender's.
  have hnames : NamesMembers myPeerId (g.storedInfos fromPeerId request nowMs).group := by
    refine ⟨fun pid hpid => ?_, ?_⟩
    · rw [hstored.peers]
      by_cases heq : pid = fromPeerId
      · exact heq ▸ hfrom
      · exact h.peerInfos pid ((howner.peerInfos pid heq) ▸ hpid)
    · unfold MemberOrRelay
      rw [hstored.connRows, hstored.peers]
      exact h.neighbours
  have hacc : NamesMembers myPeerId (g.storedRows myPeerId fromPeerId request nowMs).1 := by
    unfold storedRows storeConnRows
    cases request.connInfo with
    | none => exact hnames
    | some conn => exact hnames.acceptRows fromPeerId false (connInfoRows conn)
  have howners := h.owners.syncRouteInfo prost hfrom request nowMs
  rw [snd_syncRouteInfo] at howners ⊢
  split_ifs at howners ⊢
  · exact ⟨hacc.1, howners, hacc.2, fun conn hconn => absurd hconn (not_cached_of_none rfl rfl conn)⟩
  · refine ⟨hacc.1, howners, hacc.2, ?_⟩
    have hsame : (g.storedRows myPeerId fromPeerId request nowMs).1.peers = g.peers := by
      rw [← hstored.peers, ← hrows.group]
    intro conn hconn pid hpid
    have hold : g.Cached conn := by
      unfold Cached at hconn ⊢
      rw [← hstored.list, ← hstored.bitmap, ← hrows.group]
      exact hconn
    unfold MemberOrRelay
    rw [hsame]
    exact h.cached conn hold pid hpid

end Unhaunted

/-! ## Updates -/

/-- A connection info that was cached, or is made from the rows of the peers: a list, or a
    bitmap if they are not too many. -/
def CachedOrMade (g : RouteGroupData) (relevantPeers : List PeerId) (conn : ConnInfo) : Prop :=
  g.Cached conn ∨ conn = .connPeerList (g.connPeerListOf relevantPeers) ∨
    relevantPeers.length ≤ maxLegacyBitmapPeers ∧
      conn = .connBitmap (g.connBitmapOf relevantPeers)

/-- The connection info of an update, and those that are cached afterwards. -/
theorem buildConnInfo_cases (g : RouteGroupData) (relevantPeers : List PeerId)
    (targetPeerId : PeerId) (supportsConnList : Bool) (nowMs : UInt64) (conn : ConnInfo) :
    ((g.buildConnInfo relevantPeers targetPeerId supportsConnList nowMs).1 = .ok (some conn) →
      g.CachedOrMade relevantPeers conn) ∧
    ((g.buildConnInfo relevantPeers targetPeerId supportsConnList nowMs).2.Cached conn →
      g.CachedOrMade relevantPeers conn) := by
  unfold buildConnInfo
  split_ifs with hempty htopology hlist hlength
  · exact ⟨fun h => by simp at h, fun h => .inl h⟩
  · exact ⟨fun h => by simp at h, fun h => .inl h⟩
  · split
    · rename_i version cached hcached
      refine ⟨fun h => ?_, fun h => .inl h⟩
      obtain rfl := Option.some.inj (Except.ok.inj h)
      exact .inl (.inl ⟨version, cached, (Option.filter_eq_some_iff.1 hcached).1, rfl⟩)
    · refine ⟨fun h => ?_, fun h => ?_⟩
      · obtain rfl := Option.some.inj (Except.ok.inj h)
        exact .inr (.inl rfl)
      · rcases h with ⟨version, list, h, rfl⟩ | h
        · obtain ⟨-, rfl⟩ := Prod.mk.inj (Option.some.inj h)
          exact .inr (.inl rfl)
        · exact .inl (.inr h)
  all_goals split
  · rename_i version cached hcached
    refine ⟨fun h => ?_, fun h => .inl h⟩
    obtain rfl := Option.some.inj (Except.ok.inj h)
    exact .inl (.inr ⟨version, cached, (Option.filter_eq_some_iff.1 hcached).1, rfl⟩)
  · exact ⟨fun h => by simp at h, fun h => .inl h⟩
  · rename_i version cached hcached
    refine ⟨fun h => ?_, fun h => .inl h⟩
    obtain rfl := Option.some.inj (Except.ok.inj h)
    exact .inl (.inr ⟨version, cached, (Option.filter_eq_some_iff.1 hcached).1, rfl⟩)
  · have hlength := Nat.not_lt.1 hlength
    refine ⟨fun h => ?_, fun h => ?_⟩
    · obtain rfl := Option.some.inj (Except.ok.inj h)
      exact .inr (.inr ⟨hlength, rfl⟩)
    · rcases h with h | ⟨version, bitmap, h, rfl⟩
      · exact .inl (.inl h)
      · obtain ⟨-, rfl⟩ := Prod.mk.inj (Option.some.inj h)
        exact .inr (.inr ⟨hlength, rfl⟩)

/-- The peers that an update for a member is about are members, and the relay. -/
theorem Unhaunted.relevantPeers (h : Unhaunted myPeerId g) {targetPeerId : PeerId}
    (htarget : targetPeerId ∈ g.peers) {pid : PeerId}
    (hpid : pid ∈ g.relevantPeers myPeerId targetPeerId) : g.MemberOrRelay myPeerId pid := by
  rw [RouteGroupData.relevantPeers, Finset.mem_ascending, Finset.mem_insert, Finset.mem_insert,
    knownIds, Finset.mem_union, Finset.mem_union] at hpid
  rcases hpid with rfl | rfl | (hpid | hpid) | hpid
  · exact .inr htarget
  · exact .inl rfl
  · exact .inr hpid
  · exact .inr (h.peerInfos pid (Finmap.lookup_isSome.2 (Finmap.mem_keys.1 hpid)))
  · by_contra hnot
    rw [MemberOrRelay, not_or] at hnot
    exact Finmap.lookup_eq_none.1 (h.owners pid hnot.1 hnot.2) (Finmap.mem_keys.1 hpid)

/-- Without ghosts among the rows and in the caches, a connection info names none. -/
theorem Unhaunted.names (h : Unhaunted myPeerId g) {targetPeerId : PeerId}
    (htarget : targetPeerId ∈ g.peers) {conn : ConnInfo}
    (hconn : g.CachedOrMade (g.relevantPeers myPeerId targetPeerId) conn) {pid : PeerId}
    (hpid : conn.Names pid) : g.MemberOrRelay myPeerId pid := by
  rcases hconn with hconn | rfl | ⟨-, rfl⟩
  · exact h.cached conn hconn pid hpid
  · obtain ⟨row, hrow, hpid⟩ := hpid
    obtain ⟨owner, howner, rfl⟩ := List.mem_map.1 hrow
    rcases hpid with ⟨pv, hpv, rfl⟩ | hpid
    · obtain rfl := Option.some.inj hpv
      exact h.relevantPeers htarget howner
    · rw [Finset.mem_ascending, connRowFor] at hpid
      cases hlookup : g.connRows.lookup owner with
      | none =>
        rw [hlookup] at hpid
        exact absurd hpid (Finset.notMem_empty pid)
      | some stored =>
        rw [hlookup] at hpid
        exact h.neighbours owner stored hlookup pid hpid
  · -- In a bitmap the neighbours are among the owners.
    obtain ⟨pv, hpv, rfl⟩ := hpid
    obtain ⟨owner, howner, rfl⟩ := List.mem_map.1 hpv
    exact h.relevantPeers htarget howner

/-- Building an update for a member. -/
theorem Unhaunted.cachedFor (h : Unhaunted myPeerId g) {targetPeerId : PeerId}
    (htarget : targetPeerId ∈ g.peers) (nowMs : UInt64) :
    Unhaunted myPeerId (g.cachedFor myPeerId targetPeerId nowMs) := by
  obtain ⟨list, bitmap, heq⟩ := g.cachedFor_eq myPeerId targetPeerId nowMs
  have hcached : ∀ conn, (g.cachedFor myPeerId targetPeerId nowMs).Cached conn →
      ∀ pid, conn.Names pid → g.MemberOrRelay myPeerId pid := by
    intro conn hconn pid hpid
    exact h.names htarget ((g.buildConnInfo_cases _ targetPeerId _ nowMs conn).2 hconn) hpid
  rw [heq] at hcached ⊢
  exact ⟨h.peerInfos, h.owners, h.neighbours, hcached⟩

end RouteGroupData

/-! ## Runs -/

namespace RouteState

/-- Requests come from members, and updates are built for them. -/
def FromMembers (r : RouteState) : RouteOp → Prop
  | .handleSyncRouteInfoRequest network fromPeerId _ _ draws =>
    fromPeerId ∈ (r.ensureGroup network draws).peers
  | .buildSyncRouteInfoRequest network targetPeerId _ _ _ _ draws =>
    targetPeerId ∈ (r.ensureGroup network draws).peers
  | _ => True

/-- The members that a call removes are not named by the rows that stay. -/
def LeavesNoName (r : RouteState) : RouteOp → Prop
  | .removePeer network peerId draws =>
    (r.ensureGroup network draws).LeavesNoName r.myPeerId [peerId] [peerId]
  | .sweepExpiredRouteInfo nowMs => ∀ network ∈ r.groups.keys, ∀ g ∈ r.groups.lookup network,
    g.LeavesNoName r.myPeerId (g.deadDirect nowMs) (g.deadDirect nowMs ++ g.purge nowMs)
  | _ => True

instance decidableFromMembers (r : RouteState) : DecidablePred r.FromMembers
  | .handleSyncRouteInfoRequest .. => inferInstanceAs (Decidable (_ ∈ _))
  | .buildSyncRouteInfoRequest .. => inferInstanceAs (Decidable (_ ∈ _))
  | .setPersistedRouteId .. => isTrue trivial
  | .myPeerRouteId .. => isTrue trivial
  | .addPeer .. => isTrue trivial
  | .removePeer .. => isTrue trivial
  | .sweepExpiredRouteInfo .. => isTrue trivial
  | .onRouteSessionAck .. => isTrue trivial
  | .commitRouteUpdate .. => isTrue trivial
  | .setHostname .. => isTrue trivial
  | .setMyNoisePublicKey .. => isTrue trivial
  | .setMyAvoidRelayData .. => isTrue trivial

instance decidableLeavesNoName (r : RouteState) : DecidablePred r.LeavesNoName
  | .removePeer .. => inferInstanceAs (Decidable (RouteGroupData.LeavesNoName _ _ _ _))
  | .sweepExpiredRouteInfo .. => inferInstanceAs (Decidable (∀ _ ∈ r.groups.keys, _))
  | .handleSyncRouteInfoRequest .. => isTrue trivial
  | .buildSyncRouteInfoRequest .. => isTrue trivial
  | .setPersistedRouteId .. => isTrue trivial
  | .myPeerRouteId .. => isTrue trivial
  | .addPeer .. => isTrue trivial
  | .onRouteSessionAck .. => isTrue trivial
  | .commitRouteUpdate .. => isTrue trivial
  | .setHostname .. => isTrue trivial
  | .setMyNoisePublicKey .. => isTrue trivial
  | .setMyAvoidRelayData .. => isTrue trivial

end RouteState

/-- A call keeps ghosts away. -/
theorem unhaunted_step {prost : Prost} {r : RouteState} {op : RouteOp} {network : String}
    {g : RouteGroupData} (h : r.Groups (RouteGroupData.Unhaunted r.myPeerId)) (hfrom : r.FromMembers op)
    (hnames : r.LeavesNoName op) (hstep : GroupStep prost r network op g) :
    g.Unhaunted r.myPeerId := by
  have hgroup : ∀ draws, (r.ensureGroup network draws).Unhaunted r.myPeerId :=
    fun draws => h.ensureGroup (fun id draws => .new r.myPeerId id draws) network draws
  cases hstep with
  | quiet draws sessions info version => exact (hgroup draws).quiet sessions info version
  | added peerId publicKey nowMs draws => exact (hgroup draws).addPeer peerId publicKey nowMs
  | removed peerId draws => exact (hgroup draws).removePeer hnames
  | swept nowMs hg =>
    refine (h network _ hg).sweep (hnames network ?_ _ hg)
    exact Finmap.mem_keys.2 (Finmap.mem_of_lookup_eq_some hg)
  | built targetPeerId serverSessionId weAreInitiator forceFull nowMs draws =>
    have hopened : ((r.ensureGroup network draws).openSession targetPeerId
        serverSessionId).Unhaunted r.myPeerId := (hgroup draws).quiet _ _ _
    exact hopened.cachedFor hfrom nowMs
  | synced fromPeerId requestBytes nowMs draws hdecode =>
    exact (hgroup draws).syncRouteInfo prost hfrom _ nowMs

/-- If a call builds an update, then everyone that its connection info names is present:
    the relay, a member, or a peer with an info. -/
def NoGhosts (prost : Prost) (e : RouteEvent) : Prop :=
  ∀ network targetPeerId serverSessionId weAreInitiator forceFull nowMs draws,
    e.input = .buildSyncRouteInfoRequest network targetPeerId serverSessionId weAreInitiator
      forceFull nowMs draws →
    let g := (e.pre.ensureGroup network draws).openSession targetPeerId serverSessionId
    e.output = .update ((g.connInfoFor e.pre.myPeerId targetPeerId nowMs).map
      (g.routeUpdate e.pre.myPeerId prost serverSessionId weAreInitiator
        (g.typedItems e.pre.myPeerId targetPeerId forceFull nowMs))) ∧
    ∀ conn, g.connInfoFor e.pre.myPeerId targetPeerId nowMs = .ok (some conn) →
      ∀ pid, conn.Names pid → (e.pre.ensureGroup network draws).Present e.pre.myPeerId pid

/-- In a run in which members send the requests and get the updates, and in which the
    members that are removed are not named by the rows that stay, no update names a
    ghost. -/
theorem no_ghosts (prost : Prost) (myPeerId : PeerId) (ops : List RouteOp)
    (hfrom : Along (fun _ e => e.pre.FromMembers e.input)
      ((routeState prost myPeerId).history (.new myPeerId) ops))
    (hnames : Along (fun _ e => e.pre.LeavesNoName e.input)
      ((routeState prost myPeerId).history (.new myPeerId) ops)) :
    ∀ e ∈ (routeState prost myPeerId).history (.new myPeerId) ops, NoGhosts prost e := by
  intro e he
  obtain ⟨before, after, hsplit⟩ := List.append_of_mem he
  obtain ⟨js, op, ks, rfl, rfl, rfl⟩ := (routeState prost myPeerId).history_split hsplit
  -- The run before the call keeps ghosts away.
  have hmember := hfrom _ _ _ hsplit
  have hboth : Along (fun _ e => e.pre.FromMembers e.input ∧ e.pre.LeavesNoName e.input)
      ((routeState prost myPeerId).history (.new myPeerId) js) := by
    rw [hsplit] at hfrom hnames
    intro b x a hx
    exact ⟨hfrom.append_left b x a hx, hnames.append_left b x a hx⟩
  have hstep : ∀ (r : RouteState) (op : RouteOp) (network : String) (g : RouteGroupData),
      r.myPeerId = myPeerId → r.Groups (RouteGroupData.Unhaunted myPeerId) →
      r.FromMembers op ∧ r.LeavesNoName op → GroupStep prost r network op g →
      g.Unhaunted myPeerId := by
    rintro r op network g rfl hgroups ⟨hfrom, hnames⟩ hstep
    exact unhaunted_step hgroups hfrom hnames hstep
  obtain ⟨hid, hgroups⟩ := RouteState.run_groups (C := fun r op => r.FromMembers op ∧
    r.LeavesNoName op) hstep js hboth
  rintro network targetPeerId serverSessionId weAreInitiator forceFull nowMs draws rfl
  refine ⟨congrArg Prod.snd (RouteState.step_build prost _ network targetPeerId serverSessionId
    weAreInitiator forceFull nowMs draws), fun conn hconn pid hpid => ?_⟩
  set r := (routeState prost myPeerId).run (.new myPeerId) js with hr
  have hgroup : (r.ensureGroup network draws).Unhaunted r.myPeerId := by
    rw [← hid] at hgroups
    exact hgroups.ensureGroup (fun id draws => .new r.myPeerId id draws) network draws
  have hopened : ((r.ensureGroup network draws).openSession targetPeerId
      serverSessionId).Unhaunted r.myPeerId := hgroup.quiet _ _ _
  have hmade := (RouteGroupData.buildConnInfo_cases _ _ targetPeerId _ nowMs conn).1 hconn
  rcases hopened.names hmember hmade hpid with hmine | hmem
  · exact .inl hmine
  · exact .inr (.inl hmem)

namespace GhostSample

open RoutesSample

/-- Two peers come, and the second one reports this row; the first one leaves, and an
    update is built for the second one. -/
def ops (connected : List PeerId) : List RouteOp :=
  [join 1 0, join 2 10, reporting (report 2 1 [row 2 1 connected]) 20, leave 1, build 2 30]

/-- The codec of the run. -/
def prost (connected : List PeerId) : Prost :=
  Prost.listed [] [] [] [report 2 1 [row 2 1 connected]] []

def history (connected : List PeerId) : List RouteEvent :=
  (routeState (prost connected) relay).history (.new relay) (ops connected)

/-- When the second peer has not named the first one. -/
theorem no_ghosts_unnamed :
    Along (fun _ e => e.pre.FromMembers e.input) (history [relay]) ∧
      Along (fun _ e => e.pre.LeavesNoName e.input) (history [relay]) ∧
      ∀ e ∈ history [relay], NoGhosts (prost [relay]) e := by
  have hfrom : Along (fun _ e => e.pre.FromMembers e.input) (history [relay]) := by decide +kernel
  have hnames : Along (fun _ e => e.pre.LeavesNoName e.input) (history [relay]) := by decide +kernel
  exact ⟨hfrom, hnames, no_ghosts (prost [relay]) relay (ops [relay]) hfrom hnames⟩

/-- What the relay sends to the second peer: the rows of the peers that are there. -/
def sent : ConnInfo := .connPeerList ⟨[row 2 1 [1], row relay 3 [2]]⟩

/-- When the second peer has named the first one, the update still names it. -/
theorem no_ghosts_fails :
    Along (fun _ e => e.pre.FromMembers e.input) (history [1]) ∧
      ¬ ∀ e ∈ history [1], NoGhosts (prost [1]) e := by
  refine ⟨by decide +kernel, fun h => ?_⟩
  let r := (routeState (prost [1]) relay).run (.new relay) ((ops [1]).take 4)
  have hlast : (routeState (prost [1]) relay).event r (build 2 30) ∈ history [1] :=
    List.mem_of_getLast? rfl
  have hnone := (h _ hlast "net" 2 4 false false 30 draws rfl).2
  have hsent : (((r.ensureGroup "net" draws).openSession 2 4).connInfoFor r.myPeerId 2 30).toOption =
      some (some sent) := by decide +kernel
  have hnames : sent.Names 1 := ⟨row 2 1 [1], by decide, .inr (by decide)⟩
  have hpresent := hnone sent (Except.toOption_eq_some.1 hsent) 1 hnames
  revert hpresent
  decide +kernel

end GhostSample

end EasyTierEdge
