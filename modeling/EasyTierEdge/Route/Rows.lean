import EasyTierEdge.Route.Ghosts

/-!
# Row versions

A row is known by the version its owner gave it. The relay gives its own row a new version
whenever a member joins or leaves; the row of anyone else is replaced only by one of a
higher version, or dropped with its owner.

* `Neighbours n g`: in a group in which `n` members have joined or left, the relay's row has
  the version `n` and the members as its neighbours;
* `RowsGrow`: the rows that are there before and after a call have a higher version unless
  they are the same;
* `row_versions`: both hold along every run in which the relay is no peer of its own, as
  long as the versions do not wrap.
-/

namespace EasyTierEdge

namespace RouteGroupData

variable {g g' : RouteGroupData} {myPeerId : PeerId} {n : ℕ}

/-! ## The relay's row -/

/-- The relay is no member, has no info but its own, and has the members as its neighbours
    in a row of version `n`. -/
structure Neighbours (myPeerId : PeerId) (n : ℕ) (g : RouteGroupData) : Prop where
  apart : myPeerId ∉ g.peers
  noInfo : g.peerInfos.lookup myPeerId = none
  row : g.connRowFor myPeerId = ⟨UInt32.ofNat n, g.peers⟩

theorem connRowFor_of_lookup {pid : PeerId}
    (h : g'.connRows.lookup pid = g.connRows.lookup pid) : g'.connRowFor pid = g.connRowFor pid := by
  rw [connRowFor, connRowFor, h]

/-- The relay's row is brought up to date. -/
theorem connRowFor_updateMyConnRow (g : RouteGroupData) (myPeerId : PeerId) :
    (g.updateMyConnRow myPeerId).connRowFor myPeerId =
      if (g.connRowFor myPeerId).connected ≠ g.peers then
        ⟨(g.connRowFor myPeerId).version + 1, g.peers⟩
      else g.connRowFor myPeerId := by
  have hlookup : (g.updateMyConnRow myPeerId).connRows.lookup myPeerId =
      some (if (g.connRowFor myPeerId).connected ≠ g.peers then
        ⟨(g.connRowFor myPeerId).version + 1, g.peers⟩ else g.connRowFor myPeerId) := by
    refine (Finmap.lookup_upsert _ _ _ _).trans ?_
    rw [if_pos rfl]
    rfl
  rw [connRowFor, hlookup, Option.getD_some]

namespace Neighbours

theorem new (myPeerId : PeerId) (id : Option UInt64) (draws : GroupDraws) :
    Neighbours myPeerId 0 (.new myPeerId id draws) :=
  ⟨Finset.notMem_empty _, rfl, rfl⟩

/-- A row of the relay that is there has the members as its neighbours. -/
theorem connected (h : Neighbours myPeerId n g) {row : ConnRow}
    (hrow : g.connRows.lookup myPeerId = some row) : row = ⟨UInt32.ofNat n, g.peers⟩ := by
  rw [← h.row, connRowFor, hrow, Option.getD_some]

/-- The relay has a row if there is a member. -/
theorem isSome (h : Neighbours myPeerId n g) (hne : g.peers.Nonempty) :
    (g.connRows.lookup myPeerId).isSome := by
  rw [Option.isSome_iff_ne_none]
  intro hnone
  have hrow := h.row
  rw [connRowFor, hnone] at hrow
  exact hne.ne_empty (congrArg ConnRow.connected hrow).symm

/-- Nothing has changed that the relay's row depends on. -/
theorem of_eq (h : Neighbours myPeerId n g) (hpeers : g'.peers = g.peers)
    (hinfos : g'.peerInfos.lookup myPeerId = none)
    (hrow : g'.connRows.lookup myPeerId = g.connRows.lookup myPeerId) :
    Neighbours myPeerId n g' := by
  refine ⟨hpeers ▸ h.apart, hinfos, ?_⟩
  rw [connRowFor_of_lookup hrow, hpeers, h.row]

/-- A peer that is already there is added. -/
theorem addPeer_of_mem (h : Neighbours myPeerId n g) {peerId : PeerId} (hmem : peerId ∈ g.peers)
    (publicKey : Bytes) (nowMs : UInt64) :
    Neighbours myPeerId n (g.addPeer myPeerId peerId publicKey nowMs) := by
  unfold RouteGroupData.addPeer
  rw [if_pos (by exact hmem)]
  exact ⟨h.apart, h.noInfo, h.row⟩

/-- A peer joins. -/
theorem addPeer_of_notMem (h : Neighbours myPeerId n g) {peerId : PeerId} (hmem : peerId ∉ g.peers)
    (hne : peerId ≠ myPeerId) (publicKey : Bytes) (nowMs : UInt64) :
    Neighbours myPeerId (n + 1) (g.addPeer myPeerId peerId publicKey nowMs) := by
  unfold RouteGroupData.addPeer
  rw [if_neg (by exact hmem)]
  refine ⟨?_, h.noInfo, ?_⟩
  · exact fun hmine => (Finset.mem_insert.1 hmine).elim (fun heq => hne heq.symm) h.apart
  · refine (connRowFor_updateMyConnRow _ myPeerId).trans ?_
    have hrow : ({ g with peers := insert peerId g.peers } : RouteGroupData).connRowFor myPeerId =
        ⟨UInt32.ofNat n, g.peers⟩ := h.row
    refine (if_pos ?_).trans ?_
    · refine fun heq => Finset.ne_insert_of_notMem g.peers g.peers hmem ?_
      exact (congrArg ConnRow.connected hrow).symm.trans heq
    · rw [UInt32.ofNat_add]
      exact congrArg (fun row : ConnRow => (⟨row.version + 1, insert peerId g.peers⟩ : ConnRow)) hrow

theorem forgetPeer (h : Neighbours myPeerId n g) {peerId : PeerId} (hne : peerId ≠ myPeerId) :
    (g.forgetPeer peerId).connRowFor myPeerId = ⟨UInt32.ofNat n, g.peers⟩ ∧
      (g.forgetPeer peerId).peerInfos.lookup myPeerId = none :=
  ⟨(connRowFor_of_lookup (Finmap.lookup_erase_ne hne.symm)).trans h.row,
    (Finmap.lookup_erase_ne hne.symm).trans h.noInfo⟩

/-- A peer that is not there is removed. -/
theorem removePeer_of_notMem (h : Neighbours myPeerId n g) {peerId : PeerId}
    (hmem : peerId ∉ g.peers) (hne : peerId ≠ myPeerId) :
    Neighbours myPeerId n (g.removePeer myPeerId peerId) := by
  have hpeers : (g.forgetPeer peerId).peers = g.peers := Finset.erase_eq_of_notMem hmem
  obtain ⟨hrow, hinfo⟩ := h.forgetPeer hne
  have hforgot : Neighbours myPeerId n (g.forgetPeer peerId) :=
    ⟨hpeers ▸ h.apart, hinfo, hpeers ▸ hrow⟩
  unfold RouteGroupData.removePeer
  dsimp only
  split_ifs
  · -- Its info is dropped, but the members are as they were.
    refine ⟨hforgot.apart, hinfo, (connRowFor_updateMyConnRow _ myPeerId).trans ?_⟩
    rw [if_neg (not_not.2 (congrArg ConnRow.connected hforgot.row))]
    exact hforgot.row
  · exact hforgot

/-- A member leaves. -/
theorem removePeer_of_mem (h : Neighbours myPeerId n g) {peerId : PeerId} (hmem : peerId ∈ g.peers) :
    Neighbours myPeerId (n + 1) (g.removePeer myPeerId peerId) := by
  have hne : peerId ≠ myPeerId := fun heq => h.apart (heq ▸ hmem)
  obtain ⟨hrow, hinfo⟩ := h.forgetPeer hne
  unfold RouteGroupData.removePeer
  dsimp only
  rw [if_pos (by simp [hmem])]
  refine ⟨fun hmine => h.apart (Finset.mem_of_mem_erase hmine), hinfo, ?_⟩
  refine (connRowFor_updateMyConnRow _ myPeerId).trans ?_
  rw [hrow, UInt32.ofNat_add]
  exact if_pos (Finset.erase_ne_self.2 hmem).symm

/-- Members leave, one after another. -/
theorem removePeers (h : Neighbours myPeerId n g) {pids : List PeerId} (hnodup : pids.Nodup)
    (hpids : ∀ pid ∈ pids, pid ∈ g.peers) :
    Neighbours myPeerId (n + pids.length) (g.removePeers myPeerId pids) := by
  induction pids generalizing g n with
  | nil => exact h
  | cons pid pids ih =>
    rw [List.nodup_cons] at hnodup
    rw [List.forall_mem_cons] at hpids
    have hrest := ih (h.removePeer_of_mem hpids.1) hnodup.2 fun q hq => by
      rw [peers_removePeer]
      exact Finset.mem_erase.2 ⟨fun heq => hnodup.1 (heq ▸ hq), hpids.2 q hq⟩
    rw [List.length_cons, Nat.add_comm pids.length, ← Nat.add_assoc]
    exact hrest

/-- Expired infos are purged: none of them is the relay's. -/
theorem sweepInfos (h : Neighbours myPeerId n g) (nowMs : UInt64) :
    Neighbours myPeerId n (g.sweepInfos nowMs) := by
  obtain ⟨hpeers, hinfos, hrows, -⟩ := g.sweepInfos_eq nowMs
  have hmine : myPeerId ∉ g.purge nowMs := by
    intro hpurge
    rw [purge, Finset.mem_ascending, Finset.mem_filter, h.noInfo] at hpurge
    exact absurd hpurge.2 (by simp)
  refine h.of_eq hpeers ?_ ?_
  · rw [hinfos, if_neg hmine, h.noInfo]
  · rw [hrows, if_neg hmine]

/-- A sweep removes the silent members. -/
theorem sweep (h : Neighbours myPeerId n g) (nowMs : UInt64) :
    Neighbours myPeerId (n + (g.deadDirect nowMs).length) (g.sweep myPeerId nowMs) := by
  refine Neighbours.sweepInfos ?_ nowMs
  refine h.removePeers (Finset.nodup_ascending _) fun pid hpid => ?_
  rw [deadDirect, Finset.mem_ascending] at hpid
  exact Finset.mem_of_mem_filter pid hpid

/-- A request of someone else. -/
theorem syncRouteInfo (h : Neighbours myPeerId n g) (prost : Prost) {fromPeerId : PeerId}
    (hne : fromPeerId ≠ myPeerId) (request : SyncRouteInfoRequest) (nowMs : UInt64) :
    Neighbours myPeerId n (g.syncRouteInfo myPeerId prost fromPeerId request nowMs).2 := by
  obtain ⟨howner, -⟩ := syncRouteInfo_owner hne g prost request nowMs
  refine h.of_eq howner.peers ?_ (howner.connRows myPeerId hne.symm)
  rw [howner.peerInfos myPeerId hne.symm, h.noInfo]

/-- Building an update. -/
theorem cachedFor (h : Neighbours myPeerId n g) (targetPeerId : PeerId) (nowMs : UInt64) :
    Neighbours myPeerId n (g.cachedFor myPeerId targetPeerId nowMs) := by
  obtain ⟨list, bitmap, heq⟩ := g.cachedFor_eq myPeerId targetPeerId nowMs
  rw [heq]
  exact ⟨h.apart, h.noInfo, h.row⟩

end Neighbours

/-! ## Joining and leaving -/

/-- How many members join or leave from one set to the next. -/
def turnover (before after : Finset PeerId) : ℕ := (symmDiff before after).card

@[simp] theorem turnover_self (peers : Finset PeerId) : turnover peers peers = 0 := by
  rw [turnover, symmDiff_self]
  rfl

theorem turnover_insert {peers : Finset PeerId} {pid : PeerId} (h : pid ∉ peers) :
    turnover peers (insert pid peers) = 1 := by
  rw [turnover, symmDiff_of_le (Finset.subset_insert _ _),
    Finset.card_sdiff_of_subset (Finset.subset_insert _ _), Finset.card_insert_of_notMem h,
    Nat.add_sub_cancel_left]

theorem turnover_erase {peers : Finset PeerId} {pid : PeerId} (h : pid ∈ peers) :
    turnover peers (peers.erase pid) = 1 := by
  have hcard := Finset.card_erase_add_one h
  rw [turnover, symmDiff_of_ge (Finset.erase_subset _ _),
    Finset.card_sdiff_of_subset (Finset.erase_subset _ _), ← hcard, Nat.add_sub_cancel_left]

theorem turnover_sweep (g : RouteGroupData) (myPeerId : PeerId) (nowMs : UInt64) :
    turnover g.peers (g.sweep myPeerId nowMs).peers = (g.deadDirect nowMs).length := by
  have hdead : (g.deadDirect nowMs).toFinset ⊆ g.peers := by
    intro pid hpid
    rw [List.mem_toFinset, deadDirect, Finset.mem_ascending] at hpid
    exact Finset.mem_of_mem_filter pid hpid
  have hnodup : (g.deadDirect nowMs).Nodup := Finset.nodup_ascending _
  have hpeers : (g.sweep myPeerId nowMs).peers = g.peers \ (g.deadDirect nowMs).toFinset := by
    rw [RouteGroupData.sweep, (sweepInfos_eq _ nowMs).1]
    exact (g.removed_removePeers myPeerId (g.deadDirect nowMs)).peers
  rw [hpeers, turnover, symmDiff_of_ge Finset.sdiff_subset, Finset.sdiff_sdiff_eq_self hdead,
    List.toFinset_card_of_nodup hnodup]

theorem eq_of_turnover {before after : Finset PeerId} (h : turnover before after = 0) :
    before = after :=
  symmDiff_eq_bot.1 (Finset.card_eq_zero.1 h)

/-! ## The other rows -/

/-- A row takes the place of another one: its version is not lower, and higher if the
    neighbours are others. -/
def Supersedes (row' row : ConnRow) : Prop :=
  row.version ≤ row'.version ∧ (row'.connected ≠ row.connected → row.version < row'.version)

/-- The rows, apart from the relay's, that are there before and after. -/
def RowsGrow (myPeerId : PeerId) (g g' : RouteGroupData) : Prop :=
  ∀ pid row row', pid ≠ myPeerId → g.connRows.lookup pid = some row →
    g'.connRows.lookup pid = some row' → Supersedes row' row

theorem Supersedes.refl (row : ConnRow) : Supersedes row row := ⟨le_rfl, fun h => absurd rfl h⟩

theorem Supersedes.of_lt {row row' : ConnRow} (h : row.version < row'.version) :
    Supersedes row' row :=
  ⟨h.le, fun _ => h⟩

/-- The relay's rows before and after members have joined or left. -/
theorem supersedes_of_turnover {before after : Finset PeerId}
    (hn : n + turnover before after < 2 ^ 32) :
    Supersedes ⟨UInt32.ofNat (n + turnover before after), after⟩ ⟨UInt32.ofNat n, before⟩ := by
  have hnew := UInt32.toNat_ofNat_of_lt' hn
  have hold : (UInt32.ofNat n).toNat = n :=
    UInt32.toNat_ofNat_of_lt' (lt_of_le_of_lt (Nat.le_add_right _ _) hn)
  refine ⟨UInt32.le_iff_toNat_le.2 ?_, fun hne => UInt32.lt_iff_toNat_lt.2 ?_⟩
  · rw [hnew, hold]
    exact Nat.le_add_right _ _
  · rw [hnew, hold]
    exact Nat.lt_add_of_pos_right (Nat.pos_of_ne_zero fun h => hne (eq_of_turnover h).symm)

namespace RowsGrow

/-- The rows are as they were, or dropped. -/
theorem of_kept (h : ∀ pid, pid ≠ myPeerId → g'.connRows.lookup pid = none ∨
    g'.connRows.lookup pid = g.connRows.lookup pid) : RowsGrow myPeerId g g' := by
  intro pid row row' hpid hrow hrow'
  rcases h pid hpid with hnone | hkept
  · simp [hnone] at hrow'
  · rw [hkept, hrow] at hrow'
    exact Option.some.inj hrow' ▸ .refl row

theorem removePeers (g : RouteGroupData) (myPeerId : PeerId) (pids : List PeerId) (pid : PeerId)
    (hpid : pid ≠ myPeerId) : (g.removePeers myPeerId pids).connRows.lookup pid = none ∨
      (g.removePeers myPeerId pids).connRows.lookup pid = g.connRows.lookup pid := by
  rw [(g.removed_removePeers myPeerId pids).connRows pid hpid]
  split_ifs
  · exact .inl rfl
  · exact .inr rfl

theorem sweep (g : RouteGroupData) (myPeerId : PeerId) (nowMs : UInt64) :
    RowsGrow myPeerId g (g.sweep myPeerId nowMs) := by
  refine .of_kept fun pid hpid => ?_
  rw [RouteGroupData.sweep, (sweepInfos_eq _ nowMs).2.2.1]
  split_ifs
  · exact .inl rfl
  · exact removePeers g myPeerId (g.deadDirect nowMs) pid hpid

/-- A request replaces the row of its sender, if it does, by one of a higher version. -/
theorem syncRouteInfo {fromPeerId : PeerId} (hne : fromPeerId ≠ myPeerId) (g : RouteGroupData)
    (prost : Prost) (request : SyncRouteInfoRequest) (nowMs : UInt64) :
    RowsGrow myPeerId g (g.syncRouteInfo myPeerId prost fromPeerId request nowMs).2 := by
  obtain ⟨howner, hwritten⟩ := syncRouteInfo_owner hne g prost request nowMs
  intro pid row row' hpid hrow hrow'
  by_cases hfrom : pid = fromPeerId
  · subst hfrom
    rw [hwritten.row] at hrow'
    by_cases hwrites : g.rowWrites myPeerId pid request nowMs = []
    · rw [hwrites, hrow] at hrow'
      exact Option.some.inj hrow' ▸ .refl row
    · have hlt := lt_of_mem_writes lt_of_rowGuard (getLastD_mem_writes hwrites)
      change ((g.connRows.lookup pid).getD default).version <
        (((g.rowWrites myPeerId pid request nowMs).getLastD (g.connRows.lookup pid)).getD
          default).version at hlt
      rw [hrow', hrow] at hlt
      exact .of_lt hlt
  · rw [howner.connRows pid hfrom, hrow] at hrow'
    exact Option.some.inj hrow' ▸ .refl row

end RowsGrow

end RouteGroupData

/-! ## Runs -/

namespace RouteState

/-- The members of a network. -/
def members (r : RouteState) (network : String) : Finset PeerId :=
  (r.groups.lookup network).elim ∅ RouteGroupData.peers

/-- The version of the relay's row in a network. -/
def relayVersion (r : RouteState) (network : String) : ℕ :=
  (r.groups.lookup network).elim 0 fun g => (g.connRowFor r.myPeerId).version.toNat

/-- How many members of a network join or leave in a call. -/
def turnover (prost : Prost) (network : String) (r : RouteState) (op : RouteOp) : ℕ :=
  RouteGroupData.turnover (r.members network) ((r.step prost op).1.members network)

/-- The relay is no peer of its own. -/
def RelayApart (r : RouteState) : RouteOp → Prop
  | .addPeer _ peerId _ _ _ => peerId ≠ r.myPeerId
  | .removePeer _ peerId _ => peerId ≠ r.myPeerId
  | .handleSyncRouteInfoRequest _ fromPeerId _ _ _ => fromPeerId ≠ r.myPeerId
  | _ => True

instance decidableRelayApart (r : RouteState) : DecidablePred r.RelayApart
  | .addPeer .. => inferInstanceAs (Decidable (_ ≠ _))
  | .removePeer .. => inferInstanceAs (Decidable (_ ≠ _))
  | .handleSyncRouteInfoRequest .. => inferInstanceAs (Decidable (_ ≠ _))
  | .setPersistedRouteId .. => isTrue trivial
  | .myPeerRouteId .. => isTrue trivial
  | .sweepExpiredRouteInfo .. => isTrue trivial
  | .onRouteSessionAck .. => isTrue trivial
  | .commitRouteUpdate .. => isTrue trivial
  | .setHostname .. => isTrue trivial
  | .setMyNoisePublicKey .. => isTrue trivial
  | .setMyAvoidRelayData .. => isTrue trivial
  | .buildSyncRouteInfoRequest .. => isTrue trivial

variable {prost : Prost} {r : RouteState} {network : String} {n : ℕ}

theorem members_eq (r : RouteState) (network : String) (draws : GroupDraws) :
    r.members network = (r.ensureGroup network draws).peers := by
  unfold members ensureGroup
  cases r.groups.lookup network <;> rfl

theorem members_of_lookup {g : RouteGroupData} (h : r.groups.lookup network = some g) :
    r.members network = g.peers := by
  rw [members, h]
  rfl

/-- The relay's row of the group of a network has the version `n`. -/
def NeighboursOf (network : String) (n : ℕ) (r : RouteState) : Prop :=
  ∀ draws, (r.ensureGroup network draws).Neighbours r.myPeerId n

theorem NeighboursOf.new (myPeerId : PeerId) : NeighboursOf network 0 (.new myPeerId) :=
  fun draws => .new myPeerId _ draws

theorem relayVersion_eq (r : RouteState) (network : String) (draws : GroupDraws) :
    r.relayVersion network =
      ((r.ensureGroup network draws).connRowFor r.myPeerId).version.toNat := by
  unfold relayVersion ensureGroup
  cases r.groups.lookup network <;> rfl

theorem NeighboursOf.relayVersion (h : NeighboursOf network n r) (hn : n < 2 ^ 32) :
    r.relayVersion network = n := by
  rw [r.relayVersion_eq network ⟨⟨0, 0, 0, 0⟩, 0⟩, (h _).row]
  exact UInt32.toNat_ofNat_of_lt' hn

/-- What a call leaves of the group of `network`, with the number of members that have joined
    or left. -/
inductive MembersStep (r : RouteState) (prost : Prost) (network : String) :
    RouteOp → ℕ → RouteGroupData → Prop
  /-- At most the sessions and the relay's own info have changed. -/
  | quiet {op : RouteOp} (draws : GroupDraws) (sessions : FinMap PeerId SessionState)
      (info : RoutePeerInfo) (version : UInt32) :
      MembersStep r prost network op 0
        { r.ensureGroup network draws with
          sessions, myInfo := info, myInfoVersion := version }
  /-- A member is added once more. -/
  | present (peerId : PeerId) (publicKey : Bytes) (nowMs : UInt64) (draws : GroupDraws) :
      peerId ∈ (r.ensureGroup network draws).peers →
      MembersStep r prost network (.addPeer network peerId publicKey nowMs draws) 0
        ((r.ensureGroup network draws).addPeer r.myPeerId peerId publicKey nowMs)
  /-- A peer joins. -/
  | joined (peerId : PeerId) (publicKey : Bytes) (nowMs : UInt64) (draws : GroupDraws) :
      peerId ∉ (r.ensureGroup network draws).peers →
      MembersStep r prost network (.addPeer network peerId publicKey nowMs draws) 1
        ((r.ensureGroup network draws).addPeer r.myPeerId peerId publicKey nowMs)
  /-- A peer that is no member is removed. -/
  | absent (peerId : PeerId) (draws : GroupDraws) : peerId ∉ (r.ensureGroup network draws).peers →
      MembersStep r prost network (.removePeer network peerId draws) 0
        ((r.ensureGroup network draws).removePeer r.myPeerId peerId)
  /-- A member leaves. -/
  | left (peerId : PeerId) (draws : GroupDraws) : peerId ∈ (r.ensureGroup network draws).peers →
      MembersStep r prost network (.removePeer network peerId draws) 1
        ((r.ensureGroup network draws).removePeer r.myPeerId peerId)
  /-- The silent members are swept. -/
  | swept (nowMs : UInt64) {g : RouteGroupData} : r.groups.lookup network = some g →
      MembersStep r prost network (.sweepExpiredRouteInfo nowMs) (g.deadDirect nowMs).length
        (g.sweep r.myPeerId nowMs)
  /-- An update is built. -/
  | built (targetPeerId : PeerId) (serverSessionId : UInt64) (weAreInitiator forceFull : Bool)
      (nowMs : UInt64) (draws : GroupDraws) :
      MembersStep r prost network
        (.buildSyncRouteInfoRequest network targetPeerId serverSessionId weAreInitiator forceFull
          nowMs draws) 0
        (((r.ensureGroup network draws).openSession targetPeerId serverSessionId).cachedFor
          r.myPeerId targetPeerId nowMs)
  /-- A request is accepted. -/
  | synced (fromPeerId : PeerId) (requestBytes : Bytes) (request : SyncRouteInfoRequest)
      (nowMs : UInt64) (draws : GroupDraws) :
      MembersStep r prost network
        (.handleSyncRouteInfoRequest network fromPeerId requestBytes nowMs draws) 0
        ((r.ensureGroup network draws).syncRouteInfo r.myPeerId prost fromPeerId request nowMs).2

/-- What a call can have done to the members of a network. -/
theorem step_members {op : RouteOp} (hop : r.RelayApart op) (draws : GroupDraws) :
    MembersStep r prost network op (r.turnover prost network op)
      ((r.step prost op).1.ensureGroup network draws) := by
  cases hlookup : (r.step prost op).1.groups.lookup network with
  | none =>
    -- There is no group, neither before nor after.
    have hnone := lookup_step_of_none hlookup
    have hturn : r.turnover prost network op = 0 := by
      rw [turnover, members, members, hlookup, hnone, RouteGroupData.turnover_self]
    have hquiet := @MembersStep.quiet r prost network op draws ∅
      ((r.step prost op).1.ensureGroup network draws).myInfo
      ((r.step prost op).1.ensureGroup network draws).myInfoVersion
    rw [hturn]
    unfold ensureGroup at hquiet ⊢
    rw [hnone, hlookup] at hquiet
    rw [hlookup]
    rw [myPeerId_step] at hquiet ⊢
    exact hquiet
  | some g' =>
    rw [ensureGroup_of_lookup hlookup, turnover, members_of_lookup hlookup]
    have hstep := step_group hlookup
    clear hlookup
    cases hstep with
    | quiet draws sessions info version =>
      rw [r.members_eq network draws, RouteGroupData.turnover_self]
      exact .quiet draws sessions info version
    | added peerId publicKey nowMs draws =>
      rw [r.members_eq network draws, RouteGroupData.peers_addPeer]
      by_cases hmem : peerId ∈ (r.ensureGroup network draws).peers
      · rw [Finset.insert_eq_of_mem hmem, RouteGroupData.turnover_self]
        exact .present peerId publicKey nowMs draws hmem
      · rw [RouteGroupData.turnover_insert hmem]
        exact .joined peerId publicKey nowMs draws hmem
    | removed peerId draws =>
      rw [r.members_eq network draws, RouteGroupData.peers_removePeer]
      by_cases hmem : peerId ∈ (r.ensureGroup network draws).peers
      · rw [RouteGroupData.turnover_erase hmem]
        exact .left peerId draws hmem
      · rw [Finset.erase_eq_of_notMem hmem, RouteGroupData.turnover_self]
        exact .absent peerId draws hmem
    | @swept nowMs g hg =>
      rw [members_of_lookup hg, RouteGroupData.turnover_sweep]
      exact .swept nowMs hg
    | built targetPeerId serverSessionId weAreInitiator forceFull nowMs draws =>
      obtain ⟨list, bitmap, heq⟩ := ((r.ensureGroup network draws).openSession targetPeerId
        serverSessionId).cachedFor_eq r.myPeerId targetPeerId nowMs
      have hpeers : (((r.ensureGroup network draws).openSession targetPeerId
          serverSessionId).cachedFor r.myPeerId targetPeerId nowMs).peers =
          (r.ensureGroup network draws).peers := by
        rw [heq]
        rfl
      rw [r.members_eq network draws, hpeers, RouteGroupData.turnover_self]
      exact .built targetPeerId serverSessionId weAreInitiator forceFull nowMs draws
    | @synced fromPeerId requestBytes nowMs draws request hdecode =>
      have hne : fromPeerId ≠ r.myPeerId := hop
      rw [r.members_eq network draws,
        (RouteGroupData.syncRouteInfo_owner hne _ prost _ nowMs).1.peers,
        RouteGroupData.turnover_self]
      exact .synced fromPeerId requestBytes request nowMs draws

/-- A call raises the version by the number of members that join or leave in it. -/
theorem NeighboursOf.step (h : NeighboursOf network n r) {op : RouteOp} (hop : r.RelayApart op) :
    NeighboursOf network (n + r.turnover prost network op) (r.step prost op).1 := by
  intro draws
  have hstep := @step_members prost r network op hop draws
  rw [myPeerId_step]
  generalize r.turnover prost network op = k at hstep ⊢
  generalize (r.step prost op).1.ensureGroup network draws = g' at hstep ⊢
  cases hstep with
  | quiet draws sessions info version => exact ⟨(h draws).apart, (h draws).noInfo, (h draws).row⟩
  | present peerId publicKey nowMs draws hmem =>
    exact (h draws).addPeer_of_mem hmem publicKey nowMs
  | joined peerId publicKey nowMs draws hmem =>
    exact (h draws).addPeer_of_notMem hmem hop publicKey nowMs
  | absent peerId draws hmem => exact (h draws).removePeer_of_notMem hmem hop
  | left peerId draws hmem => exact (h draws).removePeer_of_mem hmem
  | swept nowMs hg =>
    have hgroup := h draws
    rw [ensureGroup_of_lookup hg] at hgroup
    exact hgroup.sweep nowMs
  | built targetPeerId serverSessionId weAreInitiator forceFull nowMs draws =>
    have hopened : ((r.ensureGroup network draws).openSession targetPeerId
        serverSessionId).Neighbours r.myPeerId n :=
      ⟨(h draws).apart, (h draws).noInfo, (h draws).row⟩
    exact hopened.cachedFor targetPeerId nowMs
  | synced fromPeerId requestBytes request nowMs draws =>
    exact (h draws).syncRouteInfo prost hop request nowMs

/-- The other rows that are there before and after a call. -/
theorem rowsGrow_step {op : RouteOp} (hop : r.RelayApart op) {g g' : RouteGroupData}
    (hg : r.groups.lookup network = some g)
    (hg' : (r.step prost op).1.groups.lookup network = some g') :
    g.RowsGrow r.myPeerId g' := by
  have hstep := step_group hg'
  clear hg'
  cases hstep with
  | quiet draws sessions info version =>
    rw [ensureGroup_of_lookup hg]
    exact .of_kept fun _ _ => .inr rfl
  | added peerId publicKey nowMs draws =>
    rw [ensureGroup_of_lookup hg]
    refine .of_kept fun pid hpid => .inr ?_
    exact g.lookup_addPeer_connRows peerId publicKey nowMs hpid
  | removed peerId draws =>
    rw [ensureGroup_of_lookup hg]
    exact .of_kept (RouteGroupData.RowsGrow.removePeers g r.myPeerId [peerId])
  | @swept nowMs g₁ hg₁ =>
    obtain rfl := Option.some.inj (hg.symm.trans hg₁)
    exact .sweep g r.myPeerId nowMs
  | built targetPeerId serverSessionId weAreInitiator forceFull nowMs draws =>
    rw [ensureGroup_of_lookup hg]
    obtain ⟨list, bitmap, heq⟩ :=
      (g.openSession targetPeerId serverSessionId).cachedFor_eq r.myPeerId targetPeerId nowMs
    rw [heq]
    exact .of_kept fun _ _ => .inr rfl
  | synced fromPeerId requestBytes nowMs draws hdecode =>
    rw [ensureGroup_of_lookup hg]
    exact .syncRouteInfo hop g prost _ nowMs

end RouteState

/-- How many members of a network join or leave in a history. -/
def changes (prost : Prost) (network : String) (tr : List RouteEvent) : ℕ :=
  (tr.map fun e => e.pre.turnover prost network e.input).sum

/-- What a call does to the rows of a network: the relay has the members as its neighbours,
    the rows that stay have a higher version or are the same, and the version of the relay's
    row counts the members that join or leave. -/
structure RowVersions (prost : Prost) (network : String) (r : RouteState) (op : RouteOp) : Prop where
  relay : ∀ g', (r.step prost op).1.groups.lookup network = some g' →
    (∀ row, g'.connRows.lookup r.myPeerId = some row → row.connected = g'.peers) ∧
      (g'.peers.Nonempty → (g'.connRows.lookup r.myPeerId).isSome)
  rows : ∀ g g', r.groups.lookup network = some g →
    (r.step prost op).1.groups.lookup network = some g' →
    ∀ pid row row', g.connRows.lookup pid = some row → g'.connRows.lookup pid = some row' →
      row.version ≤ row'.version ∧ (row'.connected ≠ row.connected → row.version < row'.version)
  counted : (r.step prost op).1.relayVersion network =
    r.relayVersion network + r.turnover prost network op

theorem neighboursOf_run (prost : Prost) (myPeerId : PeerId) (network : String)
    (ops : List RouteOp) (hapart : Along (fun _ e => e.pre.RelayApart e.input)
      ((routeState prost myPeerId).history (.new myPeerId) ops)) :
    RouteState.NeighboursOf network
      (changes prost network ((routeState prost myPeerId).history (.new myPeerId) ops))
      ((routeState prost myPeerId).run (.new myPeerId) ops) := by
  refine (routeState prost myPeerId).history_invariant
    (P := fun tr r => RouteState.NeighboursOf network (changes prost network tr) r) ?_ ?_ ops hapart
  · exact .new myPeerId
  · intro tr r op h hop
    rw [changes, List.map_append, List.sum_append]
    exact h.step hop

/-- In every run in which the relay is no peer of its own, and in which fewer than `2 ^ 32`
    members of a network join or leave, every call keeps to the row versions. -/
theorem row_versions (prost : Prost) (myPeerId : PeerId) (network : String) (ops : List RouteOp)
    (hapart : Along (fun _ e => e.pre.RelayApart e.input)
      ((routeState prost myPeerId).history (.new myPeerId) ops))
    (hchanges : changes prost network ((routeState prost myPeerId).history (.new myPeerId) ops) <
      2 ^ 32) :
    ∀ e ∈ (routeState prost myPeerId).history (.new myPeerId) ops,
      RowVersions prost network e.pre e.input := by
  intro e he
  obtain ⟨before, after, hsplit⟩ := List.append_of_mem he
  obtain ⟨js, op, ks, rfl, rfl, rfl⟩ := (routeState prost myPeerId).history_split hsplit
  have hop := hapart _ _ _ hsplit
  rw [hsplit] at hapart hchanges
  have hbefore := neighboursOf_run prost myPeerId network js hapart.append_left
  set r := (routeState prost myPeerId).run (.new myPeerId) js with hr
  set n := changes prost network ((routeState prost myPeerId).history (.new myPeerId) js) with hn
  have hbound : n + r.turnover prost network op < 2 ^ 32 := by
    rw [changes, List.map_append, List.sum_append, List.map_cons, List.sum_cons] at hchanges
    exact lt_of_le_of_lt (Nat.add_le_add_left (Nat.le_add_right _ _) _) hchanges
  have hafter := @RouteState.NeighboursOf.step prost _ _ _ hbefore op hop
  change RowVersions prost network r op
  refine ⟨fun g' hg' => ?_, fun g g' hg hg' pid row row' hrow hrow' => ?_, ?_⟩
  · have hgroup := hafter ⟨⟨0, 0, 0, 0⟩, 0⟩
    rw [RouteState.ensureGroup_of_lookup hg', RouteState.myPeerId_step] at hgroup
    exact ⟨fun row hrow => congrArg ConnRow.connected (hgroup.connected hrow), hgroup.isSome⟩
  · by_cases hpid : pid = r.myPeerId
    · -- The relay's own row.
      subst hpid
      have hold := hbefore ⟨⟨0, 0, 0, 0⟩, 0⟩
      have hnew := hafter ⟨⟨0, 0, 0, 0⟩, 0⟩
      rw [RouteState.ensureGroup_of_lookup hg] at hold
      rw [RouteState.ensureGroup_of_lookup hg', RouteState.myPeerId_step, RouteState.turnover,
        RouteState.members_of_lookup hg, RouteState.members_of_lookup hg'] at hnew
      rw [RouteState.turnover, RouteState.members_of_lookup hg, RouteState.members_of_lookup hg']
        at hbound
      rw [hold.connected hrow, hnew.connected hrow']
      exact RouteGroupData.supersedes_of_turnover hbound
    · exact RouteState.rowsGrow_step hop hg hg' pid row row' hpid hrow hrow'
  · rw [hafter.relayVersion hbound, hbefore.relayVersion (lt_of_le_of_lt (Nat.le_add_right _ _) hbound)]

namespace RowsSample

open RoutesSample

/-- The first report of the second peer, and a newer one with another row. -/
def first : SyncRouteInfoRequest := report 2 1 [row 2 1 [1]]

def second : SyncRouteInfoRequest := report 2 2 [row 2 3 [1, relay]]

/-- Two peers come and the second one reports twice; the first one leaves, and an update is
    built for the second one, which is silent afterwards and swept. -/
def ops : List RouteOp :=
  [join 1 0, join 2 10, reporting first 20, reporting second 30, leave 1, build 2 40,
    .sweepExpiredRouteInfo 1000000]

def history : List RouteEvent :=
  (routeState (Prost.listed [] [] [] [first, second] []) relay).history (.new relay) ops

/-- Four times a member joins or leaves. -/
theorem row_versions_swept :
    Along (fun _ e => e.pre.RelayApart e.input) history ∧
      changes (Prost.listed [] [] [] [first, second] []) "net" history = 4 ∧
      ∀ e ∈ history, RowVersions (Prost.listed [] [] [] [first, second] []) "net" e.pre e.input := by
  have hapart : Along (fun _ e => e.pre.RelayApart e.input) history := by decide +kernel
  have hchanges : changes (Prost.listed [] [] [] [first, second] []) "net" history = 4 := by
    decide +kernel
  refine ⟨hapart, hchanges, row_versions _ relay "net" ops hapart ?_⟩
  exact hchanges.trans_lt (by decide)

end RowsSample

end EasyTierEdge
