import EasyTierEdge.Lib.Register
import EasyTierEdge.PeerCenter.Digest

/-!
# What the peer center knows

A pair of peers of a network is a cell of the peer center (`PeerCenter.entryAt_step`): a report
of its source that names its destination puts a latency there, and it is taken away when one of
the two leaves the network, or when it has not been reported for too long. So the global map holds
just the latest reports that still stand, and this is what a peer is told that asks for it
(`global_map_latest`).
-/

namespace EasyTierEdge

namespace PeerCenterOp

/-- What a report says of a destination: the last info that it has of it. -/
def infoOf (peers : PeerInfoForGlobalMap) (dst : UInt32) : Option DirectConnectedPeerInfo :=
  (peers.reverse.find? fun p => p.1 = dst).map Prod.snd

/-- What a call reports of a pair of peers. -/
def reported (prost : Prost) (network : String) (pair : SrcDstPeerPair) :
    PeerCenterOp → Option PeerCenterInfoEntry
  | .reportPeers network' authenticatedPeerId reportBytes nowMs =>
    (prost.decodeReportPeersRequest reportBytes).toOption.bind fun request =>
      if network' = network ∧ authenticatedPeerId = (ofLex pair).1 ∧
          request.myPeerId = authenticatedPeerId then
        (infoOf (request.peerInfos.getD []) (ofLex pair).2).map (⟨·, nowMs⟩)
      else none
  | _ => none

/-- A call leaves what was reported of a pair. -/
def spares (network : String) (pair : SrcDstPeerPair) (entry : PeerCenterInfoEntry) :
    PeerCenterOp → Bool
  | .removePeer network' peerId =>
    network' ≠ network || (ofLex pair).1 ≠ peerId && (ofLex pair).2 ≠ peerId
  | .cleanOutdated ttlSec nowMs =>
    nowMs.saturatingSub entry.updateTimeMs < ttlSec.saturatingMul 1000
  | _ => true

end PeerCenterOp

theorem PeerCenterOp.infoOf_snoc (peers : PeerInfoForGlobalMap) (dst dst' : UInt32)
    (info : DirectConnectedPeerInfo) : infoOf (peers ++ [(dst', info)]) dst =
      if dst' = dst then some info else infoOf peers dst := by
  rw [infoOf, List.reverse_append, List.reverse_singleton, List.singleton_append, List.find?_cons]
  by_cases h : dst' = dst
  · simp [h]
  · simp [h, infoOf]

theorem SrcDstPeerPair.eq_toLex_iff {pair : SrcDstPeerPair} {src dst : UInt32} :
    pair = toLex (src, dst) ↔ src = (ofLex pair).1 ∧ dst = (ofLex pair).2 := by
  constructor
  · rintro rfl
    exact ⟨rfl, rfl⟩
  · rintro ⟨rfl, rfl⟩
    rfl

namespace PeerCenterGroupData

variable {data : PeerCenterGroupData} {hash : PeerMapHash}

/-- A report writes the pairs of its source, the last info of each. -/
theorem lookup_report (myPeerId : UInt32) (peers : PeerInfoForGlobalMap) (nowMs : UInt64)
    (pair : SrcDstPeerPair) :
    (data.report hash myPeerId peers nowMs).globalPeerMap.lookup pair =
      (if myPeerId = (ofLex pair).1 then
        (PeerCenterOp.infoOf peers (ofLex pair).2).map (⟨·, nowMs⟩) else none).or
      (data.globalPeerMap.lookup pair) := by
  change (peers.foldl _ data.globalPeerMap).lookup pair = _
  induction peers using List.reverseRecOn with
  | nil => simp [PeerCenterOp.infoOf]
  | append_singleton peers p ih =>
    obtain ⟨dst, info⟩ := p
    rw [List.foldl_append, List.foldl_cons, List.foldl_nil, Finmap.lookup_insert_ite, ih,
      PeerCenterOp.infoOf_snoc]
    simp only [SrcDstPeerPair.eq_toLex_iff]
    by_cases hsrc : myPeerId = (ofLex pair).1
    · by_cases hdst : dst = (ofLex pair).2 <;> simp [hsrc, hdst]
    · simp [hsrc]

theorem lookup_removePeer (peerId : UInt32) (pair : SrcDstPeerPair) :
    (data.removePeer hash peerId).globalPeerMap.lookup pair =
      (data.globalPeerMap.lookup pair).filter fun _ =>
        (ofLex pair).1 ≠ peerId && (ofLex pair).2 ≠ peerId :=
  Finmap.lookup_retain _ _ _

theorem lookup_cleanOutdated (ttlMs nowMs : UInt64) (pair : SrcDstPeerPair) :
    (data.cleanOutdated hash ttlMs nowMs).globalPeerMap.lookup pair =
      (data.globalPeerMap.lookup pair).filter fun entry =>
        nowMs.saturatingSub entry.updateTimeMs < ttlMs :=
  Finmap.lookup_retain _ _ _

/-- A group that is dropped has no pairs. -/
theorem lookup_of_isEmpty (h : data.isEmpty) (pair : SrcDstPeerPair) :
    data.globalPeerMap.lookup pair = none := by
  have hsize : data.globalPeerMap.size = 0 := by
    simp only [isEmpty, Bool.and_eq_true, decide_eq_true_eq] at h
    exact h.1
  rw [Finmap.size_eq_card_keys, Finset.card_eq_zero] at hsize
  rw [Finmap.lookup_eq_none, ← Finmap.mem_keys, hsize]
  exact Finset.notMem_empty pair

end PeerCenterGroupData

namespace PeerCenter

variable {hash : PeerMapHash} {prost : Prost} {center : PeerCenter}

theorem lookup_removePeer_of_ne {network network' : String} (hne : network ≠ network')
    (peerId : UInt32) :
    (center.removePeer hash network' peerId).lookup network = center.lookup network := by
  rw [removePeer]
  cases center.lookup network' with
  | none => rfl
  | some data =>
    dsimp only
    split_ifs
    · exact Finmap.lookup_erase_ne hne
    · exact Finmap.lookup_insert_of_ne _ hne

/-- What the peer center holds of a pair of peers. -/
def entryAt (center : PeerCenter) (network : String) (pair : SrcDstPeerPair) :
    Option PeerCenterInfoEntry :=
  (center.group network).globalPeerMap.lookup pair

theorem entryAt_insert (network network' : String) (data : PeerCenterGroupData)
    (pair : SrcDstPeerPair) : entryAt (center.insert network data) network' pair =
      if network' = network then data.globalPeerMap.lookup pair
      else center.entryAt network' pair := by
  rw [entryAt, group, Finmap.lookup_insert_ite]
  split_ifs <;> rfl

/-- A pair of peers is a cell. -/
theorem entryAt_step (center : PeerCenter) (network : String) (pair : SrcDstPeerPair) (op : PeerCenterOp) :
    ((machine hash prost).step center op).1.entryAt network pair =
      cellStep (PeerCenterOp.reported prost network pair) (PeerCenterOp.spares network pair)
        (center.entryAt network pair) op := by
  have hkept : ∀ cell : Option PeerCenterInfoEntry, cell.filter (fun _ => true) = cell :=
    fun cell => by cases cell <;> rfl
  cases op with
  | reportPeers network' authenticatedPeerId reportBytes nowMs =>
    simp only [machine, reportPeers, cellStep, PeerCenterOp.reported, PeerCenterOp.spares, hkept]
    cases hdecode : prost.decodeReportPeersRequest reportBytes with
    | error e => simp [settle, Except.toOption]
    | ok request =>
      by_cases hid : request.myPeerId = authenticatedPeerId
      · have hgroup : center.upsert network'
            (·.report hash request.myPeerId (request.peerInfos.getD []) nowMs) =
            center.insert network' ((center.group network').report hash request.myPeerId
              (request.peerInfos.getD []) nowMs) := rfl
        simp only [hid, ne_eq, not_true, if_false, settle, Except.toOption, Option.bind_some]
        rw [hid] at hgroup
        rw [hgroup, entryAt_insert, PeerCenterGroupData.lookup_report]
        by_cases hnetwork : network' = network
        · subst hnetwork
          simp [entryAt]
        · simp [hnetwork, Ne.symm hnetwork]
      · simp [hid, settle, Except.toOption]
  | getGlobalPeerMap network' requestBytes =>
    simp only [machine, getGlobalPeerMap, cellStep, PeerCenterOp.reported, PeerCenterOp.spares,
      hkept, Option.none_or]
    cases hdecode : prost.decodeGetGlobalPeerMapRequest requestBytes with
    | error e => rfl
    | ok request =>
      -- A group may be created, but an empty one.
      change entryAt (center.insert network' (center.group network')) network pair = _
      rw [entryAt_insert]
      split_ifs with hnetwork
      · rw [hnetwork, entryAt]
      · rfl
  | removePeer network' peerId =>
    simp only [cellStep, PeerCenterOp.reported, PeerCenterOp.spares, Option.none_or]
    change (center.removePeer hash network' peerId).entryAt network pair = _
    by_cases hnetwork : network = network'
    · subst hnetwork
      have hother : (center.removePeer hash network peerId).entryAt network pair =
          ((center.group network).removePeer hash peerId).globalPeerMap.lookup pair := by
        rw [removePeer, group]
        cases hlookup : center.lookup network with
        | none => simp [entryAt, group, hlookup, PeerCenterGroupData.lookup_removePeer, default]
        | some data =>
          dsimp only
          split_ifs with hempty
          · rw [entryAt, group, Finmap.lookup_erase]
            exact (PeerCenterGroupData.lookup_of_isEmpty hempty pair).symm
          · rw [entryAt_insert, if_pos rfl]
            rfl
      rw [hother, PeerCenterGroupData.lookup_removePeer]
      simp [entryAt]
    · rw [entryAt, group, lookup_removePeer_of_ne hnetwork]
      simp [Ne.symm hnetwork, hkept, entryAt, group]
  | cleanOutdated ttlSec nowMs =>
    simp only [cellStep, PeerCenterOp.reported, PeerCenterOp.spares, Option.none_or]
    change (center.cleanOutdated hash ttlSec nowMs).entryAt network pair = _
    rw [entryAt, group, cleanOutdated, Finmap.lookup_retain, Finmap.lookup_mapValues, entryAt, group]
    cases hlookup : center.lookup network with
    | none => simp [default]
    | some data =>
      rw [Option.map_some, Option.filter_some]
      split_ifs with hempty
      · exact PeerCenterGroupData.lookup_cleanOutdated _ _ _
      · refine Eq.trans ?_ (@PeerCenterGroupData.lookup_cleanOutdated data hash _ _ pair)
        refine Eq.symm (PeerCenterGroupData.lookup_of_isEmpty ?_ pair)
        simpa using hempty

/-- After any calls, the peer center holds of every pair of peers what was reported last, if it
    still stands, and a peer that asks for the map of its network, and is not told that nothing
    has changed, is told just this. -/
theorem global_map_latest (hash : PeerMapHash) (prost : Prost) (ops : List PeerCenterOp)
    (network : String) (src dst : UInt32) :
    let center := (machine hash prost).run ∅ ops
    let latest := Stands (PeerCenterOp.reported prost network (toLex (src, dst)))
      (PeerCenterOp.spares network (toLex (src, dst))) ops
    (∀ entry, center.entryAt network (toLex (src, dst)) = some entry ↔ latest entry) ∧
      ∀ request info, center.answer network request ≠ {} →
        ((∃ peers, (src, peers) ∈ (center.answer network request).globalPeerMap ∧
            (dst, info) ∈ peers) ↔ ∃ nowMs, latest ⟨info, nowMs⟩) := by
  intro center latest
  have hentry : ∀ entry, center.entryAt network (toLex (src, dst)) = some entry ↔ latest entry := by
    intro entry
    have hrun := Machine.run_eq_foldl (m := machine hash prost) (f := (entryAt · network _))
      (fun center op => entryAt_step center network (toLex (src, dst)) op) ∅ ops
    rw [hrun]
    exact foldl_cellStep_eq_some_iff ops entry
  refine ⟨hentry, fun request info hfull => ?_⟩
  have hanswer : (center.answer network request).globalPeerMap = (center.group network).peerMap := by
    rw [answer] at hfull ⊢
    split_ifs with hunchanged
    · exact absurd (if_pos hunchanged) hfull
    · rfl
  rw [hanswer, (PeerCenterGroupData.listedBySource_peerMap _).mem_iff,
    PeerCenterGroupData.infoAt, Option.map_eq_some_iff]
  constructor
  · rintro ⟨entry, hlookup, rfl⟩
    exact ⟨entry.updateTimeMs, (hentry entry).1 hlookup⟩
  · rintro ⟨nowMs, hlatest⟩
    exact ⟨⟨info, nowMs⟩, (hentry _).2 hlatest, rfl⟩

end PeerCenter

end EasyTierEdge
