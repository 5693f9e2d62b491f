import EasyTierEdge.Route.Rows

/-!
# What a sweep takes

A sweep goes through each network twice: first it removes the members that have been silent
for over 90 s, then the infos that have expired, looking at what the first pass has left.
`Swept` says what it must leave of a group, by the sessions and infos before it alone, and
`sweep_exact` that it does, that it reports what it took and nothing else, and that a second
sweep at the same time finds nothing to take.

The row of a member that is removed goes with it, whether or not there is an info
(`SweepSample`), and the row of the relay is made anew.
-/

namespace EasyTierEdge

namespace RouteGroupData

variable {g g' : RouteGroupData} {myPeerId : PeerId} {nowMs : UInt64}

/-- The session of the peer was touched in the last 90 s. -/
def Heard (g : RouteGroupData) (nowMs : UInt64) (pid : PeerId) : Prop :=
  ∃ session, g.sessions.lookup pid = some session ∧
    nowMs.saturatingSub session.lastTouchMs ≤ removeUnreachablePeerInfoAfterMs

/-- The member is gone. -/
def LostMember (g g' : RouteGroupData) (pid : PeerId) : Prop := pid ∈ g.peers ∧ pid ∉ g'.peers

/-- The info of the peer is gone. -/
def LostInfo (g g' : RouteGroupData) (pid : PeerId) : Prop :=
  pid ∈ g.peerInfos ∧ pid ∉ g'.peerInfos

/-- What a sweep leaves of a group. -/
structure Swept (myPeerId : PeerId) (nowMs : UInt64) (g g' : RouteGroupData) : Prop where
  /-- The members that have been heard of stay, and no other one. -/
  peers : ∀ pid, pid ∈ g'.peers ↔ pid ∈ g.peers ∧ g.Heard nowMs pid
  /-- The infos that stay. -/
  peerInfos : ∀ pid info, g'.peerInfos.lookup pid = some info ↔
    g.peerInfos.lookup pid = some info ∧ ¬ g.LostMember g' pid ∧
      (ageMs info nowMs ≤ removeUnreachablePeerInfoAfterMs ∨
        ageMs info nowMs ≤ removeDeadPeerInfoAfterMs ∧ g.Heard nowMs pid)
  /-- The bound keys that go. -/
  keys : ∀ pid, g.LostMember g' pid ∨ g.LostInfo g' pid →
    g'.authenticatedPeerKeys.lookup pid = none
  /-- The rows that go. -/
  rows : ∀ pid, pid ≠ myPeerId → g.LostMember g' pid ∨ g.LostInfo g' pid →
    g'.connRows.lookup pid = none
  /-- The rows that stay. -/
  otherRows : ∀ pid, pid ≠ myPeerId → ¬ (g.LostMember g' pid ∨ g.LostInfo g' pid) →
    g'.connRows.lookup pid = g.connRows.lookup pid
  /-- No session remembers a version of what is gone. -/
  versions : ∀ target session, g'.sessions.lookup target = some session →
    ∀ pid, g.LostMember g' pid ∨ g.LostInfo g' pid → pid ∉ session.peerInfoVerMap

/-! ## What is due -/

theorem any_reachable {pid : PeerId} :
    (g.sessions.lookup pid).any (·.reachable nowMs) = true ↔ g.Heard nowMs pid := by
  unfold Heard
  rw [Option.any_eq_true]
  simp only [SessionState.reachable, decide_eq_true_eq]

theorem mem_deadDirect {pid : PeerId} :
    pid ∈ g.deadDirect nowMs ↔ pid ∈ g.peers ∧ ¬ g.Heard nowMs pid := by
  rw [deadDirect, Finset.mem_ascending, Finset.mem_filter, Bool.not_eq_true', ← any_reachable,
    Bool.not_eq_true]

/-- An info expires after 90 s if its peer is silent, and after 3660 s in any case. -/
theorem not_expired {pid : PeerId} {info : RoutePeerInfo} :
    g.expired nowMs pid info = false ↔
      ageMs info nowMs ≤ removeUnreachablePeerInfoAfterMs ∨
        ageMs info nowMs ≤ removeDeadPeerInfoAfterMs ∧ g.Heard nowMs pid := by
  unfold expired
  split_ifs with hyoung hold
  · exact iff_of_true rfl (.inl hyoung)
  · refine iff_of_false (by decide) ?_
    rintro (h | h)
    · exact hyoung h
    · exact UInt64.not_le.2 hold h.1
  · rw [Bool.not_eq_false', any_reachable, or_iff_right hyoung,
      and_iff_right (UInt64.not_lt.1 hold)]

theorem mem_purge {pid : PeerId} :
    pid ∈ g.purge nowMs ↔
      ∃ info, g.peerInfos.lookup pid = some info ∧ g.expired nowMs pid info = true := by
  rw [purge, Finset.mem_ascending, Finset.mem_filter, Option.any_eq_true]
  refine and_iff_right_of_imp ?_
  rintro ⟨info, hinfo, -⟩
  exact Finmap.mem_keys.2 (Finmap.mem_of_lookup_eq_some hinfo)

/-! ## What is forgotten -/

/-- The keys, and the versions that the sessions remember, once the peers of the list are
    forgotten. -/
structure Forgotten (pids : List PeerId) (g g' : RouteGroupData) : Prop where
  keys : ∀ pid ∈ pids, g'.authenticatedPeerKeys.lookup pid = none
  stillNone : ∀ pid, g.authenticatedPeerKeys.lookup pid = none →
    g'.authenticatedPeerKeys.lookup pid = none
  versions : ∀ target session, g'.sessions.lookup target = some session →
    (∀ pid ∈ pids, pid ∉ session.peerInfoVerMap) ∧
    ∃ before, g.sessions.lookup target = some before ∧
      ∀ pid, pid ∉ before.peerInfoVerMap → pid ∉ session.peerInfoVerMap

namespace Forgotten

theorem nil (g : RouteGroupData) : Forgotten [] g g :=
  ⟨List.forall_mem_nil _, fun _ h => h,
    fun _ session h => ⟨List.forall_mem_nil _, session, h, fun _ hpid => hpid⟩⟩

theorem trans {g'' : RouteGroupData} {pids pids' : List PeerId} (h : Forgotten pids g g')
    (h' : Forgotten pids' g' g'') : Forgotten (pids ++ pids') g g'' := by
  refine ⟨fun pid hpid => ?_, fun pid hpid => h'.stillNone pid (h.stillNone pid hpid),
    fun target session hsession => ?_⟩
  · rcases List.mem_append.1 hpid with hpid | hpid
    · exact h'.stillNone pid (h.keys pid hpid)
    · exact h'.keys pid hpid
  · obtain ⟨hgone', middle, hmiddle, hkept'⟩ := h'.versions target session hsession
    obtain ⟨hgone, before, hbefore, hkept⟩ := h.versions target middle hmiddle
    refine ⟨fun pid hpid => ?_, before, hbefore, fun pid hpid => hkept' pid (hkept pid hpid)⟩
    rcases List.mem_append.1 hpid with hpid | hpid
    · exact hkept' pid (hgone pid hpid)
    · exact hgone' pid hpid

/-- One after another. -/
theorem foldl {f : RouteGroupData → PeerId → RouteGroupData}
    (hf : ∀ g pid, Forgotten [pid] g (f g pid)) (pids : List PeerId) (g : RouteGroupData) :
    Forgotten pids g (pids.foldl f g) := by
  induction pids generalizing g with
  | nil => exact .nil g
  | cons pid pids ih => exact (hf g pid).trans (ih (f g pid))

/-- Only the keys and sessions matter. -/
theorem congr {g'' : RouteGroupData} {pids : List PeerId} (h : Forgotten pids g g')
    (hkeys : g''.authenticatedPeerKeys = g'.authenticatedPeerKeys)
    (hsessions : g''.sessions = g'.sessions) : Forgotten pids g g'' := by
  refine ⟨?_, ?_, ?_⟩
  · rw [hkeys]
    exact h.keys
  · rw [hkeys]
    exact h.stillNone
  · rw [hsessions]
    exact h.versions

end Forgotten

theorem forgotten_purgePeer (g : RouteGroupData) (pid : PeerId) :
    Forgotten [pid] g (g.purgePeer pid) := by
  refine ⟨fun q hq => ?_, fun q hq => ?_, fun target session hsession => ?_⟩
  · rw [purgePeer, Finmap.lookup_erase_ite, if_pos (List.mem_singleton.1 hq)]
  · rw [purgePeer, Finmap.lookup_erase_ite, hq, ite_self]
  · rw [purgePeer, Finmap.lookup_mapValues, Option.map_eq_some_iff] at hsession
    obtain ⟨before, hbefore, rfl⟩ := hsession
    refine ⟨fun q hq => ?_, before, hbefore, fun q hq => ?_⟩
    · rw [List.mem_singleton.1 hq]
      exact Finmap.notMem_erase_self
    · exact fun hmem => hq (Finmap.mem_erase.1 hmem).2

theorem forgotten_removePeer (g : RouteGroupData) (myPeerId pid : PeerId) :
    Forgotten [pid] g (g.removePeer myPeerId pid) := by
  -- What is left of the peer's own session is nothing, and of the others what a purge leaves.
  have hforget : Forgotten [pid] g (g.forgetPeer pid) := by
    refine ⟨fun q hq => ?_, fun q hq => ?_, fun target session hsession => ?_⟩
    · exact (forgotten_purgePeer g pid).keys q hq
    · exact (forgotten_purgePeer g pid).stillNone q hq
    · refine (forgotten_purgePeer g pid).versions target session ?_
      rw [forgetPeer, Finmap.lookup_mapValues, Finmap.lookup_erase_ite] at hsession
      rw [purgePeer, Finmap.lookup_mapValues]
      split_ifs at hsession
      · cases hsession
      · exact hsession
  obtain ⟨rows, version, list, bitmap, heq⟩ := g.removePeer_eq myPeerId pid
  rw [heq]
  exact hforget.congr rfl rfl

theorem heard_purgePeers (g : RouteGroupData) (pids : List PeerId) (pid : PeerId) :
    (pids.foldl (fun g pid => g.purgePeer pid) g).Heard nowMs pid ↔ g.Heard nowMs pid := by
  induction pids generalizing g with
  | nil => exact Iff.rfl
  | cons q pids ih =>
    rw [List.foldl_cons, ih, ← any_reachable, ← any_reachable, purgePeer, Finmap.lookup_mapValues,
      Option.any_map]
    rfl

/-! ## The two passes -/

theorem removed_sweepMembers (g : RouteGroupData) (myPeerId : PeerId) (nowMs : UInt64) :
    Removed myPeerId (g.deadDirect nowMs) g (g.sweepMembers myPeerId nowMs) :=
  g.removed_removePeers myPeerId (g.deadDirect nowMs)

/-- The second pass takes what has expired of the peers that the first one left. -/
theorem mem_purge_swept {pid : PeerId} :
    pid ∈ (g.sweepMembers myPeerId nowMs).purge nowMs ↔
      pid ∉ g.deadDirect nowMs ∧ pid ∈ g.purge nowMs := by
  by_cases hdead : pid ∈ g.deadDirect nowMs
  · refine iff_of_false (fun h => ?_) fun h => h.1 hdead
    obtain ⟨info, hinfo, -⟩ := mem_purge.1 h
    rw [(g.removed_sweepMembers myPeerId nowMs).peerInfos, if_pos hdead] at hinfo
    cases hinfo
  · refine ⟨fun h => ⟨hdead, ?_⟩, fun h => mem_purge_sweepMembers h.2 hdead⟩
    obtain ⟨info, hinfo, hexpired⟩ := mem_purge.1 h
    rw [(g.removed_sweepMembers myPeerId nowMs).peerInfos, if_neg hdead] at hinfo
    refine mem_purge.2 ⟨info, hinfo, ?_⟩
    rw [expired, ← (g.removed_sweepMembers myPeerId nowMs).reachable pid nowMs hdead]
    exact hexpired

/-- What is taken: a silent member, or an info that has expired. -/
theorem lookup_sweep (g : RouteGroupData) (myPeerId : PeerId) (nowMs : UInt64) (pid : PeerId) :
    (g.sweep myPeerId nowMs).peerInfos.lookup pid =
      if pid ∈ g.deadDirect nowMs ∨ pid ∈ g.purge nowMs then none else g.peerInfos.lookup pid := by
  rw [sweep, (sweepInfos_eq _ nowMs).2.1, (g.removed_sweepMembers myPeerId nowMs).peerInfos]
  by_cases hdead : pid ∈ g.deadDirect nowMs
  · rw [if_pos hdead, ite_self, if_pos (.inl hdead)]
  · simp only [mem_purge_swept, hdead, not_false_eq_true, true_and, false_or, if_false]

theorem lookup_connRows_sweep (g : RouteGroupData) (nowMs : UInt64) {pid : PeerId}
    (hpid : pid ≠ myPeerId) :
    (g.sweep myPeerId nowMs).connRows.lookup pid =
      if pid ∈ g.deadDirect nowMs ∨ pid ∈ g.purge nowMs then none else g.connRows.lookup pid := by
  rw [sweep, (sweepInfos_eq _ nowMs).2.2.1,
    (g.removed_sweepMembers myPeerId nowMs).connRows pid hpid]
  by_cases hdead : pid ∈ g.deadDirect nowMs
  · rw [if_pos hdead, ite_self, if_pos (.inl hdead)]
  · simp only [mem_purge_swept, hdead, not_false_eq_true, true_and, false_or, if_false]

theorem forgotten_sweep (g : RouteGroupData) (myPeerId : PeerId) (nowMs : UInt64) :
    Forgotten (g.deadDirect nowMs ++ (g.sweepMembers myPeerId nowMs).purge nowMs) g
      (g.sweep myPeerId nowMs) := by
  refine (Forgotten.foldl (fun g pid => g.forgotten_removePeer myPeerId pid) _ g).trans ?_
  change Forgotten _ (g.sweepMembers myPeerId nowMs)
    ((g.sweepMembers myPeerId nowMs).sweepInfos nowMs)
  unfold sweepInfos
  split_ifs with hnone
  · rw [hnone]
    exact .nil _
  · exact (Forgotten.foldl forgotten_purgePeer _ _).congr rfl rfl

/-- A peer that was not removed is as silent as it was. -/
theorem heard_sweep {pid : PeerId} (hpid : pid ∉ g.deadDirect nowMs) :
    (g.sweep myPeerId nowMs).Heard nowMs pid ↔ g.Heard nowMs pid := by
  have hinfos : (g.sweep myPeerId nowMs).Heard nowMs pid ↔
      (g.sweepMembers myPeerId nowMs).Heard nowMs pid := by
    unfold sweep sweepInfos
    split_ifs
    · exact Iff.rfl
    · exact heard_purgePeers _ _ pid
  rw [hinfos, ← any_reachable, ← any_reachable,
    (g.removed_sweepMembers myPeerId nowMs).reachable pid nowMs hpid]

theorem peers_sweep (g : RouteGroupData) (myPeerId : PeerId) (nowMs : UInt64) :
    (g.sweep myPeerId nowMs).peers = g.peers \ (g.deadDirect nowMs).toFinset := by
  rw [sweep, (sweepInfos_eq _ nowMs).1]
  exact (g.removed_sweepMembers myPeerId nowMs).peers

theorem mem_peers_sweep {pid : PeerId} :
    pid ∈ (g.sweep myPeerId nowMs).peers ↔ pid ∈ g.peers ∧ g.Heard nowMs pid := by
  rw [peers_sweep, Finset.mem_sdiff, List.mem_toFinset, mem_deadDirect]
  tauto

theorem lostMember_sweep {pid : PeerId} :
    g.LostMember (g.sweep myPeerId nowMs) pid ↔ pid ∈ g.deadDirect nowMs := by
  rw [LostMember, mem_peers_sweep, mem_deadDirect]
  tauto

theorem lostInfo_sweep {pid : PeerId} :
    g.LostInfo (g.sweep myPeerId nowMs) pid ↔
      pid ∈ g.peerInfos ∧ (pid ∈ g.deadDirect nowMs ∨ pid ∈ g.purge nowMs) := by
  rw [LostInfo, ← Finmap.lookup_isSome, ← Finmap.lookup_isSome, lookup_sweep]
  refine and_congr_right fun hinfo => ?_
  split_ifs with h
  · exact iff_of_true (by simp) h
  · exact iff_of_false (not_not.2 hinfo) h

/-- What is lost is what was due. -/
theorem lost_sweep {pid : PeerId} :
    g.LostMember (g.sweep myPeerId nowMs) pid ∨ g.LostInfo (g.sweep myPeerId nowMs) pid ↔
      pid ∈ g.deadDirect nowMs ∨ pid ∈ g.purge nowMs := by
  rw [lostMember_sweep, lostInfo_sweep]
  constructor
  · rintro (h | h)
    · exact .inl h
    · exact h.2
  · rintro (h | h)
    · exact .inl h
    · obtain ⟨info, hinfo, -⟩ := mem_purge.1 h
      exact .inr ⟨Finmap.mem_of_lookup_eq_some hinfo, .inr h⟩

theorem swept_sweep (g : RouteGroupData) (myPeerId : PeerId) (nowMs : UInt64) :
    Swept myPeerId nowMs g (g.sweep myPeerId nowMs) := by
  have hdue : ∀ {pid}, g.LostMember (g.sweep myPeerId nowMs) pid ∨
      g.LostInfo (g.sweep myPeerId nowMs) pid →
      pid ∈ g.deadDirect nowMs ++ (g.sweepMembers myPeerId nowMs).purge nowMs := by
    intro pid hlost
    rw [List.mem_append, mem_purge_swept]
    have := lost_sweep.1 hlost
    tauto
  refine ⟨fun pid => mem_peers_sweep, fun pid info => ?_, fun pid hlost => ?_,
    fun pid hpid hlost => ?_, fun pid hpid hlost => ?_, fun target session hsession pid hlost => ?_⟩
  · rw [lookup_sweep, lostMember_sweep, ← not_expired]
    split_ifs with h
    · refine iff_of_false (by simp) ?_
      rintro ⟨hinfo, hdead, hkept⟩
      obtain ⟨info', hinfo', hexpired⟩ := mem_purge.1 (h.resolve_left hdead)
      rw [Option.some.inj (hinfo.symm.trans hinfo'), hexpired] at hkept
      cases hkept
    · rw [not_or] at h
      refine (and_iff_left_of_imp fun hinfo => ⟨h.1, ?_⟩).symm
      rw [← Bool.not_eq_true]
      exact fun hexpired => h.2 (mem_purge.2 ⟨info, hinfo, hexpired⟩)
  · exact (g.forgotten_sweep myPeerId nowMs).keys pid (hdue hlost)
  · rw [lookup_connRows_sweep g nowMs hpid, if_pos (lost_sweep.1 hlost)]
  · rw [lookup_connRows_sweep g nowMs hpid, if_neg fun h => hlost (lost_sweep.2 h)]
  · exact ((g.forgotten_sweep myPeerId nowMs).versions target session hsession).1 pid (hdue hlost)

/-- Nothing is due after a sweep. -/
theorem sweep_settled (g : RouteGroupData) (myPeerId : PeerId) (nowMs : UInt64) :
    (g.sweep myPeerId nowMs).deadDirect nowMs = [] ∧ (g.sweep myPeerId nowMs).purge nowMs = [] := by
  constructor
  · refine List.eq_nil_iff_forall_not_mem.2 fun pid hpid => ?_
    obtain ⟨hmem, hsilent⟩ := mem_deadDirect.1 hpid
    obtain ⟨hold, hheard⟩ := mem_peers_sweep.1 hmem
    exact hsilent ((heard_sweep fun hdead => (mem_deadDirect.1 hdead).2 hheard).2 hheard)
  · refine List.eq_nil_iff_forall_not_mem.2 fun pid hpid => ?_
    obtain ⟨info, hinfo, hexpired⟩ := mem_purge.1 hpid
    obtain ⟨hold, hmember, hkept⟩ := ((g.swept_sweep myPeerId nowMs).peerInfos pid info).1 hinfo
    rw [lostMember_sweep] at hmember
    rw [← heard_sweep hmember, ← not_expired, hexpired] at hkept
    cases hkept

theorem sweep_of_settled (hmembers : g.deadDirect nowMs = []) (hinfos : g.purge nowMs = []) :
    g.sweep myPeerId nowMs = g := by
  unfold sweep sweepInfos sweepMembers
  rw [hmembers, List.foldl_nil, if_pos hinfos]

/-- A change is noted when something is lost. -/
theorem sweepChanges_iff : g.sweepChanges myPeerId nowMs = true ↔
    ∃ pid, g.LostMember (g.sweep myPeerId nowMs) pid ∨
      g.LostInfo (g.sweep myPeerId nowMs) pid := by
  have hnonempty : ∀ pids : List PeerId, (!pids.isEmpty) = true ↔ ∃ pid, pid ∈ pids := by
    intro pids
    rw [Bool.not_eq_true', ← Bool.not_eq_true, List.isEmpty_iff, List.eq_nil_iff_forall_not_mem,
      not_forall_not]
  simp only [lost_sweep]
  rw [sweepChanges, Bool.or_eq_true, hnonempty, hnonempty, ← exists_or]
  refine exists_congr fun pid => ?_
  rw [mem_purge_swept]
  tauto

end RouteGroupData

/-! ## All networks -/

/-- The entry of a silent member in the report of a sweep. -/
def deadEntry (network : String) (pid : PeerId) : String := s!"{network}\x1f{pid}"

/-- An entry stands for one member of one network: a number is written without the separator. -/
theorem deadEntry_injective {network network' : String} {pid pid' : PeerId}
    (h : deadEntry network pid = deadEntry network' pid') : network = network' ∧ pid = pid' := by
  have hlist : ∀ (network : String) (pid : PeerId), (deadEntry network pid).toList.reverse =
      (Nat.repr pid.toNat).toList.reverse ++ '\x1f' :: network.toList.reverse := by
    intro network pid
    change (network ++ "\x1f" ++ Nat.repr pid.toNat).toList.reverse = _
    simp
  have hdigits : ∀ pid : PeerId, ∀ c ∈ (Nat.repr pid.toNat).toList.reverse,
      decide (c ≠ '\x1f') = true := by
    intro pid c hc
    rw [List.mem_reverse, Nat.toList_repr] at hc
    refine decide_eq_true fun heq => ?_
    exact absurd (Nat.isDigit_of_mem_toDigits (by decide) (by decide) (heq ▸ hc)) (by decide)
  have htake : ∀ (network : String) (pid : PeerId),
      (deadEntry network pid).toList.reverse.takeWhile (· ≠ '\x1f') =
        (Nat.repr pid.toNat).toList.reverse := by
    intro network pid
    rw [hlist, List.takeWhile_append_of_pos (hdigits pid)]
    simp
  have hrepr : (Nat.repr pid.toNat).toList.reverse = (Nat.repr pid'.toNat).toList.reverse := by
    rw [← htake network pid, h, htake network' pid']
  have hpid : pid = pid' := by
    refine UInt32.toNat_inj.1 (Option.some.inj ?_)
    rw [← Nat.toNat?_repr pid.toNat, ← Nat.toNat?_repr pid'.toNat,
      String.toList_inj.1 (List.reverse_inj.1 hrepr)]
  refine ⟨?_, hpid⟩
  have hall := congrArg (fun s => s.toList.reverse) h
  rw [hlist, hlist, hrepr, List.append_cancel_left_eq, List.cons.injEq, List.reverse_inj] at hall
  exact String.toList_inj.1 hall.2

namespace RouteState

variable {r : RouteState} {nowMs : UInt64} {network : String}

theorem lookup_sweepExpiredRouteInfo (r : RouteState) (nowMs : UInt64) (network : String) :
    (r.sweepExpiredRouteInfo nowMs).groups.lookup network =
      (r.groups.lookup network).map fun g => g.sweep r.myPeerId nowMs :=
  Finmap.lookup_mapValues _ _ _

theorem mem_routeChangedNetworks : network ∈ (r.sweepOutcome nowMs).routeChangedNetworks ↔
    ∃ g, r.groups.lookup network = some g ∧ g.sweepChanges r.myPeerId nowMs = true := by
  rw [sweepOutcome, Finset.mem_ascending, Finset.mem_filter, Option.any_eq_true]
  refine and_iff_right_of_imp ?_
  rintro ⟨g, hg, -⟩
  exact Finmap.mem_keys.2 (Finmap.mem_of_lookup_eq_some hg)

/-- A silent member is reported by its network and id. -/
theorem mem_deadDirectPeers {entry : String} : entry ∈ (r.sweepOutcome nowMs).deadDirectPeers ↔
    ∃ network g pid, r.groups.lookup network = some g ∧ pid ∈ g.deadDirect nowMs ∧
      entry = deadEntry network pid := by
  rw [sweepOutcome, List.mem_flatMap]
  constructor
  · rintro ⟨network, -, h⟩
    cases hg : r.groups.lookup network with
    | none => simp [hg] at h
    | some g =>
      rw [hg] at h
      obtain ⟨pid, hpid, rfl⟩ := List.mem_map.1 h
      exact ⟨network, g, pid, hg, hpid, rfl⟩
  · rintro ⟨network, g, pid, hg, hpid, rfl⟩
    refine ⟨network, ?_, ?_⟩
    · rw [Finset.mem_ascending, Finmap.mem_keys]
      exact Finmap.mem_of_lookup_eq_some hg
    · rw [hg]
      exact List.mem_map_of_mem hpid

theorem nodup_deadDirectPeers (r : RouteState) (nowMs : UInt64) :
    (r.sweepOutcome nowMs).deadDirectPeers.Nodup := by
  rw [sweepOutcome, List.nodup_flatMap]
  constructor
  · rintro network -
    cases r.groups.lookup network with
    | none => exact List.nodup_nil
    | some g =>
      refine List.Nodup.map (fun pid pid' h => ?_) (Finset.nodup_ascending _)
      exact (deadEntry_injective h).2
  · refine (Finset.nodup_ascending r.groups.keys).imp fun {network network'} hne => ?_
    -- Entries of two networks differ.
    intro entry hentry hentry'
    dsimp only at hentry hentry'
    cases hg : r.groups.lookup network with
    | none => simp [hg] at hentry
    | some g =>
      cases hg' : r.groups.lookup network' with
      | none => simp [hg'] at hentry'
      | some g' =>
        rw [hg] at hentry
        rw [hg'] at hentry'
        obtain ⟨pid, -, rfl⟩ := List.mem_map.1 hentry
        obtain ⟨pid', -, heq⟩ := List.mem_map.1 hentry'
        exact hne (deadEntry_injective heq).1.symm

/-- A sweep takes from each network what is due and no more, and reports what it took; a second
    one at the same time changes nothing and reports nothing. -/
theorem sweep_exact (r : RouteState) (nowMs : UInt64) :
    (∀ network, (r.groups.lookup network).isSome =
      ((r.sweepExpiredRouteInfo nowMs).groups.lookup network).isSome) ∧
    (∀ network g g', r.groups.lookup network = some g →
      (r.sweepExpiredRouteInfo nowMs).groups.lookup network = some g' →
      g.Swept r.myPeerId nowMs g' ∧
      (network ∈ (r.sweepOutcome nowMs).routeChangedNetworks ↔
        ∃ pid, g.LostMember g' pid ∨ g.LostInfo g' pid) ∧
      ∀ pid, deadEntry network pid ∈ (r.sweepOutcome nowMs).deadDirectPeers ↔
        g.LostMember g' pid) ∧
    (∀ entry ∈ (r.sweepOutcome nowMs).deadDirectPeers, ∃ network pid,
      network ∈ r.groups ∧ entry = deadEntry network pid) ∧
    (r.sweepOutcome nowMs).deadDirectPeers.Nodup ∧
    (∀ network ∈ (r.sweepOutcome nowMs).routeChangedNetworks, network ∈ r.groups) ∧
    (r.sweepOutcome nowMs).routeChangedNetworks.Nodup ∧
    (r.sweepExpiredRouteInfo nowMs).sweepExpiredRouteInfo nowMs = r.sweepExpiredRouteInfo nowMs ∧
    (r.sweepExpiredRouteInfo nowMs).sweepOutcome nowMs = ⟨[], []⟩ := by
  have hsettled : ∀ network g', (r.sweepExpiredRouteInfo nowMs).groups.lookup network = some g' →
      g'.deadDirect nowMs = [] ∧ g'.purge nowMs = [] := by
    intro network g' hg'
    rw [lookup_sweepExpiredRouteInfo, Option.map_eq_some_iff] at hg'
    obtain ⟨g, -, rfl⟩ := hg'
    exact g.sweep_settled r.myPeerId nowMs
  refine ⟨fun network => ?_, fun network g g' hg hg' => ?_, fun entry hentry => ?_,
    r.nodup_deadDirectPeers nowMs, fun network hnetwork => ?_, Finset.nodup_ascending _, ?_, ?_⟩
  · rw [lookup_sweepExpiredRouteInfo, Option.isSome_map]
  · rw [lookup_sweepExpiredRouteInfo, hg] at hg'
    obtain rfl := Option.some.inj hg'
    refine ⟨g.swept_sweep r.myPeerId nowMs, ?_, fun pid => ?_⟩
    · rw [mem_routeChangedNetworks, hg, ← RouteGroupData.sweepChanges_iff]
      exact ⟨fun ⟨_, heq, h⟩ => Option.some.inj heq ▸ h, fun h => ⟨g, rfl, h⟩⟩
    · rw [mem_deadDirectPeers, RouteGroupData.lostMember_sweep]
      constructor
      · rintro ⟨network', g', pid', hg', hpid', heq⟩
        obtain ⟨rfl, rfl⟩ := deadEntry_injective heq
        rw [Option.some.inj (hg.symm.trans hg')]
        exact hpid'
      · exact fun hpid => ⟨network, g, pid, hg, hpid, rfl⟩
  · obtain ⟨network, g, pid, hg, -, heq⟩ := mem_deadDirectPeers.1 hentry
    exact ⟨network, pid, Finmap.mem_of_lookup_eq_some hg, heq⟩
  · obtain ⟨g, hg, -⟩ := mem_routeChangedNetworks.1 hnetwork
    exact Finmap.mem_of_lookup_eq_some hg
  · have hgroups : ((r.sweepExpiredRouteInfo nowMs).sweepExpiredRouteInfo nowMs).groups =
        (r.sweepExpiredRouteInfo nowMs).groups := by
      refine Finmap.ext_lookup fun network => ?_
      rw [lookup_sweepExpiredRouteInfo]
      cases hg' : (r.sweepExpiredRouteInfo nowMs).groups.lookup network with
      | none => rfl
      | some g' =>
        obtain ⟨hmembers, hinfos⟩ := hsettled network g' hg'
        rw [Option.map_some, RouteGroupData.sweep_of_settled hmembers hinfos]
    exact congrArg (fun groups => { r with groups }) hgroups
  · -- What is reported is due, and nothing is.
    have hdead : ((r.sweepExpiredRouteInfo nowMs).sweepOutcome nowMs).deadDirectPeers = [] := by
      refine List.eq_nil_iff_forall_not_mem.2 fun entry hentry => ?_
      obtain ⟨network, g', pid, hg', hpid, -⟩ := mem_deadDirectPeers.1 hentry
      rw [(hsettled network g' hg').1] at hpid
      cases hpid
    have hchanged :
        ((r.sweepExpiredRouteInfo nowMs).sweepOutcome nowMs).routeChangedNetworks = [] := by
      refine List.eq_nil_iff_forall_not_mem.2 fun network hnetwork => ?_
      obtain ⟨g', hg', hchanges⟩ := mem_routeChangedNetworks.1 hnetwork
      obtain ⟨hmembers, hinfos⟩ := hsettled network g' hg'
      obtain ⟨pid, hlost⟩ := RouteGroupData.sweepChanges_iff.1 hchanges
      rw [RouteGroupData.lost_sweep, hmembers, hinfos] at hlost
      simp at hlost
    exact congrArg₂ SweepOutcome.mk hchanged hdead

namespace SweepSample

open RoutesSample

/-- The report of a peer that gives its row and no info. -/
def bare : SyncRouteInfoRequest := { report 2 1 [row 2 1 [1]] with peerInfos := none }

def before : RouteState := routesAfter [bare] [join 2 0, reporting bare 10]

/-- The row of a silent member goes although no info of it does. -/
theorem row_goes_without_info :
    ∃ g g', before.groups.lookup "net" = some g ∧
      (before.sweepExpiredRouteInfo 1000000).groups.lookup "net" = some g' ∧
      2 ≠ before.myPeerId ∧ ¬ g.LostInfo g' 2 ∧ g'.connRows.lookup 2 ≠ g.connRows.lookup 2 := by
  have hbefore : (before.groups.lookup "net").map
      (fun g => ((g.peerInfos.lookup 2).isSome, (g.connRows.lookup 2).isSome)) =
        some (false, true) := by decide +kernel
  have hafter : ((before.sweepExpiredRouteInfo 1000000).groups.lookup "net").map
      (fun g => (g.connRows.lookup 2).isSome) = some false := by decide +kernel
  obtain ⟨g, hg, hrow⟩ := Option.map_eq_some_iff.1 hbefore
  obtain ⟨g', hg', hgone⟩ := Option.map_eq_some_iff.1 hafter
  rw [Prod.mk.injEq] at hrow
  refine ⟨g, g', hg, hg', by decide +kernel, ?_, fun heq => ?_⟩
  · rintro ⟨hinfo, -⟩
    rw [← Finmap.lookup_isSome, hrow.1] at hinfo
    cases hinfo
  · rw [heq, hrow.2] at hgone
    cases hgone

end SweepSample

end RouteState

end EasyTierEdge
