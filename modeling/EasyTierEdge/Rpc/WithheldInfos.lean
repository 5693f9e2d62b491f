import EasyTierEdge.Rpc.History

/-!
# Infos that are left out of an update

An update leaves out the infos whose versions the peer has acknowledged. What is saved
of a peer's acknowledgements is a version for each info, and an info is judged by it
long after the update: it has to be the same instance still, or a version beyond.

* `VersionsSeen`: the saved versions do not go beyond the stored infos, and one that
  reaches the stored version stands for an update with this very info;
* `withheld_info_acknowledged`: in runs in which no acknowledgement comes too late
  (`StillCurrent`) and no version `1` follows a version `0` (`SkipsFirst`), every info
  that is left out was acknowledged as it is;
* `restarted_peer_withheld`: a peer restarts while an update is on its way. The response
  brings back the version of its last instance, and the new one is left out.
-/

namespace EasyTierEdge

theorem SessionState.saved_of_setDstSessionId {s : SessionState} {sessionId : UInt64} {pid : PeerId}
    {saved : SavedVersion}
    (h : (s.setDstSessionId sessionId).peerInfoVerMap.lookup pid = some saved) :
    s.peerInfoVerMap.lookup pid = some saved := by
  unfold setDstSessionId at h
  split_ifs at h
  · simp at h
  · exact h

namespace RouteGroupData

variable {g g' : RouteGroupData} {myPeerId : PeerId}
  {Seen : PeerId → PeerId → Option Uuid → UInt32 → Prop}

/-- A saved version of the info of `pid` does not go beyond the stored info, and if it
    reaches its version then the info was seen. -/
def VersionSeen (myPeerId : PeerId) (g : RouteGroupData) (seen : Option Uuid → UInt32 → Prop)
    (pid : PeerId) (saved : UInt32) : Prop :=
  ∃ info, g.infoOf myPeerId pid = some info ∧ saved ≤ max info.version 1 ∧
    (max info.version 1 ≤ saved → seen info.instId info.version)

/-- The saved versions of all sessions. -/
def VersionsSeen (myPeerId : PeerId) (Seen : PeerId → PeerId → Option Uuid → UInt32 → Prop)
    (g : RouteGroupData) : Prop :=
  ∀ peerId s pid saved, g.sessions.lookup peerId = some s →
    s.peerInfoVerMap.lookup pid = some saved →
    VersionSeen myPeerId g (Seen peerId pid) pid saved.version

/-- Nothing is saved of `pid`. -/
def NoneSaved (pid : PeerId) (g : RouteGroupData) : Prop :=
  ∀ peerId s, g.sessions.lookup peerId = some s → s.peerInfoVerMap.lookup pid = none

namespace VersionsSeen

/-- Everything that is saved was saved before, of the same infos. -/
theorem of_saved (h : VersionsSeen myPeerId Seen g)
    (hsub : ∀ peerId s' pid saved, g'.sessions.lookup peerId = some s' →
      s'.peerInfoVerMap.lookup pid = some saved →
      g'.infoOf myPeerId pid = g.infoOf myPeerId pid ∧
        ∃ s, g.sessions.lookup peerId = some s ∧ s.peerInfoVerMap.lookup pid = some saved) :
    VersionsSeen myPeerId Seen g' := by
  intro peerId s' pid saved hs' hsaved
  obtain ⟨hinfo, s, hs, hbefore⟩ := hsub peerId s' pid saved hs' hsaved
  unfold VersionSeen
  rw [hinfo]
  exact h peerId s pid saved hs hbefore

/-- One session is updated, and at most loses what it has saved. -/
theorem upsert (h : VersionsSeen myPeerId Seen g) {peerId : PeerId}
    {f : SessionState → SessionState} (hsessions : g'.sessions = g.sessions.upsert peerId f)
    (hinfo : g'.infoOf myPeerId = g.infoOf myPeerId)
    (hf : ∀ s pid saved, (f s).peerInfoVerMap.lookup pid = some saved →
      s.peerInfoVerMap.lookup pid = some saved) : VersionsSeen myPeerId Seen g' := by
  refine h.of_saved fun q s' pid saved hs' hsaved => ⟨congrFun hinfo pid, ?_⟩
  rw [hsessions, Finmap.lookup_upsert] at hs'
  split_ifs at hs' with hq
  · obtain rfl := Option.some.inj hs'
    have hbefore := hf _ pid saved hsaved
    cases hs : g.sessions.lookup q with
    | none =>
      rw [hs] at hbefore
      exact absurd hbefore (by simp [default])
    | some s =>
      rw [hs] at hbefore
      exact ⟨s, rfl, hbefore⟩
  · exact ⟨s', hs', hsaved⟩

theorem addPeer (h : VersionsSeen myPeerId Seen g) (peerId : PeerId) (publicKey : Bytes)
    (nowMs : UInt64) : VersionsSeen myPeerId Seen (g.addPeer myPeerId peerId publicKey nowMs) := by
  obtain ⟨_, _, _, _, _, _, heq⟩ :=
    g.addPeer_eq myPeerId peerId publicKey nowMs
  rw [heq]
  exact h.upsert (f := fun s => { s with lastTouchMs := nowMs }) rfl rfl fun _ _ _ hsaved => hsaved

/-- The sessions forget a peer, and so does the group. -/
theorem forget (h : VersionsSeen myPeerId Seen g) (peerId : PeerId)
    (sessions : FinMap PeerId SessionState)
    (hsessions : g'.sessions = sessions.mapValues (·.forget peerId))
    (hsub : ∀ q s, sessions.lookup q = some s → g.sessions.lookup q = some s)
    (hmine : g'.myInfo = g.myInfo) (hinfos : g'.peerInfos = g.peerInfos.erase peerId) :
    VersionsSeen myPeerId Seen g' := by
  refine h.of_saved fun q s' pid saved hs' hsaved => ?_
  rw [hsessions, Finmap.lookup_mapValues, Option.map_eq_some_iff] at hs'
  obtain ⟨s, hs, rfl⟩ := hs'
  rw [SessionState.forget, Finmap.lookup_erase_ite] at hsaved
  split_ifs at hsaved with hpid
  refine ⟨?_, s, hsub q s hs, hsaved⟩
  rw [infoOf, infoOf, hmine, hinfos, Finmap.lookup_erase_ne hpid]

theorem removePeer (h : VersionsSeen myPeerId Seen g) (peerId : PeerId) :
    VersionsSeen myPeerId Seen (g.removePeer myPeerId peerId) := by
  obtain ⟨_, _, _, _, heq⟩ := g.removePeer_eq myPeerId peerId
  rw [heq]
  refine h.forget peerId (g.sessions.erase peerId) rfl (fun q s hs => ?_) rfl rfl
  rw [Finmap.lookup_erase_ite] at hs
  split_ifs at hs
  exact hs

theorem removePeers (h : VersionsSeen myPeerId Seen g) (pids : List PeerId) :
    VersionsSeen myPeerId Seen (pids.foldl (fun g pid => g.removePeer myPeerId pid) g) := by
  induction pids generalizing g with
  | nil => exact h
  | cons pid pids ih => exact ih (h.removePeer pid)

theorem purgePeers (h : VersionsSeen myPeerId Seen g) (pids : List PeerId) :
    VersionsSeen myPeerId Seen (pids.foldl (fun g pid => g.purgePeer pid) g) := by
  induction pids generalizing g with
  | nil => exact h
  | cons pid pids ih =>
    exact ih (h.forget pid g.sessions rfl (fun _ _ hs => hs) rfl rfl)

theorem sweep (h : VersionsSeen myPeerId Seen g) (nowMs : UInt64) :
    VersionsSeen myPeerId Seen (g.sweep myPeerId nowMs) := by
  have hmembers : VersionsSeen myPeerId Seen (g.sweepMembers myPeerId nowMs) := h.removePeers _
  unfold RouteGroupData.sweep sweepInfos
  split_ifs
  · exact hmembers
  · exact hmembers.purgePeers _

theorem openSession (h : VersionsSeen myPeerId Seen g) (peerId : PeerId) (sessionId : UInt64) :
    VersionsSeen myPeerId Seen (g.openSession peerId sessionId) :=
  h.upsert (f := fun s => { s with mySessionId := some sessionId }) rfl rfl fun _ _ _ hsaved => hsaved

theorem cachedFor (h : VersionsSeen myPeerId Seen g) (peerId : PeerId) (nowMs : UInt64) :
    VersionsSeen myPeerId Seen (g.cachedFor myPeerId peerId nowMs) := by
  obtain ⟨list, bitmap, heq⟩ := g.cachedFor_eq myPeerId peerId nowMs
  rw [heq]
  exact h

theorem touchSession (h : VersionsSeen myPeerId Seen g) (fromPeerId : PeerId)
    (request : SyncRouteInfoRequest) (nowMs : UInt64) :
    VersionsSeen myPeerId Seen (g.touchSession fromPeerId request nowMs) := by
  refine h.upsert (f := fun s =>
    { { s with lastTouchMs := nowMs }.setDstSessionId request.mySessionId with
      weAreInitiator := !request.isInitiator }) rfl rfl fun s pid saved hsaved => ?_
  exact SessionState.saved_of_setDstSessionId (s := { s with lastTouchMs := nowMs }) hsaved

end VersionsSeen

/-! ## New infos -/

/-- The info is of another instance, and everything saved of the last one is erased. -/
theorem noneSaved_putInfo {info : RoutePeerInfo} (hinst : g.instanceChanged info = true)
    (nowMs : UInt64) : NoneSaved info.peerId (g.putInfo info nowMs) := by
  intro peerId s' hs'
  simp only [putInfo, hinst, if_true, Finmap.lookup_mapValues, Option.map_eq_some_iff] at hs'
  obtain ⟨s, -, rfl⟩ := hs'
  exact Finmap.lookup_erase _ _

/-- Everything saved after an info is stored was saved before. -/
theorem saved_putInfo {info : RoutePeerInfo} {nowMs : UInt64} {peerId pid : PeerId}
    {s' : SessionState} {saved : SavedVersion}
    (hs' : (g.putInfo info nowMs).sessions.lookup peerId = some s')
    (hsaved : s'.peerInfoVerMap.lookup pid = some saved) :
    ∃ s, g.sessions.lookup peerId = some s ∧ s.peerInfoVerMap.lookup pid = some saved := by
  unfold putInfo at hs'
  by_cases hinst : g.instanceChanged info = true
  · simp only [hinst, if_true, Finmap.lookup_mapValues, Option.map_eq_some_iff] at hs'
    obtain ⟨s, hs, rfl⟩ := hs'
    rw [Finmap.lookup_erase_ite] at hsaved
    split_ifs at hsaved
    exact ⟨s, hs, hsaved⟩
  · simp only [hinst, Bool.false_eq_true, if_false] at hs'
    exact ⟨s', hs', hsaved⟩

theorem infoOf_putInfo (info : RoutePeerInfo) (nowMs : UInt64) (pid : PeerId) :
    (g.putInfo info nowMs).infoOf myPeerId pid =
      if pid = myPeerId ∨ pid ≠ info.peerId then g.infoOf myPeerId pid
      else some
        { info with lastUpdate := some { seconds := (nowMs / 1000).toInt64, nanos := 0 } } := by
  unfold infoOf putInfo
  by_cases hmine : pid = myPeerId
  · simp [hmine]
  · simp only [hmine, if_false, false_or]
    rw [Finmap.lookup_insert_ite]
    by_cases hpid : pid = info.peerId
    · rw [if_pos hpid, if_neg (not_not.2 hpid)]
    · rw [if_neg hpid, if_pos hpid]

/-- Storing an info: nothing is saved of its peer, it is the relay's, or its version is
    beyond the one of the stored info, and not by the step from `0` to `1`. -/
theorem VersionsSeen.putInfo (h : VersionsSeen myPeerId Seen g) {info : RoutePeerInfo}
    (nowMs : UInt64)
    (hbeyond : info.peerId = myPeerId ∨ NoneSaved info.peerId (g.putInfo info nowMs) ∨
      ∃ s, g.peerInfos.lookup info.peerId = some s ∧ max s.version 1 < max info.version 1) :
    VersionsSeen myPeerId Seen (g.putInfo info nowMs) := by
  intro peerId s' pid saved hs' hsaved
  obtain ⟨s, hs, hbefore⟩ := saved_putInfo hs' hsaved
  have hseen := h peerId s pid saved hs hbefore
  unfold VersionSeen
  rw [infoOf_putInfo]
  split_ifs with hpid
  · exact hseen
  obtain ⟨hmine, hpid⟩ := not_or.1 hpid
  rw [not_not] at hpid
  subst hpid
  rcases hbeyond with hrelay | hnone | ⟨stored, hstored, hlt⟩
  · exact absurd hrelay hmine
  · rw [hnone peerId s' hs'] at hsaved
    cases hsaved
  · obtain ⟨info', hinfo', hle, -⟩ := hseen
    rw [infoOf, if_neg hmine, hstored] at hinfo'
    obtain rfl := Option.some.inj hinfo'
    have hsaved : saved.version < max info.version 1 := lt_of_le_of_lt hle hlt
    exact ⟨_, rfl, hsaved.le, fun hge => absurd (lt_of_lt_of_le hsaved hge) (lt_irrefl _)⟩

theorem NoneSaved.putInfo {pid : PeerId} (h : NoneSaved pid g) (info : RoutePeerInfo)
    (nowMs : UInt64) : NoneSaved pid (g.putInfo info nowMs) := by
  intro peerId s' hs'
  cases hsaved : s'.peerInfoVerMap.lookup pid with
  | none => rfl
  | some saved =>
    obtain ⟨s, hs, hbefore⟩ := saved_putInfo hs' hsaved
    rw [h peerId s hs] at hbefore
    cases hbefore

/-- Nothing is saved of a peer without an info. -/
theorem VersionsSeen.noneSaved (h : VersionsSeen myPeerId Seen g) {pid : PeerId}
    (hmine : pid ≠ myPeerId) (hinfo : g.peerInfos.lookup pid = none) : NoneSaved pid g := by
  intro peerId s hs
  cases hsaved : s.peerInfoVerMap.lookup pid with
  | none => rfl
  | some saved =>
    obtain ⟨info, hsome, -⟩ := h peerId s pid saved hs hsaved
    rw [infoOf, if_neg hmine, hinfo] at hsome
    cases hsome

/-- A larger version is still larger when `0` counts as `1`, but for `0` and `1`. -/
theorem max_one_lt {a b : UInt32} (h : a < b) (h0 : a = 0 → b ≠ 1) : max a 1 < max b 1 := by
  have hb : 1 < b := by
    rw [UInt32.lt_iff_toNat_lt] at h ⊢
    have h0' : a.toNat = 0 → b.toNat ≠ 1 := fun ha hb =>
      h0 (UInt32.toNat.inj ha) (UInt32.toNat.inj hb)
    rw [UInt32.toNat_one]
    omega
  exact lt_of_lt_of_le (max_lt h hb) (le_max_left b 1)

/-- A request does not bring the version `1` of an instance whose version `0` is stored. -/
def SkipsFirst (g : RouteGroupData) (fromPeerId : PeerId) (request : SyncRouteInfoRequest) : Prop :=
  ∀ s ∈ g.peerInfos.lookup fromPeerId, s.version = 0 →
    ∀ info ∈ request.peerInfos.getD [], info.peerId = fromPeerId → info.instId = s.instId →
      info.version ≠ 1

/-- What storing the infos of `fromPeerId` keeps: as long as something is saved of it, the
    stored info is the first one or has a version of its own. -/
structure StoresSeen (myPeerId : PeerId) (Seen : PeerId → PeerId → Option Uuid → UInt32 → Prop)
    (g : RouteGroupData) (fromPeerId : PeerId) (g' : RouteGroupData) : Prop where
  seen : VersionsSeen myPeerId Seen g'
  stored : fromPeerId ≠ myPeerId → NoneSaved fromPeerId g' ∨
    g'.peerInfos.lookup fromPeerId = g.peerInfos.lookup fromPeerId ∨
    ∃ s, g'.peerInfos.lookup fromPeerId = some s ∧ s.version ≠ 0

theorem StoresSeen.storeInfo {fromPeerId : PeerId} {acc : Stored} {request : SyncRouteInfoRequest}
    (h : StoresSeen myPeerId Seen g fromPeerId acc.group) (hskips : g.SkipsFirst fromPeerId request)
    (nowMs : UInt64) {info : RoutePeerInfo} (hinfo : info ∈ request.peerInfos.getD []) :
    StoresSeen myPeerId Seen g fromPeerId (storeInfo fromPeerId nowMs acc info).group := by
  unfold RouteGroupData.storeInfo
  dsimp only
  have hbound : StoresSeen myPeerId Seen g fromPeerId (acc.group.bindKey fromPeerId info) :=
    ⟨h.seen, h.stored⟩
  generalize acc.group.bindKey fromPeerId info = g₁ at hbound
  split_ifs with hfrom hupdate
  · exact h
  · exact hbound
  rw [not_not] at hfrom
  subst hfrom
  rw [Bool.not_eq_true, Bool.not_eq_false'] at hupdate
  by_cases hinst : g₁.instanceChanged info = true
  · have hnone := noneSaved_putInfo hinst nowMs
    exact ⟨hbound.seen.putInfo nowMs (.inr (.inl hnone)), fun _ => .inl hnone⟩
  by_cases hmine : info.peerId = myPeerId
  · exact ⟨hbound.seen.putInfo nowMs (.inl hmine), fun hne => absurd hmine hne⟩
  rw [shouldUpdate, Bool.or_eq_true, or_iff_right hinst] at hupdate
  cases hstored : g₁.peerInfos.lookup info.peerId with
  | none =>
    have hnone := (hbound.seen.noneSaved hmine hstored).putInfo info nowMs
    exact ⟨hbound.seen.putInfo nowMs (.inr (.inl hnone)), fun _ => .inl hnone⟩
  | some s =>
    rw [hstored, Option.all_some, decide_eq_true_eq] at hupdate
    have hsame : s.instId = info.instId := by
      simpa [instanceChanged, hstored] using hinst
    have hlookup : (g₁.putInfo info nowMs).peerInfos.lookup info.peerId = some
        { info with lastUpdate := some { seconds := (nowMs / 1000).toInt64, nanos := 0 } } :=
      Finmap.lookup_insert _
    refine ⟨hbound.seen.putInfo nowMs (.inr ?_), fun _ => .inr (.inr ⟨_, hlookup, ?_⟩)⟩
    · rcases hbound.stored hmine with hnone | hfirst | ⟨s', hs', hs'0⟩
      · exact .inl (hnone.putInfo info nowMs)
      · refine .inr ⟨s, hstored, max_one_lt hupdate fun h0 => ?_⟩
        exact hskips s (hfirst.symm.trans hstored) h0 info hinfo rfl hsame.symm
      · obtain rfl := Option.some.inj (hstored.symm.trans hs')
        exact .inr ⟨s, hstored, max_one_lt hupdate fun h0 => absurd h0 hs'0⟩
    · exact (lt_of_le_of_lt UInt32.zero_le hupdate).ne'

theorem StoresSeen.storeInfos {fromPeerId : PeerId} (acc : Stored) {request : SyncRouteInfoRequest}
    (h : StoresSeen myPeerId Seen g fromPeerId acc.group) (hskips : g.SkipsFirst fromPeerId request)
    (nowMs : UInt64) {infos : List RoutePeerInfo} (hinfos : infos ⊆ request.peerInfos.getD []) :
    StoresSeen myPeerId Seen g fromPeerId
      (infos.foldl (RouteGroupData.storeInfo fromPeerId nowMs) acc).group := by
  induction infos generalizing acc with
  | nil => exact h
  | cons info infos ih =>
    rw [List.cons_subset] at hinfos
    exact ih _ (h.storeInfo hskips nowMs hinfos.1) hinfos.2

theorem VersionsSeen.syncRouteInfo (h : VersionsSeen myPeerId Seen g) (prost : Prost)
    {fromPeerId : PeerId} {request : SyncRouteInfoRequest} (hskips : g.SkipsFirst fromPeerId request)
    (nowMs : UInt64) :
    VersionsSeen myPeerId Seen (g.syncRouteInfo myPeerId prost fromPeerId request nowMs).2 := by
  obtain ⟨stored, acc, -, hrows, hstored, heq⟩ :=
    g.syncRouteInfo_eq myPeerId prost fromPeerId request nowMs
  have htouch : StoresSeen myPeerId Seen g fromPeerId (g.touchSession fromPeerId request nowMs) :=
    ⟨h.touchSession fromPeerId request nowMs, fun _ => .inr (.inl rfl)⟩
  have hgroup : VersionsSeen myPeerId Seen stored.group := by
    rw [hstored]
    exact (StoresSeen.storeInfos ⟨_, false, false⟩ htouch hskips nowMs
      (List.Subset.refl _)).seen
  have hacc : VersionsSeen myPeerId Seen acc.1 := by
    rw [← hrows.group] at hgroup
    exact hgroup
  rw [heq]
  split_ifs
  · exact hacc
  · exact hacc

/-! ## Acknowledgements -/

/-- An info that was sent is still the stored one, or it is older. -/
def StillCurrent (myPeerId : PeerId) (g : RouteGroupData) (item : PeerId × RoutePeerInfo) : Prop :=
  ∃ info ∈ g.infoOf myPeerId item.1,
    info.instId = item.2.instId ∧ info.version = item.2.version ∨
      max item.2.version 1 < max info.version 1

instance (g : RouteGroupData) (item : PeerId × RoutePeerInfo) :
    Decidable (g.StillCurrent myPeerId item) :=
  match h : g.infoOf myPeerId item.1 with
  | none => isFalse (by simp [StillCurrent, h])
  | some info =>
    decidable_of_iff (info.instId = item.2.instId ∧ info.version = item.2.version ∨
      max item.2.version 1 < max info.version 1) (by simp [StillCurrent, h])

/-- Saving the version of an info that was seen and is current. -/
theorem versionSeen_save {seen : Option Uuid → UInt32 → Prop} {item : PeerId × RoutePeerInfo}
    (hcurrent : g.StillCurrent myPeerId item) (hseen : seen item.2.instId item.2.version)
    {saved : Option SavedVersion}
    (h : ∀ v ∈ saved, VersionSeen myPeerId g seen item.1 v.version) :
    VersionSeen myPeerId g seen item.1
      (saved.elim (max item.2.version 1) fun v => max v.version (max item.2.version 1)) := by
  obtain ⟨info, hinfo, hcurrent⟩ := hcurrent
  have hsaved : ∀ v ∈ saved, v.version ≤ max info.version 1 ∧
      (max info.version 1 ≤ v.version → seen info.instId info.version) := by
    intro v hv
    obtain ⟨info', hinfo', hle, hreach⟩ := h v hv
    obtain rfl := Option.some.inj (Eq.symm hinfo |>.trans hinfo')
    exact ⟨hle, hreach⟩
  refine ⟨info, hinfo, ?_⟩
  rcases hcurrent with ⟨hinst, hversion⟩ | hlt
  · rw [← hinst, ← hversion] at hseen
    rw [← hversion]
    refine ⟨?_, fun _ => hseen⟩
    cases saved with
    | none => exact le_rfl
    | some v => exact max_le (hsaved v rfl).1 le_rfl
  · cases saved with
    | none => exact ⟨hlt.le, fun hle => absurd (lt_of_lt_of_le hlt hle) (lt_irrefl _)⟩
    | some v =>
      refine ⟨max_le (hsaved v rfl).1 hlt.le, fun hle => ?_⟩
      rcases le_max_iff.1 hle with hle | hle
      · exact (hsaved v rfl).2 hle
      · exact absurd (lt_of_lt_of_le hlt hle) (lt_irrefl _)

/-- What a session has saved of the infos of a group. -/
def SessionSeen (myPeerId : PeerId) (g : RouteGroupData)
    (seen : PeerId → Option Uuid → UInt32 → Prop) (s : SessionState) : Prop :=
  ∀ pid saved, s.peerInfoVerMap.lookup pid = some saved →
    VersionSeen myPeerId g (seen pid) pid saved.version

theorem SessionSeen.saveVersions {seen : PeerId → Option Uuid → UInt32 → Prop} {s : SessionState}
    (h : SessionSeen myPeerId g seen s) (nowMs : UInt64) {items : List (PeerId × RoutePeerInfo)}
    (hitems : ∀ item ∈ items, g.StillCurrent myPeerId item ∧
      seen item.1 item.2.instId item.2.version) :
    SessionSeen myPeerId g seen
      ((items.map fun (pid, info) => (pid, max info.version 1)).foldl (·.saveVersion nowMs ·) s) := by
  induction items generalizing s with
  | nil => exact h
  | cons item items ih =>
    rw [List.forall_mem_cons] at hitems
    refine ih (s := s.saveVersion nowMs (item.1, max item.2.version 1)) ?_ hitems.2
    intro pid saved hsaved
    rw [SessionState.saveVersion, Finmap.lookup_insert_ite] at hsaved
    split_ifs at hsaved with hpid
    · obtain rfl := hpid
      obtain rfl := Option.some.inj hsaved
      have hsave := versionSeen_save hitems.1.1 hitems.1.2 (h item.1)
      cases hlookup : s.peerInfoVerMap.lookup item.1 with
      | none => simpa only [hlookup, Option.elim_none] using hsave
      | some saved => simpa only [hlookup, Option.elim_some] using hsave
    · exact h pid saved hsaved

/-- A response that accepts an update, whose infos were all seen and are current. -/
theorem VersionsSeen.commit (h : VersionsSeen myPeerId Seen g) {peerId : PeerId} (sessionId : UInt64)
    (weAreInitiator : Bool) {items : List (PeerId × RoutePeerInfo)}
    (hitems : ∀ item ∈ items, g.StillCurrent myPeerId item ∧
      Seen peerId item.1 item.2.instId item.2.version)
    (topologyVersion : Option UInt64) (nowMs : UInt64) :
    VersionsSeen myPeerId Seen
      ((g.onRouteSessionAck peerId sessionId weAreInitiator nowMs).commitRouteUpdate peerId
        (items.map fun (pid, info) => (pid, max info.version 1)) topologyVersion nowMs) := by
  intro q s' pid saved hs' hsaved
  change VersionSeen myPeerId g (Seen q pid) pid saved.version
  rw [lookup_commitRouteUpdate] at hs'
  split_ifs at hs' with hq
  · obtain rfl := hq
    obtain rfl := Option.some.inj hs'
    have hack : SessionSeen myPeerId g (Seen q)
        (((g.sessions.lookup q).getD default).acknowledge sessionId weAreInitiator nowMs) := by
      intro pid saved hsaved
      have hbefore := SessionState.saved_of_setDstSessionId hsaved
      cases hs : g.sessions.lookup q with
      | none =>
        rw [hs] at hbefore
        exact absurd hbefore (by simp [default])
      | some s =>
        rw [hs] at hbefore
        exact h q s pid saved hs hbefore
    have hcommit := hack.saveVersions nowMs hitems
    refine hcommit pid saved ?_
    unfold SessionState.commit SessionState.saveTopology at hsaved
    cases topologyVersion with
    | none => exact hsaved
    | some version => exact hsaved
  · exact h q s' pid saved hs' hsaved

/-- Configuring the group: the relay's own info gets a version beyond the first one. -/
theorem VersionsSeen.configureGroup (h : VersionsSeen myPeerId Seen g) (core : WasmRpcCore)
    (hversion : g.myInfo.version = 1) (hcounter : g.myInfoVersion = 1) :
    VersionsSeen myPeerId Seen (core.configureGroup g) := by
  obtain ⟨info, version, heq, hnew⟩ := core.configureGroup_eq g
  rw [heq]
  intro peerId s pid saved hs hsaved
  obtain ⟨stored, hstored, hle, hreach⟩ := h peerId s pid saved hs hsaved
  by_cases hmine : pid = myPeerId
  · rw [infoOf, if_pos hmine] at hstored
    obtain rfl := Option.some.inj hstored
    refine ⟨info, if_pos hmine, ?_⟩
    have hbeyond : max (1 : UInt32) 1 < max info.version 1 := by
      rw [hcounter] at hnew
      rcases hnew with hnew | hnew
      · rw [hnew]
        decide
      · rw [hnew]
        decide
    rw [hversion] at hle
    have hlt := lt_of_le_of_lt hle hbeyond
    exact ⟨hlt.le, fun hge => absurd (lt_of_lt_of_le hlt hge) (lt_irrefl _)⟩
  · refine ⟨stored, ?_, hle, hreach⟩
    rw [infoOf, if_neg hmine] at hstored ⊢
    exact hstored

end RouteGroupData

/-! ## Runs -/

section Runs

open RouteGroupData

/-- An info of this instance and version was in an update for `peerId` that was
    acknowledged. -/
def InfoAcked (crates : RpcCrates) (network : String) (tr : List CoreEvent)
    (peerId pid : PeerId) (instId : Option Uuid) (version : UInt32) : Prop :=
  ∃ u after, Acknowledged crates tr u after ∧ u.key.network = network ∧ u.key.peerId = peerId ∧
    ∃ info, (pid, info) ∈ u.items ∧ info.instId = instId ∧ info.version = version

/-- The saved versions stay true: when a response is accepted the infos of its update are
    still current, and no request brings a version `1` after a version `0`. -/
def SavesTrue (crates : RpcCrates) (network : String) (before : List CoreEvent) (e : CoreEvent) :
    Prop :=
  match e.input with
  | .handleResponse n _ _ _ draws => n = network → ∀ u ∈ acknowledged crates before e,
    ∀ item ∈ u.items, (e.pre.routes.ensureGroup network draws).StillCurrent e.pre.routes.myPeerId item
  | .handleRequest n peerId payload nowMs _ draws => n = network →
    ∀ request ∈ e.pre.syncRequest crates network peerId payload nowMs,
      (e.pre.routes.ensureGroup network draws).SkipsFirst peerId request
  | _ => True

instance (g : RouteGroupData) (fromPeerId : PeerId) (request : SyncRouteInfoRequest) :
    Decidable (g.SkipsFirst fromPeerId request) := by
  unfold SkipsFirst
  infer_instance

instance (crates : RpcCrates) (network : String) (before : List CoreEvent) :
    ∀ e, Decidable (SavesTrue crates network before e)
  | ⟨pre, .handleResponse n peerId payload nowMs draws, out⟩ =>
    inferInstanceAs (Decidable (n = network → ∀ u ∈ acknowledged crates before
      ⟨pre, .handleResponse n peerId payload nowMs draws, out⟩, ∀ item ∈ u.items,
        (pre.routes.ensureGroup network draws).StillCurrent pre.routes.myPeerId item))
  | ⟨pre, .handleRequest n peerId payload nowMs _ draws, _⟩ =>
    inferInstanceAs (Decidable (n = network →
      ∀ request ∈ pre.syncRequest crates network peerId payload nowMs,
        (pre.routes.ensureGroup network draws).SkipsFirst peerId request))
  | ⟨_, .addPeer .., _⟩ | ⟨_, .removePeer .., _⟩ | ⟨_, .buildRouteUpdate .., _⟩
  | ⟨_, .cleanExpired .., _⟩ => isTrue trivial

variable {crates : RpcCrates} {config : CoreConfig} {network : String} {tr : List CoreEvent}
  {core : WasmRpcCore}

/-- What holds of the saved versions of a network after a run. A group that is not
    configured has the relay's first info. -/
structure InfosSeen (crates : RpcCrates) (network : String) (tr : List CoreEvent)
    (core : WasmRpcCore) : Prop where
  seen : ∀ g, core.routes.groups.lookup network = some g →
    VersionsSeen core.routes.myPeerId (InfoAcked crates network tr) g
  first : network ∉ core.configuredGroups → ∀ g, core.routes.groups.lookup network = some g →
    g.myInfo.version = 1 ∧ g.myInfoVersion = 1

theorem InfosSeen.ensureGroup (h : InfosSeen crates network tr core) (draws : GroupDraws) :
    VersionsSeen core.routes.myPeerId (InfoAcked crates network tr)
        (core.routes.ensureGroup network draws) ∧
      (network ∉ core.configuredGroups →
        (core.routes.ensureGroup network draws).myInfo.version = 1 ∧
          (core.routes.ensureGroup network draws).myInfoVersion = 1) := by
  cases hg : core.routes.groups.lookup network with
  | some g =>
    rw [RouteState.ensureGroup_of_lookup hg]
    exact ⟨h.seen g hg, fun hconf => h.first hconf g hg⟩
  | none =>
    rw [RouteState.ensureGroup, hg]
    refine ⟨fun peerId s pid saved hs => ?_, fun _ => ⟨rfl, rfl⟩⟩
    simp [RouteGroupData.new] at hs

theorem InfoAcked.snoc {peerId pid : PeerId} {instId : Option Uuid} {version : UInt32}
    (h : InfoAcked crates network tr peerId pid instId version) (e : CoreEvent) :
    InfoAcked crates network (tr ++ [e]) peerId pid instId version := by
  obtain ⟨u, after, hack, hnet, hpeer, hitem⟩ := h
  exact ⟨u, after ++ [e], hack.snoc e, hnet, hpeer, hitem⟩

theorem RouteGroupData.VersionsSeen.snoc {myPeerId : PeerId} {g : RouteGroupData}
    (h : VersionsSeen myPeerId (InfoAcked crates network tr) g) (e : CoreEvent) :
    VersionsSeen myPeerId (InfoAcked crates network (tr ++ [e])) g := by
  intro peerId s pid saved hs hsaved
  obtain ⟨info, hinfo, hle, hreach⟩ := h peerId s pid saved hs hsaved
  exact ⟨info, hinfo, hle, fun hge => (hreach hge).snoc e⟩

/-- The group that a call leaves, with the same info of the relay. -/
theorem InfosSeen.of_lookup {core' : WasmRpcCore} {e : CoreEvent} {g' : RouteGroupData}
    (h : InfosSeen crates network tr core) (draws : GroupDraws)
    (hg' : core'.routes.groups.lookup network = some g')
    (hmine : core'.routes.myPeerId = core.routes.myPeerId)
    (hconf : network ∈ core'.configuredGroups ↔ network ∈ core.configuredGroups)
    (hinfo : g'.myInfo = (core.routes.ensureGroup network draws).myInfo ∧
      g'.myInfoVersion = (core.routes.ensureGroup network draws).myInfoVersion)
    (hseen : VersionsSeen core.routes.myPeerId (InfoAcked crates network (tr ++ [e])) g') :
    InfosSeen crates network (tr ++ [e]) core' := by
  refine ⟨fun g hg => ?_, fun hnot g hg => ?_⟩
  · obtain rfl := Option.some.inj (hg'.symm.trans hg)
    rw [hmine]
    exact hseen
  · obtain rfl := Option.some.inj (hg'.symm.trans hg)
    rw [hinfo.1, hinfo.2]
    exact (h.ensureGroup draws).2 (fun hmem => hnot (hconf.2 hmem))

theorem InfosSeen.step (h : InfosSeen crates network tr core) (hsent : OutstandingSent tr core)
    {op : CoreOp} (hsafe : SavesTrue crates network tr ((rpcCore crates config).event core op)) :
    InfosSeen crates network (tr ++ [(rpcCore crates config).event core op])
      (core.step crates op).1 := by
  have heff := core_cases crates core network op
  generalize (core.step crates op).1 = core' at heff ⊢
  cases heff with
  | kept hframe hgroup =>
    refine ⟨fun g hg => ?_, fun hnot g hg => ?_⟩
    · rw [hframe.myPeerId]
      exact (h.seen g (hgroup ▸ hg)).snoc _
    · exact h.first (fun hmem => hnot (hframe.configured.2 hmem)) g (hgroup ▸ hg)
  | @added peerId publicKey nowMs draws _ hmine hconf _ hgroup =>
    obtain ⟨hseen, hfirst⟩ := h.ensureGroup draws
    have hadded := hseen.addPeer peerId publicKey nowMs
    refine ⟨fun g hg => ?_, fun hnot => absurd hconf hnot⟩
    obtain rfl := Option.some.inj (hgroup.symm.trans hg)
    rw [hmine]
    refine VersionsSeen.snoc ?_ _
    dsimp only
    split_ifs with hbefore
    · exact hadded
    · obtain ⟨_, _, _, _, _, _, heq⟩ := (core.routes.ensureGroup network draws).addPeer_eq
        core.routes.myPeerId peerId publicKey nowMs
      refine hadded.configureGroup core ?_ ?_
      · rw [heq]
        exact (hfirst hbefore).1
      · rw [heq]
        exact (hfirst hbefore).2
  | @removed peerId draws _ hframe hgroup =>
    obtain ⟨_, _, _, _, heq⟩ := (core.routes.ensureGroup network draws).removePeer_eq
      core.routes.myPeerId peerId
    refine h.of_lookup draws hgroup hframe.myPeerId hframe.configured ?_
      (((h.ensureGroup draws).1.removePeer peerId).snoc _)
    rw [heq]
    exact ⟨rfl, rfl⟩
  | @synced peerId payload nowMs clockMs draws request _ hframe hsync hgroup =>
    have hskips := hsafe rfl request hsync
    obtain ⟨stored, acc, hstored, hrows, -, heq⟩ := (core.routes.ensureGroup network
      draws).syncRouteInfo_eq core.routes.myPeerId crates.prost peerId request nowMs
    refine h.of_lookup draws hgroup hframe.myPeerId hframe.configured ?_
      (((h.ensureGroup draws).1.syncRouteInfo crates.prost hskips nowMs).snoc _)
    have hmine := hstored.mine
    rw [← hrows.group] at hmine
    rw [heq]
    split_ifs
    · exact hmine
    · exact hmine
  | @committed peerId payload nowMs draws key o sessionId weAreInitiator _ hframe haccept hnet hpeer
      hout hgroup =>
    obtain ⟨u, hack, rfl, hrecorded⟩ := hsent.acknowledged config draws haccept hout
    refine h.of_lookup draws hgroup hframe.myPeerId hframe.configured ⟨rfl, rfl⟩ ?_
    rw [hrecorded.peerInfoVersions]
    refine ((h.ensureGroup draws).1.snoc _).commit sessionId weAreInitiator (fun item hitem => ?_) _ _
    exact ⟨hsafe rfl u hack item hitem, u, [], .last hack, hnet, hpeer, item.2, hitem, rfl, rfl⟩
  | @built peerId sessionId forceFull nowMs draws ids _ hmine hconf _ hgroup =>
    obtain ⟨list, bitmap, heq⟩ := (core.updateGroup network peerId sessionId draws).cachedFor_eq
      core.routes.myPeerId peerId nowMs
    refine h.of_lookup draws hgroup hmine hconf ?_
      ((((h.ensureGroup draws).1.openSession peerId sessionId).cachedFor peerId nowMs).snoc _)
    rw [heq]
    exact ⟨rfl, rfl⟩
  | @swept nowMs clockMs g _ hframe hg hgroup =>
    refine h.of_lookup ⟨⟨0, 0, 0, 0⟩, 0⟩ hgroup hframe.myPeerId hframe.configured ?_
      (((h.seen g hg).sweep nowMs).snoc _)
    rw [RouteState.ensureGroup_of_lookup hg]
    exact g.myInfo_sweep nowMs

/-- What holds after every run in which the saved versions stay true. -/
theorem infos_seen (ops : List CoreOp)
    (hsafe : Along (SavesTrue crates network)
      ((rpcCore crates config).history (rpcCore crates config).init ops)) :
    InfosSeen crates network ((rpcCore crates config).history (rpcCore crates config).init ops)
      ((rpcCore crates config).run (rpcCore crates config).init ops) := by
  refine (Machine.history_invariant (m := rpcCore crates config) (P := fun tr core =>
    OutstandingSent tr core ∧ InfosSeen crates network tr core) ⟨outstanding_sent [], ?_, ?_⟩ ?_ ops
    hsafe).2
  · intro g hg
    simp [rpcCore, WasmRpcCore.new] at hg
  · intro _ g hg
    simp [rpcCore, WasmRpcCore.new] at hg
  · rintro tr core op ⟨hsent, hseen⟩ hop
    exact ⟨hsent.step op, hseen.step hsent hop⟩

/-- An info that is left out of an update has a version that was saved. -/
theorem savedVersion_of_withheld {g : RouteGroupData} {myPeerId peerId pid : PeerId} {nowMs : UInt64}
    {info : RoutePeerInfo} (hpid : pid ≠ peerId) (hinfo : g.infoOf myPeerId pid = some info)
    (hout : (pid, info) ∉ g.typedItems myPeerId peerId false nowMs) :
    ∃ s, g.sessions.lookup peerId = some s ∧ ∃ saved, s.peerInfoVerMap.lookup pid = some saved ∧
      max info.version 1 ≤ saved.version := by
  have hknown : pid ∈ g.relevantPeers myPeerId peerId := by
    rw [relevantPeers, Finset.mem_ascending]
    by_cases hmine : pid = myPeerId
    · exact Finset.mem_insert_of_mem (hmine ▸ Finset.mem_insert_self _ _)
    · rw [infoOf, if_neg hmine] at hinfo
      refine Finset.mem_insert_of_mem (Finset.mem_insert_of_mem ?_)
      refine Finset.mem_union_left _ (Finset.mem_union_right _ ?_)
      exact Finmap.mem_keys.2 (Finmap.mem_of_lookup_eq_some hinfo)
  have hprev : max info.version 1 ≤ g.prevVersion peerId pid false nowMs ∧
      g.forceFullLocal peerId false = false := by
    by_contra hnot
    refine hout (List.mem_filterMap.2 ⟨pid, hknown, ?_⟩)
    rw [if_neg hpid, hinfo]
    refine if_pos ?_
    rw [Bool.or_eq_true, decide_eq_true_eq]
    by_contra hcond
    rw [not_or, Bool.not_eq_true, not_lt] at hcond
    exact hnot ⟨hcond.2, hcond.1⟩
  obtain ⟨hprev, hforce⟩ := hprev
  rw [prevVersion, hforce, if_neg Bool.false_ne_true] at hprev
  have hpos : (1 : UInt32) ≤ max info.version 1 := le_max_right _ _
  cases hs : g.sessions.lookup peerId with
  | none => simp [forceFullLocal, hs] at hforce
  | some s =>
    rw [hs, Option.getD_some, SessionState.savedVersion] at hprev
    refine ⟨s, rfl, ?_⟩
    cases hsaved : s.peerInfoVerMap.lookup pid with
    | none =>
      rw [hsaved] at hprev
      dsimp only at hprev
      exact absurd (hpos.trans hprev) (by decide)
    | some saved =>
      rw [hsaved] at hprev
      dsimp only at hprev
      split_ifs at hprev
      · exact ⟨saved, rfl, hprev⟩
      · exact absurd (hpos.trans hprev) (by decide)

end Runs

/-- In every run in which the saved versions stay true: an update for a peer that is not
    forced to be full leaves out the info of another peer, or the relay's own, only if an
    update with an info of the same instance and version was sent to the peer before, and
    its response was accepted. -/
theorem withheld_info_acknowledged (crates : RpcCrates) (config : CoreConfig) (network : String)
    (ops : List CoreOp)
    (hsafe : Along (SavesTrue crates network)
      ((rpcCore crates config).history (rpcCore crates config).init ops))
    {peerId pid : UInt32} {sessionId nowMs : UInt64} {draws : GroupDraws} {info : RoutePeerInfo}
    (hpid : pid ≠ peerId) :
    let tr := (rpcCore crates config).history (rpcCore crates config).init ops
    let core := (rpcCore crates config).run (rpcCore crates config).init ops
    let g := core.updateGroup network peerId sessionId draws
    g.infoOf core.routes.myPeerId pid = some info →
    (pid, info) ∉ g.typedItems core.routes.myPeerId peerId false nowMs →
    ∃ u after, Acknowledged crates tr u after ∧ u.key.network = network ∧ u.key.peerId = peerId ∧
      ∃ sent, (pid, sent) ∈ u.items ∧ sent.instId = info.instId ∧ sent.version = info.version := by
  intro tr core g hinfo hout
  obtain ⟨s, hs, saved, hsaved, hreach⟩ := savedVersion_of_withheld hpid hinfo hout
  have hseen : g.VersionsSeen core.routes.myPeerId (InfoAcked crates network tr) :=
    ((infos_seen ops hsafe).ensureGroup draws).1.openSession peerId sessionId
  obtain ⟨info', hinfo', -, hacked⟩ := hseen peerId s pid saved hs hsaved
  obtain rfl := Option.some.inj (hinfo.symm.trans hinfo')
  exact hacked hreach

open RouteSample

/-- The info of the second member is left out of an update for the first one, which has
    accepted it. -/
theorem withheld_info_of_second :
    let ops := [join 1 1000, join 2 1000, reporting (report 2 1 5) 1500, build 1 true 1 2000,
      accept 1 1 3000]
    ∃ u after, Acknowledged crates (history ops) u after ∧ u.key.network = "net" ∧ u.key.peerId = 1 ∧
      ∃ sent, (2, sent) ∈ u.items ∧ sent.instId = some ⟨1, 0, 0, 0⟩ ∧ sent.version = 5 :=
  @withheld_info_acknowledged crates config "net"
    [join 1 1000, join 2 1000, reporting (report 2 1 5) 1500, build 1 true 1 2000, accept 1 1 3000]
    (by decide +kernel) 1 2 4 4000 draws
    { peerId := 2, instId := some ⟨1, 0, 0, 0⟩, version := 5, lastUpdate := some ⟨1, 0⟩ }
    (by decide) (by decide +kernel) (by decide +kernel)

/-- The second member restarts while an update for the first one is on its way. Once the
    update is accepted, the info of the new instance is left out, though no update had it. -/
theorem restarted_peer_withheld :
    let ops := [join 1 1000, join 2 1000, reporting (report 2 1 5) 1500, build 1 true 1 2000,
      reporting (report 2 2 1) 2500, accept 1 1 3000]
    let g := (coreAfter ops).updateGroup "net" 1 4 draws
    ∃ info, g.infoOf relay 2 = some info ∧ (2, info) ∉ g.typedItems relay 1 false 4000 ∧
      ¬ ∃ u after, Acknowledged crates (history ops) u after ∧
        ∃ sent, (2, sent) ∈ u.items ∧ sent.instId = info.instId := by
  refine ⟨{ peerId := 2, instId := some ⟨2, 0, 0, 0⟩, version := 1, lastUpdate := some ⟨2, 0⟩ },
    by decide +kernel, by decide +kernel, ?_⟩
  rintro ⟨u, after, hack, sent, hitem, hinst⟩
  obtain ⟨e, he, hsent⟩ := hack.sent
  have hold : ∀ e ∈ history [join 1 1000, join 2 1000, reporting (report 2 1 5) 1500,
      build 1 true 1 2000, reporting (report 2 2 1) 2500, accept 1 1 3000],
      ∀ u ∈ e.pre.sent e.input, ∀ item ∈ u.items, item.2.instId ≠ some ⟨2, 0, 0, 0⟩ := by
    decide +kernel
  exact hold e he u hsent (2, sent) hitem hinst

end EasyTierEdge
