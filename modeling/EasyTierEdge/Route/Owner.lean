import EasyTierEdge.Lib.Register
import EasyTierEdge.Route.State

/-!
# Requests change what their sender owns

A route request may hold any number of infos and rows, of any peers, as a list or as a
bitmap. It only gets to write what its sender owns: the sender's info, row, key and
session.

The sender's info and row are two guarded registers. An info is written when there is
none, or one of another instance or of a lower version (`infoGuard`); a row is written
when its version is above that of the stored one (`rowGuard`), without the neighbours the
relay does not know.

* `OwnerOnly a g g'`: all that differs between `g` and `g'` belongs to `a`, but for what
  the others have acknowledged of `a`;
* `storeInfos_eq`, `storeConnRows_eq`: what a request stores is what it writes to the
  two registers, and so are the flags it raises.
-/

namespace EasyTierEdge

namespace RouteGroupData

variable {g g' g'' : RouteGroupData} {a myPeerId : PeerId} {nowMs : UInt64}

/-! ## What belongs to a peer -/

/-- The group `g'` differs from `g` only in what belongs to `a`. Of the others, only what
    their sessions have acknowledged of `a` may be gone. -/
structure OwnerOnly (a : PeerId) (g g' : RouteGroupData) : Prop where
  peers : g'.peers = g.peers
  myInfo : g'.myInfo = g.myInfo
  myInfoVersion : g'.myInfoVersion = g.myInfoVersion
  peerInfos : ∀ pid, pid ≠ a → g'.peerInfos.lookup pid = g.peerInfos.lookup pid
  connRows : ∀ pid, pid ≠ a → g'.connRows.lookup pid = g.connRows.lookup pid
  keys : ∀ pid, pid ≠ a →
    g'.authenticatedPeerKeys.lookup pid = g.authenticatedPeerKeys.lookup pid
  sessions : ∀ pid, pid ≠ a →
    g'.sessions.lookup pid = g.sessions.lookup pid ∨
      g'.sessions.lookup pid = (g.sessions.lookup pid).map fun s =>
        { s with peerInfoVerMap := s.peerInfoVerMap.erase a }

namespace OwnerOnly

theorem refl (a : PeerId) (g : RouteGroupData) : OwnerOnly a g g :=
  ⟨rfl, rfl, rfl, fun _ _ => rfl, fun _ _ => rfl, fun _ _ => rfl, fun _ _ => .inl rfl⟩

theorem trans (h : OwnerOnly a g g') (h' : OwnerOnly a g' g'') : OwnerOnly a g g'' where
  peers := h'.peers.trans h.peers
  myInfo := h'.myInfo.trans h.myInfo
  myInfoVersion := h'.myInfoVersion.trans h.myInfoVersion
  peerInfos pid hpid := (h'.peerInfos pid hpid).trans (h.peerInfos pid hpid)
  connRows pid hpid := (h'.connRows pid hpid).trans (h.connRows pid hpid)
  keys pid hpid := (h'.keys pid hpid).trans (h.keys pid hpid)
  sessions pid hpid := by
    rcases h.sessions pid hpid with h₁ | h₁ <;> rcases h'.sessions pid hpid with h₂ | h₂
    · exact .inl (h₂.trans h₁)
    · exact .inr (h₁ ▸ h₂)
    · exact .inr (h₂.trans h₁)
    · -- Erasing what is already gone.
      refine .inr ?_
      rw [h₂, h₁, Option.map_map]
      congr 1
      funext s
      simp only [Function.comp_apply, SessionState.mk.injEq, and_true, true_and]
      exact Finmap.erase_eq_self (Finmap.notMem_erase_self)

theorem touchSession (g : RouteGroupData) (a : PeerId) (request : SyncRouteInfoRequest)
    (nowMs : UInt64) : OwnerOnly a g (g.touchSession a request nowMs) := by
  refine { refl a g with sessions := fun pid hpid => .inl ?_ }
  exact (Finmap.lookup_upsert _ _ _ _).trans (if_neg hpid)

theorem bindKey (g : RouteGroupData) (a : PeerId) (info : RoutePeerInfo) :
    OwnerOnly a g (g.bindKey a info) := by
  refine { refl a g with keys := fun pid hpid => ?_ }
  exact Finmap.lookup_insert_of_ne _ hpid

theorem putInfo (g : RouteGroupData) (info : RoutePeerInfo) (nowMs : UInt64) :
    OwnerOnly info.peerId g (g.putInfo info nowMs) := by
  refine { refl info.peerId g with
    peerInfos := fun pid hpid => Finmap.lookup_insert_of_ne _ hpid
    sessions := fun pid _ => ?_ }
  unfold RouteGroupData.putInfo
  dsimp only
  split_ifs
  · exact .inr (Finmap.lookup_mapValues _ _ _)
  · exact .inl rfl

/-- The rows that a request stores are the sender's. -/
theorem of_rowsFrom {acc : RouteGroupData × Bool} (h : RowsFrom g a acc) : OwnerOnly a g acc.1 := by
  obtain ⟨g₁, changed⟩ := acc
  have hgroup : { g₁ with connRows := g.connRows } = g := h.group
  rw [← hgroup]
  exact { refl a g₁ with connRows := h.others }

theorem noteTopologyChange (h : OwnerOnly a g g') : OwnerOnly a g g'.noteTopologyChange :=
  ⟨h.peers, h.myInfo, h.myInfoVersion, h.peerInfos, h.connRows, h.keys, h.sessions⟩

end OwnerOnly

/-! ## The registers of a peer -/

/-- An info as it is stored: with the time it was received. -/
def receivedInfo (info : RoutePeerInfo) (nowMs : UInt64) : RoutePeerInfo :=
  { info with lastUpdate := some { seconds := (nowMs / 1000).toInt64, nanos := 0 } }

/-- The register of the info of `a`. -/
def infoGuard (a : PeerId) (nowMs : UInt64) (stored : Option RoutePeerInfo) (info : RoutePeerInfo) :
    Option (Option RoutePeerInfo) :=
  if info.peerId = a ∧ ∀ old ∈ stored, old.instId ≠ info.instId ∨ old.version < info.version then
    some (some (receivedInfo info nowMs))
  else none

/-- The register of the row of `a`. -/
def rowGuard (a : PeerId) (known : PeerId → Prop) [DecidablePred known] (stored : Option ConnRow)
    (row : PeerId × UInt32 × Finset PeerId) : Option (Option ConnRow) :=
  if row.1 = a ∧ (stored.getD default).version < row.2.1 then
    some (some ⟨row.2.1, row.2.2.filter known⟩)
  else none

/-- The relay knows a peer: it is itself, a member, or there is an info of it. -/
def Present (myPeerId : PeerId) (g : RouteGroupData) (pid : PeerId) : Prop :=
  pid = myPeerId ∨ pid ∈ g.peers ∨ (g.peerInfos.lookup pid).isSome

instance (myPeerId : PeerId) (g : RouteGroupData) : DecidablePred (Present myPeerId g) :=
  fun _ => inferInstanceAs (Decidable (_ ∨ _ ∨ _))

/-- The infos that a request of `a` writes, each over the one before. -/
def infoWrites (g : RouteGroupData) (a : PeerId) (request : SyncRouteInfoRequest) (nowMs : UInt64) :
    List (Option RoutePeerInfo) :=
  writes (infoGuard a nowMs) (g.peerInfos.lookup a) (request.peerInfos.getD [])

/-- The rows that a request of `a` writes, each over the one before: of their neighbours,
    those the relay knows once it has the info of `a`. -/
def rowWrites (g : RouteGroupData) (myPeerId a : PeerId) (request : SyncRouteInfoRequest)
    (nowMs : UInt64) : List (Option ConnRow) :=
  writes (rowGuard a fun pid => g.Present myPeerId pid ∨ pid = a ∧ g.infoWrites a request nowMs ≠ [])
    (g.connRows.lookup a) ((request.connInfo.map connInfoRows).getD [])

/-! ## Infos -/

theorem shouldUpdate_iff (g : RouteGroupData) (info : RoutePeerInfo) :
    g.shouldUpdate info = true ↔ ∀ old ∈ g.peerInfos.lookup info.peerId,
      old.instId ≠ info.instId ∨ old.version < info.version := by
  unfold shouldUpdate instanceChanged
  cases g.peerInfos.lookup info.peerId with
  | none => simp
  | some old => simp

/-- An info of a request that is not written leaves the infos as they were. -/
theorem storeInfo_of_none {acc : Stored} {info : RoutePeerInfo}
    (h : infoGuard a nowMs (acc.group.peerInfos.lookup a) info = none) :
    (storeInfo a nowMs acc info).group.peerInfos = acc.group.peerInfos ∧
      (storeInfo a nowMs acc info).routeChanged = acc.routeChanged ∧
      OwnerOnly a acc.group (storeInfo a nowMs acc info).group := by
  unfold storeInfo
  dsimp only
  split_ifs with hpid hupdate
  · exact ⟨rfl, rfl, .refl a _⟩
  · exact ⟨rfl, rfl, .bindKey _ a info⟩
  · obtain rfl := not_ne_iff.1 hpid
    rw [Bool.not_eq_true', Bool.not_eq_false, shouldUpdate_iff] at hupdate
    rw [infoGuard, if_pos ⟨rfl, hupdate⟩] at h
    exact absurd h (Option.some_ne_none _)

/-- An info of a request that is written. -/
theorem storeInfo_of_some {acc : Stored} {info : RoutePeerInfo} {stored : Option RoutePeerInfo}
    (h : infoGuard a nowMs (acc.group.peerInfos.lookup a) info = some stored) :
    (storeInfo a nowMs acc info).group.peerInfos.lookup a = stored ∧
      (storeInfo a nowMs acc info).routeChanged = true ∧
      OwnerOnly a acc.group (storeInfo a nowMs acc info).group := by
  unfold infoGuard at h
  split_ifs at h with hguard
  obtain ⟨rfl, hupdate⟩ := hguard
  obtain rfl := Option.some.inj h
  have hupdate : (acc.group.bindKey info.peerId info).shouldUpdate info = true :=
    (shouldUpdate_iff _ info).2 hupdate
  unfold storeInfo
  rw [if_neg (not_not.2 rfl)]
  dsimp only
  rw [hupdate, Bool.not_true, if_neg Bool.false_ne_true]
  refine ⟨Finmap.lookup_insert _, rfl, ?_⟩
  exact (OwnerOnly.bindKey acc.group info.peerId info).trans (.putInfo _ info nowMs)

theorem isSome_of_infoGuard {stored written : Option RoutePeerInfo} {info : RoutePeerInfo}
    (h : infoGuard a nowMs stored info = some written) : written.isSome = true := by
  unfold infoGuard at h
  split_ifs at h
  rw [← Option.some.inj h, Option.isSome_some]

/-- What the infos of a request store, and whether they change the routes. -/
theorem storeInfos_eq (acc : Stored) (infos : List RoutePeerInfo) :
    let stored := infos.foldl (storeInfo a nowMs) acc
    let written := writes (infoGuard a nowMs) (acc.group.peerInfos.lookup a) infos
    stored.group.peerInfos.lookup a = written.getLastD (acc.group.peerInfos.lookup a) ∧
      (stored.routeChanged = true ↔ acc.routeChanged = true ∨ written ≠ []) ∧
      OwnerOnly a acc.group stored.group := by
  dsimp only
  induction infos generalizing acc with
  | nil => exact ⟨rfl, by simp, .refl a _⟩
  | cons info infos ih =>
    obtain ⟨hinfo, hchanged, howner⟩ := ih (storeInfo a nowMs acc info)
    rw [List.foldl_cons]
    cases hguard : infoGuard a nowMs (acc.group.peerInfos.lookup a) info with
    | none =>
      obtain ⟨hinfos, hflag, hstep⟩ := storeInfo_of_none hguard
      rw [hinfos] at hinfo hchanged
      rw [writes_cons_of_none hguard]
      exact ⟨hinfo, hflag ▸ hchanged, hstep.trans howner⟩
    | some stored =>
      obtain ⟨hstored, hflag, hstep⟩ := storeInfo_of_some hguard
      rw [hstored] at hinfo hchanged
      rw [writes_cons_of_some hguard, List.getLastD_cons]
      refine ⟨hinfo, ?_, hstep.trans howner⟩
      rw [hchanged, hflag]
      simp

/-! ## Rows -/

/-- Writing a row raises its version. -/
theorem lt_of_rowGuard {known : PeerId → Prop} [DecidablePred known] (stored : Option ConnRow)
    (row : PeerId × UInt32 × Finset PeerId) (written : Option ConnRow)
    (h : rowGuard a known stored row = some written) :
    (stored.getD default).version < (written.getD default).version := by
  unfold rowGuard at h
  split_ifs at h with hguard
  obtain rfl := Option.some.inj h
  exact hguard.2

theorem rowGuard_congr {known known' : PeerId → Prop} [DecidablePred known] [DecidablePred known']
    (h : ∀ pid, known pid ↔ known' pid) : rowGuard a known = rowGuard a known' := by
  funext stored row
  unfold rowGuard
  rw [Finset.filter_congr fun pid _ => h pid]

/-- A row of a request, and the register of the sender's row. -/
theorem acceptRow_guard (ha : a ≠ myPeerId) (g : RouteGroupData) (changed : Bool)
    (row : PeerId × UInt32 × Finset PeerId) :
    acceptRow myPeerId a (g, changed) row =
      ((rowGuard a (g.Present myPeerId) (g.connRows.lookup a) row).elim (g, changed) fun written =>
        ({ g with connRows := g.connRows.insert a (written.getD default) }, true)) := by
  rw [acceptRow_eq, rowGuard]
  by_cases hguard : row.1 = a ∧ ((g.connRows.lookup a).getD default).version < row.2.1
  · obtain ⟨rfl, hlt⟩ := hguard
    rw [if_pos ⟨⟨rfl, ha⟩, hlt⟩, if_pos ⟨rfl, hlt⟩]
    rfl
  · rw [if_neg hguard, if_neg]
    · rfl
    · rintro ⟨⟨rfl, -⟩, hlt⟩
      exact hguard ⟨rfl, hlt⟩

/-- What the rows of a request store, and whether they change the routes. -/
theorem acceptRows_eq (ha : a ≠ myPeerId) (g : RouteGroupData) (changed : Bool)
    (rows : List (PeerId × UInt32 × Finset PeerId)) :
    let stored := rows.foldl (acceptRow myPeerId a) (g, changed)
    let written := writes (rowGuard a (g.Present myPeerId)) (g.connRows.lookup a) rows
    stored.1.connRows.lookup a = written.getLastD (g.connRows.lookup a) ∧
      (stored.2 = true ↔ changed = true ∨ written ≠ []) := by
  dsimp only
  induction rows generalizing g changed with
  | nil => exact ⟨rfl, by simp⟩
  | cons row rows ih =>
    rw [List.foldl_cons, acceptRow_guard ha]
    cases hguard : rowGuard a (g.Present myPeerId) (g.connRows.lookup a) row with
    | none =>
      rw [writes_cons_of_none hguard]
      exact ih g changed
    | some written =>
      have hsome : some (written.getD default) = written := by
        unfold rowGuard at hguard
        split_ifs at hguard
        obtain rfl := Option.some.inj hguard
        rfl
      -- The relay knows the same peers afterwards.
      obtain ⟨hrow, hchanged⟩ := ih
        { g with connRows := g.connRows.insert a (written.getD default) } true
      dsimp only at hrow hchanged
      rw [Finmap.lookup_insert, hsome] at hrow hchanged
      rw [writes_cons_of_some hguard, List.getLastD_cons]
      refine ⟨hrow, hchanged.trans ?_⟩
      simp

theorem storeConnRows_eq (ha : a ≠ myPeerId) (g : RouteGroupData) (connInfo : Option ConnInfo) :
    let stored := g.storeConnRows myPeerId connInfo a
    let written := writes (rowGuard a (g.Present myPeerId)) (g.connRows.lookup a)
      ((connInfo.map connInfoRows).getD [])
    stored.1.connRows.lookup a = written.getLastD (g.connRows.lookup a) ∧
      (stored.2 = true ↔ written ≠ []) := by
  cases connInfo with
  | none => exact ⟨rfl, by simp [storeConnRows]⟩
  | some conn =>
    obtain ⟨hrow, hchanged⟩ := acceptRows_eq ha g false (connInfoRows conn)
    refine ⟨hrow, hchanged.trans ?_⟩
    simp

/-! ## Requests -/

/-- What a request of `a` leaves in a group, and whether it changes the routes. -/
structure Written (myPeerId a : PeerId) (request : SyncRouteInfoRequest) (nowMs : UInt64)
    (g g' : RouteGroupData) (routeChanged : Bool) : Prop where
  info : g'.peerInfos.lookup a = (g.infoWrites a request nowMs).getLastD (g.peerInfos.lookup a)
  row : g'.connRows.lookup a =
    (g.rowWrites myPeerId a request nowMs).getLastD (g.connRows.lookup a)
  changed : routeChanged = true ↔
    g.infoWrites a request nowMs ≠ [] ∨ g.rowWrites myPeerId a request nowMs ≠ []

namespace Written

variable {request : SyncRouteInfoRequest} {routeChanged : Bool}

/-- The sender's row was written just when it is another one afterwards. -/
theorem row_changed_iff (h : Written myPeerId a request nowMs g g' routeChanged) :
    g.rowWrites myPeerId a request nowMs ≠ [] ↔
      g'.connRows.lookup a ≠ g.connRows.lookup a := by
  rw [h.row]
  exact not_congr (writes_eq_nil_iff lt_of_rowGuard _ _)

/-- No info and no row of anyone has changed, unless it is reported. -/
theorem kept (h : Written myPeerId a request nowMs g g' routeChanged) (howner : g.OwnerOnly a g')
    (hchanged : routeChanged = false) : g'.peerInfos = g.peerInfos ∧ g'.connRows = g.connRows := by
  have hnone := (not_congr h.changed).1 (by rw [hchanged]; exact Bool.false_ne_true)
  rw [not_or, not_not, not_not] at hnone
  obtain ⟨hinfos, hrows⟩ := hnone
  constructor
  · refine Finmap.ext_lookup fun pid => ?_
    by_cases hpid : pid = a
    · rw [hpid, h.info, hinfos]
      rfl
    · exact howner.peerInfos pid hpid
  · refine Finmap.ext_lookup fun pid => ?_
    by_cases hpid : pid = a
    · rw [hpid, h.row, hrows]
      rfl
    · exact howner.connRows pid hpid

end Written

/-- Once the infos of a request of `a` are stored, the relay knows whom it knew, and `a` if
    its info was written. -/
theorem present_of_written {infos : List RoutePeerInfo} (howner : g.OwnerOnly a g')
    (hinfo : g'.peerInfos.lookup a =
      (writes (infoGuard a nowMs) (g.peerInfos.lookup a) infos).getLastD (g.peerInfos.lookup a))
    (pid : PeerId) :
    g'.Present myPeerId pid ↔ g.Present myPeerId pid ∨
      pid = a ∧ writes (infoGuard a nowMs) (g.peerInfos.lookup a) infos ≠ [] := by
  unfold Present
  rw [howner.peers]
  by_cases hpid : pid = a
  · subst hpid
    rw [hinfo]
    by_cases hnil : writes (infoGuard pid nowMs) (g.peerInfos.lookup pid) infos = []
    · rw [hnil]
      simp
    · obtain ⟨u, info, -, hguard⟩ := exists_guard_of_mem_writes (getLastD_mem_writes hnil)
      rw [isSome_of_infoGuard hguard]
      simp [hnil]
  · rw [howner.peerInfos pid hpid]
    simp [hpid]

/-- A request of `a`, once it is decoded, writes its registers and changes nothing of the
    others. -/
theorem syncRouteInfo_owner (ha : a ≠ myPeerId) (g : RouteGroupData) (prost : Prost)
    (request : SyncRouteInfoRequest) (nowMs : UInt64) :
    g.OwnerOnly a (g.syncRouteInfo myPeerId prost a request nowMs).2 ∧
      Written myPeerId a request nowMs g (g.syncRouteInfo myPeerId prost a request nowMs).2
        (g.syncRouteInfo myPeerId prost a request nowMs).1.routeChanged := by
  -- First the infos: those the touched group has are those of `g`.
  set stored := g.storedInfos a request nowMs
  obtain ⟨hinfo, hinfoChanged, hinfoOwner⟩ := @storeInfos_eq a nowMs
    { group := g.touchSession a request nowMs, routeChanged := false, needBump := false }
    (request.peerInfos.getD [])
  have howner : g.OwnerOnly a stored.group :=
    (OwnerOnly.touchSession g a request nowMs).trans hinfoOwner
  have hsame : stored.group.connRows = g.connRows :=
    (storedFrom_storedInfos g a request nowMs).connRows
  -- Then the rows, of which the stored infos decide what neighbours are kept.
  set rows := g.storedRows myPeerId a request nowMs
  obtain ⟨hrow, hrowChanged⟩ := storeConnRows_eq ha stored.group request.connInfo
  have hrows : RowsFrom stored.group a rows := rowsFrom_storedRows g myPeerId a request nowMs
  have hrowOwner : stored.group.OwnerOnly a rows.1 := .of_rowsFrom hrows
  have hknown : ∀ pid, (g.Present myPeerId pid ∨ pid = a ∧ g.infoWrites a request nowMs ≠ []) ↔
      stored.group.Present myPeerId pid :=
    fun pid => (present_of_written howner hinfo pid).symm
  have hwrites : g.rowWrites myPeerId a request nowMs =
      writes (rowGuard a (stored.group.Present myPeerId)) (stored.group.connRows.lookup a)
        ((request.connInfo.map connInfoRows).getD []) := by
    rw [rowWrites, hsame, rowGuard_congr hknown]
  have hinfos : rows.1.peerInfos = stored.group.peerInfos := by
    rw [← hrows.group]
  have hwritten : Written myPeerId a request nowMs g rows.1 (stored.routeChanged || rows.2) := by
    refine ⟨?_, ?_, ?_⟩
    · rw [hinfos]
      exact hinfo
    · rw [hwrites, ← hsame]
      exact hrow
    · rw [Bool.or_eq_true, hwrites]
      exact or_congr (hinfoChanged.trans (or_iff_right Bool.false_ne_true)) hrowChanged
  rw [snd_syncRouteInfo, routeChanged_syncRouteInfo]
  split_ifs
  · exact ⟨(howner.trans hrowOwner).noteTopologyChange, hwritten.info, hwritten.row, hwritten.changed⟩
  · exact ⟨howner.trans hrowOwner, hwritten⟩

end RouteGroupData

/-! ## The routes of all networks -/

open RouteGroupData

/-- A request of `a` leaves the groups of the other networks alone, and changes in its own
    one what belongs to `a`. A request that fails changes nothing; one that is accepted
    stores what it writes to the two registers of `a`, and it reports a change of the
    routes just when it writes to one of them. -/
theorem handleSyncRouteInfoRequest_owner (prost : Prost) (r : RouteState) {a : PeerId}
    (ha : a ≠ r.myPeerId) (network : String) (bytes : Bytes) (nowMs : UInt64) (draws : GroupDraws) :
    let after := r.step prost (.handleSyncRouteInfoRequest network a bytes nowMs draws)
    let g := r.ensureGroup network draws
    let g' := after.1.ensureGroup network draws
    (∀ n, n ≠ network → after.1.groups.lookup n = r.groups.lookup n) ∧
      g.OwnerOnly a g' ∧ g'.connRows.lookup r.myPeerId = g.connRows.lookup r.myPeerId ∧
      (∀ e, after.2 = .synced (.error e) → after.1 = r) ∧
      ∀ outcome, after.2 = .synced (.ok outcome) → ∃ request,
        prost.decodeSyncRouteInfoRequest bytes = .ok request ∧ request.myPeerId = a ∧
        g'.peerInfos.lookup a =
          (g.infoWrites a request nowMs).getLastD (g.peerInfos.lookup a) ∧
        g'.connRows.lookup a =
          (g.rowWrites r.myPeerId a request nowMs).getLastD (g.connRows.lookup a) ∧
        (outcome.routeChanged = true ↔
          g.infoWrites a request nowMs ≠ [] ∨ g.rowWrites r.myPeerId a request nowMs ≠ []) ∧
        (g.rowWrites r.myPeerId a request nowMs ≠ [] ↔
          g'.connRows.lookup a ≠ g.connRows.lookup a) ∧
        (outcome.routeChanged = false → g'.peerInfos = g.peerInfos ∧ g'.connRows = g.connRows) := by
  dsimp only
  rcases r.step_sync_cases prost network a bytes nowMs draws with
    ⟨e, heq⟩ | ⟨request, hdecode, hid, heq⟩
  · rw [heq]
    exact ⟨fun _ _ => rfl, .refl a _, rfl, fun _ _ => rfl, fun outcome h => by simp at h⟩
  · obtain ⟨howner, hwritten⟩ :=
      syncRouteInfo_owner ha (r.ensureGroup network draws) prost request nowMs
    rw [heq, RouteState.ensureGroup_withGroup]
    refine ⟨fun n hn => ?_, howner, howner.connRows _ ha.symm, fun e h => ?_, fun outcome h => ?_⟩
    · rw [RouteState.lookup_withGroup, if_neg hn]
    · simp at h
    · obtain rfl := Except.ok.inj (RouteOutput.synced.inj h)
      exact ⟨request, hdecode, hid, hwritten.info, hwritten.row, hwritten.changed,
        hwritten.row_changed_iff, hwritten.kept howner⟩

namespace OwnerSample

open RoutesSample

/-- The report of a peer with a row of its own and one of another peer. -/
def forged : SyncRouteInfoRequest := report 1 1 [row 1 3 [2, 55, relay], row 2 9 []]

def reports : List SyncRouteInfoRequest := [report 2 1 [row 2 1 [1]], forged]

/-- Two peers are there, and one of them has reported. -/
def routes : RouteState :=
  routesAfter reports [join 1 0, join 2 10, reporting (report 2 1 [row 2 1 [1]]) 20]

/-- A forged report leaves the other peer's row alone. The sender's is stored, without the
    neighbour that nobody knows. -/
theorem handleSyncRouteInfoRequest_owner_forged :
    let after := routes.step (Prost.listed [] [] [] reports []) (reporting forged 30)
    let g := routes.ensureGroup "net" draws
    let g' := after.1.ensureGroup "net" draws
    (1 : PeerId) ≠ routes.myPeerId ∧ g.OwnerOnly 1 g' ∧
      g'.connRows.lookup 2 = some ⟨1, {1}⟩ ∧ g'.connRows.lookup 1 = some ⟨3, {2, relay}⟩ := by
  have h := handleSyncRouteInfoRequest_owner (Prost.listed [] [] [] reports []) routes
    (show (1 : PeerId) ≠ routes.myPeerId by decide +kernel) "net"
    (Encoding.syncRouteInfoRequest forged) 30 draws
  refine ⟨by decide +kernel, h.2.1, ?_, by decide +kernel⟩
  exact (h.2.1.connRows 2 (by decide)).trans (by decide +kernel)

end OwnerSample

end EasyTierEdge
