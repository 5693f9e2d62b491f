import EasyTierEdge.Route.Owner

/-!
# Recovery after a restart

After a restart the routes are empty. The peers come back one by one: each is added, and
afterwards reports its info and its row. In what order they do so is up to them.

The members and the infos do not depend on it, but the rows do. A row is stored without
the neighbours that have not come back yet, and its owner has no reason to report it again
with another version.

* `RecoveryStep`, `Ordered`: the steps of the peers, in any order in which every peer is
  added before it reports;
* `recovered`: the routes after such steps. The row of a peer has the neighbours that were
  added before the peer reported;
* `recovery_same_iff`: two orders lead to the same routes just when they agree on which
  neighbours of a peer are added before it reports.
-/

namespace EasyTierEdge

open RouteGroupData

/-- A peer that comes back: its key, and the request with its info and its row. The request
    may hold infos and rows of others too. -/
structure Returning (prost : Prost) where
  peerId : PeerId
  publicKey : Bytes
  publicKey_valid : publicKey = [] ∨ publicKey.length = 32
  requestBytes : Bytes
  request : SyncRouteInfoRequest
  decode_request : prost.decodeSyncRouteInfoRequest requestBytes = .ok request
  myPeerId_request : request.myPeerId = peerId
  info : RoutePeerInfo
  infos_request : (request.peerInfos.getD []).filter (·.peerId = peerId) = [info]
  version : UInt32
  connected : Finset PeerId
  rows_request : ((request.connInfo.map connInfoRows).getD []).filter (·.1 = peerId) =
    [(peerId, version, connected)]

/-- What the peers do to come back. -/
inductive RecoveryStep (ι : Type)
  | add (i : ι)
  | sync (i : ι)
  deriving DecidableEq

namespace RecoveryStep

variable {ι : Type}

/-- The steps are all different, and a peer is added before it reports. -/
def Ordered (steps : List (RecoveryStep ι)) : Prop :=
  steps.Nodup ∧ Along (fun before step => ∀ i, step = .sync i → .add i ∈ before) steps

instance decidableOrdered [DecidableEq ι] [Fintype ι] (steps : List (RecoveryStep ι)) :
    Decidable (Ordered steps) :=
  inferInstanceAs (Decidable (_ ∧ _))

theorem Ordered.of_snoc {steps : List (RecoveryStep ι)} {step : RecoveryStep ι}
    (h : Ordered (steps ++ [step])) :
    Ordered steps ∧ step ∉ steps ∧ ∀ i, step = .sync i → .add i ∈ steps := by
  obtain ⟨hnodup, halong⟩ := h
  obtain ⟨hbefore, hstep⟩ := Along.snoc_iff.1 halong
  rw [List.nodup_append] at hnodup
  refine ⟨⟨hnodup.1, hbefore⟩, fun hmem => ?_, hstep⟩
  exact hnodup.2.2 step hmem step (List.mem_singleton_self step) rfl

/-- Whoever has reported was added. -/
theorem Ordered.add_mem {steps : List (RecoveryStep ι)} (h : Ordered steps) {i : ι}
    (hi : .sync i ∈ steps) : .add i ∈ steps := by
  obtain ⟨before, after, rfl⟩ := List.append_of_mem hi
  exact List.mem_append_left _ (h.2 before _ after rfl i rfl)

variable [DecidableEq ι]

/-- The steps before a peer reports. -/
def beforeSync (steps : List (RecoveryStep ι)) (i : ι) : List (RecoveryStep ι) :=
  steps.takeWhile (· ≠ .sync i)

theorem beforeSync_append_of_mem {steps : List (RecoveryStep ι)} {i : ι} (h : .sync i ∈ steps)
    (after : List (RecoveryStep ι)) : beforeSync (steps ++ after) i = beforeSync steps i := by
  induction steps with
  | nil => exact absurd h List.not_mem_nil
  | cons step steps ih =>
    by_cases hstep : step = .sync i
    · simp [beforeSync, hstep]
    · have hmem : .sync i ∈ steps := (List.mem_cons.1 h).resolve_left fun h => hstep h.symm
      have ih := ih hmem
      unfold beforeSync at ih ⊢
      rw [List.cons_append, List.takeWhile_cons_of_pos (by simpa using hstep),
        List.takeWhile_cons_of_pos (by simpa using hstep), ih]

theorem beforeSync_snoc {steps : List (RecoveryStep ι)} {i : ι} (h : .sync i ∉ steps) :
    beforeSync (steps ++ [.sync i]) i = steps := by
  unfold beforeSync
  rw [List.takeWhile_append_of_pos]
  · simp
  · intro step hstep
    simp only [ne_eq, decide_not, Bool.not_eq_eq_eq_not, Bool.not_true, decide_eq_false_iff_not]
    exact fun heq => h (heq ▸ hstep)

end RecoveryStep

section Recovery

variable {ι : Type} [DecidableEq ι] {prost : Prost} (peer : ι → Returning prost)

/-- The peers that are added in these steps. -/
def addedIds (steps : List (RecoveryStep ι)) : List PeerId :=
  steps.filterMap fun
    | .add i => some (peer i).peerId
    | .sync _ => none

/-- The row that is stored for a peer: without the neighbours that are not back when it
    reports, and none if its version is `0`. -/
def recoveredRow (myPeerId : PeerId) (steps : List (RecoveryStep ι)) (i : ι) : Option ConnRow :=
  if (peer i).version = 0 then none
  else
    some
      { version := (peer i).version
        connected := (peer i).connected.filter fun q =>
          q = myPeerId ∨ q ∈ addedIds peer (RecoveryStep.beforeSync steps i) }

/-- A step as a call of the routes, at a time. -/
def RecoveryStep.op (network : String) (nowMs : UInt64) (draws : GroupDraws) :
    RecoveryStep ι → RouteOp
  | .add i => .addPeer network (peer i).peerId (peer i).publicKey nowMs draws
  | .sync i =>
    .handleSyncRouteInfoRequest network (peer i).peerId (peer i).requestBytes nowMs draws

/-- The group after the steps of `done`. -/
structure Recovered (myPeerId : PeerId) (done : List (RecoveryStep ι)) (g : RouteGroupData) :
    Prop where
  peers : ∀ pid, pid ∈ g.peers ↔ pid ∈ addedIds peer done
  info : ∀ i, .sync i ∈ done →
    ∃ nowMs, g.peerInfos.lookup (peer i).peerId = some (receivedInfo (peer i).info nowMs)
  noInfo : ∀ pid, (∀ i, .sync i ∈ done → (peer i).peerId ≠ pid) → g.peerInfos.lookup pid = none
  row : ∀ i, .sync i ∈ done →
    g.connRows.lookup (peer i).peerId = recoveredRow peer myPeerId done i
  noRow : ∀ pid, pid ≠ myPeerId → (∀ i, .sync i ∈ done → (peer i).peerId ≠ pid) →
    g.connRows.lookup pid = none

variable {peer} {myPeerId : PeerId} {done : List (RecoveryStep ι)} {g : RouteGroupData}

omit [DecidableEq ι] in
theorem mem_addedIds {pid : PeerId} {steps : List (RecoveryStep ι)} :
    pid ∈ addedIds peer steps ↔ ∃ i, .add i ∈ steps ∧ (peer i).peerId = pid := by
  rw [addedIds, List.mem_filterMap]
  constructor
  · rintro ⟨step, hstep, hpid⟩
    cases step with
    | add i => exact ⟨i, hstep, Option.some.inj hpid⟩
    | sync i => simp at hpid
  · rintro ⟨i, hi, rfl⟩
    exact ⟨.add i, hi, rfl⟩

theorem Recovered.new (id : Option UInt64) (draws : GroupDraws) :
    Recovered peer myPeerId [] (.new myPeerId id draws) := by
  refine ⟨fun pid => ?_, fun i hi => ?_, fun _ _ => rfl, fun i hi => ?_, fun _ _ _ => rfl⟩
  · simp [RouteGroupData.new, addedIds]
  · exact absurd hi List.not_mem_nil
  · exact absurd hi List.not_mem_nil

/-- The row of a peer that has reported stays, whatever comes after. -/
theorem recoveredRow_append {i : ι} (h : .sync i ∈ done) (after : List (RecoveryStep ι)) :
    recoveredRow peer myPeerId (done ++ after) i = recoveredRow peer myPeerId done i := by
  unfold recoveredRow
  rw [RecoveryStep.beforeSync_append_of_mem h]

/-- A peer is added. -/
theorem Recovered.add (h : Recovered peer myPeerId done g) (hids : ∀ i, (peer i).peerId ≠ myPeerId)
    (i : ι) (nowMs : UInt64) :
    Recovered peer myPeerId (done ++ [.add i])
      (g.addPeer myPeerId (peer i).peerId (peer i).publicKey nowMs) := by
  have hsync : ∀ j, .sync j ∈ done ++ [.add i] → .sync j ∈ done := by
    intro j hj
    simpa using hj
  obtain ⟨peers, keys, rows, version, list, bitmap, heq⟩ :=
    g.addPeer_eq myPeerId (peer i).peerId (peer i).publicKey nowMs
  have hinfos : (g.addPeer myPeerId (peer i).peerId (peer i).publicKey nowMs).peerInfos =
      g.peerInfos := by
    rw [heq]
  refine ⟨fun pid => ?_, fun j hj => ?_, fun pid hpid => ?_, fun j hj => ?_, fun pid hmine hpid => ?_⟩
  · rw [peers_addPeer, Finset.mem_insert, h.peers, addedIds, addedIds, List.filterMap_append,
      List.mem_append, or_comm]
    exact or_congr_right (List.mem_singleton).symm
  · rw [hinfos]
    exact h.info j (hsync j hj)
  · rw [hinfos]
    exact h.noInfo pid fun j hj => hpid j (List.mem_append_left _ hj)
  · rw [lookup_addPeer_connRows _ _ _ _ (hids j), recoveredRow_append (hsync j hj)]
    exact h.row j (hsync j hj)
  · rw [lookup_addPeer_connRows _ _ _ _ hmine]
    exact h.noRow pid hmine fun j hj => hpid j (List.mem_append_left _ hj)

/-- The info that the request of a peer writes when there is none. -/
theorem infoWrites_returning (p : Returning prost) (nowMs : UInt64)
    (hnone : g.peerInfos.lookup p.peerId = none) :
    g.infoWrites p.peerId p.request nowMs = [some (receivedInfo p.info nowMs)] := by
  have hown : p.info.peerId = p.peerId := by
    have hmem : p.info ∈ (p.request.peerInfos.getD []).filter (·.peerId = p.peerId) := by
      rw [p.infos_request]
      exact List.mem_singleton_self _
    simpa using (List.mem_filter.1 hmem).2
  have hothers : ∀ stored (info : RoutePeerInfo), decide (info.peerId = p.peerId) = false →
      infoGuard p.peerId nowMs stored info = none := by
    intro stored info hinfo
    exact if_neg fun hguard => of_decide_eq_false hinfo hguard.1
  rw [infoWrites, writes_filter hothers, p.infos_request, writes_singleton, hnone, infoGuard,
    if_pos ⟨hown, by simp⟩]
  rfl

/-- The row that the request of a peer writes when there is none. -/
theorem rowWrites_returning (p : Returning prost) (nowMs : UInt64)
    (hnone : g.connRows.lookup p.peerId = none) {known : PeerId → Prop} [DecidablePred known]
    (hknown : ∀ q, (g.Present myPeerId q ∨
      q = p.peerId ∧ g.infoWrites p.peerId p.request nowMs ≠ []) ↔ known q) :
    g.rowWrites myPeerId p.peerId p.request nowMs =
      if p.version = 0 then [] else [some ⟨p.version, p.connected.filter known⟩] := by
  have hothers : ∀ stored (row : PeerId × UInt32 × Finset PeerId),
      decide (row.1 = p.peerId) = false → rowGuard p.peerId known stored row = none := by
    intro stored row hrow
    exact if_neg fun hguard => of_decide_eq_false hrow hguard.1
  rw [rowWrites, rowGuard_congr hknown, writes_filter hothers, p.rows_request, writes_singleton,
    hnone, rowGuard]
  split_ifs with hguard hzero hzero
  · rw [hzero] at hguard
    exact absurd hguard.2 UInt32.not_lt_zero
  · rfl
  · rfl
  · exact absurd ⟨rfl, UInt32.pos_iff_ne_zero.2 hzero⟩ hguard

/-- A peer that is back reports. -/
theorem Recovered.sync (h : Recovered peer myPeerId done g)
    (hids : ∀ i, (peer i).peerId ≠ myPeerId)
    (hinj : Function.Injective fun i => (peer i).peerId) {i : ι} (hnew : .sync i ∉ done)
    (hadded : .add i ∈ done) (hbefore : ∀ j, .sync j ∈ done → .add j ∈ done) (nowMs : UInt64) :
    Recovered peer myPeerId (done ++ [.sync i])
      (g.syncRouteInfo myPeerId prost (peer i).peerId (peer i).request nowMs).2 := by
  obtain ⟨howner, hwritten⟩ := syncRouteInfo_owner (hids i) g prost (peer i).request nowMs
  have hunheard : ∀ j, .sync j ∈ done → (peer j).peerId ≠ (peer i).peerId := by
    intro j hj heq
    exact hnew (hinj heq ▸ hj)
  have hinfos := infoWrites_returning (peer i) nowMs (h.noInfo _ hunheard)
  -- Whoever has an info was added before.
  have hknown : ∀ q, (g.Present myPeerId q ∨
      q = (peer i).peerId ∧ g.infoWrites (peer i).peerId (peer i).request nowMs ≠ []) ↔
      q = myPeerId ∨ q ∈ addedIds peer done := by
    intro q
    unfold Present
    rw [h.peers]
    constructor
    · rintro ((hmine | hmem | hinfo) | ⟨rfl, -⟩)
      · exact .inl hmine
      · exact .inr hmem
      · refine .inr (by_contra fun hnot => ?_)
        rw [h.noInfo q fun j hj heq => hnot (mem_addedIds.2 ⟨j, hbefore j hj, heq⟩)] at hinfo
        simp at hinfo
      · exact .inr (mem_addedIds.2 ⟨i, hadded, rfl⟩)
    · rintro (hmine | hmem)
      · exact .inl (.inl hmine)
      · exact .inl (.inr (.inl hmem))
  have hrows := rowWrites_returning (peer i) nowMs (h.noRow _ (hids i) hunheard) hknown
  have hsync : ∀ j, .sync j ∈ done ++ [.sync i] → j = i ∨ .sync j ∈ done := by
    intro j hj
    rcases List.mem_append.1 hj with hj | hj
    · exact .inr hj
    · exact .inl (RecoveryStep.sync.inj (List.mem_singleton.1 hj))
  refine ⟨fun pid => ?_, fun j hj => ?_, fun pid hpid => ?_, fun j hj => ?_, fun pid hmine hpid => ?_⟩
  · rw [howner.peers, h.peers, mem_addedIds, mem_addedIds]
    simp
  · rcases hsync j hj with rfl | hj
    · refine ⟨nowMs, ?_⟩
      rw [hwritten.info, hinfos]
      rfl
    · rw [howner.peerInfos _ (hunheard j hj)]
      exact h.info j hj
  · rw [howner.peerInfos pid fun heq => hpid i (by simp) heq.symm]
    exact h.noInfo pid fun j hj => hpid j (List.mem_append_left _ hj)
  · rcases hsync j hj with rfl | hj
    · rw [hwritten.row, hrows, recoveredRow, RecoveryStep.beforeSync_snoc hnew]
      split_ifs
      · exact h.noRow _ (hids j) hunheard
      · rfl
    · rw [howner.connRows _ (hunheard j hj), recoveredRow_append hj]
      exact h.row j hj
  · rw [howner.connRows pid fun heq => hpid i (by simp) heq.symm]
    exact h.noRow pid hmine fun j hj => hpid j (List.mem_append_left _ hj)

variable (peer)

/-- The routes of a restarted relay, after steps at these times. -/
def recover (network : String) (myPeerId : PeerId)
    (steps : List (RecoveryStep ι × UInt64 × GroupDraws)) : RouteState :=
  (routeState prost myPeerId).run (.new myPeerId)
    (steps.map fun (step, nowMs, draws) => step.op peer network nowMs draws)

variable {peer}

/-- The routes after steps in an order in which every peer is added before it reports. -/
theorem recovered (network : String) (hids : ∀ i, (peer i).peerId ≠ myPeerId)
    (hinj : Function.Injective fun i => (peer i).peerId)
    (steps : List (RecoveryStep ι × UInt64 × GroupDraws))
    (hsteps : RecoveryStep.Ordered (steps.map Prod.fst)) :
    (recover peer network myPeerId steps).myPeerId = myPeerId ∧
      ∀ draws, Recovered peer myPeerId (steps.map Prod.fst)
        ((recover peer network myPeerId steps).ensureGroup network draws) := by
  induction steps using List.reverseRecOn with
  | nil => exact ⟨rfl, fun draws => .new _ draws⟩
  | append_singleton steps timed ih =>
    obtain ⟨step, nowMs, draws⟩ := timed
    rw [List.map_append, List.map_singleton] at hsteps ⊢
    obtain ⟨hbefore, hnew, hadded⟩ := hsteps.of_snoc
    obtain ⟨hid, hgroup⟩ := ih hbefore
    have hrun : recover peer network myPeerId (steps ++ [(step, nowMs, draws)]) =
        ((recover peer network myPeerId steps).step prost (step.op peer network nowMs draws)).1 := by
      rw [recover, List.map_append, List.map_singleton, Machine.run_snoc]
      rfl
    rw [hrun]
    refine ⟨(RouteState.myPeerId_step prost _ _).trans hid, fun draws' => ?_⟩
    cases step with
    | add i =>
      unfold RecoveryStep.op
      dsimp only
      rw [RouteState.step_add prost _ network _ (peer i).publicKey_valid,
        RouteState.ensureGroup_withGroup, hid]
      exact (hgroup draws).add hids i nowMs
    | sync i =>
      unfold RecoveryStep.op
      dsimp only
      rw [← (peer i).myPeerId_request, RouteState.step_sync prost _ network (peer i).decode_request,
        RouteState.ensureGroup_withGroup, hid, (peer i).myPeerId_request]
      exact (hgroup draws).sync hids hinj hnew (hadded i rfl) (fun j hj => hbefore.add_mem hj) nowMs

/-- Two groups have the same members, the same infos but for the times they were received
    at, and the same rows of the peers. -/
structure SameRoutes (peer : ι → Returning prost) (g g' : RouteGroupData) : Prop where
  peers : g'.peers = g.peers
  infos : ∀ pid, (g'.peerInfos.lookup pid).map (fun info => { info with lastUpdate := none }) =
    (g.peerInfos.lookup pid).map fun info => { info with lastUpdate := none }
  rows : ∀ i, g'.connRows.lookup (peer i).peerId = g.connRows.lookup (peer i).peerId

/-- All the steps of the peers, in an order in which every peer is added before it reports. -/
def RecoveryStep.Complete (steps : List (RecoveryStep ι)) : Prop :=
  Ordered steps ∧ ∀ step, step ∈ steps

omit [DecidableEq ι] in
theorem mem_addedIds_iff (hinj : Function.Injective fun i => (peer i).peerId) {j : ι}
    {steps : List (RecoveryStep ι)} : (peer j).peerId ∈ addedIds peer steps ↔ .add j ∈ steps := by
  rw [mem_addedIds]
  constructor
  · rintro ⟨k, hk, heq⟩
    exact hinj heq ▸ hk
  · exact fun hj => ⟨j, hj, rfl⟩

/-- The rows that two orders leave a peer are the same just when the neighbours that are
    added before it reports are. -/
theorem recoveredRow_eq_iff (hids : ∀ i, (peer i).peerId ≠ myPeerId)
    (hinj : Function.Injective fun i => (peer i).peerId) (steps steps' : List (RecoveryStep ι))
    (i : ι) :
    recoveredRow peer myPeerId steps' i = recoveredRow peer myPeerId steps i ↔
      ((peer i).version ≠ 0 → ∀ j, (peer j).peerId ∈ (peer i).connected →
        (.add j ∈ RecoveryStep.beforeSync steps i ↔ .add j ∈ RecoveryStep.beforeSync steps' i)) := by
  unfold recoveredRow
  by_cases hzero : (peer i).version = 0
  · rw [if_pos hzero, if_pos hzero]
    exact ⟨fun _ hne => absurd hzero hne, fun _ => rfl⟩
  · rw [if_neg hzero, if_neg hzero, Option.some.injEq, ConnRow.mk.injEq, Finset.filter_inj']
    constructor
    · rintro ⟨-, hset⟩ - j hj
      have hiff := hset hj
      rw [or_iff_right (hids j), or_iff_right (hids j), mem_addedIds_iff hinj,
        mem_addedIds_iff hinj] at hiff
      exact hiff.symm
    · intro hsame
      refine ⟨rfl, fun q hq => or_congr_right ?_⟩
      rw [mem_addedIds, mem_addedIds]
      constructor
      · rintro ⟨j, hj, rfl⟩
        exact ⟨j, (hsame hzero j hq).2 hj, rfl⟩
      · rintro ⟨j, hj, rfl⟩
        exact ⟨j, (hsame hzero j hq).1 hj, rfl⟩

/-- Two orders in which the peers come back lead to the same routes just when they agree on
    which of the neighbours of a peer are added before the peer reports. -/
theorem recovery_same_iff (network : String) (hids : ∀ i, (peer i).peerId ≠ myPeerId)
    (hinj : Function.Injective fun i => (peer i).peerId)
    {σ σ' : List (RecoveryStep ι × UInt64 × GroupDraws)}
    (hσ : RecoveryStep.Complete (σ.map Prod.fst)) (hσ' : RecoveryStep.Complete (σ'.map Prod.fst))
    (draws : GroupDraws) :
    SameRoutes peer ((recover peer network myPeerId σ).ensureGroup network draws)
        ((recover peer network myPeerId σ').ensureGroup network draws) ↔
      ∀ i, (peer i).version ≠ 0 → ∀ j, (peer j).peerId ∈ (peer i).connected →
        (.add j ∈ RecoveryStep.beforeSync (σ.map Prod.fst) i ↔
          .add j ∈ RecoveryStep.beforeSync (σ'.map Prod.fst) i) := by
  have h := (recovered network hids hinj σ hσ.1).2 draws
  have h' := (recovered network hids hinj σ' hσ'.1).2 draws
  generalize (recover peer network myPeerId σ).ensureGroup network draws = g at h
  generalize (recover peer network myPeerId σ').ensureGroup network draws = g' at h'
  have hrow : ∀ i, g'.connRows.lookup (peer i).peerId = g.connRows.lookup (peer i).peerId ↔
      ((peer i).version ≠ 0 → ∀ j, (peer j).peerId ∈ (peer i).connected →
        (.add j ∈ RecoveryStep.beforeSync (σ.map Prod.fst) i ↔
          .add j ∈ RecoveryStep.beforeSync (σ'.map Prod.fst) i)) := by
    intro i
    rw [h.row i (hσ.2 _), h'.row i (hσ'.2 _)]
    exact recoveredRow_eq_iff hids hinj _ _ i
  refine ⟨fun hsame i => (hrow i).1 (hsame.rows i), fun hagree => ⟨?_, fun pid => ?_, fun i =>
    (hrow i).2 (hagree i)⟩⟩
  · ext pid
    rw [h.peers, h'.peers, mem_addedIds, mem_addedIds]
    simp only [hσ.2, hσ'.2]
  · by_cases hpid : ∃ i, (peer i).peerId = pid
    · -- The same info, received at two times.
      obtain ⟨i, rfl⟩ := hpid
      obtain ⟨t, hinfo⟩ := h.info i (hσ.2 _)
      obtain ⟨t', hinfo'⟩ := h'.info i (hσ'.2 _)
      rw [hinfo, hinfo']
      rfl
    · rw [not_exists] at hpid
      rw [h.noInfo pid fun i _ => hpid i, h'.noInfo pid fun i _ => hpid i]

end Recovery

namespace RecoverySample

open RoutesSample RecoveryStep

/-- Two peers that are neighbours, of each other and of the relay. -/
def reports : Bool → SyncRouteInfoRequest
  | false => report 1 1 [row 1 5 [2, relay]]
  | true => report 2 1 [row 2 3 [1, relay]]

def prost : Prost := Prost.listed [] [] [] [reports false, reports true] []

def peer (i : Bool) : Returning prost where
  peerId := (reports i).myPeerId
  publicKey := []
  publicKey_valid := .inl rfl
  requestBytes := Encoding.syncRouteInfoRequest (reports i)
  request := reports i
  decode_request := by
    cases i with
    | false => exact @Encoding.decodeListed_encode _ _ [] [reports true] (reports false) (by simp)
    | true =>
      refine @Encoding.decodeListed_encode _ _ [reports false] [] (reports true) ?_
      decide +kernel
  myPeerId_request := rfl
  info := ((reports i).peerInfos.getD []).headD {}
  infos_request := by cases i <;> decide +kernel
  version := if i then 3 else 5
  connected := if i then {1, relay} else {2, relay}
  rows_request := by cases i <;> decide +kernel

/-- Steps one second after another. -/
def timed (steps : List (RecoveryStep Bool)) : List (RecoveryStep Bool × UInt64 × GroupDraws) :=
  steps.zipIdx.map fun (step, n) => (step, 1000 * n.toUInt64, draws)

theorem ids_ne : ∀ i, (peer i).peerId ≠ relay := by decide +kernel

theorem ids_injective : Function.Injective fun i => (peer i).peerId := by
  intro i j
  revert i j
  decide +kernel

theorem complete_iff (steps : List (RecoveryStep Bool)) :
    Complete ((timed steps).map Prod.fst) ↔ Ordered ((timed steps).map Prod.fst) ∧
      (∀ i, add i ∈ (timed steps).map Prod.fst) ∧ ∀ i, sync i ∈ (timed steps).map Prod.fst := by
  refine and_congr_right fun _ => ⟨fun h => ⟨fun i => h _, fun i => h _⟩, fun h step => ?_⟩
  cases step with
  | add i => exact h.1 i
  | sync i => exact h.2 i

/-- Both peers are added before either of them reports. -/
theorem recovery_same_iff_added_first :
    Complete ((timed [add false, add true, sync false, sync true]).map Prod.fst) ∧
      Complete ((timed [add true, add false, sync true, sync false]).map Prod.fst) ∧
      SameRoutes peer
        ((recover peer "net" relay
          (timed [add false, add true, sync false, sync true])).ensureGroup "net" draws)
        ((recover peer "net" relay
          (timed [add true, add false, sync true, sync false])).ensureGroup "net" draws) := by
  have h : Complete ((timed [add false, add true, sync false, sync true]).map Prod.fst) :=
    (complete_iff _).2 (by decide +kernel)
  have h' : Complete ((timed [add true, add false, sync true, sync false]).map Prod.fst) :=
    (complete_iff _).2 (by decide +kernel)
  exact ⟨h, h', (recovery_same_iff "net" ids_ne ids_injective h h' draws).2 (by decide +kernel)⟩

/-- When a peer reports before its neighbour is back, the neighbour is lost. -/
theorem recovery_same_fails :
    (∀ i, (peer i).peerId ≠ relay) ∧ (Function.Injective fun i => (peer i).peerId) ∧
      Complete ((timed [add false, add true, sync false, sync true]).map Prod.fst) ∧
      Complete ((timed [add false, sync false, add true, sync true]).map Prod.fst) ∧
      ¬ SameRoutes peer
        ((recover peer "net" relay
          (timed [add false, add true, sync false, sync true])).ensureGroup "net" draws)
        ((recover peer "net" relay
          (timed [add false, sync false, add true, sync true])).ensureGroup "net" draws) := by
  refine ⟨ids_ne, ids_injective, (complete_iff _).2 (by decide +kernel),
    (complete_iff _).2 (by decide +kernel), fun h => ?_⟩
  have hrow := h.rows false
  revert hrow
  decide +kernel

end RecoverySample

end EasyTierEdge
