import EasyTierEdge.Host.Synced

/-!
# No announced change is lost

Between any two events of a run the two layers agree on the route updates (`UpdatesAgree`). A change
that is announced while an update is in flight is remembered until that update completes or times
out, and an update with the change is built in that very event, unless the connection is closed
(`Rebuilds`). An update that was not answered in time is given up by the next maintenance.
-/

namespace EasyTierEdge

namespace Host

variable {HS : Type} {config : ServerConfig} {crates : HostCrates HS}

/-! ## What is owed to a connection -/

/-- What was announced is not forgotten. -/
structure RouteSyncState.Remembers (new old : RouteSyncState) : Prop where
  dirty : old.dirty = true → new.dirty = true
  forceFull : old.forceFull = true → new.forceFull = true

/-- The same update is in flight. -/
structure RouteSyncState.Continues (new old : RouteSyncState) : Prop where
  inFlight : new.inFlight = true
  sentAt : new.sentAt = old.sentAt
  lastCompletedAt : new.lastCompletedAt = old.lastCompletedAt

/-- Among the effects an update is built with what was announced. -/
def BuiltFor (c : ConnId) (old : RouteSyncState) (es : List Effect) : Prop :=
  ∃ forceFull, .built c forceFull ∈ es ∧ (old.forceFull = true → forceFull = true)

/-- A change that was announced while an update was in flight, in the state `old`, is remembered
    until that update is completed or given up. -/
def Remembered (c : ConnId) (old : RouteSyncState) (t : Stage) (s : HostState HS) : Prop :=
  ∃ state, s.syncState c = some state ∧ state.Remembers old ∧
    (t.flushing = some c ∨ state.Continues old)

/-- A step of the updates of another connection. -/
theorem Remembered.other {c d : ConnId} {old : RouteSyncState} {t t' : Stage} {s s' : HostState HS}
    (h : Remembered c old t s) (hdc : c ≠ d) (hflushing : ∀ e, t.flushing = some e → e = d)
    (hstate : s'.syncState c = s.syncState c) : Remembered c old t' s' := by
  obtain ⟨state, hs, hrem, hflight⟩ := h
  exact ⟨state, hstate.trans hs, hrem, .inr (hflight.resolve_left fun hf => hdc (hflushing c hf))⟩

/-- Since the history `start`, when a change was owed to a connection, it was built, or is still
    remembered, which only counts if it may wait (`waits`). -/
def Owed (c : ConnId) (old : RouteSyncState) (start : List Effect) (waits : Prop) (t : Stage)
    (s : HostState HS) : Prop :=
  ∃ es, s.trace = start ++ es ∧ (s.departed c ∨
    s.ready c ∧ (c ∈ t.doomed ∨ BuiltFor c old es ∨ waits ∧ Remembered c old t s))

namespace Owed

variable {c : ConnId} {old : RouteSyncState} {start : List Effect} {waits : Prop} {t t' : Stage}
  {s s' : HostState HS}

/-- A step after which what was remembered is built, or remembered. -/
theorem mono (h : Owed c old start waits t s) (es : List Effect) (htrace : s'.trace = s.trace ++ es)
    (hdeparted : s.departed c → s'.departed c) (hready : s.ready c → s'.ready c ∨ s'.departed c)
    (hdoomed : s.ready c → s'.ready c → c ∈ t.doomed → c ∈ t'.doomed)
    (hremembered : s.ready c → s'.ready c → Remembered c old t s →
      c ∈ t'.doomed ∨ BuiltFor c old es ∨ Remembered c old t' s') : Owed c old start waits t' s' := by
  obtain ⟨es', htrace', h⟩ := h
  refine ⟨es' ++ es, by rw [htrace, htrace', List.append_assoc], ?_⟩
  have hbuilt : ∀ es'', BuiltFor c old es'' → (∀ e ∈ es'', e ∈ es' ++ es) →
      BuiltFor c old (es' ++ es) := fun es'' ⟨forceFull, hmem, hfull⟩ hsub =>
    ⟨forceFull, hsub _ hmem, hfull⟩
  rcases h with hd | ⟨hr, h⟩
  · exact .inl (hdeparted hd)
  · rcases hready hr with hr' | hd
    swap
    · exact .inl hd
    refine .inr ⟨hr', ?_⟩
    rcases h with hmem | hold | ⟨hwaits, hrem⟩
    · exact .inl (hdoomed hr hr' hmem)
    · exact .inr (.inl (hbuilt _ hold fun e he => List.mem_append_left _ he))
    · refine (hremembered hr hr' hrem).imp_right (Or.imp (fun hnew => ?_) fun hrem' => ⟨hwaits, hrem'⟩)
      exact hbuilt _ hnew fun e he => List.mem_append_right _ he

/-- A step that leaves the connections, and the updates of this one. -/
theorem same (h : Owed c old start waits t s) (es : List Effect) (htrace : s'.trace = s.trace ++ es)
    (hconns : s'.conns = s.conns) (hdoomed : t.doomed ⊆ t'.doomed)
    (hremembered : s.ready c → Remembered c old t s →
      c ∈ t'.doomed ∨ BuiltFor c old es ∨ Remembered c old t' s') : Owed c old start waits t' s' := by
  have hconn : s'.conn = s.conn := by
    funext d
    rw [HostState.conn, hconns, HostState.conn]
  have hready : s'.ready c ↔ s.ready c := by rw [HostState.ready, hconn, HostState.ready]
  refine h.mono es htrace (fun hd => ?_) (fun hr => .inl (hready.2 hr))
    (fun _ _ hmem => hdoomed hmem) fun hr _ => hremembered hr
  rw [HostState.departed, HostState.closed, hconn, hconns]
  exact hd

/-- Every step leaves what is owed, or builds it. -/
theorem step (hwanted : (old.dirty || old.forceFull) = true) {a b : Stage × HostState HS}
    (hstep : Step config crates a b) (hregistry : Registry a.1 a.2)
    (h : Owed c old start waits a.1 a.2) : Owed c old start waits b.1 b.2 := by
  cases hstep.syncs hregistry with
  | aside hab =>
    obtain ⟨es, htrace, -⟩ := hab.trace
    refine h.mono es htrace (hab.departed c) (hab.ready_or_departed c)
      (fun _ => hab.doomed c) ?_
    rintro - hr ⟨state, hstate, hrem, hflight⟩
    refine .inr (.inr ⟨state, (hab.syncState c hr).trans hstate, hrem, hflight.imp_left fun hf => ?_⟩)
    rw [hab.flushing]
    exact hf
  | @completed t s d hd =>
    let complete : Connection → Connection := fun conn =>
      { conn with handshakeTimer := false, phase := .ready }
    have hother : ∀ e ≠ d, (s.modifyConn d complete).conn e = s.conn e := fun e he =>
      s.conn_modifyConn_of_ne he complete
    have hlength : (s.modifyConn d complete).conns.length = s.conns.length := List.length_modify ..
    have hready : s.ready c → c ≠ d := by
      rintro hc rfl
      exact hd.not_ready hc
    refine h.mono [] (List.append_nil _).symm (fun hc => ⟨?_, hc.2.trans_eq hlength.symm⟩)
      (fun hc => .inl ?_) (fun hc _ hmem => ⟨hmem, hready hc⟩) fun hc _ hrem => .inr (.inr ?_)
    · have hcd : c ≠ d := by
        rintro rfl
        exact hd.not_closed hc.1
      exact (congrArg Connection.phase (hother c hcd)).trans hc.1
    · exact (congrArg Connection.phase (hother c (hready hc))).trans hc
    · obtain ⟨state, hs, hrest⟩ := hrem
      refine ⟨state, ?_, hrest⟩
      have hconn := hother c (hready hc)
      change s.routeSyncStates.get (((s.modifyConn d complete).conn c).networkName,
        ((s.modifyConn d complete).conn c).peerId) = some state
      rw [hconn]
      exact hs
  | @announced t s d forceFull hd hflushing =>
    refine h.same [.announced d forceFull] rfl rfl Set.Subset.rfl fun hc hrem => .inr (.inr ?_)
    by_cases hcd : c = d
    · subst hcd
      obtain ⟨state, hs, hrem, hflight⟩ := hrem
      have hcontinues := hflight.resolve_left fun hf => by cases hflushing.symm.trans hf
      refine ⟨_, (JsMap.get_set ..).trans (if_pos rfl), ⟨fun _ => rfl, fun hfull => ?_⟩, .inr ?_⟩
      · have hstate : s.routeSyncStates.get (s.routeSyncKey c) = some state := hs
        rw [hstate, Option.getD_some, hrem.forceFull hfull]
        rfl
      · have hstate : s.routeSyncStates.get (s.routeSyncKey c) = some state := hs
        rw [hstate]
        exact ⟨hcontinues.inFlight, hcontinues.sentAt, hcontinues.lastCompletedAt⟩
    · refine hrem.other hcd (fun e he => by cases hflushing.symm.trans he) ?_
      exact (JsMap.get_set ..).trans (if_neg fun hkey => hcd (hregistry.eq_of_ready hc hd hkey))
  | @rebuilt t s d state a now packet hflushing hd hpeer hstate hnow hok =>
    rcases s.rebuild_cases crates (s.routeSyncKey d) state now a with ⟨e, -, heq⟩ | ⟨_, -, heq⟩
    · rw [heq] at hok
      cases hok
    rw [heq]
    refine h.same [.built state.peer state.forceFull] rfl rfl Set.Subset.rfl fun hc hrem => .inr ?_
    by_cases hcd : c = d
    · subst hcd
      obtain ⟨state', hs, hrem, -⟩ := hrem
      obtain rfl := Option.some.inj (hstate.symm.trans hs)
      exact .inl ⟨state.forceFull, by rw [hpeer]; exact List.mem_singleton_self _, hrem.forceFull⟩
    · refine .inr (hrem.other hcd (fun e he => Option.some.inj (he.symm.trans hflushing)) ?_)
      exact s.syncState_modifySync_of_ne hregistry hd hc hcd (·.launch now)
  | @unbuilt t s d state a now e hflushing hd hpeer herror =>
    rcases s.rebuild_cases crates (s.routeSyncKey d) state now a with ⟨e, -, heq⟩ | ⟨_, -, heq⟩
    swap
    · rw [heq] at herror
      cases herror
    rw [heq]
    refine h.same [] (List.append_nil _).symm rfl (Set.subset_insert _ _) fun hc hrem => ?_
    by_cases hcd : c = d
    · exact .inl (hcd ▸ Set.mem_insert _ _)
    · exact .inr (.inr (hrem.other hcd (fun e he => Option.some.inj (he.symm.trans hflushing)) rfl))
  | @unsent t s d forceFull hd hflushing =>
    refine h.same [] (List.append_nil _).symm rfl (Set.subset_insert _ _) fun hc hrem => ?_
    by_cases hcd : c = d
    · exact .inl (hcd ▸ Set.mem_insert _ _)
    · refine .inr (.inr (hrem.other hcd (fun e he => by cases hflushing.symm.trans he) ?_))
      exact s.syncState_modifySync_of_ne hregistry hd hc hcd _
  | @responded t s d payload a hd hflushing =>
    refine h.same [] (List.append_nil _).symm rfl Set.Subset.rfl fun hc hrem => .inr (.inr ?_)
    obtain ⟨state, hs, hrem, hflight⟩ := hrem
    exact ⟨state, hs, hrem, .inr (hflight.resolve_left fun hf => by cases hflushing.symm.trans hf)⟩
  | @settled t s d state now hflushing hd hstate =>
    refine h.same [] (List.append_nil _).symm rfl Set.Subset.rfl fun hc hrem => .inr (.inr ?_)
    by_cases hcd : c = d
    · -- The update is complete, but not all that was announced was sent.
      subst hcd
      obtain ⟨state', hs, hrem, -⟩ := hrem
      obtain rfl := Option.some.inj (hstate.symm.trans hs)
      have hmore : (state.dirty || state.forceFull) = true := by
        rw [Bool.or_eq_true] at hwanted ⊢
        exact hwanted.imp hrem.dirty hrem.forceFull
      refine ⟨{ state with inFlight := false, sentAt := 0, lastCompletedAt := now }, ?_,
        ⟨hrem.dirty, hrem.forceFull⟩, .inl (if_pos hmore)⟩
      rw [HostState.settle, HostState.syncState_modifySync, hs]
      rfl
    · refine hrem.other hcd (fun e he => Option.some.inj (he.symm.trans hflushing)) ?_
      exact s.syncState_modifySync_of_ne hregistry hd hc hcd _
  | @unsettled t s d hflushing hstate =>
    refine h.same [] (List.append_nil _).symm rfl Set.Subset.rfl fun hc hrem => .inr (.inr ?_)
    by_cases hcd : c = d
    · subst hcd
      obtain ⟨state, hs, -⟩ := hrem
      cases hstate.symm.trans hs
    · exact hrem.other hcd (fun e he => Option.some.inj (he.symm.trans hflushing)) rfl
  | @expired t s key state now hflushing hstate =>
    obtain ⟨hd, rfl⟩ := hregistry.sync key state hstate
    refine h.same [] (List.append_nil _).symm rfl Set.Subset.rfl fun hc hrem => .inr (.inr ?_)
    by_cases hcd : c = state.peer
    · subst hcd
      refine ⟨{ state with inFlight := false, dirty := true, forceFull := true }, ?_,
        ⟨fun _ => rfl, fun _ => rfl⟩, .inl rfl⟩
      have hs : s.syncState state.peer = some state := hstate
      rw [HostState.expire, HostState.syncState_modifySync, hs]
      rfl
    · refine hrem.other hcd (fun e he => by cases hflushing.symm.trans he) ?_
      exact s.syncState_modifySync_of_ne hregistry hd hc hcd _

/-- What is owed stays so on a path. -/
theorem path (hwanted : (old.dirty || old.forceFull) = true) {a b : Stage × HostState HS}
    (hpath : Relation.ReflTransGen (Step config crates) a b) (hregistry : Registry a.1 a.2)
    (h : Owed c old start waits a.1 a.2) : Registry b.1 b.2 ∧ Owed c old start waits b.1 b.2 := by
  induction hpath with
  | refl => exact ⟨hregistry, h⟩
  | tail _ hlast ih => exact ⟨ih.1.step hlast, ih.2.step hwanted hlast ih.1⟩

end Owed

/-! ## Runs -/

/-- The two layers agree on the updates of the ready connections. -/
structure UpdatesAgree (crates : HostCrates HS) (s : HostState HS) : Prop where
  inStep : ∀ c, s.ready c → InStep s c
  /-- A response only completes the update in flight, in time, and leaves no transaction. -/
  completes : ∀ c payload (a : Ambient), s.ready c →
    (s.handleResponse crates c payload a).1 = .ok true →
    ∃ state key o, s.syncState c = some state ∧ state.inFlight = true ∧ s.transaction c key o ∧
      (a.now : ℕ) ≤ state.sentAt + routeSyncTimeoutMs ∧
      ∀ key o, ¬(s.handleResponse crates c payload a).2.transaction c key o
  /-- What was announced since the last update was built is remembered behind that update. -/
  wanted : ∀ c forceFull, s.ready c → s.wanted c = some forceFull →
    ∃ state, s.syncState c = some state ∧ state.inFlight = true ∧ state.dirty = true ∧
      (forceFull = true → state.forceFull = true)
  carried : Carried s.trace

/-- In an event, the connection is closed, or an update is built for it with what was announced. -/
def Rebuilt (c : ConnId) (old : RouteSyncState) (s s' : HostState HS) : Prop :=
  s'.closed c ∨ ∃ es, s'.trace = s.trace ++ es ∧ BuiltFor c old es

/-- What an event makes of a change that was announced to `c` while an update was in flight, in the
    state `old`. -/
structure ChangeKept (input : ServerEvent × (ℕ → Ambient)) (c : ConnId) (old : RouteSyncState)
    (s s' : HostState HS) : Prop where
  /-- An update with the change is built, unless the one in flight is neither completed nor given
      up. -/
  kept : Rebuilt c old s s' ∨
    ∃ state, s'.syncState c = some state ∧ state.Continues old ∧ state.Remembers old
  /-- The maintenance gives up an update that was not answered in time. -/
  timeout : input.1 = .maintenance → s.maintenanceTimer = true →
    (routeSyncTimeoutMs : ℤ) < ((input.2 0).now : ℤ) - old.sentAt → Rebuilt c old s s'

/-- No event loses a change. -/
def ChangesKept (input : ServerEvent × (ℕ → Ambient)) (s s' : HostState HS) : Prop :=
  ∀ c old, s.ready c → s.syncState c = some old → old.inFlight = true →
    (old.dirty || old.forceFull) = true → ChangeKept input c old s s'

theorem Synced.updatesAgree {s : HostState HS} (h : Synced .idle s) : UpdatesAgree crates s := by
  have hinStep : ∀ c, s.ready c → InStep s c := fun c hc =>
    h.inStep c hc (fun hd => hd.elim) fun hf => by cases hf
  refine ⟨hinStep, fun c payload a hc hok => ?_, fun c forceFull hc hw => ?_, h.carried⟩
  · obtain ⟨state, key, o, hs, hsent, htransaction, hintime, hnone⟩ := (hinStep c hc).completes hok
    refine ⟨state, key, o, hs, hsent, htransaction, ?_, hnone⟩
    have hdeadline := ((hinStep c hc).inFlight state hs hsent).1 key o htransaction
    have hle := UInt64.le_iff_toNat_le.1 hintime
    have htoNat : a.nowMs.toNat = a.now := UInt64.toNat_ofNat_of_lt' (by
      have hlt := a.now.is_lt
      change (a.now : ℕ) < 2 ^ 64
      omega)
    rw [htoNat, hdeadline] at hle
    exact hle
  · obtain ⟨state, hs, hdirty, hfull⟩ := h.wanted c forceFull hc hw
    refine ⟨state, hs, ?_, hdirty, hfull⟩
    -- When no update is in flight, nothing is left to be sent.
    by_contra hnot
    have hclean := ((hinStep c hc).idle state hs (Bool.not_eq_true _ ▸ hnot)).1
    cases hdirty.symm.trans hclean

/-- What was owed in an event is paid, or may wait. -/
theorem Owed.rebuilt {c : ConnId} {old : RouteSyncState} {waits : Prop} {s s' : HostState HS}
    (h : Owed c old s.trace waits .idle s') : Rebuilt c old s s' ∨ waits ∧
      ∃ state, s'.syncState c = some state ∧ state.Continues old ∧ state.Remembers old := by
  obtain ⟨es, htrace, hd | ⟨-, hmem | hbuilt | ⟨hwaits, state, hs, hrem, hflight⟩⟩⟩ := h
  · exact .inl (.inl hd.1)
  · exact hmem.elim
  · exact .inl (.inr ⟨es, htrace, hbuilt⟩)
  · exact .inr ⟨hwaits, state, hs, hflight.resolve_left fun hf => (by cases hf), hrem⟩

/-- An overdue update does not wait any longer. -/
theorem Owed.overdue {c : ConnId} {old : RouteSyncState} {start : List Effect} {now : ℕ} {t : Stage}
    {s : HostState HS} (h : Owed c old start True t s) (hflushing : t.flushing = none)
    (hoverdue : Overdue now [] s)
    (hlate : (routeSyncTimeoutMs : ℤ) < (now : ℤ) - old.sentAt) : Owed c old start False t s := by
  obtain ⟨es, htrace, hd | ⟨hr, hmem | hbuilt | ⟨-, state, hs, -, hflight⟩⟩⟩ := h
  · exact ⟨es, htrace, .inl hd⟩
  · exact ⟨es, htrace, .inr ⟨hr, .inl hmem⟩⟩
  · exact ⟨es, htrace, .inr ⟨hr, .inr (.inl hbuilt)⟩⟩
  · have hcontinues := hflight.resolve_left fun hf => by cases hflushing.symm.trans hf
    have hmem := hoverdue _ state hs hcontinues.inFlight (by rwa [hcontinues.sentAt])
    exact absurd hmem List.not_mem_nil

theorem changesKept_of_event {s : HostState HS} (hregistry : Registry .idle s)
    (hhandshakes : Handshakes config crates .idle s) (input : ServerEvent × (ℕ → Ambient)) :
    ChangesKept input s ((server config crates).step s input).1 := by
  intro c old hc hs hsent hwanted
  have hstart : Owed c old s.trace True .idle s := ⟨[], (List.append_nil _).symm,
    .inr ⟨hc, .inr (.inr ⟨trivial, old, hs, ⟨id, id⟩, .inr ⟨hsent, rfl, rfl⟩⟩)⟩⟩
  obtain ⟨hpath, -, -⟩ := path_of_event hregistry hhandshakes input
  have hend := (hstart.path hwanted hpath hregistry).2.rebuilt
  refine ⟨hend.imp_right And.right, fun hmaintenance htimer hlate => ?_⟩
  obtain ⟨e, ambient⟩ := input
  obtain rfl : e = .maintenance := hmaintenance
  -- From the end of the sweep on, the update that was in flight does not count any more.
  obtain ⟨m, hbefore, hflushing, hoverdue, hafter⟩ :=
    @swept_of_event _ config crates _ hregistry htimer ambient
  obtain ⟨hregistry', hswept⟩ := hstart.path hwanted hbefore hregistry
  have hpaid := (hswept.overdue hflushing hoverdue hlate).path hwanted hafter hregistry'
  exact hpaid.2.rebuilt.resolve_right fun hwaits => hwaits.1

/-- Between any two events of a run the two layers agree on the updates, and no event loses a
    change. -/
theorem updates_agree (inputs : List (ServerEvent × (ℕ → Ambient)))
    (input : ServerEvent × (ℕ → Ambient)) :
    let s : HostState HS := (server config crates).run (.init config) inputs
    UpdatesAgree crates s ∧ ChangesKept input s ((server config crates).step s input).1 := by
  intro s
  obtain ⟨hregistry, hhandshakes, hsynced⟩ := Reachable.of_step config crates
    (P := fun a => Synced a.1 a.2) (Synced.init config)
    (fun a b hstep hregistry h => h.step hstep hregistry) (s := s) ⟨inputs, rfl⟩
  exact ⟨hsynced.updatesAgree, changesKept_of_event hregistry hhandshakes input⟩

end Host

end EasyTierEdge
