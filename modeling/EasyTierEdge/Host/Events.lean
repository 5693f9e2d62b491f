import EasyTierEdge.Host.Messages

/-!
# Events

Every event of the server is a path of steps from one state in which nothing is unfinished to
another (`path_of_event`), and no event throws. The maintenance closes the connections of the
peers that the core reports as silent, and of those whose update can neither be built nor sent.
-/

namespace EasyTierEdge

namespace Host

variable {HS : Type} {config : ServerConfig} {crates : HostCrates HS}

/-! ## Maintenance -/

/-- The failure that closes a connection. -/
def HostState.failureOf (s : HostState HS) (c : ConnId) : RouteSyncFailure :=
  ⟨(s.conn c).networkName, (s.conn c).peerId.toNat⟩

theorem Undisturbed.failureOf {a b : Stage × HostState HS} (hab : Undisturbed a b) (d : ConnId) :
    b.2.failureOf d = a.2.failureOf d := by
  obtain ⟨hname, hpeer⟩ := Prod.mk.inj (hab.key d)
  rw [HostState.failureOf, hname, hpeer, HostState.failureOf]

/-- The connections that are to be closed are ready, and among the failures. -/
def ToClose (failures : List RouteSyncFailure) (doomed : Set ConnId) (s : HostState HS) : Prop :=
  ∀ d ∈ doomed, s.closed d ∨ s.ready d ∧ s.failureOf d ∈ failures

/-- Closings and route updates leave nothing more to be closed. -/
theorem Undisturbed.toClose {failures : List RouteSyncFailure} {doomed : Set ConnId}
    {a b : Stage × HostState HS} (hab : Undisturbed a b) (h : ToClose failures doomed a.2) :
    ToClose failures doomed b.2 := by
  intro d hd
  rcases h d hd with hclosed | ⟨hready, hmem⟩
  · exact .inl (hab.closed hclosed)
  · refine (hab.ready_or_closed hready).symm.imp_right fun hb => ⟨hb, ?_⟩
    rwa [hab.failureOf]

/-- Nothing but closing the connections of the failures is left to be done. -/
structure Failing (failures : List RouteSyncFailure) (b : Stage × HostState HS) : Prop where
  registry : Registry b.1 b.2
  registration : b.1.registration = .none
  flushing : b.1.flushing = none
  closing : b.1.closing = []
  doomed : ToClose failures b.1.doomed b.2

namespace Failing

variable {failures : List RouteSyncFailure} {a b : Stage × HostState HS}

/-- A connection is registered while it is ready. -/
theorem registered (h : Failing failures b) {d : ConnId} (hd : b.2.ready d) :
    b.2.registered (b.2.routeSyncKey d) = some d := by
  rcases h.registry.ready d hd with hregistered | ⟨e, he, -⟩
  · exact hregistered
  · rw [h.registration] at he
    cases he

/-- The connections that are registered are ready. -/
theorem ready (h : Failing failures b) {key : PeerKey} {c : ConnId}
    (hc : b.2.registered key = some c) : b.2.routeSyncKey c = key ∧ b.2.ready c := by
  obtain ⟨hkey, -, hready⟩ := h.registry.entry key c hc
  refine ⟨hkey, hready.resolve_right fun hsubject => ?_⟩
  rw [h.registration] at hsubject
  cases hsubject

theorem finished (h : Failing [] b) : Finished b :=
  ⟨h.registration, h.flushing, fun d hd => (h.doomed d hd).resolve_right fun hf =>
    absurd hf.2 List.not_mem_nil, h.closing⟩

end Failing

/-- A sweep drops the transactions whose time is over. -/
theorem inTime_cleanExpired (s : HostState HS) (now : ℕ) (a : Ambient) :
    InTime now (s.cleanExpired crates now a).2.core := by
  intro key o ho
  have hlookup : (s.cleanExpired crates now a).2.core.outstandingRoutes.lookup key =
      (s.core.outstandingRoutes.lookup key).filter fun o => UInt64.ofNat now ≤ o.deadlineMs :=
    Finmap.lookup_retain _ _ _
  rw [hlookup] at ho
  simpa using (Option.filter_eq_some_iff.1 ho).2

/-- Only the updates of these keys may have waited for too long. -/
def Overdue (now : ℕ) (keys : List PeerKey) (s : HostState HS) : Prop :=
  ∀ key state, s.routeSyncStates.get key = some state → state.inFlight = true →
    (routeSyncTimeoutMs : ℤ) < (now : ℤ) - state.sentAt → key ∈ keys

/-- An update that is not overdue is none of those to be looked at. -/
theorem Overdue.skip {now : ℕ} {key : PeerKey} {rest : List PeerKey} {s : HostState HS}
    (h : Overdue now (key :: rest) s)
    (hkey : ∀ state, s.routeSyncStates.get key = some state → state.inFlight = true →
      (now : ℤ) - state.sentAt ≤ routeSyncTimeoutMs) : Overdue now rest s := by
  intro key' state hstate hsent hlate
  refine (List.mem_cons.1 (h key' state hstate hsent hlate)).resolve_left ?_
  rintro rfl
  exact absurd hlate (not_lt.2 (hkey state hstate hsent))

/-- An update that is sent now is not overdue any more. -/
theorem Overdue.restarts {now : ℕ} {key : PeerKey} {rest : List PeerKey} {s s' : HostState HS}
    (h : Overdue now (key :: rest) s) (hrestarts : Restarts now key (s.expire key) s') :
    Overdue now rest s' := by
  intro key' state hstate hsent hlate
  rcases hrestarts key' state hstate hsent with hnow | ⟨hne, hold⟩
  · rw [hnow, sub_self] at hlate
    exact absurd hlate (by decide)
  · have hkept := (JsMap.get_modify ..).symm.trans hold
    rw [if_neg hne] at hkept
    exact (List.mem_cons.1 (h key' state hkept hsent hlate)).resolve_left hne

section Maintenance

variable {failures : List RouteSyncFailure} {b : Stage × HostState HS} {now : ℕ}

/-- An update that was not answered in time is built again, or its connection fails. -/
theorem leads_retry (hnow : now < 8640000000000001) (h : Failing failures b)
    (hintime : InTime now b.2.core) (key : PeerKey) (rest : List PeerKey)
    (hoverdue : Overdue now (key :: rest) b.2) :
    Leads (Silent config crates) (retry crates now key)
      (fun new b => Failing (failures ++ new) b ∧ InTime now b.2.core ∧ Overdue now rest b.2)
      (fun _ _ => False) b := by
  obtain ⟨t, s⟩ := b
  have hsame : Failing (failures ++ []) (t, s) := by rwa [List.append_nil]
  refine leads_bind (leads_get ?_)
  dsimp only
  cases hstate : s.routeSyncStates.get key with
  | none =>
    refine leads_pure ⟨hsame, hintime, hoverdue.skip fun state hs => ?_⟩
    cases hstate.symm.trans hs
  | some state =>
    refine leads_ite (fun hskip => leads_pure ⟨hsame, hintime, hoverdue.skip fun state' hs hsent => ?_⟩)
      fun hlate => ?_
    · obtain rfl := Option.some.inj (hstate.symm.trans hs)
      rw [hsent] at hskip
      simpa using hskip
    obtain ⟨hinFlight, hlate⟩ : state.inFlight = true ∧
        (routeSyncTimeoutMs : ℤ) < (now : ℤ) - state.sentAt := by
      rw [Bool.or_eq_true, not_or, Bool.not_eq_true', Bool.not_eq_false, decide_eq_true_iff,
        not_le] at hlate
      exact hlate
    have hexpired : Step config crates (t, s) (t.flush (some state.peer), s.expire key) :=
      .expired h.flushing hstate hinFlight hlate hnow hintime
    refine leads_bind (leads_step _ ⟨hexpired, rfl⟩ (leads_tryCatch (leads_bind ?_)))
    obtain ⟨hready, hkey⟩ := h.registry.sync key state hstate
    have hlookup : (s.expire key).routeSyncStates.get key =
        some { state with inFlight := false, dirty := true, forceFull := true } := by
      refine (JsMap.get_modify ..).trans ((if_pos rfl).trans ?_)
      rw [hstate]
      rfl
    subst hkey
    have hregistry := h.registry.step hexpired
    have hflush := @leads_flushRouteUpdate _ crates (t.flush (some state.peer))
      (s.expire (s.routeSyncKey state.peer)) state.peer _ now hnow rfl hready hlookup rfl rfl rfl
    refine leads_silent (hflush.mono ?_ ?_)
    · rintro - ⟨t', s'⟩ hpath ⟨rfl, hintime', hrestarts⟩
      refine leads_pure ⟨⟨?_, h.registration, rfl, h.closing, ?_⟩, hintime', hoverdue.restarts hrestarts⟩
      · exact @registry_of_path _ config crates _ _
          (Relation.ReflTransGen.mono (fun _ _ hquiet => hquiet.silent) _ _ hpath) hregistry
      · rw [List.append_nil]
        exact (undisturbed_of_path hpath).toClose h.doomed
    · -- The connection of an update that cannot be sent is to be closed, too.
      rintro - ⟨t', s'⟩ hpath ⟨rfl, hintime', hrestarts⟩
      have hundisturbed := undisturbed_of_path hpath
      refine leads_bind (leads_get (leads_pure ⟨⟨?_, h.registration, rfl, h.closing, ?_⟩, hintime',
        hoverdue.restarts hrestarts⟩))
      · exact @registry_of_path _ config crates _ _
          (Relation.ReflTransGen.mono (fun _ _ hquiet => hquiet.silent) _ _ hpath) hregistry
      · rintro d (rfl | hd)
        · refine (hundisturbed.ready_or_closed hready).symm.imp_right fun hb => ⟨hb, ?_⟩
          exact List.mem_append_right _ (List.mem_singleton_self _)
        · exact (hundisturbed.toClose h.doomed d hd).imp_right
            (And.imp_right (List.mem_append_left _))

/-- What has expired is swept, and the updates that were not answered in time are built again. -/
theorem leads_cleanExpired (hnow : now < 8640000000000001) {s : HostState HS}
    (hregistry : Registry .idle s) :
    Leads (Silent config crates) (cleanExpired crates now)
      (fun result b => Failing result.2 b ∧ Overdue now [] b.2) (fun _ _ => False) (.idle, s) := by
  refine leads_bind (leads_consult_silent ?_)
  have hidle : Failing [] (Stage.idle, s.tick) :=
    ⟨@Registry.quiet _ crates _ _ .consulted hregistry, rfl, rfl, rfl, fun _ hd => hd.elim⟩
  have hswept : Step config crates (.idle, s.tick) (_, (s.tick.cleanExpired crates now
      (s.ambient 0)).2) := .swept rfl
  have hregistry' := hidle.registry.step hswept
  refine leads_bind (leads_modifyGet _ ⟨hswept, rfl⟩ (leads_bind (leads_get ?_)))
  have hintime := @inTime_cleanExpired _ crates s.tick now (s.ambient 0)
  -- Whoever is silent is among the failures.
  have hfailing : Failing ((s.tick.cleanExpired crates now (s.ambient 0)).1.deadDirectPeers.filterMap
      parseDeadPeer) ({ Stage.idle with doomed := Stage.idle.doomed ∪ { c | s.tick.ready c ∧
        s!"{(s.tick.conn c).networkName}\x1f{(s.tick.conn c).peerId}" ∈
          (s.tick.cleanExpired crates now (s.ambient 0)).1.deadDirectPeers } },
        (s.tick.cleanExpired crates now (s.ambient 0)).2) := by
    refine ⟨hregistry', rfl, rfl, rfl, ?_⟩
    rintro d (hd | ⟨hready, hmem⟩)
    · exact hd.elim
    · refine .inr ⟨hready, List.mem_filterMap.2 ⟨_, hmem, parseDeadPeer_eq ?_ _⟩⟩
      exact (hidle.registry.entry _ _ (hidle.registered hready)).2.1
  have hkeys : Overdue now ((s.tick.cleanExpired crates now (s.ambient 0)).2.routeSyncStates.entries.map
      Prod.fst) (s.tick.cleanExpired crates now (s.ambient 0)).2 := by
    intro key state hstate _ _
    rw [JsMap.mem_keys_iff, hstate]
    rfl
  refine leads_bind (Leads.mono (Q := fun new b => Failing (_ ++ new) b ∧ InTime now b.2.core ∧
    Overdue now [] b.2) (E := fun _ _ => False) (leads_gather (I := fun rest found b =>
      Failing found b ∧ InTime now b.2.core ∧ Overdue now rest b.2) ⟨hfailing, hintime, hkeys⟩
        fun key rest found b hb => leads_retry hnow hb.1 hb.2.1 key rest hb.2.2)
    ?_ fun _ _ _ he => he)
  exact fun new b _ hb => leads_pure ⟨hb.1, hb.2.2⟩

/-- The connection of a failure is closed. -/
theorem leads_closeFailing {failure : RouteSyncFailure} (h : Failing (failure :: failures) b) :
    Leads (Silent config crates) (do
      if failure.peerId < 2 ^ 32 then
        match (← get).rooms.get failure.networkName (UInt32.ofNat failure.peerId) with
        | some c => close crates c
        | none => pure ())
      (fun _ => Failing failures) (fun _ _ => False) b := by
  -- The connection of this failure is the one that is registered for it.
  have hfound : ∀ d, b.2.ready d → b.2.failureOf d = failure → failure.peerId < 2 ^ 32 ∧
      b.2.rooms.get failure.networkName (UInt32.ofNat failure.peerId) = some d := by
    rintro d hd rfl
    refine ⟨UInt32.toNat_lt _, ?_⟩
    have hregistered := h.registered hd
    rw [HostState.failureOf, UInt32.ofNat_toNat]
    exact hregistered
  have hother : (∀ d, b.2.ready d → b.2.failureOf d ≠ failure) → Failing failures b := by
    refine fun hnot => ⟨h.registry, h.registration, h.flushing, h.closing, fun d hd => ?_⟩
    refine (h.doomed d hd).imp_right fun ⟨hready, hmem⟩ => ⟨hready, ?_⟩
    exact (List.mem_cons.1 hmem).resolve_left (hnot d hready)
  refine leads_ite (fun _ => leads_bind (leads_get ?_)) fun hlarge => leads_pure (hother ?_)
  · cases hentry : b.2.rooms.get failure.networkName (UInt32.ofNat failure.peerId) with
    | none =>
      refine leads_pure (hother fun d hd hfailure => ?_)
      rw [(hfound d hd hfailure).2] at hentry
      cases hentry
    | some c =>
      have hregistered : b.2.registered (failure.networkName, UInt32.ofNat failure.peerId) =
        some c := hentry
      obtain ⟨-, hc⟩ := h.ready hregistered
      have hclose := @leads_close _ crates b.1 b.2 c
        (fun hp => hp.not_ready hc) h.flushing
      refine (leads_silent hclose).mono ?_ fun _ _ _ he => he
      rintro - b' hpath ⟨hcalm, hclosed⟩
      refine ⟨registry_of_path hpath h.registry, hcalm.undisturbed.registration.trans h.registration,
        hcalm.flushing, hcalm.closing.trans h.closing, fun d hd => ?_⟩
      rcases hcalm.doomed d hd with hd | hd
      · rcases hcalm.undisturbed.toClose h.doomed d hd with hd | ⟨hready, hmem⟩
        · exact .inl hd
        · refine .inr ⟨hready, (List.mem_cons.1 hmem).resolve_left fun hfailure => ?_⟩
          rw [hcalm.undisturbed.failureOf] at hfailure
          obtain ⟨-, hd⟩ := hfound d (hcalm.undisturbed.ready hready) hfailure
          obtain rfl := Option.some.inj (hentry.symm.trans hd)
          exact hready.not_closed hclosed
      · exact .inl hd
  · exact fun d hd hfailure => hlarge (hfound d hd hfailure).1

/-- A peer that has not heard from the relay for long is sent an update. -/
theorem leads_maintainPeer {c : ConnId} (h : Finished b) (hc : b.2.ready c) :
    Leads (Silent config crates) (maintainPeer crates c now) (fun _ => Finished) (fun _ => Failed c)
      b := by
  obtain ⟨t, s⟩ := b
  refine leads_bind (leads_get (leads_bind (leads_get ?_)))
  cases s.routeSyncStates.get (s.routeSyncKey c) with
  | none => exact leads_pure h
  | some state =>
    refine leads_ite (fun _ => leads_pure h) fun _ => ?_
    refine leads_silent ((leads_sendRouteUpdate hc h.flushing false).mono ?_ ?_)
    · rintro - ⟨t', s'⟩ hpath rfl
      exact ⟨h.registration, h.flushing, fun d hd =>
        (undisturbed_of_path hpath).closed (h.doomed d hd), h.closing⟩
    · rintro - ⟨t', s'⟩ hpath rfl
      refine ⟨.inl h.registration, h.flushing, fun d hd => hd.imp_right fun hd => ?_, h.closing⟩
      exact (undisturbed_of_path hpath).closed (h.doomed d hd)

/-- What follows on a sweep. -/
def Swept (config : ServerConfig) (crates : HostCrates HS) (now : ℕ) (a b : Stage × HostState HS) :
    Prop :=
  ∃ m, Relation.ReflTransGen (Step config crates) a m ∧ m.1.flushing = none ∧ Overdue now [] m.2 ∧
    Relation.ReflTransGen (Step config crates) m b

/-- The maintenance closes all that it has doomed. By then no update is overdue. -/
theorem leads_maintenance {s : HostState HS} (hregistry : Registry .idle s) :
    Leads (Silent config crates) (maintenance crates)
      (fun _ b => Finished b ∧ Swept config crates (s.ambient 0).now (.idle, s) b) (fun _ _ => False)
      (.idle, s) := by
  have hsilent : ∀ {a b : Stage × HostState HS}, Relation.ReflTransGen (Silent config crates) a b →
      Relation.ReflTransGen (Step config crates) a b := fun hpath =>
    Relation.ReflTransGen.mono (fun _ _ hstep => hstep.1) _ _ hpath
  have hstart : Relation.ReflTransGen (Step config crates) (.idle, s)
      (.idle, { s with maintenanceTimer := false }.tick) :=
    .tail (.single .kept) (.quiet .consulted)
  refine leads_bind (leads_step .idle ⟨.kept, rfl⟩ (leads_bind (leads_consult_silent ?_)))
  have hregistry' : Registry .idle { s with maintenanceTimer := false }.tick :=
    hregistry.congr rfl Set.Subset.rfl (fun _ => rfl) (fun _ => rfl) rfl rfl (fun _ => rfl)
      hregistry.sync
  refine leads_bind ((leads_cleanExpired (Fin.is_lt _) hregistry').mono ?_ fun _ _ _ he => he)
  rintro ⟨routeChangedNetworks, failures⟩ b hpath ⟨hfailing, hoverdue⟩
  refine Leads.mono (Q := fun _ => Finished) (E := fun _ _ => False) ?_ (fun _ b' hpath' hb' => ⟨hb', b,
    hstart.trans (hsilent hpath), hfailing.flushing, hoverdue, hsilent hpath'⟩) fun _ _ _ he => he
  refine leads_bind ((leads_forEach_rest (I := Failing) hfailing fun failure rest b hb =>
    leads_closeFailing hb).mono ?_ fun _ _ _ he => he)
  rintro - b₁ - hclosed
  -- The networks whose routes have expired are told.
  refine leads_bind ((leads_forEach (I := Finished) hclosed.finished fun networkName b hb =>
    (leads_silent (leads_broadcastRouteUpdate hb.flushing networkName none false)).mono
      (fun _ _ _ hcalm => hb.calm hcalm) fun _ _ _ he => he).mono ?_ fun _ _ _ he => he)
  rintro - b₂ - htold
  refine leads_bind (leads_get ?_)
  refine leads_bind ((leads_forEach (I := Finished) htold fun c b hb => ?_).mono ?_
    fun _ _ _ he => he)
  · refine leads_bind (leads_get (leads_ite (fun _ => leads_pure hb) fun hgo => ?_))
    have hc : b.2.ready c := by
      by_contra hnot
      exact hgo (.inr hnot)
    refine leads_tryCatch ((leads_maintainPeer hb hc).mono (fun _ _ _ hb => hb) ?_)
    rintro - ⟨t, s⟩ - hfailed
    exact (leads_close_failed hfailed).mono (fun _ _ _ hb => hb.1) fun _ _ _ he => he
  · rintro - ⟨t, s⟩ - hfinished
    have hschedule : ∃ maintenanceTimer,
        s.scheduleMaintenance = { s with maintenanceTimer } := by
      unfold HostState.scheduleMaintenance
      split_ifs
      · exact ⟨s.maintenanceTimer, rfl⟩
      · exact ⟨true, rfl⟩
    obtain ⟨maintenanceTimer, heq⟩ := hschedule
    have hkept : Step config crates (t, s) (t, s.scheduleMaintenance) := by
      rw [heq]
      exact .kept
    refine leads_step t ⟨hkept, ?_⟩ ?_
    · rw [heq]
      rfl
    · rw [heq]
      exact ⟨hfinished.registration, hfinished.flushing, hfinished.doomed, hfinished.closing⟩

end Maintenance

/-! ## All events -/

/-- What an event delivers. -/
def EventDelivers (config : ServerConfig) (s : HostState HS) (e : ServerEvent)
    (s' : HostState HS) : Prop :=
  s'.deliveries = s.deliveries ∨ ∃ c frame header payload target forwarded,
    e = .message c (.binary frame) ∧ parsePacket frame = .ok (header, payload) ∧
    header.toPeerId ≠ serverPeerId.toNat ∧ s.ready c ∧
    Forwards config s c frame (UInt32.ofNat header.toPeerId) target forwarded ∧
    s'.deliveries = s.deliveries ++ [(c, target, forwarded)]

section Events

variable {s s' : HostState HS}

theorem Delivers.event {c : ConnId} {data : Data} (h : Delivers config s c data s') :
    EventDelivers config s (.message c data) s' := by
  rcases h with heq | ⟨frame, header, payload, target, forwarded, rfl, hrest⟩
  · exact .inl heq
  · exact .inr ⟨c, frame, header, payload, target, forwarded, rfl, hrest⟩

theorem EventDelivers.congr {e : ServerEvent} {s'' : HostState HS} (h : EventDelivers config s e s')
    (heq : s''.deliveries = s'.deliveries) : EventDelivers config s e s'' := by
  unfold EventDelivers
  rw [heq]
  exact h

/-- The ambient does not count for what is delivered. -/
theorem EventDelivers.of_ambient {ambient : ℕ → Ambient} {e : ServerEvent}
    (h : EventDelivers config { s with ambient } e s') : EventDelivers config s e s' := by
  rcases h with heq | ⟨c, frame, header, payload, target, forwarded, he, hpacket, hto, hc, hf, heq⟩
  · exact .inl heq
  · exact .inr ⟨c, frame, header, payload, target, forwarded, he, hpacket, hto, hc,
      ⟨hf.registered, hf.ready, hf.counter, hf.bytes, hf.relayData⟩, heq⟩

/-- An event that delivers nothing. -/
theorem leads_eventDelivers {α : Type} {x : Action HS α} {e : ServerEvent}
    (h : Leads (Silent config crates) x (fun _ => Finished) (fun _ _ => False) (.idle, s)) :
    Leads (Step config crates) x (fun _ b => Finished b ∧ EventDelivers config s e b.2)
      (fun _ _ => False) (.idle, s) :=
  Leads.mono_rel (r := Silent config crates) (fun _ _ hsilent => hsilent.1)
    (h.mono (fun _ _ hpath hb => ⟨hb, .inl (deliveries_of_path hpath)⟩) fun _ _ _ he => he)

/-- A connection that is not accepted leaves nothing. -/
theorem accept_eq_self {ipKey : String} {a : Ambient}
    (h : (s.accept config crates ipKey a).1 = false) : (s.accept config crates ipKey a).2 = s := by
  unfold HostState.accept at h ⊢
  dsimp only at h ⊢
  split at h
  · cases h
  · rfl

/-- An upgrade is accepted within the limits. -/
theorem leads_fetch (request : Request) :
    Leads (Silent config crates) (fetch config crates request) (fun _ => Finished) (fun _ _ => False)
      (.idle, s) := by
  have hdone : ∀ s : HostState HS, Finished (Stage.idle, s) := finished_idle
  refine leads_ite (fun _ => leads_pure (hdone s)) fun _ => ?_
  refine leads_ite (fun _ => leads_pure (hdone s)) fun _ => leads_bind (leads_get ?_)
  refine leads_ite (fun _ => leads_pure (hdone s)) fun hlimits => ?_
  obtain ⟨hconnections, hlimits⟩ := not_or.1 hlimits
  obtain ⟨hpending, hperIp⟩ := not_or.1 hlimits
  refine leads_bind (leads_consult_silent (leads_bind ?_))
  cases haccept : (s.tick.accept config crates (request.connectingIp.getD unknownIp)
      (s.ambient 0)).1 with
  | false =>
    refine leads_modifyGet_path .idle ?_ ?_
    · rw [accept_eq_self haccept]
    · dsimp only
      rw [haccept]
      exact leads_ite (fun hnot => nomatch hnot) fun _ => leads_pure (hdone _)
  | true =>
    have haccepted : Step config crates (.idle, s.tick) (.idle, (s.tick.accept config crates
        (request.connectingIp.getD unknownIp) (s.ambient 0)).2) :=
      .accepted (Nat.not_le.1 hconnections) (Nat.not_le.1 hpending) (Nat.not_le.1 hperIp) haccept
    refine leads_modifyGet .idle ⟨haccepted, ?_⟩ ?_
    · obtain ⟨world, timer, heq⟩ := s.tick.accept_eq haccept
      rw [heq]
      rfl
    · dsimp only
      rw [haccept]
      exact leads_ite (fun _ => leads_pure (hdone _)) fun hnot => absurd rfl hnot

/-- Every event goes by steps, and comes to its end. -/
theorem leads_handleEvent (hregistry : Registry .idle s)
    (hhandshakes : Handshakes config crates .idle s) (e : ServerEvent) :
    Leads (Step config crates) (handleEvent config crates e)
      (fun _ b => Finished b ∧ EventDelivers config s e b.2) (fun _ _ => False) (.idle, s) := by
  have hdone := finished_idle s
  have hended : ∀ {b : Stage × HostState HS}, Finished b → Leads (Silent config crates)
      (pure none : Action HS (Option Response)) (fun _ => Finished) (fun _ _ => False) b :=
    fun hb => leads_pure hb
  cases e with
  | upgrade request =>
    exact leads_eventDelivers (leads_bind ((leads_fetch request).mono
      (fun _ _ _ hb => leads_pure hb) fun _ _ _ he => he))
  | message c data =>
    refine leads_bind (leads_tryCatch ((leads_handleMessage hregistry hhandshakes c data).mono ?_ ?_))
    · exact fun _ b _ hb => leads_pure ⟨hb.1, hb.2.event⟩
    · rintro - ⟨t, s'⟩ - ⟨hfailed, hdelivers⟩
      refine Leads.mono_rel (r := Silent config crates) (fun _ _ hsilent => hsilent.1)
        ((leads_close_failed hfailed).mono ?_ fun _ _ _ he => he)
      rintro - b hpath ⟨hfinished, -⟩
      refine leads_pure ⟨hfinished, ?_⟩
      have heq : b.2.deliveries = s'.deliveries := deliveries_of_path hpath
      exact hdelivers.event.congr heq
  | socketClosed c =>
    refine leads_eventDelivers (leads_bind ((leads_removeConnection_failed (hdone.failed c)).mono
      (fun _ _ _ hb => hended hb.1) fun _ _ _ he => he))
  | handshakeTimeout c =>
    refine leads_eventDelivers (leads_bind (leads_get (leads_ite (fun _ => ?_) fun _ => hended hdone)))
    exact leads_bind ((leads_close_failed (hdone.failed c)).mono (fun _ _ _ hb => hended hb.1)
      fun _ _ _ he => he)
  | maintenance =>
    refine leads_eventDelivers (leads_bind (leads_get (leads_ite (fun _ => ?_) fun _ => hended hdone)))
    exact leads_bind ((leads_maintenance hregistry).mono (fun _ _ _ hb => hended hb.1)
      fun _ _ _ he => he)
  | persistFailed networkName =>
    exact leads_eventDelivers (leads_bind (leads_step .idle ⟨.kept, rfl⟩ (hended (finished_idle _))))

/-- All that was doomed is closed. -/
theorem Finished.retire {b : Stage × HostState HS} (h : Finished b) :
    Step config crates b (.idle, b.2) := by
  obtain ⟨⟨registration, flushing, doomed, closing⟩, s⟩ := b
  obtain rfl : registration = .none := h.registration
  obtain rfl : flushing = none := h.flushing
  obtain rfl : closing = [] := h.closing
  exact .retired h.doomed

/-- An event is a path of steps between states in which nothing is unfinished. -/
theorem path_of_event (hregistry : Registry .idle s)
    (hhandshakes : Handshakes config crates .idle s) (input : ServerEvent × (ℕ → Ambient)) :
    Relation.ReflTransGen (Step config crates) (.idle, s)
        (.idle, ((server config crates).step s input).1) ∧
      (∃ response, ((server config crates).step s input).2 = .ok response) ∧
      EventDelivers config s input.1 ((server config crates).step s input).1 := by
  obtain ⟨e, ambient⟩ := input
  have hkept : Step config crates (.idle, s) (.idle, { s with ambient }) := .kept
  obtain ⟨⟨t, s'⟩, hpath, hs', hpost⟩ := @leads_handleEvent _ config crates
    { s with ambient } (hregistry.step hkept) (hhandshakes.step hkept) e
  have hstep : (server config crates).step s (e, ambient) =
      ((handleEvent config crates e { s with ambient }).2,
        (handleEvent config crates e { s with ambient }).1) := rfl
  rw [hstep]
  obtain rfl : s' = (handleEvent config crates e { s with ambient }).2 := hs'
  cases hresult : (handleEvent config crates e { s with ambient }).1 with
  | error e => exact (by rw [hresult] at hpost; exact hpost : False).elim
  | ok response =>
    rw [hresult] at hpost
    obtain ⟨hfinished, hdelivers⟩ := hpost
    exact ⟨.head hkept (hpath.tail hfinished.retire), ⟨response, rfl⟩, hdelivers.of_ambient⟩

/-- The maintenance is a path on which a sweep ends. -/
theorem swept_of_event (hregistry : Registry .idle s) (htimer : s.maintenanceTimer = true)
    (ambient : ℕ → Ambient) :
    Swept config crates (ambient 0).now (.idle, s)
      (.idle, ((server config crates).step s (.maintenance, ambient)).1) := by
  have hkept : Step config crates (.idle, s) (.idle, { s with ambient }) := .kept
  have hleads : Leads (Silent config crates) (handleEvent config crates .maintenance)
      (fun _ b => Finished b ∧ Swept config crates (ambient 0).now (.idle, { s with ambient }) b)
      (fun _ _ => False) (.idle, { s with ambient }) :=
    leads_bind (leads_get (leads_ite (fun _ => leads_bind
      ((leads_maintenance (hregistry.step hkept)).mono (fun _ _ _ hb => leads_pure hb)
        fun _ _ _ he => he)) fun hnot => absurd htimer hnot))
  obtain ⟨⟨t, s'⟩, -, hs', hpost⟩ := hleads
  have hstep : ((server config crates).step s (.maintenance, ambient)).1 =
      (handleEvent config crates .maintenance { s with ambient }).2 := rfl
  rw [hstep, ← hs']
  cases hresult : (handleEvent config crates .maintenance { s with ambient }).1 with
  | error e => exact (by rw [hresult] at hpost; exact hpost : False).elim
  | ok response =>
    rw [hresult] at hpost
    obtain ⟨hfinished, m, hbefore, hflushing, hoverdue, hafter⟩ := hpost
    exact ⟨m, .head hkept hbefore, hflushing, hoverdue, hafter.tail hfinished.retire⟩

end Events

/-! ## Runs -/

/-- What every step keeps holds between any two events of a run. -/
theorem Reachable.of_step (config : ServerConfig) (crates : HostCrates HS) {P : Stage × HostState HS → Prop} (h0 : P (.idle, .init config))
    (hstep : ∀ a b, Step config crates a b → Registry a.1 a.2 → P a → P b) {s : HostState HS}
    (h : (server config crates).Reachable s) :
    Registry .idle s ∧ Handshakes config crates .idle s ∧ P (.idle, s) := by
  refine Machine.Reachable.invariant (P := fun s => Registry .idle s ∧
    Handshakes config crates .idle s ∧ P (.idle, s)) ⟨.init config, .init config crates, h0⟩ ?_ h
  rintro s input ⟨hregistry, hhandshakes, hP⟩
  obtain ⟨hpath, -, -⟩ := path_of_event hregistry hhandshakes input
  have hall : ∀ {a b : Stage × HostState HS}, Relation.ReflTransGen (Step config crates) a b →
      Registry a.1 a.2 ∧ Handshakes config crates a.1 a.2 ∧ P a →
      Registry b.1 b.2 ∧ Handshakes config crates b.1 b.2 ∧ P b := by
    intro a b hpath ha
    induction hpath with
    | refl => exact ha
    | tail _ hlast ih =>
      exact ⟨ih.1.step hlast, ih.2.1.step hlast, hstep _ _ hlast ih.1 ih.2.2⟩
  exact hall hpath ⟨hregistry, hhandshakes, hP⟩

end Host

end EasyTierEdge
