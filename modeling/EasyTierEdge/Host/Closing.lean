import EasyTierEdge.Host.Undisturbed

/-!
# Closing connections and sending updates

The programs of the host that close connections and send route updates go by quiet steps. When
they end, every connection that they doomed is closed (`Calm`), however deep the closings
nest: each round of the recursion closes a connection, and there are as many rounds as open
connections (`leads_removeConnectionIn`).
-/

namespace EasyTierEdge

namespace Host

variable {HS : Type} {config : ServerConfig} {crates : HostCrates HS}

/-! ## Sending -/

/-- A state with the same books, in which connections may have been sent something. -/
structure Unmoved (s s' : HostState HS) : Prop where
  conn : ∀ d, (s'.conn d).core = (s.conn d).core
  rooms : s'.rooms = s.rooms
  connections : s'.connections = s.connections
  core : s'.core = s.core
  routeSyncStates : s'.routeSyncStates = s.routeSyncStates

namespace Unmoved

variable {s s' s'' : HostState HS} {d : ConnId}

theorem refl (s : HostState HS) : Unmoved s s := ⟨fun _ => rfl, rfl, rfl, rfl, rfl⟩

theorem trans (h : Unmoved s s') (h' : Unmoved s' s'') : Unmoved s s'' where
  conn d := (h'.conn d).trans (h.conn d)
  rooms := h'.rooms.trans h.rooms
  connections := h'.connections.trans h.connections
  core := h'.core.trans h.core
  routeSyncStates := h'.routeSyncStates.trans h.routeSyncStates

theorem phase (h : Unmoved s s') (d : ConnId) : (s'.conn d).phase = (s.conn d).phase := by
  have hcore := congrArg Connection.phase (h.conn d)
  exact hcore

theorem ready (h : Unmoved s s') (hd : s.ready d) : s'.ready d := (h.phase d).trans hd

theorem pending (h : Unmoved s s') (hd : s.pending d) : s'.pending d := by
  rw [HostState.pending, h.phase]
  exact hd

theorem not_closed (h : Unmoved s s') (hd : ¬s.closed d) : ¬s'.closed d := fun hc =>
  hd ((h.phase d).symm.trans hc)

theorem key (h : Unmoved s s') (d : ConnId) : s'.routeSyncKey d = s.routeSyncKey d := by
  have hname := congrArg Connection.networkName (h.conn d)
  have hpeer := congrArg Connection.peerId (h.conn d)
  exact Prod.ext hname hpeer

end Unmoved

section Sending

variable {r : Stage × HostState HS → Stage × HostState HS → Prop} {t : Stage} {s : HostState HS}
  {c : ConnId}

/-- The ambient is consulted. -/
theorem leads_consult (hquiet : ∀ a b, Quiet crates a b → r a b)
    {Q : Ambient → Stage × HostState HS → Prop} {E : String → Stage × HostState HS → Prop}
    (h : Q (s.ambient 0) (t, s.tick)) : Leads r consult Q E (t, s) :=
  leads_modifyGet t (hquiet _ _ .consulted) h

theorem unmoved_tick (s : HostState HS) : Unmoved s s.tick := ⟨fun _ => rfl, rfl, rfl, rfl, rfl⟩

theorem unmoved_note (s : HostState HS) (e : Effect) : Unmoved s (s.note e) :=
  ⟨fun _ => rfl, rfl, rfl, rfl, rfl⟩

theorem unmoved_withWindow (s : HostState HS) (c : ConnId) (startedAt bytes frames : ℕ) :
    Unmoved s (s.modifyConn c (·.withWindow startedAt bytes frames)) :=
  ⟨s.conn_modifyConn_congr (g := Connection.core)
    (f := (·.withWindow startedAt bytes frames)) (fun _ => rfl) c, rfl, rfl, rfl, rfl⟩

/-- Sending a frame to an open connection changes nothing but its window. -/
theorem leads_sendConnection (hquiet : ∀ a b, Quiet crates a b → r a b) (hc : ¬s.closed c)
    (packet : Bytes) (origin : Origin)
    (hsent : ∀ s', Unmoved s s' → r (t, s') (t, s'.note (.sent c packet origin))) :
    Leads r (sendConnection c packet origin)
      (fun _ b => b.1 = t ∧ Unmoved s b.2 ∧ b.2.trace = s.trace ++ [.sent c packet origin])
      (fun _ b => b.1 = t ∧ Unmoved s b.2 ∧ b.2.trace = s.trace) (t, s) := by
  unfold sendConnection
  refine leads_bind (leads_consult hquiet ?_)
  have htick := unmoved_tick s
  -- Whether or not the window is over, only the window changes.
  have hroll : Unmoved s (s.tick.rollWindow c (s.ambient 0).now) ∧
      (s.tick.rollWindow c (s.ambient 0).now).trace = s.trace ∧
      Relation.ReflTransGen r (t, s.tick) (t, s.tick.rollWindow c (s.ambient 0).now) := by
    unfold HostState.rollWindow
    split_ifs
    · exact ⟨htick.trans (unmoved_withWindow _ _ _ _ _), rfl, .single (hquiet _ _ (.counted hc))⟩
    · exact ⟨htick, rfl, .refl⟩
  obtain ⟨hunmoved, htrace, hpath⟩ := hroll
  refine leads_bind (leads_path t hpath ?_)
  generalize s.tick.rollWindow c (s.ambient 0).now = s₁ at hunmoved htrace
  refine leads_bind (leads_get ?_)
  dsimp only
  refine leads_ite (fun _ => leads_bind (leads_throw ⟨rfl, hunmoved, htrace⟩)) fun _ => ?_
  refine leads_ite (fun _ => leads_bind (leads_throw ⟨rfl, hunmoved, htrace⟩)) fun _ => ?_
  refine leads_bind (leads_step t (hquiet _ _ (.counted (hunmoved.not_closed hc))) ?_)
  have hcounted := hunmoved.trans (unmoved_withWindow s₁ c (s₁.conn c).sendWindowStartedAt
    ((s₁.conn c).sentBytesInWindow + packet.length) ((s₁.conn c).sentFramesInWindow + 1))
  refine leads_ite (fun _ => leads_bind (leads_throw ⟨rfl, hcounted, htrace⟩)) fun _ => ?_
  refine leads_step t (hsent _ hcounted) ⟨rfl, hcounted.trans (unmoved_note _ _), ?_⟩
  change s₁.trace ++ _ = _
  rw [htrace]

/-- What a program that only sends leaves. -/
def Still (t : Stage) (s : HostState HS) (b : Stage × HostState HS) : Prop :=
  b.1 = t ∧ Unmoved s b.2

/-- The ready connection is sent a frame of the relay. -/
theorem leads_relay (hc : s.ready c) (packet : Bytes) :
    Leads (Quiet crates) (sendConnection c packet .relay) (fun _ => Still t s) (fun _ => Still t s)
      (t, s) :=
  (@leads_sendConnection _ crates _ _ _ _ (fun _ _ h => h) hc.not_closed packet .relay
    fun _ h => .sent (h.ready hc)).mono (fun _ _ _ h => ⟨h.1, h.2.1⟩) fun _ _ _ h => ⟨h.1, h.2.1⟩

theorem leads_encryptPacket (hc : s.ready c) (packet : Bytes) :
    Leads (Quiet crates) (encryptPacket crates c packet) (fun _ => Still t s) (fun _ => Still t s)
      (t, s) := by
  have htick := unmoved_tick s
  refine leads_bind (leads_consult (fun _ _ h => h) (leads_bind (leads_bind (leads_get ?_))))
  dsimp only
  cases hsecure : (s.tick.conn c).secure with
  | none => exact leads_throw ⟨rfl, htick⟩
  | some h =>
    refine leads_modifyGet t (.encrypted hc hsecure) ?_
    have hcall : Unmoved s (s.tick.callSecure crates c h
        (.encryptPacket packet (s.ambient 0).packetClock)).2 :=
      ⟨fun _ => rfl, rfl, rfl, rfl, rfl⟩
    exact leads_ofExcept (fun _ _ => ⟨rfl, hcall⟩) fun _ _ => ⟨rfl, hcall⟩

theorem leads_encrypt (hc : s.ready c) (packet : Bytes) :
    Leads (Quiet crates) (encrypt crates c packet) (fun _ => Still t s) (fun _ => Still t s)
      (t, s) := by
  refine leads_bind (leads_get ?_)
  dsimp only
  split
  · refine leads_bind (leads_consult (fun _ _ h => h) ?_)
    have htick := unmoved_tick s
    exact leads_ofExcept (fun _ _ => ⟨rfl, htick⟩) fun _ _ => ⟨rfl, htick⟩
  · exact leads_pure ⟨rfl, .refl s⟩
  · exact leads_encryptPacket hc packet

theorem leads_sendControl (hc : s.ready c) (packetType : ℕ) (payload : Bytes) :
    Leads (Quiet crates) (sendControl crates c packetType payload) (fun _ => Still t s)
      (fun _ => Still t s) (t, s) := by
  refine leads_bind (leads_get (leads_bind (leads_ofExcept (fun clear _ => ?_)
    fun _ _ => ⟨rfl, .refl s⟩)))
  refine leads_bind ((leads_encrypt hc clear).mono ?_ fun _ _ _ h => h)
  rintro packet ⟨t', s'⟩ - ⟨rfl, hs'⟩
  refine (leads_relay (hs'.ready hc) packet).mono ?_ ?_
  · rintro - ⟨t', s''⟩ - ⟨rfl, hs''⟩
    exact ⟨rfl, hs'.trans hs''⟩
  · rintro - ⟨t', s''⟩ - ⟨rfl, hs''⟩
    exact ⟨rfl, hs'.trans hs''⟩

end Sending

/-! ## Route updates -/

section Updates

variable {t : Stage} {s : HostState HS} {c : ConnId}

/-- No transaction has expired. -/
def InTime (now : ℕ) (core : WasmRpcCore) : Prop :=
  ∀ key o, core.outstandingRoutes.lookup key = some o → UInt64.ofNat now ≤ o.deadlineMs

/-- Building an update drops what has expired. -/
theorem inTime_buildRouteUpdate (s : HostState HS) (state : RouteSyncState) (now : ℕ) (a : Ambient) :
    InTime now (s.buildRouteUpdate crates state now a).2 := by
  intro key o ho
  have hkept : ∀ {o' : Option OutstandingRoute},
      o'.filter (fun o => decide (UInt64.ofNat now ≤ o.deadlineMs)) = some o →
        UInt64.ofNat now ≤ o.deadlineMs := by
    intro o' h
    simpa using (Option.filter_eq_some_iff.1 h).2
  rcases WasmRpcCore.outstanding_buildRouteUpdate crates.rpc s.core (s.conn state.peer).networkName
    (s.conn state.peer).peerId (s.conn state.peer).serverSessionId state.forceFull
    (UInt64.ofNat now) a.groupDraws a.transactionIds with ⟨-, hlookup⟩ | ⟨_, _, o', -, hdeadline, hlookup⟩
  · exact hkept ((hlookup key).symm.trans ho)
  · have ho := (hlookup key).symm.trans ho
    split_ifs at ho
    · obtain rfl := Option.some.inj ho
      rw [hdeadline]
      exact UInt64.le_saturatingAdd _ _
    · exact hkept ho

/-- The updates in flight are those that were, but for the one of this key, which was sent now. -/
def Restarts (now : ℕ) (key : PeerKey) (s s' : HostState HS) : Prop :=
  ∀ key' state, s'.routeSyncStates.get key' = some state → state.inFlight = true →
    state.sentAt = now ∨ key' ≠ key ∧ s.routeSyncStates.get key' = some state

/-- An update that is wanted is built and sent. -/
theorem leads_flushRouteUpdate {state : RouteSyncState} {now : ℕ} (hnow : now < 8640000000000001)
    (hflushing : t.flushing = some c) (hc : s.ready c)
    (hstate : s.routeSyncStates.get (s.routeSyncKey c) = some state) (hpeer : state.peer = c)
    (hidle : state.inFlight = false) (hwanted : (state.dirty || state.forceFull) = true) :
    Leads (Quiet crates) (flushRouteUpdate crates (s.routeSyncKey c) now)
      (fun _ b => b.1 = t.flush none ∧ InTime now b.2.core ∧ Restarts now (s.routeSyncKey c) s b.2)
      (fun _ b => b.1 = (t.flush none).doom c ∧ InTime now b.2.core ∧
        Restarts now (s.routeSyncKey c) s b.2) (t, s) := by
  have hgo : ¬(state.inFlight || (!state.dirty && !state.forceFull)) = true := by
    rw [hidle, Bool.false_or]
    cases hdirty : state.dirty <;> cases hfull : state.forceFull <;> simp_all
  refine leads_bind (leads_get ?_)
  dsimp only
  rw [hstate]
  refine leads_ite (fun h => absurd h hgo) fun _ => ?_
  refine leads_bind (leads_consult (fun _ _ h => h) ?_)
  have hintime := @inTime_buildRouteUpdate _ crates s.tick state now (s.ambient 0)
  rcases s.tick.rebuild_cases crates (s.routeSyncKey c) state now (s.ambient 0) with
    ⟨e, -, heq⟩ | ⟨packet, -, heq⟩
  · -- The update cannot be built.
    have hstep : Quiet crates (t, s.tick) ((t.flush none).doom c,
        (s.tick.rebuild crates (s.routeSyncKey c) state now (s.ambient 0)).2) :=
      .unbuilt hflushing hc hpeer hstate (congrArg Prod.fst heq)
    refine leads_bind (leads_modifyGet _ hstep ?_)
    rw [heq]
    refine leads_bind (leads_throw ⟨rfl, hintime, fun key' state' hstate' hsent => ?_⟩)
    by_cases hkey : key' = s.routeSyncKey c
    · subst hkey
      obtain rfl := Option.some.inj (hstate.symm.trans hstate')
      cases hidle.symm.trans hsent
    · exact .inr ⟨hkey, hstate'⟩
  · have hstep : Quiet crates (t, s.tick) (t.flush none,
        (s.tick.rebuild crates (s.routeSyncKey c) state now (s.ambient 0)).2) :=
      .rebuilt hflushing hc hpeer hstate hnow (congrArg Prod.fst heq)
    refine leads_bind (leads_modifyGet _ hstep ?_)
    rw [heq]
    refine leads_bind (leads_pure (leads_tryCatch ?_))
    rw [hpeer]
    have hready : (({ s.tick with
        core := (s.tick.buildRouteUpdate crates state now (s.ambient 0)).2 }.modifySync
          (s.routeSyncKey c) (·.launch now)).note (.built c state.forceFull)).ready c := hc
    have hkeyOf : s.routeSyncKey c = (({ s.tick with
        core := (s.tick.buildRouteUpdate crates state now (s.ambient 0)).2 }.modifySync
          (s.routeSyncKey c) (·.launch now)).note (.built c state.forceFull)).routeSyncKey c := rfl
    have hcore : InTime now (({ s.tick with
        core := (s.tick.buildRouteUpdate crates state now (s.ambient 0)).2 }.modifySync
          (s.routeSyncKey c) (·.launch now)).note (.built c state.forceFull)).core := hintime
    have hrestarts : Restarts now (s.routeSyncKey c) s (({ s.tick with
        core := (s.tick.buildRouteUpdate crates state now (s.ambient 0)).2 }.modifySync
          (s.routeSyncKey c) (·.launch now)).note (.built c state.forceFull)) := by
      intro key' state' hstate' _
      have hmodified := (JsMap.get_modify ..).symm.trans hstate'
      split_ifs at hmodified with hkey
      · obtain ⟨_, -, rfl⟩ := Option.map_eq_some_iff.1 hmodified
        exact .inl rfl
      · exact .inr ⟨hkey, hmodified⟩
    dsimp only
    generalize ({ s.tick with
      core := (s.tick.buildRouteUpdate crates state now (s.ambient 0)).2 }.modifySync
        (s.routeSyncKey c) (·.launch now)).note (.built c state.forceFull) = s₁
      at hready hkeyOf hcore hrestarts ⊢
    refine (leads_sendControl hready _ _).mono ?_ ?_
    · rintro - ⟨t', s'⟩ - ⟨rfl, hs'⟩
      refine ⟨rfl, ?_, fun key' state' hstate' => hrestarts key' state' ?_⟩
      · rw [hs'.core]
        exact hcore
      · rwa [← hs'.routeSyncStates]
    · -- It cannot be sent.
      rintro e ⟨t', s'⟩ - ⟨rfl, hs'⟩
      have hkey := hkeyOf.trans (hs'.key c).symm
      have hunsent : Restarts now (s.routeSyncKey c) s
          (s'.unsend (s'.routeSyncKey c) state.forceFull) := by
        intro key' state' hstate' hsent
        have hmodified := (JsMap.get_modify ..).symm.trans hstate'
        split_ifs at hmodified
        · obtain ⟨_, -, rfl⟩ := Option.map_eq_some_iff.1 hmodified
          cases hsent
        · rw [hs'.routeSyncStates] at hmodified
          exact hrestarts key' state' hmodified hsent
      rw [hkey] at hunsent ⊢
      refine leads_bind (leads_step _ (.unsent (hs'.ready hready) rfl) (leads_throw ⟨rfl, ?_, hunsent⟩))
      change InTime now s'.core
      rw [hs'.core]
      exact hcore

/-- A change is announced to a ready connection, which is doomed if it cannot be told. -/
theorem leads_sendRouteUpdate (hc : s.ready c) (hflushing : t.flushing = none) (forceFull : Bool) :
    Leads (Quiet crates) (sendRouteUpdate crates c forceFull) (fun _ b => b.1 = t)
      (fun _ b => b.1 = t.doom c) (t, s) := by
  have hflush : t.flush none = t := by
    rw [Stage.flush, ← hflushing]
  refine leads_bind (leads_step _ (.announced hc hflushing) (leads_bind (leads_get
    (leads_bind (leads_consult (fun _ _ h => h) ?_)))))
  -- The state of the announced update.
  obtain ⟨state, hstate, hpeer, hdirty, hinFlight⟩ : ∃ state,
      (s.announce c forceFull).tick.routeSyncStates.get (s.routeSyncKey c) = some state ∧
        state.peer = c ∧ state.dirty = true ∧ state.inFlight = s.inFlight (s.routeSyncKey c) := by
    refine ⟨_, (JsMap.get_set _ _ _ _).trans (if_pos rfl), rfl, rfl, ?_⟩
    rw [HostState.inFlight]
    cases s.routeSyncStates.get (s.routeSyncKey c) <;> rfl
  cases hflight : s.inFlight (s.routeSyncKey c) with
  | true =>
    have hannounced : (s.announce c forceFull).tick.routeSyncStates.get
        ((s.announce c forceFull).routeSyncKey c) = some state := hstate
    refine leads_bind (leads_get ?_)
    dsimp only
    rw [hannounced]
    refine leads_ite (fun _ => leads_pure hflush) fun hgo => absurd ?_ hgo
    rw [hinFlight, hflight]
    rfl
  | false =>
    refine (leads_flushRouteUpdate (t := t.flush (some c)) (s := (s.announce c forceFull).tick)
      (Fin.is_lt _) rfl hc hstate hpeer (hinFlight.trans hflight) ?_).mono ?_ ?_
    · rw [hdirty]
      rfl
    · exact fun _ b _ h => h.1.trans hflush
    · exact fun _ b _ h => h.1.trans (congrArg (Stage.doom · c) hflush)

end Updates

/-! ## Closings -/

/-- Closings and route updates after which nothing is left to be done. -/
structure Calm (crates : HostCrates HS) (a b : Stage × HostState HS) : Prop where
  path : Relation.ReflTransGen (Quiet crates) a b
  flushing : b.1.flushing = none
  doomed : ∀ d ∈ b.1.doomed, d ∈ a.1.doomed ∨ b.2.closed d
  closing : b.1.closing = a.1.closing

namespace Calm

variable {a b c : Stage × HostState HS}

theorem refl (h : a.1.flushing = none) : Calm crates a a :=
  ⟨.refl, h, fun _ hd => .inl hd, rfl⟩

theorem undisturbed (h : Calm crates a b) : Undisturbed a b := undisturbed_of_path h.path

theorem trans (h : Calm crates a b) (h' : Calm crates b c) : Calm crates a c where
  path := h.path.trans h'.path
  flushing := h'.flushing
  doomed d hd := by
    rcases h'.doomed d hd with hb | hclosed
    · exact (h.doomed d hb).imp_right fun hclosed => h'.undisturbed.closed hclosed
    · exact .inr hclosed
  closing := h'.closing.trans h.closing

/-- A connection that was doomed meanwhile is closed. -/
theorem of_doom {d : ConnId} (hpath : Relation.ReflTransGen (Quiet crates) a b)
    (hdoom : b.1 = a.1.doom d) (h' : Calm crates b c) (hclosed : c.2.closed d) :
    Calm crates a c where
  path := hpath.trans h'.path
  flushing := h'.flushing
  doomed e he := by
    rcases h'.doomed e he with hb | hclosed
    · rw [hdoom] at hb
      rcases hb with rfl | ha
      · exact .inr hclosed
      · exact .inl ha
    · exact .inr hclosed
  closing := by
    rw [h'.closing, hdoom]
    rfl

end Calm

section Closings

variable {t : Stage} {s : HostState HS} {c : ConnId}

/-- A program that closes a ready connection when only so many are open. -/
def Closes (crates : HostCrates HS) (remove : ConnId → Action HS Unit) (n : ℕ) : Prop :=
  ∀ (d : ConnId) (a : Stage × HostState HS), ¬a.2.pending d → a.1.flushing = none →
    a.2.openConnections ≤ n →
    Leads (Quiet crates) (remove d) (fun _ b => Calm crates a b ∧ b.2.closed d) (fun _ _ => False) a

theorem leads_closeBy {remove : ConnId → Action HS Unit} {n : ℕ} (hremove : Closes crates remove n)
    (hc : ¬s.pending c) (hflushing : t.flushing = none) (hopen : s.openConnections ≤ n) :
    Leads (Quiet crates) (closeBy remove c)
      (fun _ b => Calm crates (t, s) b ∧ b.2.closed c) (fun _ _ => False) (t, s) := by
  refine leads_bind (leads_get (leads_ite (fun hclosed => leads_pure ⟨.refl hflushing, hclosed⟩)
    fun _ => ?_))
  refine leads_bind (leads_consult (fun _ _ h => h) ?_)
  have htick : Calm crates (t, s) (t, s.tick) :=
    ⟨.single .consulted, hflushing, fun _ hd => .inl hd, rfl⟩
  dsimp only
  refine leads_ite (fun _ => ?_) fun _ => ?_
  · -- The close event comes first.
    refine leads_bind ((hremove c _ hc hflushing hopen).mono ?_ fun _ _ _ h => h)
    rintro - b - ⟨hcalm, hclosed⟩
    have hpending : ¬b.2.pending c := fun hp => hp.not_closed hclosed
    refine (hremove c b hpending hcalm.flushing
      (hcalm.undisturbed.openConnections.trans hopen)).mono ?_ fun _ _ _ h => h
    exact fun _ b' _ h => ⟨(htick.trans hcalm).trans h.1, h.2⟩
  · exact (hremove c _ hc hflushing hopen).mono (fun _ b _ h => ⟨htick.trans h.1, h.2⟩)
      fun _ _ _ h => h

/-- A connection that cannot be told of a change is closed. -/
theorem leads_tellBy {remove : ConnId → Action HS Unit} {n : ℕ} (hremove : Closes crates remove n)
    (hflushing : t.flushing = none) (hopen : s.openConnections ≤ n) (networkName : String)
    (excludePeerId : Option UInt32) (forceFull : Bool) (entry : UInt32 × ConnId) :
    Leads (Quiet crates) (tellBy crates remove networkName excludePeerId forceFull entry)
      (fun _ b => Calm crates (t, s) b) (fun _ _ => False) (t, s) := by
  have hrefl : Calm crates (t, s) (t, s) := .refl hflushing
  refine leads_bind (leads_get ?_)
  dsimp only
  refine leads_ite (fun _ => leads_pure hrefl) fun _ =>
    leads_ite (fun _ => leads_pure hrefl) fun hgo => ?_
  have hc : s.ready entry.2 := by
    by_contra hnot
    exact hgo (.inr hnot)
  refine leads_tryCatch ((leads_sendRouteUpdate hc hflushing forceFull).mono ?_ ?_)
  · intro _ b hpath hb
    refine ⟨hpath, ?_, fun d hd => .inl ?_, congrArg Stage.closing hb⟩
    · rw [hb]
      exact hflushing
    · rw [hb] at hd
      exact hd
  · rintro - ⟨t', s'⟩ hpath rfl
    have hundisturbed := undisturbed_of_path hpath
    have hpending : ¬s'.pending entry.2 := by
      rcases hundisturbed.ready_or_closed hc with hr | hclosed
      · exact fun hp => hp.not_ready hr
      · exact fun hp => hp.not_closed hclosed
    refine (leads_closeBy (t := t.doom entry.2) hremove hpending hflushing
      (hundisturbed.openConnections.trans hopen)).mono ?_ fun _ _ _ h => h
    exact fun _ b _ h => .of_doom hpath rfl h.1 h.2

/-- A change is announced to a network; whoever cannot be told is closed. -/
theorem leads_broadcastRouteUpdateBy {remove : ConnId → Action HS Unit} {n : ℕ}
    (hremove : Closes crates remove n) (hflushing : t.flushing = none)
    (hopen : s.openConnections ≤ n) (networkName : String) (excludePeerId : Option UInt32)
    (forceFull : Bool) :
    Leads (Quiet crates) (broadcastRouteUpdateBy crates remove networkName excludePeerId forceFull)
      (fun _ b => Calm crates (t, s) b) (fun _ _ => False) (t, s) := by
  refine leads_bind (leads_get (leads_forEach (.refl hflushing) fun entry b hb => ?_))
  refine (leads_tellBy (t := b.1) (s := b.2) hremove hb.flushing
    (hb.undisturbed.openConnections.trans hopen) networkName excludePeerId forceFull entry).mono ?_
      fun _ _ _ h => h
  exact fun _ _ _ h => hb.trans h

/-- As many rounds as there are open connections are enough to close a connection, and all that
    cannot be told about it. -/
theorem leads_removeConnectionIn (n : ℕ) : Closes crates (removeConnectionIn crates n) n := by
  induction n with
  | zero =>
    -- No connection is open.
    rintro d ⟨t, s⟩ - hflushing hopen
    refine leads_pure ⟨.refl hflushing, ?_⟩
    by_contra hd
    have hcount := s.openConnections_unregister hd
    change s.openConnections ≤ 0 at hopen
    omega
  | succ n ih =>
    rintro d ⟨t, s⟩ hd hflushing hopen
    refine leads_bind (leads_get ?_)
    refine leads_ite (fun hclosed => leads_pure ⟨.refl hflushing, hclosed⟩) fun hnot => ?_
    have hready : s.ready d := ((s.phase_cases d).resolve_left hd).resolve_right hnot
    -- The connection leaves the books.
    refine leads_bind (leads_bind (leads_consult (fun _ _ h => h) ?_))
    have hleft : Quiet crates (t, s.tick)
        (t.close d, (s.tick.unregister d).removePeer crates d (s.ambient 0)) := .left hready
    have hmodify : (if (s.tick.conn d).phase = .ready then
        (s.tick.unregister d).removePeer crates d (s.ambient 0) else s.tick.unregister d) =
        (s.tick.unregister d).removePeer crates d (s.ambient 0) := if_pos hready
    refine leads_step (t.close d) (by rw [hmodify]; exact hleft) ?_
    rw [hmodify]
    have hpath : Relation.ReflTransGen (Quiet crates) (t, s)
        (t.close d, (s.tick.unregister d).removePeer crates d (s.ambient 0)) :=
      .tail (.single .consulted) hleft
    have hclosed : ((s.tick.unregister d).removePeer crates d (s.ambient 0)).closed d :=
      s.tick.closed_unregister hready.not_closed
    have hcount : ((s.tick.unregister d).removePeer crates d (s.ambient 0)).openConnections ≤ n := by
      have hcount := s.tick.openConnections_unregister (c := d) hready.not_closed
      change (s.tick.unregister d).openConnections ≤ n
      change _ = s.openConnections at hcount
      change s.openConnections ≤ n + 1 at hopen
      omega
    generalize (s.tick.unregister d).removePeer crates d (s.ambient 0) = s₁ at hpath hclosed hcount
    dsimp only
    refine leads_ite (fun _ => ?_) fun h => absurd hready h
    -- The rest of the network is told.
    refine leads_bind ((leads_broadcastRouteUpdateBy (t := t.close d) ih hflushing hcount _ none
      false).mono ?_ fun _ _ _ h => h)
    rintro - ⟨t₂, s₂⟩ - hcalm
    have hclosed₂ : s₂.closed d := hcalm.undisturbed.closed hclosed
    refine leads_bind (leads_consult (fun _ _ h => h) ?_)
    -- The connection is the one that was closed last.
    obtain ⟨t₃, rfl⟩ : ∃ t₃ : Stage, t₂ = t₃.close d :=
      ⟨{ t₂ with closing := t.closing }, congrArg (fun closing => { t₂ with closing }) hcalm.closing⟩
    have hdisposed : Quiet crates (t₃.close d, s₂.tick)
        (t₃, s₂.tick.disposeConnection crates d (s₂.ambient 0)) := .disposed hclosed₂
    have hrest : Undisturbed (t₃.close d, s₂)
        (t₃, s₂.tick.disposeConnection crates d (s₂.ambient 0)) :=
      undisturbed_of_path (.tail (.single .consulted) hdisposed)
    refine leads_step t₃ hdisposed ⟨⟨?_, hcalm.flushing, fun e he => ?_, ?_⟩, hrest.closed hclosed₂⟩
    · exact (hpath.trans hcalm.path).trans (.tail (.single .consulted) hdisposed)
    · exact (hcalm.doomed e he).imp_right fun h => hrest.closed h
    · exact (List.cons.inj hcalm.closing).2

/-- A connection whose handshake is finished is removed. -/
theorem leads_removeConnection (hc : ¬s.pending c) (hflushing : t.flushing = none) :
    Leads (Quiet crates) (removeConnection crates c)
      (fun _ b => Calm crates (t, s) b ∧ b.2.closed c) (fun _ _ => False) (t, s) :=
  leads_bind (leads_get (leads_removeConnectionIn s.openConnections c (t, s) hc hflushing le_rfl))

theorem closes_removeConnection (crates : HostCrates HS) (n : ℕ) :
    Closes crates (removeConnection crates) n :=
  fun _ _ hc hflushing _ => leads_removeConnection hc hflushing

theorem leads_close (hc : ¬s.pending c) (hflushing : t.flushing = none) :
    Leads (Quiet crates) (close crates c)
      (fun _ b => Calm crates (t, s) b ∧ b.2.closed c) (fun _ _ => False) (t, s) :=
  leads_closeBy (closes_removeConnection crates _) hc hflushing le_rfl

theorem leads_broadcastRouteUpdate (hflushing : t.flushing = none) (networkName : String)
    (excludePeerId : Option UInt32) (forceFull : Bool) :
    Leads (Quiet crates) (broadcastRouteUpdate crates networkName excludePeerId forceFull)
      (fun _ b => Calm crates (t, s) b) (fun _ _ => False) (t, s) :=
  leads_broadcastRouteUpdateBy (closes_removeConnection crates _) hflushing le_rfl _ _ _

end Closings

end Host

end EasyTierEdge
