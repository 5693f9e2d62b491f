import EasyTierEdge.Host.Closing
import EasyTierEdge.Host.Handshakes

/-!
# Handling a handshake

The programs that handle the frames of a handshake go by steps, none of which delivers a frame of
another peer (`Silent`). Either they come to an end with nothing left to be done (`Finished`), or
they throw, and then closing the connection leaves nothing to be done (`Failed`).
-/

namespace EasyTierEdge

namespace Host

variable {HS : Type} {config : ServerConfig} {crates : HostCrates HS}

/-- A step that delivers no frame of another peer. -/
def Silent (config : ServerConfig) (crates : HostCrates HS) (a b : Stage × HostState HS) : Prop :=
  Step config crates a b ∧ b.2.deliveries = a.2.deliveries

theorem Quiet.silent {a b : Stage × HostState HS} (h : Quiet crates a b) :
    Silent config crates a b := ⟨.quiet h, h.undisturbed.deliveries⟩

/-- An effect that delivers nothing. -/
theorem deliveries_note_of_none (s : HostState HS) {e : Effect} (h : e.delivery = none) :
    (s.note e).deliveries = s.deliveries := by
  rw [s.deliveries_note, h]
  exact List.append_nil _

/-- What holds after every step holds after a path. -/
theorem path_invariant {P : Stage × HostState HS → Prop} {a b : Stage × HostState HS}
    (hstep : ∀ a b, Step config crates a b → P a → P b)
    (hpath : Relation.ReflTransGen (Silent config crates) a b) (h : P a) : P b := by
  induction hpath with
  | refl => exact h
  | tail _ hlast ih => exact hstep _ _ hlast.1 ih

theorem registry_of_path {a b : Stage × HostState HS}
    (hpath : Relation.ReflTransGen (Silent config crates) a b) (h : Registry a.1 a.2) :
    Registry b.1 b.2 :=
  path_invariant (P := fun a => Registry a.1 a.2) (fun _ _ hstep => Registry.step hstep) hpath h

/-! ## The end of an event -/

/-- Nothing is left to be done. -/
structure Finished (b : Stage × HostState HS) : Prop where
  registration : b.1.registration = .none
  flushing : b.1.flushing = none
  doomed : ∀ d ∈ b.1.doomed, b.2.closed d
  closing : b.1.closing = []

/-- Nothing but closing a connection is left to be done. -/
structure Failed (c : ConnId) (b : Stage × HostState HS) : Prop where
  registration : b.1.registration = .none ∨ b.2.pending c ∧
    ∃ replaced, b.1.registration = .entered c replaced ∧ ∀ r, replaced = some r → b.2.closed r
  flushing : b.1.flushing = none
  doomed : ∀ d ∈ b.1.doomed, d = c ∨ b.2.closed d
  closing : b.1.closing = []

theorem finished_idle (s : HostState HS) : Finished (.idle, s) :=
  ⟨rfl, rfl, fun _ hd => hd.elim, rfl⟩

theorem Finished.failed {b : Stage × HostState HS} (h : Finished b) (c : ConnId) : Failed c b :=
  ⟨.inl h.registration, h.flushing, fun d hd => .inr (h.doomed d hd), h.closing⟩

/-- Closings and route updates leave nothing new to be done. -/
theorem Finished.calm {a b : Stage × HostState HS} (h : Finished a) (hcalm : Calm crates a b) :
    Finished b where
  registration := hcalm.undisturbed.registration.trans h.registration
  flushing := hcalm.flushing
  doomed d hd := (hcalm.doomed d hd).elim (fun ha => hcalm.undisturbed.closed (h.doomed d ha)) id
  closing := hcalm.closing.trans h.closing

/-- The connection that was left is closed. -/
theorem Failed.calm {a b : Stage × HostState HS} {c : ConnId} (h : Failed c a)
    (hreg : a.1.registration = .none) (hcalm : Calm crates a b) (hclosed : b.2.closed c) :
    Finished b where
  registration := hcalm.undisturbed.registration.trans hreg
  flushing := hcalm.flushing
  doomed d hd := by
    rcases hcalm.doomed d hd with ha | hd
    · rcases h.doomed d ha with rfl | hd
      · exact hclosed
      · exact hcalm.undisturbed.closed hd
    · exact hd
  closing := hcalm.closing.trans h.closing

section Closing

variable {t : Stage} {s : HostState HS} {c : ConnId}

/-- A quiet program as one of an event. -/
theorem leads_silent {α : Type} {x : Action HS α} {Q : α → Stage × HostState HS → Prop}
    {E : String → Stage × HostState HS → Prop} {a : Stage × HostState HS}
    (h : Leads (Quiet crates) x Q E a) : Leads (Silent config crates) x Q E a :=
  h.mono_rel fun _ _ hquiet => hquiet.silent

theorem leads_consult_silent {Q : Ambient → Stage × HostState HS → Prop}
    {E : String → Stage × HostState HS → Prop} (h : Q (s.ambient 0) (t, s.tick)) :
    Leads (Silent config crates) consult Q E (t, s) :=
  @leads_consult _ crates _ _ _ (fun _ _ hquiet => hquiet.silent) _ _ h

/-- A connection whose handshake is unfinished is removed. -/
theorem leads_removePending (h : Failed c (t, s)) (hc : s.pending c)
    (hreg : t.registration = .none ∨
      ∃ replaced, t.registration = .entered c replaced ∧ ∀ r, replaced = some r → s.closed r) :
    Leads (Silent config crates) (removeConnection crates c)
      (fun _ b => Finished b ∧ b.2.closed c) (fun _ _ => False) (t, s) := by
  refine leads_bind (leads_get ?_)
  -- There is an open connection, this one.
  obtain ⟨n, hn⟩ : ∃ n, s.openConnections = n + 1 :=
    ⟨_, (s.openConnections_unregister hc.not_closed).symm⟩
  rw [hn]
  refine leads_bind (leads_get (leads_ite (fun hclosed => absurd hclosed hc.not_closed) fun _ => ?_))
  refine leads_bind (leads_bind (leads_consult_silent ?_))
  have hphase : (s.tick.conn c).phase ≠ .ready := hc.not_ready
  have hmodify : (if (s.tick.conn c).phase = .ready then
      (s.tick.unregister c).removePeer crates c (s.ambient 0) else s.tick.unregister c) =
      s.tick.unregister c := if_neg hphase
  obtain ⟨_, _, _, heq⟩ := s.tick.unregister_eq c
  have habandoned : Silent config crates (t, s.tick)
      ((t.register .none).close c, s.tick.unregister c) := by
    refine ⟨.abandoned hc hreg, ?_⟩
    rw [HostState.deliveries, heq, List.filterMap_append]
    exact List.append_nil _
  refine leads_step ((t.register .none).close c) (by rw [hmodify]; exact habandoned) ?_
  rw [hmodify]
  have hclosed : (s.tick.unregister c).closed c := s.tick.closed_unregister hc.not_closed
  have hstill : ∀ d, s.closed d → (s.tick.unregister c).closed d := fun d hd =>
    (s.tick.closed_unregister_iff c hc.not_closed).2 (.inl hd)
  generalize s.tick.unregister c = s₁ at hclosed hstill
  dsimp only
  refine leads_ite (fun hready => absurd hready hphase) fun _ => ?_
  refine leads_bind (leads_consult_silent ?_)
  have hdisposed : Quiet crates ((t.register .none).close c, s₁.tick)
      (t.register .none, s₁.tick.disposeConnection crates c (s₁.ambient 0)) := .disposed hclosed
  have hrest := hdisposed.undisturbed
  refine leads_step (t.register .none) hdisposed.silent
    ⟨⟨rfl, h.flushing, fun d hd => ?_, h.closing⟩, hrest.closed hclosed⟩
  rcases h.doomed d hd with rfl | hd
  · exact hrest.closed hclosed
  · exact hrest.closed (hstill d hd)

/-- Removing the connection that was left finishes an event. -/
theorem leads_removeConnection_failed (h : Failed c (t, s)) :
    Leads (Silent config crates) (removeConnection crates c)
      (fun _ b => Finished b ∧ b.2.closed c) (fun _ _ => False) (t, s) := by
  rcases h.registration with hreg | ⟨hpending, hentered⟩
  · rcases s.phase_cases c with hpending | hopen
    · exact leads_removePending h hpending (.inl hreg)
    · have hnot : ¬s.pending c := by
        rcases hopen with hready | hclosed
        · exact fun hp => hp.not_ready hready
        · exact fun hp => hp.not_closed hclosed
      exact (leads_silent (leads_removeConnection hnot h.flushing)).mono
        (fun _ b _ hb => ⟨h.calm hreg hb.1 hb.2, hb.2⟩) fun _ _ _ he => he
  · exact leads_removePending h hpending (.inr hentered)

theorem Failed.tick (h : Failed c (t, s)) : Failed c (t, s.tick) :=
  ⟨h.registration, h.flushing, h.doomed, h.closing⟩

/-- Closing the connection that was left finishes an event. -/
theorem leads_close_failed (h : Failed c (t, s)) :
    Leads (Silent config crates) (close crates c) (fun _ b => Finished b ∧ b.2.closed c)
      (fun _ _ => False) (t, s) := by
  refine leads_bind (leads_get (leads_ite (fun hclosed => leads_pure ⟨?_, hclosed⟩) fun _ => ?_))
  · refine ⟨?_, h.flushing, fun d hd => ?_, h.closing⟩
    · exact h.registration.resolve_right fun hentered => hentered.1.not_closed hclosed
    · rcases h.doomed d hd with rfl | hd
      · exact hclosed
      · exact hd
  · refine leads_bind (leads_consult_silent ?_)
    dsimp only
    refine leads_ite (fun _ => ?_) fun _ => leads_removeConnection_failed h.tick
    refine leads_bind ((leads_removeConnection_failed h.tick).mono ?_ fun _ _ _ he => he)
    rintro - ⟨t', s'⟩ - ⟨hfinished, -⟩
    exact leads_removeConnection_failed (hfinished.failed c)

end Closing

/-! ## Finishing a handshake -/

section Finish

variable {t : Stage} {s : HostState HS} {c : ConnId}

/-- A connection in its handshake: what was done for it, its mode and its place in the rooms. -/
structure Opening (c : ConnId) (calls : List (Call × Output)) (frames : List Bytes)
    (mode : HandshakeMode) (key : PeerKey) (b : Stage × HostState HS) : Prop where
  stage : b.1 = Stage.idle.doom c
  registry : Registry b.1 b.2
  pending : b.2.pending c
  calls : b.2.callsOn c = calls
  frames : b.2.framesOf c = frames
  mode : (b.2.conn c).mode = mode
  key : b.2.routeSyncKey c = key

theorem Opening.failed {calls : List (Call × Output)} {frames : List Bytes} {mode : HandshakeMode}
    {key : PeerKey} {b : Stage × HostState HS} (h : Opening c calls frames mode key b) :
    Failed c b := by
  have hstage := h.stage
  obtain ⟨t, s⟩ := b
  obtain rfl : t = _ := hstage
  exact ⟨.inl rfl, rfl, fun d hd => hd.imp_right fun hd => hd.elim, rfl⟩

/-- A connection that is being registered. -/
structure Entering (config : ServerConfig) (crates : HostCrates HS) (c : ConnId)
    (b : Stage × HostState HS) : Prop where
  pending : b.2.pending c
  done : HandshakeDone config crates (b.2.callsOn c) (b.2.framesOf c) (b.2.conn c)
  flushing : b.1.flushing = none
  doomed : ∀ d ∈ b.1.doomed, d = c ∨ b.2.closed d
  closing : b.1.closing = []

theorem Entering.calm {a b : Stage × HostState HS} (h : Entering config crates c a)
    (hcalm : Calm crates a b) : Entering config crates c b where
  pending := hcalm.undisturbed.pending c h.pending
  done := by
    have hconn := hcalm.undisturbed.conn c (hcalm.undisturbed.pending c h.pending).not_closed
    have hmode := congrArg Connection.mode hconn
    have hname := congrArg Connection.networkName hconn
    have hpeer := congrArg Connection.peerId hconn
    rw [hcalm.undisturbed.calls c h.pending.not_ready, hcalm.undisturbed.frames]
    exact h.done.congr hmode hname hpeer
  flushing := hcalm.flushing
  doomed d hd := by
    rcases hcalm.doomed d hd with ha | hd
    · exact (h.doomed d ha).imp_right fun hd => hcalm.undisturbed.closed hd
    · exact .inr hd
  closing := hcalm.closing.trans h.closing

theorem Entering.failed {b : Stage × HostState HS} (h : Entering config crates c b)
    {replaced : Option ConnId} (hreg : b.1.registration = .entered c replaced)
    (hclosed : ∀ r, replaced = some r → b.2.closed r) : Failed c b :=
  ⟨.inr ⟨h.pending, replaced, hreg, hclosed⟩, h.flushing, h.doomed, h.closing⟩

/-- The peer of a connection in its room is added to the core. -/
theorem leads_addPeer (h : Entering config crates c (t, s)) {replaced : Option ConnId}
    (hreg : t.registration = .entered c replaced) (hclosed : ∀ r, replaced = some r → s.closed r) :
    Leads (Silent config crates) (addPeer c)
      (fun _ b => Entering config crates c b ∧ b.1.registration = .added c) (fun _ => Failed c)
      (t, s) := by
  refine leads_bind (leads_consult_silent (leads_bind ?_))
  have hadd : (∃ e, s.tick.addPeer c (s.ambient 0) = (.error e, s.tick)) ∨
      ∃ core routeSyncStates, s.tick.addPeer c (s.ambient 0) =
        (.ok (), { s.tick with core, routeSyncStates }.note (.added c)) := by
    unfold HostState.addPeer
    dsimp only
    split
    · exact .inl ⟨_, rfl⟩
    · exact .inr ⟨_, _, rfl⟩
  rcases hadd with ⟨e, heq⟩ | ⟨core, routeSyncStates, heq⟩
  · refine leads_modifyGet_path t (by rw [heq]) ?_
    rw [heq]
    exact leads_ofExcept (fun _ hok => nomatch hok) fun _ _ => (h.failed hreg hclosed).tick
  · have hstep : Step config crates (t, s.tick) (t.register (.added c), _) :=
      .added hreg hclosed (congrArg Prod.fst heq)
    rw [heq] at hstep
    refine leads_modifyGet_path (t.register (.added c)) ?_ ?_
    · rw [heq]
      exact .single ⟨hstep, deliveries_note_of_none _ rfl⟩
    · rw [heq]
      refine leads_ofExcept (fun _ _ => ⟨⟨h.pending, ?_, h.flushing, h.doomed, h.closing⟩, rfl⟩)
        fun _ herror => nomatch herror
      rw [HostState.callsOn_note, HostState.framesOf_note]
      simp only [Effect.callOn, Effect.frameOf, Option.toList_none, List.append_nil]
      exact h.done

/-- A connection whose handshake is finished is registered. -/
theorem leads_registerConnection (hregistry : Registry t s) (hreg : t.registration = .none)
    (hc : c ∈ t.doomed) (hname : (s.conn c).networkName ≠ "")
    (h : Entering config crates c (t, s)) :
    Leads (Silent config crates) (registerConnection crates c)
      (fun _ b => Entering config crates c b ∧ b.1.registration = .added c) (fun _ => Failed c)
      (t, s) := by
  refine leads_bind (leads_get ?_)
  dsimp only
  -- The connection enters its room.
  have hentered : Step config crates (t, s) (t.register (.entered c
      (s.rooms.get (s.conn c).networkName (s.conn c).peerId)), s.register c) :=
    .entered h.pending hc hreg hname
  refine leads_bind (leads_step _ ⟨hentered, rfl⟩ ?_)
  have hin : Entering config crates c (t.register (.entered c
      (s.rooms.get (s.conn c).networkName (s.conn c).peerId)), s.register c) :=
    ⟨h.pending, h.done, h.flushing, h.doomed, h.closing⟩
  -- After its peer is added, the route id of the network is kept.
  have hrest : ∀ {replaced : Option ConnId} {b : Stage × HostState HS},
      Entering config crates c b → b.1.registration = .entered c replaced →
      (∀ r, replaced = some r → b.2.closed r) →
      Leads (Silent config crates) (do
        addPeer c
        persistPeerRouteId ((← get).conn c).networkName)
        (fun _ b => Entering config crates c b ∧ b.1.registration = .added c) (fun _ => Failed c)
        b := by
    rintro replaced ⟨t', s'⟩ hb hreg' hclosed
    refine leads_bind ((leads_addPeer hb hreg' hclosed).mono ?_ fun _ _ _ he => he)
    rintro - ⟨t'', s''⟩ - ⟨hadded, hreg''⟩
    refine leads_bind (leads_get (leads_bind (leads_get (leads_ite
      (fun _ => leads_pure ⟨hadded, hreg''⟩) fun _ => ?_))))
    refine leads_bind (leads_step t'' ⟨.kept, rfl⟩ ?_)
    refine leads_bind (leads_bind (leads_consult_silent ?_))
    refine leads_modifyGet t'' ⟨.named, rfl⟩ (leads_pure ⟨⟨?_, ?_, ?_, ?_, ?_⟩, hreg''⟩)
    · exact hadded.pending
    · exact hadded.done
    · exact hadded.flushing
    · exact hadded.doomed
    · exact hadded.closing
  cases hreplaced : s.rooms.get (s.conn c).networkName (s.conn c).peerId with
  | none =>
    rw [hreplaced] at hin
    exact hrest hin rfl nofun
  | some r =>
    rw [hreplaced] at hin
    -- The connection that is replaced is ready.
    have hready : s.ready r := by
      obtain ⟨-, -, hr⟩ := hregistry.entry (s.routeSyncKey c) r hreplaced
      refine hr.resolve_right fun hsubject => ?_
      rw [hreg] at hsubject
      cases hsubject
    have hrc : r ≠ c := by
      rintro rfl
      exact h.pending.not_ready hready
    dsimp only
    rw [if_pos hrc]
    have hpending : ¬(s.register c).pending r := fun hp => HostState.pending.not_ready hp hready
    refine leads_bind ((leads_silent (leads_close (t := t.register (.entered c (some r))) hpending
      h.flushing)).mono ?_ fun _ _ _ he => he.elim)
    rintro - b - ⟨hcalm, hclosed⟩
    refine hrest (hin.calm hcalm) hcalm.undisturbed.registration fun r' hr' => ?_
    obtain rfl := Option.some.inj hr'
    exact hclosed

/-- A handshake is finished, and the rest of the network learns of the new peer. -/
theorem leads_finishHandshake (hregistry : Registry t s) (hreg : t.registration = .none)
    (hc : c ∈ t.doomed) (hname : (s.conn c).networkName ≠ "")
    (h : Entering config crates c (t, s)) :
    Leads (Silent config crates) (finishHandshake crates c) (fun _ => Finished) (fun _ => Failed c)
      (t, s) := by
  refine leads_bind ((leads_registerConnection hregistry hreg hc hname h).mono ?_ fun _ _ _ he => he)
  rintro - ⟨t', s'⟩ - ⟨hadded, hreg'⟩
  have hcompleted : Step config crates (t', s') ((t'.register .none).spare c,
      (s'.completeHandshake c).releaseHandshakeSlot c) := .completed hadded.pending hreg' hadded.done
  refine leads_bind (leads_step _ ⟨hcompleted, rfl⟩ ?_)
  -- No other connection that was doomed is open.
  have hfinished : Finished ((t'.register .none).spare c,
      (s'.completeHandshake c).releaseHandshakeSlot c) := by
    refine ⟨rfl, hadded.flushing, fun d hd => ?_, hadded.closing⟩
    have hdc : d ≠ c := hd.2
    refine (congrArg Connection.phase (s'.conn_modifyConn_of_ne hdc _)).trans ?_
    exact (hadded.doomed d hd.1).resolve_left hdc
  generalize (s'.completeHandshake c).releaseHandshakeSlot c = s₁ at hfinished
  refine leads_bind (leads_get (leads_bind (leads_get (leads_bind (leads_step _ ⟨.kept, rfl⟩ ?_)))))
  refine (leads_silent (leads_broadcastRouteUpdate (t := (t'.register .none).spare c)
    hfinished.flushing _ none _)).mono ?_ fun _ _ _ he => he.elim
  rintro - b - hcalm
  have hkept : Finished ((t'.register .none).spare c, { s₁ with
      resyncPendingNetworks := s₁.resyncPendingNetworks.erase (s₁.conn c).networkName }) :=
    ⟨hfinished.registration, hfinished.flushing, hfinished.doomed, hfinished.closing⟩
  exact hkept.calm hcalm

end Finish

end Host

end EasyTierEdge
