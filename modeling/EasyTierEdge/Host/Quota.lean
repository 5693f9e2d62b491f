import EasyTierEdge.Host.Undisturbed

/-!
# The quota of unfinished handshakes

The host counts the connections whose handshake is unfinished, all together and by the address of
the client, and bounds both counts (`Quota`). A slot is taken when a connection is accepted, and
given back when its handshake is finished, or when it is closed before (`Quota.step`).
-/

namespace EasyTierEdge

namespace Host

variable {HS : Type} {config : ServerConfig} {crates : HostCrates HS}

namespace HostState

variable (s : HostState HS)

/-- The number of unfinished handshakes of the clients at such addresses. -/
def slots (p : String → Bool) : ℕ :=
  s.conns.countP fun conn => conn.phase.pending && p conn.clientIp

/-- The number of connections in phase `msg1` or `msg3`. -/
def unfinished : ℕ := s.slots fun _ => true

/-- The number of those of a client address. -/
def unfinishedOf (clientIp : String) : ℕ := s.slots (· == clientIp)

theorem conns_eq : s.conns = (List.range s.conns.length).map s.conn := by
  refine List.ext_getElem (by simp) fun i hi _ => ?_
  rw [List.getElem_map, List.getElem_range, conn, List.getD_eq_getElem _ _ hi]

variable {s} {s' : HostState HS}

/-- Slots only depend on the connections in their handshakes. -/
theorem slots_congr (hlength : s'.conns.length = s.conns.length)
    (hpending : ∀ d, s'.pending d ↔ s.pending d)
    (hip : ∀ d, s.pending d → (s'.conn d).clientIp = (s.conn d).clientIp) (p : String → Bool) :
    s'.slots p = s.slots p := by
  rw [slots, slots, s.conns_eq, s'.conns_eq, List.countP_map, List.countP_map, hlength]
  refine List.countP_congr fun d _ => ?_
  rw [Function.comp_apply, Function.comp_apply, Bool.and_eq_true, Bool.and_eq_true]
  constructor
  · rintro ⟨hd, hp⟩
    have hd := (hpending d).1 hd
    exact ⟨hd, hip d hd ▸ hp⟩
  · rintro ⟨hd, hp⟩
    exact ⟨(hpending d).2 hd, (hip d hd).symm ▸ hp⟩

variable {c : ConnId}

/-- The slots after a connection has left its handshake. -/
theorem slots_modifyConn (hc : s.pending c) {f : Connection → Connection}
    (hf : (f (s.conn c)).phase.pending = false) (p : String → Bool) :
    (s.modifyConn c f).slots p + (if p (s.conn c).clientIp then 1 else 0) = s.slots p := by
  have hcount := s.countP_modifyConn hc.not_closed f fun conn => conn.phase.pending && p conn.clientIp
  have hpending : (s.conn c).phase.pending = true := hc
  rw [hf, hpending, Bool.true_and, Bool.false_and] at hcount
  exact hcount

theorem releaseHandshakeSlot_congr (hpending : s'.pendingHandshakes = s.pendingHandshakes)
    (hbyIp : s'.pendingHandshakesByIp = s.pendingHandshakesByIp)
    (hip : (s'.conn c).clientIp = (s.conn c).clientIp) :
    (s'.releaseHandshakeSlot c).pendingHandshakes = (s.releaseHandshakeSlot c).pendingHandshakes ∧
      (s'.releaseHandshakeSlot c).pendingHandshakesByIp =
        (s.releaseHandshakeSlot c).pendingHandshakesByIp := by
  unfold releaseHandshakeSlot
  dsimp only
  rw [hpending, hbyIp, hip]
  exact ⟨rfl, rfl⟩

variable (s c)

/-- Closing a connection gives its slot back, if it has one. -/
theorem counters_unregister :
    (s.unregister c).pendingHandshakes = (if (s.conn c).phase = .ready then s.pendingHandshakes
      else (s.releaseHandshakeSlot c).pendingHandshakes) ∧
    (s.unregister c).pendingHandshakesByIp = if (s.conn c).phase = .ready then
      s.pendingHandshakesByIp else (s.releaseHandshakeSlot c).pendingHandshakesByIp := by
  let close : Connection → Connection := fun conn => { conn with phase := .closed }
  have hip := s.conn_modifyConn_congr (g := Connection.clientIp) (f := close) (fun _ => rfl) c c
  let marked : HostState HS := { s with
    conns := (s.modifyConn c close).conns
    connections := s.connections.erase c
    trace := s.trace ++ [.closed c] }
  obtain ⟨hpending, hbyIp⟩ := @releaseHandshakeSlot_congr _ s marked c rfl rfl hip
  unfold unregister
  dsimp only
  by_cases hready : (s.conn c).phase = .ready
  · rw [if_pos hready, if_pos hready, if_pos hready]
    split_ifs <;> exact ⟨rfl, rfl⟩
  · rw [if_neg hready, if_neg hready, if_neg hready]
    split_ifs <;> exact ⟨hpending, hbyIp⟩

theorem connections_unregister_length :
    (s.unregister c).connections.length ≤ s.connections.length := by
  obtain ⟨_, _, _, heq⟩ := s.unregister_eq c
  rw [heq]
  exact List.length_erase_le

end HostState

/-! ## The invariant -/

/-- The counters are right, and within their bounds. -/
structure Quota (config : ServerConfig) (s : HostState HS) : Prop where
  pendingHandshakes : s.pendingHandshakes = s.unfinished
  byIp : ∀ clientIp, s.pendingHandshakesByIp.lookup clientIp =
    if s.unfinishedOf clientIp = 0 then none else some (s.unfinishedOf clientIp)
  connections : s.connections.length ≤ maxConnections
  maxPending : s.pendingHandshakes ≤ maxPendingHandshakes
  maxPerIp : ∀ clientIp, s.unfinishedOf clientIp ≤ config.maxPendingPerIp

namespace Quota

variable {s s' : HostState HS} {c : ConnId}

theorem init (config : ServerConfig) : Quota config (HostState.init config : HostState HS) where
  pendingHandshakes := rfl
  byIp _ := rfl
  connections := Nat.zero_le _
  maxPending := Nat.zero_le _
  maxPerIp _ := Nat.zero_le _

/-- A step that takes no slot and gives none back. -/
theorem congr (h : Quota config s) (hslots : ∀ p, s'.slots p = s.slots p)
    (hpending : s'.pendingHandshakes = s.pendingHandshakes)
    (hbyIp : s'.pendingHandshakesByIp = s.pendingHandshakesByIp)
    (hconnections : s'.connections.length ≤ s.connections.length) : Quota config s' where
  pendingHandshakes := by
    rw [hpending, h.pendingHandshakes]
    exact (hslots _).symm
  byIp clientIp := by
    rw [hbyIp, h.byIp, HostState.unfinishedOf, HostState.unfinishedOf, hslots]
  connections := hconnections.trans h.connections
  maxPending := hpending ▸ h.maxPending
  maxPerIp clientIp := by
    rw [HostState.unfinishedOf, hslots]
    exact h.maxPerIp clientIp

/-- A step that gives the slot of a connection back. -/
theorem released (h : Quota config s)
    (hslots : ∀ p, s'.slots p + (if p (s.conn c).clientIp then 1 else 0) = s.slots p)
    (hpending : s'.pendingHandshakes = (s.releaseHandshakeSlot c).pendingHandshakes)
    (hbyIp : s'.pendingHandshakesByIp = (s.releaseHandshakeSlot c).pendingHandshakesByIp)
    (hconnections : s'.connections.length ≤ s.connections.length) : Quota config s' := by
  -- The connection has a slot.
  have hall : s'.unfinished + 1 = s.unfinished := hslots fun _ => true
  have hof : ∀ clientIp, s'.unfinishedOf clientIp +
      (if (s.conn c).clientIp = clientIp then 1 else 0) = s.unfinishedOf clientIp := by
    intro clientIp
    have hcount := hslots (· == clientIp)
    simp only [beq_iff_eq] at hcount
    exact hcount
  have hself := hof (s.conn c).clientIp
  rw [if_pos rfl] at hself
  have hlookup := h.byIp (s.conn c).clientIp
  rw [if_neg (by omega)] at hlookup
  have hcount : s'.pendingHandshakes + 1 = s.pendingHandshakes := by
    have hpos : 0 < s.pendingHandshakes := by
      rw [h.pendingHandshakes]
      omega
    rw [hpending, HostState.releaseHandshakeSlot]
    dsimp only
    rw [if_pos hpos]
    omega
  have hremaining : (s.pendingHandshakesByIp.lookup (s.conn c).clientIp).getD 1 - 1 =
      s'.unfinishedOf (s.conn c).clientIp := by
    rw [hlookup, Option.getD_some]
    omega
  constructor
  · have hbefore := h.pendingHandshakes
    omega
  · intro clientIp
    have hcount := hof clientIp
    rw [hbyIp, HostState.releaseHandshakeSlot]
    dsimp only
    rw [hremaining]
    by_cases hip : (s.conn c).clientIp = clientIp
    · subst hip
      split_ifs with hpos hzero hzero
      · omega
      · exact Finmap.lookup_insert _
      · exact Finmap.lookup_erase _ _
      · omega
    · rw [if_neg hip] at hcount
      have hother : s.pendingHandshakesByIp.lookup clientIp =
          if s'.unfinishedOf clientIp = 0 then none else some (s'.unfinishedOf clientIp) := by
        rw [h.byIp, ← hcount, Nat.add_zero]
      refine Eq.trans ?_ hother
      split_ifs with hpos
      · exact Finmap.lookup_insert_of_ne _ (Ne.symm hip)
      · exact Finmap.lookup_erase_ne (Ne.symm hip)
  · exact hconnections.trans h.connections
  · have hbound := h.maxPending
    omega
  · intro clientIp
    have hbound := h.maxPerIp clientIp
    have hcount := hof clientIp
    omega

/-- A connection that is accepted takes a slot. -/
theorem accepted (h : Quota config s) {ipKey : String} {a : Ambient}
    (hroom : s.connections.length < maxConnections)
    (hpending : s.pendingHandshakes < maxPendingHandshakes)
    (hip : (s.pendingHandshakesByIp.lookup ipKey).getD 0 < config.maxPendingPerIp)
    (haccept : (s.accept config crates ipKey a).1 = true) :
    Quota config (s.accept config crates ipKey a).2 := by
  obtain ⟨world, timer, heq⟩ := s.accept_eq haccept
  have hslots : ∀ p, (s.accept config crates ipKey a).2.slots p =
      s.slots p + if p ipKey then 1 else 0 := by
    intro p
    rw [heq]
    refine (List.countP_append).trans ?_
    rw [List.countP_singleton]
    rfl
  have hall : (s.accept config crates ipKey a).2.unfinished = s.unfinished + 1 :=
    hslots fun _ => true
  have hof : ∀ clientIp, (s.accept config crates ipKey a).2.unfinishedOf clientIp =
      s.unfinishedOf clientIp + if ipKey = clientIp then 1 else 0 := by
    intro clientIp
    have hcount := hslots (· == clientIp)
    simp only [beq_iff_eq] at hcount
    exact hcount
  -- The count of the client before.
  have hbefore : (s.pendingHandshakesByIp.lookup ipKey).getD 0 = s.unfinishedOf ipKey := by
    rw [h.byIp]
    split_ifs with hzero
    · exact hzero.symm
    · rfl
  have hcounter : (s.accept config crates ipKey a).2.pendingHandshakes = s.pendingHandshakes + 1 := by
    rw [heq]
  constructor
  · rw [hcounter, hall, h.pendingHandshakes]
  · intro clientIp
    have hcounters : (s.accept config crates ipKey a).2.pendingHandshakesByIp =
        s.pendingHandshakesByIp.insert ipKey (s.unfinishedOf ipKey + 1) := by
      rw [heq, ← hbefore]
    rw [hcounters, hof]
    by_cases hip : ipKey = clientIp
    · subst hip
      rw [Finmap.lookup_insert, if_pos rfl, if_neg (Nat.succ_ne_zero _)]
    · rw [Finmap.lookup_insert_of_ne _ (Ne.symm hip), if_neg hip, h.byIp, Nat.add_zero]
  · rw [heq]
    change (s.connections ++ [s.conns.length]).length ≤ _
    rw [List.length_append, List.length_singleton]
    exact hroom
  · rw [hcounter]
    exact hpending
  · intro clientIp
    rw [hof]
    split_ifs with heq
    · rw [← heq, ← hbefore]
      exact hip
    · exact h.maxPerIp clientIp

/-- Closings and route updates. -/
theorem quiet {a b : Stage × HostState HS} (hstep : Quiet crates a b) (h : Quota config a.2) :
    Quota config b.2 := by
  have hab := hstep.undisturbed
  have hslots : ∀ p, b.2.slots p = a.2.slots p := by
    refine HostState.slots_congr hab.length (fun d => ⟨fun hd => ?_, hab.pending d⟩) fun d hd => ?_
    · have hphase := congrArg Connection.phase (hab.conn d hd.not_closed)
      exact (congrArg Phase.pending hphase).symm.trans hd
    · have hip := congrArg Connection.clientIp (hab.conn d (hab.pending d hd).not_closed)
      exact hip
  have hcounters : b.2.pendingHandshakes = a.2.pendingHandshakes ∧
      b.2.pendingHandshakesByIp = a.2.pendingHandshakesByIp ∧
      b.2.connections.length ≤ a.2.connections.length := by
    cases hstep with
    | consulted | encrypted | counted | sent | disposed | announced | unsent =>
      exact ⟨rfl, rfl, le_rfl⟩
    | @left t s c a hc =>
      obtain ⟨hpending, hbyIp⟩ := s.counters_unregister c
      have hphase : (s.conn c).phase = .ready := hc
      rw [if_pos hphase] at hpending hbyIp
      exact ⟨hpending, hbyIp, s.connections_unregister_length c⟩
    | @rebuilt t s c state a now =>
      rcases s.rebuild_cases crates (s.routeSyncKey c) state now a with
        ⟨e, -, heq⟩ | ⟨packet, -, heq⟩
      · rw [heq]
        exact ⟨rfl, rfl, le_rfl⟩
      · rw [heq]
        exact ⟨rfl, rfl, le_rfl⟩
    | @unbuilt t s c state a now =>
      rcases s.rebuild_cases crates (s.routeSyncKey c) state now a with
        ⟨e, -, heq⟩ | ⟨packet, -, heq⟩
      · rw [heq]
        exact ⟨rfl, rfl, le_rfl⟩
      · rw [heq]
        exact ⟨rfl, rfl, le_rfl⟩
  exact h.congr hslots hcounters.1 hcounters.2.1 hcounters.2.2

/-- A change of a connection that leaves its slot. -/
theorem modifyConn (h : Quota config s) {f : Connection → Connection} (c : ConnId)
    (hphase : ∀ conn, (f conn).phase.pending = conn.phase.pending)
    (hip : ∀ conn, (f conn).clientIp = conn.clientIp) : Quota config (s.modifyConn c f) := by
  refine h.congr (fun p => s.countP_modifyConn_congr c fun conn => ?_) rfl rfl le_rfl
  rw [hphase, hip]

/-- Every step keeps the counters right. -/
theorem step {a b : Stage × HostState HS} (hstep : Step config crates a b) (h : Quota config a.2) :
    Quota config b.2 := by
  cases hstep with
  | quiet hquiet => exact h.quiet hquiet
  | accepted hroom hpending hip haccept => exact h.accepted hroom hpending hip haccept
  | prepared _ _ _ hf =>
    exact h.modifyConn _ (fun conn => congrArg Phase.pending (hf.phase conn)) hf.clientIp
  | @greeted t s c hc =>
    refine h.congr (fun p => ?_) rfl rfl le_rfl
    have hcount := s.countP_modifyConn hc.not_closed (fun conn => { conn with phase := .msg3 })
      fun conn => conn.phase.pending && p conn.clientIp
    have hpending : (s.conn c).phase.pending = true := hc
    rw [hpending] at hcount
    exact Nat.add_right_cancel hcount
  | @added t s c replaced a =>
    have heq : ∃ core routeSyncStates, (s.addPeer c a).2 = { s with core, routeSyncStates } ∨
        (s.addPeer c a).2 = { s with core, routeSyncStates }.note (.added c) := by
      unfold HostState.addPeer
      dsimp only
      split
      · exact ⟨_, _, .inl rfl⟩
      · exact ⟨_, _, .inr rfl⟩
    obtain ⟨core, routeSyncStates, heq | heq⟩ := heq
    · rw [heq]
      exact h.congr (fun _ => rfl) rfl rfl le_rfl
    · rw [heq]
      exact h.congr (fun _ => rfl) rfl rfl le_rfl
  | @completed t s c hc =>
    obtain ⟨hpending, hbyIp⟩ := @HostState.releaseHandshakeSlot_congr _ s (s.completeHandshake c) c
      rfl rfl
      (s.conn_modifyConn_congr (g := Connection.clientIp)
        (f := fun conn => { conn with handshakeTimer := false, phase := .ready }) (fun _ => rfl) c c)
    exact h.released (HostState.slots_modifyConn hc rfl) hpending hbyIp le_rfl
  | @abandoned t s c hc =>
    obtain ⟨hpending, hbyIp⟩ := s.counters_unregister c
    have hphase : (s.conn c).phase ≠ .ready := hc.not_ready
    rw [if_neg hphase] at hpending hbyIp
    refine h.released (fun p => ?_) hpending hbyIp (s.connections_unregister_length c)
    refine Eq.trans ?_ (HostState.slots_modifyConn (f := fun conn => { conn with phase := .closed })
      hc rfl p)
    rw [HostState.slots, s.conns_unregister]
    rfl
  | kept | named | opened | received | called | decrypted | answered | forwarded | entered
    | requested | responded | settled | unsettled | swept | expired | retired =>
    exact h.congr (fun _ => rfl) rfl rfl le_rfl

end Quota

end Host

end EasyTierEdge
