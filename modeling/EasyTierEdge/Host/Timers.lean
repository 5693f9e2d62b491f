import EasyTierEdge.Host.Moving

/-!
# The timers of the server

The server keeps a timer for the maintenance, and one for the handshake of each connection. Between
any two events they run just when there is something for them to do, so that no timer is leaked and
no handshake is forgotten (`timers_exact`).

* `Connection.Timely`: the timer of a connection tells whether its handshake is unfinished;
* `Timed`: all timers, within an event too.
-/

namespace EasyTierEdge

namespace Host

variable {HS : Type} {config : ServerConfig} {crates : HostCrates HS}

/-- The timer of the handshake runs while it is unfinished, and is stopped at the latest when the
    connection is disposed. -/
structure Connection.Timely (conn : Connection) : Prop where
  running : conn.phase.pending = true → conn.handshakeTimer = true
  stopped : conn.phase = .ready → conn.handshakeTimer = false
  disposed : conn.phase = .closed → conn.secure = none → conn.handshakeTimer = false
  held : conn.phase ≠ .closed → conn.secure ≠ none

namespace Connection.Timely

variable {conn conn' : Connection}

theorem congr (h : conn.Timely) (hphase : conn'.phase = conn.phase)
    (htimer : conn'.handshakeTimer = conn.handshakeTimer) (hsecure : conn'.secure = conn.secure) :
    conn'.Timely := by
  constructor
  · rw [hphase, htimer]
    exact h.running
  · rw [hphase, htimer]
    exact h.stopped
  · rw [hphase, hsecure, htimer]
    exact h.disposed
  · rw [hphase, hsecure]
    exact h.held

theorem of_core (h : conn.Timely) (hcore : conn'.core = conn.core) : conn'.Timely := by
  have hphase := congrArg Connection.phase hcore
  have htimer := congrArg Connection.handshakeTimer hcore
  have hsecure := congrArg Connection.secure hcore
  exact h.congr hphase htimer hsecure

theorem completed (h : conn.Timely) (hp : conn.phase.pending = true) :
    { conn with handshakeTimer := false, phase := .ready }.Timely :=
  ⟨fun hpending => (by cases hpending), fun _ => rfl, fun hclosed => (by cases hclosed), fun _ =>
    h.held fun hclosed => by
      rw [hclosed] at hp
      cases hp⟩

/-- A closed connection has not lost its `SecurePeer` yet. -/
theorem closed (h : conn.Timely) (hopen : conn.phase ≠ .closed) :
    { conn with phase := .closed }.Timely :=
  ⟨fun hpending => (by cases hpending), fun hready => (by cases hready),
    fun _ hnone => absurd hnone (h.held hopen), fun hnot => absurd rfl hnot⟩

end Connection.Timely

namespace HostState

variable (s : HostState HS)

/-- The last connection that is closed stops the maintenance. -/
theorem maintenanceTimer_unregister (c : ConnId) : (s.unregister c).maintenanceTimer =
    (s.maintenanceTimer && !(s.connections.erase c).isEmpty) := by
  have hlast : ∀ s : HostState HS,
      (if s.connections.isEmpty && s.maintenanceTimer then { s with maintenanceTimer := false }
        else s).maintenanceTimer = (s.maintenanceTimer && !s.connections.isEmpty) := by
    intro s
    cases s.connections.isEmpty <;> cases htimer : s.maintenanceTimer <;> simp [htimer]
  unfold unregister
  dsimp only
  rw [hlast]
  split_ifs <;> rfl

theorem connections_unregister (c : ConnId) :
    (s.unregister c).connections = s.connections.erase c := by
  obtain ⟨_, _, _, heq⟩ := s.unregister_eq c
  rw [heq]

/-- The first connection that is accepted starts the maintenance. -/
theorem maintenanceTimer_accept {ipKey : String} {a : Ambient}
    (h : (s.accept config crates ipKey a).1 = true) :
    (s.accept config crates ipKey a).2.maintenanceTimer = true := by
  unfold accept at h ⊢
  split at h
  · dsimp only [scheduleMaintenance]
    split_ifs with hset
    · rw [createConnection, Bool.or_eq_true] at hset
      refine hset.resolve_right fun hempty => ?_
      simp at hempty
    · rfl
  · cases h

end HostState

/-- The timers run when they should. -/
structure Timed (t : Course) (s : HostState HS) : Prop where
  maintenance : t.maintaining = false → (s.maintenanceTimer = true ↔ s.connections ≠ [])
  paused : t.maintaining = true → s.maintenanceTimer = false
  timely : ∀ c, c < s.conns.length → (s.conn c).Timely

namespace Timed

variable {t t' : Course} {s s' : HostState HS} {c : ConnId}

theorem init (config : ServerConfig) : Timed .rest (HostState.init config : HostState HS) where
  maintenance _ := iff_of_false (fun h => by cases h) fun h => h rfl
  paused h := by cases h
  timely _ hc := by cases hc

/-- Nothing that timers depend on has changed. -/
theorem congr (h : Timed t s) (ht : t'.maintaining = t.maintaining) (hconn : ∀ d, (s'.conn d).core = (s.conn d).core)
    (hlength : s'.conns.length = s.conns.length)
    (hconnections : s'.connections = s.connections)
    (htimer : s'.maintenanceTimer = s.maintenanceTimer) : Timed t' s' where
  maintenance := by
    rw [ht, htimer, hconnections]
    exact h.maintenance
  paused := by
    rw [ht, htimer]
    exact h.paused
  timely d hd := (h.timely d (hlength ▸ hd)).of_core (hconn d)

theorem of_conns (h : Timed t s) (ht : t'.maintaining = t.maintaining)
    (hconns : s'.conns = s.conns) (hconnections : s'.connections = s.connections)
    (htimer : s'.maintenanceTimer = s.maintenanceTimer) : Timed t' s' :=
  h.congr ht (fun d => by rw [HostState.conn, hconns, HostState.conn]) (congrArg _ hconns) hconnections
    htimer

/-- A connection is changed, and its timer with it. -/
theorem modifyConn (h : Timed t s) {f : Connection → Connection}
    (hf : (f (s.conn c)).Timely) : Timed t (s.modifyConn c f) := by
  refine ⟨h.maintenance, h.paused, fun d hd => ?_⟩
  rw [s.conn_modifyConn]
  split_ifs with hdc
  · exact hf
  · have hlength : (s.modifyConn c f).conns.length = s.conns.length := List.length_modify ..
    exact h.timely d (hlength ▸ hd)

/-- Every move keeps the timers right. -/
theorem move {a b : Course × HostState HS} (hmove : Move config crates a b) (h : Timed a.1 a.2) :
    Timed b.1 b.2 := by
  cases hmove with
  | aside haside => exact h.of_conns rfl haside.conns haside.connections haside.maintenanceTimer
  | received => exact h.of_conns rfl rfl rfl rfl
  | announced => exact h.of_conns rfl rfl rfl rfl
  | @sent _ s c frame origin =>
    have hsends := sends_sendConnection s c frame origin
    exact h.congr rfl hsends.conn hsends.length hsends.connections hsends.maintenanceTimer
  | @accepted s ipKey haccept =>
    obtain ⟨world, timer, heq⟩ := s.tick.accept_eq haccept
    refine ⟨fun _ => iff_of_true (s.tick.maintenanceTimer_accept haccept) ?_,
      fun hpaused => (by cases hpaused), fun d hd => ?_⟩
    · change (s.tick.accept config crates ipKey (s.ambient 0)).2.connections ≠ []
      rw [heq]
      exact List.append_ne_nil_of_right_ne_nil _ (List.cons_ne_nil _ _)
    · change ((s.tick.accept config crates ipKey (s.ambient 0)).2.conn d).Timely
      by_cases hdc : d = s.conns.length
      · have hself : ((s.tick.accept config crates ipKey (s.ambient 0)).2.conn d).phase = .msg1 ∧
            ((s.tick.accept config crates ipKey (s.ambient 0)).2.conn d).handshakeTimer = true ∧
            ((s.tick.accept config crates ipKey (s.ambient 0)).2.conn d).secure =
              some (s.ambient 0).handle := by
          rw [hdc, HostState.conn, s.tick.conns_accept haccept]
          simp [HostState.createConnection, HostState.tick]
        obtain ⟨hphase, hrunning, hheld⟩ := hself
        refine ⟨fun _ => hrunning, ?_, ?_, fun _ => hheld ▸ Option.some_ne_none _⟩
        · intro hready
          cases hphase.symm.trans hready
        · intro hclosed
          cases hphase.symm.trans hclosed
      · rw [s.tick.conn_accept_of_ne haccept hdc]
        refine h.timely d (lt_of_le_of_ne ?_ hdc)
        change d < (s.tick.accept config crates ipKey (s.ambient 0)).2.conns.length at hd
        rw [s.tick.conns_accept haccept] at hd
        exact Nat.le_of_lt_succ (hd.trans_eq List.length_append)
  | @introduced s c f hc _ hf =>
    have hlt := s.lt_length_of_not_closed hc.not_closed
    refine modifyConn (s := s) h ((h.timely c hlt).congr ?_ ?_ ?_)
    · exact hf.phase _
    · exact hf.handshakeTimer _
    · exact hf.secure _
  | @greeted s c hc =>
    have hlt := s.lt_length_of_not_closed hc.not_closed
    have htimely := h.timely c hlt
    refine modifyConn (s := s) h ⟨fun _ => htimely.running hc, fun hready => (by cases hready),
      fun hclosed => (by cases hclosed), fun _ => ?_⟩
    exact htimely.held hc.not_closed
  | entered => exact h.of_conns rfl rfl rfl rfl
  | @added s c a _ hadd =>
    obtain ⟨core, routeSyncStates, heq⟩ := s.addPeer_eq hadd
    rw [heq]
    exact h.of_conns rfl rfl rfl rfl
  | @completed s c hc =>
    have hlt := s.lt_length_of_not_closed hc.not_closed
    have hready := modifyConn (s := s) (f := fun conn =>
      { conn with handshakeTimer := false, phase := .ready }) h ((h.timely c hlt).completed hc)
    exact hready.of_conns rfl rfl rfl rfl
  | joined => exact h.of_conns rfl rfl rfl rfl
  | presented => exact h.of_conns rfl rfl rfl rfl
  | @left t s c a hc =>
    have hlt := s.lt_length_of_not_closed hc
    have htimer : (s.withdraw crates c a).maintenanceTimer =
        (s.maintenanceTimer && !(s.connections.erase c).isEmpty) := by
      rw [← s.maintenanceTimer_unregister c]
      unfold HostState.withdraw
      split_ifs <;> rfl
    have hconnections : (s.withdraw crates c a).connections = s.connections.erase c := by
      rw [← s.connections_unregister c]
      unfold HostState.withdraw
      split_ifs <;> rfl
    have hclosed := modifyConn (s := s) (f := fun conn => { conn with phase := .closed }) h
      ((h.timely c hlt).closed hc)
    obtain ⟨hconns, -⟩ := @HostState.withdraw_eq _ crates s c a
    refine ⟨fun hrest => ?_, fun hpaused => ?_, fun d hd => ?_⟩
    · change (s.withdraw crates c a).maintenanceTimer = true ↔
        (s.withdraw crates c a).connections ≠ []
      rw [htimer, hconnections, Bool.and_eq_true, Bool.not_eq_true', List.isEmpty_eq_false_iff,
        h.maintenance hrest]
      refine and_iff_right_of_imp fun hne hnil => hne ?_
      rw [show s.connections = [] from hnil]
      rfl
    · change (s.withdraw crates c a).maintenanceTimer = false
      rw [htimer, h.paused hpaused]
      rfl
    · change ((s.withdraw crates c a).conn d).Timely
      rw [HostState.conn, hconns]
      refine hclosed.timely d ?_
      rw [← hconns]
      exact hd
  | @disposed t s c a hc =>
    refine ⟨h.maintenance, h.paused, fun d hd => ?_⟩
    change ((s.modifyConn c fun conn =>
      { conn with handshakeTimer := false, secure := none, legacyCipher := none }).conn d).Timely
    rw [s.conn_modifyConn]
    split_ifs with hdc
    · have hphase : (s.conn c).phase = .closed := hc
      exact ⟨fun _ => by simp_all [Phase.pending], fun _ => rfl, fun _ _ => rfl,
        fun hnot => absurd hphase hnot⟩
    · refine h.timely d (hd.trans_eq ?_)
      exact List.length_modify ..
  | paused => exact ⟨fun hrest => (by cases hrest), fun _ => rfl, h.timely⟩
  | @resumed s =>
    have htimer : s.maintenanceTimer = false := h.paused rfl
    unfold HostState.scheduleMaintenance
    rw [htimer, Bool.false_or]
    cases hempty : s.connections.isEmpty with
    | true =>
      rw [List.isEmpty_iff] at hempty
      refine ⟨fun _ => ?_, fun hpaused => (by cases hpaused), h.timely⟩
      exact iff_of_false (by simp [htimer]) fun hne => hne hempty
    | false =>
      rw [List.isEmpty_eq_false_iff] at hempty
      exact ⟨fun _ => iff_of_true rfl hempty, fun hpaused => (by cases hpaused), h.timely⟩

end Timed

/-! ## The end of a connection -/

section Ends

variable {s : HostState HS} {c : ConnId}

/-- A program that leaves a connection closed. -/
theorem closed_of_leads {α : Type} {x : Action HS α} (hx : Leads (Silent config crates) x
    (fun _ b => Finished b ∧ b.2.closed c) (fun _ _ => False) (.idle, s)) : (x s).2.closed c := by
  obtain ⟨b, -, hb, hpost⟩ := hx
  rw [← hb]
  cases hresult : (x s).1 with
  | ok v =>
    rw [hresult] at hpost
    exact hpost.2
  | error e => exact (by rw [hresult] at hpost; exact hpost : False).elim

/-- Closing what is closed changes nothing. -/
theorem closeBy_of_closed (remove : ConnId → Action HS Unit) (hc : s.closed c) :
    closeBy remove c s = (.ok (), s) := by
  have hget : (get : Action HS (HostState HS)) s = (.ok s, s) := rfl
  unfold closeBy
  rw [Prog.run_bind, hget]
  exact congrFun (if_pos hc) s

/-- A message of a closed connection is ignored, whether or not it can be read. -/
theorem handleMessage_of_closed (hc : s.closed c) (data : Data) :
    ∃ result, handleMessage config crates c data s = (result, s) := by
  have hget : (get : Action HS (HostState HS)) s = (.ok s, s) := rfl
  have hofExcept : ∀ {α : Type} (x : Except String α), (Prog.ofExcept x : Action HS α) s = (x, s) :=
    fun _ => rfl
  have hthrow : ∀ e : String, (throw e : Action HS Unit) s = (.error e, s) := fun _ => rfl
  unfold handleMessage
  rw [Prog.run_bind, hofExcept]
  cases toUint8Array data with
  | error e => exact ⟨_, rfl⟩
  | ok frame =>
    dsimp only
    rw [Prog.run_ite]
    split_ifs with hlong
    · exact ⟨_, rfl⟩
    · rw [Prog.run_bind, hofExcept]
      cases parsePacket frame with
      | error e => exact ⟨_, rfl⟩
      | ok packet =>
        dsimp only
        rw [Prog.run_bind, hget]
        exact ⟨_, congrFun (if_pos hc) s⟩

/-- What comes for a closed connection is ignored. -/
theorem handleEvent_of_closed (hc : s.closed c) {e : ServerEvent}
    (he : e = .handshakeTimeout c ∨ e = .socketClosed c ∨ ∃ data, e = .message c data) :
    handleEvent config crates e s = (.ok none, s) := by
  have hget : (get : Action HS (HostState HS)) s = (.ok s, s) := rfl
  have hclose : close crates c s = (.ok (), s) := closeBy_of_closed _ hc
  rcases he with rfl | rfl | ⟨data, rfl⟩
  · unfold handleEvent
    dsimp only
    rw [Prog.run_bind, hget]
    dsimp only
    split_ifs
    · rw [Prog.run_bind, hclose]
      rfl
    · rfl
  · have hremove : removeConnection crates c s = (.ok (), s) := by
      unfold removeConnection
      rw [Prog.run_bind, hget]
      dsimp only
      cases s.openConnections with
      | zero => rfl
      | succ n =>
        unfold removeConnectionIn
        rw [Prog.run_bind, hget]
        exact congrFun (if_pos hc) s
    unfold handleEvent
    dsimp only
    rw [Prog.run_bind, hremove]
    rfl
  · obtain ⟨result, hresult⟩ : ∃ result, handleMessage config crates c data s = (result, s) :=
      handleMessage_of_closed hc data
    unfold handleEvent
    dsimp only
    rw [Prog.run_bind, Prog.run_tryCatch, hresult]
    cases result with
    | ok => rfl
    | error e =>
      dsimp only
      rw [failConnection, hclose]
      rfl

end Ends

/-- Between any two events of a run, the maintenance is scheduled just while a connection is open, and
    the timer of a connection runs just while its handshake is unfinished. When a handshake takes
    too long, or a socket ends, the connection is closed; what comes for it later is ignored. -/
theorem timers_exact (inputs : List (ServerEvent × (ℕ → Ambient))) :
    let s : HostState HS := (server config crates).run (.init config) inputs
    (s.maintenanceTimer = true ↔ ∃ c, ¬s.closed c) ∧
    (∀ c, (s.conn c).handshakeTimer = true ↔ s.pending c) ∧
    (∀ c ambient, s.pending c →
      ((server config crates).step s (.handshakeTimeout c, ambient)).1.closed c) ∧
    (∀ c ambient, ((server config crates).step s (.socketClosed c, ambient)).1.closed c) ∧
    (∀ c ambient e, s.closed c →
      e = .handshakeTimeout c ∨ e = .socketClosed c ∨ (∃ data, e = .message c data) →
      (server config crates).step s (e, ambient) = ({ s with ambient }, .ok none)) := by
  intro s
  have hreachable : (server config crates).Reachable s := ⟨inputs, rfl⟩
  obtain ⟨hregistry, hhandshakes, howned⟩ := Reachable.of_step config crates
    (P := fun a => Owned config crates a.1 a.2) (.init config crates)
    (fun _ _ hstep _ h => h.step hstep) hreachable
  obtain ⟨-, htimed⟩ := Reachable.of_move config crates (P := fun a => Timed a.1 a.2) (.init config)
    (fun _ _ h => h.of_conns rfl rfl rfl rfl) (fun _ _ hmove _ h => h.move hmove) hreachable
  have htimer : ∀ c, (s.conn c).handshakeTimer = true ↔ s.pending c := by
    intro c
    by_cases hlt : c < s.conns.length
    · have htimely := htimed.timely c hlt
      refine ⟨fun hrunning => ?_, htimely.running⟩
      rcases s.phase_cases c with hp | hr | hc
      · exact hp
      · cases hrunning.symm.trans (htimely.stopped hr)
      · cases hrunning.symm.trans (htimely.disposed hc ((howned.closed_iff c).1 hc))
    · have hnone : s.conn c = default := List.getD_eq_default _ _ (Nat.not_lt.1 hlt)
      rw [HostState.pending, hnone]
      exact iff_of_false Bool.false_ne_true Bool.false_ne_true
  refine ⟨?_, htimer, fun c ambient hc => ?_, fun c ambient => ?_, fun c ambient e hc he => ?_⟩
  · rw [htimed.maintenance rfl]
    constructor
    · intro hne
      obtain ⟨c, hc⟩ := List.exists_mem_of_ne_nil s.connections hne
      exact ⟨c, (hregistry.connections c).1 hc⟩
    · rintro ⟨c, hc⟩
      exact List.ne_nil_of_mem ((hregistry.connections c).2 hc)
  · -- The timer still runs.
    have hrunning : (({ s with ambient } : HostState HS).conn c).handshakeTimer = true :=
      (htimer c).2 hc
    have hleads : Leads (Silent config crates) (handleEvent config crates (.handshakeTimeout c))
        (fun _ b => Finished b ∧ b.2.closed c) (fun _ _ => False) (.idle, { s with ambient }) :=
      leads_bind (leads_get (leads_ite (fun _ => leads_bind
        ((leads_close_failed ((finished_idle _).failed c)).mono (fun _ _ _ hb => leads_pure hb)
          fun _ _ _ he => he)) fun hnot => absurd hrunning hnot))
    exact closed_of_leads hleads
  · have hleads : Leads (Silent config crates) (handleEvent config crates (.socketClosed c))
        (fun _ b => Finished b ∧ b.2.closed c) (fun _ _ => False) (.idle, { s with ambient }) :=
      leads_bind ((leads_removeConnection_failed ((finished_idle _).failed c)).mono
        (fun _ _ _ hb => leads_pure hb) fun _ _ _ he => he)
    exact closed_of_leads hleads
  · have hclosed : ({ s with ambient } : HostState HS).closed c := hc
    have hignored : handleEvent config crates e { s with ambient } = (.ok none, { s with ambient }) :=
      handleEvent_of_closed hclosed he
    have hstep : (server config crates).step s (e, ambient) =
        ((handleEvent config crates e { s with ambient }).2,
          (handleEvent config crates e { s with ambient }).1) := rfl
    rw [hstep, hignored]

end Host

end EasyTierEdge
