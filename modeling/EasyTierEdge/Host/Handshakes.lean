import EasyTierEdge.Host.Undisturbed

/-!
# Handshakes of the host

How far the handshake of a connection is, by the calls on its `SecurePeer` and its frames
(`Authentic`): nothing was done for a connection that waits for message 1, message 2 was sent
to one that waits for message 3, and a ready one has finished its handshake, after which its
`SecurePeer` was used for traffic only (`Admitted`). Every step keeps it up
(`Handshakes.step`).
-/

namespace EasyTierEdge

namespace Host

variable {HS : Type} {config : ServerConfig} {crates : HostCrates HS}

/-- A connection has finished its handshake, by its first calls and frames. -/
def Admitted (config : ServerConfig) (crates : HostCrates HS) (calls : List (Call × Output))
    (frames : List Bytes) (conn : Connection) : Prop :=
  ∃ done more frames' frames'', calls = done ++ more ∧ (∀ x ∈ more, Traffic x.1) ∧
    frames = frames' ++ frames'' ∧ HandshakeDone config crates done frames' conn

/-- How far the handshake of a connection is, unless it is doomed. -/
structure Authentic (config : ServerConfig) (crates : HostCrates HS) (doomed : Prop)
    (calls : List (Call × Output)) (frames : List Bytes) (conn : Connection) : Prop where
  fresh : conn.phase = .msg1 → ¬doomed → calls = [] ∧ frames = [] ∧ conn.mode = .secure
  greeted : conn.phase = .msg3 → ¬doomed → Greeted config calls frames conn
  admitted : conn.phase = .ready → Admitted config crates calls frames conn

section Congr

variable {calls calls' : List (Call × Output)} {frames frames' : List Bytes}
  {conn conn' : Connection} {doomed doomed' : Prop}

theorem Greeted.congr (h : Greeted config calls frames conn) (hconn : conn'.core = conn.core) :
    Greeted config calls frames conn' := by
  have hmode := congrArg Connection.mode hconn
  have hname := congrArg Connection.networkName hconn
  have hpeer := congrArg Connection.peerId hconn
  obtain ⟨msg1, info, hgreeting, hframes, hm, hn, hp⟩ := h
  exact ⟨msg1, info, hgreeting, hframes, hmode.trans hm, hname.trans hn, hpeer.trans hp⟩

/-- What is known of a handshake only depends on the mode, the network and the peer id. -/
theorem HandshakeDone.congr (h : HandshakeDone config crates calls frames conn)
    (hmode : conn'.mode = conn.mode) (hname : conn'.networkName = conn.networkName)
    (hpeer : conn'.peerId = conn.peerId) : HandshakeDone config crates calls frames conn' := by
  rcases h with ⟨greeting, msg1, info, msg3, ms, auth, hgreeting, hcalls, hframes, hm, hn, hp⟩ |
    ⟨frame, value, info, secret, hconfig, hcalls, hframes, hvalue, hinfo, hroom, hdigest, hm, hn, hp⟩
  · exact .inl ⟨greeting, msg1, info, msg3, ms, auth, hgreeting, hcalls, hframes, hmode.trans hm,
      hname.trans hn, hpeer.trans hp⟩
  · exact .inr ⟨frame, value, info, secret, hconfig, hcalls, hframes, hvalue, hinfo, hroom, hdigest,
      hmode.trans hm, hname.trans hn, hpeer.trans hp⟩

theorem HandshakeDone.admitted (h : HandshakeDone config crates calls frames conn) :
    Admitted config crates calls frames conn :=
  ⟨calls, [], frames, [], (List.append_nil _).symm, List.forall_mem_nil _, (List.append_nil _).symm, h⟩

/-- Traffic and more frames of an admitted connection. -/
theorem Admitted.append (h : Admitted config crates calls frames conn)
    {more : List (Call × Output)} (hmore : ∀ x ∈ more, Traffic x.1) (frames' : List Bytes)
    (hconn : conn'.core = conn.core) :
    Admitted config crates (calls ++ more) (frames ++ frames') conn' := by
  obtain ⟨done, more', first, rest, rfl, htraffic, rfl, hdone⟩ := h
  refine ⟨done, more' ++ more, first, rest ++ frames', List.append_assoc _ _ _, fun x hx => ?_,
    List.append_assoc _ _ _, ?_⟩
  · exact (List.mem_append.1 hx).elim (htraffic x) (hmore x)
  · have hmode := congrArg Connection.mode hconn
    have hname := congrArg Connection.networkName hconn
    have hpeer := congrArg Connection.peerId hconn
    exact hdone.congr hmode hname hpeer

/-- A connection that is not in a handshake any more is used for traffic, others are left. -/
theorem Authentic.append (h : Authentic config crates doomed calls frames conn)
    (hdoomed : conn.phase.pending → doomed → doomed') {more : List (Call × Output)}
    (hmore : ∀ x ∈ more, Traffic x.1) (frames' : List Bytes)
    (hnone : conn.phase.pending → ¬doomed' → more = [] ∧ frames' = [])
    (hconn : conn'.core = conn.core) :
    Authentic config crates doomed' (calls ++ more) (frames ++ frames') conn' := by
  have hphase : conn'.phase = conn.phase := by
    have hcore := congrArg Connection.phase hconn
    exact hcore
  constructor
  · intro hp hnot
    have hpending : conn.phase.pending = true := by
      rw [← hphase, hp]
      rfl
    obtain ⟨rfl, rfl⟩ := hnone hpending hnot
    obtain ⟨hcalls, hframes, hm⟩ := h.fresh (hphase ▸ hp) fun hd => hnot (hdoomed hpending hd)
    have hmode := congrArg Connection.mode hconn
    rw [List.append_nil, List.append_nil]
    exact ⟨hcalls, hframes, hmode.trans hm⟩
  · intro hp hnot
    have hpending : conn.phase.pending = true := by
      rw [← hphase, hp]
      rfl
    obtain ⟨rfl, rfl⟩ := hnone hpending hnot
    rw [List.append_nil, List.append_nil]
    exact (h.greeted (hphase ▸ hp) fun hd => hnot (hdoomed hpending hd)).congr hconn
  · exact fun hp => (h.admitted (hphase ▸ hp)).append hmore frames' hconn

/-- Nothing is asked of a connection that is doomed or closed. -/
theorem Authentic.of_not_ready (hready : conn.phase ≠ .ready)
    (hdoomed : conn.phase.pending → doomed) : Authentic config crates doomed calls frames conn where
  fresh hp hnot := absurd (hdoomed (by rw [hp]; rfl)) hnot
  greeted hp hnot := absurd (hdoomed (by rw [hp]; rfl)) hnot
  admitted hp := absurd hp hready

end Congr

/-- The handshakes of all connections. -/
structure Handshakes (config : ServerConfig) (crates : HostCrates HS) (t : Stage)
    (s : HostState HS) : Prop where
  /-- Nothing was done for a connection that does not exist yet. -/
  unborn : ∀ c, s.conns.length ≤ c → s.callsOn c = [] ∧ s.framesOf c = []
  authentic : ∀ c, Authentic config crates (c ∈ t.doomed) (s.callsOn c) (s.framesOf c) (s.conn c)

namespace Handshakes

variable {t t' : Stage} {s s' : HostState HS} {c : ConnId}

theorem init (config : ServerConfig) (crates : HostCrates HS) :
    Handshakes config crates .idle (HostState.init config) where
  unborn _ _ := ⟨rfl, rfl⟩
  authentic c := by
    have hclosed : (HostState.init config : HostState HS).closed c := rfl
    exact .of_not_ready (fun hr => HostState.ready.not_closed hr hclosed) fun hp =>
      absurd hclosed (HostState.pending.not_closed hp)

/-- Steps that leave the handshakes alone. -/
theorem congr (h : Handshakes config crates t s)
    (hdoomed : ∀ d, s.pending d → d ∈ t.doomed → d ∈ t'.doomed)
    (hconn : ∀ d, (s'.conn d).core = (s.conn d).core) (hlength : s'.conns.length = s.conns.length)
    (hcalls : ∀ d, s'.callsOn d = s.callsOn d) (hframes : ∀ d, s'.framesOf d = s.framesOf d) :
    Handshakes config crates t' s' where
  unborn d hd := by
    rw [hcalls, hframes]
    exact h.unborn d (hlength ▸ hd)
  authentic d := by
    have hauthentic := (h.authentic d).append (hdoomed d) (List.forall_mem_nil _) []
      (fun _ _ => ⟨rfl, rfl⟩) (hconn d)
    rw [hcalls, hframes]
    rw [List.append_nil, List.append_nil] at hauthentic
    exact hauthentic

/-- Steps that are about one connection. -/
theorem except (h : Handshakes config crates t s) (hc : c < s'.conns.length)
    (hlength : s.conns.length ≤ s'.conns.length) (hdoomed : ∀ d ≠ c, d ∈ t.doomed → d ∈ t'.doomed)
    (hconn : ∀ d ≠ c, (s'.conn d).core = (s.conn d).core)
    (hcalls : ∀ d ≠ c, s'.callsOn d = s.callsOn d) (hframes : ∀ d ≠ c, s'.framesOf d = s.framesOf d)
    (hself : Authentic config crates (c ∈ t'.doomed) (s'.callsOn c) (s'.framesOf c) (s'.conn c)) :
    Handshakes config crates t' s' where
  unborn d hd := by
    have hdc : d ≠ c := by
      rintro rfl
      exact absurd hc (Nat.not_lt.2 hd)
    rw [hcalls d hdc, hframes d hdc]
    exact h.unborn d (hlength.trans hd)
  authentic d := by
    by_cases hdc : d = c
    · rw [hdc]
      exact hself
    · have hauthentic := (h.authentic d).append (fun _ => hdoomed d hdc) (List.forall_mem_nil _) []
        (fun _ _ => ⟨rfl, rfl⟩) (hconn d hdc)
      rw [hcalls d hdc, hframes d hdc]
      rw [List.append_nil, List.append_nil] at hauthentic
      exact hauthentic

/-- Closings and route updates. -/
theorem undisturbed {a b : Stage × HostState HS} (h : Handshakes config crates a.1 a.2)
    (hab : Undisturbed a b) : Handshakes config crates b.1 b.2 where
  unborn d hd := by
    rw [hab.length] at hd
    have hnot : ¬a.2.ready d := fun hr =>
      absurd (a.2.lt_length_of_not_closed hr.not_closed) (Nat.not_lt.2 hd)
    rw [hab.calls d hnot, hab.frames]
    exact h.unborn d hd
  authentic d := by
    by_cases hclosed : b.2.closed d
    · refine .of_not_ready ?_ ?_
      · rw [show (b.2.conn d).phase = .closed from hclosed]
        decide
      · exact fun hp => absurd hclosed (HostState.pending.not_closed hp)
    · obtain ⟨more, hmore, htraffic⟩ := hab.traffic d
      have hauthentic := (h.authentic d).append (fun _ hd => hab.doomed hd) htraffic []
        (fun hp _ => ⟨?_, rfl⟩) (hab.conn d hclosed)
      · rw [hmore, hab.frames]
        rw [List.append_nil] at hauthentic
        exact hauthentic
      · -- The `SecurePeer` of a connection in its handshake is not used.
        have hcalls := hab.calls d (HostState.pending.not_ready hp)
        rw [hmore] at hcalls
        exact List.append_cancel_left (hcalls.trans (List.append_nil _).symm)

/-- An effect that is neither a call nor a frame. -/
theorem note (h : Handshakes config crates t s) {e : Effect} (hcalls : ∀ d, e.callOn d = none)
    (hframes : ∀ d, e.frameOf d = none) : Handshakes config crates t (s.note e) := by
  refine h.congr (fun _ _ hd => hd) (fun _ => rfl) rfl (fun d => ?_) fun d => ?_
  · rw [HostState.callsOn_note, hcalls]
    exact List.append_nil _
  · rw [HostState.framesOf_note, hframes]
    exact List.append_nil _

/-- A call on the `SecurePeer` of a doomed connection, or one for its traffic. -/
theorem callSecure (h : Handshakes config crates t s) {call : Call} (hopen : ¬s.closed c)
    (handle : Handle) (hpending : s.pending c → c ∈ t.doomed) (hready : s.ready c → Traffic call) :
    Handshakes config crates t (s.callSecure crates c handle call).2 := by
  obtain ⟨output, world, heq⟩ : ∃ output world, (s.callSecure crates c handle call).2 =
      { s with world }.note (.secure c call output) := ⟨_, _, rfl⟩
  rw [heq]
  refine h.except (c := c) (s.lt_length_of_not_closed hopen) le_rfl (fun _ _ hd => hd)
    (fun _ _ => rfl) (fun d hd => ?_) (fun d _ => ?_) ?_
  · rw [HostState.callsOn_note, Effect.callOn, if_neg hd.symm]
    exact List.append_nil _
  · rw [HostState.framesOf_note]
    exact List.append_nil _
  · rcases s.phase_cases c with hp | hr | hc
    · exact .of_not_ready hp.not_ready fun _ => hpending hp
    · rw [HostState.callsOn_note, HostState.framesOf_note]
      refine (h.authentic c).append (fun _ hd => hd) (fun x hx => ?_) _ (fun hp _ => ?_) rfl
      · rw [Effect.callOn, if_pos rfl, Option.toList_some, List.mem_singleton] at hx
        rw [hx]
        exact hready hr
      · exact absurd hr (HostState.pending.not_ready hp)
    · exact absurd hc hopen

/-- A frame is handled. -/
theorem received (h : Handshakes config crates t s) (hopen : ¬s.closed c)
    (hpending : s.pending c → c ∈ t.doomed) (frame : Bytes) :
    Handshakes config crates t (s.note (.received c frame)) := by
  refine h.except (c := c) (s.lt_length_of_not_closed hopen) le_rfl (fun _ _ hd => hd)
    (fun _ _ => rfl) (fun d _ => ?_) (fun d hd => ?_) ?_
  · rw [HostState.callsOn_note]
    exact List.append_nil _
  · rw [HostState.framesOf_note, Effect.frameOf, if_neg hd.symm]
    exact List.append_nil _
  · rcases s.phase_cases c with hp | hr | hc
    · exact .of_not_ready hp.not_ready fun _ => hpending hp
    · rw [HostState.callsOn_note, HostState.framesOf_note]
      exact (h.authentic c).append (fun _ hd => hd) (List.forall_mem_nil _) _
        (fun hp _ => absurd hr (HostState.pending.not_ready hp)) rfl
    · exact absurd hc hopen

/-- A connection that is not closed is changed. -/
theorem modifyConn (h : Handshakes config crates t s) {f : Connection → Connection}
    (hopen : ¬s.closed c) (hdoomed : ∀ d ≠ c, d ∈ t.doomed → d ∈ t'.doomed)
    (hself : Authentic config crates (c ∈ t'.doomed) (s.callsOn c) (s.framesOf c) (f (s.conn c))) :
    Handshakes config crates t' (s.modifyConn c f) := by
  have hlength : (s.modifyConn c f).conns.length = s.conns.length := List.length_modify ..
  refine h.except (c := c) (hlength ▸ s.lt_length_of_not_closed hopen) hlength.ge hdoomed
    (fun d hd => ?_) (fun _ _ => rfl) (fun _ _ => rfl) ?_
  · rw [s.conn_modifyConn_of_ne hd]
  · rw [s.conn_modifyConn_self hopen]
    exact hself

theorem accepted (h : Handshakes config crates t s) {ipKey : String} {a : Ambient}
    (haccept : (s.accept config crates ipKey a).1 = true) :
    Handshakes config crates t (s.accept config crates ipKey a).2 := by
  obtain ⟨world, timer, heq⟩ := s.accept_eq haccept
  obtain ⟨hcalls, hframes⟩ := h.unborn s.conns.length le_rfl
  rw [heq]
  refine h.except (c := s.conns.length) ?_ ?_ (fun _ _ hd => hd) (fun d hd => ?_) (fun _ _ => rfl)
    (fun _ _ => rfl) ⟨fun _ _ => ⟨hcalls, hframes, ?_⟩, fun hp _ => ?_, fun hp => ?_⟩
  · simp [HostState.createConnection]
  · simp [HostState.createConnection]
  · change ((s.createConnection a.handle ipKey a).conn d).core = _
    rw [s.conn_createConnection, if_neg hd]
  · simp [HostState.conn, HostState.createConnection]
  · simp [HostState.conn, HostState.createConnection] at hp
  · simp [HostState.conn, HostState.createConnection] at hp

/-- A connection is closed before its handshake is finished. -/
theorem unregister (h : Handshakes config crates t s) (hopen : ¬s.closed c) :
    Handshakes config crates t (s.unregister c) := by
  obtain ⟨_, _, _, heq⟩ := s.unregister_eq c
  have htrace : (s.unregister c).trace = s.trace ++ [.closed c] := by rw [heq]
  have hlength : (s.unregister c).conns.length = s.conns.length := by
    rw [s.conns_unregister]
    exact List.length_modify ..
  refine h.except (c := c) (hlength ▸ s.lt_length_of_not_closed hopen) hlength.ge
    (fun _ _ hd => hd) (fun d hd => ?_) (fun d _ => ?_) (fun d _ => ?_) ?_
  · rw [s.conn_unregister_of_ne c hd]
  · rw [HostState.callsOn, htrace, List.filterMap_append]
    exact List.append_nil _
  · rw [HostState.framesOf, htrace, List.filterMap_append]
    exact List.append_nil _
  · have hclosed := s.closed_unregister hopen
    exact .of_not_ready (fun hr => HostState.ready.not_closed hr hclosed) fun hp =>
      absurd hclosed (HostState.pending.not_closed hp)

/-- A peer is added to the core. -/
theorem addPeer (h : Handshakes config crates t s) {a : Ambient} (hadd : (s.addPeer c a).1 = .ok ()) :
    Handshakes config crates t (s.addPeer c a).2 := by
  obtain ⟨core, routeSyncStates, heq⟩ : ∃ core routeSyncStates, (s.addPeer c a).2 =
      { s with core, routeSyncStates }.note (.added c) := by
    unfold HostState.addPeer at hadd ⊢
    dsimp only at hadd ⊢
    split at hadd
    · cases hadd
    · exact ⟨_, _, rfl⟩
  rw [heq]
  have hbooks : Handshakes config crates t { s with core, routeSyncStates } :=
    h.congr (fun _ _ hd => hd) (fun _ => rfl) rfl (fun _ => rfl) fun _ => rfl
  exact hbooks.note (fun _ => rfl) fun _ => rfl

/-- The steps that leave the connections and the history. -/
theorem same (h : Handshakes config crates t s) (hdoomed : t.doomed ⊆ t'.doomed)
    (hconns : s'.conns = s.conns) (htrace : s'.trace = s.trace) :
    Handshakes config crates t' s' := by
  refine h.congr (fun _ _ hd => hdoomed hd) (fun d => ?_) (congrArg _ hconns) (fun d => ?_) fun d => ?_
  · rw [HostState.conn, hconns, HostState.conn]
  · rw [HostState.callsOn, htrace, HostState.callsOn]
  · rw [HostState.framesOf, htrace, HostState.framesOf]

/-- Every step keeps what is known of the handshakes. -/
theorem step {a b : Stage × HostState HS} (hstep : Step config crates a b)
    (h : Handshakes config crates a.1 a.2) : Handshakes config crates b.1 b.2 := by
  cases hstep with
  | quiet hquiet => exact h.undisturbed hquiet.undisturbed
  | kept => exact h.same Set.Subset.rfl rfl rfl
  | named => exact h.same Set.Subset.rfl rfl rfl
  | accepted _ _ _ haccept => exact h.accepted haccept
  | opened => exact h.same (Set.subset_insert _ _) rfl rfl
  | received hopen hpending => exact h.received hopen hpending _
  | called hp hdoomed =>
    exact callSecure h hp.not_closed _ (fun _ => hdoomed) fun hr => absurd hr hp.not_ready
  | decrypted hr =>
    exact @callSecure _ config crates _ _ _ h (.decryptPacket _ _) hr.not_closed _
      (fun hp => absurd hr hp.not_ready) fun _ => trivial
  | answered => exact h.note (fun _ => rfl) fun _ => rfl
  | forwarded => exact h.note (fun _ => rfl) fun _ => rfl
  | prepared hp hdoomed _ hf =>
    refine h.modifyConn hp.not_closed (fun _ _ hd => hd) (.of_not_ready ?_ fun _ => hdoomed)
    rw [hf.phase]
    exact hp.not_ready
  | greeted hp _ hgreeted =>
    refine h.modifyConn hp.not_closed (fun d hd hmem => ⟨hmem, hd⟩) ⟨nofun, fun _ _ => ?_, nofun⟩
    obtain ⟨msg1, info, hrest⟩ := hgreeted
    exact ⟨msg1, info, hrest⟩
  | entered => exact h.same Set.Subset.rfl rfl rfl
  | added _ _ hadd => exact (addPeer h hadd).same Set.Subset.rfl rfl rfl
  | @completed t s c hp _ hdone =>
    -- The connection is ready, and its handshake finished.
    have hready : Handshakes config crates ((t.register .none).spare c) (s.completeHandshake c) :=
      modifyConn h hp.not_closed (fun d hd hmem => ⟨hmem, hd⟩)
        ⟨nofun, nofun, fun _ => (hdone.congr rfl rfl rfl).admitted⟩
    exact hready.same Set.Subset.rfl rfl rfl
  | abandoned hp => exact (unregister h hp.not_closed).same Set.Subset.rfl rfl rfl
  | requested => exact h.same Set.Subset.rfl rfl rfl
  | responded => exact h.same Set.Subset.rfl rfl rfl
  | settled => exact h.same Set.Subset.rfl rfl rfl
  | unsettled => exact h.same Set.Subset.rfl rfl rfl
  | swept => exact h.same Set.subset_union_left rfl rfl
  | expired => exact h.same Set.Subset.rfl rfl rfl
  | retired hclosed =>
    exact h.congr (fun d hp hd => absurd (hclosed d hd) hp.not_closed) (fun _ => rfl) rfl
      (fun _ => rfl) fun _ => rfl

end Handshakes

end Host

end EasyTierEdge
