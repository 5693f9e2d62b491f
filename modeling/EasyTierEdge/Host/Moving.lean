import EasyTierEdge.Host.Moves

/-!
# Events go by moves

The programs of the host go by moves (`Move`), from the ambient up to the events themselves
(`server_moves`). Closings and route updates may come in anywhere and leave the course of the event
as it is (`OnCourse`); a handshake changes its own connection only (`Newcomer`).

* `leads_removeConnectionIn_moves`: closings, however deep they nest;
* `leads_handleMessage_moves`: the frames of clients;
* `server_moves`: the events.
-/

namespace EasyTierEdge

namespace Host

variable {HS : Type} {config : ServerConfig} {crates : HostCrates HS}

/-! ## Changes that moves do not tell apart -/

namespace Internal

variable (s : HostState HS)

theorem tick : Internal s s.tick :=
  ⟨rfl, rfl, rfl, rfl, rfl, fun _ state h => ⟨state, h, rfl⟩, ⟨[], (List.append_nil _).symm, nofun⟩,
    fun n => ⟨n + 1, rfl⟩⟩

theorem callSecure (c : ConnId) (h : Handle) (call : Call) :
    Internal s (s.callSecure crates c h call).2 :=
  ⟨rfl, rfl, rfl, rfl, rfl, fun _ state h => ⟨state, h, rfl⟩,
    ⟨[_], rfl, fun e he => by rw [List.mem_singleton.1 he]; rfl⟩, fun n => ⟨n, rfl⟩⟩

theorem core (core : WasmRpcCore) : Internal s { s with core } :=
  ⟨rfl, rfl, rfl, rfl, rfl, fun _ state h => ⟨state, h, rfl⟩, ⟨[], (List.append_nil _).symm, nofun⟩,
    fun n => ⟨n, rfl⟩⟩

theorem persisted (persistedRouteIds : Finset String) : Internal s { s with persistedRouteIds } :=
  ⟨rfl, rfl, rfl, rfl, rfl, fun _ state h => ⟨state, h, rfl⟩, ⟨[], (List.append_nil _).symm, nofun⟩,
    fun n => ⟨n, rfl⟩⟩

theorem built (c : ConnId) (forceFull : Bool) : Internal s (s.note (.built c forceFull)) :=
  ⟨rfl, rfl, rfl, rfl, rfl, fun _ state h => ⟨state, h, rfl⟩,
    ⟨[_], rfl, fun e he => by rw [List.mem_singleton.1 he]; rfl⟩, fun n => ⟨n, rfl⟩⟩

/-- A change of the state of an update that leaves its peer. -/
theorem modifySync (key : PeerKey) {f : RouteSyncState → RouteSyncState}
    (hf : ∀ state, (f state).peer = state.peer) : Internal s (s.modifySync key f) := by
  refine ⟨rfl, rfl, rfl, rfl, rfl, fun key' state' hstate' => ?_,
    ⟨[], (List.append_nil _).symm, nofun⟩, fun n => ⟨n, rfl⟩⟩
  change (s.routeSyncStates.modify key f).get key' = some state' at hstate'
  rw [JsMap.get_modify] at hstate'
  split_ifs at hstate' with hkey
  · obtain ⟨state, hstate, rfl⟩ := Option.map_eq_some_iff.1 hstate'
    exact ⟨state, hstate, (hf state).symm⟩
  · exact ⟨state', hstate', rfl⟩

variable {s} {s' s'' : HostState HS}

theorem trans (h : Internal s s') (h' : Internal s' s'') : Internal s s'' where
  conns := h'.conns.trans h.conns
  connections := h'.connections.trans h.connections
  rooms := h'.rooms.trans h.rooms
  maintenanceTimer := h'.maintenanceTimer.trans h.maintenanceTimer
  resync := h'.resync.trans h.resync
  sync key state'' hstate'' := by
    obtain ⟨state', hstate', hpeer'⟩ := h'.sync key state'' hstate''
    obtain ⟨state, hstate, hpeer⟩ := h.sync key state' hstate'
    exact ⟨state, hstate, hpeer.trans hpeer'⟩
  trace := by
    obtain ⟨es, heq, hes⟩ := h.trace
    obtain ⟨es', heq', hes'⟩ := h'.trace
    refine ⟨es ++ es', by rw [heq', heq, List.append_assoc], fun e he => ?_⟩
    exact (List.mem_append.1 he).elim (hes e) (hes' e)
  ambient n := by
    obtain ⟨m, hm⟩ := h'.ambient n
    obtain ⟨k, hk⟩ := h.ambient m
    exact ⟨k, hm.trans hk⟩

end Internal

/-! ## Programs -/

/-- The course is `t`, and what moves need is kept. -/
structure OnCourse (config : ServerConfig) (t : Course) (b : Course × HostState HS) : Prop where
  course : b.1 = t
  sound : Sound config b.2

/-- Nothing was done but these effects. -/
structure Beside (t : Course) (s : HostState HS) (es : List Effect) (b : Course × HostState HS) :
    Prop where
  course : b.1 = t
  conn : ∀ d, (b.2.conn d).core = (s.conn d).core
  rooms : b.2.rooms = s.rooms
  trace : b.2.trace = s.trace ++ es

section Programs

variable {t : Course} {s : HostState HS} {c : ConnId} {b : Course × HostState HS}

theorem OnCourse.of_path {a : Course × HostState HS} (h : OnCourse config t a)
    (hpath : Relation.ReflTransGen (Move config crates) a b) (hb : b.1 = t) : OnCourse config t b :=
  ⟨hb, h.sound.of_path hpath⟩

namespace Beside

theorem refl (t : Course) (s : HostState HS) : Beside t s [] (t, s) :=
  ⟨rfl, fun _ => rfl, rfl, (List.append_nil _).symm⟩

theorem trans {es es' : List Effect} {b' : Course × HostState HS} (h : Beside t s es b)
    (h' : Beside b.1 b.2 es' b') : Beside t s (es ++ es') b' where
  course := h'.course.trans h.course
  conn d := (h'.conn d).trans (h.conn d)
  rooms := h'.rooms.trans h.rooms
  trace := by rw [h'.trace, h.trace, List.append_assoc]

theorem phase {es : List Effect} (h : Beside t s es b) (d : ConnId) :
    (b.2.conn d).phase = (s.conn d).phase := by
  have hcore := congrArg Connection.phase (h.conn d)
  exact hcore

theorem ready {es : List Effect} (h : Beside t s es b) (hc : s.ready c) : b.2.ready c :=
  (h.phase c).trans hc

theorem pending {es : List Effect} (h : Beside t s es b) (hc : s.pending c) : b.2.pending c := by
  rw [HostState.pending, h.phase]
  exact hc

theorem control {es : List Effect} (h : Beside t s es b) {packet : Bytes}
    (hc : (s.conn c).Control packet) : (b.2.conn c).Control packet := by
  have hpeer := congrArg Connection.peerId (h.conn c)
  change (b.2.conn c).peerId = (s.conn c).peerId at hpeer
  unfold Connection.Control
  rw [hpeer]
  exact hc

end Beside

/-- The ambient is consulted. -/
theorem leads_consult_moves {Q : Ambient → Course × HostState HS → Prop}
    {E : String → Course × HostState HS → Prop} (h : Q (s.ambient 0) (t, s.tick)) :
    Leads (Move config crates) consult Q E (t, s) :=
  leads_modifyGet t (.aside (.tick s)) h

/-- The `SecurePeer` of a connection is called. -/
theorem leads_callSecure_moves (call : Call) :
    Leads (Move config crates) (callSecure crates c call)
      (fun output => Beside t s [.secure c call output]) (fun _ => Beside t s []) (t, s) := by
  refine leads_bind (leads_get ?_)
  dsimp only
  cases (s.conn c).secure with
  | none => exact leads_throw (.refl t s)
  | some h =>
    exact leads_modifyGet t (.aside (.callSecure s c h call)) ⟨rfl, fun _ => rfl, rfl, rfl⟩

/-- A frame that may be sent is sent, or not. -/
theorem leads_sendConnection_moves {frame : Bytes} {origin : Origin} (hc : ¬s.closed c)
    (hframe : Sanctioned config crates s c s.trace frame origin) :
    Leads (Move config crates) (sendConnection c frame origin)
      (fun _ b => ∃ es, Beside t s es b) (fun _ b => ∃ es, Beside t s es b) (t, s) := by
  have hsends := sends_sendConnection s c frame origin
  have hbeside : ∃ es, Beside t s es (t, (sendConnection c frame origin s).2) := by
    rcases hsends.trace with heq | heq
    · exact ⟨[], rfl, hsends.conn, hsends.rooms, heq.trans (List.append_nil _).symm⟩
    · exact ⟨_, rfl, hsends.conn, hsends.rooms, heq⟩
  refine ⟨_, .single (.sent hc hframe), rfl, ?_⟩
  cases (sendConnection c frame origin s).1 with
  | ok => exact hbeside
  | error => exact hbeside

/-- A packet for the peer of a ready connection is encrypted: it may be sent now. -/
theorem leads_encrypt_moves (hsound : Sound config s) (hc : s.ready c) {packet : Bytes}
    (hpacket : (s.conn c).Control packet) :
    Leads (Move config crates) (encrypt crates c packet)
      (fun frame b => (∃ es, Beside t s es b) ∧
        Sanctioned config crates b.2 c b.2.trace frame .relay)
      (fun _ b => ∃ es, Beside t s es b) (t, s) := by
  have hpast : s.past c :=
    ⟨s.lt_length_of_not_closed hc.not_closed, fun hp => hp.not_ready hc⟩
  refine leads_bind (leads_get ?_)
  dsimp only
  cases hmode : (s.conn c).mode with
  | legacy =>
    -- The cipher is that of the network.
    obtain ⟨networkSecret, cipher, hroom, hcipher, harmed⟩ := hsound.armed c hc hmode
    rw [harmed]
    refine leads_bind (leads_consult_moves ?_)
    have hbeside : Beside t s [] (t, s.tick) := ⟨rfl, fun _ => rfl, rfl, (List.append_nil _).symm⟩
    refine leads_ofExcept (fun frame hframe => ⟨⟨[], hbeside⟩, ?_⟩) fun _ _ => ⟨[], hbeside⟩
    exact .ciphered hpast hmode hpacket hroom hcipher hframe
  | secure =>
    dsimp only
    refine leads_bind (leads_consult_moves (leads_bind ((leads_callSecure_moves
      (.encryptPacket packet (s.ambient 0).packetClock)).mono ?_ ?_)))
    · intro output b hpath hb
      have hbeside : Beside t s _ b :=
        ⟨hb.course, hb.conn, hb.rooms, hb.trace⟩
      refine leads_ofExcept (fun frame hframe => ⟨⟨_, hbeside⟩, ?_⟩) fun _ _ => ⟨_, hbeside⟩
      obtain rfl := frameResult_eq_ok hframe
      have hevolves := evolves_of_path hpath
      refine @Sanctioned.encrypted _ _ _ _ _ _ packet (s.ambient 0).packetClock frame
        (hevolves.past hpast) ?_ (hbeside.control hpacket) ?_
      · have hmode' := congrArg Connection.mode (hbeside.conn c)
        exact hmode'.trans hmode
      · rw [hbeside.trace, List.getLast?_append]
        rfl
    · exact fun _ b _ hb => ⟨[], hb.course, hb.conn, hb.rooms, hb.trace⟩

/-- A call or an answer of the relay is sent to the peer of a ready connection. -/
theorem leads_sendControl_moves (hsound : Sound config s) (hc : s.ready c) {packetType : ℕ}
    (htype : packetType = PacketType.rpcReq ∨ packetType = PacketType.rpcResp) (payload : Bytes) :
    Leads (Move config crates) (sendControl crates c packetType payload)
      (fun _ b => ∃ es, Beside t s es b) (fun _ b => ∃ es, Beside t s es b) (t, s) := by
  refine leads_bind (leads_get (leads_bind (leads_ofExcept (fun clear hclear => ?_)
    fun _ _ => ⟨[], .refl t s⟩)))
  refine leads_bind ((leads_encrypt_moves hsound hc ⟨packetType, payload, htype, hclear⟩).mono ?_
    fun _ _ _ h => h)
  rintro frame ⟨t', s'⟩ - ⟨⟨es, hbeside⟩, hframe⟩
  obtain rfl : t' = t := hbeside.course
  refine (leads_sendConnection_moves (hbeside.ready hc).not_closed hframe).mono ?_ ?_
  · rintro - b - ⟨es', hb⟩
    exact ⟨_, hbeside.trans hb⟩
  · rintro - b - ⟨es', hb⟩
    exact ⟨_, hbeside.trans hb⟩

/-! ## Route updates -/

/-- An update that is wanted is built and sent. -/
theorem leads_flushRouteUpdate_moves (hsound : Sound config s) (key : PeerKey) (now : ℕ) :
    Leads (Move config crates) (flushRouteUpdate crates key now) (fun _ => OnCourse config t)
      (fun _ => OnCourse config t) (t, s) := by
  have hrefl : OnCourse config t (t, s) := ⟨rfl, hsound⟩
  refine leads_bind (leads_get ?_)
  dsimp only
  cases hstate : s.routeSyncStates.get key with
  | none => exact leads_pure hrefl
  | some state =>
    dsimp only
    refine leads_ite (fun _ => leads_pure hrefl) fun _ => leads_bind (leads_consult_moves ?_)
    have hready : s.ready state.peer := (hsound.sync key state hstate).1
    have hcore : Internal s.tick
        { s.tick with core := (s.tick.buildRouteUpdate crates state now (s.ambient 0)).2 } :=
      .core _ _
    rcases s.tick.rebuild_cases crates key state now (s.ambient 0) with
      ⟨e, -, heq⟩ | ⟨packet, -, heq⟩
    · refine leads_bind (leads_modifyGet t (.aside ?_) ?_)
      · rw [heq]
        exact hcore
      · rw [heq]
        exact leads_bind (leads_throw ⟨rfl, hsound.aside ((Internal.tick s).trans hcore)⟩)
    · have haside : Internal s.tick (s.tick.rebuild crates key state now (s.ambient 0)).2 := by
        have hlaunch : ∀ state : RouteSyncState, (state.launch now).peer = state.peer := fun _ => rfl
        rw [heq]
        exact (hcore.trans (.modifySync _ key hlaunch)).trans (.built _ _ _)
      have hsound₁ := hsound.aside ((Internal.tick s).trans haside)
      refine leads_bind (leads_modifyGet t (.aside haside) ?_)
      have hready₁ : (s.tick.rebuild crates key state now (s.ambient 0)).2.ready state.peer := by
        rw [heq]
        exact hready
      rw [heq] at hsound₁ hready₁ ⊢
      refine leads_bind (leads_pure (leads_tryCatch ?_))
      dsimp only at hsound₁ hready₁ ⊢
      generalize ({ s.tick with core := _ }.modifySync key _).note _ = s₁ at hsound₁ hready₁ ⊢
      refine (leads_sendControl_moves hsound₁ hready₁ (.inl rfl) _).mono ?_ ?_
      · rintro - b hpath ⟨es, hb⟩
        exact ⟨hb.course, hsound₁.of_path hpath⟩
      · rintro e ⟨t', s'⟩ hpath ⟨es, hb⟩
        obtain rfl : t' = t := hb.course
        have haside' : Internal s' (s'.unsend key state.forceFull) := .modifySync _ _ fun _ => rfl
        exact leads_bind (leads_step t' (.aside haside')
          (leads_throw ⟨rfl, (hsound₁.of_path hpath).aside haside'⟩))

/-- A change is announced to a ready connection. -/
theorem leads_sendRouteUpdate_moves (hsound : Sound config s) (hc : s.ready c) (forceFull : Bool)
    (hforced : forceFull = true → t.resyncing = some (s.conn c).networkName) :
    Leads (Move config crates) (sendRouteUpdate crates c forceFull) (fun _ => OnCourse config t)
      (fun _ => OnCourse config t) (t, s) := by
  have hmove : Move config crates (t, s) (t, s.announce c forceFull) := .announced hc hforced
  refine leads_bind (leads_step t hmove (leads_bind (leads_get (leads_bind
    (leads_consult_moves ?_)))))
  exact leads_flushRouteUpdate_moves ((hsound.move hmove).aside (.tick _)) _ _

end Programs

/-! ## Closings -/

section Closings

variable {t : Course} {s : HostState HS} {c : ConnId} {remove : ConnId → Action HS Unit}

/-- A program that goes by moves and throws nothing. -/
def Removes (config : ServerConfig) (crates : HostCrates HS) (t : Course)
    (remove : ConnId → Action HS Unit) : Prop :=
  ∀ (d : ConnId) (b : Course × HostState HS), OnCourse config t b →
    Leads (Move config crates) (remove d) (fun _ => OnCourse config t) (fun _ _ => False) b

theorem OnCourse.tick (h : OnCourse config t (t, s)) : OnCourse config t (t, s.tick) :=
  ⟨rfl, h.sound.aside (.tick s)⟩

theorem leads_closeBy_moves (hremove : Removes config crates t remove) :
    Removes config crates t (closeBy remove) := by
  rintro d ⟨t', s⟩ h
  obtain rfl : t' = t := h.course
  refine leads_bind (leads_get (leads_ite (fun _ => leads_pure h) fun _ => ?_))
  refine leads_bind (leads_consult_moves ?_)
  dsimp only
  refine leads_ite (fun _ => ?_) fun _ => hremove d _ h.tick
  refine leads_bind ((hremove d _ h.tick).mono ?_ fun _ _ _ he => he)
  exact fun _ b _ hb => hremove d b hb

/-- A connection that is registered and ready is told of a change. -/
theorem leads_tellBy_moves (hremove : Removes config crates t remove)
    (hsound : Sound config s) {networkName : String} (excludePeerId : Option UInt32)
    (forceFull : Bool) (hforced : forceFull = true → t.resyncing = some networkName)
    (entry : UInt32 × ConnId) :
    Leads (Move config crates) (tellBy crates remove networkName excludePeerId forceFull entry)
      (fun _ => OnCourse config t) (fun _ _ => False) (t, s) := by
  have hrefl : OnCourse config t (t, s) := ⟨rfl, hsound⟩
  refine leads_bind (leads_get ?_)
  dsimp only
  refine leads_ite (fun _ => leads_pure hrefl) fun hentry =>
    leads_ite (fun _ => leads_pure hrefl) fun hgo => ?_
  have hc : s.ready entry.2 := by
    by_contra hnot
    exact hgo (.inr hnot)
  have hname : (s.conn entry.2).networkName = networkName :=
    congrArg Prod.fst (hsound.room (networkName, entry.1) entry.2 (not_not.1 hentry)).2
  refine leads_tryCatch ((leads_sendRouteUpdate_moves hsound hc forceFull ?_).mono (fun _ _ _ hb => hb) ?_)
  · exact fun hfull => (hforced hfull).trans (congrArg some hname.symm)
  · exact fun _ b _ hb => leads_closeBy_moves hremove entry.2 b hb

/-- A change is announced to a network. -/
theorem leads_broadcastRouteUpdateBy_moves (hremove : Removes config crates t remove)
    (hsound : Sound config s) {networkName : String} (excludePeerId : Option UInt32)
    (forceFull : Bool) (hforced : forceFull = true → t.resyncing = some networkName) :
    Leads (Move config crates)
      (broadcastRouteUpdateBy crates remove networkName excludePeerId forceFull)
      (fun _ => OnCourse config t) (fun _ _ => False) (t, s) := by
  have hrefl : OnCourse config t (t, s) := ⟨rfl, hsound⟩
  refine leads_bind (leads_get (leads_forEach hrefl ?_))
  rintro entry ⟨t', s'⟩ hb
  obtain rfl : t' = t := hb.course
  exact leads_tellBy_moves hremove hb.sound excludePeerId forceFull hforced entry

/-- A connection leaves the books. -/
theorem leads_leave_moves (hsound : Sound config s) (hc : ¬s.closed c) :
    Leads (Move config crates) (leave crates c)
      (fun _ b => OnCourse config t b ∧ b.2.closed c ∧ c < b.2.conns.length) (fun _ _ => False)
      (t, s) := by
  refine leads_bind (leads_consult_moves ?_)
  have hleft : Move config crates (t, s.tick) (t, s.tick.withdraw crates c (s.ambient 0)) := .left hc
  have hlt := s.lt_length_of_not_closed hc
  refine leads_step t hleft ⟨⟨rfl, (hsound.aside (.tick s)).move hleft⟩, ?_, ?_⟩
  · change (s.tick.withdraw crates c (s.ambient 0)).closed c
    rw [HostState.closed, HostState.conn, (s.tick.withdraw_eq c _).1]
    exact congrArg Connection.phase (s.tick.conn_modifyConn_self hc _)
  · exact hlt.trans_le hleft.evolves.length

/-- A connection is removed, whoever else has to be closed. -/
theorem leads_removeConnectionIn_moves (n : ℕ) :
    Removes config crates t (removeConnectionIn crates n) := by
  induction n with
  | zero => exact fun d b h => leads_pure h
  | succ n ih =>
    rintro d ⟨t', s⟩ h
    obtain rfl : t' = t := h.course
    refine leads_bind (leads_get (leads_ite (fun _ => leads_pure h) fun hd => ?_))
    refine leads_bind ((leads_leave_moves h.sound hd).mono ?_ fun _ _ _ he => he)
    rintro - ⟨t₁, s₁⟩ - ⟨h₁, hclosed, hlt⟩
    obtain rfl : t₁ = t' := h₁.course
    -- When the rest of the network was told, the connection is disposed.
    have hdispose : ∀ b, OnCourse config t₁ b → b.2.closed d →
        Leads (Move config crates) (do
          let a ← consult
          modify (·.disposeConnection crates d a) : Action HS Unit)
          (fun _ => OnCourse config t₁) (fun _ _ => False) b := by
      rintro ⟨t₂, s₂⟩ h₂ hclosed₂
      obtain rfl : t₂ = t₁ := h₂.course
      refine leads_bind (leads_consult_moves ?_)
      have hdisposed : Move config crates (t₂, s₂.tick)
          (t₂, s₂.tick.disposeConnection crates d (s₂.ambient 0)) := .disposed hclosed₂
      exact leads_step t₂ hdisposed ⟨rfl, (h₂.sound.aside (.tick s₂)).move hdisposed⟩
    refine leads_ite (fun _ => ?_) fun _ => hdispose _ h₁ hclosed
    refine leads_bind ((leads_broadcastRouteUpdateBy_moves ih h₁.sound none false nofun).mono ?_
      fun _ _ _ he => he)
    exact fun _ b hpath hb => hdispose b hb ((evolves_of_path hpath).closed hlt hclosed)

theorem leads_removeConnection_moves : Removes config crates t (removeConnection crates) :=
  fun d b h => leads_bind (leads_get (leads_removeConnectionIn_moves _ d b h))

theorem leads_close_moves : Removes config crates t (close crates) :=
  leads_closeBy_moves leads_removeConnection_moves

theorem leads_broadcastRouteUpdate_moves (hsound : Sound config s) {networkName : String}
    (excludePeerId : Option UInt32) (forceFull : Bool)
    (hforced : forceFull = true → t.resyncing = some networkName) :
    Leads (Move config crates) (broadcastRouteUpdate crates networkName excludePeerId forceFull)
      (fun _ => OnCourse config t) (fun _ _ => False) (t, s) :=
  leads_broadcastRouteUpdateBy_moves leads_removeConnection_moves hsound excludePeerId forceFull hforced

end Closings

/-! ## Handshakes -/

/-- A connection in its handshake, which no room knows. -/
structure Newcomer (config : ServerConfig) (c : ConnId) (b : Course × HostState HS) : Prop where
  along : OnCourse config .rest b
  pending : b.2.pending c
  rooms : ∀ key d, b.2.registered key = some d → ¬b.2.pending d

section Handshakes

variable {s : HostState HS} {c : ConnId} {a b : Course × HostState HS}

theorem Newcomer.beside (h : Newcomer config c a)
    (hpath : Relation.ReflTransGen (Move config crates) a b) {es : List Effect}
    (hb : Beside .rest a.2 es b) : Newcomer config c b where
  along := h.along.of_path hpath hb.course
  pending := hb.pending h.pending
  rooms key d hd hp := by
    rw [HostState.registered, hb.rooms] at hd
    rw [HostState.pending, hb.phase] at hp
    exact h.rooms key d hd hp

theorem Newcomer.tick (h : Newcomer config c (.rest, s)) : Newcomer config c (.rest, s.tick) :=
  ⟨h.along.tick, h.pending, h.rooms⟩

theorem Connection.armed_of_secure {conn : Connection} (h : conn.mode = .secure) :
    conn.Armed config := fun hlegacy => by
  rw [h] at hlegacy
  cases hlegacy

/-- What the handshake tells about the connection is kept. -/
theorem leads_introduce_moves (h : Newcomer config c (.rest, s)) {f : Connection → Connection}
    (hf : Introduces f) {E : String → Course × HostState HS → Prop} :
    Leads (Move config crates) (modify (·.modifyConn c f) : Action HS Unit)
      (fun _ b => Newcomer config c b ∧ b.2.conn c = f (s.conn c) ∧ b.2.trace = s.trace) E
      (.rest, s) := by
  have hself := s.conn_modifyConn_self h.pending.not_closed f
  have hpending : ∀ d, (s.modifyConn c f).pending d ↔ s.pending d := fun d => by
    rw [HostState.pending, s.conn_modifyConn_congr (g := Connection.phase) hf.phase,
      HostState.pending]
  have hmove : Move config crates (.rest, s) (.rest, s.modifyConn c f) :=
    .introduced h.pending (fun key hkey => h.rooms key c hkey h.pending) hf
  refine leads_step _ hmove ⟨⟨⟨rfl, h.along.sound.move hmove⟩, ?_, fun key d hd hp => ?_⟩, hself, rfl⟩
  · exact (hpending c).2 h.pending
  · exact h.rooms key d hd ((hpending d).1 hp)

/-- The peer of a connection is added to the core. -/
theorem leads_addPeer_moves (hsound : Sound config s) (hc : s.pending c) :
    Leads (Move config crates) (addPeer c)
      (fun _ b => OnCourse config { Course.rest with joining := some c } b ∧ b.2.conns = s.conns)
      (fun _ => OnCourse config .rest) (.rest, s) := by
  refine leads_bind (leads_consult_moves (leads_bind ?_))
  have hsound' := hsound.aside (.tick s)
  cases hadd : (s.tick.addPeer c (s.ambient 0)).1 with
  | error e =>
    have heq : s.tick.addPeer c (s.ambient 0) = (.error e, s.tick) := by
      unfold HostState.addPeer at hadd ⊢
      dsimp only at hadd ⊢
      split at hadd
      · rw [Except.error.inj hadd]
      · cases hadd
    refine leads_modifyGet_path .rest (by rw [heq]) ?_
    rw [heq]
    exact leads_throw ⟨rfl, hsound'⟩
  | ok =>
    have hmove : Move config crates (.rest, s.tick)
        ({ Course.rest with joining := some c }, (s.tick.addPeer c (s.ambient 0)).2) := .added hc hadd
    refine leads_modifyGet _ hmove ?_
    obtain ⟨core, routeSyncStates, heq⟩ := s.tick.addPeer_eq hadd
    dsimp only
    rw [hadd]
    refine leads_pure ⟨⟨rfl, hsound'.move hmove⟩, ?_⟩
    rw [heq]
    rfl

/-- The route id of a network is persisted. -/
theorem leads_persistPeerRouteId_moves {t : Course} (hsound : Sound config s) (networkName : String) :
    Leads (Move config crates) (persistPeerRouteId networkName)
      (fun _ b => OnCourse config t b ∧ b.2.conns = s.conns) (fun _ _ => False) (t, s) := by
  refine leads_bind (leads_get (leads_ite (fun _ => leads_pure ⟨⟨rfl, hsound⟩, rfl⟩) fun _ => ?_))
  have hsound₁ := hsound.aside (.persisted s (insert networkName s.persistedRouteIds))
  refine leads_bind (leads_step t (.aside (.persisted s _)) (leads_bind (leads_bind
    (leads_consult_moves ?_))))
  have hsound₂ := hsound₁.aside (.tick _)
  refine leads_modifyGet t (.aside (.core _ _)) (leads_pure ⟨⟨rfl, ?_⟩, rfl⟩)
  exact hsound₂.aside (.core _ _)

/-- A connection is registered; the one in its place is closed. -/
theorem leads_registerConnection_moves (h : Newcomer config c (.rest, s))
    (harmed : (s.conn c).Armed config) :
    Leads (Move config crates) (registerConnection crates c)
      (fun _ b => OnCourse config { Course.rest with joining := some c } b ∧ b.2.pending c ∧
        (b.2.conn c).Armed config)
      (fun _ => OnCourse config .rest) (.rest, s) := by
  refine leads_bind (leads_get ?_)
  dsimp only
  have hentered : Move config crates (.rest, s) (.rest, s.register c) := .entered h.pending
  refine leads_bind (leads_step _ hentered ?_)
  have hsound := h.along.sound.move hentered
  -- After its peer is added, the connection is as it was.
  have hrest : ∀ b : Course × HostState HS, OnCourse config .rest b → b.2.pending c →
      (b.2.conn c).core = (s.conn c).core →
      Leads (Move config crates) (do
        addPeer c
        persistPeerRouteId ((← get).conn c).networkName)
        (fun _ b => OnCourse config { Course.rest with joining := some c } b ∧ b.2.pending c ∧
          (b.2.conn c).Armed config)
        (fun _ => OnCourse config .rest) b := by
    rintro ⟨t₁, s₁⟩ h₁ hp₁ hcore
    obtain rfl : t₁ = .rest := h₁.course
    refine leads_bind ((leads_addPeer_moves h₁.sound hp₁).mono ?_ fun _ _ _ he => he)
    rintro - ⟨t₂, s₂⟩ - ⟨h₂, hconns₂⟩
    obtain rfl : t₂ = { Course.rest with joining := some c } := h₂.course
    refine leads_bind (leads_get ((leads_persistPeerRouteId_moves h₂.sound _).mono ?_
      fun _ _ _ he => he.elim))
    rintro - b - ⟨h₃, hconns₃⟩
    have hconn : b.2.conn c = s₁.conn c := by
      rw [HostState.conn, hconns₃, hconns₂, HostState.conn]
    refine ⟨h₃, ?_, ?_⟩
    · rw [HostState.pending, hconn]
      exact hp₁
    · rw [hconn]
      exact Sound.armed_congr harmed hcore
  cases hreplaced : s.rooms.get (s.conn c).networkName (s.conn c).peerId with
  | none => exact hrest _ ⟨rfl, hsound⟩ h.pending rfl
  | some r =>
    have hr : ¬s.pending r := h.rooms (s.routeSyncKey c) r hreplaced
    have hrc : r ≠ c := by
      rintro rfl
      exact hr h.pending
    dsimp only
    rw [if_pos hrc]
    -- Closing a connection leaves those alone that are in their handshake.
    have hclose : Leads (Quiet crates) (close crates r)
        (fun _ b => Calm crates (Stage.idle, s.register c) b ∧ b.2.closed r) (fun _ _ => False)
        (Stage.idle, s.register c) := leads_close hr rfl
    refine leads_bind (((leads_close_moves (t := .rest) r (.rest, s.register c) ⟨rfl, hsound⟩).and
      hclose rfl).mono ?_ fun _ _ _ he => he.1.elim)
    rintro - b - ⟨hb, b', -, heq, hcalm, -⟩
    have hundisturbed := hcalm.undisturbed
    have hpending := hundisturbed.pending c h.pending
    have hconn := hundisturbed.conn c hpending.not_closed
    rw [heq] at hpending hconn
    exact hrest b hb hpending hconn

/-- A handshake is finished, and the rest of the network learns of the new peer. -/
theorem leads_finishHandshake_moves (h : Newcomer config c (.rest, s))
    (harmed : (s.conn c).Armed config) :
    Leads (Move config crates) (finishHandshake crates c) (fun _ => OnCourse config .rest)
      (fun _ => OnCourse config .rest) (.rest, s) := by
  refine leads_bind ((leads_registerConnection_moves h harmed).mono ?_ fun _ _ _ he => he)
  rintro - ⟨t₁, s₁⟩ - ⟨h₁, hpending, harmed₁⟩
  obtain rfl : t₁ = { Course.rest with joining := some c } := h₁.course
  have hcompleted : Move config crates ({ Course.rest with joining := some c }, s₁)
      ({ Course.rest with joining := some c }, (s₁.completeHandshake c).releaseHandshakeSlot c) :=
    .completed hpending harmed₁
  refine leads_bind (leads_step _ hcompleted (leads_bind (leads_get (leads_bind (leads_get ?_)))))
  have hsound := h₁.sound.move hcompleted
  have hpast : ((s₁.completeHandshake c).releaseHandshakeSlot c).past c := by
    have hready : ((s₁.completeHandshake c).releaseHandshakeSlot c).ready c :=
      congrArg Connection.phase (s₁.conn_modifyConn_self hpending.not_closed _)
    exact ⟨HostState.lt_length_of_not_closed _ hready.not_closed, fun hp => hp.not_ready hready⟩
  generalize (s₁.completeHandshake c).releaseHandshakeSlot c = s₂ at hsound hpast
  dsimp only
  have hjoined : Move config crates ({ Course.rest with joining := some c }, s₂) _ := .joined hpast
  refine leads_bind (leads_step _ hjoined ?_)
  refine ((leads_broadcastRouteUpdate_moves (hsound.move hjoined) none _ fun hforced => ?_).extend
    (fun _ b hb => ?_) fun _ _ he => he.elim)
  · exact if_pos (of_decide_eq_true hforced)
  · obtain ⟨t, s⟩ := b
    have hcourse := hb.course
    dsimp only at hcourse
    rw [hcourse]
    exact ⟨(.rest, s), .single .presented, rfl, rfl, hb.sound⟩

/-- Message 1 is answered by message 2. -/
theorem leads_handleHandshakeMessage1_moves (h : Newcomer config c (.rest, s)) (frame : Bytes)
    (packetType : ℕ) :
    Leads (Move config crates) (handleHandshakeMessage1 config crates c frame packetType)
      (fun _ => OnCourse config .rest) (fun _ => OnCourse config .rest) (.rest, s) := by
  unfold handleHandshakeMessage1
  refine leads_ite (fun _ => leads_bind (leads_throw h.along)) fun _ => ?_
  refine leads_ite (fun _ => leads_bind (leads_throw h.along)) fun _ => ?_
  refine leads_bind (leads_bind ((leads_callSecure_moves (.readMsg1 frame)).mono ?_
    fun _ b hpath hb => (h.beside hpath hb).along))
  rintro output ⟨t₁, s₁⟩ hpath₁ hb₁
  have h₁ := h.beside hpath₁ hb₁
  obtain rfl : t₁ = .rest := hb₁.course
  refine leads_ofExcept (fun value _ => ?_) fun _ _ => h₁.along
  refine leads_bind (leads_ofExcept (fun info _ => ?_) fun _ _ => h₁.along)
  cases config.rooms.lookup info.networkName with
  | none => exact (leads_close_moves c _ h₁.along).mono (fun _ _ _ hb => hb) fun _ _ _ he => he.elim
  | some networkSecret =>
    dsimp only
    refine leads_bind ((leads_introduce_moves (E := fun _ => OnCourse config .rest) (f := fun conn =>
      { conn with peerId := info.peerId, networkName := info.networkName }) h₁
      ⟨⟨fun _ => rfl, fun _ => rfl, fun _ => rfl⟩, fun _ => rfl, fun _ => ⟨rfl, rfl, rfl⟩⟩).mono ?_
        fun _ _ _ he => he)
    rintro - ⟨t₂, s₂⟩ - ⟨h₂, -, -⟩
    obtain rfl : t₂ = .rest := h₂.along.course
    refine leads_bind (leads_bind (leads_consult_moves (leads_bind ((leads_callSecure_moves
      (.buildMsg2 networkSecret (s₂.ambient 0).msg2Draws)).mono ?_
        fun _ b hpath hb => (h₂.tick.beside hpath hb).along))))
    rintro output ⟨t₃, s₃⟩ hpath₃ hb₃
    have h₃ := h₂.tick.beside hpath₃ hb₃
    obtain rfl : t₃ = .rest := hb₃.course
    refine leads_ofExcept (fun msg2 hmsg2 => ?_) fun _ _ => h₃.along
    obtain rfl := frameResult_eq_ok hmsg2
    have hanswered : Sanctioned config crates s₃ c s₃.trace msg2 .relay := by
      refine @Sanctioned.answered _ _ _ _ _ _ networkSecret (s₂.ambient 0).msg2Draws msg2 ?_
      rw [hb₃.trace, List.getLast?_append]
      rfl
    refine leads_bind ((leads_sendConnection_moves h₃.pending.not_closed hanswered).mono ?_
      fun _ b hpath hb => ?_)
    · rintro - ⟨t₄, s₄⟩ hpath₄ ⟨es, hb₄⟩
      have h₄ := h₃.beside hpath₄ hb₄
      obtain rfl : t₄ = .rest := hb₄.course
      have hgreeted : Move config crates (.rest, s₄) (.rest, _) := .greeted h₄.pending
      exact leads_step _ hgreeted ⟨rfl, h₄.along.sound.move hgreeted⟩
    · obtain ⟨es, hb⟩ := hb
      exact (h₃.beside hpath hb).along

/-- The handshake of a client without secure mode is a single frame. -/
theorem leads_handleLegacyHandshake_moves (h : Newcomer config c (.rest, s)) {frame : Bytes}
    (hframe : s.trace.getLast? = some (.received c frame)) (header : PacketHeader) :
    Leads (Move config crates) (handleLegacyHandshake config crates c frame header)
      (fun _ => OnCourse config .rest) (fun _ => OnCourse config .rest) (.rest, s) := by
  unfold handleLegacyHandshake
  refine leads_ite (fun _ => leads_bind (leads_throw h.along)) fun _ => ?_
  refine leads_ite (fun _ => leads_bind (leads_throw h.along)) fun _ => ?_
  refine leads_bind (leads_ofExcept (fun value hvalue => ?_) fun _ _ => h.along)
  refine leads_bind (leads_ofExcept (fun info hinfo => ?_) fun _ _ => h.along)
  cases hroom : config.rooms.lookup info.networkName with
  | none => exact (leads_close_moves c _ h.along).mono (fun _ _ _ hb => hb) fun _ _ _ he => he.elim
  | some networkSecret =>
    dsimp only
    refine leads_bind (leads_ofExcept (fun digestOk hdigest => ?_) fun _ _ => h.along)
    refine leads_ite (fun _ => leads_bind (leads_throw h.along)) fun hok => ?_
    obtain rfl : digestOk = true := by simpa using hok
    refine leads_bind ((leads_introduce_moves (E := fun _ => OnCourse config .rest) (f := fun conn =>
      { conn with peerId := info.peerId, networkName := info.networkName, mode := .legacy }) h
      ⟨⟨fun _ => rfl, fun _ => rfl, fun _ => rfl⟩, fun _ => rfl, fun _ => ⟨rfl, rfl, rfl⟩⟩).mono ?_
        fun _ _ _ he => he)
    rintro - ⟨t₁, s₁⟩ - ⟨h₁, hconn₁, htrace₁⟩
    obtain rfl : t₁ = .rest := h₁.along.course
    refine leads_bind (leads_ofExcept (fun cipher hcipher => ?_) fun _ _ => h₁.along)
    refine leads_bind ((leads_introduce_moves (E := fun _ => OnCourse config .rest)
      (f := fun conn => { conn with legacyCipher := some cipher }) h₁
      ⟨⟨fun _ => rfl, fun _ => rfl, fun _ => rfl⟩, fun _ => rfl, fun _ => ⟨rfl, rfl, rfl⟩⟩).mono ?_
        fun _ _ _ he => he)
    rintro - ⟨t₂, s₂⟩ - ⟨h₂, hconn₂, htrace₂⟩
    obtain rfl : t₂ = .rest := h₂.along.course
    -- The connection has the cipher of its network.
    have harmed : (s₂.conn c).Armed config := fun _ => by
      dsimp only at hconn₂ hconn₁
      refine ⟨networkSecret, cipher, ?_, hcipher, ?_⟩
      · rw [hconn₂, hconn₁]
        exact hroom
      · rw [hconn₂]
    refine leads_bind (leads_ofExcept (fun response hresponse => ?_) fun _ _ => h₂.along)
    have hwelcomed : Sanctioned config crates s₂ c s₂.trace response .relay := by
      refine .welcomed ?_ hvalue hinfo hroom hdigest hresponse
      rw [show s₂.trace = s.trace from htrace₂.trans htrace₁]
      exact hframe
    refine leads_bind ((leads_sendConnection_moves h₂.pending.not_closed hwelcomed).mono ?_
      fun _ b hpath hb => ?_)
    · rintro - ⟨t₃, s₃⟩ hpath₃ ⟨es, hb₃⟩
      have h₃ := h₂.beside hpath₃ hb₃
      obtain rfl : t₃ = .rest := hb₃.course
      exact leads_finishHandshake_moves h₃ (Sound.armed_congr harmed (hb₃.conn c))
    · obtain ⟨es, hb⟩ := hb
      exact (h₂.beside hpath hb).along

/-- Message 3 ends the handshake. -/
theorem leads_handleHandshakeMessage3_moves (h : Newcomer config c (.rest, s))
    (hmode : (s.conn c).mode = .secure) (frame : Bytes) (packetType : ℕ) :
    Leads (Move config crates) (handleHandshakeMessage3 crates c frame packetType)
      (fun _ => OnCourse config .rest) (fun _ => OnCourse config .rest) (.rest, s) := by
  unfold handleHandshakeMessage3
  refine leads_ite (fun _ => leads_bind (leads_throw h.along)) fun _ => ?_
  refine leads_bind (leads_bind (leads_consult_moves (leads_bind ((leads_callSecure_moves
    (.finishMsg3 frame (s.ambient 0).clockMs)).mono ?_
      fun _ b hpath hb => (h.tick.beside hpath hb).along))))
  rintro output ⟨t₁, s₁⟩ hpath₁ hb₁
  have h₁ := h.tick.beside hpath₁ hb₁
  obtain rfl : t₁ = .rest := hb₁.course
  have hmode₁ : (s₁.conn c).mode = .secure := by
    have hmode₁ := congrArg Connection.mode (hb₁.conn c)
    exact hmode₁.trans hmode
  refine leads_ofExcept (fun value _ => ?_) fun _ _ => h₁.along
  refine leads_bind (leads_ofExcept (fun auth _ => ?_) fun _ _ => h₁.along)
  refine leads_bind (leads_get ?_)
  dsimp only
  refine leads_ite (fun _ => leads_bind (leads_throw h₁.along)) fun _ => ?_
  refine leads_bind ((leads_introduce_moves (E := fun _ => OnCourse config .rest)
    (f := fun conn => { conn with remotePublicKey := auth.remotePublicKey }) h₁
    ⟨⟨fun _ => rfl, fun _ => rfl, fun _ => rfl⟩, fun _ => rfl, fun _ => ⟨rfl, rfl, rfl⟩⟩).mono ?_
      fun _ _ _ he => he)
  rintro - ⟨t₂, s₂⟩ - ⟨h₂, hconn₂, -⟩
  obtain rfl : t₂ = .rest := h₂.along.course
  refine leads_finishHandshake_moves h₂ (Connection.armed_of_secure ?_)
  dsimp only at hconn₂
  rw [hconn₂]
  exact hmode₁

end Handshakes

/-! ## Packets of ready connections -/

section Packets

variable {s : HostState HS} {c : ConnId}

/-- The connection that a frame is for is ready. -/
theorem leads_resolveRecipient_moves (networkName : String) (toPeerId : UInt32) :
    Leads (Move config crates) (resolveRecipient networkName toPeerId)
      (fun recipient b => b = (.rest, s) ∧ ∀ target, recipient = some target → s.ready target)
      (fun _ _ => False) (.rest, s) := by
  obtain ⟨b, -, hb, hpost⟩ := leads_resolveRecipient (r := fun _ _ => False) (b := (Stage.idle, s))
    networkName toPeerId
  cases hresult : (resolveRecipient networkName toPeerId s).1 with
  | error e => exact (by rw [hresult] at hpost; exact hpost : False).elim
  | ok recipient =>
    rw [hresult] at hpost
    obtain ⟨rfl, hrecipient⟩ := hpost
    refine ⟨(.rest, s), .refl, hb, ?_⟩
    rw [hresult]
    exact ⟨rfl, fun target htarget => (hrecipient target htarget).2⟩

/-- A frame for another peer is sent to one connection at most. -/
theorem leads_deliver_moves (hsound : Sound config s) {frame : Bytes}
    (hframe : s.trace.getLast? = some (.received c frame)) (toPeerId : UInt32) :
    Leads (Move config crates) (deliver crates c frame toPeerId) (fun _ => OnCourse config .rest)
      (fun _ => OnCourse config .rest) (.rest, s) := by
  have hrefl : OnCourse config .rest (.rest, s) := ⟨rfl, hsound⟩
  refine leads_bind (leads_get (leads_bind ((leads_resolveRecipient_moves _ toPeerId).mono ?_
    fun _ _ _ he => he.elim)))
  rintro recipient b - ⟨rfl, hrecipient⟩
  cases recipient with
  | none => exact leads_pure hrefl
  | some target =>
    have hready := hrecipient target rfl
    refine leads_bind (leads_ofExcept (fun forwarded hforwarded => ?_) fun _ _ => hrefl)
    have hsanctioned : Sanctioned config crates s target s.trace forwarded (.peer c) :=
      .forwarded hframe hforwarded
    refine leads_tryCatch ((leads_sendConnection_moves hready.not_closed hsanctioned).mono ?_ ?_)
    · rintro - b hpath ⟨es, hb⟩
      exact hrefl.of_path hpath hb.course
    · rintro - b hpath ⟨es, hb⟩
      exact (leads_close_moves target b (hrefl.of_path hpath hb.course)).mono (fun _ _ _ hb => hb)
        fun _ _ _ he => he.elim

theorem leads_forward_moves (hsound : Sound config s) {frame : Bytes}
    (hframe : s.trace.getLast? = some (.received c frame)) (toPeerId : UInt32) :
    Leads (Move config crates) (forward config crates c frame toPeerId)
      (fun _ => OnCourse config .rest) (fun _ => OnCourse config .rest) (.rest, s) := by
  have hrefl : OnCourse config .rest (.rest, s) := ⟨rfl, hsound⟩
  have hdeliver : Leads (Move config crates) (deliver crates c frame toPeerId)
      (fun _ => OnCourse config .rest) (fun _ => OnCourse config .rest) (.rest, s) :=
    leads_deliver_moves hsound hframe toPeerId
  refine leads_ite (fun _ => ?_) fun _ => leads_bind (leads_pure hdeliver)
  refine leads_bind (leads_ofExcept (fun _ _ => ?_) fun _ _ => hrefl)
  exact leads_ite (fun _ => leads_pure hrefl) fun _ => hdeliver

/-- The payload of a control packet is read. -/
theorem leads_clearPayload_moves (frame : Bytes) (header : PacketHeader) (payload : Bytes) :
    Leads (Move config crates) (clearPayload crates c frame header payload)
      (fun _ b => ∃ es, Beside .rest s es b) (fun _ b => ∃ es, Beside .rest s es b) (.rest, s) := by
  have hrefl : ∃ es, Beside .rest s es (.rest, s) := ⟨[], .refl _ _⟩
  have hpayload : ∀ (b : Course × HostState HS) (clear : Bytes), (∃ es, Beside .rest s es b) →
      Leads (Move config crates) (payloadOf clear) (fun _ b => ∃ es, Beside .rest s es b)
        (fun _ b => ∃ es, Beside .rest s es b) b := fun b clear hb =>
    leads_ite (fun _ => leads_pure hb) fun _ =>
      leads_bind (leads_ofExcept (fun _ _ => leads_pure hb) fun _ _ => hb)
  refine leads_bind (leads_get ?_)
  dsimp only
  split
  · split
    · refine leads_ite (fun _ => leads_pure hrefl) fun _ => ?_
      exact leads_bind (leads_ofExcept (fun clear _ => hpayload _ clear hrefl) fun _ _ => hrefl)
    · exact leads_throw hrefl
  · refine leads_ite (fun _ => leads_bind (leads_throw hrefl)) fun _ => ?_
    -- A packet is decrypted by the `SecurePeer` of the connection.
    have hbeside : ∀ (es : List Effect) (b : Course × HostState HS), Beside .rest s.tick es b →
        ∃ es, Beside .rest s es b := fun es b hb => ⟨es, hb.course, hb.conn, hb.rooms, hb.trace⟩
    refine leads_bind (leads_bind (leads_consult_moves (leads_bind ((leads_callSecure_moves
      (.decryptPacket frame (s.ambient 0).packetClock)).mono ?_ fun _ b _ hb => hbeside _ b hb))))
    intro output b _ hb
    exact leads_ofExcept (fun clear _ => hpayload b clear (hbeside _ b hb)) fun _ _ => hbeside _ b hb

/-- A call of the client is served and answered. -/
theorem leads_handleRequest_moves (hsound : Sound config s) (hc : s.ready c) (payload : Bytes) :
    Leads (Move config crates) (handleRequest crates c payload) (fun _ => OnCourse config .rest)
      (fun _ => OnCourse config .rest) (.rest, s) := by
  have haside : Internal s (s.tick.handleRequest crates c payload (s.ambient 0)).2 :=
    (Internal.tick s).trans (.core _ _)
  refine leads_bind (leads_consult_moves (leads_bind (leads_modifyGet .rest (.aside (.core _ _)) ?_)))
  have hsound₁ := hsound.aside haside
  have hc₁ : (s.tick.handleRequest crates c payload (s.ambient 0)).2.ready c := hc
  dsimp only
  generalize s.tick.handleRequest crates c payload (s.ambient 0) = result at hsound₁ hc₁
  obtain ⟨result, s₁⟩ := result
  have h₁ : OnCourse config .rest (Course.rest, s₁) := ⟨rfl, hsound₁⟩
  refine leads_bind (leads_ofExcept (fun result _ => ?_) fun _ _ => h₁)
  refine leads_ite (fun _ => leads_pure h₁) fun _ => ?_
  refine leads_ite (fun _ => leads_bind (leads_throw h₁)) fun _ => ?_
  refine leads_bind ((leads_sendControl_moves hsound₁ hc₁ (.inr rfl) _).mono ?_ ?_)
  · rintro - ⟨t₂, s₂⟩ hpath ⟨es, hb⟩
    have h₂ := h₁.of_path hpath hb.course
    obtain rfl : t₂ = .rest := hb.course
    have hannounce : ∀ result : RequestResult, Leads (Move config crates) (do
        sendRouteUpdate crates c false
        pure result) (fun _ => OnCourse config .rest) (fun _ => OnCourse config .rest) (.rest, s₂) :=
      fun result => leads_bind ((leads_sendRouteUpdate_moves h₂.sound (hb.ready hc₁) false nofun).mono
        (fun _ _ _ hb => leads_pure hb) fun _ _ _ he => he)
    refine leads_ite (fun _ => hannounce _) fun _ => leads_ite (fun _ => hannounce _) fun _ => ?_
    exact leads_ite (fun _ => leads_bind (leads_throw h₂)) fun _ => leads_pure h₂
  · rintro - b hpath ⟨es, hb⟩
    exact h₁.of_path hpath hb.course

/-- A response of the client is read, and the next update may be built. -/
theorem leads_handleResponse_moves (hsound : Sound config s) (payload : Bytes) :
    Leads (Move config crates) (handleResponse crates c payload) (fun _ => OnCourse config .rest)
      (fun _ => OnCourse config .rest) (.rest, s) := by
  have haside : Internal s (s.tick.handleResponse crates c payload (s.ambient 0)).2 :=
    (Internal.tick s).trans (.core _ _)
  refine leads_bind (leads_consult_moves (leads_bind (leads_modifyGet .rest (.aside (.core _ _)) ?_)))
  have hsound₁ := hsound.aside haside
  dsimp only
  generalize s.tick.handleResponse crates c payload (s.ambient 0) = result at hsound₁
  obtain ⟨result, s₁⟩ := result
  have h₁ : OnCourse config .rest (Course.rest, s₁) := ⟨rfl, hsound₁⟩
  refine leads_bind (leads_ofExcept (fun complete _ => ?_) fun _ _ => h₁)
  refine leads_ite (fun _ => leads_pure h₁) fun _ => leads_bind (leads_get (leads_bind (leads_get ?_)))
  dsimp only
  cases s₁.routeSyncStates.get (s₁.routeSyncKey c) with
  | none => exact leads_pure h₁
  | some state =>
    refine leads_bind (leads_consult_moves ?_)
    have hsettled : Internal s₁.tick (s₁.tick.settle (s₁.routeSyncKey c) (s₁.ambient 0).now) :=
      .modifySync _ _ fun _ => rfl
    have h₂ := (hsound₁.aside (.tick s₁)).aside hsettled
    refine leads_bind (leads_step .rest (.aside hsettled) ?_)
    refine leads_ite (fun _ => leads_bind (leads_consult_moves ?_)) fun _ => leads_pure ⟨rfl, h₂⟩
    exact leads_flushRouteUpdate_moves (h₂.aside (.tick _)) _ _

/-- A frame for the relay. -/
theorem leads_handleDirectPacket_moves (hsound : Sound config s) (hc : s.ready c) {frame : Bytes}
    (hframe : s.trace.getLast? = some (.received c frame)) (header : PacketHeader)
    (payload : Bytes) :
    Leads (Move config crates) (handleDirectPacket crates c frame header payload)
      (fun _ => OnCourse config .rest) (fun _ => OnCourse config .rest) (.rest, s) := by
  have hrefl : OnCourse config .rest (Course.rest, s) := ⟨rfl, hsound⟩
  refine leads_bind (leads_get ?_)
  dsimp only
  refine leads_ite (fun _ => leads_bind (leads_throw hrefl)) fun _ => ?_
  refine leads_ite (fun _ => leads_bind (leads_throw hrefl)) fun _ => ?_
  refine leads_ite (fun _ => ?_) fun _ => ?_
  · -- A ping is echoed.
    refine leads_bind (leads_ofExcept (fun pong hpong => ?_) fun _ _ => hrefl)
    have hechoed : Sanctioned config crates s c s.trace pong .relay := .echoed hframe hpong
    refine leads_bind ((leads_sendConnection_moves hc.not_closed hechoed).mono ?_ ?_)
    · rintro - b hpath ⟨es, hb⟩
      exact leads_pure (hrefl.of_path hpath hb.course)
    · rintro - b hpath ⟨es, hb⟩
      exact hrefl.of_path hpath hb.course
  refine leads_ite (fun _ => leads_pure hrefl) fun _ => ?_
  refine leads_ite (fun _ => leads_pure hrefl) fun _ => ?_
  refine leads_bind ((leads_clearPayload_moves frame header payload).mono ?_ ?_)
  · rintro clear ⟨t₁, s₁⟩ hpath ⟨es, hb⟩
    have h₁ := hrefl.of_path hpath hb.course
    obtain rfl : t₁ = .rest := hb.course
    cases clear with
    | none => exact leads_pure h₁
    | some payload =>
      refine leads_ite (fun _ => ?_) fun _ => leads_handleResponse_moves h₁.sound payload
      refine leads_bind ((leads_handleRequest_moves h₁.sound (hb.ready hc) payload).mono ?_
        fun _ _ _ he => he)
      rintro result ⟨t₂, s₂⟩ - h₂
      obtain rfl : t₂ = .rest := h₂.course
      refine leads_ite (fun _ => ?_) fun _ => leads_pure h₂
      refine leads_bind (leads_get ?_)
      exact (leads_broadcastRouteUpdate_moves h₂.sound _ false nofun).mono (fun _ _ _ hb => hb)
        fun _ _ _ he => he.elim
  · rintro - b hpath ⟨es, hb⟩
    exact hrefl.of_path hpath hb.course

/-- A frame of a client is handled. -/
theorem leads_handleMessage_moves (hregistry : Registry .idle s)
    (hhandshakes : Handshakes config crates .idle s) (hsound : Sound config s) (c : ConnId)
    (data : Data) :
    Leads (Move config crates) (handleMessage config crates c data) (fun _ => OnCourse config .rest)
      (fun _ => OnCourse config .rest) (.rest, s) := by
  have hrefl : OnCourse config .rest (Course.rest, s) := ⟨rfl, hsound⟩
  refine leads_bind (leads_ofExcept (fun frame _ => ?_) fun _ _ => hrefl)
  refine leads_ite (fun _ => leads_bind (leads_throw hrefl)) fun _ => ?_
  refine leads_bind (leads_ofExcept (fun packet _ => ?_) fun _ _ => hrefl)
  obtain ⟨header, payload⟩ := packet
  refine leads_bind (leads_get ?_)
  dsimp only
  refine leads_ite (fun _ => leads_pure hrefl) fun hopen => ?_
  have hreceived : Move config crates (.rest, s) (.rest, s.note (.received c frame)) := .received
  have hsound₁ := hsound.move hreceived
  have hframe : (s.note (.received c frame)).trace.getLast? = some (.received c frame) :=
    List.getLast?_concat
  -- Between two events, whoever is in a room is ready.
  have hnewcomer : s.pending c → Newcomer config c (.rest, s.note (.received c frame)) := by
    refine fun hc => ⟨⟨rfl, hsound₁⟩, hc, fun key d hd hp => ?_⟩
    obtain ⟨-, -, hready⟩ := hregistry.entry key d hd
    exact HostState.pending.not_ready hp (hready.resolve_right fun hsubject => by cases hsubject)
  refine leads_bind (leads_step .rest hreceived ?_)
  have hidle : ¬c ∈ Stage.idle.doomed := fun h => h.elim
  have hauthentic := hhandshakes.authentic c
  cases hphase : (s.conn c).phase with
  | closed => exact absurd hphase hopen
  | msg1 =>
    have hc := hnewcomer (by rw [HostState.pending, hphase]; rfl)
    refine leads_ite (fun _ => ?_) fun _ => ?_
    · exact leads_handleLegacyHandshake_moves hc hframe header
    · exact leads_handleHandshakeMessage1_moves hc frame header.packetType
  | msg3 =>
    have hc := hnewcomer (by rw [HostState.pending, hphase]; rfl)
    obtain ⟨_, _, -, -, hmode, -⟩ := hauthentic.greeted hphase hidle
    exact leads_handleHandshakeMessage3_moves hc hmode frame header.packetType
  | ready =>
    refine leads_ite (fun _ => ?_) fun _ => ?_
    · exact leads_forward_moves hsound₁ hframe _
    · exact leads_handleDirectPacket_moves hsound₁ hphase hframe header payload

end Packets

/-! ## Events -/

section Events

variable {s : HostState HS}

/-- An upgrade. -/
theorem leads_fetch_moves (hsound : Sound config s) (request : Request) :
    Leads (Move config crates) (fetch config crates request) (fun _ => OnCourse config .rest)
      (fun _ _ => False) (.rest, s) := by
  have hrefl : OnCourse config .rest (Course.rest, s) := ⟨rfl, hsound⟩
  refine leads_ite (fun _ => leads_pure hrefl) fun _ => ?_
  refine leads_ite (fun _ => leads_pure hrefl) fun _ => leads_bind (leads_get ?_)
  refine leads_ite (fun _ => leads_pure hrefl) fun _ => ?_
  have hconsult : consult s = (.ok (s.ambient 0), s.tick) := rfl
  have hmodifyGet : ∀ (f : HostState HS → Bool × HostState HS) (s : HostState HS),
      (modifyGet f : Action HS Bool) s = (.ok (f s).1, (f s).2) := fun _ _ => rfl
  unfold Leads
  simp only [Prog.run_bind, hconsult, hmodifyGet, Prog.run_ite]
  cases haccept : (s.tick.accept config crates (request.connectingIp.getD unknownIp)
      (s.ambient 0)).1 with
  | false =>
    rw [if_neg Bool.false_ne_true, accept_eq_self haccept]
    exact ⟨(.rest, s.tick), .single (.aside (.tick s)), rfl, hrefl.tick⟩
  | true =>
    have haccepted : Move config crates (.rest, s) _ := .accepted haccept
    rw [if_pos rfl]
    exact ⟨_, .single haccepted, rfl, rfl, hsound.move haccepted⟩

/-- What has expired is swept, and the updates that were not answered in time are built again. -/
theorem leads_cleanExpired_moves {t : Course} (hsound : Sound config s) (now : ℕ) :
    Leads (Move config crates) (cleanExpired crates now) (fun _ => OnCourse config t)
      (fun _ _ => False) (t, s) := by
  have haside : Internal s (s.tick.cleanExpired crates now (s.ambient 0)).2 :=
    (Internal.tick s).trans (.core _ _)
  refine leads_bind (leads_consult_moves (leads_bind (leads_modifyGet t (.aside (.core _ _))
    (leads_bind (leads_get ?_)))))
  refine leads_bind ((@leads_gather _ _ _ _ _ _ _ _ _ (fun _ _ => OnCourse config t) _ []
    ⟨rfl, hsound.aside haside⟩ fun key rest found b hb => ?_).mono (fun _ b _ hb => leads_pure hb)
      fun _ _ _ he => he)
  obtain ⟨t', s'⟩ := b
  obtain rfl : t' = t := hb.course
  refine leads_bind (leads_get ?_)
  dsimp only
  cases s'.routeSyncStates.get key with
  | none => exact leads_pure hb
  | some state =>
    refine leads_ite (fun _ => leads_pure hb) fun _ => ?_
    have hexpired : Internal s' (s'.expire key) := .modifySync _ _ fun _ => rfl
    refine leads_bind (leads_step t' (.aside hexpired) (leads_tryCatch (leads_bind ?_)))
    refine (leads_flushRouteUpdate_moves (hb.sound.aside hexpired) key now).mono ?_ ?_
    · exact fun _ _ _ hb => leads_pure hb
    · exact fun _ _ _ he => leads_bind (leads_get (leads_pure he))

/-- The maintenance. -/
theorem leads_maintenance_moves (hsound : Sound config s) :
    Leads (Move config crates) (maintenance crates) (fun _ => OnCourse config .rest)
      (fun _ _ => False) (.rest, s) := by
  have hpaused : Move config crates (.rest, s) ({ Course.rest with maintaining := true }, _) := .paused
  refine leads_bind (leads_step _ hpaused (leads_bind (leads_consult_moves ?_)))
  refine leads_bind ((leads_cleanExpired_moves ((hsound.move hpaused).aside (.tick _)) _).mono ?_
    fun _ _ _ he => he)
  rintro ⟨networks, failures⟩ b - hb
  refine leads_bind ((leads_forEach hb fun failure b hb => ?_).mono ?_ fun _ _ _ he => he)
  · refine leads_ite (fun _ => leads_bind (leads_get ?_)) fun _ => leads_pure hb
    cases b.2.rooms.get failure.networkName (UInt32.ofNat failure.peerId) with
    | none => exact leads_pure hb
    | some c => exact leads_close_moves c b hb
  rintro - b - hb
  refine leads_bind ((leads_forEach hb fun networkName b hb => ?_).mono ?_ fun _ _ _ he => he)
  · obtain ⟨t, s⟩ := b
    have hcourse : t = { Course.rest with maintaining := true } := hb.course
    rw [hcourse]
    exact leads_broadcastRouteUpdate_moves hb.sound none false nofun
  rintro - b - hb
  refine leads_bind (leads_get (leads_bind ((leads_forEach hb fun c b hb => ?_).mono ?_
    fun _ _ _ he => he)))
  · -- A peer that has not heard from the relay for long is sent an update.
    obtain ⟨t, s⟩ := b
    have hcourse : t = { Course.rest with maintaining := true } := hb.course
    rw [hcourse] at hb ⊢
    refine leads_bind (leads_get (leads_ite (fun _ => leads_pure hb) fun hgo => ?_))
    have hc : s.ready c := by
      by_contra hnot
      exact hgo (.inr hnot)
    refine leads_tryCatch (leads_bind (leads_get (leads_bind (leads_get ?_))))
    dsimp only
    cases s.routeSyncStates.get (s.routeSyncKey c) with
    | none => exact leads_pure hb
    | some state =>
      refine leads_ite (fun _ => leads_pure hb) fun _ => ?_
      exact (leads_sendRouteUpdate_moves hb.sound hc false nofun).mono (fun _ _ _ hb => hb)
        fun _ b _ hb => leads_close_moves c b hb
  rintro - ⟨t, s⟩ - hb
  obtain rfl : t = { Course.rest with maintaining := true } := hb.course
  have hresumed : Move config crates ({ Course.rest with maintaining := true }, s)
      (.rest, s.scheduleMaintenance) := .resumed
  exact leads_step .rest hresumed ⟨rfl, hb.sound.move hresumed⟩

/-- Every event goes by moves. -/
theorem leads_handleEvent_moves (hregistry : Registry .idle s)
    (hhandshakes : Handshakes config crates .idle s) (hsound : Sound config s) (e : ServerEvent) :
    Leads (Move config crates) (handleEvent config crates e) (fun _ => OnCourse config .rest)
      (fun _ _ => False) (.rest, s) := by
  have hrefl : OnCourse config .rest (Course.rest, s) := ⟨rfl, hsound⟩
  have hended : ∀ {b : Course × HostState HS}, OnCourse config .rest b → Leads (Move config crates)
      (pure none : Action HS (Option Response)) (fun _ => OnCourse config .rest) (fun _ _ => False) b :=
    fun hb => leads_pure hb
  cases e with
  | upgrade request =>
    exact leads_bind ((leads_fetch_moves hsound request).mono (fun _ _ _ hb => leads_pure hb)
      fun _ _ _ he => he)
  | message c data =>
    refine leads_bind (leads_tryCatch ((leads_handleMessage_moves hregistry hhandshakes hsound c
      data).mono (fun _ _ _ hb => hended hb) fun _ b _ hb => ?_))
    exact (leads_close_moves c b hb).mono (fun _ _ _ hb => hended hb) fun _ _ _ he => he
  | socketClosed c =>
    exact leads_bind ((leads_removeConnection_moves c _ hrefl).mono (fun _ _ _ hb => hended hb)
      fun _ _ _ he => he)
  | handshakeTimeout c =>
    refine leads_bind (leads_get (leads_ite (fun _ => ?_) fun _ => hended hrefl))
    exact leads_bind ((leads_close_moves c _ hrefl).mono (fun _ _ _ hb => hended hb)
      fun _ _ _ he => he)
  | maintenance =>
    refine leads_bind (leads_get (leads_ite (fun _ => ?_) fun _ => hended hrefl))
    exact leads_bind ((leads_maintenance_moves hsound).mono (fun _ _ _ hb => hended hb)
      fun _ _ _ he => he)
  | persistFailed networkName =>
    exact leads_bind (leads_step .rest (.aside (.persisted s _))
      (hended ⟨rfl, hsound.aside (.persisted s _)⟩))

/-- An event of the server is a path of moves, with the ambient that it came with. -/
theorem server_moves (hregistry : Registry .idle s)
    (hhandshakes : Handshakes config crates .idle s) (hsound : Sound config s)
    (input : ServerEvent × (ℕ → Ambient)) :
    Relation.ReflTransGen (Move config crates) (.rest, { s with ambient := input.2 })
        (.rest, ((server config crates).step s input).1) ∧
      Sound config ((server config crates).step s input).1 := by
  obtain ⟨e, ambient⟩ := input
  have hkept : Step config crates (.idle, s) (.idle, { s with ambient }) := .kept
  have hsound' : Sound config { s with ambient } := ⟨hsound.room, hsound.sync, hsound.armed⟩
  obtain ⟨⟨t, s'⟩, hpath, hs', hpost⟩ := @leads_handleEvent_moves _ config crates
    { s with ambient } (hregistry.step hkept) (hhandshakes.step hkept) hsound' e
  have hstep : ((server config crates).step s (e, ambient)).1 =
      (handleEvent config crates e { s with ambient }).2 := rfl
  rw [hstep]
  obtain rfl : s' = (handleEvent config crates e { s with ambient }).2 := hs'
  cases hresult : (handleEvent config crates e { s with ambient }).1 with
  | error e => exact (by rw [hresult] at hpost; exact hpost : False).elim
  | ok response =>
    rw [hresult] at hpost
    obtain rfl : t = .rest := hpost.course
    exact ⟨hpath, hpost.sound⟩

end Events

/-! ## Runs -/

/-- What every move keeps, whatever the ambient, holds between any two events of a run. -/
theorem Reachable.of_move (config : ServerConfig) (crates : HostCrates HS)
    {P : Course × HostState HS → Prop} (h0 : P (.rest, .init config))
    (hambient : ∀ s ambient, P (.rest, s) → P (.rest, { s with ambient }))
    (hmove : ∀ a b, Move config crates a b → Sound config a.2 → P a → P b) {s : HostState HS}
    (h : (server config crates).Reachable s) : Sound config s ∧ P (.rest, s) := by
  have hall : Registry .idle s ∧ Handshakes config crates .idle s ∧ Sound config s ∧ P (.rest, s) := by
    refine Machine.Reachable.invariant (P := fun s => Registry .idle s ∧
      Handshakes config crates .idle s ∧ Sound config s ∧ P (.rest, s))
      ⟨.init config, .init config crates, .init config, h0⟩ ?_ h
    rintro s input ⟨hregistry, hhandshakes, hsound, hP⟩
    obtain ⟨hsteps, -, -⟩ := path_of_event hregistry hhandshakes input
    obtain ⟨hmoves, hsound'⟩ := server_moves hregistry hhandshakes hsound input
    have hbooks : ∀ {a b : Stage × HostState HS}, Relation.ReflTransGen (Step config crates) a b →
        Registry a.1 a.2 ∧ Handshakes config crates a.1 a.2 →
        Registry b.1 b.2 ∧ Handshakes config crates b.1 b.2 := by
      intro a b hpath ha
      induction hpath with
      | refl => exact ha
      | tail _ hlast ih => exact ⟨ih.1.step hlast, ih.2.step hlast⟩
    have hpath : ∀ {a b : Course × HostState HS}, Relation.ReflTransGen (Move config crates) a b →
        Sound config a.2 → P a → P b := by
      intro a b hpath ha hPa
      induction hpath with
      | refl => exact hPa
      | tail hbefore hlast ih => exact hmove _ _ hlast (ha.of_path hbefore) ih
    obtain ⟨hregistry', hhandshakes'⟩ := hbooks hsteps ⟨hregistry, hhandshakes⟩
    have hsound₀ : Sound config { s with ambient := input.2 } :=
      ⟨hsound.room, hsound.sync, hsound.armed⟩
    exact ⟨hregistry', hhandshakes', hsound', hpath hmoves hsound₀ (hambient s input.2 hP)⟩
  exact hall.2.2

/-- Any event goes by moves. -/
theorem Reachable.moves {s : HostState HS} (h : (server config crates).Reachable s)
    (input : ServerEvent × (ℕ → Ambient)) :
    Sound config { s with ambient := input.2 } ∧
      Relation.ReflTransGen (Move config crates) (.rest, { s with ambient := input.2 })
        (.rest, ((server config crates).step s input).1) := by
  obtain ⟨hregistry, hhandshakes, -⟩ :=
    Reachable.of_step config crates (P := fun _ => True) trivial (fun _ _ _ _ _ => trivial) h
  obtain ⟨hsound, -⟩ := Reachable.of_move config crates (P := fun _ => True) trivial
    (fun _ _ _ => trivial) (fun _ _ _ _ _ => trivial) h
  exact ⟨⟨hsound.room, hsound.sync, hsound.armed⟩,
    (server_moves hregistry hhandshakes hsound input).1⟩

end Host

end EasyTierEdge
