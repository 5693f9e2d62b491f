import EasyTierEdge.Host.Ownership

/-!
# The moves of an event

The steps of an event (`Step`) tell what the layers of the server know of each other. What they
leave out is what a connection is sent and when, and the timers. `Move` is a second relation
that events are made of, with just these: a frame is sent to a connection in one move, whether or
not it gets through, and only for a reason (`Sanctioned`), and each move that touches a
timer is there.

* `Evolves`: what a move leaves of a connection whose handshake is over;
* `Sound`: what makes up for the facts that the moves need, which every move keeps.
-/

namespace EasyTierEdge

namespace Host

variable {HS : Type}

/-! ## Reasons to send -/

/-- A call or an answer of the relay to the peer of a connection. -/
def Connection.Control (conn : Connection) (packet : Bytes) : Prop :=
  ∃ packetType payload, (packetType = PacketType.rpcReq ∨ packetType = PacketType.rpcResp) ∧
    createPacket serverPeerId.toNat conn.peerId.toNat packetType payload = .ok packet

/-- A connection of a client without secure mode has the cipher of its network. -/
def Connection.Armed (config : ServerConfig) (conn : Connection) : Prop :=
  conn.mode = .legacy → ∃ networkSecret cipher,
    config.rooms.lookup conn.networkName = some networkSecret ∧
    LegacyCipher.new networkSecret = .ok cipher ∧ conn.legacyCipher = some cipher

namespace HostState

variable (s : HostState HS) (c : ConnId)

/-- The handshake of a connection is over. -/
def past : Prop := c < s.conns.length ∧ ¬s.pending c

/-- What `leave` makes of the state. -/
def withdraw (crates : HostCrates HS) (c : ConnId) (a : Ambient) : HostState HS :=
  if (s.conn c).phase = .ready then (s.unregister c).removePeer crates c a else s.unregister c

end HostState

/-- Why a frame may be sent to a connection, by what was done before. -/
inductive Sanctioned (config : ServerConfig) (crates : HostCrates HS) (s : HostState HS) (c : ConnId)
    (before : List Effect) : Bytes → Origin → Prop
  /-- It is message 2 of the handshake, made by the `SecurePeer` of the connection. -/
  | answered {networkSecret : String} {draws : Msg2Draws} {frame : Bytes} :
      before.getLast? = some (.secure c (.buildMsg2 networkSecret draws) (.frame (.ok frame))) →
      Sanctioned config crates s c before frame .relay
  /-- It is the answer to the handshake of a client without secure mode, whose digest is right. -/
  | welcomed {hello : Bytes} {value : LegacyHandshakeInfo} {info : LegacyInfo}
      {networkSecret : String} {frame : Bytes} :
      before.getLast? = some (.received c hello) →
      parseLegacyHandshake crates.handshake crates.secure.base64Encode hello = .ok value →
      parseLegacyHandshakeInfo crates value = .ok info →
      config.rooms.lookup info.networkName = some networkSecret →
      verifyNetworkSecretDigest info.networkSecretDigest info.networkName networkSecret = .ok true →
      buildLegacyHandshakeResponse crates.handshake serverPeerId info.networkName networkSecret =
        .ok frame →
      Sanctioned config crates s c before frame .relay
  /-- It is the echo of a ping. -/
  | echoed {ping frame : Bytes} : before.getLast? = some (.received c ping) →
      createPong ping = .ok frame → Sanctioned config crates s c before frame .relay
  /-- It is a control packet for the peer, just encrypted by the `SecurePeer` of the connection. -/
  | encrypted {packet : Bytes} {clock : PacketClock} {frame : Bytes} : s.past c →
      (s.conn c).mode = .secure → (s.conn c).Control packet →
      before.getLast? = some (.secure c (.encryptPacket packet clock) (.frame (.ok frame))) →
      Sanctioned config crates s c before frame .relay
  /-- It is a control packet for the peer, encrypted with the cipher of its network. -/
  | ciphered {networkSecret : String} {cipher : LegacyCipher} {packet frame : Bytes}
      {nonce : Except String (Vector UInt8 12)} : s.past c →
      (s.conn c).mode = .legacy → (s.conn c).Control packet →
      config.rooms.lookup (s.conn c).networkName = some networkSecret →
      LegacyCipher.new networkSecret = .ok cipher →
      cipher.encryptPacket crates.secure packet nonce = .ok frame →
      Sanctioned config crates s c before frame .relay
  /-- It is a frame of another connection, but for the hop counter. -/
  | forwarded {d : ConnId} {received frame : Bytes} :
      before.getLast? = some (.received d received) →
      incrementForwardCounter received = .ok frame →
      Sanctioned config crates s c before frame (.peer d)

/-! ## Sending -/

namespace HostState

variable (s : HostState HS)

/-- A frame of so many bytes counts for the window of a connection. -/
def charge (c : ConnId) (bytes : ℕ) : HostState HS :=
  s.modifyConn c (·.withWindow (s.conn c).sendWindowStartedAt
    ((s.conn c).sentBytesInWindow + bytes) ((s.conn c).sentFramesInWindow + 1))

end HostState

/-- Either the window is full, the socket closed, and nothing counts; or the frame counts, and may
    still not get through. -/
theorem sendConnection_cases (s : HostState HS) (c : ConnId) (packet : Bytes) (origin : Origin) :
    (∃ e, sendConnection c packet origin s = (.error e, s.tick.rollWindow c (s.ambient 0).now)) ∨
      ((s.tick.rollWindow c (s.ambient 0).now).conn c).sentBytesInWindow + packet.length ≤
          maxSendBytesPerWindow ∧
        ((s.tick.rollWindow c (s.ambient 0).now).conn c).sentFramesInWindow <
          maxSendFramesPerWindow ∧
        ((∃ e, sendConnection c packet origin s =
            (.error e, (s.tick.rollWindow c (s.ambient 0).now).charge c packet.length)) ∨
          sendConnection c packet origin s =
            (.ok (), ((s.tick.rollWindow c (s.ambient 0).now).charge c packet.length).note
              (.sent c packet origin))) := by
  have hconsult : consult s = (.ok (s.ambient 0), s.tick) := rfl
  have hmodify : ∀ (f : HostState HS → HostState HS) (s : HostState HS),
      (modify f : Action HS Unit) s = (.ok (), f s) := fun _ _ => rfl
  have hget : ∀ s : HostState HS, (get : Action HS (HostState HS)) s = (.ok s, s) := fun _ => rfl
  have hthrow : ∀ (e : String) (s : HostState HS), (throw e : Action HS Unit) s = (.error e, s) :=
    fun _ _ => rfl
  unfold sendConnection
  simp only [Prog.run_bind, hconsult, hmodify, hget, Prog.run_ite, hthrow]
  generalize s.tick.rollWindow c (s.ambient 0).now = s₁
  by_cases hlimit : maxSendBytesPerWindow < (s₁.conn c).sentBytesInWindow + packet.length ∨
      maxSendFramesPerWindow ≤ (s₁.conn c).sentFramesInWindow
  · exact .inl ⟨_, by rw [if_pos hlimit]⟩
  rw [if_neg hlimit]
  obtain ⟨hbytes, hframes⟩ := not_or.1 hlimit
  cases hopen : (s.ambient 0).isOpen with
  | false => exact .inl ⟨"WebSocket is not open", rfl⟩
  | true =>
    refine .inr ⟨Nat.not_lt.1 hbytes, Nat.not_le.1 hframes, ?_⟩
    cases hthrows : (s.ambient 0).sendThrows with
    | true => exact .inl ⟨"WebSocket send failed", rfl⟩
    | false => exact .inr rfl

/-- What else sending a frame leaves. -/
structure Sends (c : ConnId) (packet : Bytes) (origin : Origin) (s s' : HostState HS) : Prop
    extends Unmoved s s' where
  length : s'.conns.length = s.conns.length
  maintenanceTimer : s'.maintenanceTimer = s.maintenanceTimer
  resync : s'.resyncPendingNetworks = s.resyncPendingNetworks
  trace : s'.trace = s.trace ∨ s'.trace = s.trace ++ [.sent c packet origin]
  ambient : ∀ n, s'.ambient n = s.ambient (n + 1)

theorem sends_sendConnection (s : HostState HS) (c : ConnId) (packet : Bytes) (origin : Origin) :
    Sends c packet origin s (sendConnection c packet origin s).2 := by
  have hroll : Sends c packet origin s (s.tick.rollWindow c (s.ambient 0).now) ∧
      (s.tick.rollWindow c (s.ambient 0).now).trace = s.trace := by
    unfold HostState.rollWindow
    split_ifs
    · exact ⟨⟨(unmoved_tick s).trans (unmoved_withWindow _ c _ _ _), List.length_modify .., rfl, rfl,
        .inl rfl, fun _ => rfl⟩, rfl⟩
    · exact ⟨⟨unmoved_tick s, rfl, rfl, rfl, .inl rfl, fun _ => rfl⟩, rfl⟩
  obtain ⟨hroll, htrace⟩ := hroll
  have hcases := sendConnection_cases s c packet origin
  generalize s.tick.rollWindow c (s.ambient 0).now = s₁ at hroll htrace hcases
  have hcharge := hroll.toUnmoved.trans (unmoved_withWindow s₁ c (s₁.conn c).sendWindowStartedAt
    ((s₁.conn c).sentBytesInWindow + packet.length) ((s₁.conn c).sentFramesInWindow + 1))
  have hlength : (s₁.charge c packet.length).conns.length = s.conns.length :=
    (List.length_modify ..).trans hroll.length
  rcases hcases with ⟨e, heq⟩ | ⟨-, -, ⟨e, heq⟩ | heq⟩
  · rw [heq]
    exact hroll
  · rw [heq]
    exact ⟨hcharge, hlength, hroll.maintenanceTimer, hroll.resync, .inl htrace, hroll.ambient⟩
  · rw [heq]
    refine ⟨hcharge.trans (unmoved_note _ _), hlength, hroll.maintenanceTimer, hroll.resync, .inr ?_,
      hroll.ambient⟩
    exact congrArg (· ++ _) htrace

/-! ## Moves -/

/-- How far an event is. -/
structure Course where
  /-- The callback of the maintenance runs. -/
  maintaining : Bool
  /-- The peer of this connection was added, and is not announced yet. -/
  joining : Option ConnId
  /-- The first peer of this network since the restart is announced. -/
  resyncing : Option String

/-- Between two events. -/
def Course.rest : Course := ⟨false, none, none⟩

/-- An effect that the moves do not tell apart. -/
def Effect.inert : Effect → Bool
  | .secure .. | .built .. => true
  | _ => false

/-- A change of what neither connections nor rooms nor timers depend on. -/
structure Internal (s s' : HostState HS) : Prop where
  conns : s'.conns = s.conns
  connections : s'.connections = s.connections
  rooms : s'.rooms = s.rooms
  maintenanceTimer : s'.maintenanceTimer = s.maintenanceTimer
  resync : s'.resyncPendingNetworks = s.resyncPendingNetworks
  sync : ∀ key state', s'.routeSyncStates.get key = some state' →
    ∃ state, s.routeSyncStates.get key = some state ∧ state.peer = state'.peer
  trace : ∃ es, s'.trace = s.trace ++ es ∧ ∀ e ∈ es, e.inert = true
  ambient : ∀ n, ∃ m, s'.ambient n = s.ambient m

/-- What a handshake may tell about a connection. -/
structure Introduces (f : Connection → Connection) : Prop extends Prepares f where
  handshakeTimer : ∀ conn, (f conn).handshakeTimer = conn.handshakeTimer
  window : ∀ conn, (f conn).sendWindowStartedAt = conn.sendWindowStartedAt ∧
    (f conn).sentBytesInWindow = conn.sentBytesInWindow ∧
    (f conn).sentFramesInWindow = conn.sentFramesInWindow

/-- The moves that events are made of. -/
inductive Move (config : ServerConfig) (crates : HostCrates HS) :
    Course × HostState HS → Course × HostState HS → Prop
  | aside {t : Course} {s s' : HostState HS} : Internal s s' → Move config crates (t, s) (t, s')
  /-- A frame is handled. -/
  | received {s : HostState HS} {c : ConnId} {frame : Bytes} :
      Move config crates (.rest, s) (.rest, s.note (.received c frame))
  /-- A change of the routes is announced. -/
  | announced {t : Course} {s : HostState HS} {c : ConnId} {forceFull : Bool} : s.ready c →
      (forceFull = true → t.resyncing = some (s.conn c).networkName) →
      Move config crates (t, s) (t, s.announce c forceFull)
  /-- A frame is sent, or not. -/
  | sent {t : Course} {s : HostState HS} {c : ConnId} {frame : Bytes} {origin : Origin} :
      ¬s.closed c → Sanctioned config crates s c s.trace frame origin →
      Move config crates (t, s) (t, (sendConnection c frame origin s).2)
  /-- A connection is accepted. -/
  | accepted {s : HostState HS} {ipKey : String} :
      (s.tick.accept config crates ipKey (s.ambient 0)).1 = true →
      Move config crates (.rest, s) (.rest, (s.tick.accept config crates ipKey (s.ambient 0)).2)
  /-- What a handshake tells about a connection is kept. -/
  | introduced {s : HostState HS} {c : ConnId} {f : Connection → Connection} :
      s.pending c → (∀ key, s.registered key ≠ some c) → Introduces f →
      Move config crates (.rest, s) (.rest, s.modifyConn c f)
  /-- Message 2 was sent. -/
  | greeted {s : HostState HS} {c : ConnId} : s.pending c →
      Move config crates (.rest, s) (.rest, s.modifyConn c fun conn => { conn with phase := .msg3 })
  /-- A connection enters its room. -/
  | entered {s : HostState HS} {c : ConnId} : s.pending c →
      Move config crates (.rest, s) (.rest, s.register c)
  /-- The peer of a connection is added to the core. -/
  | added {s : HostState HS} {c : ConnId} {a : Ambient} : s.pending c →
      (s.addPeer c a).1 = .ok () →
      Move config crates (.rest, s) ({ Course.rest with joining := some c }, (s.addPeer c a).2)
  /-- A handshake is finished. -/
  | completed {s : HostState HS} {c : ConnId} : s.pending c → (s.conn c).Armed config →
      Move config crates ({ Course.rest with joining := some c }, s)
        ({ Course.rest with joining := some c }, (s.completeHandshake c).releaseHandshakeSlot c)
  /-- The first peer of a network since the restart is announced as such. -/
  | joined {s : HostState HS} {c : ConnId} : s.past c →
      Move config crates ({ Course.rest with joining := some c }, s)
        ({ Course.rest with
            resyncing := if (s.conn c).networkName ∈ s.resyncPendingNetworks then
              some (s.conn c).networkName else none },
          { s with
            resyncPendingNetworks := s.resyncPendingNetworks.erase (s.conn c).networkName })
  /-- A peer is announced. -/
  | presented {resyncing : Option String} {s : HostState HS} :
      Move config crates ({ Course.rest with resyncing }, s) (.rest, s)
  /-- A connection is closed. -/
  | left {t : Course} {s : HostState HS} {c : ConnId} {a : Ambient} : ¬s.closed c →
      Move config crates (t, s) (t, s.withdraw crates c a)
  /-- A closed connection is disposed. -/
  | disposed {t : Course} {s : HostState HS} {c : ConnId} {a : Ambient} : s.closed c →
      Move config crates (t, s) (t, s.disposeConnection crates c a)
  /-- The timer of the maintenance fires. -/
  | paused {s : HostState HS} :
      Move config crates (.rest, s)
        ({ Course.rest with maintaining := true }, { s with maintenanceTimer := false })
  /-- The timer of the maintenance is set again. -/
  | resumed {s : HostState HS} :
      Move config crates ({ Course.rest with maintaining := true }, s) (.rest, s.scheduleMaintenance)

/-! ## What moves leave -/

/-- What may become of a connection: once its handshake is over it may only be closed. -/
structure Connection.Onward (conn conn' : Connection) : Prop where
  phase : conn.phase.pending = false → conn'.phase = conn.phase ∨ conn'.phase = .closed
  networkName : conn.phase.pending = false → conn'.networkName = conn.networkName
  peerId : conn.phase.pending = false → conn'.peerId = conn.peerId
  mode : conn.phase.pending = false → conn'.mode = conn.mode

namespace Connection.Onward

variable {conn conn' conn'' : Connection}

theorem refl (conn : Connection) : conn.Onward conn :=
  ⟨fun _ => .inl rfl, fun _ => rfl, fun _ => rfl, fun _ => rfl⟩

/-- A handshake may tell anything. -/
theorem of_pending (h : conn.phase.pending = true) (conn' : Connection) : conn.Onward conn' :=
  ⟨fun hp => by simp [h] at hp, fun hp => by simp [h] at hp, fun hp => by simp [h] at hp,
    fun hp => by simp [h] at hp⟩

theorem of_core (h : conn'.core = conn.core) : conn.Onward conn' where
  phase _ := .inl (congrArg Connection.phase h : conn'.core.phase = conn.core.phase)
  networkName _ := (congrArg Connection.networkName h : conn'.core.networkName = conn.core.networkName)
  peerId _ := (congrArg Connection.peerId h : conn'.core.peerId = conn.core.peerId)
  mode _ := (congrArg Connection.mode h : conn'.core.mode = conn.core.mode)

theorem pending (h : conn.Onward conn') (hp : conn.phase.pending = false) :
    conn'.phase.pending = false := by
  rcases h.phase hp with heq | heq
  · rw [heq]
    exact hp
  · rw [heq]
    rfl

theorem trans (h : conn.Onward conn') (h' : conn'.Onward conn'') : conn.Onward conn'' where
  phase hp := by
    rcases h'.phase (h.pending hp) with heq | heq
    · rw [heq]
      exact h.phase hp
    · exact .inr heq
  networkName hp := (h'.networkName (h.pending hp)).trans (h.networkName hp)
  peerId hp := (h'.peerId (h.pending hp)).trans (h.peerId hp)
  mode hp := (h'.mode (h.pending hp)).trans (h.mode hp)

end Connection.Onward

/-- What moves leave of the connections that there are, and of what was done. -/
structure Evolves (s s' : HostState HS) : Prop where
  length : s.conns.length ≤ s'.conns.length
  onward : ∀ d, d < s.conns.length → (s.conn d).Onward (s'.conn d)
  trace : s.trace <+: s'.trace

namespace Evolves

variable {s s' s'' : HostState HS} {d : ConnId}

theorem refl (s : HostState HS) : Evolves s s := ⟨le_rfl, fun _ _ => .refl _, List.prefix_rfl⟩

theorem trans (h : Evolves s s') (h' : Evolves s' s'') : Evolves s s'' where
  length := h.length.trans h'.length
  onward d hd := (h.onward d hd).trans (h'.onward d (hd.trans_le h.length))
  trace := h.trace.trans h'.trace

theorem not_pending (hd : s.past d) : (s.conn d).phase.pending = false := by
  have hnot := hd.2
  rw [HostState.pending, Bool.not_eq_true] at hnot
  exact hnot

theorem past (h : Evolves s s') (hd : s.past d) : s'.past d := by
  refine ⟨hd.1.trans_le h.length, ?_⟩
  rw [HostState.pending, (h.onward d hd.1).pending (not_pending hd)]
  exact Bool.false_ne_true

theorem key (h : Evolves s s') (hd : s.past d) : s'.routeSyncKey d = s.routeSyncKey d :=
  Prod.ext ((h.onward d hd.1).networkName (not_pending hd))
    ((h.onward d hd.1).peerId (not_pending hd))

theorem closed (h : Evolves s s') (hlt : d < s.conns.length) (hd : s.closed d) : s'.closed d := by
  have hpast : s.past d := ⟨hlt, fun hp => hp.not_closed hd⟩
  rcases (h.onward d hlt).phase (not_pending hpast) with heq | heq
  · exact heq.trans hd
  · exact heq

/-- What is kept of the connections and added to what was done. -/
theorem of_conns (hconns : s'.conns = s.conns) (htrace : s.trace <+: s'.trace) : Evolves s s' := by
  refine ⟨(congrArg List.length hconns).ge, fun d _ => ?_, htrace⟩
  rw [HostState.conn, HostState.conn, hconns]
  exact .refl _

/-- A change of one connection. -/
theorem of_modifyConn {c : ConnId} {f : Connection → Connection}
    (hconns : s'.conns = (s.modifyConn c f).conns) (htrace : s.trace <+: s'.trace)
    (hf : (s.conn c).Onward (f (s.conn c))) : Evolves s s' := by
  refine ⟨?_, fun d _ => ?_, htrace⟩
  · rw [hconns]
    exact (List.length_modify ..).ge
  · have hconn : s'.conn d = (s.modifyConn c f).conn d := by
      rw [HostState.conn, HostState.conn, hconns]
    rw [hconn, s.conn_modifyConn]
    split_ifs with hdc
    · rw [hdc.1]
      exact hf
    · exact .refl _

end Evolves

section Moves

variable {config : ServerConfig} {crates : HostCrates HS} {a b : Course × HostState HS}

theorem HostState.withdraw_eq (s : HostState HS) (c : ConnId) (a : Ambient) :
    (s.withdraw crates c a).conns = (s.modifyConn c fun conn => { conn with phase := .closed }).conns ∧
      ((s.withdraw crates c a).trace = s.trace ++ [.closed c] ∨
        (s.withdraw crates c a).trace = s.trace ++ [.closed c, .removed c]) := by
  obtain ⟨_, _, _, heq⟩ := s.unregister_eq c
  have htrace : (s.unregister c).trace = s.trace ++ [.closed c] := by rw [heq]
  unfold HostState.withdraw
  split_ifs
  · refine ⟨s.conns_unregister c, .inr ?_⟩
    change (s.unregister c).trace ++ [.removed c] = _
    rw [htrace, List.append_assoc]
    rfl
  · exact ⟨s.conns_unregister c, .inl htrace⟩

theorem Internal.evolves {s s' : HostState HS} (h : Internal s s') : Evolves s s' := by
  obtain ⟨es, htrace, -⟩ := h.trace
  exact .of_conns h.conns ⟨es, htrace.symm⟩

/-- What an accepted connection is, and what it leaves of the others. -/
theorem HostState.conns_accept (s : HostState HS) {ipKey : String} {a : Ambient}
    (haccept : (s.accept config crates ipKey a).1 = true) :
    (s.accept config crates ipKey a).2.conns = (s.createConnection a.handle ipKey a).conns := by
  obtain ⟨world, timer, heq⟩ := s.accept_eq haccept
  rw [heq]

theorem HostState.conn_accept_of_ne (s : HostState HS) {ipKey : String} {a : Ambient}
    (haccept : (s.accept config crates ipKey a).1 = true) {d : ConnId} (hd : d ≠ s.conns.length) :
    (s.accept config crates ipKey a).2.conn d = s.conn d := by
  rw [HostState.conn, s.conns_accept haccept]
  refine (s.conn_createConnection a.handle ipKey a d).trans ?_
  rw [if_neg hd]

theorem Move.evolves (h : Move config crates a b) : Evolves a.2 b.2 := by
  cases h with
  | aside haside => exact haside.evolves
  | received => exact .of_conns rfl (List.prefix_append _ _)
  | announced => exact .of_conns rfl (List.prefix_append _ _)
  | @sent _ s c frame origin =>
    have hsends := sends_sendConnection s c frame origin
    refine ⟨hsends.length.ge, fun d _ => .of_core (hsends.conn d), ?_⟩
    rcases hsends.trace with heq | heq
    · exact heq ▸ List.prefix_rfl
    · exact heq ▸ List.prefix_append _ _
  | @accepted s ipKey haccept =>
    refine ⟨?_, fun d hd => ?_, ?_⟩
    · change _ ≤ (s.tick.accept config crates ipKey (s.ambient 0)).2.conns.length
      rw [s.tick.conns_accept haccept]
      exact (Nat.le_add_right _ _).trans List.length_append.ge
    · change (s.conn d).Onward ((s.tick.accept config crates ipKey (s.ambient 0)).2.conn d)
      rw [s.tick.conn_accept_of_ne haccept (Nat.ne_of_lt hd)]
      exact .refl _
    · obtain ⟨world, timer, heq⟩ := s.tick.accept_eq haccept
      change s.trace <+: (s.tick.accept config crates ipKey (s.ambient 0)).2.trace
      rw [heq]
      exact List.prefix_rfl
  | introduced hc => exact .of_modifyConn rfl List.prefix_rfl (.of_pending hc _)
  | greeted hc => exact .of_modifyConn rfl List.prefix_rfl (.of_pending hc _)
  | entered => exact .of_conns rfl List.prefix_rfl
  | @added s c a _ hadd =>
    obtain ⟨core, routeSyncStates, heq⟩ := s.addPeer_eq hadd
    rw [heq]
    exact .of_conns rfl (List.prefix_append _ _)
  | completed hc => exact .of_modifyConn rfl List.prefix_rfl (.of_pending hc _)
  | joined => exact .of_conns rfl List.prefix_rfl
  | presented => exact .refl _
  | @left _ s c a =>
    obtain ⟨hconns, htrace⟩ := @HostState.withdraw_eq _ crates s c a
    refine .of_modifyConn hconns ?_ ⟨fun _ => .inr rfl, fun _ => rfl, fun _ => rfl, fun _ => rfl⟩
    rcases htrace with heq | heq
    · exact heq ▸ List.prefix_append _ _
    · exact heq ▸ List.prefix_append _ _
  | disposed =>
    exact .of_modifyConn rfl (List.prefix_append _ _)
      ⟨fun _ => .inl rfl, fun _ => rfl, fun _ => rfl, fun _ => rfl⟩
  | paused => exact .of_conns rfl List.prefix_rfl
  | @resumed s =>
    unfold HostState.scheduleMaintenance
    split_ifs
    · exact .refl _
    · exact .of_conns rfl List.prefix_rfl

theorem evolves_of_path (h : Relation.ReflTransGen (Move config crates) a b) : Evolves a.2 b.2 := by
  induction h with
  | refl => exact .refl _
  | tail _ hlast ih => exact ih.trans hlast.evolves

end Moves

/-! ## What moves need -/

/-- Rooms and updates are of the connections they say, and whoever is ready can be encrypted for. -/
structure Sound (config : ServerConfig) (s : HostState HS) : Prop where
  room : ∀ key c, s.registered key = some c → c < s.conns.length ∧ s.routeSyncKey c = key
  sync : ∀ key state, s.routeSyncStates.get key = some state →
    s.ready state.peer ∧ s.routeSyncKey state.peer = key
  armed : ∀ c, s.ready c → (s.conn c).Armed config

namespace Sound

variable {config : ServerConfig} {crates : HostCrates HS} {s s' : HostState HS}

theorem init (config : ServerConfig) : Sound config (HostState.init config : HostState HS) where
  room _ _ h := by cases h
  sync _ _ h := by cases h
  armed _ h := by cases h

theorem armed_congr {conn conn' : Connection} (h : conn.Armed config) (hcore : conn'.core = conn.core) :
    conn'.Armed config := by
  have hmode := congrArg Connection.mode hcore
  have hname := congrArg Connection.networkName hcore
  have hcipher := congrArg Connection.legacyCipher hcore
  change conn'.mode = conn.mode at hmode
  change conn'.networkName = conn.networkName at hname
  change conn'.legacyCipher = conn.legacyCipher at hcipher
  unfold Connection.Armed
  rw [hmode, hname, hcipher]
  exact h

/-- A change after which whoever is ready was so before, and is what it was. -/
theorem congr (h : Sound config s) (hevolves : Evolves s s')
    (hready : ∀ d, s'.ready d → s.ready d ∧ (s'.conn d).core = (s.conn d).core)
    (hroom : ∀ key c, s'.registered key = some c → s.registered key = some c)
    (hkey : ∀ key c, s.registered key = some c → s'.routeSyncKey c = s.routeSyncKey c)
    (hsync : ∀ key state', s'.routeSyncStates.get key = some state' →
      (∃ state, s.routeSyncStates.get key = some state ∧ state.peer = state'.peer) ∧
        s'.ready state'.peer) : Sound config s' where
  room key c hc := by
    obtain ⟨hlt, heq⟩ := h.room key c (hroom key c hc)
    exact ⟨hlt.trans_le hevolves.length, (hkey key c (hroom key c hc)).trans heq⟩
  sync key state' hstate' := by
    obtain ⟨⟨state, hstate, hpeer⟩, hready'⟩ := hsync key state' hstate'
    refine ⟨hready', ?_⟩
    obtain ⟨hready, heq⟩ := h.sync key state hstate
    rw [hpeer] at hready heq
    have hpast : s.past state'.peer :=
      ⟨s.lt_length_of_not_closed hready.not_closed, fun hp => hp.not_ready hready⟩
    exact (hevolves.key hpast).trans heq
  armed d hd := armed_congr (h.armed d (hready d hd).1) (hready d hd).2

end Sound

namespace Sound

variable {config : ServerConfig} {crates : HostCrates HS} {s s' : HostState HS} {c : ConnId}

/-- Whoever an update is for is ready, hence not in a handshake. -/
theorem peer_ne (h : Sound config s) (hc : ¬s.ready c) {key : PeerKey} {state : RouteSyncState}
    (hstate : s.routeSyncStates.get key = some state) : state.peer ≠ c := by
  rintro rfl
  exact hc (h.sync key state hstate).1

/-- A change of one connection that is not ready. -/
theorem modifyConn (h : Sound config s) {f : Connection → Connection} (hc : ¬s.ready c)
    (hopen : ¬s.closed c) (hf : (f (s.conn c)).phase ≠ .ready)
    (hroom : ∀ key, s.registered key = some c → (s.modifyConn c f).routeSyncKey c = s.routeSyncKey c)
    (hevolves : Evolves s (s.modifyConn c f)) : Sound config (s.modifyConn c f) := by
  have hother : ∀ d ≠ c, (s.modifyConn c f).conn d = s.conn d := fun d hd =>
    s.conn_modifyConn_of_ne hd f
  refine h.congr hevolves (fun d hd => ?_) (fun _ _ h => h) (fun key d hd => ?_)
    fun key state hstate => ⟨⟨state, hstate, rfl⟩, ?_⟩
  · have hdc : d ≠ c := by
      rintro rfl
      rw [HostState.ready, s.conn_modifyConn_self hopen] at hd
      exact hf hd
    rw [HostState.ready, hother d hdc] at hd
    exact ⟨hd, by rw [hother d hdc]⟩
  · by_cases hdc : d = c
    · rw [hdc] at hd ⊢
      exact hroom key hd
    · rw [HostState.routeSyncKey, hother d hdc, HostState.routeSyncKey]
  · rw [HostState.ready, hother _ (h.peer_ne hc hstate)]
    exact (h.sync key state hstate).1

/-- Connections and rooms stay what they are. -/
theorem same (h : Sound config s) (hevolves : Evolves s s')
    (hconn : ∀ d, (s'.conn d).core = (s.conn d).core) (hrooms : s'.rooms = s.rooms)
    (hsync : ∀ key state', s'.routeSyncStates.get key = some state' →
      ∃ state, s.routeSyncStates.get key = some state ∧ state.peer = state'.peer) :
    Sound config s' := by
  have hphase : ∀ d, (s'.conn d).phase = (s.conn d).phase := fun d => by
    have heq := congrArg Connection.phase (hconn d)
    exact heq
  refine h.congr hevolves (fun d hd => ⟨(hphase d).symm.trans hd, hconn d⟩) (fun key d hd => ?_)
    (fun key d _ => ?_) fun key state' hstate' => ⟨hsync key state' hstate', ?_⟩
  · rw [HostState.registered, hrooms] at hd
    exact hd
  · have hname := congrArg Connection.networkName (hconn d)
    have hpeer := congrArg Connection.peerId (hconn d)
    exact Prod.ext hname hpeer
  · obtain ⟨state, hstate, hpeer⟩ := hsync key state' hstate'
    rw [HostState.ready, hphase, ← hpeer]
    exact (h.sync key state hstate).1

theorem aside (h : Sound config s) (haside : Internal s s') : Sound config s' := by
  refine h.same haside.evolves (fun d => ?_) haside.rooms haside.sync
  rw [HostState.conn, haside.conns, HostState.conn]

/-- A connection leaves the books, with the updates for its peer. -/
theorem left (h : Sound config s) (hc : ¬s.closed c) (a : Ambient)
    (hevolves : Evolves s (s.withdraw crates c a)) : Sound config (s.withdraw crates c a) := by
  have hconns : ∀ d, (s.withdraw crates c a).conn d = (s.unregister c).conn d := fun d => by
    rw [HostState.conn, (s.withdraw_eq c a).1, HostState.conn, s.conns_unregister]
  have hrooms : (s.withdraw crates c a).rooms = (s.unregister c).rooms := by
    unfold HostState.withdraw
    split_ifs <;> rfl
  have hsync : ∀ key state, (s.withdraw crates c a).routeSyncStates.get key = some state →
      s.routeSyncStates.get key = some state ∧ state.peer ≠ c := by
    intro key state hstate
    obtain ⟨_, _, _, heq⟩ := s.unregister_eq c
    have hstates : (s.unregister c).routeSyncStates = s.routeSyncStates := by rw [heq]; rfl
    unfold HostState.withdraw at hstate
    split_ifs at hstate with hready
    · change ((s.unregister c).routeSyncStates.delete ((s.unregister c).routeSyncKey c)).get key =
        some state at hstate
      rw [JsMap.get_delete, s.routeSyncKey_unregister, hstates] at hstate
      split_ifs at hstate with hkey
      refine ⟨hstate, ?_⟩
      rintro rfl
      exact hkey (h.sync key state hstate).2.symm
    · rw [hstates] at hstate
      exact ⟨hstate, h.peer_ne hready hstate⟩
  refine h.congr hevolves (fun d hd => ?_) (fun key d hd => ?_) (fun key d _ => ?_)
    fun key state' hstate' => ?_
  · rw [HostState.ready, hconns] at hd
    obtain ⟨hready, hdc⟩ := (s.ready_unregister c hc).1 hd
    refine ⟨hready, ?_⟩
    rw [hconns, s.conn_unregister_of_ne c hdc]
  · have hregistered := s.registered_unregister c key
    rw [HostState.registered, hrooms] at hd
    rw [HostState.registered] at hregistered
    rw [hregistered] at hd
    split_ifs at hd
    exact hd
  · rw [HostState.routeSyncKey, hconns]
    exact s.routeSyncKey_unregister c d
  · obtain ⟨hstate, hne⟩ := hsync key state' hstate'
    refine ⟨⟨state', hstate, rfl⟩, ?_⟩
    rw [HostState.ready, hconns, s.conn_unregister_of_ne c hne]
    exact (h.sync key state' hstate).1

/-- Every move keeps what moves need. -/
theorem move {a b : Course × HostState HS} (hmove : Move config crates a b) (h : Sound config a.2) :
    Sound config b.2 := by
  have hevolves := hmove.evolves
  cases hmove with
  | aside haside => exact h.aside haside
  | received => exact h.same hevolves (fun _ => rfl) rfl fun _ state hstate => ⟨state, hstate, rfl⟩
  | @announced _ s c forceFull hc =>
    refine ⟨h.room, fun key state hstate => ?_, h.armed⟩
    change (s.routeSyncStates.set _ _).get key = some state at hstate
    rw [JsMap.get_set] at hstate
    split_ifs at hstate with hkey
    · obtain rfl := Option.some.inj hstate
      exact ⟨hc, hkey.symm⟩
    · exact h.sync key state hstate
  | @sent _ s c frame origin =>
    have hsends := sends_sendConnection s c frame origin
    refine h.same hevolves hsends.conn hsends.rooms fun key state hstate => ⟨state, ?_, rfl⟩
    rw [← hsends.routeSyncStates]
    exact hstate
  | @accepted s ipKey haccept =>
    obtain ⟨world, timer, heq⟩ := s.tick.accept_eq haccept
    have hself : (s.tick.accept config crates ipKey (s.ambient 0)).2.pending s.conns.length := by
      rw [heq]
      exact s.tick.pending_createConnection (s.ambient 0).handle ipKey (s.ambient 0)
    have hother : ∀ d ≠ s.conns.length,
        (s.tick.accept config crates ipKey (s.ambient 0)).2.conn d = s.conn d :=
      fun d hd => s.tick.conn_accept_of_ne haccept hd
    refine congr (s := s) h hevolves (fun d hd => ?_) (fun key d hd => ?_) (fun key d hd => ?_)
      fun key state hstate => ?_
    · have hdc : d ≠ s.conns.length := by
        rintro rfl
        exact hself.not_ready hd
      rw [HostState.ready, hother d hdc] at hd
      exact ⟨hd, by rw [hother d hdc]⟩
    · rw [heq] at hd
      exact hd
    · rw [HostState.routeSyncKey, hother d (Nat.ne_of_lt (h.room key d hd).1), HostState.routeSyncKey]
    · have hbefore : s.routeSyncStates.get key = some state := by
        rw [heq] at hstate
        exact hstate
      have hready := (h.sync key state hbefore).1
      refine ⟨⟨state, hbefore, rfl⟩, ?_⟩
      rw [HostState.ready, hother _ (Nat.ne_of_lt (s.lt_length_of_not_closed hready.not_closed))]
      exact hready
  | @introduced s c f hc hnot hf =>
    refine modifyConn (s := s) h hc.not_ready hc.not_closed ?_ (fun key hkey => absurd hkey (hnot key))
      hevolves
    rw [hf.phase]
    exact hc.not_ready
  | @greeted s c hc =>
    refine modifyConn (s := s) h hc.not_ready hc.not_closed (fun hready => by cases hready)
      (fun _ _ => ?_) hevolves
    rw [HostState.routeSyncKey, s.conn_modifyConn_self hc.not_closed, HostState.routeSyncKey]
  | @entered s c hc =>
    refine ⟨fun key d hd => ?_, h.sync, h.armed⟩
    have hset : (s.register c).registered key =
        if (key.1, key.2) = s.routeSyncKey c then some c else s.registered key :=
      RoomRegistry.get_set s.rooms _ _ _ _ c
    rw [hset] at hd
    split_ifs at hd with hkey
    · obtain rfl := Option.some.inj hd
      exact ⟨s.lt_length_of_not_closed hc.not_closed, hkey.symm⟩
    · exact h.room key d hd
  | @added s c a _ hadd =>
    have heq : (s.addPeer c a).2.conns = s.conns ∧ (s.addPeer c a).2.rooms = s.rooms ∧
        (s.addPeer c a).2.routeSyncStates = s.routeSyncStates.delete (s.routeSyncKey c) := by
      unfold HostState.addPeer at hadd ⊢
      dsimp only at hadd ⊢
      split at hadd
      · cases hadd
      · exact ⟨rfl, rfl, rfl⟩
    obtain ⟨hconns, hrooms, hstates⟩ := heq
    refine h.same hevolves (fun d => ?_) hrooms fun key state hstate => ?_
    · rw [HostState.conn, hconns, HostState.conn]
    · rw [hstates, JsMap.get_delete] at hstate
      split_ifs at hstate
      exact ⟨state, hstate, rfl⟩
  | @completed s c hc harmed =>
    have hself := s.conn_modifyConn_self hc.not_closed fun conn =>
      { conn with handshakeTimer := false, phase := .ready }
    have hother : ∀ d ≠ c, ((s.completeHandshake c).releaseHandshakeSlot c).conn d = s.conn d :=
      fun d hd => s.conn_modifyConn_of_ne hd _
    have hkey : ∀ d, ((s.completeHandshake c).releaseHandshakeSlot c).routeSyncKey d =
        s.routeSyncKey d := by
      intro d
      by_cases hdc : d = c
      · rw [hdc]
        change (((s.completeHandshake c).conn c).networkName,
          ((s.completeHandshake c).conn c).peerId) = _
        rw [HostState.completeHandshake, hself]
        rfl
      · rw [HostState.routeSyncKey, hother d hdc, HostState.routeSyncKey]
    refine ⟨fun key d hd => ?_, fun key state hstate => ?_, fun d hd => ?_⟩
    · obtain ⟨hlt, heq⟩ := h.room key d hd
      exact ⟨hlt.trans_le hevolves.length, (hkey d).trans heq⟩
    · obtain ⟨hready, heq⟩ := h.sync key state hstate
      refine ⟨?_, (hkey _).trans heq⟩
      rw [HostState.ready, hother _ (h.peer_ne hc.not_ready hstate)]
      exact hready
    · by_cases hdc : d = c
      · rw [hdc]
        change ((s.completeHandshake c).conn c).Armed config
        rw [HostState.completeHandshake, hself]
        exact harmed
      · rw [HostState.ready, hother d hdc] at hd
        change (((s.completeHandshake c).releaseHandshakeSlot c).conn d).Armed config
        rw [hother d hdc]
        exact h.armed d hd
  | joined => exact h.same hevolves (fun _ => rfl) rfl fun _ state hstate => ⟨state, hstate, rfl⟩
  | presented => exact h
  | @left _ s c a hc => exact left (s := s) h hc a hevolves
  | @disposed _ s c a hc =>
    have hnot : ¬s.ready c := fun hr => hr.not_closed hc
    have hother : ∀ d ≠ c, (s.disposeConnection crates c a).conn d = s.conn d := fun d hd =>
      s.conn_modifyConn_of_ne hd _
    have hkey : ∀ d, (s.disposeConnection crates c a).routeSyncKey d = s.routeSyncKey d := by
      let dispose : Connection → Connection := fun conn =>
        { conn with handshakeTimer := false, secure := none, legacyCipher := none }
      intro d
      exact Prod.ext
        (s.conn_modifyConn_congr (g := Connection.networkName) (f := dispose) (fun _ => rfl) c d)
        (s.conn_modifyConn_congr (g := Connection.peerId) (f := dispose) (fun _ => rfl) c d)
    refine congr (s := s) h hevolves (fun d hd => ?_) (fun _ _ hd => hd) (fun _ d _ => hkey d)
      fun key state hstate => ⟨⟨state, hstate, rfl⟩, ?_⟩
    · have hdc : d ≠ c := by
        rintro rfl
        refine hnot ((s.conn_modifyConn_congr (g := Connection.phase) (f := fun conn =>
          { conn with handshakeTimer := false, secure := none, legacyCipher := none })
          (fun _ => rfl) d d).symm.trans hd)
      rw [HostState.ready, hother d hdc] at hd
      exact ⟨hd, by rw [hother d hdc]⟩
    · rw [HostState.ready, hother _ (h.peer_ne hnot hstate)]
      exact (h.sync key state hstate).1
  | paused => exact h.same hevolves (fun _ => rfl) rfl fun _ state hstate => ⟨state, hstate, rfl⟩
  | @resumed s =>
    unfold HostState.scheduleMaintenance at hevolves ⊢
    dsimp only at hevolves ⊢
    split_ifs at hevolves ⊢
    · exact h
    · exact h.same hevolves (fun _ => rfl) rfl fun _ state hstate => ⟨state, hstate, rfl⟩

theorem of_path {a b : Course × HostState HS}
    (hpath : Relation.ReflTransGen (Move config crates) a b) (h : Sound config a.2) :
    Sound config b.2 := by
  induction hpath with
  | refl => exact h
  | tail _ hlast ih => exact ih.move hlast

end Sound

end Host

end EasyTierEdge
