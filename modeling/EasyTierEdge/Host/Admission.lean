import EasyTierEdge.Host.Runs
import EasyTierEdge.Secure.Exchange

/-!
# Admission

A connection is ready only after a client has proved the secret of a configured network:
by a Noise exchange whose three messages are the only calls of the handshake on its `SecurePeer`,
or, where the server is configured for it, by the digest in its first frame (`AdmissionSafe`).

`Linked` ties the connections of the host to the store of the secure sessions: every open
connection has a live `SecurePeer` of its own, whose progress is that of the calls the host
recorded for it. Every step keeps it up (`Linked.step`).
-/

namespace EasyTierEdge

namespace Host

variable {HS : Type} {config : ServerConfig} {crates : HostCrates HS}

/-- The identity of a connection never changes. -/
theorem identity_of_effect {c : Crates HS} {p p' : SecurePeer HS}
    {sessions sessions' : SessionStore} {call : Call} {out : Output}
    (heff : EasyTierEdge.Effect c p sessions call out p' sessions') :
    p'.localPrivate = p.localPrivate ∧ p'.serverPeerId = p.serverPeerId := by
  cases heff <;> exact ⟨rfl, rfl⟩

/-- Changing an open connection opens no other one. -/
theorem HostState.closed_modifyConn (s : HostState HS) {c : ConnId} (hc : ¬s.closed c)
    (f : Connection → Connection) (d : ConnId) (hd : s.closed d) : (s.modifyConn c f).closed d := by
  have hdc : d ≠ c := by
    rintro rfl
    exact hc hd
  rw [HostState.closed, s.conn_modifyConn_of_ne hdc]
  exact hd

/-- What adding a peer changes. -/
theorem HostState.addPeer_eq (s : HostState HS) {c : ConnId} {a : Ambient}
    (hadd : (s.addPeer c a).1 = .ok ()) : ∃ core routeSyncStates,
      (s.addPeer c a).2 = { s with core, routeSyncStates }.note (.added c) := by
  unfold HostState.addPeer at hadd ⊢
  dsimp only at hadd ⊢
  split at hadd
  · cases hadd
  · exact ⟨_, _, rfl⟩

/-- A connection that is disposed has no `SecurePeer` any more. -/
theorem HostState.secure_disposeConnection (s : HostState HS) (c : ConnId) (a : Ambient) :
    ((s.disposeConnection crates c a).conn c).secure = none := by
  let dispose : Connection → Connection := fun conn =>
    { conn with handshakeTimer := false, secure := none, legacyCipher := none }
  change ((s.modifyConn c dispose).conn c).secure = none
  rw [s.conn_modifyConn]
  split_ifs with hlt
  · rfl
  · rw [HostState.conn, List.getD_eq_default _ _ (Nat.not_lt.1 fun hlt' => hlt ⟨rfl, hlt'⟩)]
    rfl

/-! ## Connections and their secure peers -/

/-- A `SecurePeer` has the identity of the server. -/
structure OfServer (config : ServerConfig) (crates : HostCrates HS) (p : SecurePeer HS) : Prop where
  localPrivate : decodeKey crates.secure config.localPrivateKey "private" = .ok p.localPrivate
  serverPeerId : p.serverPeerId = serverPeerId

/-- The connections and their `SecurePeer`s. -/
structure Linked (config : ServerConfig) (crates : HostCrates HS) (s : HostState HS) : Prop where
  consistent : s.world.Consistent crates.secure
  /-- Nothing was called for a connection that does not exist yet. -/
  unborn : ∀ c, s.conns.length ≤ c → s.callsOn c = []
  attached : ∀ c, ¬s.closed c → ∃ h, (s.conn c).secure = some h
  /-- No `SecurePeer` is shared. -/
  distinct : ∀ c d h, (s.conn c).secure = some h → (s.conn d).secure = some h → c = d
  progress : ∀ c h, (s.conn c).secure = some h → ∃ p, s.world.peers.lookup h = some p ∧
    OfServer config crates p ∧ Progress crates.secure p (s.callsOn c)

namespace Linked

variable {s s' : HostState HS} {c : ConnId}

theorem init (config : ServerConfig) (crates : HostCrates HS) :
    Linked config crates (HostState.init config) where
  consistent := consistent_of_reachable (store crates.secure).reachable_init
  unborn _ _ := rfl
  attached _ hopen := absurd rfl hopen
  distinct _ _ _ hc := by cases hc
  progress _ _ hc := by cases hc

/-- Steps that leave the `SecurePeer`s alone. -/
theorem congr (h : Linked config crates s) (hworld : s'.world = s.world)
    (hlength : s'.conns.length = s.conns.length)
    (hsecure : ∀ d, (s'.conn d).secure = (s.conn d).secure)
    (hclosed : ∀ d, s.closed d → s'.closed d) (hcalls : ∀ d, s'.callsOn d = s.callsOn d) :
    Linked config crates s' where
  consistent := hworld ▸ h.consistent
  unborn d hd := (hcalls d).trans (h.unborn d (hlength ▸ hd))
  attached d hd := by
    rw [hsecure]
    exact h.attached d fun hc => hd (hclosed d hc)
  distinct d e handle hd he := by
    rw [hsecure] at hd he
    exact h.distinct d e handle hd he
  progress d handle hd := by
    rw [hsecure] at hd
    rw [hworld, hcalls]
    exact h.progress d handle hd

/-- Steps that leave the connections alone. -/
theorem kept (h : Linked config crates s) (es : List Effect) (hworld : s'.world = s.world)
    (hconns : s'.conns = s.conns) (htrace : s'.trace = s.trace ++ es)
    (hes : ∀ d, ∀ e ∈ es, e.callOn d = none) : Linked config crates s' := by
  refine h.congr hworld (congrArg _ hconns) (fun d => ?_) (fun d hd => ?_) fun d => ?_
  · rw [HostState.conn, hconns, HostState.conn]
  · rw [HostState.closed, HostState.conn, hconns]
    exact hd
  · rw [HostState.callsOn, htrace, List.filterMap_append, List.filterMap_eq_nil_iff.2 (hes d)]
    exact List.append_nil _

/-- What neither the connections nor the history knows of. -/
theorem same (h : Linked config crates s) (hworld : s'.world = s.world)
    (hconns : s'.conns = s.conns) (htrace : s'.trace = s.trace) : Linked config crates s' :=
  h.kept [] hworld hconns (htrace.trans (List.append_nil _).symm) fun _ _ he =>
    absurd he List.not_mem_nil

theorem note (h : Linked config crates s) {e : Effect} (he : ∀ d, e.callOn d = none) :
    Linked config crates (s.note e) :=
  h.kept [e] rfl rfl rfl fun d e' he' => by
    rw [List.mem_singleton.1 he']
    exact he d

/-- A change of a connection that leaves its `SecurePeer`. -/
theorem modifyConn (h : Linked config crates s) {f : Connection → Connection}
    (hsecure : ∀ conn, (f conn).secure = conn.secure)
    (hclosed : ∀ d, s.closed d → (s.modifyConn c f).closed d) :
    Linked config crates (s.modifyConn c f) :=
  h.congr rfl (List.length_modify ..)
    (fun d => s.conn_modifyConn_congr (g := Connection.secure) hsecure c d) hclosed fun _ => rfl

/-- A connection is closed. -/
theorem unregister (h : Linked config crates s) : Linked config crates (s.unregister c) := by
  let close : Connection → Connection := fun conn => { conn with phase := .closed }
  obtain ⟨_, _, _, heq⟩ := s.unregister_eq c
  have hconn : ∀ d, (s.unregister c).conn d = (s.modifyConn c close).conn d := fun d => by rw [heq]; rfl
  refine h.congr (by rw [heq]; rfl) (by rw [heq]; exact List.length_modify ..) (fun d => ?_)
    (fun d hd => ?_) fun d => ?_
  · rw [hconn]
    exact s.conn_modifyConn_congr (g := Connection.secure) (f := close) (fun _ => rfl) c d
  · rw [HostState.closed, hconn, s.conn_modifyConn]
    split_ifs
    · rfl
    · exact hd
  · rw [heq, HostState.callsOn, List.filterMap_append]
    exact List.append_nil _

/-- A method of the `SecurePeer` of a connection is called. -/
theorem callSecure (h : Linked config crates s) {handle : Handle}
    (hc : (s.conn c).secure = some handle) (call : Call) :
    Linked config crates (s.callSecure crates c handle call).2 := by
  obtain ⟨p, hp, hserver, hprogress⟩ := h.progress c handle hc
  have heff := call_cases h.consistent hp call
  obtain ⟨hprivate, hpeerId⟩ := identity_of_effect heff
  have hcons := h.consistent.peers handle p hp
  have hworld : s.world.step crates.secure (.call handle call) =
      ({ sessions := (p.call crates.secure s.world.sessions call).2.2
         peers := s.world.peers.insert handle (p.call crates.secure s.world.sessions call).2.1 },
        (p.call crates.secure s.world.sessions call).1) := by
    simp only [World.step, hp]
  have hcalls : ∀ d, (s.callSecure crates c handle call).2.callsOn d = s.callsOn d ++
      if c = d then [(call, (p.call crates.secure s.world.sessions call).1)] else [] := by
    intro d
    rw [HostState.callSecure, hworld]
    refine (HostState.callsOn_note _ _ d).trans ?_
    rw [Effect.callOn]
    split_ifs
    · rfl
    · rfl
  constructor
  · exact h.consistent.step (.call handle call)
  · intro d hd
    have hne : c ≠ d := by
      rintro rfl
      have hle : s.conns.length ≤ c := hd
      rw [HostState.conn, List.getD_eq_default _ _ hle] at hc
      cases hc
    rw [hcalls, if_neg hne, List.append_nil]
    exact h.unborn d hd
  · exact h.attached
  · exact h.distinct
  · intro d handle' hd
    change (s.conn d).secure = some handle' at hd
    have hlookup : ∀ handle', (s.callSecure crates c handle call).2.world.peers.lookup handle' =
        if handle' = handle then some (p.call crates.secure s.world.sessions call).2.1
        else s.world.peers.lookup handle' := by
      intro handle'
      change (s.world.step crates.secure (.call handle call)).1.peers.lookup handle' = _
      rw [hworld, Finmap.lookup_insert_ite]
    rw [hlookup, hcalls]
    by_cases hdc : c = d
    · subst hdc
      obtain rfl := Option.some.inj (hd.symm.trans hc)
      rw [if_pos rfl, if_pos rfl]
      refine ⟨_, rfl, ⟨hserver.localPrivate.trans (congrArg _ hprivate.symm), ?_⟩,
        hprogress.called hcons heff⟩
      exact hpeerId.trans hserver.serverPeerId
    · -- The `SecurePeer` of another connection is another one.
      have hne : handle' ≠ handle := by
        rintro rfl
        exact hdc (h.distinct c d _ hc hd)
      rw [if_neg hne, if_neg hdc, List.append_nil]
      exact h.progress d handle' hd

/-- The `SecurePeer` of a closed connection is freed. -/
theorem disposed (h : Linked config crates s) (hc : s.closed c) (a : Ambient) :
    Linked config crates (s.disposeConnection crates c a) := by
  let dispose : Connection → Connection := fun conn =>
    { conn with handshakeTimer := false, secure := none, legacyCipher := none }
  have hphase : ∀ d, ((s.disposeConnection crates c a).conn d).phase = (s.conn d).phase := fun d =>
    s.conn_modifyConn_congr (g := Connection.phase) (f := dispose) (fun _ => rfl) c d
  have hother : ∀ d ≠ c, (s.disposeConnection crates c a).conn d = s.conn d := fun d hd =>
    s.conn_modifyConn_of_ne hd dispose
  have hsecure : ∀ d handle, ((s.disposeConnection crates c a).conn d).secure = some handle →
      d ≠ c ∧ (s.conn d).secure = some handle := by
    intro d handle hd
    have hdc : d ≠ c := by
      rintro rfl
      cases (s.secure_disposeConnection d a).symm.trans hd
    exact ⟨hdc, hother d hdc ▸ hd⟩
  have hcalls : ∀ d, (s.disposeConnection crates c a).callsOn d = s.callsOn d := fun d => by
    refine (HostState.callsOn_note _ _ d).trans ?_
    exact List.append_nil _
  have hworld : ((s.conn c).secure = none ∧ (s.disposeConnection crates c a).world = s.world) ∨
      ∃ freed, (s.conn c).secure = some freed ∧ (s.disposeConnection crates c a).world =
        (s.world.step crates.secure (.drop freed a.clockMs)).1 := by
    rw [HostState.disposeConnection]
    cases (s.conn c).secure with
    | none => exact .inl ⟨rfl, rfl⟩
    | some freed => exact .inr ⟨freed, rfl, rfl⟩
  constructor
  · rcases hworld with ⟨-, heq⟩ | ⟨freed, -, heq⟩
    · rw [heq]
      exact h.consistent
    · rw [heq]
      exact h.consistent.step (.drop freed a.clockMs)
  · intro d hd
    rw [hcalls]
    exact h.unborn d (hd.trans' (List.length_modify ..).ge)
  · intro d hd
    have hdc : d ≠ c := by
      rintro rfl
      exact hd ((hphase d).trans hc)
    rw [hother d hdc]
    exact h.attached d fun hclosed => hd ((hphase d).trans hclosed)
  · intro d e handle hd he
    exact h.distinct d e handle (hsecure d handle hd).2 (hsecure e handle he).2
  · intro d handle hd
    obtain ⟨hdc, hd⟩ := hsecure d handle hd
    obtain ⟨p, hp, hserver, hprogress⟩ := h.progress d handle hd
    rw [hcalls]
    refine ⟨p, ?_, hserver, hprogress⟩
    rcases hworld with ⟨-, heq⟩ | ⟨freed, hfreed, heq⟩
    · rw [heq]
      exact hp
    · -- The `SecurePeer` that is freed is another one.
      have hne : handle ≠ freed := by
        rintro rfl
        exact hdc (h.distinct d c _ hd hfreed)
      rw [heq]
      simp only [World.step]
      split
      · exact hp
      · rw [Finmap.lookup_erase_ite, if_neg hne]
        exact hp

/-- An update is built, or not. -/
theorem rebuild (h : Linked config crates s) (key : PeerKey) (state : RouteSyncState) (now : ℕ)
    (a : Ambient) : Linked config crates (s.rebuild crates key state now a).2 := by
  rcases s.rebuild_cases crates key state now a with ⟨e, -, heq⟩ | ⟨packet, -, heq⟩
  · rw [heq]
    exact h.same rfl rfl rfl
  · rw [heq]
    exact h.kept [_] rfl rfl rfl fun _ _ he => by rw [List.mem_singleton.1 he]; rfl

/-- The `SecurePeer` of a connection that is accepted. -/
theorem accept_world {ipKey : String} {a : Ambient}
    (haccept : (s.accept config crates ipKey a).1 = true) :
    ∃ p, s.world.peers.lookup a.handle = none ∧ SecurePeer.new crates.secure config.localPrivateKey
        config.localPublicKey serverPeerId a.clockMs = .ok p ∧
      (s.accept config crates ipKey a).2.world =
        { s.world with peers := s.world.peers.insert a.handle p } := by
  unfold HostState.accept at haccept ⊢
  dsimp only [World.step] at haccept ⊢
  cases hlookup : s.world.peers.lookup a.handle with
  | some q =>
    rw [hlookup] at haccept
    cases haccept
  | none =>
    simp only [hlookup] at haccept ⊢
    cases hnew : SecurePeer.new crates.secure config.localPrivateKey config.localPublicKey
      serverPeerId a.clockMs with
    | error e =>
      rw [hnew] at haccept
      cases haccept
    | ok p =>
      refine ⟨p, trivial, rfl, ?_⟩
      dsimp only [HostState.scheduleMaintenance]
      split_ifs <;> rfl

/-- A connection is accepted with a `SecurePeer` of its own. -/
theorem accepted (h : Linked config crates s) {ipKey : String} {a : Ambient}
    (haccept : (s.accept config crates ipKey a).1 = true) :
    Linked config crates (s.accept config crates ipKey a).2 := by
  obtain ⟨p, hlookup, hnew, hworld⟩ := accept_world haccept
  obtain ⟨world, timer, heq⟩ := s.accept_eq haccept
  obtain ⟨hprivate, hserver, hhandshake, hauth⟩ := SecurePeer.new_eq_ok hnew
  have hcalls : ∀ d, (s.accept config crates ipKey a).2.callsOn d = s.callsOn d := fun d => by
    rw [heq]
    rfl
  have hlength : (s.accept config crates ipKey a).2.conns.length = s.conns.length + 1 := by
    rw [heq]
    exact List.length_append
  have hother : ∀ d ≠ s.conns.length, (s.accept config crates ipKey a).2.conn d = s.conn d := by
    intro d hd
    rw [heq]
    refine (s.conn_createConnection a.handle ipKey a d).trans ?_
    rw [if_neg hd]
  have hself : ((s.accept config crates ipKey a).2.conn s.conns.length).secure = some a.handle := by
    rw [heq]
    simp [HostState.conn, HostState.createConnection]
  -- The handle of the new connection is not in use.
  have hfree : ∀ d, (s.conn d).secure ≠ some a.handle := by
    intro d hd
    obtain ⟨q, hq, -⟩ := h.progress d a.handle hd
    cases hlookup.symm.trans hq
  constructor
  · have hstep := h.consistent.step (.new a.handle config.localPrivateKey config.localPublicKey
      serverPeerId a.clockMs)
    simp only [World.step, hlookup, hnew] at hstep
    rw [hworld]
    exact hstep
  · intro d hd
    rw [hcalls]
    exact h.unborn d (by omega)
  · intro d hd
    by_cases hlast : d = s.conns.length
    · rw [hlast]
      exact ⟨a.handle, hself⟩
    · rw [HostState.closed, hother d hlast] at hd
      rw [hother d hlast]
      exact h.attached d hd
  · intro d e handle hd he
    by_cases hlast : d = s.conns.length
    · by_cases hlast' : e = s.conns.length
      · exact hlast.trans hlast'.symm
      · rw [hlast, hself] at hd
        rw [hother e hlast', ← hd] at he
        exact absurd he (hfree e)
    · by_cases hlast' : e = s.conns.length
      · rw [hlast', hself] at he
        rw [hother d hlast, ← he] at hd
        exact absurd hd (hfree d)
      · rw [hother d hlast] at hd
        rw [hother e hlast'] at he
        exact h.distinct d e handle hd he
  · intro d handle hd
    rw [hworld, hcalls]
    dsimp only
    rw [Finmap.lookup_insert_ite]
    by_cases hlast : d = s.conns.length
    · rw [hlast, hself] at hd
      obtain rfl := Option.some.inj hd
      rw [if_pos rfl, h.unborn d hlast.ge]
      exact ⟨p, rfl, ⟨hprivate, hserver⟩, .new hhandshake hauth⟩
    · rw [hother d hlast] at hd
      have hne : handle ≠ a.handle := by
        rintro rfl
        exact hfree d hd
      rw [if_neg hne]
      exact h.progress d handle hd

/-- Closings and route updates. -/
theorem quiet {a b : Stage × HostState HS} (hstep : Quiet crates a b)
    (h : Linked config crates a.2) : Linked config crates b.2 := by
  cases hstep with
  | consulted => exact h.same rfl rfl rfl
  | @encrypted _ s _ _ packet clock _ hc =>
    exact callSecure (s := s) h hc (.encryptPacket packet clock)
  | @counted _ s c startedAt bytes frames =>
    let count : Connection → Connection := (·.withWindow startedAt bytes frames)
    refine modifyConn (s := s) (f := count) h (fun _ => rfl) fun d hd => ?_
    exact (s.conn_modifyConn_congr (g := Connection.phase) (f := count) (fun _ => rfl) c d).trans hd
  | sent => exact h.note fun _ => rfl
  | left =>
    exact h.unregister.kept [_] rfl rfl rfl fun _ _ he => by rw [List.mem_singleton.1 he]; rfl
  | disposed hc => exact h.disposed hc _
  | announced => exact h.kept [_] rfl rfl rfl fun _ _ he => by rw [List.mem_singleton.1 he]; rfl
  | @rebuilt _ s c state a now =>
    exact h.rebuild _ _ _ _
  | unbuilt => exact h.rebuild _ _ _ _
  | unsent => exact h.same rfl rfl rfl

/-- Every step keeps up with the `SecurePeer`s. -/
theorem step {a b : Stage × HostState HS} (hstep : Step config crates a b)
    (h : Linked config crates a.2) : Linked config crates b.2 := by
  cases hstep with
  | quiet hquiet => exact h.quiet hquiet
  | kept => exact h.same rfl rfl rfl
  | named => exact h.same rfl rfl rfl
  | accepted _ _ _ haccept => exact h.accepted haccept
  | opened => exact h
  | received => exact h.note fun _ => rfl
  | @called _ s _ _ call _ _ hc => exact callSecure (s := s) h hc call
  | @decrypted _ s _ _ packet clock _ hc =>
    exact callSecure (s := s) h hc (.decryptPacket packet clock)
  | answered => exact h.note fun _ => rfl
  | forwarded => exact h.note fun _ => rfl
  | @prepared _ s c f _ _ _ hf =>
    refine h.modifyConn hf.secure fun d hd => ?_
    exact (s.conn_modifyConn_congr (g := Connection.phase) hf.phase c d).trans hd
  | @greeted _ s _ hc =>
    exact modifyConn (s := s) h (fun _ => rfl) (s.closed_modifyConn hc.not_closed _)
  | entered => exact h.same rfl rfl rfl
  | @added _ s c _ a _ _ hadd =>
    obtain ⟨core, routeSyncStates, heq⟩ := s.addPeer_eq hadd
    rw [heq]
    exact kept (s := s) h [.added c] rfl rfl rfl fun _ _ he => by rw [List.mem_singleton.1 he]; rfl
  | @completed _ s c hc =>
    have hready : Linked config crates (s.completeHandshake c) :=
      modifyConn h (fun _ => rfl) (s.closed_modifyConn hc.not_closed _)
    exact hready.same rfl rfl rfl
  | abandoned => exact h.unregister
  | requested => exact h.same rfl rfl rfl
  | responded => exact h.same rfl rfl rfl
  | settled => exact h.same rfl rfl rfl
  | unsettled => exact h
  | swept => exact h.same rfl rfl rfl
  | expired => exact h.same rfl rfl rfl
  | retired => exact h

end Linked

/-! ## Admission -/

/-- The Noise exchange `x` admitted a connection: its secret is that of a configured network, the
    first two frames are its messages 1 and 3, and the calls of its three messages are the first
    ones on the `SecurePeer`, which was used for traffic only afterwards. -/
structure NoiseAdmitted (config : ServerConfig) (crates : HostCrates HS) (s : HostState HS)
    (c : ConnId) (x : NoiseExchange HS) : Prop where
  mode : config.connectionMode = .secure ∧ (s.conn c).mode = .secure
  room : config.rooms.lookup x.networkName = some x.networkSecret
  peerId : (s.conn c).peerId = x.peerId
  networkName : (s.conn c).networkName = x.networkName
  frames : ∃ rest, s.framesOf c = x.msg1 :: x.msg3 :: rest
  calls : ∃ algorithm key traffic, s.callsOn c =
      (.readMsg1 x.msg1, .msg1 (.ok ⟨x.peerId, x.networkName, algorithm⟩)) ::
      (.buildMsg2 x.networkSecret x.draws, .frame (.ok x.msg2)) ::
      (.finishMsg3 x.msg3 x.confirmMs,
        .auth (.ok ⟨x.peerId, x.networkName, key, "NetworkSecretConfirmed"⟩)) :: traffic ∧
    ∀ y ∈ traffic, Traffic y.1
  exchange : ∃ localPrivate,
    decodeKey crates.secure config.localPrivateKey "private" = .ok localPrivate ∧
      x.Completed crates.secure localPrivate serverPeerId (s.callsOn c)

/-- A handshake request admitted a connection: it is the first frame, for a configured network and
    with the digest of its secret, and no Noise handshake took place. -/
structure LegacyAdmitted (config : ServerConfig) (crates : HostCrates HS) (s : HostState HS)
    (c : ConnId) (frame : Bytes) (header : EasyTierEdge.PacketHeader)
    (request : HandshakeRequest) : Prop where
  mode : config.connectionMode = .legacy ∧ (s.conn c).mode = .legacy
  first : ∃ rest, s.framesOf c = frame :: rest
  packet : EasyTierEdge.parsePacket frame = .ok header ∧ header.packetType = packetTypeHandshake ∧
    header.flags &&& EasyTierEdge.encryptedFlag = 0
  decode : crates.handshake.decode (frame.drop EasyTierEdge.headerSize) = .ok request ∧
    request.magic = legacyMagic ∧ request.version = legacyVersion
  peerId : (s.conn c).peerId = header.fromPeerId ∧ request.myPeerId = header.fromPeerId ∧
    header.fromPeerId ≠ 0
  networkName : (s.conn c).networkName = request.networkName ∧ request.networkName ≠ ""
  /-- The digest of the request crosses into the host as base64. -/
  digest : ∃ networkSecret, config.rooms.lookup request.networkName = some networkSecret ∧
    crates.atob (crates.secure.base64Encode request.networkSecretDigest) =
      some (generateDigestFromStr request.networkName networkSecret) ∧
    ((∀ bytes, crates.atob (crates.secure.base64Encode bytes) = some bytes) →
      request.networkSecretDigest = generateDigestFromStr request.networkName networkSecret)
  calls : ∀ y ∈ s.callsOn c, Traffic y.1

/-- Whoever can use the server has proved a secret of it. -/
structure AdmissionSafe (config : ServerConfig) (crates : HostCrates HS) (s : HostState HS) :
    Prop where
  ready : ∀ c, s.ready c → (∃ x, NoiseAdmitted config crates s c x) ∨
    ∃ frame header request, LegacyAdmitted config crates s c frame header request
  /-- Only ready connections are registered in the rooms, each under its own name. -/
  registered : ∀ networkName peerId c, s.rooms.get networkName peerId = some c →
    s.ready c ∧ (s.conn c).networkName = networkName ∧ (s.conn c).peerId = peerId

/-- A check that is passed. -/
theorem eq_ok_of_guard {α : Type} {p : Prop} [Decidable p] {e : String}
    {next : PUnit → Except String α} {rest : Except String α} {b : α}
    (h : (if p then throw e >>= next else rest) = .ok b) : ¬p ∧ rest = .ok b := by
  split_ifs at h with hp
  · cases h
  · exact ⟨hp, h⟩

theorem parseLegacyHandshake_eq_ok {codec : HandshakeCodec} {base64Encode : Bytes → String}
    {frame : Bytes} {value : LegacyHandshakeInfo}
    (h : parseLegacyHandshake codec base64Encode frame = .ok value) :
    ∃ header request, EasyTierEdge.parsePacket frame = .ok header ∧
      header.packetType = packetTypeHandshake ∧ header.flags &&& EasyTierEdge.encryptedFlag = 0 ∧
      codec.decode (frame.drop EasyTierEdge.headerSize) = .ok request ∧
      request.magic = legacyMagic ∧ request.version = legacyVersion ∧ request.myPeerId ≠ 0 ∧
      request.myPeerId = header.fromPeerId ∧ request.networkName ≠ "" ∧
      value = ⟨request.myPeerId, request.networkName, base64Encode request.networkSecretDigest⟩ := by
  unfold parseLegacyHandshake at h
  obtain ⟨header, hpacket, h⟩ := Except.bind_eq_ok.1 h
  dsimp only at h
  obtain ⟨htype, h⟩ := eq_ok_of_guard h
  obtain ⟨hclear, h⟩ := eq_ok_of_guard h
  obtain ⟨request, hrequest, hvalue⟩ := Except.bind_eq_ok.1 h
  unfold decodeHandshakeRequest at hrequest
  obtain ⟨decoded, hdecode, hrequest⟩ := Except.bind_eq_ok.1 hrequest
  rw [Except.mapError_eq_ok] at hdecode
  dsimp only at hrequest
  obtain ⟨hmagic, hrequest⟩ := eq_ok_of_guard hrequest
  obtain ⟨hversion, hrequest⟩ := eq_ok_of_guard hrequest
  obtain ⟨hzero, hrequest⟩ := eq_ok_of_guard hrequest
  obtain ⟨hfrom, hrequest⟩ := eq_ok_of_guard hrequest
  obtain ⟨hname, hrequest⟩ := eq_ok_of_guard hrequest
  obtain ⟨-, hrequest⟩ := eq_ok_of_guard hrequest
  obtain rfl := Except.ok.inj hrequest
  refine ⟨header, decoded, hpacket, not_not.1 htype, not_not.1 hclear, hdecode, not_not.1 hmagic,
    not_not.1 hversion, hzero, not_not.1 hfrom, fun hempty => hname (.inl hempty), ?_⟩
  exact (Except.ok.inj hvalue).symm

theorem parseLegacyHandshakeInfo_eq_ok {value : LegacyHandshakeInfo} {info : LegacyInfo}
    (h : parseLegacyHandshakeInfo crates value = .ok info) :
    info.peerId = value.peerId ∧ info.networkName = value.networkName ∧
      crates.atob value.networkSecretDigestBase64 = some info.networkSecretDigest := by
  unfold parseLegacyHandshakeInfo at h
  simp only [Except.bind_eq_ok, Except.pure_eq_ok] at h
  obtain ⟨peerId, hpeer, networkName, hname, base64, hbase64, digest, hdigest, rfl⟩ := h
  obtain ⟨rfl, -⟩ := readString_eq_ok hbase64
  refine ⟨readPeerId_eq_ok hpeer, (readString_eq_ok hname).1, ?_⟩
  unfold decodeDigest decodeField at hdigest
  split at hdigest
  · cases hdigest
  · rename_i hatob
    split_ifs at hdigest
    rw [hatob, Except.ok.inj hdigest]

/-- What a finished handshake was: its calls are those of the exchange. -/
theorem noiseAdmitted_of_done {s : HostState HS} {c : ConnId} {done more : List (Call × Output)}
    {frames rest : List Bytes} (h : Linked config crates s) (hc : s.ready c)
    (hcalls : s.callsOn c = done ++ more) (htraffic : ∀ y ∈ more, Traffic y.1)
    (hframes : s.framesOf c = frames ++ rest) (hdone : NoiseDone config done frames (s.conn c)) :
    ∃ x, NoiseAdmitted config crates s c x := by
  obtain ⟨greeting, msg1, info, msg3, confirmMs, auth, ⟨hmode, networkSecret, draws, msg2, hroom,
    rfl⟩, rfl, rfl, hsecure, hname, hpeer⟩ := hdone
  obtain ⟨handle, hhandle⟩ := h.attached c hc.not_closed
  obtain ⟨p, hp, hserver, hprogress⟩ := h.progress c handle hhandle
  rw [hcalls] at hprogress
  -- Message 3 was accepted, so the connection is authenticated by an exchange.
  have hauth : p.authenticated := hprogress.authenticated msg3 confirmMs auth (by simp)
  obtain ⟨x, hx, -, -⟩ := hprogress.finished hauth
  obtain ⟨before, key, after, hfinish, hsent⟩ := hx.finished
  obtain ⟨before', failed, rfl, -, before'', algorithm, failed', rfl, -⟩ := hsent
  have hmem : ∀ y ∈ s.callsOn c, ¬Traffic y.1 → y = (.readMsg1 msg1, .msg1 (.ok info)) ∨
      y = (.buildMsg2 networkSecret draws, .frame (.ok msg2)) ∨
        y = (.finishMsg3 msg3 confirmMs, .auth (.ok auth)) := by
    intro y hy hnot
    rw [hcalls] at hy
    rcases List.mem_append.1 hy with hy | hy
    · simpa using hy
    · exact absurd (htraffic y hy) hnot
  rw [← hcalls] at hfinish
  have hread := hmem (.readMsg1 x.msg1, .msg1 (.ok ⟨x.peerId, x.networkName, algorithm⟩))
    (by rw [hfinish]; simp) id
  have hbuild := hmem (.buildMsg2 x.networkSecret x.draws, .frame (.ok x.msg2))
    (by rw [hfinish]; simp) id
  have hfinished := hmem (.finishMsg3 x.msg3 x.confirmMs,
    .auth (.ok ⟨x.peerId, x.networkName, key, "NetworkSecretConfirmed"⟩)) (by rw [hfinish]; simp) id
  simp only [Prod.mk.injEq, Call.readMsg1.injEq, Output.msg1.injEq, Except.ok.injEq, reduceCtorEq,
    and_false, or_false, Call.buildMsg2.injEq, Output.frame.injEq, false_or,
    Call.finishMsg3.injEq, Output.auth.injEq] at hread hbuild hfinished
  obtain ⟨rfl, rfl⟩ := hread
  obtain ⟨⟨rfl, rfl⟩, rfl⟩ := hbuild
  obtain ⟨⟨rfl, rfl⟩, rfl⟩ := hfinished
  refine ⟨x, ⟨hmode, hsecure⟩, hroom, hpeer, hname, ⟨rest, hframes⟩,
    ⟨algorithm, key, more, hcalls, htraffic⟩, p.localPrivate, hserver.localPrivate, ?_⟩
  rw [hcalls, ← hserver.serverPeerId]
  exact hx

/-- What a finished handshake of a client without secure mode was. -/
theorem legacyAdmitted_of_done {s : HostState HS} {c : ConnId} {done more : List (Call × Output)}
    {frames rest : List Bytes} (hcalls : s.callsOn c = done ++ more)
    (htraffic : ∀ y ∈ more, Traffic y.1) (hframes : s.framesOf c = frames ++ rest)
    (hdone : LegacyDone config crates done frames (s.conn c)) :
    ∃ frame header request, LegacyAdmitted config crates s c frame header request := by
  obtain ⟨frame, value, info, networkSecret, hmode, rfl, rfl, hvalue, hinfo, hroom, hdigest, hlegacy,
    hname, hpeer⟩ := hdone
  obtain ⟨header, request, hpacket, htype, hclear, hdecode, hmagic, hversion, hnonzero, hfrom,
    hnamed, rfl⟩ := parseLegacyHandshake_eq_ok hvalue
  obtain ⟨hinfoPeer, hinfoName, hinfoDigest⟩ := parseLegacyHandshakeInfo_eq_ok hinfo
  have hverified := verifyNetworkSecretDigest_eq_ok_true hdigest
  rw [hinfoName] at hverified hroom
  rw [hverified] at hinfoDigest
  refine ⟨frame, header, request, ⟨hmode, hlegacy⟩, ⟨rest, hframes⟩, ⟨hpacket, htype, hclear⟩,
    ⟨hdecode, hmagic, hversion⟩, ⟨?_, hfrom, hfrom ▸ hnonzero⟩, ⟨hname.trans hinfoName, hnamed⟩,
    ⟨networkSecret, hroom, hinfoDigest, fun hinverse => ?_⟩, fun y hy => ?_⟩
  · exact (hpeer.trans hinfoPeer).trans hfrom
  · exact Option.some.inj ((hinverse _).symm.trans hinfoDigest)
  · rw [hcalls] at hy
    exact htraffic y hy

/-- In every run of the server, a connection is ready, and may be registered, only after a single
    Noise exchange, or the digest of a handshake request where the server is configured for it,
    proved the secret of its network. In every run of the session store, whatever is called in
    whatever order, packets are only encrypted and decrypted after an exchange for the client and
    the network of the session. -/
theorem admission_safe (inputs : List (ServerEvent × (ℕ → Ambient))) (ops : List Op) :
    AdmissionSafe config crates ((server config crates).run (.init config) inputs) ∧
      Along (PacketAfterExchange crates.secure)
        ((store crates.secure).history (store crates.secure).init ops) := by
  obtain ⟨hregistry, hhandshakes, hlinked⟩ := Reachable.of_step config crates
    (P := fun a => Linked config crates a.2) (.init config crates)
    (fun _ _ hstep _ h => h.step hstep)
    (s := (server config crates).run (.init config) inputs) ⟨inputs, rfl⟩
  refine ⟨⟨fun c hc => ?_, fun networkName peerId c hentry => ?_⟩, exchange_before_packets _ _⟩
  · obtain ⟨done, more, frames, rest, hcalls, htraffic, hframes, hdone⟩ :=
      (hhandshakes.authentic c).admitted hc
    rcases hdone with hnoise | hlegacy
    · exact .inl (noiseAdmitted_of_done hlinked hc hcalls htraffic hframes hnoise)
    · exact .inr (legacyAdmitted_of_done hcalls htraffic hframes hlegacy)
  · obtain ⟨hkey, -, hready⟩ := hregistry.entry (networkName, peerId) c hentry
    obtain ⟨hname, hpeer⟩ := Prod.mk.inj hkey
    exact ⟨hready.resolve_right (by simp [Stage.idle, Registration.subject]), hname, hpeer⟩

end Host

end EasyTierEdge
