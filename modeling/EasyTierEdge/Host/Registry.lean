import EasyTierEdge.Host.Steps
import EasyTierEdge.Rpc.Members

/-!
# The registry and the core

What the rooms, the connections and the core know of each other (`Registry`). Between two
events a connection is ready just when it is the one registered for its network and peer id,
and the members of a network in the core are the peers of its ready connections. Within an
event the books differ by what the `Stage` tells; every step keeps it up (`Registry.step`).
-/

namespace EasyTierEdge

namespace Host

variable {HS : Type} {config : ServerConfig} {crates : HostCrates HS}

/-! ## Rooms -/

namespace RoomRegistry

variable (rooms : RoomRegistry)

theorem get_set (n n' : String) (p p' : UInt32) (c : ConnId) :
    RoomRegistry.get (RoomRegistry.set rooms n p c) n' p' =
      if (n', p') = (n, p) then some c else RoomRegistry.get rooms n' p' := by
  unfold RoomRegistry.get RoomRegistry.set
  rw [JsMap.get_set]
  by_cases hn : n' = n
  · subst hn
    rw [if_pos rfl, Option.bind_some, JsMap.get_set]
    by_cases hp : p' = p
    · simp [hp]
    · have hne : (n', p') ≠ (n', p) := fun h => hp (Prod.mk.inj h).2
      rw [if_neg hp, if_neg hne]
      cases JsMap.get rooms n' <;> rfl
  · have hne : (n', p') ≠ (n, p) := fun h => hn (Prod.mk.inj h).1
    rw [if_neg hn, if_neg hne]

theorem get_delete (n n' : String) (p p' : UInt32) (c : ConnId) :
    RoomRegistry.get (RoomRegistry.delete rooms n p c) n' p' =
      if (n', p') = (n, p) ∧ RoomRegistry.get rooms n p = some c then none
      else RoomRegistry.get rooms n' p' := by
  unfold RoomRegistry.delete
  cases hroom : JsMap.get rooms n with
  | none =>
    have hget : RoomRegistry.get rooms n p = none := by simp [RoomRegistry.get, hroom]
    simp [hget]
  | some room =>
    have hget : RoomRegistry.get rooms n p = room.get p := by simp [RoomRegistry.get, hroom]
    simp only [hget]
    by_cases hc : room.get p = some c
    · simp only [hc, ne_eq, not_true_eq_false, if_false, and_true]
      -- What the room has for a peer id after the deletion.
      have hdelete : (room.delete p).get p' = if p' = p then none else room.get p' :=
        JsMap.get_delete _ _ _
      split_ifs with hsize hkey hkey
      · rw [RoomRegistry.get, JsMap.get_delete, if_pos (Prod.mk.inj hkey).1]
        rfl
      · rw [RoomRegistry.get, RoomRegistry.get, JsMap.get_delete]
        split_ifs with hn
        · -- The room is empty, and had nothing for another peer id.
          subst hn
          have hempty := JsMap.size_eq_zero_iff.1 hsize p'
          have hp : p' ≠ p := fun h => hkey (by rw [h])
          rw [hdelete, if_neg hp] at hempty
          rw [hroom, Option.bind_some, hempty]
          rfl
        · rfl
      · obtain ⟨rfl, rfl⟩ := Prod.mk.inj hkey
        rw [RoomRegistry.get, JsMap.get_set, if_pos rfl, Option.bind_some, hdelete, if_pos rfl]
      · rw [RoomRegistry.get, RoomRegistry.get, JsMap.get_set]
        split_ifs with hn
        · subst hn
          have hp : p' ≠ p := fun h => hkey (by rw [h])
          rw [Option.bind_some, hdelete, if_neg hp, hroom, Option.bind_some]
        · rfl
    · simp [hc]

end RoomRegistry

/-! ## Connections -/

namespace HostState

variable (s : HostState HS)

/-- The connection that is registered for a network and a peer id. -/
def registered (key : PeerKey) : Option ConnId := RoomRegistry.get s.rooms key.1 key.2

/-- A peer id is a member of a network in the core. -/
def isMember (key : PeerKey) : Prop := key.2 ∈ s.core.routes.members key.1

theorem conn_modifyConn (c d : ConnId) (f : Connection → Connection) :
    (s.modifyConn c f).conn d =
      if d = c ∧ c < s.conns.length then f (s.conn c) else s.conn d := by
  unfold modifyConn conn
  rw [List.getD_eq_getElem?_getD, List.getD_eq_getElem?_getD, List.getD_eq_getElem?_getD,
    List.getElem?_modify]
  split_ifs with hcd h h
  · obtain ⟨rfl, hlt⟩ := h
    simp [hlt]
  · subst hcd
    have hle : s.conns.length ≤ c := Nat.not_lt.1 fun hlt => h ⟨rfl, hlt⟩
    simp [hle]
  · exact absurd h.1.symm hcd
  · simp

/-- A connection that was never accepted is closed. -/
theorem lt_length_of_not_closed {c : ConnId} (h : ¬s.closed c) : c < s.conns.length := by
  by_contra hle
  refine h ?_
  rw [closed, conn, List.getD_eq_default _ _ (Nat.not_lt.1 hle)]
  rfl

theorem conn_modifyConn_self {c : ConnId} (h : ¬s.closed c) (f : Connection → Connection) :
    (s.modifyConn c f).conn c = f (s.conn c) := by
  rw [conn_modifyConn, if_pos ⟨rfl, s.lt_length_of_not_closed h⟩]

theorem conn_modifyConn_of_ne {c d : ConnId} (h : d ≠ c) (f : Connection → Connection) :
    (s.modifyConn c f).conn d = s.conn d := by
  rw [conn_modifyConn, if_neg fun hc => h hc.1]

/-- What a change of a connection leaves alone. -/
theorem conn_modifyConn_congr {α : Type} {g : Connection → α} {f : Connection → Connection}
    (h : ∀ conn, g (f conn) = g conn) (c d : ConnId) :
    g ((s.modifyConn c f).conn d) = g (s.conn d) := by
  rw [conn_modifyConn]
  split_ifs with hc
  · rw [h, hc.1]
  · rfl

variable {s}

theorem ready.not_closed {c : ConnId} (h : s.ready c) : ¬s.closed c := fun hc => by
  rw [ready] at h
  rw [closed, h] at hc
  cases hc

theorem pending.not_closed {c : ConnId} (h : s.pending c) : ¬s.closed c := fun hc => by
  rw [pending, show (s.conn c).phase = .closed from hc] at h
  cases h

theorem pending.not_ready {c : ConnId} (h : s.pending c) : ¬s.ready c := fun hr => by
  rw [pending, show (s.conn c).phase = .ready from hr] at h
  cases h

/-- A connection is in a handshake, ready or closed. -/
theorem phase_cases (c : ConnId) : s.pending c ∨ s.ready c ∨ s.closed c := by
  unfold pending ready closed
  cases (s.conn c).phase
  · exact .inl rfl
  · exact .inl rfl
  · exact .inr (.inl rfl)
  · exact .inr (.inr rfl)

end HostState

/-! ## The invariant -/

/-- The registry, the connections and the core fit together, up to what is unfinished. -/
structure Registry (t : Stage) (s : HostState HS) : Prop where
  /-- A registered connection is ready, or being registered. -/
  entry : ∀ key c, s.registered key = some c →
    s.routeSyncKey c = key ∧ key.1 ≠ "" ∧ (s.ready c ∨ t.registration.subject = some c)
  /-- A ready connection is registered, unless it is being replaced. -/
  ready : ∀ c, s.ready c → s.registered (s.routeSyncKey c) = some c ∨
    ∃ d, t.registration = .entered d (some c) ∧ s.routeSyncKey d = s.routeSyncKey c
  subject : ∀ d, t.registration.subject = some d →
    s.pending d ∧ d ∈ t.doomed ∧ s.registered (s.routeSyncKey d) = some d
  replaced : ∀ d r c, t.registration = .entered d r → s.ready c →
    s.routeSyncKey c = s.routeSyncKey d → r = some c
  /-- No ready connection has the peer that was added. -/
  alone : ∀ d c, t.registration = .added d → s.ready c → s.routeSyncKey c ≠ s.routeSyncKey d
  added : ∀ d, t.registration = .added d → s.isMember (s.routeSyncKey d)
  member : ∀ key, s.isMember key →
    ∃ c, s.routeSyncKey c = key ∧ (s.ready c ∨ t.registration = .added c)
  present : ∀ c, s.ready c → c ∉ t.doomed → s.isMember (s.routeSyncKey c)
  connections : ∀ c, c ∈ s.connections ↔ ¬s.closed c
  nodup : s.connections.Nodup
  /-- Updates are for ready connections. -/
  sync : ∀ key state, s.routeSyncStates.get key = some state →
    s.ready state.peer ∧ s.routeSyncKey state.peer = key

namespace Registry

variable {t t' : Stage} {s s' : HostState HS}

theorem init (config : ServerConfig) : Registry .idle (HostState.init config : HostState HS) where
  entry key c h := by cases h
  ready c h := by cases h
  subject d h := by cases h
  replaced d r c h := by cases h
  alone d c h := by cases h
  added d h := by cases h
  member key h := by cases h
  present c h := by cases h
  connections c := by simp [HostState.init, HostState.closed, HostState.conn]; rfl
  nodup := List.nodup_nil
  sync key state h := by cases h

/-- There is at most one ready connection for a network and a peer id. -/
theorem eq_of_ready (h : Registry t s) {c d : ConnId} (hc : s.ready c) (hd : s.ready d)
    (hkey : s.routeSyncKey c = s.routeSyncKey d) : c = d := by
  -- The one that is registered in the place of a ready connection is not ready itself.
  have hnot : ∀ {c d : ConnId}, s.ready c → s.registered (s.routeSyncKey c) = some c →
      ∀ e, t.registration = .entered e (some d) → s.routeSyncKey e ≠ s.routeSyncKey c := by
    intro c d hc hentry e he hkey
    obtain ⟨hpending, -, hreg⟩ := h.subject e (by rw [he]; rfl)
    rw [hkey, hentry] at hreg
    obtain rfl := Option.some.inj hreg
    exact hpending.not_ready hc
  rcases h.ready c hc with hentry | ⟨e, he, hek⟩
  · rcases h.ready d hd with hentry' | ⟨e, he, hek⟩
    · rw [hkey, hentry'] at hentry
      exact (Option.some.inj hentry).symm
    · exact absurd (hek.trans hkey.symm) (hnot hc hentry e he)
  · exact Option.some.inj (h.replaced e (some c) d he hd (hkey ▸ hek.symm))

/-- A state with the same books. -/
theorem congr (h : Registry t s) (hreg : t'.registration = t.registration)
    (hdoomed : t.doomed ⊆ t'.doomed) (hphase : ∀ c, (s'.conn c).phase = (s.conn c).phase)
    (hkey : ∀ c, s'.routeSyncKey c = s.routeSyncKey c) (hconnections : s'.connections = s.connections)
    (hrooms : s'.rooms = s.rooms)
    (hmembers : ∀ n, s'.core.routes.members n = s.core.routes.members n)
    (hsync : ∀ key state, s'.routeSyncStates.get key = some state →
      s.ready state.peer ∧ s.routeSyncKey state.peer = key) : Registry t' s' := by
  have hregistered : s'.registered = s.registered := by
    unfold HostState.registered
    rw [hrooms]
  have hready : s'.ready = s.ready := by
    funext c
    rw [HostState.ready, hphase, HostState.ready]
  have hpending : s'.pending = s.pending := by
    funext c
    rw [HostState.pending, hphase, HostState.pending]
  have hclosed : s'.closed = s.closed := by
    funext c
    rw [HostState.closed, hphase, HostState.closed]
  have hmember : s'.isMember = s.isMember := by
    funext key
    rw [HostState.isMember, hmembers, HostState.isMember]
  have hkeys : s'.routeSyncKey = s.routeSyncKey := funext hkey
  constructor
  · rw [hregistered, hready, hkeys, hreg]
    exact h.entry
  · rw [hregistered, hready, hkeys, hreg]
    exact h.ready
  · rw [hregistered, hpending, hkeys, hreg]
    exact fun d hd => ⟨(h.subject d hd).1, hdoomed (h.subject d hd).2.1, (h.subject d hd).2.2⟩
  · rw [hready, hkeys, hreg]
    exact h.replaced
  · rw [hready, hkeys, hreg]
    exact h.alone
  · rw [hmember, hkeys, hreg]
    exact h.added
  · rw [hmember, hready, hkeys, hreg]
    exact h.member
  · rw [hmember, hready, hkeys]
    exact fun c hc hnot => h.present c hc fun hmem => hnot (hdoomed hmem)
  · rw [hconnections, hclosed]
    exact h.connections
  · rw [hconnections]
    exact h.nodup
  · rw [hready, hkeys]
    exact hsync

/-- More connections may be doomed. -/
theorem doom (h : Registry t s) (c : ConnId) : Registry (t.doom c) s :=
  h.congr rfl (Set.subset_insert _ _) (fun _ => rfl) (fun _ => rfl) rfl rfl (fun _ => rfl) h.sync

theorem flush (h : Registry t s) (c : Option ConnId) : Registry (t.flush c) s :=
  h.congr rfl Set.Subset.rfl (fun _ => rfl) (fun _ => rfl) rfl rfl (fun _ => rfl) h.sync

theorem close (h : Registry t s) (c : ConnId) : Registry (t.close c) s :=
  h.congr rfl Set.Subset.rfl (fun _ => rfl) (fun _ => rfl) rfl rfl (fun _ => rfl) h.sync

/-- A change of a connection that leaves its phase, its network and its peer id. -/
theorem modifyConn (h : Registry t s) (c : ConnId) {f : Connection → Connection}
    (hphase : ∀ conn, (f conn).phase = conn.phase)
    (hname : ∀ conn, (f conn).networkName = conn.networkName)
    (hpeer : ∀ conn, (f conn).peerId = conn.peerId) : Registry t (s.modifyConn c f) :=
  h.congr rfl Set.Subset.rfl (fun _ => HostState.conn_modifyConn_congr s hphase _ _)
    (fun _ => Prod.ext (HostState.conn_modifyConn_congr s hname _ _)
      (HostState.conn_modifyConn_congr s hpeer _ _)) rfl rfl (fun _ => rfl) h.sync

/-- A change of the state of an update that leaves its peer. -/
theorem modifySync (h : Registry t s) (key : PeerKey) (f : RouteSyncState → RouteSyncState)
    (hf : ∀ state, (f state).peer = state.peer) : Registry t (s.modifySync key f) := by
  refine h.congr rfl Set.Subset.rfl (fun _ => rfl) (fun _ => rfl) rfl rfl (fun _ => rfl) ?_
  intro key' state' hstate'
  change (s.routeSyncStates.modify key f).get key' = some state' at hstate'
  rw [JsMap.get_modify] at hstate'
  split_ifs at hstate' with hkey
  · obtain ⟨state, hstate, rfl⟩ := Option.map_eq_some_iff.1 hstate'
    rw [hf]
    exact h.sync key' state hstate
  · exact h.sync key' state' hstate'

theorem unsend (h : Registry t s) (key : PeerKey) (forceFull : Bool) :
    Registry t (s.unsend key forceFull) :=
  h.modifySync key _ fun _ => rfl

theorem expire (h : Registry t s) (key : PeerKey) : Registry t (s.expire key) :=
  h.modifySync key _ fun _ => rfl

theorem settle (h : Registry t s) (key : PeerKey) (now : ℕ) : Registry t (s.settle key now) :=
  h.modifySync key _ fun _ => rfl

/-- A change of the core that leaves the members. -/
theorem core (h : Registry t s) {core : WasmRpcCore}
    (hmembers : ∀ n, core.routes.members n = s.core.routes.members n) :
    Registry t { s with core } :=
  h.congr rfl Set.Subset.rfl (fun _ => rfl) (fun _ => rfl) rfl rfl hmembers h.sync

theorem note (h : Registry t s) (e : Effect) : Registry t (s.note e) :=
  h.congr rfl Set.Subset.rfl (fun _ => rfl) (fun _ => rfl) rfl rfl (fun _ => rfl) h.sync

theorem world (h : Registry t s) (world : World HS) : Registry t { s with world } :=
  h.congr rfl Set.Subset.rfl (fun _ => rfl) (fun _ => rfl) rfl rfl (fun _ => rfl) h.sync

theorem callSecure (h : Registry t s) (c : ConnId) (handle : Handle) (call : Call) :
    Registry t (s.callSecure crates c handle call).2 :=
  (h.world _).note _

theorem disposeConnection (h : Registry t s) (c : ConnId) (a : Ambient) :
    Registry t (s.disposeConnection crates c a) :=
  ((h.world _).modifyConn c (f := fun conn =>
    { conn with handshakeTimer := false, secure := none, legacyCipher := none })
    (fun _ => rfl) (fun _ => rfl) fun _ => rfl).note _

theorem announce (h : Registry t s) {c : ConnId} (hc : s.ready c) (forceFull : Bool) :
    Registry t (s.announce c forceFull) := by
  refine h.congr rfl Set.Subset.rfl (fun _ => rfl) (fun _ => rfl) rfl rfl (fun _ => rfl) ?_
  intro key state hstate
  change (s.routeSyncStates.set _ _).get key = some state at hstate
  rw [JsMap.get_set] at hstate
  split_ifs at hstate with hkey
  · obtain rfl := Option.some.inj hstate
    exact ⟨hc, hkey.symm⟩
  · exact h.sync key state hstate

theorem rebuild (h : Registry t s) (key : PeerKey) (state : RouteSyncState) (now : ℕ)
    (a : Ambient) : Registry t (s.rebuild crates key state now a).2 := by
  have hcore : Registry t { s with core := (s.buildRouteUpdate crates state now a).2 } :=
    h.core fun n => WasmRpcCore.members_buildRouteUpdate crates.rpc s.core _ _ _ _ _ _ _ n
  rcases s.rebuild_cases crates key state now a with ⟨e, -, heq⟩ | ⟨packet, -, heq⟩
  · rw [heq]
    exact hcore
  · rw [heq]
    exact (hcore.modifySync key (·.launch now) fun _ => rfl).note _

end Registry

/-! ## Closing connections -/

namespace HostState

variable (s : HostState HS) (c : ConnId)

/-- What closing a connection does, but for the counters of handshakes. -/
theorem unregister_eq : ∃ pendingHandshakes pendingHandshakesByIp maintenanceTimer,
    s.unregister c = { s.modifyConn c fun conn => { conn with phase := .closed } with
      connections := s.connections.erase c
      rooms := RoomRegistry.delete s.rooms (s.conn c).networkName (s.conn c).peerId c
      pendingHandshakes
      pendingHandshakesByIp
      maintenanceTimer
      trace := s.trace ++ [.closed c] } := by
  unfold unregister
  dsimp only
  split_ifs
  all_goals exact ⟨_, _, _, rfl⟩

theorem conns_unregister : (s.unregister c).conns =
    (s.modifyConn c fun conn => { conn with phase := .closed }).conns := by
  obtain ⟨_, _, _, heq⟩ := s.unregister_eq c
  rw [heq]

theorem conn_unregister_of_ne {d : ConnId} (h : d ≠ c) : (s.unregister c).conn d = s.conn d := by
  rw [conn, conns_unregister]
  exact s.conn_modifyConn_of_ne h _

variable {c}

theorem conn_unregister_self (h : ¬s.closed c) :
    (s.unregister c).conn c = { s.conn c with phase := .closed } := by
  rw [conn, conns_unregister]
  exact s.conn_modifyConn_self h _

theorem closed_unregister (h : ¬s.closed c) : (s.unregister c).closed c := by
  rw [closed, s.conn_unregister_self h]

variable (c)

theorem routeSyncKey_unregister (d : ConnId) :
    (s.unregister c).routeSyncKey d = s.routeSyncKey d := by
  rw [routeSyncKey, conn, conns_unregister]
  let close : Connection → Connection := fun conn => { conn with phase := .closed }
  exact Prod.ext (conn_modifyConn_congr s (g := Connection.networkName) (f := close)
    (fun _ => rfl) c d) (conn_modifyConn_congr s (g := Connection.peerId) (f := close)
    (fun _ => rfl) c d)

theorem registered_unregister (key : PeerKey) : (s.unregister c).registered key =
    if key = s.routeSyncKey c ∧ s.registered key = some c then none else s.registered key := by
  obtain ⟨_, _, _, heq⟩ := s.unregister_eq c
  rw [registered, heq, RoomRegistry.get_delete]
  by_cases hkey : key = s.routeSyncKey c
  · subst hkey
    rfl
  · have hne : (key.1, key.2) ≠ ((s.conn c).networkName, (s.conn c).peerId) := hkey
    rw [if_neg fun h => hne h.1, if_neg fun h => hkey h.1]
    rfl

/-- Only the closed connection stops being ready. -/
theorem ready_unregister {d : ConnId} (h : ¬s.closed c) :
    (s.unregister c).ready d ↔ s.ready d ∧ d ≠ c := by
  by_cases hd : d = c
  · subst hd
    exact iff_of_false (fun hr => hr.not_closed (s.closed_unregister h)) fun hr => hr.2 rfl
  · rw [ready, s.conn_unregister_of_ne c hd]
    exact (and_iff_left hd).symm

theorem pending_unregister {d : ConnId} (h : ¬s.closed c) :
    (s.unregister c).pending d ↔ s.pending d ∧ d ≠ c := by
  by_cases hd : d = c
  · subst hd
    exact iff_of_false (fun hr => hr.not_closed (s.closed_unregister h)) fun hr => hr.2 rfl
  · rw [pending, s.conn_unregister_of_ne c hd]
    exact (and_iff_left hd).symm

theorem closed_unregister_iff {d : ConnId} (h : ¬s.closed c) :
    (s.unregister c).closed d ↔ s.closed d ∨ d = c := by
  by_cases hd : d = c
  · subst hd
    exact iff_of_true (s.closed_unregister h) (.inr rfl)
  · rw [closed, s.conn_unregister_of_ne c hd]
    exact (or_iff_left hd).symm

end HostState

namespace Registry

variable {t : Stage} {s : HostState HS} {c : ConnId}

/-- The connections after one was closed. -/
theorem connections_unregister (h : Registry t s) (hc : ¬s.closed c) :
    (∀ d, d ∈ (s.unregister c).connections ↔ ¬(s.unregister c).closed d) ∧
      (s.unregister c).connections.Nodup := by
  obtain ⟨_, _, _, heq⟩ := s.unregister_eq c
  have hconnections : (s.unregister c).connections = s.connections.erase c := by rw [heq]
  rw [hconnections]
  refine ⟨fun d => ?_, h.nodup.erase c⟩
  rw [h.nodup.mem_erase_iff, h.connections, s.closed_unregister_iff c hc]
  tauto

/-- A ready connection is closed, and its peer removed. -/
theorem left (h : Registry t s) (hc : s.ready c) (a : Ambient) :
    Registry t ((s.unregister c).removePeer crates c a) := by
  have hopen := hc.not_closed
  obtain ⟨hconnections, hnodup⟩ := h.connections_unregister hopen
  have hkey := s.routeSyncKey_unregister c
  -- What is left of the core, and of the states of the updates.
  have hmember : ∀ key, ((s.unregister c).removePeer crates c a).isMember key ↔
      s.isMember key ∧ key ≠ s.routeSyncKey c := by
    intro key
    obtain ⟨_, _, _, heq⟩ := s.unregister_eq c
    have hcore : (s.unregister c).core = s.core := by rw [heq]; rfl
    have hname : ((s.unregister c).conn c).networkName = (s.conn c).networkName :=
      congrArg Prod.fst (hkey c)
    have hpeer : ((s.unregister c).conn c).peerId = (s.conn c).peerId := congrArg Prod.snd (hkey c)
    change key.2 ∈ ((s.unregister c).core.removePeer crates.rpc _ _ _).routes.members key.1 ↔ _
    rw [WasmRpcCore.members_removePeer, hcore, hname, hpeer]
    unfold HostState.isMember HostState.routeSyncKey
    split_ifs with hn
    · rw [Finset.mem_erase, and_comm, hn]
      refine and_congr_right fun _ => not_congr ?_
      exact ⟨fun hp => Prod.ext hn hp, fun hk => congrArg Prod.snd hk⟩
    · exact (and_iff_left fun hk => hn (congrArg Prod.fst hk)).symm
  have hsync : ∀ key state,
      ((s.unregister c).removePeer crates c a).routeSyncStates.get key = some state →
        key ≠ s.routeSyncKey c ∧ s.routeSyncStates.get key = some state := by
    intro key state hstate
    obtain ⟨_, _, _, heq⟩ := s.unregister_eq c
    have hstates : (s.unregister c).routeSyncStates = s.routeSyncStates := by rw [heq]; rfl
    change ((s.unregister c).routeSyncStates.delete ((s.unregister c).routeSyncKey c)).get key = _
      at hstate
    rw [JsMap.get_delete, hstates, hkey] at hstate
    split_ifs at hstate with hne
    exact ⟨hne, hstate⟩
  -- The rest is as the host left it.
  constructor
  · intro key d hd
    change (s.unregister c).registered key = some d at hd
    rw [s.registered_unregister] at hd
    split_ifs at hd with hgone
    obtain ⟨hdk, hn, hrest⟩ := h.entry key d hd
    have hdc : d ≠ c := by
      rintro rfl
      exact hgone ⟨hdk.symm, hd⟩
    refine ⟨(hkey d).trans hdk, hn, hrest.imp_left fun hr => ?_⟩
    exact (s.ready_unregister c hopen).2 ⟨hr, hdc⟩
  · intro d hd
    obtain ⟨hd, hdc⟩ := (s.ready_unregister c hopen).1 hd
    rcases h.ready d hd with hreg | ⟨e, he, hek⟩
    · refine .inl ?_
      change (s.unregister c).registered ((s.unregister c).routeSyncKey d) = some d
      rw [s.registered_unregister, hkey, if_neg, hreg]
      rw [hreg]
      exact fun hgone => hdc (Option.some.inj hgone.2)
    · refine .inr ⟨e, he, ?_⟩
      change (s.unregister c).routeSyncKey e = (s.unregister c).routeSyncKey d
      rw [hkey, hkey, hek]
  · intro d hd
    obtain ⟨hpending, hdoomed, hreg⟩ := h.subject d hd
    have hdc : d ≠ c := by
      rintro rfl
      exact hpending.not_ready hc
    refine ⟨(s.pending_unregister c hopen).2 ⟨hpending, hdc⟩, hdoomed, ?_⟩
    change (s.unregister c).registered ((s.unregister c).routeSyncKey d) = some d
    rw [s.registered_unregister, hkey, if_neg, hreg]
    rw [hreg]
    exact fun hgone => hdc (Option.some.inj hgone.2)
  · intro d r e hd he hek
    obtain ⟨he, -⟩ := (s.ready_unregister c hopen).1 he
    exact h.replaced d r e hd he ((hkey e).symm.trans (hek.trans (hkey d)))
  · intro d e hd he hek
    obtain ⟨he, -⟩ := (s.ready_unregister c hopen).1 he
    exact h.alone d e hd he ((hkey e).symm.trans (hek.trans (hkey d)))
  · intro d hd
    refine (hmember _).2 ?_
    change s.isMember ((s.unregister c).routeSyncKey d) ∧ (s.unregister c).routeSyncKey d ≠ _
    rw [hkey]
    exact ⟨h.added d hd, fun heq => h.alone d c hd hc heq.symm⟩
  · intro key hm
    obtain ⟨hm, hne⟩ := (hmember key).1 hm
    obtain ⟨d, hdk, hd⟩ := h.member key hm
    refine ⟨d, (hkey d).trans hdk, hd.imp_left fun hr => ?_⟩
    exact (s.ready_unregister c hopen).2 ⟨hr, fun hdc => hne (hdk.symm.trans (hdc ▸ rfl))⟩
  · intro d hd hnot
    obtain ⟨hd, hdc⟩ := (s.ready_unregister c hopen).1 hd
    refine (hmember _).2 ?_
    change s.isMember ((s.unregister c).routeSyncKey d) ∧ (s.unregister c).routeSyncKey d ≠ _
    rw [hkey]
    exact ⟨h.present d hd hnot, fun heq => hdc (h.eq_of_ready hd hc heq)⟩
  · exact hconnections
  · exact hnodup
  · intro key state hstate
    obtain ⟨hne, hstate⟩ := hsync key state hstate
    obtain ⟨hready, hpk⟩ := h.sync key state hstate
    refine ⟨(s.ready_unregister c hopen).2 ⟨hready, fun hpc => hne ?_⟩, (hkey _).trans hpk⟩
    rw [← hpk, hpc]

/-- A connection is closed before its handshake is finished. -/
theorem abandoned (h : Registry t s) (hc : s.pending c)
    (hreg : t.registration = .none ∨
      ∃ replaced, t.registration = .entered c replaced ∧ ∀ r, replaced = some r → s.closed r) :
    Registry (t.register .none) (s.unregister c) := by
  have hopen := hc.not_closed
  obtain ⟨hconnections, hnodup⟩ := h.connections_unregister hopen
  have hkey := s.routeSyncKey_unregister c
  obtain ⟨_, _, _, heq⟩ := s.unregister_eq c
  have hmember : (s.unregister c).isMember = s.isMember := by rw [heq]; rfl
  have hstates : (s.unregister c).routeSyncStates = s.routeSyncStates := by rw [heq]; rfl
  -- The other connections in the rooms are ready.
  have hsubject : ∀ d, t.registration.subject = some d → d = c := by
    rintro d hd
    rcases hreg with hnone | ⟨replaced, hentered, -⟩
    · rw [hnone] at hd
      cases hd
    · rw [hentered] at hd
      exact (Option.some.inj hd).symm
  have hadded : ∀ d, t.registration ≠ .added d := by
    intro d hd
    rcases hreg with hnone | ⟨replaced, hentered, -⟩
    · rw [hnone] at hd
      cases hd
    · rw [hentered] at hd
      cases hd
  have hready : ∀ {d}, s.ready d → (s.unregister c).ready d := fun hd =>
    (s.ready_unregister c hopen).2 ⟨hd, fun hdc => hc.not_ready (hdc ▸ hd)⟩
  constructor
  · intro key d hd
    rw [s.registered_unregister] at hd
    split_ifs at hd with hgone
    obtain ⟨hdk, hn, hrest⟩ := h.entry key d hd
    refine ⟨(hkey d).trans hdk, hn, .inl ?_⟩
    rcases hrest with hr | hs
    · exact hready hr
    · obtain rfl := hsubject d hs
      exact absurd ⟨hdk.symm, hd⟩ hgone
  · intro d hd
    obtain ⟨hd, hdc⟩ := (s.ready_unregister c hopen).1 hd
    rcases h.ready d hd with hregd | ⟨e, he, -⟩
    · refine .inl ?_
      rw [s.registered_unregister, hkey, if_neg, hregd]
      rw [hregd]
      exact fun hgone => hdc (Option.some.inj hgone.2)
    · -- The connection that was replaced is closed.
      rcases hreg with hnone | ⟨replaced, hentered, hclosed⟩
      · rw [hnone] at he
        cases he
      · rw [hentered] at he
        obtain ⟨-, rfl⟩ := Registration.entered.inj he
        exact absurd (hclosed d rfl) hd.not_closed
  · intro d hd
    cases hd
  · intro d r e hd
    cases hd
  · intro d e hd
    cases hd
  · intro d hd
    cases hd
  · intro key hm
    rw [hmember] at hm
    obtain ⟨d, hdk, hd⟩ := h.member key hm
    exact ⟨d, (hkey d).trans hdk, .inl (hready (hd.resolve_right (hadded d)))⟩
  · intro d hd hnot
    obtain ⟨hd, -⟩ := (s.ready_unregister c hopen).1 hd
    rw [hmember, hkey]
    exact h.present d hd hnot
  · exact hconnections
  · exact hnodup
  · intro key state hstate
    rw [hstates] at hstate
    obtain ⟨hr, hpk⟩ := h.sync key state hstate
    exact ⟨hready hr, (hkey _).trans hpk⟩

end Registry

/-! ## Opening connections -/

namespace HostState

variable (s : HostState HS)

theorem conn_createConnection (h : Handle) (clientIp : String) (a : Ambient) (d : ConnId) :
    (s.createConnection h clientIp a).conn d =
      if d = s.conns.length then (s.createConnection h clientIp a).conn s.conns.length
      else s.conn d := by
  split_ifs with hd
  · rw [hd]
  · unfold createConnection conn
    rw [List.getD_eq_getElem?_getD, List.getD_eq_getElem?_getD, List.getElem?_append]
    split_ifs with hlt
    · rfl
    · have hle := Nat.not_lt.1 hlt
      rw [List.getElem?_eq_none hle, List.getElem?_eq_none]
      exact Nat.sub_pos_of_lt (lt_of_le_of_ne hle (Ne.symm hd))

theorem pending_createConnection (h : Handle) (clientIp : String) (a : Ambient) :
    (s.createConnection h clientIp a).pending s.conns.length := by
  simp [createConnection, pending, conn, Phase.pending]

/-- A connection that does not exist yet. -/
theorem closed_length : s.closed s.conns.length := by
  by_contra h
  exact absurd (s.lt_length_of_not_closed h) (lt_irrefl _)

/-- What an accepted connection changes. -/
theorem accept_eq {config : ServerConfig} {ipKey : String} {a : Ambient}
    (h : (s.accept config crates ipKey a).1 = true) : ∃ world maintenanceTimer,
      (s.accept config crates ipKey a).2 = { s.createConnection a.handle ipKey a with
        world
        pendingHandshakes := s.pendingHandshakes + 1
        pendingHandshakesByIp := s.pendingHandshakesByIp.insert ipKey
          ((s.pendingHandshakesByIp.lookup ipKey).getD 0 + 1)
        maintenanceTimer } := by
  unfold accept at h ⊢
  split at h
  · dsimp only [scheduleMaintenance]
    split_ifs
    · exact ⟨_, _, rfl⟩
    · exact ⟨_, _, rfl⟩
  · cases h

end HostState

namespace Registry

variable {t t' : Stage} {s s' : HostState HS} {c : ConnId}

/-- A change of a connection that is neither ready nor registered. -/
theorem except (h : Registry t s) (hreg : t'.registration = t.registration)
    (hdoomed : t.doomed ⊆ insert c t'.doomed) (hc : ¬s.ready c) (hc' : ¬s'.ready c)
    (hsubject : t.registration.subject ≠ some c) (hother : ∀ d ≠ c, s'.conn d = s.conn d)
    (hrooms : s'.rooms = s.rooms) (hcore : s'.core = s.core)
    (hstates : s'.routeSyncStates = s.routeSyncStates)
    (hconnections : ∀ d, d ∈ s'.connections ↔ ¬s'.closed d) (hnodup : s'.connections.Nodup) :
    Registry t' s' := by
  have hregistered : s'.registered = s.registered := by
    unfold HostState.registered
    rw [hrooms]
  have hmember : s'.isMember = s.isMember := by
    unfold HostState.isMember
    rw [hcore]
  have hready : ∀ d, s'.ready d ↔ s.ready d := by
    intro d
    by_cases hd : d = c
    · rw [hd]
      exact iff_of_false hc' hc
    · rw [HostState.ready, hother d hd, HostState.ready]
  -- Who is registered or ready is another connection.
  have hkey : ∀ d, s.ready d ∨ t.registration.subject = some d →
      s'.routeSyncKey d = s.routeSyncKey d := by
    intro d hd
    have hne : d ≠ c := by
      rintro rfl
      exact hd.elim hc hsubject
    rw [HostState.routeSyncKey, hother d hne, HostState.routeSyncKey]
  have hsubjectOf : ∀ {d r}, t.registration = .entered d r → t.registration.subject = some d :=
    fun hd => by rw [hd]; rfl
  have haddedOf : ∀ {d}, t.registration = .added d → t.registration.subject = some d :=
    fun hd => by rw [hd]; rfl
  constructor
  · intro key d hd
    rw [hregistered] at hd
    obtain ⟨hdk, hn, hrest⟩ := h.entry key d hd
    rw [hready, hreg]
    exact ⟨(hkey d hrest).trans hdk, hn, hrest⟩
  · intro d hd
    rw [hready] at hd
    rw [hregistered, hkey d (.inl hd), hreg]
    refine (h.ready d hd).imp_right fun ⟨e, he, hek⟩ => ⟨e, he, ?_⟩
    rw [hkey e (.inr (hsubjectOf he)), hek]
  · intro d hd
    rw [hreg] at hd
    obtain ⟨hpending, hdoom, hregd⟩ := h.subject d hd
    have hne : d ≠ c := by
      rintro rfl
      exact hsubject hd
    refine ⟨?_, (hdoomed hdoom).resolve_left hne, ?_⟩
    · rw [HostState.pending, hother d hne]
      exact hpending
    · rw [hregistered, hkey d (.inr hd), hregd]
  · intro d r e hd he hek
    rw [hreg] at hd
    rw [hready] at he
    rw [hkey e (.inl he), hkey d (.inr (hsubjectOf hd))] at hek
    exact h.replaced d r e hd he hek
  · intro d e hd he
    rw [hreg] at hd
    rw [hready] at he
    rw [hkey e (.inl he), hkey d (.inr (haddedOf hd))]
    exact h.alone d e hd he
  · intro d hd
    rw [hreg] at hd
    rw [hmember, hkey d (.inr (haddedOf hd))]
    exact h.added d hd
  · intro key hm
    rw [hmember] at hm
    obtain ⟨d, hdk, hd⟩ := h.member key hm
    rw [← hreg] at hd
    refine ⟨d, ?_, hd.imp_left fun hr => (hready d).2 hr⟩
    rw [hkey d (hd.imp_right fun ha => haddedOf (hreg ▸ ha)), hdk]
  · intro d hd hnot
    rw [hready] at hd
    have hne : d ≠ c := by
      rintro rfl
      exact hc hd
    rw [hmember, hkey d (.inl hd)]
    exact h.present d hd fun hdoom => hnot ((hdoomed hdoom).resolve_left hne)
  · exact hconnections
  · exact hnodup
  · intro key state hstate
    rw [hstates] at hstate
    obtain ⟨hr, hpk⟩ := h.sync key state hstate
    exact ⟨(hready _).2 hr, (hkey _ (.inl hr)).trans hpk⟩

theorem accepted (h : Registry t s) {ipKey : String} {a : Ambient}
    (haccept : (s.accept config crates ipKey a).1 = true) :
    Registry t (s.accept config crates ipKey a).2 := by
  obtain ⟨world, timer, heq⟩ := s.accept_eq haccept
  rw [heq]
  have hclosed := s.closed_length
  have hpending := s.pending_createConnection a.handle ipKey a
  have hother : ∀ d ≠ s.conns.length, (s.createConnection a.handle ipKey a).conn d = s.conn d := by
    intro d hd
    rw [s.conn_createConnection, if_neg hd]
  have hnew : s.conns.length ∉ s.connections := fun hmem => (h.connections _).1 hmem hclosed
  refine h.except rfl (Set.subset_insert _ _) (fun hr => hr.not_closed hclosed)
    (c := s.conns.length) (fun hr => hpending.not_ready hr) ?_ hother rfl rfl rfl ?_ ?_
  · exact fun hs => (h.subject _ hs).1.not_closed hclosed
  · intro d
    change d ∈ s.connections ++ [s.conns.length] ↔ ¬(s.createConnection a.handle ipKey a).closed d
    rw [List.mem_append, List.mem_singleton, h.connections]
    by_cases hd : d = s.conns.length
    · subst hd
      exact iff_of_true (.inr rfl) hpending.not_closed
    · rw [HostState.closed, HostState.closed, hother d hd]
      exact or_iff_left hd
  · exact h.nodup.append (List.nodup_singleton _) (by simpa using hnew)

/-- A connection in its handshake is changed. -/
theorem prepared (h : Registry t s) {f : Connection → Connection} (hc : s.pending c)
    (hreg : t.registration = .none) (hreg' : t'.registration = .none)
    (hdoomed : t.doomed ⊆ insert c t'.doomed) (hf : (f (s.conn c)).phase.pending = true) :
    Registry t' (s.modifyConn c f) := by
  have hself := s.conn_modifyConn_self hc.not_closed f
  have hpending : (s.modifyConn c f).pending c := by
    rw [HostState.pending, hself]
    exact hf
  refine h.except (hreg'.trans hreg.symm) hdoomed (c := c) hc.not_ready hpending.not_ready ?_
    (fun d hd => s.conn_modifyConn_of_ne hd f) rfl rfl rfl (fun d => ?_) h.nodup
  · rw [hreg]
    exact nofun
  · refine (h.connections d).trans (not_congr ?_)
    by_cases hd : d = c
    · subst hd
      exact iff_of_false hc.not_closed hpending.not_closed
    · rw [HostState.closed, HostState.closed, s.conn_modifyConn_of_ne hd]

/-- A connection enters its room. -/
theorem entered (h : Registry t s) (hc : s.pending c) (hdoomed : c ∈ t.doomed)
    (hreg : t.registration = .none) (hname : (s.conn c).networkName ≠ "") :
    Registry (t.register (.entered c (s.registered (s.routeSyncKey c)))) (s.register c) := by
  have hregistered : ∀ key, (s.register c).registered key =
      if key = s.routeSyncKey c then some c else s.registered key := fun key =>
    RoomRegistry.get_set s.rooms _ key.1 _ key.2 c
  have hnone : ∀ d, t.registration.subject ≠ some d := by
    rw [hreg]
    exact fun d => nofun
  -- Nothing was being registered, so that a ready connection is registered.
  have hready : ∀ d, s.ready d → s.registered (s.routeSyncKey d) = some d := by
    intro d hd
    refine (h.ready d hd).resolve_right ?_
    rintro ⟨e, he, -⟩
    rw [hreg] at he
    cases he
  constructor
  · intro key d hd
    rw [hregistered] at hd
    split_ifs at hd with hkey
    · obtain rfl := Option.some.inj hd
      exact ⟨hkey.symm, hkey ▸ hname, .inr rfl⟩
    · obtain ⟨hdk, hn, hrest⟩ := h.entry key d hd
      exact ⟨hdk, hn, .inl (hrest.resolve_right (hnone d))⟩
  · intro d hd
    change (s.register c).registered (s.routeSyncKey d) = some d ∨ _
    rw [hregistered]
    split_ifs with hkey
    · refine .inr ⟨c, ?_, hkey.symm⟩
      rw [← hkey, hready d hd]
      rfl
    · exact .inl (hready d hd)
  · intro d hd
    obtain rfl := Option.some.inj hd
    refine ⟨hc, hdoomed, ?_⟩
    change (s.register c).registered (s.routeSyncKey c) = some c
    rw [hregistered, if_pos rfl]
  · intro d r e hd he hek
    obtain ⟨rfl, rfl⟩ := Registration.entered.inj hd
    have hek : s.routeSyncKey e = s.routeSyncKey c := hek
    rw [← hek]
    exact hready e he
  · intro d e hd
    cases hd
  · intro d hd
    cases hd
  · intro key hm
    obtain ⟨d, hdk, hd⟩ := h.member key hm
    refine ⟨d, hdk, .inl (hd.resolve_right ?_)⟩
    rw [hreg]
    exact nofun
  · exact h.present
  · exact h.connections
  · exact h.nodup
  · exact h.sync

/-- The peer of a connection is added to the core, once the one it replaces is closed. -/
theorem addPeer (h : Registry t s) {replaced : Option ConnId} {a : Ambient}
    (hreg : t.registration = .entered c replaced) (hclosed : ∀ r, replaced = some r → s.closed r)
    (hadd : (s.addPeer c a).1 = .ok ()) : Registry (t.register (.added c)) (s.addPeer c a).2 := by
  have hsubject : t.registration.subject = some c := by rw [hreg]; rfl
  obtain ⟨core, hcore, heq⟩ : ∃ core, s.core.addPeer (s.conn c).networkName (s.conn c).peerId
      (s.conn c).remotePublicKey a.nowMs a.groupDraws = .ok core ∧ (s.addPeer c a).2 = { s with
        core
        routeSyncStates := s.routeSyncStates.delete (s.routeSyncKey c) }.note (.added c) := by
    unfold HostState.addPeer at hadd ⊢
    dsimp only at hadd ⊢
    split at hadd
    · cases hadd
    · exact ⟨_, ‹_›, rfl⟩
  rw [heq]
  have hmember : ∀ key, key.2 ∈ core.routes.members key.1 ↔
      key = s.routeSyncKey c ∨ s.isMember key := by
    intro key
    rw [WasmRpcCore.members_addPeer hcore]
    unfold HostState.isMember HostState.routeSyncKey
    split_ifs with hn
    · rw [Finset.mem_insert, hn]
      refine or_congr_left ⟨fun hp => Prod.ext hn hp, fun hk => congrArg Prod.snd hk⟩
    · exact (or_iff_right fun hk => hn (congrArg Prod.fst hk)).symm
  constructor
  · intro key d hd
    obtain ⟨hdk, hn, hrest⟩ := h.entry key d hd
    rw [hsubject] at hrest
    exact ⟨hdk, hn, hrest⟩
  · intro d hd
    refine .inl ((h.ready d hd).resolve_right ?_)
    rintro ⟨e, he, -⟩
    obtain ⟨-, rfl⟩ := Registration.entered.inj (hreg.symm.trans he)
    exact hd.not_closed (hclosed d rfl)
  · intro d hd
    obtain rfl := Option.some.inj hd
    exact h.subject c hsubject
  · intro d r e hd
    cases hd
  · intro d e hd he hek
    obtain rfl := Registration.added.inj hd
    exact he.not_closed (hclosed e (h.replaced c replaced e hreg he hek))
  · intro d hd
    obtain rfl := Registration.added.inj hd
    exact (hmember _).2 (.inl rfl)
  · intro key hm
    rcases (hmember key).1 hm with rfl | hm
    · exact ⟨c, rfl, .inr rfl⟩
    · obtain ⟨d, hdk, hd⟩ := h.member key hm
      refine ⟨d, hdk, .inl (hd.resolve_right ?_)⟩
      rw [hreg]
      exact nofun
  · intro d hd hnot
    exact (hmember _).2 (.inr (h.present d hd hnot))
  · exact h.connections
  · exact h.nodup
  · intro key state hstate
    change (s.routeSyncStates.delete (s.routeSyncKey c)).get key = some state at hstate
    rw [JsMap.get_delete] at hstate
    split_ifs at hstate
    exact h.sync key state hstate

/-- A handshake is finished. -/
theorem completed (h : Registry t s) (hreg : t.registration = .added c) :
    Registry ((t.register .none).spare c) ((s.completeHandshake c).releaseHandshakeSlot c) := by
  obtain ⟨hpending, hdoomed, hregistered⟩ := h.subject c (by rw [hreg]; rfl)
  have hopen := hpending.not_closed
  have hself : (s.completeHandshake c).conn c = _ := s.conn_modifyConn_self hopen _
  have hother : ∀ d ≠ c, (s.completeHandshake c).conn d = s.conn d := fun d hd =>
    s.conn_modifyConn_of_ne hd _
  have hready : ∀ d, (s.completeHandshake c).ready d ↔ s.ready d ∨ d = c := by
    intro d
    by_cases hd : d = c
    · subst hd
      refine iff_of_true ?_ (.inr rfl)
      rw [HostState.ready, hself]
    · rw [HostState.ready, hother d hd]
      exact (or_iff_left hd).symm
  have hclosed : ∀ d, (s.completeHandshake c).closed d ↔ s.closed d := by
    intro d
    by_cases hd : d = c
    · subst hd
      refine iff_of_false (fun hc => ?_) hopen
      rw [HostState.closed, hself] at hc
      cases hc
    · rw [HostState.closed, hother d hd, HostState.closed]
  have hkey : ∀ d, (s.completeHandshake c).routeSyncKey d = s.routeSyncKey d := by
    intro d
    by_cases hd : d = c
    · subst hd
      rw [HostState.routeSyncKey, hself]
      rfl
    · rw [HostState.routeSyncKey, hother d hd, HostState.routeSyncKey]
  constructor
  · intro key d hd
    obtain ⟨hdk, hn, hrest⟩ := h.entry key d hd
    refine ⟨(hkey d).trans hdk, hn, .inl ((hready d).2 (hrest.imp_right fun hs => ?_))⟩
    rw [hreg] at hs
    exact (Option.some.inj hs).symm
  · intro d hd
    refine .inl ?_
    change s.registered ((s.completeHandshake c).routeSyncKey d) = some d
    rw [hkey]
    rcases (hready d).1 hd with hd | rfl
    · refine (h.ready d hd).resolve_right ?_
      rintro ⟨e, he, -⟩
      rw [hreg] at he
      cases he
    · exact hregistered
  · intro d hd
    cases hd
  · intro d r e hd
    cases hd
  · intro d e hd
    cases hd
  · intro d hd
    cases hd
  · intro key hm
    obtain ⟨d, hdk, hd⟩ := h.member key hm
    refine ⟨d, (hkey d).trans hdk, .inl ((hready d).2 (hd.imp_right fun ha => ?_))⟩
    exact (Registration.added.inj (hreg.symm.trans ha)).symm
  · intro d hd hnot
    change s.isMember ((s.completeHandshake c).routeSyncKey d)
    rw [hkey]
    by_cases hdc : d = c
    · rw [hdc]
      exact h.added c hreg
    · exact h.present d (((hready d).1 hd).resolve_right hdc) fun hmem => hnot ⟨hmem, hdc⟩
  · exact fun d => (h.connections d).trans (not_congr (hclosed d).symm)
  · exact h.nodup
  · intro key state hstate
    obtain ⟨hr, hpk⟩ := h.sync key state hstate
    exact ⟨(hready _).2 (.inl hr), (hkey _).trans hpk⟩

/-- The silent peers are removed from the core, and their connections doomed. -/
theorem swept (h : Registry t s) (hreg : t.registration = .none) (now : ℕ) (a : Ambient) :
    Registry { t with doomed := t.doomed ∪ { c | s.ready c ∧
        s!"{(s.conn c).networkName}\x1f{(s.conn c).peerId}" ∈
          (s.cleanExpired crates now a).1.deadDirectPeers } }
      (s.cleanExpired crates now a).2 := by
  have hmember : ∀ key, (s.cleanExpired crates now a).2.isMember key → s.isMember key :=
    fun key hm => ((WasmRpcCore.mem_members_cleanExpired crates.rpc).1 hm).1
  constructor
  · exact h.entry
  · exact h.ready
  · intro d hd
    change t.registration.subject = some d at hd
    rw [hreg] at hd
    cases hd
  · exact h.replaced
  · exact h.alone
  · intro d hd
    change t.registration = .added d at hd
    rw [hreg] at hd
    cases hd
  · exact fun key hm => h.member key (hmember key hm)
  · intro c hc hnot
    by_contra hgone
    refine hnot (.inr ⟨hc, ?_⟩)
    have hpresent := h.present c hc fun hmem => hnot (.inl hmem)
    exact WasmRpcCore.mem_deadDirectPeers crates.rpc hpresent hgone
  · exact h.connections
  · exact h.nodup
  · exact h.sync

/-- What was to be closed is closed. -/
theorem retired (h : Registry t s) (hclosed : ∀ c ∈ t.doomed, s.closed c) :
    Registry { t with doomed := ∅ } s where
  entry := h.entry
  ready := h.ready
  subject d hd := absurd (hclosed d (h.subject d hd).2.1) (h.subject d hd).1.not_closed
  replaced := h.replaced
  alone := h.alone
  added := h.added
  member := h.member
  present c hc _ := h.present c hc fun hmem => hc.not_closed (hclosed c hmem)
  connections := h.connections
  nodup := h.nodup
  sync := h.sync

/-! ## Steps -/

theorem quiet {a b : Stage × HostState HS} (hstep : Quiet crates a b) (h : Registry a.1 a.2) :
    Registry b.1 b.2 := by
  cases hstep with
  | consulted =>
    exact h.congr rfl Set.Subset.rfl (fun _ => rfl) (fun _ => rfl) rfl rfl (fun _ => rfl) h.sync
  | encrypted => exact @callSecure _ crates _ _ h _ _ (.encryptPacket _ _)
  | counted => exact h.modifyConn _ (fun _ => rfl) (fun _ => rfl) fun _ => rfl
  | sent => exact h.note _
  | left hc => exact (h.left hc _).close _
  | @disposed t s c =>
    have hclosed : Registry t s :=
      h.congr rfl Set.Subset.rfl (fun _ => rfl) (fun _ => rfl) rfl rfl (fun _ => rfl) h.sync
    exact hclosed.disposeConnection _ _
  | announced hc => exact (h.announce hc _).flush _
  | rebuilt => exact (h.rebuild _ _ _ _).flush _
  | unbuilt => exact ((h.rebuild _ _ _ _).flush _).doom _
  | @unsent t s c => exact (unsend (t := t) (s := s) h _ _).doom c

/-- Every step keeps the books. -/
theorem step {a b : Stage × HostState HS} (hstep : Step config crates a b) (h : Registry a.1 a.2) :
    Registry b.1 b.2 := by
  cases hstep with
  | quiet hquiet => exact h.quiet hquiet
  | kept =>
    exact h.congr rfl Set.Subset.rfl (fun _ => rfl) (fun _ => rfl) rfl rfl (fun _ => rfl) h.sync
  | named => exact h.core fun n => RouteState.members_myPeerRouteId _ _ n _
  | accepted _ _ _ haccept => exact h.accepted haccept
  | opened => exact h.doom _
  | received => exact h.note _
  | called => exact @callSecure _ crates _ _ h _ _ _
  | decrypted => exact @callSecure _ crates _ _ h _ _ (.decryptPacket _ _)
  | answered => exact h.note _
  | forwarded => exact h.note _
  | prepared hc _ hreg hf =>
    exact h.prepared hc hreg hreg (Set.subset_insert _ _) (by rw [hf.phase]; exact hc)
  | greeted hc hreg =>
    refine h.prepared hc hreg hreg (fun d hd => ?_) rfl
    exact or_iff_not_imp_left.2 fun hne => ⟨hd, hne⟩
  | entered hc hdoomed hreg hname => exact h.entered hc hdoomed hreg hname
  | added hreg hclosed hadd => exact h.addPeer hreg hclosed hadd
  | completed _ hreg => exact h.completed hreg
  | abandoned hc hreg => exact (h.abandoned hc hreg).close _
  | requested => exact h.core fun n => WasmRpcCore.members_handleRequest crates.rpc _ _ _ _ _ _ _ n
  | responded =>
    exact (h.core fun n => WasmRpcCore.members_handleResponse crates.rpc _ _ _ _ _ _ n).flush _
  | @settled t s => exact (settle (t := t) (s := s) h _ _).flush _
  | unsettled => exact h.flush _
  | swept hreg => exact h.swept hreg _ _
  | @expired t s => exact (expire (t := t) (s := s) h _).flush _
  | retired hclosed => exact h.retired hclosed

end Registry

end Host

end EasyTierEdge
