import EasyTierEdge.Host.Server

/-!
# The steps of an event

An event of the server is not one step: between its beginning and its end connections are
registered and replaced, peers removed and added, updates built and lost, and what the layers
know of each other is out of step. The steps that an event is made of are those of a
relation (`Step`) between situations: the state of the server, and a `Stage` that remembers
what is unfinished. The steps of closings and route updates, which may come in between at many
places, are a part of it (`Quiet`).

Between two events nothing is unfinished (`Stage.idle`).
-/

namespace EasyTierEdge

namespace Host

variable {HS : Type}

/-! ## What was done for a connection -/

/-- The call on the `SecurePeer` of a connection that an effect is. -/
def Effect.callOn (c : ConnId) : Effect → Option (Call × Output)
  | .secure d call output => if d = c then some (call, output) else none
  | _ => none

/-- The call is for a frame of a finished handshake. -/
def Traffic : Call → Prop
  | .encryptPacket _ _ | .decryptPacket _ _ => True
  | .readMsg1 _ | .buildMsg2 _ _ | .finishMsg3 _ _ => False

/-- The frame of a connection whose handling an effect is. -/
def Effect.frameOf (c : ConnId) : Effect → Option Bytes
  | .received d frame => if d = c then some frame else none
  | _ => none

namespace HostState

variable (s : HostState HS)

/-- The calls on the `SecurePeer` of a connection so far, with what they returned. -/
def callsOn (c : ConnId) : List (Call × Output) := s.trace.filterMap (Effect.callOn c)

/-- The frames of a connection handled so far. -/
def framesOf (c : ConnId) : List Bytes := s.trace.filterMap (Effect.frameOf c)

def ready (c : ConnId) : Prop := (s.conn c).phase = .ready

/-- The handshake of a connection is unfinished. -/
def pending (c : ConnId) : Prop := (s.conn c).phase.pending = true

def closed (c : ConnId) : Prop := (s.conn c).phase = .closed

/-- Whether an update for a peer waits for its response. -/
def inFlight (key : PeerKey) : Bool := (s.routeSyncStates.get key).any (·.inFlight)

end HostState

/-! ## Handshakes

What is known of a handshake from the calls on the `SecurePeer` of a connection, its frames, and
what the host keeps of it. -/

/-- Messages 1 and 2 of a Noise handshake: the calls for the frame `msg1` of a client, with the
    answer `info` and the secret of its network. -/
structure Greeting (config : ServerConfig) (calls : List (Call × Output)) (msg1 : Bytes)
    (info : Msg1Info) : Prop where
  mode : config.connectionMode = .secure
  calls : ∃ networkSecret draws msg2, config.rooms.lookup info.networkName = some networkSecret ∧
    calls = [(.readMsg1 msg1, .msg1 (.ok info)),
      (.buildMsg2 networkSecret draws, .frame (.ok msg2))]

/-- Message 2 was sent to a connection. -/
def Greeted (config : ServerConfig) (calls : List (Call × Output)) (frames : List Bytes)
    (conn : Connection) : Prop :=
  ∃ msg1 info, Greeting config calls msg1 info ∧ frames = [msg1] ∧ conn.mode = .secure ∧
    conn.networkName = info.networkName ∧ conn.peerId = info.peerId

/-- A Noise handshake was finished. -/
def NoiseDone (config : ServerConfig) (calls : List (Call × Output)) (frames : List Bytes)
    (conn : Connection) : Prop :=
  ∃ greeting msg1 info msg3 confirmMs auth, Greeting config greeting msg1 info ∧
    calls = greeting ++ [(.finishMsg3 msg3 confirmMs, .auth (.ok auth))] ∧
    frames = [msg1, msg3] ∧ conn.mode = .secure ∧
    conn.networkName = info.networkName ∧ conn.peerId = info.peerId

/-- A connection proved its network by a digest in its first frame. -/
def LegacyDone (config : ServerConfig) (crates : HostCrates HS) (calls : List (Call × Output))
    (frames : List Bytes) (conn : Connection) : Prop :=
  ∃ frame value info networkSecret, config.connectionMode = .legacy ∧ calls = [] ∧
    frames = [frame] ∧
    parseLegacyHandshake crates.handshake crates.secure.base64Encode frame = .ok value ∧
    parseLegacyHandshakeInfo crates value = .ok info ∧
    config.rooms.lookup info.networkName = some networkSecret ∧
    verifyNetworkSecretDigest info.networkSecretDigest info.networkName networkSecret = .ok true ∧
    conn.mode = .legacy ∧ conn.networkName = info.networkName ∧ conn.peerId = info.peerId

/-- A handshake is finished. -/
def HandshakeDone (config : ServerConfig) (crates : HostCrates HS) (calls : List (Call × Output))
    (frames : List Bytes) (conn : Connection) : Prop :=
  NoiseDone config calls frames conn ∨ LegacyDone config crates calls frames conn

/-! ## What is unfinished -/

/-- How far the registration of a connection is. -/
inductive Registration
  | none
  /-- The connection is in its room, perhaps in the place of another one, which has to be
      closed. -/
  | entered (c : ConnId) (replaced : Option ConnId)
  /-- The peer of the connection is added to the core. -/
  | added (c : ConnId)

/-- The connection that is being registered. -/
def Registration.subject : Registration → Option ConnId
  | .none => Option.none
  | .entered c _ | .added c => some c

/-- What is unfinished. -/
structure Stage where
  registration : Registration
  /-- No update for the peer of this connection is in flight, and one may have to be built. -/
  flushing : Option ConnId
  /-- The connections that are closed before the event ends, or set right. -/
  doomed : Set ConnId
  /-- The connections that are closed but not disposed yet, the last one first. -/
  closing : List ConnId

/-- Nothing is unfinished. -/
def Stage.idle : Stage := ⟨.none, none, ∅, []⟩

namespace Stage

variable (t : Stage)

def doom (c : ConnId) : Stage := { t with doomed := insert c t.doomed }

def spare (c : ConnId) : Stage := { t with doomed := t.doomed \ {c} }

def flush (c : Option ConnId) : Stage := { t with flushing := c }

def register (r : Registration) : Stage := { t with registration := r }

def close (c : ConnId) : Stage := { t with closing := c :: t.closing }

end Stage

/-! ## Steps -/

variable (config : ServerConfig) (crates : HostCrates HS)

/-- The steps of closings and route updates. -/
inductive Quiet : Stage × HostState HS → Stage × HostState HS → Prop
  /-- The ambient is consulted. -/
  | consulted {t : Stage} {s : HostState HS} : Quiet (t, s) (t, s.tick)
  /-- A packet for a ready connection is encrypted. -/
  | encrypted {t : Stage} {s : HostState HS} {c : ConnId} {h : Handle} {packet : Bytes}
      {clock : PacketClock} : s.ready c → (s.conn c).secure = some h →
      Quiet (t, s) (t, (s.callSecure crates c h (.encryptPacket packet clock)).2)
  /-- What an open connection is sent counts. -/
  | counted {t : Stage} {s : HostState HS} {c : ConnId} {startedAt bytes frames : ℕ} :
      ¬s.closed c →
      Quiet (t, s) (t, s.modifyConn c (·.withWindow startedAt bytes frames))
  /-- A ready connection is sent a frame of the relay. -/
  | sent {t : Stage} {s : HostState HS} {c : ConnId} {frame : Bytes} : s.ready c →
      Quiet (t, s) (t, s.note (.sent c frame .relay))
  /-- A ready connection is closed. -/
  | left {t : Stage} {s : HostState HS} {c : ConnId} {a : Ambient} : s.ready c →
      Quiet (t, s) (t.close c, (s.unregister c).removePeer crates c a)
  /-- The connection that was closed last is disposed. -/
  | disposed {t : Stage} {s : HostState HS} {c : ConnId} {a : Ambient} : s.closed c →
      Quiet (t.close c, s) (t, s.disposeConnection crates c a)
  /-- A change of the routes is announced to a ready connection. -/
  | announced {t : Stage} {s : HostState HS} {c : ConnId} {forceFull : Bool} : s.ready c →
      t.flushing = none →
      Quiet (t, s) (t.flush (if s.inFlight (s.routeSyncKey c) then none else some c),
        s.announce c forceFull)
  /-- An update is built. -/
  | rebuilt {t : Stage} {s : HostState HS} {c : ConnId} {state : RouteSyncState} {a : Ambient}
      {now : ℕ} {packet : Bytes} : t.flushing = some c → s.ready c → state.peer = c →
      s.routeSyncStates.get (s.routeSyncKey c) = some state → now < 8640000000000001 →
      (s.rebuild crates (s.routeSyncKey c) state now a).1 = .ok packet →
      Quiet (t, s) (t.flush none, (s.rebuild crates (s.routeSyncKey c) state now a).2)
  /-- An update cannot be built. -/
  | unbuilt {t : Stage} {s : HostState HS} {c : ConnId} {state : RouteSyncState} {a : Ambient}
      {now : ℕ} {e : String} : t.flushing = some c → s.ready c → state.peer = c →
      s.routeSyncStates.get (s.routeSyncKey c) = some state →
      (s.rebuild crates (s.routeSyncKey c) state now a).1 = .error e →
      Quiet (t, s) ((t.flush none).doom c, (s.rebuild crates (s.routeSyncKey c) state now a).2)
  /-- An update that was built cannot be sent. -/
  | unsent {t : Stage} {s : HostState HS} {c : ConnId} {forceFull : Bool} : s.ready c →
      t.flushing = none → Quiet (t, s) (t.doom c, s.unsend (s.routeSyncKey c) forceFull)

/-- A change of a connection that leaves its phase and its resources. -/
structure Prepares (f : Connection → Connection) : Prop where
  phase : ∀ conn, (f conn).phase = conn.phase
  clientIp : ∀ conn, (f conn).clientIp = conn.clientIp
  secure : ∀ conn, (f conn).secure = conn.secure

/-- The steps that events are made of. -/
inductive Step : Stage × HostState HS → Stage × HostState HS → Prop
  | quiet {a b : Stage × HostState HS} : Quiet crates a b → Step a b
  /-- What no other part of the server depends on is changed. -/
  | kept {t : Stage} {s : HostState HS} {persistedRouteIds resyncPendingNetworks : Finset String}
      {maintenanceTimer : Bool} {ambient : ℕ → Ambient} :
      Step (t, s) (t, { s with persistedRouteIds, resyncPendingNetworks, maintenanceTimer, ambient })
  /-- The route id of a network is read. -/
  | named {t : Stage} {s : HostState HS} {networkName : String} {a : Ambient} :
      Step (t, s) (t, (s.getPeerRouteId networkName a).2)
  /-- A connection is accepted. -/
  | accepted {t : Stage} {s : HostState HS} {ipKey : String} {a : Ambient} :
      s.connections.length < maxConnections → s.pendingHandshakes < maxPendingHandshakes →
      (s.pendingHandshakesByIp.lookup ipKey).getD 0 < config.maxPendingPerIp →
      (s.accept config crates ipKey a).1 = true →
      Step (t, s) (t, (s.accept config crates ipKey a).2)
  /-- The handshake of a connection goes on: if it fails, the connection is closed. -/
  | opened {t : Stage} {s : HostState HS} {c : ConnId} : s.pending c →
      Step (t, s) (t.doom c, s)
  /-- A frame is handled: in a handshake the connection is closed if it fails. -/
  | received {t : Stage} {s : HostState HS} {c : ConnId} {frame : Bytes} :
      ¬s.closed c → (s.pending c → c ∈ t.doomed) →
      Step (t, s) (t, s.note (.received c frame))
  /-- The `SecurePeer` of a connection is called in its handshake. -/
  | called {t : Stage} {s : HostState HS} {c : ConnId} {h : Handle} {call : Call} : s.pending c →
      c ∈ t.doomed → (s.conn c).secure = some h →
      Step (t, s) (t, (s.callSecure crates c h call).2)
  /-- A packet of a ready connection is decrypted. -/
  | decrypted {t : Stage} {s : HostState HS} {c : ConnId} {h : Handle} {packet : Bytes}
      {clock : PacketClock} : s.ready c → (s.conn c).secure = some h →
      Step (t, s) (t, (s.callSecure crates c h (.decryptPacket packet clock)).2)
  /-- The answer of a handshake is sent. -/
  | answered {t : Stage} {s : HostState HS} {c : ConnId} {frame : Bytes} : s.pending c →
      Step (t, s) (t, s.note (.sent c frame .relay))
  /-- A frame of a ready connection is forwarded to another one. -/
  | forwarded {t : Stage} {s : HostState HS} {c target : ConnId} {frame : Bytes} : s.ready target →
      Step (t, s) (t, s.note (.sent target frame (.peer c)))
  /-- What a handshake tells about a connection is kept. -/
  | prepared {t : Stage} {s : HostState HS} {c : ConnId} {f : Connection → Connection} :
      s.pending c → c ∈ t.doomed → t.registration = .none → Prepares f →
      Step (t, s) (t, s.modifyConn c f)
  /-- Message 2 is sent. -/
  | greeted {t : Stage} {s : HostState HS} {c : ConnId} : s.pending c → t.registration = .none →
      Greeted config (s.callsOn c) (s.framesOf c) (s.conn c) →
      Step (t, s) (t.spare c, s.modifyConn c fun conn => { conn with phase := .msg3 })
  /-- A connection enters its room. -/
  | entered {t : Stage} {s : HostState HS} {c : ConnId} : s.pending c → c ∈ t.doomed →
      t.registration = .none → (s.conn c).networkName ≠ "" →
      Step (t, s) (t.register (.entered c (s.rooms.get (s.conn c).networkName (s.conn c).peerId)),
        s.register c)
  /-- The peer of a connection is added to the core. -/
  | added {t : Stage} {s : HostState HS} {c : ConnId} {replaced : Option ConnId} {a : Ambient} :
      t.registration = .entered c replaced → (∀ r, replaced = some r → s.closed r) →
      (s.addPeer c a).1 = .ok () →
      Step (t, s) (t.register (.added c), (s.addPeer c a).2)
  /-- A handshake is finished. -/
  | completed {t : Stage} {s : HostState HS} {c : ConnId} : s.pending c →
      t.registration = .added c →
      HandshakeDone config crates (s.callsOn c) (s.framesOf c) (s.conn c) →
      Step (t, s) ((t.register .none).spare c, (s.completeHandshake c).releaseHandshakeSlot c)
  /-- A connection is closed before its handshake is finished. -/
  | abandoned {t : Stage} {s : HostState HS} {c : ConnId} : s.pending c →
      (t.registration = .none ∨
        ∃ replaced, t.registration = .entered c replaced ∧ ∀ r, replaced = some r → s.closed r) →
      Step (t, s) ((t.register .none).close c, s.unregister c)
  /-- A call of a peer is served. -/
  | requested {t : Stage} {s : HostState HS} {c : ConnId} {payload : Bytes} {a : Ambient} :
      s.ready c → Step (t, s) (t, (s.handleRequest crates c payload a).2)
  /-- A response of a peer is read. -/
  | responded {t : Stage} {s : HostState HS} {c : ConnId} {payload : Bytes} {a : Ambient} :
      s.ready c → t.flushing = none →
      Step (t, s) (t.flush (if (s.handleResponse crates c payload a).1 = .ok true then some c
        else none), (s.handleResponse crates c payload a).2)
  /-- The update in flight is completed. -/
  | settled {t : Stage} {s : HostState HS} {c : ConnId} {state : RouteSyncState} {now : ℕ} :
      t.flushing = some c → s.ready c →
      s.routeSyncStates.get (s.routeSyncKey c) = some state →
      Step (t, s) (t.flush (if state.dirty || state.forceFull then some c else none),
        s.settle (s.routeSyncKey c) now)
  /-- There is nothing to complete. -/
  | unsettled {t : Stage} {s : HostState HS} {c : ConnId} : t.flushing = some c →
      s.routeSyncStates.get (s.routeSyncKey c) = none → Step (t, s) (t.flush none, s)
  /-- What has expired is swept, and the connections of the silent peers are to be closed. -/
  | swept {t : Stage} {s : HostState HS} {now : ℕ} {a : Ambient} : t.registration = .none →
      Step (t, s)
        ({ t with doomed := t.doomed ∪ { c | s.ready c ∧
            s!"{(s.conn c).networkName}\x1f{(s.conn c).peerId}" ∈
              (s.cleanExpired crates now a).1.deadDirectPeers } },
          (s.cleanExpired crates now a).2)
  /-- An update that was not answered in time is given up. -/
  | expired {t : Stage} {s : HostState HS} {key : PeerKey} {state : RouteSyncState} {now : ℕ} :
      t.flushing = none → s.routeSyncStates.get key = some state → state.inFlight = true →
      (routeSyncTimeoutMs : ℤ) < (now : ℤ) - state.sentAt → now < 8640000000000001 →
      (∀ k o, s.core.outstandingRoutes.lookup k = some o → UInt64.ofNat now ≤ o.deadlineMs) →
      Step (t, s) (t.flush (some state.peer), s.expire key)
  /-- All that was to be closed is closed. -/
  | retired {t : Stage} {s : HostState HS} : (∀ c ∈ t.doomed, s.closed c) →
      Step (t, s) ({ t with doomed := ∅ }, s)

end Host

end EasyTierEdge
