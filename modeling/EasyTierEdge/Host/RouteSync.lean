import EasyTierEdge.Host.Connection

/-!
# Route updates of the host

`EasyTierRpc` of `src/core/rpc.ts`: the host's side of the core. For every peer it
remembers whether a route update is in flight, and what was announced since it was
built. An update that is announced is built at once, unless one is in flight; then it is
built when that one completes or times out (`flushRouteUpdate`).
-/

namespace EasyTierEdge

namespace Host

variable {HS : Type} (crates : HostCrates HS)

/-- A peer whose connection must be closed. -/
structure RouteSyncFailure where
  networkName : String
  peerId : ℕ
  deriving DecidableEq

/-- What a request of a peer led to. -/
inductive RequestResult
  | handled
  | route
  | routeSession
  | pending
  deriving DecidableEq

/-- The update is in flight, with all that was announced. -/
def RouteSyncState.launch (state : RouteSyncState) (now : ℕ) : RouteSyncState :=
  { state with dirty := false, forceFull := false, inFlight := true, sentAt := now }

namespace HostState

variable (s : HostState HS)

def modifySync (key : PeerKey) (f : RouteSyncState → RouteSyncState) : HostState HS :=
  { s with routeSyncStates := s.routeSyncStates.modify key f }

/-- The peer of a connection added to the core: nothing was ever sent to it. -/
def addPeer (c : ConnId) (a : Ambient) : Except String Unit × HostState HS :=
  let conn := s.conn c
  match s.core.addPeer conn.networkName conn.peerId conn.remotePublicKey a.nowMs a.groupDraws with
  | .error e => (.error e, s)
  | .ok core =>
    (.ok (), { s with
      core
      routeSyncStates := s.routeSyncStates.delete (s.routeSyncKey c) }.note (.added c))

/-- The peer of a connection removed from the core. -/
def removePeer (c : ConnId) (a : Ambient) : HostState HS :=
  let conn := s.conn c
  { s with
    core := s.core.removePeer crates.rpc conn.networkName conn.peerId a.groupDraws
    routeSyncStates := s.routeSyncStates.delete (s.routeSyncKey c) }.note (.removed c)

/-- A change of the routes announced to the peer of a connection. -/
def announce (c : ConnId) (forceFull : Bool) : HostState HS :=
  let key := s.routeSyncKey c
  let state := (s.routeSyncStates.get key).getD
    { peer := c, inFlight := false, dirty := false, forceFull := false, sentAt := 0,
      lastCompletedAt := 0 }
  { s with
    routeSyncStates := s.routeSyncStates.set key
      { state with peer := c, dirty := true, forceFull := state.forceFull || forceFull } }.note
    (.announced c forceFull)

/-- An update built for the peer under `key`: once there is one, it is in flight. -/
def rebuild (key : PeerKey) (state : RouteSyncState) (now : ℕ) (a : Ambient) :
    Except String Bytes × HostState HS :=
  let conn := s.conn state.peer
  let (result, core) := s.core.buildRouteUpdate crates.rpc conn.networkName conn.peerId
    conn.serverSessionId state.forceFull (UInt64.ofNat now) a.groupDraws a.transactionIds
  match result with
  | .error e => (.error e, { s with core })
  | .ok packet =>
    (.ok packet, ({ s with core }.modifySync key (·.launch now)).note
      (.built state.peer state.forceFull))

/-- The core's part of building an update. -/
def buildRouteUpdate (state : RouteSyncState) (now : ℕ) (a : Ambient) :
    Except String Bytes × WasmRpcCore :=
  s.core.buildRouteUpdate crates.rpc (s.conn state.peer).networkName (s.conn state.peer).peerId
    (s.conn state.peer).serverSessionId state.forceFull (UInt64.ofNat now) a.groupDraws
    a.transactionIds

/-- Either an update is built and in flight, or only the core has changed. -/
theorem rebuild_cases (key : PeerKey) (state : RouteSyncState) (now : ℕ) (a : Ambient) :
    (∃ e, (s.buildRouteUpdate crates state now a).1 = .error e ∧ s.rebuild crates key state now a =
      (.error e, { s with core := (s.buildRouteUpdate crates state now a).2 })) ∨
    ∃ packet, (s.buildRouteUpdate crates state now a).1 = .ok packet ∧
      s.rebuild crates key state now a =
        (.ok packet, ({ s with core := (s.buildRouteUpdate crates state now a).2 }.modifySync key
          (·.launch now)).note (.built state.peer state.forceFull)) := by
  have hrebuild : s.rebuild crates key state now a =
      match (s.buildRouteUpdate crates state now a).1 with
      | .error e => (.error e, { s with core := (s.buildRouteUpdate crates state now a).2 })
      | .ok packet => (.ok packet, ({ s with
          core := (s.buildRouteUpdate crates state now a).2 }.modifySync key (·.launch now)).note
            (.built state.peer state.forceFull)) := rfl
  rw [hrebuild]
  cases (s.buildRouteUpdate crates state now a).1 with
  | error e => exact .inl ⟨e, rfl, rfl⟩
  | ok packet => exact .inr ⟨packet, rfl, rfl⟩

/-- An update that could not be sent. -/
def unsend (key : PeerKey) (forceFull : Bool) : HostState HS :=
  s.modifySync key fun state =>
    { state with inFlight := false, dirty := true, forceFull := state.forceFull || forceFull }

/-- An update that was not answered in time. -/
def expire (key : PeerKey) : HostState HS :=
  s.modifySync key fun state => { state with inFlight := false, dirty := true, forceFull := true }

/-- An update that was answered. -/
def settle (key : PeerKey) (now : ℕ) : HostState HS :=
  s.modifySync key fun state =>
    { state with inFlight := false, sentAt := 0, lastCompletedAt := now }

/-- A call of a peer, served by the core. -/
def handleRequest (c : ConnId) (payload : Bytes) (a : Ambient) :
    Except String Bytes × HostState HS :=
  let conn := s.conn c
  let (result, core) := s.core.handleRequest crates.rpc conn.networkName conn.peerId payload a.nowMs
    a.clockMs a.groupDraws
  (result, { s with core })

/-- A response of a peer, read by the core. -/
def handleResponse (c : ConnId) (payload : Bytes) (a : Ambient) :
    Except String Bool × HostState HS :=
  let conn := s.conn c
  let (result, core) := s.core.handleResponse crates.rpc conn.networkName conn.peerId payload
    a.nowMs a.groupDraws
  (result, { s with core })

def cleanExpired (now : ℕ) (a : Ambient) : RouteState.SweepOutcome × HostState HS :=
  let (outcome, core) := s.core.cleanExpired crates.rpc (UInt64.ofNat now) a.clockMs
  (outcome, { s with core })

/-- The route id of a network, which is drawn when the network is new. -/
def getPeerRouteId (networkName : String) (a : Ambient) : UInt64 × HostState HS :=
  let (routeId, routes) := s.core.routes.myPeerRouteId networkName a.groupDraws
  (routeId, { s with core := { s.core with routes } })

end HostState

def addPeer (c : ConnId) : Action HS Unit := do
  let a ← consult
  .ofExcept (← modifyGet (·.addPeer c a))

def removePeer (c : ConnId) : Action HS Unit := do
  let a ← consult
  modify (·.removePeer crates c a)

/-- The next hop to a peer, `0` when there is none. -/
def getNextHop (networkName : String) (peerId : UInt32) : Action HS UInt32 := do
  return ((← get).core.routes.getNextHop networkName peerId).getD 0

def getPeerRouteId (networkName : String) : Action HS UInt64 := do
  let a ← consult
  modifyGet (·.getPeerRouteId networkName a)

def sendControl (c : ConnId) (packetType : ℕ) (payload : Bytes) : Action HS Unit := do
  let clear ← .ofExcept
    (createPacket serverPeerId.toNat ((← get).conn c).peerId.toNat packetType payload)
  sendConnection c (← encrypt crates c clear) .relay

def flushRouteUpdate (key : PeerKey) (now : ℕ) : Action HS Unit := do
  match (← get).routeSyncStates.get key with
  | none => return
  | some state =>
    if state.inFlight || (!state.dirty && !state.forceFull) then return
    let a ← consult
    let packet ← .ofExcept (← modifyGet (·.rebuild crates key state now a))
    try
      sendControl crates state.peer PacketType.rpcReq packet
    catch e =>
      modify (·.unsend key state.forceFull)
      throw e

def sendRouteUpdate (c : ConnId) (forceFull : Bool) : Action HS Unit := do
  modify (·.announce c forceFull)
  let key := (← get).routeSyncKey c
  let a ← consult
  flushRouteUpdate crates key a.now

/-- `"network\x1fpeer"`, as the core reports a silent peer; the last separator counts, and
    the network must not be empty. -/
def parseDeadPeer (entry : String) : Option RouteSyncFailure :=
  let peerId := (entry.toList.reverse.takeWhile (· ≠ '\x1f')).reverse
  let networkName := entry.toList.take (entry.toList.length - peerId.length - 1)
  if networkName = [] then none
  else (String.ofList peerId).toNat?.map fun peerId =>
    { networkName := String.ofList networkName, peerId }

/-- A silent peer is recognised in the report of the core. -/
theorem parseDeadPeer_eq {network : String} (h : network ≠ "") (pid : UInt32) :
    parseDeadPeer s!"{network}\x1f{pid}" = some ⟨network, pid.toNat⟩ := by
  have hlist : (s!"{network}\x1f{pid}").toList =
      network.toList ++ '\x1f' :: (Nat.repr pid.toNat).toList := by
    change (network ++ "\x1f" ++ Nat.repr pid.toNat).toList = _
    simp
  -- A number is written without a separator.
  have hdigits : '\x1f' ∉ (Nat.repr pid.toNat).toList := by
    rw [Nat.toList_repr]
    exact fun hmem => absurd (Nat.isDigit_of_mem_toDigits (by decide) (by decide) hmem) (by decide)
  have htail : ((network.toList ++ '\x1f' :: (Nat.repr pid.toNat).toList).reverse.takeWhile
      (· ≠ '\x1f')).reverse = (Nat.repr pid.toNat).toList := by
    rw [List.reverse_append, List.reverse_cons, List.append_assoc, List.takeWhile_append_of_pos]
    · simp
    · intro c hc
      rw [List.mem_reverse] at hc
      simpa using fun heq : c = '\x1f' => hdigits (heq ▸ hc)
  have hlength : (network.toList ++ '\x1f' :: (Nat.repr pid.toNat).toList).length -
      (Nat.repr pid.toNat).toList.length - 1 = network.toList.length := by
    rw [List.length_append, List.length_cons]
    omega
  have hname : network.toList ≠ [] := by simpa using h
  simp only [parseDeadPeer]
  rw [hlist, htail, hlength, List.take_left' rfl, if_neg hname, String.ofList_toList,
    String.ofList_toList, Nat.toNat?_repr]
  rfl

/-- An update that was not answered in time is built again. -/
def retry (now : ℕ) (key : PeerKey) : Action HS (List RouteSyncFailure) := do
  match (← get).routeSyncStates.get key with
  | none => return []
  | some state =>
    if !state.inFlight || (now : ℤ) - state.sentAt ≤ routeSyncTimeoutMs then return []
    modify (·.expire key)
    try
      flushRouteUpdate crates key now
      pure []
    catch _ =>
      let conn := (← get).conn state.peer
      pure [{ networkName := conn.networkName, peerId := conn.peerId.toNat }]

/-- The networks whose routes expired, and the peers whose connections must be closed. -/
def cleanExpired (now : ℕ) : Action HS (List String × List RouteSyncFailure) := do
  let a ← consult
  let outcome ← modifyGet (·.cleanExpired crates now a)
  let failures := outcome.deadDirectPeers.filterMap parseDeadPeer
  let keys := (← get).routeSyncStates.entries.map Prod.fst
  return (outcome.routeChangedNetworks, failures ++ (← Prog.gather (retry crates now) keys))

def handleRequest (c : ConnId) (payload : Bytes) : Action HS RequestResult := do
  let a ← consult
  let result ← .ofExcept (← modifyGet (·.handleRequest crates c payload a))
  if result.head? = some 0 then return .pending
  if result.length = 1 then
    throw "WASM RPC core returned an empty response"
  sendControl crates c PacketType.rpcResp (result.drop 1)
  if result.head? = some resultRoute then
    sendRouteUpdate crates c false
    return .route
  if result.head? = some resultRouteSession then
    sendRouteUpdate crates c false
    return .routeSession
  if result.head? ≠ some resultHandled then
    throw ("WASM RPC core returned unknown result " ++
      (result.head?.map toString).getD "undefined")
  return .handled

/-- A response of a peer: when it completes the update in flight, and more was announced
    meanwhile, the next update is built. -/
def handleResponse (c : ConnId) (payload : Bytes) : Action HS Unit := do
  let a ← consult
  let complete ← .ofExcept (← modifyGet (·.handleResponse crates c payload a))
  if !complete then return
  let key := (← get).routeSyncKey c
  match (← get).routeSyncStates.get key with
  | none => return
  | some state =>
    let a ← consult
    modify (·.settle key a.now)
    if state.dirty || state.forceFull then
      let a ← consult
      flushRouteUpdate crates key a.now

/-- A peer hears from the relay from time to time. -/
def maintainPeer (c : ConnId) (now : ℕ) : Action HS Unit := do
  match (← get).routeSyncStates.get ((← get).routeSyncKey c) with
  | none => return
  | some state =>
    if state.inFlight ||
        (now : ℤ) - state.lastCompletedAt < routeMaintenanceIntervalMs then return
    sendRouteUpdate crates c false

end Host

end EasyTierEdge
