import EasyTierEdge.Secure.Peer

/-!
# What the methods of a connection do

The methods of `SecurePeer`, by what they do to the connection and to the stored
sessions.

* `encryptPacket_eq`, `decryptPacket_eq`: on an authenticated connection, packets
  are encrypted and decrypted by its stored session alone (`StoredSession.encrypt`
  and `StoredSession.decrypt`), which is saved afterwards; what the connection has
  cached of it does not matter;
* `buildMsg2_cases`, `finishMsg3_cases`, `readMsg1_eq_ok`: the outcomes of the
  messages of the handshake.
-/

namespace EasyTierEdge

variable {HS : Type} (c : Crates HS)

/-! ## A session as one object -/

namespace StoredSession

/-- The session with the traffic state `t`, saved at `ms`. -/
def save (s : StoredSession) (t : TrafficState) (ms : UInt64) : StoredSession :=
  { s with toTrafficState := t, lastTouchMs := ms }

/-- Encrypting a packet of `server` to `client`. -/
def encrypt (s : StoredSession) (server client : UInt32) (packet : Bytes) (clock : PacketClock) :
    Except SecureError Bytes × StoredSession :=
  match splitPacket packet with
  | .error m => (.error (.packet m), s)
  | .ok (header, payload) =>
    if header.fromPeerId ≠ server || header.toPeerId ≠ client then (.error .notAddressed, s)
    else if header.encrypted then (.error .alreadyEncrypted, s)
    else
      let (result, t) := s.encryptPayload c (some s.rootKey) serverEncryptionAlgorithm
        (directionIndex server client) payload clock.payloadMs
      (result.map fun encrypted =>
          joinHeaderPayload { header with flags := header.flags ||| encryptedFlag } encrypted,
        s.save t clock.persistMs)

/-- The clear packet of a decrypted payload; nothing when it is dropped. -/
def clearPacket (header : PacketHeader) : Option Bytes → Bytes
  | none => []
  | some plaintext =>
    joinHeaderPayload { header with flags := header.flags &&& ~~~encryptedFlag } plaintext

/-- Decrypting a packet of `client` to `server`. -/
def decrypt (s : StoredSession) (server client : UInt32) (algorithm : String) (packet : Bytes)
    (clock : PacketClock) : Except SecureError Bytes × StoredSession :=
  match splitPacket packet with
  | .error m => (.error (.packet m), s)
  | .ok (header, payload) =>
    if header.fromPeerId ≠ client || header.toPeerId ≠ server then (.error .notAddressed, s)
    else if !header.encrypted then (.ok packet, s)
    else
      let (result, t) := s.decryptPayload c (some s.rootKey) algorithm
        (directionIndex client server) payload clock.payloadMs
      (result.map (clearPacket header), s.save t clock.persistMs)

/-- The session with one more connection, if it can count it. -/
def attach (s : StoredSession) (ms : UInt64) : Option StoredSession :=
  (s.attachments.checkedAdd 1).map fun attachments =>
    { s with attachments, lastTouchMs := ms }

theorem attach_eq_none {s : StoredSession} {ms : UInt64} :
    s.attach ms = none ↔ s.attachments.toNat = 2 ^ 32 - 1 := by
  rw [attach, Option.map_eq_none_iff, UInt32.checkedAdd_one_eq_none]

/-- Attaching changes the count of connections and the time of last use only. -/
theorem eq_of_attach {s s' : StoredSession} {ms : UInt64} (h : s.attach ms = some s') :
    s' = { s with attachments := s'.attachments, lastTouchMs := ms } := by
  obtain ⟨attachments, -, rfl⟩ := Option.map_eq_some_iff.1 h
  rfl

/-- The session with one connection less. -/
def detach (s : StoredSession) (ms : UInt64) : StoredSession :=
  { s with attachments := s.attachments.saturatingSub 1, lastTouchMs := ms }

/-- The session bound to the client's static key. -/
def confirm (s : StoredSession) (remotePublicKey : Key32) (ms : UInt64) : StoredSession :=
  { s with remotePublicKey := some remotePublicKey, lastTouchMs := ms }

end StoredSession

/-- `packet` is a clear packet of `server` to `client`. -/
structure Outgoing (server client : UInt32) (packet : Bytes) (header : PacketHeader)
    (payload : Bytes) : Prop where
  split : splitPacket packet = .ok (header, payload)
  fromPeerId : header.fromPeerId = server
  toPeerId : header.toPeerId = client
  clear : header.encrypted = false

/-- Whether `packet` is a clear packet of `server` to `client`. -/
def isOutgoing (server client : UInt32) (packet : Bytes) : Bool :=
  match splitPacket packet with
  | .ok (header, _) =>
    header.fromPeerId == server && header.toPeerId == client && !header.encrypted
  | .error _ => false

theorem Outgoing.isOutgoing {server client : UInt32} {packet : Bytes} {header : PacketHeader}
    {payload : Bytes} (h : Outgoing server client packet header payload) :
    isOutgoing server client packet = true := by
  simp [EasyTierEdge.isOutgoing, h.split, h.fromPeerId, h.toPeerId, h.clear]

/-- A session encrypts the clear packets of the server to the client, and refuses
    the others. -/
theorem StoredSession.encrypt_cases (s : StoredSession) (server client : UInt32) (packet : Bytes)
    (clock : PacketClock) :
    (∃ e, s.encrypt c server client packet clock = (.error e, s)) ∨
      ∃ header payload, Outgoing server client packet header payload ∧
        s.encrypt c server client packet clock =
          ((s.encryptPayload c (some s.rootKey) serverEncryptionAlgorithm
              (directionIndex server client) payload clock.payloadMs).1.map
            (joinHeaderPayload { header with flags := header.flags ||| encryptedFlag }),
            s.save (s.encryptPayload c (some s.rootKey) serverEncryptionAlgorithm
              (directionIndex server client) payload clock.payloadMs).2 clock.persistMs) := by
  unfold encrypt
  cases hsplit : splitPacket packet with
  | error m => exact .inl ⟨_, rfl⟩
  | ok parts =>
    obtain ⟨header, payload⟩ := parts
    simp only
    split_ifs with haddr henc
    · exact .inl ⟨_, rfl⟩
    · exact .inl ⟨_, rfl⟩
    · obtain ⟨hfrom, hto⟩ : header.fromPeerId = server ∧ header.toPeerId = client := by
        simpa using haddr
      exact .inr ⟨header, payload, ⟨hsplit, hfrom, hto, by simpa using henc⟩, rfl⟩

/-- `packet` is an encrypted packet of `client` to `server`. -/
structure Incoming (server client : UInt32) (packet : Bytes) (header : PacketHeader)
    (payload : Bytes) : Prop where
  split : splitPacket packet = .ok (header, payload)
  fromPeerId : header.fromPeerId = client
  toPeerId : header.toPeerId = server
  encrypted : header.encrypted = true

/-- Whether `packet` is an encrypted packet of `client` to `server`. -/
def isIncoming (server client : UInt32) (packet : Bytes) : Bool :=
  match splitPacket packet with
  | .ok (header, _) =>
    header.fromPeerId == client && header.toPeerId == server && header.encrypted
  | .error _ => false

theorem Incoming.isIncoming {server client : UInt32} {packet : Bytes} {header : PacketHeader}
    {payload : Bytes} (h : Incoming server client packet header payload) :
    isIncoming server client packet = true := by
  simp [EasyTierEdge.isIncoming, h.split, h.fromPeerId, h.toPeerId, h.encrypted]

/-- A session decrypts the encrypted packets of the client to the server, and refuses
    the others or returns them as they are. -/
theorem StoredSession.decrypt_cases (s : StoredSession) (server client : UInt32)
    (algorithm : String) (packet : Bytes) (clock : PacketClock) :
    (∃ e, s.decrypt c server client algorithm packet clock = (.error e, s)) ∨
      (s.decrypt c server client algorithm packet clock = (.ok packet, s) ∧
        ∃ header payload, splitPacket packet = .ok (header, payload) ∧ header.encrypted = false) ∨
      ∃ header payload, Incoming server client packet header payload ∧
        s.decrypt c server client algorithm packet clock =
          ((s.decryptPayload c (some s.rootKey) algorithm (directionIndex client server) payload
              clock.payloadMs).1.map (clearPacket header),
            s.save (s.decryptPayload c (some s.rootKey) algorithm (directionIndex client server)
              payload clock.payloadMs).2 clock.persistMs) := by
  unfold decrypt
  cases hsplit : splitPacket packet with
  | error m => exact .inl ⟨_, rfl⟩
  | ok parts =>
    obtain ⟨header, payload⟩ := parts
    simp only
    split_ifs with haddr henc
    · exact .inl ⟨_, rfl⟩
    · exact .inr (.inl ⟨rfl, header, payload, rfl, by simpa using henc⟩)
    · obtain ⟨hfrom, hto⟩ : header.fromPeerId = client ∧ header.toPeerId = server := by
        simpa using haddr
      exact .inr (.inr ⟨header, payload, ⟨hsplit, hfrom, hto, by simpa using henc⟩, rfl⟩)

/-- Encrypting changes at most the traffic state of a session. -/
theorem StoredSession.encrypt_frame (s : StoredSession) (server client : UInt32) (packet : Bytes)
    (clock : PacketClock) :
    (s.encrypt c server client packet clock).2 = s ∨
      ∃ t, (s.encrypt c server client packet clock).2 = s.save t clock.persistMs := by
  rcases s.encrypt_cases c server client packet clock with ⟨e, heq⟩ | ⟨header, payload, -, heq⟩
  · exact .inl (by rw [heq])
  · exact .inr ⟨_, by rw [heq]⟩

/-- Decrypting changes at most the traffic state of a session. -/
theorem StoredSession.decrypt_frame (s : StoredSession) (server client : UInt32)
    (algorithm : String) (packet : Bytes) (clock : PacketClock) :
    (s.decrypt c server client algorithm packet clock).2 = s ∨
      ∃ t, (s.decrypt c server client algorithm packet clock).2 = s.save t clock.persistMs := by
  rcases s.decrypt_cases c server client algorithm packet clock with
    ⟨e, heq⟩ | ⟨heq, -⟩ | ⟨header, payload, -, heq⟩
  · exact .inl (by rw [heq])
  · exact .inl (by rw [heq])
  · exact .inr ⟨_, by rw [heq]⟩

/-- Decrypting does not change what numbers the frames sent. -/
theorem StoredSession.decrypt_send (s : StoredSession) (server client : UInt32)
    (algorithm : String) (packet : Bytes) (clock : PacketClock) :
    (s.decrypt c server client algorithm packet clock).2.sendEpoch = s.sendEpoch ∧
      (s.decrypt c server client algorithm packet clock).2.sendSeq = s.sendSeq := by
  rcases s.decrypt_cases c server client algorithm packet clock with
    ⟨e, heq⟩ | ⟨heq, -⟩ | ⟨header, payload, -, heq⟩
  · rw [heq]
    exact ⟨rfl, rfl⟩
  · rw [heq]
    exact ⟨rfl, rfl⟩
  · rw [heq]
    exact TrafficState.decryptPayload_send _ _ _ _ _ _

theorem StoredSession.encrypt_errorsIn (s : StoredSession) (server client : UInt32) (packet : Bytes)
    (clock : PacketClock) :
    (s.encrypt c server client packet clock).1.ErrorsIn fun e => e.disappeared = false := by
  unfold encrypt
  cases splitPacket packet with
  | error m => exact Except.errorsIn_error rfl
  | ok parts =>
    simp only
    split_ifs
    · exact Except.errorsIn_error rfl
    · exact Except.errorsIn_error rfl
    · exact (TrafficState.encryptPayload_errorsIn c _ _ _ _ _ _).map _

theorem StoredSession.decrypt_errorsIn (s : StoredSession) (server client : UInt32)
    (algorithm : String) (packet : Bytes) (clock : PacketClock) :
    (s.decrypt c server client algorithm packet clock).1.ErrorsIn
      fun e => e.disappeared = false := by
  unfold decrypt
  cases splitPacket packet with
  | error m => exact Except.errorsIn_error rfl
  | ok parts =>
    simp only
    split_ifs
    · exact Except.errorsIn_error rfl
    · exact Except.errorsIn_ok _
    · exact (TrafficState.decryptPayload_errorsIn _ _ _ _ _ _).map _

namespace SecurePeer

variable {c} {p : SecurePeer HS} {sessions : SessionStore}

theorem ensureAuthenticated_eq_ok :
    p.ensureAuthenticated = .ok () ↔ p.authenticated ∧ p.rootKey.isSome := by
  unfold ensureAuthenticated
  split_ifs with h <;> simp_all

/-- A connection that is not authenticated has no packet encrypted. -/
theorem encryptPacket_of_not (h : ¬(p.authenticated ∧ p.rootKey.isSome)) (packet : Bytes)
    (clock : PacketClock) :
    p.encryptPacket c sessions packet clock = (.error .notAuthenticated, p, sessions) := by
  have h : (p.authenticated && p.rootKey.isSome) = false := by simpa using h
  simp [encryptPacket, ensureAuthenticated, h]

/-- A connection that is not authenticated has no packet decrypted. -/
theorem decryptPacket_of_not (h : ¬(p.authenticated ∧ p.rootKey.isSome)) (packet : Bytes)
    (clock : PacketClock) :
    p.decryptPacket c sessions packet clock = (.error .notAuthenticated, p, sessions) := by
  have h : (p.authenticated && p.rootKey.isSome) = false := by simpa using h
  simp [decryptPacket, ensureAuthenticated, h]

section Packets

variable {key : SessionKey} {s : StoredSession} {peerId : UInt32}

/-- An authenticated connection encrypts with its stored session alone. -/
theorem encryptPacket_eq (hauth : p.authenticated) (hroot : p.rootKey.isSome)
    (hkey : p.sessionKey = some key) (hs : sessions.lookup key = some s)
    (hpeer : p.peerId = some peerId) (packet : Bytes) (clock : PacketClock) :
    p.encryptPacket c sessions packet clock =
      ((s.encrypt c p.serverPeerId peerId packet clock).1,
        p.load (s.encrypt c p.serverPeerId peerId packet clock).2,
        sessions.insert key (s.encrypt c p.serverPeerId peerId packet clock).2) := by
  unfold encryptPacket StoredSession.encrypt
  simp only [ensureAuthenticated_eq_ok.2 ⟨hauth, hroot⟩, loadSessionState, hkey, hs]
  cases splitPacket packet with
  | error m => simp [Finmap.insert_eq_self hs]
  | ok parts =>
    obtain ⟨header, payload⟩ := parts
    simp only [load, hpeer]
    split_ifs with haddr henc
    · simp [Finmap.insert_eq_self hs]
    · simp [Finmap.insert_eq_self hs]
    · obtain ⟨hfrom, hto⟩ : header.fromPeerId = p.serverPeerId ∧ header.toPeerId = peerId := by
        simpa using haddr
      simp only [persistSessionState, hkey, hs, hfrom, hto, StoredSession.save]
      cases (s.encryptPayload c (some s.rootKey) serverEncryptionAlgorithm
        (directionIndex p.serverPeerId peerId) payload clock.payloadMs).1 <;> rfl

/-- An authenticated connection decrypts with its stored session alone, and the
    algorithm the client asked for. -/
theorem decryptPacket_eq (hauth : p.authenticated) (hroot : p.rootKey.isSome)
    (hkey : p.sessionKey = some key) (hs : sessions.lookup key = some s)
    (hpeer : p.peerId = some peerId) {algorithm : String}
    (halg : p.clientAlgorithm = some algorithm) (packet : Bytes) (clock : PacketClock) :
    p.decryptPacket c sessions packet clock =
      ((s.decrypt c p.serverPeerId peerId algorithm packet clock).1,
        p.load (s.decrypt c p.serverPeerId peerId algorithm packet clock).2,
        sessions.insert key (s.decrypt c p.serverPeerId peerId algorithm packet clock).2) := by
  unfold decryptPacket StoredSession.decrypt
  simp only [ensureAuthenticated_eq_ok.2 ⟨hauth, hroot⟩, loadSessionState, hkey, hs]
  cases splitPacket packet with
  | error m => simp [Finmap.insert_eq_self hs]
  | ok parts =>
    obtain ⟨header, payload⟩ := parts
    simp only [load, hpeer]
    split_ifs with haddr henc
    · simp [Finmap.insert_eq_self hs]
    · simp [Finmap.insert_eq_self hs]
    · obtain ⟨hfrom, hto⟩ : header.fromPeerId = peerId ∧ header.toPeerId = p.serverPeerId := by
        simpa using haddr
      simp only [persistSessionState, hkey, hs, hfrom, hto, halg, Option.getD_some,
        StoredSession.save]
      rcases (s.decryptPayload c (some s.rootKey) algorithm (directionIndex peerId p.serverPeerId)
        payload clock.payloadMs).1 with e | _ | plaintext <;>
        simp [StoredSession.clearPacket, Except.map, hfrom, hto]

end Packets

/-! ## Message 1 -/

/-- `packet` is a message 1 that the connection `p` accepts: its header, the
    handshake once it is read, and its contents. -/
structure Msg1Accepted (c : Crates HS) (p : SecurePeer HS) (packet : Bytes) (header : PacketHeader)
    (handshake : HS) (message : PeerConnNoiseMsg1Pb) : Prop where
  idle : p.handshake = none
  unauthenticated : p.authenticated = false
  packetType : header.packetType = packetNoiseMsg1
  clear : header.encrypted = false
  peerId : header.fromPeerId ≠ 0 ∧ header.fromPeerId ≠ p.serverPeerId
  read : ∃ payload handshake₀ decoded, splitPacket packet = .ok (header, payload) ∧
    c.buildResponder noisePattern noisePrologue p.localPrivate = .ok handshake₀ ∧
    c.readMessage handshake₀ payload = .ok (handshake, decoded) ∧
    c.decodeMsg1 decoded = .ok message
  version : message.version = easytierProtocolVersion
  networkName : message.aNetworkName ≠ "" ∧ message.aNetworkName.utf8ByteSize ≤ 255
  algorithm : validateAlgorithm message.clientEncryptionAlgorithm = .ok ()

/-- The connection once it has accepted message 1. -/
def afterMsg1 (p : SecurePeer HS) (peerId : UInt32) (handshake : HS)
    (message : PeerConnNoiseMsg1Pb) : SecurePeer HS :=
  { p with
    peerId := some peerId
    networkName := some message.aNetworkName
    clientAlgorithm := some message.clientEncryptionAlgorithm
    aSessionGeneration := message.aSessionGeneration
    aConnId := message.aConnId
    handshake := some handshake }

/-- A message 1 that is accepted puts the connection's turn to write. -/
theorem Msg1Accepted.myTurn {packet : Bytes} {header : PacketHeader} {handshake : HS}
    {message : PeerConnNoiseMsg1Pb} (h : Msg1Accepted c p packet header handshake message) :
    c.isMyTurn handshake = true := by
  obtain ⟨payload, handshake₀, decoded, -, -, hread, -⟩ := h.read
  exact (c.read_turn hread).2

theorem readMsg1_eq_ok {packet : Bytes} {info : Msg1Info} {q : SecurePeer HS}
    (h : p.readMsg1 c packet = .ok (info, q)) :
    ∃ header handshake message, Msg1Accepted c p packet header handshake message ∧
      info = ⟨header.fromPeerId, message.aNetworkName, message.clientEncryptionAlgorithm⟩ ∧
      q = p.afterMsg1 header.fromPeerId handshake message := by
  simp only [readMsg1, Except.bind_eq_ok, Except.mapError_eq_ok, Except.rejectIf_eq_ok,
    Except.pure_eq_ok, Bool.or_eq_false_iff, Prod.exists, Prod.mk.injEq] at h
  obtain ⟨-, ⟨hidle, hauth⟩, header, payload, hsplit, -, ⟨htype, hclear⟩, -, ⟨hzero, hserver⟩,
    handshake₀, hbuild, handshake, decoded, hread, message, hdecode, -, hversion, -, ⟨hname, hlen⟩,
    _, halg, hinfo, hq⟩ := h
  refine ⟨header, handshake, message, ?_, hinfo.symm, hq.symm⟩
  exact
    { idle := by simpa using hidle
      unauthenticated := hauth
      packetType := by simpa using htype
      clear := hclear
      peerId := ⟨by simpa using hzero, by simpa using hserver⟩
      read := ⟨payload, handshake₀, decoded, hsplit, hbuild, hread, hdecode⟩
      version := by simpa using hversion
      networkName := ⟨by simpa using hname, by simpa using hlen⟩
      algorithm := halg }

/-- Refusing message 1 has nothing to do with a stored session. -/
theorem readMsg1_errorsIn (p : SecurePeer HS) (packet : Bytes) :
    (p.readMsg1 c packet).ErrorsIn fun e => e.disappeared = false := by
  refine .bind (Except.errorsIn_rejectIf rfl) fun _ => ?_
  refine .bind (Except.errorsIn_mapError fun _ => rfl) fun _ => ?_
  refine .bind (Except.errorsIn_rejectIf rfl) fun _ => ?_
  refine .bind (Except.errorsIn_rejectIf rfl) fun _ => ?_
  refine .bind (Except.errorsIn_mapError fun _ => rfl) fun _ => ?_
  refine .bind (Except.errorsIn_mapError fun _ => rfl) fun _ => ?_
  refine .bind (Except.errorsIn_mapError fun _ => rfl) fun _ => ?_
  refine .bind (Except.errorsIn_rejectIf rfl) fun _ => ?_
  refine .bind (Except.errorsIn_rejectIf rfl) fun _ => ?_
  exact .bind (validateAlgorithm_errorsIn _) fun _ => Except.errorsIn_ok _

/-! ## Message 2 -/

/-- What message 2 answers to: the contents of message 1, as the connection keeps
    them. -/
structure Hello (HS : Type) where
  peerId : UInt32
  networkName : String
  handshake : HS
  clientAlgorithm : String

/-- The connection has heard `m` and can build message 2. -/
structure Msg2Ready (p : SecurePeer HS) (networkSecret : String) (m : Hello HS) : Prop where
  secret : networkSecret ≠ ""
  fresh : p.sessionKey = none
  peerId : p.peerId = some m.peerId
  networkName : p.networkName = some m.networkName
  handshake : p.handshake = some m.handshake
  clientAlgorithm : p.clientAlgorithm = some m.clientAlgorithm

/-- The key of the session that message 2 selects. -/
def helloKey (p : SecurePeer HS) (m : Hello HS) : SessionKey :=
  p.msg2SessionKey m.networkName m.peerId

/-- Message 2 selects the session `s`. -/
def Selects (p : SecurePeer HS) (sessions : SessionStore) (draws : Msg2Draws) (m : Hello HS)
    (sel : SessionSelection) (s : StoredSession) : Prop :=
  Selected sessions (p.helloKey m) p.aSessionGeneration m.clientAlgorithm draws.rootKey
    draws.upsertMs sel s

/-- The stored sessions once `s` is selected. -/
def selectedSessions (p : SecurePeer HS) (sessions : SessionStore) (draws : Msg2Draws) (m : Hello HS)
    (s : StoredSession) : SessionStore :=
  (retainedSessions sessions draws.upsertMs).insert (p.helloKey m) s

/-- The connection once message 2 is sent: attached to the session `s` stored
    under `key`. -/
def afterMsg2 (c : Crates HS) (p : SecurePeer HS) (networkSecret : String) (key : SessionKey)
    (handshake : HS) (s : StoredSession) (bConnId : Uuid) : SecurePeer HS :=
  { p with
    handshake := some handshake
    proofChallenge := some (c.handshakeHash handshake)
    networkSecret := some (utf8 networkSecret)
    rootKey := some s.rootKey
    sessionKey := some key
    sessionAttached := true
    toTrafficState := s.toTrafficState
    bConnId := some bConnId }

/-- The handshake `handshake'` is `handshake` after at most one failed attempt to write
    to it. -/
def Unwritten (c : Crates HS) (handshake handshake' : HS) : Prop :=
  handshake' = handshake ∨ ∃ message e, c.writeMessage handshake message = (handshake', .error e)

/-- A failed attempt to write leaves the turn. -/
theorem Unwritten.turn {handshake handshake' : HS} (h : Unwritten c handshake handshake') :
    c.isMyTurn handshake' = c.isMyTurn handshake := by
  rcases h with rfl | ⟨message, e, hwrite⟩
  · rfl
  · have hturn := c.write_error_turn (congrArg Prod.snd hwrite)
    rw [hwrite] at hturn
    exact hturn

/-- What `buildMsg2` can do, by its result, the connection and the stored sessions
    afterwards. -/
inductive Msg2Outcome (c : Crates HS) (p : SecurePeer HS) (sessions : SessionStore)
    (networkSecret : String) (draws : Msg2Draws) :
    Except SecureError Bytes × SecurePeer HS × SessionStore → Prop
  /-- A call out of turn. -/
  | refused {e : SecureError} : (∀ m, ¬p.Msg2Ready networkSecret m) → e.disappeared = false →
      Msg2Outcome c p sessions networkSecret draws (.error e, p, sessions)
  /-- No session is selected: only the idle ones are dropped. -/
  | unselected {m : Hello HS} {e : SecureError} : p.Msg2Ready networkSecret m →
      upsertSession sessions (p.helloKey m) p.aSessionGeneration m.clientAlgorithm draws.rootKey
        draws.upsertMs = (.error e, retainedSessions sessions draws.upsertMs) →
      e.disappeared = false →
      Msg2Outcome c p sessions networkSecret draws
        (.error e, p, retainedSessions sessions draws.upsertMs)
  /-- A session is selected, but message 2 is not written. -/
  | unsent {m : Hello HS} {e : SecureError} {handshake : HS} {sel : SessionSelection}
      {s : StoredSession} : p.Msg2Ready networkSecret m → p.Selects sessions draws m sel s →
      Unwritten c m.handshake handshake → e.disappeared = false →
      Msg2Outcome c p sessions networkSecret draws
        (.error e, { p with handshake := some handshake }, p.selectedSessions sessions draws m s)
  /-- A session is selected that cannot count one more connection. -/
  | exhausted {m : Hello HS} {q : SecurePeer HS} {sel : SessionSelection} {s : StoredSession} :
      p.Msg2Ready networkSecret m → p.Selects sessions draws m sel s →
      s.attachments.toNat = 2 ^ 32 - 1 →
      Msg2Outcome c p sessions networkSecret draws
        (.error .attachmentsExhausted, q, p.selectedSessions sessions draws m s)
  /-- Message 2 is sent, and the connection attached to the selected session. -/
  | sent {m : Hello HS} {sel : SessionSelection} {s s' : StoredSession} {bConnId : Uuid}
      {handshake : HS} {noiseMessage : Bytes} :
      p.Msg2Ready networkSecret m → p.Selects sessions draws m sel s →
      draws.bConnId = .ok bConnId →
      c.writeMessage m.handshake (c.encodeMsg2 (p.msg2 m.networkName sel bConnId
        (secretProof c (utf8 networkSecret) (c.handshakeHash m.handshake)))) =
          (handshake, .ok noiseMessage) →
      s.attach draws.attachMs = some s' →
      Msg2Outcome c p sessions networkSecret draws
        (.ok (wrapPacket p.serverPeerId m.peerId packetNoiseMsg2 0 noiseMessage),
          p.afterMsg2 c networkSecret (p.helloKey m) handshake s' bConnId,
          p.selectedSessions sessions draws m s')

/-- Message 2 on a connection that is ready for it. -/
theorem buildMsg2_of_ready {networkSecret : String} {m : Hello HS} (hm : p.Msg2Ready networkSecret m)
    (draws : Msg2Draws) :
    p.buildMsg2 c sessions networkSecret draws =
      match upsertSession sessions (p.helloKey m) p.aSessionGeneration m.clientAlgorithm
        draws.rootKey draws.upsertMs with
      | (.error e, sessions) => (.error e, p, sessions)
      | (.ok session, sessions) =>
        p.sendMsg2 c sessions networkSecret m.networkName m.peerId m.handshake session draws := by
  have hfresh : ¬p.sessionKey.isSome = true := by simp [hm.fresh]
  rewrite [buildMsg2, if_neg hm.secret, if_neg hfresh, hm.peerId, hm.networkName, hm.handshake,
    hm.clientAlgorithm]
  rfl

theorem buildMsg2_of_not_ready {networkSecret : String} (h : ∀ m, ¬p.Msg2Ready networkSecret m)
    (sessions : SessionStore) (draws : Msg2Draws) :
    ∃ e, p.buildMsg2 c sessions networkSecret draws = (.error e, p, sessions) ∧
      e.disappeared = false := by
  unfold buildMsg2
  split_ifs with hsecret hkey
  · exact ⟨_, rfl, rfl⟩
  · exact ⟨_, rfl, rfl⟩
  · split
    · exact ⟨_, rfl, rfl⟩
    · exact ⟨_, rfl, rfl⟩
    · exact ⟨_, rfl, rfl⟩
    · exact ⟨_, rfl, rfl⟩
    · rename_i peerId networkName handshake algorithm hpeer hname hhandshake halg
      exact absurd ⟨hsecret, by simpa using hkey, hpeer, hname, hhandshake, halg⟩
        (h ⟨peerId, networkName, handshake, algorithm⟩)

/-- Attaching to the session `s` under `key`. -/
theorem attachMsg2_eq {key : SessionKey} {s : StoredSession} (hkey : p.sessionKey = some key)
    (hs : sessions.lookup key = some s) (peerId : UInt32) (bConnId : Uuid) (noiseMessage : Bytes)
    (attachMs : UInt64) :
    p.attachMsg2 sessions peerId bConnId noiseMessage attachMs =
      match s.attach attachMs with
      | none => (.error .attachmentsExhausted, p, sessions)
      | some s' =>
        (.ok (wrapPacket p.serverPeerId peerId packetNoiseMsg2 0 noiseMessage),
          { p.load s' with sessionAttached := true, bConnId := some bConnId },
          sessions.insert key s') := by
  unfold attachMsg2 attachSession StoredSession.attach
  simp only [hkey, hs]
  cases s.attachments.checkedAdd 1 with
  | none => rfl
  | some attachments =>
    simp only [loadSessionState, load, hkey, Finmap.lookup_insert, Option.map_some]

/-- What `buildMsg2` does is one of its outcomes. -/
theorem buildMsg2_cases (p : SecurePeer HS) (sessions : SessionStore) (networkSecret : String)
    (draws : Msg2Draws) :
    Msg2Outcome c p sessions networkSecret draws (p.buildMsg2 c sessions networkSecret draws) := by
  by_cases hready : ∃ m, p.Msg2Ready networkSecret m
  · obtain ⟨m, hm⟩ := hready
    rw [buildMsg2_of_ready hm]
    rcases upsertSession_cases sessions (p.helloKey m) p.aSessionGeneration m.clientAlgorithm
      draws.rootKey draws.upsertMs with ⟨e, hup, he⟩ | ⟨sel, s, hup, hsel⟩
    · rw [hup]
      exact .unselected hm hup he
    · rw [hup]
      simp only [sendMsg2]
      cases hid : draws.bConnId with
      | error e =>
        have hout := Msg2Outcome.unsent (c := c) (e := .crate e) hm hsel (.inl rfl) rfl
        rw [← hm.handshake] at hout
        exact hout
      | ok bConnId =>
        rcases hwrite : c.writeMessage m.handshake (c.encodeMsg2 (p.msg2 m.networkName sel bConnId
          (secretProof c (utf8 networkSecret) (c.handshakeHash m.handshake)))) with
          ⟨handshake, e | noiseMessage⟩
        · simp only [hwrite]
          exact .unsent hm hsel (.inr ⟨_, e, hwrite⟩) rfl
        · have hlookup : ((retainedSessions sessions draws.upsertMs).insert (p.helloKey m) s).lookup
              (p.helloKey m) = some s := Finmap.lookup_insert _
          simp only [hwrite]
          rw [attachMsg2_eq rfl hlookup]
          cases hattach : s.attach draws.attachMs with
          | none => exact .exhausted hm hsel (StoredSession.attach_eq_none.1 hattach)
          | some s' =>
            simp only [Finmap.insert_insert]
            exact .sent hm hsel hid hwrite hattach
  · obtain ⟨e, heq, he⟩ := buildMsg2_of_not_ready (c := c)
      (not_exists.1 hready) sessions draws
    rw [heq]
    exact .refused (not_exists.1 hready) he

theorem Msg2Ready.unique {networkSecret : String} {m m' : Hello HS}
    (h : p.Msg2Ready networkSecret m) (h' : p.Msg2Ready networkSecret m') : m = m' := by
  obtain ⟨peerId, networkName, handshake, algorithm⟩ := m
  obtain ⟨peerId', networkName', handshake', algorithm'⟩ := m'
  simp only [Hello.mk.injEq]
  exact ⟨Option.some.inj (h.peerId.symm.trans h'.peerId),
    Option.some.inj (h.networkName.symm.trans h'.networkName),
    Option.some.inj (h.handshake.symm.trans h'.handshake),
    Option.some.inj (h.clientAlgorithm.symm.trans h'.clientAlgorithm)⟩

/-- The session that message 2 selects is stored, with a connection more when the
    message is sent. -/
theorem buildMsg2_selects {networkSecret : String} {draws : Msg2Draws} {m : Hello HS}
    {sel : SessionSelection} {s : StoredSession} (hm : p.Msg2Ready networkSecret m)
    (hsel : p.Selects sessions draws m sel s) :
    ∃ s', (p.buildMsg2 c sessions networkSecret draws).2.2 =
        p.selectedSessions sessions draws m s' ∧
      (s' = s ∨ s.attach draws.attachMs = some s') := by
  have hout := buildMsg2_cases (c := c) p sessions networkSecret draws
  generalize p.buildMsg2 c sessions networkSecret draws = r at hout
  cases hout with
  | refused hnot => exact absurd hm (hnot m)
  | unselected hm' hup =>
    obtain rfl := hm.unique hm'
    have heq := hup.symm.trans (upsertSession_of_selected hsel)
    simp at heq
  | unsent hm' hsel' =>
    obtain rfl := hm.unique hm'
    obtain ⟨-, rfl⟩ := hsel.unique hsel'
    exact ⟨s, rfl, .inl rfl⟩
  | exhausted hm' hsel' =>
    obtain rfl := hm.unique hm'
    obtain ⟨-, rfl⟩ := hsel.unique hsel'
    exact ⟨s, rfl, .inl rfl⟩
  | sent hm' hsel' _ _ hattach =>
    obtain rfl := hm.unique hm'
    obtain ⟨-, rfl⟩ := hsel.unique hsel'
    exact ⟨_, rfl, .inr hattach⟩

/-! ## Message 3 -/

/-- `packet` is a message 3 that the connection `p` accepts: it is read by the
    handshake that wrote message 2, it echoes both connection ids and proves the
    secret for the challenge, and the client's static key is `remotePublicKey`. -/
structure Msg3Accepted (c : Crates HS) (p : SecurePeer HS) (packet : Bytes) (peerId : UInt32)
    (handshake : HS) (message : PeerConnNoiseMsg3Pb) (secret challenge : Bytes)
    (remotePublicKey : Key32) : Prop where
  hasPeerId : p.peerId = some peerId
  hasHandshake : p.handshake = some handshake
  read : ∃ header payload handshake' decoded remotePublic,
    splitPacket packet = .ok (header, payload) ∧
    header.packetType = packetNoiseMsg3 ∧ header.fromPeerId = peerId ∧
    header.toPeerId = p.serverPeerId ∧ header.encrypted = false ∧
    c.readMessage handshake payload = .ok (handshake', decoded) ∧
    c.decodeMsg3 decoded = .ok message ∧
    c.remoteStatic handshake' = some remotePublic ∧ key32 remotePublic = some remotePublicKey
  echo : message.aConnIdEcho = p.aConnId ∧ message.bConnIdEcho = p.bConnId
  hasSecret : p.networkSecret = some secret
  hasChallenge : p.proofChallenge = some challenge
  proof : message.secretProof32 = some (secretProof c secret challenge)

/-- A message 3 is only read in the client's turn. -/
theorem Msg3Accepted.theirTurn {packet : Bytes} {peerId : UInt32} {handshake : HS}
    {message : PeerConnNoiseMsg3Pb} {secret challenge : Bytes} {remotePublicKey : Key32}
    (h : Msg3Accepted c p packet peerId handshake message secret challenge remotePublicKey) :
    c.isMyTurn handshake = false := by
  obtain ⟨_, _, _, _, _, -, -, -, -, -, hread, -⟩ := h.read
  exact (c.read_turn hread).1

theorem checkMsg3_eq_ok {handshake : HS} {payload : Bytes} {remotePublicKey : Key32}
    (h : p.checkMsg3 c handshake payload = .ok remotePublicKey) :
    ∃ handshake' decoded message secret challenge remotePublic,
      c.readMessage handshake payload = .ok (handshake', decoded) ∧
      c.decodeMsg3 decoded = .ok message ∧
      (message.aConnIdEcho = p.aConnId ∧ message.bConnIdEcho = p.bConnId) ∧
      p.networkSecret = some secret ∧ p.proofChallenge = some challenge ∧
      message.secretProof32 = some (secretProof c secret challenge) ∧
      c.remoteStatic handshake' = some remotePublic ∧ key32 remotePublic = some remotePublicKey := by
  simp only [checkMsg3, Except.bind_eq_ok, Except.mapError_eq_ok, Except.rejectIf_eq_ok,
    Except.okOr_eq_ok, Bool.or_eq_false_iff, Prod.exists] at h
  obtain ⟨handshake', decoded, hread, message, hdecode, -, ⟨ha, hb⟩, proof, hproof, secret, hsecret,
    challenge, hchallenge, -, heq, remotePublic, hremote, hkey⟩ := h
  obtain rfl : proof = secretProof c secret challenge := by simpa using heq
  exact ⟨handshake', decoded, message, secret, challenge, remotePublic, hread, hdecode,
    ⟨by simpa using ha, by simpa using hb⟩, hsecret, hchallenge, hproof, hremote, hkey⟩

/-- Refusing message 3 has nothing to do with the stored session. -/
theorem checkMsg3_errorsIn (p : SecurePeer HS) (handshake : HS) (payload : Bytes) :
    (p.checkMsg3 c handshake payload).ErrorsIn fun e => e.disappeared = false := by
  refine .bind (Except.errorsIn_mapError fun _ => rfl) fun _ => ?_
  refine .bind (Except.errorsIn_mapError fun _ => rfl) fun _ => ?_
  refine .bind (Except.errorsIn_rejectIf rfl) fun _ => ?_
  refine .bind (Except.errorsIn_okOr rfl) fun _ => ?_
  refine .bind (Except.errorsIn_okOr rfl) fun _ => ?_
  refine .bind (Except.errorsIn_okOr rfl) fun _ => ?_
  refine .bind (Except.errorsIn_rejectIf rfl) fun _ => ?_
  refine .bind (Except.errorsIn_okOr rfl) fun _ => ?_
  exact Except.errorsIn_okOr rfl

/-- What `finishMsg3` can do, by its result, the connection and the stored sessions
    afterwards. -/
inductive Msg3Outcome (c : Crates HS) (p : SecurePeer HS) (sessions : SessionStore) (packet : Bytes)
    (confirmMs : UInt64) : Except SecureError AuthInfo × SecurePeer HS × SessionStore → Prop
  /-- A call out of turn, or with a packet that is no message 3. -/
  | refused {e : SecureError} : e.disappeared = false →
      Msg3Outcome c p sessions packet confirmMs (.error e, p, sessions)
  /-- The message is refused, and the handshake lost. -/
  | lost {e : SecureError} :
      (e.disappeared → ∃ key, p.sessionKey = some key ∧ sessions.lookup key = none) →
      Msg3Outcome c p sessions packet confirmMs
        (.error e, p.takeHandshake, sessions)
  /-- The message is accepted, and the session bound to the client's static key. -/
  | confirmed {peerId : UInt32} {handshake : HS} {message : PeerConnNoiseMsg3Pb}
      {secret challenge : Bytes} {remotePublicKey : Key32} {key : SessionKey} {s : StoredSession} :
      Msg3Accepted c p packet peerId handshake message secret challenge remotePublicKey →
      p.sessionKey = some key → sessions.lookup key = some s →
      (∀ current, s.remotePublicKey = some current → current = remotePublicKey) →
      Msg3Outcome c p sessions packet confirmMs
        (.ok ⟨peerId, p.networkName.getD "", c.base64Encode remotePublicKey.toList,
            "NetworkSecretConfirmed"⟩,
          p.takeHandshake.authenticate, sessions.insert key (s.confirm remotePublicKey confirmMs))

/-- What `finishMsg3` does is one of its outcomes. -/
theorem finishMsg3_cases (p : SecurePeer HS) (sessions : SessionStore) (packet : Bytes)
    (confirmMs : UInt64) :
    Msg3Outcome c p sessions packet confirmMs (p.finishMsg3 c sessions packet confirmMs) := by
  unfold finishMsg3
  cases hsplit : splitPacket packet with
  | error m => exact .refused rfl
  | ok parts =>
    obtain ⟨header, payload⟩ := parts
    cases hpeer : p.peerId with
    | none => exact .refused rfl
    | some peerId =>
      simp only
      split_ifs with henv
      · exact .refused rfl
      · cases hhandshake : p.handshake with
        | none => exact .refused rfl
        | some handshake =>
          simp only
          cases hcheck : p.checkMsg3 c handshake payload with
          | error e =>
            have he := checkMsg3_errorsIn _ _ _ e hcheck
            exact .lost fun h => by simp [he] at h
          | ok remotePublicKey =>
            cases hkey : p.sessionKey with
            | none => exact .lost fun h => by simp [SecureError.disappeared] at h
            | some key =>
              simp only [confirmSessionPublicKey]
              cases hs : sessions.lookup key with
              | none => exact .lost fun _ => ⟨key, hkey, hs⟩
              | some s =>
                simp only
                split_ifs with hany
                · exact .lost fun h => by simp [SecureError.disappeared] at h
                · obtain ⟨handshake', decoded, message, secret, challenge, remotePublic, hread, hdecode,
                    hecho, hsecret, hchallenge, hproof, hremote, hrkey⟩ := checkMsg3_eq_ok hcheck
                  simp only [Bool.or_eq_true, not_or, decide_eq_true_eq, not_not,
                    Bool.not_eq_true] at henv
                  obtain ⟨⟨⟨htype, hfrom⟩, hto⟩, hclear⟩ := henv
                  refine .confirmed ⟨hpeer, hhandshake, ?_, hecho, hsecret, hchallenge, hproof⟩
                    hkey hs ?_
                  · exact ⟨header, payload, handshake', decoded, remotePublic, hsplit, htype, hfrom,
                      hto, hclear, hread, hdecode, hremote, hrkey⟩
                  · intro current hcurrent
                    simpa [hcurrent] using hany

end SecurePeer

end EasyTierEdge
