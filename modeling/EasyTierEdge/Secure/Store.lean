import EasyTierEdge.Lib.Machine
import EasyTierEdge.Secure.Methods

/-!
# The session store at work

The store of `wasm/src/secure.rs` with all the connections that use it, as a
machine: a step constructs a connection, calls a method of one, or drops one. The
connections that are alive at a time are told apart by their addresses, which are
non-null 32-bit pointers.

* `Consistent`: what holds in every reachable world (`consistent_of_reachable`).
  A session counts its attached connections, a connection's session is stored
  under its root key, and a connection is authenticated, or waiting for
  message 3, only with the session of its own client, network and algorithm;
* `call_cases`: what a call does in such a world.
-/

namespace EasyTierEdge

/-- The address of a connection: the `2 ^ 32 - 1` non-null 32-bit pointers, counted
    from 0. -/
abbrev Handle := Fin 4294967295

/-- The stored sessions and the live connections. -/
structure World (HS : Type) where
  sessions : SessionStore
  peers : FinMap Handle (SecurePeer HS)

/-- A method called on a connection. -/
inductive Call
  | readMsg1 (packet : Bytes)
  | buildMsg2 (networkSecret : String) (draws : Msg2Draws)
  | finishMsg3 (packet : Bytes) (confirmMs : UInt64)
  | encryptPacket (packet : Bytes) (clock : PacketClock)
  | decryptPacket (packet : Bytes) (clock : PacketClock)

/-- A step of the store. -/
inductive Op
  | new (h : Handle) (localPrivateKeyBase64 localPublicKeyBase64 : String) (serverPeerId : UInt32)
      (currentMs : UInt64)
  | call (h : Handle) (call : Call)
  | drop (h : Handle) (currentMs : UInt64)

/-- What a step returns. -/
inductive Output
  | constructed (result : Except SecureError Unit)
  | msg1 (result : Except SecureError Msg1Info)
  | frame (result : Except SecureError Bytes)
  | auth (result : Except SecureError AuthInfo)
  | dropped
  /-- There is no such connection, or one that should not be there. -/
  | badHandle

/-- The error a step returns. -/
def Output.error? : Output → Option SecureError
  | .constructed (.error e) | .msg1 (.error e) | .frame (.error e) | .auth (.error e) => some e
  | _ => none

theorem Output.eq_error_of_frame {result : Except SecureError Bytes} {e : SecureError}
    (h : (Output.frame result).error? = some e) : result = .error e := by
  cases result with
  | error e' => exact congrArg Except.error (Option.some.inj h)
  | ok bytes => cases h

variable {HS : Type} (c : Crates HS)

/-- A method called on the connection `p`. -/
def SecurePeer.call (p : SecurePeer HS) (sessions : SessionStore) :
    Call → Output × SecurePeer HS × SessionStore
  | .readMsg1 packet =>
    match p.readMsg1 c packet with
    | .error e => (.msg1 (.error e), p, sessions)
    | .ok (info, p) => (.msg1 (.ok info), p, sessions)
  | .buildMsg2 networkSecret draws =>
    let (result, p, sessions) := p.buildMsg2 c sessions networkSecret draws
    (.frame result, p, sessions)
  | .finishMsg3 packet confirmMs =>
    let (result, p, sessions) := p.finishMsg3 c sessions packet confirmMs
    (.auth result, p, sessions)
  | .encryptPacket packet clock =>
    let (result, p, sessions) := p.encryptPacket c sessions packet clock
    (.frame result, p, sessions)
  | .decryptPacket packet clock =>
    let (result, p, sessions) := p.decryptPacket c sessions packet clock
    (.frame result, p, sessions)

namespace World

/-- One step of the store. -/
def step (w : World HS) : Op → World HS × Output
  | .new h localPrivate localPublic serverPeerId currentMs =>
    match w.peers.lookup h with
    | some _ => (w, .badHandle)
    | none =>
      match SecurePeer.new c localPrivate localPublic serverPeerId currentMs with
      | .error e => (w, .constructed (.error e))
      | .ok p => ({ w with peers := w.peers.insert h p }, .constructed (.ok ()))
  | .call h call =>
    match w.peers.lookup h with
    | none => (w, .badHandle)
    | some p =>
      let (out, p, sessions) := p.call c w.sessions call
      ({ sessions, peers := w.peers.insert h p }, out)
  | .drop h currentMs =>
    match w.peers.lookup h with
    | none => (w, .badHandle)
    | some p => ({ sessions := p.drop w.sessions currentMs, peers := w.peers.erase h }, .dropped)

end World

/-- The store as a machine, starting empty. -/
def store : Machine (World HS) Op Output where
  init := { sessions := ∅, peers := ∅ }
  step := World.step c

/-! ## Consistent worlds -/

/-- The connection is the one the session `s` under `key` was selected for. -/
structure SecurePeer.Agrees (p : SecurePeer HS) (key : SessionKey) (s : StoredSession) : Prop where
  peerId : p.peerId = some key.peerId
  networkName : p.networkName = some key.networkName
  serverPeerId : p.serverPeerId = key.serverPeerId
  localPublic : p.localPublic = key.serverPublicKey
  clientAlgorithm : p.clientAlgorithm = some s.clientAlgorithm

/-- Message 2 was sent, and message 3 can be, or was, accepted. -/
def SecurePeer.Engaged (p : SecurePeer HS) : Prop :=
  p.authenticated ∨ ∃ handshake, p.handshake = some handshake ∧ c.isMyTurn handshake = false

/-- A connection and the stored sessions fit together. -/
structure SecurePeer.Consistent (p : SecurePeer HS) (sessions : SessionStore) : Prop where
  attached : p.sessionAttached = p.sessionKey.isSome
  stored : ∀ key, p.sessionKey = some key →
    ∃ s, sessions.lookup key = some s ∧ p.rootKey = some s.rootKey
  agrees : p.Engaged c → ∃ key s, p.sessionKey = some key ∧ sessions.lookup key = some s ∧
    p.Agrees key s
  finished : p.authenticated → p.handshake = none

/-- Whether the connection is attached to the session under `key`. -/
def SecurePeer.attachedTo (p : SecurePeer HS) (key : SessionKey) : Bool :=
  p.sessionAttached && p.sessionKey == some key

/-- The stored sessions and the live connections fit together. -/
structure World.Consistent (w : World HS) : Prop where
  peers : ∀ h p, w.peers.lookup h = some p → p.Consistent c w.sessions
  attachments : ∀ key s, w.sessions.lookup key = some s →
    s.attachments.toNat = w.peers.count fun _ p => p.attachedTo key
  size : w.sessions.size ≤ maxStoredSessions

/-! ## What a call does -/

/-- What a call does in a consistent world: its output, the connection and the
    stored sessions afterwards. -/
inductive Effect (p : SecurePeer HS) (sessions : SessionStore) :
    Call → Output → SecurePeer HS → SessionStore → Prop
  /-- The call is refused, and changes nothing. -/
  | refused {call : Call} {out : Output} {e : SecureError} : out.error? = some e →
      e.disappeared = false → Effect p sessions call out p sessions
  /-- Message 1 is accepted. -/
  | heard {packet : Bytes} {header : PacketHeader} {handshake : HS}
      {message : PeerConnNoiseMsg1Pb} :
      p.Msg1Accepted c packet header handshake message →
      Effect p sessions (.readMsg1 packet)
        (.msg1 (.ok ⟨header.fromPeerId, message.aNetworkName, message.clientEncryptionAlgorithm⟩))
        (p.afterMsg1 header.fromPeerId handshake message) sessions
  /-- Message 2 finds no session. -/
  | unselected {networkSecret : String} {draws : Msg2Draws} {m : SecurePeer.Hello HS}
      {e : SecureError} : p.Msg2Ready networkSecret m →
      upsertSession sessions (p.helloKey m) p.aSessionGeneration m.clientAlgorithm draws.rootKey
        draws.upsertMs = (.error e, retainedSessions sessions draws.upsertMs) →
      e.disappeared = false →
      Effect p sessions (.buildMsg2 networkSecret draws) (.frame (.error e)) p
        (retainedSessions sessions draws.upsertMs)
  /-- Message 2 selects a session, but is not written. -/
  | unsent {networkSecret : String} {draws : Msg2Draws} {m : SecurePeer.Hello HS} {e : SecureError}
      {handshake : HS} {sel : SessionSelection} {s : StoredSession} :
      p.Msg2Ready networkSecret m → p.Selects sessions draws m sel s →
      SecurePeer.Unwritten c m.handshake handshake → e.disappeared = false →
      Effect p sessions (.buildMsg2 networkSecret draws) (.frame (.error e))
        { p with handshake := some handshake } (p.selectedSessions sessions draws m s)
  /-- Message 2 is sent, and the connection attached to its session. -/
  | sent {networkSecret : String} {draws : Msg2Draws} {m : SecurePeer.Hello HS}
      {sel : SessionSelection} {s s' : StoredSession} {bConnId : Uuid} {handshake : HS}
      {noiseMessage : Bytes} :
      p.Msg2Ready networkSecret m → p.Selects sessions draws m sel s →
      draws.bConnId = .ok bConnId →
      c.writeMessage m.handshake (c.encodeMsg2 (p.msg2 m.networkName sel bConnId
        (secretProof c (utf8 networkSecret) (c.handshakeHash m.handshake)))) =
          (handshake, .ok noiseMessage) →
      s.attach draws.attachMs = some s' →
      Effect p sessions (.buildMsg2 networkSecret draws)
        (.frame (.ok (wrapPacket p.serverPeerId m.peerId packetNoiseMsg2 0 noiseMessage)))
        (p.afterMsg2 c networkSecret (p.helloKey m) handshake s' bConnId)
        (p.selectedSessions sessions draws m s')
  /-- Message 3 is refused, and the handshake lost. -/
  | lost {packet : Bytes} {confirmMs : UInt64} {e : SecureError} : e.disappeared = false →
      Effect p sessions (.finishMsg3 packet confirmMs) (.auth (.error e)) p.takeHandshake sessions
  /-- Message 3 is accepted, and the connection authenticated. -/
  | confirmed {packet : Bytes} {confirmMs : UInt64} {peerId : UInt32} {handshake : HS}
      {message : PeerConnNoiseMsg3Pb} {secret challenge : Bytes} {remotePublicKey : Key32}
      {key : SessionKey} {s : StoredSession} :
      p.Msg3Accepted c packet peerId handshake message secret challenge remotePublicKey →
      p.sessionKey = some key → sessions.lookup key = some s → p.Agrees key s →
      (∀ current, s.remotePublicKey = some current → current = remotePublicKey) →
      Effect p sessions (.finishMsg3 packet confirmMs)
        (.auth (.ok ⟨peerId, p.networkName.getD "", c.base64Encode remotePublicKey.toList,
          "NetworkSecretConfirmed"⟩))
        p.takeHandshake.authenticate (sessions.insert key (s.confirm remotePublicKey confirmMs))
  /-- The session of an authenticated connection encrypts a packet. -/
  | encrypted {packet : Bytes} {clock : PacketClock} {key : SessionKey} {s : StoredSession} :
      p.authenticated → p.sessionKey = some key → sessions.lookup key = some s → p.Agrees key s →
      Effect p sessions (.encryptPacket packet clock)
        (.frame (s.encrypt c key.serverPeerId key.peerId packet clock).1)
        (p.load (s.encrypt c key.serverPeerId key.peerId packet clock).2)
        (sessions.insert key (s.encrypt c key.serverPeerId key.peerId packet clock).2)
  /-- The session of an authenticated connection decrypts a packet. -/
  | decrypted {packet : Bytes} {clock : PacketClock} {key : SessionKey} {s : StoredSession} :
      p.authenticated → p.sessionKey = some key → sessions.lookup key = some s → p.Agrees key s →
      Effect p sessions (.decryptPacket packet clock)
        (.frame (s.decrypt c key.serverPeerId key.peerId s.clientAlgorithm packet clock).1)
        (p.load (s.decrypt c key.serverPeerId key.peerId s.clientAlgorithm packet clock).2)
        (sessions.insert key
          (s.decrypt c key.serverPeerId key.peerId s.clientAlgorithm packet clock).2)

section Calls

variable {c} {w : World HS} {h : Handle} {p : SecurePeer HS}

/-- A connection with a session has its root key. -/
theorem SecurePeer.Consistent.rootKey_isSome {sessions : SessionStore}
    (hp : p.Consistent c sessions) {key : SessionKey} (hkey : p.sessionKey = some key) :
    p.rootKey.isSome := by
  obtain ⟨s, -, hroot⟩ := hp.stored key hkey
  rw [hroot]
  rfl

theorem SecurePeer.attachedTo_of_none (p : SecurePeer HS) (hkey : p.sessionKey = none)
    (key : SessionKey) : p.attachedTo key = false := by
  simp [attachedTo, hkey]

/-- The session that message 2 selects has been counted already, or is new. -/
theorem attachments_of_selects {draws : Msg2Draws} {m : SecurePeer.Hello HS}
    {sel : SessionSelection} {s : StoredSession} {sessions : SessionStore}
    (hsel : p.Selects sessions draws m sel s) :
    s.attachments = 0 ∨ ∃ s₀, sessions.lookup (p.helloKey m) = some s₀ ∧
      s.attachments = s₀.attachments := by
  cases hsel with
  | join hs => exact .inr ⟨_, hs, rfl⟩
  | sync hs => exact .inr ⟨_, hs, rfl⟩
  | create => exact .inl rfl

/-- There are fewer connections than a session can count. -/
theorem World.Consistent.attachments_lt (hw : w.Consistent c) (hp : w.peers.lookup h = some p)
    {key : SessionKey} (hkey : p.attachedTo key = false) {s : StoredSession}
    (hs : w.sessions.lookup key = some s) : s.attachments.toNat + 1 < 2 ^ 32 := by
  have hcount := Finmap.count_lt_size (p := fun _ p => p.attachedTo key) hp hkey
  have hsize := w.peers.size_le_card
  rw [Fintype.card_fin] at hsize
  rw [hw.attachments key s hs]
  omega

/-- What a call does in a consistent world is one of the effects. -/
theorem call_cases (hw : w.Consistent c) (hp : w.peers.lookup h = some p) (call : Call) :
    Effect c p w.sessions call (p.call c w.sessions call).1 (p.call c w.sessions call).2.1
      (p.call c w.sessions call).2.2 := by
  have hcons := hw.peers h p hp
  cases call with
  | readMsg1 packet =>
    cases hread : p.readMsg1 c packet with
    | error e =>
      simp only [SecurePeer.call, hread]
      exact .refused rfl (SecurePeer.readMsg1_errorsIn p packet e hread)
    | ok result =>
      obtain ⟨info, q⟩ := result
      obtain ⟨header, handshake, message, haccepted, rfl, rfl⟩ := SecurePeer.readMsg1_eq_ok hread
      simp only [SecurePeer.call, hread]
      exact .heard haccepted
  | buildMsg2 networkSecret draws =>
    have hout := SecurePeer.buildMsg2_cases (c := c) p w.sessions networkSecret draws
    simp only [SecurePeer.call]
    generalize p.buildMsg2 c w.sessions networkSecret draws = r at hout
    cases hout with
    | refused _ he => exact .refused rfl he
    | unselected hm hup he => exact .unselected hm hup he
    | unsent hm hsel hwrite he => exact .unsent hm hsel hwrite he
    | sent hm hsel hid hwrite hattach => exact .sent hm hsel hid hwrite hattach
    | exhausted hm hsel hmax =>
      -- The connection itself is not attached, so not all connections are.
      have hfree := p.attachedTo_of_none hm.fresh
      rcases attachments_of_selects hsel with h0 | ⟨s₀, hs₀, heq⟩
      · simp [h0] at hmax
      · have hlt := hw.attachments_lt hp (hfree _) hs₀
        rw [heq] at hmax
        omega
  | finishMsg3 packet confirmMs =>
    have hout := SecurePeer.finishMsg3_cases (c := c) p w.sessions packet confirmMs
    simp only [SecurePeer.call]
    generalize p.finishMsg3 c w.sessions packet confirmMs = r at hout
    cases hout with
    | refused he => exact .refused rfl he
    | lost he =>
      refine .lost (Bool.eq_false_iff.2 fun hd => ?_)
      obtain ⟨key, hkey, hnone⟩ := he hd
      obtain ⟨s, hs, -⟩ := hcons.stored key hkey
      simp [hs] at hnone
    | confirmed haccepted hkey hs hsame =>
      obtain ⟨key', s', hkey', hs', hagrees⟩ :=
        hcons.agrees (.inr ⟨_, haccepted.hasHandshake, haccepted.theirTurn⟩)
      obtain rfl := Option.some.inj (hkey.symm.trans hkey')
      obtain rfl := Option.some.inj (hs.symm.trans hs')
      exact .confirmed haccepted hkey hs hagrees hsame
  | encryptPacket packet clock =>
    by_cases hauth : p.authenticated
    · obtain ⟨key, s, hkey, hs, hagrees⟩ := hcons.agrees (.inl hauth)
      simp only [SecurePeer.call]
      rw [SecurePeer.encryptPacket_eq hauth (hcons.rootKey_isSome hkey) hkey hs hagrees.peerId,
        hagrees.serverPeerId]
      exact .encrypted hauth hkey hs hagrees
    · simp only [SecurePeer.call]
      rw [SecurePeer.encryptPacket_of_not fun h => hauth h.1]
      exact .refused rfl rfl
  | decryptPacket packet clock =>
    by_cases hauth : p.authenticated
    · obtain ⟨key, s, hkey, hs, hagrees⟩ := hcons.agrees (.inl hauth)
      simp only [SecurePeer.call]
      rw [SecurePeer.decryptPacket_eq hauth (hcons.rootKey_isSome hkey) hkey hs hagrees.peerId
        hagrees.clientAlgorithm, hagrees.serverPeerId]
      exact .decrypted hauth hkey hs hagrees
    · simp only [SecurePeer.call]
      rw [SecurePeer.decryptPacket_of_not fun h => hauth h.1]
      exact .refused rfl rfl

end Calls

/-! ## Every reachable world is consistent -/

section Reachable

variable {c} {w : World HS} {h : Handle} {p p' : SecurePeer HS} {sessions' : SessionStore}

/-- Two stores hold sessions of the same root keys, algorithms and attachments
    under the same keys. -/
def Alike (sessions sessions' : SessionStore) : Prop :=
  ∀ key, (sessions'.lookup key).map (fun s => (s.rootKey, s.clientAlgorithm, s.attachments)) =
    (sessions.lookup key).map fun s => (s.rootKey, s.clientAlgorithm, s.attachments)

theorem Alike.refl (sessions : SessionStore) : Alike sessions sessions := fun _ => rfl

/-- Replacing a stored session by one of the same root key, algorithm and
    attachments. -/
theorem Alike.insert {sessions : SessionStore} {key : SessionKey} {s s' : StoredSession}
    (hs : sessions.lookup key = some s) (hroot : s'.rootKey = s.rootKey)
    (halg : s'.clientAlgorithm = s.clientAlgorithm) (hatt : s'.attachments = s.attachments) :
    Alike sessions (sessions.insert key s') := by
  intro key'
  rw [Finmap.lookup_insert_ite]
  split_ifs with hkey
  · rw [hkey, hs, Option.map_some, Option.map_some, hroot, halg, hatt]
  · rfl

theorem Alike.lookup {sessions : SessionStore} (ha : Alike sessions sessions') {key : SessionKey}
    {s : StoredSession} (hs : sessions.lookup key = some s) :
    ∃ s', sessions'.lookup key = some s' ∧ s'.rootKey = s.rootKey ∧
      s'.clientAlgorithm = s.clientAlgorithm ∧ s'.attachments = s.attachments := by
  have hkey := ha key
  rw [hs, Option.map_some, Option.map_eq_some_iff] at hkey
  obtain ⟨s', hs', heq⟩ := hkey
  simp only [Prod.mk.injEq] at heq
  exact ⟨s', hs', heq⟩

theorem Alike.symm {sessions : SessionStore} (ha : Alike sessions sessions') :
    Alike sessions' sessions := fun key => (ha key).symm

theorem Alike.size {sessions : SessionStore} (ha : Alike sessions sessions') :
    sessions'.size = sessions.size := by
  rw [Finmap.size_eq_card_keys, Finmap.size_eq_card_keys]
  congr 1
  ext key
  have hkey := congrArg Option.isSome (ha key)
  rw [Option.isSome_map, Option.isSome_map] at hkey
  rw [Finmap.mem_keys, Finmap.mem_keys, ← Finmap.lookup_isSome, ← Finmap.lookup_isSome, hkey]

/-- A connection fits with a store that keeps the root key and the algorithm of
    its session. -/
theorem SecurePeer.Consistent.mono {sessions : SessionStore} (hp : p.Consistent c sessions)
    (hkeep : ∀ key s, p.sessionKey = some key → sessions.lookup key = some s →
      ∃ s', sessions'.lookup key = some s' ∧ s'.rootKey = s.rootKey ∧
        s'.clientAlgorithm = s.clientAlgorithm) : p.Consistent c sessions' where
  attached := hp.attached
  stored key hkey := by
    obtain ⟨s, hs, hroot⟩ := hp.stored key hkey
    obtain ⟨s', hs', hroot', -⟩ := hkeep key s hkey hs
    exact ⟨s', hs', by rw [hroot, hroot']⟩
  agrees hengaged := by
    obtain ⟨key, s, hkey, hs, hagrees⟩ := hp.agrees hengaged
    obtain ⟨s', hs', -, halg⟩ := hkeep key s hkey hs
    exact ⟨key, s', hkey, hs', { hagrees with clientAlgorithm := by rw [halg, hagrees.clientAlgorithm] }⟩
  finished := hp.finished

theorem SecurePeer.Consistent.of_alike {sessions : SessionStore} (hp : p.Consistent c sessions)
    (ha : Alike sessions sessions') : p.Consistent c sessions' :=
  hp.mono fun key s _ hs => by
    obtain ⟨s', hs', hroot, halg, -⟩ := ha.lookup hs
    exact ⟨s', hs', hroot, halg⟩

/-- A step that neither attaches nor detaches keeps a world consistent. -/
theorem World.Consistent.of_alike (hw : w.Consistent c) (hp : w.peers.lookup h = some p)
    (hkey : p'.sessionKey = p.sessionKey) (hatt : p'.sessionAttached = p.sessionAttached)
    (ha : Alike w.sessions sessions') (hp' : p'.Consistent c w.sessions) :
    World.Consistent c { sessions := sessions', peers := w.peers.insert h p' } where
  peers h₂ p₂ h₂₂ := by
    rw [Finmap.lookup_insert_ite] at h₂₂
    split_ifs at h₂₂ with heq
    · obtain rfl := Option.some.inj h₂₂
      exact hp'.of_alike ha
    · exact (hw.peers h₂ p₂ h₂₂).of_alike ha
  attachments key s' hs' := by
    obtain ⟨s, hs, -, -, heq⟩ := ha.symm.lookup hs'
    rw [← heq, hw.attachments key s hs]
    refine (Finmap.count_insert_of_lookup hp ?_).symm
    simp only [SecurePeer.attachedTo, hkey, hatt]
  size := ha.size ▸ hw.size

/-- A session with an attached connection is not idle. -/
theorem World.Consistent.retained (hw : w.Consistent c) (hp : w.peers.lookup h = some p)
    {key : SessionKey} {s : StoredSession} (hkey : p.attachedTo key)
    (hs : w.sessions.lookup key = some s) (now : UInt64) : s.retained now := by
  have hpos : 0 < w.peers.count fun _ p => p.attachedTo key := Finmap.count_pos_iff.2 ⟨h, p, hp, hkey⟩
  rw [← hw.attachments key s hs] at hpos
  have : 0 < s.attachments := by
    rw [UInt32.lt_iff_toNat_lt]
    exact hpos
  simp [StoredSession.retained, this]

theorem SecurePeer.Consistent.attachedTo {sessions : SessionStore} (hp : p.Consistent c sessions)
    {key : SessionKey} (hkey : p.sessionKey = some key) : p.attachedTo key := by
  simp [SecurePeer.attachedTo, hp.attached, hkey]

/-- The idle `retain` keeps the session of every connection. -/
theorem World.Consistent.lookup_retainedSessions (hw : w.Consistent c)
    (hp : w.peers.lookup h = some p) {key : SessionKey} (hkey : p.sessionKey = some key)
    (now : UInt64) :
    (retainedSessions w.sessions now).lookup key = w.sessions.lookup key := by
  obtain ⟨s, hs, -⟩ := (hw.peers h p hp).stored key hkey
  rw [EasyTierEdge.lookup_retainedSessions, hs, Option.filter_some,
    if_pos (hw.retained hp ((hw.peers h p hp).attachedTo hkey) hs now)]

/-- A key whose session the idle `retain` does not keep has no connections. -/
theorem World.Consistent.count_eq_zero (hw : w.Consistent c) {key : SessionKey} {now : UInt64}
    (hnone : (retainedSessions w.sessions now).lookup key = none) :
    (w.peers.count fun _ p => p.attachedTo key) = 0 := by
  by_contra hne
  obtain ⟨h, p, hp, hatt⟩ := Finmap.count_pos_iff.1 (Nat.pos_of_ne_zero hne)
  have hkey : p.sessionKey = some key := by
    simp only [SecurePeer.attachedTo, Bool.and_eq_true, beq_iff_eq] at hatt
    exact hatt.2
  obtain ⟨s, hs, -⟩ := (hw.peers h p hp).stored key hkey
  rw [hw.lookup_retainedSessions hp hkey, hs] at hnone
  cases hnone

/-- Dropping the idle sessions keeps a world consistent. -/
theorem World.Consistent.retain (hw : w.Consistent c) (now : UInt64) :
    World.Consistent c { w with sessions := retainedSessions w.sessions now } where
  peers h p hp := (hw.peers h p hp).mono fun key s hkey hs =>
    ⟨s, by rw [hw.lookup_retainedSessions hp hkey, hs], rfl, rfl⟩
  attachments key s hs := by
    rw [EasyTierEdge.lookup_retainedSessions, Option.filter_eq_some_iff] at hs
    exact hw.attachments key s hs.1
  size := (Finmap.size_retain_le _ _).trans hw.size

/-- What selecting a session leaves of the one stored under the same key. -/
theorem Selected.keeps {sessions : SessionStore} {key : SessionKey} {generation : Option UInt32}
    {algorithm : String} {random : Except String Key32} {now : UInt64} {sel : SessionSelection}
    {s s₀ : StoredSession} (hsel : Selected sessions key generation algorithm random now sel s)
    (hs₀ : (retainedSessions sessions now).lookup key = some s₀) :
    s.rootKey = s₀.rootKey ∧ s.clientAlgorithm = s₀.clientAlgorithm ∧
      s.attachments = s₀.attachments := by
  cases hsel with
  | join hs hret =>
    rw [EasyTierEdge.lookup_retainedSessions, hs, Option.filter_some, if_pos hret] at hs₀
    obtain rfl := Option.some.inj hs₀
    exact ⟨rfl, rfl, rfl⟩
  | sync hs hret =>
    rw [EasyTierEdge.lookup_retainedSessions, hs, Option.filter_some, if_pos hret] at hs₀
    obtain rfl := Option.some.inj hs₀
    exact ⟨rfl, rfl, rfl⟩
  | create hnone => simp [hnone] at hs₀

/-- Selecting a session keeps a world consistent. -/
theorem World.Consistent.select (hw : w.Consistent c) {key : SessionKey}
    {generation : Option UInt32} {algorithm : String} {random : Except String Key32} {now : UInt64}
    {sel : SessionSelection} {s : StoredSession}
    (hsel : Selected w.sessions key generation algorithm random now sel s) :
    World.Consistent c { w with sessions := (retainedSessions w.sessions now).insert key s } := by
  have hret := hw.retain now
  cases hs₀ : (retainedSessions w.sessions now).lookup key with
  | some s₀ =>
    obtain ⟨hroot, halg, hatt⟩ := hsel.keeps hs₀
    have ha := Alike.insert hs₀ hroot halg hatt
    exact
      { peers := fun h p hp => (hret.peers h p hp).of_alike ha
        attachments := fun key' s' hs' => by
          obtain ⟨s₁, hs₁, -, -, heq⟩ := ha.symm.lookup hs'
          rw [← heq]
          exact hret.attachments key' s₁ hs₁
        size := ha.size ▸ hret.size }
  | none =>
    -- A session is created, under a key without connections.
    obtain ⟨hatt, hsize⟩ : s.attachments = 0 ∧
        (retainedSessions w.sessions now).size < maxStoredSessions := by
      cases hsel with
      | join hs hr => simp [EasyTierEdge.lookup_retainedSessions, hs, hr] at hs₀
      | sync hs hr => simp [EasyTierEdge.lookup_retainedSessions, hs, hr] at hs₀
      | create _ hsize => exact ⟨rfl, hsize⟩
    refine ⟨fun h p hp => (hret.peers h p hp).mono fun key' s' hkey hs' => ?_, fun key' s' hs' => ?_, ?_⟩
    · refine ⟨s', ?_, rfl, rfl⟩
      have hne : key' ≠ key := fun heq => by
        replace hs' : (retainedSessions w.sessions now).lookup key' = some s' := hs'
        rw [heq, hs₀] at hs'
        cases hs'
      rw [Finmap.lookup_insert_of_ne _ hne]
      exact hs'
    · replace hs' : ((retainedSessions w.sessions now).insert key s).lookup key' = some s' := hs'
      rw [Finmap.lookup_insert_ite] at hs'
      split_ifs at hs' with heq
      · obtain rfl := Option.some.inj hs'
        change _ = w.peers.count _
        rw [heq, hw.count_eq_zero hs₀, hatt]
        rfl
      · exact hret.attachments key' s' hs'
    · change ((retainedSessions w.sessions now).insert key s).size ≤ _
      rw [Finmap.size_insert_of_notMem _ (Finmap.lookup_eq_none.1 hs₀)]
      exact hsize

/-- Attaching a connection to a session keeps a world consistent. -/
theorem World.Consistent.attach (hw : w.Consistent c) (hp : w.peers.lookup h = some p)
    (hfresh : p.sessionKey = none) {key : SessionKey} {s s' : StoredSession} {ms : UInt64}
    (hs : w.sessions.lookup key = some s) (hattach : s.attach ms = some s') (p' : SecurePeer HS)
    (hkey : p'.sessionKey = some key) (hatt : p'.sessionAttached = true)
    (hp' : p'.Consistent c (w.sessions.insert key s')) :
    World.Consistent c
      { sessions := w.sessions.insert key s', peers := w.peers.insert h p' } := by
  obtain ⟨attachments, hadd, rfl⟩ := Option.map_eq_some_iff.1 hattach
  have hadd := UInt32.checkedAdd_one_eq_some hadd
  refine ⟨fun h₂ p₂ hp₂ => ?_, fun key' s₂ hs₂ => ?_, ?_⟩
  · simp only [Finmap.lookup_insert_ite] at hp₂
    split_ifs at hp₂ with heq
    · obtain rfl := Option.some.inj hp₂
      exact hp'
    · refine (hw.peers h₂ p₂ hp₂).mono fun key₂ s₂ _ hs₂ => ?_
      rw [Finmap.lookup_insert_ite]
      split_ifs with hkey₂
      · rw [hkey₂, hs] at hs₂
        obtain rfl := Option.some.inj hs₂
        exact ⟨_, rfl, rfl, rfl⟩
      · exact ⟨s₂, hs₂, rfl, rfl⟩
  · -- One more connection, and one more attachment, for `key` and for no other key.
    have hfree := p.attachedTo_of_none hfresh key'
    have hcount := Finmap.count_insert (fun _ p => SecurePeer.attachedTo p key') h p' w.peers
    have hbefore := Finmap.count_eq_erase_add (fun _ p => SecurePeer.attachedTo p key') hp
    simp only [hfree, Bool.false_eq_true, if_false, add_zero] at hbefore
    simp only [Finmap.lookup_insert_ite] at hs₂
    change s₂.attachments.toNat = Finmap.count _ (w.peers.insert h p')
    rw [hcount, ← hbefore]
    split_ifs at hs₂ with heq
    · obtain rfl := Option.some.inj hs₂
      have hmine : p'.attachedTo key = true := by simp [SecurePeer.attachedTo, hatt, hkey]
      rw [heq, hmine, if_pos rfl, ← hw.attachments key s hs, hadd]
    · have hother : p'.attachedTo key' = false := by
        simpa [SecurePeer.attachedTo, hatt, hkey] using Ne.symm heq
      rw [hother, if_neg Bool.false_ne_true, add_zero]
      exact hw.attachments key' s₂ hs₂
  · change (w.sessions.insert key _).size ≤ _
    rw [Finmap.size_insert_of_mem _ (Finmap.mem_of_lookup_eq_some hs)]
    exact hw.size

/-- Saving the traffic state of a session keeps what connections rely on. -/
theorem Alike.of_frame {sessions : SessionStore} {key : SessionKey} {s s' : StoredSession}
    {ms : UInt64} (hs : sessions.lookup key = some s) (hframe : s' = s ∨ ∃ t, s' = s.save t ms) :
    Alike sessions (sessions.insert key s') ∧ s'.rootKey = s.rootKey := by
  rcases hframe with rfl | ⟨t, rfl⟩
  · exact ⟨.insert hs rfl rfl rfl, rfl⟩
  · exact ⟨.insert hs rfl rfl rfl, rfl⟩

/-- A connection whose session was loaded again. -/
theorem SecurePeer.Consistent.load {sessions : SessionStore} (hp : p.Consistent c sessions)
    {key : SessionKey} {s s' : StoredSession} (hkey : p.sessionKey = some key)
    (hs : sessions.lookup key = some s) (hroot : s'.rootKey = s.rootKey) :
    (p.load s').Consistent c sessions where
  attached := hp.attached
  stored key' hkey' := by
    obtain rfl := Option.some.inj (hkey.symm.trans hkey')
    exact ⟨s, hs, congrArg some hroot⟩
  agrees hengaged := by
    obtain ⟨key', s₂, hkey', hs₂, hagrees⟩ := hp.agrees hengaged
    exact ⟨key', s₂, hkey', hs₂, { hagrees with }⟩
  finished := hp.finished

/-- A connection that has not sent message 2 is not engaged. -/
theorem SecurePeer.Consistent.not_engaged {sessions : SessionStore} (hp : p.Consistent c sessions)
    (hfresh : p.sessionKey = none) : ¬p.Engaged c := by
  intro hengaged
  obtain ⟨key, s, hkey, -⟩ := hp.agrees hengaged
  simp [hfresh] at hkey

/-- A connection that is not engaged fits with the stored sessions by its session
    key and root key alone. -/
theorem SecurePeer.Consistent.of_not_engaged {sessions : SessionStore}
    (hp : p.Consistent c sessions) (hkey : p'.sessionKey = p.sessionKey)
    (hatt : p'.sessionAttached = p.sessionAttached) (hroot : p'.rootKey = p.rootKey)
    (hengaged : ¬p'.Engaged c) : p'.Consistent c sessions where
  attached := by rw [hatt, hkey, hp.attached]
  stored key hkey' := by
    obtain ⟨s, hs, hroot'⟩ := hp.stored key (hkey ▸ hkey')
    exact ⟨s, hs, hroot.trans hroot'⟩
  agrees h := absurd h hengaged
  finished h := absurd (.inl h) hengaged

/-- The session a message 2 selects has the client's algorithm. -/
theorem Selected.clientAlgorithm {sessions : SessionStore} {key : SessionKey}
    {generation : Option UInt32} {algorithm : String} {random : Except String Key32} {now : UInt64}
    {sel : SessionSelection} {s : StoredSession}
    (hsel : Selected sessions key generation algorithm random now sel s) :
    s.clientAlgorithm = algorithm := by
  cases hsel with
  | join _ _ halg => exact halg
  | sync _ _ halg => exact halg
  | create => rfl

/-- A connection once message 2 is sent fits with its session. -/
theorem SecurePeer.Consistent.sent {sessions sessions' : SessionStore}
    (hp : p.Consistent c sessions) {networkSecret : String} {m : SecurePeer.Hello HS}
    (hm : p.Msg2Ready networkSecret m) {handshake : HS} {s : StoredSession} {bConnId : Uuid}
    (halg : s.clientAlgorithm = m.clientAlgorithm)
    (hs : sessions'.lookup (p.helloKey m) = some s) :
    (p.afterMsg2 c networkSecret (p.helloKey m) handshake s bConnId).Consistent c sessions' where
  attached := rfl
  stored key hkey := by
    obtain rfl := Option.some.inj hkey
    exact ⟨s, hs, rfl⟩
  agrees _ := by
    refine ⟨_, s, rfl, hs, hm.peerId, hm.networkName, rfl, rfl, ?_⟩
    rw [halg]
    exact hm.clientAlgorithm
  finished hauth := absurd (.inl hauth) (hp.not_engaged hm.fresh)

/-- Every call keeps a world consistent. -/
theorem World.Consistent.call (hw : w.Consistent c) (hp : w.peers.lookup h = some p)
    {call : Call} {out : Output} (heff : Effect c p w.sessions call out p' sessions') :
    World.Consistent c { sessions := sessions', peers := w.peers.insert h p' } := by
  have hcons := hw.peers h p hp
  cases heff with
  | refused => exact hw.of_alike hp rfl rfl (.refl _) hcons
  | heard haccepted =>
    refine hw.of_alike hp rfl rfl (.refl _) (hcons.of_not_engaged rfl rfl rfl ?_)
    rintro (hauth | ⟨handshake, hhandshake, hturn⟩)
    · exact absurd hauth (by simp [SecurePeer.afterMsg1, haccepted.unauthenticated])
    · obtain rfl := Option.some.inj hhandshake
      simp [haccepted.myTurn] at hturn
  | unselected => exact (hw.retain _).of_alike hp rfl rfl (.refl _) ((hw.retain _).peers h p hp)
  | unsent hm hsel hwrite =>
    have hw₁ := hw.select hsel
    have hcons₁ := hw₁.peers h p hp
    refine hw₁.of_alike hp rfl rfl (.refl _) (hcons₁.of_not_engaged rfl rfl rfl ?_)
    rintro (hauth | ⟨handshake, hhandshake, hturn'⟩)
    · exact hcons₁.not_engaged hm.fresh (.inl hauth)
    · obtain rfl := Option.some.inj hhandshake
      exact hcons₁.not_engaged hm.fresh (.inr ⟨_, hm.handshake, hwrite.turn ▸ hturn'⟩)
  | @sent _ draws m sel s s' bConnId handshake _ hm hsel hid hwrite hattach =>
    have halg : s'.clientAlgorithm = m.clientAlgorithm := by
      rw [StoredSession.eq_of_attach hattach]
      exact hsel.clientAlgorithm
    have hwhole := (hw.select hsel).attach hp hm.fresh (Finmap.lookup_insert _) hattach
      (p.afterMsg2 c _ (p.helloKey m) handshake s' bConnId) rfl rfl
      (hcons.sent hm halg (Finmap.lookup_insert _))
    rw [Finmap.insert_insert] at hwhole
    exact hwhole
  | lost =>
    refine hw.of_alike hp rfl rfl (.refl _) ?_
    exact
      { attached := hcons.attached
        stored := hcons.stored
        agrees := by
          rintro (hauth | ⟨handshake, hhandshake, -⟩)
          · obtain ⟨key, s, hkey, hs, hagrees⟩ := hcons.agrees (.inl hauth)
            exact ⟨key, s, hkey, hs, { hagrees with }⟩
          · cases hhandshake
        finished := fun _ => rfl }
  | confirmed haccepted hkey hs hagrees =>
    refine hw.of_alike hp rfl rfl (.insert hs rfl rfl rfl) ?_
    exact
      { attached := hcons.attached
        stored := hcons.stored
        agrees := fun _ => ⟨_, _, hkey, hs, { hagrees with }⟩
        finished := fun _ => rfl }
  | encrypted _ hkey hs =>
    obtain ⟨ha, hroot⟩ := Alike.of_frame hs (StoredSession.encrypt_frame c _ _ _ _ _)
    exact hw.of_alike hp rfl rfl ha (hcons.load hkey hs hroot)
  | decrypted _ hkey hs =>
    obtain ⟨ha, hroot⟩ := Alike.of_frame hs (StoredSession.decrypt_frame c _ _ _ _ _ _)
    exact hw.of_alike hp rfl rfl ha (hcons.load hkey hs hroot)

/-- A new connection fits with any store. -/
theorem SecurePeer.consistent_new {localPrivate localPublic : String} {serverPeerId : UInt32}
    {ms : UInt64} (hnew : SecurePeer.new c localPrivate localPublic serverPeerId ms = .ok p)
    (sessions : SessionStore) : p.sessionKey = none ∧ p.Consistent c sessions := by
  simp only [SecurePeer.new, Except.bind_eq_ok, Except.rejectIf_eq_ok, Except.pure_eq_ok] at hnew
  obtain ⟨-, -, -, -, -, -, -, -, rfl⟩ := hnew
  exact ⟨rfl, ⟨rfl, fun _ hkey => by simp at hkey, by rintro (h | ⟨_, h, -⟩) <;> simp at h,
    fun _ => rfl⟩⟩

/-- A connection more, without a session, keeps a world consistent. -/
theorem World.Consistent.new (hw : w.Consistent c) (hnone : w.peers.lookup h = none)
    (hfresh : p.sessionKey = none) (hp : p.Consistent c w.sessions) :
    World.Consistent c { w with peers := w.peers.insert h p } where
  peers h₂ p₂ hp₂ := by
    simp only [Finmap.lookup_insert_ite] at hp₂
    split_ifs at hp₂ with heq
    · obtain rfl := Option.some.inj hp₂
      exact hp
    · exact hw.peers h₂ p₂ hp₂
  attachments key s hs := by
    have hcount := Finmap.count_insert (fun _ p => SecurePeer.attachedTo p key) h p w.peers
    rw [p.attachedTo_of_none hfresh, Finmap.erase_eq_self (Finmap.lookup_eq_none.1 hnone),
      if_neg Bool.false_ne_true, add_zero] at hcount
    exact (hw.attachments key s hs).trans hcount.symm
  size := hw.size

/-- What dropping a connection leaves of the stored sessions. -/
theorem SecurePeer.lookup_drop (p : SecurePeer HS) (sessions : SessionStore) (ms : UInt64)
    (key : SessionKey) :
    (p.drop sessions ms).lookup key =
      if p.attachedTo key then (sessions.lookup key).map (StoredSession.detach · ms)
      else sessions.lookup key := by
  unfold drop attachedTo
  cases p.sessionAttached with
  | false => rfl
  | true =>
    cases p.sessionKey with
    | none => simp
    | some key' =>
      simp only [if_true, Finmap.lookup_modify, Bool.true_and, beq_iff_eq, Option.some.injEq,
        eq_comm (a := key)]
      rfl

/-- A connection less keeps a world consistent. -/
theorem World.Consistent.drop (hw : w.Consistent c) (hp : w.peers.lookup h = some p) (ms : UInt64) :
    World.Consistent c { sessions := p.drop w.sessions ms, peers := w.peers.erase h } where
  peers h₂ p₂ hp₂ := by
    simp only [Finmap.lookup_erase_ite] at hp₂
    split_ifs at hp₂ with heq
    refine (hw.peers h₂ p₂ hp₂).mono fun key s _ hs => ?_
    rw [p.lookup_drop]
    split_ifs
    · exact ⟨s.detach ms, by rw [hs, Option.map_some], rfl, rfl⟩
    · exact ⟨s, hs, rfl, rfl⟩
  attachments key s hs := by
    have hcount := Finmap.count_eq_erase_add (fun _ p => SecurePeer.attachedTo p key) hp
    simp only [p.lookup_drop] at hs
    change s.attachments.toNat = Finmap.count _ (w.peers.erase h)
    split_ifs at hs with hkey
    · obtain ⟨s₀, hs₀, rfl⟩ := Option.map_eq_some_iff.1 hs
      rw [hkey, if_pos rfl, ← hw.attachments key s₀ hs₀] at hcount
      simp only [StoredSession.detach, UInt32.toNat_saturatingSub, UInt32.toNat_one]
      omega
    · rw [if_neg hkey, add_zero, ← hw.attachments key s hs] at hcount
      exact hcount
  size := by
    change (p.drop w.sessions ms).size ≤ _
    unfold SecurePeer.drop
    split_ifs
    · cases p.sessionKey with
      | none => exact hw.size
      | some key => rw [Finmap.size_modify]; exact hw.size
    · exact hw.size

/-- Every step keeps a world consistent. -/
theorem World.Consistent.step (hw : w.Consistent c) (op : Op) : (w.step c op).1.Consistent c := by
  cases op with
  | new h localPrivate localPublic serverPeerId ms =>
    simp only [World.step]
    cases hp : w.peers.lookup h with
    | some p => exact hw
    | none =>
      cases hnew : SecurePeer.new c localPrivate localPublic serverPeerId ms with
      | error e => exact hw
      | ok p =>
        obtain ⟨hfresh, hcons⟩ := SecurePeer.consistent_new hnew w.sessions
        exact hw.new hp hfresh hcons
  | call h call =>
    simp only [World.step]
    cases hp : w.peers.lookup h with
    | none => exact hw
    | some p => exact hw.call hp (call_cases hw hp call)
  | drop h ms =>
    simp only [World.step]
    cases hp : w.peers.lookup h with
    | none => exact hw
    | some p => exact hw.drop hp ms

theorem consistent_of_reachable (hw : (store c).Reachable w) : w.Consistent c :=
  hw.invariant
    ⟨fun h p hp => by simp [store] at hp, fun key s hs => by simp [store] at hs,
      Nat.zero_le _⟩
    fun _ op hw => hw.step op

end Reachable

end EasyTierEdge
