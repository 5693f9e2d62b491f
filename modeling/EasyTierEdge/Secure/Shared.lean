import EasyTierEdge.Secure.History

/-!
# Shared sessions

The connections of one client share its stored session: every packet loads it,
and saves it afterwards. So the copies a connection keeps of the root key and the
traffic state have no influence on what it does (`SameButCaches.step`), and it does
not matter which of the connections a packet goes through (`shared_session_as_one`).
-/

namespace EasyTierEdge

variable {HS : Type} {c : Crates HS}

/-! ## Cached copies -/

/-- The connection with other cached copies of the root key and the traffic state. -/
def SecurePeer.recache (p : SecurePeer HS) (r : Option Key32) (t : TrafficState) : SecurePeer HS :=
  { p with rootKey := r, toTrafficState := t }

namespace SecurePeer

variable (p : SecurePeer HS) (r : Option Key32) (t : TrafficState) (sessions : SessionStore)

@[simp] theorem recache_peerId : (p.recache r t).peerId = p.peerId := rfl
@[simp] theorem recache_networkName : (p.recache r t).networkName = p.networkName := rfl
@[simp] theorem recache_clientAlgorithm :
    (p.recache r t).clientAlgorithm = p.clientAlgorithm := rfl
@[simp] theorem recache_handshake : (p.recache r t).handshake = p.handshake := rfl
@[simp] theorem recache_serverPeerId : (p.recache r t).serverPeerId = p.serverPeerId := rfl
@[simp] theorem recache_sessionKey : (p.recache r t).sessionKey = p.sessionKey := rfl
@[simp] theorem recache_authenticated : (p.recache r t).authenticated = p.authenticated := rfl
@[simp] theorem recache_rootKey : (p.recache r t).rootKey = r := rfl
@[simp] theorem recache_load (s : StoredSession) : (p.recache r t).load s = p.load s := rfl

/-- `q` is `p` with other cached copies, and has a root key if `p` has one. -/
def Recached (p q : SecurePeer HS) : Prop :=
  ∃ r t, q = p.recache r t ∧ r.isSome = p.rootKey.isSome

theorem Recached.refl (p : SecurePeer HS) : p.Recached p := ⟨p.rootKey, p.toTrafficState, rfl, rfl⟩

variable {p} in
theorem Recached.symm {q : SecurePeer HS} (h : p.Recached q) : q.Recached p := by
  obtain ⟨r, t, rfl, hr⟩ := h
  exact ⟨p.rootKey, p.toTrafficState, rfl, hr.symm⟩

variable {p} in
theorem Recached.trans {q q' : SecurePeer HS} (h : p.Recached q) (h' : q.Recached q') :
    p.Recached q' := by
  obtain ⟨r, t, rfl, hr⟩ := h
  obtain ⟨r', t', rfl, hr'⟩ := h'
  exact ⟨r', t', rfl, hr'.trans hr⟩

variable {p} in
/-- Loading a session changes cached copies only. -/
theorem Recached.of_load (h : p.rootKey.isSome) (s : StoredSession) : p.Recached (p.load s) :=
  ⟨some s.rootKey, s.toTrafficState, rfl, h.symm⟩

/-- What two methods return is the same, but for cached copies. -/
def SameResult {α : Type} (a b : α × SecurePeer HS × SessionStore) : Prop :=
  b.1 = a.1 ∧ a.2.1.Recached b.2.1 ∧ b.2.2 = a.2.2

theorem SameResult.refl {α : Type} (a : α × SecurePeer HS × SessionStore) : SameResult a a :=
  ⟨rfl, .refl _, rfl⟩

variable {p r t}

/-- A method that leaves the connection alone. -/
theorem SameResult.unchanged {α : Type} (out : α) (hr : r.isSome = p.rootKey.isSome)
    (sessions : SessionStore) : SameResult (out, p, sessions) (out, p.recache r t, sessions) :=
  ⟨rfl, ⟨r, t, rfl, hr⟩, rfl⟩

/-- Attaching loads the session. -/
theorem attachMsg2_recache (hr : r.isSome = p.rootKey.isSome) (peerId : UInt32) (bConnId : Uuid)
    (noiseMessage : Bytes) (attachMs : UInt64) :
    SameResult (p.attachMsg2 sessions peerId bConnId noiseMessage attachMs)
      ((p.recache r t).attachMsg2 sessions peerId bConnId noiseMessage attachMs) := by
  unfold attachMsg2 attachSession
  simp only [recache_sessionKey]
  cases hkey : p.sessionKey with
  | none => exact .unchanged _ hr _
  | some key =>
    simp only
    cases sessions.lookup key with
    | none => exact .unchanged _ hr _
    | some s =>
      simp only
      cases s.attachments.checkedAdd 1 with
      | none => exact .unchanged _ hr _
      | some attachments =>
        simp only [loadSessionState, Finmap.lookup_insert]
        exact .refl _

/-- Message 2 loads the session it selects. -/
theorem buildMsg2_recache (hr : r.isSome = p.rootKey.isSome) (networkSecret : String)
    (draws : Msg2Draws) :
    SameResult (p.buildMsg2 c sessions networkSecret draws)
      ((p.recache r t).buildMsg2 c sessions networkSecret draws) := by
  unfold buildMsg2
  by_cases hsecret : networkSecret = ""
  · rw [if_pos hsecret, if_pos hsecret]
    exact .unchanged _ hr _
  rw [if_neg hsecret, if_neg hsecret]
  by_cases hbuilt : p.sessionKey.isSome
  · rw [if_pos hbuilt, if_pos (by exact hbuilt)]
    exact .unchanged _ hr _
  · rw [if_neg hbuilt, if_neg (by exact hbuilt)]
    simp only [recache_peerId, recache_networkName, recache_handshake, recache_clientAlgorithm]
    split
    · exact .unchanged _ hr _
    · exact .unchanged _ hr _
    · exact .unchanged _ hr _
    · exact .unchanged _ hr _
    · rename_i peerId networkName handshake algorithm _ _ _ _
      have hkey : (p.recache r t).msg2SessionKey networkName peerId =
          p.msg2SessionKey networkName peerId := rfl
      rw [hkey, show (p.recache r t).aSessionGeneration = p.aSessionGeneration from rfl]
      rcases upsertSession sessions (p.msg2SessionKey networkName peerId) p.aSessionGeneration
        algorithm draws.rootKey draws.upsertMs with ⟨e | sel, sessions'⟩
      · exact .unchanged _ hr _
      · simp only [sendMsg2]
        cases draws.bConnId with
        | error e => exact .unchanged _ hr _
        | ok bConnId =>
          have hmsg : ∀ proof, (p.recache r t).msg2 networkName sel bConnId proof =
              p.msg2 networkName sel bConnId proof := fun _ => rfl
          simp only [hmsg]
          rcases c.writeMessage handshake (c.encodeMsg2 (p.msg2 networkName sel bConnId
            (secretProof c (utf8 networkSecret) (c.handshakeHash handshake)))) with
            ⟨handshake', e | noiseMessage⟩
          · exact ⟨rfl, ⟨r, t, rfl, hr⟩, rfl⟩
          · refine attachMsg2_recache (r := some sel.sessionRootKey) (t := t) sessions' ?_ peerId
              bConnId noiseMessage draws.attachMs
            rfl

/-- Message 3 does not use the cached copies. -/
theorem finishMsg3_recache (hr : r.isSome = p.rootKey.isSome) (packet : Bytes)
    (confirmMs : UInt64) :
    SameResult (p.finishMsg3 c sessions packet confirmMs)
      ((p.recache r t).finishMsg3 c sessions packet confirmMs) := by
  unfold finishMsg3
  rw [recache_peerId]
  split
  · exact .unchanged _ hr _
  · rename_i header payload _
    split
    · exact .unchanged _ hr _
    · rename_i peerId _
      by_cases henv : header.packetType ≠ packetNoiseMsg3 || header.fromPeerId ≠ peerId ||
          header.toPeerId ≠ p.serverPeerId || header.encrypted
      · rw [if_pos henv, if_pos (by exact henv)]
        exact .unchanged _ hr _
      · rw [if_neg henv, if_neg (by exact henv)]
        simp only [recache_sessionKey, recache_handshake, recache_networkName]
        split
        · exact .unchanged _ hr _
        · rename_i handshake _
          rw [show ∀ payload, (p.recache r t).checkMsg3 c handshake payload =
            p.checkMsg3 c handshake payload from fun _ => rfl]
          split
          · exact ⟨rfl, ⟨r, t, rfl, hr⟩, rfl⟩
          · split
            · exact ⟨rfl, ⟨r, t, rfl, hr⟩, rfl⟩
            · split
              · exact ⟨rfl, ⟨r, t, rfl, hr⟩, rfl⟩
              · exact ⟨rfl, ⟨r, t, rfl, hr⟩, rfl⟩

/-- A packet is processed with the stored session. -/
theorem loadSessionState_recache (hr : r.isSome = p.rootKey.isSome) :
    (p.recache r t).ensureAuthenticated = p.ensureAuthenticated ∧
      (p.recache r t).loadSessionState sessions = p.loadSessionState sessions := by
  refine ⟨by simp only [ensureAuthenticated, recache_authenticated, recache_rootKey, hr], ?_⟩
  simp only [loadSessionState, recache_sessionKey, recache_load]

theorem encryptPacket_recache (hr : r.isSome = p.rootKey.isSome) (packet : Bytes)
    (clock : PacketClock) :
    SameResult (p.encryptPacket c sessions packet clock)
      ((p.recache r t).encryptPacket c sessions packet clock) := by
  obtain ⟨hauth, hload⟩ := loadSessionState_recache (t := t) sessions hr
  unfold encryptPacket
  rw [hauth, hload]
  cases p.ensureAuthenticated with
  | error e => exact .unchanged _ hr _
  | ok u =>
    cases p.loadSessionState sessions with
    | error e => exact .unchanged _ hr _
    | ok q => exact .refl _

theorem decryptPacket_recache (hr : r.isSome = p.rootKey.isSome) (packet : Bytes)
    (clock : PacketClock) :
    SameResult (p.decryptPacket c sessions packet clock)
      ((p.recache r t).decryptPacket c sessions packet clock) := by
  obtain ⟨hauth, hload⟩ := loadSessionState_recache (t := t) sessions hr
  unfold decryptPacket
  rw [hauth, hload]
  cases p.ensureAuthenticated with
  | error e => exact .unchanged _ hr _
  | ok u =>
    cases p.loadSessionState sessions with
    | error e => exact .unchanged _ hr _
    | ok q => exact .refl _

/-- Message 1 does not use the cached copies. -/
theorem readMsg1_recache (packet : Bytes) :
    (p.recache r t).readMsg1 c packet =
      (p.readMsg1 c packet).map fun (info, q) => (info, q.recache r t) := by
  unfold readMsg1
  simp only [Except.map_bind, recache_handshake]
  rfl

/-- What a method returns does not depend on the cached copies. -/
theorem Recached.call {q : SecurePeer HS} (h : p.Recached q) (call : Call) :
    SameResult (p.call c sessions call) (q.call c sessions call) := by
  obtain ⟨r, t, rfl, hr⟩ := h
  cases call with
  | readMsg1 packet =>
    simp only [SecurePeer.call, readMsg1_recache]
    cases hread : p.readMsg1 c packet with
    | error e => exact .unchanged _ hr _
    | ok result =>
      obtain ⟨info, q⟩ := result
      obtain ⟨header, handshake, message, -, -, rfl⟩ := readMsg1_eq_ok hread
      exact ⟨rfl, ⟨r, t, rfl, hr⟩, rfl⟩
  | buildMsg2 networkSecret draws =>
    obtain ⟨hout, hpeer, hsessions⟩ := buildMsg2_recache (c := c) (t := t) sessions hr networkSecret draws
    exact ⟨congrArg Output.frame hout, hpeer, hsessions⟩
  | finishMsg3 packet ms =>
    obtain ⟨hout, hpeer, hsessions⟩ := finishMsg3_recache (c := c) (t := t) sessions hr packet ms
    exact ⟨congrArg Output.auth hout, hpeer, hsessions⟩
  | encryptPacket packet clock =>
    obtain ⟨hout, hpeer, hsessions⟩ := encryptPacket_recache (c := c) (t := t) sessions hr packet clock
    exact ⟨congrArg Output.frame hout, hpeer, hsessions⟩
  | decryptPacket packet clock =>
    obtain ⟨hout, hpeer, hsessions⟩ := decryptPacket_recache (c := c) (t := t) sessions hr packet clock
    exact ⟨congrArg Output.frame hout, hpeer, hsessions⟩

end SecurePeer

/-- The two worlds differ in the cached copies of their connections only. -/
structure SameButCaches (w w' : World HS) : Prop where
  sessions : w'.sessions = w.sessions
  peers : ∀ h, Option.Rel SecurePeer.Recached (w.peers.lookup h) (w'.peers.lookup h)

namespace SameButCaches

variable {w w' : World HS}

theorem refl (w : World HS) : SameButCaches w w := by
  refine ⟨rfl, fun h => ?_⟩
  cases w.peers.lookup h with
  | none => exact .none
  | some p => exact .some (.refl p)

/-- The connections other than `h`, and the results of a call on `h`. -/
theorem insert (hsame : SameButCaches w w') {h : Handle} {p p' : SecurePeer HS}
    (hp : p.Recached p') (sessions : SessionStore) :
    SameButCaches { sessions, peers := w.peers.insert h p }
      { sessions, peers := w'.peers.insert h p' } := by
  refine ⟨rfl, fun h₂ => ?_⟩
  simp only [Finmap.lookup_insert_ite]
  split_ifs
  · exact .some hp
  · exact hsame.peers h₂

/-- The cached copies have no influence on a step. -/
theorem step (hsame : SameButCaches w w') (op : Op) :
    SameButCaches (w.step c op).1 (w'.step c op).1 ∧ (w'.step c op).2 = (w.step c op).2 := by
  have hpeer : ∀ h, (w.peers.lookup h = none ∧ w'.peers.lookup h = none) ∨
      ∃ p p', w.peers.lookup h = some p ∧ w'.peers.lookup h = some p' ∧ p.Recached p' := by
    intro h
    have hrel := hsame.peers h
    generalize w.peers.lookup h = a, w'.peers.lookup h = b at hrel
    cases hrel with
    | none => exact .inl ⟨rfl, rfl⟩
    | some hp => exact .inr ⟨_, _, rfl, rfl, hp⟩
  cases op with
  | new h localPrivate localPublic serverPeerId ms =>
    rcases hpeer h with ⟨hnone, hnone'⟩ | ⟨p, p', hp, hp', -⟩
    · simp only [World.step, hnone, hnone']
      cases SecurePeer.new c localPrivate localPublic serverPeerId ms with
      | error e => exact ⟨hsame, rfl⟩
      | ok p =>
        have h := hsame.insert (h := h) (.refl p) w.sessions
        rw [← hsame.sessions] at h
        exact ⟨⟨hsame.sessions, h.peers⟩, rfl⟩
    · simp only [World.step, hp, hp']
      exact ⟨hsame, trivial⟩
  | call h call =>
    rcases hpeer h with ⟨hnone, hnone'⟩ | ⟨p, p', hp, hp', hrecached⟩
    · simp only [World.step, hnone, hnone']
      exact ⟨hsame, trivial⟩
    · obtain ⟨hout, hq, hsessions⟩ := hrecached.call (c := c) w.sessions call
      simp only [World.step, hp, hp', hsame.sessions, hsessions]
      exact ⟨hsame.insert hq _, hout⟩
  | drop h ms =>
    rcases hpeer h with ⟨hnone, hnone'⟩ | ⟨p, p', hp, hp', ⟨r, t, rfl, -⟩⟩
    · simp only [World.step, hnone, hnone']
      exact ⟨hsame, trivial⟩
    · simp only [World.step, hp, hp', hsame.sessions]
      refine ⟨⟨rfl, fun h₂ => ?_⟩, trivial⟩
      simp only [Finmap.lookup_erase_ite]
      split_ifs
      · exact .none
      · exact hsame.peers h₂

end SameButCaches

/-! ## One connection for all -/

/-- Whether `h` is an authenticated connection of the session under `key`. -/
def World.shares (w : World HS) (key : SessionKey) (h : Handle) : Bool :=
  (w.peers.lookup h).any fun p => p.authenticated && p.sessionKey == some key

/-- The step with packets of the session under `key` going through the connection
    `one`. -/
def World.asOne (w : World HS) (key : SessionKey) (one : Handle) : Op → Op
  | .call h (.encryptPacket packet clock) =>
    .call (if w.shares key h then one else h) (.encryptPacket packet clock)
  | .call h (.decryptPacket packet clock) =>
    .call (if w.shares key h then one else h) (.decryptPacket packet clock)
  | op => op

/-- The run with all packets of the session under `key` going through the connection
    `one`: which connections share the session changes along the run. -/
def allAsOne (c : Crates HS) (key : SessionKey) (one : Handle) : World HS → List Op → List Op
  | _, [] => []
  | w, op :: ops => w.asOne key one op :: allAsOne c key one (w.step c op).1 ops

section AsOne

variable {w w' : World HS} {key : SessionKey} {h one : Handle}

theorem World.shares_iff :
    w.shares key h ↔ ∃ p, w.peers.lookup h = some p ∧ p.authenticated ∧ p.sessionKey = some key := by
  simp [World.shares, Option.any_eq_true]

/-- A connection of a session stays one until it is dropped. -/
theorem World.shares_step (hw : w.Consistent c) (hone : w.shares key one) {op : Op}
    (hop : ∀ ms, op ≠ .drop one ms) : (w.step c op).1.shares key one := by
  obtain ⟨p, hp, hauth, hkey⟩ := World.shares_iff.1 hone
  have hother : ∀ h (q : SecurePeer HS) sessions, h ≠ one →
      World.shares ⟨sessions, w.peers.insert h q⟩ key one := fun h q sessions hne =>
    World.shares_iff.2 ⟨p, by simpa [Finmap.lookup_insert_of_ne _ hne.symm] using hp, hauth, hkey⟩
  have hself : ∀ (q : SecurePeer HS) sessions, q.authenticated → q.sessionKey = some key →
      World.shares ⟨sessions, w.peers.insert one q⟩ key one := fun q sessions hauth hkey =>
    World.shares_iff.2 ⟨q, Finmap.lookup_insert _, hauth, hkey⟩
  cases op with
  | new h localPrivate localPublic serverPeerId ms =>
    simp only [World.step]
    cases hq : w.peers.lookup h with
    | some q => exact hone
    | none =>
      cases SecurePeer.new c localPrivate localPublic serverPeerId ms with
      | error e => exact hone
      | ok q =>
        refine hother _ _ _ fun hh => ?_
        rw [hh, hp] at hq
        cases hq
  | call h call =>
    simp only [World.step]
    cases hq : w.peers.lookup h with
    | none => exact hone
    | some q =>
      by_cases hne : h = one
      · subst hne
        obtain rfl := Option.some.inj (hp.symm.trans hq)
        have heff := call_cases hw hp call
        simp only
        generalize (p.call c w.sessions call).1 = out, (p.call c w.sessions call).2.1 = p',
          (p.call c w.sessions call).2.2 = sessions' at heff ⊢
        cases heff with
        | heard haccepted => exact absurd hauth (by simp [haccepted.unauthenticated])
        | unsent hm => simp [hm.fresh] at hkey
        | sent hm => simp [hm.fresh] at hkey
        | confirmed => exact hself _ _ rfl hkey
        | refused | unselected | lost | encrypted | decrypted => exact hself _ _ hauth hkey
      · exact hother _ _ _ hne
  | drop h ms =>
    have hne : one ≠ h := fun heq => hop ms (by rw [heq])
    simp only [World.step]
    cases hq : w.peers.lookup h with
    | none => exact hone
    | some q =>
      refine World.shares_iff.2 ⟨p, ?_, hauth, hkey⟩
      simpa [Finmap.lookup_erase_ite, hne] using hp

/-- What a packet of an authenticated connection of the session under `key` does: it is
    processed with the stored session alone. -/
theorem SecurePeer.call_of_shares (hw : w.Consistent c) {p : SecurePeer HS}
    (hp : w.peers.lookup h = some p) (hauth : p.authenticated) (hkey : p.sessionKey = some key)
    {call : Call} (hcall : w.asOne key one (.call h call) ≠ .call h call) :
    ∃ out s', ∀ h' p', w.peers.lookup h' = some p' → p'.authenticated → p'.sessionKey = some key →
      p'.call c w.sessions call = (out, p'.load s', w.sessions.insert key s') := by
  obtain ⟨_, s, hkey', hs, -⟩ := (hw.peers h p hp).agrees (.inl hauth)
  obtain rfl := Option.some.inj (hkey.symm.trans hkey')
  have hagrees : ∀ h' p', w.peers.lookup h' = some p' → p'.authenticated →
      p'.sessionKey = some key → p'.rootKey.isSome ∧ p'.Agrees key s := by
    intro h' p' hp' hauth' hkey'
    have hcons := hw.peers h' p' hp'
    obtain ⟨key₂, s₂, hkey₂, hs₂, hagrees⟩ := hcons.agrees (.inl hauth')
    obtain rfl := Option.some.inj (hkey'.symm.trans hkey₂)
    obtain rfl := Option.some.inj (hs.symm.trans hs₂)
    exact ⟨hcons.rootKey_isSome hkey', hagrees⟩
  cases call with
  | readMsg1 | buildMsg2 | finishMsg3 => exact absurd rfl hcall
  | encryptPacket packet clock =>
    refine ⟨.frame (s.encrypt c key.serverPeerId key.peerId packet clock).1,
      (s.encrypt c key.serverPeerId key.peerId packet clock).2, fun h' p' hp' hauth' hkey' => ?_⟩
    obtain ⟨hroot, ha⟩ := hagrees h' p' hp' hauth' hkey'
    simp only [SecurePeer.call]
    rw [encryptPacket_eq hauth' hroot hkey' hs ha.peerId, ha.serverPeerId]
  | decryptPacket packet clock =>
    refine ⟨.frame (s.decrypt c key.serverPeerId key.peerId s.clientAlgorithm packet clock).1,
      (s.decrypt c key.serverPeerId key.peerId s.clientAlgorithm packet clock).2,
      fun h' p' hp' hauth' hkey' => ?_⟩
    obtain ⟨hroot, ha⟩ := hagrees h' p' hp' hauth' hkey'
    simp only [SecurePeer.call]
    rw [decryptPacket_eq hauth' hroot hkey' hs ha.peerId ha.clientAlgorithm, ha.serverPeerId]

/-- A packet that goes through `one` instead has the same result, and leaves the same
    sessions. -/
theorem SameButCaches.asOne (hsame : SameButCaches w w') (hw : w.Consistent c)
    (hone : w.shares key one) (op : Op) :
    SameButCaches (w.step c op).1 (w'.step c (w.asOne key one op)).1 ∧
      (w'.step c (w.asOne key one op)).2 = (w.step c op).2 := by
  by_cases hmoved : w.asOne key one op = op
  · rw [hmoved]
    exact hsame.step op
  · obtain ⟨h, call, rfl, hshares, hop⟩ : ∃ h call, op = .call h call ∧ w.shares key h ∧
        w.asOne key one op = .call one call := by
      unfold World.asOne at hmoved ⊢
      split at hmoved
      · split_ifs at hmoved with hshares
        · exact ⟨_, _, rfl, hshares, by simp [hshares]⟩
        · exact absurd rfl hmoved
      · split_ifs at hmoved with hshares
        · exact ⟨_, _, rfl, hshares, by simp [hshares]⟩
        · exact absurd rfl hmoved
      · exact absurd rfl hmoved
    obtain ⟨p, hp, hauth, hkey⟩ := World.shares_iff.1 hshares
    obtain ⟨q, hq, hauth', hkey'⟩ := World.shares_iff.1 hone
    obtain ⟨out, s', hresult⟩ := SecurePeer.call_of_shares hw hp hauth hkey hmoved
    -- In the second world, `one` is `q` with other cached copies.
    obtain ⟨q', hq', hrecached⟩ : ∃ q', w'.peers.lookup one = some q' ∧ q.Recached q' := by
      have hrel := hsame.peers one
      rw [hq] at hrel
      generalize w'.peers.lookup one = b at hrel
      cases hrel with
      | some hrel => exact ⟨_, rfl, hrel⟩
    obtain ⟨hout, hloaded, hsessions⟩ := hrecached.call (c := c) w.sessions call
    rw [hresult one q hq hauth' hkey'] at hout hloaded hsessions
    rw [hop]
    simp only [World.step, hp, hq', hsame.sessions, hresult h p hp hauth hkey, hsessions]
    refine ⟨⟨rfl, fun h₂ => ?_⟩, hout⟩
    have hroot := (hw.peers h p hp).rootKey_isSome hkey
    have hroot' := (hw.peers one q hq).rootKey_isSome hkey'
    have hrel := hsame.peers h₂
    simp only [Finmap.lookup_insert_ite]
    split_ifs with hh hho hho
    · obtain rfl := Option.some.inj (hp.symm.trans ((hh.symm.trans hho) ▸ hq))
      exact .some hloaded
    · rw [hh, hp] at hrel
      rw [hh]
      generalize w'.peers.lookup h = b at hrel
      cases hrel with
      | some hrel => exact .some ((SecurePeer.Recached.of_load hroot s').symm.trans hrel)
    · rw [hho, hq]
      exact .some ((SecurePeer.Recached.of_load hroot' s').trans hloaded)
    · exact hrel

end AsOne

/-- Shared sessions behave as one, from every reachable world and whatever happens in
    between: when all packets of the authenticated connections of a session go through
    one of them, which is not dropped, every step has the same output, and in the end
    the stored sessions are the same. The cached copies of the connections may have
    been anything. -/
theorem shared_session_as_one (c : Crates HS) (w w' : World HS) (key : SessionKey) (one : Handle)
    (ops : List Op) (hw : (store c).Reachable w) (hone : w.shares key one)
    (hops : ∀ op ∈ ops, ∀ ms, op ≠ .drop one ms) (hcaches : SameButCaches w w') :
    (store c).outputs w' (allAsOne c key one w ops) = (store c).outputs w ops ∧
      ((store c).run w' (allAsOne c key one w ops)).sessions = ((store c).run w ops).sessions := by
  have hstep : ∀ (w w' : World HS) op, (∀ ms, op ≠ .drop one ms) →
      (w.Consistent c ∧ w.shares key one ∧ SameButCaches w w') →
      (((w.step c op).1.Consistent c ∧ (w.step c op).1.shares key one ∧
        SameButCaches (w.step c op).1 (w'.step c (w.asOne key one op)).1) ∧
        (w'.step c (w.asOne key one op)).2 = (w.step c op).2) := by
    rintro w w' op hop ⟨hw, hone, hsame⟩
    obtain ⟨hsame', hout⟩ := hsame.asOne hw hone op
    exact ⟨⟨hw.step op, World.shares_step hw hone hop, hsame'⟩, hout⟩
  obtain ⟨⟨-, -, hsame⟩, houts⟩ := Machine.run_relabel (m := store c)
    (R := fun w w' => w.Consistent c ∧ w.shares key one ∧ SameButCaches w w')
    (C := fun op => ∀ ms, op ≠ .drop one ms) (f := fun w op => w.asOne key one op) hstep
    (allAsOne c key one) (fun _ => rfl) (fun _ _ _ => rfl) ops hops
    ⟨consistent_of_reachable hw, hone, hcaches⟩
  exact ⟨houts, hsame.sessions⟩

open Sample in
/-- Two connections, and a third one that resets the session in between. -/
theorem shared_session_of_two :
    let w := world (connect 0 0 1 1000 ++ connect 1 1 2 1000)
    let ops := [send 1 2000, receive 1 0 0 2000] ++ hello 2 0 3 3000 ++
      [receive 0 0 0 4000, send 0 4000, send 1 5000]
    (store Crates.transparent).outputs w (allAsOne Crates.transparent sessionKey 0 w ops) =
        (store Crates.transparent).outputs w ops ∧
      ((store Crates.transparent).run w (allAsOne Crates.transparent sessionKey 0 w ops)).sessions =
        ((store Crates.transparent).run w ops).sessions :=
  shared_session_as_one Crates.transparent _ _ sessionKey 0 _ ⟨_, rfl⟩ (by decide +kernel)
    (by
      simp only [hello, send, receive, List.cons_append, List.nil_append, List.forall_mem_cons]
      simp)
    (.refl _)

end EasyTierEdge
