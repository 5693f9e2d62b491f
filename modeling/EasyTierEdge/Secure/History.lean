import EasyTierEdge.Secure.Store

/-!
# What a run of the store shows

The events of a run, and what they show of the sessions: the session a message 2
selects (`selection`), the root key it creates (`createdKey`), the nonce of a frame
that was encrypted (`emitted`) and of one that was delivered (`delivered`).

A stored session comes from the one stored under the same key one step before, or
is created: `became` says how its root key, generation and traffic state came
about. What holds of the sessions along a run is proved by going through its
cases.
-/

namespace EasyTierEdge

variable {HS : Type}

/-- A step of the store: the world before it, the input and the output. -/
abbrev StoreEvent (HS : Type) := Event (World HS) Op Output

/-! ## What an event shows -/

/-- The stored session of a live connection. -/
def World.session (w : World HS) (h : Handle) : Option StoredSession := do
  let p ← w.peers.lookup h
  let key ← p.sessionKey
  w.sessions.lookup key

/-- What message 2 under `networkSecret` would answer to, if it can be built. -/
def SecurePeer.msg2Request (p : SecurePeer HS) (networkSecret : String) :
    Option (SecurePeer.Hello HS) :=
  if networkSecret = "" || p.sessionKey.isSome then none
  else
    match p.peerId, p.networkName, p.handshake, p.clientAlgorithm with
    | some peerId, some networkName, some handshake, some clientAlgorithm =>
      some { peerId, networkName, handshake, clientAlgorithm }
    | _, _, _, _ => none

/-- The key and the session that a message 2 selects. -/
def selection (e : StoreEvent HS) : Option (SessionKey × SessionSelection) :=
  match e.input with
  | .call h (.buildMsg2 networkSecret draws) => do
    let p ← e.pre.peers.lookup h
    let m ← p.msg2Request networkSecret
    match (upsertSession e.pre.sessions (p.helloKey m) p.aSessionGeneration m.clientAlgorithm
      draws.rootKey draws.upsertMs).1 with
    | .ok sel => some (p.helloKey m, sel)
    | .error _ => none
  | _ => none

/-- The root key that a message 2 creates. -/
def createdKey (e : StoreEvent HS) : Option Key32 :=
  (selection e).bind fun (_, sel) =>
    if sel.action = .create then some sel.sessionRootKey else none

/-- The nonce of a frame, in its direction, under a root key. -/
structure Nonce where
  rootKey : Key32
  direction : Fin 2
  epoch : UInt32
  sequence : UInt64
  deriving DecidableEq

/-- The direction of a frame, by the ids of its header. -/
def frameDirection (frame : Bytes) : Fin 2 :=
  match PacketHeader.fromBytes frame with
  | .ok header => directionIndex header.fromPeerId header.toPeerId
  | .error _ => first

/-- The nonce an encrypted frame carries. -/
def frameNonce (rootKey : Key32) (frame : Bytes) : Nonce where
  rootKey := rootKey
  direction := frameDirection frame
  epoch := (TrafficState.payloadNonce (frame.drop headerSize)).1
  sequence := (TrafficState.payloadNonce (frame.drop headerSize)).2

/-- Whether a frame has the encrypted flag. -/
def frameEncrypted (frame : Bytes) : Bool :=
  match PacketHeader.fromBytes frame with
  | .ok header => header.encrypted
  | .error _ => false

/-- The nonce of the frame that `encrypt_packet` returned. -/
def emitted (e : StoreEvent HS) : Option Nonce :=
  match e.input, e.output with
  | .call h (.encryptPacket _ _), .frame (.ok frame) =>
    (e.pre.session h).map fun s => frameNonce s.rootKey frame
  | _, _ => none

/-- The nonce of the encrypted frame that `decrypt_packet` opened: it returned a
    clear packet, not an empty one. -/
def delivered (e : StoreEvent HS) : Option Nonce :=
  match e.input, e.output with
  | .call h (.decryptPacket packet _), .frame (.ok (_ :: _)) =>
    if frameEncrypted packet then (e.pre.session h).map fun s => frameNonce s.rootKey packet
    else none
  | _, _ => none

/-- The key of the session with which a packet was processed. -/
def handledKey (e : StoreEvent HS) : Option SessionKey :=
  match e.input, e.output with
  | .call h (.encryptPacket _ _), .frame (.ok _) => (e.pre.peers.lookup h).bind (·.sessionKey)
  | .call h (.decryptPacket _ _), .frame (.ok _) => (e.pre.peers.lookup h).bind (·.sessionKey)
  | _, _ => none

/-! ## Message 2 in a run -/

theorem SecurePeer.msg2Request_eq_some {p : SecurePeer HS} {networkSecret : String}
    {m : SecurePeer.Hello HS} :
    p.msg2Request networkSecret = some m ↔ p.Msg2Ready networkSecret m := by
  unfold msg2Request
  constructor
  · intro h
    split_ifs at h with hguard
    obtain ⟨hsecret, hkey⟩ : ¬networkSecret = "" ∧ p.sessionKey = none := by simpa using hguard
    split at h
    · rename_i hpeer hname hhandshake halg
      obtain rfl := Option.some.inj h
      exact ⟨hsecret, hkey, hpeer, hname, hhandshake, halg⟩
    · cases h
  · intro h
    simp [h.secret, h.fresh, h.peerId, h.networkName, h.handshake, h.clientAlgorithm]

section Selection

variable {c : Crates HS} {w : World HS} {h : Handle} {p : SecurePeer HS} {networkSecret : String}
  {draws : Msg2Draws} {m : SecurePeer.Hello HS}

/-- The event of a message 2 that selects a session shows it. -/
theorem selection_of_selects {sel : SessionSelection} {s : StoredSession} (out : Output)
    (hp : w.peers.lookup h = some p) (hm : p.Msg2Ready networkSecret m)
    (hsel : p.Selects w.sessions draws m sel s) :
    selection ⟨w, .call h (.buildMsg2 networkSecret draws), out⟩ = some (p.helloKey m, sel) := by
  simp [selection, hp, SecurePeer.msg2Request_eq_some.2 hm, upsertSession_of_selected hsel]

/-- A message 2 that shows a selection selects a session. -/
theorem selects_of_selection {e : StoreEvent HS} {key : SessionKey} {sel : SessionSelection}
    (hsel : selection e = some (key, sel)) :
    ∃ h p networkSecret draws m s, e.input = .call h (.buildMsg2 networkSecret draws) ∧
      e.pre.peers.lookup h = some p ∧ p.Msg2Ready networkSecret m ∧ key = p.helloKey m ∧
      p.Selects e.pre.sessions draws m sel s := by
  obtain ⟨w, op, out⟩ := e
  unfold selection at hsel
  split at hsel
  · rename_i h networkSecret draws hop
    simp only [Option.bind_eq_bind, Option.bind_eq_some_iff] at hsel
    obtain ⟨p, hp, m, hm, hsel⟩ := hsel
    rcases upsertSession_cases w.sessions (p.helloKey m) p.aSessionGeneration m.clientAlgorithm
      draws.rootKey draws.upsertMs with ⟨e, hup, -⟩ | ⟨sel', s, hup, hselected⟩
    · simp [hup] at hsel
    · obtain ⟨rfl, rfl⟩ : p.helloKey m = key ∧ sel' = sel := by simpa [hup] using hsel
      exact ⟨h, p, networkSecret, draws, m, s, hop, hp, SecurePeer.msg2Request_eq_some.1 hm, rfl,
        hselected⟩
  · cases hsel

end Selection

/-! ## Where a stored session comes from -/

/-- How the session stored under a key after an event came about. -/
inductive Became (c : Crates HS) (e : StoreEvent HS) (key : SessionKey) : StoredSession → Prop
  /-- It was stored before, and its keys and traffic state stay. -/
  | kept {s s' : StoredSession} : handledKey e ≠ some key → e.pre.sessions.lookup key = some s →
      s'.rootKey = s.rootKey → s'.generation = s.generation →
      s'.toTrafficState = s.toTrafficState → Became c e key s'
  /-- A `Sync` resets its numbering. -/
  | synced {s s' : StoredSession} {sel : SessionSelection} {ms : UInt64} :
      e.pre.sessions.lookup key = some s → selection e = some (key, sel) → sel.action = .sync →
      s'.rootKey = s.rootKey → s'.generation = s.generation →
      s'.toTrafficState = (s.sync ms).toTrafficState → Became c e key s'
  /-- It is new. -/
  | created {s' : StoredSession} {algorithm : String} {ms : UInt64} :
      selection e = some (key, ⟨.create, 1, some s'.rootKey, s'.rootKey, 0⟩) →
      s'.generation = 1 →
      s'.toTrafficState = (StoredSession.create s'.rootKey algorithm ms).toTrafficState →
      Became c e key s'
  /-- A connection encrypts a packet with it. -/
  | encrypted {h : Handle} {p : SecurePeer HS} {packet : Bytes} {clock : PacketClock}
      {s : StoredSession} : e.input = .call h (.encryptPacket packet clock) →
      e.pre.peers.lookup h = some p → p.authenticated → p.sessionKey = some key →
      e.pre.sessions.lookup key = some s →
      e.output = .frame (s.encrypt c key.serverPeerId key.peerId packet clock).1 →
      Became c e key (s.encrypt c key.serverPeerId key.peerId packet clock).2
  /-- A connection decrypts a packet with it. -/
  | decrypted {h : Handle} {p : SecurePeer HS} {packet : Bytes} {clock : PacketClock}
      {s : StoredSession} : e.input = .call h (.decryptPacket packet clock) →
      e.pre.peers.lookup h = some p → p.authenticated → p.sessionKey = some key →
      e.pre.sessions.lookup key = some s →
      e.output =
        .frame (s.decrypt c key.serverPeerId key.peerId s.clientAlgorithm packet clock).1 →
      Became c e key (s.decrypt c key.serverPeerId key.peerId s.clientAlgorithm packet clock).2

section Became

variable {c : Crates HS} {w : World HS} {h : Handle} {p : SecurePeer HS}

/-- The session that a message 2 selects comes from the stored one, or is new. -/
theorem became_of_selects {networkSecret : String} {draws : Msg2Draws} {m : SecurePeer.Hello HS}
    {sel : SessionSelection} {s s' : StoredSession} {out : Output}
    (hp : w.peers.lookup h = some p) (hm : p.Msg2Ready networkSecret m)
    (hsel : p.Selects w.sessions draws m sel s) (hroot : s'.rootKey = s.rootKey)
    (hgen : s'.generation = s.generation) (htraffic : s'.toTrafficState = s.toTrafficState) :
    Became c ⟨w, .call h (.buildMsg2 networkSecret draws), out⟩ (p.helloKey m) s' := by
  have hshown := selection_of_selects out hp hm hsel
  cases hsel with
  | join hs => exact .kept (by simp [handledKey]) hs hroot hgen htraffic
  | sync hs => exact .synced hs hshown rfl hroot hgen htraffic
  | create =>
    obtain rfl : s'.rootKey = _ := hroot
    exact .created hshown hgen htraffic

/-- A session that message 2 leaves alone was stored before. -/
theorem became_of_retained {e : StoreEvent HS} {key : SessionKey} {now : UInt64} {s : StoredSession}
    (he : handledKey e ≠ some key)
    (hs : (retainedSessions e.pre.sessions now).lookup key = some s) : Became c e key s := by
  rw [lookup_retainedSessions, Option.filter_eq_some_iff] at hs
  exact .kept he hs.1 rfl rfl rfl

/-- A call that fails processes no packet. -/
theorem handledKey_of_error {w : World HS} {op : Op} {out : Output} {e : SecureError}
    (he : out.error? = some e) : handledKey ⟨w, op, out⟩ = none := by
  unfold handledKey
  split
  · rename_i hout
    simp only at hout
    simp [hout, Output.error?] at he
  · rename_i hout
    simp only at hout
    simp [hout, Output.error?] at he
  · rfl

/-- A packet is processed by a call on a connection with a session. -/
theorem handledKey_eq_some {w : World HS} {op : Op} {out : Output} {key : SessionKey}
    (hkey : handledKey ⟨w, op, out⟩ = some key) :
    ∃ h call p, op = .call h call ∧ w.peers.lookup h = some p ∧ p.sessionKey = some key := by
  unfold handledKey at hkey
  split at hkey
  · rename_i heq _
    obtain ⟨p, hp, hpkey⟩ := Option.bind_eq_some_iff.1 hkey
    exact ⟨_, _, p, heq, hp, hpkey⟩
  · rename_i heq _
    obtain ⟨p, hp, hpkey⟩ := Option.bind_eq_some_iff.1 hkey
    exact ⟨_, _, p, heq, hp, hpkey⟩
  · cases hkey

/-- A packet is only processed with the session of its connection. -/
theorem handledKey_eq (hp : w.peers.lookup h = some p) {call : Call} {out : Output}
    {key : SessionKey} (hkey : handledKey ⟨w, .call h call, out⟩ = some key) :
    p.sessionKey = some key := by
  obtain ⟨h', call', p', heq, hp', hpkey⟩ := handledKey_eq_some hkey
  cases heq
  obtain rfl := Option.some.inj (hp.symm.trans hp')
  exact hpkey

/-- The sessions stored after a call. -/
theorem Effect.became (hp : w.peers.lookup h = some p) {call : Call} {out : Output}
    {p' : SecurePeer HS} {sessions' : SessionStore} (heff : Effect c p w.sessions call out p' sessions')
    (key : SessionKey) (s' : StoredSession) (hs' : sessions'.lookup key = some s') :
    Became c ⟨w, .call h call, out⟩ key s' := by
  cases heff with
  | refused herror => exact .kept (by simp [handledKey_of_error herror]) hs' rfl rfl rfl
  | heard => exact .kept (by simp [handledKey]) hs' rfl rfl rfl
  | unselected => exact became_of_retained (by simp [handledKey]) hs'
  | unsent hm hsel =>
    rw [SecurePeer.selectedSessions, Finmap.lookup_insert_ite] at hs'
    split_ifs at hs' with hkey
    · obtain rfl := Option.some.inj hs'
      exact hkey ▸ became_of_selects hp hm hsel rfl rfl rfl
    · exact became_of_retained (by simp [handledKey]) hs'
  | sent hm hsel hid hwrite hattach =>
    rw [SecurePeer.selectedSessions, Finmap.lookup_insert_ite] at hs'
    split_ifs at hs' with hkey
    · obtain rfl := Option.some.inj hs'
      have heq := StoredSession.eq_of_attach hattach
      exact hkey ▸ became_of_selects hp hm hsel (by rw [heq]) (by rw [heq]) (by rw [heq])
    · exact became_of_retained (by simp [handledKey]) hs'
  | lost => exact .kept (by simp [handledKey]) hs' rfl rfl rfl
  | confirmed _ _ hs =>
    rw [Finmap.lookup_insert_ite] at hs'
    split_ifs at hs' with hkey
    · obtain rfl := Option.some.inj hs'
      subst hkey
      exact .kept (by simp [handledKey]) hs rfl rfl rfl
    · exact .kept (by simp [handledKey]) hs' rfl rfl rfl
  | encrypted hauth hkey₀ hs =>
    rw [Finmap.lookup_insert_ite] at hs'
    split_ifs at hs' with hkey
    · obtain rfl := Option.some.inj hs'
      subst hkey
      exact .encrypted rfl hp hauth hkey₀ hs rfl
    · refine .kept (fun hhandled => hkey ?_) hs' rfl rfl rfl
      exact Option.some.inj ((handledKey_eq hp hhandled).symm.trans hkey₀)
  | decrypted hauth hkey₀ hs =>
    rw [Finmap.lookup_insert_ite] at hs'
    split_ifs at hs' with hkey
    · obtain rfl := Option.some.inj hs'
      subst hkey
      exact .decrypted rfl hp hauth hkey₀ hs rfl
    · refine .kept (fun hhandled => hkey ?_) hs' rfl rfl rfl
      exact Option.some.inj ((handledKey_eq hp hhandled).symm.trans hkey₀)

/-- The sessions stored after a step. -/
theorem became (hw : w.Consistent c) (op : Op) {key : SessionKey} {s' : StoredSession}
    (hs' : (w.step c op).1.sessions.lookup key = some s') :
    Became c ((store c).event w op) key s' := by
  cases op with
  | new h localPrivate localPublic serverPeerId ms =>
    refine .kept (s := s') (by simp [handledKey, Machine.event]) ?_ rfl rfl rfl
    simp only [World.step] at hs'
    split at hs'
    · exact hs'
    · split at hs'
      · exact hs'
      · exact hs'
  | call h call =>
    cases hp : w.peers.lookup h with
    | none =>
      simp only [World.step, hp] at hs'
      refine .kept ?_ hs' rfl rfl rfl
      simp [handledKey, Machine.event, store, World.step, hp]
    | some p =>
      have heff := (call_cases hw hp call).became hp key s'
      simp only [World.step, hp] at hs'
      have hevent : (store c).event w (.call h call) =
          ⟨w, .call h call, (p.call c w.sessions call).1⟩ := by
        simp [Machine.event, store, World.step, hp]
      rw [hevent]
      exact heff hs'
  | drop h ms =>
    have he : handledKey ((store c).event w (.drop h ms)) ≠ some key := by
      simp [handledKey, Machine.event]
    cases hp : w.peers.lookup h with
    | none =>
      simp only [World.step, hp] at hs'
      exact .kept he hs' rfl rfl rfl
    | some p =>
      simp only [World.step, hp, p.lookup_drop] at hs'
      split_ifs at hs' with hatt
      · obtain ⟨s, hs, rfl⟩ := Option.map_eq_some_iff.1 hs'
        exact .kept he hs rfl rfl rfl
      · exact .kept he hs' rfl rfl rfl

end Became

/-! ## Runs to try

Connections of the client `7` of the network `net`, with the secret `secret`, to the
server `1`, with the crates of `Crates.transparent`. -/

namespace Sample

def keyText : String := "0123456789abcdef0123456789abcdef"
def secret : String := "secret"
def server : UInt32 := 1
def client : UInt32 := 7

/-- The key of the client's session. -/
def sessionKey : SessionKey :=
  ⟨"net", client, server, (key32 (utf8 keyText)).getD (Vector.replicate 32 0)⟩

/-- A clock standing still at `ms`. -/
def still (ms : UInt64) : PacketClock := ⟨ms, ms⟩

/-- Message 1, claiming a generation (`0` for none). -/
def msg1 (generation : UInt8) : Bytes :=
  wrapPacket client 0 packetNoiseMsg1 0 (generation :: utf8 "net")

/-- What message 2 draws when the root key would be all `b`. -/
def draws (b : UInt8) (ms : UInt64) : Msg2Draws :=
  ⟨.ok (Vector.replicate 32 b), .ok ⟨0, 0, 0, 0⟩, ms, ms⟩

/-- Message 3 of a client whose static key is all `b`. -/
def msg3 (b : UInt8) : Bytes :=
  wrapPacket client server packetNoiseMsg3 0
    (List.replicate 32 b ++ secretProof Crates.transparent (utf8 secret) [2])

/-- A handshake up to message 2. -/
def hello (h : Handle) (generation b : UInt8) (ms : UInt64) : List Op :=
  [.new h keyText keyText server ms, .call h (.readMsg1 (msg1 generation)),
    .call h (.buildMsg2 secret (draws b ms))]

/-- A whole handshake. -/
def connect (h : Handle) (generation b : UInt8) (ms : UInt64) : List Op :=
  hello h generation b ms ++ [.call h (.finishMsg3 (msg3 9) ms)]

/-- The server sends a packet. -/
def send (h : Handle) (ms : UInt64) : Op :=
  .call h (.encryptPacket (wrapPacket server client 8 0 [1, 2, 3]) (still ms))

/-- The client's encrypted packet with the nonce of `epoch` and `sequence`. -/
def frame (epoch : UInt32) (sequence : UInt64) : Bytes :=
  joinHeaderPayload ⟨client, server, 8, encryptedFlag, 1, 0, 3⟩
    ([4, 5, 6] ++ List.replicate 16 0 ++ nonceBytes epoch sequence)

/-- The server receives a packet. -/
def receive (h : Handle) (epoch : UInt32) (sequence : UInt64) (ms : UInt64) : Op :=
  .call h (.decryptPacket (frame epoch sequence) (still ms))

/-- The history of a run. -/
def history (ops : List Op) : List (StoreEvent Transcript) :=
  (store Crates.transparent).history (store Crates.transparent).init ops

/-- The world after a run. -/
def world (ops : List Op) : World Transcript :=
  (store Crates.transparent).run (store Crates.transparent).init ops

end Sample

end EasyTierEdge
