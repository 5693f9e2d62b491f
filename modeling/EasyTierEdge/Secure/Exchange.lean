import EasyTierEdge.Secure.History

/-!
# Noise exchanges

A connection is authenticated only by a Noise exchange: message 1 was accepted, message 2 built for
it, and message 3 accepted by the same handshake, in this order and for one client of one network
(`NoiseExchange`). It echoes the connection ids of both sides, and proves the network secret
for the hash of the handshake after message 2. In between calls may fail, but none succeeds.

`Progress` says how far a connection is by the calls on it. In every run of the store, it is
kept, so that packets are only encrypted and decrypted after an exchange
(`exchange_before_packets`).
-/

namespace EasyTierEdge

variable {HS : Type}

/-! ## Exchanges -/

/-- A Noise exchange: what was sent, and what the connection made of it. -/
structure NoiseExchange (HS : Type) where
  peerId : UInt32
  networkName : String
  networkSecret : String
  msg1 : Bytes
  hello : PeerConnNoiseMsg1Pb
  /-- The handshake after message 1. -/
  heard : HS
  draws : Msg2Draws
  bConnId : Uuid
  msg2 : Bytes
  /-- The handshake after message 2. -/
  sent : HS
  msg3 : Bytes
  confirmMs : UInt64
  reply : PeerConnNoiseMsg3Pb

/-- An exchange of which only message 1 is there. -/
def NoiseExchange.opened (msg1 : Bytes) (header : PacketHeader) (hello : PeerConnNoiseMsg1Pb)
    (heard : HS) : NoiseExchange HS where
  peerId := header.fromPeerId
  networkName := hello.aNetworkName
  networkSecret := ""
  msg1 := msg1
  hello := hello
  heard := heard
  draws := { rootKey := .error "", bConnId := .error "", upsertMs := 0, attachMs := 0 }
  bConnId := ⟨0, 0, 0, 0⟩
  msg2 := []
  sent := heard
  msg3 := []
  confirmMs := 0
  reply := { aConnIdEcho := none, bConnIdEcho := none, secretProof32 := none }

/-- The calls failed. -/
def Failed (calls : List (Call × Output)) : Prop := ∀ x ∈ calls, x.2.error?.isSome

theorem Failed.nil : Failed [] := List.forall_mem_nil _

theorem Failed.snoc {calls : List (Call × Output)} (h : Failed calls) {call : Call} {out : Output}
    (hout : out.error?.isSome) : Failed (calls ++ [(call, out)]) := by
  intro x hx
  rcases List.mem_append.1 hx with hx | hx
  · exact h x hx
  · rw [List.mem_singleton.1 hx]
    exact hout

/-- A write to the handshake failed. -/
def WriteFails (c : Crates HS) (handshake handshake' : HS) : Prop :=
  ∃ message e, c.writeMessage handshake message = (handshake', .error e)

namespace NoiseExchange

variable (x : NoiseExchange HS) (c : Crates HS) (localPrivate : Key32) (serverPeerId : UInt32)

/-- Message 1 opens a handshake of a client with a network. -/
structure Greets : Prop where
  peerId : x.peerId ≠ 0 ∧ x.peerId ≠ serverPeerId
  networkName : x.hello.aNetworkName = x.networkName ∧ x.networkName ≠ ""
  read : ∃ header payload handshake decoded, splitPacket x.msg1 = .ok (header, payload) ∧
    header.packetType = packetNoiseMsg1 ∧ header.encrypted = false ∧ header.fromPeerId = x.peerId ∧
    c.buildResponder noisePattern noisePrologue localPrivate = .ok handshake ∧
    c.readMessage handshake payload = .ok (x.heard, decoded) ∧ c.decodeMsg1 decoded = .ok x.hello

/-- Message 2 is the answer of the same handshake. -/
structure Answers : Prop where
  bConnId : x.draws.bConnId = .ok x.bConnId
  written : ∃ handshake message noiseMessage,
    Relation.ReflTransGen (WriteFails c) x.heard handshake ∧
    c.writeMessage handshake (c.encodeMsg2 message) = (x.sent, .ok noiseMessage) ∧
    message.bNetworkName = x.networkName ∧ message.aConnIdEcho = x.hello.aConnId ∧
    message.bConnId = some x.bConnId ∧
    x.msg2 = wrapPacket serverPeerId x.peerId packetNoiseMsg2 0 noiseMessage

/-- Message 3 is read by the same handshake, echoes both connection ids, and proves the secret for
    the hash of the handshake after message 2. -/
structure Proves : Prop where
  read : ∃ header payload handshake decoded, splitPacket x.msg3 = .ok (header, payload) ∧
    header.packetType = packetNoiseMsg3 ∧ header.encrypted = false ∧ header.fromPeerId = x.peerId ∧
    header.toPeerId = serverPeerId ∧ c.readMessage x.sent payload = .ok (handshake, decoded) ∧
    c.decodeMsg3 decoded = .ok x.reply
  aConnId : x.reply.aConnIdEcho = x.hello.aConnId
  bConnId : x.reply.bConnIdEcho = some x.bConnId
  proof : x.reply.secretProof32 =
    some (secretProof c (utf8 x.networkSecret) (c.handshakeHash x.sent))

/-- Message 1 was accepted, and no call has succeeded since. -/
def HeardIn (calls : List (Call × Output)) : Prop :=
  ∃ before algorithm failed, calls =
      before ++ (.readMsg1 x.msg1, .msg1 (.ok ⟨x.peerId, x.networkName, algorithm⟩)) :: failed ∧
    Failed failed

/-- Message 2 was built, and no call has succeeded since. -/
def SentIn (calls : List (Call × Output)) : Prop :=
  ∃ before failed, calls =
      before ++ (.buildMsg2 x.networkSecret x.draws, .frame (.ok x.msg2)) :: failed ∧
    Failed failed ∧ x.HeardIn before

/-- Message 3 was accepted. -/
def FinishedIn (calls : List (Call × Output)) : Prop :=
  ∃ before key rest, calls = before ++ (.finishMsg3 x.msg3 x.confirmMs,
      .auth (.ok ⟨x.peerId, x.networkName, key, "NetworkSecretConfirmed"⟩)) :: rest ∧
    x.SentIn before

/-- The exchange was completed by the calls on a connection. -/
structure Completed (calls : List (Call × Output)) : Prop where
  finished : x.FinishedIn calls
  greets : x.Greets c localPrivate serverPeerId
  answers : x.Answers c serverPeerId
  proves : x.Proves c serverPeerId

variable {x} {calls : List (Call × Output)} {call : Call} {out : Output}

theorem HeardIn.snoc (h : x.HeardIn calls) (hout : out.error?.isSome) :
    x.HeardIn (calls ++ [(call, out)]) := by
  obtain ⟨before, algorithm, failed, rfl, hfailed⟩ := h
  refine ⟨before, algorithm, failed ++ [(call, out)], by rw [List.append_assoc, List.cons_append], ?_⟩
  exact hfailed.snoc hout

theorem SentIn.snoc (h : x.SentIn calls) (hout : out.error?.isSome) :
    x.SentIn (calls ++ [(call, out)]) := by
  obtain ⟨before, failed, rfl, hfailed, hheard⟩ := h
  refine ⟨before, failed ++ [(call, out)], by rw [List.append_assoc, List.cons_append], ?_, hheard⟩
  exact hfailed.snoc hout

theorem Completed.snoc (h : x.Completed c localPrivate serverPeerId calls) :
    x.Completed c localPrivate serverPeerId (calls ++ [(call, out)]) := by
  obtain ⟨⟨before, key, rest, rfl, hsent⟩, hgreets, hanswers, hproves⟩ := h
  refine ⟨⟨before, key, rest ++ [(call, out)], ?_, hsent⟩, hgreets, hanswers, hproves⟩
  rw [List.append_assoc, List.cons_append]

end NoiseExchange

/-! ## The progress of a connection -/

/-- How far a connection is, by the calls on it. -/
structure Progress (c : Crates HS) (p : SecurePeer HS) (calls : List (Call × Output)) : Prop where
  /-- Message 1 is the last one. -/
  heard : ∀ handshake, p.handshake = some handshake → p.sessionKey = none →
    ∃ x : NoiseExchange HS, x.HeardIn calls ∧ x.Greets c p.localPrivate p.serverPeerId ∧
      p.peerId = some x.peerId ∧ p.networkName = some x.networkName ∧
      p.aConnId = x.hello.aConnId ∧ Relation.ReflTransGen (WriteFails c) x.heard handshake
  /-- Message 2 is the last one. -/
  sent : ∀ handshake, p.handshake = some handshake → c.isMyTurn handshake = false →
    ∃ x : NoiseExchange HS, x.SentIn calls ∧ x.Greets c p.localPrivate p.serverPeerId ∧
      x.Answers c p.serverPeerId ∧ p.peerId = some x.peerId ∧ p.networkName = some x.networkName ∧
      p.aConnId = x.hello.aConnId ∧ p.bConnId = some x.bConnId ∧
      p.networkSecret = some (utf8 x.networkSecret) ∧
      p.proofChallenge = some (c.handshakeHash x.sent) ∧ handshake = x.sent
  finished : p.authenticated → ∃ x : NoiseExchange HS,
    x.Completed c p.localPrivate p.serverPeerId calls ∧ p.peerId = some x.peerId ∧
      p.networkName = some x.networkName
  authenticated : ∀ packet confirmMs auth,
    (.finishMsg3 packet confirmMs, .auth (.ok auth)) ∈ calls → p.authenticated

namespace Progress

variable {c : Crates HS} {p p' : SecurePeer HS} {sessions sessions' : SessionStore} {call : Call}
  {out : Output} {calls : List (Call × Output)}

/-- Nothing was called on a new connection. -/
theorem new (hhandshake : p.handshake = none) (hauth : p.authenticated = false) :
    Progress c p [] where
  heard _ h := by cases hhandshake.symm.trans h
  sent _ h := by cases hhandshake.symm.trans h
  finished h := by cases hauth.symm.trans h
  authenticated _ _ _ h := by cases h

/-- What a call that is not an accepted message 3 says of the earlier ones. -/
theorem authenticated_snoc (h : Progress c p calls)
    (hcall : ∀ packet ms auth, (call, out) ≠ (.finishMsg3 packet ms, .auth (.ok auth)))
    {packet : Bytes} {ms : UInt64} {auth : AuthInfo}
    (hmem : (.finishMsg3 packet ms, .auth (.ok auth)) ∈ calls ++ [(call, out)]) :
    p.authenticated := by
  rcases List.mem_append.1 hmem with hmem | hmem
  · exact h.authenticated packet ms auth hmem
  · exact absurd (List.mem_singleton.1 hmem).symm (hcall packet ms auth)

/-- A call that fails leaves a connection where it is. -/
theorem failed (h : Progress c p calls) (hout : out.error?.isSome) :
    Progress c p (calls ++ [(call, out)]) where
  heard handshake hhandshake hkey := by
    obtain ⟨x, hx, hrest⟩ := h.heard handshake hhandshake hkey
    exact ⟨x, hx.snoc hout, hrest⟩
  sent handshake hhandshake hturn := by
    obtain ⟨x, hx, hrest⟩ := h.sent handshake hhandshake hturn
    exact ⟨x, hx.snoc hout, hrest⟩
  finished hauth := by
    obtain ⟨x, hx, hrest⟩ := h.finished hauth
    exact ⟨x, hx.snoc, hrest⟩
  authenticated packet ms auth hmem := by
    refine h.authenticated_snoc ?_ hmem
    rintro packet' ms' auth' heq
    rw [(Prod.mk.inj heq).2] at hout
    cases hout

/-- Message 1 is accepted: the exchange begins. -/
theorem hear {packet : Bytes} {header : PacketHeader} {handshake : HS} {message : PeerConnNoiseMsg1Pb}
    {info : Msg1Info} (h : Progress c p calls)
    (haccepted : p.Msg1Accepted c packet header handshake message)
    (hinfo : info.peerId = header.fromPeerId ∧ info.networkName = message.aNetworkName) :
    Progress c (p.afterMsg1 header.fromPeerId handshake message)
      (calls ++ [(.readMsg1 packet, .msg1 (.ok info))]) where
  heard handshake' hhandshake _ := by
    obtain rfl : handshake = handshake' := Option.some.inj hhandshake
    obtain ⟨payload, handshake₀, decoded, hsplit, hbuild, hread, hdecode⟩ := haccepted.read
    obtain ⟨peerId, networkName, algorithm⟩ := info
    obtain ⟨rfl, rfl⟩ : peerId = header.fromPeerId ∧ networkName = message.aNetworkName := hinfo
    refine ⟨.opened packet header message handshake, ?_, ?_, rfl, rfl, rfl, .refl⟩
    · exact ⟨calls, algorithm, [], rfl, Failed.nil⟩
    · exact
        { peerId := haccepted.peerId
          networkName := ⟨rfl, haccepted.networkName.1⟩
          read := ⟨header, payload, handshake₀, decoded, hsplit, haccepted.packetType,
            haccepted.clear, rfl, hbuild, hread, hdecode⟩ }
  sent handshake' hhandshake hturn := by
    -- It is the connection's turn to write.
    obtain rfl : handshake = handshake' := Option.some.inj hhandshake
    cases haccepted.myTurn.symm.trans hturn
  finished hauth := by cases haccepted.unauthenticated.symm.trans hauth
  authenticated packet' ms auth hmem :=
    h.authenticated_snoc (by rintro _ _ _ heq; cases heq) hmem

/-- Message 2 is not written: the exchange stays where it is. -/
theorem unsent {networkSecret : String} {m : SecurePeer.Hello HS} {handshake : HS}
    (h : Progress c p calls) (hp : p.Consistent c sessions) (hm : p.Msg2Ready networkSecret m)
    (hwrite : SecurePeer.Unwritten c m.handshake handshake) (hout : out.error?.isSome) :
    Progress c { p with handshake := some handshake } (calls ++ [(call, out)]) where
  heard handshake' hhandshake hkey := by
    obtain rfl : handshake = handshake' := Option.some.inj hhandshake
    obtain ⟨x, hx, hgreets, hpeer, hname, haConnId, hwrites⟩ :=
      h.heard m.handshake hm.handshake hm.fresh
    refine ⟨x, hx.snoc hout, hgreets, hpeer, hname, haConnId, ?_⟩
    rcases hwrite with rfl | hfails
    · exact hwrites
    · exact hwrites.tail hfails
  sent handshake' hhandshake hturn := by
    -- Writing did not change the turn, so it would not have been the connection's before.
    obtain rfl : handshake = handshake' := Option.some.inj hhandshake
    exact absurd (.inr ⟨_, hm.handshake, hwrite.turn ▸ hturn⟩) (hp.not_engaged hm.fresh)
  finished hauth := absurd (.inl hauth) (hp.not_engaged hm.fresh)
  authenticated packet ms auth hmem := (h.failed hout).authenticated packet ms auth hmem

/-- Message 2 is sent. -/
theorem send {networkSecret : String} {draws : Msg2Draws} {m : SecurePeer.Hello HS}
    {sel : SessionSelection} {s : StoredSession} {bConnId : Uuid} {handshake : HS}
    {noiseMessage proof : Bytes} (h : Progress c p calls) (hp : p.Consistent c sessions)
    (hm : p.Msg2Ready networkSecret m) (hid : draws.bConnId = .ok bConnId)
    (hwrite : c.writeMessage m.handshake (c.encodeMsg2 (p.msg2 m.networkName sel bConnId proof)) =
      (handshake, .ok noiseMessage)) :
    Progress c (p.afterMsg2 c networkSecret (p.helloKey m) handshake s bConnId)
      (calls ++ [(.buildMsg2 networkSecret draws,
        .frame (.ok (wrapPacket p.serverPeerId m.peerId packetNoiseMsg2 0 noiseMessage)))]) where
  heard _ _ hkey := by cases hkey
  sent handshake' hhandshake _ := by
    obtain rfl : handshake = handshake' := Option.some.inj hhandshake
    obtain ⟨x, hx, hgreets, hpeer, hname, haConnId, hwrites⟩ :=
      h.heard m.handshake hm.handshake hm.fresh
    obtain hpeerId : m.peerId = x.peerId := Option.some.inj (hm.peerId.symm.trans hpeer)
    obtain hnetwork : m.networkName = x.networkName :=
      Option.some.inj (hm.networkName.symm.trans hname)
    let frame := wrapPacket p.serverPeerId m.peerId packetNoiseMsg2 0 noiseMessage
    refine ⟨{ x with networkSecret, draws, bConnId, msg2 := frame, sent := handshake },
      ⟨calls, [], rfl, Failed.nil, hx⟩,
      ⟨hgreets.peerId, hgreets.networkName, hgreets.read⟩,
      ⟨hid, _, _, noiseMessage, hwrites, hwrite, hnetwork, haConnId, rfl, ?_⟩,
      hpeer, hname, haConnId, rfl, rfl, rfl, rfl⟩
    rw [← hpeerId]
    rfl
  finished hauth := absurd (.inl hauth) (hp.not_engaged hm.fresh)
  authenticated packet ms auth hmem :=
    h.authenticated_snoc (by rintro _ _ _ heq; cases heq) hmem

/-- Message 3 is refused: the exchange is over. -/
theorem lose (h : Progress c p calls) (hout : out.error?.isSome) :
    Progress c p.takeHandshake (calls ++ [(call, out)]) where
  heard _ hhandshake := by cases hhandshake
  sent _ hhandshake := by cases hhandshake
  finished hauth := (h.failed hout).finished hauth
  authenticated packet ms auth hmem := (h.failed hout).authenticated packet ms auth hmem

/-- Message 3 is accepted: the exchange is completed. -/
theorem confirm {packet : Bytes} {confirmMs : UInt64} {peerId : UInt32} {handshake : HS}
    {message : PeerConnNoiseMsg3Pb} {secret challenge : Bytes} {remotePublicKey : Key32}
    {publicKeyBase64 : String} (h : Progress c p calls)
    (haccepted : p.Msg3Accepted c packet peerId handshake message secret challenge remotePublicKey) :
    Progress c p.takeHandshake.authenticate (calls ++ [(.finishMsg3 packet confirmMs,
      .auth (.ok ⟨peerId, p.networkName.getD "", publicKeyBase64, "NetworkSecretConfirmed"⟩))]) where
  heard _ hhandshake := by cases hhandshake
  sent _ hhandshake := by cases hhandshake
  finished _ := by
    obtain ⟨x, hx, hgreets, hanswers, hpeer, hname, haConnId, hbConnId, hsecret, hchallenge, rfl⟩ :=
      h.sent handshake haccepted.hasHandshake haccepted.theirTurn
    obtain rfl : peerId = x.peerId := Option.some.inj (haccepted.hasPeerId.symm.trans hpeer)
    obtain ⟨header, payload, handshake', decoded, remotePublic, hsplit, htype, hfrom, hto, hclear,
      hread, hdecode, -⟩ := haccepted.read
    refine ⟨{ x with msg3 := packet, confirmMs, reply := message }, ⟨?_, ?_, ?_, ?_⟩, hpeer, hname⟩
    · refine ⟨calls, publicKeyBase64, [], ?_, hx⟩
      rw [hname]
      rfl
    · exact ⟨hgreets.peerId, hgreets.networkName, hgreets.read⟩
    · exact ⟨hanswers.bConnId, hanswers.written⟩
    · have hproof := haccepted.proof
      have hsecret' := haccepted.hasSecret.symm.trans hsecret
      have hchallenge' := haccepted.hasChallenge.symm.trans hchallenge
      rw [Option.some.inj hsecret', Option.some.inj hchallenge'] at hproof
      exact
        { read := ⟨header, payload, handshake', decoded, hsplit, htype, hclear, hfrom, hto, hread,
            hdecode⟩
          aConnId := haccepted.echo.1.trans haConnId
          bConnId := haccepted.echo.2.trans hbConnId
          proof := hproof }
  authenticated _ _ _ _ := rfl

/-- A packet of an authenticated connection leaves the exchange. -/
theorem traffic (h : Progress c p calls) (hp : p.Consistent c sessions) (hauth : p.authenticated)
    (s : StoredSession) : Progress c (p.load s) (calls ++ [(call, out)]) where
  heard _ hhandshake := by cases (hp.finished hauth).symm.trans hhandshake
  sent _ hhandshake := by cases (hp.finished hauth).symm.trans hhandshake
  finished _ := by
    obtain ⟨x, hx, hpeer, hname⟩ := h.finished hauth
    exact ⟨x, hx.snoc, hpeer, hname⟩
  authenticated _ _ _ _ := hauth

/-- Every call keeps up with the progress of its connection. -/
theorem called (h : Progress c p calls) (hp : p.Consistent c sessions)
    (heff : Effect c p sessions call out p' sessions') : Progress c p' (calls ++ [(call, out)]) := by
  cases heff with
  | refused herror => exact h.failed (by rw [herror]; rfl)
  | heard haccepted => exact h.hear haccepted ⟨rfl, rfl⟩
  | unselected => exact h.failed rfl
  | unsent hm _ hwrite => exact h.unsent hp hm hwrite rfl
  | sent hm _ hid hwrite => exact h.send hp hm hid hwrite
  | lost => exact h.lose rfl
  | confirmed haccepted => exact h.confirm haccepted
  | encrypted hauth => exact h.traffic hp hauth _
  | decrypted hauth => exact h.traffic hp hauth _

end Progress

/-- A new connection has done nothing. -/
theorem SecurePeer.new_eq_ok {c : Crates HS} {localPrivate localPublic : String}
    {serverPeerId : UInt32} {ms : UInt64} {p : SecurePeer HS}
    (hnew : SecurePeer.new c localPrivate localPublic serverPeerId ms = .ok p) :
    decodeKey c localPrivate "private" = .ok p.localPrivate ∧ p.serverPeerId = serverPeerId ∧
      p.handshake = none ∧ p.authenticated = false := by
  simp only [SecurePeer.new, Except.bind_eq_ok, Except.rejectIf_eq_ok, Except.pure_eq_ok] at hnew
  obtain ⟨-, -, key, hkey, -, -, -, -, rfl⟩ := hnew
  exact ⟨hkey, rfl, rfl, rfl⟩

/-! ## Runs of the store -/

/-- Whether a call has a packet encrypted or decrypted. -/
def Call.isPacket : Call → Bool
  | .encryptPacket .. | .decryptPacket .. => true
  | _ => false

/-- The calls on the connection at `h` after one more step of the store. -/
def callsAfter (h : Handle) (calls : List (Call × Output)) (e : StoreEvent HS) :
    List (Call × Output) :=
  match e.input, e.output with
  | .new h' .., .constructed (.ok ()) => if h = h' then [] else calls
  | .call h' call, out => if h = h' then calls ++ [(call, out)] else calls
  | _, _ => calls

/-- The calls on the connection at `h` since it was constructed. -/
def callsSince (h : Handle) (tr : List (StoreEvent HS)) : List (Call × Output) :=
  tr.foldl (callsAfter h) []

variable (c : Crates HS)

/-- How far every connection is, by the calls on it. -/
structure World.Follows (calls : Handle → List (Call × Output)) (w : World HS) : Prop where
  consistent : w.Consistent c
  progress : ∀ h p, w.peers.lookup h = some p → Progress c p (calls h)

variable {c} {w : World HS} {calls : Handle → List (Call × Output)}

/-- Every step keeps up with the progress of the connections. -/
theorem World.Follows.step (hw : w.Follows c calls) (op : Op) :
    (w.step c op).1.Follows c fun h => callsAfter h (calls h) ((store c).event w op) := by
  refine ⟨hw.consistent.step op, fun h p hp => ?_⟩
  cases op with
  | new h' localPrivate localPublic serverPeerId ms =>
    simp only [World.step, Machine.event, store] at hp ⊢
    cases hold : w.peers.lookup h' with
    | some q =>
      simp only [hold] at hp ⊢
      exact hw.progress h p hp
    | none =>
      simp only [hold] at hp ⊢
      cases hnew : SecurePeer.new c localPrivate localPublic serverPeerId ms with
      | error e =>
        simp only [hnew] at hp ⊢
        exact hw.progress h p hp
      | ok q =>
        simp only [hnew, Finmap.lookup_insert_ite] at hp ⊢
        obtain ⟨-, -, hhandshake, hauth⟩ := SecurePeer.new_eq_ok hnew
        by_cases heq : h = h'
        · rw [if_pos heq] at hp
          obtain rfl := Option.some.inj hp
          simp only [callsAfter, if_pos heq]
          exact .new hhandshake hauth
        · rw [if_neg heq] at hp
          simp only [callsAfter, if_neg heq]
          exact hw.progress h p hp
  | call h' call =>
    simp only [World.step, Machine.event, store, callsAfter] at hp ⊢
    cases hold : w.peers.lookup h' with
    | none =>
      simp only [hold] at hp ⊢
      have hne : h ≠ h' := by
        rintro rfl
        cases hold.symm.trans hp
      rw [if_neg hne]
      exact hw.progress h p hp
    | some q =>
      simp only [hold, Finmap.lookup_insert_ite] at hp ⊢
      by_cases heq : h = h'
      · subst heq
        rw [if_pos rfl] at hp ⊢
        obtain rfl := Option.some.inj hp
        have heff := call_cases hw.consistent hold call
        exact (hw.progress h q hold).called (hw.consistent.peers h q hold) heff
      · rw [if_neg heq] at hp ⊢
        exact hw.progress h p hp
  | drop h' ms =>
    simp only [World.step, Machine.event, store, callsAfter] at hp ⊢
    cases hold : w.peers.lookup h' with
    | none =>
      simp only [hold] at hp
      exact hw.progress h p hp
    | some q =>
      simp only [hold, Finmap.lookup_erase_ite] at hp
      by_cases heq : h = h'
      · rw [if_pos heq] at hp
        cases hp
      · rw [if_neg heq] at hp
        exact hw.progress h p hp

/-- A packet is only processed after an exchange for the client and the network of the session. -/
theorem Progress.packet {p p' : SecurePeer HS} {sessions sessions' : SessionStore} {call : Call}
    {out : Output} {frame : Bytes} {calls : List (Call × Output)} (h : Progress c p calls)
    (heff : Effect c p sessions call out p' sessions') (hcall : call.isPacket)
    (hout : out = .frame (.ok frame)) :
    ∃ key, p.sessionKey = some key ∧ ∃ x : NoiseExchange HS,
      x.Completed c p.localPrivate p.serverPeerId calls ∧ x.peerId = key.peerId ∧
        x.networkName = key.networkName := by
  have hfinished : ∀ key s, p.authenticated → p.Agrees key s → ∃ x : NoiseExchange HS,
      x.Completed c p.localPrivate p.serverPeerId calls ∧ x.peerId = key.peerId ∧
        x.networkName = key.networkName := by
    intro key s hauth hagrees
    obtain ⟨x, hx, hpeer, hname⟩ := h.finished hauth
    exact ⟨x, hx, Option.some.inj (hpeer.symm.trans hagrees.peerId),
      Option.some.inj (hname.symm.trans hagrees.networkName)⟩
  cases heff with
  | refused herror =>
    rw [hout] at herror
    cases herror
  | encrypted hauth hkey _ hagrees => exact ⟨_, hkey, hfinished _ _ hauth hagrees⟩
  | decrypted hauth hkey _ hagrees => exact ⟨_, hkey, hfinished _ _ hauth hagrees⟩
  | heard | unselected | unsent | sent | lost | confirmed => cases hcall

/-- The progress of the connections in every run of the store. -/
theorem follows (c : Crates HS) (ops : List Op) :
    ((store c).run (store c).init ops).Follows c fun h =>
      callsSince h ((store c).history (store c).init ops) := by
  refine Machine.history_invariant (m := store c) (C := fun _ _ => True)
    (P := fun tr w => w.Follows c fun h => callsSince h tr) ?_ ?_ ops fun _ _ _ _ => trivial
  · exact ⟨consistent_of_reachable (store c).reachable_init, fun h p hp => by cases hp⟩
  · intro tr w op hw _
    have hstep := hw.step op
    simp only [callsSince, List.foldl_append, List.foldl_cons, List.foldl_nil]
    exact hstep

/-- When a packet is encrypted or decrypted, a Noise exchange was completed on the connection
    since it was constructed, for the client and the network of its session. -/
def PacketAfterExchange (c : Crates HS) (before : List (StoreEvent HS)) (e : StoreEvent HS) : Prop :=
  ∀ h call frame, e.input = .call h call → call.isPacket → e.output = .frame (.ok frame) →
    ∃ p key, e.pre.peers.lookup h = some p ∧ p.sessionKey = some key ∧ ∃ x : NoiseExchange HS,
      x.Completed c p.localPrivate p.serverPeerId (callsSince h before) ∧
        x.peerId = key.peerId ∧ x.networkName = key.networkName

/-- In every run of the store, packets are only encrypted and decrypted after an exchange. -/
theorem exchange_before_packets (c : Crates HS) (ops : List Op) :
    Along (PacketAfterExchange c) ((store c).history (store c).init ops) := by
  intro before e after hsplit h call frame hinput hcall hout
  obtain ⟨js, op, -, -, rfl, rfl⟩ := Machine.history_split hsplit
  have hw := follows c js
  generalize (store c).run (store c).init js = w at hinput hout hw ⊢
  obtain rfl : op = .call h call := hinput
  simp only [Machine.event, store, World.step] at hout ⊢
  cases hp : w.peers.lookup h with
  | none =>
    simp only [hp] at hout
    cases hout
  | some p =>
    simp only [hp] at hout
    have heff := call_cases hw.consistent hp call
    obtain ⟨key, hkey, hx⟩ := (hw.progress h p hp).packet heff hcall hout
    exact ⟨p, key, rfl, hkey, hx⟩

end EasyTierEdge
