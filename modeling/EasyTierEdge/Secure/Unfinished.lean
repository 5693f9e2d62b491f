import EasyTierEdge.Secure.History

/-!
# Unfinished handshakes

Message 2 selects, and changes, the stored session before message 3 proves that the
client knows the network secret and has the static key the session was confirmed
with. So whoever can send a message 1 in the name of a client can disturb its session:
unless it claims the stored generation, the session is reset by a `Sync`
(`stranger_resets_session`), or replaced when it is idle.

* `Unaffected.undisturbed`: connections whose sessions keep their keys and traffic
  state have their packets encrypted and decrypted as before;
* `unfinished_handshake_iff`: a handshake that never gets through message 3 leaves a
  confirmed session, and the frames of its connections, as they were exactly when
  message 2 is refused for its algorithm or joins.
-/

namespace EasyTierEdge

variable {HS : Type}

/-! ## Worlds that differ in one connection -/

/-- Two sessions have the same keys and traffic state. -/
structure StoredSession.SameState (s s' : StoredSession) : Prop where
  rootKey : s'.rootKey = s.rootKey
  remotePublicKey : s'.remotePublicKey = s.remotePublicKey
  traffic : s'.toTrafficState = s.toTrafficState

namespace StoredSession.SameState

variable {s s' s'' : StoredSession}

theorem refl (s : StoredSession) : s.SameState s := ⟨rfl, rfl, rfl⟩

theorem trans (h : s.SameState s') (h' : s'.SameState s'') : s.SameState s'' :=
  ⟨h'.rootKey.trans h.rootKey, h'.remotePublicKey.trans h.remotePublicKey,
    h'.traffic.trans h.traffic⟩

/-- Encrypting depends on the root key and the traffic state only. -/
theorem encrypt (c : Crates HS) (h : s.SameState s') (server client : UInt32) (packet : Bytes)
    (clock : PacketClock) :
    (s'.encrypt c server client packet clock).1 = (s.encrypt c server client packet clock).1 ∧
      (s.encrypt c server client packet clock).2.SameState
        (s'.encrypt c server client packet clock).2 := by
  unfold StoredSession.encrypt
  rw [h.rootKey, h.traffic]
  cases splitPacket packet with
  | error m => exact ⟨rfl, h⟩
  | ok parts =>
    simp only
    split_ifs
    · exact ⟨rfl, h⟩
    · exact ⟨rfl, h⟩
    · exact ⟨rfl, h.rootKey, h.remotePublicKey, rfl⟩

/-- Decrypting depends on the root key and the traffic state only. -/
theorem decrypt (c : Crates HS) (h : s.SameState s') (server client : UInt32) (algorithm : String)
    (packet : Bytes) (clock : PacketClock) :
    (s'.decrypt c server client algorithm packet clock).1 =
        (s.decrypt c server client algorithm packet clock).1 ∧
      (s.decrypt c server client algorithm packet clock).2.SameState
        (s'.decrypt c server client algorithm packet clock).2 := by
  unfold StoredSession.decrypt
  rw [h.rootKey, h.traffic]
  cases splitPacket packet with
  | error m => exact ⟨rfl, h⟩
  | ok parts =>
    simp only
    split_ifs
    · exact ⟨rfl, h⟩
    · exact ⟨rfl, h⟩
    · exact ⟨rfl, h.rootKey, h.remotePublicKey, rfl⟩

end StoredSession.SameState

/-- `w'` differs from `w` in the connection `h` only: the others are the same, and so
    are the keys and traffic states of their sessions, and of the session under `key`. -/
structure Unaffected (h : Handle) (key : SessionKey) (w w' : World HS) : Prop where
  peers : ∀ h', h' ≠ h → w'.peers.lookup h' = w.peers.lookup h'
  sessions : ∀ key' s,
    (key' = key ∨ ∃ h' p, h' ≠ h ∧ w.peers.lookup h' = some p ∧ p.sessionKey = some key') →
    w.sessions.lookup key' = some s → ∃ s', w'.sessions.lookup key' = some s' ∧ s.SameState s'

/-- A packet sent or received by a connection other than `h`. -/
def Op.isPacketExcept (h : Handle) : Op → Bool
  | .call h' (.encryptPacket _ _) => h' != h
  | .call h' (.decryptPacket _ _) => h' != h
  | _ => false

/-- Whether a message 3 was accepted. -/
def Output.accepted : Output → Bool
  | .auth (.ok _) => true
  | _ => false

/-- The end of a handshake: a message 3 for the connection `h`, or dropping it. -/
def Op.ends (h : Handle) : Op → Bool
  | .call h' (.finishMsg3 _ _) => h' == h
  | .drop h' _ => h' == h
  | _ => false

namespace Unaffected

variable {c : Crates HS} {h : Handle} {key : SessionKey} {w w' w'' : World HS}

theorem refl (h : Handle) (key : SessionKey) (w : World HS) : Unaffected h key w w :=
  ⟨fun _ _ => rfl, fun _ s _ hs => ⟨s, hs, .refl s⟩⟩

theorem trans (h₁ : Unaffected h key w w') (h₂ : Unaffected h key w' w'') :
    Unaffected h key w w'' where
  peers h' hne := (h₂.peers h' hne).trans (h₁.peers h' hne)
  sessions key' s hkey hs := by
    obtain ⟨s', hs', hsame⟩ := h₁.sessions key' s hkey hs
    have hkey' : key' = key ∨
        ∃ h' p, h' ≠ h ∧ w'.peers.lookup h' = some p ∧ p.sessionKey = some key' := by
      refine hkey.imp id ?_
      rintro ⟨h', p, hne, hp, hpkey⟩
      exact ⟨h', p, hne, (h₁.peers h' hne).trans hp, hpkey⟩
    obtain ⟨s'', hs'', hsame'⟩ := h₂.sessions key' s' hkey' hs'
    exact ⟨s'', hs'', hsame.trans hsame'⟩

/-- Both worlds save the session of the same packet. -/
theorem save (hu : Unaffected h key w w') {h' : Handle} {q : SecurePeer HS} {key₁ : SessionKey}
    {s s' : StoredSession} (hq : q.sessionKey = some key₁) (hsame : s.SameState s') :
    Unaffected h key { sessions := w.sessions.insert key₁ s, peers := w.peers.insert h' q }
      { sessions := w'.sessions.insert key₁ s', peers := w'.peers.insert h' q } where
  peers h₂ hne := by
    simp only [Finmap.lookup_insert_ite, hu.peers h₂ hne]
  sessions key₂ s₂ hkey hs := by
    simp only [Finmap.lookup_insert_ite] at hkey hs ⊢
    by_cases hkey₂ : key₂ = key₁
    · rw [if_pos hkey₂] at hs ⊢
      obtain rfl := Option.some.inj hs
      exact ⟨s', rfl, hsame⟩
    · rw [if_neg hkey₂] at hs ⊢
      refine hu.sessions key₂ s₂ (hkey.imp id ?_) hs
      rintro ⟨h₂, p₂, hne, hp, hpkey⟩
      split_ifs at hp with hh
      · rw [← Option.some.inj hp, hq, Option.some.injEq] at hpkey
        exact absurd hpkey.symm hkey₂
      · exact ⟨h₂, p₂, hne, hp, hpkey⟩

/-- A call of another connection that changes nothing. -/
theorem refused (hu : Unaffected h key w w') {h' : Handle} {p : SecurePeer HS} (hne : h' ≠ h)
    (hp : w.peers.lookup h' = some p) :
    Unaffected h key { w with peers := w.peers.insert h' p }
      { w' with peers := w'.peers.insert h' p } := by
  have hp' : w'.peers.lookup h' = some p := (hu.peers h' hne).trans hp
  rw [Finmap.insert_eq_self hp, Finmap.insert_eq_self hp']
  exact hu

/-- A packet of another connection has the same result in both worlds. -/
theorem packet (hu : Unaffected h key w w') (hw : w.Consistent c) {op : Op}
    (hop : op.isPacketExcept h) :
    (w'.step c op).2 = (w.step c op).2 ∧ Unaffected h key (w.step c op).1 (w'.step c op).1 := by
  have hcall : ∀ h' call, op = .call h' call → h' ≠ h → ∀ p, w.peers.lookup h' = some p →
      ((p.call c w'.sessions call).1 = (p.call c w.sessions call).1 ∧
        Unaffected h key
          ⟨(p.call c w.sessions call).2.2, w.peers.insert h' (p.call c w.sessions call).2.1⟩
          ⟨(p.call c w'.sessions call).2.2, w'.peers.insert h' (p.call c w'.sessions call).2.1⟩) := by
    rintro h' call rfl hne p hp
    by_cases hauth : p.authenticated
    · have hcons := hw.peers h' p hp
      obtain ⟨key₁, s, hkey, hs, hagrees⟩ := hcons.agrees (.inl hauth)
      obtain ⟨s', hs', hsame⟩ := hu.sessions key₁ s (.inr ⟨h', p, hne, hp, hkey⟩) hs
      have hroot := hcons.rootKey_isSome hkey
      cases call with
      | encryptPacket packet clock =>
        simp only [SecurePeer.call]
        rw [SecurePeer.encryptPacket_eq hauth hroot hkey hs hagrees.peerId,
          SecurePeer.encryptPacket_eq hauth hroot hkey hs' hagrees.peerId]
        obtain ⟨hout, hsame'⟩ := hsame.encrypt c p.serverPeerId key₁.peerId packet clock
        have hload : p.load (s'.encrypt c p.serverPeerId key₁.peerId packet clock).2 =
            p.load (s.encrypt c p.serverPeerId key₁.peerId packet clock).2 := by
          simp only [SecurePeer.load, hsame'.rootKey, hsame'.traffic]
        simp only [hout, hload]
        exact ⟨trivial, hu.save hkey hsame'⟩
      | decryptPacket packet clock =>
        simp only [SecurePeer.call]
        rw [SecurePeer.decryptPacket_eq hauth hroot hkey hs hagrees.peerId hagrees.clientAlgorithm,
          SecurePeer.decryptPacket_eq hauth hroot hkey hs' hagrees.peerId hagrees.clientAlgorithm]
        obtain ⟨hout, hsame'⟩ :=
          hsame.decrypt c p.serverPeerId key₁.peerId s.clientAlgorithm packet clock
        have hload :
            p.load (s'.decrypt c p.serverPeerId key₁.peerId s.clientAlgorithm packet clock).2 =
              p.load (s.decrypt c p.serverPeerId key₁.peerId s.clientAlgorithm packet clock).2 := by
          simp only [SecurePeer.load, hsame'.rootKey, hsame'.traffic]
        simp only [hout, hload]
        exact ⟨trivial, hu.save hkey hsame'⟩
      | readMsg1 | buildMsg2 | finishMsg3 => cases hop
    · cases call with
      | encryptPacket packet clock =>
        simp only [SecurePeer.call, SecurePeer.encryptPacket_of_not fun h => hauth h.1]
        exact ⟨trivial, hu.refused hne hp⟩
      | decryptPacket packet clock =>
        simp only [SecurePeer.call, SecurePeer.decryptPacket_of_not fun h => hauth h.1]
        exact ⟨trivial, hu.refused hne hp⟩
      | readMsg1 | buildMsg2 | finishMsg3 => cases hop
  cases op with
  | new | drop => cases hop
  | call h' call =>
    have hne : h' ≠ h := by
      cases call with
      | encryptPacket | decryptPacket => simpa [Op.isPacketExcept] using hop
      | readMsg1 | buildMsg2 | finishMsg3 => cases hop
    cases hp : w.peers.lookup h' with
    | none =>
      have hp' : w'.peers.lookup h' = none := (hu.peers h' hne).trans hp
      simp only [World.step, hp, hp']
      exact ⟨trivial, hu⟩
    | some p =>
      have hp' : w'.peers.lookup h' = some p := (hu.peers h' hne).trans hp
      simp only [World.step, hp, hp']
      exact hcall h' call rfl hne p hp

/-- What happens to the connection `h` alone leaves the others unaffected. -/
theorem of_sessions (w : World HS) (key : SessionKey) (h : Handle) {sessions' : SessionStore}
    {peers' : FinMap Handle (SecurePeer HS)}
    (hpeers : ∀ h', h' ≠ h → peers'.lookup h' = w.peers.lookup h')
    (hsessions : ∀ key' s, w.sessions.lookup key' = some s →
      ∃ s', sessions'.lookup key' = some s' ∧ s.SameState s') :
    Unaffected h key w { sessions := sessions', peers := peers' } :=
  ⟨hpeers, fun key' s _ hs => hsessions key' s hs⟩

/-- A message 3 that is refused, or the drop of the connection, affects no other. -/
theorem ends (hw : w.Consistent c) {op : Op} (hop : op.ends h)
    (hfails : (w.step c op).2.accepted = false) :
    Unaffected h key w (w.step c op).1 := by
  have hinsert : ∀ (q : SecurePeer HS) h', h' ≠ h →
      (w.peers.insert h q).lookup h' = w.peers.lookup h' :=
    fun q h' hne => Finmap.lookup_insert_of_ne _ hne
  cases op with
  | new => cases hop
  | call h' call =>
    cases call with
    | readMsg1 | buildMsg2 | encryptPacket | decryptPacket => cases hop
    | finishMsg3 packet ms =>
      obtain rfl : h' = h := by simpa [Op.ends] using hop
      cases hp : w.peers.lookup h' with
      | none =>
        simp only [World.step, hp]
        exact .refl _ _ _
      | some p =>
        have heff := call_cases hw hp (.finishMsg3 packet ms)
        simp only [World.step, hp] at hfails ⊢
        generalize p.call c w.sessions (.finishMsg3 packet ms) = r at heff hfails
        obtain ⟨out, p', sessions'⟩ := r
        cases heff with
        | refused => exact .of_sessions w key h' (hinsert _) fun _ s hs => ⟨s, hs, .refl s⟩
        | lost => exact .of_sessions w key h' (hinsert _) fun _ s hs => ⟨s, hs, .refl s⟩
        | confirmed => cases hfails
  | drop h' ms =>
    obtain rfl : h' = h := by simpa [Op.ends] using hop
    simp only [World.step]
    cases hp : w.peers.lookup h' with
    | none => exact .refl _ _ _
    | some p =>
      refine .of_sessions w key h' (fun h₂ hne => Finmap.lookup_erase_ne hne) fun key' s hs => ?_
      rw [p.lookup_drop, hs]
      split_ifs
      · exact ⟨s.detach ms, rfl, rfl, rfl, rfl⟩
      · exact ⟨s, rfl, .refl s⟩

end Unaffected

/-! ## Handshakes that are not finished -/

/-- The two sessions number and accept frames alike, and belong to the same client. -/
structure StoredSession.Matches (s s' : StoredSession) : Prop where
  sendEpoch : s'.sendEpoch = s.sendEpoch
  sendSeq : s'.sendSeq = s.sendSeq
  rxSlots : s'.rxSlots = s.rxSlots
  syncRxGrace : s'.syncRxGrace = s.syncRxGrace
  rootKey : s'.rootKey = s.rootKey
  remotePublicKey : s'.remotePublicKey = s.remotePublicKey

theorem StoredSession.SameState.matches {s s' : StoredSession} (h : s.SameState s') :
    s.Matches s' where
  sendEpoch := congrArg TrafficState.sendEpoch h.traffic
  sendSeq := congrArg TrafficState.sendSeq h.traffic
  rxSlots := congrArg TrafficState.rxSlots h.traffic
  syncRxGrace := congrArg TrafficState.syncRxGrace h.traffic
  rootKey := h.rootKey
  remotePublicKey := h.remotePublicKey

/-- A `Sync` never leaves a session as it was: its epoch or its receive slots change. -/
theorem StoredSession.not_matches_sync (s : StoredSession) (ms : UInt64) :
    ¬s.Matches (s.sync ms) := by
  intro h
  have hepoch : s.syncEpoch + 1 = s.sendEpoch := h.sendEpoch
  have hslots : default = s.rxSlots := h.rxSlots
  -- Without a valid slot, the epoch is the successor of the session's own.
  have hown : s.syncEpoch = s.sendEpoch := by
    simp only [StoredSession.syncEpoch, ← hslots]
    rfl
  rw [hown] at hepoch
  simp at hepoch

/-- What the run `rest` shows of the packets of the connections other than `h`. -/
def seenExcept (h : Handle) (tr : List (StoreEvent HS)) : List Output :=
  (tr.filter fun e => e.input.isPacketExcept h).map Event.output

/-- Running `rest` from `w'`, where `h` has begun a handshake, is for the session under
    `key` and for all other connections as running it from `w` without `h`. -/
structure Undisturbed (c : Crates HS) (h : Handle) (key : SessionKey) (w w' : World HS)
    (rest : List Op) : Prop where
  session : ∃ s s', ((store c).run w (rest.filter (Op.isPacketExcept h))).sessions.lookup key =
      some s ∧ ((store c).run w' rest).sessions.lookup key = some s' ∧ s.Matches s'
  outputs : seenExcept h ((store c).history w' rest) =
    (store c).outputs w (rest.filter (Op.isPacketExcept h))

section Unfinished

variable {c : Crates HS} {h : Handle} {key : SessionKey} {w w' : World HS}

/-- A packet leaves every session stored. -/
theorem stored_of_packet (hw : w.Consistent c) {op : Op} (hop : op.isPacketExcept h)
    {s : StoredSession} (hs : w.sessions.lookup key = some s) :
    ∃ s', (w.step c op).1.sessions.lookup key = some s' := by
  have hinsert : ∀ key' s', ∃ s₁, (w.sessions.insert key' s').lookup key = some s₁ := by
    intro key' s'
    rw [Finmap.lookup_insert_ite]
    split_ifs
    · exact ⟨_, rfl⟩
    · exact ⟨s, hs⟩
  cases op with
  | new | drop => cases hop
  | call h' call =>
    simp only [World.step]
    cases hp : w.peers.lookup h' with
    | none => exact ⟨s, hs⟩
    | some p =>
      have heff := call_cases hw hp call
      simp only
      generalize p.call c w.sessions call = r at heff
      obtain ⟨out, p', sessions'⟩ := r
      cases heff with
      | refused => exact ⟨s, hs⟩
      | encrypted => exact hinsert _ _
      | decrypted => exact hinsert _ _
      | heard | unselected | unsent | sent | lost | confirmed => cases hop

/-- Packets of the other connections, and the end of the handshake of `h`, keep the
    difference between the two worlds to `h`. -/
theorem Unaffected.undisturbed (hu : Unaffected h key w w') (hw : w.Consistent c)
    (hw' : w'.Consistent c) {s : StoredSession} (hs : w.sessions.lookup key = some s)
    (rest : List Op) (hrest : ∀ op ∈ rest, op.isPacketExcept h ∨ op.ends h)
    (hfails : ∀ e ∈ (store c).history w' rest, e.output.accepted = false) :
    Undisturbed c h key w w' rest := by
  induction rest generalizing w w' s with
  | nil =>
    obtain ⟨s', hs', hsame⟩ := hu.sessions key s (.inl rfl) hs
    exact ⟨⟨s, s', hs, hs', hsame.matches⟩, rfl⟩
  | cons op rest ih =>
    rw [List.forall_mem_cons] at hrest
    rw [Machine.history_cons, List.forall_mem_cons] at hfails
    by_cases hop : op.isPacketExcept h
    · obtain ⟨hout, hu'⟩ := hu.packet hw hop
      obtain ⟨s₁, hs₁⟩ := stored_of_packet hw hop hs
      obtain ⟨hsession, houtputs⟩ :=
        ih hu' (hw.step op) (hw'.step op) hs₁ hrest.2 hfails.2
      refine ⟨?_, ?_⟩
      · rw [List.filter_cons_of_pos hop, Machine.run_cons, Machine.run_cons]
        exact hsession
      · simp only [seenExcept, Machine.outputs] at houtputs ⊢
        rw [List.filter_cons_of_pos hop, Machine.history_cons, Machine.history_cons,
          List.filter_cons_of_pos (by exact hop), List.map_cons, List.map_cons]
        congr 1
    · have hends := hrest.1.resolve_left hop
      obtain ⟨hsession, houtputs⟩ :=
        ih (hu.trans (.ends hw' hends hfails.1)) hw (hw'.step op) hs hrest.2 hfails.2
      refine ⟨?_, ?_⟩
      · rw [List.filter_cons_of_neg hop, Machine.run_cons]
        exact hsession
      · simp only [seenExcept] at houtputs ⊢
        rw [List.filter_cons_of_neg hop, Machine.history_cons,
          List.filter_cons_of_neg (by exact hop)]
        exact houtputs

/-- A connection that is constructed, hears a message 1 and builds message 2. -/
structure Newcomer where
  handle : Handle
  localPrivateKeyBase64 : String
  localPublicKeyBase64 : String
  serverPeerId : UInt32
  newMs : UInt64
  msg1 : Bytes
  networkSecret : String
  draws : Msg2Draws

/-- Its steps up to message 1. -/
def Newcomer.start (i : Newcomer) : List Op :=
  [.new i.handle i.localPrivateKeyBase64 i.localPublicKeyBase64 i.serverPeerId i.newMs,
    .call i.handle (.readMsg1 i.msg1)]

/-- Its steps up to message 2. -/
def Newcomer.ops (i : Newcomer) : List Op :=
  i.start ++ [.call i.handle (.buildMsg2 i.networkSecret i.draws)]

/-- The connection claims to be the client of the session under `key`. -/
structure SecurePeer.Claims (p : SecurePeer HS) (key : SessionKey) : Prop where
  peerId : p.peerId = some key.peerId
  networkName : p.networkName = some key.networkName
  serverPeerId : p.serverPeerId = key.serverPeerId
  localPublic : p.localPublic = key.serverPublicKey

/-- Message 2 of the connection `p`, which has heard message 1, spares the session `s`:
    it is refused for want of a secret or for its algorithm, or joins. -/
def Newcomer.Spares (i : Newcomer) (p : SecurePeer HS) (s : StoredSession) : Prop :=
  i.networkSecret = "" ∨ s.retained i.draws.upsertMs ∧
    (p.clientAlgorithm ≠ some s.clientAlgorithm ∨ p.aSessionGeneration = some s.generation)

instance (i : Newcomer) (p : SecurePeer HS) (s : StoredSession) : Decidable (i.Spares p s) :=
  inferInstanceAs (Decidable (_ ∨ _ ∧ (_ ∨ _)))

theorem SecurePeer.peerId_new {localPrivate localPublic : String} {serverPeerId : UInt32}
    {ms : UInt64} {p : SecurePeer HS}
    (hnew : SecurePeer.new c localPrivate localPublic serverPeerId ms = .ok p) :
    p.peerId = none := by
  simp only [SecurePeer.new, Except.bind_eq_ok, Except.rejectIf_eq_ok, Except.pure_eq_ok] at hnew
  obtain ⟨-, -, -, -, -, -, -, -, rfl⟩ := hnew
  rfl

/-- A newcomer that claims a key after message 1 is the only change so far, and ready
    for message 2. -/
theorem Newcomer.run_start {i : Newcomer} {p : SecurePeer HS}
    (hnone : w.peers.lookup i.handle = none)
    (hp : ((store c).run w i.start).peers.lookup i.handle = some p) (hkey : p.Claims key) :
    (store c).run w i.start = { w with peers := w.peers.insert i.handle p } ∧
      (i.networkSecret ≠ "" → ∃ m, p.Msg2Ready i.networkSecret m ∧ p.helloKey m = key) := by
  have hrun : (store c).run w i.start = (((w.step c (.new i.handle i.localPrivateKeyBase64
      i.localPublicKeyBase64 i.serverPeerId i.newMs)).1).step c
        (.call i.handle (.readMsg1 i.msg1))).1 := rfl
  rw [hrun] at hp ⊢
  cases hnew : SecurePeer.new c i.localPrivateKeyBase64 i.localPublicKeyBase64 i.serverPeerId
    i.newMs with
  | error e => simp [World.step, hnone, hnew] at hp
  | ok p₀ =>
    cases hread : p₀.readMsg1 c i.msg1 with
    | error e =>
      -- A new connection claims nothing.
      simp only [World.step, hnone, hnew, Finmap.lookup_insert, SecurePeer.call, hread,
        Option.some.injEq] at hp
      have hpeer := hkey.peerId
      rw [← hp, SecurePeer.peerId_new hnew] at hpeer
      cases hpeer
    | ok result =>
      obtain ⟨info, q⟩ := result
      simp only [World.step, hnone, hnew, Finmap.lookup_insert, SecurePeer.call, hread,
        Option.some.injEq] at hp ⊢
      subst hp
      obtain ⟨header, handshake, message, -, -, rfl⟩ := SecurePeer.readMsg1_eq_ok hread
      refine ⟨by rw [Finmap.insert_insert], fun hsecret => ⟨⟨header.fromPeerId,
        message.aNetworkName, handshake, message.clientEncryptionAlgorithm⟩,
        ⟨hsecret, (SecurePeer.consistent_new hnew ∅).1, rfl, rfl, rfl, rfl⟩, ?_⟩⟩
      have hpeer : header.fromPeerId = key.peerId := Option.some.inj hkey.peerId
      have hname : message.aNetworkName = key.networkName := Option.some.inj hkey.networkName
      have hserver : p₀.serverPeerId = key.serverPeerId := hkey.serverPeerId
      have hpublic : p₀.localPublic = key.serverPublicKey := hkey.localPublic
      simp only [SecurePeer.helloKey, SecurePeer.msg2SessionKey, SecurePeer.afterMsg1, hserver,
        hpublic, hpeer, hname]

/-- A message 2 that spares the session of its key affects no other connection. -/
theorem Newcomer.Spares.unaffected {i : Newcomer} {p : SecurePeer HS} {s : StoredSession}
    (hspares : i.Spares p s) (hw : w.Consistent c) (hs : w.sessions.lookup key = some s)
    (hready : i.networkSecret ≠ "" → ∃ m, p.Msg2Ready i.networkSecret m ∧ p.helloKey m = key)
    {out : Output} {p' : SecurePeer HS} {sessions' : SessionStore}
    (heff : Effect c p w.sessions (.buildMsg2 i.networkSecret i.draws) out p' sessions') :
    Unaffected i.handle key w { sessions := sessions', peers := w.peers.insert i.handle p' } := by
  have hpeers : ∀ (q : SecurePeer HS) h', h' ≠ i.handle →
      (w.peers.insert i.handle q).lookup h' = w.peers.lookup h' :=
    fun q h' hne => Finmap.lookup_insert_of_ne _ hne
  -- The idle `retain` keeps the session under `key` and those of the connections.
  have hkept : i.networkSecret ≠ "" → ∀ key', (key' = key ∨ ∃ h' p', h' ≠ i.handle ∧
      w.peers.lookup h' = some p' ∧ p'.sessionKey = some key') →
      (retainedSessions w.sessions i.draws.upsertMs).lookup key' = w.sessions.lookup key' := by
    rintro hsecret key' (rfl | ⟨h', p', -, hp', hkey'⟩)
    · rw [lookup_retainedSessions, hs, Option.filter_some,
        if_pos (hspares.resolve_left hsecret).1]
    · exact hw.lookup_retainedSessions hp' hkey' _
  -- The selected session is the one stored under `key`, joined.
  have hjoins : ∀ m sel s', p.Msg2Ready i.networkSecret m → p.Selects w.sessions i.draws m sel s' →
      p.helloKey m = key ∧ s' = s.touch i.draws.upsertMs := by
    intro m sel s' hm hsel
    obtain ⟨m', hm', hkey⟩ := hready hm.secret
    obtain rfl := hm.unique hm'
    obtain ⟨hret, hcond⟩ := hspares.resolve_left hm.secret
    refine ⟨hkey, ?_⟩
    simp only [SecurePeer.Selects, hkey] at hsel
    cases hsel with
    | join hs' => rw [Option.some.inj (hs'.symm.trans hs)]
    | sync hs' _ halg hgen =>
      obtain rfl := Option.some.inj (hs'.symm.trans hs)
      rcases hcond with hne | heq
      · exact absurd (halg ▸ hm.clientAlgorithm) hne
      · exact absurd heq hgen
    | create hnone =>
      rw [lookup_retainedSessions, hs, Option.filter_some, if_pos hret] at hnone
      cases hnone
  have hselected : ∀ m s' q, i.networkSecret ≠ "" → p.helloKey m = key → s.SameState s' →
      Unaffected i.handle key w ⟨p.selectedSessions w.sessions i.draws m s',
        w.peers.insert i.handle q⟩ := by
    intro m s' q hsecret hkey hsame
    refine ⟨hpeers q, fun key' s₁ hkey' hs₁ => ?_⟩
    rw [SecurePeer.selectedSessions, hkey, Finmap.lookup_insert_ite]
    split_ifs with heq
    · rw [heq, hs] at hs₁
      obtain rfl := Option.some.inj hs₁
      exact ⟨s', rfl, hsame⟩
    · exact ⟨s₁, by rw [hkept hsecret key' hkey', hs₁], .refl s₁⟩
  cases heff with
  | refused => exact ⟨hpeers _, fun _ s₁ _ hs₁ => ⟨s₁, hs₁, .refl s₁⟩⟩
  | unselected hm =>
    exact ⟨hpeers _, fun key' s₁ hkey' hs₁ =>
      ⟨s₁, by rw [hkept hm.secret key' hkey', hs₁], .refl s₁⟩⟩
  | unsent hm hsel =>
    obtain ⟨hkey, rfl⟩ := hjoins _ _ _ hm hsel
    exact hselected _ _ _ hm.secret hkey ⟨rfl, rfl, rfl⟩
  | sent hm hsel _ _ hattach =>
    obtain ⟨hkey, rfl⟩ := hjoins _ _ _ hm hsel
    rw [StoredSession.eq_of_attach hattach]
    exact hselected _ _ _ hm.secret hkey ⟨rfl, rfl, rfl⟩

/-- A message 2 that leaves a confirmed session as it was spares it. -/
theorem Newcomer.spares_of_matches {i : Newcomer} {p : SecurePeer HS} {s s' : StoredSession}
    (hp : w.peers.lookup i.handle = some p) (hs : w.sessions.lookup key = some s)
    (hconfirmed : s.remotePublicKey.isSome)
    (hready : i.networkSecret ≠ "" → ∃ m, p.Msg2Ready i.networkSecret m ∧ p.helloKey m = key)
    (hs' : (w.step c (.call i.handle (.buildMsg2 i.networkSecret i.draws))).1.sessions.lookup key =
      some s') (hmatches : s.Matches s') : i.Spares p s := by
  by_cases hsecret : i.networkSecret = ""
  · exact .inl hsecret
  obtain ⟨m, hm, hkey⟩ := hready hsecret
  simp only [World.step, hp, SecurePeer.call] at hs'
  -- Whatever session is selected, it is stored.
  have hstored : ∀ sel s₁, p.Selects w.sessions i.draws m sel s₁ →
      s₁.remotePublicKey = s.remotePublicKey ∧ s.Matches s₁ := by
    intro sel s₁ hsel
    obtain ⟨s₂, hsessions, hs₂⟩ := SecurePeer.buildMsg2_selects (c := c) hm hsel
    rw [hsessions, SecurePeer.selectedSessions, hkey, Finmap.lookup_insert, Option.some.injEq] at hs'
    subst hs'
    rcases hs₂ with rfl | hattach
    · exact ⟨hmatches.remotePublicKey, hmatches⟩
    · rw [StoredSession.eq_of_attach hattach] at hmatches
      exact ⟨hmatches.remotePublicKey, { hmatches with }⟩
  by_cases hret : s.retained i.draws.upsertMs
  · refine .inr ⟨hret, ?_⟩
    by_contra! hnot
    have halg : s.clientAlgorithm = m.clientAlgorithm :=
      (Option.some.inj (hm.clientAlgorithm.symm.trans hnot.1)).symm
    have hsel : p.Selects w.sessions i.draws m _ _ := .sync (hkey ▸ hs) hret halg hnot.2
    exact s.not_matches_sync _ (hstored _ _ hsel).2
  · -- An idle session is gone, or another is created, that is not confirmed.
    exfalso
    have hnone : (retainedSessions w.sessions i.draws.upsertMs).lookup key = none := by
      rw [lookup_retainedSessions, hs, Option.filter_some, if_neg hret]
    rcases upsertSession_cases w.sessions (p.helloKey m) p.aSessionGeneration m.clientAlgorithm
      i.draws.rootKey i.draws.upsertMs with ⟨e, hup, -⟩ | ⟨sel, s₁, -, hsel⟩
    · rw [SecurePeer.buildMsg2_of_ready hm, hup] at hs'
      simp only [hnone] at hs'
      cases hs'
    · have hremote := (hstored sel s₁ hsel).1
      rw [hkey] at hsel
      cases hsel with
      | join hs₁ hr => exact hret (Option.some.inj (hs₁.symm.trans hs) ▸ hr)
      | sync hs₁ hr => exact hret (Option.some.inj (hs₁.symm.trans hs) ▸ hr)
      | create =>
        rw [← hremote] at hconfirmed
        cases hconfirmed

end Unfinished

/-- An unfinished handshake leaves a confirmed session, and the packets of all other
    connections, as they would have been without it, exactly when its message 2 spares
    the session: for every reachable store, every session with a confirmed static key
    and every newcomer that claims to be its client, whatever the packets of the other
    connections and the failing messages 3 of the newcomer are afterwards. -/
theorem unfinished_handshake_iff (c : Crates HS) (js : List Op) (i : Newcomer) (key : SessionKey)
    (s : StoredSession) (p : SecurePeer HS)
    (hs : ((store c).run (store c).init js).sessions.lookup key = some s)
    (hconfirmed : s.remotePublicKey.isSome)
    (hnone : ((store c).run (store c).init js).peers.lookup i.handle = none)
    (hp : ((store c).run (store c).init (js ++ i.start)).peers.lookup i.handle = some p)
    (hkey : p.Claims key) :
    (∀ rest : List Op, (∀ op ∈ rest, op.isPacketExcept i.handle ∨ op.ends i.handle) →
      (∀ e ∈ (store c).history ((store c).run (store c).init (js ++ i.ops)) rest,
        e.output.accepted = false) →
      Undisturbed c i.handle key ((store c).run (store c).init js)
        ((store c).run (store c).init (js ++ i.ops)) rest) ↔
    i.Spares p s := by
  have hw : ((store c).run (store c).init js).Consistent c := consistent_of_reachable ⟨js, rfl⟩
  have hw' : ((store c).run (store c).init (js ++ i.ops)).Consistent c :=
    consistent_of_reachable ⟨_, rfl⟩
  have hstart : ((store c).run (store c).init (js ++ i.start)).Consistent c :=
    consistent_of_reachable ⟨_, rfl⟩
  rw [Newcomer.ops, ← List.append_assoc, Machine.run_snoc] at hw' ⊢
  rw [Machine.run_append] at hp hstart hw' ⊢
  generalize (store c).run (store c).init js = w at *
  obtain ⟨heq, hready⟩ := Newcomer.run_start hnone hp hkey
  rw [heq] at hp hstart hw' ⊢
  constructor
  · intro hall
    obtain ⟨⟨s₀, s', hs₀, hs', hmatches⟩, -⟩ := hall [] (by simp) (by simp)
    obtain rfl := Option.some.inj (hs.symm.trans hs₀)
    exact Newcomer.spares_of_matches hp hs hconfirmed hready hs' hmatches
  · intro hspares rest hrest hfails
    have hfirst : Unaffected i.handle key w { w with peers := w.peers.insert i.handle p } :=
      ⟨fun h' hne => Finmap.lookup_insert_of_ne _ hne, fun _ s₁ _ hs₁ => ⟨s₁, hs₁, .refl s₁⟩⟩
    have hsecond := hspares.unaffected hstart hs hready
      (call_cases hstart hp (.buildMsg2 i.networkSecret i.draws))
    refine Unaffected.undisturbed (hfirst.trans ?_) hw hw' hs rest hrest hfails
    simpa only [store, World.step, hp] using hsecond

open Sample

namespace Sample

/-- A newcomer to the sample network, claiming a generation. -/
def newcomer (h : Handle) (generation : UInt8) (ms : UInt64) : Newcomer :=
  ⟨h, keyText, keyText, server, ms, msg1 generation, secret, draws 2 ms⟩

end Sample

/-- A newcomer that claims the stored generation and is dropped disturbs nobody. -/
theorem joining_newcomer_undisturbing :
    Undisturbed Crates.transparent 1 sessionKey (world (connect 0 0 1 1000))
      (world (connect 0 0 1 1000 ++ (newcomer 1 1 2000).ops))
      [send 0 3000, receive 0 0 0 3000, .drop 1 4000, receive 0 0 0 5000] :=
  (unfinished_handshake_iff Crates.transparent (connect 0 0 1 1000) (newcomer 1 1 2000) sessionKey
    (((world (connect 0 0 1 1000)).sessions.lookup sessionKey).get (by decide +kernel))
    (((world (connect 0 0 1 1000 ++ (newcomer 1 1 2000).start)).peers.lookup 1).get
      (by decide +kernel))
    (Option.some_get _).symm (by decide +kernel) (by decide +kernel) (Option.some_get _).symm
    ⟨by decide +kernel, by decide +kernel, by decide +kernel, by decide +kernel⟩).2
    (by decide +kernel) _ (by decide +kernel) (by decide +kernel)

/-- A stranger that claims no generation, and cannot finish its handshake, resets the
    confirmed session of a connection: its epoch changes, and the next frame carries
    another nonce. -/
theorem stranger_resets_session :
    let js := connect 0 0 1 1000
    let stranger := (newcomer 1 0 2000).ops ++
      [.call 1 (.finishMsg3 (wrapPacket client server packetNoiseMsg3 0 []) 3000), .drop 1 4000]
    ((world js).sessions.lookup sessionKey).map
      (fun s => (s.sendEpoch, s.remotePublicKey.isSome)) = some (0, true) ∧
    ((world (js ++ (newcomer 1 0 2000).start)).peers.lookup 1).map
      (fun p => (p.peerId, p.networkName, p.serverPeerId, p.localPublic)) =
        some (some client, some "net", server, sessionKey.serverPublicKey) ∧
    (∀ e ∈ (history (js ++ stranger)).drop js.length, e.output.accepted = false) ∧
    ((world (js ++ stranger)).sessions.lookup sessionKey).map
      (fun s => (s.sendEpoch, s.remotePublicKey.isSome)) = some (1, true) ∧
    (history (js ++ stranger ++ [send 0 5000])).filterMap emitted ≠
      (history (js ++ [send 0 5000])).filterMap emitted := by
  decide +kernel

end EasyTierEdge
