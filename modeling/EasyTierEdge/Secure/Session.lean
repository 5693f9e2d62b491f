import EasyTierEdge.Lib.FinMap
import EasyTierEdge.Secure.Traffic

/-!
# Stored sessions

The sessions of `wasm/src/secure.rs` outlive the connections that use them:
`SESSION_STORE` maps a client of a network, talking to this server under its
static key, to its root key and traffic state. In message 2 of a handshake
`upsertSession` drops the sessions that have been idle without connections, and
then either lets the client `Join` the stored session, when it claims the stored
generation, or resets its numbering in a `Sync`, or `Create`s a session under a
fresh root key. `upsertSession_cases` lists what it can do.
-/

namespace EasyTierEdge

def syncRxGraceAfterMs : UInt64 := 5000
def sessionIdleMs : UInt64 := 60000
def maxStoredSessions : ℕ := 2048

structure SessionKey where
  networkName : String
  peerId : UInt32
  serverPeerId : UInt32
  serverPublicKey : Key32
  deriving DecidableEq

structure StoredSession extends TrafficState where
  rootKey : Key32
  generation : UInt32
  clientAlgorithm : String
  remotePublicKey : Option Key32
  lastTouchMs : UInt64
  attachments : UInt32
  deriving DecidableEq

/-- `SESSION_STORE`. -/
abbrev SessionStore := FinMap SessionKey StoredSession

structure SessionSelection where
  action : SessionAction
  generation : UInt32
  rootKeyForPeer : Option Key32
  sessionRootKey : Key32
  initialEpoch : UInt32
  deriving DecidableEq

namespace StoredSession

/-- Whether the idle `retain` at `currentMs` keeps the session. -/
def retained (s : StoredSession) (currentMs : UInt64) : Bool :=
  0 < s.attachments || currentMs.saturatingSub s.lastTouchMs < sessionIdleMs

/-- The largest epoch the session knows of: its own and those of its valid slots. -/
def syncEpoch (s : StoredSession) : UInt32 :=
  let raise (epoch : UInt32) (slot : EpochRxSlot) := if slot.valid then max epoch slot.epoch else epoch
  raise (raise (raise (raise s.sendEpoch (s.rxSlots first first)) (s.rxSlots first second))
    (s.rxSlots second first)) (s.rxSlots second second)

/-- The session after a `Sync`. -/
def sync (s : StoredSession) (currentMs : UInt64) : StoredSession :=
  { s with
    sendEpoch := s.syncEpoch + 1
    sendSeq := fun _ => 0
    sendEpochStartedMs := currentMs
    sendPacketsSinceEpoch := 0
    syncRxGrace :=
      { slots := s.rxSlots, expiresAtMs := currentMs.saturatingAdd syncRxGraceAfterMs,
        valid := true }
    rxSlots := default
    decryptFailCount := 0
    lastTouchMs := currentMs }

/-- A new session under a fresh root key. -/
def create (rootKey : Key32) (clientAlgorithm : String) (currentMs : UInt64) : StoredSession where
  rootKey := rootKey
  generation := 1
  sendEpoch := 0
  sendSeq := fun _ => 0
  sendEpochStartedMs := currentMs
  sendPacketsSinceEpoch := 0
  rxSlots := default
  syncRxGrace := default
  decryptFailCount := 0
  clientAlgorithm := clientAlgorithm
  remotePublicKey := none
  lastTouchMs := currentMs
  attachments := 0

/-- The session with its last use at `ms`. -/
def touch (s : StoredSession) (ms : UInt64) : StoredSession := { s with lastTouchMs := ms }

end StoredSession

/-- The sessions the idle `retain` at `currentMs` keeps. -/
def retainedSessions (sessions : SessionStore) (currentMs : UInt64) : SessionStore :=
  sessions.retain fun _ session => session.retained currentMs

/-- Selecting the session of message 2. `random` is what `random_32` draws. -/
def upsertSession (sessions : SessionStore) (key : SessionKey) (aSessionGeneration : Option UInt32)
    (clientAlgorithm : String) (random : Except String Key32) (currentMs : UInt64) :
    Except SecureError SessionSelection × SessionStore :=
  let sessions := retainedSessions sessions currentMs
  match sessions.lookup key with
  | some session =>
    if session.clientAlgorithm ≠ clientAlgorithm then (.error .algorithmChanged, sessions)
    else if aSessionGeneration = some session.generation then
      (.ok
        { action := .join, generation := session.generation, rootKeyForPeer := none,
          sessionRootKey := session.rootKey, initialEpoch := 0 },
        sessions.insert key (session.touch currentMs))
    else
      let session := session.sync currentMs
      (.ok
        { action := .sync, generation := session.generation,
          rootKeyForPeer := some session.rootKey, sessionRootKey := session.rootKey,
          initialEpoch := session.sendEpoch },
        sessions.insert key session)
  | none =>
    if maxStoredSessions ≤ sessions.size then (.error .sessionCapacity, sessions)
    else
      match random with
      | .error e => (.error (.crate e), sessions)
      | .ok rootKey =>
        (.ok
          { action := .create, generation := 1, rootKeyForPeer := some rootKey,
            sessionRootKey := rootKey, initialEpoch := 0 },
          sessions.insert key (.create rootKey clientAlgorithm currentMs))

/-- Binding the session to the client's static key, the first one it confirms. -/
def confirmSessionPublicKey (sessions : SessionStore) (key : SessionKey) (remotePublicKey : Key32)
    (currentMs : UInt64) : Except SecureError SessionStore :=
  match sessions.lookup key with
  | none => .error .disappearedAuthenticating
  | some session =>
    if session.remotePublicKey.any (· ≠ remotePublicKey) then .error .staticKeyChanged
    else
      .ok (sessions.insert key
        { session with remotePublicKey := some remotePublicKey, lastTouchMs := currentMs })

/-! ## What selecting a session does -/

section Upsert

variable {sessions : SessionStore} {key : SessionKey} {generation : Option UInt32}
  {algorithm : String} {random : Except String Key32} {now : UInt64}

theorem lookup_retainedSessions (sessions : SessionStore) (now : UInt64) (key : SessionKey) :
    (retainedSessions sessions now).lookup key =
      (sessions.lookup key).filter fun s => s.retained now :=
  Finmap.lookup_retain _ _ _

/-- The session stored afterwards under the selected key, when one is selected. -/
inductive Selected (sessions : SessionStore) (key : SessionKey) (generation : Option UInt32)
    (algorithm : String) (random : Except String Key32) (now : UInt64) :
    SessionSelection → StoredSession → Prop
  | join {s : StoredSession} : sessions.lookup key = some s → s.retained now →
      s.clientAlgorithm = algorithm → generation = some s.generation →
      Selected sessions key generation algorithm random now
        ⟨.join, s.generation, none, s.rootKey, 0⟩ (s.touch now)
  | sync {s : StoredSession} : sessions.lookup key = some s → s.retained now →
      s.clientAlgorithm = algorithm → generation ≠ some s.generation →
      Selected sessions key generation algorithm random now
        ⟨.sync, s.generation, some s.rootKey, s.rootKey, s.syncEpoch + 1⟩ (s.sync now)
  | create {rootKey : Key32} : (retainedSessions sessions now).lookup key = none →
      (retainedSessions sessions now).size < maxStoredSessions → random = .ok rootKey →
      Selected sessions key generation algorithm random now
        ⟨.create, 1, some rootKey, rootKey, 0⟩ (.create rootKey algorithm now)

/-- Selecting a session drops the idle ones, and either fails, or stores the
    selected session. -/
theorem upsertSession_cases (sessions : SessionStore) (key : SessionKey)
    (generation : Option UInt32) (algorithm : String) (random : Except String Key32)
    (now : UInt64) :
    (∃ e, upsertSession sessions key generation algorithm random now =
        (.error e, retainedSessions sessions now) ∧ e.disappeared = false) ∨
      ∃ sel s, upsertSession sessions key generation algorithm random now =
          (.ok sel, (retainedSessions sessions now).insert key s) ∧
        Selected sessions key generation algorithm random now sel s := by
  unfold upsertSession
  simp only
  cases hs : (retainedSessions sessions now).lookup key with
  | some s =>
    have hsome := hs
    rw [lookup_retainedSessions, Option.filter_eq_some_iff] at hsome
    obtain ⟨hlookup, hretained⟩ := hsome
    simp only
    split_ifs with halg hgen
    · exact .inl ⟨_, rfl, rfl⟩
    · exact .inr ⟨_, _, rfl, .join hlookup hretained (not_not.1 halg) hgen⟩
    · exact .inr ⟨_, _, rfl, .sync hlookup hretained (not_not.1 halg) hgen⟩
  | none =>
    simp only
    split_ifs with hsize
    · exact .inl ⟨_, rfl, rfl⟩
    · cases random with
      | error e => exact .inl ⟨_, rfl, rfl⟩
      | ok rootKey => exact .inr ⟨_, _, rfl, .create hs (not_le.1 hsize) rfl⟩

/-- The selected session determines what selecting does. -/
theorem upsertSession_of_selected {sel : SessionSelection} {s : StoredSession}
    (h : Selected sessions key generation algorithm random now sel s) :
    upsertSession sessions key generation algorithm random now =
      (.ok sel, (retainedSessions sessions now).insert key s) := by
  cases h with
  | join hs hret halg hgen =>
    simp only [upsertSession, lookup_retainedSessions, hs, Option.filter_some, hret, if_true, halg,
      hgen, ne_eq, not_true_eq_false, if_false]
  | sync hs hret halg hgen =>
    simp only [upsertSession, lookup_retainedSessions, hs, Option.filter_some, hret, if_true, halg,
      hgen, ne_eq, not_true_eq_false, if_false]
    rfl
  | create hnone hsize hrandom =>
    simp only [upsertSession, hnone, not_le.2 hsize, if_false, hrandom]

/-- At most one session is selected. -/
theorem Selected.unique {sel sel' : SessionSelection} {s s' : StoredSession}
    (h : Selected sessions key generation algorithm random now sel s)
    (h' : Selected sessions key generation algorithm random now sel' s') : sel = sel' ∧ s = s' := by
  have heq := (upsertSession_of_selected h).symm.trans (upsertSession_of_selected h')
  rw [Prod.mk.injEq, Except.ok.injEq] at heq
  refine ⟨heq.1, ?_⟩
  have hlookup := congrArg (Finmap.lookup key) heq.2
  rwa [Finmap.lookup_insert, Finmap.lookup_insert, Option.some.injEq] at hlookup

end Upsert

end EasyTierEdge
