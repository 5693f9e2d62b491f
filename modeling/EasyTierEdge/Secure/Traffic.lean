import EasyTierEdge.Lib.Except
import EasyTierEdge.Secure.Crates
import EasyTierEdge.Secure.ReplayWindow

/-!
# Datagram protection

The state a session keeps for its traffic and the functions of
`wasm/src/secure.rs` that work on it: epoch rotation and sequence numbers when
sending, the receive slots of two epochs in each direction and the grace copy a
`Sync` makes of them when receiving.

A connection (`SecurePeer`) and a stored session (`StoredSession`) hold the same
seven fields; `TrafficState` is their common part. The methods below are methods
of `SecurePeer` in the source; they touch these fields and read the root key,
which is passed to them. The clock readings of `now_ms` are arguments.
-/

namespace EasyTierEdge

def serverEncryptionAlgorithm : String := "aes-gcm"
def rxEpochIdleMs : UInt64 := 30000
def rotateAfterPackets : UInt64 := 1000000
def rotateAfterMs : UInt64 := 10 * 60 * 1000
def maxAcceptedRxEpochAhead : UInt32 := 3
def decryptFailThreshold : UInt32 := 10
def aeadTagSize : ℕ := 16

/-- The replay window of one epoch. -/
structure EpochRxSlot where
  epoch : UInt32
  window : ReplayWindow256
  lastRxMs : UInt64
  valid : Bool
  deriving DecidableEq

namespace EpochRxSlot

instance : Inhabited EpochRxSlot :=
  ⟨{ epoch := 0, window := default, lastRxMs := 0, valid := false }⟩

def clear (_ : EpochRxSlot) : EpochRxSlot := default

/-- A slot for a new epoch. -/
def fresh (epoch : UInt32) (receivedAtMs : UInt64) : EpochRxSlot :=
  { epoch, window := default, lastRxMs := receivedAtMs, valid := true }

/-- Whether the slot holds the window of `epoch`. -/
def holds (slot : EpochRxSlot) (epoch : UInt32) : Bool := slot.valid && slot.epoch == epoch

/-- Marking the slot as used and accepting a sequence in its window. -/
def accept (slot : EpochRxSlot) (sequence receivedAtMs : UInt64) : EpochRxSlot × Bool :=
  let (window, accepted) := slot.window.accept sequence
  ({ slot with lastRxMs := receivedAtMs, window }, accepted)

/-- The slot after an eviction at `currentMs`. -/
def evict (slot : EpochRxSlot) (currentMs : UInt64) : EpochRxSlot :=
  if slot.valid && slot.lastRxMs != 0 && rxEpochIdleMs < currentMs.saturatingSub slot.lastRxMs then
    slot.clear
  else slot

end EpochRxSlot

/-- The two receive slots of each direction. -/
abbrev RxSlots := Fin 2 → Fin 2 → EpochRxSlot

/-- The copy of the receive slots a `Sync` leaves for a while. -/
structure SyncRxGrace where
  slots : RxSlots
  expiresAtMs : UInt64
  valid : Bool
  deriving DecidableEq

instance : Inhabited SyncRxGrace := ⟨{ slots := default, expiresAtMs := 0, valid := false }⟩

/-- The fields a connection and its stored session share; `sendEpoch` is called
    `next_epoch` in the stored session. -/
structure TrafficState where
  sendEpoch : UInt32
  sendSeq : Fin 2 → UInt64
  sendEpochStartedMs : UInt64
  sendPacketsSinceEpoch : UInt64
  rxSlots : RxSlots
  syncRxGrace : SyncRxGrace
  decryptFailCount : UInt32
  deriving DecidableEq

/-! ## AEAD -/

def normalizedAlgorithm (value : String) : Except SecureError Cipher :=
  if eqIgnoreAsciiCase value "aes-gcm" then .ok .aesGcm
  else if eqIgnoreAsciiCase value "aes-256-gcm" then .ok .aes256Gcm
  else if eqIgnoreAsciiCase value "chacha20" || eqIgnoreAsciiCase value "chacha20-poly1305" then
    .ok .chacha20
  else .error .unsupportedAlgorithm

def validateAlgorithm (value : String) : Except SecureError Unit :=
  (normalizedAlgorithm value).map fun _ => ()

/-- The part of the traffic key that a cipher uses. -/
def Cipher.keyBytes (cipher : Cipher) (key : Key32) : Bytes :=
  match cipher with
  | .aesGcm => key.toList.take 16
  | .aes256Gcm | .chacha20 => key.toList

/-- The AEAD nonce of an epoch and a sequence. -/
def nonceBytes (epoch : UInt32) (sequence : UInt64) : Bytes := epoch.toBeBytes ++ sequence.toBeBytes

@[simp] theorem length_nonceBytes (epoch : UInt32) (sequence : UInt64) :
    (nonceBytes epoch sequence).length = 12 := rfl

theorem nonceBytes_inj {e e' : UInt32} {q q' : UInt64} :
    nonceBytes e q = nonceBytes e' q' ↔ e = e' ∧ q = q' := by
  constructor
  · intro h
    obtain ⟨he, hq⟩ := List.append_inj h rfl
    exact ⟨UInt32.toBeBytes_injective he, UInt64.toBeBytes_injective hq⟩
  · rintro ⟨rfl, rfl⟩
    rfl

/-- The first and the second of two directions, or of two slots. -/
abbrev first : Fin 2 := 0

@[inherit_doc first]
abbrev second : Fin 2 := 1

def directionIndex (sender receiver : UInt32) : Fin 2 := if receiver ≤ sender then 1 else 0

variable {HS : Type} (c : Crates HS)

/-- `seal`: the ciphertext and the tag. -/
def sealBytes (algorithm : String) (key : Key32) (nonce plaintext : Bytes) :
    Except SecureError (Bytes × Vector UInt8 16) := do
  let cipher ← normalizedAlgorithm algorithm
  match c.aeadSeal cipher (cipher.keyBytes key) nonce plaintext with
  | some sealed => return sealed
  | none => throw (.sealFailed cipher)

/-- `open`: the plaintext. -/
def openBytes (algorithm : String) (key : Key32) (nonce ciphertext tag : Bytes) :
    Except SecureError Bytes := do
  let cipher ← normalizedAlgorithm algorithm
  match c.aeadOpen cipher (cipher.keyBytes key) nonce ciphertext tag with
  | some plaintext => return plaintext
  | none => throw .openFailed

def trafficKey (rootKey : Option Key32) (epoch : UInt32) (direction : Fin 2) :
    Except SecureError Key32 :=
  match rootKey with
  | none => .error .rootKeyMissing
  | some rootKey =>
    let prk := c.hmacSha256 (List.replicate 32 0) rootKey.toList
    .ok (c.hmacSha256 prk.toList
      (utf8 "et-traffic" ++ epoch.toBeBytes ++ [UInt8.ofNat direction] ++ [1]))

namespace TrafficState

variable (t : TrafficState)

/-! ## Sending -/

/-- Whether the packet sent at `currentMs` starts a new epoch. -/
def rotationDue (currentMs : UInt64) : Bool :=
  !(t.sendPacketsSinceEpoch.saturatingAdd 1 < rotateAfterPackets &&
    currentMs.saturatingSub t.sendEpochStartedMs < rotateAfterMs)

def maybeRotateEpoch (currentMs : UInt64) : TrafficState :=
  if t.rotationDue currentMs then
    { t with sendEpoch := t.sendEpoch + 1, sendEpochStartedMs := currentMs,
             sendPacketsSinceEpoch := 0 }
  else { t with sendPacketsSinceEpoch := t.sendPacketsSinceEpoch.saturatingAdd 1 }

def encryptPayload (rootKey : Option Key32) (algorithm : String) (direction : Fin 2)
    (plaintext : Bytes) (currentMs : UInt64) : Except SecureError Bytes × TrafficState :=
  let t := t.maybeRotateEpoch currentMs
  let epoch := t.sendEpoch
  let sequence := t.sendSeq direction
  match sequence.checkedAdd 1 with
  | none => (.error .sequenceExhausted, t)
  | some next =>
    let t := { t with sendSeq := Function.update t.sendSeq direction next }
    let result := do
      let key ← trafficKey c rootKey epoch direction
      let (ciphertext, tag) ← sealBytes c algorithm key (nonceBytes epoch sequence) plaintext
      return ciphertext ++ tag.toList ++ nonceBytes epoch sequence
    (result, t)

/-! ## Receiving -/

def evictSlots (slots : RxSlots) (currentMs : UInt64) : RxSlots :=
  fun direction i => (slots direction i).evict currentMs

def evictOldRxSlots (currentMs : UInt64) : TrafficState :=
  let t := { t with rxSlots := evictSlots t.rxSlots currentMs }
  if t.syncRxGrace.valid && t.syncRxGrace.expiresAtMs ≤ currentMs then
    { t with syncRxGrace := default }
  else if t.syncRxGrace.valid then
    { t with syncRxGrace.slots := evictSlots t.syncRxGrace.slots currentMs }
  else t

/-- The first of two slots that holds `epoch`. -/
def findSlot (slots : Fin 2 → EpochRxSlot) (epoch : UInt32) : Option (Fin 2) :=
  if (slots 0).holds epoch then some 0 else if (slots 1).holds epoch then some 1 else none

/-- The grace slot of `direction` that holds `epoch`, while the grace lasts. -/
def graceSlot (epoch : UInt32) (direction : Fin 2) : Option (Fin 2) :=
  if t.syncRxGrace.valid then findSlot (t.syncRxGrace.slots direction) epoch else none

def precheckReplay (epoch : UInt32) (sequence : UInt64) (direction : Fin 2) : Bool :=
  match t.graceSlot epoch direction with
  | some i => (t.syncRxGrace.slots direction i).window.canAccept sequence
  | none =>
    let slots := t.rxSlots direction
    if !(slots 0).valid then true
    else if (slots 0).epoch == epoch then (slots 0).window.canAccept sequence
    else if (slots 1).valid && (slots 1).epoch == epoch then (slots 1).window.canAccept sequence
    else if (slots 0).epoch < epoch then
      let baselineEpoch := max t.sendEpoch (slots 0).epoch
      let baselineEpoch :=
        if (slots 1).valid then max baselineEpoch (slots 1).epoch else baselineEpoch
      epoch ≤ baselineEpoch.saturatingAdd maxAcceptedRxEpochAhead
    else false

/-- The receive slots of `direction` replaced. -/
def setRxSlots (direction : Fin 2) (slots : Fin 2 → EpochRxSlot) : TrafficState :=
  { t with rxSlots := Function.update t.rxSlots direction slots }

/-- A grace slot replaced. -/
def setGraceSlot (direction i : Fin 2) (slot : EpochRxSlot) : TrafficState :=
  let slots := Function.update (t.syncRxGrace.slots direction) i slot
  { t with syncRxGrace.slots := Function.update t.syncRxGrace.slots direction slots }

def commitReplay (epoch : UInt32) (sequence : UInt64) (direction : Fin 2) (receivedAtMs : UInt64) :
    TrafficState × Bool :=
  match t.graceSlot epoch direction with
  | some i =>
    let (slot, accepted) := (t.syncRxGrace.slots direction i).accept sequence receivedAtMs
    (t.setGraceSlot direction i slot, accepted)
  | none =>
    let slots := t.rxSlots direction
    let slots :=
      if !(slots 0).valid then Function.update slots 0 (.fresh epoch receivedAtMs) else slots
    if (slots 0).epoch == epoch then
      let (slot, accepted) := (slots 0).accept sequence receivedAtMs
      (t.setRxSlots direction (Function.update slots 0 slot), accepted)
    else if (slots 1).valid && (slots 1).epoch == epoch then
      let (slot, accepted) := (slots 1).accept sequence receivedAtMs
      (t.setRxSlots direction (Function.update slots 1 slot), accepted)
    else if (slots 0).epoch < epoch then
      let (slot, accepted) := (EpochRxSlot.fresh epoch receivedAtMs).accept sequence receivedAtMs
      (t.setRxSlots direction ![slot, slots 0], accepted)
    else (t, false)

/-- The epoch and the sequence in the nonce at the end of an encrypted payload. -/
def payloadNonce (payload : Bytes) : UInt32 × UInt64 :=
  let nonce := payload.drop (payload.length - aeadTailSize + aeadTagSize)
  (UInt32.fromBeBytes (nonce.take 4), UInt64.fromBeBytes (nonce.drop 4))

def decryptPayload (rootKey : Option Key32) (algorithm : String) (direction : Fin 2)
    (payload : Bytes) (receivedAtMs : UInt64) : Except SecureError (Option Bytes) × TrafficState :=
  if payload.length < aeadTailSize then (.error .payloadTooShort, t)
  else
    let textLen := payload.length - aeadTailSize
    let tag := (payload.drop textLen).take aeadTagSize
    let nonce := payload.drop (textLen + aeadTagSize)
    let (epoch, sequence) := payloadNonce payload
    let t := t.evictOldRxSlots receivedAtMs
    if !t.precheckReplay epoch sequence direction then (.ok none, t)
    else
      match trafficKey c rootKey epoch direction with
      | .error e => (.error e, t)
      | .ok key =>
        match openBytes c algorithm key nonce (payload.take textLen) tag with
        | .error e =>
          let t := { t with decryptFailCount := t.decryptFailCount.saturatingAdd 1 }
          if decryptFailThreshold ≤ t.decryptFailCount then (.error e, t) else (.ok none, t)
        | .ok plaintext =>
          let t := { t with decryptFailCount := 0 }
          let (t, accepted) := t.commitReplay epoch sequence direction receivedAtMs
          if !accepted then (.ok none, t) else (.ok (some plaintext), t)

end TrafficState

/-! ## The errors of the AEAD

None of them is about the stored session. -/

theorem normalizedAlgorithm_errorsIn (value : String) :
    (normalizedAlgorithm value).ErrorsIn fun e => e.disappeared = false := by
  unfold normalizedAlgorithm
  split_ifs
  · exact Except.errorsIn_ok _
  · exact Except.errorsIn_ok _
  · exact Except.errorsIn_ok _
  · exact Except.errorsIn_error rfl

theorem validateAlgorithm_errorsIn (value : String) :
    (validateAlgorithm value).ErrorsIn fun e => e.disappeared = false :=
  (normalizedAlgorithm_errorsIn value).map _

theorem trafficKey_errorsIn (rootKey : Option Key32) (epoch : UInt32) (direction : Fin 2) :
    (trafficKey c rootKey epoch direction).ErrorsIn fun e => e.disappeared = false := by
  cases rootKey with
  | none => exact Except.errorsIn_error rfl
  | some rootKey => exact Except.errorsIn_ok _

theorem sealBytes_errorsIn (algorithm : String) (key : Key32) (nonce plaintext : Bytes) :
    (sealBytes c algorithm key nonce plaintext).ErrorsIn fun e => e.disappeared = false := by
  refine .bind (normalizedAlgorithm_errorsIn _) fun cipher => ?_
  cases c.aeadSeal cipher (cipher.keyBytes key) nonce plaintext with
  | none => exact Except.errorsIn_error rfl
  | some sealed => exact Except.errorsIn_ok _

theorem openBytes_errorsIn (algorithm : String) (key : Key32) (nonce ciphertext tag : Bytes) :
    (openBytes c algorithm key nonce ciphertext tag).ErrorsIn fun e => e.disappeared = false := by
  refine .bind (normalizedAlgorithm_errorsIn _) fun cipher => ?_
  cases c.aeadOpen cipher (cipher.keyBytes key) nonce ciphertext tag with
  | none => exact Except.errorsIn_error rfl
  | some plaintext => exact Except.errorsIn_ok _

theorem TrafficState.encryptPayload_errorsIn (t : TrafficState) (rootKey : Option Key32)
    (algorithm : String) (direction : Fin 2) (plaintext : Bytes) (ms : UInt64) :
    (t.encryptPayload c rootKey algorithm direction plaintext ms).1.ErrorsIn
      fun e => e.disappeared = false := by
  unfold encryptPayload
  simp only
  cases UInt64.checkedAdd _ 1 with
  | none => exact Except.errorsIn_error rfl
  | some next =>
    refine .bind (trafficKey_errorsIn c _ _ _) fun _ => ?_
    exact .bind (sealBytes_errorsIn c _ _ _ _) fun _ => Except.errorsIn_ok _

/-! ## What encrypting a payload does -/

namespace TrafficState

/-- The nonce is read back from the payload it ends. -/
theorem payloadNonce_append (text : Bytes) (tag : Vector UInt8 16) (epoch : UInt32)
    (sequence : UInt64) :
    payloadNonce (text ++ tag.toList ++ nonceBytes epoch sequence) = (epoch, sequence) := by
  have hdrop : (text ++ tag.toList ++ nonceBytes epoch sequence).drop
      ((text ++ tag.toList ++ nonceBytes epoch sequence).length - aeadTailSize + aeadTagSize) =
      nonceBytes epoch sequence := by
    apply List.drop_left'
    simp [aeadTailSize, aeadTagSize]
  have h₄ : (nonceBytes epoch sequence).take 4 = epoch.toBeBytes := rfl
  have h₈ : (nonceBytes epoch sequence).drop 4 = sequence.toBeBytes := rfl
  simp only [payloadNonce, hdrop, h₄, h₈, UInt32.fromBeBytes_toBeBytes,
    UInt64.fromBeBytes_toBeBytes]

/-- Encrypting a payload numbers it with the send epoch and the next sequence, after
    a rotation; or the sequences are exhausted. -/
theorem encryptPayload_cases (t : TrafficState) (rootKey : Option Key32) (algorithm : String)
    (direction : Fin 2) (plaintext : Bytes) (ms : UInt64) :
    (∃ e, t.encryptPayload c rootKey algorithm direction plaintext ms =
      (.error e, t.maybeRotateEpoch ms)) ∨
    ∃ next result, next.toNat = ((t.maybeRotateEpoch ms).sendSeq direction).toNat + 1 ∧
      t.encryptPayload c rootKey algorithm direction plaintext ms =
        (result, { t.maybeRotateEpoch ms with
          sendSeq := Function.update (t.maybeRotateEpoch ms).sendSeq direction next }) ∧
      ∀ payload, result = .ok payload → payloadNonce payload =
        ((t.maybeRotateEpoch ms).sendEpoch, (t.maybeRotateEpoch ms).sendSeq direction) := by
  unfold encryptPayload
  simp only
  cases hadd : UInt64.checkedAdd ((t.maybeRotateEpoch ms).sendSeq direction) 1 with
  | none => exact .inl ⟨_, rfl⟩
  | some next =>
    refine .inr ⟨next, _, UInt64.checkedAdd_one_eq_some hadd, rfl, fun payload hpayload => ?_⟩
    simp only [Except.bind_eq_ok, Except.pure_eq_ok, Prod.exists] at hpayload
    obtain ⟨key, -, ciphertext, tag, -, rfl⟩ := hpayload
    exact payloadNonce_append ciphertext tag _ _

end TrafficState

/-! ## What decrypting a payload does -/

namespace TrafficState

variable {c} {t : TrafficState} {epoch : UInt32} {sequence : UInt64} {direction : Fin 2}
  {ms : UInt64}

/-- What committing a sequence does, by the slot that its epoch falls to. -/
inductive Commit (t : TrafficState) (epoch : UInt32) (sequence : UInt64) (direction : Fin 2)
    (ms : UInt64) : TrafficState × Bool → Prop
  /-- A grace slot holds the epoch. -/
  | grace {i : Fin 2} : t.graceSlot epoch direction = some i →
      Commit t epoch sequence direction ms
        (t.setGraceSlot direction i ((t.syncRxGrace.slots direction i).accept sequence ms).1,
          ((t.syncRxGrace.slots direction i).accept sequence ms).2)
  /-- The first slot is free. -/
  | first : t.graceSlot epoch direction = none → (t.rxSlots direction 0).valid = false →
      Commit t epoch sequence direction ms
        (t.setRxSlots direction (Function.update (t.rxSlots direction) 0
          ((EpochRxSlot.fresh epoch ms).accept sequence ms).1), true)
  /-- A slot holds the epoch. -/
  | held {i : Fin 2} : t.graceSlot epoch direction = none → (t.rxSlots direction 0).valid →
      findSlot (t.rxSlots direction) epoch = some i →
      Commit t epoch sequence direction ms
        (t.setRxSlots direction (Function.update (t.rxSlots direction) i
          ((t.rxSlots direction i).accept sequence ms).1),
          ((t.rxSlots direction i).accept sequence ms).2)
  /-- The epoch is a newer one. -/
  | newer : t.graceSlot epoch direction = none → (t.rxSlots direction 0).valid →
      findSlot (t.rxSlots direction) epoch = none → (t.rxSlots direction 0).epoch < epoch →
      Commit t epoch sequence direction ms
        (t.setRxSlots direction ![((EpochRxSlot.fresh epoch ms).accept sequence ms).1,
          t.rxSlots direction 0], true)
  /-- The epoch is an older one. -/
  | older : t.graceSlot epoch direction = none → (t.rxSlots direction 0).valid →
      findSlot (t.rxSlots direction) epoch = none → epoch ≤ (t.rxSlots direction 0).epoch →
      Commit t epoch sequence direction ms (t, false)

theorem commitReplay_cases (t : TrafficState) (epoch : UInt32) (sequence : UInt64)
    (direction : Fin 2) (ms : UInt64) :
    Commit t epoch sequence direction ms (t.commitReplay epoch sequence direction ms) := by
  unfold commitReplay
  cases hgrace : t.graceSlot epoch direction with
  | some i => exact .grace hgrace
  | none =>
    simp only
    by_cases hvalid : (t.rxSlots direction 0).valid
    · simp only [hvalid, Bool.not_true, Bool.false_eq_true, if_false]
      by_cases h₀ : (t.rxSlots direction 0).epoch == epoch
      · simp only [h₀, if_true]
        exact .held hgrace hvalid (by simp [findSlot, EpochRxSlot.holds, hvalid, h₀])
      · by_cases h₁ : ((t.rxSlots direction 1).valid && (t.rxSlots direction 1).epoch == epoch) = true
        · simp only [h₀, h₁, if_true, Bool.false_eq_true, if_false]
          exact .held hgrace hvalid (by simp [findSlot, EpochRxSlot.holds, h₀, h₁])
        · have hfind : findSlot (t.rxSlots direction) epoch = none := by
            simp [findSlot, EpochRxSlot.holds, h₀, h₁]
          simp only [h₀, h₁, Bool.false_eq_true, if_false]
          split_ifs with hlt
          · exact .newer hgrace hvalid hfind hlt
          · exact .older hgrace hvalid hfind (UInt32.not_lt.1 hlt)
    · simp only [hvalid, Bool.not_false, if_true, Function.update_self]
      have heq : ((EpochRxSlot.fresh epoch ms).epoch == epoch) = true := by
        simp [EpochRxSlot.fresh]
      simp only [heq, if_true, Function.update_idem]
      exact .first hgrace (by simpa using hvalid)

theorem findSlot_eq_some {slots : Fin 2 → EpochRxSlot} {i : Fin 2}
    (h : findSlot slots epoch = some i) : (slots i).valid ∧ (slots i).epoch = epoch := by
  unfold findSlot EpochRxSlot.holds at h
  split_ifs at h with h₀ h₁ <;> cases h
  · simpa using h₀
  · simpa using h₁

theorem findSlot_eq_none {slots : Fin 2 → EpochRxSlot} (h : findSlot slots epoch = none) (i : Fin 2)
    (hvalid : (slots i).valid) : (slots i).epoch ≠ epoch := by
  unfold findSlot EpochRxSlot.holds at h
  split_ifs at h with h₀ h₁
  fin_cases i
  · simpa [show (slots 0).valid = true from hvalid] using h₀
  · simpa [show (slots 1).valid = true from hvalid] using h₁

/-- A sequence whose epoch a slot holds is checked against that slot. -/
theorem precheckReplay_of_held {i : Fin 2} (hgrace : t.graceSlot epoch direction = none)
    (hvalid : (t.rxSlots direction 0).valid)
    (hfind : findSlot (t.rxSlots direction) epoch = some i) :
    t.precheckReplay epoch sequence direction =
      (t.rxSlots direction i).window.canAccept sequence := by
  unfold findSlot EpochRxSlot.holds at hfind
  simp only [hvalid, Bool.true_and] at hfind
  simp only [precheckReplay, hgrace, hvalid, Bool.not_true, Bool.false_eq_true, if_false]
  split_ifs at hfind with h₀ h₁ <;> cases hfind
  · simp only [h₀, if_true]
  · simp only [h₀, h₁, if_true, Bool.false_eq_true, if_false]

/-- A sequence of an older epoch that no slot holds is refused. -/
theorem precheckReplay_of_older (hgrace : t.graceSlot epoch direction = none)
    (hvalid : (t.rxSlots direction 0).valid)
    (hfind : findSlot (t.rxSlots direction) epoch = none)
    (hle : epoch ≤ (t.rxSlots direction 0).epoch) :
    t.precheckReplay epoch sequence direction = false := by
  unfold findSlot EpochRxSlot.holds at hfind
  simp only [hvalid, Bool.true_and] at hfind
  split_ifs at hfind with h₀ h₁
  simp only [precheckReplay, hgrace, hvalid, Bool.not_true, Bool.false_eq_true, if_false, h₀, h₁,
    UInt32.not_lt.2 hle]

/-- A sequence that passes the check is accepted when it is committed. -/
theorem commitReplay_of_precheck (h : t.precheckReplay epoch sequence direction = true)
    (ms : UInt64) : (t.commitReplay epoch sequence direction ms).2 = true := by
  have hcommit := commitReplay_cases t epoch sequence direction ms
  generalize t.commitReplay epoch sequence direction ms = r at hcommit
  cases hcommit with
  | grace hgrace =>
    simp only [precheckReplay, hgrace, ReplayWindow256.canAccept_eq_accept] at h
    exact h
  | first => rfl
  | held hgrace hvalid hfind =>
    rw [precheckReplay_of_held hgrace hvalid hfind, ReplayWindow256.canAccept_eq_accept] at h
    exact h
  | newer => rfl
  | older hgrace hvalid hfind hle =>
    rw [precheckReplay_of_older hgrace hvalid hfind hle] at h
    cases h

theorem evictOldRxSlots_send (t : TrafficState) (ms : UInt64) :
    (t.evictOldRxSlots ms).sendEpoch = t.sendEpoch ∧
      (t.evictOldRxSlots ms).sendSeq = t.sendSeq := by
  simp only [evictOldRxSlots]
  split_ifs <;> exact ⟨rfl, rfl⟩

theorem commitReplay_send (t : TrafficState) (epoch : UInt32) (sequence : UInt64)
    (direction : Fin 2) (ms : UInt64) :
    (t.commitReplay epoch sequence direction ms).1.sendEpoch = t.sendEpoch ∧
      (t.commitReplay epoch sequence direction ms).1.sendSeq = t.sendSeq := by
  have hcommit := commitReplay_cases t epoch sequence direction ms
  generalize t.commitReplay epoch sequence direction ms = r at hcommit
  cases hcommit <;> exact ⟨rfl, rfl⟩

/-- What decrypting a payload can do, by its result and the traffic state
    afterwards. -/
inductive Decrypted (c : Crates HS) (t : TrafficState) (rootKey : Option Key32) (algorithm : String)
    (direction : Fin 2) (payload : Bytes) (ms : UInt64) :
    Except SecureError (Option Bytes) × TrafficState → Prop
  | short : Decrypted c t rootKey algorithm direction payload ms (.error .payloadTooShort, t)
  /-- The payload is refused, or does not open: nothing is marked as received. -/
  | dropped {result : Except SecureError (Option Bytes)} {failCount : UInt32} :
      result.ErrorsIn (fun e => e.disappeared = false) →
      (∀ plaintext, result ≠ .ok (some plaintext)) →
      Decrypted c t rootKey algorithm direction payload ms
        (result, { t.evictOldRxSlots ms with decryptFailCount := failCount })
  /-- The payload is delivered. -/
  | delivered {plaintext : Bytes} :
      (t.evictOldRxSlots ms).precheckReplay (payloadNonce payload).1 (payloadNonce payload).2
        direction = true →
      Decrypted c t rootKey algorithm direction payload ms
        (.ok (some plaintext),
          (({ t.evictOldRxSlots ms with decryptFailCount := 0 } : TrafficState).commitReplay
            (payloadNonce payload).1 (payloadNonce payload).2 direction ms).1)

theorem decryptPayload_cases (t : TrafficState) (rootKey : Option Key32) (algorithm : String)
    (direction : Fin 2) (payload : Bytes) (ms : UInt64) :
    Decrypted c t rootKey algorithm direction payload ms
      (t.decryptPayload c rootKey algorithm direction payload ms) := by
  unfold decryptPayload
  by_cases hlen : payload.length < aeadTailSize
  · rw [if_pos hlen]
    exact .short
  rw [if_neg hlen]
  simp only
  by_cases hcheck : (t.evictOldRxSlots ms).precheckReplay (payloadNonce payload).1
      (payloadNonce payload).2 direction = true
  · simp only [hcheck, Bool.not_true, Bool.false_eq_true, if_false]
    cases hkey : trafficKey c rootKey (payloadNonce payload).1 direction with
    | error e =>
      exact .dropped (Except.errorsIn_error (trafficKey_errorsIn c _ _ _ e hkey)) (by simp)
    | ok key =>
      simp only
      cases hopen : openBytes c algorithm key (payload.drop (payload.length - aeadTailSize +
          aeadTagSize)) (payload.take (payload.length - aeadTailSize))
          ((payload.drop (payload.length - aeadTailSize)).take aeadTagSize) with
      | error e =>
        simp only
        split_ifs
        · exact .dropped (Except.errorsIn_error (openBytes_errorsIn c _ _ _ _ _ e hopen)) (by simp)
        · exact .dropped (Except.errorsIn_ok _) (by simp)
      | ok plaintext =>
        have hcommit := commitReplay_of_precheck
          (t := { t.evictOldRxSlots ms with decryptFailCount := 0 }) hcheck ms
        simp only [hcommit, Bool.not_true, Bool.false_eq_true, if_false]
        exact .delivered hcheck
  · simp only [hcheck, Bool.not_false, if_true]
    exact .dropped (Except.errorsIn_ok _) (by simp)

/-- Decrypting does not change what numbers the frames sent. -/
theorem decryptPayload_send (t : TrafficState) (rootKey : Option Key32) (algorithm : String)
    (direction : Fin 2) (payload : Bytes) (ms : UInt64) :
    (t.decryptPayload c rootKey algorithm direction payload ms).2.sendEpoch = t.sendEpoch ∧
      (t.decryptPayload c rootKey algorithm direction payload ms).2.sendSeq = t.sendSeq := by
  have hcases := t.decryptPayload_cases (c := c) rootKey algorithm direction payload ms
  generalize t.decryptPayload c rootKey algorithm direction payload ms = r at hcases
  cases hcases with
  | short => exact ⟨rfl, rfl⟩
  | dropped => exact evictOldRxSlots_send t ms
  | delivered =>
    have hcommit := commitReplay_send { t.evictOldRxSlots ms with decryptFailCount := 0 }
      (payloadNonce payload).1 (payloadNonce payload).2 direction ms
    have hevict := evictOldRxSlots_send t ms
    exact ⟨hcommit.1.trans hevict.1, hcommit.2.trans hevict.2⟩

theorem decryptPayload_errorsIn (t : TrafficState) (rootKey : Option Key32) (algorithm : String)
    (direction : Fin 2) (payload : Bytes) (ms : UInt64) :
    (t.decryptPayload c rootKey algorithm direction payload ms).1.ErrorsIn
      fun e => e.disappeared = false := by
  have hcases := t.decryptPayload_cases (c := c) rootKey algorithm direction payload ms
  generalize t.decryptPayload c rootKey algorithm direction payload ms = r at hcases
  cases hcases with
  | short => exact Except.errorsIn_error rfl
  | dropped herrors => exact herrors
  | delivered => exact Except.errorsIn_ok _

end TrafficState

end EasyTierEdge
