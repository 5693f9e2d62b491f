import EasyTierEdge.Secure.Traffic

/-!
# Checking and committing

A payload is received in three steps: its nonce is checked against the receive slots
(`precheckReplay`), the payload is opened, and the nonce is committed to the slots
(`commitReplay`). Check and commit are two functions that go through the same slots.

* `commitReplay_of_precheck`: what passes the check is committed, so a payload that opens is
  delivered (`decryptPayload_of_opened`);
* `farAhead_of_refused`: what is refused but would have been committed is too many epochs
  ahead;
* `check_and_commit`: and a payload that is refused or does not open leaves the slots as the
  eviction left them.
-/

namespace EasyTierEdge

namespace TrafficState

variable {HS : Type} {c : Crates HS} {t : TrafficState} {epoch : UInt32} {sequence : UInt64}
  {direction : Fin 2} {ms : UInt64}

/-- The epoch is more than `maxAcceptedRxEpochAhead` epochs after the send epoch and after those
    of the valid slots of the direction. -/
def FarAhead (t : TrafficState) (epoch : UInt32) (direction : Fin 2) : Prop :=
  t.sendEpoch.toNat + maxAcceptedRxEpochAhead.toNat < epoch.toNat ∧
    ∀ i, (t.rxSlots direction i).valid →
      (t.rxSlots direction i).epoch.toNat + maxAcceptedRxEpochAhead.toNat < epoch.toNat

/-- What the AEAD makes of a payload, under the key of the epoch that the payload names. -/
def openPayload (c : Crates HS) (rootKey : Option Key32) (algorithm : String) (direction : Fin 2)
    (payload : Bytes) : Except SecureError Bytes := do
  let textLen := payload.length - aeadTailSize
  let key ← trafficKey c rootKey (payloadNonce payload).1 direction
  openBytes c algorithm key (payload.drop (textLen + aeadTagSize)) (payload.take textLen)
    ((payload.drop textLen).take aeadTagSize)

/-! ## The check -/

/-- What the check compares a newer epoch with. -/
def baselineEpoch (t : TrafficState) (direction : Fin 2) : UInt32 :=
  let baseline := max t.sendEpoch (t.rxSlots direction first).epoch
  if (t.rxSlots direction second).valid then max baseline (t.rxSlots direction second).epoch
  else baseline

theorem sendEpoch_le_baselineEpoch (t : TrafficState) (direction : Fin 2) :
    t.sendEpoch ≤ t.baselineEpoch direction := by
  simp only [baselineEpoch]
  split_ifs
  · exact le_max_of_le_left (le_max_left _ _)
  · exact le_max_left _ _

theorem epoch_le_baselineEpoch (i : Fin 2) (hi : (t.rxSlots direction i).valid) :
    (t.rxSlots direction i).epoch ≤ t.baselineEpoch direction := by
  simp only [baselineEpoch]
  fin_cases i
  · split_ifs
    · exact le_max_of_le_left (le_max_right _ _)
    · exact le_max_right _ _
  · rw [if_pos (show (t.rxSlots direction 1).valid = true from hi)]
    exact le_max_right _ _

/-- A newer epoch that no slot holds is checked against the baseline. -/
theorem precheckReplay_of_newer (hgrace : t.graceSlot epoch direction = none)
    (hvalid : (t.rxSlots direction 0).valid)
    (hfind : findSlot (t.rxSlots direction) epoch = none)
    (hlt : (t.rxSlots direction 0).epoch < epoch) :
    t.precheckReplay epoch sequence direction =
      decide (epoch ≤ (t.baselineEpoch direction).saturatingAdd maxAcceptedRxEpochAhead) := by
  unfold findSlot EpochRxSlot.holds at hfind
  simp only [hvalid, Bool.true_and] at hfind
  split_ifs at hfind with h₀ h₁
  simp only [precheckReplay, baselineEpoch, hgrace, hvalid, Bool.not_true, Bool.false_eq_true,
    if_false, h₀, h₁, hlt, if_true]
  rfl

/-- A sum that is exceeded is not a saturated one. -/
theorem lt_of_saturatingAdd_lt {a b e : UInt32} (h : ¬ e ≤ a.saturatingAdd b) :
    a.toNat + b.toNat < e.toNat := by
  have he := e.toNat_lt
  rw [UInt32.le_iff_toNat_le, UInt32.toNat_saturatingAdd] at h
  omega

/-- What is refused although it would be committed is far ahead. -/
theorem farAhead_of_refused (hcommit : (t.commitReplay epoch sequence direction ms).2 = true)
    (hcheck : t.precheckReplay epoch sequence direction = false) : t.FarAhead epoch direction := by
  have hcases := commitReplay_cases t epoch sequence direction ms
  generalize t.commitReplay epoch sequence direction ms = r at hcases hcommit
  cases hcases with
  | grace hgrace =>
    simp only [precheckReplay, hgrace, ReplayWindow256.canAccept_eq_accept] at hcheck
    exact absurd (hcommit.symm.trans hcheck) (by decide)
  | first hgrace hfree =>
    simp [precheckReplay, hgrace, hfree] at hcheck
  | held hgrace hvalid hfind =>
    rw [precheckReplay_of_held hgrace hvalid hfind, ReplayWindow256.canAccept_eq_accept] at hcheck
    exact absurd (hcommit.symm.trans hcheck) (by decide)
  | newer hgrace hvalid hfind hlt =>
    -- Only here do the two differ: the commit has no bound on the epoch.
    rw [precheckReplay_of_newer hgrace hvalid hfind hlt, decide_eq_false_iff_not] at hcheck
    have hahead := lt_of_saturatingAdd_lt hcheck
    have hsend := UInt32.le_iff_toNat_le.1 (t.sendEpoch_le_baselineEpoch direction)
    refine ⟨by omega, fun i hi => ?_⟩
    have hslot := UInt32.le_iff_toNat_le.1 (epoch_le_baselineEpoch i hi)
    omega
  | older => cases hcommit

/-! ## The payload -/

section Payload

variable {rootKey : Option Key32} {algorithm : String} {payload : Bytes}

/-- The check on a payload, by the slots that the eviction leaves. -/
def admits (t : TrafficState) (direction : Fin 2) (payload : Bytes) (ms : UInt64) : Bool :=
  (t.evictOldRxSlots ms).precheckReplay (payloadNonce payload).1 (payloadNonce payload).2 direction

/-- A payload that is not admitted is dropped. -/
theorem decryptPayload_of_not_admits (hlen : aeadTailSize ≤ payload.length)
    (hcheck : t.admits direction payload ms = false) :
    t.decryptPayload c rootKey algorithm direction payload ms =
      (.ok none, t.evictOldRxSlots ms) := by
  unfold admits at hcheck
  simp [decryptPayload, not_lt.2 hlen, hcheck]

/-- A payload that does not open is counted, and otherwise dropped. -/
theorem decryptPayload_of_unopened (t : TrafficState) (ms : UInt64) {e : SecureError}
    (hlen : aeadTailSize ≤ payload.length)
    (hopen : openPayload c rootKey algorithm direction payload = .error e) :
    ∃ result failCount, t.decryptPayload c rootKey algorithm direction payload ms =
      (result, { t.evictOldRxSlots ms with decryptFailCount := failCount }) := by
  cases hcheck : t.admits direction payload ms with
  | false => exact ⟨_, _, decryptPayload_of_not_admits hlen hcheck⟩
  | true =>
    unfold admits at hcheck
    unfold openPayload at hopen
    simp only [decryptPayload, not_lt.2 hlen, if_false, hcheck, Bool.not_true, Bool.false_eq_true]
    cases hkey : trafficKey c rootKey (payloadNonce payload).1 direction with
    | error e => exact ⟨_, _, rfl⟩
    | ok key =>
      rw [hkey] at hopen
      have hopen' : openBytes c algorithm key (payload.drop (payload.length - aeadTailSize +
          aeadTagSize)) (payload.take (payload.length - aeadTailSize))
          ((payload.drop (payload.length - aeadTailSize)).take aeadTagSize) = .error e := hopen
      simp only [hopen']
      split_ifs
      · exact ⟨_, _, rfl⟩
      · exact ⟨_, _, rfl⟩

/-- A payload that is admitted and opens is delivered, and its nonce committed. -/
theorem decryptPayload_of_opened {plaintext : Bytes} (hlen : aeadTailSize ≤ payload.length)
    (hcheck : t.admits direction payload ms = true)
    (hopen : openPayload c rootKey algorithm direction payload = .ok plaintext) :
    t.decryptPayload c rootKey algorithm direction payload ms = (.ok (some plaintext),
      (({ t.evictOldRxSlots ms with decryptFailCount := 0 } : TrafficState).commitReplay
        (payloadNonce payload).1 (payloadNonce payload).2 direction ms).1) := by
  unfold admits at hcheck
  unfold openPayload at hopen
  simp only [Except.bind_eq_ok] at hopen
  obtain ⟨key, hkey, hopen⟩ := hopen
  have hcommit := commitReplay_of_precheck
    (t := { t.evictOldRxSlots ms with decryptFailCount := 0 }) hcheck ms
  simp only [decryptPayload, not_lt.2 hlen, if_false, hcheck, Bool.not_true, Bool.false_eq_true,
    hkey, hopen, hcommit]

end Payload

/-- Check and commit agree but for epochs far ahead, what opens after the check is delivered,
    and a payload that is refused or does not open leaves no trace in the slots. -/
theorem check_and_commit (c : Crates HS) (t : TrafficState) (epoch : UInt32) (sequence : UInt64)
    (direction : Fin 2) (ms : UInt64) :
    (t.precheckReplay epoch sequence direction = true →
      (t.commitReplay epoch sequence direction ms).2 = true) ∧
    ((t.commitReplay epoch sequence direction ms).2 = true →
      t.precheckReplay epoch sequence direction = false → t.FarAhead epoch direction) ∧
    ∀ (rootKey : Option Key32) (algorithm : String) (payload : Bytes),
      aeadTailSize ≤ payload.length →
      (∀ plaintext, t.admits direction payload ms = true →
        openPayload c rootKey algorithm direction payload = .ok plaintext →
        (t.decryptPayload c rootKey algorithm direction payload ms).1 = .ok (some plaintext)) ∧
      (t.admits direction payload ms = false ∨
          (∃ e, openPayload c rootKey algorithm direction payload = .error e) →
        (t.decryptPayload c rootKey algorithm direction payload ms).2.rxSlots =
            (t.evictOldRxSlots ms).rxSlots ∧
          (t.decryptPayload c rootKey algorithm direction payload ms).2.syncRxGrace =
            (t.evictOldRxSlots ms).syncRxGrace) := by
  refine ⟨fun h => commitReplay_of_precheck h ms, farAhead_of_refused, ?_⟩
  intro rootKey algorithm payload hlen
  refine ⟨fun plaintext hcheck hopen => ?_, ?_⟩
  · rw [decryptPayload_of_opened hlen hcheck hopen]
  · rintro (hcheck | ⟨e, hopen⟩)
    · rw [decryptPayload_of_not_admits hlen hcheck]
      exact ⟨rfl, rfl⟩
    · obtain ⟨result, failCount, heq⟩ := decryptPayload_of_unopened t ms hlen hopen
      rw [heq]
      exact ⟨rfl, rfl⟩

end TrafficState

end EasyTierEdge
