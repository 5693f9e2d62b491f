import EasyTierEdge.Lib.Machine
import EasyTierEdge.Secure.Receiving
import EasyTierEdge.Secure.Session

/-!
# Traffic that arrives in order

Two sessions are created under one root key. One of them sends, and what it produces reaches
the other one in order, perhaps with losses. Then nothing that arrives is dropped.

* `sender`, `receiver`: the two sessions as machines;
* `frames_ordered`: the sender numbers its payloads upwards;
* `Ready`: the receiver is ready for a payload with a given nonce. It is, for the first one,
  and `Follows` says how it stands after one, which makes it ready for the next;
* `honest_traffic_delivered`: every payload is delivered.
-/

namespace EasyTierEdge

variable {HS : Type}

/-- What was sealed opens, to what it was. -/
def Crates.OpensSealed (c : Crates HS) : Prop :=
  ∀ cipher key nonce plaintext ciphertext tag,
    c.aeadSeal cipher key nonce plaintext = some (ciphertext, tag) →
      c.aeadOpen cipher key nonce ciphertext tag.toList = some plaintext

namespace TrafficState

/-- The sender of a new session: it is fed plaintexts with the readings of its clock. -/
def sender (c : Crates HS) (rootKey : Key32) (algorithm : String) (direction : Fin 2)
    (createdMs : UInt64) : Machine TrafficState (Bytes × UInt64) (Except SecureError Bytes) where
  init := (StoredSession.create rootKey algorithm createdMs).toTrafficState
  step t i := (t.encryptPayload c (some rootKey) algorithm direction i.1 i.2).swap

/-- The receiver of a new session: it is fed payloads with the readings of its clock. -/
def receiver (c : Crates HS) (rootKey : Key32) (algorithm : String) (direction : Fin 2)
    (createdMs : UInt64) :
    Machine TrafficState (Bytes × UInt64) (Except SecureError (Option Bytes)) where
  init := (StoredSession.create rootKey algorithm createdMs).toTrafficState
  step t i := (t.decryptPayload c (some rootKey) algorithm direction i.1 i.2).swap

/-- A payload and the plaintext it was made from. -/
structure Frame where
  plaintext : Bytes
  payload : Bytes
  deriving DecidableEq

namespace Frame

def epoch (f : Frame) : UInt32 := (payloadNonce f.payload).1

def sequence (f : Frame) : UInt64 := (payloadNonce f.payload).2

/-- The payload opens to the plaintext. -/
def Opens (c : Crates HS) (rootKey : Key32) (algorithm : String) (direction : Fin 2) (f : Frame) :
    Prop :=
  aeadTailSize ≤ f.payload.length ∧
    openPayload c (some rootKey) algorithm direction f.payload = .ok f.plaintext

/-- The frame is numbered before another one. -/
def Before (f g : Frame) : Prop := f.epoch ≤ g.epoch ∧ f.sequence < g.sequence

/-- The other frame is at most `maxAcceptedRxEpochAhead` epochs ahead. -/
def Near (f g : Frame) : Prop := g.epoch.toNat ≤ f.epoch.toNat + maxAcceptedRxEpochAhead.toNat

instance decidableNear (f g : Frame) : Decidable (f.Near g) := inferInstanceAs (Decidable (_ ≤ _))

end Frame

/-- What a step of the sender produces. -/
def frame (e : Event TrafficState (Bytes × UInt64) (Except SecureError Bytes)) : Option Frame :=
  e.output.toOption.map fun payload => ⟨e.input.1, payload⟩

/-- The epoch does not wrap around at a step of the sender. -/
def EpochKept (e : Event TrafficState (Bytes × UInt64) (Except SecureError Bytes)) : Prop :=
  e.pre.sendEpoch ≤ (e.pre.maybeRotateEpoch e.input.2).sendEpoch

instance decidableEpochKept (e : Event TrafficState (Bytes × UInt64) (Except SecureError Bytes)) :
    Decidable (EpochKept e) := inferInstanceAs (Decidable (_ ≤ _))

/-! ## The sender -/

section Sender

variable {c : Crates HS} {rootKey : Key32} {algorithm : String} {direction : Fin 2}

/-- A payload is cut where it was put together. -/
theorem openPayload_append (rootKey : Option Key32) (text : Bytes) (tag : Vector UInt8 16)
    (epoch : UInt32) (sequence : UInt64) :
    openPayload c rootKey algorithm direction (text ++ tag.toList ++ nonceBytes epoch sequence) =
      (trafficKey c rootKey epoch direction).bind fun key =>
        openBytes c algorithm key (nonceBytes epoch sequence) text tag.toList := by
  have hlen : (text ++ tag.toList ++ nonceBytes epoch sequence).length - aeadTailSize =
      text.length := by
    simp [aeadTailSize]
  have hdrop : (text ++ tag.toList ++ nonceBytes epoch sequence).drop
      (text.length + aeadTagSize) = nonceBytes epoch sequence := by
    apply List.drop_left'
    simp [aeadTagSize]
  have htext : (text ++ tag.toList ++ nonceBytes epoch sequence).take text.length = text := by
    rw [List.append_assoc, List.take_left]
  have htag : ((text ++ tag.toList ++ nonceBytes epoch sequence).drop text.length).take
      aeadTagSize = tag.toList := by
    rw [List.append_assoc, List.drop_left]
    apply List.take_left'
    simp [aeadTagSize]
  simp only [openPayload, hlen, hdrop, htext, htag, payloadNonce_append]
  rfl

/-- What is sent opens at the other side. -/
theorem encryptPayload_opens (hc : c.OpensSealed) (t : TrafficState) {plaintext payload : Bytes}
    {ms : UInt64}
    (h : (t.encryptPayload c (some rootKey) algorithm direction plaintext ms).1 = .ok payload) :
    Frame.Opens c rootKey algorithm direction ⟨plaintext, payload⟩ := by
  unfold encryptPayload at h
  simp only at h
  cases hadd : UInt64.checkedAdd ((t.maybeRotateEpoch ms).sendSeq direction) 1 with
  | none =>
    rw [hadd] at h
    cases h
  | some next =>
    simp only [hadd, Except.bind_eq_ok, Except.pure_eq_ok, Prod.exists] at h
    obtain ⟨key, hkey, ciphertext, tag, hseal, rfl⟩ := h
    refine ⟨by simp [aeadTailSize], ?_⟩
    rw [openPayload_append, hkey]
    unfold sealBytes at hseal
    simp only [Except.bind_eq_ok] at hseal
    obtain ⟨cipher, hcipher, hseal⟩ := hseal
    cases hsealed : c.aeadSeal cipher (cipher.keyBytes key) (nonceBytes
        (t.maybeRotateEpoch ms).sendEpoch ((t.maybeRotateEpoch ms).sendSeq direction)) plaintext with
    | none =>
      rw [hsealed] at hseal
      cases hseal
    | some sealed =>
      rw [hsealed] at hseal
      obtain rfl : sealed = (ciphertext, tag) := Except.pure_eq_ok.1 hseal
      simp only [Except.bind, openBytes, hcipher, hc _ _ _ _ _ _ hsealed, bind, pure, Except.pure]

/-- How the frames sent so far stand to the sender: they are in order, and numbered before
    what comes next. -/
structure Sent (c : Crates HS) (rootKey : Key32) (algorithm : String) (direction : Fin 2)
    (fs : List Frame) (t : TrafficState) : Prop where
  ordered : fs.Pairwise Frame.Before
  epoch_le : ∀ f ∈ fs, f.epoch ≤ t.sendEpoch
  sequence_lt : ∀ f ∈ fs, f.sequence < t.sendSeq direction
  opens : ∀ f ∈ fs, f.Opens c rootKey algorithm direction

/-- A rotation leaves the sequences. -/
theorem maybeRotateEpoch_sendSeq (t : TrafficState) (ms : UInt64) :
    (t.maybeRotateEpoch ms).sendSeq = t.sendSeq := by
  unfold maybeRotateEpoch
  split_ifs
  · rfl
  · rfl

/-- A sender that goes on without a frame. -/
theorem Sent.advance {fs : List Frame} {t t' : TrafficState}
    (h : Sent c rootKey algorithm direction fs t) (hepoch : t.sendEpoch ≤ t'.sendEpoch)
    (hseq : t.sendSeq direction ≤ t'.sendSeq direction) :
    Sent c rootKey algorithm direction fs t' := by
  refine ⟨h.ordered, fun f hf => (h.epoch_le f hf).trans hepoch, fun f hf => ?_, h.opens⟩
  have hlt := h.sequence_lt f hf
  rw [UInt64.lt_iff_toNat_lt] at hlt ⊢
  rw [UInt64.le_iff_toNat_le] at hseq
  omega

/-- A frame that takes the next number. -/
theorem Sent.snoc {fs : List Frame} {f : Frame} {t t' : TrafficState}
    (h : Sent c rootKey algorithm direction fs t) (hepoch : t.sendEpoch ≤ f.epoch)
    (hseq : f.sequence = t.sendSeq direction) (hepoch' : f.epoch = t'.sendEpoch)
    (hseq' : t.sendSeq direction < t'.sendSeq direction)
    (hopens : f.Opens c rootKey algorithm direction) :
    Sent c rootKey algorithm direction (fs ++ [f]) t' := by
  have hold := h.advance (hepoch.trans hepoch'.le) (UInt64.le_of_lt hseq')
  refine ⟨?_, ?_, ?_, ?_⟩
  · rw [List.pairwise_append]
    refine ⟨h.ordered, List.pairwise_singleton _ _, fun g hg f' hf' => ?_⟩
    obtain rfl := List.mem_singleton.1 hf'
    exact ⟨(h.epoch_le g hg).trans hepoch, hseq ▸ h.sequence_lt g hg⟩
  · rw [List.forall_mem_append]
    exact ⟨hold.epoch_le, by simp [hepoch']⟩
  · rw [List.forall_mem_append]
    exact ⟨hold.sequence_lt, by simp [hseq, hseq']⟩
  · rw [List.forall_mem_append]
    exact ⟨h.opens, by simp [hopens]⟩

theorem Sent.step {fs : List Frame} {t : TrafficState} {createdMs : UInt64} (hc : c.OpensSealed)
    (h : Sent c rootKey algorithm direction fs t) (i : Bytes × UInt64)
    (hkept : EpochKept ((sender c rootKey algorithm direction createdMs).event t i)) :
    Sent c rootKey algorithm direction
      (fs ++ (frame ((sender c rootKey algorithm direction createdMs).event t i)).toList)
      ((sender c rootKey algorithm direction createdMs).step t i).1 := by
  obtain ⟨plaintext, ms⟩ := i
  have hepoch : t.sendEpoch ≤ (t.maybeRotateEpoch ms).sendEpoch := hkept
  have hseq := maybeRotateEpoch_sendSeq t ms
  have hopens : ∀ payload,
      (t.encryptPayload c (some rootKey) algorithm direction plaintext ms).1 = .ok payload →
      Frame.Opens c rootKey algorithm direction ⟨plaintext, payload⟩ :=
    fun payload => encryptPayload_opens hc t
  rcases encryptPayload_cases c t (some rootKey) algorithm direction plaintext ms with
    ⟨e, heq⟩ | ⟨next, result, hnext, heq, hnonce⟩
  · simp only [frame, Machine.event, sender, heq, Prod.swap, Except.toOption, Option.map_none,
      Option.toList_none, List.append_nil]
    exact h.advance hepoch (by rw [hseq]; exact UInt64.le_refl _)
  · rw [heq] at hopens
    rw [hseq] at hnext
    -- The next sequence is above the one that is used up.
    have hlt : t.sendSeq direction <
        Function.update (t.maybeRotateEpoch ms).sendSeq direction next direction := by
      rw [Function.update_self]
      exact UInt64.lt_iff_toNat_lt.2 (by omega)
    cases result with
    | error e =>
      simp only [frame, Machine.event, sender, heq, Prod.swap, Except.toOption, Option.map_none,
        Option.toList_none, List.append_nil]
      exact h.advance hepoch (UInt64.le_of_lt hlt)
    | ok payload =>
      simp only [frame, Machine.event, sender, heq, Prod.swap, Except.toOption, Option.map_some,
        Option.toList_some]
      have hn := hnonce payload rfl
      have hfe : Frame.epoch ⟨plaintext, payload⟩ = (t.maybeRotateEpoch ms).sendEpoch := by
        rw [Frame.epoch, hn]
      have hfs : Frame.sequence ⟨plaintext, payload⟩ = t.sendSeq direction := by
        rw [Frame.sequence, hn, hseq]
      exact h.snoc (hfe ▸ hepoch) hfs hfe hlt (hopens payload rfl)

/-- The frames that a sender produces are in order, and open. -/
theorem frames_ordered (hc : c.OpensSealed) (createdMs : UInt64) (sent : List (Bytes × UInt64))
    (hkept : Along (fun _ e => EpochKept e) ((sender c rootKey algorithm direction createdMs).history
      (sender c rootKey algorithm direction createdMs).init sent)) :
    Sent c rootKey algorithm direction
      (((sender c rootKey algorithm direction createdMs).history
        (sender c rootKey algorithm direction createdMs).init sent).filterMap frame)
      ((sender c rootKey algorithm direction createdMs).run
        (sender c rootKey algorithm direction createdMs).init sent) := by
  refine Machine.history_invariant (P := fun tr t => Sent c rootKey algorithm direction
    (tr.filterMap frame) t) ?_ ?_ sent hkept
  · exact ⟨.nil, by simp, by simp, by simp⟩
  · intro tr t i h hi
    rw [List.filterMap_append]
    have hone : [(sender c rootKey algorithm direction createdMs).event t i].filterMap frame =
        (frame ((sender c rootKey algorithm direction createdMs).event t i)).toList := by
      cases hf : frame ((sender c rootKey algorithm direction createdMs).event t i) with
      | none => simp [hf]
      | some f => simp [hf]
    rw [hone]
    exact h.step hc i hi

end Sender

/-! ## The receiver -/

section Receiver

variable {t : TrafficState} {direction : Fin 2} {epoch : UInt32} {sequence : UInt64}

/-- The receiver is ready for a payload with this nonce: it is not behind the first slot, nor
    far ahead of it, and the second slot is older. -/
structure Ready (t : TrafficState) (direction : Fin 2) (epoch : UInt32) (sequence : UInt64) :
    Prop where
  grace : t.syncRxGrace.valid = false
  first_le : (t.rxSlots direction 0).valid → (t.rxSlots direction 0).epoch ≤ epoch
  first_near : (t.rxSlots direction 0).valid →
    epoch.toNat ≤ (t.rxSlots direction 0).epoch.toNat + maxAcceptedRxEpochAhead.toNat
  first_window : (t.rxSlots direction 0).valid → (t.rxSlots direction 0).window.valid →
    (t.rxSlots direction 0).window.maxSeq < sequence
  second_le : (t.rxSlots direction 1).valid → (t.rxSlots direction 1).epoch ≤ epoch
  second_first : (t.rxSlots direction 1).valid → (t.rxSlots direction 0).valid →
    (t.rxSlots direction 1).epoch ≤ (t.rxSlots direction 0).epoch

/-- A payload with this nonce was the last one received. -/
structure Follows (t : TrafficState) (direction : Fin 2) (epoch : UInt32) (sequence : UInt64) :
    Prop where
  grace : t.syncRxGrace.valid = false
  first : (t.rxSlots direction 0).valid → (t.rxSlots direction 0).epoch = epoch
  window : (t.rxSlots direction 0).valid → (t.rxSlots direction 0).window.maxSeq = sequence
  second : (t.rxSlots direction 1).valid → (t.rxSlots direction 1).epoch ≤ epoch

/-- After one payload the receiver is ready for the next. -/
theorem Follows.ready {f g : Frame} (h : t.Follows direction f.epoch f.sequence)
    (hbefore : f.Before g) (hnear : f.Near g) : t.Ready direction g.epoch g.sequence where
  grace := h.grace
  first_le hv := (h.first hv).le.trans hbefore.1
  first_near hv := by
    rw [h.first hv]
    exact hnear
  first_window hv _ := by
    rw [h.window hv]
    exact hbefore.2
  second_le hv := (h.second hv).trans hbefore.1
  second_first hv₁ hv₀ := (h.second hv₁).trans (h.first hv₀).ge

/-- An eviction clears a slot or leaves it. -/
theorem evict_eq_of_valid {slot : EpochRxSlot} {ms : UInt64} (h : (slot.evict ms).valid) :
    slot.evict ms = slot := by
  unfold EpochRxSlot.evict at h ⊢
  split_ifs at h ⊢
  · cases h
  · rfl

/-- Without a grace an eviction only looks at the receive slots. -/
theorem evictOldRxSlots_of_no_grace (h : t.syncRxGrace.valid = false) (ms : UInt64) :
    t.evictOldRxSlots ms = { t with rxSlots := evictSlots t.rxSlots ms } := by
  simp [evictOldRxSlots, h]

theorem Ready.evict (h : t.Ready direction epoch sequence) (ms : UInt64) :
    (t.evictOldRxSlots ms).Ready direction epoch sequence := by
  rw [evictOldRxSlots_of_no_grace h.grace]
  -- A slot that is valid afterwards is the one there was.
  have hkept : ∀ i, (evictSlots t.rxSlots ms direction i).valid →
      evictSlots t.rxSlots ms direction i = t.rxSlots direction i := fun i => evict_eq_of_valid
  have hvalid : ∀ i, (evictSlots t.rxSlots ms direction i).valid →
      (t.rxSlots direction i).valid := fun i hi => hkept i hi ▸ hi
  refine ⟨h.grace, fun hv => ?_, fun hv => ?_, fun hv => ?_, fun hv => ?_, fun hv hv₀ => ?_⟩
  · simp only [hkept 0 hv]
    exact h.first_le (hvalid 0 hv)
  · simp only [hkept 0 hv]
    exact h.first_near (hvalid 0 hv)
  · simp only [hkept 0 hv]
    exact h.first_window (hvalid 0 hv)
  · simp only [hkept 1 hv]
    exact h.second_le (hvalid 1 hv)
  · simp only [hkept 0 hv₀, hkept 1 hv]
    exact h.second_first (hvalid 1 hv) (hvalid 0 hv₀)

theorem Ready.graceSlot (h : t.Ready direction epoch sequence) :
    t.graceSlot epoch direction = none := by
  simp [TrafficState.graceSlot, h.grace]

/-- A slot that holds the epoch is the first one, or its epoch is the first one's. -/
theorem Ready.findSlot (h : t.Ready direction epoch sequence)
    (hvalid : (t.rxSlots direction 0).valid) :
    findSlot (t.rxSlots direction) epoch =
      if (t.rxSlots direction 0).epoch = epoch then some 0 else none := by
  unfold TrafficState.findSlot EpochRxSlot.holds
  by_cases heq : (t.rxSlots direction 0).epoch = epoch
  · simp [hvalid, heq]
  · have hsecond : ¬((t.rxSlots direction 1).valid = true ∧
        (t.rxSlots direction 1).epoch = epoch) := by
      rintro ⟨hv, rfl⟩
      exact heq (le_antisymm (h.first_le hvalid) (h.second_first hv hvalid))
    simp [heq, hsecond]

/-- A window accepts what is above all it has seen. -/
theorem canAccept_of_above {w : ReplayWindow256} (h : w.valid → w.maxSeq < sequence) :
    w.canAccept sequence = true := by
  unfold ReplayWindow256.canAccept
  cases hv : w.valid with
  | false => simp
  | true => simp [h hv]

theorem accept_of_above {w : ReplayWindow256} (h : w.valid → w.maxSeq < sequence) :
    (w.accept sequence).1.maxSeq = sequence := by
  unfold ReplayWindow256.accept
  cases hv : w.valid with
  | false => simp
  | true => simp [h hv]

/-- What the receiver is ready for passes the check. -/
theorem Ready.precheck (h : t.Ready direction epoch sequence) :
    t.precheckReplay epoch sequence direction = true := by
  cases hvalid : (t.rxSlots direction 0).valid with
  | false => simp [precheckReplay, h.graceSlot, hvalid]
  | true =>
    have hfind := h.findSlot hvalid
    split_ifs at hfind with heq
    · rw [precheckReplay_of_held h.graceSlot hvalid hfind]
      exact canAccept_of_above (h.first_window hvalid)
    · have hlt : (t.rxSlots direction 0).epoch < epoch :=
        lt_of_le_of_ne (h.first_le hvalid) heq
      rw [precheckReplay_of_newer h.graceSlot hvalid hfind hlt, decide_eq_true_iff]
      -- The baseline is at least the epoch of the first slot.
      have hbase := UInt32.le_iff_toNat_le.1 (epoch_le_baselineEpoch 0 hvalid)
      have hnear := h.first_near hvalid
      have hlt32 := epoch.toNat_lt
      rw [UInt32.le_iff_toNat_le, UInt32.toNat_saturatingAdd]
      omega

/-- What the receiver is ready for is committed to the first slot. -/
theorem Ready.commit (h : t.Ready direction epoch sequence) (ms : UInt64) :
    (t.commitReplay epoch sequence direction ms).1.Follows direction epoch sequence := by
  have hcases := commitReplay_cases t epoch sequence direction ms
  generalize t.commitReplay epoch sequence direction ms = r at hcases
  have hfresh : ((EpochRxSlot.fresh epoch ms).accept sequence ms).1.window.maxSeq = sequence := by
    refine accept_of_above (w := default) fun hv => ?_
    cases hv
  cases hcases with
  | grace hgrace =>
    rw [h.graceSlot] at hgrace
    cases hgrace
  | first hgrace hfree =>
    refine ⟨h.grace, fun _ => ?_, fun _ => ?_, fun hv => ?_⟩
    · simp [setRxSlots, EpochRxSlot.accept, EpochRxSlot.fresh]
    · simpa [setRxSlots] using hfresh
    · simp only [setRxSlots, Function.update_self, Function.update_of_ne one_ne_zero] at hv ⊢
      exact h.second_le hv
  | held hgrace hvalid hfind =>
    rw [h.findSlot hvalid] at hfind
    split_ifs at hfind with heq
    obtain rfl := Option.some.inj hfind
    refine ⟨h.grace, fun _ => ?_, fun _ => ?_, fun hv => ?_⟩
    · simpa [setRxSlots, EpochRxSlot.accept] using heq
    · simpa [setRxSlots, EpochRxSlot.accept] using accept_of_above (h.first_window hvalid)
    · simp only [setRxSlots, Function.update_self, Function.update_of_ne one_ne_zero] at hv ⊢
      exact h.second_le hv
  | newer hgrace hvalid hfind hlt =>
    refine ⟨h.grace, fun _ => ?_, fun _ => ?_, fun hv => ?_⟩
    · simp [setRxSlots, EpochRxSlot.accept, EpochRxSlot.fresh]
    · simpa [setRxSlots] using hfresh
    · simpa [setRxSlots] using hlt.le
  | older hgrace hvalid hfind hle =>
    -- Then the epoch is that of the first slot, which does hold it.
    rw [h.findSlot hvalid, if_pos (le_antisymm (h.first_le hvalid) hle)] at hfind
    cases hfind

variable {c : Crates HS} {rootKey : Key32} {algorithm : String}

/-- A frame the receiver is ready for is delivered. -/
theorem Ready.decrypt {f : Frame} (h : t.Ready direction f.epoch f.sequence)
    (hopens : f.Opens c rootKey algorithm direction) (ms : UInt64) :
    (t.decryptPayload c (some rootKey) algorithm direction f.payload ms).1 =
        .ok (some f.plaintext) ∧
      (t.decryptPayload c (some rootKey) algorithm direction f.payload ms).2.Follows direction
        f.epoch f.sequence := by
  have hevicted := h.evict ms
  rw [decryptPayload_of_opened hopens.1 hevicted.precheck hopens.2]
  refine ⟨rfl, ?_⟩
  have hreset : ({ t.evictOldRxSlots ms with decryptFailCount := 0 } : TrafficState).Ready direction
      f.epoch f.sequence :=
    ⟨hevicted.grace, hevicted.first_le, hevicted.first_near, hevicted.first_window,
      hevicted.second_le, hevicted.second_first⟩
  exact hreset.commit ms

/-- A new session is ready for any payload. -/
theorem ready_create (rootKey : Key32) (algorithm : String) (createdMs : UInt64) :
    (StoredSession.create rootKey algorithm createdMs).toTrafficState.Ready direction epoch
      sequence where
  grace := rfl
  first_le hv := nomatch hv
  first_near hv := nomatch hv
  first_window hv := nomatch hv
  second_le hv := nomatch hv
  second_first hv := nomatch hv

/-- Frames in order, none of them far ahead of the one before, are delivered one by one. -/
theorem receive_all (createdMs : UInt64) (fs : List (Frame × UInt64))
    (hready : ∀ f ∈ fs.head?, t.Ready direction f.1.epoch f.1.sequence)
    (hbefore : fs.IsChain fun f g => f.1.Before g.1) (hnear : fs.IsChain fun f g => f.1.Near g.1)
    (hopens : ∀ f ∈ fs, f.1.Opens c rootKey algorithm direction) :
    (receiver c rootKey algorithm direction createdMs).outputs t
        (fs.map fun f => (f.1.payload, f.2)) =
      fs.map fun f => .ok (some f.1.plaintext) := by
  induction fs generalizing t with
  | nil => rfl
  | cons f fs ih =>
    obtain ⟨hout, hfollows⟩ := (hready f rfl).decrypt (hopens f List.mem_cons_self) f.2
    rw [List.isChain_cons] at hbefore hnear
    have hrest := ih (t := (t.decryptPayload c (some rootKey) algorithm direction f.1.payload f.2).2)
      (fun g hg => hfollows.ready (hbefore.1 g hg) (hnear.1 g hg)) hbefore.2 hnear.2
      fun g hg => hopens g (List.mem_cons_of_mem _ hg)
    rw [List.map_cons, List.map_cons, ← hrest, ← hout]
    rfl

end Receiver

/-! ## Both sides -/

/-- What a new session sends reaches another new session under the same root key: whatever
    arrives in order, with at most `maxAcceptedRxEpochAhead` epochs from one payload to the
    next, is delivered. -/
theorem honest_traffic_delivered (c : Crates HS) (hc : c.OpensSealed) (rootKey : Key32)
    (algorithm : String) (direction : Fin 2) (createdMs createdMs' : UInt64)
    (sent : List (Bytes × UInt64))
    (hkept : Along (fun _ e => EpochKept e) ((sender c rootKey algorithm direction createdMs).history
      (sender c rootKey algorithm direction createdMs).init sent))
    (received : List (Frame × UInt64))
    (horder : (received.map Prod.fst).Sublist
      (((sender c rootKey algorithm direction createdMs).history
        (sender c rootKey algorithm direction createdMs).init sent).filterMap frame))
    (hnear : received.IsChain fun f g => f.1.Near g.1) :
    (receiver c rootKey algorithm direction createdMs').outputs
        (receiver c rootKey algorithm direction createdMs').init
        (received.map fun f => (f.1.payload, f.2)) =
      received.map fun f => .ok (some f.1.plaintext) := by
  have hsent := frames_ordered hc createdMs sent hkept
  have hbefore : received.IsChain fun f g => f.1.Before g.1 := by
    have hpair := hsent.ordered.sublist horder
    rw [List.pairwise_map] at hpair
    exact hpair.isChain
  refine receive_all createdMs' received ?_ hbefore hnear fun f hf => ?_
  · exact fun f _ => ready_create rootKey algorithm createdMs'
  · exact hsent.opens _ (horder.subset (List.mem_map_of_mem hf))

/-- Four payloads, of which the second one is lost; the third one starts a new epoch, and by
    then the receiver has evicted the slot of the first. -/
theorem honest_traffic_delivered_with_loss :
    let m := sender Crates.transparent (Vector.replicate 32 5) "aes-gcm" first 1000
    let fs := (m.history m.init [([1, 2], 1000), ([3], 1001), ([4], 601000), ([5, 6], 601001)]).filterMap
      frame
    let received := (fs.eraseIdx 1).zip [2000, 602000, 602001]
    let n := receiver Crates.transparent (Vector.replicate 32 5) "aes-gcm" first 1500
    (fs.map Frame.epoch = [0, 0, 1, 1] ∧ received.length = 3) ∧
      n.outputs n.init (received.map fun f => (f.1.payload, f.2)) =
        received.map fun f => .ok (some f.1.plaintext) := by
  refine ⟨by decide +kernel, honest_traffic_delivered Crates.transparent ?_ _ _ _ 1000 _
    [([1, 2], 1000), ([3], 1001), ([4], 601000), ([5, 6], 601001)] ?_ _ ?_ ?_⟩
  · rintro cipher key nonce plaintext ciphertext tag ⟨⟩
    rfl
  · decide +kernel
  · decide +kernel
  · decide +kernel

end TrafficState

end EasyTierEdge
