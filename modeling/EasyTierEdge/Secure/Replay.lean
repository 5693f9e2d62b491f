import EasyTierEdge.Secure.Tracking

/-!
# Frames delivered once

What a session remembers of the frames it delivered is in its receive slots: the
windows of two epochs in each direction, and of two more in the grace copy that a
`Sync` leaves for five seconds. A slot that has been idle for thirty seconds is
evicted, the older epoch is overwritten by a newer one, and the grace copy expires or
is replaced by the next `Sync`: the frames of such an epoch are forgotten, and
delivered again when they are replayed (`replayed_after_eviction`).

* `delivered_once`: no frame is delivered twice under a root key and in a direction,
  in any run in which every frame that passes the replay check has its epoch in a
  slot, or is the first of its epoch (`replayForgotten`).
-/

namespace EasyTierEdge

variable {HS : Type}

namespace TrafficState

/-- The slots of a pair that hold an epoch. -/
def validSlots (slots : Fin 2 → EpochRxSlot) : List EpochRxSlot :=
  [slots first, slots second].filter (·.valid)

/-- The slots of `direction` that hold an epoch, those of the grace copy first. -/
def heldSlots (t : TrafficState) (direction : Fin 2) : List EpochRxSlot :=
  (if t.syncRxGrace.valid then validSlots (t.syncRxGrace.slots direction) else []) ++
    validSlots (t.rxSlots direction)

/-- The window that a sequence of `epoch` is checked against. -/
def consulted (t : TrafficState) (epoch : UInt32) (direction : Fin 2) : Option ReplayWindow256 :=
  match t.graceSlot epoch direction with
  | some i => some (t.syncRxGrace.slots direction i).window
  | none =>
    if (t.rxSlots direction first).valid then
      (findSlot (t.rxSlots direction) epoch).map fun i => (t.rxSlots direction i).window
    else none

variable {t : TrafficState} {epoch : UInt32} {sequence : UInt64} {direction : Fin 2} {ms : UInt64}

/-! ## Forgetting slots -/

theorem validSlots_evict (slots : RxSlots) (ms : UInt64) (direction : Fin 2) :
    (validSlots (evictSlots slots ms direction)).Sublist (validSlots (slots direction)) := by
  have hevict : ∀ slot : EpochRxSlot, slot.evict ms = slot ∨ (slot.evict ms).valid = false := by
    intro slot
    unfold EpochRxSlot.evict
    split_ifs
    · exact .inr rfl
    · exact .inl rfl
  have hcons : ∀ (slot : EpochRxSlot) {l l' : List EpochRxSlot},
      (l.filter (·.valid)).Sublist (l'.filter (·.valid)) →
      ((slot.evict ms :: l).filter (·.valid)).Sublist ((slot :: l').filter (·.valid)) := by
    intro slot l l' hl
    rw [List.filter_cons, List.filter_cons]
    rcases hevict slot with heq | hinvalid
    · rw [heq]
      split_ifs
      · exact hl.cons_cons _
      · exact hl
    · simp only [hinvalid, Bool.false_eq_true, if_false]
      split_ifs
      · exact hl.cons _
      · exact hl
  exact hcons _ (hcons _ (List.Sublist.refl _))

/-- Evicting idle slots leaves some of those that hold an epoch. -/
theorem heldSlots_evict (t : TrafficState) (ms : UInt64) (direction : Fin 2) :
    ((t.evictOldRxSlots ms).heldSlots direction).Sublist (t.heldSlots direction) := by
  have hrx := validSlots_evict t.rxSlots ms direction
  have hgrace := validSlots_evict t.syncRxGrace.slots ms direction
  simp only [heldSlots, evictOldRxSlots]
  by_cases hvalid : t.syncRxGrace.valid
  · by_cases hexpired : t.syncRxGrace.expiresAtMs ≤ ms
    · simp only [hvalid, hexpired, decide_true, Bool.and_self, if_true]
      exact hrx.trans (List.sublist_append_right _ _)
    · simp only [hvalid, hexpired, decide_false, Bool.and_false, Bool.false_eq_true, if_false, if_true]
      exact hgrace.append hrx
  · simp only [hvalid, Bool.false_and, Bool.false_eq_true, if_false]
    exact hrx

/-- A `Sync` leaves the slots in use, in the grace copy. -/
theorem heldSlots_sync (s : StoredSession) (ms : UInt64) (direction : Fin 2) :
    ((s.sync ms).heldSlots direction).Sublist (s.heldSlots direction) := by
  have heq : (s.sync ms).heldSlots direction = validSlots (s.rxSlots direction) :=
    List.append_nil _
  rw [heq]
  exact List.sublist_append_right _ _

theorem heldSlots_create (r : Key32) (algorithm : String) (ms : UInt64) (direction : Fin 2) :
    (StoredSession.create r algorithm ms).heldSlots direction = [] := rfl

/-- Encrypting leaves the slots. -/
theorem heldSlots_encrypt (c : Crates HS) (s : StoredSession) (server client : UInt32)
    (packet : Bytes) (clock : PacketClock) (direction : Fin 2) :
    (s.encrypt c server client packet clock).2.heldSlots direction = s.heldSlots direction := by
  rcases s.encrypt_cases c server client packet clock with ⟨e, heq⟩ | ⟨header, payload, -, heq⟩
  · rw [heq]
  · rw [heq]
    have hrotate : ((s.maybeRotateEpoch clock.payloadMs).rxSlots = s.rxSlots) ∧
        (s.maybeRotateEpoch clock.payloadMs).syncRxGrace = s.syncRxGrace := by
      unfold maybeRotateEpoch
      split_ifs <;> exact ⟨rfl, rfl⟩
    rcases s.encryptPayload_cases c (some s.rootKey) serverEncryptionAlgorithm
      (directionIndex server client) payload clock.payloadMs with
      ⟨e, henc⟩ | ⟨next, result, -, henc, -⟩
    · simp only [heldSlots, StoredSession.save, henc, hrotate]
    · simp only [heldSlots, StoredSession.save, henc, hrotate]

/-! ## Committing a sequence -/

theorem validSlots_update (slots : Fin 2 → EpochRxSlot) (i : Fin 2) (slot : EpochRxSlot)
    (hvalid : slot.valid) :
    ∃ rest, (validSlots (Function.update slots i slot)).Perm (slot :: rest) ∧
      (validSlots slots).Perm (if (slots i).valid then slots i :: rest else rest) := by
  fin_cases i
  · refine ⟨[slots 1].filter (·.valid), ?_, ?_⟩
    · simp [validSlots, List.filter_cons, hvalid]
    · by_cases h₀ : (slots 0).valid <;> simp [validSlots, List.filter_cons, h₀]
  · refine ⟨[slots 0].filter (·.valid), ?_, ?_⟩
    · by_cases h₀ : (slots 0).valid <;>
        simp [validSlots, h₀, hvalid, List.Perm.swap]
    · by_cases h₀ : (slots 0).valid <;> by_cases h₁ : (slots 1).valid <;>
        simp [validSlots, h₀, h₁, List.Perm.swap]

/-- A committed sequence is accepted by the slot that holds its epoch, or by a new
    slot; the other slots stay, or are overwritten. -/
inductive Placed (t : TrafficState) (epoch : UInt32) (sequence : UInt64) (direction : Fin 2)
    (ms : UInt64) (t' : TrafficState) : Prop
  | held {slot : EpochRxSlot} {rest : List EpochRxSlot} : slot.epoch = epoch →
      t.consulted epoch direction = some slot.window →
      (t.heldSlots direction).Perm (slot :: rest) →
      (t'.heldSlots direction).Perm ((slot.accept sequence ms).1 :: rest) →
      (slot.accept sequence ms).2 = true → Placed t epoch sequence direction ms t'
  | new {rest : List EpochRxSlot} : t.consulted epoch direction = none →
      rest.Subperm (t.heldSlots direction) →
      (t'.heldSlots direction).Perm (((EpochRxSlot.fresh epoch ms).accept sequence ms).1 :: rest) →
      Placed t epoch sequence direction ms t'

theorem graceSlot_eq_some {i : Fin 2} (h : t.graceSlot epoch direction = some i) :
    t.syncRxGrace.valid ∧ findSlot (t.syncRxGrace.slots direction) epoch = some i := by
  unfold graceSlot at h
  split_ifs at h with hvalid
  exact ⟨hvalid, h⟩

theorem heldSlots_setRxSlots (t : TrafficState) (direction : Fin 2) (slots : Fin 2 → EpochRxSlot) :
    (t.setRxSlots direction slots).heldSlots direction =
      (if t.syncRxGrace.valid then validSlots (t.syncRxGrace.slots direction) else []) ++
        validSlots slots := by
  simp only [heldSlots, setRxSlots, Function.update_self]
  rfl

/-- Where a committed sequence is placed. -/
theorem commitReplay_placed (h : (t.commitReplay epoch sequence direction ms).2 = true) :
    Placed t epoch sequence direction ms (t.commitReplay epoch sequence direction ms).1 := by
  have hcommit := commitReplay_cases t epoch sequence direction ms
  generalize t.commitReplay epoch sequence direction ms = r at hcommit h
  cases hcommit with
  | @grace i hgrace =>
    obtain ⟨hvalid, hfind⟩ := graceSlot_eq_some hgrace
    obtain ⟨hslot, hepoch⟩ := findSlot_eq_some hfind
    obtain ⟨rest, hnew, hold⟩ := validSlots_update (t.syncRxGrace.slots direction) i
      ((t.syncRxGrace.slots direction i).accept sequence ms).1 hslot
    rw [if_pos hslot] at hold
    have hheld : (t.heldSlots direction).Perm (t.syncRxGrace.slots direction i ::
        (rest ++ validSlots (t.rxSlots direction))) := by
      simp only [heldSlots, hvalid, if_true]
      exact hold.append_right _
    refine .held hepoch (by simp [consulted, hgrace]) hheld ?_ h
    simp only [heldSlots, setGraceSlot, hvalid, if_true, Function.update_self]
    exact hnew.append_right _
  | first hgrace hfree =>
    obtain ⟨rest, hnew, hold⟩ := validSlots_update (t.rxSlots direction) 0
      ((EpochRxSlot.fresh epoch ms).accept sequence ms).1 rfl
    rw [hfree, if_neg Bool.false_ne_true] at hold
    refine .new (by simp [consulted, hgrace, hfree]) (hold.symm.append_left _).subperm ?_
    rw [heldSlots_setRxSlots]
    exact (hnew.append_left _).trans List.perm_middle
  | @held i hgrace hvalid hfind =>
    obtain ⟨hslot, hepoch⟩ := findSlot_eq_some hfind
    obtain ⟨rest, hnew, hold⟩ := validSlots_update (t.rxSlots direction) i
      ((t.rxSlots direction i).accept sequence ms).1 hslot
    rw [if_pos hslot] at hold
    refine .held hepoch (by simp [consulted, hgrace, hvalid, hfind])
      ((hold.append_left _).trans List.perm_middle) ?_ h
    rw [heldSlots_setRxSlots]
    exact (hnew.append_left _).trans List.perm_middle
  | newer hgrace hvalid hfind hlt =>
    have hold : [t.rxSlots direction 0].Sublist (validSlots (t.rxSlots direction)) := by
      simp only [validSlots, List.filter_cons, hvalid, if_true]
      exact List.singleton_sublist.2 List.mem_cons_self
    have hnew : validSlots ![((EpochRxSlot.fresh epoch ms).accept sequence ms).1,
        t.rxSlots direction 0] =
        [((EpochRxSlot.fresh epoch ms).accept sequence ms).1, t.rxSlots direction 0] := by
      simp [validSlots, hvalid, EpochRxSlot.fresh, EpochRxSlot.accept]
    refine .new (by simp [consulted, hgrace, hvalid, hfind])
      ((List.Sublist.refl _).append hold).subperm ?_
    rw [heldSlots_setRxSlots, hnew]
    exact List.perm_middle
  | older => cases h

/-- Committing a sequence leaves the slots of the other direction. -/
theorem heldSlots_commitReplay_of_ne {d : Fin 2} (hd : d ≠ direction) :
    (t.commitReplay epoch sequence direction ms).1.heldSlots d = t.heldSlots d := by
  have hcommit := commitReplay_cases t epoch sequence direction ms
  generalize t.commitReplay epoch sequence direction ms = r at hcommit
  cases hcommit <;>
    simp only [heldSlots, setGraceSlot, setRxSlots, Function.update_of_ne hd] <;> rfl

/-- The slots remember the nonces `L` seen under the root key `r`, every slot those
    of its epoch, and no two slots of a direction have the same epoch. -/
structure Remembers (r : Key32) (L : List Nonce) (t : TrafficState) : Prop where
  window : ∀ d, ∀ slot ∈ t.heldSlots d, slot.window.Remembers {q | ⟨r, d, slot.epoch, q⟩ ∈ L}
  seen : ∀ d, ∀ slot ∈ t.heldSlots d, ∃ q, ⟨r, d, slot.epoch, q⟩ ∈ L
  distinct : ∀ d, ((t.heldSlots d).map EpochRxSlot.epoch).Nodup

section Remembers

variable {r : Key32} {L : List Nonce} {t' : TrafficState}

/-- Forgetting slots keeps what the others remember. -/
theorem Remembers.of_sublist (h : t.Remembers r L)
    (hsub : ∀ d, (t'.heldSlots d).Sublist (t.heldSlots d)) : t'.Remembers r L where
  window d slot hslot := h.window d slot ((hsub d).subset hslot)
  seen d slot hslot := h.seen d slot ((hsub d).subset hslot)
  distinct d := ((hsub d).map _).nodup (h.distinct d)

/-- Only the nonces of an epoch matter to its slot. -/
theorem setOf_append_ne {d : Fin 2} {e : UInt32} {n : Nonce}
    (hne : ¬(n.rootKey = r ∧ n.direction = d ∧ n.epoch = e)) :
    {q | (⟨r, d, e, q⟩ : Nonce) ∈ L ++ [n]} = {q | (⟨r, d, e, q⟩ : Nonce) ∈ L} := by
  ext q
  simp only [Set.mem_ofPred_eq, List.mem_append, List.mem_singleton, or_iff_left_iff_imp]
  rintro rfl
  exact absurd ⟨rfl, rfl, rfl⟩ hne

theorem setOf_append_self {d : Fin 2} {e : UInt32} {sequence : UInt64} :
    {q | (⟨r, d, e, q⟩ : Nonce) ∈ L ++ [⟨r, d, e, sequence⟩]} =
      insert sequence {q | (⟨r, d, e, q⟩ : Nonce) ∈ L} := by
  ext q
  simp [or_comm]

/-- The slots of other epochs, or of the other direction, remember no more. -/
theorem Remembers.window_append (h : t.Remembers r L) {d : Fin 2} {slot : EpochRxSlot}
    (hslot : slot ∈ t.heldSlots d) {n : Nonce}
    (hne : ¬(n.rootKey = r ∧ n.direction = d ∧ n.epoch = slot.epoch)) :
    slot.window.Remembers {q | (⟨r, d, slot.epoch, q⟩ : Nonce) ∈ L ++ [n]} := by
  rw [setOf_append_ne hne]
  exact h.window d slot hslot

/-- The state remembers a new nonce, when the slot of its epoch does and the others
    have other epochs. -/
theorem Remembers.of_perm (h : t.Remembers r L) {slot' : EpochRxSlot} {rest : List EpochRxSlot}
    (hother : ∀ d, d ≠ direction → t'.heldSlots d = t.heldSlots d)
    (hperm : (t'.heldSlots direction).Perm (slot' :: rest))
    (hrest : rest.Subperm (t.heldSlots direction)) (hepoch : slot'.epoch = epoch)
    (hfree : ∀ slot ∈ rest, slot.epoch ≠ epoch)
    (hwindow : slot'.window.Remembers
      (insert sequence {q | (⟨r, direction, epoch, q⟩ : Nonce) ∈ L})) :
    t'.Remembers r (L ++ [⟨r, direction, epoch, sequence⟩]) where
  window d slot hslot := by
    by_cases hd : d = direction
    · subst hd
      rcases List.mem_cons.1 (hperm.mem_iff.1 hslot) with rfl | hslot
      · rw [hepoch, setOf_append_self]
        exact hwindow
      · refine h.window_append (hrest.subset hslot) ?_
        exact fun hn => hfree slot hslot hn.2.2.symm
    · rw [hother d hd] at hslot
      exact h.window_append hslot fun hn => hd hn.2.1.symm
  seen d slot hslot := by
    by_cases hd : d = direction
    · subst hd
      rcases List.mem_cons.1 (hperm.mem_iff.1 hslot) with rfl | hslot
      · exact ⟨sequence, by simp [hepoch]⟩
      · obtain ⟨q, hq⟩ := h.seen d slot (hrest.subset hslot)
        exact ⟨q, List.mem_append_left _ hq⟩
    · rw [hother d hd] at hslot
      obtain ⟨q, hq⟩ := h.seen d slot hslot
      exact ⟨q, List.mem_append_left _ hq⟩
  distinct d := by
    by_cases hd : d = direction
    · subst hd
      rw [(hperm.map EpochRxSlot.epoch).nodup_iff, List.map_cons, List.nodup_cons, hepoch]
      obtain ⟨l, hl, hsub⟩ := hrest
      refine ⟨fun hmem => ?_, (hl.map _).nodup_iff.1 ((hsub.map _).nodup (h.distinct d))⟩
      obtain ⟨slot, hslot, heq⟩ := List.mem_map.1 hmem
      exact hfree slot hslot heq
    · rw [hother d hd]
      exact h.distinct d

/-- A committed sequence is a new one, and remembered from then on, if its epoch is
    in a slot within reach, or new. -/
theorem Remembers.commitReplay (h : t.Remembers r L)
    (hcommit : (t.commitReplay epoch sequence direction ms).2 = true)
    (hreach : ∀ window, t.consulted epoch direction = some window → window.InReach sequence)
    (hnew : t.consulted epoch direction = none → ∀ q, (⟨r, direction, epoch, q⟩ : Nonce) ∉ L) :
    (⟨r, direction, epoch, sequence⟩ : Nonce) ∉ L ∧
      (t.commitReplay epoch sequence direction ms).1.Remembers r
        (L ++ [⟨r, direction, epoch, sequence⟩]) := by
  cases commitReplay_placed hcommit with
  | @held slot rest hepoch hconsulted hperm hperm' haccept =>
    have hslot : slot ∈ t.heldSlots direction := hperm.mem_iff.2 List.mem_cons_self
    have hnodup := h.distinct direction
    rw [(hperm.map EpochRxSlot.epoch).nodup_iff, List.map_cons, List.nodup_cons] at hnodup
    have hremembers := h.window direction slot hslot
    rw [hepoch] at hremembers
    obtain ⟨hfresh, hwindow⟩ := hremembers.accept sequence (hreach _ hconsulted) haccept
    refine ⟨hfresh, h.of_perm (fun d hd => heldSlots_commitReplay_of_ne hd) hperm'
      ((List.sublist_cons_self _ _).subperm.trans hperm.symm.subperm) hepoch ?_ hwindow⟩
    intro slot' hslot' heq
    exact hnodup.1 (List.mem_map.2 ⟨slot', hslot', heq.trans hepoch.symm⟩)
  | @new rest hconsulted hrest hperm =>
    have hempty : {q | (⟨r, direction, epoch, q⟩ : Nonce) ∈ L} = ∅ :=
      Set.eq_empty_of_forall_notMem (hnew hconsulted)
    have hwindow := (ReplayWindow256.remembers_empty default).accept sequence
      (fun hvalid => by cases hvalid) (by rfl)
    refine ⟨hnew hconsulted sequence, h.of_perm (fun d hd => heldSlots_commitReplay_of_ne hd) hperm
      hrest rfl ?_ (by rw [hempty]; exact hwindow.2)⟩
    rintro slot hslot rfl
    obtain ⟨q, hq⟩ := h.seen direction slot (hrest.subset hslot)
    exact hnew hconsulted q hq

end Remembers

end TrafficState

/-! ## Delivery in a run -/

/-- A frame passes the replay check although its session may have forgotten it: its
    epoch is in no slot, but a frame of the epoch was delivered before; or its
    sequence is out of the reach of its epoch's window. -/
def replayForgotten (before : List (StoreEvent HS)) (e : StoreEvent HS) : Bool :=
  match e.input with
  | .call h (.decryptPacket packet clock) =>
    (e.pre.peers.lookup h).any fun p => p.authenticated && p.sessionKey.any fun key =>
      (e.pre.sessions.lookup key).any fun s =>
        let n := frameNonce s.rootKey packet
        let t := s.evictOldRxSlots clock.payloadMs
        isIncoming key.serverPeerId key.peerId packet &&
          t.precheckReplay n.epoch n.sequence n.direction &&
          match t.consulted n.epoch n.direction with
          | some window => !decide (window.InReach n.sequence)
          | none => (before.filterMap delivered).any fun n' =>
              n'.rootKey == n.rootKey && n'.direction == n.direction && n'.epoch == n.epoch
  | _ => false

section Delivered

variable {c : Crates HS}

/-- A frame is only delivered by the session of a connection. -/
theorem handledKey_of_delivered {e : StoreEvent HS} {n : Nonce} (h : delivered e = some n) :
    ∃ key s, handledKey e = some key ∧ e.pre.sessions.lookup key = some s ∧
      n.rootKey = s.rootKey := by
  unfold delivered at h
  split at h
  · rename_i h' packet clock b frame hin hout
    split_ifs at h
    obtain ⟨s, hs, rfl⟩ := Option.map_eq_some_iff.1 h
    simp only [World.session, Option.bind_eq_bind, Option.bind_eq_some_iff] at hs
    obtain ⟨p, hp, key, hkey, hs⟩ := hs
    exact ⟨key, s, by simp [handledKey, hin, hout, hp, hkey], hs, rfl⟩
  · cases h

/-- The nonce of an incoming packet. -/
theorem Incoming.frameNonce {server client : UInt32} {packet : Bytes} {header : PacketHeader}
    {payload : Bytes} (h : Incoming server client packet header payload) (r : Key32) :
    frameNonce r packet = ⟨r, directionIndex client server,
      (TrafficState.payloadNonce payload).1, (TrafficState.payloadNonce payload).2⟩ := by
  obtain ⟨hheader, rfl⟩ := splitPacket_eq_ok h.split
  simp only [EasyTierEdge.frameNonce, frameDirection, hheader, h.fromPeerId, h.toPeerId]

theorem Incoming.frameEncrypted {server client : UInt32} {packet : Bytes} {header : PacketHeader}
    {payload : Bytes} (h : Incoming server client packet header payload) :
    frameEncrypted packet = true := by
  obtain ⟨hheader, rfl⟩ := splitPacket_eq_ok h.split
  simp only [EasyTierEdge.frameEncrypted, hheader, h.encrypted]

/-- A session delivers the encrypted packet of the nonce `n`: the nonce passes the
    replay check and is committed. -/
structure Delivers (s : StoredSession) (server client : UInt32) (packet : Bytes) (ms : UInt64)
    (n : Nonce) (t' : TrafficState) : Prop where
  incoming : isIncoming server client packet = true
  encrypted : frameEncrypted packet = true
  direction : n.direction = directionIndex client server
  precheck : (s.evictOldRxSlots ms).precheckReplay n.epoch n.sequence n.direction = true
  commit : t' = (({ s.evictOldRxSlots ms with decryptFailCount := 0 } : TrafficState).commitReplay
    n.epoch n.sequence n.direction ms).1

/-- A session delivers a packet and commits its nonce, or forgets at most some slots
    and returns no clear packet for an encrypted one. -/
theorem StoredSession.decrypt_delivers (s : StoredSession) (server client : UInt32)
    (algorithm : String) (packet : Bytes) (clock : PacketClock) :
    (Delivers s server client packet clock.payloadMs (frameNonce s.rootKey packet)
        (s.decrypt c server client algorithm packet clock).2.toTrafficState ∧
      ∃ b frame, (s.decrypt c server client algorithm packet clock).1 = .ok (b :: frame)) ∨
    (∀ d, ((s.decrypt c server client algorithm packet clock).2.heldSlots d).Sublist
        (s.heldSlots d)) ∧
      (frameEncrypted packet = true →
        ∀ b frame, (s.decrypt c server client algorithm packet clock).1 ≠ .ok (b :: frame)) := by
  rcases s.decrypt_cases c server client algorithm packet clock with
    ⟨e, heq⟩ | ⟨heq, header, payload, hsplit, hclear⟩ | ⟨header, payload, hincoming, heq⟩
  · rw [heq]
    exact .inr ⟨fun d => List.Sublist.refl _, fun _ b frame h => by cases h⟩
  · rw [heq]
    refine .inr ⟨fun d => List.Sublist.refl _, fun henc => ?_⟩
    simp [frameEncrypted, (splitPacket_eq_ok hsplit).1, hclear] at henc
  · rw [heq, hincoming.frameNonce]
    have hcases := s.decryptPayload_cases (c := c) (some s.rootKey) algorithm
      (directionIndex client server) payload clock.payloadMs
    generalize s.decryptPayload c (some s.rootKey) algorithm (directionIndex client server) payload
      clock.payloadMs = r at hcases
    cases hcases with
    | short => exact .inr ⟨fun d => List.Sublist.refl _, fun _ b frame h => by cases h⟩
    | @dropped result failCount _ hresult =>
      refine .inr ⟨fun d => s.heldSlots_evict clock.payloadMs d, fun _ b frame h => ?_⟩
      rcases result with e | _ | plaintext
      · cases h
      · cases h
      · exact hresult plaintext rfl
    | delivered hcheck =>
      exact .inl ⟨⟨hincoming.isIncoming, hincoming.frameEncrypted, rfl, hcheck, rfl⟩, _, _, rfl⟩

/-- The slots of a session remember the nonces it delivered. -/
theorem remembers_tracker :
    Tracker c delivered (fun before e => replayForgotten before e = false)
      (fun r L t => t.Remembers r L) where
  handled := handledKey_of_delivered
  frame {r L t n} hne h :=
    { window := fun d slot hslot => h.window_append hslot fun hn => hne hn.1
      seen := fun d slot hslot => (h.seen d slot hslot).imp fun _ hq => List.mem_append_left _ hq
      distinct := h.distinct }
  create _ :=
    { window := fun d slot hslot => by simp [TrafficState.heldSlots_create] at hslot
      seen := fun d slot hslot => by simp [TrafficState.heldSlots_create] at hslot
      distinct := fun d => List.nodup_nil }
  sync {tr e key s sel ms} _ _ _ _ h := h.of_sublist (TrafficState.heldSlots_sync s ms)
  encrypt {tr e h packet clock key s p} _ hin _ _ _ _ _ hL := by
    have hnone : delivered e = none := by simp [delivered, hin]
    simp only [hnone, Option.toList_none, List.append_nil, reduceCtorEq, false_implies,
      implies_true, and_true]
    refine hL.of_sublist fun d => ?_
    rw [TrafficState.heldSlots_encrypt]
  decrypt {tr e h packet clock key s p} hforgotten hin hp hauth hkey hs hout hL := by
    rcases s.decrypt_delivers (c := c) key.serverPeerId key.peerId s.clientAlgorithm packet clock
      with ⟨hdelivers, b, frame, hframe⟩ | ⟨hsub, hdropped⟩
    · have hsome : delivered e = some (frameNonce s.rootKey packet) := by
        simp [delivered, hin, hout, hframe, hdelivers.encrypted, World.session, hp, hkey, hs]
      have hevict : ({ s.evictOldRxSlots clock.payloadMs with decryptFailCount := 0 } :
          TrafficState).Remembers s.rootKey (tr.filterMap delivered) :=
        hL.of_sublist fun d => s.heldSlots_evict clock.payloadMs d
      -- The frame passes the replay check, so the condition on the step applies to it.
      have hcond : (match (s.evictOldRxSlots clock.payloadMs).consulted
            (frameNonce s.rootKey packet).epoch (frameNonce s.rootKey packet).direction with
          | some window => !decide (window.InReach (frameNonce s.rootKey packet).sequence)
          | none => (tr.filterMap delivered).any fun n' =>
              n'.rootKey == (frameNonce s.rootKey packet).rootKey &&
                n'.direction == (frameNonce s.rootKey packet).direction &&
                n'.epoch == (frameNonce s.rootKey packet).epoch) = false := by
        simpa only [replayForgotten, hin, hp, hauth, hkey, hs, Option.any_some, Bool.true_and,
          hdelivers.incoming, hdelivers.precheck] using hforgotten
      have hcommit := hevict.commitReplay
        (TrafficState.commitReplay_of_precheck (t := { s.evictOldRxSlots clock.payloadMs with
          decryptFailCount := 0 }) hdelivers.precheck clock.payloadMs) ?_ ?_
      · rw [hsome, hdelivers.commit]
        exact ⟨hcommit.2, fun n hn => Option.some.inj hn ▸ hcommit.1⟩
      · intro window hwindow
        replace hwindow : (s.evictOldRxSlots clock.payloadMs).consulted _ _ = some window := hwindow
        rw [hwindow] at hcond
        simpa using hcond
      · intro hnone q hq
        replace hnone : (s.evictOldRxSlots clock.payloadMs).consulted _ _ = none := hnone
        rw [hnone] at hcond
        exact absurd hcond (by
          rw [Bool.not_eq_false, List.any_eq_true]
          exact ⟨_, hq, by simp [frameNonce]⟩)
    · have hnone : delivered e = none := by
        unfold delivered
        rw [hin, hout]
        split
        · rename_i b frame heq₁ heq₂
          cases heq₁
          rw [if_neg fun henc => hdropped henc b frame (Output.frame.inj heq₂)]
        · rfl
      simp only [hnone, Option.toList_none, List.append_nil, reduceCtorEq, false_implies,
        implies_true, and_true]
      exact hL.of_sublist hsub

/-- In every run with fresh root keys in which no frame passes the replay check after
    its epoch was forgotten, `decrypt_packet` delivers every frame at most once under
    the same root key and in the same direction. -/
theorem delivered_once (c : Crates HS) (ops : List Op)
    (hfresh : (((store c).history (store c).init ops).filterMap createdKey).Nodup)
    (hforgotten : Along (fun before e => replayForgotten before e = false)
      ((store c).history (store c).init ops)) :
    (((store c).history (store c).init ops).filterMap delivered).Nodup :=
  remembers_tracker.nodup ops hfresh hforgotten

end Delivered

open Sample

/-- Replays of a frame, at once and after a `Sync`, are not delivered. -/
theorem delivered_once_across_sync :
    ((history (connect 0 0 1 1000 ++ [receive 0 0 0 1000, receive 0 0 0 1000, receive 0 0 1 2000] ++
      connect 1 0 2 3000 ++ [receive 1 0 1 3000])).filterMap delivered).Nodup ∧
    ((history (connect 0 0 1 1000 ++ [receive 0 0 0 1000, receive 0 0 0 1000, receive 0 0 1 2000] ++
      connect 1 0 2 3000 ++ [receive 1 0 1 3000])).filterMap delivered).length = 2 :=
  ⟨delivered_once Crates.transparent _ (by decide +kernel) (by decide +kernel), by decide +kernel⟩

/-- A frame replayed thirty-nine seconds later is delivered again: its epoch's slot
    was idle and is evicted. -/
theorem replayed_after_eviction :
    ((history (connect 0 0 1 1000 ++ [receive 0 0 0 1000, receive 0 0 0 40000])).filterMap
      createdKey).Nodup ∧
    ¬((history (connect 0 0 1 1000 ++ [receive 0 0 0 1000, receive 0 0 0 40000])).filterMap
      delivered).Nodup := by
  constructor
  · decide +kernel
  · decide +kernel

end EasyTierEdge
