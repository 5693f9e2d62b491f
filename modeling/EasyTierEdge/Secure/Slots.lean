import EasyTierEdge.Secure.History

/-!
# The order of the receive slots

Of the two slots of a direction the second one is to hold an older epoch than the first one,
and to be used only together with it; then an epoch is in one slot at most, and that slot is
the one a frame is checked against. An eviction looks at each slot by itself. When it clears
a first slot that was idle and keeps the second one, which late frames of the older epoch have
kept in use, the order is lost, and with it what the second slot remembers
(`epoch_in_both_slots`).

* `Ordered`, `SlotsOrdered`: the slots are in order;
* `SlotsOrdered.window`: then the window of an epoch is the one that is consulted and updated;
* `slots_ordered`: so it is in every session of every run in which no eviction clears a first
  slot only.
-/

namespace EasyTierEdge

variable {HS : Type}

namespace TrafficState

/-- The second slot is used with the first one only, and for an older epoch. -/
def Ordered (slots : Fin 2 → EpochRxSlot) : Prop :=
  (slots second).valid → (slots first).valid ∧ (slots second).epoch < (slots first).epoch

/-- The slots of a session are in order, and the grace copy has no epoch of the others. -/
structure SlotsOrdered (t : TrafficState) : Prop where
  rx : ∀ d, Ordered (t.rxSlots d)
  grace : ∀ d, Ordered (t.syncRxGrace.slots d)
  apart : t.syncRxGrace.valid → ∀ d i j, (t.syncRxGrace.slots d i).valid → (t.rxSlots d j).valid →
    (t.syncRxGrace.slots d i).epoch ≠ (t.rxSlots d j).epoch

/-! ## The window of an epoch -/

/-- Where a slot of a direction is. -/
inductive Place
  | grace (i : Fin 2)
  | rx (i : Fin 2)
  deriving DecidableEq

/-- The slot at a place. -/
def slotAt (t : TrafficState) (direction : Fin 2) : Place → EpochRxSlot
  | .grace i => t.syncRxGrace.slots direction i
  | .rx i => t.rxSlots direction i

/-- The slot at a place replaced. -/
def setSlot (t : TrafficState) (direction : Fin 2) (place : Place) (slot : EpochRxSlot) :
    TrafficState :=
  match place with
  | .grace i => t.setGraceSlot direction i slot
  | .rx i => t.setRxSlots direction (Function.update (t.rxSlots direction) i slot)

/-- The slot at a place holds the window of `epoch`. -/
def HoldsAt (t : TrafficState) (direction : Fin 2) (epoch : UInt32) : Place → Prop
  | .grace i => t.syncRxGrace.valid ∧ (t.syncRxGrace.slots direction i).holds epoch
  | .rx i => (t.rxSlots direction i).holds epoch

/-- An epoch is at one place at most, and the window there is the one that its sequences are
    checked against and committed to. -/
def OneWindow (t : TrafficState) : Prop :=
  ∀ direction epoch place, t.HoldsAt direction epoch place →
    (∀ place', t.HoldsAt direction epoch place' → place' = place) ∧
    ∀ sequence ms,
      t.precheckReplay epoch sequence direction =
          (t.slotAt direction place).window.canAccept sequence ∧
        t.commitReplay epoch sequence direction ms =
          (t.setSlot direction place ((t.slotAt direction place).accept sequence ms).1,
            ((t.slotAt direction place).accept sequence ms).2)

section Window

variable {t : TrafficState} {direction : Fin 2} {epoch : UInt32}

theorem holds_iff {slot : EpochRxSlot} : slot.holds epoch ↔ slot.valid ∧ slot.epoch = epoch := by
  simp [EpochRxSlot.holds]

/-- Slots in order hold an epoch once. -/
theorem Ordered.eq_of_holds {slots : Fin 2 → EpochRxSlot} (h : Ordered slots) {i j : Fin 2}
    (hi : (slots i).holds epoch) (hj : (slots j).holds epoch) : i = j := by
  rw [holds_iff] at hi hj
  have hdiff : (slots second).valid → (slots second).epoch ≠ (slots first).epoch :=
    fun hv => (h hv).2.ne
  fin_cases i <;> fin_cases j
  · rfl
  · exact absurd (hj.2.trans hi.2.symm) (hdiff hj.1)
  · exact absurd (hi.2.trans hj.2.symm) (hdiff hi.1)
  · rfl

/-- The search finds the slot that holds an epoch. -/
theorem Ordered.findSlot {slots : Fin 2 → EpochRxSlot} (h : Ordered slots) {i : Fin 2}
    (hi : (slots i).holds epoch) : findSlot slots epoch = some i := by
  cases hfind : TrafficState.findSlot slots epoch with
  | none =>
    rw [holds_iff] at hi
    exact absurd hi.2 (findSlot_eq_none hfind i hi.1)
  | some j => rw [h.eq_of_holds hi (holds_iff.2 (findSlot_eq_some hfind))]

/-- With the slots in order every window in use is the one that counts. -/
theorem SlotsOrdered.window (h : t.SlotsOrdered) : t.OneWindow := by
  intro direction epoch place hplace
  cases place with
  | grace i =>
    obtain ⟨hvalid, hi⟩ := hplace
    have hgrace : t.graceSlot epoch direction = some i := by
      rw [graceSlot, if_pos hvalid]
      exact (h.grace direction).findSlot hi
    refine ⟨fun place' hplace' => ?_, fun sequence ms => ⟨?_, ?_⟩⟩
    · cases place' with
      | grace j => rw [(h.grace direction).eq_of_holds hi hplace'.2]
      | rx j =>
        have hj : (t.rxSlots direction j).holds epoch := hplace'
        rw [holds_iff] at hi hj
        exact absurd (hi.2.trans hj.2.symm) (h.apart hvalid direction i j hi.1 hj.1)
    · simp only [precheckReplay, hgrace, slotAt]
    · simp only [commitReplay, hgrace, slotAt, setSlot]
  | rx i =>
    have hi : (t.rxSlots direction i).holds epoch := hplace
    have hfind := (h.rx direction).findSlot hi
    have hgrace : t.graceSlot epoch direction = none := by
      unfold graceSlot
      split_ifs with hvalid
      · -- A grace slot with this epoch would share it with the slot at `i`.
        rw [← Option.not_isSome_iff_eq_none, Option.isSome_iff_exists]
        rintro ⟨j, hj⟩
        obtain ⟨hjv, hje⟩ := findSlot_eq_some hj
        rw [holds_iff] at hi
        exact h.apart hvalid direction j i hjv hi.1 (hje.trans hi.2.symm)
      · rfl
    have hfirst : (t.rxSlots direction first).valid := by
      rw [holds_iff] at hi
      fin_cases i
      · exact hi.1
      · exact (h.rx direction hi.1).1
    refine ⟨fun place' hplace' => ?_, fun sequence ms => ⟨?_, ?_⟩⟩
    · cases place' with
      | grace j =>
        rw [holds_iff] at hi
        have hj := holds_iff.1 hplace'.2
        exact absurd (hj.2.trans hi.2.symm) (h.apart hplace'.1 direction j i hj.1 hi.1)
      | rx j => rw [(h.rx direction).eq_of_holds hi hplace']
    · exact precheckReplay_of_held hgrace hfirst hfind
    · have hcases := commitReplay_cases t epoch sequence direction ms
      generalize t.commitReplay epoch sequence direction ms = r at hcases
      cases hcases with
      | grace hsome => rw [hgrace] at hsome; cases hsome
      | first _ hfree => rw [hfirst] at hfree; cases hfree
      | held _ _ hheld =>
        obtain rfl := Option.some.inj (hfind.symm.trans hheld)
        rfl
      | newer _ _ hnone => rw [hfind] at hnone; cases hnone
      | older _ _ hnone => rw [hfind] at hnone; cases hnone

end Window

/-! ## What keeps the order -/

section Kept

variable {t t' : TrafficState} {direction : Fin 2} {epoch : UInt32} {sequence : UInt64} {ms : UInt64}

/-- The order only depends on which epochs are in use where. -/
theorem SlotsOrdered.congr (h : t.SlotsOrdered)
    (hrx : ∀ d i, (t'.rxSlots d i).valid = (t.rxSlots d i).valid ∧
      (t'.rxSlots d i).epoch = (t.rxSlots d i).epoch)
    (hgrace : ∀ d i, (t'.syncRxGrace.slots d i).valid = (t.syncRxGrace.slots d i).valid ∧
      (t'.syncRxGrace.slots d i).epoch = (t.syncRxGrace.slots d i).epoch)
    (hvalid : t'.syncRxGrace.valid = t.syncRxGrace.valid) : t'.SlotsOrdered where
  rx d := by
    simp only [Ordered, hrx]
    exact h.rx d
  grace d := by
    simp only [Ordered, hgrace]
    exact h.grace d
  apart := by
    simp only [hvalid, hrx, hgrace]
    exact h.apart

/-- The eviction at `ms` clears the first one of two slots and keeps the second one. -/
def clearsFirstOnly (slots : Fin 2 → EpochRxSlot) (ms : UInt64) : Bool :=
  (slots first).valid && !((slots first).evict ms).valid && ((slots second).evict ms).valid

/-- The eviction at `ms` clears the first slot only, in one of the pairs it looks at. -/
def evictsFirstOnly (t : TrafficState) (ms : UInt64) : Bool :=
  [first, second].any fun d => clearsFirstOnly (t.rxSlots d) ms ||
    (t.syncRxGrace.valid && decide (ms < t.syncRxGrace.expiresAtMs) &&
      clearsFirstOnly (t.syncRxGrace.slots d) ms)

theorem evict_eq_or (slot : EpochRxSlot) (ms : UInt64) :
    slot.evict ms = slot ∨ slot.evict ms = default := by
  unfold EpochRxSlot.evict
  split_ifs
  · exact .inr rfl
  · exact .inl rfl

theorem Ordered.evict {slots : Fin 2 → EpochRxSlot} (h : Ordered slots)
    (hms : clearsFirstOnly slots ms = false) : Ordered fun i => (slots i).evict ms := by
  intro hsecond
  rcases evict_eq_or (slots second) ms with heq | heq
  · -- The second slot is kept, so the first one is.
    obtain ⟨hfirst, hlt⟩ := h (heq ▸ hsecond)
    rcases evict_eq_or (slots first) ms with heq₀ | heq₀
    · simp only [heq, heq₀]
      exact ⟨hfirst, hlt⟩
    · simp [clearsFirstOnly, hfirst, heq₀, hsecond, default] at hms
  · simp [heq, default] at hsecond

theorem evictsFirstOnly_eq_false (h : t.evictsFirstOnly ms = false) (d : Fin 2) :
    clearsFirstOnly (t.rxSlots d) ms = false ∧
      (t.syncRxGrace.valid → ms < t.syncRxGrace.expiresAtMs →
        clearsFirstOnly (t.syncRxGrace.slots d) ms = false) := by
  have hall : ∀ d : Fin 2, (clearsFirstOnly (t.rxSlots d) ms ||
      (t.syncRxGrace.valid && decide (ms < t.syncRxGrace.expiresAtMs) &&
        clearsFirstOnly (t.syncRxGrace.slots d) ms)) = false := by
    intro d
    have hd : d ∈ [first, second] := by
      fin_cases d
      · exact List.mem_cons_self
      · exact List.mem_cons_of_mem _ List.mem_cons_self
    exact Bool.eq_false_iff.2 (List.any_eq_false.1 h d hd)
  obtain ⟨hrx, hgrace⟩ := Bool.or_eq_false_iff.1 (hall d)
  refine ⟨hrx, fun hvalid hms => ?_⟩
  simpa [hvalid, hms] using hgrace

theorem SlotsOrdered.evict (h : t.SlotsOrdered) (hms : t.evictsFirstOnly ms = false) :
    (t.evictOldRxSlots ms).SlotsOrdered := by
  have hrx : ∀ d, Ordered (evictSlots t.rxSlots ms d) :=
    fun d => (h.rx d).evict (evictsFirstOnly_eq_false hms d).1
  -- A slot that is valid after the eviction is the one there was.
  have hkept : ∀ slot : EpochRxSlot, (slot.evict ms).valid → slot.valid ∧
      (slot.evict ms).epoch = slot.epoch := by
    intro slot hv
    rcases evict_eq_or slot ms with heq | heq
    · exact ⟨heq ▸ hv, by rw [heq]⟩
    · rw [heq] at hv
      cases hv
  unfold evictOldRxSlots
  simp only
  split_ifs with hexpired hvalid
  · exact ⟨hrx, fun _ hv => (nomatch hv), fun hv => (nomatch hv)⟩
  · have hlive : ms < t.syncRxGrace.expiresAtMs := by
      simpa [hvalid] using hexpired
    refine ⟨hrx, fun d => ?_, fun _ d i j hi hj => ?_⟩
    · exact (h.grace d).evict ((evictsFirstOnly_eq_false hms d).2 hvalid hlive)
    · obtain ⟨hi', hie⟩ := hkept _ hi
      obtain ⟨hj', hje⟩ := hkept _ hj
      simp only [evictSlots, hie, hje]
      exact h.apart hvalid d i j hi' hj'
  · exact ⟨hrx, h.grace, fun hv => absurd hv hvalid⟩

/-- No grace slot in use holds an epoch that the search does not find. -/
theorem epoch_ne_of_graceSlot (hgrace : t.graceSlot epoch direction = none)
    (hvalid : t.syncRxGrace.valid) {i : Fin 2} (hi : (t.syncRxGrace.slots direction i).valid) :
    (t.syncRxGrace.slots direction i).epoch ≠ epoch := by
  rw [graceSlot, if_pos hvalid] at hgrace
  exact findSlot_eq_none hgrace i hi

/-- New slots for a direction, in order and with no epoch of the grace copy. -/
theorem SlotsOrdered.setRxSlots (h : t.SlotsOrdered) {slots : Fin 2 → EpochRxSlot}
    (hslots : Ordered slots)
    (hapart : t.syncRxGrace.valid → ∀ i j, (t.syncRxGrace.slots direction i).valid →
      (slots j).valid → (t.syncRxGrace.slots direction i).epoch ≠ (slots j).epoch) :
    (t.setRxSlots direction slots).SlotsOrdered := by
  refine ⟨fun d => ?_, h.grace, fun hvalid d i j hi hj => ?_⟩
  · by_cases hd : d = direction
    · subst hd
      simpa [TrafficState.setRxSlots] using hslots
    · simpa [TrafficState.setRxSlots, Function.update_of_ne hd] using h.rx d
  · by_cases hd : d = direction
    · subst hd
      simp only [TrafficState.setRxSlots, Function.update_self] at hj ⊢
      exact hapart hvalid i j hi hj
    · simp only [TrafficState.setRxSlots, Function.update_of_ne hd] at hj ⊢
      exact h.apart hvalid d i j hi hj

theorem SlotsOrdered.commit (h : t.SlotsOrdered) :
    (t.commitReplay epoch sequence direction ms).1.SlotsOrdered := by
  have hcases := commitReplay_cases t epoch sequence direction ms
  generalize t.commitReplay epoch sequence direction ms = r at hcases
  cases hcases with
  | @grace i hgrace =>
    refine h.congr (fun d j => ⟨rfl, rfl⟩) (fun d j => ?_) rfl
    by_cases hd : d = direction
    · subst hd
      by_cases hj : j = i
      · subst hj
        simp [setGraceSlot, EpochRxSlot.accept]
      · simp [setGraceSlot, Function.update_of_ne hj]
    · simp [setGraceSlot, Function.update_of_ne hd]
  | first hgrace hfree =>
    -- With the first slot free the second one is, too.
    have hsecond : (t.rxSlots direction second).valid = false := by
      rw [Bool.eq_false_iff]
      intro hv
      rw [((h.rx direction) hv).1] at hfree
      cases hfree
    refine h.setRxSlots (fun hv => ?_) fun hvalid i j hi hj => ?_
    · rw [Function.update_of_ne one_ne_zero, hsecond] at hv
      cases hv
    · fin_cases j
      · simpa [EpochRxSlot.accept, EpochRxSlot.fresh] using epoch_ne_of_graceSlot hgrace hvalid hi
      · replace hj : (t.rxSlots direction second).valid = true := by simpa using hj
        rw [hsecond] at hj
        cases hj
  | @held i hgrace hvalid₀ hfind =>
    refine h.congr (fun d j => ?_) (fun d j => ⟨rfl, rfl⟩) rfl
    by_cases hd : d = direction
    · subst hd
      by_cases hj : j = i
      · subst hj
        simp [TrafficState.setRxSlots, EpochRxSlot.accept]
      · simp [TrafficState.setRxSlots, Function.update_of_ne hj]
    · simp [TrafficState.setRxSlots, Function.update_of_ne hd]
  | newer hgrace hvalid₀ hfind hlt =>
    refine h.setRxSlots (fun _ => ⟨rfl, hlt⟩) fun hvalid i j hi hj => ?_
    fin_cases j
    · exact epoch_ne_of_graceSlot hgrace hvalid hi
    · exact h.apart hvalid direction i first hi hvalid₀
  | older => exact h

variable {c : Crates HS}

/-- Decrypting keeps the order, if its eviction does. -/
theorem SlotsOrdered.decryptPayload (h : t.SlotsOrdered) (rootKey : Option Key32)
    (algorithm : String) (direction : Fin 2) {payload : Bytes}
    (hms : aeadTailSize ≤ payload.length → t.evictsFirstOnly ms = false) :
    (t.decryptPayload c rootKey algorithm direction payload ms).2.SlotsOrdered := by
  by_cases hlen : payload.length < aeadTailSize
  · rw [TrafficState.decryptPayload, if_pos hlen]
    exact h
  have hevict := h.evict (hms (not_lt.1 hlen))
  have hcases := t.decryptPayload_cases (c := c) rootKey algorithm direction payload ms
  generalize t.decryptPayload c rootKey algorithm direction payload ms = r at hcases
  cases hcases with
  | short => exact h
  | dropped => exact hevict.congr (fun _ _ => ⟨rfl, rfl⟩) (fun _ _ => ⟨rfl, rfl⟩) rfl
  | delivered =>
    have hreset : ({ t.evictOldRxSlots ms with decryptFailCount := 0 } :
        TrafficState).SlotsOrdered :=
      hevict.congr (fun _ _ => ⟨rfl, rfl⟩) (fun _ _ => ⟨rfl, rfl⟩) rfl
    exact hreset.commit

/-- Encrypting leaves the receive slots. -/
theorem SlotsOrdered.encryptPayload (h : t.SlotsOrdered) (rootKey : Option Key32)
    (algorithm : String) (direction : Fin 2) (plaintext : Bytes) (ms : UInt64) :
    (t.encryptPayload c rootKey algorithm direction plaintext ms).2.SlotsOrdered := by
  have hrotate : (t.maybeRotateEpoch ms).SlotsOrdered := by
    unfold maybeRotateEpoch
    split_ifs
    · exact h.congr (fun _ _ => ⟨rfl, rfl⟩) (fun _ _ => ⟨rfl, rfl⟩) rfl
    · exact h.congr (fun _ _ => ⟨rfl, rfl⟩) (fun _ _ => ⟨rfl, rfl⟩) rfl
  rcases encryptPayload_cases c t rootKey algorithm direction plaintext ms with
    ⟨e, heq⟩ | ⟨next, result, -, heq, -⟩
  · rw [heq]
    exact hrotate
  · rw [heq]
    exact hrotate.congr (fun _ _ => ⟨rfl, rfl⟩) (fun _ _ => ⟨rfl, rfl⟩) rfl

/-- A `Sync` moves the slots to the grace copy. -/
theorem SlotsOrdered.sync {s : StoredSession} (h : s.SlotsOrdered) (ms : UInt64) :
    (s.sync ms).SlotsOrdered :=
  ⟨fun _ hv => (nomatch hv), h.rx, fun _ _ _ _ _ hj => (nomatch hj)⟩

theorem slotsOrdered_create (rootKey : Key32) (algorithm : String) (ms : UInt64) :
    (StoredSession.create rootKey algorithm ms).SlotsOrdered :=
  ⟨fun _ hv => (nomatch hv), fun _ hv => (nomatch hv), fun hv => (nomatch hv)⟩

end Kept

end TrafficState

/-! ## Runs -/

/-- A packet that is decrypted makes its session evict the first slot only. -/
def losesOrder (e : StoreEvent HS) : Bool :=
  match e.input with
  | .call h (.decryptPacket packet clock) =>
    (e.pre.peers.lookup h).any fun p => p.authenticated && p.sessionKey.any fun key =>
      (e.pre.sessions.lookup key).any fun s =>
        isIncoming key.serverPeerId key.peerId packet &&
          decide (headerSize + aeadTailSize ≤ packet.length) && s.evictsFirstOnly clock.payloadMs
  | _ => false

section Runs

variable {c : Crates HS} {w : World HS}

/-- How a session comes about keeps the order of its slots. -/
theorem Became.slotsOrdered {e : StoreEvent HS} {key : SessionKey} {s' : StoredSession}
    (h : Became c e key s')
    (hpre : ∀ s, e.pre.sessions.lookup key = some s → s.SlotsOrdered)
    (he : losesOrder e = false) : s'.SlotsOrdered := by
  cases h with
  | kept _ hs _ _ htraffic =>
    rw [htraffic]
    exact hpre _ hs
  | synced hs _ _ _ _ htraffic =>
    rw [htraffic]
    exact (hpre _ hs).sync _
  | created _ _ htraffic =>
    rw [htraffic]
    exact TrafficState.slotsOrdered_create _ _ _
  | @encrypted h p packet clock s _ _ _ _ hs =>
    rcases s.encrypt_cases c key.serverPeerId key.peerId packet clock with
      ⟨e, heq⟩ | ⟨header, payload, -, heq⟩
    · rw [heq]
      exact hpre _ hs
    · rw [heq]
      exact (hpre _ hs).encryptPayload _ _ _ _ _
  | @decrypted h p packet clock s hin hp hauth hkey hs =>
    rcases s.decrypt_cases c key.serverPeerId key.peerId s.clientAlgorithm packet clock with
      ⟨e, heq⟩ | ⟨heq, -⟩ | ⟨header, payload, hincoming, heq⟩
    · rw [heq]
      exact hpre _ hs
    · rw [heq]
      exact hpre _ hs
    · rw [heq]
      refine (hpre _ hs).decryptPayload _ _ _ fun hlen => ?_
      -- The packet is one that the condition on the step is about.
      obtain ⟨-, hpayload⟩ := splitPacket_eq_ok hincoming.split
      have hlong : headerSize + aeadTailSize ≤ packet.length := by
        rw [hpayload, List.length_drop] at hlen
        have htail : 0 < aeadTailSize := by decide
        omega
      simpa only [losesOrder, hin, hp, hauth, hkey, hs, Option.any_some, Bool.true_and,
        hincoming.isIncoming, decide_eq_true hlong] using he

/-- In every run in which no eviction clears a first slot only, the slots of every stored
    session are in order, and the window of an epoch is the one that counts. -/
theorem slots_ordered (c : Crates HS) (ops : List Op)
    (hops : Along (fun _ e => losesOrder e = false) ((store c).history (store c).init ops))
    (key : SessionKey) (s : StoredSession)
    (hs : ((store c).run (store c).init ops).sessions.lookup key = some s) :
    s.SlotsOrdered ∧ s.OneWindow := by
  have hrun : (∀ key s, ((store c).run (store c).init ops).sessions.lookup key = some s →
      s.SlotsOrdered) ∧ (store c).Reachable ((store c).run (store c).init ops) := by
    refine Machine.history_invariant (m := store c) (P := fun _ w =>
      (∀ key s, w.sessions.lookup key = some s → s.SlotsOrdered) ∧ (store c).Reachable w)
      ⟨fun key s hs => by simp [store] at hs, (store c).reachable_init⟩ ?_ ops hops
    rintro tr w op ⟨hw, hreach⟩ he
    refine ⟨fun key s hs => ?_, hreach.step op⟩
    exact (became (consistent_of_reachable hreach) op hs).slotsOrdered (hw key) he
  exact ⟨hrun.1 key s hs, (hrun.1 key s hs).window⟩

end Runs

open Sample

/-- Frames of two epochs, late ones among them, and of the epoch after a `Sync`. -/
def promotedRun : List Op :=
  connect 0 0 1 1000 ++ [receive 0 0 0 1000, receive 0 1 1 2000, receive 0 0 2 3000] ++
    connect 1 0 2 4000 ++ [receive 1 1 3 4000, receive 1 2 0 5000]

theorem slots_ordered_promoted :
    (((world promotedRun).sessions.lookup sessionKey).any fun s =>
      (s.syncRxGrace.slots second second).valid && (s.rxSlots second first).epoch == 2) = true ∧
    (∀ s ∈ (world promotedRun).sessions.lookup sessionKey, s.SlotsOrdered ∧ s.OneWindow) := by
  refine ⟨by decide +kernel, fun s hs => ?_⟩
  exact slots_ordered Crates.transparent promotedRun (by decide +kernel) sessionKey s hs

/-- A frame of epoch `1` arrives, and late ones of epoch `0`. More than thirty seconds after the
    former the last one is replayed. -/
def lateRun : List Op :=
  connect 0 0 1 1000 ++
    [receive 0 0 0 1000, receive 0 1 1 2000, receive 0 0 2 25000, receive 0 0 2 40000]

/-- The replay finds the slot of epoch `1` evicted, and does not look at the second slot: it is
    delivered again, and both slots are of epoch `0`. -/
theorem epoch_in_both_slots :
    (((world lateRun).sessions.lookup sessionKey).any fun s =>
      (s.rxSlots second first).holds 0 && (s.rxSlots second second).holds 0) = true ∧
    ¬∀ s ∈ (world lateRun).sessions.lookup sessionKey, s.SlotsOrdered ∧ s.OneWindow := by
  have hboth : (((world lateRun).sessions.lookup sessionKey).any fun s =>
      (s.rxSlots second first).holds 0 && (s.rxSlots second second).holds 0) = true := by
    decide +kernel
  refine ⟨hboth, fun hall => ?_⟩
  obtain ⟨s, hs, hholds⟩ := (Option.any_eq_true _ _).1 hboth
  rw [Bool.and_eq_true] at hholds
  have heq := ((hall s hs).1.rx second).eq_of_holds hholds.1 hholds.2
  exact absurd heq (by decide)

end EasyTierEdge
