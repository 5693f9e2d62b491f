import EasyTierEdge.Secure.Tracking

/-!
# Nonces of the frames sent

A frame is numbered by the send epoch of its session and the next sequence of its
direction. Sequences go up by one with every frame; a rotation raises the epoch and
goes on counting; a `Sync` raises the epoch above all known ones and starts over.
So the numbers of a session pass every number they gave out before (`Passed`), as
long as the epoch is not raised beyond its 32 bits: then it starts over at `0`, and
so do the sequences after a `Sync` (`epoch_wrap_reuses_nonce`).

* `nonces_distinct`: no nonce is used twice under a root key and in a direction, in
  any run in which no epoch wraps around.
-/

namespace EasyTierEdge

variable {HS : Type}

/-- The largest epoch. -/
def lastEpoch : UInt32 := 0xFFFFFFFF

namespace TrafficState

/-- The state has passed the number `sequence` of `epoch`: it will not give it out. -/
def Passed (t : TrafficState) (direction : Fin 2) (epoch : UInt32) (sequence : UInt64) : Prop :=
  epoch < t.sendEpoch ∨ epoch = t.sendEpoch ∧ sequence < t.sendSeq direction

variable {t t' : TrafficState} {direction : Fin 2} {epoch : UInt32} {sequence : UInt64}

theorem Passed.of_send (h : t.Passed direction epoch sequence) (hepoch : t'.sendEpoch = t.sendEpoch)
    (hseq : t'.sendSeq = t.sendSeq) : t'.Passed direction epoch sequence := by
  unfold Passed
  rw [hepoch, hseq]
  exact h

/-- A larger epoch passes all that was passed before. -/
theorem Passed.of_lt (h : t.Passed direction epoch sequence) (hlt : t.sendEpoch < t'.sendEpoch) :
    t'.Passed direction epoch sequence := by
  rcases h with hepoch | ⟨rfl, -⟩
  · exact .inl (UInt32.lt_trans hepoch hlt)
  · exact .inl hlt

theorem lt_add_one {epoch : UInt32} (h : epoch ≠ lastEpoch) : epoch < epoch + 1 := by
  unfold lastEpoch at h
  grind

/-- A rotation that does not wrap around passes what was passed before. -/
theorem Passed.maybeRotateEpoch (h : t.Passed direction epoch sequence) {ms : UInt64}
    (hwrap : t.rotationDue ms → t.sendEpoch ≠ lastEpoch) :
    (t.maybeRotateEpoch ms).Passed direction epoch sequence := by
  unfold TrafficState.maybeRotateEpoch
  split_ifs with hdue
  · exact h.of_lt (lt_add_one (hwrap hdue))
  · exact h.of_send rfl rfl

/-- Counting on passes what was passed before. -/
theorem Passed.update (h : t.Passed direction epoch sequence) {d : Fin 2} {next : UInt64}
    (hnext : next.toNat = (t.sendSeq d).toNat + 1) :
    ({ t with sendSeq := Function.update t.sendSeq d next } : TrafficState).Passed direction epoch
      sequence := by
  rcases h with hepoch | ⟨hepoch, hseq⟩
  · exact .inl hepoch
  · refine .inr ⟨hepoch, ?_⟩
    by_cases hd : direction = d
    · subst hd
      simp only [Function.update_self]
      rw [UInt64.lt_iff_toNat_lt] at hseq ⊢
      omega
    · simpa [Function.update_of_ne hd] using hseq

/-- Counting on passes the number given out. -/
theorem passed_update {d : Fin 2} {next : UInt64} (hnext : next.toNat = (t.sendSeq d).toNat + 1) :
    ({ t with sendSeq := Function.update t.sendSeq d next } : TrafficState).Passed d t.sendEpoch
      (t.sendSeq d) := by
  refine .inr ⟨rfl, ?_⟩
  simp only [Function.update_self]
  rw [UInt64.lt_iff_toNat_lt]
  omega

/-- The next number has not been passed. -/
theorem not_passed_next (d : Fin 2) : ¬t.Passed d t.sendEpoch (t.sendSeq d) := by
  rintro (h | ⟨-, h⟩)
  · exact UInt32.lt_irrefl _ h
  · exact UInt64.lt_irrefl _ h

end TrafficState

/-- The send epoch is at most the epoch a `Sync` starts from. -/
theorem StoredSession.sendEpoch_le_syncEpoch (s : StoredSession) : s.sendEpoch ≤ s.syncEpoch := by
  have hraise : ∀ (epoch : UInt32) (slot : EpochRxSlot),
      epoch ≤ if slot.valid then max epoch slot.epoch else epoch := by
    intro epoch slot
    split_ifs
    · exact le_max_left _ _
    · exact UInt32.le_refl _
  exact UInt32.le_trans (UInt32.le_trans (UInt32.le_trans (hraise _ _) (hraise _ _)) (hraise _ _))
    (hraise _ _)

/-- The send epoch of a session wraps around at an event: a rotation, or a `Sync`,
    raises the last epoch. -/
def epochWraps (e : StoreEvent HS) : Bool :=
  (match e.input with
    | .call h (.encryptPacket packet clock) =>
      (e.pre.peers.lookup h).any fun p => p.authenticated && p.sessionKey.any fun key =>
        (e.pre.sessions.lookup key).any fun s =>
          isOutgoing key.serverPeerId key.peerId packet && s.rotationDue clock.payloadMs &&
            s.sendEpoch == lastEpoch
    | _ => false) ||
  (selection e).any fun (key, sel) => sel.action == .sync &&
    (e.pre.sessions.lookup key).any fun s => s.syncEpoch == lastEpoch

/-- The nonces `L` under the root key `r` are passed. -/
def AllPassed (r : Key32) (L : List Nonce) (t : TrafficState) : Prop :=
  ∀ n ∈ L, n.rootKey = r → t.Passed n.direction n.epoch n.sequence

section Emitted

variable {c : Crates HS}

/-- A frame is only emitted by the session of a connection. -/
theorem handledKey_of_emitted {e : StoreEvent HS} {n : Nonce} (h : emitted e = some n) :
    ∃ key s, handledKey e = some key ∧ e.pre.sessions.lookup key = some s ∧
      n.rootKey = s.rootKey := by
  unfold emitted at h
  split at h
  · rename_i h' packet clock frame hin hout
    obtain ⟨s, hs, rfl⟩ := Option.map_eq_some_iff.1 h
    simp only [World.session, Option.bind_eq_bind, Option.bind_eq_some_iff] at hs
    obtain ⟨p, hp, key, hkey, hs⟩ := hs
    exact ⟨key, s, by simp [handledKey, hin, hout, hp, hkey], hs, rfl⟩
  · cases h

/-- The frames a session emits, and what it has passed, when its epoch does not wrap
    around. -/
theorem AllPassed.encrypt {s : StoredSession} {L : List Nonce}
    (hL : AllPassed s.rootKey L s.toTrafficState) (server client : UInt32) (packet : Bytes)
    (clock : PacketClock)
    (hwrap : ∀ header payload, Outgoing server client packet header payload →
      s.rotationDue clock.payloadMs → s.sendEpoch ≠ lastEpoch) :
    AllPassed s.rootKey L (s.encrypt c server client packet clock).2.toTrafficState ∧
    ∀ frame, (s.encrypt c server client packet clock).1 = .ok frame →
      frameNonce s.rootKey frame ∉ L ∧
      AllPassed s.rootKey [frameNonce s.rootKey frame]
        (s.encrypt c server client packet clock).2.toTrafficState := by
  rcases s.encrypt_cases c server client packet clock with ⟨e, heq⟩ | ⟨header, payload, hout, heq⟩
  · rw [heq]
    exact ⟨hL, fun _ h => by cases h⟩
  · have hrotated : AllPassed s.rootKey L (s.maybeRotateEpoch clock.payloadMs) :=
      fun n hn hr => (hL n hn hr).maybeRotateEpoch (hwrap header payload hout)
    rw [heq]
    rcases s.encryptPayload_cases c (some s.rootKey) serverEncryptionAlgorithm
      (directionIndex server client) payload clock.payloadMs with
      ⟨e, henc⟩ | ⟨next, result, hnext, henc, hnonce⟩
    · rw [henc]
      exact ⟨hrotated, fun _ h => by cases h⟩
    · rw [henc]
      refine ⟨fun n hn hr => (hrotated n hn hr).update hnext, fun frame hframe => ?_⟩
      obtain ⟨encrypted, rfl, rfl⟩ := Except.map_eq_ok.1 hframe
      have hframe : frameNonce s.rootKey (joinHeaderPayload
          { header with flags := header.flags ||| encryptedFlag } encrypted) =
          ⟨s.rootKey, directionIndex server client, (s.maybeRotateEpoch clock.payloadMs).sendEpoch,
            (s.maybeRotateEpoch clock.payloadMs).sendSeq (directionIndex server client)⟩ := by
        simp only [frameNonce, frameDirection, fromBytes_joinHeaderPayload, drop_joinHeaderPayload,
          hnonce encrypted rfl, hout.fromPeerId, hout.toPeerId]
      rw [hframe]
      refine ⟨fun hmem => ?_, fun n hn _ => ?_⟩
      · exact TrafficState.not_passed_next _ (hrotated _ hmem rfl)
      · obtain rfl := List.mem_singleton.1 hn
        exact TrafficState.passed_update hnext

/-- The traffic states pass the nonces emitted. -/
theorem passed_tracker : Tracker c emitted (fun _ e => epochWraps e = false) AllPassed where
  handled := handledKey_of_emitted
  frame {r L t n} hne hL m hm hr := by
    rw [List.mem_append, List.mem_singleton] at hm
    rcases hm with hm | rfl
    · exact hL m hm hr
    · exact absurd hr hne
  create hL n hn hr := absurd hr (hL n hn)
  sync {tr e key s sel ms} hwrap hs hsel haction hL n hn hr := by
    have hne : s.syncEpoch ≠ lastEpoch := fun heq => by
      simp [epochWraps, hsel, haction, hs, heq] at hwrap
    refine (hL n hn hr).of_lt ?_
    exact UInt32.lt_of_le_of_lt s.sendEpoch_le_syncEpoch (TrafficState.lt_add_one hne)
  encrypt {tr e h packet clock key s p} hwrap hin hp hauth hkey hs hout hL := by
    have hencrypt := hL.encrypt (c := c) key.serverPeerId key.peerId packet clock
      fun header payload hgoing hdue hlast => by
        simp [epochWraps, hin, hp, hauth, hkey, hs, hgoing.isOutgoing, hdue, hlast] at hwrap
    cases hframe : (s.encrypt c key.serverPeerId key.peerId packet clock).1 with
    | error e' =>
      have hnone : emitted e = none := by simp [emitted, hin, hout, hframe]
      simp only [hnone, Option.toList_none, List.append_nil, reduceCtorEq, false_implies,
        implies_true, and_true]
      exact hencrypt.1
    | ok frame =>
      have hsome : emitted e = some (frameNonce s.rootKey frame) := by
        simp [emitted, hin, hout, hframe, World.session, hp, hkey, hs]
      obtain ⟨hnew, hpassed⟩ := hencrypt.2 frame hframe
      rw [hsome]
      refine ⟨fun n hn hr => ?_, fun n hn => Option.some.inj hn ▸ hnew⟩
      rcases List.mem_append.1 hn with hn | hn
      · exact hencrypt.1 n hn hr
      · exact hpassed n (by simpa using hn) hr
  decrypt {tr e h packet clock key s p} hwrap hin hp hauth hkey hs hout hL := by
    have hnone : emitted e = none := by simp [emitted, hin]
    simp only [hnone, Option.toList_none, List.append_nil, reduceCtorEq, false_implies,
      implies_true, and_true]
    have hsend := s.decrypt_send c key.serverPeerId key.peerId s.clientAlgorithm packet clock
    exact fun n hn hr => (hL n hn hr).of_send hsend.1 hsend.2

/-- In every run with fresh root keys in which no send epoch wraps around, all frames
    that `encrypt_packet` returns under the same root key and in the same direction
    carry different nonces. -/
theorem nonces_distinct (c : Crates HS) (ops : List Op)
    (hfresh : (((store c).history (store c).init ops).filterMap createdKey).Nodup)
    (hwrap : Along (fun _ e => epochWraps e = false) ((store c).history (store c).init ops)) :
    (((store c).history (store c).init ops).filterMap emitted).Nodup :=
  passed_tracker.nodup ops hfresh hwrap

end Emitted

open Sample

/-- Three frames of a session, one of them after a `Sync`, carry different nonces. -/
theorem nonces_distinct_across_sync :
    ((history (connect 0 0 1 1000 ++ [send 0 1000, send 0 2000] ++ connect 1 0 2 3000 ++
      [send 1 3000])).filterMap emitted).Nodup ∧
    ((history (connect 0 0 1 1000 ++ [send 0 1000, send 0 2000] ++ connect 1 0 2 3000 ++
      [send 1 3000])).filterMap emitted).length = 3 :=
  ⟨nonces_distinct Crates.transparent _ (by decide +kernel) (by decide +kernel), by decide +kernel⟩

/-- A client whose first frame has the last epoch makes the next `Sync` start over:
    the nonce of the first frame is used again, under the same root key. -/
theorem epoch_wrap_reuses_nonce :
    ((history (connect 0 0 1 1000 ++ [send 0 1000, receive 0 lastEpoch 0 1000] ++ hello 1 0 2 2000 ++
      [send 0 2000])).filterMap createdKey).Nodup ∧
    ¬((history (connect 0 0 1 1000 ++ [send 0 1000, receive 0 lastEpoch 0 1000] ++ hello 1 0 2 2000 ++
      [send 0 2000])).filterMap emitted).Nodup := by
  constructor
  · decide +kernel
  · decide +kernel

end EasyTierEdge
