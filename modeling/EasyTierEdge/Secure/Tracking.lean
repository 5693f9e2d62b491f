import EasyTierEdge.Secure.Attachments
import EasyTierEdge.Secure.History

/-!
# Tracking nonces along a run

Two questions about the nonces of a run have the same answer: that no nonce is
emitted twice and that none is delivered twice. In both cases the traffic state of
a stored session bounds, or remembers, the nonces seen so far under its root key.
A `Tracker` is such a relation `P`, with a proof that every way a session comes
about keeps it; `Tracker.nodup` concludes that no nonce is seen twice.

Root keys are assumed fresh: no two sessions are created with the same one. Then
no two stored sessions share a root key, and the nonces seen under the root key of
a session are all its own.
-/

namespace EasyTierEdge

variable {HS : Type}

/-- The root keys of the stored sessions: all created in the run, and distinct. -/
structure RootKeys (tr : List (StoreEvent HS)) (w : World HS) : Prop where
  created : ∀ key s, w.sessions.lookup key = some s → s.rootKey ∈ tr.filterMap createdKey
  distinct : ∀ key key' s s', w.sessions.lookup key = some s → w.sessions.lookup key' = some s' →
    s.rootKey = s'.rootKey → key = key'

/-- An event creates no root key of an earlier one. -/
def FreshKey (tr : List (StoreEvent HS)) (e : StoreEvent HS) : Prop :=
  ∀ r, createdKey e = some r → r ∉ tr.filterMap createdKey

/-- The nonces that `obs` shows are tracked by the traffic states of the stored
    sessions: `P r L t` relates the nonces `L` seen so far to the traffic state `t`
    of the session with root key `r`. The steps may be assumed to meet `C`. -/
structure Tracker (c : Crates HS) (obs : StoreEvent HS → Option Nonce)
    (C : List (StoreEvent HS) → StoreEvent HS → Prop)
    (P : Key32 → List Nonce → TrafficState → Prop) : Prop where
  /-- A nonce is seen under the root key of the session that handles the packet. -/
  handled : ∀ {e n}, obs e = some n →
    ∃ key s, handledKey e = some key ∧ e.pre.sessions.lookup key = some s ∧ n.rootKey = s.rootKey
  /-- The nonces under other root keys do not matter. -/
  frame : ∀ {r L t n}, n.rootKey ≠ r → P r L t → P r (L ++ [n]) t
  create : ∀ {r L algorithm ms}, (∀ n ∈ L, n.rootKey ≠ r) →
    P r L (StoredSession.create r algorithm ms).toTrafficState
  sync : ∀ {tr e key s sel ms}, C tr e → e.pre.sessions.lookup key = some s →
    selection e = some (key, sel) → sel.action = .sync →
    P s.rootKey (tr.filterMap obs) s.toTrafficState →
    P s.rootKey (tr.filterMap obs) (s.sync ms).toTrafficState
  encrypt : ∀ {tr e h packet clock key s} {p : SecurePeer HS}, C tr e →
    e.input = .call h (.encryptPacket packet clock) → e.pre.peers.lookup h = some p →
    p.authenticated → p.sessionKey = some key → e.pre.sessions.lookup key = some s →
    e.output = .frame (s.encrypt c key.serverPeerId key.peerId packet clock).1 →
    P s.rootKey (tr.filterMap obs) s.toTrafficState →
    P s.rootKey (tr.filterMap obs ++ (obs e).toList)
      (s.encrypt c key.serverPeerId key.peerId packet clock).2.toTrafficState ∧
    ∀ n, obs e = some n → n ∉ tr.filterMap obs
  decrypt : ∀ {tr e h packet clock key s} {p : SecurePeer HS}, C tr e →
    e.input = .call h (.decryptPacket packet clock) → e.pre.peers.lookup h = some p →
    p.authenticated → p.sessionKey = some key → e.pre.sessions.lookup key = some s →
    e.output = .frame (s.decrypt c key.serverPeerId key.peerId s.clientAlgorithm packet clock).1 →
    P s.rootKey (tr.filterMap obs) s.toTrafficState →
    P s.rootKey (tr.filterMap obs ++ (obs e).toList)
      (s.decrypt c key.serverPeerId key.peerId s.clientAlgorithm packet clock).2.toTrafficState ∧
    ∀ n, obs e = some n → n ∉ tr.filterMap obs

/-- An event that creates a root key handles no packet. -/
theorem handledKey_of_selection {e : StoreEvent HS} {x : SessionKey × SessionSelection}
    (hsel : selection e = some x) : handledKey e = none := by
  obtain ⟨h, p, networkSecret, draws, m, s, hop, -⟩ := selects_of_selection hsel
  simp [handledKey, hop]

theorem createdKey_of_selection {e : StoreEvent HS} {key : SessionKey} {generation epoch : UInt32}
    {announced : Option Key32} {r : Key32}
    (hsel : selection e = some (key, ⟨.create, generation, announced, r, epoch⟩)) :
    createdKey e = some r := by
  simp [createdKey, hsel]

section RootKeys

variable {c : Crates HS} {tr : List (StoreEvent HS)} {w : World HS} {op : Op}

/-- The root key of a stored session, after a step. -/
theorem Became.rootKey {e : StoreEvent HS} {key : SessionKey} {s' : StoredSession}
    (h : Became c e key s') :
    (∃ s, e.pre.sessions.lookup key = some s ∧ s.rootKey = s'.rootKey) ∨
      (createdKey e = some s'.rootKey ∧ ∃ sel, selection e = some (key, sel)) := by
  cases h with
  | kept _ hs hroot => exact .inl ⟨_, hs, hroot.symm⟩
  | synced hs _ _ hroot => exact .inl ⟨_, hs, hroot.symm⟩
  | created hsel => exact .inr ⟨createdKey_of_selection hsel, _, hsel⟩
  | encrypted _ _ _ _ hs =>
    exact .inl ⟨_, hs, (StoredSession.rootKey_of_frame (StoredSession.encrypt_frame c _ _ _ _ _)).symm⟩
  | decrypted _ _ _ _ hs =>
    exact .inl ⟨_, hs,
      (StoredSession.rootKey_of_frame (StoredSession.decrypt_frame c _ _ _ _ _ _)).symm⟩

/-- A step that creates no old root key keeps the root keys distinct. -/
theorem RootKeys.step (hr : RootKeys tr w) (hw : w.Consistent c)
    (hfresh : FreshKey tr ((store c).event w op)) :
    RootKeys (tr ++ [(store c).event w op]) (w.step c op).1 where
  created key s' hs' := by
    rw [List.filterMap_append, List.mem_append]
    rcases (became hw op hs').rootKey with ⟨s, hs, hroot⟩ | ⟨hcreated, -⟩
    · exact .inl (hroot ▸ hr.created key s hs)
    · exact .inr (by simp [hcreated])
  distinct key key' s₁ s₂ hs₁ hs₂ hroot := by
    rcases (became hw op hs₁).rootKey with ⟨t₁, ht₁, hroot₁⟩ | ⟨hcreated₁, sel₁, hsel₁⟩ <;>
      rcases (became hw op hs₂).rootKey with ⟨t₂, ht₂, hroot₂⟩ | ⟨hcreated₂, sel₂, hsel₂⟩
    · exact hr.distinct key key' t₁ t₂ ht₁ ht₂ (by rw [hroot₁, hroot₂, hroot])
    · exact absurd (hr.created key t₁ ht₁) (by rw [hroot₁, hroot]; exact hfresh _ hcreated₂)
    · exact absurd (hr.created key' t₂ ht₂) (by rw [hroot₂, ← hroot]; exact hfresh _ hcreated₁)
    · exact congrArg Prod.fst (Option.some.inj (hsel₁.symm.trans hsel₂))

/-- The session that handles a packet is stored afterwards, with its root key. -/
theorem handled_stays (hw : w.Consistent c) {key : SessionKey}
    (hkey : handledKey ((store c).event w op) = some key) {s : StoredSession}
    (hs : w.sessions.lookup key = some s) :
    ∃ s', (w.step c op).1.sessions.lookup key = some s' ∧ s'.rootKey = s.rootKey := by
  obtain ⟨h, call, p, rfl, hp, hpkey⟩ := handledKey_eq_some hkey
  obtain ⟨s₁, hs₁, hroot⟩ := (hw.peers h p hp).stored key hpkey
  obtain rfl := Option.some.inj (hs.symm.trans hs₁)
  obtain ⟨p', hp', hpkey', hroot'⟩ := World.step_sessionKey hw hp hpkey (.call h call) (by simp)
  obtain ⟨s', hs', hroot''⟩ := ((hw.step _).peers h p' hp').stored key hpkey'
  refine ⟨s', hs', ?_⟩
  rw [hroot', hroot, Option.some.injEq] at hroot''
  exact hroot''.symm

end RootKeys

namespace Tracker

variable {c : Crates HS} {obs : StoreEvent HS → Option Nonce}
  {C : List (StoreEvent HS) → StoreEvent HS → Prop} {P : Key32 → List Nonce → TrafficState → Prop}

/-- What is kept along a run. -/
structure Invariant (c : Crates HS) (obs : StoreEvent HS → Option Nonce)
    (P : Key32 → List Nonce → TrafficState → Prop) (tr : List (StoreEvent HS)) (w : World HS) :
    Prop where
  consistent : w.Consistent c
  rootKeys : RootKeys tr w
  seen : ∀ n ∈ tr.filterMap obs, n.rootKey ∈ tr.filterMap createdKey
  tracked : ∀ key s, w.sessions.lookup key = some s →
    P s.rootKey (tr.filterMap obs) s.toTrafficState
  nodup : (tr.filterMap obs).Nodup

variable (ht : Tracker c obs C P) {tr : List (StoreEvent HS)} {w : World HS} {op : Op}

include ht

/-- The session that handles a packet still tracks the nonces afterwards, and the
    packet's nonce is a new one. -/
theorem step_handled (hi : Invariant c obs P tr w) (hC : C tr ((store c).event w op))
    {key : SessionKey} (hkey : handledKey ((store c).event w op) = some key)
    {s' : StoredSession} (hs' : (w.step c op).1.sessions.lookup key = some s') :
    P s'.rootKey (tr.filterMap obs ++ (obs ((store c).event w op)).toList) s'.toTrafficState ∧
      ∀ n, obs ((store c).event w op) = some n → n ∉ tr.filterMap obs := by
  cases became hi.consistent op hs' with
  | kept hne => exact absurd hkey hne
  | synced _ hsel => simp [handledKey_of_selection hsel] at hkey
  | created hsel => simp [handledKey_of_selection hsel] at hkey
  | encrypted hin hp hauth hpkey hs hout =>
    rw [StoredSession.rootKey_of_frame (StoredSession.encrypt_frame c _ _ _ _ _)]
    exact ht.encrypt hC hin hp hauth hpkey hs hout (hi.tracked key _ hs)
  | decrypted hin hp hauth hpkey hs hout =>
    rw [StoredSession.rootKey_of_frame (StoredSession.decrypt_frame c _ _ _ _ _ _)]
    exact ht.decrypt hC hin hp hauth hpkey hs hout (hi.tracked key _ hs)

/-- A session that handles no packet still tracks the nonces seen before. -/
theorem step_unhandled (hi : Invariant c obs P tr w) (hC : C tr ((store c).event w op))
    (hfresh : FreshKey tr ((store c).event w op)) {key : SessionKey}
    (hkey : handledKey ((store c).event w op) ≠ some key) {s' : StoredSession}
    (hs' : (w.step c op).1.sessions.lookup key = some s') :
    P s'.rootKey (tr.filterMap obs) s'.toTrafficState := by
  have hnone : ∀ {h call p}, (store c).event w op = ⟨w, .call h call, (w.step c op).2⟩ →
      w.peers.lookup h = some p → p.sessionKey = some key → obs ((store c).event w op) = none := by
    intro h call p hevent hp hpkey
    by_contra hne
    obtain ⟨n, hn⟩ := Option.ne_none_iff_exists'.1 hne
    obtain ⟨key₀, s₀, hkey₀, -⟩ := ht.handled hn
    rw [hevent] at hkey₀
    obtain rfl := Option.some.inj ((handledKey_eq hp hkey₀).symm.trans hpkey)
    exact hkey (hevent ▸ hkey₀)
  cases became hi.consistent op hs' with
  | kept _ hs hroot _ htraffic =>
    rw [hroot, htraffic]
    exact hi.tracked key _ hs
  | synced hs hsel haction hroot _ htraffic =>
    rw [hroot, htraffic]
    exact ht.sync hC hs hsel haction (hi.tracked key _ hs)
  | created hsel _ htraffic =>
    rw [htraffic]
    refine ht.create fun n hn heq => hfresh _ (createdKey_of_selection hsel) ?_
    exact heq ▸ hi.seen n hn
  | encrypted hin hp hauth hpkey hs hout =>
    have htracked := (ht.encrypt hC hin hp hauth hpkey hs hout (hi.tracked key _ hs)).1
    rw [StoredSession.rootKey_of_frame (StoredSession.encrypt_frame c _ _ _ _ _)]
    obtain rfl : op = _ := hin
    simpa [hnone rfl hp hpkey] using htracked
  | decrypted hin hp hauth hpkey hs hout =>
    have htracked := (ht.decrypt hC hin hp hauth hpkey hs hout (hi.tracked key _ hs)).1
    rw [StoredSession.rootKey_of_frame (StoredSession.decrypt_frame c _ _ _ _ _ _)]
    obtain rfl : op = _ := hin
    simpa [hnone rfl hp hpkey] using htracked

/-- Every step keeps the invariant. -/
theorem step (hi : Invariant c obs P tr w) (hC : C tr ((store c).event w op))
    (hfresh : FreshKey tr ((store c).event w op)) :
    Invariant c obs P (tr ++ [(store c).event w op]) (w.step c op).1 := by
  have hrootKeys := hi.rootKeys.step hi.consistent hfresh
  have hconsistent := hi.consistent.step op
  cases hn : obs ((store c).event w op) with
  | none =>
    have heq : (tr ++ [(store c).event w op]).filterMap obs = tr.filterMap obs := by simp [hn]
    refine ⟨hconsistent, hrootKeys, ?_, fun key s' hs' => ?_, heq ▸ hi.nodup⟩
    · rw [heq, List.filterMap_append]
      exact fun n hmem => List.mem_append_left _ (hi.seen n hmem)
    · rw [heq]
      by_cases hkey : handledKey ((store c).event w op) = some key
      · simpa [hn] using (ht.step_handled hi hC hkey hs').1
      · exact ht.step_unhandled hi hC hfresh hkey hs'
  | some n =>
    have heq : (tr ++ [(store c).event w op]).filterMap obs = tr.filterMap obs ++ [n] := by
      simp [hn]
    obtain ⟨key₀, s₀, hkey₀, hs₀, hroot₀⟩ := ht.handled hn
    obtain ⟨s₀', hs₀', hroot₀'⟩ := handled_stays hi.consistent hkey₀ hs₀
    have hnew := (ht.step_handled hi hC hkey₀ hs₀').2 n hn
    refine ⟨hconsistent, hrootKeys, ?_, fun key s' hs' => ?_, ?_⟩
    · rw [heq, List.filterMap_append]
      intro n' hmem
      rw [List.mem_append, List.mem_singleton] at hmem
      rcases hmem with hmem | rfl
      · exact List.mem_append_left _ (hi.seen n' hmem)
      · exact List.mem_append_left _ (hroot₀ ▸ hi.rootKeys.created key₀ s₀ hs₀)
    · rw [heq]
      by_cases hkey : handledKey ((store c).event w op) = some key
      · simpa [hn] using (ht.step_handled hi hC hkey hs').1
      · -- The nonce is one of another session, hence of another root key.
        refine ht.frame (fun hroot => hkey ?_) (ht.step_unhandled hi hC hfresh hkey hs')
        rw [hkey₀]
        exact congrArg some (hrootKeys.distinct key₀ key s₀' s' hs₀' hs' (by rw [hroot₀', ← hroot₀, hroot]))
    · rw [heq]
      exact List.nodup_append.2 ⟨hi.nodup, List.nodup_singleton n, by
        rintro a ha b hb rfl
        exact hnew (List.mem_singleton.1 hb ▸ ha)⟩

/-- No nonce is seen twice along a run with fresh root keys. -/
theorem nodup (ops : List Op)
    (hfresh : (((store c).history (store c).init ops).filterMap createdKey).Nodup)
    (hC : Along C ((store c).history (store c).init ops)) :
    (((store c).history (store c).init ops).filterMap obs).Nodup := by
  have hboth : Along (fun tr e => C tr e ∧ FreshKey tr e) ((store c).history (store c).init ops) :=
    fun before e after h => ⟨hC before e after h, Along.of_nodup hfresh before e after h⟩
  refine (Machine.history_invariant (P := Invariant c obs P) ?_ ?_ ops hboth).nodup
  · exact ⟨consistent_of_reachable (Machine.reachable_init _), ⟨by simp [store], by simp [store]⟩,
      by simp, by simp [store], by simp⟩
  · rintro tr w op hi ⟨hC, hfresh⟩
    exact ht.step hi hC hfresh

end Tracker

end EasyTierEdge
