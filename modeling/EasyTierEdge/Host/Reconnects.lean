import EasyTierEdge.Host.Events

/-!
# Reconnects

A connection may take the place of another one of the same peer. However the one that was replaced,
or any other one, is closed then, the peer of the new one is not removed from the core again
(`Attached`): so the registry, the connections and the core agree between any two events
(`registry_agrees`).
-/

namespace EasyTierEdge

namespace Host

variable {HS : Type} {config : ServerConfig} {crates : HostCrates HS}

/-- The peer under the key of the connection was added for it, and not removed since. -/
def HostState.attached (s : HostState HS) (c : ConnId) : Prop :=
  ∃ before after, s.trace = before ++ .added c :: after ∧
    ∀ d, .removed d ∈ after → s.routeSyncKey d ≠ s.routeSyncKey c

/-- A connection was accepted and is closed. -/
def HostState.departed (s : HostState HS) (c : ConnId) : Prop := s.closed c ∧ c < s.conns.length

/-- The peers of the connections that are ready, or about to be, are in the core. -/
structure Attached (t : Stage) (s : HostState HS) : Prop where
  departed : ∀ d, .removed d ∈ s.trace → s.departed d
  attached : ∀ c, s.ready c ∨ t.registration = .added c → s.attached c

namespace Attached

variable {t t' : Stage} {s s' : HostState HS} {c : ConnId}

theorem init (config : ServerConfig) : Attached .idle (HostState.init config : HostState HS) where
  departed _ hd := absurd hd List.not_mem_nil
  attached _ hc := by
    rcases hc with hready | hadded
    · cases hready
    · cases hadded

/-- Effects after which the same peers are in the core. -/
theorem HostState.attached.append (h : s.attached c) (es : List Effect)
    (htrace : s'.trace = s.trace ++ es) (hdeparted : ∀ d, .removed d ∈ s.trace → s.departed d)
    (hkeys : ∀ d, s.departed d → s'.routeSyncKey d = s.routeSyncKey d)
    (hkey : s'.routeSyncKey c = s.routeSyncKey c)
    (hes : ∀ d, .removed d ∈ es → s'.routeSyncKey d ≠ s'.routeSyncKey c) : s'.attached c := by
  obtain ⟨before, after, hsplit, hafter⟩ := h
  refine ⟨before, after ++ es, ?_, fun d hd => ?_⟩
  · rw [htrace, hsplit, List.append_assoc, List.cons_append]
  · rcases List.mem_append.1 hd with hd | hd
    · have hmem : .removed d ∈ s.trace := by
        rw [hsplit]
        exact List.mem_append_right _ (List.mem_cons_of_mem _ hd)
      rw [hkeys d (hdeparted d hmem), hkey]
      exact hafter d hd
    · exact hes d hd

/-- A step that removes no peer. -/
theorem congr (h : Attached t s) (es : List Effect) (htrace : s'.trace = s.trace ++ es)
    (hes : ∀ d, .removed d ∉ es) (hdeparted : ∀ d, s.departed d → s'.departed d)
    (hkeys : ∀ d, s.departed d ∨ s.ready d ∨ t.registration = .added d →
      s'.routeSyncKey d = s.routeSyncKey d)
    (hready : ∀ d, s'.ready d ∨ t'.registration = .added d → s.ready d ∨ t.registration = .added d) :
    Attached t' s' where
  departed d hd := by
    rw [htrace] at hd
    exact hdeparted d (h.departed d ((List.mem_append.1 hd).resolve_right (hes d)))
  attached d hd :=
    HostState.attached.append (h.attached d (hready d hd)) es htrace h.departed
      (fun e he => hkeys e (.inl he)) (hkeys d (.inr (hready d hd))) fun e he => absurd he (hes e)

/-- A step that leaves the connections. -/
theorem same (h : Attached t s) (es : List Effect) (htrace : s'.trace = s.trace ++ es)
    (hes : ∀ d, .removed d ∉ es) (hconns : s'.conns = s.conns)
    (hreg : ∀ d, t'.registration = .added d → t.registration = .added d) : Attached t' s' := by
  have hconn : s'.conn = s.conn := by
    funext d
    rw [HostState.conn, hconns, HostState.conn]
  refine h.congr es htrace hes (fun d hd => ?_) (fun d _ => ?_) fun d hd =>
    hd.imp (fun hr => ?_) (hreg d)
  · rw [HostState.departed, HostState.closed, hconn, hconns]
    exact hd
  · rw [HostState.routeSyncKey, hconn, HostState.routeSyncKey]
  · rw [HostState.ready, ← hconn]
    exact hr

/-- A connection that is not over is changed. -/
theorem modifyConn (h : Attached t s) {f : Connection → Connection} (hc : s.pending c)
    (hkey : t.registration = .added c →
      (s.modifyConn c f).routeSyncKey c = s.routeSyncKey c)
    (hready : (f (s.conn c)).phase = .ready → t.registration = .added c)
    (hreg : ∀ d, t'.registration = .added d → t.registration = .added d) :
    Attached t' (s.modifyConn c f) := by
  have hother : ∀ d ≠ c, (s.modifyConn c f).conn d = s.conn d := fun d hd =>
    s.conn_modifyConn_of_ne hd f
  refine h.congr [] (List.append_nil _).symm (fun _ => List.not_mem_nil) (fun d hd => ?_)
    (fun d hd => ?_) fun d hd => ?_
  · have hdc : d ≠ c := by
      rintro rfl
      exact hc.not_closed hd.1
    refine ⟨?_, hd.2.trans_eq (List.length_modify ..).symm⟩
    rw [HostState.closed, hother d hdc]
    exact hd.1
  · by_cases hdc : d = c
    · subst hdc
      rcases hd with hdeparted | hr | hadded
      · exact absurd hdeparted.1 hc.not_closed
      · exact absurd hr hc.not_ready
      · exact hkey hadded
    · rw [HostState.routeSyncKey, hother d hdc, HostState.routeSyncKey]
  · rcases hd with hr | hadded
    · by_cases hdc : d = c
      · subst hdc
        rw [HostState.ready, s.conn_modifyConn_self hc.not_closed] at hr
        exact .inr (hready hr)
      · rw [HostState.ready, hother d hdc] at hr
        exact .inl hr
    · exact .inr (hreg d hadded)

/-- Closing a connection. -/
theorem unregister (h : Attached t s) (hc : ¬s.closed c) (es : List Effect)
    (hconns : s'.conns = (s.unregister c).conns) (htrace : s'.trace = s.trace ++ es)
    (hes : ∀ d, .removed d ∈ es → d = c ∧ ∀ e, e ≠ c → s.ready e ∨ t.registration = .added e →
      s.routeSyncKey d ≠ s.routeSyncKey e)
    (hreg : ∀ d, t'.registration = .added d → t.registration = .added d ∧ d ≠ c) :
    Attached t' s' := by
  have hconn : s'.conn = (s.unregister c).conn := by
    funext d
    rw [HostState.conn, hconns, HostState.conn]
  have hkeys : ∀ d, s'.routeSyncKey d = s.routeSyncKey d := fun d => by
    rw [HostState.routeSyncKey, hconn]
    exact s.routeSyncKey_unregister c d
  have hlength : s'.conns.length = s.conns.length := by
    rw [hconns, s.conns_unregister]
    exact List.length_modify ..
  have hclosed : ∀ d, s'.closed d ↔ s.closed d ∨ d = c := fun d => by
    rw [HostState.closed, hconn]
    exact s.closed_unregister_iff c hc
  have hready : ∀ d, s'.ready d ∨ t'.registration = .added d →
      d ≠ c ∧ (s.ready d ∨ t.registration = .added d) := by
    rintro d (hr | hadded)
    · rw [HostState.ready, hconn] at hr
      obtain ⟨hr, hdc⟩ := (s.ready_unregister c hc).1 hr
      exact ⟨hdc, .inl hr⟩
    · exact ⟨(hreg d hadded).2, .inr (hreg d hadded).1⟩
  constructor
  · intro d hd
    rw [htrace] at hd
    rcases List.mem_append.1 hd with hd | hd
    · obtain ⟨hdeparted, hlt⟩ := h.departed d hd
      exact ⟨(hclosed d).2 (.inl hdeparted), hlength ▸ hlt⟩
    · obtain ⟨rfl, -⟩ := hes d hd
      exact ⟨(hclosed d).2 (.inr rfl), hlength ▸ s.lt_length_of_not_closed hc⟩
  · intro d hd
    obtain ⟨hdc, hd⟩ := hready d hd
    refine HostState.attached.append (h.attached d hd) es htrace h.departed (fun e _ => hkeys e) (hkeys d)
      fun e he => ?_
    rw [hkeys, hkeys]
    exact (hes e he).2 d hdc hd

/-- Closings and route updates only remove the peers of the connections they close. -/
theorem quiet {a b : Stage × HostState HS} (hstep : Quiet crates a b) (hregistry : Registry a.1 a.2)
    (h : Attached a.1 a.2) : Attached b.1 b.2 := by
  have hab := hstep.undisturbed
  have hcongr : ∀ es : List Effect, b.2.trace = a.2.trace ++ es → (∀ d, .removed d ∉ es) →
      Attached b.1 b.2 := by
    intro es htrace hes
    refine h.congr es htrace hes (fun d hd => ⟨hab.closed hd.1, hab.length ▸ hd.2⟩) (fun d _ => hab.key d)
      fun d hd => hd.imp hab.ready fun hadded => hab.registration.symm.trans hadded
  cases hstep with
  | @left t s c a hc =>
    obtain ⟨_, _, _, heq⟩ := s.unregister_eq c
    have htrace : ((s.unregister c).removePeer crates c a).trace =
        s.trace ++ [.closed c, .removed c] := by
      change (s.unregister c).trace ++ [.removed c] = _
      rw [heq, List.append_assoc]
      rfl
    refine unregister h hc.not_closed _ rfl htrace (fun d hd => ?_) fun d hadded => ⟨hadded, ?_⟩
    · obtain rfl : d = c := by simpa using hd
      refine ⟨rfl, fun e hec he hkey => ?_⟩
      rcases he with hr | hadded
      · exact hec (hregistry.eq_of_ready hr hc hkey.symm)
      · exact hregistry.alone e d hadded hc hkey
    · rintro rfl
      exact (hregistry.subject d (by rw [show t.registration = _ from hadded]; rfl)).1.not_ready hc
  | consulted | counted | unsent => exact hcongr [] (List.append_nil _).symm fun _ => List.not_mem_nil
  | encrypted => exact hcongr [.secure _ _ _] rfl (by simp)
  | @sent t s c frame => exact hcongr [.sent c frame .relay] rfl (by simp)
  | @disposed t s c => exact hcongr [.disposed c] rfl (by simp)
  | @announced t s c forceFull => exact hcongr [.announced c forceFull] rfl (by simp)
  | @rebuilt t s c state a now =>
    rcases s.rebuild_cases crates (s.routeSyncKey c) state now a with ⟨e, -, heq⟩ | ⟨packet, -, heq⟩
    · exact hcongr [] (by rw [heq]; exact (List.append_nil _).symm) fun _ => List.not_mem_nil
    · exact hcongr [.built state.peer state.forceFull] (by rw [heq]; rfl) (by simp)
  | @unbuilt t s c state a now =>
    rcases s.rebuild_cases crates (s.routeSyncKey c) state now a with ⟨e, -, heq⟩ | ⟨packet, -, heq⟩
    · exact hcongr [] (by rw [heq]; exact (List.append_nil _).symm) fun _ => List.not_mem_nil
    · exact hcongr [.built state.peer state.forceFull] (by rw [heq]; rfl) (by simp)

/-- Every step keeps the peers of the connections in the core. -/
theorem step {a b : Stage × HostState HS} (hstep : Step config crates a b)
    (hregistry : Registry a.1 a.2) (h : Attached a.1 a.2) : Attached b.1 b.2 := by
  cases hstep with
  | quiet hquiet => exact h.quiet hquiet hregistry
  | kept | named | opened | requested | responded | settled | unsettled | swept | expired | retired =>
    exact h.same [] (List.append_nil _).symm (fun _ => List.not_mem_nil) rfl fun _ hadded => hadded
  | entered =>
    exact h.same [] (List.append_nil _).symm (fun _ => List.not_mem_nil) rfl
      fun _ hadded => by cases hadded
  | @received t s c frame =>
    exact h.same [.received c frame] rfl (by simp) rfl fun _ hadded => hadded
  | called => exact h.same [.secure _ _ _] rfl (by simp) rfl fun _ hadded => hadded
  | decrypted => exact h.same [.secure _ _ _] rfl (by simp) rfl fun _ hadded => hadded
  | @answered t s c frame =>
    exact h.same [.sent c frame .relay] rfl (by simp) rfl fun _ hadded => hadded
  | @forwarded t s c target frame =>
    exact h.same [.sent target frame (.peer c)] rfl (by simp) rfl fun _ hadded => hadded
  | @accepted t s ipKey a _ _ _ haccept =>
    obtain ⟨world, timer, heq⟩ := s.accept_eq haccept
    have hconn : ∀ d ≠ s.conns.length, (s.accept config crates ipKey a).2.conn d = s.conn d := by
      intro d hd
      have hcreated := s.conn_createConnection a.handle ipKey a d
      rw [if_neg hd] at hcreated
      rw [heq]
      exact hcreated
    have hborn : ∀ {d}, s.departed d ∨ s.ready d ∨ t.registration = .added d →
        d ≠ s.conns.length := by
      rintro d hd rfl
      rcases hd with hdeparted | hr | hadded
      · exact absurd hdeparted.2 (lt_irrefl _)
      · exact hr.not_closed s.closed_length
      · exact (hregistry.subject _ (by rw [show t.registration = _ from hadded]; rfl)).1.not_closed
          s.closed_length
    refine h.congr [] (by rw [heq]; exact (List.append_nil _).symm)
      (fun _ => List.not_mem_nil) (fun d hd => ⟨?_, ?_⟩) (fun d hd => ?_) fun d hd => ?_
    · rw [HostState.closed, hconn d (hborn (.inl hd))]
      exact hd.1
    · rw [heq]
      exact hd.2.trans_le (by simp [HostState.createConnection])
    · rw [HostState.routeSyncKey, hconn d (hborn hd), HostState.routeSyncKey]
    · refine hd.imp_left fun hr => ?_
      by_cases hdl : d = s.conns.length
      · subst hdl
        have hpending := s.pending_createConnection a.handle ipKey a
        rw [heq] at hr
        exact absurd hr hpending.not_ready
      · rw [HostState.ready, hconn d hdl] at hr
        exact hr
  | @prepared t s c f hc _ hnone hf =>
    refine modifyConn h hc (fun hadded => ?_) (fun hr => ?_) fun _ hadded => hadded
    · cases hnone.symm.trans hadded
    · rw [hf.phase] at hr
      exact absurd hr hc.not_ready
  | greeted hc hnone =>
    exact modifyConn (f := fun conn => { conn with phase := .msg3 }) h hc
      (fun hadded => by cases hnone.symm.trans hadded) (fun hr => by cases hr) fun _ hadded => hadded
  | @added t s c replaced a hreg hclosed hadd =>
    obtain ⟨core, routeSyncStates, heq⟩ : ∃ core routeSyncStates, (s.addPeer c a).2 =
        { s with core, routeSyncStates }.note (.added c) := by
      unfold HostState.addPeer at hadd ⊢
      dsimp only at hadd ⊢
      split at hadd
      · cases hadd
      · exact ⟨_, _, rfl⟩
    rw [heq]
    refine ⟨fun d hd => h.departed d ?_, fun d hd => ?_⟩
    · simpa [HostState.note] using hd
    · by_cases hdc : d = c
      · subst hdc
        exact ⟨s.trace, [], rfl, fun _ hd => absurd hd List.not_mem_nil⟩
      · refine HostState.attached.append (h.attached d ?_) [.added c] rfl h.departed
          (fun _ _ => rfl) rfl (by simp)
        refine hd.imp_right fun hadded => absurd ?_ hdc
        exact (Registration.added.inj hadded).symm
  | @completed t s c hc hreg =>
    have hkey : (s.completeHandshake c).routeSyncKey c = s.routeSyncKey c := Prod.ext
      (s.conn_modifyConn_congr (g := Connection.networkName) (f := fun conn =>
        { conn with handshakeTimer := false, phase := .ready }) (fun _ => rfl) c c)
      (s.conn_modifyConn_congr (g := Connection.peerId) (f := fun conn =>
        { conn with handshakeTimer := false, phase := .ready }) (fun _ => rfl) c c)
    have hready : Attached ((t.register .none).spare c) (s.completeHandshake c) :=
      modifyConn h hc (fun _ => hkey) (fun _ => hreg) fun _ hadded => by cases hadded
    exact hready.same [] (List.append_nil _).symm (fun _ => List.not_mem_nil) rfl
      fun _ hadded => hadded
  | @abandoned t s c hc hreg =>
    obtain ⟨_, _, _, heq⟩ := s.unregister_eq c
    refine unregister h hc.not_closed [.closed c] rfl ?_ (by simp) fun _ hadded => by cases hadded
    rw [heq]

end Attached

/-! ## Runs -/

/-- The registry, the connections and the core agree. -/
structure RegistryAgrees (s : HostState HS) : Prop where
  /-- A connection is ready if and only if it is registered under its network and peer id. -/
  registered : ∀ c, s.ready c ↔ s.rooms.get (s.conn c).networkName (s.conn c).peerId = some c
  /-- Nothing is registered under another key than its own. -/
  entry : ∀ networkName peerId c, s.rooms.get networkName peerId = some c →
    (s.conn c).networkName = networkName ∧ (s.conn c).peerId = peerId
  unique : ∀ c d, s.ready c → s.ready d → (s.conn c).networkName = (s.conn d).networkName →
    (s.conn c).peerId = (s.conn d).peerId → c = d
  connections : ∀ c, s.ready c → c ∈ s.connections
  members : ∀ networkName peerId, peerId ∈ s.core.routes.members networkName ↔
    ∃ c, s.ready c ∧ (s.conn c).networkName = networkName ∧ (s.conn c).peerId = peerId
  /-- Since the peer of a ready connection was added to the core, no closing has removed it. -/
  attached : ∀ c, s.ready c → s.attached c

/-- Between any two events of a run, the registry, the connections and the core agree. -/
theorem registry_agrees (inputs : List (ServerEvent × (ℕ → Ambient))) :
    RegistryAgrees ((server config crates).run (.init config) inputs) := by
  obtain ⟨hregistry, -, hattached⟩ := Reachable.of_step config crates (P := fun a => Attached a.1 a.2)
    (Attached.init config) (fun a b hstep hregistry h => h.step hstep hregistry)
    (s := (server config crates).run (.init config) inputs) ⟨inputs, rfl⟩
  generalize (server config crates).run (.init config) inputs = s at hregistry hattached
  have hready : ∀ c, s.ready c → s.registered (s.routeSyncKey c) = some c := by
    intro c hc
    refine (hregistry.ready c hc).resolve_right ?_
    rintro ⟨d, hd, -⟩
    cases hd
  constructor
  · refine fun c => ⟨hready c, fun hentry => ?_⟩
    have hregistered : s.registered (s.routeSyncKey c) = some c := hentry
    exact ((hregistry.entry _ c hregistered).2.2).resolve_right fun hsubject => by cases hsubject
  · intro networkName peerId c hentry
    exact Prod.mk.inj (hregistry.entry (networkName, peerId) c hentry).1
  · exact fun c d hc hd hname hpeer => hregistry.eq_of_ready hc hd (Prod.ext hname hpeer)
  · exact fun c hc => (hregistry.connections c).2 hc.not_closed
  · intro networkName peerId
    constructor
    · intro hmember
      obtain ⟨c, hkey, hc⟩ := hregistry.member (networkName, peerId) hmember
      obtain ⟨hname, hpeer⟩ := Prod.mk.inj hkey
      exact ⟨c, hc.resolve_right (fun hadded => by cases hadded), hname, hpeer⟩
    · rintro ⟨c, hc, rfl, rfl⟩
      exact hregistry.present c hc fun hd => hd.elim
  · exact fun c hc => hattached.attached c (.inl hc)

end Host

end EasyTierEdge
