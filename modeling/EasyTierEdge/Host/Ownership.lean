import EasyTierEdge.Host.Admission

/-!
# Who owns a secure peer

A `SecurePeer` lives in the memory of the module, and must be freed by hand. The host constructs
one for each connection it accepts and frees it when the connection is disposed: between any two
events the live ones are those of the open connections, one each, so that none is leaked, freed
twice, or used after it was freed (`secure_peers_owned`). A stored session therefore counts the
open connections that are attached to it.
-/

namespace EasyTierEdge

namespace Host

variable {HS : Type} {config : ServerConfig} {crates : HostCrates HS}

/-- A method of a live `SecurePeer` returns a result. -/
theorem call_ne_badHandle (c : Crates HS) (p : SecurePeer HS) (sessions : SessionStore)
    (call : Call) : (p.call c sessions call).1 ≠ .badHandle := by
  cases call with
  | readMsg1 packet =>
    simp only [SecurePeer.call]
    split <;> simp
  | _ => simp [SecurePeer.call]

/-- The live `SecurePeer`s are those of the connections that are not disposed. -/
structure Owned (config : ServerConfig) (crates : HostCrates HS) (t : Stage) (s : HostState HS) :
    Prop where
  linked : Linked config crates s
  /-- No `SecurePeer` is leaked. -/
  holder : ∀ h p, s.world.peers.lookup h = some p → ∃ c, (s.conn c).secure = some h
  /-- A closed connection is disposed soon. -/
  closing : ∀ c h, (s.conn c).secure = some h → s.closed c → c ∈ t.closing
  /-- No `SecurePeer` was used after it was freed. -/
  live : ∀ c call out, .secure c call out ∈ s.trace → out ≠ .badHandle

namespace Owned

variable {t t' : Stage} {s s' : HostState HS} {c : ConnId}

theorem init (config : ServerConfig) (crates : HostCrates HS) :
    Owned config crates .idle (HostState.init config) where
  linked := .init config crates
  holder _ _ h := by cases h
  closing _ _ h := by cases h
  live _ _ _ h := by cases h

/-- Steps that leave the `SecurePeer`s alone. -/
theorem congr (h : Owned config crates t s) (hlinked : Linked config crates s')
    (hworld : s'.world = s.world) (hsecure : ∀ d, (s'.conn d).secure = (s.conn d).secure)
    (hclosed : ∀ d, s'.closed d → s.closed d ∨ d ∈ t'.closing)
    (hclosing : ∀ d ∈ t.closing, d ∈ t'.closing)
    (htrace : ∀ d call out, .secure d call out ∈ s'.trace → .secure d call out ∈ s.trace) :
    Owned config crates t' s' where
  linked := hlinked
  holder handle p hp := by
    obtain ⟨d, hd⟩ := h.holder handle p (hworld ▸ hp)
    exact ⟨d, (hsecure d).trans hd⟩
  closing d handle hd hc := by
    rcases hclosed d hc with hc | hmem
    · exact hclosing d (h.closing d handle ((hsecure d).symm.trans hd) hc)
    · exact hmem
  live d call out hmem := h.live d call out (htrace d call out hmem)

/-- Steps that leave the connections alone. -/
theorem kept (h : Owned config crates t s) (hlinked : Linked config crates s') (es : List Effect)
    (hworld : s'.world = s.world) (hconns : s'.conns = s.conns)
    (htrace : s'.trace = s.trace ++ es) (hes : ∀ d call out, .secure d call out ∉ es)
    (hclosing : t'.closing = t.closing) : Owned config crates t' s' := by
  have hconn : ∀ d, s'.conn d = s.conn d := fun d => by
    rw [HostState.conn, hconns, HostState.conn]
  refine h.congr hlinked hworld (fun d => by rw [hconn]) (fun d hd => .inl ?_)
    (fun d hd => hclosing ▸ hd) fun d call out hmem => ?_
  · rw [HostState.closed, hconn] at hd
    exact hd
  · rw [htrace] at hmem
    exact (List.mem_append.1 hmem).resolve_right (hes d call out)

theorem same (h : Owned config crates t s) (hlinked : Linked config crates s')
    (hworld : s'.world = s.world) (hconns : s'.conns = s.conns) (htrace : s'.trace = s.trace)
    (hclosing : t'.closing = t.closing) : Owned config crates t' s' :=
  h.kept hlinked [] hworld hconns (htrace.trans (List.append_nil _).symm)
    (fun _ _ _ => List.not_mem_nil) hclosing

/-- A change of a connection that leaves its `SecurePeer`, and closes none. -/
theorem modifyConn (h : Owned config crates t s) {f : Connection → Connection}
    (hlinked : Linked config crates (s.modifyConn c f))
    (hsecure : ∀ conn, (f conn).secure = conn.secure)
    (hphase : (f (s.conn c)).phase = .closed → s.closed c) (hclosing : t'.closing = t.closing) :
    Owned config crates t' (s.modifyConn c f) := by
  refine h.congr hlinked rfl
    (fun d => s.conn_modifyConn_congr (g := Connection.secure) hsecure c d) (fun d hd => .inl ?_)
    (fun d hd => hclosing ▸ hd) fun _ _ _ hmem => hmem
  rw [HostState.closed, s.conn_modifyConn] at hd
  split_ifs at hd with hdc
  · rw [hdc.1]
    exact hphase hd
  · exact hd

/-- A connection is closed, and disposed soon. -/
theorem unregister (h : Owned config crates t s) (es : List Effect)
    (hlinked : Linked config crates s') (hworld : s'.world = s.world)
    (hconns : s'.conns = (s.unregister c).conns) (htrace : s'.trace = s.trace ++ es)
    (hes : ∀ d call out, .secure d call out ∉ es) (hclosing : t'.closing = c :: t.closing) :
    Owned config crates t' s' := by
  let close : Connection → Connection := fun conn => { conn with phase := .closed }
  have hconn : ∀ d, s'.conn d = (s.modifyConn c close).conn d := fun d => by
    rw [HostState.conn, hconns, s.conns_unregister]
    rfl
  refine h.congr hlinked hworld (fun d => ?_) (fun d hd => ?_) (fun d hd => ?_)
    fun d call out hmem => ?_
  · rw [hconn]
    exact s.conn_modifyConn_congr (g := Connection.secure) (f := close) (fun _ => rfl) c d
  · by_cases hdc : d = c
    · rw [hclosing, hdc]
      exact .inr List.mem_cons_self
    · rw [HostState.closed, hconn, s.conn_modifyConn_of_ne hdc] at hd
      exact .inl hd
  · rw [hclosing]
    exact List.mem_cons_of_mem _ hd
  · rw [htrace] at hmem
    exact (List.mem_append.1 hmem).resolve_right (hes d call out)

/-- A method of a live `SecurePeer` is called. -/
theorem callSecure (h : Owned config crates t s) {handle : Handle}
    (hc : (s.conn c).secure = some handle) (call : Call) :
    Owned config crates t (s.callSecure crates c handle call).2 := by
  obtain ⟨p, hp, -⟩ := h.linked.progress c handle hc
  have hworld : s.world.step crates.secure (.call handle call) =
      ({ sessions := (p.call crates.secure s.world.sessions call).2.2
         peers := s.world.peers.insert handle (p.call crates.secure s.world.sessions call).2.1 },
        (p.call crates.secure s.world.sessions call).1) := by
    simp only [World.step, hp]
  constructor
  · exact h.linked.callSecure hc call
  · intro handle' q hq
    change (s.world.step crates.secure (.call handle call)).1.peers.lookup handle' = some q at hq
    rw [hworld, Finmap.lookup_insert_ite] at hq
    split_ifs at hq with heq
    · rw [heq]
      exact ⟨c, hc⟩
    · exact h.holder handle' q hq
  · exact h.closing
  · intro d call' out hmem
    rw [HostState.callSecure, hworld] at hmem
    rcases List.mem_append.1 hmem with hmem | hmem
    · exact h.live d call' out hmem
    · obtain ⟨-, -, rfl⟩ := Effect.secure.inj (List.mem_singleton.1 hmem)
      exact call_ne_badHandle crates.secure p s.world.sessions call

/-- The `SecurePeer` of the connection that was closed last is freed. -/
theorem disposed (h : Owned config crates (t.close c) s) (hc : s.closed c) (a : Ambient) :
    Owned config crates t (s.disposeConnection crates c a) := by
  let dispose : Connection → Connection := fun conn =>
    { conn with handshakeTimer := false, secure := none, legacyCipher := none }
  have hother : ∀ d ≠ c, (s.disposeConnection crates c a).conn d = s.conn d := fun d hd =>
    s.conn_modifyConn_of_ne hd dispose
  have hlinked := h.linked.disposed hc a
  constructor
  · exact hlinked
  · intro handle p hp
    -- Only the handle of the connection is freed.
    have hbefore : s.world.peers.lookup handle = some p ∧ (s.conn c).secure ≠ some handle := by
      have hdispose : (s.disposeConnection crates c a).world.peers.lookup handle = some p := hp
      rw [HostState.disposeConnection] at hdispose
      cases hsecure : (s.conn c).secure with
      | none =>
        simp only [hsecure] at hdispose
        exact ⟨hdispose, (Option.some_ne_none _).symm⟩
      | some freed =>
        obtain ⟨q, hq, -⟩ := h.linked.progress c freed hsecure
        simp only [hsecure, World.step, hq] at hdispose
        change (s.world.peers.erase freed).lookup handle = some p at hdispose
        rw [Finmap.lookup_erase_ite] at hdispose
        split_ifs at hdispose with heq
        refine ⟨hdispose, fun hfreed => heq ?_⟩
        exact (Option.some.inj hfreed).symm
    obtain ⟨d, hd⟩ := h.holder handle p hbefore.1
    have hdc : d ≠ c := by
      rintro rfl
      exact hbefore.2 hd
    exact ⟨d, by rw [hother d hdc]; exact hd⟩
  · intro d handle hd hclosed
    have hdc : d ≠ c := by
      rintro rfl
      cases (s.secure_disposeConnection d a).symm.trans hd
    rw [hother d hdc] at hd
    rw [HostState.closed, hother d hdc] at hclosed
    exact (List.mem_cons.1 (h.closing d handle hd hclosed)).resolve_left hdc
  · intro d call out hmem
    refine h.live d call out ?_
    exact (List.mem_append.1 hmem).resolve_right (by simp)

/-- A connection is accepted. -/
theorem accepted (h : Owned config crates t s) {ipKey : String} {a : Ambient}
    (haccept : (s.accept config crates ipKey a).1 = true) :
    Owned config crates t (s.accept config crates ipKey a).2 := by
  obtain ⟨p, hlookup, hnew, hworld⟩ := Linked.accept_world haccept
  obtain ⟨world, timer, heq⟩ := s.accept_eq haccept
  have hother : ∀ d ≠ s.conns.length, (s.accept config crates ipKey a).2.conn d = s.conn d := by
    intro d hd
    rw [heq]
    refine (s.conn_createConnection a.handle ipKey a d).trans ?_
    rw [if_neg hd]
  have hself : ((s.accept config crates ipKey a).2.conn s.conns.length).secure = some a.handle ∧
      ((s.accept config crates ipKey a).2.conn s.conns.length).phase = .msg1 := by
    rw [heq]
    simp [HostState.conn, HostState.createConnection]
  constructor
  · exact h.linked.accepted haccept
  · intro handle q hq
    rw [hworld] at hq
    dsimp only at hq
    rw [Finmap.lookup_insert_ite] at hq
    split_ifs at hq with hhandle
    · rw [hhandle]
      exact ⟨s.conns.length, hself.1⟩
    · obtain ⟨d, hd⟩ := h.holder handle q hq
      have hlast : d ≠ s.conns.length := by
        rintro rfl
        rw [HostState.conn, List.getD_eq_default _ _ le_rfl] at hd
        cases hd
      exact ⟨d, by rw [hother d hlast]; exact hd⟩
  · intro d handle hd hclosed
    by_cases hlast : d = s.conns.length
    · rw [HostState.closed, hlast, hself.2] at hclosed
      cases hclosed
    · rw [hother d hlast] at hd
      rw [HostState.closed, hother d hlast] at hclosed
      exact h.closing d handle hd hclosed
  · intro d call out hmem
    refine h.live d call out ?_
    rw [heq] at hmem
    exact hmem

/-- An update is built, or not. -/
theorem rebuild (h : Owned config crates t s) (key : PeerKey) (state : RouteSyncState) (now : ℕ)
    (a : Ambient) (hclosing : t'.closing = t.closing) :
    Owned config crates t' (s.rebuild crates key state now a).2 := by
  have hlinked := h.linked.rebuild key state now a
  rcases s.rebuild_cases crates key state now a with ⟨e, -, heq⟩ | ⟨packet, -, heq⟩
  · rw [heq] at hlinked ⊢
    exact h.same hlinked rfl rfl rfl hclosing
  · rw [heq] at hlinked ⊢
    exact h.kept hlinked [_] rfl rfl rfl (by simp) hclosing

/-- Closings and route updates. -/
theorem quiet {a b : Stage × HostState HS} (hstep : Quiet crates a b)
    (h : Owned config crates a.1 a.2) : Owned config crates b.1 b.2 := by
  have hlinked := h.linked.quiet hstep
  cases hstep with
  | consulted => exact h.same hlinked rfl rfl rfl rfl
  | @encrypted _ s _ _ packet clock _ hc =>
    exact callSecure (s := s) h hc (.encryptPacket packet clock)
  | @counted _ s c startedAt bytes frames hc =>
    exact modifyConn (s := s) h hlinked (fun _ => rfl) (fun hclosed => hclosed) rfl
  | sent => exact h.kept hlinked [_] rfl rfl rfl (by simp) rfl
  | @left _ s c a =>
    obtain ⟨_, _, _, heq⟩ := s.unregister_eq c
    refine unregister (s := s) (c := c) h [.closed c, .removed c] hlinked ?_ rfl ?_ (by simp) rfl
    · change (s.unregister c).world = s.world
      rw [heq]
      rfl
    · change (s.unregister c).trace ++ [.removed c] = _
      rw [heq]
      simp
  | @disposed _ s c a hc => exact disposed (s := s) h hc a
  | announced => exact h.kept hlinked [_] rfl rfl rfl (by simp) rfl
  | @rebuilt _ s c state a now => exact rebuild (s := s) h _ state now a rfl
  | @unbuilt _ s c state a now => exact rebuild (s := s) h _ state now a rfl
  | unsent => exact h.same hlinked rfl rfl rfl rfl

/-- Every step keeps the `SecurePeer`s owned. -/
theorem step {a b : Stage × HostState HS} (hstep : Step config crates a b)
    (h : Owned config crates a.1 a.2) : Owned config crates b.1 b.2 := by
  have hlinked := h.linked.step hstep
  cases hstep with
  | quiet hquiet => exact h.quiet hquiet
  | kept => exact h.same hlinked rfl rfl rfl rfl
  | named => exact h.same hlinked rfl rfl rfl rfl
  | @accepted _ s _ _ _ _ _ haccept => exact accepted (s := s) h haccept
  | opened => exact h.same hlinked rfl rfl rfl rfl
  | received => exact h.kept hlinked [_] rfl rfl rfl (by simp) rfl
  | @called _ s _ _ call _ _ hc => exact callSecure (s := s) h hc call
  | @decrypted _ s _ _ packet clock _ hc =>
    exact callSecure (s := s) h hc (.decryptPacket packet clock)
  | answered => exact h.kept hlinked [_] rfl rfl rfl (by simp) rfl
  | forwarded => exact h.kept hlinked [_] rfl rfl rfl (by simp) rfl
  | @prepared _ s c f hc _ _ hf =>
    refine modifyConn (s := s) h hlinked hf.secure (fun hclosed => ?_) rfl
    exact (hf.phase (s.conn c)).symm.trans hclosed
  | @greeted _ s _ _ => exact modifyConn (s := s) h hlinked (fun _ => rfl) nofun rfl
  | entered => exact h.same hlinked rfl rfl rfl rfl
  | @added t s c _ a _ _ hadd =>
    obtain ⟨core, routeSyncStates, heq⟩ := s.addPeer_eq hadd
    have hkept : Owned config crates (t.register (.added c))
        ({ s with core, routeSyncStates }.note (.added c)) :=
      kept (s := s) h (heq ▸ hlinked) [.added c] rfl rfl rfl (by simp) rfl
    rw [heq]
    exact hkept
  | @completed t s c hc =>
    have hready : Owned config crates t (s.completeHandshake c) :=
      modifyConn (s := s) h (h.linked.modifyConn (fun _ => rfl) (s.closed_modifyConn hc.not_closed _))
        (fun _ => rfl) nofun rfl
    exact hready.same hlinked rfl rfl rfl rfl
  | @abandoned _ s c =>
    obtain ⟨_, _, _, heq⟩ := s.unregister_eq c
    refine unregister (s := s) (c := c) h [.closed c] hlinked ?_ rfl ?_ (by simp) rfl
    · rw [heq]
      rfl
    · rw [heq]
  | requested => exact h.same hlinked rfl rfl rfl rfl
  | responded => exact h.same hlinked rfl rfl rfl rfl
  | settled => exact h.same hlinked rfl rfl rfl rfl
  | unsettled => exact h.same hlinked rfl rfl rfl rfl
  | swept => exact h.same hlinked rfl rfl rfl rfl
  | expired => exact h.same hlinked rfl rfl rfl rfl
  | retired => exact h.same hlinked rfl rfl rfl rfl

end Owned

/-- The `SecurePeer` of a connection is attached to the session under `key`. -/
def HostState.attachedTo (s : HostState HS) (key : SessionKey) (c : ConnId) : Bool :=
  ((s.conn c).secure.bind s.world.peers.lookup).any (·.attachedTo key)

theorem HostState.attachedTo_iff {s : HostState HS} {key : SessionKey} {c : ConnId} :
    s.attachedTo key c ↔
      ∃ h p, (s.conn c).secure = some h ∧ s.world.peers.lookup h = some p ∧ p.attachedTo key := by
  simp only [attachedTo, Option.any_eq_true, Option.bind_eq_some_iff]
  grind

namespace Owned

variable {s : HostState HS}

/-- Between events, a connection holds a `SecurePeer` as long as it is open. -/
theorem closed_iff (h : Owned config crates .idle s) (c : ConnId) :
    s.closed c ↔ (s.conn c).secure = none := by
  constructor
  · intro hclosed
    cases hsecure : (s.conn c).secure with
    | none => rfl
    | some handle => exact absurd (h.closing c handle hsecure hclosed) List.not_mem_nil
  · intro hnone
    by_contra hclosed
    obtain ⟨handle, hsecure⟩ := h.linked.attached c hclosed
    cases hnone.symm.trans hsecure

/-- A stored session counts the connections attached to it. -/
theorem attachments (h : Owned config crates .idle s) {key : SessionKey} {session : StoredSession}
    (hs : s.world.sessions.lookup key = some session) : session.attachments.toNat =
      ((Finset.range s.conns.length).filter (s.attachedTo key ·)).card := by
  rw [h.linked.consistent.attachments key session hs]
  -- The handles that are attached are those of the connections that are.
  refine Finmap.count_eq_card (f := fun c => (s.conn c).secure) ?_ ?_ ?_
  · intro c hc d hd heq
    obtain ⟨handle, p, hsecure, -⟩ := HostState.attachedTo_iff.1 (Finset.mem_filter.1 hc).2
    exact h.linked.distinct c d handle hsecure (heq.symm.trans hsecure)
  · intro c hc
    obtain ⟨handle, p, hsecure, hp, hatt⟩ :=
      HostState.attachedTo_iff.1 (Finset.mem_filter.1 hc).2
    exact ⟨handle, p, hsecure, hp, hatt⟩
  · intro handle p hp hatt
    obtain ⟨c, hc⟩ := h.holder handle p hp
    have hopen : ¬s.closed c := fun hclosed => by
      cases ((h.closed_iff c).1 hclosed).symm.trans hc
    refine ⟨c, Finset.mem_filter.2 ⟨?_, HostState.attachedTo_iff.2 ⟨handle, p, hc, hp, hatt⟩⟩, hc⟩
    exact Finset.mem_range.2 (s.lt_length_of_not_closed hopen)

end Owned

end Host

end EasyTierEdge
