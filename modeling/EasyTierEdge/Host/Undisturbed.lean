import EasyTierEdge.Host.Registry

/-!
# What closings and route updates leave alone

However many connections an event closes, and whatever updates it builds and sends, the
connections that are not closed stay what they are but for the window of what they were sent,
the handshakes of others are not touched, and no frame of another peer is delivered
(`Undisturbed`).
-/

namespace EasyTierEdge

namespace Host

variable {HS : Type} {config : ServerConfig} {crates : HostCrates HS}

/-! ## Counting connections -/

namespace HostState

variable (s : HostState HS)

/-- A changed connection counts as what it is now. -/
theorem countP_modifyConn {c : ConnId} (hc : ¬s.closed c) (f : Connection → Connection)
    (p : Connection → Bool) :
    (s.modifyConn c f).conns.countP p + (if p (s.conn c) then 1 else 0) =
      s.conns.countP p + if p (f (s.conn c)) then 1 else 0 := by
  have hlt := s.lt_length_of_not_closed hc
  have hconn : s.conn c = s.conns[c] := List.getD_eq_getElem _ _ hlt
  have hsplit : s.conns = s.conns.take c ++ s.conns[c] :: s.conns.drop (c + 1) := by
    rw [← List.drop_eq_getElem_cons hlt, List.take_append_drop]
  have hcount : s.conns.countP p = (s.conns.take c).countP p +
      ((s.conns.drop (c + 1)).countP p + if p s.conns[c] then 1 else 0) := by
    rw [← List.countP_cons, ← List.countP_append, ← hsplit]
  rw [modifyConn, List.modify_eq_take_cons_drop hlt, List.countP_append, List.countP_cons, hcount,
    hconn]
  omega

/-- A change that leaves what is counted. -/
theorem countP_modifyConn_congr (c : ConnId) {f : Connection → Connection} {p : Connection → Bool}
    (hf : ∀ conn, p (f conn) = p conn) :
    (s.modifyConn c f).conns.countP p = s.conns.countP p := by
  by_cases hlt : c < s.conns.length
  · have hsplit : s.conns = s.conns.take c ++ s.conns[c] :: s.conns.drop (c + 1) := by
      rw [← List.drop_eq_getElem_cons hlt, List.take_append_drop]
    rw [modifyConn, List.modify_eq_take_cons_drop hlt, List.countP_append, List.countP_cons, hf,
      ← List.countP_cons, ← List.countP_append, ← hsplit]
  · rw [modifyConn, List.modify_eq_self (Nat.not_lt.1 hlt)]

/-- A closed connection is one less that is open. -/
theorem openConnections_unregister {c : ConnId} (hc : ¬s.closed c) :
    (s.unregister c).openConnections + 1 = s.openConnections := by
  have hcount := s.countP_modifyConn hc (fun conn => { conn with phase := .closed })
    fun conn => conn.phase ≠ .closed
  have hopen : (s.conn c).phase ≠ .closed := hc
  rw [openConnections, openConnections, conns_unregister]
  simpa [hopen] using hcount

/-! ## Histories -/

@[simp] theorem callsOn_note (e : Effect) (c : ConnId) :
    (s.note e).callsOn c = s.callsOn c ++ (e.callOn c).toList := by
  rw [callsOn, note, List.filterMap_append, callsOn]
  cases h : e.callOn c <;> simp [h]

@[simp] theorem framesOf_note (e : Effect) (c : ConnId) :
    (s.note e).framesOf c = s.framesOf c ++ (e.frameOf c).toList := by
  rw [framesOf, note, List.filterMap_append, framesOf]
  cases h : e.frameOf c <;> simp [h]

end HostState

/-- The frame of another peer that an effect delivers, with the two connections. -/
def Effect.delivery : Effect → Option (ConnId × ConnId × Bytes)
  | .sent target frame (.peer c) => some (c, target, frame)
  | _ => none

/-- The frames delivered so far: from whom, to whom, and the frame. -/
def HostState.deliveries (s : HostState HS) : List (ConnId × ConnId × Bytes) :=
  s.trace.filterMap Effect.delivery

@[simp] theorem HostState.deliveries_note (s : HostState HS) (e : Effect) :
    (s.note e).deliveries = s.deliveries ++ e.delivery.toList := by
  rw [deliveries, note, List.filterMap_append, deliveries]
  cases h : e.delivery <;> simp [h]

/-! ## Quiet steps -/

/-- What a connection is but for its window. -/
def Connection.core (conn : Connection) : Connection := conn.withWindow 0 0 0

/-- What closings and route updates leave alone. -/
structure Undisturbed (a b : Stage × HostState HS) : Prop where
  registration : b.1.registration = a.1.registration
  doomed : a.1.doomed ⊆ b.1.doomed
  conn : ∀ d, ¬b.2.closed d → (b.2.conn d).core = (a.2.conn d).core
  pending : ∀ d, a.2.pending d → b.2.pending d
  key : ∀ d, b.2.routeSyncKey d = a.2.routeSyncKey d
  calls : ∀ d, ¬a.2.ready d → b.2.callsOn d = a.2.callsOn d
  traffic : ∀ d, ∃ more, b.2.callsOn d = a.2.callsOn d ++ more ∧ ∀ x ∈ more, Traffic x.1
  frames : ∀ d, b.2.framesOf d = a.2.framesOf d
  deliveries : b.2.deliveries = a.2.deliveries
  length : b.2.conns.length = a.2.conns.length
  openConnections : b.2.openConnections ≤ a.2.openConnections

namespace Undisturbed

variable {a b c : Stage × HostState HS}

theorem refl (a : Stage × HostState HS) : Undisturbed a a where
  registration := rfl
  doomed := Set.Subset.rfl
  conn _ _ := rfl
  pending _ h := h
  key _ := rfl
  calls _ _ := rfl
  traffic _ := ⟨[], (List.append_nil _).symm, List.forall_mem_nil _⟩
  frames _ := rfl
  deliveries := rfl
  length := rfl
  openConnections := le_rfl

/-- A closed connection stays closed. -/
theorem closed (h : Undisturbed a b) {d : ConnId} (hd : a.2.closed d) : b.2.closed d := by
  by_contra hopen
  refine hopen ?_
  have hphase := congrArg Connection.phase (h.conn d hopen)
  exact hphase.trans hd

/-- A connection that is ready was ready before. -/
theorem ready (h : Undisturbed a b) {d : ConnId} (hd : b.2.ready d) : a.2.ready d :=
  (congrArg Connection.phase (h.conn d hd.not_closed)).symm.trans hd

/-- A ready connection stays ready or is closed. -/
theorem ready_or_closed (h : Undisturbed a b) {d : ConnId} (hd : a.2.ready d) :
    b.2.ready d ∨ b.2.closed d := by
  by_cases hclosed : b.2.closed d
  · exact .inr hclosed
  · exact .inl ((congrArg Connection.phase (h.conn d hclosed)).trans hd)

theorem trans (h : Undisturbed a b) (h' : Undisturbed b c) : Undisturbed a c where
  registration := h'.registration.trans h.registration
  doomed := h.doomed.trans h'.doomed
  conn d hd := (h'.conn d hd).trans (h.conn d fun hb => hd (h'.closed hb))
  pending d hd := h'.pending d (h.pending d hd)
  key d := (h'.key d).trans (h.key d)
  calls d hd := (h'.calls d fun hb => hd (h.ready hb)).trans (h.calls d hd)
  traffic d := by
    obtain ⟨more, hmore, htraffic⟩ := h.traffic d
    obtain ⟨more', hmore', htraffic'⟩ := h'.traffic d
    refine ⟨more ++ more', by rw [hmore', hmore, List.append_assoc], fun x hx => ?_⟩
    exact (List.mem_append.1 hx).elim (htraffic x) (htraffic' x)
  frames d := (h'.frames d).trans (h.frames d)
  deliveries := h'.deliveries.trans h.deliveries
  length := h'.length.trans h.length
  openConnections := h'.openConnections.trans h.openConnections

/-- A change of something else than the connections, that is recorded. -/
theorem of_note {t t' : Stage} {s s' : HostState HS} (es : List Effect)
    (hreg : t'.registration = t.registration) (hdoomed : t.doomed ⊆ t'.doomed)
    (hconns : s'.conns = s.conns)
    (htrace : s'.trace = s.trace ++ es) (hcalls : ∀ d, ¬s.ready d → ∀ e ∈ es, e.callOn d = none)
    (htraffic : ∀ d, ∀ x ∈ es.filterMap (Effect.callOn d), Traffic x.1)
    (hframes : ∀ d, ∀ e ∈ es, e.frameOf d = none) (hdeliveries : ∀ e ∈ es, e.delivery = none) :
    Undisturbed (t, s) (t', s') := by
  have hconn : s'.conn = s.conn := by
    funext d
    rw [HostState.conn, hconns, HostState.conn]
  constructor
  · exact hreg
  · exact hdoomed
  · intro d _
    rw [hconn]
  · intro d hd
    change (s'.conn d).phase.pending = true
    rw [hconn]
    exact hd
  · intro d
    change ((s'.conn d).networkName, (s'.conn d).peerId) = _
    rw [hconn]
    rfl
  · intro d hd
    change s'.trace.filterMap _ = s.trace.filterMap _
    rw [htrace, List.filterMap_append, List.filterMap_eq_nil_iff.2 (hcalls d hd), List.append_nil]
  · intro d
    refine ⟨es.filterMap (Effect.callOn d), ?_, htraffic d⟩
    change s'.trace.filterMap _ = s.trace.filterMap _ ++ _
    rw [htrace, List.filterMap_append]
  · intro d
    change s'.trace.filterMap _ = s.trace.filterMap _
    rw [htrace, List.filterMap_append, List.filterMap_eq_nil_iff.2 (hframes d), List.append_nil]
  · change s'.trace.filterMap _ = s.trace.filterMap _
    rw [htrace, List.filterMap_append, List.filterMap_eq_nil_iff.2 hdeliveries, List.append_nil]
  · exact congrArg List.length hconns
  · change s'.conns.countP _ ≤ s.conns.countP _
    rw [hconns]

/-- A change of a connection that leaves it but for its window. -/
theorem of_modifyConn (t : Stage) (s : HostState HS) (c : ConnId) {f : Connection → Connection}
    (hf : ∀ conn, (f conn).core = conn.core) : Undisturbed (t, s) (t, s.modifyConn c f) := by
  have hconn : ∀ d, ((s.modifyConn c f).conn d).core = (s.conn d).core := fun d =>
    s.conn_modifyConn_congr hf c d
  constructor
  · rfl
  · exact Set.Subset.rfl
  · exact fun d _ => hconn d
  · intro d hd
    change (((s.modifyConn c f).conn d).core).phase.pending = true
    rw [hconn]
    exact hd
  · intro d
    change (((s.modifyConn c f).conn d).core.networkName, ((s.modifyConn c f).conn d).core.peerId) = _
    rw [hconn]
    rfl
  · exact fun _ _ => rfl
  · exact fun d => ⟨[], (List.append_nil _).symm, List.forall_mem_nil _⟩
  · exact fun _ => rfl
  · rfl
  · exact List.length_modify ..
  · refine (s.countP_modifyConn_congr c fun conn => ?_).le
    have hphase : (f conn).core.phase = conn.core.phase := congrArg Connection.phase (hf conn)
    change decide ((f conn).core.phase ≠ .closed) = _
    rw [hphase]
    rfl

/-- Closing a ready connection. -/
theorem of_left (t : Stage) {s : HostState HS} {c : ConnId} (hc : s.ready c) (a : Ambient) :
    Undisturbed (t, s) (t.close c, (s.unregister c).removePeer crates c a) := by
  obtain ⟨_, _, _, heq⟩ := s.unregister_eq c
  have htrace : ((s.unregister c).removePeer crates c a).trace =
      s.trace ++ [.closed c, .removed c] := by
    change (s.unregister c).trace ++ [.removed c] = _
    rw [heq]
    simp
  constructor
  · rfl
  · exact Set.Subset.rfl
  · intro d hd
    have hdc : d ≠ c := by
      rintro rfl
      exact hd (s.closed_unregister hc.not_closed)
    change ((s.unregister c).conn d).core = _
    rw [s.conn_unregister_of_ne c hdc]
  · intro d hd
    have hdc : d ≠ c := by
      rintro rfl
      exact hd.not_ready hc
    exact (s.pending_unregister c hc.not_closed).2 ⟨hd, hdc⟩
  · exact s.routeSyncKey_unregister c
  · intro d _
    rw [HostState.callsOn, htrace, List.filterMap_append]
    exact List.append_nil _
  · intro d
    refine ⟨[], ?_, List.forall_mem_nil _⟩
    rw [HostState.callsOn, htrace, List.filterMap_append]
    rfl
  · intro d
    rw [HostState.framesOf, htrace, List.filterMap_append]
    exact List.append_nil _
  · rw [HostState.deliveries, htrace, List.filterMap_append]
    exact List.append_nil _
  · change (s.unregister c).conns.length = s.conns.length
    rw [s.conns_unregister]
    exact List.length_modify ..
  · have hopen := s.openConnections_unregister hc.not_closed
    change (s.unregister c).openConnections ≤ s.openConnections
    omega

/-- Disposing a closed connection. -/
theorem of_disposed (t : Stage) {s : HostState HS} {c : ConnId} (hc : s.closed c) (a : Ambient) :
    Undisturbed (t.close c, s) (t, s.disposeConnection crates c a) := by
  let dispose : Connection → Connection := fun conn =>
    { conn with handshakeTimer := false, secure := none, legacyCipher := none }
  have hother : ∀ d ≠ c, (s.disposeConnection crates c a).conn d = s.conn d := fun d hd =>
    s.conn_modifyConn_of_ne hd dispose
  have hphase : ∀ d, ((s.disposeConnection crates c a).conn d).phase = (s.conn d).phase := fun d =>
    s.conn_modifyConn_congr (g := Connection.phase) (f := dispose) (fun _ => rfl) c d
  have htrace : (s.disposeConnection crates c a).trace = s.trace ++ [.disposed c] := rfl
  constructor
  · rfl
  · exact Set.Subset.rfl
  · intro d hd
    have hdc : d ≠ c := by
      rintro rfl
      exact hd ((hphase d).trans hc)
    change ((s.disposeConnection crates c a).conn d).core = _
    rw [hother d hdc]
  · intro d hd
    change ((s.disposeConnection crates c a).conn d).phase.pending = true
    rw [hphase]
    exact hd
  · intro d
    exact Prod.ext
      (s.conn_modifyConn_congr (g := Connection.networkName) (f := dispose) (fun _ => rfl) c d)
      (s.conn_modifyConn_congr (g := Connection.peerId) (f := dispose) (fun _ => rfl) c d)
  · intro d _
    rw [HostState.callsOn, htrace, List.filterMap_append]
    exact List.append_nil _
  · intro d
    refine ⟨[], ?_, List.forall_mem_nil _⟩
    rw [HostState.callsOn, htrace, List.filterMap_append]
    rfl
  · intro d
    rw [HostState.framesOf, htrace, List.filterMap_append]
    exact List.append_nil _
  · rw [HostState.deliveries, htrace, List.filterMap_append]
    exact List.append_nil _
  · exact List.length_modify ..
  · exact (s.countP_modifyConn_congr (f := dispose) c fun _ => rfl).le

/-- Building an update. -/
theorem of_rebuild (t t' : Stage) (hreg : t'.registration = t.registration)
    (hdoomed : t.doomed ⊆ t'.doomed) (s : HostState HS) (key : PeerKey) (state : RouteSyncState)
    (now : ℕ) (a : Ambient) : Undisturbed (t, s) (t', (s.rebuild crates key state now a).2) := by
  rcases s.rebuild_cases crates key state now a with ⟨e, -, heq⟩ | ⟨packet, -, heq⟩
  · rw [heq]
    exact of_note [] hreg hdoomed rfl (List.append_nil _).symm (by simp) (by simp)
      (by simp) (by simp)
  · rw [heq]
    exact of_note [.built state.peer state.forceFull] hreg hdoomed rfl rfl
      (by simp [Effect.callOn]) (by simp [Effect.callOn]) (by simp [Effect.frameOf])
      (by simp [Effect.delivery])

end Undisturbed

theorem Quiet.undisturbed {a b : Stage × HostState HS} (h : Quiet crates a b) :
    Undisturbed a b := by
  cases h with
  | consulted =>
    exact .of_note [] rfl Set.Subset.rfl rfl (List.append_nil _).symm (by simp) (by simp)
      (by simp) (by simp)
  | @encrypted t s c handle packet clock hc =>
    refine .of_note [.secure c (.encryptPacket packet clock) _] rfl Set.Subset.rfl rfl rfl
      ?_ ?_ (by simp [Effect.frameOf]) (by simp [Effect.delivery])
    · -- A connection that is not ready is another one.
      intro d hd e he
      obtain rfl := List.mem_singleton.1 he
      have hdc : c ≠ d := fun hcd => hd (hcd ▸ hc)
      rw [Effect.callOn, if_neg hdc]
    · intro d x hx
      obtain ⟨e, he, hex⟩ := List.mem_filterMap.1 hx
      obtain rfl := List.mem_singleton.1 he
      rw [Effect.callOn] at hex
      split_ifs at hex
      obtain rfl := Option.some.inj hex
      trivial
  | counted => exact .of_modifyConn _ _ _ fun _ => rfl
  | @sent t s c frame =>
    exact .of_note [.sent c frame .relay] rfl Set.Subset.rfl rfl rfl
      (by simp [Effect.callOn]) (by simp [Effect.callOn]) (by simp [Effect.frameOf])
      (by simp [Effect.delivery])
  | left hc => exact .of_left _ hc _
  | disposed hc => exact .of_disposed _ hc _
  | @announced t s c forceFull =>
    exact .of_note [.announced c forceFull] rfl Set.Subset.rfl rfl rfl
      (by simp [Effect.callOn]) (by simp [Effect.callOn]) (by simp [Effect.frameOf])
      (by simp [Effect.delivery])
  | @rebuilt t => exact .of_rebuild t (t.flush none) rfl Set.Subset.rfl _ _ _ _ _
  | @unbuilt t s c =>
    exact .of_rebuild t ((t.flush none).doom c) rfl (Set.subset_insert _ _) _ _ _ _ _
  | unsent =>
    exact .of_note [] rfl (Set.subset_insert _ _) rfl (List.append_nil _).symm (by simp) (by simp)
      (by simp) (by simp)

/-- Closings and route updates, one after another. -/
theorem undisturbed_of_path {a b : Stage × HostState HS}
    (h : Relation.ReflTransGen (Quiet crates) a b) : Undisturbed a b := by
  induction h with
  | refl => exact .refl a
  | tail _ hstep ih => exact ih.trans hstep.undisturbed

end Host

end EasyTierEdge
