import EasyTierEdge.Host.Reconnects

/-!
# Route updates of the two layers

The host and the core each remember which updates wait for a response. `Synced` says that they
agree at every step, up to what is unfinished: an update that is in flight has at most one
transaction in the core, whose deadline is that of the host, and when none is in flight, there is
no transaction, and nothing was announced that was not sent.
-/

namespace EasyTierEdge

namespace Host

variable {HS : Type} {config : ServerConfig} {crates : HostCrates HS}

/-! ## What was announced -/

/-- The update that a connection is to be sent, if any: whether it must be a full one. -/
def Effect.wants (c : ConnId) (w : Option Bool) : Effect → Option Bool
  | .announced d forceFull => if d = c then some (w.getD false || forceFull) else w
  | .built d _ => if d = c then none else w
  | _ => w

/-- The effect has to do with the updates of a connection. -/
def Effect.updates (c : ConnId) : Effect → Prop
  | .announced d _ | .built d _ => d = c
  | _ => False

/-- What was announced to a connection since the last update was built for it. -/
def wantedIn (c : ConnId) (trace : List Effect) : Option Bool :=
  trace.foldl (Effect.wants c) none

/-- Whenever a full update was asked for, the update that was built is one. -/
def Carried (trace : List Effect) : Prop :=
  ∀ before c forceFull, before ++ [.built c forceFull] <+: trace →
    wantedIn c before = some true → forceFull = true

theorem wantedIn_concat (c : ConnId) (trace : List Effect) (e : Effect) :
    wantedIn c (trace ++ [e]) = e.wants c (wantedIn c trace) :=
  List.foldl_concat ..

theorem wantedIn_append {c : ConnId} (trace : List Effect) {es : List Effect}
    (h : ∀ e ∈ es, ¬e.updates c) : wantedIn c (trace ++ es) = wantedIn c trace := by
  induction es using List.reverseRecOn with
  | nil => rw [List.append_nil]
  | append_singleton es e ih =>
    have he := h e (List.mem_append_right _ (List.mem_singleton_self e))
    rw [← List.append_assoc, wantedIn_concat, ih fun e' he' => h e' (List.mem_append_left _ he')]
    cases e with
    | announced d forceFull => exact if_neg he
    | built d forceFull => exact if_neg he
    | _ => rfl

/-- An update that is built carries what was asked for. -/
theorem Carried.concat {trace : List Effect} (h : Carried trace) {e : Effect}
    (he : ∀ c forceFull, e = .built c forceFull → wantedIn c trace = some true → forceFull = true) :
    Carried (trace ++ [e]) := by
  intro before c forceFull hprefix
  rcases List.prefix_concat_iff.1 hprefix with heq | hprefix
  · obtain ⟨rfl, hlast⟩ := List.append_inj' heq rfl
    exact he c forceFull (List.cons.inj hlast).1.symm
  · exact h before c forceFull hprefix

theorem Carried.append {trace : List Effect} (h : Carried trace) {es : List Effect}
    (hes : ∀ c, ∀ e ∈ es, ¬e.updates c) : Carried (trace ++ es) := by
  induction es using List.reverseRecOn with
  | nil => rwa [List.append_nil]
  | append_singleton es e ih =>
    rw [← List.append_assoc]
    refine (ih fun c e' he' => hes c e' (List.mem_append_left _ he')).concat ?_
    rintro c forceFull rfl
    exact absurd rfl (hes c _ (List.mem_append_right _ (List.mem_singleton_self _)))

namespace HostState

variable (s : HostState HS)

def wanted (c : ConnId) : Option Bool := wantedIn c s.trace

/-- The state of the updates of a connection. -/
def syncState (c : ConnId) : Option RouteSyncState := s.routeSyncStates.get (s.routeSyncKey c)

/-- The transactions of the updates for the peer of a connection. -/
def transaction (c : ConnId) (key : RpcKey) (o : OutstandingRoute) : Prop :=
  s.core.waiting (s.conn c).networkName (s.conn c).peerId key o

end HostState

namespace HostState

variable (s : HostState HS)

@[simp] theorem syncState_modifySync (c : ConnId) (f : RouteSyncState → RouteSyncState) :
    (s.modifySync (s.routeSyncKey c) f).syncState c = (s.syncState c).map f :=
  (JsMap.get_modify ..).trans (if_pos rfl)

/-- The updates of another connection. -/
theorem syncState_modifySync_of_ne {t : Stage} (hregistry : Registry t s) {c d : ConnId}
    (hc : s.ready c) (hd : s.ready d) (hdc : d ≠ c) (f : RouteSyncState → RouteSyncState) :
    (s.modifySync (s.routeSyncKey c) f).syncState d = s.syncState d :=
  (JsMap.get_modify ..).trans (if_neg fun hkey => hdc (hregistry.eq_of_ready hd hc hkey))

end HostState

/-! ## Steps aside -/

/-- A step that leaves the updates of the connections that are ready after it. -/
structure Aside (a b : Stage × HostState HS) : Prop where
  ready : ∀ d, b.2.ready d → a.2.ready d
  ready_or_departed : ∀ d, a.2.ready d → b.2.ready d ∨ b.2.departed d
  departed : ∀ d, a.2.departed d → b.2.departed d
  born : ∀ d, b.2.pending d ∨ b.2.conns.length ≤ d → a.2.pending d ∨ a.2.conns.length ≤ d
  key : ∀ d, a.2.ready d → b.2.routeSyncKey d = a.2.routeSyncKey d
  syncState : ∀ d, b.2.ready d → b.2.syncState d = a.2.syncState d
  outstanding : ∀ key o, b.2.core.outstandingRoutes.lookup key = some o →
    a.2.core.outstandingRoutes.lookup key = some o
  /-- The transactions of a connection end with it. -/
  owner : ∀ d key o, a.2.ready d → a.2.transaction d key o →
    b.2.core.outstandingRoutes.lookup key = some o → b.2.ready d
  trace : ∃ es, b.2.trace = a.2.trace ++ es ∧ ∀ d, ∀ e ∈ es, ¬e.updates d
  flushing : b.1.flushing = a.1.flushing
  doomed : ∀ d, b.2.ready d → d ∈ a.1.doomed → d ∈ b.1.doomed

namespace Aside

variable {t t' : Stage} {s s' : HostState HS} {c : ConnId}

/-- The connections stay what they are. -/
theorem of_conns (es : List Effect) (hconns : s'.conns = s.conns)
    (hsync : ∀ d, s.ready d → s'.routeSyncStates.get (s.routeSyncKey d) = s.syncState d)
    (houtstanding : ∀ key o, s'.core.outstandingRoutes.lookup key = some o →
      s.core.outstandingRoutes.lookup key = some o)
    (htrace : s'.trace = s.trace ++ es) (hes : ∀ d, ∀ e ∈ es, ¬e.updates d)
    (hflushing : t'.flushing = t.flushing)
    (hdoomed : ∀ d, s.ready d → d ∈ t.doomed → d ∈ t'.doomed) : Aside (t, s) (t', s') := by
  have hconn : s'.conn = s.conn := by
    funext d
    rw [HostState.conn, hconns, HostState.conn]
  have hready : s'.ready = s.ready := by
    funext d
    rw [HostState.ready, hconn, HostState.ready]
  have hkey : s'.routeSyncKey = s.routeSyncKey := by
    funext d
    rw [HostState.routeSyncKey, hconn, HostState.routeSyncKey]
  constructor
  · intro d hd
    rwa [← hready]
  · intro d hd
    exact .inl (hready ▸ hd)
  · intro d hd
    rw [HostState.departed, HostState.closed, hconn, hconns]
    exact hd
  · intro d hd
    rw [HostState.pending, hconn, hconns] at hd
    exact hd
  · exact fun d _ => congrFun hkey d
  · intro d hd
    rw [HostState.syncState, hkey]
    exact hsync d (hready ▸ hd)
  · exact houtstanding
  · exact fun d _ _ hd _ _ => hready ▸ hd
  · exact ⟨es, htrace, hes⟩
  · exact hflushing
  · exact fun d hd => hdoomed d (hready ▸ hd)

/-- Nothing but the trace has to do with updates. -/
theorem of_trace (es : List Effect) (hconns : s'.conns = s.conns)
    (hsync : s'.routeSyncStates = s.routeSyncStates) (hcore : s'.core = s.core)
    (htrace : s'.trace = s.trace ++ es) (hes : ∀ d, ∀ e ∈ es, ¬e.updates d) :
    Aside (t, s) (t, s') :=
  of_conns es hconns (fun d _ => by rw [hsync]; rfl) (fun key o h => by rwa [hcore] at h) htrace
    hes rfl fun _ _ h => h

/-- What leaves the connections alone, and the updates. -/
theorem of_undisturbed {a b : Stage × HostState HS} (hab : Undisturbed a b)
    (es : List Effect) (hsync : b.2.routeSyncStates = a.2.routeSyncStates)
    (hcore : b.2.core = a.2.core) (htrace : b.2.trace = a.2.trace ++ es)
    (hes : ∀ d, ∀ e ∈ es, ¬e.updates d) (hflushing : b.1.flushing = a.1.flushing)
    (hleft : ∀ d, a.2.ready d → b.2.ready d) : Aside a b where
  ready _ := hab.ready
  ready_or_departed d hd := .inl (hleft d hd)
  departed d hd := ⟨hab.closed hd.1, hab.length ▸ hd.2⟩
  born d hd := by
    refine hd.imp (fun hpending => ?_) fun hle => hab.length ▸ hle
    have hphase := congrArg Connection.phase (hab.conn d hpending.not_closed)
    change (b.2.conn d).phase = (a.2.conn d).phase at hphase
    rw [HostState.pending, hphase] at hpending
    exact hpending
  key d _ := hab.key d
  syncState d _ := by rw [HostState.syncState, hsync, hab.key, HostState.syncState]
  outstanding key o ho := by rwa [hcore] at ho
  owner d _ _ hd _ _ := hleft d hd
  trace := ⟨es, htrace, hes⟩
  flushing := hflushing
  doomed _ _ hd := hab.doomed hd

/-- A change of a connection that leaves whether it is ready, and the key of a ready one. -/
theorem of_modifyConn {f : Connection → Connection} (hc : ¬s.closed c)
    (hready : (f (s.conn c)).phase = .ready ↔ (s.conn c).phase = .ready)
    (hclosed : (f (s.conn c)).phase ≠ .closed)
    (hkey : s.ready c → (s.modifyConn c f).routeSyncKey c = s.routeSyncKey c)
    (hflushing : t'.flushing = t.flushing)
    (hdoomed : ∀ d, s.ready d → d ∈ t.doomed → d ∈ t'.doomed) :
    Aside (t, s) (t', s.modifyConn c f) := by
  have hself := s.conn_modifyConn_self hc f
  have hother : ∀ d ≠ c, (s.modifyConn c f).conn d = s.conn d := fun d hd =>
    s.conn_modifyConn_of_ne hd f
  have hsame : ∀ d, (s.modifyConn c f).ready d ↔ s.ready d := by
    intro d
    by_cases hdc : d = c
    · subst hdc
      rw [HostState.ready, hself, hready, HostState.ready]
    · rw [HostState.ready, hother d hdc, HostState.ready]
  have hkeys : ∀ d, s.ready d → (s.modifyConn c f).routeSyncKey d = s.routeSyncKey d := by
    intro d hd
    by_cases hdc : d = c
    · subst hdc
      exact hkey hd
    · rw [HostState.routeSyncKey, hother d hdc, HostState.routeSyncKey]
  have hlength : (s.modifyConn c f).conns.length = s.conns.length := List.length_modify ..
  constructor
  · exact fun d => (hsame d).1
  · exact fun d hd => .inl ((hsame d).2 hd)
  · rintro d ⟨hd, hlt⟩
    have hdc : d ≠ c := by
      rintro rfl
      exact hc hd
    refine ⟨?_, hlt.trans_eq hlength.symm⟩
    change ((s.modifyConn c f).conn d).phase = .closed
    rw [hother d hdc]
    exact hd
  · rintro d (hd | hd)
    · refine .inl ?_
      by_cases hdc : d = c
      · subst hdc
        rcases s.phase_cases d with hpending | hr | hclosed
        · exact hpending
        · exact absurd ((hsame d).2 hr) hd.not_ready
        · exact absurd hclosed hc
      · rw [HostState.pending, hother d hdc] at hd
        exact hd
    · exact .inr (hlength ▸ hd)
  · exact hkeys
  · intro d hd
    rw [HostState.syncState, hkeys d ((hsame d).1 hd)]
    rfl
  · exact fun _ _ h => h
  · exact fun d _ _ hd _ _ => (hsame d).2 hd
  · exact ⟨[], (List.append_nil _).symm, fun _ _ he => absurd he List.not_mem_nil⟩
  · exact hflushing
  · exact fun d hd => hdoomed d ((hsame d).1 hd)

/-- Closing a connection. -/
theorem unregister (hc : ¬s.closed c) (es : List Effect)
    (hconns : s'.conns = (s.unregister c).conns)
    (hsync : ∀ d, d ≠ c → s.ready d → s'.routeSyncStates.get (s.routeSyncKey d) = s.syncState d)
    (houtstanding : ∀ key o, s'.core.outstandingRoutes.lookup key = some o →
      s.core.outstandingRoutes.lookup key = some o ∧
        (s.ready c → s.routeSyncKey c ≠ (key.network, key.peerId)))
    (htrace : s'.trace = s.trace ++ es) (hes : ∀ d, ∀ e ∈ es, ¬e.updates d)
    (hflushing : t'.flushing = t.flushing) (hdoomed : t.doomed ⊆ t'.doomed) :
    Aside (t, s) (t', s') := by
  have hconn : s'.conn = (s.unregister c).conn := by
    funext d
    rw [HostState.conn, hconns, HostState.conn]
  have hkeys : ∀ d, s'.routeSyncKey d = s.routeSyncKey d := fun d => by
    rw [HostState.routeSyncKey, hconn]
    exact s.routeSyncKey_unregister c d
  have hready : ∀ d, s'.ready d ↔ s.ready d ∧ d ≠ c := fun d => by
    rw [HostState.ready, hconn]
    exact s.ready_unregister c hc
  have hclosed : ∀ d, s'.closed d ↔ s.closed d ∨ d = c := fun d => by
    rw [HostState.closed, hconn]
    exact s.closed_unregister_iff c hc
  have hlength : s'.conns.length = s.conns.length := by
    rw [hconns, s.conns_unregister]
    exact List.length_modify ..
  constructor
  · exact fun d hd => ((hready d).1 hd).1
  · intro d hd
    by_cases hdc : d = c
    · exact .inr ⟨(hclosed d).2 (.inr hdc), hlength ▸ s.lt_length_of_not_closed hd.not_closed⟩
    · exact .inl ((hready d).2 ⟨hd, hdc⟩)
  · exact fun d hd => ⟨(hclosed d).2 (.inl hd.1), hlength ▸ hd.2⟩
  · rintro d (hd | hd)
    · rw [HostState.pending, hconn] at hd
      exact .inl ((s.pending_unregister c hc).1 hd).1
    · exact .inr (hlength ▸ hd)
  · exact fun d _ => hkeys d
  · intro d hd
    obtain ⟨hd, hdc⟩ := (hready d).1 hd
    rw [HostState.syncState, hkeys]
    exact hsync d hdc hd
  · exact fun key o ho => (houtstanding key o ho).1
  · intro d key o hd htransaction ho
    refine (hready d).2 ⟨hd, ?_⟩
    rintro rfl
    obtain ⟨hname, hpeer, -⟩ := htransaction
    refine (houtstanding key o ho).2 hd ?_
    rw [hname, hpeer]
    rfl
  · exact ⟨es, htrace, hes⟩
  · exact hflushing
  · exact fun d _ hd => hdoomed hd

end Aside

/-- What a step does to the updates. -/
inductive Syncs (crates : HostCrates HS) : Stage × HostState HS → Stage × HostState HS → Prop
  | aside {a b : Stage × HostState HS} : Aside a b → Syncs crates a b
  | completed {t : Stage} {s : HostState HS} {c : ConnId} : s.pending c →
      t.registration = .added c →
      Syncs crates (t, s)
        ((t.register .none).spare c, (s.completeHandshake c).releaseHandshakeSlot c)
  | announced {t : Stage} {s : HostState HS} {c : ConnId} {forceFull : Bool} : s.ready c →
      t.flushing = none →
      Syncs crates (t, s) (t.flush (if s.inFlight (s.routeSyncKey c) then none else some c),
        s.announce c forceFull)
  | rebuilt {t : Stage} {s : HostState HS} {c : ConnId} {state : RouteSyncState} {a : Ambient}
      {now : ℕ} {packet : Bytes} : t.flushing = some c → s.ready c → state.peer = c →
      s.routeSyncStates.get (s.routeSyncKey c) = some state → now < 8640000000000001 →
      (s.rebuild crates (s.routeSyncKey c) state now a).1 = .ok packet →
      Syncs crates (t, s) (t.flush none, (s.rebuild crates (s.routeSyncKey c) state now a).2)
  | unbuilt {t : Stage} {s : HostState HS} {c : ConnId} {state : RouteSyncState} {a : Ambient}
      {now : ℕ} {e : String} : t.flushing = some c → s.ready c → state.peer = c →
      (s.rebuild crates (s.routeSyncKey c) state now a).1 = .error e →
      Syncs crates (t, s) ((t.flush none).doom c,
        (s.rebuild crates (s.routeSyncKey c) state now a).2)
  | unsent {t : Stage} {s : HostState HS} {c : ConnId} {forceFull : Bool} : s.ready c →
      t.flushing = none → Syncs crates (t, s) (t.doom c, s.unsend (s.routeSyncKey c) forceFull)
  | responded {t : Stage} {s : HostState HS} {c : ConnId} {payload : Bytes} {a : Ambient} :
      s.ready c → t.flushing = none →
      Syncs crates (t, s) (t.flush (if (s.handleResponse crates c payload a).1 = .ok true then some c
        else none), (s.handleResponse crates c payload a).2)
  | settled {t : Stage} {s : HostState HS} {c : ConnId} {state : RouteSyncState} {now : ℕ} :
      t.flushing = some c → s.ready c →
      s.routeSyncStates.get (s.routeSyncKey c) = some state →
      Syncs crates (t, s) (t.flush (if state.dirty || state.forceFull then some c else none),
        s.settle (s.routeSyncKey c) now)
  | unsettled {t : Stage} {s : HostState HS} {c : ConnId} : t.flushing = some c →
      s.routeSyncStates.get (s.routeSyncKey c) = none → Syncs crates (t, s) (t.flush none, s)
  | expired {t : Stage} {s : HostState HS} {key : PeerKey} {state : RouteSyncState} {now : ℕ} :
      t.flushing = none → s.routeSyncStates.get key = some state → state.inFlight = true →
      (routeSyncTimeoutMs : ℤ) < (now : ℤ) - state.sentAt → now < 8640000000000001 →
      InTime now s.core → Syncs crates (t, s) (t.flush (some state.peer), s.expire key)

theorem Quiet.syncs {a b : Stage × HostState HS} (hstep : Quiet crates a b)
    (hregistry : Registry a.1 a.2) : Syncs crates a b := by
  have hab := hstep.undisturbed
  cases hstep with
  | consulted =>
    exact .aside (.of_trace [] rfl rfl rfl (List.append_nil _).symm (by simp))
  | encrypted => exact .aside (.of_trace [.secure _ _ _] rfl rfl rfl rfl (by simp [Effect.updates]))
  | @counted t s c startedAt bytes frames hc =>
    refine .aside (.of_undisturbed hab [] rfl rfl (List.append_nil _).symm (by simp) rfl fun d hd => ?_)
    exact (s.conn_modifyConn_congr (g := Connection.phase)
      (f := (·.withWindow startedAt bytes frames)) (fun _ => rfl) c d).trans hd
  | @sent t s c frame =>
    exact .aside (.of_trace [.sent c frame .relay] rfl rfl rfl rfl (by simp [Effect.updates]))
  | @left t s c a hc =>
    obtain ⟨_, _, _, heq⟩ := s.unregister_eq c
    have htrace : ((s.unregister c).removePeer crates c a).trace =
        s.trace ++ [.closed c, .removed c] := by
      change (s.unregister c).trace ++ [.removed c] = _
      rw [heq, List.append_assoc]
      rfl
    have hkey := s.routeSyncKey_unregister c c
    have hconn := Prod.mk.inj hkey
    refine .aside (.unregister hc.not_closed _ rfl (fun d hdc hd => ?_) (fun key o ho => ?_) htrace
      (by simp [Effect.updates]) rfl Set.Subset.rfl)
    · have hne : s.routeSyncKey d ≠ s.routeSyncKey c := fun h => hdc (hregistry.eq_of_ready hd hc h)
      change ((s.unregister c).routeSyncStates.delete ((s.unregister c).routeSyncKey c)).get _ = _
      rw [JsMap.get_delete, hkey, if_neg hne, heq]
      rfl
    · change ((s.unregister c).core.outstandingRoutes.retain fun key _ =>
        key.network ≠ ((s.unregister c).conn c).networkName ||
          key.peerId ≠ ((s.unregister c).conn c).peerId).lookup key = some o at ho
      rw [Finmap.lookup_retain, Option.filter_eq_some_iff, hconn.1, hconn.2, heq] at ho
      refine ⟨ho.1, fun _ h => ?_⟩
      obtain ⟨hname, hpeer⟩ := Prod.mk.inj h
      simp [hname, hpeer] at ho
  | @disposed t s c a hc =>
    refine .aside (.of_undisturbed hab [.disposed c] rfl rfl rfl (by simp [Effect.updates]) rfl
      fun d hd => ?_)
    exact (s.conn_modifyConn_congr (g := Connection.phase) (f := fun conn =>
      { conn with handshakeTimer := false, secure := none, legacyCipher := none })
      (fun _ => rfl) c d).trans hd
  | announced hc hflushing => exact .announced hc hflushing
  | rebuilt hflushing hc hpeer hstate hnow hok => exact .rebuilt hflushing hc hpeer hstate hnow hok
  | unbuilt hflushing hc hpeer _ herror => exact .unbuilt hflushing hc hpeer herror
  | unsent hc hflushing => exact .unsent hc hflushing

/-- Every step leaves the updates, or is one of theirs. -/
theorem Step.syncs {a b : Stage × HostState HS} (hstep : Step config crates a b)
    (hregistry : Registry a.1 a.2) : Syncs crates a b := by
  cases hstep with
  | quiet hquiet => exact hquiet.syncs hregistry
  | kept | named | entered =>
    exact .aside (.of_conns [] rfl (fun _ _ => rfl) (fun _ _ h => h) (List.append_nil _).symm
      (by simp) rfl fun _ _ hd => hd)
  | opened =>
    exact .aside (.of_conns [] rfl (fun _ _ => rfl) (fun _ _ h => h) (List.append_nil _).symm
      (by simp) rfl fun _ _ hd => .inr hd)
  | @received t s c frame =>
    exact .aside (.of_trace [.received c frame] rfl rfl rfl rfl (by simp [Effect.updates]))
  | called => exact .aside (.of_trace [.secure _ _ _] rfl rfl rfl rfl (by simp [Effect.updates]))
  | decrypted => exact .aside (.of_trace [.secure _ _ _] rfl rfl rfl rfl (by simp [Effect.updates]))
  | @answered t s c frame =>
    exact .aside (.of_trace [.sent c frame .relay] rfl rfl rfl rfl (by simp [Effect.updates]))
  | @forwarded t s c target frame =>
    exact .aside (.of_trace [.sent target frame (.peer c)] rfl rfl rfl rfl (by simp [Effect.updates]))
  | @accepted t s ipKey a _ _ _ haccept =>
    obtain ⟨world, timer, heq⟩ := s.accept_eq haccept
    have hlength : (s.accept config crates ipKey a).2.conns.length = s.conns.length + 1 := by
      rw [heq]
      exact List.length_append
    have hconn : ∀ d ≠ s.conns.length, (s.accept config crates ipKey a).2.conn d = s.conn d := by
      intro d hd
      have hcreated := s.conn_createConnection a.handle ipKey a d
      rw [if_neg hd] at hcreated
      rw [heq]
      exact hcreated
    have hborn : (s.accept config crates ipKey a).2.pending s.conns.length := by
      have hpending := s.pending_createConnection a.handle ipKey a
      rw [heq]
      exact hpending
    have hready : ∀ d, (s.accept config crates ipKey a).2.ready d ↔ s.ready d := by
      intro d
      by_cases hd : d = s.conns.length
      · subst hd
        exact iff_of_false hborn.not_ready fun hr => hr.not_closed s.closed_length
      · rw [HostState.ready, hconn d hd, HostState.ready]
    have hkey : ∀ d, s.ready d → (s.accept config crates ipKey a).2.routeSyncKey d =
        s.routeSyncKey d := by
      intro d hd
      have hdl : d ≠ s.conns.length := by
        rintro rfl
        exact hd.not_closed s.closed_length
      rw [HostState.routeSyncKey, hconn d hdl, HostState.routeSyncKey]
    have hsync : (s.accept config crates ipKey a).2.routeSyncStates = s.routeSyncStates := by
      rw [heq]
      rfl
    have hcore : (s.accept config crates ipKey a).2.core = s.core := by
      rw [heq]
      rfl
    refine .aside ⟨fun d => (hready d).1, fun d hd => .inl ((hready d).2 hd), fun d hd => ?_,
      fun d hd => ?_, hkey, fun d hd => ?_, fun _ _ ho => by rwa [hcore] at ho,
      fun d _ _ hd _ _ => (hready d).2 hd, ⟨[], ?_, by simp⟩, rfl, fun _ _ hd => hd⟩
    · refine ⟨?_, hd.2.trans (by rw [hlength]; exact Nat.lt_succ_self _)⟩
      rw [HostState.closed, hconn d hd.2.ne]
      exact hd.1
    · by_cases hdl : d = s.conns.length
      · exact .inr hdl.ge
      · rw [HostState.pending, hconn d hdl, hlength] at hd
        exact hd.imp_right fun hle => (Nat.le_succ _).trans hle
    · rw [HostState.syncState, hsync, hkey d ((hready d).1 hd), HostState.syncState]
    · rw [heq]
      exact (List.append_nil _).symm
  | @prepared t s c f hc _ _ hf =>
    refine .aside (.of_modifyConn hc.not_closed ?_ ?_ (fun hr => absurd hr hc.not_ready) rfl
      fun _ _ hd => hd)
    · rw [hf.phase]
    · rw [hf.phase]
      exact hc.not_closed
  | @greeted t s c hc =>
    refine .aside (.of_modifyConn hc.not_closed ?_ (by simp) (fun hr => absurd hr hc.not_ready) rfl
      fun d hd hmem => ⟨hmem, ?_⟩)
    · exact iff_of_false (by simp) hc.not_ready
    · rintro rfl
      exact hc.not_ready hd
  | @added t s c replaced a hreg hclosed hadd =>
    obtain ⟨core, heq, houtstanding⟩ : ∃ core, (s.addPeer c a).2 =
        { s with core, routeSyncStates := s.routeSyncStates.delete (s.routeSyncKey c) }.note
          (.added c) ∧ core.outstandingRoutes = s.core.outstandingRoutes := by
      unfold HostState.addPeer WasmRpcCore.addPeer at hadd ⊢
      dsimp only at hadd ⊢
      split at hadd
      · cases hadd
      · rename_i hcore
        split at hcore
        · cases hcore
        · obtain rfl := Except.ok.inj hcore
          exact ⟨_, rfl, rfl⟩
    have hsubject := hregistry.subject c (by rw [show t.registration = _ from hreg]; rfl)
    rw [heq]
    refine .aside (.of_conns [.added c] rfl (fun d hd => ?_) (fun key o ho => houtstanding ▸ ho) rfl
      (by simp [Effect.updates]) rfl fun _ _ hd => hd)
    · -- Whoever has the same peer was replaced, and is closed.
      have hne : s.routeSyncKey d ≠ s.routeSyncKey c := fun hkey =>
        hd.not_closed (hclosed d (hregistry.replaced c replaced d hreg hd hkey))
      exact (JsMap.get_delete ..).trans (if_neg hne)
  | completed hc hreg => exact .completed hc hreg
  | @abandoned t s c hc hreg =>
    obtain ⟨_, _, _, heq⟩ := s.unregister_eq c
    refine .aside (.unregister hc.not_closed [.closed c] rfl (fun d _ _ => ?_) (fun key o ho => ⟨?_,
      fun hr => absurd hr hc.not_ready⟩) ?_ (by simp [Effect.updates]) rfl Set.Subset.rfl)
    · rw [heq]
      rfl
    · rw [heq] at ho
      exact ho
    · rw [heq]
  | @requested t s c payload a =>
    refine .aside (.of_conns [] rfl (fun _ _ => rfl) (fun key o ho => ?_) (List.append_nil _).symm
      (by simp) rfl fun _ _ hd => hd)
    have hout : (s.handleRequest crates c payload a).2.core.outstandingRoutes =
        s.core.outstandingRoutes :=
      (WasmRpcCore.handleRequest_routes crates.rpc s.core _ _ _ _ _ _).1
    rwa [hout] at ho
  | responded hc hflushing => exact .responded hc hflushing
  | settled hflushing hc hstate => exact .settled hflushing hc hstate
  | unsettled hflushing hstate => exact .unsettled hflushing hstate
  | @swept t s now a =>
    refine .aside (.of_conns [] rfl (fun _ _ => rfl) (fun key o ho => ?_) (List.append_nil _).symm
      (by simp) rfl fun _ _ hd => .inl hd)
    exact outstanding_of_retain ho
  | expired hflushing hstate hinFlight hlate hnow hintime =>
    exact .expired hflushing hstate hinFlight hlate hnow hintime
  | @retired t s hclosed =>
    exact .aside (.of_conns [] rfl (fun _ _ => rfl) (fun _ _ h => h) (List.append_nil _).symm
      (by simp) rfl fun d hd hmem => absurd (hclosed d hmem) hd.not_closed)

/-! ## The invariant -/

/-- The updates of a connection in both layers. -/
structure InStep (s : HostState HS) (c : ConnId) : Prop where
  none : s.syncState c = none → ∀ key o, ¬s.transaction c key o
  /-- When no update is in flight, the core waits for none, and nothing is left to be sent. -/
  idle : ∀ state, s.syncState c = some state → state.inFlight = false →
    state.dirty = false ∧ state.forceFull = false ∧ ∀ key o, ¬s.transaction c key o
  /-- The core waits for the update in flight at most, and as long as the host. -/
  inFlight : ∀ state, s.syncState c = some state → state.inFlight = true →
    (∀ key o, s.transaction c key o →
      o.deadlineMs.toNat = state.sentAt + routeRpcTimeoutMs.toNat) ∧
    ∀ key o key' o', s.transaction c key o → s.transaction c key' o' → key = key'

/-- A transaction under the same key. -/
theorem transaction_of_key {s s' : HostState HS} {c d : ConnId} {key : RpcKey} {o : OutstandingRoute}
    (h : s.transaction c key o) (hkey : s'.routeSyncKey d = s.routeSyncKey c)
    (hlookup : s'.core.outstandingRoutes.lookup key = some o) : s'.transaction d key o := by
  obtain ⟨hname, hpeer⟩ := Prod.mk.inj hkey
  exact ⟨h.1.trans hname.symm, h.2.1.trans hpeer.symm, hlookup⟩

/-- The updates of a connection are what they were, but for transactions that are over. -/
theorem InStep.congr {s s' : HostState HS} {c : ConnId} (h : InStep s c) (hstate : s'.syncState c = s.syncState c)
    (htransaction : ∀ key o, s'.transaction c key o → s.transaction c key o) : InStep s' c where
  none hnone key o ho := h.none (hstate ▸ hnone) key o (htransaction key o ho)
  idle state hs hinFlight := by
    obtain ⟨hdirty, hfull, hnone⟩ := h.idle state (hstate ▸ hs) hinFlight
    exact ⟨hdirty, hfull, fun key o ho => hnone key o (htransaction key o ho)⟩
  inFlight state hs hinFlight := by
    obtain ⟨hdeadline, hunique⟩ := h.inFlight state (hstate ▸ hs) hinFlight
    exact ⟨fun key o ho => hdeadline key o (htransaction key o ho), fun key o key' o' ho ho' =>
      hunique key o key' o' (htransaction key o ho) (htransaction key' o' ho')⟩

/-- A response that completes an update is one of the update in flight, which it leaves without a
    transaction. -/
theorem InStep.completes {s : HostState HS} {c : ConnId} (h : InStep s c) {payload : Bytes}
    {a : Ambient}
    (hok : (s.handleResponse crates c payload a).1 = .ok true) :
    ∃ state key o, s.syncState c = some state ∧ state.inFlight = true ∧ s.transaction c key o ∧
      a.nowMs ≤ o.deadlineMs ∧
      ∀ key o, ¬(s.handleResponse crates c payload a).2.transaction c key o := by
  rcases WasmRpcCore.outstanding_handleResponse crates.rpc s.core (s.conn c).networkName
    (s.conn c).peerId payload a.nowMs a.groupDraws with ⟨hnot, -⟩ | ⟨done, o, -, hdone, hintime, hlookup⟩
  · exact absurd hok hnot
  cases hs : s.syncState c with
  | none => exact absurd hdone (h.none hs done o)
  | some state =>
    cases hsent : state.inFlight with
    | false => exact absurd hdone ((h.idle state hs hsent).2.2 done o)
    | true =>
      refine ⟨state, done, o, rfl, hsent, hdone, hintime, fun key o' ho => ?_⟩
      have hleft := (hlookup key).symm.trans ho.2.2
      split_ifs at hleft with hkey
      exact hkey ((h.inFlight state hs hsent).2 key o' done o ⟨ho.1, ho.2.1, hleft⟩ hdone)

/-- The host and the core agree on the updates, up to what is unfinished. -/
structure Synced (t : Stage) (s : HostState HS) : Prop where
  /-- Every transaction is one of a ready connection. -/
  owner : ∀ key o, s.core.outstandingRoutes.lookup key = some o →
    ∃ c, s.ready c ∧ s.transaction c key o
  inStep : ∀ c, s.ready c → c ∉ t.doomed → t.flushing ≠ some c → InStep s c
  flushing : ∀ c, s.ready c → c ∉ t.doomed → t.flushing = some c → ∀ key o, ¬s.transaction c key o
  /-- What was announced and not sent is remembered. -/
  wanted : ∀ c forceFull, s.ready c → s.wanted c = some forceFull →
    ∃ state, s.syncState c = some state ∧ state.dirty = true ∧
      (forceFull = true → state.forceFull = true)
  fresh : ∀ c, s.pending c ∨ s.conns.length ≤ c → s.wanted c = none
  carried : Carried s.trace

namespace Synced

variable {t t' : Stage} {s s' : HostState HS} {c : ConnId}

theorem init (config : ServerConfig) : Synced .idle (HostState.init config : HostState HS) where
  owner key o h := by cases h
  inStep c h := by cases h
  flushing c h := by cases h
  wanted c forceFull h := by cases h
  fresh _ _ := rfl
  carried before c forceFull h := by simp [HostState.init] at h

theorem aside (hab : Aside (t, s) (t', s')) (h : Synced t s) : Synced t' s' := by
  have hflushing : t'.flushing = t.flushing := hab.flushing
  obtain ⟨es, htrace, hes⟩ := hab.trace
  have htransaction : ∀ {d key o}, s.ready d → s'.transaction d key o → s.transaction d key o := by
    intro d key o hd ho
    exact transaction_of_key ho (hab.key d hd).symm (hab.outstanding key o ho.2.2)
  have hwanted : ∀ d, s'.wanted d = s.wanted d := by
    intro d
    change s'.trace = s.trace ++ es at htrace
    rw [HostState.wanted, htrace, wantedIn_append _ (hes d), HostState.wanted]
  constructor
  · intro key o ho
    obtain ⟨d, hd, htrans⟩ := h.owner key o (hab.outstanding key o ho)
    exact ⟨d, hab.owner d key o hd htrans ho, transaction_of_key htrans (hab.key d hd) ho⟩
  · intro d hd hdoomed hnot
    have hda := hab.ready d hd
    exact (h.inStep d hda (fun hmem => hdoomed (hab.doomed d hd hmem)) (hflushing ▸ hnot)).congr
      (hab.syncState d hd) fun key o => htransaction hda
  · intro d hd hdoomed hflush key o ho
    have hda := hab.ready d hd
    exact h.flushing d hda (fun hmem => hdoomed (hab.doomed d hd hmem)) (hflushing ▸ hflush) key o
      (htransaction hda ho)
  · intro d forceFull hd hw
    rw [hwanted] at hw
    obtain ⟨state, hstate, hrest⟩ := h.wanted d forceFull (hab.ready d hd) hw
    exact ⟨state, (hab.syncState d hd).trans hstate, hrest⟩
  · intro d hd
    rw [hwanted]
    exact h.fresh d (hab.born d hd)
  · change s'.trace = s.trace ++ es at htrace
    rw [htrace]
    exact h.carried.append hes

/-- A step of the updates of one connection. -/
theorem update (hregistry : Registry t s) (h : Synced t s) (hc : s.ready c) (es : Option Effect)
    (hconns : s'.conns = s.conns)
    (hsync : ∀ d, s.ready d → d ≠ c → s'.routeSyncStates.get (s.routeSyncKey d) = s.syncState d)
    (houtstanding : ∀ key o, s'.core.outstandingRoutes.lookup key = some o →
      s.core.outstandingRoutes.lookup key = some o ∨ s'.transaction c key o)
    (htrace : s'.trace = s.trace ++ es.toList) (hes : ∀ d ≠ c, ∀ e ∈ es, ¬e.updates d)
    (hflushing : ∀ d ≠ c, t'.flushing = some d → t.flushing = some d)
    (hother : ∀ d ≠ c, t.flushing = some d → t'.flushing = some d)
    (hdoomed : t.doomed ⊆ t'.doomed)
    (hinStep : c ∉ t'.doomed → t'.flushing ≠ some c → InStep s' c)
    (hnone : c ∉ t'.doomed → t'.flushing = some c → ∀ key o, ¬s'.transaction c key o)
    (hwanted : ∀ forceFull, s'.wanted c = some forceFull → ∃ state, s'.syncState c = some state ∧
      state.dirty = true ∧ (forceFull = true → state.forceFull = true))
    (hcarried : ∀ forceFull, .built c forceFull ∈ es → s.wanted c = some true →
      forceFull = true) : Synced t' s' := by
  have hconn : s'.conn = s.conn := by
    funext d
    rw [HostState.conn, hconns, HostState.conn]
  have hready : s'.ready = s.ready := by
    funext d
    rw [HostState.ready, hconn, HostState.ready]
  have hkey : s'.routeSyncKey = s.routeSyncKey := by
    funext d
    rw [HostState.routeSyncKey, hconn, HostState.routeSyncKey]
  -- The transactions of the others are what they were.
  have htransaction : ∀ {d key o}, s.ready d → d ≠ c → s'.transaction d key o →
      s.transaction d key o := by
    intro d key o hd hdc ho
    refine transaction_of_key ho (congrFun hkey d).symm ((houtstanding key o ho.2.2).resolve_right
      fun hmine => hdc (hregistry.eq_of_ready hd hc ?_))
    rw [← hkey]
    exact Prod.ext (ho.1.symm.trans hmine.1) (ho.2.1.symm.trans hmine.2.1)
  have hsame : ∀ d ≠ c, s'.wanted d = s.wanted d := by
    intro d hdc
    rw [HostState.wanted, htrace, wantedIn_append, HostState.wanted]
    exact fun e he => hes d hdc e (Option.mem_toList.1 he)
  constructor
  · intro key o ho
    rw [hready]
    rcases houtstanding key o ho with hold | hmine
    · obtain ⟨d, hd, htrans⟩ := h.owner key o hold
      exact ⟨d, hd, transaction_of_key htrans (congrFun hkey d) ho⟩
    · exact ⟨c, hc, hmine⟩
  · intro d hd hnot hflush
    by_cases hdc : d = c
    · subst hdc
      exact hinStep hnot hflush
    · rw [hready] at hd
      refine (h.inStep d hd (fun hmem => hnot (hdoomed hmem)) fun hf => hflush (hother d hdc hf)).congr
        ?_ fun key o => htransaction hd hdc
      rw [HostState.syncState, hkey]
      exact hsync d hd hdc
  · intro d hd hnot hflush key o ho
    by_cases hdc : d = c
    · subst hdc
      exact hnone hnot hflush key o ho
    · rw [hready] at hd
      exact h.flushing d hd (fun hmem => hnot (hdoomed hmem)) (hflushing d hdc hflush) key o
        (htransaction hd hdc ho)
  · intro d forceFull hd hw
    by_cases hdc : d = c
    · subst hdc
      exact hwanted forceFull hw
    · rw [hready] at hd
      rw [hsame d hdc] at hw
      obtain ⟨state, hstate, hrest⟩ := h.wanted d forceFull hd hw
      refine ⟨state, ?_, hrest⟩
      rw [HostState.syncState, hkey, hsync d hd hdc, hstate]
  · intro d hd
    rw [HostState.pending, hconn, hconns] at hd
    have hdc : d ≠ c := by
      rintro rfl
      rcases hd with hpending | hle
      · exact HostState.pending.not_ready hpending hc
      · exact absurd (s.lt_length_of_not_closed hc.not_closed) (Nat.not_lt.2 hle)
    rw [hsame d hdc]
    exact h.fresh d hd
  · rw [htrace]
    cases es with
    | none =>
      rw [Option.toList_none, List.append_nil]
      exact h.carried
    | some e =>
      refine h.carried.concat ?_
      rintro d forceFull rfl hw
      by_cases hdc : d = c
      · subst hdc
        exact hcarried forceFull rfl hw
      · exact absurd rfl (hes d hdc _ rfl)

/-- A change of the state of the updates of one connection. -/
theorem modifySync (hregistry : Registry t s) (h : Synced t s) (hc : s.ready c)
    (f : RouteSyncState → RouteSyncState)
    (hflushing : ∀ d ≠ c, t'.flushing = some d ↔ t.flushing = some d)
    (hdoomed : t.doomed ⊆ t'.doomed)
    (hinStep : c ∉ t'.doomed → t'.flushing ≠ some c →
      InStep (s.modifySync (s.routeSyncKey c) f) c)
    (hnone : c ∉ t'.doomed → t'.flushing = some c → ∀ key o, ¬s.transaction c key o)
    (hf : ∀ state : RouteSyncState, (state.dirty = true → (f state).dirty = true) ∧
      (state.forceFull = true → (f state).forceFull = true)) :
    Synced t' (s.modifySync (s.routeSyncKey c) f) := by
  refine update hregistry h hc none rfl (fun d hd hdc => ?_) (fun _ _ ho => .inl ho)
    (List.append_nil _).symm (by simp) (fun d hd => (hflushing d hd).1)
    (fun d hd => (hflushing d hd).2) hdoomed hinStep hnone (fun forceFull hw => ?_) (by simp)
  · exact s.syncState_modifySync_of_ne hregistry hc hd hdc f
  · obtain ⟨state, hstate, hdirty, hfull⟩ := h.wanted c forceFull hc hw
    refine ⟨f state, ?_, (hf state).1 hdirty, fun hforce => (hf state).2 (hfull hforce)⟩
    rw [HostState.syncState_modifySync, hstate]
    rfl

/-- Either nothing was announced to a connection that is not remembered, or a change is. -/
theorem announced (hregistry : Registry t s) (h : Synced t s) (hc : s.ready c)
    (hflushing : t.flushing = none) (forceFull : Bool) :
    Synced (t.flush (if s.inFlight (s.routeSyncKey c) then none else some c))
      (s.announce c forceFull) := by
  let state₀ : RouteSyncState :=
    { peer := c, inFlight := false, dirty := false, forceFull := false, sentAt := 0,
      lastCompletedAt := 0 }
  have hstate : (s.announce c forceFull).syncState c = some
      { (s.syncState c).getD state₀ with
        peer := c, dirty := true, forceFull := ((s.syncState c).getD state₀).forceFull || forceFull } :=
    (JsMap.get_set ..).trans (if_pos rfl)
  have hinFlight : s.inFlight (s.routeSyncKey c) = (s.syncState c).any (·.inFlight) := rfl
  refine update hregistry h hc (some (.announced c forceFull)) rfl (fun d hd hdc => ?_)
    (fun _ _ ho => .inl ho) rfl (fun d hdc e he => ?_) (fun d hdc hf => ?_) (fun d _ hf => ?_)
    Set.Subset.rfl (fun hnot hflush => ?_) (fun hnot hflush => ?_) (fun w hw => ?_) (by simp)
  · have hne : s.routeSyncKey d ≠ s.routeSyncKey c := fun hkey =>
      hdc (hregistry.eq_of_ready hd hc hkey)
    exact (JsMap.get_set ..).trans (if_neg hne)
  · obtain rfl := Option.some.inj he
    exact fun hcd => hdc hcd.symm
  · dsimp only [Stage.flush] at hf
    split_ifs at hf
    exact absurd (Option.some.inj hf).symm hdc
  · rw [hflushing] at hf
    cases hf
  · -- The update in flight goes on.
    have hold := h.inStep c hc hnot (by rw [hflushing]; exact fun hf => by cases hf)
    dsimp only [Stage.flush] at hflush
    rw [hinFlight] at hflush
    cases hs : s.syncState c with
    | none =>
      rw [hs] at hflush
      exact absurd rfl hflush
    | some state =>
      rw [hs] at hflush hstate
      cases hsent : state.inFlight with
      | false =>
        simp [hsent] at hflush
      | true =>
        refine ⟨fun hn => ?_, fun state' hs' hidle => ?_, fun state' hs' _ => ?_⟩
        · rw [hstate] at hn
          cases hn
        · obtain rfl := Option.some.inj (hstate.symm.trans hs')
          exact absurd (hsent.symm.trans hidle) (by simp)
        · obtain rfl := Option.some.inj (hstate.symm.trans hs')
          exact hold.inFlight state hs hsent
  · have hold := h.inStep c hc hnot (by rw [hflushing]; exact fun hf => by cases hf)
    dsimp only [Stage.flush] at hflush
    rw [hinFlight] at hflush
    cases hs : s.syncState c with
    | none => exact hold.none hs
    | some state =>
      rw [hs] at hflush
      cases hsent : state.inFlight with
      | false => exact (hold.idle state hs hsent).2.2
      | true => simp [hsent] at hflush
  · refine ⟨_, hstate, rfl, fun hforce => ?_⟩
    change wantedIn c (s.trace ++ [.announced c forceFull]) = some w at hw
    rw [wantedIn_concat] at hw
    obtain rfl := Option.some.inj ((if_pos rfl).symm.trans hw)
    rw [Bool.or_eq_true] at hforce ⊢
    refine hforce.imp_left fun hold => ?_
    have hwanted : s.wanted c = some true := by
      change (s.wanted c).getD false = true at hold
      cases hw : s.wanted c with
      | none => simp [hw] at hold
      | some w => rw [hw] at hold; exact congrArg some hold
    obtain ⟨state, hs, -, hfull⟩ := h.wanted c true hc hwanted
    rw [hs]
    exact hfull rfl

/-- The one transaction of an update that is built now. -/
theorem inStep_launch {now : ℕ} {state : RouteSyncState} (hnow : now < 8640000000000001)
    (hstate : s'.syncState c = some (state.launch now)) (id : RpcKey) (sent : OutstandingRoute)
    (hdeadline : sent.deadlineMs = (UInt64.ofNat now).saturatingAdd routeRpcTimeoutMs)
    (hsole : ∀ key o, s'.transaction c key o → key = id ∧ o = sent) : InStep s' c where
  none h := by
    rw [hstate] at h
    cases h
  idle state' h hidle := by
    obtain rfl := Option.some.inj (hstate.symm.trans h)
    cases hidle
  inFlight state' h _ := by
    obtain rfl := Option.some.inj (hstate.symm.trans h)
    refine ⟨fun key o ho => ?_, fun key o key' o' ho ho' =>
      (hsole key o ho).1.trans (hsole key' o' ho').1.symm⟩
    obtain ⟨-, rfl⟩ := hsole key o ho
    have htoNat : (UInt64.ofNat now).toNat = now := UInt64.toNat_ofNat_of_lt' (by
      change now < 2 ^ 64
      omega)
    have htimeout : routeRpcTimeoutMs.toNat = 3000 := rfl
    rw [hdeadline, UInt64.toNat_saturatingAdd, htoNat, htimeout]
    change min (now + 3000) (2 ^ 64 - 1) = now + 3000
    omega

theorem rebuilt (hregistry : Registry t s) (h : Synced t s) {state : RouteSyncState} {a : Ambient}
    {now : ℕ} {packet : Bytes} (hflushing : t.flushing = some c) (hc : s.ready c)
    (hpeer : state.peer = c) (hstate : s.routeSyncStates.get (s.routeSyncKey c) = some state)
    (hnow : now < 8640000000000001)
    (hok : (s.rebuild crates (s.routeSyncKey c) state now a).1 = .ok packet) :
    Synced (t.flush none) (s.rebuild crates (s.routeSyncKey c) state now a).2 := by
  rcases s.rebuild_cases crates (s.routeSyncKey c) state now a with
    ⟨e, -, heq⟩ | ⟨packet', hbuilt, heq⟩
  · rw [heq] at hok
    cases hok
  rw [heq]
  subst hpeer
  rcases WasmRpcCore.outstanding_buildRouteUpdate crates.rpc s.core (s.conn state.peer).networkName
    (s.conn state.peer).peerId (s.conn state.peer).serverSessionId state.forceFull
    (UInt64.ofNat now) a.groupDraws a.transactionIds with
    ⟨⟨e, herror⟩, -⟩ | ⟨_, id, sent, -, hdeadline, hlookup⟩
  · have hconflict := hbuilt.symm.trans herror
    cases hconflict
  -- A transaction is the new one, or was there before.
  have hold : ∀ key o, (s.buildRouteUpdate crates state now a).2.outstandingRoutes.lookup key =
      some o → (key = ⟨(s.conn state.peer).networkName, (s.conn state.peer).peerId, id, false⟩ ∧
        o = sent) ∨ s.core.outstandingRoutes.lookup key = some o := by
    intro key o ho
    have ho := (hlookup key).symm.trans ho
    split_ifs at ho with hkey
    · exact .inl ⟨hkey, (Option.some.inj ho).symm⟩
    · exact .inr (Option.filter_eq_some_iff.1 ho).1
  refine update hregistry h hc (some (.built state.peer state.forceFull)) rfl (fun d hd hdc => ?_)
    (fun key o ho => ?_) rfl (fun d hdc e he => ?_) (fun d _ hf => by cases hf) (fun d hdc hf => ?_)
    Set.Subset.rfl (fun hnot _ => ?_) (fun _ hf => by cases hf) (fun w hw => ?_) fun w hw hwanted => ?_
  · have hne : s.routeSyncKey d ≠ s.routeSyncKey state.peer := fun hkey =>
      hdc (hregistry.eq_of_ready hd hc hkey)
    exact (JsMap.get_modify ..).trans (if_neg hne)
  · refine (hold key o ho).symm.imp_right ?_
    rintro ⟨rfl, -⟩
    exact ⟨rfl, rfl, ho⟩
  · obtain rfl := Option.some.inj he
    exact fun hcd => hdc hcd.symm
  · rw [hflushing] at hf
    exact absurd (Option.some.inj hf).symm hdc
  · refine @inStep_launch _ _ _ _ state hnow ?_
      ⟨(s.conn state.peer).networkName, (s.conn state.peer).peerId, id, false⟩ sent hdeadline
      fun key o ho => (hold key o ho.2.2).resolve_right fun hlookup => ?_
    · have hlaunched : (s.routeSyncStates.get (s.routeSyncKey state.peer)).map (·.launch now) =
          some (state.launch now) := by
        rw [hstate]
        rfl
      exact (JsMap.get_modify ..).trans ((if_pos rfl).trans hlaunched)
    · exact h.flushing state.peer hc hnot hflushing key o ⟨ho.1, ho.2.1, hlookup⟩
  · change wantedIn state.peer (s.trace ++ [.built state.peer state.forceFull]) = some w at hw
    rw [wantedIn_concat] at hw
    cases (if_pos rfl).symm.trans hw
  · obtain ⟨-, rfl⟩ := Effect.built.inj (Option.some.inj hw)
    obtain ⟨state', hs, -, hfull⟩ := h.wanted state.peer true hc hwanted
    obtain rfl := Option.some.inj (hstate.symm.trans hs)
    exact hfull rfl

theorem unbuilt (hregistry : Registry t s) (h : Synced t s) {state : RouteSyncState} {a : Ambient}
    {now : ℕ} {e : String} (hflushing : t.flushing = some c) (hc : s.ready c)
    (hpeer : state.peer = c)
    (herror : (s.rebuild crates (s.routeSyncKey c) state now a).1 = .error e) :
    Synced ((t.flush none).doom c) (s.rebuild crates (s.routeSyncKey c) state now a).2 := by
  rcases s.rebuild_cases crates (s.routeSyncKey c) state now a with
    ⟨e', hbuilt, heq⟩ | ⟨packet, -, heq⟩
  swap
  · rw [heq] at herror
    cases herror
  rw [heq]
  subst hpeer
  have hlookup : ∀ key o, (s.buildRouteUpdate crates state now a).2.outstandingRoutes.lookup key =
      some o → s.core.outstandingRoutes.lookup key = some o := by
    intro key o ho
    rcases WasmRpcCore.outstanding_buildRouteUpdate crates.rpc s.core
      (s.conn state.peer).networkName (s.conn state.peer).peerId
      (s.conn state.peer).serverSessionId state.forceFull (UInt64.ofNat now) a.groupDraws
      a.transactionIds with ⟨-, hlookup⟩ | ⟨_, _, _, hok, -⟩
    · exact (Option.filter_eq_some_iff.1 ((hlookup key).symm.trans ho)).1
    · have hconflict := hbuilt.symm.trans hok
      cases hconflict
  have hdoomed : state.peer ∈ ((t.flush none).doom state.peer).doomed := Set.mem_insert _ _
  refine update hregistry h hc none rfl (fun d hd hdc => rfl) (fun key o ho => .inl (hlookup key o ho))
    (List.append_nil _).symm (by simp) (fun d _ hf => by cases hf) (fun d hdc hf => ?_)
    (Set.subset_insert _ _) (fun hnot => absurd hdoomed hnot) (fun hnot => absurd hdoomed hnot)
    (fun w hw => h.wanted _ w hc hw) (by simp)
  rw [hflushing] at hf
  exact absurd (Option.some.inj hf).symm hdc

theorem unsent (hregistry : Registry t s) (h : Synced t s) (hc : s.ready c) (forceFull : Bool) :
    Synced (t.doom c) (s.unsend (s.routeSyncKey c) forceFull) := by
  have hdoomed : c ∈ (t.doom c).doomed := Set.mem_insert _ _
  refine modifySync hregistry h hc _ (fun _ _ => Iff.rfl) (Set.subset_insert _ _)
    (fun hnot => absurd hdoomed hnot) (fun hnot => absurd hdoomed hnot) fun state => ⟨fun _ => rfl, ?_⟩
  intro hfull
  rw [hfull]
  rfl

theorem responded (hregistry : Registry t s) (h : Synced t s) (hc : s.ready c)
    (hflushing : t.flushing = none) (payload : Bytes) (a : Ambient) :
    Synced (t.flush (if (s.handleResponse crates c payload a).1 = .ok true then some c else none))
      (s.handleResponse crates c payload a).2 := by
  have hold : c ∉ t.doomed → InStep s c := fun hnot =>
    h.inStep c hc hnot (by rw [hflushing]; exact fun hf => by cases hf)
  have hlookup : ∀ key o, (s.handleResponse crates c payload a).2.core.outstandingRoutes.lookup key =
      some o → s.core.outstandingRoutes.lookup key = some o := by
    intro key o ho
    rcases WasmRpcCore.outstanding_handleResponse crates.rpc s.core (s.conn c).networkName
      (s.conn c).peerId payload a.nowMs a.groupDraws with ⟨-, hkept⟩ | ⟨done, _, -, -, -, hlookup⟩
    · exact hkept key o ho
    · have ho := (hlookup key).symm.trans ho
      split_ifs at ho
      exact ho
  refine update hregistry h hc none rfl (fun _ _ _ => rfl) (fun key o ho => .inl (hlookup key o ho))
    (List.append_nil _).symm (by simp) (fun d hdc hf => ?_) (fun d _ hf => ?_) Set.Subset.rfl
    (fun hnot _ => (hold hnot).congr rfl fun key o ho => ⟨ho.1, ho.2.1, hlookup key o ho.2.2⟩)
    (fun hnot hf => ?_) (fun w hw => h.wanted c w hc hw) (by simp)
  · dsimp only [Stage.flush] at hf
    split_ifs at hf
    exact absurd (Option.some.inj hf).symm hdc
  · rw [hflushing] at hf
    cases hf
  · dsimp only [Stage.flush] at hf
    split_ifs at hf with hok
    obtain ⟨_, _, _, -, -, -, -, hnone⟩ := (hold hnot).completes hok
    exact hnone

theorem settled (hregistry : Registry t s) (h : Synced t s) {state : RouteSyncState}
    (hflushing : t.flushing = some c) (hc : s.ready c)
    (hstate : s.routeSyncStates.get (s.routeSyncKey c) = some state) (now : ℕ) :
    Synced (t.flush (if state.dirty || state.forceFull then some c else none))
      (s.settle (s.routeSyncKey c) now) := by
  refine modifySync hregistry h hc _ (fun d hdc => ?_) Set.Subset.rfl (fun hnot hf => ?_)
    (fun hnot _ => h.flushing c hc hnot hflushing) fun _ => ⟨fun hdirty => hdirty, fun hfull => hfull⟩
  · rw [hflushing]
    refine iff_of_false (fun hf => ?_) fun hf => hdc (Option.some.inj hf).symm
    dsimp only [Stage.flush] at hf
    split_ifs at hf
    exact hdc (Option.some.inj hf).symm
  · -- Nothing was announced meanwhile.
    have hnone := h.flushing c hc hnot hflushing
    have hclean : state.dirty = false ∧ state.forceFull = false := by
      rw [← Bool.or_eq_false_iff, ← Bool.not_eq_true]
      exact fun hwanted => hf (if_pos hwanted)
    have hs : s.syncState c = some state := hstate
    have hsettled : (s.settle (s.routeSyncKey c) now).syncState c = some
        { state with inFlight := false, sentAt := 0, lastCompletedAt := now } := by
      rw [HostState.settle, HostState.syncState_modifySync, hs]
      rfl
    refine ⟨fun _ => hnone, fun state' hs' _ => ?_, fun state' hs' hsent => ?_⟩
    · obtain rfl := Option.some.inj (hsettled.symm.trans hs')
      exact ⟨hclean.1, hclean.2, hnone⟩
    · obtain rfl := Option.some.inj (hsettled.symm.trans hs')
      cases hsent

theorem unsettled (h : Synced t s) (hflushing : t.flushing = some c)
    (hstate : s.routeSyncStates.get (s.routeSyncKey c) = none) : Synced (t.flush none) s where
  owner := h.owner
  inStep d hd hnot _ := by
    by_cases hdc : d = c
    · subst hdc
      have hs : s.syncState d = none := hstate
      refine ⟨fun _ => h.flushing d hd hnot hflushing, fun state hstate' => ?_, fun state hstate' => ?_⟩
      · rw [hs] at hstate'
        cases hstate'
      · rw [hs] at hstate'
        cases hstate'
    · refine h.inStep d hd hnot fun hf => hdc ?_
      exact Option.some.inj (hf.symm.trans hflushing)
  flushing d _ _ hf := by cases hf
  wanted := h.wanted
  fresh := h.fresh
  carried := h.carried

theorem expired (hregistry : Registry t s) (h : Synced t s) {key : PeerKey} {state : RouteSyncState}
    {now : ℕ} (hflushing : t.flushing = none) (hstate : s.routeSyncStates.get key = some state)
    (hsent : state.inFlight = true) (hlate : (routeSyncTimeoutMs : ℤ) < (now : ℤ) - state.sentAt)
    (hnow : now < 8640000000000001) (hintime : InTime now s.core) :
    Synced (t.flush (some state.peer)) (s.expire key) := by
  obtain ⟨hc, rfl⟩ := hregistry.sync key state hstate
  refine modifySync hregistry h hc _ (fun d hdc => ?_) Set.Subset.rfl (fun _ hf => absurd rfl hf)
    (fun hnot _ id o ho => ?_) fun _ => ⟨fun _ => rfl, fun _ => rfl⟩
  · rw [hflushing]
    exact iff_of_false (fun hf => hdc (Option.some.inj hf).symm) fun hf => by cases hf
  · -- A transaction of the update would have expired with it.
    have hold := h.inStep state.peer hc hnot (by rw [hflushing]; exact fun hf => by cases hf)
    have hdeadline := (hold.inFlight state hstate hsent).1 id o ho
    have hle := UInt64.le_iff_toNat_le.1 (hintime id o ho.2.2)
    have htoNat : (UInt64.ofNat now).toNat = now := UInt64.toNat_ofNat_of_lt' (by
      change now < 2 ^ 64
      omega)
    have htimeout : routeRpcTimeoutMs.toNat = routeSyncTimeoutMs := rfl
    rw [htoNat, hdeadline, htimeout] at hle
    omega

theorem completed (hregistry : Registry t s) (h : Synced t s) (hc : s.pending c)
    (hreg : t.registration = .added c) :
    Synced ((t.register .none).spare c) ((s.completeHandshake c).releaseHandshakeSlot c) := by
  let complete : Connection → Connection := fun conn =>
    { conn with handshakeTimer := false, phase := .ready }
  have hself := s.conn_modifyConn_self hc.not_closed complete
  have hother : ∀ d ≠ c, (s.modifyConn c complete).conn d = s.conn d := fun d hd =>
    s.conn_modifyConn_of_ne hd complete
  have hkey : ∀ d, (s.modifyConn c complete).routeSyncKey d = s.routeSyncKey d := fun d => Prod.ext
    (s.conn_modifyConn_congr (g := Connection.networkName) (f := complete) (fun _ => rfl) c d)
    (s.conn_modifyConn_congr (g := Connection.peerId) (f := complete) (fun _ => rfl) c d)
  have hready : ∀ d, (s.modifyConn c complete).ready d ↔ s.ready d ∨ d = c := by
    intro d
    by_cases hdc : d = c
    · subst hdc
      exact iff_of_true (congrArg Connection.phase hself) (.inr rfl)
    · rw [HostState.ready, hother d hdc, HostState.ready, or_iff_left hdc]
  have hpending : ∀ d, (s.modifyConn c complete).pending d → s.pending d := by
    intro d hd
    by_cases hdc : d = c
    · subst hdc
      exact hc
    · rwa [HostState.pending, hother d hdc] at hd
  -- Nothing was ever sent to the new connection.
  have hnone : ∀ key o, ¬s.transaction c key o := by
    intro key o ho
    obtain ⟨d, hd, htrans⟩ := h.owner key o ho.2.2
    refine hregistry.alone c d hreg hd (Prod.ext ?_ ?_)
    · exact htrans.1.symm.trans ho.1
    · exact htrans.2.1.symm.trans ho.2.1
  have hstate : s.syncState c = none := by
    cases hs : s.syncState c with
    | none => rfl
    | some state =>
      obtain ⟨hd, hdkey⟩ := hregistry.sync _ state hs
      exact absurd hdkey (hregistry.alone c state.peer hreg hd)
  have hsync : ∀ d, (s.modifyConn c complete).syncState d = s.syncState d := fun d => by
    rw [HostState.syncState, hkey d]
    rfl
  have htransaction : ∀ {d key o}, (s.modifyConn c complete).transaction d key o →
      s.transaction d key o := fun ho => transaction_of_key ho (hkey _).symm ho.2.2
  have hmodified : Synced ((t.register .none).spare c) (s.modifyConn c complete) := by
    constructor
    · intro key o ho
      obtain ⟨d, hd, htrans⟩ := h.owner key o ho
      exact ⟨d, (hready d).2 (.inl hd), transaction_of_key htrans (hkey d) ho⟩
    · intro d hd hnot hf
      by_cases hdc : d = c
      · subst hdc
        refine ⟨fun _ key o ho => hnone key o (htransaction ho), fun state hs => ?_, fun state hs => ?_⟩
        · rw [hsync, hstate] at hs
          cases hs
        · rw [hsync, hstate] at hs
          cases hs
      · refine (h.inStep d (((hready d).1 hd).resolve_right hdc) (fun hmem => hnot ⟨hmem, hdc⟩) hf).congr
          (hsync d) fun key o ho => htransaction ho
    · intro d hd hnot hf key o ho
      by_cases hdc : d = c
      · subst hdc
        exact hnone key o (htransaction ho)
      · exact h.flushing d (((hready d).1 hd).resolve_right hdc) (fun hmem => hnot ⟨hmem, hdc⟩) hf key o
          (htransaction ho)
    · intro d forceFull hd hw
      rcases (hready d).1 hd with hd | rfl
      · obtain ⟨state, hs, hrest⟩ := h.wanted d forceFull hd hw
        exact ⟨state, (hsync d).trans hs, hrest⟩
      · cases (h.fresh d (.inl hc)).symm.trans hw
    · exact fun d hd => h.fresh d (hd.imp (hpending d) fun hle =>
        (List.length_modify ..).symm.trans_le hle)
    · exact h.carried
  exact ⟨hmodified.owner, fun d hd hnot hf => (hmodified.inStep d hd hnot hf).congr rfl fun _ _ ho => ho,
    hmodified.flushing, hmodified.wanted, hmodified.fresh, hmodified.carried⟩

/-- Every step keeps the layers in step. -/
theorem step {a b : Stage × HostState HS} (hstep : Step config crates a b)
    (hregistry : Registry a.1 a.2) (h : Synced a.1 a.2) : Synced b.1 b.2 := by
  cases hstep.syncs hregistry with
  | aside hab => exact aside hab h
  | completed hc hreg => exact h.completed hregistry hc hreg
  | announced hc hflushing => exact h.announced hregistry hc hflushing _
  | rebuilt hflushing hc hpeer hstate hnow hok =>
    exact h.rebuilt hregistry hflushing hc hpeer hstate hnow hok
  | unbuilt hflushing hc hpeer herror => exact h.unbuilt hregistry hflushing hc hpeer herror
  | unsent hc => exact h.unsent hregistry hc _
  | responded hc hflushing => exact h.responded hregistry hc hflushing _ _
  | settled hflushing hc hstate => exact h.settled hregistry hflushing hc hstate _
  | unsettled hflushing hstate => exact h.unsettled hflushing hstate
  | expired hflushing hstate hsent hlate hnow hintime =>
    exact h.expired hregistry hflushing hstate hsent hlate hnow hintime

end Synced

end Host

end EasyTierEdge
