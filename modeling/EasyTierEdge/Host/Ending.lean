import EasyTierEdge.Host.Undisturbed

/-!
# How connections end

A connection is used while it is alive. Then it is marked closed, its peer is removed from the core
if it was there, and it is disposed, once each and in this order, and it is not used any more
(`Ended`). So much is said by the effects on the connection alone (`Life.shape`).
-/

namespace EasyTierEdge

namespace Host

variable {HS : Type} {config : ServerConfig} {crates : HostCrates HS}

/-! ## Lives -/

/-- What an effect is for a connection. -/
inductive Mark
  | used
  | closed
  | removed
  | disposed
  deriving DecidableEq

/-- The connection that an effect is about, and what it is for it. -/
def Effect.mark : Effect → Option (ConnId × Mark)
  | .received c _ | .secure c _ _ | .sent c _ _ | .announced c _ | .built c _ => some (c, .used)
  | .added _ => none
  | .removed c => some (c, .removed)
  | .closed c => some (c, .closed)
  | .disposed c => some (c, .disposed)

/-- What an effect is for the connection `c`. -/
def Effect.markOn (c : ConnId) (e : Effect) : Option Mark :=
  e.mark.bind fun x => if x.1 = c then some x.2 else none

/-- What the effects are for a connection, one after another. -/
def marksOf (c : ConnId) (effects : List Effect) : List Mark :=
  effects.filterMap (Effect.markOn c)

/-- How far a connection is on its way. -/
inductive Life
  | alive
  | marked
  | removed
  | gone
  deriving DecidableEq

def Life.next : Life → Mark → Option Life
  | .alive, .used => some .alive
  | .alive, .closed => some .marked
  | .marked, .removed => some .removed
  | .marked, .disposed | .removed, .disposed => some .gone
  | _, _ => none

/-- The life after the marks, if they may come in this order. -/
def Life.after (life : Life) (marks : List Mark) : Option Life := marks.foldlM Life.next life

/-- The ends of a life. -/
def Life.tails : Life → List (List Mark)
  | .alive => [[]]
  | .marked => [[.closed]]
  | .removed => [[.closed, .removed]]
  | .gone => [[.closed, .disposed], [.closed, .removed, .disposed]]

namespace Life

theorem after_append (life : Life) (marks marks' : List Mark) :
    life.after (marks ++ marks') = (life.after marks).bind fun l => l.after marks' :=
  List.foldlM_append

/-- A connection that is gone stays as it is. -/
theorem eq_nil_of_gone {marks : List Mark} {life : Life} (h : Life.gone.after marks = some life) :
    marks = [] ∧ life = .gone := by
  cases marks with
  | nil => exact ⟨rfl, (Option.some.inj h).symm⟩
  | cons m marks => cases m <;> cases h

/-- A connection is used some times, and then ends. -/
theorem shape {marks : List Mark} {life : Life} (h : Life.alive.after marks = some life) :
    ∃ n, ∃ tail ∈ life.tails, marks = List.replicate n .used ++ tail := by
  induction marks with
  | nil =>
    obtain rfl := Option.some.inj h
    exact ⟨0, [], List.mem_singleton_self _, rfl⟩
  | cons m marks ih =>
    cases m with
    | used =>
      obtain ⟨n, tail, htail, rfl⟩ := ih h
      exact ⟨n + 1, tail, htail, rfl⟩
    | closed =>
      -- After the mark there is at most a removal and a disposal.
      refine ⟨0, .closed :: marks, ?_, rfl⟩
      rcases marks with _ | ⟨m, marks⟩
      · obtain rfl := Option.some.inj h
        exact List.mem_singleton_self _
      · cases m with
        | used | closed => cases h
        | disposed =>
          obtain ⟨rfl, rfl⟩ := eq_nil_of_gone h
          exact List.mem_cons_self
        | removed =>
          rcases marks with _ | ⟨m, marks⟩
          · obtain rfl := Option.some.inj h
            exact List.mem_singleton_self _
          · cases m with
            | used | closed | removed => cases h
            | disposed =>
              obtain ⟨rfl, rfl⟩ := eq_nil_of_gone h
              exact List.mem_cons_of_mem _ (List.mem_singleton_self _)
    | removed | disposed => cases h

end Life

theorem marksOf_append (c : ConnId) (effects effects' : List Effect) :
    marksOf c (effects ++ effects') = marksOf c effects ++ marksOf c effects' :=
  List.filterMap_append

/-! ## The invariant -/

instance HostState.decidableClosed (s : HostState HS) (c : ConnId) : Decidable (s.closed c) :=
  inferInstanceAs (Decidable (_ = _))

/-- The life of a connection that the books tell of. -/
def Expects (t : Stage) (s : HostState HS) (c : ConnId) (life : Life) : Prop :=
  if c ∈ t.closing then life = .marked ∨ life = .removed
  else if s.closed c ∧ c < s.conns.length then life = .gone
  else life = .alive

theorem Expects.congr {t t' : Stage} {s s' : HostState HS} {c : ConnId} {life : Life}
    (h : Expects t s c life) (hclosing : c ∈ t'.closing ↔ c ∈ t.closing)
    (hlength : s'.conns.length = s.conns.length) (hclosed : s'.closed c ↔ s.closed c) :
    Expects t' s' c life := by
  unfold Expects at h ⊢
  simp only [hclosing, hlength, hclosed]
  exact h

/-- What the connections went through since there were the effects `before`, when their lives
    were `start`. -/
structure Ended (start : ConnId → Life) (before : List Effect) (t : Stage) (s : HostState HS) :
    Prop where
  nodup : t.closing.Nodup
  closing : ∀ c ∈ t.closing, s.closed c ∧ c < s.conns.length
  lives : ∃ new, s.trace = before ++ new ∧
    ∀ c, ∃ life, (start c).after (marksOf c new) = some life ∧ Expects t s c life

namespace Ended

variable {start : ConnId → Life} {before : List Effect} {t t' : Stage} {s s' : HostState HS}
  {c : ConnId}

/-- A connection that is not closed is alive. -/
theorem alive (h : Ended start before t s) (hc : ¬s.closed c) {life : Life}
    (hlife : Expects t s c life) : life = .alive := by
  rw [Expects, if_neg fun hmem => hc (h.closing c hmem).1, if_neg fun hclosed => hc hclosed.1] at hlife
  exact hlife

/-- Effects that only use connections that are not closed. -/
theorem uses (h : Ended start before t s) (effects : List Effect)
    (htrace : s'.trace = s.trace ++ effects)
    (huses : ∀ e ∈ effects, ∀ c m, e.mark = some (c, m) → m = .used ∧ ¬s.closed c)
    (hclosing : t'.closing = t.closing) (hlength : s'.conns.length = s.conns.length)
    (hclosed : ∀ d, s'.closed d ↔ s.closed d) : Ended start before t' s' := by
  obtain ⟨new, hnew, hlives⟩ := h.lives
  refine ⟨hclosing ▸ h.nodup, fun c hc => ?_, new ++ effects, ?_, fun c => ?_⟩
  · rw [hclosed, hlength]
    exact h.closing c (hclosing ▸ hc)
  · rw [htrace, hnew, List.append_assoc]
  · obtain ⟨life, hafter, hlife⟩ := hlives c
    refine ⟨life, ?_, ?_⟩
    · rw [marksOf_append, Life.after_append, hafter, Option.bind_some]
      -- The connection is alive, or not used at all.
      have hmarks : ∀ m ∈ marksOf c effects, m = .used ∧ life = .alive := by
        intro m hm
        obtain ⟨e, he, hem⟩ := List.mem_filterMap.1 hm
        obtain ⟨⟨d, m'⟩, hmark, hif⟩ := Option.bind_eq_some_iff.1 hem
        dsimp only at hif
        split_ifs at hif with hdc
        obtain rfl := Option.some.inj hif
        obtain ⟨hused, hopen⟩ := huses e he d m' hmark
        exact ⟨hused, h.alive (hdc ▸ hopen) hlife⟩
      generalize marksOf c effects = marks at hmarks
      induction marks with
      | nil => rfl
      | cons m marks ih =>
        obtain ⟨rfl, rfl⟩ := hmarks m List.mem_cons_self
        exact ih fun m hm => hmarks m (List.mem_cons_of_mem _ hm)
    · exact hlife.congr (by rw [hclosing]) hlength (hclosed c)

/-- A step without an effect. -/
theorem congr (h : Ended start before t s) (htrace : s'.trace = s.trace)
    (hclosing : t'.closing = t.closing) (hlength : s'.conns.length = s.conns.length)
    (hclosed : ∀ d, s'.closed d ↔ s.closed d) : Ended start before t' s' :=
  h.uses [] (htrace.trans (List.append_nil _).symm) (List.forall_mem_nil _) hclosing
    hlength hclosed

/-- A connection is used. -/
theorem note (h : Ended start before t s) {e : Effect} (hmark : e.mark = some (c, .used))
    (hc : ¬s.closed c) : Ended start before t (s.note e) := by
  refine h.uses [e] rfl (fun e' he d m hm => ?_) rfl rfl fun _ => Iff.rfl
  obtain rfl := List.mem_singleton.1 he
  obtain ⟨rfl, rfl⟩ := Prod.mk.inj (Option.some.inj (hmark.symm.trans hm))
  exact ⟨rfl, hc⟩

/-- A connection is closed, and perhaps removed from the core. -/
theorem unregister (h : Ended start before t s) (hc : ¬s.closed c) {effects : List Effect}
    (heffects : effects = [.closed c] ∨ effects = [.closed c, .removed c])
    (htrace : s'.trace = s.trace ++ effects) (hclosing : t'.closing = c :: t.closing)
    (hlength : s'.conns.length = s.conns.length)
    (hclosed : ∀ d, s'.closed d ↔ s.closed d ∨ d = c) : Ended start before t' s' := by
  obtain ⟨new, hnew, hlives⟩ := h.lives
  refine ⟨?_, fun d hd => ?_, new ++ effects, ?_, fun d => ?_⟩
  · rw [hclosing, List.nodup_cons]
    exact ⟨fun hmem => hc (h.closing c hmem).1, h.nodup⟩
  · rw [hclosing, List.mem_cons] at hd
    rw [hclosed, hlength]
    rcases hd with rfl | hd
    · exact ⟨.inr rfl, s.lt_length_of_not_closed hc⟩
    · exact ⟨.inl (h.closing d hd).1, (h.closing d hd).2⟩
  · rw [htrace, hnew, List.append_assoc]
  · obtain ⟨life, hafter, hlife⟩ := hlives d
    rw [marksOf_append, Life.after_append, hafter]
    by_cases hdc : d = c
    · subst hdc
      obtain rfl := h.alive hc hlife
      have hmem : d ∈ t'.closing := by
        rw [hclosing]
        exact List.mem_cons_self
      rcases heffects with rfl | rfl
      · refine ⟨.marked, ?_, (if_pos hmem).mpr (.inl rfl)⟩
        simp [marksOf, Effect.markOn, Effect.mark, Life.after, Life.next]
      · refine ⟨.removed, ?_, (if_pos hmem).mpr (.inr rfl)⟩
        simp [marksOf, Effect.markOn, Effect.mark, Life.after, Life.next]
    · -- The others go on as before.
      refine ⟨life, ?_, ?_⟩
      · rcases heffects with rfl | rfl
        · simp [marksOf, Effect.markOn, Effect.mark, Life.after, Ne.symm hdc]
        · simp [marksOf, Effect.markOn, Effect.mark, Life.after, Ne.symm hdc]
      · refine hlife.congr ?_ hlength ((hclosed d).trans (or_iff_left hdc))
        rw [hclosing, List.mem_cons, or_iff_right hdc]

/-- The connection that was closed last is disposed. -/
theorem disposed (h : Ended start before (t.close c) s) (htrace : s'.trace = s.trace ++ [.disposed c])
    (hlength : s'.conns.length = s.conns.length) (hclosed : ∀ d, s'.closed d ↔ s.closed d) :
    Ended start before t s' := by
  obtain ⟨new, hnew, hlives⟩ := h.lives
  obtain ⟨hnot, hnodup⟩ := List.nodup_cons.1 h.nodup
  have hmem : c ∈ (t.close c).closing := List.mem_cons_self
  refine ⟨hnodup, fun d hd => ?_, new ++ [.disposed c], ?_, fun d => ?_⟩
  · rw [hclosed, hlength]
    exact h.closing d (List.mem_cons_of_mem _ hd)
  · rw [htrace, hnew, List.append_assoc]
  · obtain ⟨life, hafter, hlife⟩ := hlives d
    rw [marksOf_append, Life.after_append, hafter]
    by_cases hdc : d = c
    · subst hdc
      rw [Expects, if_pos hmem] at hlife
      refine ⟨.gone, ?_, ?_⟩
      · rcases hlife with rfl | rfl
        · simp [marksOf, Effect.markOn, Effect.mark, Life.after, Life.next]
        · simp [marksOf, Effect.markOn, Effect.mark, Life.after, Life.next]
      · rw [Expects, if_neg hnot, if_pos]
        rw [hclosed, hlength]
        exact h.closing d hmem
    · refine ⟨life, ?_, ?_⟩
      · simp [marksOf, Effect.markOn, Effect.mark, Life.after, Ne.symm hdc]
      · exact hlife.congr (List.mem_cons.trans (or_iff_right hdc)).symm hlength (hclosed d)

/-- A connection is changed, but not closed. -/
theorem modifyConn (h : Ended start before t s) {f : Connection → Connection}
    (hf : ∀ conn, (f conn).phase = conn.phase) (c : ConnId) :
    Ended start before t (s.modifyConn c f) := by
  refine h.congr rfl rfl (List.length_modify ..) fun d => ?_
  exact iff_of_eq (congrArg (· = Phase.closed) (s.conn_modifyConn_congr hf c d))

/-- The `SecurePeer` of a connection is called. -/
theorem callSecure (h : Ended start before t s) (hc : ¬s.closed c) (handle : Handle) (call : Call) :
    Ended start before t (s.callSecure crates c handle call).2 := by
  refine h.uses [.secure c call _] rfl (fun e he d m hm => ?_) rfl rfl fun _ => Iff.rfl
  obtain rfl := List.mem_singleton.1 he
  obtain ⟨rfl, rfl⟩ := Prod.mk.inj (Option.some.inj hm)
  exact ⟨rfl, hc⟩

/-- A connection whose handshake is unfinished goes on. -/
theorem modifyPending (h : Ended start before t s) {f : Connection → Connection} (hc : s.pending c)
    (hf : (f (s.conn c)).phase ≠ .closed) (hclosing : t'.closing = t.closing) :
    Ended start before t' (s.modifyConn c f) := by
  refine h.congr rfl hclosing (List.length_modify ..) fun d => ?_
  by_cases hdc : d = c
  · subst hdc
    rw [HostState.closed, s.conn_modifyConn_self hc.not_closed]
    exact iff_of_false hf hc.not_closed
  · rw [HostState.closed, s.conn_modifyConn_of_ne hdc, HostState.closed]

/-- A connection is accepted, and alive as before. -/
theorem accepted (h : Ended start before t s) {ipKey : String} {a : Ambient}
    (haccept : (s.accept config crates ipKey a).1 = true) :
    Ended start before t (s.accept config crates ipKey a).2 := by
  obtain ⟨world, timer, heq⟩ := s.accept_eq haccept
  obtain ⟨new, hnew, hlives⟩ := h.lives
  have hlength : (s.accept config crates ipKey a).2.conns.length = s.conns.length + 1 := by
    rw [heq]
    exact List.length_append
  have hconn : ∀ d ≠ s.conns.length,
      ((s.accept config crates ipKey a).2.closed d ↔ s.closed d) := by
    intro d hd
    have hcreated := s.conn_createConnection a.handle ipKey a d
    rw [if_neg hd] at hcreated
    rw [HostState.closed, heq]
    exact iff_of_eq (congrArg (fun conn => conn.phase = Phase.closed) hcreated)
  have hopen : ¬(s.accept config crates ipKey a).2.closed s.conns.length := by
    rw [HostState.closed, heq]
    exact (s.pending_createConnection a.handle ipKey a).not_closed
  refine ⟨h.nodup, fun d hd => ?_, new, ?_, fun d => ?_⟩
  · obtain ⟨hclosed, hlt⟩ := h.closing d hd
    exact ⟨(hconn d hlt.ne).2 hclosed, hlength ▸ Nat.lt_succ_of_lt hlt⟩
  · rw [heq]
    exact hnew
  · obtain ⟨life, hafter, hlife⟩ := hlives d
    refine ⟨life, hafter, ?_⟩
    unfold Expects at hlife ⊢
    by_cases hd : d = s.conns.length
    · subst hd
      have hnot : s.conns.length ∉ t.closing := fun hmem =>
        absurd (h.closing _ hmem).2 (lt_irrefl _)
      rw [if_neg hnot, if_neg fun hlt => absurd hlt.2 (lt_irrefl _)] at hlife
      rw [if_neg hnot, if_neg fun hclosed => hopen hclosed.1]
      exact hlife
    · have hlt : s.closed d ∧ d < s.conns.length + 1 ↔ s.closed d ∧ d < s.conns.length :=
        and_congr_right fun _ => ⟨fun hlt => lt_of_le_of_ne (Nat.le_of_lt_succ hlt) hd,
          Nat.lt_succ_of_lt⟩
      simp only [hlength, hconn d hd, hlt]
      exact hlife

theorem rebuild (h : Ended start before t s) (hc : s.ready c) {state : RouteSyncState}
    (hpeer : state.peer = c) (hclosing : t'.closing = t.closing) (key : PeerKey) (now : ℕ)
    (a : Ambient) : Ended start before t' (s.rebuild crates key state now a).2 := by
  rcases s.rebuild_cases crates key state now a with ⟨e, -, heq⟩ | ⟨packet, -, heq⟩
  · rw [heq]
    exact h.congr rfl hclosing rfl fun _ => Iff.rfl
  · rw [heq]
    have hmodified : Ended start before t' ({ s with
        core := (s.buildRouteUpdate crates state now a).2 }.modifySync key (·.launch now)) :=
      h.congr rfl hclosing rfl fun _ => Iff.rfl
    exact hmodified.note (c := state.peer) rfl (hpeer ▸ hc.not_closed)

/-- Closings and route updates. -/
theorem quiet {a b : Stage × HostState HS} (hstep : Quiet crates a b)
    (h : Ended start before a.1 a.2) : Ended start before b.1 b.2 := by
  cases hstep with
  | consulted => exact h.congr rfl rfl rfl fun _ => Iff.rfl
  | encrypted hc => exact @callSecure _ crates _ _ _ _ _ h hc.not_closed _ (.encryptPacket _ _)
  | @counted t s c startedAt bytes frames =>
    exact h.modifyConn (f := (·.withWindow startedAt bytes frames)) (fun _ => rfl) c
  | sent hc => exact h.note rfl hc.not_closed
  | @left t s c a hc =>
    obtain ⟨_, _, _, heq⟩ := s.unregister_eq c
    refine h.unregister hc.not_closed (.inr rfl) ?_ rfl ?_ fun d =>
      s.closed_unregister_iff c hc.not_closed
    · change (s.unregister c).trace ++ _ = _
      rw [heq, List.append_assoc]
      rfl
    · change (s.unregister c).conns.length = _
      rw [s.conns_unregister]
      exact List.length_modify ..
  | @disposed t s c a hc =>
    refine h.disposed rfl (List.length_modify ..) fun d => ?_
    have hphase := s.conn_modifyConn_congr (g := Connection.phase) (f := fun conn =>
      { conn with handshakeTimer := false, secure := none, legacyCipher := none }) (fun _ => rfl) c d
    exact iff_of_eq (congrArg (· = Phase.closed) hphase)
  | @announced t s c forceFull hc =>
    exact h.uses [.announced c forceFull] rfl (by
      rintro e he d m hm
      obtain rfl := List.mem_singleton.1 he
      obtain ⟨rfl, rfl⟩ := Prod.mk.inj (Option.some.inj hm)
      exact ⟨rfl, hc.not_closed⟩) rfl rfl fun _ => Iff.rfl
  | @rebuilt t s c state a now packet _ hc hpeer =>
    refine rebuild (t := t) (s := s) h hc hpeer ?_ _ _ _
    rfl
  | @unbuilt t s c state a now e _ hc hpeer =>
    refine rebuild (t := t) (s := s) h hc hpeer ?_ _ _ _
    rfl
  | unsent => exact h.congr rfl rfl rfl fun _ => Iff.rfl

/-- Every step keeps the lives. -/
theorem step {a b : Stage × HostState HS} (hstep : Step config crates a b)
    (h : Ended start before a.1 a.2) : Ended start before b.1 b.2 := by
  cases hstep with
  | quiet hquiet => exact h.quiet hquiet
  | accepted _ _ _ haccept => exact h.accepted haccept
  | received hopen => exact h.note rfl hopen
  | called hc => exact @callSecure _ crates _ _ _ _ _ h hc.not_closed _ _
  | decrypted hc => exact @callSecure _ crates _ _ _ _ _ h hc.not_closed _ (.decryptPacket _ _)
  | answered hc => exact h.note rfl hc.not_closed
  | forwarded hc => exact h.note rfl hc.not_closed
  | prepared hc _ _ hf =>
    refine modifyPending h hc ?_ rfl
    rw [hf.phase]
    exact hc.not_closed
  | greeted hc =>
    exact modifyPending (f := fun conn => { conn with phase := .msg3 }) h hc nofun rfl
  | @added t s c replaced a =>
    obtain ⟨core, routeSyncStates, heq⟩ : ∃ core routeSyncStates,
        (s.addPeer c a).2 = { s with core, routeSyncStates } ∨
          (s.addPeer c a).2 = { s with core, routeSyncStates }.note (.added c) := by
      unfold HostState.addPeer
      dsimp only
      split
      · exact ⟨_, _, .inl rfl⟩
      · exact ⟨_, _, .inr rfl⟩
    rcases heq with heq | heq
    · rw [heq]
      exact h.congr rfl rfl rfl fun _ => Iff.rfl
    · rw [heq]
      refine h.uses [.added c] rfl (fun e he d m hm => ?_) rfl rfl fun _ => Iff.rfl
      obtain rfl := List.mem_singleton.1 he
      cases hm
  | @completed t s c hc =>
    have hready : Ended start before ((t.register .none).spare c) (s.completeHandshake c) :=
      modifyPending (f := fun conn => { conn with handshakeTimer := false, phase := .ready }) h hc
        nofun rfl
    exact hready.congr rfl rfl rfl fun _ => Iff.rfl
  | @abandoned t s c hc =>
    obtain ⟨_, _, _, heq⟩ := s.unregister_eq c
    refine h.unregister hc.not_closed (.inl rfl) ?_ rfl ?_ fun d =>
      s.closed_unregister_iff c hc.not_closed
    · change (s.unregister c).trace = _
      rw [heq]
    · change (s.unregister c).conns.length = _
      rw [s.conns_unregister]
      exact List.length_modify ..
  | kept | named | opened | entered | requested | responded | settled | unsettled | swept | expired
    | retired => exact h.congr rfl rfl rfl fun _ => Iff.rfl

end Ended

end Host

end EasyTierEdge
