import EasyTierEdge.Host.Moving
import EasyTierEdge.Lib.Window
import EasyTierEdge.Rpc.History
import EasyTierEdge.Secure.History

/-!
# What connections are sent

Whatever happens, a connection is sent no frame without a reason, and no more than its limits allow:

* `frames_sanctioned`: every frame is a message of its handshake, the echo of its ping, a control
  packet that was just encrypted for it, or a frame of another peer that was just received;
* `send_rate_limited`: in a span of time that is `k` windows long, at most `k + 1` times the limits
  of a window.
-/

namespace EasyTierEdge

namespace Host

variable {HS : Type} {config : ServerConfig} {crates : HostCrates HS}

/-- The frame that a connection is sent. -/
def Effect.sentTo (c : ConnId) : Effect → Option Bytes
  | .sent d frame _ => if d = c then some frame else none
  | _ => none

/-- When the window of a connection started, and what it was sent since. -/
def Connection.window (conn : Connection) : ℕ × ℕ × ℕ :=
  (conn.sendWindowStartedAt, conn.sentBytesInWindow, conn.sentFramesInWindow)

/-! ## Moves that send nothing -/

/-- Nothing is sent, and the windows stay, but for that of a new connection. -/
structure Unsent (s s' : HostState HS) : Prop where
  trace : ∃ es, s'.trace = s.trace ++ es ∧ ∀ e ∈ es, ∀ c, e.sentTo c = none
  ambient : ∀ n, ∃ m, s'.ambient n = s.ambient m
  window : ∀ d, (s'.conn d).window = (s.conn d).window ∨
    d = s.conns.length ∧ (s'.conn d).window = (((s.ambient 0).now : ℕ), 0, 0)

namespace Unsent

variable {s s' : HostState HS} {c : ConnId}

theorem of_conns (es : List Effect) (hconns : s'.conns = s.conns) (htrace : s'.trace = s.trace ++ es)
    (hes : ∀ e ∈ es, ∀ c, e.sentTo c = none) (hambient : ∀ n, ∃ m, s'.ambient n = s.ambient m) :
    Unsent s s' := by
  refine ⟨⟨es, htrace, hes⟩, hambient, fun d => .inl ?_⟩
  rw [HostState.conn, hconns, HostState.conn]

theorem of_modifyConn {f : Connection → Connection} (es : List Effect)
    (hf : ∀ conn, (f conn).window = conn.window) (hconns : s'.conns = (s.modifyConn c f).conns)
    (htrace : s'.trace = s.trace ++ es) (hes : ∀ e ∈ es, ∀ c, e.sentTo c = none)
    (hambient : s'.ambient = s.ambient) : Unsent s s' := by
  refine ⟨⟨es, htrace, hes⟩, fun n => ⟨n, congrFun hambient n⟩, fun d => .inl ?_⟩
  rw [HostState.conn, hconns]
  exact s.conn_modifyConn_congr hf c d

end Unsent

/-- A move sends a frame, or nothing. -/
theorem Move.sent_or_unsent {a b : Course × HostState HS} (h : Move config crates a b) :
    (∃ c frame origin, ¬a.2.closed c ∧ Sanctioned config crates a.2 c a.2.trace frame origin ∧
      b.2 = (sendConnection c frame origin a.2).2) ∨ Unsent a.2 b.2 := by
  have hnone : ∀ s : HostState HS, s.trace = s.trace ++ [] := fun s => (List.append_nil _).symm
  have hnil : ∀ e ∈ ([] : List Effect), ∀ c, e.sentTo c = none := List.forall_mem_nil _
  cases h with
  | @sent _ _ c frame origin hc hframe => exact .inl ⟨c, frame, origin, hc, hframe, rfl⟩
  | aside haside =>
    obtain ⟨es, htrace, hes⟩ := haside.trace
    refine .inr (.of_conns es haside.conns htrace (fun e he c => ?_) haside.ambient)
    cases e with
    | sent => cases hes _ he
    | _ => rfl
  | @received s =>
    exact .inr (.of_conns [_] rfl rfl (by simp [Effect.sentTo]) fun n => ⟨n, rfl⟩)
  | @announced _ s =>
    exact .inr (.of_conns [_] rfl rfl (by simp [Effect.sentTo]) fun n => ⟨n, rfl⟩)
  | @accepted s ipKey haccept =>
    obtain ⟨world, timer, heq⟩ := s.tick.accept_eq haccept
    refine .inr ⟨⟨[], ?_, hnil⟩, fun n => ⟨n + 1, ?_⟩, fun d => ?_⟩
    · rw [heq]
      exact hnone s
    · rw [heq]
      rfl
    · by_cases hd : d = s.conns.length
      · refine .inr ⟨hd, ?_⟩
        rw [hd, HostState.conn, s.tick.conns_accept haccept]
        simp [HostState.createConnection, HostState.tick, Connection.window]
      · exact .inl (congrArg Connection.window (s.tick.conn_accept_of_ne haccept hd))
  | @introduced s c f _ _ hf =>
    refine .inr (Unsent.of_modifyConn (s := s) (c := c) [] (fun conn => ?_) rfl (hnone s) hnil rfl)
    obtain ⟨hstarted, hbytes, hframes⟩ := hf.window conn
    exact Prod.ext hstarted (Prod.ext hbytes hframes)
  | @greeted s c =>
    exact .inr (Unsent.of_modifyConn (s := s) (c := c) (f := fun conn => { conn with phase := .msg3 })
      [] (fun _ => rfl) rfl (hnone s) hnil rfl)
  | @entered s c => exact .inr (Unsent.of_conns (s := s) [] rfl (hnone s) hnil fun n => ⟨n, rfl⟩)
  | @added s c a _ hadd =>
    obtain ⟨core, routeSyncStates, heq⟩ := s.addPeer_eq hadd
    rw [heq]
    exact .inr (.of_conns [_] rfl rfl (by simp [Effect.sentTo]) fun n => ⟨n, rfl⟩)
  | @completed s c =>
    exact .inr (Unsent.of_modifyConn (s := s) (c := c)
      (f := fun conn => { conn with handshakeTimer := false, phase := .ready }) [] (fun _ => rfl) rfl
      (hnone s) hnil rfl)
  | @joined s c => exact .inr (Unsent.of_conns (s := s) [] rfl (hnone s) hnil fun n => ⟨n, rfl⟩)
  | @presented _ s => exact .inr (Unsent.of_conns (s := s) [] rfl (hnone s) hnil fun n => ⟨n, rfl⟩)
  | @left _ s c a =>
    obtain ⟨hconns, htrace⟩ := @HostState.withdraw_eq _ crates s c a
    have hambient : (s.withdraw crates c a).ambient = s.ambient := by
      obtain ⟨_, _, _, heq⟩ := s.unregister_eq c
      unfold HostState.withdraw
      split_ifs
      · change (s.unregister c).ambient = _
        rw [heq]
        rfl
      · rw [heq]
        rfl
    have hleft : ∀ es, (s.withdraw crates c a).trace = s.trace ++ es →
        (∀ e ∈ es, ∀ c, e.sentTo c = none) → Unsent s (s.withdraw crates c a) := fun es htrace hes =>
      .of_modifyConn (f := fun conn => { conn with phase := .closed }) es (fun _ => rfl) hconns htrace
        hes hambient
    rcases htrace with htrace | htrace
    · exact .inr (hleft _ htrace (by simp [Effect.sentTo]))
    · exact .inr (hleft _ htrace (by simp [Effect.sentTo]))
  | @disposed _ s c a =>
    exact .inr (Unsent.of_modifyConn (s := s) (c := c) (f := fun conn =>
      { conn with handshakeTimer := false, secure := none, legacyCipher := none }) [.disposed c]
      (fun _ => rfl) rfl rfl (by simp [Effect.sentTo]) rfl)
  | @paused s => exact .inr (Unsent.of_conns (s := s) [] rfl (hnone s) hnil fun n => ⟨n, rfl⟩)
  | @resumed s =>
    unfold HostState.scheduleMaintenance
    dsimp only
    split_ifs
    · exact .inr (Unsent.of_conns (s := s) [] rfl (hnone s) hnil fun n => ⟨n, rfl⟩)
    · exact .inr (Unsent.of_conns (s := s) [] rfl (hnone s) hnil fun n => ⟨n, rfl⟩)

/-! ## Reasons -/

/-- A reason to send stays one. -/
theorem Sanctioned.evolves {s s' : HostState HS} {c : ConnId} {before : List Effect} {frame : Bytes}
    {origin : Origin} (h : Sanctioned config crates s c before frame origin)
    (hevolves : Evolves s s') : Sanctioned config crates s' c before frame origin := by
  cases h with
  | answered hlast => exact .answered hlast
  | welcomed hlast hvalue hinfo hroom hdigest hframe =>
    exact .welcomed hlast hvalue hinfo hroom hdigest hframe
  | echoed hlast hframe => exact .echoed hlast hframe
  | forwarded hlast hframe => exact .forwarded hlast hframe
  | encrypted hpast hmode hpacket hlast =>
    have honward := hevolves.onward c hpast.1
    have hp := Evolves.not_pending hpast
    refine .encrypted (hevolves.past hpast) ((honward.mode hp).trans hmode) ?_ hlast
    rw [Connection.Control, honward.peerId hp]
    exact hpacket
  | ciphered hpast hmode hpacket hroom hcipher hframe =>
    have honward := hevolves.onward c hpast.1
    have hp := Evolves.not_pending hpast
    refine .ciphered (hevolves.past hpast) ((honward.mode hp).trans hmode) ?_ ?_ hcipher hframe
    · rw [Connection.Control, honward.peerId hp]
      exact hpacket
    · rw [honward.networkName hp]
      exact hroom

/-- Every frame that was sent had its reason. -/
def FramesSanctioned (config : ServerConfig) (crates : HostCrates HS) (s : HostState HS) : Prop :=
  Along (fun before e => ∀ c frame origin, e = .sent c frame origin →
    Sanctioned config crates s c before frame origin) s.trace

/-- What holds of every event of a list whatever came before. -/
theorem along_append {ε : Type} {C : List ε → ε → Prop} {tr es : List ε} (h : Along C tr)
    (hes : ∀ e ∈ es, ∀ before, C before e) : Along C (tr ++ es) := by
  induction es using List.reverseRecOn with
  | nil =>
    rw [List.append_nil]
    exact h
  | append_singleton es e ih =>
    rw [← List.append_assoc, Along.snoc_iff]
    refine ⟨ih fun x hx => hes x (List.mem_append_left _ hx), hes e ?_ _⟩
    exact List.mem_append_right _ (List.mem_singleton_self _)

theorem FramesSanctioned.move {a b : Course × HostState HS} (hmove : Move config crates a b)
    (h : FramesSanctioned config crates a.2) : FramesSanctioned config crates b.2 := by
  have hkept : Along (fun before e => ∀ c frame origin, e = .sent c frame origin →
      Sanctioned config crates b.2 c before frame origin) a.2.trace :=
    h.mono fun _ _ he c frame origin hsent => (he c frame origin hsent).evolves hmove.evolves
  rcases hmove.sent_or_unsent with ⟨c, frame, origin, -, hframe, heq⟩ | hunsent
  · have hsends := sends_sendConnection a.2 c frame origin
    rw [← heq] at hsends
    rcases hsends.trace with htrace | htrace
    · rw [FramesSanctioned, htrace]
      exact hkept
    · rw [FramesSanctioned, htrace]
      refine Along.snoc_iff.2 ⟨hkept, fun d frame' origin' he => ?_⟩
      obtain ⟨rfl, rfl, rfl⟩ := Effect.sent.inj he
      exact hframe.evolves hmove.evolves
  · obtain ⟨es, htrace, hes⟩ := hunsent.trace
    rw [FramesSanctioned, htrace]
    refine along_append hkept fun e he before c frame origin hsent => ?_
    have hnone := hes e he c
    rw [hsent, Effect.sentTo, if_pos rfl] at hnone
    cases hnone

/-- What the frames were that a connection was sent in a span of time, and what of it counts for
    the current window. -/
structure Metered (t₀ t₁ : ℕ) (frames : List Bytes) (conn : Connection) : Prop where
  count : Spent sendWindowMs maxSendFramesPerWindow t₀ t₁ frames.length conn.sendWindowStartedAt
    conn.sentFramesInWindow
  bytes : Spent sendWindowMs maxSendBytesPerWindow t₀ t₁ (frames.map List.length).sum
    conn.sendWindowStartedAt conn.sentBytesInWindow

namespace Metered

variable {t₀ t₁ : ℕ} {frames : List Bytes} {conn conn' : Connection}

theorem congr (h : Metered t₀ t₁ frames conn) (hwindow : conn'.window = conn.window) :
    Metered t₀ t₁ frames conn' := by
  obtain ⟨hstarted, hrest⟩ := Prod.mk.inj hwindow
  obtain ⟨hbytes, hframes⟩ := Prod.mk.inj hrest
  constructor
  · rw [hstarted, hframes]
    exact h.count
  · rw [hstarted, hbytes]
    exact h.bytes

/-- The window starts anew. -/
theorem roll (h : Metered t₀ t₁ frames conn) {now : ℕ} (hnow : t₀ ≤ now ∧ now < t₁)
    (hover : (sendWindowMs : ℤ) ≤ now - conn.sendWindowStartedAt) :
    Metered t₀ t₁ frames (conn.withWindow now 0 0) :=
  ⟨h.count.roll hnow.1 hnow.2 hover, h.bytes.roll hnow.1 hnow.2 hover⟩

/-- A frame counts, whether or not it gets through. -/
theorem charge (h : Metered t₀ t₁ frames conn) {frame : Bytes}
    (hbytes : conn.sentBytesInWindow + frame.length ≤ maxSendBytesPerWindow)
    (hframes : conn.sentFramesInWindow < maxSendFramesPerWindow) :
    Metered t₀ t₁ (frames ++ [frame]) (conn.withWindow conn.sendWindowStartedAt
      (conn.sentBytesInWindow + frame.length) (conn.sentFramesInWindow + 1)) := by
  constructor
  · rw [List.length_append]
    exact h.count.charge hframes
  · rw [List.map_append, List.sum_append]
    exact h.bytes.charge hbytes

theorem forget (h : Metered t₀ t₁ frames conn) {frames' : List Bytes} (hle : frames' <+: frames) :
    Metered t₀ t₁ frames' conn := by
  refine ⟨h.count.mono hle.length_le, h.bytes.mono ?_⟩
  exact (hle.sublist.map List.length).sum_le_sum fun _ _ => Nat.zero_le _

end Metered

/-- What a connection was sent since `before` is within the limits for a span of time. -/
def Limited (c : ConnId) (t₀ t₁ : ℕ) (before : List Effect) (s : HostState HS) : Prop :=
  ∃ effects, s.trace = before ++ effects ∧
    Metered t₀ t₁ (effects.filterMap (Effect.sentTo c)) (s.conn c) ∧
    (s.conns.length ≤ c → effects.filterMap (Effect.sentTo c) = [])

section Limits

variable {c : ConnId} {t₀ t₁ : ℕ} {before : List Effect}

theorem filterMap_sentTo_of_none {es : List Effect} (hes : ∀ e ∈ es, ∀ c, e.sentTo c = none) :
    es.filterMap (Effect.sentTo c) = [] :=
  List.filterMap_eq_nil_iff.2 fun e he => hes e he c

/-- Sending a frame to an open connection. -/
theorem Limited.sendConnection {s : HostState HS} (h : Limited c t₀ t₁ before s)
    (hclock : ∀ n, t₀ ≤ ((s.ambient n).now : ℕ) ∧ ((s.ambient n).now : ℕ) < t₁) {d : ConnId}
    (hd : ¬s.closed d) (frame : Bytes) (origin : Origin) :
    Limited c t₀ t₁ before (sendConnection d frame origin s).2 := by
  obtain ⟨effects, htrace, hmetered, hunborn⟩ := h
  have hsends := sends_sendConnection s d frame origin
  by_cases hdc : d = c
  · subst hdc
    -- Whether or not the window is over, it is within its limits.
    have hroll : Metered t₀ t₁ (effects.filterMap (Effect.sentTo d))
          ((s.tick.rollWindow d (s.ambient 0).now).conn d) ∧
        (s.tick.rollWindow d (s.ambient 0).now).trace = before ++ effects ∧
        ¬(s.tick.rollWindow d (s.ambient 0).now).closed d := by
      unfold HostState.rollWindow
      split_ifs with hover
      · have hself := s.tick.conn_modifyConn_self hd (·.withWindow (s.ambient 0).now 0 0)
        rw [HostState.closed, hself]
        exact ⟨hmetered.roll (hclock 0) hover, htrace, hd⟩
      · exact ⟨hmetered, htrace, hd⟩
    obtain ⟨hrolled, htrace₁, hopen⟩ := hroll
    have hcases := sendConnection_cases s d frame origin
    generalize s.tick.rollWindow d (s.ambient 0).now = s₁ at hrolled htrace₁ hopen hcases
    have hlength : ∀ {frames : List Bytes},
        (EasyTierEdge.Host.sendConnection d frame origin s).2.conns.length ≤ d → frames = [] := by
      intro frames hle
      rw [hsends.length] at hle
      exact absurd (s.lt_length_of_not_closed hd) (Nat.not_lt.2 hle)
    rcases hcases with ⟨e, heq⟩ | ⟨hbytes, hframes, hcases⟩
    · rw [heq] at hlength ⊢
      exact ⟨effects, htrace₁, hrolled, hlength⟩
    · have hcharged := hrolled.charge hbytes hframes
      have hself := s₁.conn_modifyConn_self hopen (·.withWindow (s₁.conn d).sendWindowStartedAt
        ((s₁.conn d).sentBytesInWindow + frame.length) ((s₁.conn d).sentFramesInWindow + 1))
      rw [← hself] at hcharged
      rcases hcases with ⟨e, heq⟩ | heq
      · rw [heq] at hlength ⊢
        exact ⟨effects, htrace₁, hcharged.forget (List.prefix_append _ _), hlength⟩
      · rw [heq] at hlength ⊢
        refine ⟨effects ++ [.sent d frame origin], ?_, ?_, hlength⟩
        · change s₁.trace ++ _ = _
          rw [htrace₁, List.append_assoc]
        · have hsent : [Effect.sent d frame origin].filterMap (Effect.sentTo d) = [frame] :=
            List.filterMap_cons_some (if_pos rfl)
          rw [List.filterMap_append, hsent]
          exact hcharged
  · -- Another connection is sent the frame.
    have hwindow : ((EasyTierEdge.Host.sendConnection d frame origin s).2.conn c) = s.conn c := by
      have hother : ∀ (s : HostState HS) (startedAt bytes frames : ℕ),
          (s.modifyConn d (·.withWindow startedAt bytes frames)).conn c = s.conn c := fun s _ _ _ =>
        s.conn_modifyConn_of_ne (Ne.symm hdc) _
      have hroll : (s.tick.rollWindow d (s.ambient 0).now).conn c = s.conn c := by
        unfold HostState.rollWindow
        split_ifs
        · exact hother s.tick _ _ _
        · rfl
      rcases sendConnection_cases s d frame origin with ⟨e, heq⟩ | ⟨-, -, ⟨e, heq⟩ | heq⟩
      · rw [heq]
        exact hroll
      · rw [heq]
        exact (hother _ _ _ _).trans hroll
      · rw [heq]
        exact (hother _ _ _ _).trans hroll
    have hnone : Effect.sentTo c (.sent d frame origin) = none := if_neg hdc
    rcases hsends.trace with heq | heq
    · refine ⟨effects, heq.trans htrace, ?_, ?_⟩
      · rw [hwindow]
        exact hmetered
      · rw [hsends.length]
        exact hunborn
    · refine ⟨effects ++ [.sent d frame origin], ?_, ?_, ?_⟩
      · rw [heq, htrace, List.append_assoc]
      · rw [hwindow, List.filterMap_append, List.filterMap_cons_none hnone, List.filterMap_nil,
          List.append_nil]
        exact hmetered
      · rw [hsends.length, List.filterMap_append, List.filterMap_cons_none hnone, List.filterMap_nil,
          List.append_nil]
        exact hunborn

/-- Every move keeps within the limits. -/
theorem Limited.move {a b : Course × HostState HS} (hmove : Move config crates a b)
    (hclock : ∀ n, t₀ ≤ ((a.2.ambient n).now : ℕ) ∧ ((a.2.ambient n).now : ℕ) < t₁)
    (h : Limited c t₀ t₁ before a.2) :
    Limited c t₀ t₁ before b.2 ∧
      ∀ n, t₀ ≤ ((b.2.ambient n).now : ℕ) ∧ ((b.2.ambient n).now : ℕ) < t₁ := by
  have hevolves := hmove.evolves
  rcases hmove.sent_or_unsent with ⟨d, frame, origin, hd, -, heq⟩ | hunsent
  · rw [heq]
    refine ⟨h.sendConnection hclock hd frame origin, fun n => ?_⟩
    rw [(sends_sendConnection a.2 d frame origin).ambient]
    exact hclock (n + 1)
  · refine ⟨?_, fun n => ?_⟩
    · obtain ⟨effects, htrace, hmetered, hunborn⟩ := h
      obtain ⟨es, htrace', hes⟩ := hunsent.trace
      have hsent : (effects ++ es).filterMap (Effect.sentTo c) =
          effects.filterMap (Effect.sentTo c) := by
        rw [List.filterMap_append, filterMap_sentTo_of_none hes, List.append_nil]
      refine ⟨effects ++ es, by rw [htrace', htrace, List.append_assoc], ?_, fun hle => ?_⟩
      · rw [hsent]
        rcases hunsent.window c with hwindow | ⟨hnew, hwindow⟩
        · exact hmetered.congr hwindow
        · -- A new connection was sent nothing yet.
          have hnothing : Metered t₀ t₁ [] (default : Connection) :=
            ⟨.start (Nat.zero_le _), .start (Nat.zero_le _)⟩
          rw [hunborn hnew.ge]
          have hfresh : Metered t₀ t₁ [] ((default : Connection).withWindow
              ((a.2.ambient 0).now : ℕ) 0 0) :=
            ⟨.start (Nat.zero_le _), .start (Nat.zero_le _)⟩
          exact hfresh.congr hwindow
      · rw [hsent]
        exact hunborn (hevolves.length.trans hle)
    · obtain ⟨m, hm⟩ := hunsent.ambient n
      rw [hm]
      exact hclock m

/-- Every event whose clock is in the span keeps within the limits. -/
theorem Limited.event {s : HostState HS} (hreachable : (server config crates).Reachable s)
    {input : ServerEvent × (ℕ → Ambient)}
    (hclock : ∀ n, t₀ ≤ ((input.2 n).now : ℕ) ∧ ((input.2 n).now : ℕ) < t₁)
    (h : Limited c t₀ t₁ before s) :
    Limited c t₀ t₁ before ((server config crates).step s input).1 := by
  obtain ⟨-, hpath⟩ := Reachable.moves hreachable input
  have hstart : Limited c t₀ t₁ before { s with ambient := input.2 } :=
    h
  have hall : ∀ {a b : Course × HostState HS}, Relation.ReflTransGen (Move config crates) a b →
      Limited c t₀ t₁ before a.2 →
      (∀ n, t₀ ≤ ((a.2.ambient n).now : ℕ) ∧ ((a.2.ambient n).now : ℕ) < t₁) →
      Limited c t₀ t₁ before b.2 ∧
        ∀ n, t₀ ≤ ((b.2.ambient n).now : ℕ) ∧ ((b.2.ambient n).now : ℕ) < t₁ := by
    intro a b hpath ha hclock
    induction hpath with
    | refl => exact ⟨ha, hclock⟩
    | tail _ hlast ih => exact ih.1.move hlast ih.2
  exact (hall hpath hstart hclock).1

end Limits

/-- While the clock is in a span of time that is `k` windows long, a connection is sent no more
    than the limits of `k + 1` windows allow, in whatever way the clock goes back and forth. -/
theorem send_rate_limited (inputs segment : List (ServerEvent × (ℕ → Ambient))) (c : ConnId)
    (t₀ k : ℕ) (hclock : ∀ input ∈ segment, ∀ n, t₀ ≤ ((input.2 n).now : ℕ) ∧
      ((input.2 n).now : ℕ) < t₀ + k * sendWindowMs) :
    let s : HostState HS := (server config crates).run (.init config) inputs
    ∃ effects, ((server config crates).run s segment).trace = s.trace ++ effects ∧
      (effects.filterMap (Effect.sentTo c)).length ≤ (k + 1) * maxSendFramesPerWindow ∧
      ((effects.filterMap (Effect.sentTo c)).map List.length).sum ≤
        (k + 1) * maxSendBytesPerWindow := by
  intro s
  have hreachable : (server config crates).Reachable s := ⟨inputs, rfl⟩
  -- The current window was within its limits before.
  have hwithin : Limited c 0 8640000000000001 [] s := by
    clear hclock
    suffices hall : ∀ inputs, Limited c 0 8640000000000001 []
        ((server config crates).run (.init config : HostState HS) inputs) from hall inputs
    intro inputs
    induction inputs using List.reverseRecOn with
    | nil => exact ⟨[], rfl, ⟨.start (Nat.zero_le _), .start (Nat.zero_le _)⟩, fun _ => rfl⟩
    | append_singleton inputs input ih =>
      rw [Machine.run_snoc]
      exact ih.event ⟨inputs, rfl⟩ fun n => ⟨Nat.zero_le _, Fin.is_lt _⟩
  have hstart : Limited c t₀ (t₀ + k * sendWindowMs) s.trace s := by
    obtain ⟨_, -, hmetered, -⟩ := hwithin
    exact ⟨[], (List.append_nil _).symm, ⟨.start hmetered.count.1, .start hmetered.bytes.1⟩,
      fun _ => rfl⟩
  have hend : Limited c t₀ (t₀ + k * sendWindowMs) s.trace ((server config crates).run s segment) := by
    clear hwithin
    generalize s.trace = before at hstart ⊢
    clear_value s
    induction segment generalizing s with
    | nil => exact hstart
    | cons input segment ih =>
      rw [List.forall_mem_cons] at hclock
      exact ih hclock.2 _ (hreachable.step input) (hstart.event hreachable hclock.1)
  obtain ⟨effects, htrace, hmetered, -⟩ := hend
  exact ⟨effects, htrace, hmetered.count.le_of_span, hmetered.bytes.le_of_span⟩

/-! ## Runs to try -/

namespace ServerSample

def relay : ServerConfig where
  rooms := (∅ : FinMap String String).insert "net" Sample.secret
  hostname := "relay"
  localPrivateKey := Sample.keyText
  localPublicKey := Sample.keyText
  localPublicKeyBytes := utf8 Sample.keyText
  disableRelayData := false
  maxFrameBytes := 65536
  maxPendingPerIp := 8
  connectionMode := .secure
  routeIds := ∅
  length_localPublicKeyBytes := by decide

def thirdParty : HostCrates Transcript where
  secure := .transparent
  rpc := RouteSample.crates
  handshake := ⟨fun _ => .error "no handshake", fun _ => []⟩
  atob _ := none

/-- A client connects and sends message 1. -/
def hello : List (ServerEvent × (ℕ → Ambient)) :=
  [(.upgrade ⟨"/", some "websocket", none⟩, default),
    (.message 0 (.binary (Sample.msg1 0)), default)]

end ServerSample

open ServerSample in
/-- While the clock stands still, the client is sent no more than the limits of two windows. -/
theorem send_rate_limited_hello :
    ∃ effects, ((server relay thirdParty).run (.init relay) hello).trace =
        (HostState.init relay : HostState Transcript).trace ++ effects ∧
      (effects.filterMap (Effect.sentTo 0)).length ≤ (1 + 1) * maxSendFramesPerWindow ∧
      ((effects.filterMap (Effect.sentTo 0)).map List.length).sum ≤
        (1 + 1) * maxSendBytesPerWindow := by
  have hstill : (0 : ℕ) < 0 + 1 * sendWindowMs := by decide
  refine send_rate_limited [] hello 0 0 1 fun input hinput n => ?_
  rcases List.mem_pair.1 hinput with rfl | rfl
  · exact ⟨Nat.zero_le _, hstill⟩
  · exact ⟨Nat.zero_le _, hstill⟩

end Host

end EasyTierEdge
