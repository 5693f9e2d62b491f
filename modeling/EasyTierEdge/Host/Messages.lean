import EasyTierEdge.Host.Handling

/-!
# Handling messages

A frame of a client is handled by steps (`leads_handleMessage`): the messages of a handshake, the
control packets of a ready connection, and the frames it sends to other peers. Only the last deliver
anything, and at most one frame (`Forwards`).
-/

namespace EasyTierEdge

namespace Host

variable {HS : Type} {config : ServerConfig} {crates : HostCrates HS}

/-! ## Answers of the module -/

theorem readString_eq_ok {value field v : String} (h : readString value field = .ok v) :
    v = value ∧ value ≠ "" := by
  unfold readString at h
  split_ifs at h with hvalue
  exact ⟨(Except.ok.inj h).symm, hvalue⟩

theorem readPeerId_eq_ok {value : UInt32} {field : String} {v : UInt32}
    (h : readPeerId value field = .ok v) : v = value := by
  unfold readPeerId at h
  split_ifs at h
  exact (Except.ok.inj h).symm

theorem parseHandshakeInfo_eq_ok {value : Msg1Info} {info : HandshakeInfo}
    (h : parseHandshakeInfo value = .ok info) :
    info.peerId = value.peerId ∧ info.networkName = value.networkName ∧ value.networkName ≠ "" := by
  unfold parseHandshakeInfo at h
  simp only [Except.bind_eq_ok, Except.pure_eq_ok] at h
  obtain ⟨_, -, peerId, hpeer, networkName, hname, rfl⟩ := h
  exact ⟨readPeerId_eq_ok hpeer, (readString_eq_ok hname).1, (readString_eq_ok hname).2⟩

theorem parseLegacyHandshakeInfo_ne {value : LegacyHandshakeInfo} {info : LegacyInfo}
    (h : parseLegacyHandshakeInfo crates value = .ok info) : info.networkName ≠ "" := by
  unfold parseLegacyHandshakeInfo at h
  simp only [Except.bind_eq_ok, Except.pure_eq_ok] at h
  obtain ⟨peerId, -, networkName, hname, base64, -, digest, -, rfl⟩ := h
  obtain ⟨rfl, hne⟩ := readString_eq_ok hname
  exact hne

theorem parseAuthenticationInfo_ne {value : AuthInfo} {info : AuthenticationInfo}
    (h : parseAuthenticationInfo crates value = .ok info) : info.networkName ≠ "" := by
  unfold parseAuthenticationInfo at h
  split_ifs at h
  · cases h
  · simp only [Except.bind_eq_ok, Except.pure_eq_ok] at h
    obtain ⟨peerId, -, networkName, hname, base64, -, key, -, rfl⟩ := h
    obtain ⟨rfl, hne⟩ := readString_eq_ok hname
    exact hne

theorem msg1Result_eq_ok {output : Output} {info : Msg1Info} (h : msg1Result output = .ok info) :
    output = .msg1 (.ok info) := by
  unfold msg1Result at h
  split at h
  · obtain rfl := Except.ok.inj h
    rfl
  · cases h

theorem frameResult_eq_ok {output : Output} {bytes : Bytes} (h : frameResult output = .ok bytes) :
    output = .frame (.ok bytes) := by
  unfold frameResult at h
  split at h
  · obtain rfl := Except.ok.inj h
    rfl
  · cases h

theorem authResult_eq_ok {output : Output} {info : AuthInfo} (h : authResult output = .ok info) :
    output = .auth (.ok info) := by
  unfold authResult at h
  split at h
  · obtain rfl := Except.ok.inj h
    rfl
  · cases h

/-! ## The parts of a handshake -/

section Opening

variable {calls : List (Call × Output)} {frames : List Bytes} {mode : HandshakeMode} {key : PeerKey}
  {c : ConnId} {b : Stage × HostState HS}

theorem leads_consult_opening (h : Opening c calls frames mode key b) :
    Leads (Silent config crates) consult (fun _ => Opening c calls frames mode key)
      (fun _ _ => False) b :=
  leads_consult_silent ⟨h.stage,
    @Registry.quiet _ crates _ _ .consulted h.registry, h.pending, h.calls, h.frames, h.mode,
    h.key⟩

/-- The `SecurePeer` of the connection is called. -/
theorem leads_callSecure_opening (h : Opening c calls frames mode key b) (call : Call) :
    Leads (Silent config crates) (callSecure crates c call)
      (fun output => Opening c (calls ++ [(call, output)]) frames mode key) (fun _ => Failed c) b := by
  obtain ⟨t, s⟩ := b
  refine leads_bind (leads_get ?_)
  dsimp only
  cases hsecure : (s.conn c).secure with
  | none => exact leads_throw h.failed
  | some handle =>
    have hdoomed : c ∈ t.doomed := by
      rw [show t = Stage.idle.doom c from h.stage]
      exact Set.mem_insert _ _
    have hstep : Step config crates (t, s) (t, (s.callSecure crates c handle call).2) :=
      .called h.pending hdoomed hsecure
    refine leads_modifyGet t ⟨hstep, deliveries_note_of_none _ rfl⟩
      ⟨h.stage, h.registry.step hstep, h.pending, ?_, ?_, h.mode, h.key⟩
    · refine (HostState.callsOn_note _ _ _).trans ?_
      rw [Effect.callOn, if_pos rfl]
      exact congrArg (· ++ [_]) h.calls
    · refine (HostState.framesOf_note _ _ _).trans ((List.append_nil _).trans h.frames)

/-- What the handshake tells about the connection is kept. -/
theorem leads_prepare (h : Opening c calls frames mode key b) {f : Connection → Connection}
    (hf : Prepares f) (mode' : HandshakeMode) (key' : PeerKey)
    (hmode : ∀ conn, conn.mode = mode → (f conn).mode = mode')
    (hkey : ∀ conn, (conn.networkName, conn.peerId) = key →
      ((f conn).networkName, (f conn).peerId) = key') :
    Leads (Silent config crates) (modify (·.modifyConn c f) : Action HS Unit)
      (fun _ => Opening c calls frames mode' key') (fun _ => Failed c) b := by
  obtain ⟨t, s⟩ := b
  have hself := s.conn_modifyConn_self h.pending.not_closed f
  have hdoomed : c ∈ t.doomed := by
    rw [show t = Stage.idle.doom c from h.stage]
    exact Set.mem_insert _ _
  have hnone : t.registration = .none := by
    rw [show t = Stage.idle.doom c from h.stage]
    rfl
  have hstep : Step config crates (t, s) (t, s.modifyConn c f) :=
    .prepared h.pending hdoomed hnone hf
  refine leads_step t ⟨hstep, rfl⟩ ⟨h.stage, h.registry.step hstep, ?_, h.calls, h.frames, ?_, ?_⟩
  · change ((s.modifyConn c f).conn c).phase.pending = true
    rw [hself, hf.phase]
    exact h.pending
  · change ((s.modifyConn c f).conn c).mode = _
    rw [hself]
    exact hmode _ h.mode
  · change (((s.modifyConn c f).conn c).networkName, ((s.modifyConn c f).conn c).peerId) = _
    rw [hself]
    exact hkey _ h.key

/-- The answer of the handshake is sent. -/
theorem leads_answer (h : Opening c calls frames mode key b) (packet : Bytes) :
    Leads (Silent config crates) (sendConnection c packet .relay)
      (fun _ => Opening c calls frames mode key) (fun _ => Failed c) b := by
  obtain ⟨t, s⟩ := b
  have hsend := @leads_sendConnection _ crates (Silent config crates) t _ _
    (fun _ _ hquiet => hquiet.silent) h.pending.not_closed packet .relay fun s' hs' =>
      ⟨.answered (hs'.pending h.pending), deliveries_note_of_none _ rfl⟩
  -- Whether or not it was sent, nothing else has changed.
  have hafter : ∀ {b : Stage × HostState HS} {effects : List Effect},
      Relation.ReflTransGen (Silent config crates) (t, s) b → b.1 = t → Unmoved s b.2 →
      b.2.trace = s.trace ++ effects → (∀ e ∈ effects, e.callOn c = none ∧ e.frameOf c = none) →
      Opening c calls frames mode key b := by
    rintro ⟨t', s'⟩ effects hpath rfl hs' htrace heffects
    refine ⟨h.stage, registry_of_path hpath h.registry, hs'.pending h.pending, ?_, ?_, ?_, ?_⟩
    · rw [HostState.callsOn, htrace, List.filterMap_append,
        List.filterMap_eq_nil_iff.2 fun e he => (heffects e he).1, List.append_nil]
      exact h.calls
    · rw [HostState.framesOf, htrace, List.filterMap_append,
        List.filterMap_eq_nil_iff.2 fun e he => (heffects e he).2, List.append_nil]
      exact h.frames
    · have hmode := congrArg Connection.mode (hs'.conn c)
      exact hmode.trans h.mode
    · exact (hs'.key c).trans h.key
  refine hsend.mono ?_ ?_
  · rintro - b hpath ⟨hb, hs', htrace⟩
    exact hafter hpath hb hs' htrace fun e he => by
      obtain rfl := List.mem_singleton.1 he
      exact ⟨rfl, rfl⟩
  · rintro - b hpath ⟨hb, hs', htrace⟩
    exact (hafter hpath hb hs' (htrace.trans (List.append_nil _).symm)
      (List.forall_mem_nil _)).failed

/-- A connection in its handshake whose proof is complete. -/
theorem Opening.entering (h : Opening c calls frames mode key b)
    (hdone : HandshakeDone config crates (b.2.callsOn c) (b.2.framesOf c) (b.2.conn c)) :
    Entering config crates c b := by
  have hfailed := h.failed
  refine ⟨h.pending, hdone, hfailed.flushing, hfailed.doomed, hfailed.closing⟩

theorem leads_finish_opening (h : Opening c calls frames mode key b) (hname : key.1 ≠ "")
    (hdone : HandshakeDone config crates (b.2.callsOn c) (b.2.framesOf c) (b.2.conn c)) :
    Leads (Silent config crates) (finishHandshake crates c) (fun _ => Finished) (fun _ => Failed c)
      b := by
  obtain ⟨t, s⟩ := b
  have hstage : t = Stage.idle.doom c := h.stage
  refine leads_finishHandshake h.registry (by rw [hstage]; rfl) (by rw [hstage]; exact .inl rfl) ?_
    (h.entering hdone)
  have hkey := congrArg Prod.fst h.key
  exact fun heq => hname (hkey.symm.trans heq)

/-! ## The messages of a handshake -/

/-- Message 1 is answered by message 2. -/
theorem leads_handleHandshakeMessage1 {frame : Bytes} (packetType : ℕ)
    (h : Opening c [] [frame] .secure key b) :
    Leads (Silent config crates) (handleHandshakeMessage1 config crates c frame packetType)
      (fun _ => Finished) (fun _ => Failed c) b := by
  unfold handleHandshakeMessage1
  refine leads_ite (fun _ => leads_bind (leads_throw h.failed)) fun _ => ?_
  refine leads_ite (fun _ => leads_bind (leads_throw h.failed)) fun hmode => ?_
  have hsecure : config.connectionMode = .secure := by
    cases hconfig : config.connectionMode with
    | secure => rfl
    | legacy => exact absurd hconfig hmode
  refine leads_bind (leads_bind ((leads_callSecure_opening h (.readMsg1 frame)).mono ?_
    fun _ _ _ he => he))
  rintro output b₁ - h₁
  refine leads_ofExcept (fun value hvalue => ?_) fun _ _ => h₁.failed
  obtain rfl := msg1Result_eq_ok hvalue
  refine leads_bind (leads_ofExcept (fun info hinfo => ?_) fun _ _ => h₁.failed)
  obtain ⟨hpeer, hnetwork, hname⟩ := parseHandshakeInfo_eq_ok hinfo
  cases hroom : config.rooms.lookup info.networkName with
  | none => exact (leads_close_failed h₁.failed).mono (fun _ _ _ hb => hb.1) fun _ _ _ he => he.elim
  | some networkSecret =>
    dsimp only
    refine leads_bind ((leads_prepare (f := fun conn =>
      { conn with peerId := info.peerId, networkName := info.networkName }) h₁
      ⟨fun _ => rfl, fun _ => rfl, fun _ => rfl⟩ _ (info.networkName, info.peerId) (fun _ hm => hm)
      fun _ _ => rfl).mono ?_
        fun _ _ _ he => he)
    rintro - b₂ - h₂
    refine leads_bind (leads_bind ((leads_consult_opening h₂).mono ?_ fun _ _ _ he => he.elim))
    rintro a b₃ - h₃
    refine leads_bind ((leads_callSecure_opening h₃ (.buildMsg2 networkSecret a.msg2Draws)).mono ?_
      fun _ _ _ he => he)
    rintro output b₄ - h₄
    refine leads_ofExcept (fun msg2 hmsg2 => ?_) fun _ _ => h₄.failed
    obtain rfl := frameResult_eq_ok hmsg2
    refine leads_bind ((leads_answer h₄ msg2).mono ?_ fun _ _ _ he => he)
    rintro - ⟨t, s⟩ - h₅
    -- The connection waits for message 3.
    have hstage : t = Stage.idle.doom c := h₅.stage
    have hgreeted : Greeted config (s.callsOn c) (s.framesOf c) (s.conn c) := by
      refine ⟨frame, value, ⟨hsecure, networkSecret, a.msg2Draws, msg2, ?_, ?_⟩, h₅.frames, h₅.mode,
        ?_, ?_⟩
      · rw [← hnetwork]
        exact hroom
      · exact h₅.calls
      · exact (congrArg Prod.fst h₅.key).trans hnetwork
      · exact (congrArg Prod.snd h₅.key).trans hpeer
    have hstep : Step config crates (t, s)
        (t.spare c, s.modifyConn c fun conn => { conn with phase := .msg3 }) :=
      .greeted h₅.pending (by rw [hstage]; rfl) hgreeted
    refine leads_step _ ⟨hstep, rfl⟩ ?_
    rw [hstage]
    refine ⟨rfl, rfl, fun d hd => ?_, rfl⟩
    exact (hd.1.resolve_left hd.2).elim

/-- The handshake of a client without secure mode is a single frame. -/
theorem leads_handleLegacyHandshake {frame : Bytes} (header : PacketHeader)
    (h : Opening c [] [frame] .secure key b) :
    Leads (Silent config crates) (handleLegacyHandshake config crates c frame header)
      (fun _ => Finished) (fun _ => Failed c) b := by
  unfold handleLegacyHandshake
  refine leads_ite (fun _ => leads_bind (leads_throw h.failed)) fun hmode => ?_
  have hlegacy : config.connectionMode = .legacy := by
    cases hconfig : config.connectionMode with
    | legacy => rfl
    | secure => exact absurd hconfig hmode
  refine leads_ite (fun _ => leads_bind (leads_throw h.failed)) fun _ => ?_
  refine leads_bind (leads_ofExcept (fun value hvalue => ?_) fun _ _ => h.failed)
  refine leads_bind (leads_ofExcept (fun info hinfo => ?_) fun _ _ => h.failed)
  cases hroom : config.rooms.lookup info.networkName with
  | none => exact (leads_close_failed h.failed).mono (fun _ _ _ hb => hb.1) fun _ _ _ he => he.elim
  | some networkSecret =>
    dsimp only
    refine leads_bind (leads_ofExcept (fun digestOk hdigest => ?_) fun _ _ => h.failed)
    refine leads_ite (fun _ => leads_bind (leads_throw h.failed)) fun hok => ?_
    obtain rfl : digestOk = true := by simpa using hok
    refine leads_bind ((leads_prepare (f := fun conn =>
      { conn with peerId := info.peerId, networkName := info.networkName, mode := .legacy }) h
      ⟨fun _ => rfl, fun _ => rfl, fun _ => rfl⟩ .legacy (info.networkName, info.peerId)
      (fun _ _ => rfl) fun _ _ => rfl).mono ?_
        fun _ _ _ he => he)
    rintro - b₁ - h₁
    refine leads_bind (leads_ofExcept (fun cipher _ => ?_) fun _ _ => h₁.failed)
    refine leads_bind ((leads_prepare (f := fun conn => { conn with legacyCipher := some cipher }) h₁
      ⟨fun _ => rfl, fun _ => rfl, fun _ => rfl⟩ _ _ (fun _ hm => hm) fun _ hk => hk).mono ?_
        fun _ _ _ he => he)
    rintro - b₂ - h₂
    refine leads_bind (leads_ofExcept (fun response _ => ?_) fun _ _ => h₂.failed)
    refine leads_bind ((leads_answer h₂ response).mono ?_ fun _ _ _ he => he)
    rintro - b₃ - h₃
    refine leads_finish_opening h₃ (parseLegacyHandshakeInfo_ne hinfo) (.inr ?_)
    exact ⟨frame, value, info, networkSecret, hlegacy, h₃.calls, h₃.frames, hvalue, hinfo, hroom,
      hdigest, h₃.mode, congrArg Prod.fst h₃.key, congrArg Prod.snd h₃.key⟩

/-- Message 3 ends the handshake. -/
theorem leads_handleHandshakeMessage3 {frame msg1 : Bytes} {info : Msg1Info} (packetType : ℕ)
    (hgreeting : Greeting config calls msg1 info)
    (h : Opening c calls [msg1, frame] .secure (info.networkName, info.peerId) b) :
    Leads (Silent config crates) (handleHandshakeMessage3 crates c frame packetType)
      (fun _ => Finished) (fun _ => Failed c) b := by
  unfold handleHandshakeMessage3
  refine leads_ite (fun _ => leads_bind (leads_throw h.failed)) fun _ => ?_
  refine leads_bind (leads_bind ((leads_consult_opening h).mono ?_ fun _ _ _ he => he.elim))
  rintro a b₁ - h₁
  refine leads_bind ((leads_callSecure_opening h₁ (.finishMsg3 frame a.clockMs)).mono ?_
    fun _ _ _ he => he)
  rintro output b₂ - h₂
  refine leads_ofExcept (fun value hvalue => ?_) fun _ _ => h₂.failed
  obtain rfl := authResult_eq_ok hvalue
  refine leads_bind (leads_ofExcept (fun auth hauth => ?_) fun _ _ => h₂.failed)
  refine leads_bind (leads_get ?_)
  dsimp only
  refine leads_ite (fun _ => leads_bind (leads_throw h₂.failed)) fun hsame => ?_
  have hname : info.networkName ≠ "" := by
    have hkey := congrArg Prod.fst h₂.key
    obtain ⟨-, hnetwork⟩ := not_or.1 hsame
    intro heq
    exact parseAuthenticationInfo_ne hauth ((not_not.1 hnetwork).trans (hkey.trans heq))
  refine leads_bind ((leads_prepare (f := fun conn =>
    { conn with remotePublicKey := auth.remotePublicKey }) h₂
    ⟨fun _ => rfl, fun _ => rfl, fun _ => rfl⟩ _ _ (fun _ hm => hm) fun _ hk => hk).mono ?_
      fun _ _ _ he => he)
  rintro - b₃ - h₃
  refine leads_finish_opening h₃ hname (.inl ?_)
  exact ⟨calls, msg1, info, frame, a.clockMs, value, hgreeting, h₃.calls, h₃.frames, h₃.mode,
    congrArg Prod.fst h₃.key, congrArg Prod.snd h₃.key⟩

end Opening

/-! ## Packets for the relay -/

/-- A ready connection, with nothing to be done. -/
structure Serving (c : ConnId) (b : Stage × HostState HS) : Prop where
  stage : b.1 = .idle
  registry : Registry b.1 b.2
  ready : b.2.ready c

section Serving

variable {c : ConnId} {b : Stage × HostState HS}

theorem Serving.finished (h : Serving c b) : Finished b := by
  have hstage := h.stage
  obtain ⟨t, s⟩ := b
  obtain rfl : t = .idle := hstage
  exact finished_idle s

theorem Serving.failed (h : Serving c b) : Failed c b := h.finished.failed c

/-- Sending leaves the connection as it is. -/
theorem Serving.still {b' : Stage × HostState HS} (h : Serving c b)
    (hpath : Relation.ReflTransGen (Silent config crates) b b') (hstill : Still b.1 b.2 b') :
    Serving c b' :=
  ⟨hstill.1.trans h.stage, registry_of_path hpath h.registry, hstill.2.ready h.ready⟩

/-- A program that only sends. -/
theorem leads_still {α : Type} {x : Action HS α} (h : Serving c b)
    (hx : Leads (Quiet crates) x (fun _ => Still b.1 b.2) (fun _ => Still b.1 b.2) b) :
    Leads (Silent config crates) x (fun _ => Serving c) (fun _ => Serving c) b :=
  (leads_silent hx).mono (fun _ _ hpath hb => h.still hpath hb) fun _ _ hpath hb => h.still hpath hb

theorem leads_consult_serving (h : Serving c b) :
    Leads (Silent config crates) consult (fun _ => Serving c) (fun _ _ => False) b :=
  leads_consult_silent ⟨h.stage, @Registry.quiet _ crates _ _ .consulted h.registry, h.ready⟩

/-- A packet is decrypted. -/
theorem leads_decryptPacket (h : Serving c b) (packet : Bytes) :
    Leads (Silent config crates) (decryptPacket crates c packet) (fun _ => Serving c)
      (fun _ => Serving c) b := by
  refine leads_bind ((leads_consult_serving h).mono ?_ fun _ _ _ he => he.elim)
  rintro a ⟨t, s⟩ - h₁
  refine leads_bind (leads_bind (leads_get ?_))
  dsimp only
  cases hsecure : (s.conn c).secure with
  | none => exact leads_throw h₁
  | some handle =>
    have hstep : Step config crates (t, s)
        (t, (s.callSecure crates c handle (.decryptPacket packet a.packetClock)).2) :=
      .decrypted h₁.ready hsecure
    have h₂ : Serving c (t, (s.callSecure crates c handle (.decryptPacket packet a.packetClock)).2) :=
      ⟨h₁.stage, h₁.registry.step hstep, h₁.ready⟩
    refine leads_modifyGet t ⟨hstep, deliveries_note_of_none _ rfl⟩ ?_
    exact leads_ofExcept (fun _ _ => h₂) fun _ _ => h₂

/-- What was decrypted is parsed. -/
theorem leads_payloadOf (h : Serving c b) (clear : Bytes) :
    Leads (Silent config crates) (payloadOf clear) (fun _ => Serving c) (fun _ => Serving c) b := by
  refine leads_ite (fun _ => leads_pure h) fun _ => ?_
  exact leads_bind (leads_ofExcept (fun _ _ => leads_pure h) fun _ _ => h)

/-- The payload of a control packet is read. -/
theorem leads_clearPayload (h : Serving c b) (frame : Bytes) (header : PacketHeader)
    (payload : Bytes) :
    Leads (Silent config crates) (clearPayload crates c frame header payload) (fun _ => Serving c)
      (fun _ => Serving c) b := by
  refine leads_bind (leads_get ?_)
  dsimp only
  split
  · split
    · refine leads_ite (fun _ => leads_pure h) fun _ => ?_
      exact leads_bind (leads_ofExcept (fun clear _ => leads_payloadOf h clear) fun _ _ => h)
    · exact leads_throw h
  · refine leads_ite (fun _ => leads_bind (leads_throw h)) fun _ => ?_
    exact leads_bind ((leads_decryptPacket h frame).mono (fun clear b _ hb => leads_payloadOf hb clear)
      fun _ _ _ he => he)

/-- A change is announced to the connection itself. -/
theorem leads_sendRouteUpdate_serving (h : Serving c b) (forceFull : Bool) :
    Leads (Silent config crates) (sendRouteUpdate crates c forceFull) (fun _ => Finished)
      (fun _ => Failed c) b := by
  obtain ⟨t, s⟩ := b
  obtain rfl : t = .idle := h.stage
  refine (leads_silent (leads_sendRouteUpdate h.ready rfl forceFull)).mono ?_ ?_
  · rintro - ⟨t', s'⟩ - rfl
    exact finished_idle s'
  · rintro - ⟨t', s'⟩ - rfl
    exact ⟨.inl rfl, rfl, fun d hd => hd.imp_right fun hd => hd.elim, rfl⟩

/-- A call of the client is served and answered. -/
theorem leads_handleRequest (h : Serving c b) (payload : Bytes) :
    Leads (Silent config crates) (handleRequest crates c payload) (fun _ => Finished)
      (fun _ => Failed c) b := by
  refine leads_bind ((leads_consult_serving h).mono ?_ fun _ _ _ he => he.elim)
  rintro a ⟨t, s⟩ - h₁
  have hstep : Step config crates (t, s) (t, (s.handleRequest crates c payload a).2) :=
    .requested h₁.ready
  have h₂ : Serving c (t, (s.handleRequest crates c payload a).2) :=
    ⟨h₁.stage, h₁.registry.step hstep, h₁.ready⟩
  refine leads_bind (leads_modifyGet t ⟨hstep, rfl⟩ ?_)
  refine leads_bind (leads_ofExcept (fun result _ => ?_) fun _ _ => h₂.failed)
  refine leads_ite (fun _ => leads_pure h₂.finished) fun _ => ?_
  refine leads_ite (fun _ => leads_bind (leads_throw h₂.failed)) fun _ => ?_
  refine leads_bind ((leads_still h₂ (leads_sendControl h₂.ready _ _)).mono ?_
    fun _ _ _ he => he.failed)
  rintro - b₃ - h₃
  have hannounce : ∀ result : RequestResult, Leads (Silent config crates) (do
      sendRouteUpdate crates c false
      pure result) (fun _ => Finished) (fun _ => Failed c) b₃ := fun result =>
    leads_bind ((leads_sendRouteUpdate_serving h₃ false).mono (fun _ _ _ hb => leads_pure hb)
      fun _ _ _ he => he)
  refine leads_ite (fun _ => hannounce _) fun _ => leads_ite (fun _ => hannounce _) fun _ => ?_
  exact leads_ite (fun _ => leads_bind (leads_throw h₃.failed)) fun _ => leads_pure h₃.finished

/-- A response of the client is read; the update in flight may be completed, and the next one
    built. -/
theorem leads_handleResponse (h : Serving c b) (payload : Bytes) :
    Leads (Silent config crates) (handleResponse crates c payload) (fun _ => Finished)
      (fun _ => Failed c) b := by
  refine leads_bind ((leads_consult_serving h).mono ?_ fun _ _ _ he => he.elim)
  rintro a ⟨t, s⟩ - h₁
  obtain rfl : t = .idle := h₁.stage
  have hstep : Step config crates (.idle, s) (_, (s.handleResponse crates c payload a).2) :=
    .responded h₁.ready rfl
  have hregistry := h₁.registry.step hstep
  have hready : (s.handleResponse crates c payload a).2.ready c := h₁.ready
  have hsilent : Silent config crates (.idle, s) (_, (s.handleResponse crates c payload a).2) :=
    ⟨hstep, rfl⟩
  refine leads_bind (leads_modifyGet _ hsilent ?_)
  clear hsilent hstep
  dsimp only at hregistry ⊢
  generalize s.handleResponse crates c payload a = result at hregistry hready
  obtain ⟨complete, s₁⟩ := result
  cases complete with
  | error e => exact leads_bind (leads_ofExcept (fun _ hok => nomatch hok)
      fun _ _ => (finished_idle s₁).failed c)
  | ok complete =>
    refine leads_bind (leads_pure ?_)
    cases complete with
    | false => exact leads_ite (fun _ => leads_pure (finished_idle s₁)) fun hnot => absurd rfl hnot
    | true =>
      refine leads_ite (fun hnot => by cases hnot) fun _ => ?_
      refine leads_bind (leads_get (leads_bind (leads_get ?_)))
      dsimp only
      rw [if_pos rfl] at hregistry
      rw [if_pos rfl]
      cases hstate : s₁.routeSyncStates.get (s₁.routeSyncKey c) with
      | none =>
        have hunsettled : Step config crates (Stage.idle.flush (some c), s₁) (.idle, s₁) :=
          .unsettled rfl hstate
        exact Leads.after (.single ⟨hunsettled, rfl⟩) rfl (leads_pure (finished_idle s₁))
      | some state =>
        refine leads_bind (leads_consult_silent ?_)
        have hsettled : Step config crates (Stage.idle.flush (some c), s₁.tick)
            (_, s₁.tick.settle (s₁.routeSyncKey c) (s₁.ambient 0).now) :=
          .settled rfl hready hstate
        refine leads_bind (leads_step _ ⟨hsettled, rfl⟩ ?_)
        dsimp only
        -- The update was for this connection.
        have hpeer : state.peer = c := by
          obtain ⟨hpeer, hkey⟩ := hregistry.sync _ state hstate
          exact hregistry.eq_of_ready hpeer hready hkey
        have hlookup : (s₁.tick.settle (s₁.routeSyncKey c) (s₁.ambient 0).now).routeSyncStates.get
            (s₁.routeSyncKey c) = some { state with
              inFlight := false, sentAt := 0, lastCompletedAt := (s₁.ambient 0).now } := by
          refine (JsMap.get_modify ..).trans ((if_pos rfl).trans ?_)
          rw [show s₁.tick.routeSyncStates.get (s₁.routeSyncKey c) = some state from hstate]
          rfl
        cases hwanted : (state.dirty || state.forceFull) with
        | false =>
          exact leads_ite (fun hnot => by cases hnot) fun _ => leads_pure (finished_idle _)
        | true =>
          refine leads_ite (fun _ => ?_) fun hnot => absurd rfl hnot
          refine leads_bind (leads_consult_silent ?_)
          refine (leads_silent (leads_flushRouteUpdate (t := Stage.idle.flush (some c))
            (s := (s₁.tick.settle (s₁.routeSyncKey c) (s₁.ambient 0).now).tick)
            (Fin.is_lt _) rfl hready hlookup hpeer rfl hwanted)).mono ?_ ?_
          · rintro - ⟨t', s'⟩ - ⟨rfl, -⟩
            exact finished_idle s'
          · rintro - ⟨t', s'⟩ - ⟨rfl, -⟩
            exact ⟨.inl rfl, rfl, fun d hd => hd.imp_right fun hd => hd.elim, rfl⟩

/-- A frame for the relay. -/
theorem leads_handleDirectPacket (h : Serving c b) (frame : Bytes) (header : PacketHeader)
    (payload : Bytes) :
    Leads (Silent config crates) (handleDirectPacket crates c frame header payload)
      (fun _ => Finished) (fun _ => Failed c) b := by
  refine leads_bind (leads_get ?_)
  dsimp only
  refine leads_ite (fun _ => leads_bind (leads_throw h.failed)) fun _ => ?_
  refine leads_ite (fun _ => leads_bind (leads_throw h.failed)) fun _ => ?_
  refine leads_ite (fun _ => ?_) fun _ => ?_
  · refine leads_bind (leads_ofExcept (fun pong _ => ?_) fun _ _ => h.failed)
    refine leads_bind ((leads_still h (leads_relay h.ready pong)).mono ?_ fun _ _ _ he => he.failed)
    exact fun _ _ _ hb => leads_pure hb.finished
  refine leads_ite (fun _ => leads_pure h.finished) fun _ => ?_
  refine leads_ite (fun _ => leads_pure h.finished) fun _ => ?_
  refine leads_bind ((leads_clearPayload h frame header payload).mono ?_ fun _ _ _ he => he.failed)
  rintro clear b₁ - h₁
  cases clear with
  | none => exact leads_pure h₁.finished
  | some payload =>
    refine leads_ite (fun _ => ?_) fun _ => leads_handleResponse h₁ payload
    refine leads_bind ((leads_handleRequest h₁ payload).mono ?_ fun _ _ _ he => he)
    rintro result ⟨t, s⟩ - h₂
    refine leads_ite (fun _ => ?_) fun _ => leads_pure h₂
    -- The rest of the network is told.
    refine leads_bind (leads_get ?_)
    exact (leads_silent (leads_broadcastRouteUpdate h₂.flushing _ _ _)).mono
      (fun _ _ _ hcalm => h₂.calm hcalm) fun _ _ _ he => he.elim

end Serving

/-! ## Frames for other peers -/

/-- The hop counter does not count for what a frame carries. -/
theorem isRelayDataPacket_set {frame : Bytes} (h : headerSize ≤ frame.length) (counter : UInt8) :
    isRelayDataPacket (frame.set 10 counter) = isRelayDataPacket frame := by
  obtain ⟨header, payload, rfl⟩ := exists_joinHeaderPayload h
  have hset : (joinHeaderPayload header payload).set 10 counter =
      joinHeaderPayload { header with forwardCounter := counter } payload := rfl
  have hinner : foreignNetworkInnerPacketType
      (joinHeaderPayload { header with forwardCounter := counter } payload) =
        foreignNetworkInnerPacketType (joinHeaderPayload header payload) := by
    unfold foreignNetworkInnerPacketType
    rw [drop_joinHeaderPayload, drop_joinHeaderPayload]
  rw [hset, isRelayDataPacket_eq, isRelayDataPacket_eq, EasyTierEdge.isRelayDataPacket,
    EasyTierEdge.isRelayDataPacket, fromBytes_joinHeaderPayload, fromBytes_joinHeaderPayload]
  simp only [bind, Except.bind]
  rw [hinner]

/-- The frame of the connection `c` for another peer may be delivered to `target`. -/
structure Forwards (config : ServerConfig) (s : HostState HS) (c : ConnId) (frame : Bytes)
    (toPeerId : UInt32) (target : ConnId) (forwarded : Bytes) : Prop where
  registered : s.rooms.get (s.conn c).networkName toPeerId = some target
  ready : s.ready target
  counter : frame.getD 10 0 ≤ maxForwardHops
  bytes : forwarded = frame.set 10 (frame.getD 10 0 + 1)
  relayData : config.disableRelayData = true → EasyTierEdge.isRelayDataPacket forwarded = .ok false

section Forward

theorem incrementForwardCounter_eq_ok {frame forwarded : Bytes}
    (h : incrementForwardCounter frame = .ok forwarded) : headerSize ≤ frame.length ∧
      frame.getD 10 0 ≤ maxForwardHops ∧ forwarded = frame.set 10 (frame.getD 10 0 + 1) := by
  unfold incrementForwardCounter at h
  split_ifs at h with hshort
  · cases h
  · dsimp only at h
    split_ifs at h with hhops
    · cases h
    · exact ⟨Nat.not_lt.1 hshort, UInt8.not_lt.1 hhops, (Except.ok.inj h).symm⟩

/-- A peer that is not in the room has no gateway either. -/
theorem leads_resolveRecipient {r : Stage × HostState HS → Stage × HostState HS → Prop}
    {b : Stage × HostState HS} (networkName : String) (toPeerId : UInt32) :
    Leads r (resolveRecipient networkName toPeerId)
      (fun recipient b' => b' = b ∧ ∀ target, recipient = some target →
        b.2.rooms.get networkName toPeerId = some target ∧ b.2.ready target)
      (fun _ _ => False) b := by
  refine leads_bind (leads_get ?_)
  cases hdirect : b.2.rooms.get networkName toPeerId with
  | some direct =>
    refine leads_pure ⟨rfl, fun target htarget => ?_⟩
    split_ifs at htarget with hready
    obtain rfl := Option.some.inj htarget
    exact ⟨rfl, hready⟩
  | none =>
    refine leads_bind (leads_bind (leads_get (leads_pure ?_)))
    refine leads_ite (fun _ => leads_pure ⟨rfl, nofun⟩) fun hgateway => absurd ?_ hgateway
    -- The next hop to a peer is the peer itself.
    unfold RouteState.getNextHop
    split
    · split_ifs
      · exact .inr rfl
      · exact .inl rfl
    · exact .inl rfl

/-- A frame that is not dropped is delivered to at most one connection. -/
theorem leads_deliver {s : HostState HS} {c : ConnId} {frame : Bytes} (toPeerId : UInt32)
    (hcarried : config.disableRelayData = true → isRelayDataPacket frame = .ok false) :
    Leads (Step config crates) (deliver crates c frame toPeerId)
      (fun _ b => Finished b ∧ (b.2.deliveries = s.deliveries ∨ ∃ target forwarded,
        Forwards config s c frame toPeerId target forwarded ∧
          b.2.deliveries = s.deliveries ++ [(c, target, forwarded)]))
      (fun _ b => Failed c b ∧ b.2.deliveries = s.deliveries) (.idle, s) := by
  have hdone := finished_idle s
  refine leads_bind (leads_get (leads_bind ((leads_resolveRecipient _ toPeerId).mono ?_
    fun _ _ _ he => he.elim)))
  rintro recipient b - ⟨rfl, hrecipient⟩
  cases recipient with
  | none => exact leads_pure ⟨hdone, .inl rfl⟩
  | some target =>
    obtain ⟨hregistered, hready⟩ := hrecipient target rfl
    refine leads_bind (leads_ofExcept (fun forwarded hforwarded => ?_)
      fun _ _ => ⟨hdone.failed c, rfl⟩)
    obtain ⟨hlength, hcounter, rfl⟩ := incrementForwardCounter_eq_ok hforwarded
    have hforwards : Forwards config s c frame toPeerId target
        (frame.set 10 (frame.getD 10 0 + 1)) := by
      refine ⟨hregistered, hready, hcounter, rfl, fun hrelay => ?_⟩
      rw [← isRelayDataPacket_eq, isRelayDataPacket_set hlength]
      exact hcarried hrelay
    generalize frame.set 10 (frame.getD 10 0 + 1) = forwarded at hforwards
    have hsend := @leads_sendConnection _ crates (Step config crates) .idle _ _
      (fun _ _ hquiet => .quiet hquiet) hready.not_closed forwarded (.peer c)
      fun s' hs' => .forwarded (hs'.ready hready)
    refine leads_tryCatch (hsend.mono ?_ ?_)
    · rintro - ⟨t, s'⟩ - ⟨rfl, -, htrace⟩
      refine ⟨finished_idle s', .inr ⟨target, forwarded, hforwards, ?_⟩⟩
      change s'.trace.filterMap _ = s.trace.filterMap _ ++ _
      rw [show s'.trace = s.trace ++ _ from htrace, List.filterMap_append]
      rfl
    · -- A connection that cannot be sent anything is closed.
      rintro - ⟨t, s'⟩ - ⟨rfl, hs', htrace⟩
      have hready' : s'.ready target := hs'.ready hready
      have hclose := @leads_close _ crates .idle s' target (fun hp => hp.not_ready hready') rfl
      refine (hclose.mono_rel fun _ _ hquiet => .quiet hquiet).mono ?_ fun _ _ _ he => he.elim
      rintro - b - ⟨hcalm, -⟩
      refine ⟨(finished_idle s').calm hcalm, .inl ?_⟩
      refine hcalm.undisturbed.deliveries.trans ?_
      change s'.trace.filterMap _ = s.trace.filterMap _
      rw [show s'.trace = s.trace from htrace]

/-- A frame for another peer is delivered to at most one connection. -/
theorem leads_forward (s : HostState HS) (c : ConnId) (frame : Bytes) (toPeerId : UInt32) :
    Leads (Step config crates) (forward config crates c frame toPeerId)
      (fun _ b => Finished b ∧ (b.2.deliveries = s.deliveries ∨ ∃ target forwarded,
        Forwards config s c frame toPeerId target forwarded ∧
          b.2.deliveries = s.deliveries ++ [(c, target, forwarded)]))
      (fun _ b => Failed c b ∧ b.2.deliveries = s.deliveries) (.idle, s) := by
  have hdone := finished_idle s
  refine leads_ite (fun _ => ?_) fun hnot =>
    leads_bind (leads_pure (leads_deliver toPeerId fun hrelay => absurd hrelay hnot))
  refine leads_bind (leads_ofExcept (fun isDropped hcarried => ?_) fun _ _ => ⟨hdone.failed c, rfl⟩)
  refine leads_ite (fun _ => leads_pure ⟨hdone, .inl rfl⟩) fun hdropped =>
    leads_deliver toPeerId fun _ => ?_
  rw [hcarried, Bool.eq_false_of_not_eq_true hdropped]

end Forward

/-! ## All frames -/

/-- What a message of a connection delivers: nothing, or its frame to the connection that is
    registered for it. -/
def Delivers (config : ServerConfig) (s : HostState HS) (c : ConnId) (data : Data)
    (s' : HostState HS) : Prop :=
  s'.deliveries = s.deliveries ∨ ∃ frame header payload target forwarded, data = .binary frame ∧
    parsePacket frame = .ok (header, payload) ∧ header.toPeerId ≠ serverPeerId.toNat ∧
    s.ready c ∧ Forwards config s c frame (UInt32.ofNat header.toPeerId) target forwarded ∧
    s'.deliveries = s.deliveries ++ [(c, target, forwarded)]

section Message

variable {s : HostState HS}

theorem deliveries_of_path {a b : Stage × HostState HS}
    (hpath : Relation.ReflTransGen (Silent config crates) a b) :
    b.2.deliveries = a.2.deliveries := by
  induction hpath with
  | refl => rfl
  | tail _ hlast ih => exact hlast.2.trans ih

/-- A program that delivers nothing. -/
theorem leads_delivers {x : Action HS Unit} {Q E : Stage × HostState HS → Prop} {c : ConnId}
    {data : Data} {b : Stage × HostState HS} (hb : b.2.deliveries = s.deliveries)
    (h : Leads (Silent config crates) x (fun _ => Q) (fun _ => E) b) :
    Leads (Step config crates) x (fun _ b => Q b ∧ Delivers config s c data b.2)
      (fun _ b => E b ∧ Delivers config s c data b.2) b := by
  refine Leads.mono_rel (r := Silent config crates) (fun _ _ hsilent => hsilent.1) (h.mono ?_ ?_)
  · exact fun _ b' hpath hb' => ⟨hb', .inl ((deliveries_of_path hpath).trans hb)⟩
  · exact fun _ b' hpath hb' => ⟨hb', .inl ((deliveries_of_path hpath).trans hb)⟩

/-- A frame of a client is handled. -/
theorem leads_handleMessage (hregistry : Registry .idle s)
    (hhandshakes : Handshakes config crates .idle s) (c : ConnId) (data : Data) :
    Leads (Step config crates) (handleMessage config crates c data)
      (fun _ b => Finished b ∧ Delivers config s c data b.2)
      (fun _ b => Failed c b ∧ Delivers config s c data b.2) (.idle, s) := by
  have hdone := finished_idle s
  have hfailed := hdone.failed c
  refine leads_bind (leads_ofExcept (fun frame hframe => ?_) fun _ _ => ⟨hfailed, .inl rfl⟩)
  obtain rfl : data = .binary frame := by
    cases data with
    | text => cases hframe
    | binary bytes => exact congrArg Data.binary (Except.ok.inj hframe)
  refine leads_ite (fun _ => leads_bind (leads_throw ⟨hfailed, .inl rfl⟩)) fun _ => ?_
  refine leads_bind (leads_ofExcept (fun packet hpacket => ?_) fun _ _ => ⟨hfailed, .inl rfl⟩)
  obtain ⟨header, payload⟩ := packet
  refine leads_bind (leads_get ?_)
  dsimp only
  refine leads_ite (fun _ => leads_pure ⟨hdone, .inl rfl⟩) fun hopen => ?_
  -- In a handshake, the connection is closed if it fails.
  have hopening : ∀ {calls : List (Call × Output)} {frames : List Bytes} {mode : HandshakeMode}
      {key : PeerKey}, s.pending c → s.callsOn c = calls → s.framesOf c = frames →
      (s.conn c).mode = mode → s.routeSyncKey c = key →
      Relation.ReflTransGen (Step config crates) (.idle, s)
        (Stage.idle.doom c, s.note (.received c frame)) ∧
      Opening c calls (frames ++ [frame]) mode key
        (Stage.idle.doom c, s.note (.received c frame)) := by
    intro calls frames mode key hc hcalls hframes hmode hkey
    have hreceived : Step config crates (Stage.idle.doom c, s)
        (Stage.idle.doom c, s.note (.received c frame)) :=
      .received hopen fun _ => Set.mem_insert _ _
    refine ⟨.tail (.single (.opened hc)) hreceived, rfl, (hregistry.doom c).note _, hc, ?_, ?_,
      hmode, hkey⟩
    · rw [HostState.callsOn_note, hcalls]
      exact List.append_nil _
    · rw [HostState.framesOf_note, hframes, Effect.frameOf, if_pos rfl]
      rfl
  have hauthentic := hhandshakes.authentic c
  have hidle : ¬c ∈ Stage.idle.doomed := fun h => h.elim
  cases hphase : (s.conn c).phase with
  | closed => exact absurd hphase hopen
  | msg1 =>
    have hc : s.pending c := by rw [HostState.pending, hphase]; rfl
    obtain ⟨hcalls, hframes, hmode⟩ := hauthentic.fresh hphase hidle
    obtain ⟨hpath, hstart⟩ := hopening hc hcalls hframes hmode rfl
    refine leads_bind (leads_path (Stage.idle.doom c) hpath ?_)
    refine leads_ite (fun _ => ?_) fun _ => ?_
    · exact leads_delivers (deliveries_note_of_none _ rfl) (leads_handleLegacyHandshake header hstart)
    · exact leads_delivers (deliveries_note_of_none _ rfl) (leads_handleHandshakeMessage1 _ hstart)
  | msg3 =>
    have hc : s.pending c := by rw [HostState.pending, hphase]; rfl
    obtain ⟨msg1, info, hgreeting, hframes, hmode, hname, hpeer⟩ := hauthentic.greeted hphase hidle
    have hkey : s.routeSyncKey c = (info.networkName, info.peerId) := Prod.ext hname hpeer
    obtain ⟨hpath, hstart⟩ := hopening hc rfl hframes hmode hkey
    refine leads_bind (leads_path (Stage.idle.doom c) hpath ?_)
    exact leads_delivers (deliveries_note_of_none _ rfl)
      (leads_handleHandshakeMessage3 _ hgreeting hstart)
  | ready =>
    have hc : s.ready c := hphase
    have hreceived : Step config crates (.idle, s) (.idle, s.note (.received c frame)) :=
      .received hopen fun hp => absurd hc hp.not_ready
    have hserving : Serving c (.idle, s.note (.received c frame)) := ⟨rfl, hregistry.note _, hc⟩
    have hnone : (s.note (.received c frame)).deliveries = s.deliveries :=
      deliveries_note_of_none _ rfl
    refine leads_bind (leads_step .idle hreceived ?_)
    refine leads_ite (fun hto => ?_) fun _ => leads_delivers hnone
      (leads_handleDirectPacket hserving frame header payload)
    refine (leads_forward _ c frame (UInt32.ofNat header.toPeerId)).mono ?_ ?_
    · rintro - b - ⟨hfinished, heq | ⟨target, forwarded, hforwards, heq⟩⟩
      · exact ⟨hfinished, .inl (heq.trans hnone)⟩
      · refine ⟨hfinished, .inr ⟨frame, header, payload, target, forwarded, rfl, hpacket, hto, hc,
          ⟨hforwards.registered, hforwards.ready, hforwards.counter, hforwards.bytes,
            hforwards.relayData⟩, ?_⟩⟩
        rw [heq, hnone]
    · rintro - b - ⟨hfailed, heq⟩
      exact ⟨hfailed, .inl (heq.trans hnone)⟩

end Message

end Host

end EasyTierEdge
