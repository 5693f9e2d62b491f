import EasyTierEdge.Rpc.Effects

/-!
# What a rejected call leaves

A request is answered with an error, with a reply or, when there are more pieces to come, with
neither. `handleRequest_answer` says what each answer leaves of the core: a request that is
rejected, whether it fails, waits, is not served or is stopped, changes no route and nothing
that the peers have reported.

A response changes the routes only when it accepts an update in time, and the update is then
not waited for any more (`handleResponse_routes`): it is committed once.
-/

namespace EasyTierEdge

/-- What the relay says to a request, before it is encoded. -/
inductive Answer
  /-- The request fails. -/
  | failed (e : String)
  /-- There are more pieces to come. -/
  | pending
  /-- The service or the method is not there. -/
  | invalid (packet : RpcPacket) (error : RpcError)
  /-- A route synchronization is answered. -/
  | synced (packet : RpcPacket) (result : UInt8) (response : SyncRouteInfoResponse)
  /-- A call of the peer center is answered. -/
  | reported (packet : RpcPacket) (body : Bytes)

namespace Answer

/-- The request is rejected. -/
def Rejects : Answer → Prop
  | failed _ => True
  | pending => True
  | invalid .. => True
  | synced _ _ response => response.error = some syncRouteInfoErrorStopped
  | reported .. => False

/-- The answer as it is returned to the host. -/
def encode (core : WasmRpcCore) (crates : RpcCrates) (peerId : UInt32) :
    Answer → Except String Bytes
  | failed e => .error e
  | pending => .ok [0]
  | invalid packet error =>
    .ok (core.replyPacket crates peerId packet { body := [], error := some error })
  | synced packet result response =>
    .ok (core.replyPacket crates peerId packet
      { body := crates.prost.encodeSyncRouteInfoResponse response, result })
  | reported packet body => .ok (core.replyPacket crates peerId packet { body })

end Answer

namespace WasmRpcCore

variable (crates : RpcCrates) (core : WasmRpcCore)

/-- At most the fragments and the flag of the peer differ. -/
def SameButPeer (network : String) (peerId : UInt32) (core core' : WasmRpcCore) : Prop :=
  ∃ fragments initiator,
    (∀ key, key ≠ (network, peerId) → initiator.lookup key = core.peerInitiator.lookup key) ∧
      core' = { core with fragments, peerInitiator := initiator }

theorem SameButPeer.refl (network : String) (peerId : UInt32) (core : WasmRpcCore) :
    SameButPeer network peerId core core :=
  ⟨_, _, fun _ _ => rfl, rfl⟩

/-- A served call, by what it answers. -/
inductive Served (network : String) (peerId : UInt32) (core core' : WasmRpcCore) : Reply → Prop
  /-- The service or the method is not there. -/
  | invalid (error : RpcError) : core' = core →
      Served network peerId core core' { body := [], error := some error }
  /-- A route synchronization is stopped. -/
  | stopped : SameButPeer network peerId core core' →
      Served network peerId core core'
        { body := crates.prost.encodeSyncRouteInfoResponse
            { error := some syncRouteInfoErrorStopped } }
  /-- A route synchronization is accepted. -/
  | synced (result : UInt8) (response : SyncRouteInfoResponse) (routes : RouteState)
      (initiator : FinMap (String × UInt32) Bool) : result ≠ 0 → response.error = none →
      core' = { core with routes, peerInitiator := initiator } →
      Served network peerId core core'
        { body := crates.prost.encodeSyncRouteInfoResponse response, result }
  /-- The peer center is called. -/
  | reported (body : Bytes) (peerCenter : PeerCenter) : core' = { core with peerCenter } →
      Served network peerId core core' { body }

theorem serveRoute_cases (network : String) (peerId : UInt32) (request : Bytes) (nowMs : UInt64)
    (draws : GroupDraws) :
    Served crates network peerId core
      (core.serveRoute crates network peerId request nowMs draws).2
      (core.serveRoute crates network peerId request nowMs draws).1 := by
  -- The request stops before it gets to the routes.
  have hstopped : ∀ weAreInitiator, SameButPeer network peerId core
      { core with
        peerInitiator := core.peerInitiator.insert (network, peerId) weAreInitiator } :=
    fun weAreInitiator => ⟨_, _, fun key hkey => Finmap.lookup_insert_of_ne _ hkey, rfl⟩
  unfold serveRoute RouteState.handleSyncRouteInfoRequest
  cases crates.prost.decodeSyncRouteInfoRequest request with
  | error e => exact .stopped (hstopped _)
  | ok sync =>
    dsimp only
    split_ifs with hid
    · exact .stopped (hstopped _)
    · refine .synced _ _ _ _ ?_ rfl rfl
      split_ifs <;> decide

theorem serve_cases {network : String} {peerId : UInt32} {descriptor : RpcDescriptor}
    {request : Bytes} {nowMs clockMs : UInt64} {draws : GroupDraws} {reply : Reply}
    {core' : WasmRpcCore}
    (h : core.serve crates network peerId descriptor request nowMs clockMs draws =
      .ok (reply, core')) :
    Served crates network peerId core core' reply := by
  -- The peer center does not touch the routes.
  have hcenter : ∀ {result : Except String (Bytes × PeerCenter)}
      {f : Bytes × PeerCenter → Reply × WasmRpcCore},
      (∀ body peerCenter, f (body, peerCenter) = ({ body }, { core with peerCenter })) →
      result.map f = .ok (reply, core') → Served crates network peerId core core' reply := by
    rintro (e | ⟨body, peerCenter⟩) f hf heq
    · cases heq
    · have heq := Except.ok.inj heq
      rw [hf] at heq
      cases heq
      exact .reported body peerCenter rfl
  unfold serve at h
  split_ifs at h
  · cases h
    exact .invalid _ rfl
  · have hserved := core.serveRoute_cases crates network peerId request nowMs draws
    rw [Except.ok.inj h] at hserved
    exact hserved
  · exact hcenter (fun _ _ => rfl) h
  · exact hcenter (fun _ _ => rfl) h
  · cases h
    exact .invalid _ rfl
  · cases h
    exact .invalid _ rfl

/-- What an answer leaves of the core. -/
inductive Answered (network : String) (peerId : UInt32) (core core' : WasmRpcCore) :
    Answer → Prop
  | rejected {answer : Answer} : answer.Rejects → SameButPeer network peerId core core' →
      Answered network peerId core core' answer
  | synced {packet : RpcPacket} {result : UInt8} {response : SyncRouteInfoResponse} :
      result ≠ 0 → response.error = none → core'.peerCenter = core.peerCenter →
      Answered network peerId core core' (.synced packet result response)
  | reported {packet : RpcPacket} {body : Bytes} : core'.routes = core.routes →
      Answered network peerId core core' (.reported packet body)

theorem Served.answered {network : String} {peerId : UInt32} {core core' core'' : WasmRpcCore}
    {reply : Reply} (h : Served crates network peerId core' core'' reply)
    (hbefore : ∃ fragments, core' = { core with fragments }) (packet : RpcPacket) :
    ∃ answer : Answer, .ok (core''.replyPacket crates peerId packet reply) =
      answer.encode core crates peerId ∧ Answered network peerId core core'' answer := by
  obtain ⟨fragments, rfl⟩ := hbefore
  cases h with
  | invalid error heq =>
    subst heq
    exact ⟨.invalid packet error, rfl, .rejected trivial ⟨_, _, fun _ _ => rfl, rfl⟩⟩
  | stopped hsame =>
    obtain ⟨fragments, initiator, hothers, rfl⟩ := hsame
    exact ⟨.synced packet resultHandled { error := some syncRouteInfoErrorStopped }, rfl,
      .rejected rfl ⟨_, _, hothers, rfl⟩⟩
  | synced result response routes initiator hresult hnone heq =>
    subst heq
    exact ⟨.synced packet result response, rfl, .synced hresult hnone rfl⟩
  | reported body peerCenter heq =>
    subst heq
    exact ⟨.reported packet body, rfl, .reported rfl⟩

/-- A request is answered, and one that is rejected leaves the core as it was, but for the
    fragments and the flag of the peer. -/
theorem handleRequest_answer (network : String) (peerId : UInt32) (payload : Bytes)
    (nowMs clockMs : UInt64) (draws : GroupDraws) :
    ∃ answer : Answer,
      (core.handleRequest crates network peerId payload nowMs clockMs draws).1 =
        answer.encode core crates peerId ∧
      Answered network peerId core
        (core.handleRequest crates network peerId payload nowMs clockMs draws).2 answer := by
  have hfailed : ∀ e, Answered network peerId core core (.failed e) :=
    fun e => .rejected trivial (.refl network peerId core)
  have hfragments : ∀ fragments, SameButPeer network peerId core { core with fragments } :=
    fun fragments => ⟨_, _, fun _ _ => rfl, rfl⟩
  unfold handleRequest
  cases crates.prost.decodeRpcPacket payload with
  | error e => exact ⟨.failed _, rfl, hfailed _⟩
  | ok packet =>
    dsimp only
    cases core.validateEnvelope packet network peerId true with
    | error e => exact ⟨.failed _, rfl, hfailed _⟩
    | ok u =>
      dsimp only
      generalize core.fragments.mergePacket network peerId packet nowMs = merging
      rcases merging with ⟨e | _ | packet, fragments⟩
      · exact ⟨.failed _, rfl, .rejected trivial (hfragments _)⟩
      · exact ⟨.pending, rfl, .rejected trivial (hfragments _)⟩
      · dsimp only
        cases hcall : ({ core with fragments } : WasmRpcCore).handleCall crates network peerId
            packet nowMs clockMs draws with
        | error e => exact ⟨.failed _, rfl, .rejected trivial (hfragments _)⟩
        | ok result =>
          obtain ⟨bytes, core'⟩ := result
          -- The call was served.
          unfold handleCall at hcall
          obtain ⟨u, -, hcall⟩ := Except.bind_eq_ok.1 hcall
          cases hdescriptor : packet.descriptor with
          | none =>
            rw [hdescriptor] at hcall
            cases hcall
          | some descriptor =>
            rw [hdescriptor] at hcall
            obtain ⟨request, -, hcall⟩ := Except.bind_eq_ok.1 hcall
            obtain ⟨⟨reply, served⟩, hserve, hcall⟩ := Except.bind_eq_ok.1 hcall
            cases hcall
            exact (serve_cases crates _ hserve).answered crates ⟨fragments, rfl⟩ packet

theorem resultHandled_ne_zero : resultHandled ≠ 0 := by decide

/-- A request that fails, or that waits for more pieces. -/
theorem Answered.of_result {network : String} {peerId : UInt32} {core core' : WasmRpcCore}
    {answer : Answer} (h : Answered network peerId core core' answer)
    (hresult : (∃ e, answer.encode core crates peerId = .error e) ∨
      answer.encode core crates peerId = .ok [0]) : SameButPeer network peerId core core' := by
  -- The first byte of a reply is not `0`.
  have hreply : ∀ packet reply, reply.result ≠ 0 →
      ¬ ((∃ e : String, Except.ok (core.replyPacket crates peerId packet reply) = .error e) ∨
        (Except.ok (core.replyPacket crates peerId packet reply) : Except String Bytes) =
          .ok [0]) := by
    rintro packet reply hne (⟨e, heq⟩ | heq)
    · cases heq
    · exact hne (List.cons.inj (Except.ok.inj heq)).1
  cases h with
  | rejected hrejects hsame => exact hsame
  | synced hne hnone hcenter => exact absurd hresult (hreply _ _ hne)
  | reported hroutes => exact absurd hresult (hreply _ _ resultHandled_ne_zero)

/-! ## Responses -/

theorem readResponse_accepted {packet : RpcPacket} {sessionId : UInt64}
    (h : readResponse crates packet = .ok (.accepted sessionId)) :
    ∃ response sync, crates.prost.decodeRpcResponse packet.body = .ok response ∧
      response.error = none ∧
      crates.prost.decodeSyncRouteInfoResponse response.response = .ok sync ∧
      sync.error = none ∧ sync.sessionId = sessionId := by
  unfold readResponse at h
  cases hvalid : validateCompression packet with
  | error e => simp [hvalid] at h
  | ok u =>
    cases hdescriptor : packet.descriptor with
    | none => simp [hvalid, hdescriptor] at h
    | some descriptor =>
      simp only [hvalid, hdescriptor] at h
      by_cases hroute : (!isService descriptor "OspfRouteRpc" || descriptor.methodIndex ≠ 1) = true
      · rw [if_pos hroute] at h
        cases h
      rw [if_neg hroute] at h
      cases hresponse : crates.prost.decodeRpcResponse packet.body with
      | error e =>
        rw [hresponse] at h
        cases h
      | ok response =>
        rw [hresponse] at h
        dsimp only at h
        by_cases herror : response.error.isSome = true
        · rw [if_pos herror] at h
          cases h
        rw [if_neg herror] at h
        cases hsync : crates.prost.decodeSyncRouteInfoResponse response.response with
        | error e =>
          rw [hsync] at h
          cases h
        | ok sync =>
          rw [hsync] at h
          dsimp only at h
          by_cases hrefused : sync.error.isSome = true
          · rw [if_pos hrefused] at h
            cases h
          rw [if_neg hrefused] at h
          cases h
          exact ⟨response, sync, rfl, Option.not_isSome_iff_eq_none.1 herror, hsync,
            Option.not_isSome_iff_eq_none.1 hrefused, rfl⟩

/-- A response that accepts an update: it is whole and without an error, and the update waits
    for it. -/
theorem examineResponse_accepted {network : String} {peerId : UInt32} {payload : Bytes}
    {nowMs : UInt64} {key : RpcKey} {outstanding : OutstandingRoute} {sessionId : UInt64}
    (h : (core.examineResponse crates network peerId payload nowMs).1 =
      .ok (.accepted key outstanding sessionId)) :
    ∃ packet whole response sync, crates.prost.decodeRpcPacket payload = .ok packet ∧
      key = ⟨network, peerId, packet.transactionId, false⟩ ∧
      core.outstandingRoutes.lookup key = some outstanding ∧ nowMs ≤ outstanding.deadlineMs ∧
      (core.fragments.mergePacket network peerId packet nowMs).1 = .ok (.complete whole) ∧
      crates.prost.decodeRpcResponse whole.body = .ok response ∧ response.error = none ∧
      crates.prost.decodeSyncRouteInfoResponse response.response = .ok sync ∧
      sync.error = none ∧ sync.sessionId = sessionId := by
  unfold examineResponse at h
  cases hdecode : crates.prost.decodeRpcPacket payload with
  | error e => simp [hdecode] at h
  | ok packet =>
    simp only [hdecode] at h
    cases hvalid : core.validateEnvelope packet network peerId false with
    | error e => simp [hvalid] at h
    | ok u =>
      simp only [hvalid] at h
      cases hout : core.outstandingRoutes.lookup ⟨network, peerId, packet.transactionId, false⟩ with
      | none => simp [hout] at h
      | some o =>
        simp only [hout] at h
        by_cases hlate : o.deadlineMs < nowMs
        · rw [if_pos hlate] at h
          cases h
        rw [if_neg hlate] at h
        rcases hmerge : core.fragments.mergePacket network peerId packet nowMs with
          ⟨e | _ | whole, fragments⟩
        · rw [hmerge] at h
          cases h
        · rw [hmerge] at h
          cases h
        · rw [hmerge] at h
          obtain ⟨verdict, hread, hverdict⟩ := Except.map_eq_ok.1 h
          cases verdict with
          | ignored => cases hverdict
          | refused => cases hverdict
          | accepted sid =>
            cases hverdict
            obtain ⟨response, sync, hresponse, hnone, hsync, hok, hsid⟩ :=
              readResponse_accepted crates hread
            exact ⟨packet, whole, response, sync, rfl, rfl, hout, UInt64.not_lt.1 hlate,
              congrArg Prod.fst hmerge, hresponse, hnone, hsync, hok, hsid⟩

/-- A response that commits an update. -/
structure Commits (network : String) (peerId : UInt32) (payload : Bytes) (nowMs : UInt64)
    (core core' : WasmRpcCore) (key : RpcKey) : Prop where
  /-- The update waited for it, and it is not late. -/
  waiting : ∃ outstanding, core.outstandingRoutes.lookup key = some outstanding ∧
    nowMs ≤ outstanding.deadlineMs
  /-- It is whole and without an error. -/
  accepted : ∃ packet whole response sync, crates.prost.decodeRpcPacket payload = .ok packet ∧
    key = ⟨network, peerId, packet.transactionId, false⟩ ∧
    (core.fragments.mergePacket network peerId packet nowMs).1 = .ok (.complete whole) ∧
    crates.prost.decodeRpcResponse whole.body = .ok response ∧ response.error = none ∧
    crates.prost.decodeSyncRouteInfoResponse response.response = .ok sync ∧ sync.error = none
  /-- No other response is waited for. -/
  consumed : core'.outstandingRoutes.lookup key = none

/-- A response leaves the routes as they were, or it commits an update. -/
theorem handleResponse_routes (network : String) (peerId : UInt32) (payload : Bytes)
    (nowMs : UInt64) (draws : GroupDraws) :
    (core.handleResponse crates network peerId payload nowMs draws).2.peerCenter =
        core.peerCenter ∧
      ((core.handleResponse crates network peerId payload nowMs draws).2.routes = core.routes ∨
        (core.handleResponse crates network peerId payload nowMs draws).1 = .ok true ∧
          ∃ key, Commits crates network peerId payload nowMs core
            (core.handleResponse crates network peerId payload nowMs draws).2 key) := by
  have haccepted := @examineResponse_accepted crates core network peerId payload nowMs
  unfold handleResponse
  generalize core.examineResponse crates network peerId payload nowMs = examined at haccepted ⊢
  obtain ⟨settlement, fragments⟩ := examined
  rcases settlement with e | _ | key | _ | _ | key | ⟨key, outstanding, sessionId⟩
  · exact ⟨rfl, .inl rfl⟩
  · exact ⟨rfl, .inl rfl⟩
  · exact ⟨rfl, .inl rfl⟩
  · exact ⟨rfl, .inl rfl⟩
  · exact ⟨rfl, .inl rfl⟩
  · exact ⟨rfl, .inl rfl⟩
  · obtain ⟨packet, whole, response, sync, hdecode, hkey, hout, hdeadline, hmerge, hresponse,
      hnone, hsync, hok, -⟩ := haccepted rfl
    refine ⟨rfl, .inr ⟨rfl, key, ⟨outstanding, hout, hdeadline⟩, ?_, ?_⟩⟩
    · exact ⟨packet, whole, response, sync, hdecode, hkey, hmerge, hresponse, hnone, hsync, hok⟩
    · exact Finmap.lookup_erase _ _

/-- A transaction that is not waited for is waited for again only when an update is sent in it. -/
theorem lookup_step_of_none {key : RpcKey} {op : CoreOp}
    (hnone : core.outstandingRoutes.lookup key = none)
    (hsent : ∀ u, core.sent op = some u → u.key ≠ key) :
    (core.step crates op).1.outstandingRoutes.lookup key = none := by
  have hcases := core_cases crates core key.network op
  generalize (core.step crates op).1 = core' at hcases
  have hframe : Frame key.network core core' → core'.outstandingRoutes.lookup key = none := by
    intro hframe
    refine Option.eq_none_iff_forall_ne_some.2 fun o ho => ?_
    rw [hframe.outstanding key o rfl ho] at hnone
    cases hnone
  cases hcases with
  | kept h _ _ => exact hframe h
  | added _ _ hout _ => rw [hout, hnone]
  | removed h _ => exact hframe h
  | synced h _ _ => exact hframe h
  | committed h _ _ _ _ _ => exact hframe h
  | built _ _ hout _ =>
    refine Option.eq_none_iff_forall_ne_some.2 fun o ho => ?_
    have hbefore := hout key o ho
    split at hbefore
    · rename_i u hu
      rw [if_neg (hsent u hu), hnone] at hbefore
      cases hbefore
    · rw [hnone] at hbefore
      cases hbefore
  | swept h _ _ => exact hframe h

/-- The same for a run. -/
theorem lookup_run_of_none {config : CoreConfig} {key : RpcKey} {ops : List CoreOp}
    (hnone : core.outstandingRoutes.lookup key = none)
    (hsent : ∀ event ∈ (rpcCore crates config).history core ops, ∀ u,
      event.pre.sent event.input = some u → u.key ≠ key) :
    ((rpcCore crates config).run core ops).outstandingRoutes.lookup key = none := by
  induction ops generalizing core with
  | nil => exact hnone
  | cons op ops ih =>
    rw [Machine.history_cons, List.forall_mem_cons] at hsent
    exact ih _ (core.lookup_step_of_none crates hnone hsent.1) hsent.2

/-- Rejected calls leave the routes and the reports of the peers as they were, and a response
    commits its update once: until an update is sent in the same transaction again, no other
    response commits one. -/
theorem rejected_calls_keep (config : CoreConfig) (network : String) (peerId : UInt32)
    (payload : Bytes) (nowMs clockMs : UInt64) (draws : GroupDraws) :
    (let handled := core.handleRequest crates network peerId payload nowMs clockMs draws;
      ((∃ e, handled.1 = .error e) ∨ handled.1 = .ok [0] →
        SameButPeer network peerId core handled.2) ∧
      ∃ answer : Answer, handled.1 = answer.encode core crates peerId ∧
        (answer.Rejects → SameButPeer network peerId core handled.2)) ∧
    (let handled := core.handleResponse crates network peerId payload nowMs draws;
      handled.2.peerCenter = core.peerCenter ∧
      (handled.2.routes ≠ core.routes → handled.1 = .ok true ∧
        ∃ key, Commits crates network peerId payload nowMs core handled.2 key ∧
          ∀ ops, (∀ event ∈ (rpcCore crates config).history handled.2 ops, ∀ u,
              event.pre.sent event.input = some u → u.key ≠ key) →
            ∀ payload' nowMs' core', ¬ Commits crates network peerId payload' nowMs'
              ((rpcCore crates config).run handled.2 ops) core' key)) := by
  constructor
  · intro handled
    obtain ⟨answer, hresult, hanswered⟩ :=
      core.handleRequest_answer crates network peerId payload nowMs clockMs draws
    refine ⟨fun hfails => hanswered.of_result crates ?_, answer, hresult, fun hrejects => ?_⟩
    · rwa [← hresult]
    · cases hanswered with
      | rejected _ hsame => exact hsame
      | synced _ hnone _ =>
        have hstopped : _ = some syncRouteInfoErrorStopped := hrejects
        rw [hnone] at hstopped
        cases hstopped
      | reported _ => exact hrejects.elim
  · intro handled
    obtain ⟨hcenter, hroutes⟩ :=
      core.handleResponse_routes crates network peerId payload nowMs draws
    refine ⟨hcenter, fun hchanged => ?_⟩
    obtain ⟨hok, key, hcommits⟩ := hroutes.resolve_left hchanged
    refine ⟨hok, key, hcommits, fun ops hsent payload' nowMs' core' hagain => ?_⟩
    obtain ⟨outstanding, hout, -⟩ := hagain.waiting
    rw [lookup_run_of_none crates _ hcommits.consumed hsent] at hout
    cases hout

end WasmRpcCore

end EasyTierEdge
