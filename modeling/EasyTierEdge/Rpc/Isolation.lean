import EasyTierEdge.Rpc.Accounting
import EasyTierEdge.Rpc.History

/-!
# Fragments of different peers

The peers of a relay share one table of fragments, with limits on the pieces and bytes
of all of them. Apart from these limits, what becomes of the packets of a peer does not
depend on the packets of the others (`fragments_isolated`): the expired transactions of
the peer that another one's packet removes would have been removed by its own next
packet.

The limits are not per peer, and a clock that goes back makes transactions expire that
would not have (`packets_of_others_matter`).
-/

namespace EasyTierEdge

/-- The transaction is one of the peer `q` of a network. -/
def RpcKey.isOf (q : String × UInt32) (key : RpcKey) : Bool := key.network = q.1 && key.peerId = q.2

theorem RpcKey.isOf_iff {q : String × UInt32} {key : RpcKey} :
    key.isOf q ↔ (key.network, key.peerId) = q := by
  obtain ⟨network, peerId⟩ := q
  simp [isOf]

namespace Fragments

variable {f f₁ f₂ : Fragments} {q : String × UInt32} {key key' : RpcKey} {packet : RpcPacket}
  {nowMs laterMs : UInt64}

/-- The errors of the limits on all peers. -/
def sharedLimits : List String :=
  ["pending fragmented RPC piece limit exceeded", "pending fragmented RPC byte limit exceeded"]

/-- A packet was rejected because of a limit on all peers. -/
def LimitExceeded (outcome : Except String MergedPacket) : Prop :=
  ∃ e ∈ sharedLimits, outcome = .error e

/-- The transactions of the peer `q` are the same in two tables. -/
def SameFor (q : String × UInt32) (f₁ f₂ : Fragments) : Prop :=
  ∀ key : RpcKey, key.isOf q → f₁.pending.lookup key = f₂.pending.lookup key

/-! ## Expiry -/

theorem lookup_cleanPending :
    (f.cleanPending nowMs).pending.lookup key =
      (f.pending.lookup key).filter fun p =>
        !decide (rpcFragmentTtlMs ≤ nowMs.saturatingSub p.updatedAtMs) :=
  Finmap.lookup_retain _ _ _

/-- What has expired stays expired. -/
theorem lookup_cleanPending_of_le (h : nowMs ≤ laterMs) :
    ((f.cleanPending nowMs).cleanPending laterMs).pending.lookup key =
      (f.cleanPending laterMs).pending.lookup key := by
  rw [lookup_cleanPending, lookup_cleanPending, lookup_cleanPending]
  cases hp : f.pending.lookup key with
  | none => rfl
  | some p =>
    have hexpired : rpcFragmentTtlMs ≤ nowMs.saturatingSub p.updatedAtMs →
        rpcFragmentTtlMs ≤ laterMs.saturatingSub p.updatedAtMs := by
      rw [UInt64.le_iff_toNat_le] at h
      rw [UInt64.le_iff_toNat_le, UInt64.le_iff_toNat_le, UInt64.toNat_saturatingSub,
        UInt64.toNat_saturatingSub]
      omega
    by_cases hnow : rpcFragmentTtlMs ≤ nowMs.saturatingSub p.updatedAtMs
    · simp [Option.filter, hnow, hexpired hnow]
    · simp [Option.filter, hnow]

theorem SameFor.cleanPending (h : SameFor q f₁ f₂) (nowMs : UInt64) :
    SameFor q (f₁.cleanPending nowMs) (f₂.cleanPending nowMs) := by
  intro key hkey
  rw [lookup_cleanPending, lookup_cleanPending, h key hkey]

theorem SameFor.of_cleanPending (h : SameFor q (f₁.cleanPending nowMs) (f₂.cleanPending nowMs))
    (hle : nowMs ≤ laterMs) : SameFor q (f₁.cleanPending laterMs) (f₂.cleanPending laterMs) := by
  intro key hkey
  have := h.cleanPending laterMs key hkey
  rwa [lookup_cleanPending_of_le hle, lookup_cleanPending_of_le hle] at this

/-- A packet that is a piece of one, whose transaction the table has or opens. -/
def mergePiece (f : Fragments) (key : RpcKey) (packet : RpcPacket) (nowMs : UInt64) :
    Except String MergedPacket × Fragments :=
  if (f.pending.lookup key).any (·.totalPieces ≠ packet.totalPieces) then
    (.error "fragmented RPC changed its declared piece count", f.removePending key)
  else
    match f.openPending key packet.totalPieces nowMs with
    | .error e => (.error e, f)
    | .ok f => f.putPiece key packet nowMs

/-- Either the packet alone decides what becomes of it, or it is a piece. -/
theorem mergePacket_cases (packet : RpcPacket) :
    (∃ outcome, ∀ f : Fragments, ∀ network peerId nowMs,
        f.mergePacket network peerId packet nowMs = (outcome, f)) ∨
      ∀ f : Fragments, ∀ network peerId nowMs, f.mergePacket network peerId packet nowMs =
        (f.cleanPending nowMs).mergePiece
          ⟨network, peerId, packet.transactionId, packet.isRequest⟩ packet nowMs := by
  unfold mergePacket
  dsimp only
  split_ifs
  · exact .inl ⟨_, fun _ _ _ _ => rfl⟩
  · exact .inl ⟨_, fun _ _ _ _ => rfl⟩
  · exact .inl ⟨_, fun _ _ _ _ => rfl⟩
  · exact .inl ⟨_, fun _ _ _ _ => rfl⟩
  · exact .inr fun _ _ _ _ => rfl

theorem SameFor.removeAll (keys : RpcKey → PendingRpc → Bool)
    (h : SameFor q (f₁.cleanPending nowMs) (f₂.cleanPending nowMs)) :
    SameFor q ((f₁.removeAll keys).cleanPending nowMs) ((f₂.removeAll keys).cleanPending nowMs) := by
  intro key hkey
  have hcomm (f : Fragments) : ((f.removeAll keys).cleanPending nowMs).pending.lookup key =
      ((f.cleanPending nowMs).pending.lookup key).filter fun p => !keys key p := by
    rw [lookup_cleanPending, lookup_cleanPending, Fragments.removeAll, Finmap.lookup_retain,
      Option.filter_filter, Option.filter_filter]
    simp only [Bool.and_comm]
  rw [hcomm, hcomm, h key hkey]

/-! ## Packets of others -/

theorem lookup_removePending_of_ne (h : key' ≠ key) :
    (f.removePending key).pending.lookup key' = f.pending.lookup key' := by
  rw [removePending_eq, Finmap.lookup_erase_ne h]

theorem lookup_openPending_of_ne {totalPieces : UInt32} {f' : Fragments} (h : key' ≠ key)
    (hopen : f.openPending key totalPieces nowMs = .ok f') :
    f'.pending.lookup key' = f.pending.lookup key' := by
  unfold openPending at hopen
  split_ifs at hopen
  · obtain rfl := Except.ok.inj hopen
    rfl
  · obtain rfl := Except.ok.inj hopen
    exact Finmap.lookup_insert_of_ne _ h

theorem lookup_putPiece_of_ne (h : key' ≠ key) :
    (f.putPiece key packet nowMs).2.pending.lookup key' = f.pending.lookup key' := by
  unfold putPiece
  cases f.pending.lookup key with
  | none => rfl
  | some p =>
    dsimp only
    cases p.pieces[packet.pieceIdx.toNat]? with
    | none => rfl
    | some previous =>
      dsimp only
      split_ifs
      · exact lookup_removePending_of_ne h
      · exact Finmap.lookup_insert_of_ne _ h
      · rw [Finmap.lookup_insert]
        exact (lookup_removePending_of_ne h).trans (Finmap.lookup_insert_of_ne _ h)

/-- A piece of another transaction. -/
theorem lookup_mergePiece_of_ne (h : key' ≠ key) :
    (f.mergePiece key packet nowMs).2.pending.lookup key' = f.pending.lookup key' := by
  unfold mergePiece
  split_ifs
  · exact lookup_removePending_of_ne h
  · cases hopen : f.openPending key packet.totalPieces nowMs with
    | error e => rfl
    | ok f' => exact (lookup_putPiece_of_ne h).trans (lookup_openPending_of_ne h hopen)

/-- A packet of another peer removes no transaction that has not expired. -/
theorem SameFor.of_foreign {network : String} {peerId : UInt32} (hforeign : (network, peerId) ≠ q)
    (hle : nowMs ≤ laterMs) :
    SameFor q ((f.mergePacket network peerId packet nowMs).2.cleanPending laterMs)
      (f.cleanPending laterMs) := by
  intro key hkey
  have hne : key ≠ ⟨network, peerId, packet.transactionId, packet.isRequest⟩ := by
    rintro rfl
    exact hforeign (RpcKey.isOf_iff.1 hkey)
  rcases mergePacket_cases packet with ⟨outcome, heq⟩ | heq
  · rw [heq]
  · rw [heq, lookup_cleanPending, lookup_mergePiece_of_ne hne, ← lookup_cleanPending,
      lookup_cleanPending_of_le hle]

/-! ## Packets of the peer -/

theorem SameFor.insert {f₁' f₂' : Fragments} {p : PendingRpc} (h : SameFor q f₁ f₂)
    (h₁ : f₁'.pending = f₁.pending.insert key p) (h₂ : f₂'.pending = f₂.pending.insert key p) :
    SameFor q f₁' f₂' := by
  intro key' hkey'
  rw [h₁, h₂, Finmap.lookup_insert_ite, Finmap.lookup_insert_ite, h key' hkey']

theorem SameFor.removePending (h : SameFor q f₁ f₂) (key : RpcKey) :
    SameFor q (f₁.removePending key) (f₂.removePending key) := by
  intro key' hkey'
  rw [removePending_eq, removePending_eq, Finmap.lookup_erase_ite, Finmap.lookup_erase_ite,
    h key' hkey']

/-- The peer has the same number of transactions. -/
theorem SameFor.count_eq (h : SameFor q f₁ f₂) (hkey : key.isOf q) :
    (f₁.pending.count fun key' _ => key'.network = key.network && key'.peerId = key.peerId) =
      f₂.pending.count fun key' _ => key'.network = key.network && key'.peerId = key.peerId := by
  refine Finmap.count_congr fun key' => ?_
  by_cases hkey' : key'.isOf q
  · rw [h key' hkey']
  · have hne : ¬(key'.network = key.network ∧ key'.peerId = key.peerId) := by
      rintro ⟨hnetwork, hpeerId⟩
      apply hkey'
      rw [RpcKey.isOf_iff, hnetwork, hpeerId]
      exact RpcKey.isOf_iff.1 hkey
    have hfalse : (decide (key'.network = key.network) && decide (key'.peerId = key.peerId)) =
        false := by simpa using hne
    rw [hfalse]
    cases f₁.pending.lookup key' <;> cases f₂.pending.lookup key' <;> rfl

/-- Opening a transaction of the peer depends on its own transactions and on a limit on
    all peers. -/
theorem openPending_same {totalPieces : UInt32} (h : SameFor q f₁ f₂) (hkey : key.isOf q)
    (h₁ : ∀ e ∈ sharedLimits, f₁.openPending key totalPieces nowMs ≠ .error e)
    (h₂ : ∀ e ∈ sharedLimits, f₂.openPending key totalPieces nowMs ≠ .error e) :
    (∃ e, f₁.openPending key totalPieces nowMs = .error e ∧
        f₂.openPending key totalPieces nowMs = .error e) ∨
      ∃ f₁' f₂', f₁.openPending key totalPieces nowMs = .ok f₁' ∧
        f₂.openPending key totalPieces nowMs = .ok f₂' ∧ SameFor q f₁' f₂' := by
  unfold openPending at h₁ h₂ ⊢
  rw [← h key hkey, ← h.count_eq hkey] at h₂ ⊢
  by_cases hsome : (f₁.pending.lookup key).isSome
  · rw [if_pos hsome, if_pos hsome]
    exact .inr ⟨f₁, f₂, rfl, rfl, h⟩
  rw [if_neg hsome] at h₁ h₂
  rw [if_neg hsome, if_neg hsome]
  by_cases hcount : maxPendingTransactionsPerPeer ≤
      f₁.pending.count fun key' _ => key'.network = key.network && key'.peerId = key.peerId
  · rw [if_pos hcount, if_pos hcount]
    exact .inl ⟨_, rfl, rfl⟩
  rw [if_neg hcount] at h₁ h₂
  rw [if_neg hcount, if_neg hcount]
  have hpieces (f : Fragments) {x : Except String Fragments}
      (hlimit : ∀ e ∈ sharedLimits, (if maxPendingPieces < f.pendingPieces + totalPieces.toNat then
        .error "pending fragmented RPC piece limit exceeded" else x) ≠ .error e) :
      ¬maxPendingPieces < f.pendingPieces + totalPieces.toNat := by
    intro hlt
    exact hlimit _ (by simp [sharedLimits]) (if_pos hlt)
  rw [if_neg (hpieces f₁ h₁), if_neg (hpieces f₂ h₂)]
  exact .inr ⟨_, _, rfl, rfl, h.insert rfl rfl⟩

/-- Storing a piece of the peer depends on its own transactions and on a limit on all
    peers. -/
theorem putPiece_same (h : SameFor q f₁ f₂) (hkey : key.isOf q)
    (h₁ : ¬LimitExceeded (f₁.putPiece key packet nowMs).1)
    (h₂ : ¬LimitExceeded (f₂.putPiece key packet nowMs).1) :
    (f₁.putPiece key packet nowMs).1 = (f₂.putPiece key packet nowMs).1 ∧
      SameFor q (f₁.putPiece key packet nowMs).2 (f₂.putPiece key packet nowMs).2 := by
  unfold putPiece at h₁ h₂ ⊢
  rw [← h key hkey] at h₂ ⊢
  cases hp : f₁.pending.lookup key with
  | none => exact ⟨rfl, h⟩
  | some p =>
    rw [hp] at h₁ h₂
    dsimp only at h₁ h₂ ⊢
    cases hprevious : p.pieces[packet.pieceIdx.toNat]? with
    | none => exact ⟨rfl, h⟩
    | some previous =>
      rw [hprevious] at h₁ h₂
      dsimp only at h₁ h₂ ⊢
      have hbytes (f : Fragments) {r : Except String MergedPacket × Fragments}
          (hlimit : ¬LimitExceeded (if maxPendingBytes <
              f.pendingBytes - (previous.getD []).length + packet.body.length then
            (.error "pending fragmented RPC byte limit exceeded", f.removePending key) else r).1) :
          ¬maxPendingBytes < f.pendingBytes - (previous.getD []).length + packet.body.length := by
        intro hlt
        rw [if_pos hlt] at hlimit
        exact hlimit ⟨_, by simp [sharedLimits], rfl⟩
      rw [if_neg (hbytes f₁ h₁), if_neg (hbytes f₂ h₂), Finmap.lookup_insert, Finmap.lookup_insert]
      split_ifs
      · exact ⟨rfl, h.insert rfl rfl⟩
      · exact ⟨rfl, SameFor.removePending (h.insert rfl rfl) key⟩

theorem openPending_ne_error (h : ¬LimitExceeded (f.mergePiece key packet nowMs).1)
    (hchanged : ¬(f.pending.lookup key).any (·.totalPieces ≠ packet.totalPieces)) :
    ∀ e ∈ sharedLimits, f.openPending key packet.totalPieces nowMs ≠ .error e := by
  intro e he heq
  apply h
  rw [mergePiece, if_neg hchanged, heq]
  exact ⟨e, he, rfl⟩

theorem mergePiece_same (h : SameFor q f₁ f₂) (hkey : key.isOf q)
    (h₁ : ¬LimitExceeded (f₁.mergePiece key packet nowMs).1)
    (h₂ : ¬LimitExceeded (f₂.mergePiece key packet nowMs).1) :
    (f₁.mergePiece key packet nowMs).1 = (f₂.mergePiece key packet nowMs).1 ∧
      SameFor q (f₁.mergePiece key packet nowMs).2 (f₂.mergePiece key packet nowMs).2 := by
  have hlookup := h key hkey
  by_cases hchanged : (f₁.pending.lookup key).any (·.totalPieces ≠ packet.totalPieces)
  · rw [mergePiece, mergePiece, ← hlookup, if_pos hchanged, if_pos hchanged]
    exact ⟨rfl, h.removePending key⟩
  rcases openPending_same h hkey (openPending_ne_error h₁ hchanged)
    (openPending_ne_error h₂ (hlookup ▸ hchanged)) with ⟨e, he₁, he₂⟩ | ⟨f₁', f₂', hf₁, hf₂, hsame⟩
  · rw [mergePiece, mergePiece, ← hlookup, if_neg hchanged, if_neg hchanged, he₁, he₂]
    exact ⟨rfl, h⟩
  · rw [mergePiece, if_neg hchanged, hf₁] at h₁ ⊢
    rw [mergePiece, ← hlookup, if_neg hchanged, hf₂] at h₂ ⊢
    exact putPiece_same hsame hkey h₁ h₂

/-- A packet of the peer gets the same outcome in two tables in which the peer has the
    same transactions, unless a limit on all peers rejects it. -/
theorem mergePacket_same (h : SameFor q (f₁.cleanPending nowMs) (f₂.cleanPending nowMs))
    (h₁ : ¬LimitExceeded (f₁.mergePacket q.1 q.2 packet nowMs).1)
    (h₂ : ¬LimitExceeded (f₂.mergePacket q.1 q.2 packet nowMs).1) :
    (f₁.mergePacket q.1 q.2 packet nowMs).1 = (f₂.mergePacket q.1 q.2 packet nowMs).1 ∧
      ∀ laterMs, nowMs ≤ laterMs →
        SameFor q ((f₁.mergePacket q.1 q.2 packet nowMs).2.cleanPending laterMs)
          ((f₂.mergePacket q.1 q.2 packet nowMs).2.cleanPending laterMs) := by
  rcases mergePacket_cases packet with ⟨outcome, heq⟩ | heq
  · rw [heq, heq]
    exact ⟨rfl, fun laterMs hle => h.of_cleanPending hle⟩
  · rw [heq] at h₁ h₂ ⊢
    rw [heq]
    obtain ⟨houtcome, hsame⟩ := mergePiece_same h (RpcKey.isOf_iff.2 rfl) h₁ h₂
    exact ⟨houtcome, fun laterMs _ => hsame.cleanPending laterMs⟩

end Fragments

/-! ## Updates that wait for a response -/

/-- A packet of another peer than `q`. -/
def CoreOp.isForeign (q : String × UInt32) : CoreOp → Bool
  | .handleRequest network peerId .. => (network, peerId) ≠ q
  | .handleResponse network peerId .. => (network, peerId) ≠ q
  | _ => false

/-- The reading of the clock that a call gets. -/
def CoreOp.nowMs : CoreOp → Option UInt64
  | .addPeer _ _ _ nowMs _ => some nowMs
  | .removePeer .. => none
  | .handleRequest _ _ _ nowMs _ _ => some nowMs
  | .handleResponse _ _ _ nowMs _ => some nowMs
  | .buildRouteUpdate _ _ _ _ nowMs _ _ => some nowMs
  | .cleanExpired nowMs _ => some nowMs

namespace WasmRpcCore

variable (crates : RpcCrates) (core : WasmRpcCore) {core₁ core₂ : WasmRpcCore}
  {q : String × UInt32} {network : String} {peerId : UInt32} {payload : Bytes} {nowMs : UInt64}

/-- What becomes of the packet that a call merges. -/
def mergeOutcome (op : CoreOp) : Option (Except String MergedPacket) :=
  match core.fragmentCall crates op with
  | .merge network peerId packet nowMs =>
    some (core.fragments.mergePacket network peerId packet nowMs).1
  | _ => none

/-- The deadline of the response to an update. -/
def deadline (key : RpcKey) : Option UInt64 := (core.outstandingRoutes.lookup key).map (·.deadlineMs)

theorem fragmentCall_handleRequest (network : String) (peerId : UInt32) (payload : Bytes)
    (nowMs clockMs : UInt64) (draws : GroupDraws) :
    core.fragmentCall crates (.handleRequest network peerId payload nowMs clockMs draws) = .none ∨
      ∃ packet, core.fragmentCall crates (.handleRequest network peerId payload nowMs clockMs draws) =
        .merge network peerId packet nowMs := by
  simp only [fragmentCall]
  cases crates.prost.decodeRpcPacket payload with
  | error e => exact .inl rfl
  | ok packet =>
    dsimp only
    cases core.validateEnvelope packet network peerId true with
    | error e => exact .inl rfl
    | ok u => exact .inr ⟨packet, rfl⟩

theorem fragmentCall_handleResponse (network : String) (peerId : UInt32) (payload : Bytes)
    (nowMs : UInt64) (draws : GroupDraws) :
    core.fragmentCall crates (.handleResponse network peerId payload nowMs draws) = .none ∨
      ∃ packet, core.fragmentCall crates (.handleResponse network peerId payload nowMs draws) =
        .merge network peerId packet nowMs := by
  simp only [fragmentCall]
  cases crates.prost.decodeRpcPacket payload with
  | error e => exact .inl rfl
  | ok packet =>
    dsimp only
    cases core.validateEnvelope packet network peerId false with
    | error e => exact .inl rfl
    | ok u =>
      dsimp only
      cases core.outstandingRoutes.lookup ⟨network, peerId, packet.transactionId, false⟩ with
      | none => exact .inl rfl
      | some outstanding =>
        dsimp only
        split_ifs
        · exact .inl rfl
        · exact .inr ⟨packet, rfl⟩

/-- A packet is merged, and expired transactions are removed, at the time of the call. -/
theorem fragmentCall_times {op : CoreOp} (h : op.isForeign q = false) :
    match core.fragmentCall crates op with
    | .merge network peerId _ nowMs => (network, peerId) = q ∧ op.nowMs = some nowMs
    | .clean nowMs => op.nowMs = some nowMs
    | _ => True := by
  cases op with
  | addPeer network peerId publicKey nowMs draws => trivial
  | removePeer network peerId draws => trivial
  | handleRequest network peerId payload nowMs clockMs draws =>
    have hq : (network, peerId) = q := by simpa [CoreOp.isForeign] using h
    rcases core.fragmentCall_handleRequest crates network peerId payload nowMs clockMs draws with
      hcall | ⟨packet, hcall⟩
    · rw [hcall]
      trivial
    · rw [hcall]
      exact ⟨hq, rfl⟩
  | handleResponse network peerId payload nowMs draws =>
    have hq : (network, peerId) = q := by simpa [CoreOp.isForeign] using h
    rcases core.fragmentCall_handleResponse crates network peerId payload nowMs draws with
      hcall | ⟨packet, hcall⟩
    · rw [hcall]
      trivial
    · rw [hcall]
      exact ⟨hq, rfl⟩
  | buildRouteUpdate network peerId sessionId forceFull nowMs draws ids => rfl
  | cleanExpired nowMs clockMs => rfl

theorem deadline_of_eq {core core' : WasmRpcCore}
    (h : core'.outstandingRoutes = core.outstandingRoutes) (key : RpcKey) :
    core'.deadline key = core.deadline key := by
  rw [deadline, h, deadline]

/-- Whether a response ends the transaction it is for, by the deadline and by what becomes
    of its packet. -/
def settles (deadlineMs nowMs : UInt64) (outcome : Except String MergedPacket) : Bool :=
  deadlineMs < nowMs ||
    match outcome with
    | .ok (.complete packet) =>
      match readResponse crates packet with
      | .ok .refused => true
      | .ok (.accepted _) => true
      | _ => false
    | _ => false

/-- The transaction that a response ends. -/
def settledKey (network : String) (peerId : UInt32) (payload : Bytes) (nowMs : UInt64) :
    Option RpcKey :=
  match crates.prost.decodeRpcPacket payload with
  | .error _ => none
  | .ok packet =>
    match core.validateEnvelope packet network peerId false with
    | .error _ => none
    | .ok () =>
      let key := RpcKey.mk network peerId packet.transactionId false
      match core.deadline key with
      | none => none
      | some deadlineMs =>
        if settles crates deadlineMs nowMs
            (core.fragments.mergePacket network peerId packet nowMs).1 then some key
        else none

/-- The packet of a response in time is merged. -/
theorem mergeOutcome_handleResponse {packet : RpcPacket} {deadlineMs : UInt64} (draws : GroupDraws)
    (hdecode : crates.prost.decodeRpcPacket payload = .ok packet)
    (henvelope : core.validateEnvelope packet network peerId false = .ok ())
    (hdeadline : core.deadline ⟨network, peerId, packet.transactionId, false⟩ = some deadlineMs) :
    core.mergeOutcome crates (.handleResponse network peerId payload nowMs draws) =
      if deadlineMs < nowMs then none
      else some (core.fragments.mergePacket network peerId packet nowMs).1 := by
  obtain ⟨outstanding, hout, rfl⟩ := Option.map_eq_some_iff.1 hdeadline
  simp only [mergeOutcome, fragmentCall, hdecode, henvelope, hout]
  split_ifs <;> rfl

/-- The transaction that ends, if any. -/
def Settlement.key : Settlement → Option RpcKey
  | .late key => some key
  | .refused key => some key
  | .accepted key _ _ => some key
  | _ => none

theorem key_examineResponse :
    (core.examineResponse crates network peerId payload nowMs).1.toOption.bind Settlement.key =
      core.settledKey crates network peerId payload nowMs := by
  unfold examineResponse settledKey
  cases crates.prost.decodeRpcPacket payload with
  | error e => rfl
  | ok packet =>
    dsimp only
    cases core.validateEnvelope packet network peerId false with
    | error e => rfl
    | ok u =>
      dsimp only [deadline]
      cases core.outstandingRoutes.lookup ⟨network, peerId, packet.transactionId, false⟩ with
      | none => rfl
      | some outstanding =>
        dsimp only [Option.map_some]
        by_cases hlate : outstanding.deadlineMs < nowMs
        · simp only [settles, hlate, if_true, decide_true, Bool.true_or]
          rfl
        · simp only [settles, hlate, if_false, decide_false, Bool.false_or]
          rcases core.fragments.mergePacket network peerId packet nowMs with
            ⟨e | _ | merged, fragments⟩
          · rfl
          · rfl
          · rcases hread : readResponse crates merged with e | _ | _ | sessionId <;>
              simp [hread, Except.map, Except.toOption, Settlement.key]

/-- A response only takes away the transaction it ends. -/
theorem deadline_handleResponse (draws : GroupDraws) (key : RpcKey) :
    (core.handleResponse crates network peerId payload nowMs draws).2.deadline key =
      if core.settledKey crates network peerId payload nowMs = some key then none
      else core.deadline key := by
  have herase (key' : RpcKey) : ((core.settle key').outstandingRoutes.lookup key).map (·.deadlineMs) =
      if some key' = some key then none else core.deadline key := by
    rw [settle, Finmap.lookup_erase_ite]
    by_cases h : key = key'
    · rw [if_pos h, if_pos (congrArg some h.symm)]
      rfl
    · rw [if_neg h, if_neg fun heq => h (Option.some.inj heq).symm]
      rfl
  rw [← key_examineResponse]
  unfold handleResponse
  rcases core.examineResponse crates network peerId payload nowMs with
    ⟨e | _ | key' | _ | _ | key' | ⟨key', o, sessionId⟩, fragments⟩
  · rfl
  · rfl
  · exact herase key'
  · rfl
  · rfl
  · exact herase key'
  · exact herase key'

/-- A response only ends a transaction of the peer it is from. -/
theorem isOf_settledKey {key : RpcKey}
    (h : core.settledKey crates network peerId payload nowMs = some key) :
    key.isOf (network, peerId) := by
  unfold settledKey at h
  cases hdecode : crates.prost.decodeRpcPacket payload with
  | error e => simp [hdecode] at h
  | ok packet =>
    simp only [hdecode] at h
    cases henvelope : core.validateEnvelope packet network peerId false with
    | error e => simp [henvelope] at h
    | ok u =>
      simp only [henvelope] at h
      cases hdeadline : core.deadline ⟨network, peerId, packet.transactionId, false⟩ with
      | none => simp [hdeadline] at h
      | some deadlineMs =>
        simp only [hdeadline] at h
        split_ifs at h
        obtain rfl := Option.some.inj h
        exact RpcKey.isOf_iff.2 rfl

theorem deadline_cleanRpcState (key : RpcKey) :
    (core.cleanRpcState nowMs).deadline key = (core.deadline key).filter fun deadlineMs => nowMs ≤ deadlineMs := by
  rw [deadline, cleanRpcState, Finmap.lookup_retain, deadline]
  cases core.outstandingRoutes.lookup key with
  | none => rfl
  | some o =>
    simp only [Option.filter, Option.map_some]
    split_ifs <;> rfl

/-- The transaction id of an update depends on those that are in use for the peer. -/
theorem firstFree_congr {routes₁ routes₂ : FinMap RpcKey OutstandingRoute}
    (h : ∀ key : RpcKey, key.isOf (network, peerId) →
      (routes₁.lookup key).isNone = (routes₂.lookup key).isNone) (draws : List (Except String UInt64)) :
    firstFree routes₁ network peerId draws = firstFree routes₂ network peerId draws := by
  induction draws with
  | nil => rfl
  | cons draw draws ih =>
    cases draw with
    | error e => rfl
    | ok bits =>
      rw [firstFree, firstFree, h _ (RpcKey.isOf_iff.2 rfl), ih]

section Updates

variable (sessionId : UInt64) (forceFull : Bool) (draws : GroupDraws)
  (ids : Vector (Except String UInt64) 16)

/-- The transaction that a new update gets, if the relay can build it. -/
theorem key_of_sent {u : SentUpdate}
    (h : core.sent (.buildRouteUpdate network peerId sessionId forceFull nowMs draws ids) = some u) :
    ∃ transactionId, u.key = ⟨network, peerId, transactionId, false⟩ ∧
      (core.cleanRpcState nowMs).nextTransactionId network peerId ids = .ok transactionId := by
  unfold sent at h
  dsimp only at h
  split at h
  · next hid =>
    obtain rfl := Option.some.inj h
    exact ⟨_, rfl, hid⟩
  · cases h

theorem isOk_buildRouteUpdate :
    (core.buildRouteUpdate crates network peerId sessionId forceFull nowMs draws ids).1.isOk =
      (core.sent (.buildRouteUpdate network peerId sessionId forceFull nowMs draws ids)).isSome := by
  have hgroup : ((core.cleanRpcState nowMs).routes.ensureGroup network draws).openSession peerId
      sessionId = core.updateGroup network peerId sessionId draws := rfl
  have hmine : (core.cleanRpcState nowMs).routes.myPeerId = core.routes.myPeerId := rfl
  unfold buildRouteUpdate sent
  simp only [RouteGroupData.buildSyncRouteInfoRequest_eq, hgroup, hmine]
  cases (core.updateGroup network peerId sessionId draws).connInfoFor core.routes.myPeerId peerId
    nowMs with
  | error e => rfl
  | ok connInfo =>
    have hids : ∀ routes, ({ core.cleanRpcState nowMs with routes } : WasmRpcCore).nextTransactionId
        network peerId ids = (core.cleanRpcState nowMs).nextTransactionId network peerId ids :=
      fun _ => rfl
    simp only [Except.map, hids]
    cases (core.cleanRpcState nowMs).nextTransactionId network peerId ids <;> rfl

/-- An update that could be built waits for a response for 3 s. -/
theorem deadline_buildRouteUpdate (key : RpcKey) :
    (core.buildRouteUpdate crates network peerId sessionId forceFull nowMs draws ids).2.deadline key =
      (core.sent (.buildRouteUpdate network peerId sessionId forceFull nowMs draws ids)).elim
        ((core.cleanRpcState nowMs).deadline key) fun u =>
          if key = u.key then some (nowMs.saturatingAdd routeRpcTimeoutMs)
          else (core.cleanRpcState nowMs).deadline key := by
  rw [deadline, buildRouteUpdate_snd]
  dsimp only
  cases core.sent (.buildRouteUpdate network peerId sessionId forceFull nowMs draws ids) with
  | none => rfl
  | some u =>
    dsimp only [Option.elim_some]
    rw [Finmap.lookup_insert_ite]
    split_ifs <;> rfl

/-- Building an update for another peer. -/
theorem deadline_buildRouteUpdate_of_ne (nowMs : UInt64) (sessionId : UInt64) (forceFull : Bool)
    (draws : GroupDraws) (ids : Vector (Except String UInt64) 16) {key : RpcKey} (hkey : key.isOf q)
    (hq : (network, peerId) ≠ q) :
    (core.buildRouteUpdate crates network peerId sessionId forceFull nowMs draws ids).2.deadline key =
      (core.cleanRpcState nowMs).deadline key := by
  rw [deadline_buildRouteUpdate]
  cases hsent : core.sent (.buildRouteUpdate network peerId sessionId forceFull nowMs draws ids) with
  | none => rfl
  | some u =>
    obtain ⟨transactionId, hu, -⟩ := core.key_of_sent sessionId forceFull draws ids hsent
    refine if_neg fun heq => hq ?_
    rw [heq, hu] at hkey
    exact RpcKey.isOf_iff.1 hkey

/-- Building an update for the peer, if it can be built on both sides or on none. -/
theorem deadline_buildRouteUpdate_congr {core₁ core₂ : WasmRpcCore} {key : RpcKey}
    (h : ∀ key : RpcKey, key.isOf (network, peerId) →
      (core₁.cleanRpcState nowMs).deadline key = (core₂.cleanRpcState nowMs).deadline key)
    (hkey : key.isOf (network, peerId))
    (hbuilt : (core₁.buildRouteUpdate crates network peerId sessionId forceFull nowMs draws
        ids).1.isOk =
      (core₂.buildRouteUpdate crates network peerId sessionId forceFull nowMs draws ids).1.isOk) :
    (core₁.buildRouteUpdate crates network peerId sessionId forceFull nowMs draws ids).2.deadline key =
      (core₂.buildRouteUpdate crates network peerId sessionId forceFull nowMs draws
        ids).2.deadline key := by
  have hids : (core₁.cleanRpcState nowMs).nextTransactionId network peerId ids =
      (core₂.cleanRpcState nowMs).nextTransactionId network peerId ids := by
    refine firstFree_congr (fun key hkey => ?_) _
    have := congrArg Option.isNone (h key hkey)
    rwa [deadline, deadline, Option.isNone_map, Option.isNone_map] at this
  rw [isOk_buildRouteUpdate, isOk_buildRouteUpdate] at hbuilt
  rw [deadline_buildRouteUpdate, deadline_buildRouteUpdate, h key hkey]
  cases hsent₁ : core₁.sent (.buildRouteUpdate network peerId sessionId forceFull nowMs draws ids) with
  | none =>
    rw [hsent₁] at hbuilt
    rw [Option.isNone_iff_eq_none.1 (Option.isSome_eq_false_iff.1 hbuilt.symm)]
  | some u₁ =>
    rw [hsent₁] at hbuilt
    obtain ⟨u₂, hsent₂⟩ := Option.isSome_iff_exists.1 hbuilt.symm
    obtain ⟨id₁, hu₁, hid₁⟩ := core₁.key_of_sent sessionId forceFull draws ids hsent₁
    obtain ⟨id₂, hu₂, hid₂⟩ := core₂.key_of_sent sessionId forceFull draws ids hsent₂
    obtain rfl : id₁ = id₂ := Except.ok.inj (hid₁.symm.trans (hids.trans hid₂))
    rw [hsent₂, Option.elim_some, Option.elim_some, hu₁, hu₂]

end Updates

end WasmRpcCore

/-! ## Two runs -/

/-- Two cores that the peer `q` cannot tell apart from the given times on. -/
structure AlikeFor (q : String × UInt32) (sinceMs₁ sinceMs₂ : UInt64) (core₁ core₂ : WasmRpcCore) :
    Prop where
  fragments : ∀ laterMs, sinceMs₁ ≤ laterMs → sinceMs₂ ≤ laterMs →
    (core₁.fragments.cleanPending laterMs).SameFor q (core₂.fragments.cleanPending laterMs)
  deadlines : ∀ key : RpcKey, key.isOf q → core₁.deadline key = core₂.deadline key
  serverPeerId : core₁.serverPeerId = core₂.serverPeerId

/-- Whether an update for the peer `q` could be built. -/
def builtFor (q : String × UInt32) (e : CoreEvent) : Option Bool :=
  match e.input, e.output with
  | .buildRouteUpdate network peerId .., .update result =>
    if (network, peerId) = q then some result.isOk else none
  | _, _ => none

theorem le_getD {sinceMs : UInt64} {now : Option UInt64} (h : ∀ nowMs ∈ now, sinceMs ≤ nowMs) :
    sinceMs ≤ now.getD sinceMs := by
  cases now with
  | none => exact UInt64.le_refl _
  | some nowMs => exact h nowMs rfl

namespace AlikeFor

variable {crates : RpcCrates} {config : CoreConfig} {q : String × UInt32}
  {sinceMs₁ sinceMs₂ : UInt64} {core₁ core₂ : WasmRpcCore} {op : CoreOp}

theorem symm (h : AlikeFor q sinceMs₁ sinceMs₂ core₁ core₂) : AlikeFor q sinceMs₂ sinceMs₁ core₂ core₁ where
  fragments laterMs h₁ h₂ key hkey := (h.fragments laterMs h₂ h₁ key hkey).symm
  deadlines key hkey := (h.deadlines key hkey).symm
  serverPeerId := h.serverPeerId.symm

/-- A packet of another peer is not noticed. -/
theorem step_foreign (crates : RpcCrates) (h : AlikeFor q sinceMs₁ sinceMs₂ core₁ core₂) (hop : op.isForeign q)
    (hsince : ∀ nowMs ∈ op.nowMs, sinceMs₁ ≤ nowMs) :
    AlikeFor q (op.nowMs.getD sinceMs₁) sinceMs₂ (core₁.step crates op).1 core₂ := by
  obtain ⟨hfragments, hserver⟩ := core₁.fragments_step crates op
  have hmerge {network : String} {peerId : UInt32} {nowMs : UInt64}
      (hforeign : (network, peerId) ≠ q) (hnow : sinceMs₁ ≤ nowMs)
      (hcall : core₁.fragmentCall crates op = .none ∨
        ∃ packet, core₁.fragmentCall crates op = .merge network peerId packet nowMs)
      (laterMs : UInt64) (h₁ : nowMs ≤ laterMs) (h₂ : sinceMs₂ ≤ laterMs) :
      ((core₁.step crates op).1.fragments.cleanPending laterMs).SameFor q
        (core₂.fragments.cleanPending laterMs) := by
    have hbefore := h.fragments laterMs (UInt64.le_trans hnow h₁) h₂
    rw [hfragments]
    rcases hcall with hcall | ⟨packet, hcall⟩
    · rwa [hcall]
    · rw [hcall]
      exact fun key hkey =>
        (Fragments.SameFor.of_foreign hforeign h₁ key hkey).trans (hbefore key hkey)
  cases op with
  | handleRequest network peerId payload nowMs clockMs draws =>
    have hforeign : (network, peerId) ≠ q := by simpa [CoreOp.isForeign] using hop
    refine ⟨hmerge hforeign (hsince nowMs rfl) (core₁.fragmentCall_handleRequest crates _ _ _ _ _ _),
      fun key hkey => ?_, hserver.trans h.serverPeerId⟩
    have hout := (core₁.handleRequest_routes crates network peerId payload nowMs clockMs draws).1
    exact (WasmRpcCore.deadline_of_eq hout key).trans (h.deadlines key hkey)
  | handleResponse network peerId payload nowMs draws =>
    have hforeign : (network, peerId) ≠ q := by simpa [CoreOp.isForeign] using hop
    refine ⟨hmerge hforeign (hsince nowMs rfl) (core₁.fragmentCall_handleResponse crates _ _ _ _ _),
      fun key hkey => ?_, hserver.trans h.serverPeerId⟩
    refine (core₁.deadline_handleResponse crates draws key).trans ?_
    rw [if_neg, h.deadlines key hkey]
    intro hsettled
    have := core₁.isOf_settledKey crates hsettled
    exact hforeign ((RpcKey.isOf_iff.1 this).symm.trans (RpcKey.isOf_iff.1 hkey))
  | _ => cases hop

/-- A call that is no packet of another peer does the same to the fragments of the peer. -/
theorem fragmentCall_eq (crates : RpcCrates) (h : AlikeFor q sinceMs₁ sinceMs₂ core₁ core₂)
    (hop : op.isForeign q = false) :
    core₁.fragmentCall crates op = core₂.fragmentCall crates op := by
  cases op with
  | handleRequest network peerId payload nowMs clockMs draws =>
    simp only [WasmRpcCore.fragmentCall, WasmRpcCore.validateEnvelope, h.serverPeerId]
  | handleResponse network peerId payload nowMs draws =>
    have hq : (network, peerId) = q := by simpa [CoreOp.isForeign] using hop
    simp only [WasmRpcCore.fragmentCall, WasmRpcCore.validateEnvelope, h.serverPeerId]
    cases crates.prost.decodeRpcPacket payload with
    | error e => rfl
    | ok packet =>
      dsimp only
      have hdeadline := h.deadlines ⟨network, peerId, packet.transactionId, false⟩
        (RpcKey.isOf_iff.2 hq)
      unfold WasmRpcCore.deadline at hdeadline
      cases h₁ : core₁.outstandingRoutes.lookup ⟨network, peerId, packet.transactionId, false⟩ <;>
        cases h₂ : core₂.outstandingRoutes.lookup ⟨network, peerId, packet.transactionId, false⟩ <;>
          simp_all
  | _ => rfl

/-- What a call of the peer, or of the host, does to the fragments of the peer. -/
theorem fragments_step_own (h : AlikeFor q sinceMs₁ sinceMs₂ core₁ core₂)
    (hop : op.isForeign q = false)
    (hsince₁ : ∀ nowMs ∈ op.nowMs, sinceMs₁ ≤ nowMs) (hsince₂ : ∀ nowMs ∈ op.nowMs, sinceMs₂ ≤ nowMs)
    (hlimit₁ : ∀ o ∈ core₁.mergeOutcome crates op, ¬Fragments.LimitExceeded o)
    (hlimit₂ : ∀ o ∈ core₂.mergeOutcome crates op, ¬Fragments.LimitExceeded o) :
    core₁.mergeOutcome crates op = core₂.mergeOutcome crates op ∧
      ∀ laterMs, op.nowMs.getD sinceMs₁ ≤ laterMs → op.nowMs.getD sinceMs₂ ≤ laterMs →
        ((core₁.step crates op).1.fragments.cleanPending laterMs).SameFor q
          ((core₂.step crates op).1.fragments.cleanPending laterMs) := by
  have hcall := h.fragmentCall_eq crates hop
  have htimes := core₁.fragmentCall_times crates hop
  -- Nothing has changed for the peer before the call.
  have hbefore (laterMs : UInt64) (h₁ : op.nowMs.getD sinceMs₁ ≤ laterMs)
      (h₂ : op.nowMs.getD sinceMs₂ ≤ laterMs) :
      (core₁.fragments.cleanPending laterMs).SameFor q (core₂.fragments.cleanPending laterMs) :=
    h.fragments laterMs (UInt64.le_trans (le_getD hsince₁) h₁) (UInt64.le_trans (le_getD hsince₂) h₂)
  rw [(core₁.fragments_step crates op).1, (core₂.fragments_step crates op).1]
  unfold WasmRpcCore.mergeOutcome at hlimit₁ hlimit₂ ⊢
  rw [← hcall] at hlimit₂ ⊢
  cases hfragment : core₁.fragmentCall crates op with
  | none => exact ⟨rfl, hbefore⟩
  | removePeer network peerId =>
    exact ⟨rfl, fun laterMs h₁ h₂ => (hbefore laterMs h₁ h₂).removeAll _⟩
  | clean nowMs =>
    rw [hfragment] at htimes
    refine ⟨rfl, fun laterMs h₁ h₂ key hkey => ?_⟩
    have hle : nowMs ≤ laterMs := by rwa [htimes] at h₁
    exact (Fragments.lookup_cleanPending_of_le hle).trans
      ((hbefore laterMs h₁ h₂ key hkey).trans (Fragments.lookup_cleanPending_of_le hle).symm)
  | merge network peerId packet nowMs =>
    rw [hfragment] at htimes hlimit₁ hlimit₂
    obtain ⟨rfl, hnow⟩ := htimes
    have hsame := hbefore nowMs (by rw [hnow]; exact UInt64.le_refl _)
      (by rw [hnow]; exact UInt64.le_refl _)
    obtain ⟨houtcome, hafter⟩ := Fragments.mergePacket_same hsame (hlimit₁ _ rfl) (hlimit₂ _ rfl)
    refine ⟨congrArg some houtcome, fun laterMs h₁ _ => hafter laterMs ?_⟩
    rwa [hnow] at h₁

/-- A response of the peer ends the same transaction. -/
theorem settledKey_eq {network : String} {peerId : UInt32} {payload : Bytes} {nowMs : UInt64}
    (h : AlikeFor q sinceMs₁ sinceMs₂ core₁ core₂) (hq : (network, peerId) = q) (draws : GroupDraws)
    (houtcome : core₁.mergeOutcome crates (.handleResponse network peerId payload nowMs draws) =
      core₂.mergeOutcome crates (.handleResponse network peerId payload nowMs draws)) :
    core₁.settledKey crates network peerId payload nowMs =
      core₂.settledKey crates network peerId payload nowMs := by
  have henvelopes (packet : RpcPacket) : core₁.validateEnvelope packet network peerId false =
      core₂.validateEnvelope packet network peerId false := by
    rw [WasmRpcCore.validateEnvelope, h.serverPeerId, WasmRpcCore.validateEnvelope]
  unfold WasmRpcCore.settledKey
  cases hdecode : crates.prost.decodeRpcPacket payload with
  | error e => rfl
  | ok packet =>
    dsimp only
    rw [← henvelopes]
    cases henvelope : core₁.validateEnvelope packet network peerId false with
    | error e => rfl
    | ok u =>
      dsimp only
      have hdeadlines := h.deadlines ⟨network, peerId, packet.transactionId, false⟩
        (RpcKey.isOf_iff.2 hq)
      rw [← hdeadlines]
      cases hdeadline : core₁.deadline ⟨network, peerId, packet.transactionId, false⟩ with
      | none => rfl
      | some deadlineMs =>
        rw [core₁.mergeOutcome_handleResponse crates draws hdecode henvelope hdeadline,
          core₂.mergeOutcome_handleResponse crates draws hdecode
            ((henvelopes packet).symm.trans henvelope) (hdeadlines.symm.trans hdeadline)] at houtcome
        dsimp only
        split_ifs at houtcome with hlate
        · simp only [WasmRpcCore.settles, hlate, decide_true, Bool.true_or]
        · rw [Option.some.inj houtcome]

/-- What a call of the peer, or of the host, does to the updates for the peer that wait for
    a response. -/
theorem deadlines_step_own (h : AlikeFor q sinceMs₁ sinceMs₂ core₁ core₂)
    (hop : op.isForeign q = false)
    (houtcome : core₁.mergeOutcome crates op = core₂.mergeOutcome crates op)
    (hbuilt : builtFor q ((rpcCore crates config).event core₁ op) =
      builtFor q ((rpcCore crates config).event core₂ op)) (key : RpcKey) (hkey : key.isOf q) :
    (core₁.step crates op).1.deadline key = (core₂.step crates op).1.deadline key := by
  have hclean (nowMs : UInt64) (key : RpcKey) (hkey : key.isOf q) :
      (core₁.cleanRpcState nowMs).deadline key = (core₂.cleanRpcState nowMs).deadline key := by
    rw [WasmRpcCore.deadline_cleanRpcState, WasmRpcCore.deadline_cleanRpcState, h.deadlines key hkey]
  cases op with
  | addPeer network peerId publicKey nowMs draws =>
    have hout (core : WasmRpcCore) :
        (core.step crates (.addPeer network peerId publicKey nowMs draws)).1.outstandingRoutes =
          core.outstandingRoutes := by
      simp only [WasmRpcCore.step, WasmRpcCore.addPeer]
      cases core.routes.addPeer network peerId publicKey nowMs draws <;> rfl
    rw [WasmRpcCore.deadline_of_eq (hout core₁), WasmRpcCore.deadline_of_eq (hout core₂),
      h.deadlines key hkey]
  | removePeer network peerId draws =>
    have hremove (core : WasmRpcCore) :
        (core.removePeer crates network peerId draws).deadline key =
          (core.deadline key).filter fun _ => key.network ≠ network || key.peerId ≠ peerId := by
      rw [WasmRpcCore.deadline, WasmRpcCore.removePeer, Finmap.lookup_retain, WasmRpcCore.deadline]
      cases core.outstandingRoutes.lookup key with
      | none => rfl
      | some o =>
        simp only [Option.filter, Option.map_some]
        split_ifs <;> rfl
    exact (hremove core₁).trans ((congrArg _ (h.deadlines key hkey)).trans (hremove core₂).symm)
  | handleRequest network peerId payload nowMs clockMs draws =>
    have hout (core : WasmRpcCore) :=
      (core.handleRequest_routes crates network peerId payload nowMs clockMs draws).1
    exact (WasmRpcCore.deadline_of_eq (hout core₁) key).trans
      ((h.deadlines key hkey).trans (WasmRpcCore.deadline_of_eq (hout core₂) key).symm)
  | handleResponse network peerId payload nowMs draws =>
    have hq : (network, peerId) = q := by simpa [CoreOp.isForeign] using hop
    have hsettled := h.settledKey_eq hq draws houtcome
    refine (core₁.deadline_handleResponse crates draws key).trans ?_
    rw [hsettled, h.deadlines key hkey]
    exact (core₂.deadline_handleResponse crates draws key).symm
  | buildRouteUpdate network peerId sessionId forceFull nowMs draws ids =>
    by_cases hq : (network, peerId) = q
    · refine core₁.deadline_buildRouteUpdate_congr crates sessionId forceFull draws ids
        (fun key hkey => hclean nowMs key (hq ▸ hkey)) (hq.symm ▸ hkey) ?_
      simpa [builtFor, Machine.event, rpcCore, WasmRpcCore.step, hq] using hbuilt
    · have hother (core : WasmRpcCore) :=
        core.deadline_buildRouteUpdate_of_ne crates nowMs sessionId forceFull draws ids hkey hq
      exact (hother core₁).trans ((hclean nowMs key hkey).trans (hother core₂).symm)
  | cleanExpired nowMs clockMs => exact hclean nowMs key hkey

theorem step_own (h : AlikeFor q sinceMs₁ sinceMs₂ core₁ core₂) (hop : op.isForeign q = false)
    (hsince₁ : ∀ nowMs ∈ op.nowMs, sinceMs₁ ≤ nowMs) (hsince₂ : ∀ nowMs ∈ op.nowMs, sinceMs₂ ≤ nowMs)
    (hlimit₁ : ∀ o ∈ core₁.mergeOutcome crates op, ¬Fragments.LimitExceeded o)
    (hlimit₂ : ∀ o ∈ core₂.mergeOutcome crates op, ¬Fragments.LimitExceeded o)
    (hbuilt : builtFor q ((rpcCore crates config).event core₁ op) =
      builtFor q ((rpcCore crates config).event core₂ op)) :
    core₁.mergeOutcome crates op = core₂.mergeOutcome crates op ∧
      AlikeFor q (op.nowMs.getD sinceMs₁) (op.nowMs.getD sinceMs₂) (core₁.step crates op).1
        (core₂.step crates op).1 := by
  obtain ⟨houtcome, hfragments⟩ := h.fragments_step_own hop hsince₁ hsince₂ hlimit₁ hlimit₂
  refine ⟨houtcome, hfragments, h.deadlines_step_own hop houtcome hbuilt, ?_⟩
  rw [(core₁.fragments_step crates op).2, (core₂.fragments_step crates op).2, h.serverPeerId]

end AlikeFor

/-- The calls of a run that are no packets of other peers than `q`. -/
def ownEvents (q : String × UInt32) (tr : List CoreEvent) : List CoreEvent :=
  tr.filter fun e => !e.input.isForeign q

/-- What became of the packets of `q` in a run. -/
def outcomesFor (crates : RpcCrates) (q : String × UInt32) (tr : List CoreEvent) :
    List (Option (Except String MergedPacket)) :=
  (ownEvents q tr).map fun e => e.pre.mergeOutcome crates e.input

/-- The readings of the clock in a run that starts at `sinceMs` do not go back. -/
def ClockedFrom (sinceMs : UInt64) (ops : List CoreOp) : Prop :=
  (sinceMs :: ops.filterMap CoreOp.nowMs).Pairwise (· ≤ ·)

theorem ClockedFrom.cons {sinceMs : UInt64} {op : CoreOp} {ops : List CoreOp}
    (h : ClockedFrom sinceMs (op :: ops)) :
    (∀ nowMs ∈ op.nowMs, sinceMs ≤ nowMs) ∧ ClockedFrom (op.nowMs.getD sinceMs) ops := by
  unfold ClockedFrom at h ⊢
  cases hnow : op.nowMs with
  | none =>
    rw [List.filterMap_cons_none hnow] at h
    exact ⟨nofun, h⟩
  | some nowMs =>
    rw [List.filterMap_cons_some hnow, List.pairwise_cons] at h
    refine ⟨fun t ht => ?_, h.2⟩
    obtain rfl := Option.some.inj ht
    exact h.1 _ List.mem_cons_self

section Events

variable {q : String × UInt32} {e : CoreEvent} {tr tr' : List CoreEvent}

theorem ownEvents_append : ownEvents q (tr ++ tr') = ownEvents q tr ++ ownEvents q tr' :=
  List.filter_append ..

theorem ownEvents_cons_of_foreign (h : e.input.isForeign q) : ownEvents q (e :: tr) = ownEvents q tr :=
  List.filter_cons_of_neg (by simp [h])

theorem ownEvents_cons_of_own (h : e.input.isForeign q = false) :
    ownEvents q (e :: tr) = e :: ownEvents q tr :=
  List.filter_cons_of_pos (by simp [h])

end Events

section Runs

variable {crates : RpcCrates} {config : CoreConfig} {q : String × UInt32}
  {sinceMs₁ sinceMs₂ : UInt64} {core₁ core₂ : WasmRpcCore}

/-- Packets of other peers are not noticed, however many there are. -/
theorem AlikeFor.run_foreign (crates : RpcCrates) (config : CoreConfig) {before after : List CoreOp}
    (h : AlikeFor q sinceMs₁ sinceMs₂ core₁ core₂) (hforeign : ∀ op ∈ before, op.isForeign q)
    (hclock : ClockedFrom sinceMs₂ (before ++ after)) :
    ownEvents q ((rpcCore crates config).history core₂ before) = [] ∧
      ∃ sinceMs, AlikeFor q sinceMs₁ sinceMs core₁ ((rpcCore crates config).run core₂ before) ∧
        ClockedFrom sinceMs after := by
  induction before generalizing core₂ sinceMs₂ with
  | nil => exact ⟨rfl, sinceMs₂, h, hclock⟩
  | cons op before ih =>
    rw [List.forall_mem_cons] at hforeign
    obtain ⟨hsince, hclock⟩ := hclock.cons
    obtain ⟨hevents, hrun⟩ := ih (h.symm.step_foreign crates hforeign.1 hsince).symm hforeign.2 hclock
    refine ⟨?_, hrun⟩
    rw [Machine.history_cons, ownEvents_cons_of_foreign hforeign.1]
    exact hevents

/-- Two runs from cores that the peer cannot tell apart. -/
theorem AlikeFor.ownEvents_outcomes {ops₁ ops₂ : List CoreOp}
    (h : AlikeFor q sinceMs₁ sinceMs₂ core₁ core₂)
    (hsame : (ops₁.filter fun op => !op.isForeign q) = ops₂.filter fun op => !op.isForeign q)
    (hclock₁ : ClockedFrom sinceMs₁ ops₁) (hclock₂ : ClockedFrom sinceMs₂ ops₂)
    (hlimit₁ : ∀ e ∈ ownEvents q ((rpcCore crates config).history core₁ ops₁),
      ∀ o ∈ e.pre.mergeOutcome crates e.input, ¬Fragments.LimitExceeded o)
    (hlimit₂ : ∀ e ∈ ownEvents q ((rpcCore crates config).history core₂ ops₂),
      ∀ o ∈ e.pre.mergeOutcome crates e.input, ¬Fragments.LimitExceeded o)
    (hbuilt : (ownEvents q ((rpcCore crates config).history core₁ ops₁)).map (builtFor q) =
      (ownEvents q ((rpcCore crates config).history core₂ ops₂)).map (builtFor q)) :
    outcomesFor crates q ((rpcCore crates config).history core₁ ops₁) =
      outcomesFor crates q ((rpcCore crates config).history core₂ ops₂) := by
  -- Before each call of the first run that is no packet of another peer, the second run
  -- may have packets of other peers.
  induction ops₁ generalizing ops₂ core₁ core₂ sinceMs₁ sinceMs₂ with
  | nil =>
    have hforeign : ∀ op ∈ ops₂, op.isForeign q := by
      simpa [List.filter_eq_nil_iff] using hsame.symm
    rw [← List.append_nil ops₂] at hclock₂
    rw [outcomesFor, outcomesFor, (h.run_foreign crates config hforeign hclock₂).1]
    rfl
  | cons op ops₁ ih =>
    obtain ⟨hsince₁, hclock₁⟩ := hclock₁.cons
    by_cases hop : op.isForeign q
    · rw [List.filter_cons_of_neg (by simp [hop])] at hsame
      rw [Machine.history_cons, ownEvents_cons_of_foreign hop] at hlimit₁ hbuilt
      rw [outcomesFor, Machine.history_cons, ownEvents_cons_of_foreign hop]
      exact ih (h.step_foreign crates hop hsince₁) hsame hclock₁ hclock₂ hlimit₁ hlimit₂ hbuilt
    · rw [Bool.not_eq_true] at hop
      rw [List.filter_cons_of_pos (by simp [hop])] at hsame
      obtain ⟨before, after, rfl, hforeign, -, hafter⟩ := List.filter_eq_cons_iff.1 hsame.symm
      have hforeign : ∀ op ∈ before, op.isForeign q := by simpa using hforeign
      obtain ⟨hnone, sinceMs, h, hclock₂⟩ := h.run_foreign crates config hforeign hclock₂
      obtain ⟨hsince₂, hclock₂⟩ := hclock₂.cons
      rw [Machine.history_append, ownEvents_append, hnone, List.nil_append] at hlimit₂ hbuilt
      rw [outcomesFor, outcomesFor, Machine.history_append, ownEvents_append, hnone, List.nil_append]
      generalize (rpcCore crates config).run core₂ before = core₂ at *
      rw [Machine.history_cons, ownEvents_cons_of_own hop] at hlimit₁ hlimit₂ hbuilt
      rw [Machine.history_cons, ownEvents_cons_of_own hop] at hbuilt
      rw [Machine.history_cons, Machine.history_cons, ownEvents_cons_of_own hop,
        ownEvents_cons_of_own hop]
      rw [List.forall_mem_cons] at hlimit₁ hlimit₂
      obtain ⟨hhead, htail⟩ := List.cons.inj hbuilt
      obtain ⟨houtcome, h⟩ := h.step_own hop hsince₁ hsince₂ hlimit₁.1 hlimit₂.1 hhead
      rw [List.map_cons, List.map_cons]
      congr 1
      exact ih h hafter.symm hclock₁ hclock₂ hlimit₁.2 hlimit₂.2 htail

end Runs

/-- What becomes of the packets of a peer does not depend on the packets of other peers,
    unless a limit on all peers rejects one of them or keeps the relay from building an
    update for the peer. The clock does not go back. -/
theorem fragments_isolated (crates : RpcCrates) (config : CoreConfig) (q : String × UInt32)
    (ops₁ ops₂ : List CoreOp)
    (hsame : (ops₁.filter fun op => !op.isForeign q) = ops₂.filter fun op => !op.isForeign q)
    (hclock₁ : ClockedFrom 0 ops₁) (hclock₂ : ClockedFrom 0 ops₂)
    (hlimit₁ : ∀ outcome ∈ outcomesFor crates q
        ((rpcCore crates config).history (rpcCore crates config).init ops₁),
      ∀ o ∈ outcome, ¬Fragments.LimitExceeded o)
    (hlimit₂ : ∀ outcome ∈ outcomesFor crates q
        ((rpcCore crates config).history (rpcCore crates config).init ops₂),
      ∀ o ∈ outcome, ¬Fragments.LimitExceeded o)
    (hbuilt :
      (ownEvents q ((rpcCore crates config).history (rpcCore crates config).init ops₁)).map
          (builtFor q) =
        (ownEvents q ((rpcCore crates config).history (rpcCore crates config).init ops₂)).map
          (builtFor q)) :
    outcomesFor crates q ((rpcCore crates config).history (rpcCore crates config).init ops₁) =
      outcomesFor crates q ((rpcCore crates config).history (rpcCore crates config).init ops₂) := by
  have halike : AlikeFor q 0 0 (rpcCore crates config).init (rpcCore crates config).init :=
    ⟨fun _ _ _ _ _ => rfl, fun _ _ => rfl, rfl⟩
  refine halike.ownEvents_outcomes hsame hclock₁ hclock₂ (fun e he => ?_) (fun e he => ?_) hbuilt
  · exact hlimit₁ _ (List.mem_map_of_mem he)
  · exact hlimit₂ _ (List.mem_map_of_mem he)

/-! ## Runs to try -/

namespace FragmentSample

open RouteSample

/-- A piece of a request, all of them of one transaction id. -/
def piece (peer totalPieces pieceIdx : UInt32) (body : UInt8) : RpcPacket :=
  { packet peer 5 true [body] with totalPieces, pieceIdx }

def crates : RpcCrates where
  prost := Prost.listed
    [piece 1 32767 0 1, piece 1 2 0 1, piece 2 2 0 2, piece 2 2 1 3] [] [] [] []
  hash _ := 0

/-- A peer sends a piece. -/
def sends (piece : RpcPacket) (ms : UInt64) : CoreOp :=
  .handleRequest "net" piece.fromPeer (Encoding.rpcPacket piece) ms ms draws

/-- The second peer. -/
def secondPeer : String × UInt32 := ("net", 2)

/-- The outcomes of the second peer's packets in a run, by whether they are errors. -/
def accepted (ops : List CoreOp) : List (Option Bool) :=
  (outcomesFor crates secondPeer
    ((rpcCore crates config).history (rpcCore crates config).init ops)).map (·.map Except.isOk)

/-- The packets that are whole in a run. -/
def completed (ops : List CoreOp) : List Bool :=
  (outcomesFor crates secondPeer
    ((rpcCore crates config).history (rpcCore crates config).init ops)).filterMap fun outcome =>
      outcome.map fun o => o.toOption.any fun
        | .complete _ => true
        | .pending => false

/-- Both peers are there, and the second one sends two pieces of a packet. -/
def alone : List CoreOp :=
  [join 1 0, join 2 0, sends (piece 2 2 0 2) 1000, sends (piece 2 2 1 3) 2000]

/-- Between them, the first peer sends a piece. -/
def together (theirs : CoreOp) : List CoreOp :=
  [join 1 0, join 2 0, sends (piece 2 2 0 2) 1000, theirs, sends (piece 2 2 1 3) 2000]

/-- A packet of the first peer that takes all the pieces that are left, before those of
    the second one. -/
def crowded : List CoreOp :=
  [join 1 0, join 2 0, sends (piece 1 32767 0 1) 500, sends (piece 2 2 0 2) 1000,
    sends (piece 2 2 1 3) 2000]

theorem not_limitExceeded {ops : List CoreOp} (h : ∀ b ∈ accepted ops, b ≠ some false) :
    ∀ outcome ∈ outcomesFor crates secondPeer
        ((rpcCore crates config).history (rpcCore crates config).init ops),
      ∀ o ∈ outcome, ¬Fragments.LimitExceeded o := by
  rintro outcome hmem o rfl ⟨e, -, rfl⟩
  exact h _ (List.mem_map_of_mem hmem) rfl

end FragmentSample

open RouteSample FragmentSample in
/-- The first peer's piece makes no difference to the second one's packet. -/
theorem fragments_isolated_of_two :
    outcomesFor FragmentSample.crates secondPeer
        ((rpcCore FragmentSample.crates config).history (rpcCore FragmentSample.crates config).init
          (together (sends (piece 1 2 0 1) 1500))) =
      outcomesFor FragmentSample.crates secondPeer
        ((rpcCore FragmentSample.crates config).history (rpcCore FragmentSample.crates config).init
          alone) :=
  fragments_isolated FragmentSample.crates config secondPeer _ _ rfl
    (by unfold ClockedFrom; decide +kernel) (by unfold ClockedFrom; decide +kernel)
    (not_limitExceeded (by decide +kernel)) (not_limitExceeded (by decide +kernel))
    (by decide +kernel)

open RouteSample FragmentSample in
/-- The pieces that another peer has announced count against the limit, and a reading of
    the clock that is ahead makes another peer's packet remove a transaction too early. -/
theorem packets_of_others_matter :
    let theirs := sends (piece 1 2 0 1) 20000
    (crowded.filter fun op => !op.isForeign secondPeer) = alone.filter (fun op => !op.isForeign secondPeer) ∧
      ClockedFrom 0 crowded ∧ ClockedFrom 0 alone ∧
      accepted crowded = [none, none, some false, some false] ∧
      accepted alone = [none, none, some true, some true] ∧
      ((together theirs).filter fun op => !op.isForeign secondPeer) =
        alone.filter (fun op => !op.isForeign secondPeer) ∧
      completed (together theirs) = [false, false] ∧ completed alone = [false, true] := by
  intro theirs
  refine ⟨rfl, ?_, ?_, by decide +kernel, by decide +kernel, rfl, by decide +kernel,
    by decide +kernel⟩
  · unfold ClockedFrom
    decide +kernel
  · unfold ClockedFrom
    decide +kernel

end EasyTierEdge
