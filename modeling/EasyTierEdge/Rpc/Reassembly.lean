import EasyTierEdge.Lib.Machine
import EasyTierEdge.Rpc.Isolation

/-!
# Reassembly of one transaction

The table of fragments as a machine (`fragmentTable`), and what becomes of the pieces of one
transaction in it. Whatever their order, and whatever is done with other transactions in
between, the transaction holds the latest piece of each index (`Collects`), and so it is
complete when there is one for every index, and then it is the latest pieces together
(`fragments_reassembled`).

A transaction without a new piece for 10 s goes with the next cleanup. Readings of the clock
may go back, so that a cleanup in between can be ahead of both of two pieces that are not
10 s apart (`cleanup_ahead`).
-/

namespace EasyTierEdge

/-- A use of the table. -/
inductive FragmentOp
  /-- A packet of a peer, which may be a piece of one. -/
  | merge (network : String) (peerId : UInt32) (packet : RpcPacket) (nowMs : UInt64)
  /-- What has expired is removed. -/
  | clean (nowMs : UInt64)
  /-- A peer is removed, and its transactions with it. -/
  | removePeer (network : String) (peerId : UInt32)

/-- One use of the table, and what becomes of the packet. -/
def Fragments.step (f : Fragments) :
    FragmentOp → Fragments × Option (Except String MergedPacket)
  | .merge network peerId packet nowMs =>
    let (outcome, f) := f.mergePacket network peerId packet nowMs
    (f, some outcome)
  | .clean nowMs => (f.cleanPending nowMs, none)
  | .removePeer network peerId =>
    (f.removeAll fun key _ => key.network = network && key.peerId = peerId, none)

/-- The table as a machine. -/
def fragmentTable : Machine Fragments FragmentOp (Option (Except String MergedPacket)) where
  init := { pending := ∅, pendingBytes := 0, pendingPieces := 0 }
  step := Fragments.step

namespace FragmentOp

/-- The packet, and when it came, if it is one of the transaction. -/
def callOn (key : RpcKey) : FragmentOp → Option (RpcPacket × UInt64)
  | .merge network peerId packet nowMs =>
    if key = ⟨network, peerId, packet.transactionId, packet.isRequest⟩ then some (packet, nowMs)
    else none
  | .clean _ => none
  | .removePeer .. => none

/-- The reading of the clock. -/
def nowMs : FragmentOp → Option UInt64
  | .merge _ _ _ nowMs => some nowMs
  | .clean nowMs => some nowMs
  | .removePeer .. => none

/-- The peer of the transaction is not removed. -/
def Spares (key : RpcKey) : FragmentOp → Prop
  | .removePeer network peerId => ¬ (key.network = network ∧ key.peerId = peerId)
  | .merge .. => True
  | .clean _ => True

instance decidableSpares (key : RpcKey) : DecidablePred (Spares key)
  | .merge .. => isTrue trivial
  | .clean _ => isTrue trivial
  | .removePeer network peerId =>
    inferInstanceAs (Decidable ¬ (key.network = network ∧ key.peerId = peerId))

end FragmentOp

/-- The packets of the transaction, with the times they came. -/
def callsOn (key : RpcKey) (ops : List FragmentOp) : List (RpcPacket × UInt64) :=
  ops.filterMap (·.callOn key)

/-- The reading of the clock is less than 10 s past the latest packet of the transaction. -/
def Prompt (key : RpcKey) (before : List FragmentOp) (op : FragmentOp) : Prop :=
  ∀ t ∈ op.nowMs, ∀ last ∈ (callsOn key before).getLast?,
    t.saturatingSub last.2 < rpcFragmentTtlMs

instance decidablePrompt (key : RpcKey) (before : List FragmentOp) (op : FragmentOp) :
    Decidable (Prompt key before op) :=
  decidable_of_iff ((op.nowMs.all fun t => (callsOn key before).getLast?.all fun last =>
    decide (t.saturatingSub last.2 < rpcFragmentTtlMs)) = true) (by
      simp only [Option.all_eq_true, decide_eq_true_eq]
      rfl)

/-- The latest packet of an index. -/
def latestPiece (calls : List (RpcPacket × UInt64)) (i : ℕ) : Option RpcPacket :=
  (calls.reverse.find? fun call => call.1.pieceIdx.toNat = i).map Prod.fst

/-- There is a packet of every index. -/
def AllReceived (n : UInt32) (calls : List (RpcPacket × UInt64)) : Prop :=
  ∀ i < n.toNat, (latestPiece calls i).isSome

instance decidableAllReceived (n : UInt32) (calls : List (RpcPacket × UInt64)) :
    Decidable (AllReceived n calls) :=
  Nat.decidableBallLT _ _

/-- The latest packets together: the first one, with the bodies of all of them in the order of
    the indices. -/
def reassembled (n : UInt32) (calls : List (RpcPacket × UInt64)) : Option RpcPacket :=
  (latestPiece calls 0).map fun first =>
    { first with
      body := (List.range n.toNat).flatMap fun i => ((latestPiece calls i).map (·.body)).getD []
      totalPieces := 1
      pieceIdx := 0 }

theorem latestPiece_snoc (calls : List (RpcPacket × UInt64)) (packet : RpcPacket) (nowMs : UInt64)
    (i : ℕ) : latestPiece (calls ++ [(packet, nowMs)]) i =
      if packet.pieceIdx.toNat = i then some packet else latestPiece calls i := by
  rw [latestPiece, List.reverse_append, List.reverse_singleton, List.singleton_append,
    List.find?_cons]
  by_cases hi : packet.pieceIdx.toNat = i
  · rw [if_pos hi]
    simp [hi]
  · rw [if_neg hi]
    simp [hi, latestPiece]

theorem AllReceived.append {n : UInt32} {calls : List (RpcPacket × UInt64)}
    (h : AllReceived n calls) (more : List (RpcPacket × UInt64)) :
    AllReceived n (calls ++ more) := by
  induction more using List.reverseRecOn with
  | nil => rwa [List.append_nil]
  | append_singleton more call ih =>
    intro i hi
    rw [← List.append_assoc, latestPiece_snoc]
    split_ifs
    · rfl
    · exact ih i hi

theorem callsOn_snoc (key : RpcKey) (ops : List FragmentOp) (op : FragmentOp) :
    callsOn key (ops ++ [op]) = callsOn key ops ++ (op.callOn key).toList := by
  rw [callsOn, List.filterMap_append]
  cases h : op.callOn key <;> simp [callsOn, h]

/-! ## What the transaction holds -/

/-- The transaction holds the latest packets. -/
structure Collects (n : UInt32) (calls : List (RpcPacket × UInt64)) (p : PendingRpc) : Prop where
  totalPieces : p.totalPieces = n
  pieces : p.pieces = (List.range n.toNat).map fun i => (latestPiece calls i).map (·.body)
  first : p.first = latestPiece calls 0

namespace Collects

variable {n : UInt32} {calls : List (RpcPacket × UInt64)} {p : PendingRpc} {packet : RpcPacket}
  {nowMs : UInt64}

/-- A transaction without pieces. -/
theorem empty (n : UInt32) (nowMs : UInt64) :
    Collects n []
      { totalPieces := n, pieces := List.replicate n.toNat none, first := none,
        receivedPieces := 0, bodyBytes := 0, updatedAtMs := nowMs } := by
  refine ⟨rfl, ?_, rfl⟩
  change _ = (List.range n.toNat).map fun _ => none
  rw [List.map_const', List.length_range]

/-- One more packet. -/
theorem put (h : Collects n calls p) (packet : RpcPacket) (nowMs : UInt64) :
    Collects n (calls ++ [(packet, nowMs)]) (p.put packet nowMs) := by
  refine ⟨h.totalPieces, ?_, ?_⟩
  · rw [PendingRpc.put, h.pieces]
    refine List.ext_getElem? fun i => ?_
    rw [List.getElem?_set, List.getElem?_map, List.getElem?_map, List.length_map, List.length_range]
    by_cases hlt : i < n.toNat
    · rw [List.getElem?_range hlt, Option.map_some, Option.map_some, latestPiece_snoc]
      by_cases hi : packet.pieceIdx.toNat = i
      · rw [if_pos hi, if_pos (hi ▸ hlt), if_pos hi]
        rfl
      · rw [if_neg hi, if_neg hi]
    · rw [List.getElem?_eq_none (by simpa using hlt)]
      split_ifs with hi hidx
      · exact absurd (hi ▸ hidx) hlt
      · rfl
      · rfl
  · rw [latestPiece_snoc, PendingRpc.put, h.first]

theorem isSome_iff (h : Collects n calls p) :
    AllReceived n calls ↔ ∀ piece ∈ p.pieces, piece.isSome = true := by
  rw [h.pieces, List.forall_mem_map]
  simp only [List.mem_range, Option.isSome_map]
  rfl

/-- The counter tells when the transaction is complete. -/
theorem receivedPieces_iff (h : Collects n calls p) (hp : p.Accounted) :
    p.receivedPieces = n ↔ AllReceived n calls := by
  rw [h.isSome_iff, ← List.countP_eq_length, hp.totalPieces, h.totalPieces,
    ← UInt32.toNat_inj, hp.receivedPieces]
  rfl

/-- What is assembled. -/
theorem assemble_eq (h : Collects n calls p) {merged : RpcPacket}
    (hmerged : p.assemble = .ok merged) : some merged = reassembled n calls := by
  unfold PendingRpc.assemble at hmerged
  rw [h.first] at hmerged
  rw [reassembled]
  cases hfirst : latestPiece calls 0 with
  | none =>
    rw [hfirst] at hmerged
    cases hmerged
  | some first =>
    rw [hfirst] at hmerged
    dsimp only at hmerged
    split_ifs at hmerged
    obtain rfl := Except.ok.inj hmerged
    rw [h.pieces, List.flatMap_map, Option.map_some]

end Collects

/-! ## The table -/

namespace Fragments

variable {f : Fragments} {key : RpcKey} {packet : RpcPacket} {nowMs : UInt64}

/-- What the table holds of the transaction. -/
inductive Holds (f : Fragments) (key : RpcKey) (n : UInt32) : List (RpcPacket × UInt64) → Prop
  | nothing (hlookup : f.pending.lookup key = none) : Holds f key n []
  | pieces {calls : List (RpcPacket × UInt64)} {packet : RpcPacket} {nowMs : UInt64}
      {p : PendingRpc} (hlookup : f.pending.lookup key = some p)
      (hcollects : Collects n (calls ++ [(packet, nowMs)]) p) (htime : p.updatedAtMs = nowMs) :
      Holds f key n (calls ++ [(packet, nowMs)])

theorem Holds.congr {f' : Fragments} {n : UInt32} {calls : List (RpcPacket × UInt64)}
    (h : f.Holds key n calls) (hlookup : f'.pending.lookup key = f.pending.lookup key) :
    f'.Holds key n calls := by
  cases h with
  | nothing hnone => exact .nothing (hlookup.trans hnone)
  | pieces hsome hcollects htime => exact .pieces (hlookup.trans hsome) hcollects htime

/-- A reading that is less than 10 s past the latest piece of the transaction. -/
theorem Holds.cleanPending {n : UInt32} {calls : List (RpcPacket × UInt64)}
    (h : f.Holds key n calls)
    (hprompt : ∀ last ∈ calls.getLast?, nowMs.saturatingSub last.2 < rpcFragmentTtlMs) :
    (f.cleanPending nowMs).Holds key n calls := by
  refine h.congr ?_
  rw [lookup_cleanPending]
  cases h with
  | nothing hnone =>
    rw [hnone]
    rfl
  | pieces hsome hcollects htime =>
    have hlate := hprompt _ List.getLast?_concat
    rw [hsome, Option.filter_some, htime, if_pos]
    simpa using hlate

/-- A use of the table for other transactions. -/
theorem Holds.step_other {n : UInt32} {calls : List (RpcPacket × UInt64)} {op : FragmentOp}
    (h : f.Holds key n calls) (hcall : op.callOn key = none) (hspares : op.Spares key)
    (hprompt : ∀ t ∈ op.nowMs, ∀ last ∈ calls.getLast?,
      t.saturatingSub last.2 < rpcFragmentTtlMs) : (f.step op).1.Holds key n calls := by
  cases op with
  | merge network peerId packet nowMs =>
    have hne : key ≠ ⟨network, peerId, packet.transactionId, packet.isRequest⟩ := by
      unfold FragmentOp.callOn at hcall
      dsimp only at hcall
      split_ifs at hcall with hkey
      exact hkey
    change (f.mergePacket network peerId packet nowMs).2.Holds key n calls
    rcases mergePacket_cases packet with ⟨outcome, heq⟩ | heq
    · rw [heq]
      exact h
    · rw [heq]
      exact (h.cleanPending (hprompt nowMs rfl)).congr (lookup_mergePiece_of_ne hne)
  | clean nowMs => exact h.cleanPending (hprompt nowMs rfl)
  | removePeer network peerId =>
    refine h.congr ?_
    change (f.pending.retain _).lookup key = f.pending.lookup key
    rw [Finmap.lookup_retain]
    have hkept : (!(decide (key.network = network) && decide (key.peerId = peerId))) = true := by
      rw [Bool.not_eq_true', ← Bool.not_eq_true, Bool.and_eq_true, decide_eq_true_eq,
        decide_eq_true_eq]
      exact hspares
    cases f.pending.lookup key with
    | none => rfl
    | some p => rw [Option.filter_some, if_pos hkept]

/-- A packet with several pieces that is not refused is a piece of its transaction. -/
theorem mergePacket_piece {network : String} {peerId : UInt32} (hn : 2 ≤ packet.totalPieces)
    (hok : ∀ e, (f.mergePacket network peerId packet nowMs).1 ≠ .error e) :
    packet.pieceIdx < packet.totalPieces ∧ ¬(packet.pieceIdx = 0 ∧ packet.descriptor.isNone) ∧
      f.mergePacket network peerId packet nowMs =
        (f.cleanPending nowMs).mergePiece
          ⟨network, peerId, packet.transactionId, packet.isRequest⟩ packet nowMs := by
  have hmany : ¬ packet.totalPieces ≤ 1 := UInt32.not_le.2 (lt_of_lt_of_le (by decide) hn)
  unfold mergePacket at hok ⊢
  dsimp only at hok ⊢
  split_ifs at hok ⊢ with hwhole hinvalid hone hdescriptor hchanged
  · exact absurd (hwhole.1 ▸ by decide) hmany
  · exact absurd rfl (hok _)
  · exact absurd (hone ▸ le_rfl) hmany
  · exact absurd rfl (hok _)
  · exact absurd rfl (hok _)
  · exact ⟨UInt32.not_le.1 fun hle => hinvalid (.inr (.inr hle)), hdescriptor,
      (if_neg hchanged).symm⟩

/-- The transaction is the one that was there, or has no pieces. -/
theorem Holds.openPending {f' : Fragments} {n : UInt32} {calls : List (RpcPacket × UInt64)}
    (h : f.Holds key n calls) (hopen : f.openPending key n nowMs = .ok f') :
    ∃ p, f'.pending.lookup key = some p ∧ Collects n calls p := by
  unfold Fragments.openPending at hopen
  cases h with
  | nothing hnone =>
    rw [if_neg (by rw [hnone]; decide)] at hopen
    split_ifs at hopen
    obtain rfl := Except.ok.inj hopen
    exact ⟨_, Finmap.lookup_insert _, .empty n nowMs⟩
  | pieces hsome hcollects htime =>
    rw [if_pos (by rw [hsome]; rfl)] at hopen
    obtain rfl := Except.ok.inj hopen
    exact ⟨_, hsome, hcollects⟩

/-- A piece that is not refused is kept, and the transaction goes once it is complete. -/
theorem putPiece_eq {p : PendingRpc} (hp : f.pending.lookup key = some p)
    (hok : ∀ e, (f.putPiece key packet nowMs).1 ≠ .error e) :
    ∃ f' previous, p.pieces[packet.pieceIdx.toNat]? = some previous ∧
      f'.pending.lookup key = some (p.put packet nowMs) ∧
      f.putPiece key packet nowMs =
        if (p.put packet nowMs).receivedPieces ≠ packet.totalPieces then (.ok .pending, f')
        else ((p.put packet nowMs).assemble.map .complete, f'.removePending key) := by
  unfold putPiece at hok ⊢
  rw [hp] at hok ⊢
  dsimp only at hok ⊢
  cases hprevious : p.pieces[packet.pieceIdx.toNat]? with
  | none =>
    rw [hprevious] at hok
    exact absurd rfl (hok _)
  | some previous =>
    rw [hprevious] at hok
    dsimp only at hok ⊢
    by_cases hlimit : maxPendingBytes <
        f.pendingBytes - (previous.getD []).length + packet.body.length
    · rw [if_pos hlimit] at hok
      exact absurd rfl (hok _)
    · rw [if_neg hlimit]
      refine ⟨f.withPiece key p previous packet nowMs, previous, rfl, Finmap.lookup_insert _, ?_⟩
      split_ifs
      · rfl
      · rw [Finmap.lookup_insert]
        rfl

/-- What becomes of a piece that is not refused. -/
theorem Holds.mergePacket {network : String} {peerId : UInt32} {n : UInt32}
    {calls : List (RpcPacket × UInt64)} (hf : f.Accounted) (h : f.Holds key n calls)
    (hkey : ⟨network, peerId, packet.transactionId, packet.isRequest⟩ = key)
    (htotal : packet.totalPieces = n) (hn : 2 ≤ n)
    (hprompt : ∀ last ∈ calls.getLast?, nowMs.saturatingSub last.2 < rpcFragmentTtlMs)
    (hok : ∀ e, (f.mergePacket network peerId packet nowMs).1 ≠ .error e) :
    if AllReceived n (calls ++ [(packet, nowMs)]) then
      (∃ merged, (f.mergePacket network peerId packet nowMs).1 = .ok (.complete merged) ∧
        some merged = reassembled n (calls ++ [(packet, nowMs)])) ∧
      (f.mergePacket network peerId packet nowMs).2.pending.lookup key = none
    else
      (f.mergePacket network peerId packet nowMs).1 = .ok .pending ∧
      (f.mergePacket network peerId packet nowMs).2.Holds key n (calls ++ [(packet, nowMs)]) := by
  subst htotal
  obtain ⟨hidx, hdescriptor, heq⟩ := mergePacket_piece hn hok
  have hclean : (f.cleanPending nowMs).Accounted := hf.removeAll _
  have hheld := h.cleanPending hprompt
  rw [heq, hkey] at hok ⊢
  unfold mergePiece at hok ⊢
  by_cases hchanged : (((f.cleanPending nowMs).pending.lookup key).any
      (·.totalPieces ≠ packet.totalPieces)) = true
  · rw [if_pos hchanged] at hok
    exact absurd rfl (hok _)
  rw [if_neg hchanged] at hok ⊢
  cases hopen : (f.cleanPending nowMs).openPending key packet.totalPieces nowMs with
  | error e =>
    rw [hopen] at hok
    exact absurd rfl (hok _)
  | ok opened =>
    rw [hopen] at hok
    dsimp only at hok ⊢
    obtain ⟨p, hp, hcollects⟩ := hheld.openPending hopen
    have hpos : packet.totalPieces ≠ 0 := (lt_of_le_of_lt UInt32.zero_le hidx).ne'
    have hopened := (hclean.openPending hpos (totalPieces_eq hchanged) hopen).1
    obtain ⟨f', previous, hprevious, hstored, hput⟩ := putPiece_eq hp hok
    have hput' := hcollects.put packet nowMs
    have haccounted := ((hopened.entries key p hp).put nowMs hprevious
      (descriptor_isSome hdescriptor)).1
    rw [hput] at hok ⊢
    by_cases hall : (p.put packet nowMs).receivedPieces = packet.totalPieces
    · rw [if_pos ((hput'.receivedPieces_iff haccounted).1 hall)]
      rw [if_neg (not_not.2 hall)] at hok ⊢
      refine ⟨?_, ?_⟩
      · obtain ⟨merged, hmerged⟩ := exists_assemble haccounted
          (hput'.totalPieces.trans_ne hpos) (hall.trans hput'.totalPieces.symm)
        exact ⟨merged, by rw [hmerged]; rfl, hput'.assemble_eq hmerged⟩
      · rw [removePending_eq, Finmap.lookup_erase]
    · rw [if_neg fun hreceived => hall ((hput'.receivedPieces_iff haccounted).2 hreceived)]
      rw [if_pos hall]
      exact ⟨rfl, .pieces hstored hput' rfl⟩

end Fragments

/-! ## Runs -/

theorem Fragments.accounted_of_reachable {f : Fragments} (h : fragmentTable.Reachable f) :
    f.Accounted := by
  refine h.invariant Fragments.accounted_new fun f op hf => ?_
  cases op with
  | merge network peerId packet nowMs => exact (hf.mergePacket network peerId packet nowMs).1
  | clean nowMs => exact hf.removeAll _
  | removePeer network peerId => exact hf.removeAll _

/-- The pieces of a transaction are given to the table from the state `f` on, with whatever else
    is done in between. -/
structure Delivered (key : RpcKey) (n : UInt32) (f : Fragments) (ops : List FragmentOp) : Prop where
  /-- There was nothing of the transaction. -/
  absent : f.pending.lookup key = none
  /-- It has `n` pieces. -/
  pieces : ∀ call ∈ callsOn key ops, call.1.totalPieces = n
  /-- Its peer is not removed. -/
  spared : ∀ op ∈ ops, op.Spares key
  /-- None of its pieces is refused. -/
  accepted : ∀ event ∈ fragmentTable.history f ops, (event.input.callOn key).isSome →
    ∀ e, event.output ≠ some (.error e)
  /-- No reading of the clock is 10 s past its latest piece. -/
  prompt : Along (Prompt key) ops

theorem Delivered.snoc {key : RpcKey} {n : UInt32} {f : Fragments} {ops : List FragmentOp}
    {op : FragmentOp} (h : Delivered key n f (ops ++ [op])) : Delivered key n f ops := by
  refine ⟨h.absent, fun call hcall => h.pieces call ?_, fun op' hop => h.spared op' ?_,
    fun event hevent => h.accepted event ?_, h.prompt.append_left⟩
  · rw [callsOn_snoc]
    exact List.mem_append_left _ hcall
  · exact List.mem_append_left _ hop
  · rw [Machine.history_snoc]
    exact List.mem_append_left _ hevent

/-- A packet of the transaction. -/
theorem FragmentOp.eq_of_callOn {key : RpcKey} {op : FragmentOp} {packet : RpcPacket}
    {nowMs : UInt64} (h : op.callOn key = some (packet, nowMs)) :
    op = .merge key.network key.peerId packet nowMs ∧
      key = ⟨key.network, key.peerId, packet.transactionId, packet.isRequest⟩ := by
  cases op with
  | merge network peerId packet' nowMs' =>
    unfold FragmentOp.callOn at h
    dsimp only at h
    split_ifs at h with hkey
    cases h
    rw [hkey]
    exact ⟨rfl, rfl⟩
  | clean nowMs => cases h
  | removePeer network peerId => cases h

/-- A packet of the transaction. -/
theorem Delivered.merge {key : RpcKey} {n : UInt32} {f : Fragments} {ops : List FragmentOp}
    {op : FragmentOp} {packet : RpcPacket} {nowMs : UInt64} (h : Delivered key n f (ops ++ [op]))
    (hcall : op.callOn key = some (packet, nowMs)) (hf : fragmentTable.Reachable f) (hn : 2 ≤ n)
    (hheld : (fragmentTable.run f ops).Holds key n (callsOn key ops)) :
    if AllReceived n (callsOn key (ops ++ [op])) then
      (∃ whole, ((fragmentTable.run f ops).step op).2 = some (.ok (.complete whole)) ∧
        some whole = reassembled n (callsOn key (ops ++ [op]))) ∧
        (fragmentTable.run f (ops ++ [op])).pending.lookup key = none
    else ((fragmentTable.run f ops).step op).2 = some (.ok .pending) ∧
      (fragmentTable.run f (ops ++ [op])).Holds key n (callsOn key (ops ++ [op])) := by
  have htotal : packet.totalPieces = n := by
    refine h.pieces (packet, nowMs) ?_
    rw [callsOn_snoc, hcall]
    exact List.mem_append_right _ (List.mem_singleton_self _)
  have haccepted : ∀ e, ((fragmentTable.run f ops).step op).2 ≠ some (.error e) := by
    refine h.accepted (fragmentTable.event (fragmentTable.run f ops) op) ?_ ?_
    · rw [Machine.history_snoc]
      exact List.mem_append_right _ (List.mem_singleton_self _)
    · exact Option.isSome_of_eq_some hcall
  have hprompt := (Along.snoc_iff.1 h.prompt).2
  obtain ⟨rfl, hkey⟩ := FragmentOp.eq_of_callOn hcall
  have hmerge := hheld.mergePacket (Fragments.accounted_of_reachable (hf.run ops)) hkey.symm htotal
    hn (hprompt nowMs rfl) fun e he => haccepted e (congrArg some he)
  rw [callsOn_snoc, hcall, Option.toList_some, Machine.run_snoc]
  split_ifs at hmerge ⊢
  · obtain ⟨⟨whole, hwhole, heq⟩, hnone⟩ := hmerge
    exact ⟨⟨whole, congrArg some hwhole, heq⟩, hnone⟩
  · exact ⟨congrArg some hmerge.1, hmerge.2⟩

/-- Until there is a piece of every index, the pieces wait. -/
theorem Delivered.holds {key : RpcKey} {n : UInt32} {f : Fragments} {ops : List FragmentOp}
    (h : Delivered key n f ops) (hf : fragmentTable.Reachable f) (hn : 2 ≤ n)
    (hopen : ¬ AllReceived n (callsOn key ops)) :
    (fragmentTable.run f ops).Holds key n (callsOn key ops) := by
  induction ops using List.reverseRecOn with
  | nil => exact .nothing h.absent
  | append_singleton ops op ih =>
    have hbefore : ¬ AllReceived n (callsOn key ops) := by
      rw [callsOn_snoc] at hopen
      exact fun hall => hopen (hall.append _)
    have hheld := ih h.snoc hbefore
    cases hcall : op.callOn key with
    | none =>
      rw [callsOn_snoc, hcall, Option.toList_none, List.append_nil, Machine.run_snoc]
      exact hheld.step_other hcall (h.spared op (by simp)) (Along.snoc_iff.1 h.prompt).2
    | some call =>
      have hmerge := h.merge hcall hf hn hheld
      rw [if_neg hopen] at hmerge
      exact hmerge.2

/-- The pieces of a transaction wait until there is one of every index, and then they are put
    together from the latest ones, and nothing is left of the transaction: the counters are those
    of the others. -/
theorem fragments_reassembled {key : RpcKey} {n : UInt32} {f : Fragments} {ops : List FragmentOp}
    {op : FragmentOp} (hf : fragmentTable.Reachable f) (hn : 2 ≤ n)
    (h : Delivered key n f (ops ++ [op])) (hopen : ¬ AllReceived n (callsOn key ops))
    (hcall : (op.callOn key).isSome) :
    if AllReceived n (callsOn key (ops ++ [op])) then
      (∃ whole, ((fragmentTable.run f ops).step op).2 = some (.ok (.complete whole)) ∧
        some whole = reassembled n (callsOn key (ops ++ [op]))) ∧
      (fragmentTable.run f (ops ++ [op])).pending.lookup key = none ∧
      (fragmentTable.run f (ops ++ [op])).pendingBytes =
        ((fragmentTable.run f (ops ++ [op])).pending.erase key).total (fun _ p => p.storedBytes) ∧
      (fragmentTable.run f (ops ++ [op])).pendingPieces =
        ((fragmentTable.run f (ops ++ [op])).pending.erase key).total
          (fun _ p => p.pieces.length)
    else ((fragmentTable.run f ops).step op).2 = some (.ok .pending) := by
  obtain ⟨⟨packet, nowMs⟩, hcall⟩ := Option.isSome_iff_exists.1 hcall
  have hmerge := h.merge hcall hf hn (h.snoc.holds hf hn hopen)
  have haccounted := Fragments.accounted_of_reachable (hf.run (ops ++ [op]))
  split_ifs at hmerge ⊢
  · obtain ⟨hwhole, hnone⟩ := hmerge
    refine ⟨hwhole, hnone, ?_, ?_⟩
    · rw [haccounted.pendingBytes, Finmap.erase_eq_self (Finmap.lookup_eq_none.1 hnone)]
      exact Finmap.total_congr fun key p hp => (haccounted.entries key p hp).bodyBytes
    · rw [haccounted.pendingPieces, Finmap.erase_eq_self (Finmap.lookup_eq_none.1 hnone)]
      exact Finmap.total_congr fun key p hp => (haccounted.entries key p hp).totalPieces.symm
  · exact hmerge.1

namespace ReassemblySample

open FragmentSample

/-- The transaction. -/
def key : RpcKey := ⟨"net", 1, 5, true⟩

/-- The peer sends a piece. -/
def sends (packet : RpcPacket) (ms : UInt64) : FragmentOp := .merge "net" 1 packet ms

/-- A piece of another transaction. -/
def other : RpcPacket := { piece 1 2 0 1 with transactionId := 6 }

/-- The last piece comes first, and the first one twice; another transaction is begun. -/
def before : List FragmentOp :=
  [sends (piece 1 3 2 30) 0, sends (piece 1 3 0 10) 9000, sends other 9500,
    sends (piece 1 3 0 11) 18000, .clean 19500]

/-- The piece that was missing. -/
def last : FragmentOp := sends (piece 1 3 1 20) 20000

/-- Whether what becomes of a packet is that it waits. -/
def waits (output : Option (Except String MergedPacket)) : Bool :=
  output.any fun outcome => outcome.toOption.any fun
    | .pending => true
    | .complete _ => false

theorem eq_of_waits {output : Option (Except String MergedPacket)} (h : waits output = true) :
    output = some (.ok .pending) := by
  rcases output with - | e | - | packet
  · cases h
  · cases h
  · rfl
  · cases h

/-- None of the packets of the transaction is refused. -/
def Accepted (ops : List FragmentOp) : Prop :=
  ∀ event ∈ fragmentTable.history fragmentTable.init ops,
    (event.input.callOn key).isSome → event.output.map Except.isOk = some true

instance decidableAccepted (ops : List FragmentOp) : Decidable (Accepted ops) :=
  List.decidableBAll _ _

theorem Accepted.ne_error {ops : List FragmentOp} (h : Accepted ops) :
    ∀ event ∈ fragmentTable.history fragmentTable.init ops, (event.input.callOn key).isSome →
      ∀ e, event.output ≠ some (.error e) := by
  intro event hevent hcall e he
  have hok := h event hevent hcall
  rw [he] at hok
  cases hok

/-- The pieces are put together with the second version of the first one. -/
theorem reassembled_of_three :
    (∃ whole, ((fragmentTable.run fragmentTable.init before).step last).2 =
        some (.ok (.complete whole)) ∧
      some whole = reassembled 3 (callsOn key (before ++ [last]))) ∧
    (reassembled 3 (callsOn key (before ++ [last]))).map (·.body) = some [11, 20, 30] := by
  have haccepted : Accepted (before ++ [last]) := by decide +kernel
  have hdelivered : Delivered key 3 fragmentTable.init (before ++ [last]) :=
    ⟨rfl, by decide +kernel, by decide +kernel, haccepted.ne_error, by decide +kernel⟩
  have hwhole := fragments_reassembled fragmentTable.reachable_init (by decide) hdelivered
    (by decide +kernel) (by decide +kernel)
  rw [if_pos (by decide +kernel)] at hwhole
  exact ⟨hwhole.1, by decide +kernel⟩

/-- Two pieces that are not 10 s apart, and a cleanup in between whose clock was ahead: both have
    been received, and the transaction is not complete. -/
theorem cleanup_ahead :
    let before := [sends (piece 1 2 0 10) 0, .clean 20000]
    let last := sends (piece 1 2 1 20) 5
    fragmentTable.init.pending.lookup key = none ∧
      (callsOn key (before ++ [last])).map (fun call => (call.1.totalPieces, call.2)) =
        [(2, 0), (2, 5)] ∧
      (∀ op ∈ before ++ [last], op.Spares key) ∧ Accepted (before ++ [last]) ∧
      AllReceived 2 (callsOn key (before ++ [last])) ∧
      ((fragmentTable.run fragmentTable.init before).step last).2 = some (.ok .pending) :=
  ⟨rfl, by decide +kernel, by decide +kernel, by decide +kernel, by decide +kernel,
    eq_of_waits (by decide +kernel)⟩

end ReassemblySample

end EasyTierEdge
