import EasyTierEdge.Lib.Except
import EasyTierEdge.Rpc.Core

/-!
# Accounting of the fragments

What the core keeps of fragmented packets is accounted for in every state it reaches
(`Fragments.Accounted`): the counters of a transaction are those of its pieces, the
counters of the core are the sums over its transactions, and the limits are met.

* `PendingRpc.Accounted.put`: a new piece, or one that replaces another, is counted;
* `Fragments.Balanced.removePending`: a transaction takes what it added with it;
* `foldl_removePending`: the loops that remove transactions may go through them in any
  order;
* `fragment_accounting`: no subtraction of the counters goes below `0`, and the errors
  for an inconsistent table never occur.
-/

namespace EasyTierEdge

/-- Replacing an element of a list replaces its weight in the sum. -/
theorem sum_map_set {α : Type*} (w : α → ℕ) {l : List α} {i : ℕ} {a : α} (h : l[i]? = some a)
    (b : α) : ((l.set i b).map w).sum + w a = (l.map w).sum + w b := by
  induction l generalizing i with
  | nil => simp at h
  | cons c l ih =>
    cases i with
    | zero =>
      obtain rfl : c = a := by simpa using h
      simp only [List.set_cons_zero, List.map_cons, List.sum_cons]
      omega
    | succ i =>
      have := ih (i := i) (by simpa using h)
      simp only [List.set_cons_succ, List.map_cons, List.sum_cons]
      omega

namespace PendingRpc

/-- The bytes of the stored pieces. -/
def storedBytes (p : PendingRpc) : ℕ := (p.pieces.map fun piece => (piece.getD []).length).sum

/-- The number of stored pieces. -/
def storedPieces (p : PendingRpc) : ℕ := p.pieces.countP Option.isSome

/-- The counters of a transaction are those of its pieces, and its first piece is kept
    with a descriptor. -/
structure Accounted (p : PendingRpc) : Prop where
  totalPieces : p.pieces.length = p.totalPieces.toNat
  receivedPieces : p.receivedPieces.toNat = p.storedPieces
  bodyBytes : p.bodyBytes = p.storedBytes
  first : p.first.isSome ↔ p.pieces[0]?.join.isSome
  descriptor : ∀ packet ∈ p.first, packet.descriptor.isSome

variable {p : PendingRpc} {packet : RpcPacket} {previous : Option Bytes}

/-- A transaction without pieces. -/
theorem accounted_of_empty (totalPieces : UInt32) (nowMs : UInt64) :
    Accounted
      { totalPieces, pieces := List.replicate totalPieces.toNat none, first := none,
        receivedPieces := 0, bodyBytes := 0, updatedAtMs := nowMs } where
  totalPieces := List.length_replicate
  receivedPieces := by
    rw [storedPieces, List.countP_replicate]
    rfl
  bodyBytes := by simp [storedBytes]
  first := by
    rw [List.getElem?_replicate]
    split_ifs <;> simp
  descriptor := by simp

/-- The bytes of a piece are bytes of its transaction. -/
theorem Accounted.length_le (h : p.Accounted) {i : ℕ} (hprevious : p.pieces[i]? = some previous) :
    (previous.getD []).length ≤ p.bodyBytes := by
  have := sum_map_set (fun piece : Option Bytes => (piece.getD []).length) hprevious none
  rw [h.bodyBytes, storedBytes]
  simp only [Option.getD_none, List.length_nil] at this
  omega

theorem Accounted.receivedPieces_le (h : p.Accounted) : p.receivedPieces ≤ p.totalPieces := by
  rw [UInt32.le_iff_toNat_le, h.receivedPieces, ← h.totalPieces]
  exact List.countP_le_length

/-- A new piece is one more, and another one in its place is not. -/
theorem storedPieces_put (nowMs : UInt64)
    (hprevious : p.pieces[packet.pieceIdx.toNat]? = some previous) :
    (p.put packet nowMs).storedPieces =
      if previous.isNone then p.storedPieces + 1 else p.storedPieces := by
  obtain ⟨hlt, rfl⟩ := List.getElem?_eq_some_iff.1 hprevious
  have hmem : p.pieces[packet.pieceIdx.toNat] ∈ p.pieces := List.getElem_mem hlt
  rw [storedPieces, PendingRpc.put, List.countP_set hlt, storedPieces]
  cases hpiece : p.pieces[packet.pieceIdx.toNat] with
  | none => simp
  | some piece =>
    have hpos : 0 < p.pieces.countP Option.isSome :=
      List.countP_pos_iff.2 ⟨_, hmem, by rw [hpiece]; rfl⟩
    simp only [Option.isSome_some, if_true, Option.isNone_some, Bool.false_eq_true, if_false]
    omega

/-- A piece is counted: it is a new one, or takes the place of another. -/
theorem Accounted.put (h : p.Accounted) (nowMs : UInt64)
    (hprevious : p.pieces[packet.pieceIdx.toNat]? = some previous)
    (hdescriptor : packet.pieceIdx.toNat = 0 → packet.descriptor.isSome) :
    (p.put packet nowMs).Accounted ∧
      (p.put packet nowMs).bodyBytes + (previous.getD []).length =
        p.bodyBytes + packet.body.length := by
  have hlt : packet.pieceIdx.toNat < p.pieces.length := (List.getElem?_eq_some_iff.1 hprevious).1
  have hgetD : p.pieces.getD packet.pieceIdx.toNat none = previous := by
    rw [List.getD_eq_getElem?_getD, hprevious, Option.getD_some]
  have hle := h.length_le hprevious
  have hbytes := sum_map_set (fun piece : Option Bytes => (piece.getD []).length) hprevious
    (some packet.body)
  have hbody : (p.put packet nowMs).bodyBytes + (previous.getD []).length =
      p.bodyBytes + packet.body.length := by
    simp only [PendingRpc.put, hgetD]
    omega
  refine ⟨⟨?_, ?_, ?_, ?_, ?_⟩, hbody⟩
  · simpa [PendingRpc.put] using h.totalPieces
  · have hcount := storedPieces_put nowMs hprevious
    have htotal := h.totalPieces
    have hfit := p.totalPieces.toNat_lt
    have hall : (p.put packet nowMs).storedPieces ≤ p.pieces.length := by
      simpa [storedPieces, PendingRpc.put] using
        List.countP_le_length (p := Option.isSome) (l := (p.put packet nowMs).pieces)
    have hreceived : (p.put packet nowMs).receivedPieces =
        if previous.isNone then p.receivedPieces + 1 else p.receivedPieces := by
      simp only [PendingRpc.put, hgetD]
    have := h.receivedPieces
    rw [hreceived]
    by_cases hnone : previous.isNone
    · rw [if_pos hnone] at hcount ⊢
      rw [UInt32.toNat_add, UInt32.toNat_one]
      omega
    · rw [if_neg hnone] at hcount ⊢
      omega
  · have := h.bodyBytes
    simp only [storedBytes, PendingRpc.put, hgetD, Option.getD_some] at this hbytes ⊢
    omega
  · simp only [PendingRpc.put]
    by_cases hzero : packet.pieceIdx.toNat = 0
    · rw [hzero] at hlt ⊢
      simp [hlt]
    · rw [if_neg hzero, h.first, List.getElem?_set_ne hzero]
  · intro first hfirst
    simp only [PendingRpc.put] at hfirst
    split_ifs at hfirst with hzero
    · obtain rfl : packet = first := by simpa using hfirst
      exact hdescriptor hzero
    · exact h.descriptor first hfirst

end PendingRpc

namespace Fragments

/-- The counters of the core are the sums over its transactions. -/
structure Balanced (f : Fragments) : Prop where
  entries : ∀ key p, f.pending.lookup key = some p → p.Accounted
  pendingBytes : f.pendingBytes = f.pending.total fun _ p => p.bodyBytes
  pendingPieces : f.pendingPieces = f.pending.total fun _ p => p.totalPieces.toNat

/-- The limits on the bytes and pieces of all transactions, and on the transactions of a
    peer. -/
structure WithinLimits (f : Fragments) : Prop where
  pendingBytes_le : f.pendingBytes ≤ maxPendingBytes
  pendingPieces_le : f.pendingPieces ≤ maxPendingPieces
  transactions_le : ∀ network peerId,
    f.pending.count (fun key _ => key.network = network && key.peerId = peerId) ≤
      maxPendingTransactionsPerPeer

/-- The table between two calls: no transaction has all of its pieces. -/
structure Accounted (f : Fragments) : Prop extends Balanced f, WithinLimits f where
  unfinished : ∀ key p, f.pending.lookup key = some p → p.receivedPieces < p.totalPieces

theorem accounted_new :
    Accounted { pending := ∅, pendingBytes := 0, pendingPieces := 0 } where
  entries _ _ h := nomatch h
  pendingBytes := rfl
  pendingPieces := rfl
  pendingBytes_le := Nat.zero_le _
  pendingPieces_le := Nat.zero_le _
  transactions_le _ _ := Nat.zero_le _
  unfinished _ _ h := nomatch h

variable {f : Fragments} {key : RpcKey} {packet : RpcPacket} {p : PendingRpc} {nowMs : UInt64}

/-- A transaction is removed with what it counts for, if it is there. -/
theorem removePending_eq :
    f.removePending key =
      { pending := f.pending.erase key
        pendingBytes := f.pendingBytes - (f.pending.lookup key).elim 0 (·.bodyBytes)
        pendingPieces :=
          f.pendingPieces - (f.pending.lookup key).elim 0 (·.totalPieces.toNat) } := by
  cases hp : f.pending.lookup key with
  | none =>
    rw [removePending, hp, Finmap.erase_eq_self (Finmap.lookup_eq_none.1 hp)]
    rfl
  | some p =>
    rw [removePending, hp]
    rfl

namespace Balanced

variable (h : f.Balanced)

include h

theorem bodyBytes_le (hp : f.pending.lookup key = some p) : p.bodyBytes ≤ f.pendingBytes := by
  rw [h.pendingBytes]
  exact Finmap.le_total (fun _ p => p.bodyBytes) hp

theorem totalPieces_le (hp : f.pending.lookup key = some p) :
    p.totalPieces.toNat ≤ f.pendingPieces := by
  rw [h.pendingPieces]
  exact Finmap.le_total (fun _ p => p.totalPieces.toNat) hp

/-- A transaction takes what it added with it. -/
theorem removePending (key : RpcKey) : (f.removePending key).Balanced := by
  rw [removePending_eq]
  refine ⟨fun key' p' hp' => ?_, ?_, ?_⟩
  · rw [Finmap.lookup_erase_ite] at hp'
    split_ifs at hp'
    exact h.entries key' p' hp'
  · have := f.pending.total_erase_add (fun _ p => p.bodyBytes) key
    rw [← h.pendingBytes] at this
    exact Nat.sub_eq_of_eq_add this.symm
  · have := f.pending.total_erase_add (fun _ p => p.totalPieces.toNat) key
    rw [← h.pendingPieces] at this
    exact Nat.sub_eq_of_eq_add this.symm

theorem removeAll (keys : RpcKey → PendingRpc → Bool) : (f.removeAll keys).Balanced := by
  refine ⟨fun key p hp => ?_, ?_, ?_⟩
  · rw [Fragments.removeAll, Finmap.lookup_retain, Option.filter_eq_some_iff] at hp
    exact h.entries key p hp.1
  · have := f.pending.total_retain_add (fun _ p => p.bodyBytes) keys
    rw [← h.pendingBytes] at this
    exact Nat.sub_eq_of_eq_add this.symm
  · have := f.pending.total_retain_add (fun _ p => p.totalPieces.toNat) keys
    rw [← h.pendingPieces] at this
    exact Nat.sub_eq_of_eq_add this.symm

end Balanced

/-! ## Removals -/

/-- Removing the transactions of a list one at a time removes all of them, in whatever
    order they come. -/
theorem foldl_removePending (keys : List RpcKey) :
    keys.foldl removePending f = f.removeAll fun key _ => key ∈ keys := by
  induction keys generalizing f with
  | nil =>
    have hnone : (f.pending.retain fun key _ => key ∈ ([] : List RpcKey)) = ∅ :=
      Finmap.ext_lookup fun key => by simp
    have hall : (f.pending.retain fun key _ => !decide (key ∈ ([] : List RpcKey))) = f.pending :=
      Finmap.ext_lookup fun key => by cases h : f.pending.lookup key <;> simp [h]
    rw [List.foldl_nil, removeAll, hnone, hall]
    rfl
  | cons key keys ih =>
    have hkept : ((f.pending.erase key).retain fun key' _ => !decide (key' ∈ keys)) =
        f.pending.retain fun key' _ => !decide (key' ∈ key :: keys) :=
      Finmap.ext_lookup fun key' => by
        rw [Finmap.lookup_retain, Finmap.lookup_retain, Finmap.lookup_erase_ite]
        by_cases hkey : key' = key <;> simp [hkey]
    have hremoved : ((f.pending.erase key).retain fun key' _ => key' ∈ keys) =
        (f.pending.retain fun key' _ => key' ∈ key :: keys).erase key :=
      Finmap.ext_lookup fun key' => by
        rw [Finmap.lookup_erase_ite, Finmap.lookup_retain, Finmap.lookup_retain,
          Finmap.lookup_erase_ite]
        by_cases hkey : key' = key <;> simp [hkey]
    have hlookup : (f.pending.retain fun key' _ => key' ∈ key :: keys).lookup key =
        f.pending.lookup key := by
      rw [Finmap.lookup_retain]
      cases h : f.pending.lookup key <;> simp
    -- The first transaction and the others together weigh what all of them weigh.
    have hweight (w : RpcKey → PendingRpc → ℕ) (n : ℕ) :
        n - (f.pending.lookup key).elim 0 (w key) -
            ((f.pending.erase key).retain fun key' _ => key' ∈ keys).total w =
          n - (f.pending.retain fun key' _ => key' ∈ key :: keys).total w := by
      have := (f.pending.retain fun key' _ => key' ∈ key :: keys).total_erase_add w key
      rw [hlookup] at this
      rw [hremoved]
      omega
    rw [List.foldl_cons, ih, removePending_eq, removeAll, removeAll, hkept]
    congr 1
    · exact hweight (fun _ p => p.bodyBytes) f.pendingBytes
    · exact hweight (fun _ p => p.totalPieces.toNat) f.pendingPieces

/-- Removing transactions keeps within the limits. -/
theorem WithinLimits.of_le {f' : Fragments} (h : f.WithinLimits)
    (hbytes : f'.pendingBytes ≤ f.pendingBytes) (hpieces : f'.pendingPieces ≤ f.pendingPieces)
    (hpending : ∀ p, f'.pending.count p ≤ f.pending.count p) : f'.WithinLimits where
  pendingBytes_le := hbytes.trans h.pendingBytes_le
  pendingPieces_le := hpieces.trans h.pendingPieces_le
  transactions_le network peerId := (hpending _).trans (h.transactions_le network peerId)

/-- Without a transaction that may be finished, the table is accounted for. -/
theorem accounted_removePending (hb : f.Balanced) (hl : f.WithinLimits)
    (hu : ∀ key' p, key' ≠ key → f.pending.lookup key' = some p →
      p.receivedPieces < p.totalPieces) : (f.removePending key).Accounted where
  toBalanced := hb.removePending key
  toWithinLimits := by
    rw [removePending_eq]
    exact hl.of_le (Nat.sub_le _ _) (Nat.sub_le _ _) fun p => Finmap.count_erase_le p key _
  unfinished key' p hp := by
    rw [removePending_eq, Finmap.lookup_erase_ite] at hp
    split_ifs at hp with hkey
    exact hu key' p hkey hp

theorem Accounted.removeAll (h : f.Accounted) (keys : RpcKey → PendingRpc → Bool) :
    (f.removeAll keys).Accounted where
  toBalanced := h.toBalanced.removeAll keys
  toWithinLimits := h.toWithinLimits.of_le (Nat.sub_le _ _) (Nat.sub_le _ _) fun _ =>
    Finmap.count_retain_le _ _ _
  unfinished key p hp := by
    rw [Fragments.removeAll, Finmap.lookup_retain, Option.filter_eq_some_iff] at hp
    exact h.unfinished key p hp.1

/-! ## Pieces -/

/-- A transaction is open once the limits have allowed it. -/
theorem Accounted.openPending {f' : Fragments} {totalPieces : UInt32} (h : f.Accounted)
    (hpos : totalPieces ≠ 0)
    (htotal : ∀ p, f.pending.lookup key = some p → p.totalPieces = totalPieces)
    (hopen : f.openPending key totalPieces nowMs = .ok f') :
    f'.Accounted ∧ ∃ p, f'.pending.lookup key = some p ∧ p.totalPieces = totalPieces := by
  unfold Fragments.openPending at hopen
  split_ifs at hopen with hsome hcount hpieces
  · obtain rfl := Except.ok.inj hopen
    obtain ⟨p, hp⟩ := Option.isSome_iff_exists.1 hsome
    exact ⟨h, p, hp, htotal p hp⟩
  · have hnone : key ∉ f.pending := by
      rw [← Finmap.lookup_eq_none]
      simpa using hsome
    obtain rfl := Except.ok.inj hopen
    refine ⟨⟨⟨fun key' p' hp' => ?_, ?_, ?_⟩, ⟨h.pendingBytes_le, not_lt.1 hpieces, ?_⟩, ?_⟩, _,
      Finmap.lookup_insert _, rfl⟩
    · rw [Finmap.lookup_insert_ite] at hp'
      split_ifs at hp'
      · obtain rfl := Option.some.inj hp'
        exact PendingRpc.accounted_of_empty totalPieces nowMs
      · exact h.entries key' p' hp'
    · rw [Finmap.total_insert, Finmap.erase_eq_self hnone, ← h.pendingBytes]
      rfl
    · rw [Finmap.total_insert, Finmap.erase_eq_self hnone, ← h.pendingPieces]
    · -- The check was about the peer of the new transaction, and other peers have no new one.
      intro network peerId
      rw [Finmap.count_insert, Finmap.erase_eq_self hnone]
      split_ifs with hpeer
      · obtain ⟨rfl, rfl⟩ : key.network = network ∧ key.peerId = peerId := by simpa using hpeer
        exact not_le.1 hcount
      · exact h.transactions_le network peerId
    · intro key' p' hp'
      rw [Finmap.lookup_insert_ite] at hp'
      split_ifs at hp'
      · obtain rfl := Option.some.inj hp'
        exact UInt32.pos_iff_ne_zero.2 hpos
      · exact h.unfinished key' p' hp'

/-- The table with a piece in the place of `previous`. -/
def withPiece (f : Fragments) (key : RpcKey) (p : PendingRpc) (previous : Option Bytes)
    (packet : RpcPacket) (nowMs : UInt64) : Fragments :=
  { f with
    pending := f.pending.insert key (p.put packet nowMs)
    pendingBytes := f.pendingBytes - (previous.getD []).length + packet.body.length }

theorem Balanced.withPiece {previous : Option Bytes} (h : f.Balanced) (nowMs : UInt64)
    (hp : f.pending.lookup key = some p)
    (hprevious : p.pieces[packet.pieceIdx.toNat]? = some previous)
    (hdescriptor : packet.pieceIdx.toNat = 0 → packet.descriptor.isSome) :
    (f.withPiece key p previous packet nowMs).Balanced := by
  have hacc := h.entries key p hp
  obtain ⟨hput, hbytes⟩ := hacc.put nowMs hprevious hdescriptor
  have hle := hacc.length_le hprevious
  have hbody := h.bodyBytes_le hp
  refine ⟨fun key' p' hp' => ?_, ?_, ?_⟩
  · rw [Fragments.withPiece, Finmap.lookup_insert_ite] at hp'
    split_ifs at hp'
    · obtain rfl := Option.some.inj hp'
      exact hput
    · exact h.entries key' p' hp'
  · have := h.pendingBytes
    rw [Finmap.total_eq_erase_add _ hp] at this
    rw [Fragments.withPiece, Finmap.total_insert]
    dsimp only at this ⊢
    omega
  · rw [Fragments.withPiece, Finmap.total_insert, h.pendingPieces, Finmap.total_eq_erase_add _ hp]
    rfl

/-- What becomes of a piece of an open transaction: it exceeds the limit on the bytes, or
    it is stored, and the transaction has all of its pieces or not. -/
inductive PutOutcome (f : Fragments) (key : RpcKey) (packet : RpcPacket) (nowMs : UInt64)
    (p : PendingRpc) : Except String MergedPacket × Fragments → Prop
  | tooManyBytes :
      PutOutcome f key packet nowMs p
        (.error "pending fragmented RPC byte limit exceeded", f.removePending key)
  | stored {f' : Fragments} (hreceived : (p.put packet nowMs).receivedPieces ≠ packet.totalPieces)
      (hpending : f'.pending = f.pending.insert key (p.put packet nowMs)) (hf' : f'.Balanced)
      (hlimits : f'.WithinLimits) : PutOutcome f key packet nowMs p (.ok .pending, f')
  | completed {f' : Fragments} {merged : RpcPacket}
      (hpending : f'.pending = f.pending.insert key (p.put packet nowMs)) (hf' : f'.Balanced)
      (hlimits : f'.WithinLimits) :
      PutOutcome f key packet nowMs p (.ok (.complete merged), f'.removePending key)

/-- A transaction with all of its pieces can be assembled. -/
theorem exists_assemble (h : p.Accounted) (hpos : p.totalPieces ≠ 0)
    (hall : p.receivedPieces = p.totalPieces) : ∃ merged, p.assemble = .ok merged := by
  have hcount : p.pieces.countP Option.isSome = p.pieces.length := by
    rw [h.totalPieces, ← hall, h.receivedPieces]
    rfl
  have hsome : ∀ piece ∈ p.pieces, piece.isSome := List.countP_eq_length.1 hcount
  have hzero : 0 < p.pieces.length := by
    rw [h.totalPieces]
    exact UInt32.pos_iff_ne_zero.2 hpos
  have hfirst : p.first.isSome := by
    rw [h.first, List.getElem?_eq_getElem hzero]
    exact hsome _ (List.getElem_mem hzero)
  obtain ⟨first, hfirst⟩ := Option.isSome_iff_exists.1 hfirst
  have hmissing : ¬p.pieces.any Option.isNone := by
    rw [List.any_eq_true]
    rintro ⟨piece, hmem, hnone⟩
    have := hsome piece hmem
    simp_all
  rw [PendingRpc.assemble, hfirst]
  exact ⟨_, if_neg hmissing⟩

/-- A piece of an open transaction is put where it belongs. -/
theorem Accounted.putOutcome (h : f.Accounted) (nowMs : UInt64) (hp : f.pending.lookup key = some p)
    (htotal : p.totalPieces = packet.totalPieces) (hidx : packet.pieceIdx < packet.totalPieces)
    (hdescriptor : packet.pieceIdx.toNat = 0 → packet.descriptor.isSome) :
    PutOutcome f key packet nowMs p (f.putPiece key packet nowMs) := by
  have hacc := h.entries key p hp
  have hlt : packet.pieceIdx.toNat < p.pieces.length := by
    rw [hacc.totalPieces, htotal]
    exact hidx
  obtain ⟨previous, hprevious⟩ : ∃ previous, p.pieces[packet.pieceIdx.toNat]? = some previous :=
    ⟨_, List.getElem?_eq_getElem hlt⟩
  obtain ⟨hput, -⟩ := hacc.put nowMs hprevious hdescriptor
  have hbalanced := h.toBalanced.withPiece nowMs hp hprevious hdescriptor
  have hlimits (hlimit : ¬maxPendingBytes <
      f.pendingBytes - (previous.getD []).length + packet.body.length) :
      (f.withPiece key p previous packet nowMs).WithinLimits := by
    refine ⟨not_lt.1 hlimit, h.pendingPieces_le, fun network peerId => ?_⟩
    refine (Finmap.count_insert_of_lookup hp ?_).trans_le (h.transactions_le network peerId)
    rfl
  unfold putPiece
  rw [hp]
  dsimp only
  rw [hprevious]
  dsimp only
  split_ifs with hlimit hreceived
  · exact .tooManyBytes
  · exact .stored hreceived rfl hbalanced (hlimits hlimit)
  · rw [Finmap.lookup_insert]
    have htotal' : (p.put packet nowMs).totalPieces = packet.totalPieces := htotal
    have hpos : (p.put packet nowMs).totalPieces ≠ 0 := by
      rw [htotal']
      exact (lt_of_le_of_lt (UInt32.zero_le) hidx).ne'
    obtain ⟨merged, hmerged⟩ := exists_assemble hput hpos ((not_not.1 hreceived).trans htotal'.symm)
    dsimp only
    rw [hmerged]
    exact .completed rfl hbalanced (hlimits hlimit)

/-- The errors for an inconsistent table. -/
def inconsistencies : List String :=
  ["pending RPC state disappeared during merge", "index out of bounds",
    "completed RPC state disappeared during merge", "fragmented RPC first piece was not received",
    "fragmented RPC contains a missing piece"]

/-- A piece leaves the table accounted for. -/
theorem Accounted.putPiece (h : f.Accounted) (hp : f.pending.lookup key = some p)
    (htotal : p.totalPieces = packet.totalPieces) (hidx : packet.pieceIdx < packet.totalPieces)
    (hdescriptor : packet.pieceIdx.toNat = 0 → packet.descriptor.isSome) :
    (f.putPiece key packet nowMs).2.Accounted ∧
      ∀ e ∈ inconsistencies, (f.putPiece key packet nowMs).1 ≠ .error e := by
  have hunfinished {f' : Fragments}
      (hpending : f'.pending = f.pending.insert key (p.put packet nowMs)) (key' : RpcKey)
      (p' : PendingRpc) (hkey : key' ≠ key) (hp' : f'.pending.lookup key' = some p') :
      p'.receivedPieces < p'.totalPieces := by
    rw [hpending, Finmap.lookup_insert_of_ne _ hkey] at hp'
    exact h.unfinished key' p' hp'
  generalize hresult : f.putPiece key packet nowMs = result
  have houtcome := h.putOutcome nowMs hp htotal hidx hdescriptor
  rw [hresult] at houtcome
  cases houtcome with
  | tooManyBytes =>
    refine ⟨accounted_removePending h.toBalanced h.toWithinLimits fun key' p' _ =>
      h.unfinished key' p', fun e he => ?_⟩
    rintro ⟨⟩
    revert he
    decide
  | stored hreceived hpending hf' hlimits =>
    refine ⟨⟨hf', hlimits, fun key' p' hp' => ?_⟩, fun e _ => nofun⟩
    by_cases hkey : key' = key
    · subst hkey
      have hle := (hf'.entries key' p' hp').receivedPieces_le
      rw [hpending, Finmap.lookup_insert] at hp'
      obtain rfl := Option.some.inj hp'
      exact lt_of_le_of_ne hle (hreceived.trans_eq htotal.symm)
    · exact hunfinished hpending key' p' hkey hp'
  | completed hpending hf' hlimits =>
    exact ⟨accounted_removePending hf' hlimits (hunfinished hpending), fun e _ => nofun⟩

/-- A transaction that has not changed its number of pieces. -/
theorem totalPieces_eq {totalPieces : UInt32}
    (h : ¬(f.pending.lookup key).any (·.totalPieces ≠ totalPieces) = true) (p : PendingRpc)
    (hp : f.pending.lookup key = some p) : p.totalPieces = totalPieces := by
  rw [hp] at h
  simpa using h

theorem descriptor_isSome (h : ¬(packet.pieceIdx = 0 ∧ packet.descriptor.isNone))
    (hzero : packet.pieceIdx.toNat = 0) : packet.descriptor.isSome := by
  have hidx : packet.pieceIdx = 0 := UInt32.toNat.inj hzero
  rw [Option.isSome_iff_ne_none]
  simpa [hidx] using h

theorem ne_error_of_notMem {e : String} (h : e ∉ inconsistencies) :
    ∀ e' ∈ inconsistencies, (.error e : Except String MergedPacket) ≠ .error e' := by
  rintro e' he' ⟨⟩
  exact h he'

/-- A packet leaves the table accounted for, whatever becomes of it. -/
theorem Accounted.mergePacket (h : f.Accounted) (network : String) (peerId : UInt32)
    (packet : RpcPacket) (nowMs : UInt64) :
    (f.mergePacket network peerId packet nowMs).2.Accounted ∧
      ∀ e ∈ inconsistencies, (f.mergePacket network peerId packet nowMs).1 ≠ .error e := by
  unfold Fragments.mergePacket
  dsimp only
  split_ifs with hwhole hinvalid hone hdescriptor hchanged
  · exact ⟨h, fun e _ => nofun⟩
  · exact ⟨h, ne_error_of_notMem (by decide)⟩
  · exact ⟨h, fun e _ => nofun⟩
  · exact ⟨h, ne_error_of_notMem (by decide)⟩
  · have hclean := h.removeAll fun _ p => rpcFragmentTtlMs ≤ nowMs.saturatingSub p.updatedAtMs
    exact ⟨accounted_removePending hclean.toBalanced hclean.toWithinLimits fun key p _ =>
      hclean.unfinished key p, ne_error_of_notMem (by decide)⟩
  · have hclean := h.removeAll fun _ p => rpcFragmentTtlMs ≤ nowMs.saturatingSub p.updatedAtMs
    cases hopen : (f.cleanPending nowMs).openPending
        ⟨network, peerId, packet.transactionId, packet.isRequest⟩ packet.totalPieces nowMs with
    | error e =>
      refine ⟨hclean, ne_error_of_notMem ?_⟩
      unfold Fragments.openPending at hopen
      split_ifs at hopen <;> cases hopen <;> decide
    | ok f' =>
      obtain ⟨hf', p, hp, htotal⟩ := hclean.openPending (fun hzero => hinvalid (.inl hzero))
        (totalPieces_eq hchanged) hopen
      exact hf'.putPiece hp htotal (not_le.1 fun hle => hinvalid (.inr (.inr hle)))
        (descriptor_isSome hdescriptor)

/-! ## Subtractions -/

/-- The subtractions of `removePending`, each with the number it is from and the number
    that is subtracted. -/
def removalSubtractions (f : Fragments) (key : RpcKey) : List (ℕ × ℕ) :=
  match f.pending.lookup key with
  | none => []
  | some p => [(f.pendingBytes, p.bodyBytes), (f.pendingPieces, p.totalPieces.toNat)]

/-- The subtractions of a loop that removes transactions. -/
def loopSubtractions : Fragments → List RpcKey → List (ℕ × ℕ)
  | _, [] => []
  | f, key :: keys => f.removalSubtractions key ++ (f.removePending key).loopSubtractions keys

/-- The subtractions of `putPiece`. -/
def putSubtractions (f : Fragments) (key : RpcKey) (packet : RpcPacket) (nowMs : UInt64) :
    List (ℕ × ℕ) :=
  match f.pending.lookup key with
  | none => []
  | some pending =>
    match pending.pieces[packet.pieceIdx.toNat]? with
    | none => []
    | some previous =>
      let nextTotalBytes := f.pendingBytes - (previous.getD []).length + packet.body.length
      (f.pendingBytes, (previous.getD []).length) ::
        if maxPendingBytes < nextTotalBytes then f.removalSubtractions key
        else
          let f' :=
            { f with
              pending := f.pending.insert key (pending.put packet nowMs)
              pendingBytes := nextTotalBytes }
          (pending.bodyBytes, (previous.getD []).length) ::
            if (pending.put packet nowMs).receivedPieces ≠ packet.totalPieces then []
            else f'.removalSubtractions key

/-- The subtractions of `mergePacket` once it has removed the expired transactions. -/
def mergeSubtractions (f : Fragments) (network : String) (peerId : UInt32) (packet : RpcPacket)
    (nowMs : UInt64) : List (ℕ × ℕ) :=
  let totalPieces := packet.totalPieces
  if totalPieces = 0 ∧ packet.pieceIdx = 0 then []
  else if totalPieces = 0 ∨ maxRpcPieces < totalPieces ∨ totalPieces ≤ packet.pieceIdx then []
  else if totalPieces = 1 then []
  else if packet.pieceIdx = 0 ∧ packet.descriptor.isNone then []
  else
    let f := f.cleanPending nowMs
    let key := RpcKey.mk network peerId packet.transactionId packet.isRequest
    if (f.pending.lookup key).any (·.totalPieces ≠ totalPieces) then f.removalSubtractions key
    else
      match f.openPending key totalPieces nowMs with
      | .error _ => []
      | .ok f => f.putSubtractions key packet nowMs

/-- No subtraction goes below `0`. -/
def Exact (subtractions : List (ℕ × ℕ)) : Prop := ∀ s ∈ subtractions, s.2 ≤ s.1

theorem Balanced.exact_removal (h : f.Balanced) (key : RpcKey) :
    Exact (f.removalSubtractions key) := by
  unfold removalSubtractions
  cases hp : f.pending.lookup key with
  | none => exact fun s hs => absurd hs List.not_mem_nil
  | some p =>
    intro s hs
    rcases List.mem_pair.1 hs with rfl | rfl
    · exact h.bodyBytes_le hp
    · exact h.totalPieces_le hp

/-- Whatever transactions are removed, in whatever order. -/
theorem Balanced.exact_loop (h : f.Balanced) (keys : List RpcKey) :
    Exact (f.loopSubtractions keys) := by
  induction keys generalizing f with
  | nil => exact fun s hs => absurd hs List.not_mem_nil
  | cons key keys ih =>
    intro s hs
    rcases List.mem_append.1 hs with hs | hs
    · exact h.exact_removal key s hs
    · exact ih (h.removePending key) s hs

theorem Accounted.exact_put (h : f.Accounted) (hp : f.pending.lookup key = some p)
    (hdescriptor : packet.pieceIdx.toNat = 0 → packet.descriptor.isSome) :
    Exact (f.putSubtractions key packet nowMs) := by
  have hacc := h.entries key p hp
  unfold putSubtractions
  rw [hp]
  dsimp only
  cases hprevious : p.pieces[packet.pieceIdx.toNat]? with
  | none => exact fun s hs => absurd hs List.not_mem_nil
  | some previous =>
    have hle := hacc.length_le hprevious
    intro s hs
    rcases List.mem_cons.1 hs with rfl | hs
    · exact hle.trans (h.bodyBytes_le hp)
    split_ifs at hs with hlimit hreceived
    · exact h.exact_removal key s hs
    · obtain rfl : s = _ := List.mem_singleton.1 hs
      exact hle
    · rcases List.mem_cons.1 hs with rfl | hs
      · exact hle
      · exact (h.toBalanced.withPiece nowMs hp hprevious hdescriptor).exact_removal key s hs

theorem Accounted.exact_merge (h : f.Accounted) (network : String) (peerId : UInt32)
    (packet : RpcPacket) (nowMs : UInt64) :
    Exact (f.mergeSubtractions network peerId packet nowMs) := by
  have hnil : Exact [] := fun s hs => absurd hs List.not_mem_nil
  have hclean := h.removeAll fun _ p => rpcFragmentTtlMs ≤ nowMs.saturatingSub p.updatedAtMs
  unfold mergeSubtractions
  dsimp only
  split_ifs with hwhole hinvalid hone hdescriptor hchanged
  · exact hnil
  · exact hnil
  · exact hnil
  · exact hnil
  · exact hclean.exact_removal _
  · cases hopen : (f.cleanPending nowMs).openPending
        ⟨network, peerId, packet.transactionId, packet.isRequest⟩ packet.totalPieces nowMs with
    | error e => exact hnil
    | ok f' =>
      obtain ⟨hf', p, hp, -⟩ := hclean.openPending (fun hzero => hinvalid (.inl hzero))
        (totalPieces_eq hchanged) hopen
      exact hf'.exact_put hp (descriptor_isSome hdescriptor)

end Fragments

/-! ## The calls of the core -/

/-- What a call of the core does to the fragments. -/
inductive FragmentCall
  | none
  | merge (network : String) (peerId : UInt32) (packet : RpcPacket) (nowMs : UInt64)
  | removePeer (network : String) (peerId : UInt32)
  | clean (nowMs : UInt64)

/-- The fragments after a call. -/
def Fragments.after (f : Fragments) : FragmentCall → Fragments
  | .none => f
  | .merge network peerId packet nowMs => (f.mergePacket network peerId packet nowMs).2
  | .removePeer network peerId =>
    f.removeAll fun key _ => key.network = network && key.peerId = peerId
  | .clean nowMs => f.cleanPending nowMs

theorem Fragments.Accounted.after {f : Fragments} (h : f.Accounted) (call : FragmentCall) :
    (f.after call).Accounted := by
  cases call with
  | none => exact h
  | merge network peerId packet nowMs => exact (h.mergePacket network peerId packet nowMs).1
  | removePeer network peerId => exact h.removeAll _
  | clean nowMs => exact h.removeAll _

namespace WasmRpcCore

variable (crates : RpcCrates) (core : WasmRpcCore)

/-- The packets that are merged are those whose envelope is right, and of the responses
    only the ones that are waited for. -/
def fragmentCall : CoreOp → FragmentCall
  | .addPeer .. => .none
  | .removePeer network peerId _ => .removePeer network peerId
  | .handleRequest network peerId payload nowMs _ _ =>
    match crates.prost.decodeRpcPacket payload with
    | .error _ => .none
    | .ok packet =>
      match core.validateEnvelope packet network peerId true with
      | .error _ => .none
      | .ok () => .merge network peerId packet nowMs
  | .handleResponse network peerId payload nowMs _ =>
    match crates.prost.decodeRpcPacket payload with
    | .error _ => .none
    | .ok packet =>
      match core.validateEnvelope packet network peerId false with
      | .error _ => .none
      | .ok () =>
        match core.outstandingRoutes.lookup ⟨network, peerId, packet.transactionId, false⟩ with
        | none => .none
        | some outstanding =>
          if outstanding.deadlineMs < nowMs then .none else .merge network peerId packet nowMs
  | .buildRouteUpdate _ _ _ _ nowMs _ _ => .clean nowMs
  | .cleanExpired nowMs _ => .clean nowMs

theorem serve_frame {network : String} {peerId : UInt32} {descriptor : RpcDescriptor}
    {request : Bytes} {nowMs clockMs : UInt64} {draws : GroupDraws} {result : Reply × WasmRpcCore}
    (h : core.serve crates network peerId descriptor request nowMs clockMs draws = .ok result) :
    result.2.fragments = core.fragments ∧ result.2.serverPeerId = core.serverPeerId := by
  unfold serve at h
  split_ifs at h
  · obtain rfl := Except.ok.inj h
    exact ⟨rfl, rfl⟩
  · obtain rfl := Except.ok.inj h
    unfold serveRoute
    dsimp only
    generalize RouteState.handleSyncRouteInfoRequest _ _ _ _ _ _ _ = outcome
    cases outcome <;> exact ⟨rfl, rfl⟩
  · obtain ⟨outcome, -, rfl⟩ := Except.map_eq_ok.1 h
    exact ⟨rfl, rfl⟩
  · obtain ⟨outcome, -, rfl⟩ := Except.map_eq_ok.1 h
    exact ⟨rfl, rfl⟩
  · obtain rfl := Except.ok.inj h
    exact ⟨rfl, rfl⟩
  · obtain rfl := Except.ok.inj h
    exact ⟨rfl, rfl⟩

/-- Serving a call does not touch the fragments. -/
theorem handleCall_frame {network : String} {peerId : UInt32} {packet : RpcPacket}
    {nowMs clockMs : UInt64} {draws : GroupDraws} {result : Bytes × WasmRpcCore}
    (h : core.handleCall crates network peerId packet nowMs clockMs draws = .ok result) :
    result.2.fragments = core.fragments ∧ result.2.serverPeerId = core.serverPeerId := by
  rw [handleCall, Except.bind_eq_ok] at h
  obtain ⟨-, -, h⟩ := h
  cases hdescriptor : packet.descriptor with
  | none => simp [hdescriptor] at h
  | some descriptor =>
    simp only [hdescriptor, Except.bind_eq_ok, Except.pure_eq_ok] at h
    obtain ⟨request, -, ⟨reply, core'⟩, hserve, rfl⟩ := h
    exact core.serve_frame crates hserve

/-- What becomes of the fragments in a call, and of the id of the relay. -/
theorem fragments_step (op : CoreOp) :
    (core.step crates op).1.fragments = core.fragments.after (core.fragmentCall crates op) ∧
      (core.step crates op).1.serverPeerId = core.serverPeerId := by
  cases op with
  | addPeer network peerId publicKey nowMs draws =>
    simp only [step, addPeer]
    cases core.routes.addPeer network peerId publicKey nowMs draws <;> exact ⟨rfl, rfl⟩
  | removePeer network peerId draws => exact ⟨rfl, rfl⟩
  | handleRequest network peerId payload nowMs clockMs draws =>
    simp only [step, fragmentCall, handleRequest]
    cases crates.prost.decodeRpcPacket payload with
    | error e => exact ⟨rfl, rfl⟩
    | ok packet =>
      dsimp only
      cases core.validateEnvelope packet network peerId true with
      | error e => exact ⟨rfl, rfl⟩
      | ok u =>
        dsimp only [Fragments.after]
        rcases core.fragments.mergePacket network peerId packet nowMs with
          ⟨e | _ | merged, fragments⟩
        · exact ⟨rfl, rfl⟩
        · exact ⟨rfl, rfl⟩
        · dsimp only
          cases hcall : ({ core with fragments } : WasmRpcCore).handleCall crates network peerId
            merged nowMs clockMs draws with
          | error e => exact ⟨rfl, rfl⟩
          | ok result => exact handleCall_frame crates _ hcall
  | handleResponse network peerId payload nowMs draws =>
    have hexamine : (core.handleResponse crates network peerId payload nowMs draws).2.fragments =
          (core.examineResponse crates network peerId payload nowMs).2 ∧
        (core.handleResponse crates network peerId payload nowMs draws).2.serverPeerId =
          core.serverPeerId := by
      unfold handleResponse
      rcases core.examineResponse crates network peerId payload nowMs with
        ⟨e | _ | _ | _ | _ | _ | _, fragments⟩ <;> exact ⟨rfl, rfl⟩
    refine ⟨hexamine.1.trans ?_, hexamine.2⟩
    simp only [fragmentCall, examineResponse]
    cases crates.prost.decodeRpcPacket payload with
    | error e => rfl
    | ok packet =>
      dsimp only
      cases core.validateEnvelope packet network peerId false with
      | error e => rfl
      | ok u =>
        dsimp only
        cases core.outstandingRoutes.lookup ⟨network, peerId, packet.transactionId, false⟩ with
        | none => rfl
        | some outstanding =>
          dsimp only
          split_ifs
          · rfl
          · dsimp only [Fragments.after]
            rcases core.fragments.mergePacket network peerId packet nowMs with
              ⟨e | _ | merged, fragments⟩ <;> rfl
  | buildRouteUpdate network peerId sessionId forceFull nowMs draws ids =>
    simp only [step, buildRouteUpdate]
    generalize RouteGroupData.buildSyncRouteInfoRequest _ _ _ _ _ _ _ _ = built
    rcases built with ⟨e | update, g⟩
    · exact ⟨rfl, rfl⟩
    · dsimp only
      generalize nextTransactionId _ _ _ _ = id
      cases id <;> exact ⟨rfl, rfl⟩
  | cleanExpired nowMs clockMs => exact ⟨rfl, rfl⟩

end WasmRpcCore

/-- In every state that the core reaches, the fragments are accounted for. -/
theorem fragment_accounting (crates : RpcCrates) (config : CoreConfig) (ops : List CoreOp) :
    let f := ((rpcCore crates config).run (rpcCore crates config).init ops).fragments
    f.Accounted ∧ (∀ keys, Fragments.Exact (f.loopSubtractions keys)) ∧
      ∀ network peerId packet nowMs,
        Fragments.Exact (f.mergeSubtractions network peerId packet nowMs) ∧
          ∀ e ∈ Fragments.inconsistencies,
            (f.mergePacket network peerId packet nowMs).1 ≠ .error e := by
  intro f
  have hf : f.Accounted := by
    refine Machine.Reachable.invariant (m := rpcCore crates config)
      (P := fun core => core.fragments.Accounted) ?_ (fun core op h => ?_) ⟨ops, rfl⟩
    · exact Fragments.accounted_new
    · exact (core.fragments_step crates op).1.symm ▸ h.after _
  exact ⟨hf, hf.exact_loop, fun network peerId packet nowMs =>
    ⟨hf.exact_merge network peerId packet nowMs,
      (hf.mergePacket network peerId packet nowMs).2⟩⟩

end EasyTierEdge
