import EasyTierEdge.Lib.FixedWidth
import EasyTierEdge.Route.Topology

/-!
# Reading a bitmap of rows

The rows of the peers as a bitmap (`connBitmapOf`), read back by the rule of
`store_conn_rows` (`connInfoRows`). A link from one peer to another sets two bits, for it
is an edge in both directions, and a link to a peer without a column sets none.

* `testBitmap_setBit`: setting a bit changes that bit and no other;
* `testBitmap_connBitmapOf`: the bit of two peers is set just when one of them names the
  other;
* `connInfoRows_connPeerListOf`: a row of the list has the peers that its owner names;
* `connInfoRows_connBitmapOf`: a row of the bitmap has the peers that its owner names or
  that name its owner.
-/

namespace EasyTierEdge

/-- A bit of a list of bytes. -/
def bitAt (bitmap : Bytes) (k : ℕ) : Bool :=
  (bitmap[k / 8]?).any fun byte => byte &&& (1 <<< UInt8.ofNat (k % 8)) ≠ 0

theorem bitAt_modify (bitmap : Bytes) (k l : ℕ) :
    bitAt (bitmap.modify (l / 8) (· ||| (1 <<< UInt8.ofNat (l % 8)))) k =
      (bitAt bitmap k || decide (k = l ∧ k < 8 * bitmap.length)) := by
  have hk : k % 8 < 8 := Nat.mod_lt _ (by norm_num)
  have hl : l % 8 < 8 := Nat.mod_lt _ (by norm_num)
  unfold bitAt
  rw [List.getElem?_modify]
  cases hbyte : bitmap[k / 8]? with
  | none =>
    have hrange := List.getElem?_eq_none_iff.1 hbyte
    have hout : ¬ (k = l ∧ k < 8 * bitmap.length) := by omega
    simp [hout]
  | some byte =>
    have hrange : k / 8 < bitmap.length := (List.getElem?_eq_some_iff.1 hbyte).1
    rw [Option.map_eq_map, Option.map_some, Option.any_some, Option.any_some, Bool.eq_iff_iff,
      Bool.or_eq_true, decide_eq_true_iff, decide_eq_true_iff, decide_eq_true_iff,
      UInt8.and_bit_ne_zero _ hk, UInt8.and_bit_ne_zero _ hk]
    split_ifs with hsame
    · rw [UInt8.getLsbD_or_bit _ hl hk, Bool.or_eq_true, decide_eq_true_iff]
      refine or_congr_right ?_
      omega
    · refine (or_iff_left fun h => hsame ?_).symm
      rw [h.1]

/-- The index of a bit in a bitmap of at most `8192` peers fits in `32` bits. -/
theorem index_mod {n i j : ℕ} (hn : n ≤ maxLegacyBitmapPeers) (hi : i < n) (hj : j < n) :
    (i * n + j) % 2 ^ 32 = i * n + j := by
  have hlt : i * n + j < n * n := by nlinarith
  have hle : n * n ≤ 8192 * 8192 := Nat.mul_le_mul hn hn
  exact Nat.mod_eq_of_lt (by omega)

/-- Different rows and columns have different indices. -/
theorem index_inj {n i j a b : ℕ} (hj : j < n) (hb : b < n) (h : i * n + j = a * n + b) :
    i = a ∧ j = b := by
  have hn : 0 < n := by omega
  have hdiv : (i * n + j) / n = (a * n + b) / n := by rw [h]
  rw [Nat.mul_comm i, Nat.mul_comm a, Nat.mul_add_div hn, Nat.mul_add_div hn,
    Nat.div_eq_of_lt hj, Nat.div_eq_of_lt hb] at hdiv
  obtain rfl : i = a := by omega
  exact ⟨rfl, by omega⟩

section Bits

variable {n : ℕ} (hn : n ≤ maxLegacyBitmapPeers) {bitmap : Bytes} (hlen : n * n ≤ 8 * bitmap.length)

include hn hlen

theorem testBitmap_setBit {i j a b : ℕ} (hi : i < n) (hj : j < n) (ha : a < n) (hb : b < n) :
    testBitmap n i j (setBit n a b bitmap) = true ↔
      testBitmap n i j bitmap = true ∨ i = a ∧ j = b := by
  have hrange : i * n + j < n * n := by nlinarith
  have htest : ∀ bm, testBitmap n i j bm = bitAt bm (i * n + j) := by
    intro bm
    rw [← index_mod hn hi hj]
    rfl
  rw [htest, htest, setBit, bitAt_modify, Bool.or_eq_true, decide_eq_true_iff]
  refine or_congr_right ⟨fun h => index_inj hj hb h.1, ?_⟩
  rintro ⟨rfl, rfl⟩
  exact ⟨rfl, by omega⟩

end Bits

@[simp] theorem length_setBit (n row col : ℕ) (bitmap : Bytes) :
    (setBit n row col bitmap).length = bitmap.length :=
  List.length_modify ..

/-- In a list without repetitions, an element has one index. -/
theorem idxOf?_eq_some_iff_getElem? {pids : List PeerId} (hnodup : pids.Nodup) {pid : PeerId} {i : ℕ} :
    pids.idxOf? pid = some i ↔ pids[i]? = some pid := by
  rw [List.idxOf?_eq_some_iff]
  constructor
  · rintro ⟨hi, heq, -⟩
    rw [List.getElem?_eq_getElem hi, heq]
  · intro h
    obtain ⟨hi, heq⟩ := List.getElem?_eq_some_iff.1 h
    refine ⟨hi, heq, fun j hj heq' => ?_⟩
    have hindex := (List.Nodup.getElem_inj_iff hnodup).1 (heq'.trans heq.symm)
    omega

/-- The bits of a link from the peer with the index `i`. -/
def setLink (pids : List PeerId) (i : ℕ) (bitmap : Bytes) (link : PeerId) : Bytes :=
  match pids.idxOf? link with
  | some j => setBit pids.length j i (setBit pids.length i j bitmap)
  | none => bitmap

/-- Two indices are those of the peer with the index `i` and of one of its links. -/
def Linked (pids : List PeerId) (i : ℕ) (links : List PeerId) (a b : ℕ) : Prop :=
  ∃ link ∈ links, ∃ j, pids[j]? = some link ∧ (a = i ∧ b = j ∨ a = j ∧ b = i)

section Links

variable {pids : List PeerId} (hnodup : pids.Nodup) (hn : pids.length ≤ maxLegacyBitmapPeers)

include hnodup hn

theorem testBitmap_setLink {i : ℕ} (hi : i < pids.length) (links : List PeerId) {bitmap : Bytes}
    (hlen : pids.length * pids.length ≤ 8 * bitmap.length) :
    (links.foldl (setLink pids i) bitmap).length = bitmap.length ∧
      ∀ a b, a < pids.length → b < pids.length →
        (testBitmap pids.length a b (links.foldl (setLink pids i) bitmap) = true ↔
          testBitmap pids.length a b bitmap = true ∨ Linked pids i links a b) := by
  induction links generalizing bitmap with
  | nil => exact ⟨rfl, fun a b _ _ => by simp [Linked]⟩
  | cons link links ih =>
    rw [List.foldl_cons]
    -- One link: nothing, or a bit in each of the two rows.
    have hone : (setLink pids i bitmap link).length = bitmap.length ∧
        ∀ a b, a < pids.length → b < pids.length →
          (testBitmap pids.length a b (setLink pids i bitmap link) = true ↔
            testBitmap pids.length a b bitmap = true ∨ Linked pids i [link] a b) := by
      unfold setLink Linked
      cases hindex : pids.idxOf? link with
      | none =>
        refine ⟨rfl, fun a b _ _ => (or_iff_left ?_).symm⟩
        rintro ⟨q, hq, j, hj, -⟩
        rw [List.mem_singleton.1 hq, ← idxOf?_eq_some_iff_getElem? hnodup, hindex] at hj
        exact absurd hj (Option.some_ne_none j).symm
      | some j =>
        have hj := (idxOf?_eq_some_iff_getElem? hnodup).1 hindex
        have hjn : j < pids.length := (List.getElem?_eq_some_iff.1 hj).1
        refine ⟨by rw [length_setBit, length_setBit], fun a b ha hb => ?_⟩
        dsimp only
        rw [testBitmap_setBit hn (by rwa [length_setBit]) ha hb hjn hi,
          testBitmap_setBit hn hlen ha hb hi hjn, or_assoc]
        refine or_congr_right ⟨fun h => ⟨link, List.mem_singleton_self link, j, hj, h⟩, ?_⟩
        rintro ⟨q, hq, k, hk, h⟩
        rw [List.mem_singleton.1 hq, ← idxOf?_eq_some_iff_getElem? hnodup, hindex] at hk
        rwa [Option.some.inj hk]
    obtain ⟨hlength, hbits⟩ := ih (hone.1.symm ▸ hlen)
    refine ⟨hlength.trans hone.1, fun a b ha hb => ?_⟩
    rw [hbits a b ha hb, hone.2 a b ha hb, or_assoc]
    refine or_congr_right ?_
    unfold Linked
    simp only [List.mem_cons, List.not_mem_nil, or_false, exists_eq_or_imp, exists_eq_left]

/-- The bits of the links of several peers. -/
theorem testBitmap_setLinks (links : PeerId → List PeerId) (rows : List (PeerId × ℕ))
    (hrows : ∀ row ∈ rows, row.2 < pids.length) {bitmap : Bytes}
    (hlen : pids.length * pids.length ≤ 8 * bitmap.length) {a b : ℕ} (ha : a < pids.length)
    (hb : b < pids.length) :
    testBitmap pids.length a b
        (rows.foldl (fun bitmap row => (links row.1).foldl (setLink pids row.2) bitmap) bitmap) =
          true ↔
      testBitmap pids.length a b bitmap = true ∨
        ∃ row ∈ rows, Linked pids row.2 (links row.1) a b := by
  induction rows generalizing bitmap with
  | nil => simp
  | cons row rows ih =>
    rw [List.forall_mem_cons] at hrows
    obtain ⟨hlength, hbits⟩ := testBitmap_setLink hnodup hn hrows.1 (links row.1) hlen
    rw [List.foldl_cons, ih hrows.2 (hlength.symm ▸ hlen), hbits a b ha hb, or_assoc]
    simp only [List.mem_cons, exists_eq_or_imp]

end Links

/-- The rows of a peer in a connection info. -/
def ConnInfo.rowsOf (conn : ConnInfo) (pid : PeerId) : List ConnRow :=
  (RouteGroupData.connInfoRows conn).filterMap fun row => if row.1 = pid then some ⟨row.2.1, row.2.2⟩ else none

namespace RouteGroupData

/-- A peer with one row among those of different peers. -/
theorem rowsOf_eq {conn : ConnInfo} {pids : List PeerId} {rows : PeerId → ConnRow}
    (hconn : connInfoRows conn = pids.map fun pid => (pid, (rows pid).version, (rows pid).connected))
    (hnodup : pids.Nodup) {pid : PeerId} (hpid : pid ∈ pids) : conn.rowsOf pid = [rows pid] := by
  have hrows : ∀ pids : List PeerId, pids.Nodup →
      (pids.map fun q => (q, (rows q).version, (rows q).connected)).filterMap
        (fun row => if row.1 = pid then some (⟨row.2.1, row.2.2⟩ : ConnRow) else none) =
          if pid ∈ pids then [rows pid] else [] := by
    intro pids
    induction pids with
    | nil => exact fun _ => rfl
    | cons q pids ih =>
      intro hnodup
      rw [List.nodup_cons] at hnodup
      rw [List.map_cons, List.filterMap_cons, ih hnodup.2]
      by_cases hq : q = pid
      · subst hq
        simp [hnodup.1]
      · simp [hq, Ne.symm hq]
  rw [ConnInfo.rowsOf, hconn, hrows pids hnodup, if_pos hpid]

/-- The rows that are read from the list of the peers: those that the relay has. -/
theorem connInfoRows_connPeerListOf (g : RouteGroupData) (pids : List PeerId) :
    connInfoRows (.connPeerList (g.connPeerListOf pids)) = pids.map fun pid =>
      (pid, (g.connRowFor pid).version, (g.connRowFor pid).connected) := by
  unfold connInfoRows connPeerListOf
  dsimp only
  rw [List.filterMap_map, ← List.filterMap_eq_map]
  refine List.filterMap_congr fun pid _ => ?_
  simp only [Function.comp_apply, Option.map_some, Option.some.injEq, Prod.mk.injEq, true_and]
  ext q
  rw [List.mem_toFinset, Finset.mem_ascending]

variable (g : RouteGroupData) {pids : List PeerId} (hnodup : pids.Nodup)
  (hn : pids.length ≤ maxLegacyBitmapPeers)

include hnodup hn

/-- The bit of two peers is set just when one of them names the other. -/
theorem testBitmap_connBitmapOf {i j : ℕ} {pid q : PeerId} (hi : pids[i]? = some pid)
    (hj : pids[j]? = some q) :
    testBitmap pids.length i j (g.connBitmapOf pids).bitmap = true ↔
      q ∈ (g.connRowFor pid).connected ∨ pid ∈ (g.connRowFor q).connected := by
  have hbitmap : (g.connBitmapOf pids).bitmap =
      pids.zipIdx.foldl
        (fun bitmap row => (g.connRowFor row.1).connected.ascending.foldl (setLink pids row.2) bitmap)
        (List.replicate ((pids.length * pids.length + 7) / 8) 0) := rfl
  have hrows : ∀ row ∈ pids.zipIdx, pids[row.2]? = some row.1 := by
    intro row hrow
    exact List.mem_zipIdx_iff_getElem?.1 hrow
  have hempty : testBitmap pids.length i j
      (List.replicate ((pids.length * pids.length + 7) / 8) 0) = false := by
    unfold testBitmap
    dsimp only
    rw [List.getElem?_replicate]
    split_ifs <;> simp
  have hlen : pids.length * pids.length ≤
      8 * (List.replicate ((pids.length * pids.length + 7) / 8) (0 : UInt8)).length := by
    rw [List.length_replicate]
    omega
  rw [hbitmap, testBitmap_setLinks hnodup hn (fun pid => (g.connRowFor pid).connected.ascending)
    pids.zipIdx (fun row hrow => (List.getElem?_eq_some_iff.1 (hrows row hrow)).1) hlen
    (List.getElem?_eq_some_iff.1 hi).1 (List.getElem?_eq_some_iff.1 hj).1, hempty]
  constructor
  · rintro (h | ⟨⟨p, k⟩, hrow, link, hlink, l, hl, hij⟩)
    · exact absurd h Bool.false_ne_true
    · have hk := hrows _ hrow
      rw [Finset.mem_ascending] at hlink
      dsimp only at hk hlink hij
      rcases hij with ⟨rfl, rfl⟩ | ⟨rfl, rfl⟩
      · obtain rfl := Option.some.inj (hk.symm.trans hi)
        obtain rfl := Option.some.inj (hl.symm.trans hj)
        exact .inl hlink
      · obtain rfl := Option.some.inj (hk.symm.trans hj)
        obtain rfl := Option.some.inj (hl.symm.trans hi)
        exact .inr hlink
  · rintro (h | h)
    · exact .inr ⟨(pid, i), List.mem_zipIdx_iff_getElem?.2 hi, q, Finset.mem_ascending.2 h, j, hj,
        .inl ⟨rfl, rfl⟩⟩
    · exact .inr ⟨(q, j), List.mem_zipIdx_iff_getElem?.2 hj, pid, Finset.mem_ascending.2 h, i, hi,
        .inr ⟨rfl, rfl⟩⟩

/-- The rows that are read from the bitmap of the peers: everyone that the owner names or
    that names the owner. -/
theorem connInfoRows_connBitmapOf :
    connInfoRows (.connBitmap (g.connBitmapOf pids)) = pids.map fun pid =>
      (pid, (g.connRowFor pid).version, (pids.filter fun q => q ≠ pid ∧
        (q ∈ (g.connRowFor pid).connected ∨ pid ∈ (g.connRowFor q).connected)).toFinset) := by
  let column (pid : PeerId) : PeerIdVersion := { peerId := pid, version := (g.connRowFor pid).version }
  have hcolumns : (g.connBitmapOf pids).peerIds = pids.map column := rfl
  unfold connInfoRows
  dsimp only
  refine List.ext_getElem? fun i => ?_
  rw [hcolumns, List.getElem?_map, List.getElem?_map, List.getElem?_zipIdx, List.getElem?_map,
    List.length_map]
  cases hi : pids[i]? with
  | none => rfl
  | some pid =>
    simp only [Option.map_some, Option.some.injEq, Prod.mk.injEq, column, true_and, Nat.zero_add]
    ext q
    rw [List.mem_toFinset, List.mem_toFinset, List.mem_filterMap, List.mem_filter,
      decide_eq_true_iff]
    constructor
    · rintro ⟨⟨pv, j⟩, hmem, hbit⟩
      rw [List.mem_zipIdx_iff_getElem?, List.getElem?_map] at hmem
      obtain ⟨other, hother, rfl⟩ := Option.map_eq_some_iff.1 hmem
      dsimp only at hbit hother
      split_ifs at hbit with hcond
      obtain rfl := Option.some.inj hbit
      refine ⟨List.mem_of_getElem? hother, fun heq => hcond.1 ?_, ?_⟩
      · -- The same peer has the same index.
        rw [heq, ← idxOf?_eq_some_iff_getElem? hnodup,
          (idxOf?_eq_some_iff_getElem? hnodup).2 hi] at hother
        exact Option.some.inj hother
      · exact (g.testBitmap_connBitmapOf hnodup hn hi hother).1 hcond.2
    · rintro ⟨hmem, hne, hlinked⟩
      obtain ⟨j, hj⟩ := List.mem_iff_getElem?.1 hmem
      refine ⟨(column q, j), ?_, ?_⟩
      · rw [List.mem_zipIdx_iff_getElem?, List.getElem?_map, hj]
        rfl
      · dsimp only
        rw [if_pos]
        refine ⟨?_, (g.testBitmap_connBitmapOf hnodup hn hi hj).2 hlinked⟩
        rintro rfl
        exact hne (Option.some.inj (hj.symm.trans hi))

end RouteGroupData

end EasyTierEdge
