import EasyTierEdge.Route.Bitmap
import EasyTierEdge.Route.State
import EasyTierEdge.Rpc.Fragments

/-!
# Rows in two encodings

The rows of the peers are sent as a list or, to a peer that does not read lists, as a
bitmap. A bitmap has every link in both directions, so the row of a peer that is named but
does not name back has more neighbours in the bitmap than in the list, under the same
version.

* `encodings_agree_iff`: the rows of the bitmap are those of the list, without the
  neighbours that have no row, just when the links are mutual;
* `bitmap_row_exact_iff`: on the side that reads a bitmap, the index of a bit is one of `32`
  bits. The row that is read is that of the bitmap unless the index of a bit of its wraps.
-/

namespace EasyTierEdge

namespace RouteGroupData

variable {g : RouteGroupData} {pids : List PeerId}

/-- The links between the peers are mutual: each names those that name it. -/
def Mutual (g : RouteGroupData) (pids : List PeerId) : Prop :=
  ∀ pid ∈ pids, ∀ q ∈ pids, pid ∈ (g.connRowFor q).connected → q ∈ (g.connRowFor pid).connected

instance decidableMutual (g : RouteGroupData) (pids : List PeerId) : Decidable (g.Mutual pids) :=
  have : DecidablePred fun pid => ∀ q ∈ pids, pid ∈ (g.connRowFor q).connected →
      q ∈ (g.connRowFor pid).connected := fun _ => List.decidableBAll _ _
  List.decidableBAll _ _

/-- A row with its neighbours among the peers, without its owner. -/
def amongPeers (pids : List PeerId) (row : PeerId × UInt32 × Finset PeerId) :
    PeerId × UInt32 × Finset PeerId :=
  (row.1, row.2.1, row.2.2.filter fun q => q ∈ pids ∧ q ≠ row.1)

/-- The rows of the bitmap and of the list are the same just when the links are mutual. -/
theorem connInfoRows_bitmap_eq_list_iff (g : RouteGroupData) (hnodup : pids.Nodup)
    (hlength : pids.length ≤ maxLegacyBitmapPeers) :
    connInfoRows (.connBitmap (g.connBitmapOf pids)) =
      (connInfoRows (.connPeerList (g.connPeerListOf pids))).map (amongPeers pids) ↔
        g.Mutual pids := by
  rw [g.connInfoRows_connBitmapOf hnodup hlength, g.connInfoRows_connPeerListOf, List.map_map,
    List.map_inj_left]
  refine forall₂_congr fun pid hpid => ?_
  rw [Function.comp_apply, amongPeers, Prod.mk.injEq, Prod.mk.injEq, Finset.ext_iff]
  simp only [true_and, List.mem_toFinset, List.mem_filter, Finset.mem_filter, decide_eq_true_iff]
  constructor
  · intro hrows q hq hnames
    by_cases heq : q = pid
    · exact heq ▸ hnames
    · exact ((hrows q).1 ⟨hq, heq, .inr hnames⟩).1
  · intro hmutual q
    constructor
    · rintro ⟨hq, hne, hnamed | hnames⟩
      · exact ⟨hnamed, hq, hne⟩
      · exact ⟨hmutual q hq hnames, hq, hne⟩
    · rintro ⟨hnamed, hq, hne⟩
      exact ⟨hq, hne, .inl hnamed⟩

section Built

variable {myPeerId targetPeerId : PeerId} {nowMs : UInt64}
  (hsession : (g.sessions.lookup targetPeerId).any (·.hasTopology g.topologyVersion nowMs) = false)

include hsession

theorem buildConnInfo_fresh_list (hcache : g.cachedConnPeerList = none) :
    (g.buildConnInfo (g.relevantPeers myPeerId targetPeerId) targetPeerId true nowMs).1 =
      .ok (some (.connPeerList (g.connPeerListOf (g.relevantPeers myPeerId targetPeerId)))) := by
  unfold buildConnInfo
  rw [isEmpty_relevantPeers, hsession, hcache]
  rfl

theorem buildConnInfo_fresh_bitmap (hcache : g.cachedConnBitmap = none)
    (hlength : (g.relevantPeers myPeerId targetPeerId).length ≤ maxLegacyBitmapPeers) :
    (g.buildConnInfo (g.relevantPeers myPeerId targetPeerId) targetPeerId false nowMs).1 =
      .ok (some (.connBitmap (g.connBitmapOf (g.relevantPeers myPeerId targetPeerId)))) := by
  unfold buildConnInfo
  rw [isEmpty_relevantPeers, hsession, hcache]
  dsimp only [Option.filter_none]
  rw [if_neg Bool.false_ne_true, if_neg Bool.false_ne_true, if_neg Bool.false_ne_true,
    if_neg (Nat.not_lt.2 hlength)]

end Built

/-- For a peer that has not acknowledged the topology, with empty caches, the relay sends
    the same rows in both encodings just when the links between the peers of the update are
    mutual. -/
theorem encodings_agree_iff (g : RouteGroupData) (myPeerId targetPeerId : PeerId) (nowMs : UInt64)
    (hlength : (g.relevantPeers myPeerId targetPeerId).length ≤ maxLegacyBitmapPeers)
    (hlist : g.cachedConnPeerList = none) (hbitmap : g.cachedConnBitmap = none)
    (hsession : (g.sessions.lookup targetPeerId).any (·.hasTopology g.topologyVersion nowMs) =
      false) :
    ∃ bitmap list,
      (g.buildConnInfo (g.relevantPeers myPeerId targetPeerId) targetPeerId false nowMs).1 =
        .ok (some (.connBitmap bitmap)) ∧
      (g.buildConnInfo (g.relevantPeers myPeerId targetPeerId) targetPeerId true nowMs).1 =
        .ok (some (.connPeerList list)) ∧
      (connInfoRows (.connBitmap bitmap) =
          (connInfoRows (.connPeerList list)).map (amongPeers (g.relevantPeers myPeerId targetPeerId)) ↔
        g.Mutual (g.relevantPeers myPeerId targetPeerId)) :=
  ⟨_, _, buildConnInfo_fresh_bitmap hsession hbitmap hlength, buildConnInfo_fresh_list hsession hlist,
    g.connInfoRows_bitmap_eq_list_iff (Finset.nodup_ascending _) hlength⟩

end RouteGroupData

namespace EncodingSample

open RoutesSample RouteGroupData

/-- Two peers come and report: the second one names the first one, and the first one these
    peers. -/
def group (named : List PeerId) : RouteGroupData :=
  (routesAfter [report 1 1 [row 1 1 named], report 2 1 [row 2 1 [1, relay]]]
    [join 1 0, join 2 0, reporting (report 1 1 [row 1 1 named]) 10,
      reporting (report 2 1 [row 2 1 [1, relay]]) 20]).ensureGroup "net" draws

/-- The rows of both encodings of an update for the first peer. -/
def rowsOf (g : RouteGroupData) (list : Bool) : List (PeerId × UInt32 × Finset PeerId) :=
  match (g.buildConnInfo (g.relevantPeers relay 1) 1 list 30).1 with
  | .ok (some conn) => connInfoRows conn
  | _ => []

/-- When the first peer names the second one. -/
theorem encodings_agree_iff_mutual :
    (group [2, relay]).Mutual ((group [2, relay]).relevantPeers relay 1) ∧
      ∃ bitmap list,
        ((group [2, relay]).buildConnInfo ((group [2, relay]).relevantPeers relay 1) 1 false 30).1 =
          .ok (some (.connBitmap bitmap)) ∧
        ((group [2, relay]).buildConnInfo ((group [2, relay]).relevantPeers relay 1) 1 true 30).1 =
          .ok (some (.connPeerList list)) ∧
        connInfoRows (.connBitmap bitmap) = (connInfoRows (.connPeerList list)).map
          (RouteGroupData.amongPeers ((group [2, relay]).relevantPeers relay 1)) := by
  have hmutual : (group [2, relay]).Mutual ((group [2, relay]).relevantPeers relay 1) := by
    decide +kernel
  obtain ⟨bitmap, list, hbitmap, hlist, hiff⟩ := RouteGroupData.encodings_agree_iff
    (group [2, relay]) relay 1 30 (by decide +kernel) (by decide +kernel) (by decide +kernel)
    (by decide +kernel)
  exact ⟨hmutual, bitmap, list, hbitmap, hlist, hiff.2 hmutual⟩

/-- When it does not, the bitmap has the second peer in the first one's row of version `1`,
    which it never reported. -/
theorem encodings_disagree :
    (group [relay]).cachedConnPeerList = none ∧ (group [relay]).cachedConnBitmap = none ∧
      rowsOf (group [relay]) true =
        [(1, 1, {relay}), (2, 1, {1, relay}), (relay, 2, {1, 2})] ∧
      rowsOf (group [relay]) false =
        [(1, 1, {2, relay}), (2, 1, {1, relay}), (relay, 2, {1, 2})] := by
  decide +kernel

end EncodingSample

/-! ## Reading a bitmap -/

/-- The peers of the marked columns, without the column `i`. -/
def markedPeers (peerIds : List PeerIdVersion) (i : ℕ) (marked : ℕ → Bool) : Finset PeerId :=
  (peerIds.zipIdx.filterMap fun (other, j) =>
    if i ≠ j ∧ marked j then some other.peerId else none).toFinset

/-- The neighbours in the row `i` of a bitmap, whatever its size. -/
def rowOf (b : RouteConnBitmap) (i : ℕ) : Finset PeerId :=
  markedPeers b.peerIds i fun j => bitAt b.bitmap (i * b.peerIds.length + j)

theorem mem_markedPeers {peerIds : List PeerIdVersion} {i : ℕ} {marked : ℕ → Bool} {q : PeerId} :
    q ∈ markedPeers peerIds i marked ↔
      ∃ j other, peerIds[j]? = some other ∧ i ≠ j ∧ marked j = true ∧ other.peerId = q := by
  rw [markedPeers, List.mem_toFinset, List.mem_filterMap]
  constructor
  · rintro ⟨⟨other, j⟩, hmem, hq⟩
    dsimp only at hq
    split_ifs at hq with hmarked
    exact ⟨j, other, List.mem_zipIdx_iff_getElem?.1 hmem, hmarked.1, hmarked.2, Option.some.inj hq⟩
  · rintro ⟨j, other, hj, hne, hmarked, rfl⟩
    refine ⟨(other, j), List.mem_zipIdx_iff_getElem?.2 hj, ?_⟩
    dsimp only
    rw [if_pos ⟨hne, hmarked⟩]

/-- The row `i` as it is read, with indices of `32` bits. -/
theorem getElem?_connInfoRows_bitmap {b : RouteConnBitmap} {i : ℕ} {pv : PeerIdVersion}
    (hi : b.peerIds[i]? = some pv) :
    (RouteGroupData.connInfoRows (.connBitmap b))[i]? =
      some (pv.peerId, pv.version, markedPeers b.peerIds i fun j =>
        bitAt b.bitmap ((i * b.peerIds.length + j) % 2 ^ 32)) := by
  unfold RouteGroupData.connInfoRows
  dsimp only
  rw [List.getElem?_map, List.getElem?_zipIdx, hi, Nat.zero_add]
  rfl

/-- A bit beyond the bytes of a bitmap is not set. -/
theorem bitAt_eq_false {bitmap : Bytes} {k : ℕ} (h : 8 * bitmap.length ≤ k) :
    bitAt bitmap k = false := by
  rw [bitAt, List.getElem?_eq_none (by omega)]
  rfl

/-- The row of a peer that is read from a bitmap that fits in a request is that of the bitmap
    just when everyone whose bit has an index that wraps, and is set where it wraps to, is in
    the row anyway. -/
theorem bitmap_row_exact_iff (b : RouteConnBitmap) (hfits : b.bitmap.length ≤ maxPendingBytes)
    (i : ℕ) (pv : PeerIdVersion) (hi : b.peerIds[i]? = some pv) :
    (RouteGroupData.connInfoRows (.connBitmap b))[i]? = some (pv.peerId, pv.version, rowOf b i) ↔
      ∀ j other, b.peerIds[j]? = some other → i ≠ j → 2 ^ 32 ≤ i * b.peerIds.length + j →
        bitAt b.bitmap ((i * b.peerIds.length + j) % 2 ^ 32) = true → other.peerId ∈ rowOf b i := by
  have hbound : 8 * b.bitmap.length ≤ 2 ^ 32 := by
    unfold maxPendingBytes at hfits
    omega
  rw [getElem?_connInfoRows_bitmap hi, Option.some.injEq, Prod.mk.injEq, Prod.mk.injEq]
  simp only [true_and]
  constructor
  · intro heq j other hj hne _ hbit
    rw [← heq, mem_markedPeers]
    exact ⟨j, other, hj, hne, hbit, rfl⟩
  · intro hwrapped
    ext q
    rw [mem_markedPeers]
    constructor
    · rintro ⟨j, other, hj, hne, hbit, rfl⟩
      by_cases hlt : i * b.peerIds.length + j < 2 ^ 32
      · rw [Nat.mod_eq_of_lt hlt] at hbit
        exact mem_markedPeers.2 ⟨j, other, hj, hne, hbit, rfl⟩
      · exact hwrapped j other hj hne (Nat.le_of_not_lt hlt) hbit
    · intro hq
      obtain ⟨j, other, hj, hne, hbit, heq⟩ := mem_markedPeers.1 hq
      -- A bit that is set is within the bytes, and its index does not wrap.
      have hlt : i * b.peerIds.length + j < 2 ^ 32 := by
        by_contra hge
        rw [bitAt_eq_false (hbound.trans (Nat.le_of_not_lt hge))] at hbit
        exact Bool.false_ne_true hbit
      refine ⟨j, other, hj, hne, ?_, heq⟩
      rw [Nat.mod_eq_of_lt hlt]
      exact hbit

namespace BitmapSample

/-- A bitmap of `n + 2` peers: the first one, `n` peers without an id, and the sender. Of its
    bits the last one is set, and no other. -/
def bitmap (n bytes : ℕ) : RouteConnBitmap where
  peerIds := ⟨5, 1⟩ :: (List.replicate n ⟨0, 0⟩ ++ [⟨7, 1⟩])
  bitmap := List.replicate bytes (0 : UInt8) ++ [1]

/-- A request of the sender with a bitmap. -/
def request (b : RouteConnBitmap) : SyncRouteInfoRequest where
  myPeerId := 7
  mySessionId := 3
  isInitiator := true
  peerInfos := none
  connInfo := some (.connBitmap b)

theorem length_peerIds (n bytes : ℕ) : (bitmap n bytes).peerIds.length = n + 2 := by
  simp [bitmap]

theorem length_bitmap (n bytes : ℕ) : (bitmap n bytes).bitmap.length = bytes + 1 := by
  simp [bitmap]

theorem getElem?_sender (n bytes : ℕ) : (bitmap n bytes).peerIds[n + 1]? = some ⟨7, 1⟩ := by
  simp [bitmap]

theorem bitAt_last (n bytes : ℕ) : bitAt (bitmap n bytes).bitmap (8 * bytes) = true := by
  have hmod : 8 * bytes % 8 = 0 := Nat.mul_mod_right 8 bytes
  have hdiv : 8 * bytes / 8 = bytes := Nat.mul_div_cancel_left bytes (by norm_num)
  rw [bitAt, hmod, hdiv]
  simp [bitmap]

/-- With eight peers no index wraps, and the last bit is that of the column `0` in the row of
    the sender. -/
theorem bitmap_row_exact_iff_small :
    (bitmap 6 7).bitmap.length ≤ maxPendingBytes ∧ rowOf (bitmap 6 7) 7 = {5} ∧
      (RouteGroupData.connInfoRows (.connBitmap (bitmap 6 7)))[7]? =
        some (7, 1, rowOf (bitmap 6 7) 7) := by
  have hfits : (bitmap 6 7).bitmap.length ≤ maxPendingBytes := by decide
  refine ⟨hfits, by decide +kernel, (bitmap_row_exact_iff (bitmap 6 7) hfits 7 ⟨7, 1⟩ rfl).2 ?_⟩
  intro j other hj _ hwraps
  have hlt : j < 8 := (List.getElem?_eq_some_iff.1 hj).1
  rw [length_peerIds] at hwraps
  omega

/-- With `65537` peers, of which the sender has the index `65536`, the bit `65536` is in the
    row of the second peer. The row of the sender is beyond the bytes of the bitmap, but this
    bit is read as its column `0`. -/
theorem bitmap_row_wraps :
    (Encoding.syncRouteInfoRequest (request (bitmap 65535 8192))).length ≤ maxPendingBytes ∧
      (bitmap 65535 8192).peerIds[65536]? = some ⟨7, 1⟩ ∧
      rowOf (bitmap 65535 8192) 65536 = ∅ ∧
      ∃ row, (RouteGroupData.connInfoRows (.connBitmap (bitmap 65535 8192)))[65536]? =
        some (7, 1, row) ∧ 5 ∈ row := by
  have hsender := getElem?_sender 65535 8192
  refine ⟨?_, hsender, ?_, _, getElem?_connInfoRows_bitmap hsender, ?_⟩
  · refine (Encoding.length_syncRouteInfoRequest_le rfl rfl).trans ?_
    rw [length_peerIds, length_bitmap]
    decide
  · refine Finset.eq_empty_of_forall_notMem fun q hq => ?_
    obtain ⟨j, other, -, -, hbit, -⟩ := mem_markedPeers.1 hq
    rw [length_peerIds, bitAt_eq_false (by rw [length_bitmap]; omega)] at hbit
    exact Bool.false_ne_true hbit
  · refine mem_markedPeers.2 ⟨0, ⟨5, 1⟩, rfl, by decide, ?_, rfl⟩
    rw [length_peerIds]
    exact bitAt_last 65535 8192

end BitmapSample

end EasyTierEdge
