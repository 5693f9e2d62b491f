import EasyTierEdge.Encoding
import EasyTierEdge.Lib.Except
import EasyTierEdge.Lib.Machine
import EasyTierEdge.Lib.SipHash
import EasyTierEdge.PeerCenter

/-!
# The digest of the global map

The peer center answers a request for the global map of a network with the map and its digest,
or, when the request names the current digest, that nothing has changed. The digest is the hash
of a stream of bytes, twelve for each pair of peers in ascending order.

* `hashInput_injective`: the stream tells the pairs and their latencies;
* `calcDigest_congr`: so the digest depends on these only;
* `DigestRight`: the digest of a group is that of its map, or the group has never been
  reported to. It is so in every reachable state;
* `digest_protocol`: "unchanged" is only answered when the map is the one there was when the
  digest was returned, as long as the hash tells the streams of the run apart.
-/

namespace EasyTierEdge

/-! ## The stream that is hashed -/

/-- What a pair and its info feed to the hash: `u32`, `u32` and `i32`, in the byte order of the
    machine, which is little-endian. -/
def SrcDstPeerPair.hashBytes (pair : SrcDstPeerPair) (info : DirectConnectedPeerInfo) : Bytes :=
  (ofLex pair).1.toLeBytes ++ (ofLex pair).2.toLeBytes ++ info.latencyMs.toUInt32.toLeBytes

/-- What a list of pairs feeds to the hash. -/
def hashInput (pairs : List (SrcDstPeerPair × DirectConnectedPeerInfo)) : Bytes :=
  pairs.flatMap fun p => p.1.hashBytes p.2

@[simp] theorem length_hashBytes (pair : SrcDstPeerPair) (info : DirectConnectedPeerInfo) :
    (pair.hashBytes info).length = 12 := rfl

theorem hashBytes_inj {pair pair' : SrcDstPeerPair} {info info' : DirectConnectedPeerInfo}
    (h : pair.hashBytes info = pair'.hashBytes info') : pair = pair' ∧ info = info' := by
  obtain ⟨hpair, hinfo⟩ := List.append_inj h rfl
  obtain ⟨hsrc, hdst⟩ := List.append_inj hpair rfl
  constructor
  · exact ofLex.injective
      (Prod.ext (UInt32.toLeBytes_injective hsrc) (UInt32.toLeBytes_injective hdst))
  · have hlatency := UInt32.toLeBytes_injective hinfo
    obtain ⟨⟨latency⟩⟩ := info
    obtain ⟨⟨latency'⟩⟩ := info'
    obtain rfl : latency = latency' := hlatency
    rfl

/-- Different lists of pairs feed different streams to the hash. -/
theorem hashInput_injective : Function.Injective hashInput := by
  intro l l' h
  induction l generalizing l' with
  | nil =>
    cases l' with
    | nil => rfl
    | cons p l' => simp [hashInput, SrcDstPeerPair.hashBytes, UInt32.toLeBytes] at h
  | cons p l ih =>
    cases l' with
    | nil => simp [hashInput, SrcDstPeerPair.hashBytes, UInt32.toLeBytes] at h
    | cons p' l' =>
      simp only [hashInput, List.flatMap_cons] at h
      -- Every pair takes twelve bytes.
      obtain ⟨hp, hl⟩ := List.append_inj h (by simp)
      obtain ⟨h₁, h₂⟩ := hashBytes_inj hp
      rw [Prod.ext h₁ h₂, ih hl]

namespace PeerCenterGroupData

variable {data data' : PeerCenterGroupData}

/-- The info of a pair. -/
def infoAt (data : PeerCenterGroupData) (pair : SrcDstPeerPair) : Option DirectConnectedPeerInfo :=
  (data.globalPeerMap.lookup pair).map (·.info)

/-- Two groups have the same pairs, with the same latencies. -/
def SameMap (data data' : PeerCenterGroupData) : Prop := ∀ pair, data.infoAt pair = data'.infoAt pair

/-- The pairs and their infos, in ascending order. -/
def contents (data : PeerCenterGroupData) : List (SrcDstPeerPair × DirectConnectedPeerInfo) :=
  data.globalPeerMap.keys.ascending.filterMap fun pair => (data.infoAt pair).map (pair, ·)

theorem calcDigest_eq (hash : PeerMapHash) : data.calcDigest hash = hash data.contents := by
  simp only [calcDigest, contents, infoAt, Option.map_map]
  rfl

theorem infoAt_eq_some_iff {pair : SrcDstPeerPair} {info : DirectConnectedPeerInfo} :
    data.infoAt pair = some info ↔ (pair, info) ∈ data.contents := by
  simp only [contents, List.mem_filterMap, Finset.mem_ascending, Option.map_eq_some_iff,
    Prod.mk.injEq]
  constructor
  · intro h
    obtain ⟨entry, hentry, -⟩ := Option.map_eq_some_iff.1 h
    exact ⟨pair, Finmap.mem_keys.2 (Finmap.mem_of_lookup_eq_some hentry), info, h, rfl, rfl⟩
  · rintro ⟨pair', -, info', h, rfl, rfl⟩
    exact h

theorem SameMap.keys (h : data.SameMap data') :
    data.globalPeerMap.keys = data'.globalPeerMap.keys := by
  ext pair
  have hpair := congrArg Option.isSome (h pair)
  simp only [infoAt, Option.isSome_map] at hpair
  rw [Finmap.mem_keys, Finmap.mem_keys, ← Finmap.lookup_isSome, ← Finmap.lookup_isSome, hpair]

theorem sameMap_iff : data.SameMap data' ↔ data.contents = data'.contents := by
  constructor
  · intro h
    rw [contents, contents, h.keys]
    exact List.filterMap_congr fun pair _ => by rw [h pair]
  · intro h pair
    ext info
    rw [infoAt_eq_some_iff, infoAt_eq_some_iff, h]

/-- The digest depends on the pairs and their latencies only. -/
theorem calcDigest_congr (hash : PeerMapHash) (h : data.SameMap data') :
    data.calcDigest hash = data'.calcDigest hash := by
  rw [calcDigest_eq, calcDigest_eq, sameMap_iff.1 h]

/-- The digest is that of the map, or the group is new. -/
def DigestRight (hash : PeerMapHash) (data : PeerCenterGroupData) : Prop :=
  data.digest = data.calcDigest hash ∨ data.digest = 0 ∧ data.globalPeerMap = ∅

theorem digestRight_default (hash : PeerMapHash) : DigestRight hash default := .inr ⟨rfl, rfl⟩

/-- The map lists exactly the pairs of the group, by their sources. -/
structure ListedBySource (data : PeerCenterGroupData)
    (map : List (UInt32 × PeerInfoForGlobalMap)) : Prop where
  mem_iff : ∀ src dst info, (∃ peers, (src, peers) ∈ map ∧ (dst, info) ∈ peers) ↔
    data.infoAt (toLex (src, dst)) = some info
  sources : (map.map Prod.fst).Nodup
  nonempty : ∀ src peers, (src, peers) ∈ map → peers ≠ []
  destinations : ∀ src peers, (src, peers) ∈ map → (peers.map Prod.fst).Nodup

/-- The direct peers of a source. -/
def peersOf (data : PeerCenterGroupData) (src : UInt32) : PeerInfoForGlobalMap :=
  data.globalPeerMap.keys.ascending.filterMap fun pair =>
    if (ofLex pair).1 = src then (data.infoAt pair).map ((ofLex pair).2, ·) else none

theorem peerMap_eq (data : PeerCenterGroupData) : data.peerMap =
    (data.globalPeerMap.keys.image fun pair => (ofLex pair).1).ascending.map
      fun src => (src, data.peersOf src) := by
  simp only [peerMap, peersOf, infoAt, Option.map_map]
  rfl

theorem mem_keys_of_infoAt {pair : SrcDstPeerPair} {info : DirectConnectedPeerInfo}
    (h : data.infoAt pair = some info) : pair ∈ data.globalPeerMap.keys := by
  obtain ⟨entry, hentry, -⟩ := Option.map_eq_some_iff.1 h
  exact Finmap.mem_keys.2 (Finmap.mem_of_lookup_eq_some hentry)

/-- A pair is listed under its source, by its destination. -/
theorem mem_peersOf {src dst : UInt32} {info : DirectConnectedPeerInfo} :
    (dst, info) ∈ data.peersOf src ↔ data.infoAt (toLex (src, dst)) = some info := by
  rw [peersOf, List.mem_filterMap]
  constructor
  · rintro ⟨pair, -, h⟩
    split_ifs at h with hsrc
    obtain ⟨info', hinfo, heq⟩ := Option.map_eq_some_iff.1 h
    obtain ⟨rfl, rfl⟩ := Prod.mk.inj heq
    subst hsrc
    exact hinfo
  · intro h
    exact ⟨toLex (src, dst), Finset.mem_ascending.2 (mem_keys_of_infoAt h), by simp [h]⟩

theorem nodup_peersOf (src : UInt32) : ((data.peersOf src).map Prod.fst).Nodup := by
  rw [peersOf, List.map_filterMap]
  refine (Finset.nodup_ascending _).filterMap fun pair pair' dst h h' => ?_
  -- The source and the destination tell the pair.
  have hpair : ∀ pair : SrcDstPeerPair, dst ∈ Option.map Prod.fst
      (if (ofLex pair).1 = src then (data.infoAt pair).map ((ofLex pair).2, ·) else none) →
      ofLex pair = (src, dst) := by
    intro pair h
    split_ifs at h with hsrc
    · rw [Option.map_map] at h
      obtain ⟨info, -, hdst⟩ := Option.map_eq_some_iff.1 h
      exact Prod.ext hsrc hdst
    · cases h
  exact ofLex.injective ((hpair pair h).trans (hpair pair' h').symm)

/-- A source is listed when it is the source of a pair. -/
theorem mem_sources_iff {src : UInt32} :
    src ∈ (data.globalPeerMap.keys.image fun pair => (ofLex pair).1) ↔
      ∃ dst info, data.infoAt (toLex (src, dst)) = some info := by
  rw [Finset.mem_image]
  constructor
  · rintro ⟨pair, hpair, rfl⟩
    obtain ⟨entry, hentry⟩ := Finmap.mem_iff.1 (Finmap.mem_keys.1 hpair)
    refine ⟨(ofLex pair).2, entry.info, ?_⟩
    change data.infoAt pair = some entry.info
    rw [infoAt, hentry, Option.map_some]
  · rintro ⟨dst, info, h⟩
    exact ⟨_, mem_keys_of_infoAt h, rfl⟩

/-- The map that is answered lists the pairs of the group. -/
theorem listedBySource_peerMap (data : PeerCenterGroupData) : data.ListedBySource data.peerMap := by
  have hmem : ∀ src peers, (src, peers) ∈ data.peerMap ↔
      (∃ dst info, data.infoAt (toLex (src, dst)) = some info) ∧ data.peersOf src = peers := by
    intro src peers
    rw [peerMap_eq, List.mem_map]
    constructor
    · rintro ⟨src', hsrc, heq⟩
      obtain ⟨rfl, rfl⟩ := Prod.mk.inj heq
      exact ⟨mem_sources_iff.1 (Finset.mem_ascending.1 hsrc), rfl⟩
    · rintro ⟨hsrc, rfl⟩
      exact ⟨src, Finset.mem_ascending.2 (mem_sources_iff.2 hsrc), rfl⟩
  refine ⟨fun src dst info => ?_, ?_, fun src peers h => ?_, fun src peers h => ?_⟩
  · constructor
    · rintro ⟨peers, h, hpeer⟩
      rw [← ((hmem src peers).1 h).2] at hpeer
      exact mem_peersOf.1 hpeer
    · intro h
      exact ⟨_, (hmem src _).2 ⟨⟨dst, info, h⟩, rfl⟩, mem_peersOf.2 h⟩
  · rw [peerMap_eq, List.map_map]
    exact (List.map_id _).symm ▸ Finset.nodup_ascending _
  · obtain ⟨⟨dst, info, hinfo⟩, rfl⟩ := (hmem src peers).1 h
    exact List.ne_nil_of_mem (mem_peersOf.2 hinfo)
  · obtain ⟨-, rfl⟩ := (hmem src peers).1 h
    exact nodup_peersOf src

end PeerCenterGroupData

/-! ## Runs -/

/-- The calls to a peer center. -/
inductive PeerCenterOp
  | reportPeers (network : String) (authenticatedPeerId : UInt32) (reportBytes : Bytes)
      (nowMs : UInt64)
  | getGlobalPeerMap (network : String) (requestBytes : Bytes)
  | removePeer (network : String) (peerId : UInt32)
  | cleanOutdated (ttlSec nowMs : UInt64)

/-- A call to a peer center: its state before, the call and what it returned. -/
abbrev PeerCenterEvent := Event PeerCenter PeerCenterOp (Except String Bytes)

namespace PeerCenter

/-- The state after a call that may have failed. -/
def settle (center : PeerCenter) :
    Except String (Bytes × PeerCenter) → PeerCenter × Except String Bytes
  | .ok (bytes, center') => (center', .ok bytes)
  | .error e => (center, .error e)

/-- The peer center as a machine. Nothing is returned by the calls that clean it up. -/
def machine (hash : PeerMapHash) (prost : Prost) :
    Machine PeerCenter PeerCenterOp (Except String Bytes) where
  init := ∅
  step center
    | .reportPeers network authenticatedPeerId reportBytes nowMs =>
      center.settle (center.reportPeers hash prost network authenticatedPeerId reportBytes nowMs)
    | .getGlobalPeerMap network requestBytes =>
      center.settle (center.getGlobalPeerMap prost network requestBytes)
    | .removePeer network peerId => (center.removePeer hash network peerId, .ok [])
    | .cleanOutdated ttlSec nowMs => (center.cleanOutdated hash ttlSec nowMs, .ok [])

/-- The group of a network; a new one when there is none. -/
def group (center : PeerCenter) (network : String) : PeerCenterGroupData :=
  (center.lookup network).getD default

variable {hash : PeerMapHash} {prost : Prost} {center : PeerCenter}

/-- The digests of all groups are right. -/
def DigestsRight (hash : PeerMapHash) (center : PeerCenter) : Prop :=
  ∀ network data, center.lookup network = some data → data.DigestRight hash

theorem DigestsRight.group (h : center.DigestsRight hash) (network : String) :
    (center.group network).DigestRight hash := by
  unfold PeerCenter.group
  cases hlookup : center.lookup network with
  | none => exact PeerCenterGroupData.digestRight_default hash
  | some data => exact h network data hlookup

theorem DigestsRight.insert (h : center.DigestsRight hash) (network : String)
    {data : PeerCenterGroupData} (hdata : data.DigestRight hash) :
    DigestsRight hash (center.insert network data) := by
  intro network' data' hlookup
  rw [Finmap.lookup_insert_ite] at hlookup
  split_ifs at hlookup
  · exact Option.some.inj hlookup ▸ hdata
  · exact h network' data' hlookup

/-- Every call leaves the digests right: what changes a map recalculates its digest. -/
theorem DigestsRight.step (h : center.DigestsRight hash) (op : PeerCenterOp) :
    DigestsRight hash ((machine hash prost).step center op).1 := by
  cases op with
  | reportPeers network authenticatedPeerId reportBytes nowMs =>
    simp only [machine, reportPeers]
    split
    · exact h
    · split_ifs
      · exact h
      · exact h.insert network (.inl rfl)
  | getGlobalPeerMap network requestBytes =>
    simp only [machine, getGlobalPeerMap]
    split
    · exact h
    · exact h.insert network (h.group network)
  | removePeer network peerId =>
    simp only [machine, removePeer]
    split
    · exact h
    · split_ifs
      · intro network' data hlookup
        rw [Finmap.lookup_erase_ite] at hlookup
        split_ifs at hlookup
        exact h network' data hlookup
      · exact h.insert network (.inl rfl)
  | cleanOutdated ttlSec nowMs =>
    intro network data hlookup
    simp only [machine, cleanOutdated, Finmap.lookup_retain, Finmap.lookup_mapValues] at hlookup
    obtain ⟨hmap, -⟩ := Option.filter_eq_some_iff.1 hlookup
    obtain ⟨data', -, rfl⟩ := Option.map_eq_some_iff.1 hmap
    exact .inl rfl

theorem digestsRight_of_reachable (h : (machine hash prost).Reachable center) :
    center.DigestsRight hash :=
  h.invariant (fun network data hlookup => by simp [machine] at hlookup)
    fun _ op hcenter => hcenter.step op

/-- What a request for the map of a network is answered with. -/
def answer (center : PeerCenter) (network : String) (request : GetGlobalPeerMapRequest) :
    GetGlobalPeerMapResponse :=
  if request.digest = (center.group network).digest && request.digest ≠ 0 then {}
  else
    { globalPeerMap := (center.group network).peerMap, digest := some (center.group network).digest }

/-- The request that a call for the map of a network is about. -/
def requestOf (prost : Prost) (e : PeerCenterEvent) : Option (String × GetGlobalPeerMapRequest) :=
  match e.input with
  | .getGlobalPeerMap network requestBytes =>
    (prost.decodeGetGlobalPeerMapRequest requestBytes).toOption.map (network, ·)
  | _ => none

/-- The digest that a call returned, with the network it is for. -/
def returned (prost : Prost) (e : PeerCenterEvent) : Option (String × UInt64) :=
  (requestOf prost e).bind fun (network, request) =>
    (e.pre.answer network request).digest.map (network, ·)

/-- The streams of the maps that were asked for in a run. -/
def streams (prost : Prost) (tr : List PeerCenterEvent) : List Bytes :=
  tr.filterMap fun e => (requestOf prost e).map fun (network, _) =>
    hashInput (e.pre.group network).contents

theorem mem_streams {tr : List PeerCenterEvent} {e : PeerCenterEvent} {network : String}
    {request : GetGlobalPeerMapRequest} (he : e ∈ tr)
    (h : requestOf prost e = some (network, request)) :
    hashInput (e.pre.group network).contents ∈ streams prost tr :=
  List.mem_filterMap.2 ⟨e, he, by rw [h, Option.map_some]⟩

/-- A request is answered rightly, given the calls before. -/
def AnsweredRightly (prost : Prost) (before : List PeerCenterEvent) (e : PeerCenterEvent) : Prop :=
  ∀ network request, requestOf prost e = some (network, request) →
    ∃ response, e.output = .ok (prost.encodeGetGlobalPeerMapResponse response) ∧
      (response = {} → ∀ e' ∈ before, returned prost e' = some (network, request.digest) →
        (e'.pre.group network).SameMap (e.pre.group network)) ∧
      (response ≠ {} → response.digest = some (e.pre.group network).digest ∧
        (e.pre.group network).ListedBySource response.globalPeerMap)

theorem output_of_requestOf {op : PeerCenterOp} {network : String}
    {request : GetGlobalPeerMapRequest}
    (h : requestOf prost ((machine hash prost).event center op) = some (network, request)) :
    ((machine hash prost).event center op).output =
      .ok (prost.encodeGetGlobalPeerMapResponse (center.answer network request)) := by
  cases op with
  | getGlobalPeerMap network' requestBytes =>
    simp only [requestOf, Machine.event, Option.map_eq_some_iff, Except.toOption_eq_some] at h
    obtain ⟨request', hdecode, heq⟩ := h
    obtain ⟨rfl, rfl⟩ := Prod.mk.inj heq
    simp only [Machine.event, machine, getGlobalPeerMap, hdecode, settle]
    rfl
  | reportPeers => cases h
  | removePeer => cases h
  | cleanOutdated => cases h

theorem requestOf_of_returned {e : PeerCenterEvent} {network : String} {digest : UInt64}
    (h : returned prost e = some (network, digest)) :
    ∃ request, requestOf prost e = some (network, request) := by
  simp only [returned, Option.bind_eq_some_iff, Option.map_eq_some_iff] at h
  obtain ⟨⟨network', request⟩, hrequest, digest', -, heq⟩ := h
  obtain ⟨rfl, -⟩ := Prod.mk.inj heq
  exact ⟨request, hrequest⟩

/-- A digest that is not `0` is returned when it is that of the map. -/
theorem digest_of_returned {e : PeerCenterEvent} (hcenter : e.pre.DigestsRight hash)
    {network : String} {digest : UInt64} (h : returned prost e = some (network, digest))
    (hne : digest ≠ 0) : hash (e.pre.group network).contents = digest := by
  simp only [returned, Option.bind_eq_some_iff, Option.map_eq_some_iff] at h
  obtain ⟨⟨network', request⟩, -, digest', hdigest, heq⟩ := h
  obtain ⟨rfl, rfl⟩ := Prod.mk.inj heq
  unfold answer at hdigest
  split_ifs at hdigest
  obtain rfl := Option.some.inj hdigest
  rcases hcenter.group network' with hright | ⟨hzero, -⟩
  · rw [hright, PeerCenterGroupData.calcDigest_eq]
  · exact absurd hzero hne

/-- "Unchanged" is answered when the request names the digest of the map. -/
theorem digest_of_unchanged (hcenter : center.DigestsRight hash) {network : String}
    {request : GetGlobalPeerMapRequest} (h : center.answer network request = {}) :
    hash (center.group network).contents = request.digest ∧ request.digest ≠ 0 := by
  unfold answer at h
  split_ifs at h with hunchanged
  · obtain ⟨hdigest, hne⟩ : request.digest = (center.group network).digest ∧ request.digest ≠ 0 := by
      simpa using hunchanged
    refine ⟨?_, hne⟩
    rcases hcenter.group network with hright | ⟨hzero, -⟩
    · rw [hdigest, hright, PeerCenterGroupData.calcDigest_eq]
    · exact absurd (hdigest.trans hzero) hne
  · have hnone := congrArg GetGlobalPeerMapResponse.digest h
    cases hnone

/-- In every run, the digest of every group is that of its map, which depends on the pairs and
    latencies only, or the group is new; and when the hash tells apart the streams of the run, a
    request is answered with "unchanged" only if the map is what it was when the digest was
    returned, and else with all its pairs. -/
theorem digest_protocol (hash : Bytes → UInt64) (prost : Prost) (ops : List PeerCenterOp)
    (hinj : ∀ b ∈ streams prost ((machine (hash ∘ hashInput) prost).history ∅ ops),
      ∀ b' ∈ streams prost ((machine (hash ∘ hashInput) prost).history ∅ ops),
        hash b = hash b' → b = b') :
    ((machine (hash ∘ hashInput) prost).run ∅ ops).DigestsRight (hash ∘ hashInput) ∧
      (∀ data data' : PeerCenterGroupData, data.SameMap data' →
        data.calcDigest (hash ∘ hashInput) = data'.calcDigest (hash ∘ hashInput)) ∧
      Along (AnsweredRightly prost) ((machine (hash ∘ hashInput) prost).history ∅ ops) := by
  have hreach : ∀ ops, (machine (hash ∘ hashInput) prost).Reachable
      ((machine (hash ∘ hashInput) prost).run ∅ ops) := fun ops => ⟨ops, rfl⟩
  refine ⟨digestsRight_of_reachable (hreach ops),
    fun data data' h => PeerCenterGroupData.calcDigest_congr _ h, ?_⟩
  have hright : ∀ e ∈ (machine (hash ∘ hashInput) prost).history ∅ ops,
      e.pre.DigestsRight (hash ∘ hashInput) := by
    intro e he
    obtain ⟨before, after, hsplit⟩ := List.append_of_mem he
    obtain ⟨js, i, ks, -, -, rfl⟩ := Machine.history_split hsplit
    exact digestsRight_of_reachable (hreach js)
  intro before e after hsplit network request hrequest
  obtain ⟨js, i, ks, -, hbefore, rfl⟩ := Machine.history_split hsplit
  have hmem : ∀ e' ∈ before, e' ∈ (machine (hash ∘ hashInput) prost).history ∅ ops := by
    intro e' he'
    rw [hsplit]
    exact List.mem_append_left _ he'
  have hself : (machine (hash ∘ hashInput) prost).event
      ((machine (hash ∘ hashInput) prost).run ∅ js) i ∈
        (machine (hash ∘ hashInput) prost).history ∅ ops := by
    rw [hsplit]
    exact List.mem_append_right _ List.mem_cons_self
  refine ⟨_, output_of_requestOf hrequest, fun hunchanged e' he' hreturned => ?_, fun hfull => ?_⟩
  · -- Both maps have the digest of the request, so they feed the same stream to the hash.
    obtain ⟨hnow, hne⟩ := digest_of_unchanged (hright _ hself) hunchanged
    have hthen := digest_of_returned (hright e' (hmem e' he')) hreturned hne
    rw [PeerCenterGroupData.sameMap_iff]
    obtain ⟨request', hrequest'⟩ := requestOf_of_returned hreturned
    exact hashInput_injective (hinj _ (mem_streams (hmem e' he') hrequest') _
      (mem_streams hself hrequest) (hthen.trans hnow.symm))
  · unfold answer at hfull ⊢
    split_ifs at hfull ⊢ with hguard
    · exact absurd rfl hfull
    · exact ⟨rfl, PeerCenterGroupData.listedBySource_peerMap _⟩

/-! ## A run to try -/

namespace DigestSample

/-- The digest of the map in which the peer `2` reaches the peer `3` in ten milliseconds. -/
def digest : UInt64 := SipHash.hash (hashInput [(toLex (2, 3), ⟨10⟩)])

def reports : List ReportPeersRequest := [⟨2, some [(3, ⟨10⟩)]⟩, ⟨2, some [(3, ⟨20⟩)]⟩]

def requests : List GetGlobalPeerMapRequest := [⟨0⟩, ⟨digest⟩]

def codec : Prost := Prost.listedForPeerCenter reports requests

def report (i : ℕ) (nowMs : UInt64) : PeerCenterOp :=
  .reportPeers "net" 2 (Encoding.reportPeersRequest (reports.getD i ⟨0, none⟩)) nowMs

def get (digest : UInt64) : PeerCenterOp :=
  .getGlobalPeerMap "net" (Encoding.getGlobalPeerMapRequest ⟨digest⟩)

/-- A peer reports a latency, and another one after a while; it leaves, and is back with the
    first one. -/
def ops : List PeerCenterOp :=
  [get 0, report 0 1000, get 0, get digest, report 1 2000, get digest, .removePeer "net" 2,
    get digest, report 0 3000, get digest, .cleanOutdated 1 5000, get digest]

end DigestSample

open DigestSample in
/-- The first digest is found unchanged twice: at once, and when the map is back to what it was. -/
theorem digest_protocol_sample :
    ((machine (SipHash.hash ∘ hashInput) codec).history ∅ ops).filterMap (returned codec) =
        [("net", 0), ("net", digest), ("net", SipHash.hash (hashInput [(toLex (2, 3), ⟨20⟩)])),
          ("net", 0), ("net", 0)] ∧
      Along (AnsweredRightly codec) ((machine (SipHash.hash ∘ hashInput) codec).history ∅ ops) :=
  ⟨by decide +kernel, (digest_protocol SipHash.hash codec ops (by decide +kernel)).2.2⟩

end PeerCenter

end EasyTierEdge
