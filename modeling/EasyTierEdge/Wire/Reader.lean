import EasyTierEdge.Route.Sync

/-!
# Reading hand-written protobuf

`read_varint` of `wasm/src/route_state.rs`, the inverse of `push_varint`, and a message read as
pairs of a tag and a length (`readFields`).

* `readVarint_pushVarint`: a varint is read back, at any place of a message;
* `readVarint_prefix`: one that is cut off is not read;
* `readFields_flatMap`: length-delimited fields are read back in order.
-/

namespace EasyTierEdge

/-- The loop of `read_varint`: the value, if there is one, and the place after it. -/
def readVarintFrom (bytes : Bytes) (pos : ℕ) (value : UInt64) (shift : ℕ) : Option UInt64 × ℕ :=
  match bytes[pos]? with
  | none => (none, pos)
  | some byte =>
    let value := value ||| ((byte &&& 0x7f).toUInt64 <<< UInt64.ofNat shift)
    if byte &&& 0x80 = 0 then (some value, pos + 1)
    else if 64 ≤ shift + 7 then (none, pos + 1)
    else readVarintFrom bytes (pos + 1) value (shift + 7)
termination_by 64 - shift

def readVarint (bytes : Bytes) (pos : ℕ) : Option UInt64 × ℕ := readVarintFrom bytes pos 0 0

/-! ## Bytes of a varint -/

theorem toNat_lowBits (w : UInt64) : (w &&& 0x7f).toUInt8.toNat = w.toNat % 128 := by
  have hmask : (0x7f : UInt64).toNat = 2 ^ 7 - 1 := rfl
  rw [UInt64.toNat_toUInt8, UInt64.toNat_and, hmask, Nat.and_two_pow_sub_one_eq_mod]
  omega

theorem toNat_shiftRight_seven (w : UInt64) : (w >>> 7).toNat = w.toNat / 128 := by
  rw [UInt64.toNat_shiftRight, show (7 : UInt64).toNat % 64 = 7 from rfl, Nat.shiftRight_eq_div_pow]

/-- The last byte of a varint carries its value, and ends it. -/
theorem lastByte {b : UInt8} (h : b.toNat < 128) : (b &&& 0x7f).toNat = b.toNat ∧ b &&& 0x80 = 0 := by
  have hall : ∀ n : Fin 128, (UInt8.ofNat n &&& 0x7f).toNat = n ∧ UInt8.ofNat n &&& 0x80 = 0 := by
    decide +kernel
  simpa using hall ⟨b.toNat, h⟩

/-- The other bytes carry their value, and more follow. -/
theorem otherByte {b : UInt8} (h : b.toNat < 128) :
    ((b ||| 0x80) &&& 0x7f).toNat = b.toNat ∧ (b ||| 0x80) &&& 0x80 ≠ 0 := by
  have hall : ∀ n : Fin 128, ((UInt8.ofNat n ||| 0x80) &&& 0x7f).toNat = n ∧
      (UInt8.ofNat n ||| 0x80) &&& 0x80 ≠ 0 := by decide +kernel
  simpa using hall ⟨b.toNat, h⟩

/-- Seven more bits of a value. -/
theorem toNat_or_shiftLeft {value : UInt64} {b : UInt8} {shift : ℕ} (hshift : shift < 64)
    (hvalue : value.toNat < 2 ^ shift) (hfits : (b &&& 0x7f).toNat * 2 ^ shift < 2 ^ 64) :
    (value ||| ((b &&& 0x7f).toUInt64 <<< UInt64.ofNat shift)).toNat =
      value.toNat + (b &&& 0x7f).toNat * 2 ^ shift := by
  have hamount : (UInt64.ofNat shift).toNat % 64 = shift := by
    rw [UInt64.toNat_ofNat', Nat.mod_eq_of_lt (a := shift) (by omega), Nat.mod_eq_of_lt hshift]
  rw [UInt64.toNat_or, UInt64.toNat_shiftLeft, UInt8.toNat_toUInt64, hamount,
    Nat.mod_eq_of_lt (by rw [Nat.shiftLeft_eq]; exact hfits), Nat.or_comm,
    ← Nat.shiftLeft_add_eq_or_of_lt hvalue, Nat.shiftLeft_eq, Nat.add_comm]

/-! ## Varints -/

/-- The loop reads a varint back above what it has read so far. -/
theorem readVarintFrom_pushVarint (w : UInt64) (before after : Bytes) (value : UInt64) {shift : ℕ}
    (hshift : shift < 64) (hvalue : value.toNat < 2 ^ shift) (hfits : w.toNat * 2 ^ shift < 2 ^ 64) :
    readVarintFrom (before ++ pushVarint w ++ after) before.length value shift =
      (some (UInt64.ofNat (value.toNat + w.toNat * 2 ^ shift)),
        before.length + (pushVarint w).length) := by
  induction w using pushVarint.induct generalizing before value shift with
  | case1 w hlast =>
    have hsmall : w.toNat < 128 := by
      have hzero := congrArg UInt64.toNat hlast
      rw [toNat_shiftRight_seven, UInt64.toNat_zero] at hzero
      omega
    have hbyte : (w &&& 0x7f).toUInt8.toNat = w.toNat := by
      rw [toNat_lowBits, Nat.mod_eq_of_lt hsmall]
    obtain ⟨hvalueOf, hend⟩ := lastByte (hbyte.trans_lt hsmall)
    rw [hbyte] at hvalueOf
    have hget : (before ++ pushVarint w ++ after)[before.length]? = some (w &&& 0x7f).toUInt8 := by
      rw [pushVarint, dif_pos hlast]
      simp
    rw [readVarintFrom, hget]
    dsimp only
    rw [if_pos hend, pushVarint, dif_pos hlast, List.length_singleton]
    refine Prod.ext (congrArg some (UInt64.toNat.inj ?_)) rfl
    rw [toNat_or_shiftLeft hshift hvalue (by rw [hvalueOf]; exact hfits), hvalueOf,
      UInt64.toNat_ofNat', Nat.mod_eq_of_lt]
    -- The bits do not meet those that were read before.
    calc value.toNat + w.toNat * 2 ^ shift < 2 ^ shift + w.toNat * 2 ^ shift := by omega
      _ = (w.toNat + 1) * 2 ^ shift := by ring
      _ ≤ 2 ^ 64 := ?_
    have hsplit : 2 ^ 64 = 2 ^ (64 - shift) * 2 ^ shift := by
      rw [← pow_add, Nat.sub_add_cancel hshift.le]
    rw [hsplit] at hfits ⊢
    exact Nat.mul_le_mul_right _ (Nat.lt_of_mul_lt_mul_right hfits)
  | case2 w hmore ih =>
    have hbig : 128 ≤ w.toNat := by
      by_contra hsmall
      refine hmore (UInt64.toNat.inj ?_)
      rw [toNat_shiftRight_seven, UInt64.toNat_zero]
      omega
    have hbyte := toNat_lowBits w
    have hrem : w.toNat % 128 < 128 := Nat.mod_lt _ (by norm_num)
    obtain ⟨hvalueOf, hgoes⟩ := otherByte (hbyte.trans_lt hrem)
    rw [hbyte] at hvalueOf
    have hget : (before ++ pushVarint w ++ after)[before.length]? =
        some ((w &&& 0x7f).toUInt8 ||| 0x80) := by
      rw [pushVarint, dif_neg hmore]
      simp
    have hpow : 2 ^ (shift + 7) = 128 * 2 ^ shift := by rw [pow_add]; ring
    -- There is room for seven more bits.
    have hshift' : shift + 7 < 64 := by
      by_contra hover
      have hle : 2 ^ 64 ≤ 2 ^ (shift + 7) := Nat.pow_le_pow_right (by norm_num) (Nat.not_lt.1 hover)
      have hge : 128 * 2 ^ shift ≤ w.toNat * 2 ^ shift := Nat.mul_le_mul_right _ hbig
      omega
    have hlow : w.toNat % 128 * 2 ^ shift < 2 ^ 64 :=
      (Nat.mul_le_mul_right _ (Nat.mod_le _ _)).trans_lt hfits
    have hread := toNat_or_shiftLeft (b := (w &&& 0x7f).toUInt8 ||| 0x80) hshift hvalue
      (by rw [hvalueOf]; exact hlow)
    rw [hvalueOf] at hread
    rw [readVarintFrom, hget]
    dsimp only
    rw [if_neg hgoes, if_neg (Nat.not_le.2 hshift')]
    have hlist : before ++ pushVarint w ++ after =
        (before ++ [(w &&& 0x7f).toUInt8 ||| 0x80]) ++ pushVarint (w >>> 7) ++ after := by
      rw [pushVarint, dif_neg hmore]
      simp
    have hlength : before.length + 1 = (before ++ [(w &&& 0x7f).toUInt8 ||| 0x80]).length := by simp
    rw [hlist, hlength, ih _ _ hshift' ?_ ?_]
    · refine Prod.ext (congrArg (some <| UInt64.ofNat ·) ?_) ?_
      · rw [hread, toNat_shiftRight_seven, hpow]
        have hdivmod := Nat.div_add_mod w.toNat 128
        calc value.toNat + w.toNat % 128 * 2 ^ shift + w.toNat / 128 * (128 * 2 ^ shift)
            = value.toNat + (128 * (w.toNat / 128) + w.toNat % 128) * 2 ^ shift := by ring
          _ = value.toNat + w.toNat * 2 ^ shift := by rw [hdivmod]
      · rw [pushVarint.eq_def w, dif_neg hmore]
        simp
        omega
    · rw [hread, hpow]
      have hterm : w.toNat % 128 * 2 ^ shift ≤ 127 * 2 ^ shift := Nat.mul_le_mul_right _ (by omega)
      omega
    · rw [toNat_shiftRight_seven, hpow]
      refine lt_of_le_of_lt ?_ hfits
      calc w.toNat / 128 * (128 * 2 ^ shift) = w.toNat / 128 * 128 * 2 ^ shift := by ring
        _ ≤ w.toNat * 2 ^ shift := Nat.mul_le_mul_right _ (Nat.div_mul_le_self _ _)

/-- A varint is read back, at any place of a message. -/
theorem readVarint_pushVarint (before : Bytes) (v : UInt64) (after : Bytes) :
    readVarint (before ++ pushVarint v ++ after) before.length =
      (some v, before.length + (pushVarint v).length) := by
  have hread := @readVarintFrom_pushVarint v before after 0 0 (by norm_num) (by norm_num)
    (by simpa using v.toNat_lt)
  rw [readVarint]
  simpa using hread

/-- The loop does not read a varint that is cut off. -/
theorem readVarintFrom_prefix (w : UInt64) {front : Bytes} (hfront : front <+: pushVarint w)
    (hne : front ≠ pushVarint w) (before : Bytes) (value : UInt64) (shift : ℕ) :
    (readVarintFrom (before ++ front) before.length value shift).1 = none := by
  induction w using pushVarint.induct generalizing front before value shift with
  | case1 w hlast =>
    rw [pushVarint, dif_pos hlast] at hfront hne
    obtain rfl : front = [] := by
      rcases List.prefix_cons_iff.1 hfront with hnil | ⟨rest, heq, hrest⟩
      · exact hnil
      · rw [List.prefix_nil] at hrest
        exact absurd (hrest ▸ heq) hne
    rw [readVarintFrom]
    simp
  | case2 w hmore ih =>
    rw [pushVarint, dif_neg hmore] at hfront hne
    rcases List.prefix_cons_iff.1 hfront with rfl | ⟨rest, rfl, hrest⟩
    · rw [readVarintFrom]
      simp
    · -- More bytes were to follow.
      have hgoes := (otherByte ((toNat_lowBits w).trans_lt (Nat.mod_lt _ (by norm_num)))).2
      have hget : (before ++ ((w &&& 0x7f).toUInt8 ||| 0x80) :: rest)[before.length]? =
          some ((w &&& 0x7f).toUInt8 ||| 0x80) := by simp
      rw [readVarintFrom, hget]
      dsimp only
      rw [if_neg hgoes]
      split_ifs
      · rfl
      · have hlist : before ++ ((w &&& 0x7f).toUInt8 ||| 0x80) :: rest =
            (before ++ [(w &&& 0x7f).toUInt8 ||| 0x80]) ++ rest := by simp
        have hlength : before.length + 1 = (before ++ [(w &&& 0x7f).toUInt8 ||| 0x80]).length := by
          simp
        rw [hlist, hlength]
        exact ih hrest (fun heq => hne (by rw [heq])) _ _ _

theorem readVarint_prefix (v : UInt64) {front : Bytes} (hfront : front <+: pushVarint v)
    (hne : front ≠ pushVarint v) : (readVarint front 0).1 = none :=
  readVarintFrom_prefix v hfront hne [] 0 0

/-- What is read has at least one byte. -/
theorem lt_of_readVarintFrom {bytes : Bytes} {pos : ℕ} {value : UInt64} {shift : ℕ} {v : UInt64}
    (h : (readVarintFrom bytes pos value shift).1 = some v) :
    pos < (readVarintFrom bytes pos value shift).2 := by
  induction pos, value, shift using readVarintFrom.induct bytes with
  | case1 pos value shift hnone =>
    rw [readVarintFrom, hnone] at h
    cases h
  | case2 pos value shift byte hbyte hend =>
    rw [readVarintFrom, hbyte]
    dsimp only
    rw [if_pos hend]
    exact Nat.lt_succ_self pos
  | case3 pos value shift byte hbyte hend hover =>
    rw [readVarintFrom, hbyte] at h
    dsimp only at h
    rw [if_neg hend, if_pos hover] at h
    cases h
  | case4 pos value shift byte hbyte value hend hover ih =>
    rw [readVarintFrom, hbyte] at h ⊢
    dsimp only at h ⊢
    rw [if_neg hend, if_neg hover] at h ⊢
    exact (Nat.lt_succ_self pos).trans (ih h)

/-! ## Fields -/

/-- A message read as length-delimited fields, by their numbers: a tag, a length and as many
    bytes, one field after the other. -/
def readFields (bytes : Bytes) (pos : ℕ) : Option (List (UInt64 × Bytes)) :=
  if hrest : bytes.length ≤ pos then some []
  else
    match htag : readVarint bytes pos with
    | (none, _) => none
    | (some tag, p) =>
      match hlength : readVarint bytes p with
      | (none, _) => none
      | (some length, q) =>
        if tag &&& 7 ≠ 2 ∨ bytes.length < q + length.toNat then none
        else
          have : bytes.length - (q + length.toNat) < bytes.length - pos := by
            have hp := @lt_of_readVarintFrom bytes pos 0 0 _ (congrArg Prod.fst htag)
            have hq := @lt_of_readVarintFrom bytes p 0 0 _ (congrArg Prod.fst hlength)
            change pos < (readVarint bytes pos).2 at hp
            change p < (readVarint bytes p).2 at hq
            rw [htag] at hp
            rw [hlength] at hq
            omega
          (readFields bytes (q + length.toNat)).map
            ((tag >>> 3, (bytes.drop q).take length.toNat) :: ·)
termination_by bytes.length - pos

/-- A field is read back, before what follows it. -/
theorem readFields_pushLenDelimited (before : Bytes) {fieldNo : UInt32} {n : UInt64}
    (hnumber : ((fieldNo.toUInt64 <<< 3) ||| 2) >>> 3 = n)
    (hwire : ((fieldNo.toUInt64 <<< 3) ||| 2) &&& 7 = 2) {bytes : Bytes} (hlength : bytes.length < 2 ^ 64)
    (after : Bytes) :
    readFields (before ++ pushLenDelimited fieldNo bytes ++ after) before.length =
      (readFields (before ++ pushLenDelimited fieldNo bytes ++ after)
        (before ++ pushLenDelimited fieldNo bytes).length).map ((n, bytes) :: ·) := by
  generalize htag : (fieldNo.toUInt64 <<< 3) ||| 2 = tag at hnumber hwire
  have hfield : pushLenDelimited fieldNo bytes =
      pushVarint tag ++ pushVarint (UInt64.ofNat bytes.length) ++ bytes := by
    rw [pushLenDelimited, htag]
  have hsize : (UInt64.ofNat bytes.length).toNat = bytes.length := by
    rw [UInt64.toNat_ofNat', Nat.mod_eq_of_lt hlength]
  -- The tag and the length are read back.
  have hfirst : readVarint (before ++ pushLenDelimited fieldNo bytes ++ after) before.length =
      (some tag, before.length + (pushVarint tag).length) := by
    have hread := readVarint_pushVarint before tag (pushVarint (UInt64.ofNat bytes.length) ++ bytes ++ after)
    rw [hfield]
    simpa using hread
  have hsecond : readVarint (before ++ pushLenDelimited fieldNo bytes ++ after)
      (before.length + (pushVarint tag).length) = (some (UInt64.ofNat bytes.length),
        before.length + (pushVarint tag).length + (pushVarint (UInt64.ofNat bytes.length)).length) := by
    have hread := readVarint_pushVarint (before ++ pushVarint tag) (UInt64.ofNat bytes.length)
      (bytes ++ after)
    rw [hfield]
    simpa using hread
  have hplace : before.length + (pushVarint tag).length +
      (pushVarint (UInt64.ofNat bytes.length)).length + bytes.length =
        (before ++ pushLenDelimited fieldNo bytes).length := by
    rw [hfield]
    simp
    omega
  have hpositive : 0 < (pushVarint tag).length := by
    rw [pushVarint]
    split_ifs <;> simp
  have hcontent : ((before ++ pushLenDelimited fieldNo bytes ++ after).drop (before.length +
      (pushVarint tag).length + (pushVarint (UInt64.ofNat bytes.length)).length)).take bytes.length =
        bytes := by
    have hlist : before ++ pushLenDelimited fieldNo bytes ++ after =
        (before ++ pushVarint tag ++ pushVarint (UInt64.ofNat bytes.length)) ++ (bytes ++ after) := by
      rw [hfield]
      simp
    rw [hlist, List.drop_left' (by simp; omega), List.take_left' rfl]
  rw [readFields, dif_neg]
  · split
    · next p hp => rw [hfirst] at hp; cases hp
    · next tag' p hp =>
      rw [hfirst] at hp
      obtain ⟨htag', rfl⟩ := Prod.mk.inj hp
      obtain rfl := Option.some.inj htag'
      split
      · next q hq => rw [hsecond] at hq; cases hq
      · next length q hq =>
        rw [hsecond] at hq
        obtain ⟨hlen, rfl⟩ := Prod.mk.inj hq
        obtain rfl := Option.some.inj hlen
        dsimp only
        rw [hsize, hplace, if_neg, hcontent, hnumber]
        rintro (hbad | hover)
        · exact hbad hwire
        · rw [List.length_append] at hover
          omega
  · rw [List.length_append, ← hplace]
    omega

/-- Fields are read back in order. -/
theorem readFields_flatMap {fieldNo : UInt32} {n : UInt64}
    (hnumber : ((fieldNo.toUInt64 <<< 3) ||| 2) >>> 3 = n)
    (hwire : ((fieldNo.toUInt64 <<< 3) ||| 2) &&& 7 = 2) (before : Bytes) {entries : List Bytes}
    (hlength : ∀ bytes ∈ entries, bytes.length < 2 ^ 64) :
    readFields (before ++ entries.flatMap (pushLenDelimited fieldNo)) before.length =
      some (entries.map fun bytes => (n, bytes)) := by
  -- The fields are read from the front, each in front of the rest.
  induction entries generalizing before with
  | nil =>
    rw [readFields]
    simp
  | cons bytes entries ih =>
    have hlist : before ++ (bytes :: entries).flatMap (pushLenDelimited fieldNo) =
        before ++ pushLenDelimited fieldNo bytes ++ entries.flatMap (pushLenDelimited fieldNo) := by
      simp
    rw [hlist, readFields_pushLenDelimited before hnumber hwire (hlength bytes List.mem_cons_self),
      ih _ fun bytes' hmem => hlength bytes' (List.mem_cons_of_mem _ hmem)]
    rfl

/-! ## Framing -/

/-- Writing and reading are inverse: varints, and the infos that an update appends as field 4,
    each as a field 1 of it. -/
theorem framing_round_trip (g : RouteGroupData) (myPeerId : PeerId) (prost : Prost) :
    (∀ (before : Bytes) (v : UInt64) (after : Bytes),
      readVarint (before ++ pushVarint v ++ after) before.length =
        (some v, before.length + (pushVarint v).length)) ∧
    (∀ (v : UInt64) (front : Bytes), front <+: pushVarint v → front ≠ pushVarint v →
      (readVarint front 0).1 = none) ∧
    (∀ entries : List Bytes, (entries.flatMap (pushLenDelimited 1)).length < 2 ^ 64 →
      readFields (pushLenDelimited 4 (entries.flatMap (pushLenDelimited 1))) 0 =
          some [(4, entries.flatMap (pushLenDelimited 1))] ∧
        readFields (entries.flatMap (pushLenDelimited 1)) 0 =
          some (entries.map fun bytes => (1, bytes))) ∧
    ∀ (serverSessionId : UInt64) (weAreInitiator : Bool) (typedItems : List (PeerId × RoutePeerInfo))
      (connInfo : Option ConnInfo), typedItems ≠ [] →
      (g.routeUpdate myPeerId prost serverSessionId weAreInitiator typedItems connInfo).payload =
        prost.encodeSyncRouteInfoRequest
          { myPeerId := myPeerId, mySessionId := serverSessionId, isInitiator := weAreInitiator,
            peerInfos := none, connInfo := connInfo } ++
        pushLenDelimited 4 ((typedItems.map fun item => prost.encodeRoutePeerInfo item.2).flatMap
          (pushLenDelimited 1)) := by
  refine ⟨readVarint_pushVarint, fun v _ => readVarint_prefix v, fun entries hlength => ⟨?_, ?_⟩, ?_⟩
  · have hread := @readFields_flatMap 4 4 (by decide) (by decide) []
      [entries.flatMap (pushLenDelimited 1)] (by simpa using hlength)
    simpa using hread
  · refine @readFields_flatMap 1 1 (by decide) (by decide) [] _ fun bytes hmem => ?_
    -- No entry is longer than all of them.
    refine lt_of_le_of_lt ?_ hlength
    have hle : (pushLenDelimited 1 bytes).length ≤ (entries.flatMap (pushLenDelimited 1)).length := by
      rw [List.flatMap_def]
      exact (List.sublist_flatten_of_mem (List.mem_map_of_mem hmem)).length_le
    refine le_trans ?_ hle
    rw [pushLenDelimited, List.length_append]
    exact Nat.le_add_left _ _
  · intro serverSessionId weAreInitiator typedItems connInfo hne
    have hfields : typedItems.flatMap (fun item => pushLenDelimited 1 (prost.encodeRoutePeerInfo item.2)) =
        (typedItems.map fun item => prost.encodeRoutePeerInfo item.2).flatMap (pushLenDelimited 1) := by
      rw [List.flatMap_map]
    rw [← hfields, RouteGroupData.routeUpdate]
    simp [hne]

end EasyTierEdge
