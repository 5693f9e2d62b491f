import EasyTierEdge.Packet

/-!
# Hand-written protobuf framing

The routines of `wasm/src/route_state.rs` that append a field to an encoded message.
-/

namespace EasyTierEdge

/-- `value` as a varint: seven bits a byte, least significant first, with the top bit
    set on all bytes but the last. -/
def pushVarint (value : UInt64) : Bytes :=
  if h : value >>> 7 = 0 then [(value &&& 0x7f).toUInt8]
  else ((value &&& 0x7f).toUInt8 ||| 0x80) :: pushVarint (value >>> 7)
termination_by value.toNat
decreasing_by
  have hne : value.toNat ≠ 0 := by
    intro h0
    apply h
    apply UInt64.toNat.inj
    simp [h0]
  simp only [UInt64.toNat_shiftRight]
  rw [show (7 : UInt64).toNat % 64 = 7 from rfl, Nat.shiftRight_eq_div_pow]
  omega

/-- A length-delimited field. -/
def pushLenDelimited (fieldNo : UInt32) (bytes : Bytes) : Bytes :=
  pushVarint ((fieldNo.toUInt64 <<< 3) ||| 2) ++ pushVarint (UInt64.ofNat bytes.length) ++ bytes

/-- A value of `7 * k` bits has a varint of at most `k` bytes. -/
theorem length_pushVarint_le {k : ℕ} (hk : k ≠ 0) {value : UInt64} (h : value.toNat < 2 ^ (7 * k)) :
    (pushVarint value).length ≤ k := by
  induction k generalizing value with
  | zero => exact absurd rfl hk
  | succ k ih =>
    rw [pushVarint]
    split_ifs with hlast
    · exact Nat.le_add_left 1 k
    · have hshift : (value >>> 7).toNat = value.toNat / 2 ^ 7 := by
        rw [UInt64.toNat_shiftRight, show (7 : UInt64).toNat % 64 = 7 from rfl,
          Nat.shiftRight_eq_div_pow]
      have hrest : (value >>> 7).toNat < 2 ^ (7 * k) := by
        rw [hshift]
        rw [Nat.mul_succ, Nat.pow_add] at h
        exact Nat.div_lt_of_lt_mul (by rw [Nat.mul_comm]; exact h)
      have hk' : k ≠ 0 := by
        rintro rfl
        refine hlast (UInt64.toNat.inj ?_)
        exact Nat.lt_one_iff.1 hrest
      exact Nat.succ_le_succ (ih hk' hrest)

theorem length_pushVarint_le_ten (value : UInt64) : (pushVarint value).length ≤ 10 :=
  length_pushVarint_le (by decide) (value.toNat_lt.trans (by decide))

theorem length_pushLenDelimited_le (fieldNo : UInt32) (bytes : Bytes) :
    (pushLenDelimited fieldNo bytes).length ≤ bytes.length + 20 := by
  have htag := length_pushVarint_le_ten ((fieldNo.toUInt64 <<< 3) ||| 2)
  have hlen := length_pushVarint_le_ten (UInt64.ofNat bytes.length)
  rw [pushLenDelimited, List.length_append, List.length_append]
  omega
end EasyTierEdge
