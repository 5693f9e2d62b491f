import Mathlib

/-!
# Fixed-width integers

The arithmetic of fixed-width unsigned integers beyond the wrapping operations
Lean has: saturating and checked sums and differences, described on natural
numbers, and the encodings as big- and little-endian bytes, which are inverse
to their decoders.
-/

namespace UInt32

/-- The sum, or the largest value when it does not fit. -/
def saturatingAdd (a b : UInt32) : UInt32 := if a + b < a then 0xFFFFFFFF else a + b

/-- The difference, or `0` when it is negative. -/
def saturatingSub (a b : UInt32) : UInt32 := if b ≤ a then a - b else 0

/-- The sum, if it fits. -/
def checkedAdd (a b : UInt32) : Option UInt32 := if a + b < a then none else some (a + b)

/-- The four bytes of `x`, most significant first. -/
def toBeBytes (x : UInt32) : List UInt8 :=
  [(x >>> 24).toUInt8, (x >>> 16).toUInt8, (x >>> 8).toUInt8, x.toUInt8]

/-- The four bytes of `x`, least significant first. -/
def toLeBytes (x : UInt32) : List UInt8 :=
  [x.toUInt8, (x >>> 8).toUInt8, (x >>> 16).toUInt8, (x >>> 24).toUInt8]

/-- The order of 32-bit numbers. -/
instance linearOrder : LinearOrder UInt32 where
  le_refl := UInt32.le_refl
  le_trans _ _ _ := UInt32.le_trans
  le_antisymm _ _ := UInt32.le_antisymm
  le_total := UInt32.le_total
  lt_iff_le_not_ge a b := by
    rw [UInt32.lt_iff_toNat_lt, UInt32.le_iff_toNat_le, UInt32.le_iff_toNat_le]
    omega
  toDecidableLE := inferInstance
  toMin := inferInstance
  toMax := inferInstance
  min_def _ _ := rfl
  max_def _ _ := rfl
  compare a b := compareOfLessAndEq a b

end UInt32

namespace UInt64

/-- The sum, or the largest value when it does not fit. -/
def saturatingAdd (a b : UInt64) : UInt64 := if a + b < a then 0xFFFFFFFFFFFFFFFF else a + b

/-- The difference, or `0` when it is negative. -/
def saturatingSub (a b : UInt64) : UInt64 := if b ≤ a then a - b else 0

/-- The product, or the largest value when it does not fit. -/
def saturatingMul (a b : UInt64) : UInt64 :=
  if a.toNat * b.toNat < 2 ^ 64 then a * b else 0xFFFFFFFFFFFFFFFF

/-- The sum, if it fits. -/
def checkedAdd (a b : UInt64) : Option UInt64 := if a + b < a then none else some (a + b)

/-- The eight bytes of `x`, most significant first. -/
def toBeBytes (x : UInt64) : List UInt8 :=
  [(x >>> 56).toUInt8, (x >>> 48).toUInt8, (x >>> 40).toUInt8, (x >>> 32).toUInt8,
    (x >>> 24).toUInt8, (x >>> 16).toUInt8, (x >>> 8).toUInt8, x.toUInt8]

end UInt64

namespace FixedWidth

/-- The number with the digits `l` in base 256, most significant first. -/
def ofBeBytes (l : List UInt8) : ℕ := l.foldl (fun n b => 256 * n + b.toNat) 0

/-- The number with the digits `l` in base 256, least significant first. -/
def ofLeBytes (l : List UInt8) : ℕ := l.foldr (fun b n => b.toNat + 256 * n) 0

/-- Bytes at different places do not meet: their union is their sum. -/
theorem or_shiftLeft_eq_ofLeBytes (a b c d : UInt8) :
    a.toNat ||| b.toNat <<< 8 ||| c.toNat <<< 16 ||| d.toNat <<< 24 = ofLeBytes [a, b, c, d] := by
  have ha := a.toNat_lt
  have hb := b.toNat_lt
  have hc := c.toNat_lt
  have h₁ : a.toNat ||| b.toNat <<< 8 = a.toNat + 256 * b.toNat := by
    rw [Nat.or_comm, ← Nat.shiftLeft_add_eq_or_of_lt ha, Nat.shiftLeft_eq]
    omega
  have h₂ : (a.toNat + 256 * b.toNat) ||| c.toNat <<< 16 =
      a.toNat + 256 * (b.toNat + 256 * c.toNat) := by
    rw [Nat.or_comm, ← Nat.shiftLeft_add_eq_or_of_lt (by omega), Nat.shiftLeft_eq]
    omega
  rw [h₁, h₂, Nat.or_comm, ← Nat.shiftLeft_add_eq_or_of_lt (by omega), Nat.shiftLeft_eq]
  simp only [ofLeBytes, List.foldr_cons, List.foldr_nil]
  omega

end FixedWidth

open FixedWidth

namespace UInt32

/-- The value of big-endian bytes. -/
def fromBeBytes (l : List UInt8) : UInt32 := UInt32.ofNat (ofBeBytes l)

/-- The value of little-endian bytes. -/
def fromLeBytes (l : List UInt8) : UInt32 := UInt32.ofNat (ofLeBytes l)

@[simp] theorem length_toBeBytes (x : UInt32) : x.toBeBytes.length = 4 := rfl

@[simp] theorem length_toLeBytes (x : UInt32) : x.toLeBytes.length = 4 := rfl

theorem toNat_saturatingSub (a b : UInt32) :
    (a.saturatingSub b).toNat = a.toNat - b.toNat := by
  unfold saturatingSub
  split_ifs with h
  · exact UInt32.toNat_sub_of_le _ _ h
  · rw [UInt32.le_iff_toNat_le] at h
    simp only [UInt32.toNat_zero]
    omega

theorem toNat_saturatingAdd (a b : UInt32) :
    (a.saturatingAdd b).toNat = min (a.toNat + b.toNat) (2 ^ 32 - 1) := by
  have ha := a.toNat_lt
  have hb := b.toNat_lt
  unfold saturatingAdd
  split_ifs with h
  · rw [UInt32.lt_iff_toNat_lt, UInt32.toNat_add] at h
    simp only [UInt32.reduceToNat]
    omega
  · rw [UInt32.lt_iff_toNat_lt, UInt32.toNat_add] at h
    rw [UInt32.toNat_add]
    omega

theorem checkedAdd_one_eq_some {a b : UInt32} (h : a.checkedAdd 1 = some b) :
    b.toNat = a.toNat + 1 := by
  unfold checkedAdd at h
  split_ifs at h with hlt
  obtain rfl := Option.some.inj h
  rw [UInt32.lt_iff_toNat_lt, UInt32.toNat_add] at hlt
  rw [UInt32.toNat_add]
  have := a.toNat_lt
  simp only [UInt32.toNat_one] at *
  omega

/-- Adding one only fails at the largest value. -/
theorem checkedAdd_one_eq_none {a : UInt32} : a.checkedAdd 1 = none ↔ a.toNat = 2 ^ 32 - 1 := by
  unfold checkedAdd
  have := a.toNat_lt
  split_ifs with hlt <;> rw [UInt32.lt_iff_toNat_lt, UInt32.toNat_add] at hlt <;>
    simp only [UInt32.toNat_one, true_iff, false_iff] at * <;> omega

@[simp] theorem fromBeBytes_toBeBytes (x : UInt32) : fromBeBytes x.toBeBytes = x := by
  apply UInt32.toNat.inj
  have := x.toNat_lt
  simp [fromBeBytes, ofBeBytes, toBeBytes, Nat.shiftRight_eq_div_pow]
  omega

@[simp] theorem fromLeBytes_toLeBytes (x : UInt32) : fromLeBytes x.toLeBytes = x := by
  apply UInt32.toNat.inj
  have := x.toNat_lt
  simp [fromLeBytes, ofLeBytes, toLeBytes, Nat.shiftRight_eq_div_pow]
  omega

theorem ofLeBytes_toLeBytes (x : UInt32) : ofLeBytes x.toLeBytes = x.toNat := by
  have := x.toNat_lt
  simp [ofLeBytes, toLeBytes, Nat.shiftRight_eq_div_pow]
  omega

/-- Four bytes are read as a number whose bytes they are. -/
theorem toLeBytes_fromLeBytes (a b c d : UInt8) :
    (fromLeBytes [a, b, c, d]).toLeBytes = [a, b, c, d] := by
  have ha := a.toNat_lt
  have hb := b.toNat_lt
  have hc := c.toNat_lt
  have hd := d.toNat_lt
  simp only [toLeBytes, fromLeBytes, ofLeBytes, List.foldr_cons, List.foldr_nil,
    List.cons.injEq, and_true, ← UInt8.toNat_inj]
  simp [Nat.shiftRight_eq_div_pow]
  omega

theorem toLeBytes_injective : Function.Injective toLeBytes :=
  Function.LeftInverse.injective fromLeBytes_toLeBytes

theorem toBeBytes_injective : Function.Injective toBeBytes :=
  Function.LeftInverse.injective fromBeBytes_toBeBytes

/-- There are `2 ^ 32` numbers of 32 bits. -/
theorem length_le_of_nodup {l : List UInt32} (h : l.Nodup) : l.length ≤ 2 ^ 32 := by
  have hnodup : (l.map UInt32.toNat).Nodup := List.Nodup.map (fun _ _ => UInt32.toNat.inj) h
  have hsub : l.map UInt32.toNat ⊆ List.range (2 ^ 32) := by
    intro n hn
    obtain ⟨x, -, rfl⟩ := List.mem_map.1 hn
    exact List.mem_range.2 x.toNat_lt
  simpa using hnodup.length_le_of_subset hsub

end UInt32

namespace UInt64

/-- The value of big-endian bytes. -/
def fromBeBytes (l : List UInt8) : UInt64 := UInt64.ofNat (ofBeBytes l)

@[simp] theorem length_toBeBytes (x : UInt64) : x.toBeBytes.length = 8 := rfl

theorem toNat_saturatingAdd (a b : UInt64) :
    (a.saturatingAdd b).toNat = min (a.toNat + b.toNat) (2 ^ 64 - 1) := by
  have ha := a.toNat_lt
  have hb := b.toNat_lt
  unfold saturatingAdd
  split_ifs with h
  · rw [UInt64.lt_iff_toNat_lt, UInt64.toNat_add] at h
    simp only [UInt64.reduceToNat]
    omega
  · rw [UInt64.lt_iff_toNat_lt, UInt64.toNat_add] at h
    rw [UInt64.toNat_add]
    omega

theorem le_saturatingAdd (a b : UInt64) : a ≤ a.saturatingAdd b := by
  have ha := a.toNat_lt
  rw [UInt64.le_iff_toNat_le, toNat_saturatingAdd]
  omega

theorem toNat_saturatingSub (a b : UInt64) :
    (a.saturatingSub b).toNat = a.toNat - b.toNat := by
  unfold saturatingSub
  split_ifs with h
  · exact UInt64.toNat_sub_of_le _ _ h
  · rw [UInt64.le_iff_toNat_le] at h
    simp only [UInt64.toNat_zero]
    omega

theorem checkedAdd_one_eq_some {a b : UInt64} (h : a.checkedAdd 1 = some b) :
    b.toNat = a.toNat + 1 := by
  unfold checkedAdd at h
  split_ifs at h with hlt
  obtain rfl := Option.some.inj h
  rw [UInt64.lt_iff_toNat_lt, UInt64.toNat_add] at hlt
  rw [UInt64.toNat_add]
  have := a.toNat_lt
  simp only [UInt64.toNat_one] at *
  omega

/-- Adding one only fails at the largest value. -/
theorem checkedAdd_one_eq_none {a : UInt64} : a.checkedAdd 1 = none ↔ a.toNat = 2 ^ 64 - 1 := by
  unfold checkedAdd
  have := a.toNat_lt
  split_ifs with hlt <;> rw [UInt64.lt_iff_toNat_lt, UInt64.toNat_add] at hlt <;>
    simp only [UInt64.toNat_one, true_iff, false_iff] at * <;> omega

@[simp] theorem fromBeBytes_toBeBytes (x : UInt64) : fromBeBytes x.toBeBytes = x := by
  apply UInt64.toNat.inj
  have := x.toNat_lt
  simp [fromBeBytes, ofBeBytes, toBeBytes, Nat.shiftRight_eq_div_pow]
  omega

theorem toBeBytes_injective : Function.Injective toBeBytes :=
  Function.LeftInverse.injective fromBeBytes_toBeBytes

end UInt64

namespace UInt8

/-- A bit of a byte with the bit `k` set. -/
theorem getLsbD_or_bit (x : UInt8) {k j : ℕ} (hk : k < 8) (hj : j < 8) :
    (x ||| ((1 : UInt8) <<< UInt8.ofNat k)).toBitVec.getLsbD j =
      (x.toBitVec.getLsbD j || decide (j = k)) := by
  have hmod : k % 8 = k := Nat.mod_eq_of_lt hk
  rcases Nat.lt_trichotomy j k with h | rfl | h
  · simp [hmod, hj, h, h.ne]
  · simp [hmod, hj]
  · simp only [UInt8.toBitVec_or, UInt8.toBitVec_shiftLeft, BitVec.getLsbD_or]
    simp [hmod, hj, h.ne', Nat.not_lt_of_gt h]
    omega

/-- Testing a bit of a byte with a mask. -/
theorem and_bit_ne_zero (x : UInt8) {k : ℕ} (hk : k < 8) :
    x &&& ((1 : UInt8) <<< UInt8.ofNat k) ≠ 0 ↔ x.toBitVec.getLsbD k = true := by
  have hmask : ∀ j, ((1 : UInt8) <<< UInt8.ofNat k).toBitVec.getLsbD j = decide (j < 8 ∧ j = k) := by
    intro j
    by_cases hj : j < 8
    · have h := getLsbD_or_bit 0 hk hj
      simpa [hj] using h
    · simp [hj, BitVec.getLsbD_of_ge _ _ (Nat.not_lt.1 hj)]
  rw [ne_eq, ← UInt8.toBitVec_inj, UInt8.toBitVec_and]
  constructor
  · intro hne
    by_contra hbit
    refine hne (BitVec.eq_of_getLsbD_eq fun j hj => ?_)
    rw [BitVec.getLsbD_and, hmask]
    by_cases hjk : j = k
    · simp [hjk, hbit]
    · simp [hjk]
  · intro hbit heq
    have h := congrArg (fun b => b.getLsbD k) heq
    simp only [BitVec.getLsbD_and, hmask, hbit] at h
    simp [hk] at h

end UInt8
