import EasyTierEdge.Lib.FixedWidth

/-!
# The replay window

`ReplayWindow256` of `wasm/src/secure.rs`: the largest sequence number accepted
so far, and a 256-bit map of the accepted ones below it, the bit `i` standing for
the sequence `i` below the largest. The bitmap is 32 bytes, moved along by an
in-place byte shift and a bit shift with carry (`shiftRight`).

Differences of sequence numbers are 64-bit values cast to `usize`, which keeps
their low 32 bits on the deployed target (`distance`).

* `testBit_shiftRight`: the two passes compose to a shift of the 256 bits;
* `canAccept_eq_accept`: checking a sequence foretells what accepting it gives;
* `Remembers.accept`: a window remembering the accepted sequences refuses them,
  as long as no sequence lies `2 ^ 32` or more below the largest.
-/

namespace EasyTierEdge

/-- The 256 bits of a window. -/
abbrev Bitmap := Vector UInt8 32

namespace Bitmap

/-- No bit set. -/
def zero : Bitmap := Vector.replicate 32 0

/-- The loop `for i in (0..n).rev()` moving every byte up by `byteShift`. -/
def shiftBytes (byteShift : ℕ) : (n : ℕ) → n ≤ 32 → Bitmap → Bitmap
  | 0, _, b => b
  | n + 1, h, b =>
    shiftBytes byteShift n (Nat.le_of_succ_le h)
      (b.set n (if byteShift ≤ n then b[n - byteShift] else 0))

/-- The loop over the last `n` bytes shifting every byte up by `bitShift`,
    with the `carry` of the byte before. -/
def shiftBits (bitShift : ℕ) : (n : ℕ) → n ≤ 32 → UInt8 → Bitmap → Bitmap
  | 0, _, _, b => b
  | n + 1, h, carry, b =>
    let byte := b[32 - (n + 1)]
    shiftBits bitShift n (Nat.le_of_succ_le h) (byte >>> UInt8.ofNat (8 - bitShift))
      (b.set (32 - (n + 1)) ((byte <<< UInt8.ofNat bitShift) ||| carry))

/-- The bit `i` of the bitmap. -/
def bit (b : Bitmap) (i : Fin 256) : Bool :=
  (b[i.val / 8] >>> UInt8.ofNat (i.val % 8)) &&& 1 == 1

/-! ### The shift -/

/-- A byte of the moved bitmap: the byte `byteShift` below, or `0`. -/
theorem getElem_shiftBytes (byteShift : ℕ) {n : ℕ} (hn : n ≤ 32) (b : Bitmap) {j : ℕ}
    (hj : j < 32) : (b.shiftBytes byteShift n hn)[j] =
      if j < n then (if byteShift ≤ j then b[j - byteShift] else 0) else b[j] := by
  induction n generalizing b with
  | zero => rfl
  | succ n ih =>
    -- The bytes below `n` are still to be moved, and none of them reads the byte
    -- written at `n`: a byte is only moved up.
    rw [shiftBytes, ih]
    rcases Nat.lt_trichotomy j n with h | rfl | h
    · have : n ≠ j - byteShift := by omega
      simp [h, Nat.lt_succ_of_lt h, this]
    · simp
    · have : ¬j < n + 1 := by omega
      simp [Nat.not_lt_of_gt h, this, h.ne]

/-- A byte of the bitmap after the carry pass. -/
theorem getElem_shiftBits (bitShift : ℕ) {n : ℕ} (hn : n ≤ 32) (carry : UInt8) (b : Bitmap) {j : ℕ}
    (hj : j < 32) : (b.shiftBits bitShift n hn carry)[j] =
      if j < 32 - n then b[j] else (b[j] <<< UInt8.ofNat bitShift) |||
        if j = 32 - n then carry else b[j - 1] >>> UInt8.ofNat (8 - bitShift) := by
  induction n generalizing b carry with
  | zero => simp [shiftBits, hj]
  | succ n ih =>
    -- The pass is at the byte `32 - (n + 1)`: nothing before it changes any more, and
    -- the byte after it takes the carry of its old value.
    rw [shiftBits, ih]
    simp only [Vector.getElem_set]
    rcases Nat.lt_trichotomy j (32 - (n + 1)) with h | rfl | h
    · have h₁ : j < 32 - n := by omega
      simp only [h, h₁, h.ne', if_true, if_false]
    · have h₁ : 32 - (n + 1) < 32 - n := by omega
      simp only [h₁, if_true, lt_irrefl, if_false]
    · have h₁ : ¬j < 32 - n := by omega
      have h₂ : ¬j < 32 - (n + 1) := by omega
      have h₃ : 32 - (n + 1) = j - 1 ↔ j = 32 - n := by omega
      simp only [h₁, h₂, h.ne, h.ne', h₃, if_false]
      split_ifs with hj'
      · simp only [h₃.2 hj']
      · rfl

/-- A bit of a byte shifted up, with the high bits of the byte before carried in. -/
theorem getLsbD_shift (x y : UInt8) {s j : ℕ} (hs : 0 < s) (hs8 : s < 8) (hj : j < 8) :
    ((x <<< UInt8.ofNat s) ||| (y >>> UInt8.ofNat (8 - s))).toBitVec.getLsbD j =
      if j < s then y.toBitVec.getLsbD (8 - s + j) else x.toBitVec.getLsbD (j - s) := by
  have h₁ : s % 8 = s := Nat.mod_eq_of_lt hs8
  have h₂ : (8 - s) % 8 = 8 - s := Nat.mod_eq_of_lt (by omega)
  by_cases hjs : j < s
  · simp [h₁, h₂, hj, hjs]
  · have hge : 8 ≤ 8 - s + j := by omega
    simp [h₁, h₂, hj, hjs, BitVec.getLsbD_of_ge _ _ hge, BitVec.getLsbD_eq_getElem, Nat.sub_lt_of_lt]

/-- Testing a bit of a byte by shifting it down. -/
theorem shiftRight_and_one (x : UInt8) {k : ℕ} (hk : k < 8) :
    ((x >>> UInt8.ofNat k) &&& 1 == 1) = x.toBitVec.getLsbD k := by
  have hx : (x >>> UInt8.ofNat k).toBitVec = x.toBitVec >>> k := by
    simp [Nat.mod_eq_of_lt hk]
  rw [Bool.eq_iff_iff, beq_iff_eq, ← UInt8.toBitVec_inj, UInt8.toBitVec_and, hx]
  change x.toBitVec >>> k &&& 1#8 = 1#8 ↔ _
  constructor
  · intro h
    simpa using congrArg (fun b => b.getLsbD 0) h
  · intro h
    ext j hj
    cases j with
    | zero => simpa [← BitVec.getLsbD_eq_getElem] using h
    | succ j => simp

/-- The bit of a bitmap is that of one of its bytes. -/
theorem bit_eq_getLsbD (b : Bitmap) (i : Fin 256) :
    b.bit i = b[i.val / 8].toBitVec.getLsbD (i.val % 8) :=
  shiftRight_and_one _ (Nat.mod_lt _ (by norm_num))

/-- The whole shift of `shift_right`: the byte move, then the carry pass. -/
def shift (b : Bitmap) (shift : ℕ) : Bitmap :=
  let byteShift := shift / 8
  let bitShift := shift % 8
  let moved := if 0 < byteShift then b.shiftBytes byteShift 32 le_rfl else b
  if 0 < bitShift then moved.shiftBits bitShift 32 le_rfl 0 else moved

/-- A byte after the byte move. -/
theorem getElem_moved (b : Bitmap) (q : ℕ) {j : ℕ} (hj : j < 32) :
    (if 0 < q then b.shiftBytes q 32 le_rfl else b)[j] = if q ≤ j then b[j - q] else 0 := by
  by_cases hq : 0 < q
  · simp [hq, getElem_shiftBytes _ _ _ hj, hj]
  · obtain rfl : q = 0 := by omega
    simp

theorem ite_shiftRight (c : Prop) [Decidable c] (x k : UInt8) :
    (if c then 0 else x >>> k) = (if c then 0 else x) >>> k := by
  split_ifs <;> simp

/-- The shift moves every bit up by `shift`, filling with `0`. -/
theorem bit_shift (b : Bitmap) (shift : ℕ) (i : Fin 256) :
    (b.shift shift).bit i = if h : shift ≤ i then b.bit ⟨i - shift, by omega⟩ else false := by
  have hi := i.isLt
  rw [bit_eq_getLsbD]
  unfold Bitmap.shift
  by_cases hr : 0 < shift % 8
  · -- The bit comes from the byte `shift / 8` below, or, when it is among the low
    -- `shift % 8` bits, from the byte before that one.
    simp only [hr, if_true]
    rw [getElem_shiftBits _ _ _ _ (by omega)]
    simp only [getElem_moved]
    rw [if_neg (by omega), Nat.sub_self, ite_shiftRight,
      getLsbD_shift _ _ hr (Nat.mod_lt _ (by norm_num)) (Nat.mod_lt _ (by norm_num))]
    by_cases hs : shift ≤ i
    · simp only [hs, dite_true, bit_eq_getLsbD]
      split_ifs with hc h₀ hq hq
      · omega
      · have h₁ : i.val / 8 - 1 - shift / 8 = (i.val - shift) / 8 := by omega
        have h₂ : 8 - shift % 8 + i.val % 8 = (i.val - shift) % 8 := by omega
        simp only [h₁, h₂]
      · omega
      · have h₁ : i.val / 8 - shift / 8 = (i.val - shift) / 8 := by omega
        have h₂ : i.val % 8 - shift % 8 = (i.val - shift) % 8 := by omega
        simp only [h₁, h₂]
      · omega
    · simp only [hs, dite_false]
      split_ifs with hc h₀ hq hq <;> first | omega | simp
  · simp only [hr, if_false]
    rw [getElem_moved _ _ (by omega)]
    by_cases hs : shift ≤ i
    · have h₁ : shift / 8 ≤ i.val / 8 := by omega
      have h₂ : i.val / 8 - shift / 8 = (i.val - shift) / 8 := by omega
      have h₃ : i.val % 8 = (i.val - shift) % 8 := by omega
      simp only [h₁, hs, if_true, dite_true, bit_eq_getLsbD, h₂, h₃]
    · have h₁ : ¬shift / 8 ≤ i.val / 8 := by omega
      simp [h₁, hs]

end Bitmap

/-- A window of 256 sequence numbers. -/
structure ReplayWindow256 where
  maxSeq : UInt64
  bitmap : Bitmap
  valid : Bool
  deriving DecidableEq

namespace ReplayWindow256

instance : Inhabited ReplayWindow256 := ⟨{ maxSeq := 0, bitmap := Bitmap.zero, valid := false }⟩

/-- The window `self.clear()` leaves. -/
def clear (_ : ReplayWindow256) : ReplayWindow256 := default

def testBit (w : ReplayWindow256) (idx : Fin 256) : Bool := w.bitmap.bit idx

def setBit (w : ReplayWindow256) (idx : Fin 256) : ReplayWindow256 :=
  { w with
    bitmap := w.bitmap.set (idx.val / 8)
      (w.bitmap[idx.val / 8] ||| ((1 : UInt8) <<< UInt8.ofNat (idx.val % 8))) }

def shiftRight (w : ReplayWindow256) (shift : ℕ) : ReplayWindow256 :=
  if shift = 0 then w
  else if 256 ≤ shift then { w with bitmap := Bitmap.zero }
  else { w with bitmap := w.bitmap.shift shift }

/-- A 64-bit difference cast to a 32-bit `usize`. -/
def distance (hi lo : UInt64) : ℕ := (hi - lo).toNat % 2 ^ 32

def canAccept (w : ReplayWindow256) (seq : UInt64) : Bool :=
  if !w.valid || w.maxSeq < seq then true
  else
    let delta := distance w.maxSeq seq
    if h : delta < 256 then !w.testBit ⟨delta, h⟩ else false

/-- Accepting a sequence: the new window and whether it was accepted. -/
def accept (w : ReplayWindow256) (seq : UInt64) : ReplayWindow256 × Bool :=
  if !w.valid then (({ w with valid := true, maxSeq := seq }).setBit 0, true)
  else if w.maxSeq < seq then
    (({ w.shiftRight (distance seq w.maxSeq) with maxSeq := seq }).setBit 0, true)
  else
    let delta := distance w.maxSeq seq
    if h : delta < 256 then
      if w.testBit ⟨delta, h⟩ then (w, false) else (w.setBit ⟨delta, h⟩, true)
    else (w, false)

/-- Checking a sequence foretells what accepting it gives. -/
theorem canAccept_eq_accept (w : ReplayWindow256) (seq : UInt64) :
    w.canAccept seq = (w.accept seq).2 := by
  unfold canAccept accept
  by_cases hv : w.valid <;> by_cases hs : w.maxSeq < seq <;> simp only [hv, hs] <;> simp
  split_ifs with h ht <;> simp_all

/-- A refused sequence leaves the window as it was. -/
theorem accept_of_refused {w : ReplayWindow256} {seq : UInt64} (h : (w.accept seq).2 = false) :
    (w.accept seq).1 = w := by
  unfold accept at h ⊢
  by_cases hv : w.valid <;> by_cases hs : w.maxSeq < seq <;> simp only [hv, hs] at h ⊢ <;>
    simp at h ⊢
  split_ifs at h ⊢ <;> simp_all

/-! ### The bits of a window -/

theorem testBit_shiftRight (w : ReplayWindow256) (shift : ℕ) (i : Fin 256) :
    (w.shiftRight shift).testBit i =
      if h : shift ≤ i then w.testBit ⟨i - shift, by omega⟩ else false := by
  unfold shiftRight testBit
  by_cases h₀ : shift = 0
  · simp [h₀]
  · by_cases h₁ : 256 ≤ shift
    · have h₂ : ¬shift ≤ i := by omega
      simp [h₀, h₁, h₂, Bitmap.bit_eq_getLsbD, Bitmap.zero]
    · simp only [h₀, h₁, if_false, Bitmap.bit_shift]

/-- A bit that is not filled in comes from somewhere. -/
theorem dite_eq_true {p : Prop} [Decidable p] {f : p → Bool} :
    (if h : p then f h else false) = true ↔ ∃ h, f h = true := by
  split_ifs with h
  · exact ⟨fun hbit => ⟨h, hbit⟩, fun ⟨_, hbit⟩ => hbit⟩
  · exact ⟨fun hbit => absurd hbit (by decide), fun ⟨h', _⟩ => absurd h' h⟩

/-- Shifting is a shift of the 256 bits: no bit is lost below the end of the window, and none
    appears twice. The byte move alone is the shift by whole bytes, the carry pass that by the
    bits that are left. -/
theorem shift_exact (w : ReplayWindow256) (shift : ℕ) :
    (∀ i : Fin 256, (w.shiftRight shift).testBit i = true ↔
      ∃ h : shift ≤ i, w.testBit ⟨i - shift, by omega⟩ = true) ∧
    (∀ (i : Fin 256) (h : i + shift < 256),
      (w.shiftRight shift).testBit ⟨i + shift, h⟩ = w.testBit i) ∧
    (∀ (b : Bitmap) (i : Fin 256), 0 < shift / 8 → ((b.shiftBytes (shift / 8) 32 le_rfl).bit i =
      true ↔ ∃ h : 8 * (shift / 8) ≤ i, b.bit ⟨i - 8 * (shift / 8), by omega⟩ = true)) ∧
    (∀ (b : Bitmap) (i : Fin 256), 0 < shift % 8 → ((b.shiftBits (shift % 8) 32 le_rfl 0).bit i =
      true ↔ ∃ h : shift % 8 ≤ i, b.bit ⟨i - shift % 8, by omega⟩ = true)) ∧
    (w.shiftRight shift).maxSeq = w.maxSeq ∧ (w.shiftRight shift).valid = w.valid := by
  refine ⟨fun i => ?_, fun i h => ?_, fun b i hbytes => ?_, fun b i hbits => ?_, ?_, ?_⟩
  · rw [testBit_shiftRight, dite_eq_true]
  · rw [testBit_shiftRight, dif_pos (Nat.le_add_left _ _)]
    congr 1
    exact Fin.ext (Nat.add_sub_cancel _ _)
  · -- Without bits that are left, the byte move is the whole shift.
    have hmove : b.shift (8 * (shift / 8)) = b.shiftBytes (shift / 8) 32 le_rfl := by
      rw [Bitmap.shift, Nat.mul_div_cancel_left _ (by norm_num), Nat.mul_mod_right, if_pos hbytes]
      rfl
    rw [← hmove, Bitmap.bit_shift, dite_eq_true]
  · -- Without whole bytes, the carry pass is the whole shift.
    have hcarry : b.shift (shift % 8) = b.shiftBits (shift % 8) 32 le_rfl 0 := by
      have hlt : shift % 8 < 8 := Nat.mod_lt _ (by norm_num)
      rw [Bitmap.shift, Nat.div_eq_of_lt hlt, Nat.mod_mod, if_pos hbits]
      rfl
    rw [← hcarry, Bitmap.bit_shift, dite_eq_true]
  · unfold shiftRight
    split_ifs <;> rfl
  · unfold shiftRight
    split_ifs <;> rfl

theorem testBit_setBit (w : ReplayWindow256) (idx i : Fin 256) :
    (w.setBit idx).testBit i = (w.testBit i || decide (i = idx)) := by
  unfold setBit testBit
  simp only [Bitmap.bit_eq_getLsbD, Vector.getElem_set]
  have h8 : ∀ n, n % 8 < 8 := fun n => Nat.mod_lt n (by norm_num)
  by_cases hb : idx.val / 8 = i.val / 8
  · have hiff : i.val % 8 = idx.val % 8 ↔ i = idx := by
      rw [Fin.ext_iff]; omega
    simp only [hb, if_true, UInt8.getLsbD_or_bit _ (h8 _) (h8 _), hiff]
  · have hne : i ≠ idx := fun h => hb (by rw [h])
    simp [hb, hne]

@[simp] theorem setBit_maxSeq (w : ReplayWindow256) (idx : Fin 256) :
    (w.setBit idx).maxSeq = w.maxSeq := rfl

@[simp] theorem setBit_valid (w : ReplayWindow256) (idx : Fin 256) :
    (w.setBit idx).valid = w.valid := rfl

@[simp] theorem shiftRight_valid (w : ReplayWindow256) (shift : ℕ) :
    (w.shiftRight shift).valid = w.valid := by
  unfold shiftRight
  split_ifs <;> rfl

/-! ### What a window remembers -/

/-- The window remembers the sequences `seen`: all are at most the largest, and
    the bits of those within 256 of it are set. -/
structure Remembers (w : ReplayWindow256) (seen : Set UInt64) : Prop where
  valid : seen.Nonempty → w.valid
  le_maxSeq : ∀ s ∈ seen, s ≤ w.maxSeq
  testBit : ∀ s ∈ seen, ∀ h : (w.maxSeq - s).toNat < 256, w.testBit ⟨_, h⟩

theorem remembers_empty (w : ReplayWindow256) : w.Remembers ∅ :=
  ⟨fun h => absurd h Set.not_nonempty_empty, fun _ h => h.elim, fun _ h => h.elim⟩

/-- The cast of `seq`'s distance below the largest sequence loses nothing. -/
def InReach (w : ReplayWindow256) (seq : UInt64) : Prop :=
  w.valid → seq ≤ w.maxSeq → (w.maxSeq - seq).toNat < 2 ^ 32

instance (w : ReplayWindow256) (seq : UInt64) : Decidable (w.InReach seq) :=
  inferInstanceAs (Decidable (_ → _ → _))

/-- Moving the bits up to a new largest sequence keeps what was seen. -/
theorem Remembers.shift {w : ReplayWindow256} {seen : Set UInt64} (h : w.Remembers seen)
    (hv : w.valid) {seq : UInt64} (hs : w.maxSeq < seq) :
    (({ w.shiftRight (distance seq w.maxSeq) with maxSeq := seq }).setBit 0).Remembers
      (insert seq seen) := by
  refine ⟨fun _ => by simpa using hv, ?_, ?_⟩
  · rintro s (rfl | hmem)
    · exact UInt64.le_refl _
    · exact UInt64.le_trans (h.le_maxSeq s hmem) (UInt64.le_of_lt hs)
  · rintro s (rfl | hmem) hlt
    · simp [testBit_setBit]
    · -- `s` is within 256 of the new largest, hence the old one was too, and the
      -- difference survives the cast.
      have hle := h.le_maxSeq s hmem
      have e₁ := UInt64.toNat_sub_of_le _ _ (UInt64.le_of_lt hs)
      have e₂ := UInt64.toNat_sub_of_le _ _ hle
      have e₃ := UInt64.toNat_sub_of_le _ _ (UInt64.le_trans hle (UInt64.le_of_lt hs))
      rw [UInt64.le_iff_toNat_le] at hle
      rw [UInt64.lt_iff_toNat_lt] at hs
      replace hlt : (seq - s).toNat < 256 := hlt
      have hd : distance seq w.maxSeq = seq.toNat - w.maxSeq.toNat := by
        rw [distance, e₁, Nat.mod_eq_of_lt (by omega)]
      have hidx : (seq - s).toNat - (seq.toNat - w.maxSeq.toNat) = (w.maxSeq - s).toNat := by
        omega
      have hbit := h.testBit s hmem (by omega)
      have hshift := testBit_shiftRight w (distance seq w.maxSeq) ⟨_, hlt⟩
      rw [testBit_setBit, Bool.or_eq_true]
      left
      change (w.shiftRight (distance seq w.maxSeq)).testBit ⟨(seq - s).toNat, hlt⟩ = true
      rw [hshift, dif_pos (by simp only [hd]; omega)]
      simp only [hd, hidx]
      exact hbit

/-- Setting the bit of a sequence within the window adds it to what was seen. -/
theorem Remembers.setBit {w : ReplayWindow256} {seen : Set UInt64} (h : w.Remembers seen)
    (hv : w.valid) {seq : UInt64} (hle : seq ≤ w.maxSeq) (hlt : (w.maxSeq - seq).toNat < 256) :
    (w.setBit ⟨_, hlt⟩).Remembers (insert seq seen) := by
  refine ⟨fun _ => hv, ?_, ?_⟩
  · rintro s (rfl | hmem)
    · exact hle
    · exact h.le_maxSeq s hmem
  · rintro s (rfl | hmem) hs
    · simp [testBit_setBit]
    · rw [testBit_setBit, Bool.or_eq_true]
      exact .inl (h.testBit s hmem hs)

/-- An accepted sequence is a new one, and it is remembered from then on. -/
theorem Remembers.accept {w : ReplayWindow256} {seen : Set UInt64} (h : w.Remembers seen)
    (seq : UInt64) (hreach : w.InReach seq) (hacc : (w.accept seq).2 = true) :
    seq ∉ seen ∧ (w.accept seq).1.Remembers (insert seq seen) := by
  unfold ReplayWindow256.accept at hacc ⊢
  by_cases hv : w.valid
  · by_cases hs : w.maxSeq < seq
    · -- A sequence above all those seen: the bits move up by the difference.
      simp only [hv, hs, Bool.not_true, Bool.false_eq_true, if_false, if_true] at hacc ⊢
      refine ⟨fun hmem => absurd hs (UInt64.not_lt.2 (h.le_maxSeq _ hmem)), ?_⟩
      exact h.shift hv hs
    · -- A sequence within the window: its bit is clear, so it was not seen.
      simp only [hv, hs, Bool.not_true, Bool.false_eq_true, if_false] at hacc ⊢
      have hle : seq ≤ w.maxSeq := UInt64.not_lt.1 hs
      have hd : distance w.maxSeq seq = (w.maxSeq - seq).toNat :=
        Nat.mod_eq_of_lt (hreach hv hle)
      simp only [hd] at hacc ⊢
      split_ifs at hacc ⊢ with hlt hbit
      exact ⟨fun hmem => hbit (h.testBit _ hmem hlt), h.setBit hv hle hlt⟩
  · -- An empty window has seen nothing.
    have hseen : seen = ∅ := Set.not_nonempty_iff_eq_empty.1 fun hne => hv (h.valid hne)
    simp only [hv, Bool.not_false, if_true, hseen]
    refine ⟨Set.notMem_empty _, fun _ => rfl, ?_, ?_⟩
    · rintro s (rfl | hs)
      · exact UInt64.le_refl _
      · exact hs.elim
    · rintro s (rfl | hs) hlt
      · simp [testBit_setBit]
      · exact hs.elim

end ReplayWindow256

end EasyTierEdge
