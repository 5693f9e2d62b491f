import EasyTierEdge.Lib.Machine
import EasyTierEdge.Secure.ReplayWindow

/-!
# What a window accepts

A replay window is to accept a sequence just when it has not accepted it before and it is
above the largest one accepted, or less than 256 below it. The distance of a sequence from
the largest one is a 64-bit value of which the low 32 bits are looked at. So this holds as
long as the sequences jump by less than `2 ^ 32`, or by so much more that the low bits do
not fall into the window either.

* `Exact w seen`: the bits of the window are the sequences seen;
* `Exact.accept`: then the window accepts a sequence as it should, and is exact again;
* `window_exact`: so it is in every run without a lossy jump. `window_refuses_fresh` is a run
  with one.
-/

namespace EasyTierEdge

namespace ReplayWindow256

variable {w : ReplayWindow256} {seen : Set UInt64} {seq : UInt64}

/-- The window is about the sequences `seen`: its largest one is theirs, and its bits are
    those of them that are within 256 of it. -/
structure Exact (w : ReplayWindow256) (seen : Set UInt64) : Prop where
  valid : w.valid = true ↔ seen.Nonempty
  greatest : seen.Nonempty → IsGreatest seen w.maxSeq
  testBit : ∀ i : Fin 256, w.testBit i = true ↔ ∃ s ∈ seen, w.maxSeq.toNat - s.toNat = i

/-- A sequence that is to be accepted. -/
def Due (seen : Set UInt64) (seq : UInt64) : Prop :=
  seq ∉ seen ∧ (seen = ∅ ∨ ∃ m, IsGreatest seen m ∧ (m < seq ∨ m.toNat - seq.toNat < 256))

/-- The low 32 bits of a difference are all of it, or out of the window as it is. -/
def KeptByCast (d : ℕ) : Prop := d < 2 ^ 32 ∨ 256 ≤ d % 2 ^ 32

/-- The cast of the distance of `seq` from the largest sequence loses nothing. -/
def Lossless (w : ReplayWindow256) (seq : UInt64) : Prop :=
  w.valid = true → KeptByCast (if w.maxSeq < seq then seq.toNat - w.maxSeq.toNat
    else w.maxSeq.toNat - seq.toNat)

instance decidableLossless (w : ReplayWindow256) (seq : UInt64) : Decidable (w.Lossless seq) :=
  inferInstanceAs (Decidable (_ → _ ∨ _))

theorem exact_default : Exact default ∅ := by
  refine ⟨by simp [default], fun h => absurd h Set.not_nonempty_empty, fun i => ?_⟩
  constructor
  · intro h
    rw [ReplayWindow256.testBit, Bitmap.bit_eq_getLsbD] at h
    simp [default, Bitmap.zero] at h
  · rintro ⟨s, hs, -⟩
    exact hs.elim

theorem distance_of_le {hi lo : UInt64} (h : lo ≤ hi) :
    distance hi lo = (hi.toNat - lo.toNat) % 2 ^ 32 := by
  rw [distance, UInt64.toNat_sub_of_le _ _ h]

/-- In the window the cast of a distance is the distance. -/
theorem KeptByCast.eq_of_lt {d k : ℕ} (h : KeptByCast d) (hk : d % 2 ^ 32 = k) (hlt : k < 256) :
    d = k := by
  rcases h with h | h
  · rw [← hk, Nat.mod_eq_of_lt h]
  · omega

namespace Exact

/-- An empty window has seen nothing. -/
theorem eq_empty (h : w.Exact seen) (hv : w.valid = false) : seen = ∅ := by
  refine Set.not_nonempty_iff_eq_empty.1 fun hne => ?_
  rw [h.valid.2 hne] at hv
  cases hv

theorem le_maxSeq (h : w.Exact seen) {s : UInt64} (hs : s ∈ seen) : s.toNat ≤ w.maxSeq.toNat :=
  UInt64.le_iff_toNat_le.1 ((h.greatest ⟨s, hs⟩).2 hs)

/-- The first sequence. -/
theorem setBit_first (h : w.Exact ∅) (seq : UInt64) :
    (({ w with valid := true, maxSeq := seq } : ReplayWindow256).setBit 0).Exact {seq} := by
  refine ⟨by simp, fun _ => ⟨rfl, fun s hs => ?_⟩, fun i => ?_⟩
  · rw [Set.mem_singleton_iff.1 hs]
    exact UInt64.le_refl _
  · have hclear : ({ w with valid := true, maxSeq := seq } : ReplayWindow256).testBit i = false := by
      rw [Bool.eq_false_iff]
      intro hbit
      obtain ⟨s, hs, -⟩ := (h.testBit i).1 hbit
      exact hs
    rw [testBit_setBit, hclear, Bool.false_or, decide_eq_true_iff]
    constructor
    · rintro rfl
      exact ⟨seq, rfl, by simp⟩
    · rintro ⟨s, hs, hi⟩
      rw [Set.mem_singleton_iff.1 hs, setBit_maxSeq, Nat.sub_self] at hi
      exact Fin.ext hi.symm

/-- A sequence above the largest one. -/
theorem shift (h : w.Exact seen) (hv : w.valid = true) (hlt : w.maxSeq < seq)
    (hcast : KeptByCast (seq.toNat - w.maxSeq.toNat)) :
    (({ w.shiftRight (distance seq w.maxSeq) with maxSeq := seq } : ReplayWindow256).setBit 0).Exact
      (insert seq seen) := by
  have hle := UInt64.le_of_lt hlt
  rw [UInt64.lt_iff_toNat_lt] at hlt
  have hd := distance_of_le hle
  refine ⟨by simp [hv], fun _ => ⟨Set.mem_insert _ _, ?_⟩, fun i => ?_⟩
  · rintro s (rfl | hs)
    · exact UInt64.le_refl _
    · exact UInt64.le_trans ((h.greatest ⟨s, hs⟩).2 hs) hle
  · have hshift := testBit_shiftRight w (distance seq w.maxSeq) i
    have hi := i.isLt
    rw [testBit_setBit, Bool.or_eq_true, decide_eq_true_iff, setBit_maxSeq]
    change (w.shiftRight (distance seq w.maxSeq)).testBit i = true ∨ i = 0 ↔
      ∃ s ∈ insert seq seen, seq.toNat - s.toNat = i
    rw [hshift]
    constructor
    · rintro (hbit | rfl)
      · split_ifs at hbit with hdist
        -- The bit was that of a sequence the distance below.
        obtain ⟨s, hs, hsi⟩ := (h.testBit _).1 hbit
        have hkept := hcast.eq_of_lt hd.symm (by omega)
        have hsmax := h.le_maxSeq hs
        refine ⟨s, Set.mem_insert_of_mem _ hs, ?_⟩
        dsimp only at hsi
        omega
      · exact ⟨seq, Set.mem_insert _ _, by simp⟩
    · rintro ⟨s, rfl | hs, hsi⟩
      · right
        rw [Nat.sub_self] at hsi
        exact Fin.ext hsi.symm
      · left
        have hsmax := h.le_maxSeq hs
        have hsmall : seq.toNat - w.maxSeq.toNat < 2 ^ 32 := by omega
        have hdist : distance seq w.maxSeq = seq.toNat - w.maxSeq.toNat := by
          rw [hd, Nat.mod_eq_of_lt hsmall]
        rw [dif_pos (by omega), h.testBit]
        refine ⟨s, hs, ?_⟩
        dsimp only
        omega

/-- The bit of a sequence in the window says whether it was seen. -/
theorem testBit_iff_mem (h : w.Exact seen) (hle : seq ≤ w.maxSeq) {i : Fin 256}
    (hi : w.maxSeq.toNat - seq.toNat = i) : w.testBit i = true ↔ seq ∈ seen := by
  rw [UInt64.le_iff_toNat_le] at hle
  rw [h.testBit]
  constructor
  · rintro ⟨s, hs, hsi⟩
    have hsmax := h.le_maxSeq hs
    have heq : s = seq := UInt64.toNat.inj (by omega)
    exact heq ▸ hs
  · exact fun hs => ⟨seq, hs, hi⟩

/-- A sequence below the largest one, within the window. -/
theorem setBit (h : w.Exact seen) (hv : w.valid = true) (hle : seq ≤ w.maxSeq) {i : Fin 256}
    (hi : w.maxSeq.toNat - seq.toNat = i) : (w.setBit i).Exact (insert seq seen) := by
  refine ⟨by simp [hv], fun _ => ⟨?_, ?_⟩, fun j => ?_⟩
  · exact Set.mem_insert_of_mem _ (h.greatest (h.valid.1 hv)).1
  · rintro s (rfl | hs)
    · exact hle
    · exact (h.greatest ⟨s, hs⟩).2 hs
  · rw [testBit_setBit, Bool.or_eq_true, decide_eq_true_iff, h.testBit, setBit_maxSeq]
    constructor
    · rintro (⟨s, hs, hsj⟩ | rfl)
      · exact ⟨s, Set.mem_insert_of_mem _ hs, hsj⟩
      · exact ⟨seq, Set.mem_insert _ _, hi⟩
    · rintro ⟨s, rfl | hs, hsj⟩
      · exact .inr (Fin.ext (hsj.symm.trans hi))
      · exact .inl ⟨s, hs, hsj⟩

/-- An exact window accepts what is due, and is exact again. -/
theorem accept (h : w.Exact seen) (hcast : w.Lossless seq) :
    ((w.accept seq).2 = true ↔ Due seen seq) ∧
      ((w.accept seq).2 = true → (w.accept seq).1.Exact (insert seq seen)) := by
  unfold ReplayWindow256.accept
  cases hv : w.valid with
  | false =>
    obtain rfl := h.eq_empty hv
    simp only [Bool.not_false, if_true, true_iff, true_implies, insert_empty_eq]
    exact ⟨⟨Set.notMem_empty _, .inl rfl⟩, h.setBit_first seq⟩
  | true =>
    have hgreatest := h.greatest (h.valid.1 hv)
    have hkept := hcast hv
    simp only [Bool.not_true, Bool.false_eq_true, if_false]
    by_cases hlt : w.maxSeq < seq
    · rw [if_pos hlt] at hkept ⊢
      simp only [true_iff, true_implies]
      refine ⟨⟨fun hmem => ?_, .inr ⟨w.maxSeq, hgreatest, .inl hlt⟩⟩, h.shift hv hlt hkept⟩
      exact absurd hlt (UInt64.not_lt.2 (hgreatest.2 hmem))
    · rw [if_neg hlt] at hkept ⊢
      have hle : seq ≤ w.maxSeq := UInt64.not_lt.1 hlt
      have hd := distance_of_le hle
      -- The largest sequence seen is the window's.
      have hdue : Due seen seq ↔ seq ∉ seen ∧ w.maxSeq.toNat - seq.toNat < 256 := by
        refine and_congr_right fun _ => ?_
        constructor
        · rintro (hempty | ⟨m, hm, hnear⟩)
          · exact absurd hempty (h.valid.1 hv).ne_empty
          · have heq : m = w.maxSeq :=
              UInt64.le_antisymm (hgreatest.2 hm.1) (hm.2 hgreatest.1)
            exact (heq ▸ hnear).resolve_left hlt
        · exact fun hnear => .inr ⟨w.maxSeq, hgreatest, .inr hnear⟩
      rw [hdue]
      split_ifs with hnear hbit
      · -- Seen before.
        have hi := hkept.eq_of_lt hd.symm hnear
        have hmem := (h.testBit_iff_mem hle hi).1 hbit
        simp [hmem]
      · have hi := hkept.eq_of_lt hd.symm hnear
        have hfresh : seq ∉ seen := fun hmem => hbit ((h.testBit_iff_mem hle hi).2 hmem)
        simp only [true_iff, true_implies]
        exact ⟨⟨hfresh, by omega⟩, h.setBit hv hle hi⟩
      · -- Too far below.
        have hfar : ¬ w.maxSeq.toNat - seq.toNat < 256 := by
          intro hlt256
          rw [hd, Nat.mod_eq_of_lt (by omega)] at hnear
          exact hnear hlt256
        simp [hfar]

end Exact

/-! ## Runs -/

/-- A window as a machine: it is fed sequences, and says which it accepts. -/
def machine : Machine ReplayWindow256 UInt64 Bool where
  init := default
  step := ReplayWindow256.accept

/-- The sequences that were accepted. -/
def accepted (tr : List (Event ReplayWindow256 UInt64 Bool)) : Set UInt64 :=
  {s | ∃ e ∈ tr, e.output = true ∧ e.input = s}

theorem accepted_nil : accepted [] = ∅ := by
  ext s
  simp [accepted]

theorem accepted_snoc (tr : List (Event ReplayWindow256 UInt64 Bool))
    (e : Event ReplayWindow256 UInt64 Bool) :
    accepted (tr ++ [e]) = if e.output = true then insert e.input (accepted tr) else accepted tr := by
  ext s
  have hsplit : s ∈ accepted (tr ++ [e]) ↔ s ∈ accepted tr ∨ e.output = true ∧ e.input = s := by
    simp only [accepted, Set.mem_ofPred_eq, List.mem_append, List.mem_singleton, or_and_right,
      exists_or, exists_eq_left]
  rw [hsplit]
  split_ifs with hout
  · rw [Set.mem_insert_iff, or_comm, and_iff_right hout, eq_comm]
  · exact or_iff_left fun h => hout h.1

/-- The answer to a sequence is right, given the history, and is what the check foretells. -/
def RightAnswer (before : List (Event ReplayWindow256 UInt64 Bool))
    (e : Event ReplayWindow256 UInt64 Bool) : Prop :=
  (e.output = true ↔ Due (accepted before) e.input) ∧ e.pre.canAccept e.input = e.output

/-- In a run without a lossy jump every answer is right. -/
theorem window_exact (seqs : List UInt64)
    (hseqs : Along (fun _ e => e.pre.Lossless e.input) (machine.history default seqs)) :
    Along RightAnswer (machine.history default seqs) := by
  have hrun : ∀ seqs : List UInt64,
      Along (fun _ e => e.pre.Lossless e.input) (machine.history default seqs) →
      (machine.run default seqs).Exact (accepted (machine.history default seqs)) := by
    intro seqs
    refine machine.history_invariant (P := fun tr w => w.Exact (accepted tr)) ?_ ?_ seqs
    · rw [accepted_nil]
      exact exact_default
    · intro tr w seq h hcast
      rw [accepted_snoc]
      split_ifs with hacc
      · exact (h.accept hcast).2 hacc
      · have hrefused : (machine.step w seq).1 = w := accept_of_refused (Bool.eq_false_iff.2 hacc)
        rw [hrefused]
        exact h
  intro before e after hsplit
  obtain ⟨js, seq, ks, rfl, rfl, rfl⟩ := machine.history_split hsplit
  have hcast := hseqs _ _ _ hsplit
  rw [hsplit] at hseqs
  exact ⟨((hrun js hseqs.append_left).accept hcast).1, canAccept_eq_accept _ seq⟩

/-- Sequences that go back and forth within the window and jump beyond it. -/
theorem window_exact_reordered :
    Along (fun _ e => e.pre.Lossless e.input) (machine.history default [5, 3, 3, 300, 44, 45, 5]) ∧
      machine.outputs default [5, 3, 3, 300, 44, 45, 5] =
        [true, true, false, true, false, true, false] ∧
      Along RightAnswer (machine.history default [5, 3, 3, 300, 44, 45, 5]) := by
  have hseqs : Along (fun _ e => e.pre.Lossless e.input)
      (machine.history default [5, 3, 3, 300, 44, 45, 5]) := by decide +kernel
  exact ⟨hseqs, by decide +kernel, window_exact _ hseqs⟩

/-- After a jump by `2 ^ 32 + 1` the bits have moved by one: the sequence before the largest
    one is taken for the first one, and refused. -/
theorem window_refuses_fresh :
    machine.outputs default [0, 2 ^ 32 + 1, 2 ^ 32] = [true, true, false] ∧
      ¬ Along RightAnswer (machine.history default [0, 2 ^ 32 + 1, 2 ^ 32]) := by
  refine ⟨by decide +kernel, fun h => ?_⟩
  let e₁ := machine.event default 0
  let e₂ := machine.event (machine.run default [0]) (2 ^ 32 + 1)
  let tr := [] ++ [e₁] ++ [e₂]
  obtain ⟨hright, -⟩ := h tr (machine.event (machine.run default [0, 2 ^ 32 + 1]) (2 ^ 32)) [] rfl
  have hseen : ∀ s, s ∈ accepted tr ↔ s = 0 ∨ s = 2 ^ 32 + 1 := by
    intro s
    have h₁ : e₁.output = true := by decide +kernel
    have h₂ : e₂.output = true := by decide +kernel
    rw [accepted_snoc, accepted_snoc, if_pos h₁, if_pos h₂, accepted_nil]
    exact or_comm.trans (or_congr_left (or_iff_left id))
  have hrefused : (machine.event (machine.run default [0, 2 ^ 32 + 1]) (2 ^ 32)).output = false := by
    decide +kernel
  rw [hrefused] at hright
  refine Bool.false_ne_true (hright.2 ⟨?_, .inr ⟨2 ^ 32 + 1, ⟨?_, ?_⟩, .inr ?_⟩⟩)
  · rw [hseen]
    decide
  · exact (hseen _).2 (.inr rfl)
  · intro s hs
    rcases (hseen s).1 hs with rfl | rfl
    · decide
    · decide
  · decide

end ReplayWindow256

end EasyTierEdge
