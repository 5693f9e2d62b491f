import Mathlib

/-!
# Sets in order

The elements of a finite set in ascending order, as an ordered set is iterated. Unlike
`Finset.sort` it is computed by insertion, and evaluates in the kernel.
-/

namespace Finset

variable {α : Type*} [LinearOrder α]

/-- The elements of a finite set in ascending order. -/
def ascending (s : Finset α) : List α :=
  Quot.liftOn s.val (List.insertionSort (· ≤ ·)) fun l l' h =>
    have hperm := (List.perm_insertionSort (· ≤ ·) l).trans
      (h.trans (List.perm_insertionSort (· ≤ ·) l').symm)
    hperm.eq_of_pairwise' (List.pairwise_insertionSort _ l) (List.pairwise_insertionSort _ l')

theorem coe_ascending (s : Finset α) : (s.ascending : Multiset α) = s.val := by
  obtain ⟨l, h⟩ := s
  induction l using Quot.inductionOn with
  | h l => exact Multiset.coe_eq_coe.2 (List.perm_insertionSort _ l)

@[simp] theorem mem_ascending {s : Finset α} {a : α} : a ∈ s.ascending ↔ a ∈ s := by
  rw [← Multiset.mem_coe, coe_ascending, mem_val]

theorem nodup_ascending (s : Finset α) : s.ascending.Nodup := by
  rw [← Multiset.coe_nodup, coe_ascending]
  exact s.nodup

end Finset
