import Mathlib

/-!
# Guarded registers

A register holds a value. A *guard* says of every request, given the value it finds,
which value it writes, if it writes one at all. What a list of requests does to the
register is told by the values they write (`writes`): the last of them is what the
register holds in the end, and the register is untouched when there are none.

* `foldl_guard`: going through the requests one by one leaves the last value written;
* `writes_eq_nil_iff`: when every write raises the rank of the value, the register has
  changed just when something was written.

A *cell* may also be empty: a request puts a value into it, or leaves the value that is there,
or takes it away. What it holds in the end was put there by the last request that put something,
and left alone by all later ones (`foldl_cellStep_eq_some_iff`).
-/

namespace EasyTierEdge

variable {α β : Type*} (guard : β → α → Option β)

/-- The values that a list of requests writes to a register with the value `v`. -/
def writes : β → List α → List β
  | _, [] => []
  | v, a :: as =>
    match guard v a with
    | some w => w :: writes w as
    | none => writes v as

variable {guard}

@[simp] theorem writes_nil (v : β) : writes guard v [] = [] := rfl

theorem writes_cons_of_some {v w : β} {a : α} (h : guard v a = some w) (as : List α) :
    writes guard v (a :: as) = w :: writes guard w as := by
  rw [writes, h]

theorem writes_cons_of_none {v : β} {a : α} (h : guard v a = none) (as : List α) :
    writes guard v (a :: as) = writes guard v as := by
  rw [writes, h]

theorem writes_singleton (v : β) (a : α) : writes guard v [a] = (guard v a).toList := by
  cases h : guard v a with
  | none => rw [writes_cons_of_none h, writes_nil, Option.toList_none]
  | some w => rw [writes_cons_of_some h, writes_nil, Option.toList_some]

/-- Requests that write nothing, whatever they find, may be left out. -/
theorem writes_filter {p : α → Bool} (hguard : ∀ v a, p a = false → guard v a = none) (v : β)
    (as : List α) : writes guard v as = writes guard v (as.filter p) := by
  induction as generalizing v with
  | nil => rfl
  | cons a as ih =>
    cases hp : p a with
    | false => rw [List.filter_cons_of_neg (by simp [hp]), writes_cons_of_none (hguard v a hp), ih]
    | true =>
      rw [List.filter_cons_of_pos hp]
      cases h : guard v a with
      | none => rw [writes_cons_of_none h, writes_cons_of_none h, ih]
      | some w => rw [writes_cons_of_some h, writes_cons_of_some h, ih]

/-- The register holds the last value written. -/
theorem foldl_guard (v : β) (as : List α) :
    as.foldl (fun v a => (guard v a).getD v) v = (writes guard v as).getLastD v := by
  induction as generalizing v with
  | nil => rfl
  | cons a as ih =>
    rw [List.foldl_cons, ih]
    cases h : guard v a with
    | none => rw [writes_cons_of_none h, Option.getD_none]
    | some w => rw [writes_cons_of_some h, Option.getD_some, List.getLastD_cons]

/-- Every value written was written over another one. -/
theorem exists_guard_of_mem_writes {v w : β} {as : List α} (h : w ∈ writes guard v as) :
    ∃ u, ∃ a ∈ as, guard u a = some w := by
  induction as generalizing v with
  | nil => exact absurd h List.not_mem_nil
  | cons a as ih =>
    have hrest : ∀ v, w ∈ writes guard v as → ∃ u, ∃ b ∈ a :: as, guard u b = some w := by
      intro v hv
      obtain ⟨u, b, hb, hub⟩ := ih hv
      exact ⟨u, b, List.mem_cons_of_mem a hb, hub⟩
    cases ha : guard v a with
    | none =>
      rw [writes_cons_of_none ha] at h
      exact hrest v h
    | some x =>
      rw [writes_cons_of_some ha] at h
      rcases List.mem_cons.1 h with rfl | h
      · exact ⟨v, a, List.mem_cons_self, ha⟩
      · exact hrest x h

/-- A register that was written holds one of the values written. -/
theorem getLastD_mem_writes {v : β} {as : List α} (h : writes guard v as ≠ []) :
    (writes guard v as).getLastD v ∈ writes guard v as := by
  rw [List.getLastD_eq_getLast?, List.getLast?_eq_some_getLast h, Option.getD_some]
  exact List.getLast_mem h

section Rank

variable {γ : Type*} [Preorder γ] {rank : β → γ}

/-- When every write raises the rank of the value, so does the last one. -/
theorem lt_of_mem_writes (hguard : ∀ v a w, guard v a = some w → rank v < rank w) {v : β}
    {as : List α} {w : β} (h : w ∈ writes guard v as) : rank v < rank w := by
  induction as generalizing v with
  | nil => exact absurd h List.not_mem_nil
  | cons a as ih =>
    cases ha : guard v a with
    | none =>
      rw [writes_cons_of_none ha] at h
      exact ih h
    | some u =>
      rw [writes_cons_of_some ha] at h
      have hu : rank v < rank u := hguard v a u ha
      rcases List.mem_cons.1 h with rfl | h
      · exact hu
      · exact hu.trans (ih h)

/-- A register whose writes raise the rank of its value has changed just when one was
    made. -/
theorem writes_eq_nil_iff (hguard : ∀ v a w, guard v a = some w → rank v < rank w) (v : β)
    (as : List α) : writes guard v as = [] ↔ (writes guard v as).getLastD v = v := by
  refine ⟨fun h => by rw [h]; rfl, fun h => ?_⟩
  by_contra hne
  have hlast := getLastD_mem_writes hne
  rw [h] at hlast
  exact lt_irrefl _ (lt_of_mem_writes hguard hlast)

end Rank

section Cells

variable (put : α → Option β) (spares : β → α → Bool)

/-- A cell after a request, which puts a value there, or spares the value that is there or not. -/
def cellStep (cell : Option β) (a : α) : Option β := (put a).or (cell.filter (spares · a))

/-- Of a list of requests, one put the value there, and all later ones left it. -/
def Stands (as : List α) (v : β) : Prop :=
  ∃ before a after, as = before ++ a :: after ∧ put a = some v ∧
    ∀ b ∈ after, put b = none ∧ spares v b = true

variable {put spares}

theorem stands_snoc_iff {as : List α} {a : α} {v : β} : Stands put spares (as ++ [a]) v ↔
    put a = some v ∨ put a = none ∧ spares v a = true ∧ Stands put spares as v := by
  constructor
  · rintro ⟨before, b, after, hsplit, hput, hafter⟩
    -- The last request is the one that put the value, or it is a later one.
    rcases List.eq_nil_or_concat after with rfl | ⟨after, c, rfl⟩
    · obtain ⟨-, rfl⟩ := List.append_inj' hsplit rfl |>.imp_right List.singleton_inj.1
      exact .inl hput
    · rw [List.concat_eq_append] at hsplit hafter
      rw [← List.cons_append, ← List.append_assoc] at hsplit
      obtain ⟨rfl, hlast⟩ := List.append_inj' hsplit rfl
      obtain rfl := List.singleton_inj.1 hlast
      obtain ⟨hnone, hspares⟩ := hafter a (List.mem_append_right _ List.mem_cons_self)
      exact .inr ⟨hnone, hspares, before, b, after, rfl, hput,
        fun c hc => hafter c (List.mem_append_left _ hc)⟩
  · rintro (hput | ⟨hnone, hspares, before, b, after, rfl, hput, hafter⟩)
    · exact ⟨as, a, [], rfl, hput, fun b hb => absurd hb List.not_mem_nil⟩
    · refine ⟨before, b, after ++ [a], by simp, hput, fun c hc => ?_⟩
      rcases List.mem_append.1 hc with hc | hc
      · exact hafter c hc
      · rw [List.mem_singleton.1 hc]
        exact ⟨hnone, hspares⟩

/-- An empty cell, after any requests, holds the value that stands. -/
theorem foldl_cellStep_eq_some_iff (as : List α) (v : β) :
    as.foldl (cellStep put spares) none = some v ↔ Stands put spares as v := by
  induction as using List.reverseRecOn with
  | nil =>
    rw [List.foldl_nil]
    refine ⟨fun h => ?_, fun ⟨_, _, _, h, _⟩ => ?_⟩
    · cases h
    · simp at h
  | append_singleton as a ih =>
    rw [List.foldl_append, List.foldl_cons, List.foldl_nil, stands_snoc_iff, ← ih, cellStep]
    cases hput : put a with
    | none => simp [Option.filter_eq_some_iff, and_comm]
    | some w => simp

end Cells

end EasyTierEdge
