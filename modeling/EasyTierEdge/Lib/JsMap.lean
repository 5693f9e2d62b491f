import Mathlib

/-!
# Maps in the order of insertion

The maps of JavaScript: their entries are visited in the order in which the keys were first set.
Setting a key that is there keeps its place; a key that was deleted and is set again goes to
the end.
-/

/-- A map from `K` to `V` whose entries are in the order of insertion. -/
structure JsMap (K V : Type*) where
  entries : List (K × V)
  nodup_keys : (entries.map Prod.fst).Nodup

namespace JsMap

variable {K V : Type*}

instance : EmptyCollection (JsMap K V) := ⟨⟨[], List.nodup_nil⟩⟩

instance : Inhabited (JsMap K V) := ⟨∅⟩

/-- The values, in order. -/
def values (m : JsMap K V) : List V := m.entries.map Prod.snd

/-- The number of entries. -/
def size (m : JsMap K V) : ℕ := m.entries.length

variable [DecidableEq K] (m : JsMap K V)

def get (k : K) : Option V := (m.entries.find? fun e => e.1 = k).map Prod.snd

def set (k : K) (v : V) : JsMap K V :=
  if h : k ∈ m.entries.map Prod.fst then
    { entries := m.entries.map fun e => if e.1 = k then (k, v) else e
      nodup_keys := by
        have hkeys : (m.entries.map fun e => if e.1 = k then (k, v) else e).map Prod.fst =
            m.entries.map Prod.fst := by
          rw [List.map_map]
          refine List.map_congr_left fun e _ => ?_
          rw [Function.comp_apply]
          split_ifs with he
          · exact he.symm
          · rfl
        rw [hkeys]
        exact m.nodup_keys }
  else
    { entries := m.entries ++ [(k, v)]
      nodup_keys := by
        rw [List.map_append, List.nodup_append]
        refine ⟨m.nodup_keys, List.nodup_singleton k, fun a ha b hb => ?_⟩
        rw [List.map_singleton, List.mem_singleton] at hb
        rintro rfl
        obtain rfl : a = k := hb
        exact h ha }

def delete (k : K) : JsMap K V where
  entries := m.entries.filter fun e => e.1 ≠ k
  nodup_keys := m.nodup_keys.sublist (List.filter_sublist.map Prod.fst)

/-- The value of a key replaced, if there is one. -/
def modify (k : K) (f : V → V) : JsMap K V :=
  match m.get k with
  | some v => m.set k (f v)
  | none => m

variable {m} {k k' : K} {v : V}

theorem mem_entries_iff : (k, v) ∈ m.entries ↔ m.get k = some v := by
  obtain ⟨entries, hnodup⟩ := m
  unfold get
  induction entries with
  | nil => simp
  | cons e entries ih =>
    obtain ⟨k₀, v₀⟩ := e
    rw [List.map_cons, List.nodup_cons] at hnodup
    rw [List.mem_cons, List.find?_cons]
    by_cases h : k₀ = k
    · -- The key is not found behind its first place.
      have hnot : (k, v) ∉ entries := fun hmem =>
        hnodup.1 (List.mem_map.2 ⟨(k, v), hmem, h.symm⟩)
      simp [h, hnot, eq_comm]
    · rw [Prod.mk.injEq, decide_eq_false h]
      simp [Ne.symm h, ih hnodup.2]

@[simp] theorem get_empty (k : K) : (∅ : JsMap K V).get k = none := rfl

theorem mem_keys_iff : k ∈ m.entries.map Prod.fst ↔ (m.get k).isSome := by
  rw [List.mem_map, Option.isSome_iff_exists]
  constructor
  · rintro ⟨⟨k, v⟩, he, rfl⟩
    exact ⟨v, mem_entries_iff.1 he⟩
  · rintro ⟨v, hv⟩
    exact ⟨(k, v), mem_entries_iff.2 hv, rfl⟩

theorem mem_values_iff : v ∈ m.values ↔ ∃ k, m.get k = some v := by
  rw [values, List.mem_map]
  constructor
  · rintro ⟨⟨k, v⟩, he, rfl⟩
    exact ⟨k, mem_entries_iff.1 he⟩
  · rintro ⟨k, hk⟩
    exact ⟨(k, v), mem_entries_iff.2 hk, rfl⟩

theorem get_set (m : JsMap K V) (k k' : K) (v : V) :
    (m.set k v).get k' = if k' = k then some v else m.get k' := by
  refine Option.ext fun w => ?_
  rw [← mem_entries_iff, set]
  split_ifs with hmem hk hk
  · -- A key that is there is set in place.
    rw [List.mem_map, hk, Option.some.injEq]
    constructor
    · rintro ⟨e, -, he⟩
      split_ifs at he with hek
      · exact (Prod.mk.inj he).2
      · exact absurd (congrArg Prod.fst he) hek
    · rintro rfl
      obtain ⟨e, he, hek⟩ := List.mem_map.1 hmem
      exact ⟨e, he, by rw [if_pos hek]⟩
  · rw [List.mem_map, ← mem_entries_iff]
    constructor
    · rintro ⟨e, he, heq⟩
      split_ifs at heq with hek
      · exact absurd (congrArg Prod.fst heq).symm hk
      · exact heq ▸ he
    · exact fun he => ⟨_, he, by rw [if_neg hk]⟩
  · have hnone : (k, w) ∉ m.entries := fun he => hmem (List.mem_map_of_mem he)
    simp [hk, hnone, eq_comm]
  · rw [List.mem_append, List.mem_singleton, ← mem_entries_iff]
    simp [hk]

theorem get_delete (m : JsMap K V) (k k' : K) :
    (m.delete k).get k' = if k' = k then none else m.get k' := by
  refine Option.ext fun w => ?_
  rw [← mem_entries_iff, delete, List.mem_filter, mem_entries_iff]
  split_ifs with hk
  · simp [hk]
  · simp [hk]

theorem get_modify (m : JsMap K V) (k k' : K) (f : V → V) :
    (m.modify k f).get k' = if k' = k then (m.get k').map f else m.get k' := by
  unfold modify
  cases h : m.get k with
  | none =>
    split_ifs with hk
    · rw [hk, h]
      rfl
    · rfl
  | some v =>
    rw [get_set]
    split_ifs with hk
    · rw [hk, h]
      rfl
    · rfl

theorem size_eq_zero_iff : m.size = 0 ↔ ∀ k, m.get k = none := by
  rw [size, List.length_eq_zero_iff]
  constructor
  · intro h k
    rw [get, h]
    rfl
  · intro h
    refine List.eq_nil_iff_forall_not_mem.2 fun e he => ?_
    have hget := mem_entries_iff.1 he
    rw [h] at hget
    cases hget

end JsMap
