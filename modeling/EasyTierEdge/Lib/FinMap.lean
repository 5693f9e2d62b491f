import Mathlib

/-!
# Finite maps

Finite maps with values of one type, on Mathlib's `Finmap`: the operations of a
mutable hash map that `Finmap` lacks. `retain` keeps the entries a predicate
accepts, `mapValues` updates every value, `modify` the value of one key, `upsert`
creates it first when it is missing, `size` and `count` count entries, and `total` adds
up their weights. All of them are characterised by `lookup`, up to which finite maps are
equal (`Finmap.ext_lookup`).
-/

/-- A finite map from `K` to `V`. -/
abbrev FinMap (K V : Type*) := Finmap fun _ : K => V

namespace Finmap

variable {K V W : Type*}

/-- The entries that `p` accepts. -/
def retain (p : K → V → Bool) (m : FinMap K V) : FinMap K V where
  entries := m.entries.filter fun e => p e.1 e.2
  nodupKeys := Multiset.nodup_keys.1 <| Multiset.nodup_of_le
    (Multiset.map_le_map (Multiset.filter_le _ _)) (Multiset.nodup_keys.2 m.nodupKeys)

/-- Every value updated by `f`. -/
def mapValues (f : V → W) (m : FinMap K V) : FinMap K W where
  entries := m.entries.map fun e => ⟨e.1, f e.2⟩
  nodupKeys := Multiset.nodup_keys.1 <| by
    rw [Multiset.keys, Multiset.map_map]
    exact Multiset.nodup_keys.2 m.nodupKeys

/-- The number of entries. -/
def size (m : FinMap K V) : ℕ := Multiset.card m.entries

/-- The number of entries that `p` accepts. -/
def count (p : K → V → Bool) (m : FinMap K V) : ℕ := m.entries.countP fun e => p e.1 e.2

/-- The sum of the weights of the entries. -/
def total (w : K → V → ℕ) (m : FinMap K V) : ℕ := (m.entries.map fun e => w e.1 e.2).sum

variable [DecidableEq K]

/-- The value of `a`, if any, updated by `f`. -/
def modify (a : K) (f : V → V) (m : FinMap K V) : FinMap K V :=
  match m.lookup a with
  | some v => m.insert a (f v)
  | none => m

/-- The value of `a`, or else the default one, updated by `f`. -/
def upsert [Inhabited V] (a : K) (f : V → V) (m : FinMap K V) : FinMap K V :=
  m.insert a (f ((m.lookup a).getD default))

theorem lookup_insert_ite (a b : K) (v : V) (m : FinMap K V) :
    (m.insert b v).lookup a = if a = b then some v else m.lookup a := by
  split_ifs with h
  · rw [h, lookup_insert]
  · rw [lookup_insert_of_ne _ h]

theorem insert_eq_self {a : K} {v : V} {m : FinMap K V} (h : m.lookup a = some v) :
    m.insert a v = m :=
  ext_lookup fun b => by
    rw [lookup_insert_ite]
    split_ifs with hb
    · rw [hb, h]
    · rfl

theorem lookup_erase_ite (a b : K) (m : FinMap K V) :
    (m.erase b).lookup a = if a = b then none else m.lookup a := by
  split_ifs with h
  · rw [h, lookup_erase]
  · rw [lookup_erase_ne h]

@[simp] theorem lookup_retain (p : K → V → Bool) (m : FinMap K V) (a : K) :
    (m.retain p).lookup a = (m.lookup a).filter (p a) := by
  ext v
  rw [lookup_eq_some_iff, Option.filter_eq_some_iff, lookup_eq_some_iff, retain,
    Multiset.mem_filter]

@[simp] theorem lookup_mapValues (f : V → W) (m : FinMap K V) (a : K) :
    (m.mapValues f).lookup a = (m.lookup a).map f := by
  ext w
  rw [lookup_eq_some_iff, Option.map_eq_some_iff, mapValues, Multiset.mem_map]
  constructor
  · rintro ⟨⟨b, v⟩, hv, h⟩
    obtain ⟨rfl, rfl⟩ : b = a ∧ f v = w := by simpa using h
    exact ⟨v, lookup_eq_some_iff.2 hv, rfl⟩
  · rintro ⟨v, hv, rfl⟩
    exact ⟨⟨a, v⟩, lookup_eq_some_iff.1 hv, rfl⟩

theorem lookup_modify (a b : K) (f : V → V) (m : FinMap K V) :
    (m.modify b f).lookup a = if a = b then (m.lookup a).map f else m.lookup a := by
  unfold modify
  cases h : m.lookup b with
  | none =>
    split_ifs with hab
    · rw [hab, h]; rfl
    · rfl
  | some v =>
    rw [lookup_insert_ite]
    split_ifs with hab
    · rw [hab, h]; rfl
    · rfl

theorem lookup_upsert [Inhabited V] (a b : K) (f : V → V) (m : FinMap K V) :
    (m.upsert b f).lookup a =
      if a = b then some (f ((m.lookup a).getD default)) else m.lookup a := by
  rw [upsert, lookup_insert_ite]
  split_ifs with hab
  · rw [hab]
  · rfl

theorem mem_modify (a b : K) (f : V → V) (m : FinMap K V) : a ∈ m.modify b f ↔ a ∈ m := by
  rw [← lookup_isSome, ← lookup_isSome, lookup_modify]
  split_ifs <;> simp

omit [DecidableEq K] in
theorem size_eq_card_keys (m : FinMap K V) : m.size = m.keys.card := by
  rw [size, keys, Finset.card_mk, Multiset.keys, Multiset.card_map]

theorem keys_modify (b : K) (f : V → V) (m : FinMap K V) : (m.modify b f).keys = m.keys := by
  ext a; rw [mem_keys, mem_keys, mem_modify]

@[simp] theorem size_modify (b : K) (f : V → V) (m : FinMap K V) :
    (m.modify b f).size = m.size := by
  rw [size_eq_card_keys, size_eq_card_keys, keys_modify]

omit [DecidableEq K] in
theorem size_retain_le (p : K → V → Bool) (m : FinMap K V) : (m.retain p).size ≤ m.size :=
  Multiset.card_le_card (Multiset.filter_le _ _)

/-- Inserting at a key that is already there keeps the number of entries. -/
theorem size_insert_of_mem {a : K} {m : FinMap K V} (v : V) (h : a ∈ m) :
    (m.insert a v).size = m.size := by
  rw [size_eq_card_keys, size_eq_card_keys]
  congr 1
  ext b
  rw [mem_keys, mem_keys, mem_insert]
  exact or_iff_right_of_imp fun hb => hb ▸ h

theorem size_insert_of_notMem {a : K} {m : FinMap K V} (v : V) (h : a ∉ m) :
    (m.insert a v).size = m.size + 1 := by
  rw [size, entries_insert_of_notMem h, Multiset.card_cons, size]

theorem insert_erase_self {a : K} {v : V} {m : FinMap K V} (h : m.lookup a = some v) :
    (m.erase a).insert a v = m :=
  ext_lookup fun b => by
    rw [lookup_insert_ite, lookup_erase_ite]
    split_ifs with hb
    · rw [hb, h]
    · rfl

/-- An entry of the map counts for itself, and the others count as without it. -/
theorem count_eq_erase_add (p : K → V → Bool) {a : K} {v : V} {m : FinMap K V}
    (h : m.lookup a = some v) :
    m.count p = (m.erase a).count p + if p a v then 1 else 0 := by
  conv_lhs => rw [← insert_erase_self h]
  rw [count, entries_insert_of_notMem notMem_erase_self, Multiset.countP_cons, count]

theorem erase_eq_self {a : K} {m : FinMap K V} (h : a ∉ m) : m.erase a = m :=
  ext_lookup fun b => by
    rw [lookup_erase_ite]
    split_ifs with hb
    · rw [hb, lookup_eq_none.2 h]
    · rfl

theorem erase_insert (a : K) (v : V) (m : FinMap K V) : (m.insert a v).erase a = m.erase a :=
  ext_lookup fun b => by
    rw [lookup_erase_ite, lookup_erase_ite, lookup_insert_ite]
    split_ifs <;> rfl

/-- The count only depends on the entries that are accepted. -/
theorem count_congr {p : K → V → Bool} {m m' : FinMap K V}
    (h : ∀ a, (m.lookup a).filter (p a) = (m'.lookup a).filter (p a)) : m.count p = m'.count p := by
  have hretain : m.retain p = m'.retain p :=
    ext_lookup fun a => by rw [lookup_retain, lookup_retain, h a]
  have hsize (m : FinMap K V) : m.count p = (m.retain p).size := Multiset.countP_eq_card_filter _ _
  rw [hsize, hsize, hretain]

theorem count_erase_le (p : K → V → Bool) (a : K) (m : FinMap K V) :
    (m.erase a).count p ≤ m.count p := by
  cases h : m.lookup a with
  | none => rw [erase_eq_self (lookup_eq_none.1 h)]
  | some v =>
    rw [count_eq_erase_add p h]
    omega

theorem count_insert (p : K → V → Bool) (a : K) (v : V) (m : FinMap K V) :
    (m.insert a v).count p = (m.erase a).count p + if p a v then 1 else 0 := by
  rw [count_eq_erase_add p (lookup_insert m), erase_insert]

/-- Replacing an entry by one that `p` judges alike keeps the count. -/
theorem count_insert_of_lookup {p : K → V → Bool} {a : K} {v w : V} {m : FinMap K V}
    (h : m.lookup a = some v) (hp : p a w = p a v) : (m.insert a w).count p = m.count p := by
  rw [count_insert, count_eq_erase_add p h, hp]

omit [DecidableEq K] in
theorem count_retain_le (p q : K → V → Bool) (m : FinMap K V) : (m.retain q).count p ≤ m.count p :=
  Multiset.countP_le_of_le _ (Multiset.filter_le _ _)

/-- An entry of the map weighs what it weighs, and the others weigh as without it. -/
theorem total_eq_erase_add (w : K → V → ℕ) {a : K} {v : V} {m : FinMap K V}
    (h : m.lookup a = some v) : m.total w = (m.erase a).total w + w a v := by
  conv_lhs => rw [← insert_erase_self h]
  rw [total, entries_insert_of_notMem notMem_erase_self, Multiset.map_cons, Multiset.sum_cons,
    total, add_comm]

theorem total_erase_add (w : K → V → ℕ) (a : K) (m : FinMap K V) :
    (m.erase a).total w + (m.lookup a).elim 0 (w a) = m.total w := by
  cases h : m.lookup a with
  | none => rw [erase_eq_self (lookup_eq_none.1 h), Option.elim_none, Nat.add_zero]
  | some v => rw [total_eq_erase_add w h, Option.elim_some]

theorem total_insert (w : K → V → ℕ) (a : K) (v : V) (m : FinMap K V) :
    (m.insert a v).total w = (m.erase a).total w + w a v := by
  rw [total_eq_erase_add w (lookup_insert m), erase_insert]

omit [DecidableEq K] in
/-- What is kept and what is not add up. -/
theorem total_retain_add (w : K → V → ℕ) (p : K → V → Bool) (m : FinMap K V) :
    (m.retain fun a v => !p a v).total w + (m.retain p).total w = m.total w := by
  have hnot : m.entries.filter (fun e => (!p e.1 e.2) = true) =
      m.entries.filter fun e => ¬p e.1 e.2 = true :=
    Multiset.filter_congr fun e _ => by simp
  have hsplit : (m.retain fun a v => !p a v).entries + (m.retain p).entries = m.entries := by
    change m.entries.filter _ + m.entries.filter _ = _
    rw [hnot, add_comm, Multiset.filter_add_not]
  rw [total, total, total, ← Multiset.sum_add, ← Multiset.map_add, hsplit]

/-- Only the weights of the entries count. -/
theorem total_congr {w w' : K → V → ℕ} {m : FinMap K V}
    (h : ∀ a v, m.lookup a = some v → w a v = w' a v) : m.total w = m.total w' := by
  refine congrArg Multiset.sum (Multiset.map_congr rfl fun e he => ?_)
  exact h e.1 e.2 (lookup_eq_some_iff.2 he)

theorem le_total (w : K → V → ℕ) {a : K} {v : V} {m : FinMap K V} (h : m.lookup a = some v) :
    w a v ≤ m.total w := by
  rw [total_eq_erase_add w h]
  omega

theorem count_pos_iff {p : K → V → Bool} {m : FinMap K V} :
    0 < m.count p ↔ ∃ a v, m.lookup a = some v ∧ p a v := by
  rw [count, Multiset.countP_pos]
  exact ⟨fun ⟨e, he, hp⟩ => ⟨e.1, e.2, lookup_eq_some_iff.2 he, hp⟩,
    fun ⟨a, v, hv, hp⟩ => ⟨⟨a, v⟩, lookup_eq_some_iff.1 hv, hp⟩⟩

omit [DecidableEq K] in
theorem count_le_size (p : K → V → Bool) (m : FinMap K V) : m.count p ≤ m.size :=
  Multiset.countP_le_card _ _

/-- An entry that `p` does not accept leaves fewer accepted ones than entries. -/
theorem count_lt_size {p : K → V → Bool} {a : K} {v : V} {m : FinMap K V}
    (h : m.lookup a = some v) (hp : p a v = false) : m.count p < m.size := by
  have hne : a ∈ m := mem_of_lookup_eq_some h
  have hsize : (m.erase a).size + 1 = m.size := by
    rw [← size_insert_of_notMem v notMem_erase_self, size_eq_card_keys, size_eq_card_keys]
    congr 1
    ext b
    rw [mem_keys, mem_keys, mem_insert, mem_erase]
    grind
  have hle := count_le_size p (m.erase a)
  rw [count_eq_erase_add p h, hp]
  simp only [Bool.false_eq_true, if_false]
  omega

/-- The entries that `p` accepts, counted along an enumeration of the keys that may skip some of
    the other entries. -/
theorem count_eq_card {ι : Type*} {p : K → V → Bool} {m : FinMap K V} {is : Finset ι}
    {f : ι → Option K}
    (hinj : ∀ i ∈ is, ∀ j ∈ is, f i = f j → i = j)
    (hkey : ∀ i ∈ is, ∃ a v, f i = some a ∧ m.lookup a = some v ∧ p a v)
    (hall : ∀ a v, m.lookup a = some v → p a v → ∃ i ∈ is, f i = some a) :
    m.count p = is.card := by
  have hcount : m.count p = (m.retain p).keys.card := by
    rw [← size_eq_card_keys, count, Multiset.countP_eq_card_filter]
    rfl
  have hmem : ∀ a, a ∈ (m.retain p).keys ↔ ∃ v, m.lookup a = some v ∧ p a v := fun a => by
    rw [mem_keys, ← lookup_isSome, lookup_retain, Option.isSome_filter, Option.any_eq_true]
  have himage : (m.retain p).keys.image some = is.image f := by
    ext k
    rw [Finset.mem_image, Finset.mem_image]
    constructor
    · rintro ⟨a, ha, rfl⟩
      obtain ⟨v, hv, hp⟩ := (hmem a).1 ha
      exact hall a v hv hp
    · rintro ⟨i, hi, rfl⟩
      obtain ⟨a, v, hk, hv, hp⟩ := hkey i hi
      exact ⟨a, (hmem a).2 ⟨v, hv, hp⟩, hk.symm⟩
  rw [hcount, ← Finset.card_image_of_injective _ (Option.some_injective K), himage,
    Finset.card_image_of_injOn fun i hi j hj => hinj i hi j hj]

omit [DecidableEq K] in
/-- A map has at most as many entries as there are keys. -/
theorem size_le_card [Fintype K] (m : FinMap K V) : m.size ≤ Fintype.card K := by
  rw [size_eq_card_keys]
  exact Finset.card_le_univ _

end Finmap
