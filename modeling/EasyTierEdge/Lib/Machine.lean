import Mathlib

/-!
# Machines and their histories

A machine takes one step at a time: from its state and an input, the next
state and an output. A *run* feeds it a list of inputs, and the *history* of a
run records every step as an `Event`: the state before it, the input and the
output. What is asked of a run is asked of its history, and proved by
`Machine.history_invariant`: an invariant relating the history so far to the
current state, carried through one step at a time. The steps may be assumed to
meet a condition on what came before (`Along`).
-/

namespace EasyTierEdge

/-- One step of a run: the state before it, the input and the output. -/
structure Event (σ ι ο : Type*) where
  pre : σ
  input : ι
  output : ο

/-- Every event of `tr` meets the condition `C`, given the events before it. -/
def Along {ε : Type*} (C : List ε → ε → Prop) (tr : List ε) : Prop :=
  ∀ before e after, tr = before ++ e :: after → C before e

namespace Along

variable {ε : Type*} {C : List ε → ε → Prop} {tr : List ε} {e : ε}

theorem nil : Along C [] := fun before e after h => by simp at h

theorem append_left {tr' : List ε} (h : Along C (tr ++ tr')) : Along C tr :=
  fun before e after he => h before e (after ++ tr') (by simp [he])

theorem snoc_iff : Along C (tr ++ [e]) ↔ Along C tr ∧ C tr e := by
  refine ⟨fun h => ⟨h.append_left, h tr e [] rfl⟩, fun ⟨h, he⟩ before x after hx => ?_⟩
  -- Either the split is inside `tr`, or it is the one at its end.
  rw [List.append_eq_append_iff] at hx
  rcases hx with ⟨mid, rfl, hmid⟩ | ⟨mid, rfl, hmid⟩
  · obtain ⟨rfl, rfl, -⟩ : mid = [] ∧ x = e ∧ after = [] := by
      cases mid <;> simp_all
    simpa using he
  · cases mid with
    | nil =>
      obtain ⟨rfl, -⟩ : x = e ∧ after = [] := by simpa using hmid
      simpa using he
    | cons y mid =>
      obtain ⟨rfl, -⟩ : x = y ∧ after = mid ++ [e] := by simpa using hmid
      exact h before x mid rfl

theorem mono {D : List ε → ε → Prop} (h : Along C tr) (hCD : ∀ before e, C before e → D before e) :
    Along D tr :=
  fun before e after he => hCD before e (h before e after he)

theorem cons_iff : Along C (e :: tr) ↔ C [] e ∧ Along (fun before => C (e :: before)) tr := by
  refine ⟨fun h => ⟨h [] e tr rfl, fun before x after hx => ?_⟩, fun ⟨he, h⟩ before x after hx => ?_⟩
  · exact h (e :: before) x after (by rw [hx, List.cons_append])
  · cases before with
    | nil =>
      obtain ⟨rfl, -⟩ := List.cons.inj hx
      exact he
    | cons y before =>
      rw [List.cons_append, List.cons.injEq] at hx
      exact hx.1 ▸ h before x after hx.2

instance decidable : ∀ (C : List ε → ε → Prop) [∀ before e, Decidable (C before e)] (tr : List ε),
    Decidable (Along C tr)
  | _, _, [] => isTrue nil
  | C, _, e :: tr =>
    have := decidable (fun before => C (e :: before)) tr
    decidable_of_iff _ cons_iff.symm

/-- Along a list whose values under `f` are distinct, every value is a new one. -/
theorem of_nodup {β : Type*} {f : ε → Option β} (h : (tr.filterMap f).Nodup) :
    Along (fun before e => ∀ b, f e = some b → b ∉ before.filterMap f) tr := by
  rintro before e after rfl b hb hmem
  rw [List.filterMap_append, List.filterMap_cons_some hb] at h
  exact (List.nodup_append.1 h).2.2 b hmem b List.mem_cons_self rfl

end Along

/-- A machine on the states `σ`, with inputs `ι` and outputs `ο`. -/
structure Machine (σ ι ο : Type*) where
  /-- The initial state. -/
  init : σ
  /-- One step: the next state and the output. -/
  step : σ → ι → σ × ο

namespace Machine

variable {σ ι ο : Type*} (m : Machine σ ι ο)

/-- The event of feeding `i` to the machine in state `s`. -/
def event (s : σ) (i : ι) : Event σ ι ο := ⟨s, i, (m.step s i).2⟩

/-- The state reached from `s` by the inputs. -/
def run : σ → List ι → σ
  | s, [] => s
  | s, i :: is => run (m.step s i).1 is

/-- The history of the run from `s`, one event for each input. -/
def history : σ → List ι → List (Event σ ι ο)
  | _, [] => []
  | s, i :: is => m.event s i :: history (m.step s i).1 is

/-- The outputs of the run from `s`. -/
def outputs (s : σ) (is : List ι) : List ο := (m.history s is).map Event.output

/-- A state reached from the initial one. -/
def Reachable (s : σ) : Prop := ∃ is, s = m.run m.init is

@[simp] theorem run_nil (s : σ) : m.run s [] = s := rfl

@[simp] theorem run_cons (s : σ) (i : ι) (is : List ι) :
    m.run s (i :: is) = m.run (m.step s i).1 is := rfl

theorem run_append (s : σ) (is js : List ι) : m.run s (is ++ js) = m.run (m.run s is) js := by
  induction is generalizing s with
  | nil => rfl
  | cons i is ih => exact ih _

@[simp] theorem history_nil (s : σ) : m.history s [] = [] := rfl

@[simp] theorem history_cons (s : σ) (i : ι) (is : List ι) :
    m.history s (i :: is) = m.event s i :: m.history (m.step s i).1 is := rfl

theorem history_append (s : σ) (is js : List ι) :
    m.history s (is ++ js) = m.history s is ++ m.history (m.run s is) js := by
  induction is generalizing s with
  | nil => rfl
  | cons i is ih => simp [ih]

theorem run_snoc (s : σ) (is : List ι) (i : ι) :
    m.run s (is ++ [i]) = (m.step (m.run s is) i).1 := by
  rw [run_append]; rfl

theorem history_snoc (s : σ) (is : List ι) (i : ι) :
    m.history s (is ++ [i]) = m.history s is ++ [m.event (m.run s is) i] := by
  rw [history_append]; rfl

theorem reachable_init : m.Reachable m.init := ⟨[], rfl⟩

variable {m}

theorem Reachable.step {s : σ} (h : m.Reachable s) (i : ι) : m.Reachable (m.step s i).1 := by
  obtain ⟨is, rfl⟩ := h
  exact ⟨is ++ [i], (m.run_snoc _ is i).symm⟩

theorem Reachable.run {s : σ} (h : m.Reachable s) (is : List ι) : m.Reachable (m.run s is) := by
  obtain ⟨js, rfl⟩ := h
  exact ⟨js ++ is, (m.run_append _ js is).symm⟩

/-- A property that holds initially and that every step preserves holds in
    every reachable state. -/
theorem Reachable.invariant {P : σ → Prop} (h0 : P m.init)
    (hstep : ∀ s i, P s → P (m.step s i).1) {s : σ} (h : m.Reachable s) : P s := by
  obtain ⟨is, rfl⟩ := h
  induction is using List.reverseRecOn with
  | nil => exact h0
  | append_singleton is i ih =>
    rw [run_snoc]
    exact hstep _ i ih

/-- A part of the state that every step makes from that part alone goes by itself along a run. -/
theorem run_eq_foldl {τ : Type*} {f : σ → τ} {g : τ → ι → τ}
    (hstep : ∀ s i, f (m.step s i).1 = g (f s) i) (s : σ) (is : List ι) :
    f (m.run s is) = is.foldl g (f s) := by
  induction is generalizing s with
  | nil => rfl
  | cons i is ih => rw [run_cons, ih, hstep, List.foldl_cons]

/-- A relation between the history and the current state, which holds
    initially and is carried through every step that meets `C`, holds at the
    end of every run all of whose steps meet `C`. -/
theorem history_invariant {P : List (Event σ ι ο) → σ → Prop}
    {C : List (Event σ ι ο) → Event σ ι ο → Prop} (h0 : P [] m.init)
    (hstep : ∀ tr s i, P tr s → C tr (m.event s i) → P (tr ++ [m.event s i]) (m.step s i).1)
    (is : List ι) (hC : Along C (m.history m.init is)) :
    P (m.history m.init is) (m.run m.init is) := by
  induction is using List.reverseRecOn with
  | nil => exact h0
  | append_singleton is i ih =>
    rw [history_snoc] at hC ⊢
    rw [run_snoc]
    obtain ⟨hC, hi⟩ := Along.snoc_iff.1 hC
    exact hstep _ _ i (ih hC) hi

/-- An event of a history, with the run before it. -/
theorem history_split {s : σ} {is : List ι} {before after : List (Event σ ι ο)}
    {e : Event σ ι ο} (h : m.history s is = before ++ e :: after) :
    ∃ js i ks, is = js ++ i :: ks ∧ before = m.history s js ∧ e = m.event (m.run s js) i := by
  induction is generalizing s before with
  | nil => simp at h
  | cons i is ih =>
    rw [history_cons] at h
    cases before with
    | nil =>
      rw [List.nil_append, List.cons.injEq] at h
      exact ⟨[], i, is, rfl, rfl, h.1.symm⟩
    | cons b before =>
      rw [List.cons_append, List.cons.injEq] at h
      obtain ⟨rfl, h⟩ := h
      obtain ⟨js, j, ks, rfl, rfl, rfl⟩ := ih h
      exact ⟨i :: js, j, ks, rfl, rfl, rfl⟩

/-- A relation between states that is kept, with equal outputs, when the input of the
    first state is relabelled for the second one is kept by whole runs, with equal
    outputs. The inputs may be assumed to meet a condition `C`. -/
theorem run_relabel {R : σ → σ → Prop} {C : ι → Prop} {f : σ → ι → ι}
    (hstep : ∀ s t i, C i → R s t →
      R (m.step s i).1 (m.step t (f s i)).1 ∧ (m.step t (f s i)).2 = (m.step s i).2)
    (relabel : σ → List ι → List ι) (hnil : ∀ s, relabel s [] = [])
    (hcons : ∀ s i is, relabel s (i :: is) = f s i :: relabel (m.step s i).1 is)
    {s t : σ} (is : List ι) (hC : ∀ i ∈ is, C i) (h : R s t) :
    R (m.run s is) (m.run t (relabel s is)) ∧ m.outputs t (relabel s is) = m.outputs s is := by
  induction is generalizing s t with
  | nil => simp [hnil, h, outputs]
  | cons i is ih =>
    rw [List.forall_mem_cons] at hC
    obtain ⟨hR, ho⟩ := hstep s t i hC.1 h
    obtain ⟨hrun, houts⟩ := ih hC.2 hR
    rw [hcons]
    refine ⟨hrun, ?_⟩
    simp only [outputs, history_cons, List.map_cons, event, ho] at houts ⊢
    rw [houts]

end Machine

end EasyTierEdge
