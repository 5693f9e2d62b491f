import EasyTierEdge.Lib.Machine

/-!
# Unwinding

An observer of a machine takes part in some of its steps and sees something of their outputs. Two
runs that differ in the other steps only look the same to it, as long as they keep it from telling
their states apart (`Machine.Unwinding`): a step of others does so on one side alone, and a step
of its own on both, where it must look the same. What is known of the past of a run, like the
time, stands beside its states, and steps may be assumed to meet a condition on both.
-/

namespace EasyTierEdge

namespace Machine

variable {σ ι ο γ ω : Type*} (m : Machine σ ι ο) (next : γ → ι → γ) (C : γ → σ → ι → Prop)
  (own : ι → Bool) (see : ο → ω)

/-- What an observer sees of a run. -/
def observed (s : σ) (is : List ι) : List ω :=
  ((m.history s is).filter fun e => own e.input).map fun e => see e.output

/-- Every step of a run meets the condition. -/
def Meets : γ → σ → List ι → Prop
  | _, _, [] => True
  | g, s, i :: is => C g s i ∧ Meets (next g i) (m.step s i).1 is

/-- A relation between what an observer cannot tell apart. -/
structure Unwinding (R : γ × σ → γ × σ → Prop) : Prop where
  symm : ∀ a b, R a b → R b a
  others : ∀ g s b i, own i = false → C g s i → R (g, s) b → R (next g i, (m.step s i).1) b
  own : ∀ g s h t i, own i = true → C g s i → C h t i → R (g, s) (h, t) →
    see (m.step s i).2 = see (m.step t i).2 ∧
      R (next g i, (m.step s i).1) (next h i, (m.step t i).1)

variable {m next C own see}

theorem observed_cons (s : σ) (i : ι) (is : List ι) : m.observed own see s (i :: is) =
    if own i then see (m.step s i).2 :: m.observed own see (m.step s i).1 is
    else m.observed own see (m.step s i).1 is := by
  rw [observed, history_cons, List.filter_cons]
  change List.map _ (if own i = true then _ else _) = _
  split_ifs <;> rfl

namespace Unwinding

variable {R : γ × σ → γ × σ → Prop} {a : γ × σ} {g : γ} {s : σ}

/-- Steps of others are not noticed, however many there are. -/
theorem run_others (hu : m.Unwinding next C own see R) {is : List ι}
    (hown : ∀ i ∈ is, own i = false) {rest : List ι} (hmeets : m.Meets next C g s (is ++ rest))
    (h : R a (g, s)) :
    m.observed own see s (is ++ rest) = m.observed own see (m.run s is) rest ∧
      ∃ g', m.Meets next C g' (m.run s is) rest ∧ R a (g', m.run s is) := by
  induction is generalizing g s with
  | nil => exact ⟨rfl, g, hmeets, h⟩
  | cons i is ih =>
    rw [List.forall_mem_cons] at hown
    have hstep := hu.symm _ _ (hu.others g s a i hown.1 hmeets.1 (hu.symm _ _ h))
    obtain ⟨hobserved, hrest⟩ := ih hown.2 hmeets.2 hstep
    rw [List.cons_append, observed_cons, if_neg (by simp [hown.1]), hobserved]
    exact ⟨rfl, hrest⟩

/-- Two runs with the same steps of the observer look the same to it. -/
theorem observed_eq (hu : m.Unwinding next C own see R) {h : γ} {t : σ} {is js : List ι}
    (hsame : is.filter own = js.filter own) (his : m.Meets next C g s is)
    (hjs : m.Meets next C h t js) (hR : R (g, s) (h, t)) :
    m.observed own see s is = m.observed own see t js := by
  -- Before each step of the first run that is the observer's, the second run may have steps of
  -- others.
  induction is generalizing g s h t js with
  | nil =>
    have hothers : ∀ j ∈ js, own j = false := by simpa [List.filter_eq_nil_iff] using hsame.symm
    rw [← List.append_nil js] at hjs ⊢
    rw [(hu.run_others hothers hjs hR).1]
    rfl
  | cons i is ih =>
    rw [observed_cons]
    cases hown : own i with
    | false =>
      rw [List.filter_cons_of_neg (by simp [hown])] at hsame
      exact ih hsame his.2 hjs (hu.others g s _ i hown his.1 hR)
    | true =>
      rw [List.filter_cons_of_pos hown] at hsame
      obtain ⟨before, after, rfl, hothers, -, hafter⟩ := List.filter_eq_cons_iff.1 hsame.symm
      have hothers : ∀ j ∈ before, own j = false := by simpa using hothers
      obtain ⟨hobserved, h', hmeets, hR⟩ := hu.run_others hothers hjs hR
      obtain ⟨hseen, hnext⟩ := hu.own g s h' _ i hown his.1 hmeets.1 hR
      rw [hobserved, observed_cons, if_pos hown, if_pos rfl, hseen]
      exact congrArg _ (ih hafter.symm his.2 hmeets.2 hnext)

end Unwinding

end Machine

end EasyTierEdge
