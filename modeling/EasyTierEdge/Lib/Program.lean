import Mathlib

/-!
# Programs that throw

A program works on a state and may throw an exception; what it has changed by then
stays changed (`Prog`). Beside what a program leaves behind, one may ask for the path
it takes there. `Leads r x Q E a` says so for a relation `r` between situations, which
are states with what is remembered of the past beside them: from the situation `a`, the
program `x` goes by steps of `r` to a situation that meets `Q` if `x` returns, and `E`
if it throws. The rules below follow the structure of programs, down to the steps
themselves (`leads_step`).
-/

namespace EasyTierEdge

/-- A program on the states `σ` that returns an `α` or throws an `ε`. -/
def Prog (σ ε α : Type) := σ → Except ε α × σ

namespace Prog

variable {σ ε α β : Type}

/-- Returning. -/
protected def pure (v : α) : Prog σ ε α := fun s => (.ok v, s)

/-- Going on with what was returned. -/
protected def bind (x : Prog σ ε α) (f : α → Prog σ ε β) : Prog σ ε β := fun s =>
  match x s with
  | (.ok v, s) => f v s
  | (.error e, s) => (.error e, s)

instance : Monad (Prog σ ε) where
  pure := Prog.pure
  bind := Prog.bind

instance : MonadExceptOf ε (Prog σ ε) where
  throw e := fun s => (.error e, s)
  tryCatch x h := fun s =>
    match x s with
    | (.ok v, s) => (.ok v, s)
    | (.error e, s) => h e s

instance : MonadStateOf σ (Prog σ ε) where
  get := fun s => (.ok s, s)
  set s := fun _ => (.ok (), s)
  modifyGet f := fun s => (.ok (f s).1, (f s).2)

/-- The result of a computation, or its error as an exception. -/
def ofExcept (x : Except ε α) : Prog σ ε α := fun s => (x, s)

/-- Doing the same with every element of a list. -/
def forEach (body : α → Prog σ ε Unit) : List α → Prog σ ε Unit
  | [] => Prog.pure ()
  | v :: vs => Prog.bind (body v) fun _ => forEach body vs

/-- Collecting what is found for every element of a list. -/
def gather (body : α → Prog σ ε (List β)) : List α → Prog σ ε (List β)
  | [] => Prog.pure []
  | v :: vs => Prog.bind (body v) fun found => Prog.bind (gather body vs) fun rest =>
    Prog.pure (found ++ rest)

end Prog

/-! ## Programs that agree -/

namespace Prog

variable {σ ε α β : Type} {s : σ}

theorem run_bind (x : Prog σ ε α) (f : α → Prog σ ε β) (s : σ) : (x >>= f) s =
    match x s with
    | (.ok v, s) => f v s
    | (.error e, s) => (.error e, s) := rfl

theorem run_ite (p : Prop) [Decidable p] (x y : Prog σ ε α) (s : σ) :
    (if p then x else y) s = if p then x s else y s := by
  split_ifs <;> rfl

theorem run_tryCatch (x : Prog σ ε α) (handle : ε → Prog σ ε α) (s : σ) : (tryCatch x handle) s =
    match x s with
    | (.ok v, s) => (.ok v, s)
    | (.error e, s) => handle e s := rfl

theorem bind_congr {x y : Prog σ ε α} {f g : α → Prog σ ε β} (hx : x s = y s)
    (hf : ∀ v s', x s = (.ok v, s') → f v s' = g v s') : (x >>= f) s = (y >>= g) s := by
  rw [run_bind, run_bind, ← hx]
  rcases hresult : x s with ⟨result, s'⟩
  cases result with
  | ok v => exact hf v s' hresult
  | error e => rfl

theorem tryCatch_congr {x : Prog σ ε α} {handle handle' : ε → Prog σ ε α}
    (h : ∀ e s', x s = (.error e, s') → handle e s' = handle' e s') :
    (tryCatch x handle) s = (tryCatch x handle') s := by
  have hrun : ∀ handle : ε → Prog σ ε α, (tryCatch x handle) s = match x s with
      | (.ok v, s) => (.ok v, s)
      | (.error e, s) => handle e s := fun _ => rfl
  rw [hrun, hrun]
  rcases hresult : x s with ⟨result, s'⟩
  cases result with
  | ok v => rfl
  | error e => exact h e s' hresult

/-- Loops whose rounds agree while an invariant holds. -/
theorem forEach_congr {body body' : α → Prog σ ε Unit} {I : σ → Prop}
    (hbody : ∀ v s, I s → body v s = body' v s ∧ I (body v s).2) (vs : List α) (h : I s) :
    forEach body vs s = forEach body' vs s := by
  induction vs generalizing s with
  | nil => rfl
  | cons v vs ih =>
    obtain ⟨heq, hnext⟩ := hbody v s h
    refine bind_congr heq fun _ s' hs' => ih ?_
    rw [hs'] at hnext
    exact hnext

end Prog

section Leads

variable {σ ε τ α β : Type} (r : τ × σ → τ × σ → Prop)

/-- From the situation `a`, the program goes by steps of `r` to one that meets `Q` if it
    returns, and `E` if it throws. -/
def Leads (x : Prog σ ε α) (Q : α → τ × σ → Prop) (E : ε → τ × σ → Prop) (a : τ × σ) : Prop :=
  ∃ b, Relation.ReflTransGen r a b ∧ b.2 = (x a.2).2 ∧
    match (x a.2).1 with
    | .ok v => Q v b
    | .error e => E e b

variable {r} {x : Prog σ ε α} {Q Q' : α → τ × σ → Prop} {E E' : ε → τ × σ → Prop} {a : τ × σ}

theorem leads_pure {v : α} (h : Q v a) : Leads r (pure v : Prog σ ε α) Q E a :=
  ⟨a, .refl, rfl, h⟩

theorem leads_throw {e : ε} (h : E e a) : Leads r (throw e : Prog σ ε α) Q E a :=
  ⟨a, .refl, rfl, h⟩

theorem leads_ofExcept {x : Except ε α} (hok : ∀ v, x = .ok v → Q v a)
    (herror : ∀ e, x = .error e → E e a) : Leads r (Prog.ofExcept x : Prog σ ε α) Q E a := by
  cases x with
  | ok v => exact ⟨a, .refl, rfl, hok v rfl⟩
  | error e => exact ⟨a, .refl, rfl, herror e rfl⟩

theorem leads_get {Q : σ → τ × σ → Prop} (h : Q a.2 a) : Leads r (get : Prog σ ε σ) Q E a :=
  ⟨a, .refl, rfl, h⟩

/-- A change of the state that is one step. -/
theorem leads_step {f : σ → σ} {Q : Unit → τ × σ → Prop} (t : τ) (hstep : r a (t, f a.2))
    (h : Q () (t, f a.2)) : Leads r (modify f : Prog σ ε Unit) Q E a :=
  ⟨(t, f a.2), .single hstep, rfl, h⟩

/-- A change of the state that takes any number of steps. -/
theorem leads_path {f : σ → σ} {Q : Unit → τ × σ → Prop} (t : τ)
    (hpath : Relation.ReflTransGen r a (t, f a.2)) (h : Q () (t, f a.2)) :
    Leads r (modify f : Prog σ ε Unit) Q E a :=
  ⟨(t, f a.2), hpath, rfl, h⟩

/-- A change of the state that takes any number of steps and returns a value. -/
theorem leads_modifyGet_path {f : σ → α × σ} (t : τ)
    (hpath : Relation.ReflTransGen r a (t, (f a.2).2)) (h : Q (f a.2).1 (t, (f a.2).2)) :
    Leads r (modifyGet f : Prog σ ε α) Q E a :=
  ⟨(t, (f a.2).2), hpath, rfl, h⟩

/-- A change of the state that is one step and returns a value. -/
theorem leads_modifyGet {f : σ → α × σ} (t : τ) (hstep : r a (t, (f a.2).2))
    (h : Q (f a.2).1 (t, (f a.2).2)) : Leads r (modifyGet f : Prog σ ε α) Q E a :=
  ⟨(t, (f a.2).2), .single hstep, rfl, h⟩

theorem Leads.mono (h : Leads r x Q E a) (hQ : ∀ v b, Relation.ReflTransGen r a b → Q v b → Q' v b)
    (hE : ∀ e b, Relation.ReflTransGen r a b → E e b → E' e b) : Leads r x Q' E' a := by
  obtain ⟨b, hpath, hb, hpost⟩ := h
  refine ⟨b, hpath, hb, ?_⟩
  cases hx : (x a.2).1 with
  | ok v =>
    rw [hx] at hpost
    exact hQ v b hpath hpost
  | error e =>
    rw [hx] at hpost
    exact hE e b hpath hpost

/-- The steps of one relation are steps of a wider one. -/
theorem Leads.mono_rel {r' : τ × σ → τ × σ → Prop} (hr : ∀ a b, r a b → r' a b)
    (h : Leads r x Q E a) : Leads r' x Q E a := by
  obtain ⟨b, hpath, hb, hpost⟩ := h
  exact ⟨b, Relation.ReflTransGen.mono hr _ _ hpath, hb, hpost⟩

/-- Two paths that the program takes, with what holds at the end of either. -/
theorem Leads.and {τ' : Type} {r' : τ' × σ → τ' × σ → Prop} {P : α → τ' × σ → Prop}
    {F : ε → τ' × σ → Prop} {a' : τ' × σ} (h : Leads r x Q E a) (h' : Leads r' x P F a')
    (ha : a'.2 = a.2) :
    Leads r x
      (fun v b => Q v b ∧ ∃ b', Relation.ReflTransGen r' a' b' ∧ b'.2 = b.2 ∧ P v b')
      (fun e b => E e b ∧ ∃ b', Relation.ReflTransGen r' a' b' ∧ b'.2 = b.2 ∧ F e b') a := by
  obtain ⟨b, hpath, hb, hpost⟩ := h
  obtain ⟨b', hpath', hb', hpost'⟩ := h'
  rw [ha] at hb' hpost'
  refine ⟨b, hpath, hb, ?_⟩
  cases hx : (x a.2).1 with
  | ok v =>
    rw [hx] at hpost hpost'
    exact ⟨hpost, b', hpath', hb'.trans hb.symm, hpost'⟩
  | error e =>
    rw [hx] at hpost hpost'
    exact ⟨hpost, b', hpath', hb'.trans hb.symm, hpost'⟩

/-- Steps before the program. -/
theorem Leads.after {b : τ × σ} (hpath : Relation.ReflTransGen r a b) (hb : b.2 = a.2)
    (h : Leads r x Q E b) : Leads r x Q E a := by
  obtain ⟨c, hpath', hc, hpost⟩ := h
  rw [hb] at hc hpost
  exact ⟨c, hpath.trans hpath', hc, hpost⟩

/-- Steps after the program. -/
theorem Leads.extend (h : Leads r x Q E a)
    (hQ : ∀ v b, Q v b → ∃ c, Relation.ReflTransGen r b c ∧ c.2 = b.2 ∧ Q' v c)
    (hE : ∀ e b, E e b → ∃ c, Relation.ReflTransGen r b c ∧ c.2 = b.2 ∧ E' e c) :
    Leads r x Q' E' a := by
  obtain ⟨b, hpath, hb, hpost⟩ := h
  unfold Leads
  cases hx : (x a.2).1 with
  | ok v =>
    rw [hx] at hpost
    obtain ⟨c, hpath', hc, hpost'⟩ := hQ v b hpost
    exact ⟨c, hpath.trans hpath', hc.trans hb, hpost'⟩
  | error e =>
    rw [hx] at hpost
    obtain ⟨c, hpath', hc, hpost'⟩ := hE e b hpost
    exact ⟨c, hpath.trans hpath', hc.trans hb, hpost'⟩

theorem leads_bind {f : α → Prog σ ε β} {Q : β → τ × σ → Prop}
    (h : Leads r x (fun v => Leads r (f v) Q E) E a) : Leads r (x >>= f) Q E a := by
  obtain ⟨b, hpath, hb, hpost⟩ := h
  have hrun : (x >>= f) a.2 = match x a.2 with
      | (.ok v, s) => f v s
      | (.error e, s) => (.error e, s) := rfl
  unfold Leads
  rw [hrun]
  generalize x a.2 = result at hb hpost
  obtain ⟨result, s⟩ := result
  cases result with
  | ok v =>
    obtain ⟨c, hpath', hc, hpost⟩ := hpost
    obtain rfl : b.2 = s := hb
    exact ⟨c, hpath.trans hpath', hc, hpost⟩
  | error e => exact ⟨b, hpath, hb, hpost⟩

theorem leads_tryCatch {handle : ε → Prog σ ε α}
    (h : Leads r x Q (fun e => Leads r (handle e) Q E) a) :
    Leads r (tryCatch x handle) Q E a := by
  obtain ⟨b, hpath, hb, hpost⟩ := h
  have hrun : (tryCatch x handle) a.2 = match x a.2 with
      | (.ok v, s) => (.ok v, s)
      | (.error e, s) => handle e s := rfl
  unfold Leads
  rw [hrun]
  generalize x a.2 = result at hb hpost
  obtain ⟨result, s⟩ := result
  cases result with
  | ok v => exact ⟨b, hpath, hb, hpost⟩
  | error e =>
    obtain ⟨c, hpath', hc, hpost⟩ := hpost
    obtain rfl : b.2 = s := hb
    exact ⟨c, hpath.trans hpath', hc, hpost⟩

theorem leads_ite {p : Prop} [Decidable p] {y : Prog σ ε α} (hpos : p → Leads r x Q E a)
    (hneg : ¬p → Leads r y Q E a) : Leads r (if p then x else y) Q E a := by
  split_ifs with h
  · exact hpos h
  · exact hneg h

/-- A loop, by what holds when so much of the list is left. -/
theorem leads_forEach_rest {body : α → Prog σ ε Unit} {I : List α → τ × σ → Prop} {vs : List α}
    (h : I vs a)
    (hbody : ∀ v rest b, I (v :: rest) b → Leads r (body v) (fun _ => I rest) E b) :
    Leads r (Prog.forEach body vs) (fun _ => I []) E a := by
  induction vs generalizing a with
  | nil => exact leads_pure h
  | cons v vs ih =>
    exact leads_bind ((hbody v vs a h).mono (fun _ b _ hb => ih hb) fun _ _ _ he => he)

/-- What every round of a loop keeps holds after the loop. -/
theorem leads_forEach {body : α → Prog σ ε Unit} {I : τ × σ → Prop} {vs : List α} (h : I a)
    (hbody : ∀ v, ∀ b, I b → Leads r (body v) (fun _ => I) E b) :
    Leads r (Prog.forEach body vs) (fun _ => I) E a :=
  leads_forEach_rest (I := fun _ => I) h fun v _ => hbody v

/-- A loop that collects, by what holds when so much of the list is left, of what was found so
    far. -/
theorem leads_gather {body : α → Prog σ ε (List β)} {I : List α → List β → τ × σ → Prop}
    {vs : List α} {found : List β} (h : I vs found a)
    (hbody : ∀ v rest found b, I (v :: rest) found b →
      Leads r (body v) (fun new => I rest (found ++ new)) E b) :
    Leads r (Prog.gather body vs) (fun new => I [] (found ++ new)) E a := by
  induction vs generalizing a found with
  | nil => exact leads_pure (by rw [List.append_nil]; exact h)
  | cons v vs ih =>
    refine leads_bind ((hbody v vs found a h).mono (fun new b _ hb => ?_) fun _ _ _ he => he)
    refine leads_bind ((ih hb).mono (fun rest c _ hc => ?_) fun _ _ _ he => he)
    refine leads_pure ?_
    rw [← List.append_assoc]
    exact hc

end Leads

end EasyTierEdge
