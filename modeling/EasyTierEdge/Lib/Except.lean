import Mathlib

/-!
# Early returns

Checks that return an error early, as steps of `Except`: `rejectIf` for
`if bad { return Err(e) }` and `okOr` for `option.ok_or(e)?`. A computation made of
such steps succeeds when every one of them does, which `simp` reads off with the
lemmas below, and only fails with an error of one of them (`ErrorsIn`).
-/

universe u v

namespace Except

variable {ε ε' : Type u} {α β : Type v}

/-- Returning `e` early when `bad`. -/
def rejectIf (bad : Bool) (e : ε) : Except ε Unit := if bad then .error e else .ok ()

/-- The value of an option, or else the error `e`. -/
def okOr (x : Option α) (e : ε) : Except ε α :=
  match x with
  | some a => .ok a
  | none => .error e

@[simp] theorem rejectIf_eq_ok {bad : Bool} {e : ε} {u : Unit} :
    rejectIf bad e = .ok u ↔ bad = false := by
  cases bad <;> simp [rejectIf]

@[simp] theorem okOr_eq_ok {x : Option α} {e : ε} {a : α} : okOr x e = .ok a ↔ x = some a := by
  cases x <;> simp [okOr]

@[simp] theorem bind_eq_ok {x : Except ε α} {f : α → Except ε β} {b : β} :
    (x >>= f) = .ok b ↔ ∃ a, x = .ok a ∧ f a = .ok b := by
  cases x <;> simp [bind, Except.bind]

@[simp] theorem pure_eq_ok {a b : α} : (pure a : Except ε α) = .ok b ↔ a = b := by
  simp [pure, Except.pure]

@[simp] theorem mapError_eq_ok {x : Except ε α} {f : ε → ε'} {a : α} :
    x.mapError f = .ok a ↔ x = .ok a := by
  cases x <;> simp [Except.mapError]

@[simp] theorem map_eq_ok {x : Except ε α} {f : α → β} {b : β} :
    x.map f = .ok b ↔ ∃ a, x = .ok a ∧ f a = b := by
  cases x <;> simp [Except.map]

theorem toOption_eq_some {x : Except ε α} {a : α} : x.toOption = some a ↔ x = .ok a := by
  cases x <;> simp [Except.toOption]

theorem isOk_iff_exists {x : Except ε α} : x.isOk ↔ ∃ a, x = .ok a := by
  cases x <;> simp [Except.isOk, Except.toBool]

theorem map_bind {γ : Type v} (x : Except ε α) (f : α → Except ε β) (g : β → γ) :
    (x >>= f).map g = x >>= fun a => (f a).map g := by
  cases x with
  | error e => rfl
  | ok a => rfl

/-- Every error of `x` satisfies `P`. -/
def ErrorsIn (P : ε → Prop) (x : Except ε α) : Prop := ∀ e, x = .error e → P e

section ErrorsIn

variable {P : ε → Prop}

theorem errorsIn_ok (a : α) : ErrorsIn P (.ok a : Except ε α) := fun _ h => nomatch h

theorem errorsIn_error {e : ε} (h : P e) : ErrorsIn P (.error e : Except ε α) := by
  rintro _ ⟨⟩
  exact h

theorem ErrorsIn.bind {x : Except ε α} {f : α → Except ε β} (hx : ErrorsIn P x)
    (hf : ∀ a, ErrorsIn P (f a)) : ErrorsIn P (x >>= f) := by
  cases x with
  | error e => exact errorsIn_error (hx e rfl)
  | ok a => exact hf a

theorem ErrorsIn.map {x : Except ε α} (hx : ErrorsIn P x) (f : α → β) : ErrorsIn P (x.map f) := by
  cases x with
  | error e => exact errorsIn_error (hx e rfl)
  | ok a => exact errorsIn_ok _

theorem errorsIn_rejectIf {bad : Bool} {e : ε} (h : P e) : ErrorsIn P (rejectIf bad e) := by
  cases bad with
  | false => exact errorsIn_ok ()
  | true => exact errorsIn_error h

theorem errorsIn_okOr {x : Option α} {e : ε} (h : P e) : ErrorsIn P (okOr x e) := by
  cases x with
  | none => exact errorsIn_error h
  | some a => exact errorsIn_ok a

theorem errorsIn_mapError {x : Except ε' α} {f : ε' → ε} (h : ∀ e, P (f e)) :
    ErrorsIn P (x.mapError f) := by
  cases x with
  | error e => exact errorsIn_error (h e)
  | ok a => exact errorsIn_ok a

end ErrorsIn

end Except
