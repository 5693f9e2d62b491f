import Mathlib

/-!
# Fixed windows

A limiter that counts what it lets through in a window of time: once the window is over the next
one starts at the time of the next attempt, and counts from zero. A span of time that is `k`
windows long meets at most `k + 1` of them, and so it sees no more than `(k + 1) * max` let
through (`Spent.le_of_span`), whichever way the clock runs within it.
-/

namespace EasyTierEdge

/-- In the span from `t₀` to `t₁`, `spent` was let through, when the current window started at
    `startedAt` and has let `used` through. -/
def Spent (width max t₀ t₁ spent startedAt used : ℕ) : Prop :=
  used ≤ max ∧ ∃ rolls, spent ≤ rolls * max + used ∧
    (rolls ≠ 0 → t₀ + width * (rolls - 1) ≤ startedAt ∧ startedAt < t₁)

namespace Spent

variable {width max t₀ t₁ spent startedAt used : ℕ}

theorem start (h : used ≤ max) : Spent width max t₀ t₁ 0 startedAt used :=
  ⟨h, 0, Nat.zero_le _, fun hne => absurd rfl hne⟩

/-- The window is over, and the next one starts. -/
theorem roll (h : Spent width max t₀ t₁ spent startedAt used) {now : ℕ} (h₀ : t₀ ≤ now)
    (h₁ : now < t₁) (hover : (width : ℤ) ≤ now - startedAt) :
    Spent width max t₀ t₁ spent now 0 := by
  obtain ⟨hused, rolls, hspent, hstarted⟩ := h
  refine ⟨Nat.zero_le _, rolls + 1, ?_, fun _ => ⟨?_, h₁⟩⟩
  · rw [Nat.add_one_mul]
    omega
  · -- The windows of the span start at least their width apart.
    rw [Nat.add_sub_cancel]
    cases rolls with
    | zero => exact h₀
    | succ rolls =>
      obtain ⟨hle, -⟩ := hstarted (Nat.succ_ne_zero _)
      rw [Nat.add_sub_cancel] at hle
      have hover : startedAt + width ≤ now := by omega
      rw [Nat.mul_succ]
      omega

/-- Something is let through. -/
theorem charge (h : Spent width max t₀ t₁ spent startedAt used) {cost : ℕ}
    (hroom : used + cost ≤ max) :
    Spent width max t₀ t₁ (spent + cost) startedAt (used + cost) := by
  obtain ⟨-, rolls, hspent, hstarted⟩ := h
  exact ⟨hroom, rolls, by omega, hstarted⟩

/-- Something is charged that is not let through after all. -/
theorem mono (h : Spent width max t₀ t₁ spent startedAt used) {spent' : ℕ} (hle : spent' ≤ spent) :
    Spent width max t₀ t₁ spent' startedAt used := by
  obtain ⟨hused, rolls, hspent, hstarted⟩ := h
  exact ⟨hused, rolls, hle.trans hspent, hstarted⟩

/-- A span of `k` windows sees at most `k + 1` of them. -/
theorem le_of_span {k : ℕ} (h : Spent width max t₀ (t₀ + k * width) spent startedAt used) :
    spent ≤ (k + 1) * max := by
  obtain ⟨hused, rolls, hspent, hstarted⟩ := h
  have hrolls : rolls ≤ k := by
    cases rolls with
    | zero => exact Nat.zero_le _
    | succ rolls =>
      obtain ⟨hle, hlt⟩ := hstarted (Nat.succ_ne_zero _)
      rw [Nat.add_sub_cancel, Nat.mul_comm width] at hle
      exact Nat.lt_of_mul_lt_mul_right (by omega : rolls * width < k * width)
  calc spent ≤ rolls * max + max := hspent.trans (Nat.add_le_add_left hused _)
    _ = (rolls + 1) * max := (Nat.add_one_mul ..).symm
    _ ≤ (k + 1) * max := Nat.mul_le_mul_right _ (Nat.succ_le_succ hrolls)

end Spent

end EasyTierEdge
