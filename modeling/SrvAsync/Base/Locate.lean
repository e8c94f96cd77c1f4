import Mathlib.Algebra.BigOperators.Intervals
import Mathlib.Algebra.Order.BigOperators.Group.Finset
import Mathlib.Tactic.Common

/-!
# Locating a number among intervals

Intervals of given lengths are laid one behind the other, from some number `k` of them on.  A
number falls into one of them, so far from its start.

## Main definitions

* `Intervals.locate len fuel k n` — the interval that `n` falls into, and how far.

## Main results

* `locate_spec` — the intervals before it and the rest make up the number.
* `locate_lt` — a number that is less than the intervals before `m` falls into one of them.
-/

namespace Intervals

variable {len : ℕ → ℕ}

/-- The interval that `n` falls into, and how far from its start; the first one is `k`. -/
def locate (len : ℕ → ℕ) : ℕ → ℕ → ℕ → ℕ × ℕ
  | 0, k, n => (k, n)
  | fuel + 1, k, n => if n < len k then (k, n) else locate len fuel (k + 1) (n - len k)

/-- **The intervals before it and the rest make up the number**, when no interval is empty. -/
theorem locate_spec (hpos : ∀ i, 0 < len i) : ∀ {fuel k n : ℕ}, n < fuel →
    k ≤ (locate len fuel k n).1 ∧ (locate len fuel k n).2 < len (locate len fuel k n).1 ∧
      ∑ i ∈ Finset.Ico k (locate len fuel k n).1, len i + (locate len fuel k n).2 = n := by
  intro fuel
  induction fuel with
  | zero => intro k n h; exact absurd h (Nat.not_lt_zero n)
  | succ fuel ih =>
    intro k n h
    unfold locate
    split
    · next hlt => exact ⟨Nat.le_refl k, hlt, by simp⟩
    · next hge =>
      have hk := hpos k
      obtain ⟨hle, hlt, hsum⟩ := ih (k := k + 1) (n := n - len k) (by omega)
      refine ⟨by omega, hlt, ?_⟩
      rw [Finset.sum_eq_sum_Ico_succ_bot (by omega), Nat.add_assoc, hsum]
      omega

/-- A number that is less than the intervals before `m` falls into one of them. -/
theorem locate_lt (hpos : ∀ i, 0 < len i) {fuel k n m : ℕ} (h : n < fuel)
    (hn : n < ∑ i ∈ Finset.Ico k m, len i) : (locate len fuel k n).1 < m := by
  obtain ⟨-, -, hsum⟩ := locate_spec hpos (k := k) h
  by_contra hge
  have hsub : Finset.Ico k m ⊆ Finset.Ico k (locate len fuel k n).1 :=
    Finset.Ico_subset_Ico_right (not_lt.mp hge)
  have hle := Finset.sum_le_sum_of_subset (f := len) hsub
  omega

end Intervals
