import Mathlib.Data.List.Basic
import Mathlib.Data.List.Nodup
import Mathlib.Data.Int.Cast.Lemmas
import Mathlib.Tactic.Common

/-!
# Counting in a list after one element changed

A list without duplicates is counted with two predicates that agree everywhere
but at one element of the list: the counts differ by what they differ there.

## Main results

* `countP_of_agree` — the counts, as integers.
* `perm_filterMap_set` — what is filtered of a list, when one of its entries is set.
-/

namespace List

variable {α : Type*} {f g : α → Bool}

/-- Predicates that agree on a list count the same. -/
theorem countP_of_agree_all {l : List α} (h : ∀ b ∈ l, g b = f b) : l.countP g = l.countP f :=
  countP_congr fun b hb => by rw [h b hb]

/-- **Predicates that agree except at one element.** -/
theorem countP_of_agree {l : List α} {a : α} (hl : l.Nodup) (ha : a ∈ l)
    (h : ∀ b ∈ l, b ≠ a → g b = f b) : ((l.countP g : ℕ) : ℤ) = (l.countP f : ℕ)
      + ((if g a then 1 else 0) - if f a then 1 else 0) := by
  induction l with
  | nil => exact absurd ha not_mem_nil
  | cons b l ih =>
    obtain ⟨hb, hl⟩ := nodup_cons.mp hl
    rw [countP_cons, countP_cons]
    by_cases hba : b = a
    · subst hba
      have htail : l.countP g = l.countP f := countP_of_agree_all fun c hc =>
        h c (mem_cons_of_mem _ hc) fun he => hb (he ▸ hc)
      rw [htail]
      split <;> split <;> omega
    · have hmem : a ∈ l := (mem_cons.mp ha).resolve_left (Ne.symm hba)
      have htail := ih hl hmem fun c hc => h c (mem_cons_of_mem _ hc)
      rw [h b mem_cons_self hba]
      push_cast
      rw [htail]
      omega

/-- **One entry of a list is set**: what is filtered of it changes by what is filtered of the
entry. -/
theorem perm_filterMap_set {β : Type*} (f : α → Option β) {l : List α} {k : ℕ} {c : α} (x : α)
    (h : l[k]? = some c) :
    ((f c).toList ++ (l.set k x).filterMap f).Perm ((f x).toList ++ l.filterMap f) := by
  have hsplit : ∀ (y : α) (l : List α), (y :: l).filterMap f = (f y).toList ++ l.filterMap f := by
    intro y l
    cases hy : f y <;> simp [hy]
  induction l generalizing k with
  | nil => simp at h
  | cons b l ih =>
    cases k with
    | zero =>
      obtain rfl : b = c := by simpa using h
      rw [set_cons_zero, hsplit, hsplit, ← append_assoc, ← append_assoc]
      exact perm_append_comm.append_right _
    | succ k =>
      rw [set_cons_succ, hsplit, hsplit]
      have htail := (ih (by simpa using h)).append_left (f b).toList
      refine Perm.trans ?_ (htail.trans ?_)
      · rw [← append_assoc, ← append_assoc]
        exact perm_append_comm.append_right _
      · rw [← append_assoc, ← append_assoc]
        exact perm_append_comm.append_right _

end List
