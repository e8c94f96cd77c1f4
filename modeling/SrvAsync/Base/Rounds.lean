import SrvAsync.Base.Runs
import Mathlib.Data.List.Infix
import Mathlib.Data.List.Nodup

/-!
# Passing round a list that changes

Somebody goes round a list, one pass after the other.  At the start of a pass new
elements may come to the front of the list; during a pass an element whose turn is over
may leave.  The state is the list and the part of it that the pass has still to visit,
which is always an end of the list.

The labels of a path are the turns.  A pass gives one turn to every element it starts
with, and between two elements that stay the turns are fair: neither is ever more than
one ahead.

## Main definitions

* `Rounds` — the list and what the pass has still to visit.
* `Rounds.Within`, `Rounds.Step` — a step inside a pass, and any step.
* `Rounds.due` — an element is still to be visited.

## Main results

* `turns_of_pass` — **one turn for each element of a pass**.
* `turns_fair` — **between two elements that stay, neither is more than one turn ahead**.
-/

open Machine
open scoped List

/-- A list somebody goes round, and the part of it that is still to be visited. -/
@[ext] structure Rounds (α : Type*) where
  queue : List α
  todo : List α
  nodup : queue.Nodup
  todo_suffix : todo <:+ queue

namespace Rounds

variable {α : Type*} {r r' : Rounds α} {p q : α}

/-- The element `q` comes before `p`. -/
def Before (r : Rounds α) (q p : α) : Prop := [q, p] <+ r.queue

/-- Of two elements of the list one comes before the other. -/
theorem before_or_before (hp : p ∈ r.queue) (hq : q ∈ r.queue) (hne : p ≠ q) :
    r.Before q p ∨ r.Before p q := by
  obtain ⟨l₁, l₂, hl⟩ := List.append_of_mem hp
  have hsplit : ∀ {x : α} {l : List α}, x ∈ l → [x] <+ l := List.singleton_sublist.mpr
  rw [hl] at hq
  unfold Before
  rw [hl]
  rcases List.mem_append.mp hq with hq | hq
  · exact .inl ((hsplit hq).append (hsplit List.mem_cons_self))
  · refine .inr ((List.nil_sublist l₁).append (List.Sublist.cons_cons p (hsplit ?_)))
    exact (List.mem_cons.mp hq).resolve_left hne.symm

variable [DecidableEq α] {l : Option α} {ls : List (Option α)}

/-- A step inside a pass; the label is the element that has its turn. -/
inductive Within (r : Rounds α) : Option α → Rounds α → Prop
  | turn {p : α} {r' : Rounds α} (htodo : r.todo = p :: r'.todo) (hqueue : r'.queue = r.queue) :
    Within r (some p) r'
  | leave {p : α} {r' : Rounds α} (hp : p ∉ r.todo) (hqueue : r'.queue = r.queue.erase p)
    (htodo : r'.todo = r.todo) : Within r none r'
  | stay : Within r none r

/-- A step: inside a pass, or the start of the next one. -/
inductive Step (r : Rounds α) : Option α → Rounds α → Prop
  | within {l : Option α} {r' : Rounds α} (h : r.Within l r') : Step r l r'
  | start {new : List α} {r' : Rounds α} (hover : r.todo = []) (hqueue : r'.queue = new ++ r.queue)
    (htodo : r'.todo = r'.queue) : Step r none r'

/-- The next element has its turn. -/
def advance (r : Rounds α) {p : α} {todo : List α} (h : r.todo = p :: todo) : Rounds α where
  queue := r.queue
  todo := todo
  nodup := r.nodup
  todo_suffix := (List.suffix_cons p todo).trans (h ▸ r.todo_suffix)

/-- An element leaves, whose turn is over. -/
def remove (r : Rounds α) {p : α} (hp : p ∉ r.todo) : Rounds α where
  queue := r.queue.erase p
  todo := r.todo
  nodup := r.nodup.erase p
  todo_suffix := by
    obtain ⟨done, hdone⟩ := r.todo_suffix
    rw [← hdone, List.erase_append]
    split
    · exact List.suffix_append _ _
    · rw [List.erase_of_not_mem hp]
      exact List.suffix_append _ _

/-- The next pass over these elements starts. -/
def restart {queue : List α} (h : queue.Nodup) : Rounds α := ⟨queue, queue, h, List.suffix_rfl⟩

/-- How many times an element is still to be visited. -/
def due (r : Rounds α) (p : α) : ℕ := r.todo.count p

theorem due_le_one (r : Rounds α) (p : α) : r.due p ≤ 1 :=
  List.nodup_iff_count_le_one.mp (r.nodup.sublist r.todo_suffix.sublist) p

/-- An element that is not in the list is not due. -/
theorem due_of_not_mem (hp : p ∉ r.queue) : r.due p = 0 :=
  List.count_eq_zero.mpr fun h => hp (r.todo_suffix.subset h)

theorem due_of_all (h : r.todo = r.queue) (hp : p ∈ r.queue) : r.due p = 1 := by
  unfold due
  rw [h]
  exact List.count_eq_one_of_mem r.nodup hp

/-- A step inside a pass: the turns had and the turns due stay together. -/
theorem Within.due (h : r.Within l r') (x : α) : [l].count (some x) + r'.due x = r.due x := by
  cases h with
  | @turn p _ htodo _ =>
    unfold Rounds.due
    rw [htodo]
    simp [List.count_cons, Nat.add_comm]
  | leave _ _ htodo =>
    unfold Rounds.due
    rw [htodo]
    simp
  | stay => simp

/-- **A pass gives one turn to every element that was in the list at its start.** -/
theorem turns_of_pass (h : Path Within r ls r') (hstart : r.todo = r.queue) (hend : r'.todo = [])
    (x : α) : ls.count (some x) = if x ∈ r.queue then 1 else 0 := by
  have hkeep : ls.count (some x) + r'.due x = r.due x := by
    refine path_invariant (R := Within) (s := r)
      (I := fun ls s => ls.count (some x) + s.due x = r.due x) (by simp) ?_ ls h
    intro is t l u hi hstep
    have hdue := hstep.due x
    rw [List.count_append]
    omega
  have hnone : r'.due x = 0 := by
    unfold due
    rw [hend]
    rfl
  rw [hnone, Nat.add_zero] at hkeep
  rw [hkeep]
  split
  · next hx => exact due_of_all hstart hx
  · next hx => exact due_of_not_mem hx

/-! ### Two elements that stay -/

/-- Whoever comes before is visited before. -/
theorem due_le_of_before (h : r.Before q p) : r.due q ≤ r.due p := by
  by_cases hq : q ∈ r.todo
  · obtain ⟨done, hdone⟩ := r.todo_suffix
    have hnodup := r.nodup
    rw [← hdone] at hnodup
    have hq' : q ∉ done := fun hd => (List.nodup_append.mp hnodup).2.2 q hd q hq rfl
    have hsub := h
    unfold Before at hsub
    rw [← hdone] at hsub
    -- what has been visited does not reach as far as `q`
    have hp : p ∈ r.todo := by
      obtain ⟨l₁, l₂, heq, h₁, h₂⟩ := List.sublist_append_iff.mp hsub
      cases l₁ with
      | nil =>
        obtain rfl : [q, p] = l₂ := heq
        exact h₂.subset (List.mem_cons_of_mem _ List.mem_cons_self)
      | cons a l₁ =>
        obtain ⟨rfl, -⟩ := List.cons.inj heq
        exact absurd (h₁.subset List.mem_cons_self) hq'
    have hpos : 0 < r.due p := List.count_pos_iff.mpr hp
    have := r.due_le_one q
    omega
  · have : r.due q = 0 := List.count_eq_zero.mpr hq
    omega

/-- The order of two elements that stay does not change. -/
theorem Step.before (h : r.Step l r') (hp : p ∈ r'.queue) (hq : q ∈ r'.queue)
    (hb : r.Before q p) : r'.Before q p := by
  unfold Before at hb ⊢
  cases h with
  | within h =>
    cases h with
    | turn _ hqueue => rwa [hqueue]
    | @leave x _ _ hqueue _ =>
      rw [hqueue] at hp hq ⊢
      have hx : ∀ y ∈ r.queue.erase x, y ≠ x := fun y hy hyx =>
        r.nodup.not_mem_erase (hyx ▸ hy)
      have herase := hb.erase x
      rwa [List.erase_of_not_mem (by simp [(hx q hq).symm, (hx p hp).symm])] at herase
    | stay => exact hb
  | start _ hqueue _ =>
    rw [hqueue]
    exact hb.trans (List.sublist_append_right _ _)

/-- One step keeps the lead of an element over another one, up to what is due. -/
theorem Step.lead (h : r.Step l r') (hp : p ∈ r.queue) (hq : q ∈ r.queue) :
    [l].count (some p) + r'.due p + r.due q = [l].count (some q) + r'.due q + r.due p := by
  cases h with
  | within h =>
    have h₁ := h.due p
    have h₂ := h.due q
    omega
  | start hover hqueue htodo =>
    have hdue : ∀ x ∈ r.queue, r.due x = 0 ∧ r'.due x = 1 := by
      intro x hx
      refine ⟨?_, due_of_all htodo ?_⟩
      · unfold due
        rw [hover]
        rfl
      · rw [hqueue]
        exact List.mem_append_right _ hx
    obtain ⟨h₁, h₂⟩ := hdue p hp
    obtain ⟨h₃, h₄⟩ := hdue q hq
    simp [h₁, h₂, h₃, h₄]

/-- A step after which both elements are still there. -/
def Keeping (p q : α) (r : Rounds α) (l : Option α) (r' : Rounds α) : Prop :=
  r.Step l r' ∧ p ∈ r'.queue ∧ q ∈ r'.queue

/-- **Between two elements that stay, neither is ever more than one turn ahead.** -/
theorem turns_fair (hp : p ∈ r.queue) (hq : q ∈ r.queue) (h : Path (Keeping p q) r ls r') :
    ls.count (some p) ≤ ls.count (some q) + 1 := by
  by_cases hne : p = q
  · rw [hne]
    exact Nat.le_succ _
  have hkeep : (p ∈ r'.queue ∧ q ∈ r'.queue) ∧
      ls.count (some p) + r'.due p + r.due q = ls.count (some q) + r'.due q + r.due p ∧
      (r.Before q p → r'.Before q p) ∧ (r.Before p q → r'.Before p q) := by
    refine path_invariant (R := Keeping p q) (s := r)
      (I := fun ls s => (p ∈ s.queue ∧ q ∈ s.queue) ∧
        ls.count (some p) + s.due p + r.due q = ls.count (some q) + s.due q + r.due p ∧
        (r.Before q p → s.Before q p) ∧ (r.Before p q → s.Before p q)) ?_ ?_ ls h
    · exact ⟨⟨hp, hq⟩, by simp [Nat.add_comm], id, id⟩
    · rintro is t l u ⟨⟨htp, htq⟩, hlead, hb, hb'⟩ ⟨hstep, hup, huq⟩
      have hone := hstep.lead htp htq
      refine ⟨⟨hup, huq⟩, ?_, fun h => hstep.before hup huq (hb h), fun h => hstep.before huq hup (hb' h)⟩
      rw [List.count_append, List.count_append]
      omega
  obtain ⟨-, hlead, hb, hb'⟩ := hkeep
  have h₁ := r.due_le_one p
  have h₂ := r'.due_le_one q
  -- the one that comes before is due no longer than the other, at the start and at the end
  rcases before_or_before hp hq hne with hbefore | hbefore
  · have := due_le_of_before hbefore
    have := due_le_of_before (hb hbefore)
    omega
  · have := due_le_of_before hbefore
    have := due_le_of_before (hb' hbefore)
    omega

end Rounds
