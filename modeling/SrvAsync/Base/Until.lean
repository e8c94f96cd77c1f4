import Mathlib.Data.List.Basic
import Mathlib.Tactic.Common

/-!
# Items handled until one is rejected

A loop that hands one item after another to a handler, which returns a code and leaves a state
behind, and that stops behind the first item with a bad code.

## Main definitions

* `Until.run bad f` — the loop.  It returns the last code.
* `Until.handled bad f` — the items it hands out, with the states it finds then.

## Main results

* `run_noop`, `run_middle`, `run_append_congr` — items without an effect, and the same items in front.
* `run_filter` — items without an effect can be left out.
* `run_induct`, `mem_handled_induct` — **what every handled item preserves**.
* `run_last` — **the last handled item that sets a value decides it**.
* `map_fst_handled` — a loop that is not stopped handles every item.
-/

namespace Until

variable {α σ ρ : Type*}

/-- The loop: the code and the state behind the last item that is handled. -/
def run (bad : ρ → Bool) (f : α → σ → ρ × σ) : List α → ρ → σ → ρ × σ
  | [], r, s => (r, s)
  | a :: as, _, s => if bad (f a s).1 then f a s else run bad f as (f a s).1 (f a s).2

/-- The items that are handled, each with the state that it finds. -/
def handled (bad : ρ → Bool) (f : α → σ → ρ × σ) : List α → σ → List (α × σ)
  | [], _ => []
  | a :: as, s => (a, s) :: if bad (f a s).1 then [] else handled bad f as (f a s).2

variable {bad : ρ → Bool} {f : α → σ → ρ × σ} {r : ρ} {s : σ} {a : α} {as bs : List α}

@[simp] theorem run_nil : run bad f [] r s = (r, s) := rfl

theorem run_cons_of_bad (h : bad (f a s).1 = true) : run bad f (a :: as) r s = f a s := if_pos h

theorem run_cons_of_good (h : bad (f a s).1 = false) :
    run bad f (a :: as) r s = run bad f as (f a s).1 (f a s).2 := if_neg (by rw [h]; decide)

theorem handled_cons_of_bad (h : bad (f a s).1 = true) : handled bad f (a :: as) s = [(a, s)] := by
  rw [handled, if_pos h]

theorem handled_cons_of_good (h : bad (f a s).1 = false) :
    handled bad f (a :: as) s = (a, s) :: handled bad f as (f a s).2 := by
  rw [handled, if_neg (by rw [h]; decide)]

/-- An item that is handled is one of the list. -/
theorem mem_of_mem_handled {x : α × σ} (hx : x ∈ handled bad f as s) : x.1 ∈ as := by
  induction as generalizing s with
  | nil => exact absurd hx List.not_mem_nil
  | cons a as ih =>
    cases h : bad (f a s).1 with
    | true =>
      rw [handled_cons_of_bad h, List.mem_singleton] at hx
      exact hx ▸ List.mem_cons_self
    | false =>
      rw [handled_cons_of_good h] at hx
      rcases List.mem_cons.mp hx with rfl | hx
      · exact List.mem_cons_self
      · exact List.mem_cons_of_mem a (ih hx)

/-- Items without an effect. -/
theorem run_noop {ok : ρ} (hok : bad ok = false) (hnoop : ∀ a ∈ as, ∀ s, f a s = (ok, s)) :
    run bad f as ok s = (ok, s) := by
  induction as with
  | nil => rfl
  | cons a as ih =>
    have ha := hnoop a List.mem_cons_self s
    rw [run_cons_of_good (by rw [ha, hok]), ha]
    exact ih fun b hb => hnoop b (List.mem_cons_of_mem a hb)

/-- One item among items without an effect. -/
theorem run_middle {ok : ρ} (hok : bad ok = false)
    (hgood : ∀ a s, bad (f a s).1 = false → (f a s).1 = ok)
    (has : ∀ a ∈ as, ∀ s, f a s = (ok, s)) (hbs : ∀ b ∈ bs, ∀ s, f b s = (ok, s)) :
    run bad f (as ++ a :: bs) ok s = f a s := by
  induction as with
  | nil =>
    rw [List.nil_append]
    cases h : bad (f a s).1 with
    | true => rw [run_cons_of_bad h]
    | false =>
      rw [run_cons_of_good h, hgood a s h, run_noop hok hbs]
      exact Prod.ext (hgood a s h).symm rfl
  | cons c as ih =>
    have hc := has c List.mem_cons_self s
    rw [List.cons_append, run_cons_of_good (by rw [hc, hok]), hc]
    exact ih fun b hb => has b (List.mem_cons_of_mem c hb)

/-- The same items in front of loops that do the same. -/
theorem run_append_congr {ok : ρ} (hgood : ∀ a s, bad (f a s).1 = false → (f a s).1 = ok)
    (h : ∀ s, run bad f as ok s = run bad f bs ok s) (cs : List α) :
    run bad f (cs ++ as) ok s = run bad f (cs ++ bs) ok s := by
  induction cs generalizing s with
  | nil => exact h s
  | cons c cs ih =>
    rw [List.cons_append, List.cons_append]
    cases hc : bad (f c s).1 with
    | true => rw [run_cons_of_bad hc, run_cons_of_bad hc]
    | false => rw [run_cons_of_good hc, run_cons_of_good hc, hgood c s hc, ih]

/-- **Items without an effect** can be left out. -/
theorem run_filter {p : α → Bool} {ok : ρ} (hok : bad ok = false)
    (hgood : ∀ a s, bad (f a s).1 = false → (f a s).1 = ok)
    (hnoop : ∀ a ∈ as, p a = false → ∀ s, f a s = (ok, s)) :
    run bad f (as.filter p) ok s = run bad f as ok s := by
  induction as generalizing s with
  | nil => rfl
  | cons a as ih =>
    have hih := fun s => ih (s := s) fun b hb => hnoop b (List.mem_cons_of_mem a hb)
    cases hp : p a with
    | false =>
      have hf := hnoop a List.mem_cons_self hp s
      rw [List.filter_cons_of_neg (by rw [hp]; decide), hih, run_cons_of_good (by rw [hf, hok]), hf]
    | true =>
      rw [List.filter_cons_of_pos hp]
      cases h : bad (f a s).1 with
      | true => rw [run_cons_of_bad h, run_cons_of_bad h]
      | false => rw [run_cons_of_good h, run_cons_of_good h, hgood a s h, hih]

/-- What holds of every code holds of the last one. -/
theorem run_code {Q : ρ → Prop} (hr : Q r) (h : ∀ a s, Q (f a s).1) : Q (run bad f as r s).1 := by
  induction as generalizing r s with
  | nil => exact hr
  | cons a as ih =>
    cases hbad : bad (f a s).1 with
    | true =>
      rw [run_cons_of_bad hbad]
      exact h a s
    | false =>
      rw [run_cons_of_good hbad]
      exact ih (h a s)

/-- **What every handled item preserves** holds in the end. -/
theorem run_induct {P : σ → Prop} (hs : P s)
    (hstep : ∀ x ∈ handled bad f as s, P x.2 → P (f x.1 x.2).2) : P (run bad f as r s).2 := by
  induction as generalizing r s with
  | nil => exact hs
  | cons a as ih =>
    have ha := hstep (a, s) List.mem_cons_self hs
    cases h : bad (f a s).1 with
    | true =>
      rw [run_cons_of_bad h]
      exact ha
    | false =>
      rw [run_cons_of_good h]
      refine ih ha fun x hx => hstep x ?_
      unfold handled
      rw [if_neg (by rw [h]; decide)]
      exact List.mem_cons_of_mem _ hx

/-- What every item preserves holds of the states that the items find. -/
theorem mem_handled_induct {P : σ → Prop} (hs : P s) (hstep : ∀ a s, P s → P (f a s).2) :
    ∀ x ∈ handled bad f as s, P x.2 := by
  induction as generalizing s with
  | nil => exact fun x hx => absurd hx List.not_mem_nil
  | cons a as ih =>
    intro x hx
    unfold handled at hx
    rcases List.mem_cons.mp hx with rfl | hx
    · exact hs
    · split at hx
      · exact absurd hx List.not_mem_nil
      · exact ih (hstep a s hs) x hx

/-- **The last handled item that sets a value decides it**, where an item sets the value to what
`u` says, or leaves it. -/
theorem run_last {β : Type*} (u : α → Option β) (g : σ → β)
    (h : ∀ a s, g (f a s).2 = (u a).getD (g s)) :
    g (run bad f as r s).2 = ((handled bad f as s).filterMap fun x => u x.1).getLast?.getD (g s) := by
  induction as generalizing r s with
  | nil => rfl
  | cons a as ih =>
    have hlast : ∀ l : List β, ((u a).toList ++ l).getLast?.getD (g s) =
        l.getLast?.getD (g (f a s).2) := by
      intro l
      rw [h, List.getLast?_append]
      cases u a <;> cases l.getLast? <;> rfl
    have hcons : ∀ l : List (α × σ), ((a, s) :: l).filterMap (fun x => u x.1) =
        (u a).toList ++ l.filterMap fun x => u x.1 := by
      intro l
      rw [List.filterMap_cons]
      cases u a <;> rfl
    unfold handled
    rw [hcons, hlast]
    cases hbad : bad (f a s).1 with
    | true =>
      rw [run_cons_of_bad hbad]
      rfl
    | false =>
      rw [run_cons_of_good hbad]
      exact ih

/-- A loop that is not stopped handles every item. -/
theorem map_fst_handled (h : bad (run bad f as r s).1 = false) :
    (handled bad f as s).map Prod.fst = as := by
  induction as generalizing r s with
  | nil => rfl
  | cons a as ih =>
    unfold handled
    cases hbad : bad (f a s).1 with
    | true =>
      rw [run_cons_of_bad hbad, hbad] at h
      cases h
    | false =>
      rw [run_cons_of_good hbad] at h
      rw [if_neg Bool.false_ne_true, List.map_cons, ih h]

end Until
