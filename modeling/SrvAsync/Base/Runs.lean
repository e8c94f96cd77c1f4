import Mathlib.Data.List.Induction
import Mathlib.Data.List.ReduceOption
import Mathlib.Tactic.Common

/-!
# Runs of a partial step function

A machine is a step function `step : σ → ι → Option σ`: `none` says that the
input is not possible in the state.  A run folds the inputs of a list, and
`Along` says that a condition on state and input holds at every step of it.

The rules here are the ones an invariant proof or a refinement proof uses: what
one step preserves a run preserves, and — for machines whose silent steps leave no
choice — two runs with the same visible labels differ by silent steps only.

A transition system is a relation `R : σ → ι → σ → Prop`; a path of it is what a
run is to a machine.

## Main definitions

* `run step s is` — the state after the inputs `is`.
* `runFar step s is` — the state after as many of the inputs `is` as are possible.
* `Along Q step s is` — every step of the run meets `Q`.
* `tally f step s is` — what the steps of the run add up to.
* `Silent step s t` — silent steps lead from `s` to `t`.
* `Path R s is t` — the labels `is` lead from `s` to `t`.

## Main results

* `run_invariant`, `run_invariant_along` — the invariant rule.
* `run_tally` — the rule for a sum.
* `runFar_lockstep` — two machines in lockstep.
* `rel_run` — two machines that make the same steps.
* `silent_or_silent` — runs with the same visible labels differ by silent steps.
* `path_append_iff`, `path_concat_iff`, `path_invariant`.
-/

namespace Machine

variable {σ ι : Type*}

/-- The state a list of inputs leads to, if every one of them is possible. -/
def run (step : σ → ι → Option σ) : σ → List ι → Option σ
  | s, [] => some s
  | s, i :: is => (step s i).bind fun s' => run step s' is

/-- `Q` holds of the state and the input at every step of a run. -/
def Along (Q : σ → ι → Prop) (step : σ → ι → Option σ) : σ → List ι → Prop
  | _, [] => True
  | s, i :: is => Q s i ∧ ∀ s', step s i = some s' → Along Q step s' is

variable {step : σ → ι → Option σ}

@[simp] theorem run_nil (s : σ) : run step s [] = some s := rfl

theorem run_cons (s : σ) (i : ι) (is : List ι) :
    run step s (i :: is) = (step s i).bind fun s' => run step s' is := rfl

theorem run_cons_eq_some_iff {s s' : σ} {i : ι} {is : List ι} :
    run step s (i :: is) = some s' ↔ ∃ t, step s i = some t ∧ run step t is = some s' := by
  rw [run_cons, Option.bind_eq_some_iff]

/-- A run of a concatenation is a run of the first part followed by one of the second. -/
theorem run_append (s : σ) (is js : List ι) :
    run step s (is ++ js) = (run step s is).bind fun t => run step t js := by
  induction is generalizing s with
  | nil => rfl
  | cons i is ih =>
    rw [List.cons_append, run_cons, run_cons]
    cases step s i with
    | none => rfl
    | some t => exact ih t

theorem run_append_of_eq {s t : σ} {is : List ι} (js : List ι) (h : run step s is = some t) :
    run step s (is ++ js) = run step t js := by
  rw [run_append, h, Option.bind_some]

/-- **The invariant rule**, for steps that meet a condition. -/
theorem run_invariant_along {P : σ → Prop} {Q : σ → ι → Prop}
    (hstep : ∀ s i s', P s → Q s i → step s i = some s' → P s') :
    ∀ (is : List ι) {s s' : σ}, P s → Along Q step s is → run step s is = some s' → P s' := by
  intro is
  induction is with
  | nil => intro s s' hs _ h; cases h; exact hs
  | cons i is ih =>
    intro s s' hs hq h
    obtain ⟨t, ht, hr⟩ := run_cons_eq_some_iff.mp h
    exact ih (hstep s i t hs hq.1 ht) (hq.2 t ht) hr

theorem Along.imp {Q Q' : σ → ι → Prop} (hq : ∀ s i, Q s i → Q' s i) :
    ∀ {is : List ι} {s : σ}, Along Q step s is → Along Q' step s is
  | [], _, _ => trivial
  | i :: _, s, h => ⟨hq s i h.1, fun t ht => (h.2 t ht).imp hq⟩

theorem Along.and {Q Q' : σ → ι → Prop} : ∀ {is : List ι} {s : σ}, Along Q step s is →
    Along Q' step s is → Along (fun s i => Q s i ∧ Q' s i) step s is
  | [], _, _, _ => trivial
  | _ :: _, _, h, h' => ⟨⟨h.1, h'.1⟩, fun t ht => (h.2 t ht).and (h'.2 t ht)⟩

/-- A condition on the inputs alone holds along a run when it holds of every input. -/
theorem along_of_forall {Q : σ → ι → Prop} :
    ∀ {is : List ι} {s : σ}, (∀ i ∈ is, ∀ s, Q s i) → Along Q step s is
  | [], _, _ => trivial
  | i :: _, s, h => ⟨h i List.mem_cons_self s, fun _ _ =>
      along_of_forall fun j hj => h j (List.mem_cons_of_mem _ hj)⟩

/-- A condition along a run can be computed. -/
instance Along.decidable {Q : σ → ι → Prop} [∀ s i, Decidable (Q s i)] :
    (is : List ι) → (s : σ) → Decidable (Along Q step s is)
  | [], _ => isTrue trivial
  | i :: is, s =>
    match h : step s i with
    | none => decidable_of_iff (Q s i)
        ⟨fun hq => ⟨hq, fun t ht => absurd (h.symm.trans ht) (Option.some_ne_none t).symm⟩, And.left⟩
    | some t =>
      have : Decidable (Along Q step t is) := Along.decidable is t
      decidable_of_iff (Q s i ∧ Along Q step t is)
        ⟨fun hq => ⟨hq.1, fun _ ht => Option.some.inj (h.symm.trans ht) ▸ hq.2⟩,
          fun hq => ⟨hq.1, hq.2 t h⟩⟩

theorem along_true (is : List ι) (s : σ) : Along (fun _ _ => True) step s is := by
  induction is generalizing s with
  | nil => trivial
  | cons i is ih => exact ⟨trivial, fun t _ => ih t⟩

/-- **The invariant rule.** -/
theorem run_invariant {P : σ → Prop} (hstep : ∀ s i s', P s → step s i = some s' → P s')
    (is : List ι) {s s' : σ} (hs : P s) (h : run step s is = some s') : P s' :=
  run_invariant_along (Q := fun _ _ => True) (fun s i s' hs _ h => hstep s i s' hs h) is hs
    (along_true is s) h

/-! ### Sums over a run -/

/-- What the steps of a run add up to. -/
def tally (f : σ → ι → ℕ) (step : σ → ι → Option σ) : σ → List ι → ℕ
  | _, [] => 0
  | s, i :: is => f s i + (step s i).elim 0 fun t => tally f step t is

/-- **The rule for a sum over a run**: a relation of the state and the sum so far. -/
theorem run_tally {f : σ → ι → ℕ} {Q : σ → ℕ → Prop}
    (hstep : ∀ s i t n, Q s n → step s i = some t → Q t (n + f s i)) :
    ∀ (is : List ι) {s s' : σ} {n : ℕ}, Q s n → run step s is = some s' →
      Q s' (n + tally f step s is) := by
  intro is
  induction is with
  | nil => intro s s' n hs h; cases h; exact hs
  | cons i is ih =>
    intro s s' n hs h
    obtain ⟨t, ht, hr⟩ := run_cons_eq_some_iff.mp h
    have hnext := ih (hstep s i t n hs ht) hr
    unfold tally
    rw [ht, Option.elim_some, ← Nat.add_assoc]
    exact hnext

/-! ### Runs as far as they go -/

/-- The state a list of inputs leads to, up to the first one that is not possible. -/
def runFar (step : σ → ι → Option σ) : σ → List ι → σ
  | s, [] => s
  | s, i :: is => (step s i).elim s fun t => runFar step t is

theorem runFar_cons_of_none {s : σ} {i : ι} (is : List ι) (h : step s i = none) :
    runFar step s (i :: is) = s := by
  unfold runFar
  rw [h]
  rfl

theorem runFar_cons_of_some {s t : σ} {i : ι} (is : List ι) (h : step s i = some t) :
    runFar step s (i :: is) = runFar step t is := by
  rw [runFar, h]
  rfl

/-- A run that is possible goes as far as it is given. -/
theorem runFar_of_run : ∀ {is : List ι} {s s' : σ}, run step s is = some s' → runFar step s is = s'
  | [], _, _, h => Option.some.inj h
  | _ :: is, _, _, h => by
    obtain ⟨t, ht, hr⟩ := run_cons_eq_some_iff.mp h
    rw [runFar_cons_of_some is ht]
    exact runFar_of_run hr

/-- **The invariant rule** for a run as far as it goes. -/
theorem runFar_invariant {P : σ → Prop} (hstep : ∀ s i s', P s → step s i = some s' → P s') :
    ∀ (is : List ι) {s : σ}, P s → P (runFar step s is) := by
  intro is
  induction is with
  | nil => exact fun hs => hs
  | cons i is ih =>
    intro s hs
    cases hi : step s i with
    | none =>
      rw [runFar_cons_of_none is hi]
      exact hs
    | some t =>
      rw [runFar_cons_of_some is hi]
      exact ih (hstep s i t hs hi)

/-- **Two machines in lockstep**, as long as the steps of the first one meet a condition: related
states make the same steps, to related states or to states that agree for the rest of the run. -/
theorem runFar_lockstep {τ : Type*} {step' : τ → ι → Option τ} {R Q : σ → τ → Prop}
    {C : σ → ι → Prop} (hQ : ∀ s t, R s t → Q s t)
    (hnone : ∀ s t i, R s t → step s i = none → step' t i = none)
    (hsome : ∀ s t i s', R s t → C s i → step s i = some s' → ∃ t', step' t i = some t' ∧
      (R s' t' ∨ ∀ is, Q (runFar step s' is) (runFar step' t' is))) :
    ∀ (is : List ι) {s : σ} {t : τ}, R s t → Along C step s is →
      Q (runFar step s is) (runFar step' t is) := by
  intro is
  induction is with
  | nil => exact fun h _ => hQ _ _ h
  | cons i is ih =>
    intro s t h hal
    cases hi : step s i with
    | none =>
      rw [runFar_cons_of_none is hi, runFar_cons_of_none is (hnone s t i h hi)]
      exact hQ s t h
    | some s' =>
      obtain ⟨t', ht, h'⟩ := hsome s t i s' h hal.1 hi
      rw [runFar_cons_of_some is hi, runFar_cons_of_some is ht]
      rcases h' with h' | h'
      · exact ih h' (hal.2 s' hi)
      · exact h' is

/-! ### Machines that make the same steps -/

section

variable {τ κ α β γ δ : Type*}

/-- Related results are related in another way, when their values are. -/
theorem rel_imp {R S : α → β → Prop} {x : Option α} {y : Option β} (h : Option.Rel R x y)
    (hs : ∀ a b, x = some a → y = some b → R a b → S a b) : Option.Rel S x y := by
  cases h with
  | some h => exact .some (hs _ _ rfl rfl h)
  | none => exact .none

/-- Related results are handled in related ways. -/
theorem rel_bind {R : α → β → Prop} {S : γ → δ → Prop} {x : Option α} {y : Option β}
    {f : α → Option γ} {g : β → Option δ} (h : Option.Rel R x y)
    (hf : ∀ a b, R a b → Option.Rel S (f a) (g b)) : Option.Rel S (x.bind f) (y.bind g) := by
  cases h with
  | some h => exact hf _ _ h
  | none => exact .none

/-- **Two machines that make the same steps** make the same runs: one is possible exactly when
the other is, and related states stay related. -/
theorem rel_run {step' : τ → κ → Option τ} {f : κ → ι} {R : τ → σ → Prop}
    (hstep : ∀ t s k, R t s → Option.Rel R (step' t k) (step s (f k))) :
    ∀ (ks : List κ) {t : τ} {s : σ}, R t s → Option.Rel R (run step' t ks) (run step s (ks.map f)) := by
  intro ks
  induction ks with
  | nil => exact fun h => .some h
  | cons k ks ih => exact fun h => rel_bind (hstep _ _ k h) fun _ _ h' => ih h'

end

/-- A run is a monadic fold. -/
theorem foldlM_eq_run (s : σ) (is : List ι) : is.foldlM step s = run step s is := by
  induction is generalizing s with
  | nil => rfl
  | cons i is ih =>
    rw [List.foldlM_cons, run_cons]
    exact congrArg (Option.bind (step s i)) (funext ih)

/-! ### Silent steps

A label of a machine with silent steps is `none` for a silent step and `some l` for
a visible one. -/

section

variable {α : Type*} {step : σ → Option α → Option σ}

/-- A state that silent steps lead to. -/
def Silent (step : σ → Option α → Option σ) (s t : σ) : Prop :=
  ∃ n, run step s (List.replicate n none) = some t

theorem silent_of_run : ∀ {ls : List (Option α)} {s t : σ}, ls.reduceOption = [] →
    run step s ls = some t → Silent step s t
  | [], _, _, _, h => ⟨0, h⟩
  | none :: ls, s, t, hv, h => by
    obtain ⟨u, hu, h⟩ := run_cons_eq_some_iff.mp h
    rw [List.reduceOption_cons_of_none] at hv
    obtain ⟨n, hn⟩ := silent_of_run hv h
    exact ⟨n + 1, run_cons_eq_some_iff.mpr ⟨u, hu, hn⟩⟩
  | some l :: ls, _, _, hv, _ => by simp [List.reduceOption] at hv

/-- **The visible labels determine a run up to silent steps**, when no state has both a
silent and a visible step. -/
theorem silent_or_silent
    (hexcl : ∀ s l s', step s (some l) = some s' → step s none = none) :
    ∀ {ls₁ ls₂ : List (Option α)} {s t₁ t₂ : σ}, ls₁.reduceOption = ls₂.reduceOption →
      run step s ls₁ = some t₁ → run step s ls₂ = some t₂ →
      Silent step t₁ t₂ ∨ Silent step t₂ t₁ := by
  intro ls₁
  -- the runs go together until one of them is over; what the other still does is silent
  induction ls₁ with
  | nil =>
    intro ls₂ s t₁ t₂ hv h₁ h₂
    obtain rfl := Option.some.inj h₁
    exact .inl (silent_of_run hv.symm h₂)
  | cons l₁ ls₁ ih =>
    intro ls₂ s t₁ t₂ hv h₁ h₂
    cases ls₂ with
    | nil =>
      obtain rfl := Option.some.inj h₂
      exact .inr (silent_of_run hv h₁)
    | cons l₂ ls₂ =>
      obtain ⟨u₁, hu₁, hr₁⟩ := run_cons_eq_some_iff.mp h₁
      obtain ⟨u₂, hu₂, hr₂⟩ := run_cons_eq_some_iff.mp h₂
      cases l₁ with
      | none =>
        cases l₂ with
        | none =>
          obtain rfl := Option.some.inj (hu₁.symm.trans hu₂)
          rw [List.reduceOption_cons_of_none, List.reduceOption_cons_of_none] at hv
          exact ih hv hr₁ hr₂
        -- one run cannot be silent where the other is not
        | some l₂ => exact absurd (hu₁.symm.trans (hexcl _ _ _ hu₂)) (Option.some_ne_none _)
      | some l₁ =>
        cases l₂ with
        | none => exact absurd (hu₂.symm.trans (hexcl _ _ _ hu₁)) (Option.some_ne_none _)
        | some l₂ =>
          rw [List.reduceOption_cons_of_some, List.reduceOption_cons_of_some] at hv
          obtain ⟨rfl, hv'⟩ := List.cons.inj hv
          obtain rfl := Option.some.inj (hu₁.symm.trans hu₂)
          exact ih hv' hr₁ hr₂

/-- What silent steps preserve. -/
theorem Silent.invariant {I : σ → Prop} {s t : σ} (h : Silent step s t)
    (hstep : ∀ s s', I s → step s none = some s' → I s') (hs : I s) : I t := by
  obtain ⟨n, h⟩ := h
  induction n generalizing s with
  | zero => exact Option.some.inj h ▸ hs
  | succ n ih =>
    obtain ⟨u, hu, h⟩ := run_cons_eq_some_iff.mp h
    exact ih (hstep _ _ hs hu) h

end

/-! ### Paths of a transition system -/

/-- The labels of a list lead from one state to another. -/
def Path (R : σ → ι → σ → Prop) : σ → List ι → σ → Prop
  | s, [], t => s = t
  | s, i :: is, t => ∃ u, R s i u ∧ Path R u is t

variable {R : σ → ι → σ → Prop}

@[simp] theorem path_nil_iff {s t : σ} : Path R s [] t ↔ s = t := Iff.rfl

theorem path_cons_iff {s t : σ} {i : ι} {is : List ι} :
    Path R s (i :: is) t ↔ ∃ u, R s i u ∧ Path R u is t := Iff.rfl

theorem path_append_iff {s t : σ} {is js : List ι} :
    Path R s (is ++ js) t ↔ ∃ u, Path R s is u ∧ Path R u js t := by
  induction is generalizing s with
  | nil => simp
  | cons i is ih =>
    simp only [List.cons_append, path_cons_iff, ih]
    constructor
    · rintro ⟨u, hu, v, hv, ht⟩
      exact ⟨v, ⟨u, hu, hv⟩, ht⟩
    · rintro ⟨v, ⟨u, hu, hv⟩, ht⟩
      exact ⟨u, hu, v, hv, ht⟩

theorem path_concat_iff {s t : σ} {is : List ι} {i : ι} :
    Path R s (is ++ [i]) t ↔ ∃ u, Path R s is u ∧ R u i t := by
  simp [path_append_iff, path_cons_iff]

/-- A path and one more label. -/
theorem Path.concat {s t u : σ} {is : List ι} {i : ι} (h : Path R s is t) (hr : R t i u) :
    Path R s (is ++ [i]) u := path_concat_iff.mpr ⟨t, h, hr⟩

/-- **The invariant rule for paths**; the invariant may speak of the labels so far. -/
theorem path_invariant {s : σ} {I : List ι → σ → Prop} (hnil : I [] s)
    (hstep : ∀ is t i u, I is t → R t i u → I (is ++ [i]) u) :
    ∀ (is : List ι) {t : σ}, Path R s is t → I is t := by
  intro is
  induction is using List.reverseRecOn with
  | nil => intro t h; cases h; exact hnil
  | append_singleton is i ih =>
    intro t h
    obtain ⟨u, hu, hr⟩ := path_concat_iff.mp h
    exact hstep is u i t (ih hu) hr

end Machine
