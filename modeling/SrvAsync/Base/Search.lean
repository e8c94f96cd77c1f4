import Mathlib.Data.List.Infix
import Mathlib.Data.List.TakeDrop

/-!
# The first occurrence of a pattern in a list

`find` of a string class, for a pattern rather than a single character: the
least offset at which the pattern is a prefix of what is left of the list.  The
lemmas say that the answer is the first occurrence, that it does not change when
the list grows at its end, and how long a prefix has to be kept for the answer
to survive.

## Main definitions

* `firstInfix? pat s` — the offset of the first occurrence of `pat` in `s`.

## Main results

* `firstInfix?_eq_some_iff`, `firstInfix?_eq_none_iff` — the specification.
* `firstInfix?_of_prefix`, `firstInfix?_append` — growing the list.
* `firstInfix?_shrink` — cutting the list behind the occurrence.
* `infix_append_cons_iff`, `infix_intercalate_iff` — patterns and separators.
-/

namespace List

variable {α : Type*} [DecidableEq α]

/-- The offset of the first occurrence of `pat` in the list, if it occurs. -/
def firstInfix? (pat : List α) : List α → Option ℕ
  | [] => if pat.isEmpty then some 0 else none
  | a :: s => if pat.isPrefixOf (a :: s) then some 0 else (firstInfix? pat s).map (· + 1)

/-- **The specification of `firstInfix?`**: the pattern starts at the offset it
answers, and at no earlier one. -/
theorem firstInfix?_eq_some_iff {pat : List α} : ∀ {s : List α} {n : ℕ},
    firstInfix? pat s = some n ↔ pat <+: s.drop n ∧ ∀ m < n, ¬ pat <+: s.drop m := by
  intro s
  induction s with
  | nil =>
    intro n
    cases pat with
    | nil =>
      simp only [firstInfix?, List.isEmpty_nil, if_true, Option.some.injEq, List.drop_nil,
        List.prefix_rfl, not_true_eq_false, imp_false, not_lt, true_and]
      constructor
      · rintro rfl m; exact Nat.zero_le m
      · intro h; exact (Nat.le_zero.mp (h 0)).symm
    | cons b pat => simp [firstInfix?]
  | cons a s ih =>
    intro n
    simp only [firstInfix?, List.isPrefixOf_iff_prefix]
    split
    · next hp =>
      constructor
      · intro h; cases h; exact ⟨hp, fun m hm => absurd hm (Nat.not_lt_zero m)⟩
      · rintro ⟨-, h⟩
        cases n with
        | zero => rfl
        | succ n => exact absurd hp (h 0 (Nat.succ_pos n))
    · next hp =>
      -- the answer is one more than the answer for the tail
      cases n with
      | zero => simp [hp]
      | succ n =>
        simp only [Option.map_eq_some_iff, Nat.add_right_cancel_iff, exists_eq_right, ih,
          List.drop_succ_cons]
        constructor
        · rintro ⟨h1, h2⟩
          refine ⟨h1, fun m hm => ?_⟩
          cases m with
          | zero => simpa using hp
          | succ m => simpa using h2 m (by omega)
        · rintro ⟨h1, h2⟩
          exact ⟨h1, fun m hm => by simpa using h2 (m + 1) (by omega)⟩

/-- A pattern that is not found starts nowhere. -/
theorem firstInfix?_eq_none_iff {pat : List α} : ∀ {s : List α},
    firstInfix? pat s = none ↔ ∀ m, ¬ pat <+: s.drop m := by
  intro s
  induction s with
  | nil => cases pat <;> simp [firstInfix?]
  | cons a s ih =>
    simp only [firstInfix?, List.isPrefixOf_iff_prefix]
    split
    · next hp => simpa using ⟨0, by simpa using hp⟩
    · next hp =>
      rw [Option.map_eq_none_iff, ih]
      constructor
      · intro h m
        cases m with
        | zero => simpa using hp
        | succ m => simpa using h m
      · intro h m; simpa using h (m + 1)

/-- A pattern that is not found is nowhere inside the list. -/
theorem firstInfix?_eq_none_iff_not_infix {pat s : List α} :
    firstInfix? pat s = none ↔ ¬ pat <:+: s := by
  rw [firstInfix?_eq_none_iff, List.infix_iff_prefix_suffix]
  constructor
  · rintro h ⟨t, hp, hs⟩
    rw [List.suffix_iff_eq_drop] at hs
    exact h _ (hs ▸ hp)
  · intro h m hp
    exact h ⟨s.drop m, hp, List.drop_suffix m s⟩

/-- The occurrence lies inside the list. -/
theorem firstInfix?_add_length_le {pat s : List α} {n : ℕ} (hne : pat ≠ [])
    (h : firstInfix? pat s = some n) : n + pat.length ≤ s.length := by
  have hp := (firstInfix?_eq_some_iff.mp h).1.length_le
  rw [List.length_drop] at hp
  have : 0 < pat.length := List.length_pos_iff.mpr hne
  omega

omit [DecidableEq α] in
/-- Where a prefix of `s.drop m` that fits into `s` stands, it also stands in
every extension of `s`, and conversely. -/
theorem prefix_drop_append_iff {pat s t : List α} {m : ℕ} (hm : m + pat.length ≤ s.length) :
    pat <+: (s ++ t).drop m ↔ pat <+: s.drop m := by
  rw [List.drop_append_of_le_length (by omega)]
  constructor
  · intro h
    exact List.prefix_of_prefix_length_le h (List.prefix_append _ _)
      (by rw [List.length_drop]; omega)
  · intro h; exact h.trans (List.prefix_append _ _)

/-- **An occurrence survives appending.** -/
theorem firstInfix?_append {pat s : List α} {n : ℕ} (hne : pat ≠ [])
    (h : firstInfix? pat s = some n) (t : List α) : firstInfix? pat (s ++ t) = some n := by
  have hlen := firstInfix?_add_length_le hne h
  obtain ⟨h1, h2⟩ := firstInfix?_eq_some_iff.mp h
  refine firstInfix?_eq_some_iff.mpr ⟨(prefix_drop_append_iff hlen).mpr h1, fun m hm => ?_⟩
  rw [prefix_drop_append_iff (by omega)]
  exact h2 m hm

theorem firstInfix?_of_prefix {pat s t : List α} {n : ℕ} (hne : pat ≠ []) (hst : s <+: t)
    (h : firstInfix? pat s = some n) : firstInfix? pat t = some n := by
  obtain ⟨u, rfl⟩ := hst
  exact firstInfix?_append hne h u

/-- **An occurrence survives cutting the list behind it.** -/
theorem firstInfix?_shrink {pat s t : List α} {n : ℕ} (h : firstInfix? pat (s ++ t) = some n)
    (hn : n + pat.length ≤ s.length) : firstInfix? pat s = some n := by
  obtain ⟨h1, h2⟩ := firstInfix?_eq_some_iff.mp h
  refine firstInfix?_eq_some_iff.mpr ⟨(prefix_drop_append_iff hn).mp h1, fun m hm hp => ?_⟩
  exact h2 m hm ((prefix_drop_append_iff (by omega)).mpr hp)

/-- When the shorter list has no occurrence, an occurrence in the longer one
ends behind it. -/
theorem length_lt_of_firstInfix?_append {pat s t : List α} {n : ℕ}
    (hs : firstInfix? pat s = none) (h : firstInfix? pat (s ++ t) = some n) :
    s.length < n + pat.length := by
  by_contra hle
  rw [firstInfix?_shrink h (by omega)] at hs
  cases hs

/-! ### Patterns and separators -/

section

omit [DecidableEq α]

variable {w s t : List α} {c : α}

/-- **A pattern does not reach over a separator** that is not in it. -/
theorem infix_append_cons_iff (hne : w ≠ []) (hc : c ∉ w) :
    w <:+: s ++ c :: t ↔ w <:+: s ∨ w <:+: t := by
  constructor
  · rintro ⟨u, v, h⟩
    rw [List.append_assoc] at h
    rcases List.append_eq_append_iff.mp h with ⟨x, rfl, hx⟩ | ⟨x, rfl, hx⟩
    · -- the pattern starts in front of the separator
      rcases List.append_eq_append_iff.mp hx with ⟨y, rfl, -⟩ | ⟨y, hw, hy⟩
      · exact .inl ⟨u, y, List.append_assoc _ _ _⟩
      · cases y with
        | nil =>
          rw [List.append_nil] at hw
          exact .inl ⟨u, [], by rw [hw, List.append_nil]⟩
        | cons b y =>
          obtain ⟨rfl, -⟩ := List.cons.inj hy
          exact absurd (hw ▸ List.mem_append_right x List.mem_cons_self) hc
    · cases x with
      | nil =>
        obtain ⟨b, w, rfl⟩ := List.exists_cons_of_ne_nil hne
        obtain ⟨rfl, -⟩ := List.cons.inj hx
        exact absurd List.mem_cons_self hc
      | cons b x =>
        obtain ⟨-, rfl⟩ := List.cons.inj hx
        exact .inr ⟨x, v, List.append_assoc _ _ _⟩
  · rintro (⟨u, v, rfl⟩ | ⟨u, v, rfl⟩)
    · exact ⟨u, v ++ c :: t, by simp⟩
    · exact ⟨s ++ c :: u, v, by simp⟩

/-- What has no element of the pattern in it can be dropped from the front. -/
theorem infix_append_right_iff (hne : w ≠ []) : ∀ {a : List α}, (∀ c ∈ a, c ∉ w) →
    (w <:+: a ++ s ↔ w <:+: s) := by
  intro a
  induction a with
  | nil => exact fun _ => Iff.rfl
  | cons b a ih =>
    intro h
    have hnil : ¬ w <:+: [] := fun h => hne (List.infix_nil.mp h)
    have hstep := infix_append_cons_iff (s := []) (t := a ++ s) hne (h b List.mem_cons_self)
    rw [List.nil_append] at hstep
    rw [List.cons_append, hstep, ih fun c hc => h c (List.mem_cons_of_mem b hc)]
    exact or_iff_right hnil

/-- What has no element of the pattern in it can be dropped from the end. -/
theorem infix_append_left_iff (hne : w ≠ []) {b : List α} (h : ∀ c ∈ b, c ∉ w) :
    w <:+: s ++ b ↔ w <:+: s := by
  cases b with
  | nil => rw [List.append_nil]
  | cons c b =>
    rw [infix_append_cons_iff hne (h c List.mem_cons_self)]
    refine or_iff_left fun hb => ?_
    obtain ⟨x, w', rfl⟩ := List.exists_cons_of_ne_nil hne
    have hx := hb.subset (List.mem_cons_self (a := x))
    exact h x (List.mem_cons_of_mem c hx) List.mem_cons_self

/-- **A pattern in pieces that are joined by a separator** is in one of the pieces. -/
theorem infix_intercalate_iff (hne : w ≠ []) (hc : c ∉ w) : ∀ {ls : List (List α)},
    w <:+: [c].intercalate ls ↔ ∃ l ∈ ls, w <:+: l := by
  intro ls
  induction ls with
  | nil => simpa [List.intercalate] using hne
  | cons l ls ih =>
    cases ls with
    | nil => simp [List.intercalate]
    | cons l' ls =>
      rw [List.intercalate_cons_cons, List.append_assoc, List.singleton_append,
        infix_append_cons_iff hne hc, ih]
      simp

end

end List
