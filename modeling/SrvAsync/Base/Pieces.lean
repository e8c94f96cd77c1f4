import SrvAsync.Base.Search

/-!
# The pieces of a list

A list cut behind every occurrence of a pattern: the pieces that the pattern ends,
and what is left behind the last of them.  With `pat` the end of a line these are
the lines of a text.

## Main definitions

* `splitEnds pat hpat s` — the pieces of `s` and the rest.

## Main results

* `splitEnds_append` — a piece with its end in front of a list is its first piece.
* `splitEnds_flatMap` — pieces that are put together are found again.
* `flatMap_splitEnds` — the pieces make up the list.
* `splitEnds_eq_iff` — what the pieces of a list are.
* `firstInfix?_double` — where an empty piece comes first.
-/

namespace List

variable {α : Type*} [DecidableEq α]

/-- The pieces of a list that are ended by a pattern, and what is behind the last of them. -/
def splitEnds (pat : List α) (hpat : pat ≠ []) (s : List α) : List (List α) × List α :=
  match _h : firstInfix? pat s with
  | none => ([], s)
  | some n =>
    let t := splitEnds pat hpat (s.drop (n + pat.length))
    (s.take n :: t.1, t.2)
termination_by s.length
decreasing_by
  have hle := firstInfix?_add_length_le hpat _h
  have hpos := List.length_pos_iff.mpr hpat
  rw [List.length_drop]
  omega

variable {pat : List α} (hpat : pat ≠ [])

theorem splitEnds_of_none {s : List α} (h : firstInfix? pat s = none) :
    splitEnds pat hpat s = ([], s) := by
  rw [splitEnds]
  split
  · rfl
  · next n hn => cases h.symm.trans hn

theorem splitEnds_of_some {s : List α} {n : ℕ} (h : firstInfix? pat s = some n) :
    splitEnds pat hpat s = (s.take n :: (splitEnds pat hpat (s.drop (n + pat.length))).1,
      (splitEnds pat hpat (s.drop (n + pat.length))).2) := by
  rw [splitEnds]
  split
  · next hn => cases h.symm.trans hn
  · next m hm =>
    obtain rfl := Option.some.inj (h.symm.trans hm)
    rfl

/-- **A piece with its end in front of a list is its first piece**, when the pattern does not
occur earlier. -/
theorem splitEnds_append {l : List α} (h : firstInfix? pat (l ++ pat) = some l.length) (t : List α) :
    splitEnds pat hpat (l ++ (pat ++ t)) =
      (l :: (splitEnds pat hpat t).1, (splitEnds pat hpat t).2) := by
  have hfirst : firstInfix? pat (l ++ (pat ++ t)) = some l.length := by
    rw [← List.append_assoc]
    exact firstInfix?_append hpat h t
  rw [splitEnds_of_some hpat hfirst, List.take_left, ← List.drop_drop, List.drop_left, List.drop_left]

/-- **Pieces that are put together are found again.** -/
theorem splitEnds_flatMap (t : List α) : ∀ (ls : List (List α)),
    (∀ l ∈ ls, firstInfix? pat (l ++ pat) = some l.length) →
    splitEnds pat hpat (ls.flatMap (· ++ pat) ++ t) =
      (ls ++ (splitEnds pat hpat t).1, (splitEnds pat hpat t).2) := by
  intro ls
  induction ls with
  | nil => intro _; rfl
  | cons l ls ih =>
    intro hls
    have hl := hls l List.mem_cons_self
    have ih := ih fun l' hl' => hls l' (List.mem_cons_of_mem l hl')
    rw [List.flatMap_cons, List.append_assoc, List.append_assoc, splitEnds_append hpat hl, ih]
    rfl

/-- **The pieces make up the list.** -/
theorem flatMap_splitEnds (s : List α) :
    (splitEnds pat hpat s).1.flatMap (· ++ pat) ++ (splitEnds pat hpat s).2 = s := by
  induction s using splitEnds.induct pat hpat with
  | case1 s h =>
    rw [splitEnds_of_none hpat h]
    rfl
  | case2 s n h ih =>
    have hprefix := (firstInfix?_eq_some_iff.mp h).1
    rw [splitEnds_of_some hpat h, List.flatMap_cons, List.append_assoc, ih]
    obtain ⟨u, hu⟩ := hprefix
    rw [← List.drop_drop, ← hu, List.drop_left, List.append_assoc, hu, List.take_append_drop]

/-- The pattern does not occur in a piece before its end. -/
theorem firstInfix?_piece {s l : List α} (hl : l ∈ (splitEnds pat hpat s).1) :
    firstInfix? pat (l ++ pat) = some l.length := by
  induction s using splitEnds.induct pat hpat with
  | case1 s h =>
    rw [splitEnds_of_none hpat h] at hl
    cases hl
  | case2 s n h ih =>
    rw [splitEnds_of_some hpat h] at hl
    rcases List.mem_cons.mp hl with rfl | hl
    · have hle := firstInfix?_add_length_le hpat h
      have hlen : (s.take n).length = n := List.length_take_of_le (by omega)
      obtain ⟨u, hu⟩ := (firstInfix?_eq_some_iff.mp h).1
      have hs : s.take n ++ pat ++ u = s := by
        rw [List.append_assoc, hu, List.take_append_drop]
      rw [← hs] at h
      rw [hlen]
      refine firstInfix?_shrink h ?_
      rw [List.length_append, hlen]
    · exact ih hl

/-- The pattern does not occur behind the last piece. -/
theorem firstInfix?_rest (s : List α) : firstInfix? pat (splitEnds pat hpat s).2 = none := by
  induction s using splitEnds.induct pat hpat with
  | case1 s h =>
    rw [splitEnds_of_none hpat h]
    exact h
  | case2 s n h ih =>
    rw [splitEnds_of_some hpat h]
    exact ih

/-- **What the pieces of a list are.** -/
theorem splitEnds_eq_iff {s rest : List α} {ls : List (List α)} :
    splitEnds pat hpat s = (ls, rest) ↔ s = ls.flatMap (· ++ pat) ++ rest ∧
      (∀ l ∈ ls, firstInfix? pat (l ++ pat) = some l.length) ∧ firstInfix? pat rest = none := by
  constructor
  · intro h
    have hjoin := flatMap_splitEnds hpat s
    have hpiece := fun l => firstInfix?_piece (s := s) (l := l) hpat
    have hrest := firstInfix?_rest hpat s
    rw [h] at hjoin hpiece hrest
    exact ⟨hjoin.symm, hpiece, hrest⟩
  · rintro ⟨rfl, hls, hrest⟩
    rw [splitEnds_flatMap hpat rest ls hls, splitEnds_of_none hpat hrest, List.append_nil]

/-- What has not the first element of the pattern in it is passed. -/
theorem firstInfix?_append_of_not_mem {a : α} {as s : List α} : ∀ {l : List α}, a ∉ l →
    firstInfix? (a :: as) (l ++ s) = (firstInfix? (a :: as) s).map (· + l.length) := by
  intro l
  induction l with
  | nil =>
    intro _
    exact Option.map_id'.symm
  | cons b l ih =>
    intro h
    have hb : a ≠ b := fun hab => h (hab ▸ List.mem_cons_self)
    have hnot : ¬ (a :: as).isPrefixOf (b :: (l ++ s)) = true := by
      rw [List.isPrefixOf_iff_prefix]
      intro hp
      exact hb (List.cons_prefix_cons.mp hp).1
    rw [List.cons_append, firstInfix?, if_neg hnot, ih fun hl => h (List.mem_cons_of_mem b hl),
      Option.map_map]
    rfl

/-- A pattern does not occur earlier when its first element is not in the list. -/
theorem firstInfix?_of_not_mem {a : α} {as l : List α} (h : a ∉ l) :
    firstInfix? (a :: as) (l ++ a :: as) = some l.length := by
  have hself : firstInfix? (a :: as) (a :: as) = some 0 :=
    firstInfix?_eq_some_iff.mpr ⟨List.prefix_rfl, fun m hm => absurd hm (Nat.not_lt_zero m)⟩
  rw [firstInfix?_append_of_not_mem h, hself, Option.map_some, Nat.zero_add]

omit [DecidableEq α] in
/-- A pattern whose first element is not repeated starts at no place inside itself. -/
theorem not_prefix_drop_of_not_mem {a : α} {as s : List α} (has : a ∉ as) {m : ℕ} (hpos : 0 < m)
    (hm : m < (a :: as).length) : ¬ a :: as <+: ((a :: as) ++ s).drop m := by
  intro hp
  have hin : m - 1 < as.length := by
    rw [List.length_cons] at hm
    omega
  rw [List.drop_append_of_le_length hm.le, show m = m - 1 + 1 by omega, List.drop_succ_cons,
    List.drop_eq_getElem_cons hin] at hp
  obtain ⟨rfl, -⟩ := List.cons_prefix_cons.mp hp
  exact has (List.getElem_mem hin)

/-- **Where an empty piece comes first.**  Behind pieces that are not empty, the pattern occurs
twice in a row for the first time at the end of the last of them. -/
theorem firstInfix?_double {a : α} {as t : List α} (has : a ∉ as) : ∀ {ls : List (List α)},
    ls ≠ [] → (∀ l ∈ ls, l ≠ [] ∧ firstInfix? (a :: as) (l ++ a :: as) = some l.length) →
    ∃ n, firstInfix? ((a :: as) ++ (a :: as)) (ls.flatMap (· ++ a :: as) ++ ((a :: as) ++ t))
        = some n ∧ n + (a :: as).length = (ls.flatMap (· ++ a :: as)).length := by
  have hpat : a :: as ≠ [] := List.cons_ne_nil a as
  intro ls
  induction ls with
  | nil => intro h; exact absurd rfl h
  | cons l ls ih =>
    intro _ hls
    obtain ⟨-, hl⟩ := hls l List.mem_cons_self
    have hcons : (l :: ls).flatMap (· ++ a :: as) ++ ((a :: as) ++ t) =
        l ++ ((a :: as) ++ (ls.flatMap (· ++ a :: as) ++ ((a :: as) ++ t))) := by
      simp
    -- the pattern does not stand inside the first piece
    have hfirst : ∀ m < l.length, ¬ (a :: as) ++ (a :: as) <+: (l ++ ((a :: as) ++
        (ls.flatMap (· ++ a :: as) ++ ((a :: as) ++ t)))).drop m := by
      intro m hm hp
      have happend := firstInfix?_append hpat hl (ls.flatMap (· ++ a :: as) ++ ((a :: as) ++ t))
      rw [List.append_assoc] at happend
      exact (firstInfix?_eq_some_iff.mp happend).2 m hm ((List.prefix_append _ _).trans hp)
    rw [hcons]
    cases ls with
    | nil =>
      -- it stands right behind the only piece
      refine ⟨l.length, firstInfix?_eq_some_iff.mpr ⟨?_, hfirst⟩, by simp⟩
      rw [List.drop_left]
      exact ⟨t, by simp⟩
    | cons l' ls =>
      obtain ⟨n, hn, hlen⟩ := ih (List.cons_ne_nil _ _) fun k hk => hls k (List.mem_cons_of_mem l hk)
      obtain ⟨hne', hl'⟩ := hls l' (List.mem_cons_of_mem l List.mem_cons_self)
      obtain ⟨hat, hbefore⟩ := firstInfix?_eq_some_iff.mp hn
      refine ⟨l.length + (a :: as).length + n, firstInfix?_eq_some_iff.mpr ⟨?_, ?_⟩, ?_⟩
      · rw [Nat.add_assoc, ← List.drop_drop, List.drop_left, ← List.drop_drop, List.drop_left]
        exact hat
      · intro m hm hp
        by_cases hin : m < l.length
        · exact hfirst m hin hp
        obtain ⟨k, rfl⟩ := Nat.exists_eq_add_of_le (not_lt.mp hin)
        rw [← List.drop_drop, List.drop_left] at hp
        by_cases hk : k < (a :: as).length
        · by_cases hpos : 0 < k
          · exact not_prefix_drop_of_not_mem has hpos hk ((List.prefix_append _ _).trans hp)
          · -- another piece follows, so the pattern is not doubled here
            obtain rfl : k = 0 := by omega
            rw [List.drop_zero, List.prefix_append_right_inj] at hp
            have happend := firstInfix?_append hpat hl' (ls.flatMap (· ++ a :: as) ++ ((a :: as) ++ t))
            have hcons' : (l' :: ls).flatMap (· ++ a :: as) ++ ((a :: as) ++ t) =
                l' ++ (a :: as) ++ (ls.flatMap (· ++ a :: as) ++ ((a :: as) ++ t)) := by
              simp
            rw [hcons'] at hp
            exact (firstInfix?_eq_some_iff.mp happend).2 0 (List.length_pos_iff.mpr hne') hp
        · obtain ⟨j, rfl⟩ := Nat.exists_eq_add_of_le (not_lt.mp hk)
          rw [← List.drop_drop, List.drop_left] at hp
          exact hbefore j (by omega) hp
      · rw [Nat.add_assoc, hlen]
        conv_rhs => rw [List.flatMap_cons, List.length_append, List.length_append]

end List
