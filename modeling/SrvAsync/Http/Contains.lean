import SrvAsync.Http.KeepAlive

/-!
# The loops of `contains_ci`

The two loops as they stand in the source, with everything checked that C++ leaves unchecked:
`none` says that an index was outside its string, or that a difference of two sizes was below zero
and wrapped around.

## Main definitions

* `sizeSub` — a difference of two `size_t`.
* `matchLoop`, `alignLoop`, `containsCiLoops` — the inner loop, the outer loop, the function.

## Main results

* `matchLoop_eq`, `alignLoop_eq` — what the loops return.
* `contains_ci_search` — **`contains_ci` is the search of a text in lower case**, and every index
  is inside its string.
-/

namespace SrvAsync
namespace Http

variable {haystack needle : Bytes}

/-- A difference of two `size_t`; `none` says that it wrapped around. -/
def sizeSub (a b : ℕ) : Option ℕ := if b ≤ a then some (a - b) else none

/-- The inner loop of `contains_ci`: the value of `j` when it stops. -/
def matchLoop (haystack needle : Bytes) (i j : ℕ) : Option ℕ :=
  if _h : j < needle.length then
    match haystack[i + j]?, needle[j]? with
    | some a, some b => if tolower a = tolower b then matchLoop haystack needle i (j + 1) else some j
    | _, _ => none
  else some j
termination_by needle.length - j

/-- The outer loop of `contains_ci`, with the bound of its test. -/
def alignLoop (haystack needle : Bytes) (last i : ℕ) : Option Bool :=
  if _h : i ≤ last then
    match matchLoop haystack needle i 0 with
    | none => none
    | some j => if j = needle.length then some true else alignLoop haystack needle last (i + 1)
  else some false
termination_by last + 1 - i

/-- `contains_ci`, with its indices. -/
def containsCiLoops (haystack needle : Bytes) : Option Bool :=
  if needle = [] ∨ haystack.length < needle.length then some false
  else (sizeSub haystack.length needle.length).bind fun last => alignLoop haystack needle last 0

/-- **The inner loop** stays inside both strings where the needle fits.  The induction is on the
bytes of the needle that are still to be compared. -/
theorem matchLoop_eq {i : ℕ} (hi : i + needle.length ≤ haystack.length) :
    ∀ (fuel j : ℕ), j + fuel = needle.length →
      matchLoop haystack needle i j = some (ciMatch haystack needle i fuel j) := by
  intro fuel
  induction fuel with
  | zero =>
    intro j hj
    unfold matchLoop
    rw [dif_neg (by omega)]
    rfl
  | succ fuel ih =>
    intro j hj
    have hn : j < needle.length := by omega
    have hh : i + j < haystack.length := by omega
    unfold matchLoop ciMatch
    rw [dif_pos hn, List.getElem?_eq_getElem hh, List.getElem?_eq_getElem hn,
      List.getD_eq_getElem _ _ hh, List.getD_eq_getElem _ _ hn]
    simp only [hn, true_and]
    split
    · exact ih (j + 1) (by omega)
    · rfl

/-- **The outer loop** finds the first alignment at which the whole needle is matched.  The
induction is on the alignments that are still to be tried. -/
theorem alignLoop_eq {last : ℕ} (hlast : last + needle.length = haystack.length) :
    ∀ (rounds i : ℕ), i + rounds = last + 1 →
      alignLoop haystack needle last i = some ((List.range' i rounds).any fun k =>
        ciMatch haystack needle k needle.length 0 == needle.length) := by
  intro rounds
  induction rounds with
  | zero =>
    intro i hi
    unfold alignLoop
    rw [dif_neg (by omega)]
    rfl
  | succ rounds ih =>
    intro i hi
    unfold alignLoop
    rw [dif_pos (by omega), matchLoop_eq (by omega) needle.length 0 (Nat.zero_add _),
      List.range'_succ, List.any_cons]
    by_cases hmatch : ciMatch haystack needle i needle.length 0 = needle.length
    · simp [hmatch]
    · simp [hmatch, ih (i + 1) (by omega)]

/-- The loops compute what the model of the keep-alive decision uses. -/
theorem containsCiLoops_eq (haystack needle : Bytes) :
    containsCiLoops haystack needle = some (containsCi haystack needle) := by
  unfold containsCiLoops containsCi
  by_cases h : needle = [] ∨ haystack.length < needle.length
  · have hguard : (needle.isEmpty || decide (haystack.length < needle.length)) = true := by
      simpa using h
    rw [if_pos h, if_pos hguard]
  · have hguard : ¬ (needle.isEmpty || decide (haystack.length < needle.length)) = true := by
      simpa using h
    have hle : needle.length ≤ haystack.length := by omega
    have hsub : sizeSub haystack.length needle.length = some (haystack.length - needle.length) :=
      if_pos hle
    rw [if_neg h, if_neg hguard, hsub, Option.bind_some,
      alignLoop_eq (by omega) (haystack.length - needle.length + 1) 0 (by omega), List.range_eq_range']

/-- **`contains_ci` is the search of a text in lower case**: it returns, with every index inside
its string and no wrap-around, and it returns true exactly when the needle is not empty and occurs
in the haystack. -/
theorem contains_ci_search (haystack needle : Bytes) :
    ∃ found, containsCiLoops haystack needle = some found ∧
      (found = true ↔ needle ≠ [] ∧ toLower needle <:+: toLower haystack) :=
  ⟨_, containsCiLoops_eq haystack needle, containsCi_iff⟩

/-- A partial match that overlaps the match, and a needle that fills the haystack. -/
example : containsCiLoops (ascii "aAaB") (ascii "AAB") = some true ∧
    containsCiLoops (ascii "clOSe") (ascii "close") = some true ∧
    containsCiLoops (ascii "clos") (ascii "close") = some false := by
  simp only [containsCiLoops_eq]
  decide

end Http
end SrvAsync
