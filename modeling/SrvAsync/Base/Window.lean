import Mathlib.Data.List.Basic
import Mathlib.Data.List.GetD
import Mathlib.Tactic.Common

/-!
# Windows of a memory

A memory is a function from offsets to cells.  `window m off len` reads `len`
cells as a list, and `store m off bs` writes a list.  The lemmas are the read
over write rules a buffer proof needs: a store is read back, a store elsewhere
is not seen, and windows split and join at any offset.

## Main definitions

* `window m off len`, `store m off bs`.

## Main results

* `window_add`, `take_window`, `drop_window` — splitting a window.
* `window_store_append` — storing right behind a window extends it.
* `window_store_zero` — moving a window to the front of the memory.
-/

namespace Memory

variable {α : Type*}

/-- The `len` cells of `m` from `off` on. -/
def window (m : ℕ → α) (off len : ℕ) : List α := (List.range len).map fun i => m (off + i)

/-- The memory `m` with `bs` written from `off` on. -/
def store (m : ℕ → α) (off : ℕ) (bs : List α) : ℕ → α := fun i =>
  if off ≤ i then (bs[i - off]?).getD (m i) else m i

@[simp] theorem length_window (m : ℕ → α) (off len : ℕ) : (window m off len).length = len := by
  simp [window]

@[simp] theorem window_zero (m : ℕ → α) (off : ℕ) : window m off 0 = [] := rfl

@[simp] theorem window_eq_nil_iff {m : ℕ → α} {off len : ℕ} : window m off len = [] ↔ len = 0 := by
  rw [← List.length_eq_zero_iff, length_window]

@[simp] theorem getElem?_window (m : ℕ → α) (off len i : ℕ) :
    (window m off len)[i]? = if i < len then some (m (off + i)) else none := by
  unfold window
  rw [List.getElem?_map]
  split
  · next h => rw [List.getElem?_range h, Option.map_some]
  · next h => rw [List.getElem?_eq_none (by simpa using h), Option.map_none]

/-- Two memories that agree on a window read the same there. -/
theorem window_congr {m m' : ℕ → α} {off len : ℕ} (h : ∀ i, off ≤ i → i < off + len → m i = m' i) :
    window m off len = window m' off len := by
  unfold window
  refine List.map_congr_left fun i hi => ?_
  rw [List.mem_range] at hi
  exact h (off + i) (by omega) (by omega)

/-- A window splits at any of its offsets. -/
theorem window_add (m : ℕ → α) (off a b : ℕ) :
    window m off (a + b) = window m off a ++ window m (off + a) b := by
  unfold window
  rw [List.range_add, List.map_append, List.map_map]
  congr 1
  refine List.map_congr_left fun i _ => ?_
  simp [Nat.add_assoc]

theorem take_window (m : ℕ → α) (off : ℕ) {a len : ℕ} (h : a ≤ len) :
    (window m off len).take a = window m off a := by
  obtain ⟨b, rfl⟩ := Nat.exists_eq_add_of_le h
  rw [window_add, List.take_left' (length_window m off a)]

theorem drop_window (m : ℕ → α) (off : ℕ) {a len : ℕ} (h : a ≤ len) :
    (window m off len).drop a = window m (off + a) (len - a) := by
  obtain ⟨b, rfl⟩ := Nat.exists_eq_add_of_le h
  rw [window_add, List.drop_left' (length_window m off a), Nat.add_sub_cancel_left]

theorem store_of_lt {m : ℕ → α} {off i : ℕ} (bs : List α) (h : i < off) : store m off bs i = m i :=
  if_neg (by omega)

theorem store_of_ge {m : ℕ → α} {off i : ℕ} {bs : List α} (h : off + bs.length ≤ i) :
    store m off bs i = m i := by
  unfold store
  rw [if_pos (by omega), List.getElem?_eq_none (by omega), Option.getD_none]

/-- What a store wrote can be read, whatever the memory was. -/
theorem store_of_mem {m m' : ℕ → α} {off i : ℕ} {bs : List α} (h1 : off ≤ i)
    (h2 : i < off + bs.length) : store m off bs i = store m' off bs i := by
  unfold store
  rw [if_pos h1, if_pos h1, List.getElem?_eq_getElem (by omega), Option.getD_some, Option.getD_some]

@[simp] theorem store_nil (m : ℕ → α) (off : ℕ) : store m off [] = m := by
  funext i
  simp [store]

/-- A store is not seen before its offset. -/
theorem window_store_before {m : ℕ → α} {off off' len : ℕ} (bs : List α) (h : off' + len ≤ off) :
    window (store m off bs) off' len = window m off' len :=
  window_congr fun _ _ hi => store_of_lt bs (by omega)

/-- A store is read back. -/
theorem window_store_self (m : ℕ → α) (off : ℕ) (bs : List α) :
    window (store m off bs) off bs.length = bs := by
  refine List.ext_getElem? fun i => ?_
  rw [getElem?_window]
  split
  · next h =>
    unfold store
    rw [if_pos (by omega), Nat.add_sub_cancel_left, List.getElem?_eq_getElem h, Option.getD_some]
  · next h => rw [List.getElem?_eq_none (by omega)]

/-- **Storing right behind a window extends it.** -/
theorem window_store_append (m : ℕ → α) (off n : ℕ) (bs : List α) :
    window (store m (off + n) bs) off (n + bs.length) = window m off n ++ bs := by
  rw [window_add, window_store_before bs (Nat.le_refl _), window_store_self]

/-- The same for the window at the beginning. -/
theorem window_store_chunk (m : ℕ → α) (n : ℕ) (bs : List α) :
    window (store m n bs) 0 (n + bs.length) = window m 0 n ++ bs := by
  have h := window_store_append m 0 n bs
  rwa [Nat.zero_add] at h

/-- Two writes behind each other are one. -/
theorem store_store (m : ℕ → α) (off : ℕ) (bs cs : List α) :
    store (store m off bs) (off + bs.length) cs = store m off (bs ++ cs) := by
  funext i
  unfold store
  by_cases h1 : off ≤ i
  · rw [if_pos h1, if_pos h1]
    by_cases h2 : off + bs.length ≤ i
    · have hsub : i - (off + bs.length) = i - off - bs.length := by omega
      have hout : bs[i - off]? = none := List.getElem?_eq_none (by omega)
      rw [if_pos h2, hsub, hout, List.getElem?_append_right (by omega), Option.getD_none]
    · rw [if_neg h2, List.getElem?_append_left (by omega)]
  · rw [if_neg h1, if_neg h1, if_neg (by omega)]

/-- The same for a write at the beginning. -/
theorem store_store_zero (m : ℕ → α) (bs cs : List α) :
    store (store m 0 bs) bs.length cs = store m 0 (bs ++ cs) := by
  have h := store_store m 0 bs cs
  rwa [Nat.zero_add] at h

/-- **Moving a window to the front of the memory.** -/
theorem window_store_zero (m : ℕ → α) (off len : ℕ) :
    window (store m 0 (window m off len)) 0 len = window m off len := by
  have h := window_store_self m 0 (window m off len)
  rwa [length_window] at h

end Memory
