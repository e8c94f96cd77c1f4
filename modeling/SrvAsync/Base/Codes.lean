import Mathlib.Data.List.Basic
import Mathlib.Data.List.Forall2
import Mathlib.Tactic.Common

/-!
# Reading a stream item by item

A reader takes the next item off the front of a stream when all of it is there, and
takes nothing before; which item it looks for may depend on a key that its owner knows.
Items that can be read this way may be put one behind the other: the items are read back
in their order, and a stream that ends inside an item leaves the part of it unread.

## Main definitions

* `Reads next k e x` — with the key `k` the reader takes `x` off a stream with `e` in front.
* `readAll next ks S` — the items the reader takes, and what it leaves.
* `Unfinished` — a part of the next text.

## Main results

* `readAll_flatMap` — items that were put together are read back.
* `readAll_of_prefix` — **what is read off the beginning of a stream of items**.
-/

namespace Codes

variable {κ α β γ δ : Type*}

/-- With this key the reader takes the item `x` off every stream that begins with the text
`e`, and nothing off a part of `e`. -/
structure Reads (next : κ → List α → Option (β × List α)) (k : κ) (e : List α) (x : β) : Prop where
  whole : ∀ T, next k (e ++ T) = some (x, T)
  part : ∀ p, p <+: e → p ≠ e → next k p = none

/-- The items the reader takes with these keys, one after the other, and what is left. -/
def readAll (next : κ → List α → Option (β × List α)) : List κ → List α → List β × List α
  | [], S => ([], S)
  | k :: ks, S =>
    match next k S with
    | none => ([], S)
    | some (x, S) => (x :: (readAll next ks S).1, (readAll next ks S).2)

/-- A part of the next text that is not all of it; nothing, when there is no next text. -/
def Unfinished (text : δ → List α) (r : List α) : List δ → Prop
  | [] => r = []
  | b :: _ => r <+: text b ∧ r ≠ text b

variable {next : κ → List α → Option (β × List α)}

/-- A reader that finds no item leaves the stream. -/
theorem readAll_of_none {ks : List κ} {S : List α} (h : ∀ k ∈ ks, next k S = none) :
    readAll next ks S = ([], S) := by
  cases ks with
  | nil => rfl
  | cons k ks => simp [readAll, h k List.mem_cons_self]

theorem readAll_cons_of_some {k : κ} {x : β} {S T : List α} (ks : List κ)
    (h : next k S = some (x, T)) :
    readAll next (k :: ks) S = (x :: (readAll next ks T).1, (readAll next ks T).2) := by
  simp [readAll, h]

/-- **Items that were put one behind the other are read back**, and the reader goes on behind
them. -/
theorem readAll_flatMap {key : γ → κ} {text : δ → List α} {item : δ → β} {as : List γ}
    {bs : List δ} (h : List.Forall₂ (fun a b => Reads next (key a) (text b) (item b)) as bs)
    (ks : List κ) (T : List α) : readAll next (as.map key ++ ks) (bs.flatMap text ++ T) =
      (bs.map item ++ (readAll next ks T).1, (readAll next ks T).2) := by
  induction h with
  | nil => rfl
  | cons hab _ ih =>
    rw [List.map_cons, List.cons_append, List.flatMap_cons, List.append_assoc,
      readAll_cons_of_some _ (hab.whole _), ih]
    rfl

/-- **What is read off the beginning of a stream of items**: the items that are complete, and
the part of the next one is left.  Keys that are to come do not matter. -/
theorem readAll_of_prefix {key : γ → κ} {text : δ → List α} {item : δ → β}
    (hnil : ∀ k, next k [] = none) {as : List γ} {bs : List δ}
    (h : List.Forall₂ (fun a b => Reads next (key a) (text b) (item b)) as bs) (ks : List κ) :
    ∀ {T : List α}, T <+: bs.flatMap text →
      ∃ n r, n ≤ bs.length ∧ T = (bs.take n).flatMap text ++ r ∧ Unfinished text r (bs.drop n) ∧
        readAll next (as.map key ++ ks) T = ((bs.take n).map item, r) := by
  induction h with
  | nil =>
    intro T hT
    obtain rfl := List.prefix_nil.mp hT
    exact ⟨0, [], Nat.le_refl _, rfl, rfl, readAll_of_none fun k _ => hnil k⟩
  | @cons a b as bs hab _ ih =>
    intro T hT
    rw [List.flatMap_cons] at hT
    by_cases hb : text b <+: T
    · -- the first item is complete
      obtain ⟨T, rfl⟩ := hb
      obtain ⟨n, r, hn, rfl, hr, hread⟩ := ih ((List.prefix_append_right_inj _).mp hT)
      refine ⟨n + 1, r, Nat.succ_le_succ hn, ?_, hr, ?_⟩
      · simp
      · rw [List.map_cons, List.cons_append, readAll_cons_of_some _ (hab.whole _), hread]
        rfl
    · have hpart : T <+: text b :=
        (List.prefix_or_prefix_of_prefix hT (List.prefix_append _ _)).resolve_right hb
      have hne : T ≠ text b := by
        rintro rfl
        exact hb List.prefix_rfl
      refine ⟨0, T, Nat.zero_le _, rfl, ⟨hpart, hne⟩, ?_⟩
      simp [readAll, hab.part T hpart hne]

end Codes
