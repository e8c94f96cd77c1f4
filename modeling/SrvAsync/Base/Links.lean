import Mathlib.Data.List.Nodup
import Mathlib.Tactic.Common

/-!
# Circular doubly linked lists

A heap of nodes with two links each, and the sequences that such nodes represent: a head,
which belongs to no element, the elements behind one another, and the head again.  Going
backward is going forward in the mirror image of the heap, so every fact about the
predecessors is the mirror image of one about the successors.

## Main definitions

* `Link`, `Links` — a node, and a heap of nodes.
* `Links.setNext`, `Links.setPrev` — a store to a link, through a pointer that may be null.
* `Links.mirror` — the heap with the two links exchanged.
* `Links.Within h h' S` — only nodes of `S` are different.
* `Links.Ring h head xs` — the head and its list represent the sequence.
* `Links.walk`, `Links.TwoWay` — a traversal, and the list from both sides.

## Main results

* `Ring.congr` — a list that is not touched.
* `Ring.insertFront`, `Ring.remove` — what the links of a longer and of a shorter list are.
* `Ring.next_eq_some_iff` — the two directions are inverse to each other.
* `Ring.walk_next` — **a traversal meets the elements in their order**.
-/

/-- The links of a node; `none` is the null pointer. -/
structure Link (α : Type*) where
  prev : Option α
  next : Option α
  deriving DecidableEq

/-- The link with its two directions exchanged. -/
def Link.mirror {α : Type*} (l : Link α) : Link α := ⟨l.next, l.prev⟩

/-- A heap of nodes.  Where it has none there is no node, or none any more. -/
@[ext] structure Links (α : Type*) where
  node : α → Option (Link α)

namespace Links

variable {α : Type*}

/-- The successor of a node. -/
def next (h : Links α) (a : α) : Option α := (h.node a).bind Link.next

/-- The predecessor of a node. -/
def prev (h : Links α) (a : α) : Option α := (h.node a).bind Link.prev

/-- What a pointer points to; `none` when it is null, or points to no node. -/
def load (h : Links α) (p : Option α) : Option (Link α) := p.bind h.node

/-- The heap with the two links of every node exchanged. -/
def mirror (h : Links α) : Links α := ⟨fun a => (h.node a).map Link.mirror⟩

theorem node_mirror (h : Links α) (a : α) : h.mirror.node a = (h.node a).map Link.mirror := rfl

@[simp] theorem next_mirror (h : Links α) : h.mirror.next = h.prev := by
  funext a
  unfold next prev
  rw [node_mirror]
  cases h.node a <;> rfl

@[simp] theorem prev_mirror (h : Links α) : h.mirror.prev = h.next := by
  funext a
  unfold next prev
  rw [node_mirror]
  cases h.node a <;> rfl

@[simp] theorem isSome_node_mirror (h : Links α) (a : α) :
    (h.mirror.node a).isSome = (h.node a).isSome := Option.isSome_map

@[simp] theorem mirror_mirror (h : Links α) : h.mirror.mirror = h := by
  ext1
  funext a
  rw [node_mirror, node_mirror]
  cases h.node a <;> rfl

/-- A node with a successor is there. -/
theorem isSome_node_of_next {h : Links α} {a b : α} (hb : h.next a = some b) :
    (h.node a).isSome = true := by
  obtain ⟨l, hl, -⟩ := Option.bind_eq_some_iff.mp hb
  rw [hl]
  rfl

/-! ### Stores -/

section

variable [DecidableEq α]

/-- The successor of a node is set. -/
def putNext (h : Links α) (a : α) (v : Option α) : Links α :=
  ⟨Function.update h.node a ((h.node a).map fun l => { l with next := v })⟩

/-- The predecessor of a node is set. -/
def putPrev (h : Links α) (a : α) (v : Option α) : Links α :=
  ⟨Function.update h.node a ((h.node a).map fun l => { l with prev := v })⟩

/-- A store to `p->next`; `none` when `p` is null, or points to no node. -/
def setNext (h : Links α) (p v : Option α) : Option (Links α) :=
  p.bind fun a => if (h.node a).isSome then some (h.putNext a v) else none

/-- A store to `p->prev`; `none` when `p` is null, or points to no node. -/
def setPrev (h : Links α) (p v : Option α) : Option (Links α) :=
  p.bind fun a => if (h.node a).isSome then some (h.putPrev a v) else none

variable {h : Links α} {a b : α} {v : Option α}

theorem setNext_eq (ha : (h.node a).isSome = true) : h.setNext (some a) v = some (h.putNext a v) :=
  if_pos ha

theorem setPrev_eq (ha : (h.node a).isSome = true) : h.setPrev (some a) v = some (h.putPrev a v) :=
  if_pos ha

theorem node_putNext_self :
    (h.putNext a v).node a = (h.node a).map fun l => { l with next := v } := Function.update_self _ _ _

theorem node_putPrev_self :
    (h.putPrev a v).node a = (h.node a).map fun l => { l with prev := v } := Function.update_self _ _ _

theorem node_putNext (hb : b ≠ a) : (h.putNext a v).node b = h.node b := Function.update_of_ne hb _ _

theorem node_putPrev (hb : b ≠ a) : (h.putPrev a v).node b = h.node b := Function.update_of_ne hb _ _

@[simp] theorem isSome_node_putNext : ((h.putNext a v).node b).isSome = (h.node b).isSome := by
  by_cases hb : b = a
  · rw [hb, node_putNext_self, Option.isSome_map]
  · rw [node_putNext hb]

@[simp] theorem isSome_node_putPrev : ((h.putPrev a v).node b).isSome = (h.node b).isSome := by
  by_cases hb : b = a
  · rw [hb, node_putPrev_self, Option.isSome_map]
  · rw [node_putPrev hb]

@[simp] theorem prev_putNext : (h.putNext a v).prev b = h.prev b := by
  unfold prev
  by_cases hb : b = a
  · rw [hb, node_putNext_self]
    cases h.node a <;> rfl
  · rw [node_putNext hb]

@[simp] theorem next_putPrev : (h.putPrev a v).next b = h.next b := by
  unfold next
  by_cases hb : b = a
  · rw [hb, node_putPrev_self]
    cases h.node a <;> rfl
  · rw [node_putPrev hb]

theorem next_putNext (ha : (h.node a).isSome = true) :
    (h.putNext a v).next b = if b = a then v else h.next b := by
  obtain ⟨l, hl⟩ := Option.isSome_iff_exists.mp ha
  unfold next
  by_cases hb : b = a
  · rw [hb, node_putNext_self, hl, if_pos rfl]
    rfl
  · rw [node_putNext hb, if_neg hb]

theorem prev_putPrev (ha : (h.node a).isSome = true) :
    (h.putPrev a v).prev b = if b = a then v else h.prev b := by
  obtain ⟨l, hl⟩ := Option.isSome_iff_exists.mp ha
  unfold prev
  by_cases hb : b = a
  · rw [hb, node_putPrev_self, hl, if_pos rfl]
    rfl
  · rw [node_putPrev hb, if_neg hb]

/-- A store is the mirror image of the store to the other link. -/
theorem mirror_putNext : (h.putNext a v).mirror = h.mirror.putPrev a v := by
  ext1
  funext b
  rw [node_mirror]
  by_cases hb : b = a
  · rw [hb, node_putNext_self, node_putPrev_self, node_mirror]
    cases h.node a <;> rfl
  · rw [node_putNext hb, node_putPrev hb, node_mirror]

theorem mirror_setNext {p : Option α} :
    (h.setNext p v).map mirror = h.mirror.setPrev p v := by
  cases p with
  | none => rfl
  | some a =>
    unfold setNext setPrev
    simp only [Option.bind_some, isSome_node_mirror]
    split
    · exact congrArg some mirror_putNext
    · rfl

theorem mirror_setPrev {p : Option α} :
    (h.setPrev p v).map mirror = h.mirror.setNext p v := by
  have hm := mirror_setNext (h := h.mirror) (p := p) (v := v)
  rw [mirror_mirror] at hm
  rw [← hm, Option.map_map]
  simp [Function.comp_def]

end

/-! ### Allocation -/

section

variable [DecidableEq α]

/-- A node is allocated; its links are whatever the memory held. -/
def alloc (h : Links α) (a : α) (l : Link α) : Option (Links α) :=
  if (h.node a).isSome then none else some ⟨Function.update h.node a (some l)⟩

/-- A node is freed. -/
def free (h : Links α) (a : α) : Option (Links α) :=
  if (h.node a).isSome then some ⟨Function.update h.node a none⟩ else none

theorem alloc_eq {h : Links α} {a : α} (l : Link α) (ha : h.node a = none) :
    h.alloc a l = some ⟨Function.update h.node a (some l)⟩ := by
  unfold alloc
  rw [ha]
  rfl

theorem free_eq {h : Links α} {a : α} (ha : (h.node a).isSome = true) :
    h.free a = some ⟨Function.update h.node a none⟩ := if_pos ha

end

/-! ### What is touched -/

/-- **Only the links of these nodes are different**, and the heap has the same nodes. -/
structure Within (h h' : Links α) (S : List α) : Prop where
  node : ∀ a ∉ S, h'.node a = h.node a
  isSome : ∀ a, (h'.node a).isSome = (h.node a).isSome

section

variable {h h' h'' : Links α} {S T : List α}

theorem Within.trans (hw : h.Within h' S) (hw' : h'.Within h'' S) : h.Within h'' S :=
  ⟨fun a ha => (hw'.node a ha).trans (hw.node a ha), fun a => (hw'.isSome a).trans (hw.isSome a)⟩

theorem Within.mono (hw : h.Within h' S) (hST : ∀ a ∈ S, a ∈ T) : h.Within h' T :=
  ⟨fun a ha => hw.node a fun hS => ha (hST a hS), hw.isSome⟩

theorem Within.mirror (hw : h.Within h' S) : h.mirror.Within h'.mirror S where
  node := fun a ha => by rw [node_mirror, node_mirror, hw.node a ha]
  isSome := fun a => by rw [isSome_node_mirror, isSome_node_mirror, hw.isSome a]

theorem within_putNext [DecidableEq α] (h : Links α) {a : α} (v : Option α) (ha : a ∈ S) :
    h.Within (h.putNext a v) S :=
  ⟨fun _ hb => node_putNext fun hba => hb (hba ▸ ha), fun _ => isSome_node_putNext⟩

theorem within_putPrev [DecidableEq α] (h : Links α) {a : α} (v : Option α) (ha : a ∈ S) :
    h.Within (h.putPrev a v) S :=
  ⟨fun _ hb => node_putPrev fun hba => hb (hba ▸ ha), fun _ => isSome_node_putPrev⟩

end

/-! ### Rings -/

/-- **The head and its list represent the sequence**: the successors of the head and the elements
are the elements and the head, and their predecessors are the head and the elements. -/
structure Ring (h : Links α) (head : α) (xs : List α) : Prop where
  nodup : (head :: xs).Nodup
  next : (head :: xs).map h.next = (xs ++ [head]).map some
  prev : (xs ++ [head]).map h.prev = (head :: xs).map some

variable {h h' : Links α} {head x : α} {xs A B : List α}

/-- Backward, the sequence is reversed. -/
theorem Ring.mirror (hr : h.Ring head xs) : h.mirror.Ring head xs.reverse where
  nodup := by
    rw [List.nodup_cons, List.mem_reverse, List.nodup_reverse]
    exact List.nodup_cons.mp hr.nodup
  next := by
    have hrev := congrArg List.reverse hr.prev
    simpa using hrev
  prev := by
    have hrev := congrArg List.reverse hr.next
    simpa using hrev

/-- **A list that is not touched.** -/
theorem Ring.congr (hr : h.Ring head xs) (hsame : ∀ a ∈ head :: xs, h'.node a = h.node a) :
    h'.Ring head xs where
  nodup := hr.nodup
  next := by
    rw [← hr.next]
    refine List.map_congr_left fun a ha => ?_
    unfold Links.next
    rw [hsame a ha]
  prev := by
    rw [← hr.prev]
    refine List.map_congr_left fun a ha => ?_
    have ha' : a ∈ head :: xs := by
      simpa [or_comm] using ha
    unfold Links.prev
    rw [hsame a ha']

/-- A list on other nodes is not touched. -/
theorem Ring.within {S : List α} (hr : h.Ring head xs) (hw : h.Within h' S)
    (hdisj : (head :: xs).Disjoint S) : h'.Ring head xs :=
  hr.congr fun a ha => hw.node a (hdisj ha)

/-- Every node of a list is there. -/
theorem Ring.isSome_node (hr : h.Ring head xs) {a : α} (ha : a ∈ head :: xs) :
    (h.node a).isSome = true := by
  have hmem : h.next a ∈ (xs ++ [head]).map some := hr.next ▸ List.mem_map_of_mem ha
  obtain ⟨b, -, hb⟩ := List.mem_map.mp hmem
  exact isSome_node_of_next hb.symm

/-- The successor of the head, and what is behind it. -/
theorem Ring.exists_first (hr : h.Ring head xs) :
    ∃ n J, xs ++ [head] = n :: J ∧ h.next head = some n := by
  have hnext := hr.next
  cases xs with
  | nil => exact ⟨head, [], rfl, (List.cons.inj hnext).1⟩
  | cons y ys => exact ⟨y, ys ++ [head], rfl, (List.cons.inj hnext).1⟩

/-- **An element is added at the front.** -/
theorem Ring.insertFront [DecidableEq α] (hr : h.Ring head xs) (hx : x ∉ head :: xs) (hhead : h'.next head = some x)
    (hnx : h'.next x = h.next head) (hpx : h'.prev x = some head)
    (hnext : ∀ a ∈ xs, h'.next a = h.next a)
    (hprev : ∀ a ∈ head :: xs, h'.prev a = if h.next head = some a then some x else h.prev a) :
    h'.Ring head (x :: xs) := by
  obtain ⟨n, J, hJ, hn⟩ := hr.exists_first
  have hxs := hr.next
  rw [List.map_cons] at hxs
  have hps := hr.prev
  rw [hJ, List.map_cons, List.map_cons] at hps
  obtain ⟨-, hJprev⟩ := List.cons.inj hps
  have hmem : ∀ {a}, a ∈ n :: J → a ∈ head :: xs := by
    intro a ha
    rw [← hJ] at ha
    simpa [or_comm] using ha
  have hnot : n ∉ J := by
    have hnodup : (xs ++ [head]).Nodup := by
      rw [List.nodup_append_comm]
      exact hr.nodup
    rw [hJ] at hnodup
    exact (List.nodup_cons.mp hnodup).1
  constructor
  · have hxne : head ≠ x := fun h => hx (h ▸ List.mem_cons_self)
    have hxs' : x ∉ xs := fun h => hx (List.mem_cons_of_mem head h)
    obtain ⟨hh, hnd⟩ := List.nodup_cons.mp hr.nodup
    simp only [List.nodup_cons, List.mem_cons, not_or]
    exact ⟨⟨hxne, hh⟩, hxs', hnd⟩
  · rw [List.map_cons, List.map_cons, hhead, hnx, List.map_congr_left hnext, hxs]
    rfl
  · -- only the predecessor of the old first element changes
    have hJ' : J.map h'.prev = J.map h.prev := by
      refine List.map_congr_left fun a ha => ?_
      rw [hprev a (hmem (List.mem_cons_of_mem n ha)), hn, if_neg]
      rintro heq
      obtain rfl := Option.some.inj heq
      exact hnot ha
    rw [List.cons_append, hJ, List.map_cons, List.map_cons, hpx, hprev n (hmem List.mem_cons_self),
      if_pos hn, hJ', hJprev]
    rfl

/-- The successors when an element is removed. -/
theorem map_next_remove {f g : α → Option α} {I : List α} {p : α}
    (hf : (head :: (A ++ x :: B)).map f = (A ++ x :: B ++ [head]).map some)
    (hnodup : (head :: (A ++ x :: B)).Nodup) (hI : head :: A = I ++ [p]) (hp : g p = f x)
    (hg : ∀ a ∈ head :: (A ++ B), a ≠ p → g a = f a) :
    (head :: (A ++ B)).map g = (A ++ B ++ [head]).map some := by
  have hlen : I.length = A.length := by
    have := congrArg List.length hI
    simpa using this.symm
  -- up to `p` the ring is the same with and without the element
  have hS : ∀ {C : List α}, head :: (A ++ C) = I ++ p :: C := by
    intro C
    rw [← List.cons_append, hI, List.append_assoc]
    rfl
  rw [hS, List.map_append, List.map_cons, List.map_cons, List.append_assoc, List.map_append] at hf
  obtain ⟨hfI, hfx⟩ := List.append_inj hf (by simpa using hlen)
  have hfB : f x :: B.map f = (B ++ [head]).map some := (List.cons.inj hfx).2
  rw [hS] at hnodup
  obtain ⟨hI', hpB, hdisj⟩ := List.nodup_append.mp hnodup
  have hIp : ∀ a ∈ I, a ≠ p := fun a ha => hdisj a ha p List.mem_cons_self
  have hBp : ∀ a ∈ B, a ≠ p := by
    rintro a ha rfl
    exact (List.nodup_cons.mp hpB).1 (List.mem_cons_of_mem x ha)
  have hmem : ∀ {a}, a ∈ I ∨ a ∈ B → a ∈ head :: (A ++ B) := by
    intro a ha
    rw [hS]
    rcases ha with ha | ha
    · exact List.mem_append_left _ ha
    · exact List.mem_append_right I (List.mem_cons_of_mem p ha)
  rw [hS, List.map_append, List.map_cons, hp,
    List.map_congr_left fun a ha => hg a (hmem (.inl ha)) (hIp a ha),
    List.map_congr_left fun a ha => hg a (hmem (.inr ha)) (hBp a ha), hfI, List.append_assoc,
    List.map_append, ← hfB]

/-- The neighbours of an element. -/
theorem Ring.exists_neighbours (hr : h.Ring head (A ++ x :: B)) :
    ∃ I p n J, head :: A = I ++ [p] ∧ B ++ [head] = n :: J ∧ h.prev x = some p ∧
      h.next x = some n := by
  obtain ⟨I, p, hI⟩ : ∃ I p, head :: A = I ++ [p] :=
    (List.eq_nil_or_concat' (head :: A)).resolve_left (List.cons_ne_nil _ _)
  obtain ⟨n, J, hJ⟩ := List.exists_cons_of_ne_nil
    (List.append_ne_nil_of_right_ne_nil B (List.cons_ne_nil head []))
  have hlen : A.length = I.length := by
    have := congrArg List.length hI
    simpa using this
  have hS : head :: (A ++ x :: B) = I ++ ([p] ++ x :: B) := by
    rw [← List.cons_append, hI, List.append_assoc]
  have hprev := hr.prev
  rw [hS] at hprev
  simp only [List.append_assoc, List.map_append] at hprev
  obtain ⟨-, hpx⟩ := List.append_inj hprev (by simpa using hlen)
  have hnext := hr.next
  rw [hS] at hnext
  simp only [List.append_assoc, List.map_append] at hnext
  obtain ⟨-, hnx⟩ := List.append_inj hnext (by simpa using hlen.symm)
  have hnx' : h.next x :: B.map h.next = B.map some ++ [head].map some := (List.cons.inj hnx).2
  rw [← List.map_append, hJ, List.map_cons] at hnx'
  exact ⟨I, p, n, J, hI, hJ, (List.cons.inj hpx).1, (List.cons.inj hnx').1⟩

/-- **An element is removed.** -/
theorem Ring.remove [DecidableEq α] (hr : h.Ring head (A ++ x :: B))
    (hnext : ∀ a ∈ head :: (A ++ B),
      h'.next a = if h.prev x = some a then h.next x else h.next a)
    (hprev : ∀ a ∈ head :: (A ++ B),
      h'.prev a = if h.next x = some a then h.prev x else h.prev a) :
    h'.Ring head (A ++ B) := by
  obtain ⟨I, p, n, J, hI, hJ, hp, hn⟩ := hr.exists_neighbours
  have hpmem : p ∈ head :: (A ++ B) := by
    rw [← List.cons_append, hI]
    exact List.mem_append_left B (List.mem_append_right I List.mem_cons_self)
  have hnmem : n ∈ head :: (A ++ B) := by
    have hin : n ∈ B ++ [head] := hJ ▸ List.mem_cons_self
    rcases List.mem_append.mp hin with hin | hin
    · exact List.mem_cons_of_mem head (List.mem_append_right A hin)
    · exact List.mem_cons.mpr (.inl (List.mem_singleton.mp hin))
  constructor
  · exact hr.nodup.sublist (List.cons_sublist_cons.mpr
      (List.append_sublist_append_left A |>.mpr (List.sublist_cons_self x B)))
  · refine map_next_remove hr.next hr.nodup hI ?_ fun a ha hne => ?_
    · rw [hnext p hpmem, if_pos hp]
    · rw [hnext a ha, hp, if_neg fun heq => hne (Option.some.inj heq).symm]
  · -- the mirror image
    have hm := hr.mirror
    have hrev : (A ++ x :: B).reverse = B.reverse ++ x :: A.reverse := by simp
    rw [hrev] at hm
    have hI' : head :: B.reverse = J.reverse ++ [n] := by
      have := congrArg List.reverse hJ
      simpa using this
    have hgoal := map_next_remove (g := h'.prev) hm.next hm.nodup hI' ?_ fun a ha hne => ?_
    · have hback := congrArg List.reverse hgoal
      simpa using hback
    · rw [hprev n hnmem, if_pos hn, next_mirror]
    · have ha' : a ∈ head :: (A ++ B) := by
        simpa [or_comm, or_left_comm] using ha
      rw [hprev a ha', hn, if_neg fun heq => hne (Option.some.inj heq).symm, next_mirror]

/-! ### Directions and traversals -/

/-- The successor of an element, and its predecessor. -/
theorem Ring.prev_of_next (hr : h.Ring head xs) {a b : α} (ha : a ∈ head :: xs)
    (hab : h.next a = some b) : h.prev b = some a := by
  -- the successor of the `i`-th node is the `i`-th of the ring that starts one later
  obtain ⟨i, hi, rfl⟩ := List.getElem_of_mem ha
  have hi' : i < (xs ++ [head]).length := by
    rw [List.length_append]
    simpa using hi
  have hn : h.next (head :: xs)[i] = some (xs ++ [head])[i] := by
    have hget : ((head :: xs).map h.next)[i]? = ((xs ++ [head]).map some)[i]? := by rw [hr.next]
    rw [List.getElem?_map, List.getElem?_map, List.getElem?_eq_getElem hi,
      List.getElem?_eq_getElem hi'] at hget
    exact Option.some.inj hget
  have hp : h.prev (xs ++ [head])[i] = some (head :: xs)[i] := by
    have hget : ((xs ++ [head]).map h.prev)[i]? = ((head :: xs).map some)[i]? := by rw [hr.prev]
    rw [List.getElem?_map, List.getElem?_map, List.getElem?_eq_getElem hi,
      List.getElem?_eq_getElem hi'] at hget
    exact Option.some.inj hget
  rw [Option.some.inj (hab.symm.trans hn)]
  exact hp

/-- **The two directions are inverse to each other.** -/
theorem Ring.next_eq_some_iff (hr : h.Ring head xs) {a b : α} (ha : a ∈ head :: xs)
    (hb : b ∈ head :: xs) : h.next a = some b ↔ h.prev b = some a := by
  refine ⟨hr.prev_of_next ha, fun hba => ?_⟩
  have hmem : b ∈ head :: xs.reverse := by
    simpa using hb
  have hm := hr.mirror.prev_of_next (a := b) (b := a) hmem (by rw [next_mirror, hba])
  rwa [prev_mirror] at hm

/-- The elements from a node up to the head, along one of the links.  The number bounds the
rounds. -/
def walk [DecidableEq α] (f : α → Option α) (head : α) : ℕ → α → Option (List α)
  | 0, _ => none
  | fuel + 1, a =>
    if a = head then some [] else (f a).bind fun b => (walk f head fuel b).map (a :: ·)

/-- **A traversal meets the elements in their order.** -/
theorem Ring.walk_next [DecidableEq α] (hr : h.Ring head xs) {fuel : ℕ} (hf : xs.length < fuel) :
    ((h.next head).bind fun a => walk h.next head fuel a) = some xs := by
  -- from every node on, the rest of the elements
  have hrest : ∀ (B A : List α) (fuel : ℕ) (n : α) (J : List α), xs = A ++ B → B ++ [head] = n :: J →
      B.length < fuel → walk h.next head fuel n = some B := by
    intro B
    induction B with
    | nil =>
      intro A fuel n J _ hn hlt
      obtain ⟨rfl, -⟩ := List.cons.inj hn
      obtain ⟨fuel, rfl⟩ := Nat.exists_eq_succ_of_ne_zero (Nat.ne_of_gt hlt)
      exact if_pos rfl
    | cons b B ih =>
      intro A fuel n J hxs hn hlt
      obtain ⟨rfl, -⟩ := List.cons.inj hn
      obtain ⟨fuel, rfl⟩ := Nat.exists_eq_succ_of_ne_zero (Nat.ne_of_gt (Nat.zero_lt_of_lt hlt))
      subst hxs
      have hb : b ≠ head := by
        rintro rfl
        exact (List.nodup_cons.mp hr.nodup).1 (List.mem_append_right A List.mem_cons_self)
      obtain ⟨I, p, n', J', -, hJ', -, hnext⟩ := hr.exists_neighbours
      have hih := ih (A ++ [b]) fuel n' J' (by simp) hJ' (by simpa using hlt)
      unfold walk
      rw [if_neg hb, hnext, Option.bind_some, hih]
      rfl
  obtain ⟨n, J, hJ, hn⟩ := hr.exists_first
  rw [hn, Option.bind_some]
  exact hrest xs [] fuel n J rfl hJ hf

/-- Backward, it meets them in the reversed order. -/
theorem Ring.walk_prev [DecidableEq α] (hr : h.Ring head xs) {fuel : ℕ} (hf : xs.length < fuel) :
    ((h.prev head).bind fun a => walk h.prev head fuel a) = some xs.reverse := by
  have hlt : xs.reverse.length < fuel := by rw [List.length_reverse]; exact hf
  have hm := hr.mirror.walk_next hlt
  rwa [next_mirror] at hm

/-- **The list from both sides**: the two links are inverse to each other, and each of the two
traversals meets what the other one meets, in the reversed order. -/
structure TwoWay [DecidableEq α] (h : Links α) (head : α) (xs : List α) : Prop where
  inverse : ∀ a ∈ head :: xs, ∀ b ∈ head :: xs, h.next a = some b ↔ h.prev b = some a
  forward : ∀ fuel, xs.length < fuel →
    ((h.next head).bind fun a => walk h.next head fuel a) = some xs
  backward : ∀ fuel, xs.length < fuel →
    ((h.prev head).bind fun a => walk h.prev head fuel a) = some xs.reverse

/-- A list that represents a sequence can be seen from both sides. -/
theorem Ring.twoWay [DecidableEq α] (hr : h.Ring head xs) : h.TwoWay head xs where
  inverse := fun _ ha _ hb => hr.next_eq_some_iff ha hb
  forward := fun _ hf => hr.walk_next hf
  backward := fun _ hf => hr.walk_prev hf

end Links
