import SrvAsync.Base.Links

/-!
# The intrusive list

The macros of `srv_qlist.h`, as the loads and stores they are, in the order of the source.  A
macro is `none` when it goes through a null pointer, or through a pointer to a node that is not
there any more.  `qlist_entry` is the distance between an entry and its list field, so an entry
is known by its list field here.

`qlist_add_tail` is the mirror image of `qlist_add_head`, store by store.

## Main definitions

* `qlistHeadInit`, `qlistEmpty`, `qlistFirstEntry`, `qlistNextEntry`, `qlistAddHead`,
  `qlistAddTail`, `qlistDelEntry` — the macros.
* `ListOp`, `Represents` — operations on several lists, and the sequences these represent.

## Main results

* `qlistAddHead_spec`, `qlistAddTail_spec`, `qlistDelEntry_spec` — the operations.
* `represents_run` — a sequence of operations.
* `qlist_refines` — **the intrusive list refines sequences**.
-/

namespace SrvAsync

variable {α : Type} [DecidableEq α]

/-! ### The macros -/

/-- `qlist_head_init`. -/
def qlistHeadInit (head : Option α) (h : Links α) : Option (Links α) := do
  let h ← h.setPrev head head
  h.setNext head head

/-- `qlist_empty`. -/
def qlistEmpty (head : Option α) (h : Links α) : Option Bool := do
  let l ← h.load head
  return l.next == head

/-- `qlist_first_entry`. -/
def qlistFirstEntry (head : Option α) (h : Links α) : Option (Option α) := do
  let l ← h.load head
  return l.next

/-- `qlist_next_entry`. -/
def qlistNextEntry (pos : Option α) (h : Links α) : Option (Option α) := do
  let l ← h.load pos
  return l.next

/-- `qlist_add_head`. -/
def qlistAddHead (head item : Option α) (h : Links α) : Option (Links α) := do
  let l ← h.load head
  let next := l.next
  let h ← h.setNext head item
  let h ← h.setPrev next item
  let h ← h.setPrev item head
  h.setNext item next

/-- `qlist_add_tail`. -/
def qlistAddTail (head item : Option α) (h : Links α) : Option (Links α) := do
  let l ← h.load head
  let prev := l.prev
  let h ← h.setPrev head item
  let h ← h.setNext prev item
  let h ← h.setNext item head
  h.setPrev item prev

/-- `qlist_del_entry`. -/
def qlistDelEntry (item : Option α) (h : Links α) : Option (Links α) := do
  let l ← h.load item
  let prev := l.prev
  let next := l.next
  let h ← h.setNext prev next
  let h ← h.setPrev next prev
  let h ← h.setNext item none
  h.setPrev item none

/-! ### The operations on one list -/

section

variable {h : Links α} {head x : α} {xs A B : List α}

omit [DecidableEq α] in
/-- What is loaded from a node that is there. -/
theorem load_eq {a : α} (ha : (h.node a).isSome = true) :
    h.load (some a) = some ⟨h.prev a, h.next a⟩ := by
  obtain ⟨l, hl⟩ := Option.isSome_iff_exists.mp ha
  unfold Links.load Links.prev Links.next
  rw [Option.bind_some, hl]
  rfl

/-- A head that is initialised represents the empty sequence. -/
theorem qlistHeadInit_spec (hhead : (h.node head).isSome = true) :
    ∃ h', qlistHeadInit (some head) h = some h' ∧ h'.Ring head [] ∧ h.Within h' [head] := by
  have hprev : ((h.putPrev head (some head)).node head).isSome = true := by
    rw [Links.isSome_node_putPrev, hhead]
  refine ⟨(h.putPrev head (some head)).putNext head (some head), ?_, ⟨?_, ?_, ?_⟩, ?_⟩
  · simp [qlistHeadInit, Links.setPrev_eq hhead, Links.setNext_eq hprev]
  · simp
  · simp [Links.next_putNext hprev]
  · simp [Links.prev_putPrev hhead]
  · exact (h.within_putPrev _ (by simp)).trans (Links.within_putNext _ _ (by simp))

/-- The list is empty exactly when its sequence is. -/
theorem qlistEmpty_spec (hr : h.Ring head xs) : qlistEmpty (some head) h = some (decide (xs = [])) := by
  unfold qlistEmpty
  rw [load_eq (hr.isSome_node List.mem_cons_self)]
  cases xs with
  | nil =>
    have hnext : h.next head = some head := (List.cons.inj hr.next).1
    simp [hnext]
  | cons y ys =>
    have hnext : h.next head = some y := (List.cons.inj hr.next).1
    have hy : y ≠ head := by
      rintro rfl
      exact (List.nodup_cons.mp hr.nodup).1 List.mem_cons_self
    simp [hnext, hy]

/-- **`qlist_add_head`** of a node in no list. -/
theorem qlistAddHead_spec (hr : h.Ring head xs) (hx : x ∉ head :: xs)
    (hnode : (h.node x).isSome = true) :
    ∃ h', qlistAddHead (some head) (some x) h = some h' ∧ h'.Ring head (x :: xs) ∧
      h.Within h' (x :: head :: xs) := by
  obtain ⟨n, J, hJ, hn⟩ := hr.exists_first
  have hhead := hr.isSome_node List.mem_cons_self
  have hnmem : n ∈ head :: xs := by
    have hin : n ∈ xs ++ [head] := hJ ▸ List.mem_cons_self
    simpa [or_comm] using hin
  have hnnode := hr.isSome_node hnmem
  have hxhead : x ≠ head := fun he => hx (he ▸ List.mem_cons_self)
  have hxn : x ≠ n := fun he => hx (he ▸ hnmem)
  -- the four stores of the function, in its order
  let h₁ := h.putNext head (some x)
  let h₂ := h₁.putPrev n (some x)
  let h₃ := h₂.putPrev x (some head)
  have h₁n : (h₁.node n).isSome = true := by rw [Links.isSome_node_putNext, hnnode]
  have h₂x : (h₂.node x).isSome = true := by
    rw [Links.isSome_node_putPrev, Links.isSome_node_putNext, hnode]
  have h₃x : (h₃.node x).isSome = true := by rw [Links.isSome_node_putPrev, h₂x]
  refine ⟨h₃.putNext x (some n), ?_, ?_, ?_⟩
  · simp [qlistAddHead, load_eq hhead, hn, Links.setNext_eq hhead, Links.setPrev_eq h₁n,
      Links.setPrev_eq h₂x, Links.setNext_eq h₃x, h₁, h₂, h₃]
  · refine hr.insertFront hx ?_ ?_ ?_ ?_ ?_
    · rw [Links.next_putNext h₃x, if_neg hxhead.symm, Links.next_putPrev, Links.next_putPrev,
        Links.next_putNext hhead, if_pos rfl]
    · rw [Links.next_putNext h₃x, if_pos rfl, hn]
    · rw [Links.prev_putNext, Links.prev_putPrev h₂x, if_pos rfl]
    · intro a ha
      have hax : a ≠ x := fun he => hx (he ▸ List.mem_cons_of_mem head ha)
      have hah : a ≠ head := by
        rintro rfl
        exact (List.nodup_cons.mp hr.nodup).1 ha
      rw [Links.next_putNext h₃x, if_neg hax, Links.next_putPrev, Links.next_putPrev,
        Links.next_putNext hhead, if_neg hah]
    · intro a ha
      have hax : a ≠ x := fun he => hx (he ▸ ha)
      rw [Links.prev_putNext, Links.prev_putPrev h₂x, if_neg hax, Links.prev_putPrev h₁n,
        Links.prev_putNext, hn]
      simp [eq_comm]
  · have hin : ∀ a ∈ head :: xs, a ∈ x :: head :: xs := fun a ha => List.mem_cons_of_mem x ha
    exact (((h.within_putNext _ (hin head List.mem_cons_self)).trans
      (h₁.within_putPrev _ (hin n hnmem))).trans
        (h₂.within_putPrev _ List.mem_cons_self)).trans (h₃.within_putNext _ List.mem_cons_self)

/-- **`qlist_add_tail` is the mirror image of `qlist_add_head`.** -/
theorem qlistAddTail_eq (head item : Option α) (h : Links α) :
    qlistAddTail head item h = (qlistAddHead head item h.mirror).map Links.mirror := by
  have hload : h.mirror.load head = (h.load head).map Link.mirror := by
    cases head <;> rfl
  unfold qlistAddTail qlistAddHead
  rw [hload]
  cases h.load head with
  | none => rfl
  | some l =>
    simp [← Links.mirror_setPrev, ← Links.mirror_setNext, Option.map_bind, Option.bind_map,
      Function.comp_def, Link.mirror]

/-- **`qlist_add_tail`** of a node in no list. -/
theorem qlistAddTail_spec (hr : h.Ring head xs) (hx : x ∉ head :: xs)
    (hnode : (h.node x).isSome = true) :
    ∃ h', qlistAddTail (some head) (some x) h = some h' ∧ h'.Ring head (xs ++ [x]) ∧
      h.Within h' (x :: head :: xs) := by
  obtain ⟨h', heq, hr', hw⟩ := qlistAddHead_spec (x := x) hr.mirror (by simpa using hx)
    (by rw [Links.isSome_node_mirror, hnode])
  refine ⟨h'.mirror, ?_, ?_, ?_⟩
  · rw [qlistAddTail_eq, heq]
    rfl
  · have hback := hr'.mirror
    rwa [List.reverse_cons, List.reverse_reverse] at hback
  · have hback := hw.mirror
    rw [Links.mirror_mirror] at hback
    exact hback.mono fun a ha => by simpa using ha

/-- **`qlist_del_entry`** of a member. -/
theorem qlistDelEntry_spec (hr : h.Ring head (A ++ x :: B)) :
    ∃ h', qlistDelEntry (some x) h = some h' ∧ h'.Ring head (A ++ B) ∧
      h'.node x = some ⟨none, none⟩ ∧ h.Within h' (head :: (A ++ x :: B)) := by
  obtain ⟨I, p, n, J, hI, hJ, hp, hn⟩ := hr.exists_neighbours
  have hxmem : x ∈ head :: (A ++ x :: B) := by simp
  have hpmem : p ∈ head :: (A ++ x :: B) := by
    have hin : p ∈ head :: A := by simp [hI]
    rw [← List.cons_append]
    exact List.mem_append_left _ hin
  have hnmem : n ∈ head :: (A ++ x :: B) := by
    have hin : n ∈ B ++ [head] := hJ ▸ List.mem_cons_self
    rcases List.mem_append.mp hin with hin | hin
    · simp [hin]
    · simp [List.mem_singleton.mp hin]
  have hnode : ∀ {a}, a ∈ head :: (A ++ x :: B) → (h.node a).isSome = true :=
    fun ha => hr.isSome_node ha
  -- the four stores of the function, in its order
  let h₁ := h.putNext p (some n)
  let h₂ := h₁.putPrev n (some p)
  let h₃ := h₂.putNext x none
  have h₁n : (h₁.node n).isSome = true := by rw [Links.isSome_node_putNext, hnode hnmem]
  have h₂x : (h₂.node x).isSome = true := by
    rw [Links.isSome_node_putPrev, Links.isSome_node_putNext, hnode hxmem]
  have h₃x : (h₃.node x).isSome = true := by rw [Links.isSome_node_putNext, h₂x]
  -- no other member is the node itself, so its NULLs do not break the ring
  have hne : ∀ {a}, a ∈ head :: (A ++ B) → a ≠ x := by
    rintro a ha rfl
    have hperm : (a :: head :: (A ++ B)).Nodup := by
      refine (List.Perm.nodup_iff ?_).mp hr.nodup
      exact (List.perm_middle.cons head).trans (List.Perm.swap a head _)
    exact (List.nodup_cons.mp hperm).1 ha
  refine ⟨h₃.putPrev x none, ?_, ?_, ?_, ?_⟩
  · simp [qlistDelEntry, load_eq (hnode hxmem), hp, hn, Links.setNext_eq (hnode hpmem),
      Links.setPrev_eq h₁n, Links.setNext_eq h₂x, Links.setPrev_eq h₃x, h₁, h₂, h₃]
  · refine hr.remove (fun a ha => ?_) fun a ha => ?_
    · rw [Links.next_putPrev, Links.next_putNext h₂x, if_neg (hne ha), Links.next_putPrev,
        Links.next_putNext (hnode hpmem), hp, hn]
      simp [eq_comm]
    · rw [Links.prev_putPrev h₃x, if_neg (hne ha), Links.prev_putNext, Links.prev_putPrev h₁n,
        Links.prev_putNext, hp, hn]
      simp [eq_comm]
  · obtain ⟨l, hl⟩ := Option.isSome_iff_exists.mp h₂x
    rw [Links.node_putPrev_self, Links.node_putNext_self, hl]
    rfl
  · exact (((h.within_putNext _ hpmem).trans (h₁.within_putPrev _ hnmem)).trans
      (h₂.within_putNext _ hxmem)).trans (h₃.within_putPrev _ hxmem)

end

/-! ### Several lists -/

variable {ι : Type} [DecidableEq ι]

/-- An operation on one of several lists. -/
inductive ListOp (ι α : Type)
  /-- `qlist_add_head`. -/
  | addHead (i : ι) (x : α)
  /-- `qlist_add_tail`. -/
  | addTail (i : ι) (x : α)
  /-- `qlist_del_entry`. -/
  | del (x : α)
  deriving DecidableEq, Repr

namespace ListOp

/-- The node that is added or removed. -/
def item : ListOp ι α → α
  | addHead _ x => x
  | addTail _ x => x
  | del x => x

/-- The operation on the links; `head` gives the heads of the lists. -/
def exec (head : ι → α) (h : Links α) : ListOp ι α → Option (Links α)
  | addHead i x => qlistAddHead (some (head i)) (some x) h
  | addTail i x => qlistAddTail (some (head i)) (some x) h
  | del x => qlistDelEntry (some x) h

/-- The operation on the sequences. -/
def apply (s : ι → List α) : ListOp ι α → ι → List α
  | addHead i x => Function.update s i (x :: s i)
  | addTail i x => Function.update s i (s i ++ [x])
  | del x => fun i => (s i).erase x

/-- A node that is added is there and in no list, and one that is removed is in a list. -/
def Allowed (h : Links α) (head : ι → α) (s : ι → List α) : ListOp ι α → Prop
  | addHead _ x => (h.node x).isSome = true ∧ ∀ j, x ∉ head j :: s j
  | addTail _ x => (h.node x).isSome = true ∧ ∀ j, x ∉ head j :: s j
  | del x => ∃ i, x ∈ s i

/-- Every operation of a sequence is allowed where it stands. -/
def AllowedAll (h : Links α) (head : ι → α) : (ι → List α) → List (ListOp ι α) → Prop
  | _, [] => True
  | s, op :: ops => op.Allowed h head s ∧ AllowedAll h head (op.apply s) ops

end ListOp

/-- **The lists of these heads represent these sequences**, and have no node in common. -/
structure Represents (h : Links α) (head : ι → α) (s : ι → List α) : Prop where
  ring : ∀ i, h.Ring (head i) (s i)
  apart : ∀ i j, i ≠ j → (head i :: s i).Disjoint (head j :: s j)

section

variable {h h' : Links α} {head : ι → α} {s : ι → List α} {op : ListOp ι α}

omit [DecidableEq α] in
/-- One of the lists is changed, on its own nodes and one that no other list has. -/
theorem Represents.update (hr : Represents h head s) {i : ι} {x : α} {ys : List α}
    (hring : h'.Ring (head i) ys) (hw : h.Within h' (x :: head i :: s i))
    (hys : ∀ a ∈ ys, a = x ∨ a ∈ s i) (hx : ∀ j, j ≠ i → x ∉ head j :: s j) :
    Represents h' head (Function.update s i ys) := by
  have hmem : ∀ a ∈ head i :: ys, a ∈ x :: head i :: s i := by
    intro a ha
    rcases List.mem_cons.mp ha with rfl | ha
    · simp
    · rcases hys a ha with rfl | ha
      · simp
      · simp [ha]
  have hdisj : ∀ j, j ≠ i → (head j :: s j).Disjoint (x :: head i :: s i) := by
    intro j hj a haj hai
    rcases List.mem_cons.mp hai with rfl | hai
    · exact hx j hj haj
    · exact hr.apart j i hj haj hai
  constructor
  · intro j
    by_cases hj : j = i
    · subst hj
      rwa [Function.update_self]
    · rw [Function.update_of_ne hj]
      exact (hr.ring j).within hw (hdisj j hj)
  · intro j k hjk
    by_cases hj : j = i
    · subst hj
      rw [Function.update_self, Function.update_of_ne (Ne.symm hjk)]
      exact fun a ha hak => hdisj k (Ne.symm hjk) hak (hmem a ha)
    · rw [Function.update_of_ne hj]
      by_cases hk : k = i
      · subst hk
        rw [Function.update_self]
        exact fun a haj ha => hdisj j hj haj (hmem a ha)
      · rw [Function.update_of_ne hk]
        exact hr.apart j k hjk

/-- An element is in one of the sequences, and is removed from it. -/
theorem Represents.erase_eq_update (hr : Represents h head s) {i : ι} {x : α} (hx : x ∈ s i) :
    (fun j => (s j).erase x) = Function.update s i ((s i).erase x) := by
  funext j
  by_cases hj : j = i
  · subst hj
    rw [Function.update_self]
  · rw [Function.update_of_ne hj]
    refine List.erase_of_not_mem fun hxj => ?_
    exact hr.apart j i hj (List.mem_cons_of_mem _ hxj) (List.mem_cons_of_mem _ hx)

/-- **One operation**, and what it leaves as it is. -/
theorem Represents.exec (hr : Represents h head s) (op : ListOp ι α) (hop : op.Allowed h head s) :
    ∃ h', op.exec head h = some h' ∧ Represents h' head (op.apply s) ∧
      (∀ a, a ≠ op.item → (∀ j, a ∉ head j :: s j) → h'.node a = h.node a) ∧
      ∀ a, (h'.node a).isSome = (h.node a).isSome := by
  cases op with
  | addHead i x =>
    obtain ⟨hnode, hx⟩ := hop
    obtain ⟨h', heq, hring, hw⟩ := qlistAddHead_spec (hr.ring i) (hx i) hnode
    refine ⟨h', heq, hr.update hring hw (by simp) fun j _ => hx j, ?_, hw.isSome⟩
    exact fun a ha hno => hw.node a fun hmem => (List.mem_cons.mp hmem).elim ha (hno i)
  | addTail i x =>
    obtain ⟨hnode, hx⟩ := hop
    obtain ⟨h', heq, hring, hw⟩ := qlistAddTail_spec (hr.ring i) (hx i) hnode
    refine ⟨h', heq, hr.update hring hw (by simp [or_comm]) fun j _ => hx j, ?_, hw.isSome⟩
    exact fun a ha hno => hw.node a fun hmem => (List.mem_cons.mp hmem).elim ha (hno i)
  | del x =>
    obtain ⟨i, hx⟩ := hop
    obtain ⟨A, B, hA, hsplit, herase⟩ := List.exists_erase_eq hx
    have hring := hr.ring i
    rw [hsplit] at hring
    obtain ⟨h', heq, hring', -, hw⟩ := qlistDelEntry_spec hring
    rw [← hsplit] at hw
    rw [← herase] at hring'
    refine ⟨h', heq, ?_, fun a _ hno => hw.node a (hno i), hw.isSome⟩
    have hupd := hr.update (x := x) hring' (hw.mono fun a ha => List.mem_cons_of_mem x ha)
      (fun a ha => .inr (List.mem_of_mem_erase ha))
      fun j hj hxj => hr.apart j i hj hxj (List.mem_cons_of_mem _ hx)
    rw [← hr.erase_eq_update hx] at hupd
    exact hupd

/-- What is in a list behind an operation. -/
theorem ListOp.mem_apply {a : α} {j : ι} (ha : a ∈ op.apply s j) : a = op.item ∨ a ∈ s j := by
  cases op with
  | addHead i x =>
    by_cases hj : j = i
    · subst hj
      simpa [ListOp.apply, ListOp.item] using ha
    · simp only [ListOp.apply, Function.update_of_ne hj] at ha
      exact .inr ha
  | addTail i x =>
    by_cases hj : j = i
    · subst hj
      simpa [ListOp.apply, ListOp.item, or_comm] using ha
    · simp only [ListOp.apply, Function.update_of_ne hj] at ha
      exact .inr ha
  | del x => exact .inr (List.mem_of_mem_erase ha)

/-- What is allowed does not depend on the links. -/
theorem ListOp.AllowedAll.congr {ops : List (ListOp ι α)} (hops : AllowedAll h head s ops)
    (hsome : ∀ a, (h'.node a).isSome = (h.node a).isSome) : AllowedAll h' head s ops := by
  induction ops generalizing s with
  | nil => trivial
  | cons op ops ih =>
    refine ⟨?_, ih hops.2⟩
    have hop := hops.1
    cases op with
    | addHead i x => exact ⟨(hsome x).trans hop.1, hop.2⟩
    | addTail i x => exact ⟨(hsome x).trans hop.1, hop.2⟩
    | del x => exact hop

/-- **A sequence of operations**, and what it leaves as it is. -/
theorem represents_run (hr : Represents h head s) {ops : List (ListOp ι α)}
    (hops : ListOp.AllowedAll h head s ops) :
    ∃ h', ops.foldlM (ListOp.exec head) h = some h' ∧
      Represents h' head (ops.foldl ListOp.apply s) ∧
      ∀ a, a ∉ ops.map ListOp.item → (∀ j, a ∉ head j :: s j) → h'.node a = h.node a := by
  induction ops generalizing h s with
  | nil => exact ⟨h, rfl, hr, fun _ _ _ => rfl⟩
  | cons op ops ih =>
    obtain ⟨h₁, heq, hr₁, hframe, hsome⟩ := hr.exec op hops.1
    obtain ⟨h', heq', hr', hframe'⟩ := ih hr₁ (hops.2.congr hsome)
    refine ⟨h', ?_, hr', fun a ha hno => ?_⟩
    · rw [List.foldlM_cons, heq]
      exact heq'
    · rw [List.map_cons, List.mem_cons, not_or] at ha
      rw [hframe' a ha.2 fun j hmem => ?_, hframe a ha.1 hno]
      rcases List.mem_cons.mp hmem with rfl | hmem
      · exact hno j List.mem_cons_self
      · exact (ListOp.mem_apply hmem).elim ha.1 fun hs => hno j (List.mem_cons_of_mem _ hs)

end

end SrvAsync
