import SrvAsync.Linked.Blind
import SrvAsync.Linked.Defs
import SrvAsync.Isolation
import SrvAsync.Pass

/-!
# The links of a worker represent its lists

A worker with links makes the steps of a worker with lists, and no others.  It never follows a
null pointer, never takes a list head for a context, and never touches a context that was
freed; and the contexts that are allocated are those of the queue and of the cache.

## Main definitions

* `LinkedWorker.worker` — the worker that has these lists.
* `Points` — the two pointers of the loop over the queue.
* `LinkedWorker.Lists` — the links represent a queue and a cache.
* `LinkedWorker.Sim` — the links represent the lists of a worker.

## Main results

* `sim_step` — a step.
* `linked_refines` — **a worker with links and one with lists make the same runs**.
-/

namespace SrvAsync

open Http Machine ListState

variable {P : Platform} {links : Links Node} {xs ys A B : List Ptr} {p : Ptr} {ph : Phase}

/-- The loop over the queue: the first pointer is at what is still to visit, and the second one
where that leads to; behind the switch it is saved. -/
inductive Points (links : Links Node) (xs : List Ptr) : LoopPoint → Phase → Prop
  | head : Points links xs .head .head
  | blocked : Points links xs .blocked .blocked
  | pass {A todo : List Ptr} (h : xs = A ++ todo) :
    Points links xs (.pass (some (firstNode todo)) (links.next (firstNode todo))) (.pass todo)
  | resumed {A todo : List Ptr} {p : Ptr} (h : xs = A ++ p :: todo) :
    Points links xs (.resumed p (some (firstNode todo))) (.resumed p todo)

/-- The connection that is switched to is in the queue. -/
theorem Points.mem {pt : LoopPoint} {todo : List Ptr} (h : Points links xs pt (.resumed p todo)) :
    p ∈ xs := by
  cases h with
  | resumed h => exact h ▸ List.mem_append_right _ List.mem_cons_self

/-- Which nodes there are does not change when a node is removed from its list. -/
theorem isSome_qlistDelEntry {links' : Links Node} (hs : Shape links xs ys) {l : ListId}
    (hmem : Node.conn p ∈ nodes xs ys l) (h : qlistDelEntry (some (.conn p)) links = some links')
    (a : Node) : (links'.node a).isSome = (links.node a).isSome := by
  obtain ⟨links'', heq, -, -, hsome⟩ := hs.exec (.del (.conn p)) ⟨l, hmem⟩
  obtain rfl := Option.some.inj (h.symm.trans heq)
  exact hsome a

namespace LinkedWorker

variable {m : LinkedWorker} {w : Worker} {pt : LoopPoint} {ls : ListState}

/-- The worker that has these lists. -/
def worker (m : LinkedWorker) (xs ys : List Ptr) (ph : Phase) : Worker :=
  { queue := ⟨xs, m.currConn, m.activeConnCnt, m.inactiveConnCnt, m.lastCtxSwap⟩
    mem := m.mem, fds := m.fds, self := m.self, ctl := m.ctl, heap := m.heap
    cache := ⟨ys, m.cnt⟩, phase := ph, accepted := m.accepted, retired := m.retired }

/-- **The links represent a queue and a cache**, and every context that is allocated is in one
of them. -/
structure Lists (m : LinkedWorker) (xs ys : List Ptr) : Prop where
  shape : Shape m.links xs ys
  mapped : ∀ p, m.Mapped p → p ∈ xs ∨ p ∈ ys
  cnt : m.cnt = ys.length

/-- The same, but for a context that is in neither list. -/
structure Loose (m : LinkedWorker) (xs ys : List Ptr) (p : Ptr) : Prop where
  shape : Shape m.links xs ys
  spare : ListState.Spare m.links xs ys p
  mapped : ∀ q, m.Mapped q → q = p ∨ q ∈ xs ∨ q ∈ ys
  cnt : m.cnt = ys.length

/-- The links represent the lists of a worker, while the two loops over the queue are there. -/
def Holds (pt : LoopPoint) (ph : Phase) (m : LinkedWorker) (w : Worker) : Prop :=
  ∃ xs ys, w = m.worker xs ys ph ∧ m.point = pt ∧ m.Lists xs ys

/-- **The links represent the lists of a worker**, and its pointers the loop over the queue. -/
def Sim (m : LinkedWorker) (w : Worker) : Prop :=
  ∃ xs ys ph, w = m.worker xs ys ph ∧ m.Lists xs ys ∧ Points m.links xs m.point ph

/-- The contexts of the queue and of the cache are allocated. -/
theorem Lists.mapped_iff (h : m.Lists xs ys) : m.Mapped p ↔ p ∈ xs ∨ p ∈ ys := by
  refine ⟨h.mapped p, ?_⟩
  rintro (hp | hp)
  · exact (h.shape.ring .queue).isSome_node (List.mem_cons_of_mem _ (conn_mem_map.mpr hp))
  · exact (h.shape.ring .cache).isSome_node (List.mem_cons_of_mem _ (conn_mem_map.mpr hp))

/-! ### The cache of contexts -/

/-- One round of `fill_conn_ctx_cache`, with an allocation that succeeds. -/
theorem holds_fillRound (junk : Ptr → Link Node) (p : Ptr) (h : (m.withLists ls).Holds pt ph w) :
    Option.Rel (fun ls' => ((m.newConnCtx p).withLists ls').Holds pt ph)
      (ls.fillRound (some (p, junk p))) (w.fillRound (some p)) := by
  obtain ⟨xs, ys, rfl, hpt, hl⟩ := h
  by_cases hp : (m.withLists ls).Mapped p
  · -- the allocator does not give an address that is in use
    have halloc : ls.links.alloc (.conn p) (junk p) = none := if_pos hp
    have hw : ((m.withLists ls).worker xs ys ph).fillRound (some p) = none := if_pos (hl.mapped p hp)
    rw [hw, ListState.fillRound, ListState.allocConnCtxMem, halloc]
    exact .none
  · have hnot : p ∉ xs ∧ p ∉ ys := not_or.mp fun hin => hp (hl.mapped_iff.mpr hin)
    have hnone : ls.links.node (.conn p) = none := Option.not_isSome_iff_eq_none.mp hp
    have hs := hl.shape.update hnot.1 hnot.2 (some (junk p))
    obtain ⟨links, heq, hs', hsome⟩ := hs.addCache ⟨by simp, hnot.1, hnot.2⟩
    have hw : ((m.withLists ls).worker xs ys ph).fillRound (some p) = some _ := if_neg (not_or.mpr hnot)
    have heq' : qlistAddHead (some (.head .cache)) (some (.conn p))
        ⟨Function.update ls.links.node (.conn p) (some (junk p))⟩ = some links := heq
    rw [hw, ListState.fillRound, ListState.allocConnCtxMem, Links.alloc_eq (junk p) hnone]
    simp only [Option.pure_def, Option.bind_eq_bind, Option.bind_some, heq']
    refine .some ⟨xs, p :: ys, rfl, hpt, hs', fun q hq => ?_, ?_⟩
    · by_cases hqp : q = p
      · exact .inr (hqp ▸ List.mem_cons_self)
      · have hne : Node.conn q ≠ .conn p := fun he => hqp (Node.conn.inj he)
        have hnode := (hsome (.conn q)).trans (congrArg _ (Function.update_of_ne hne _ _))
        exact (hl.mapped q (hnode.symm.trans hq)).imp_right (List.mem_cons_of_mem p)
    · change ls.cnt + 1 = _
      rw [show ls.cnt = ys.length from hl.cnt]
      simp

/-- The rounds of `fill_conn_ctx_cache`. -/
theorem holds_fillRounds (junk : Ptr → Link Node) (outs : List (Option Ptr))
    (h : (m.withLists ls).Holds pt ph w) :
    Option.Rel (fun ls' => ((m.newConnCtxs outs).withLists ls').Holds pt ph)
      ((allocated junk outs).foldlM ListState.fillRound ls) (outs.foldlM Worker.fillRound w) := by
  induction outs generalizing m ls w with
  | nil => exact .some h
  | cons o outs ih =>
    cases o with
    | none => exact ih h
    | some p =>
      rw [allocated, List.map_cons, List.foldlM_cons, List.foldlM_cons]
      exact rel_bind (holds_fillRound junk p h) fun _ _ h' => ih h'

/-- `fill_conn_ctx_cache`. -/
theorem holds_fillConnCtxCache (junk : Ptr → Link Node) (outs : List (Option Ptr))
    (h : (m.withLists ls).Holds pt ph w) :
    Option.Rel (fun ls' => ((m.newConnCtxs outs).withLists ls').Holds pt ph)
      (ls.fillConnCtxCache (allocated junk outs)) (w.fillConnCtxCache outs) := by
  have hrun := holds_fillRounds junk outs h
  have hlen : (allocated junk outs).length = outs.length := List.length_map _
  have hcnt : w.cache.cnt = ls.cnt := by
    obtain ⟨xs, ys, rfl, -⟩ := h
    rfl
  unfold ListState.fillConnCtxCache Worker.fillConnCtxCache
  rw [hlen, hcnt]
  split
  · exact hrun
  · exact .none

/-- The first half of `alloc_conn_ctx`. -/
theorem holds_refillConnCtxCache (junk : Ptr → Link Node) (outs : List (Option Ptr))
    (h : (m.withLists ls).Holds pt ph w) :
    Option.Rel (fun ls' => ((m.newConnCtxs outs).withLists ls').Holds pt ph)
      (ls.refillConnCtxCache (allocated junk outs)) (w.refillConnCtxCache outs) := by
  have hfill := holds_fillConnCtxCache junk outs h
  have hcnt : w.cache.cnt = ls.cnt := by
    obtain ⟨xs, ys, rfl, -⟩ := h
    rfl
  unfold ListState.refillConnCtxCache Worker.refillConnCtxCache
  rw [hcnt]
  split
  · exact hfill
  · cases outs with
    | nil => exact .some h
    | cons o outs => exact .none

/-- The second half of `alloc_conn_ctx`, on a cache that is not empty. -/
theorem takeConnCtx_cons (ph : Phase) (hl : (m.withLists ls).Lists xs (p :: ys)) :
    ∃ ls', ls.takeConnCtx = some (some (.conn p), ls') ∧ (m.withLists ls').Loose xs ys p ∧
      ((m.withLists ls).worker xs (p :: ys) ph).takeConnCtx =
        (some p, (m.withLists ls').worker xs ys ph) := by
  have hlen : ls.cnt = _ := hl.cnt
  rw [List.length_cons] at hlen
  have hcnt : ¬ ls.cnt = 0 := by omega
  have hring : ls.links.Ring (.head .cache) (nodes xs (p :: ys) .cache) := hl.shape.ring .cache
  have hfirst : ls.links.next (.head .cache) = some (.conn p) := (List.cons.inj hring.next).1
  obtain ⟨links, heq, hs, hspare⟩ := hl.shape.delCache List.mem_cons_self
  rw [List.erase_cons_head] at hs hspare
  have hsome := isSome_qlistDelEntry hl.shape (l := .cache) (conn_mem_map.mpr List.mem_cons_self) heq
  have heq' : qlistDelEntry (some (.conn p)) ls.links = some links := heq
  refine ⟨{ ls with links := links, cnt := ls.cnt - 1 }, ?_, ⟨hs, hspare, fun q hq => ?_, ?_⟩, ?_⟩
  · unfold ListState.takeConnCtx qlistFirstEntry
    rw [if_neg hcnt, load_eq (hring.isSome_node List.mem_cons_self), hfirst]
    simp only [Option.bind_eq_bind, Option.bind_some, Option.pure_def, heq']
  · rcases hl.mapped q ((hsome _).symm.trans hq) with hq | hq
    · exact .inr (.inl hq)
    · exact (List.mem_cons.mp hq).imp_right .inr
  · change ls.cnt - 1 = _
    omega
  · exact if_neg hcnt

/-! ### The queue -/

/-- `create_new_conn` behind `alloc_conn_ctx`. -/
theorem Loose.startConn (h : m.Loose xs ys p) (hpt : m.point = pt) (fd : Fd) (inst : ℕ) :
    Option.Rel (Holds pt ph) (m.startConn p fd inst) (some ((m.worker xs ys ph).startConn p fd inst)) := by
  obtain ⟨links, heq, hs, hsome⟩ := h.shape.addQueue h.spare
  unfold LinkedWorker.startConn addConnToQueue onLists ListState.addConnToQueue
  have heq' : qlistAddHead (some (.head .queue)) (some (.conn p)) m.lists.links = some links := heq
  change Option.Rel _ (Option.map _ (Option.bind (qlistAddHead _ _ m.lists.links) _)) _
  rw [heq']
  refine .some ⟨p :: xs, ys, rfl, hpt, hs, fun q hq => ?_, h.cnt⟩
  rcases h.mapped q ((hsome _).symm.trans hq) with rfl | hq | hq
  · exact .inl List.mem_cons_self
  · exact .inl (List.mem_cons_of_mem p hq)
  · exact .inr hq

/-- `create_new_conn`. -/
theorem holds_createNewConn (junk : Ptr → Link Node) (fd : Fd) (inst : ℕ) (outs : List (Option Ptr))
    (h : m.Holds pt ph w) :
    Option.Rel (Holds pt ph) (m.createNewConn junk fd inst outs) (w.createNewConn fd inst outs) := by
  have hholds : (m.withLists m.lists).Holds pt ph w := h
  have hrefill := holds_refillConnCtxCache junk outs hholds
  unfold createNewConn allocConnCtx ListState.allocConnCtx Worker.createNewConn
  rw [Option.map_eq_bind, Option.map_eq_bind, Option.bind_eq_bind, Option.bind_assoc,
    Option.bind_assoc]
  refine rel_bind hrefill ?_
  rintro ls _ ⟨xs, ys, rfl, hpt, hl⟩
  generalize m.newConnCtxs outs = m₁ at hl hpt
  cases ys with
  | nil =>
    -- nothing could be allocated
    have htake : ls.takeConnCtx = some (none, ls) := if_pos hl.cnt
    have hw : ((m₁.withLists ls).worker xs [] ph).takeConnCtx =
        (none, (m₁.withLists ls).worker xs [] ph) := if_pos hl.cnt
    simp only [Function.comp_apply, htake, hw]
    exact .some ⟨xs, [], rfl, hpt, hl.shape, hl.mapped, hl.cnt⟩
  | cons p ys =>
    obtain ⟨ls', htake, hloose, hw⟩ := takeConnCtx_cons ph hl
    simp only [Function.comp_apply, htake, hw]
    exact hloose.startConn hpt fd inst

/-- `remove_conn_from_queue`. -/
theorem removeConnFromQueue_mem (ph : Phase) (hl : m.Lists (A ++ p :: B) ys) :
    ∃ m', m.removeConnFromQueue p = some m' ∧ m'.Loose (A ++ B) ys p ∧ m'.point = m.point ∧
      (m.worker (A ++ p :: B) ys ph).removeConnFromQueue p = m'.worker (A ++ B) ys ph := by
  have hpA : p ∉ A := fun hA =>
    List.disjoint_of_nodup_append hl.shape.nodup_queue hA List.mem_cons_self
  have hpq : p ∈ A ++ p :: B := List.mem_append_right A List.mem_cons_self
  have herase : (A ++ p :: B).erase p = A ++ B := by
    rw [List.erase_append_right _ hpA, List.erase_cons_head]
  obtain ⟨links, heq, hs, hspare⟩ := hl.shape.delQueue hpq
  have hsome := isSome_qlistDelEntry hl.shape (l := .queue) (conn_mem_map.mpr hpq) heq
  rw [herase] at hs hspare
  unfold removeConnFromQueue onLists ListState.removeConnFromQueue Worker.removeConnFromQueue
  change ∃ m', Option.map _ (Option.bind (qlistDelEntry _ m.links) _) = some m' ∧ _
  rw [heq]
  refine ⟨_, rfl, ⟨hs, hspare, fun q hq => ?_, hl.cnt⟩, rfl, ?_⟩
  · rcases hl.mapped q ((hsome _).symm.trans hq) with hq | hq
    · simp only [List.mem_append, List.mem_cons] at hq ⊢
      tauto
    · exact .inr (.inr hq)
  · simp only [worker, herase]
    rfl

/-- `free_conn_ctx`. -/
theorem Loose.freeConnCtx (ph : Phase) (h : m.Loose xs ys p) :
    ∃ m' ys', m.freeConnCtx p = some m' ∧ m'.Lists xs ys' ∧ m'.point = m.point ∧
      (m.worker xs ys ph).freeConnCtx p = m'.worker xs ys' ph := by
  unfold LinkedWorker.freeConnCtx onLists ListState.freeConnCtx Worker.freeConnCtx
  change ∃ m' ys', Option.map m.withLists (if m.cnt < maxConnCtxCacheCnt then _ else _) = some m' ∧ _
  by_cases hcnt : m.cnt < maxConnCtxCacheCnt
  · obtain ⟨links, heq, hs, hsome⟩ := h.shape.addCache h.spare
    rw [if_pos hcnt, if_pos (show (m.worker xs ys ph).cache.cnt < _ from hcnt)]
    change ∃ m' ys', Option.map _ (Option.bind (qlistAddHead _ _ m.links) _) = some m' ∧ _
    rw [heq]
    refine ⟨_, p :: ys, rfl, ⟨hs, fun q hq => ?_, ?_⟩, rfl, rfl⟩
    · rcases h.mapped q ((hsome _).symm.trans hq) with rfl | hq | hq
      · exact .inr List.mem_cons_self
      · exact .inl hq
      · exact .inr (List.mem_cons_of_mem p hq)
    · change m.cnt + 1 = _
      rw [h.cnt]
      simp
  · -- the cache is full: the memory is given back
    rw [if_neg hcnt, if_neg (show ¬ (m.worker xs ys ph).cache.cnt < _ from hcnt)]
    unfold ListState.freeConnCtxMem
    change ∃ m' ys', Option.map _ (Option.bind (m.links.free _) _) = some m' ∧ _
    rw [Links.free_eq h.spare.isSome]
    refine ⟨_, ys, rfl, ⟨h.shape.update h.spare.queue h.spare.cache none, fun q hq => ?_, h.cnt⟩,
      rfl, rfl⟩
    have hqp : q ≠ p := by
      rintro rfl
      simp [Mapped, withLists] at hq
    have hne : Node.conn q ≠ .conn p := fun he => hqp (Node.conn.inj he)
    have hnode := congrArg Option.isSome (Function.update_of_ne hne none m.links.node)
    exact (h.mapped q (hnode.symm.trans hq)).resolve_left hqp

/-! ### The main loop -/

/-- The first node of the rest of the queue is there. -/
theorem Lists.isSome_firstNode (hl : m.Lists (A ++ B) ys) :
    (m.links.node (firstNode B)).isSome = true :=
  (hl.shape.ring .queue).isSome_node (exists_firstNode (m := m.lists) hl.shape)

/-- The load of the successor, at the end of a round. -/
theorem Lists.nextEntry (hl : m.Lists (A ++ B) ys) :
    qlistNextEntry (some (firstNode B)) m.links = some (m.links.next (firstNode B)) := by
  unfold qlistNextEntry
  rw [load_eq hl.isSome_firstNode]
  rfl

/-- `qlist_foreach_entry_safe` starts. -/
theorem sim_startPass (h : m.Holds pt ph w) : Option.Rel Sim m.startPass (some w.startPass) := by
  obtain ⟨xs, ys, rfl, hpt, hl⟩ := h
  have hring := hl.shape.ring .queue
  have hfirst : m.links.next (.head .queue) = some (firstNode xs) := by
    have hnext := hring.next
    cases xs with
    | nil => exact (List.cons.inj hnext).1
    | cons p xs => exact (List.cons.inj hnext).1
  have hnext := Lists.nextEntry (A := []) (B := xs) hl
  unfold startPass qlistFirstEntry
  rw [load_eq (hring.isSome_node List.mem_cons_self), hfirst]
  simp only [Option.bind_eq_bind, Option.bind_some, Option.pure_def, hnext]
  exact .some ⟨xs, ys, .pass xs, rfl, ⟨hl.shape, hl.mapped, hl.cnt⟩, .pass (A := []) rfl⟩

/-- The main loop from the return of `epoll_pwait` on. -/
theorem sim_polled (junk : Ptr → Link Node) (r : Worker.EpollResult) (h : m.Sim w) :
    Option.Rel Sim (m.polled junk r) (w.polled r) := by
  obtain ⟨xs, ys, ph, rfl, hl, hpt⟩ := h
  have hholds : m.Holds m.point ph (m.worker xs ys ph) := ⟨xs, ys, rfl, rfl, hl⟩
  cases r with
  | ready accept outs =>
    cases accept with
    | none =>
      simp only [polled, Worker.polled]
      by_cases houts : outs = []
      · rw [if_pos houts, if_pos houts]
        exact sim_startPass hholds
      · rw [if_neg houts, if_neg houts]
        exact .none
    | some fd =>
      simp only [polled, Worker.polled]
      by_cases hfd : 0 ≤ fd ∧ m.fds fd = none
      · rw [if_pos hfd, if_pos (show 0 ≤ fd ∧ (m.worker xs ys ph).fds fd = none from hfd),
          Option.map_eq_bind]
        let m₁ : LinkedWorker :=
          { m with fds := Function.update m.fds fd (some m.accepted), accepted := m.accepted + 1 }
        have hholds₁ : m₁.Holds m.point ph (m₁.worker xs ys ph) :=
          ⟨xs, ys, rfl, rfl, hl.shape, hl.mapped, hl.cnt⟩
        exact rel_bind (holds_createNewConn junk fd m.accepted outs hholds₁)
          fun _ _ => sim_startPass
      · rw [if_neg hfd, if_neg (show ¬ (0 ≤ fd ∧ (m.worker xs ys ph).fds fd = none) from hfd)]
        exact .none
  | timeout | eintr => exact sim_startPass hholds
  | error => exact .some ⟨xs, ys, ph, rfl, ⟨hl.shape, hl.mapped, hl.cnt⟩, hpt⟩

/-- The body of the loop behind `swap_to_conn_ctx`. -/
theorem sim_swappedBack (now : Time) (hl : m.Lists (A ++ p :: B) ys) :
    Option.Rel Sim (m.swappedBack now p (some (firstNode B)))
      (some ((m.worker (A ++ p :: B) ys ph).swappedBack now p B)) := by
  let m₁ : LinkedWorker := { m with lastCtxSwap := now }
  have hl₁ : m₁.Lists (A ++ p :: B) ys := ⟨hl.shape, hl.mapped, hl.cnt⟩
  unfold swappedBack Worker.swappedBack
  simp only [Option.bind_eq_bind, Option.pure_def]
  change Option.Rel Sim _ (some (if (m.heap p).isCompleted = true then
    ((m₁.worker (A ++ p :: B) ys (.pass B)).removeConnFromQueue p).freeConnCtx p
    else m₁.worker (A ++ p :: B) ys (.pass B)))
  by_cases hc : (m.heap p).isCompleted = true
  · obtain ⟨m₂, hremove, hloose, hpt₂, hw₂⟩ := removeConnFromQueue_mem (.pass B) hl₁
    obtain ⟨m₃, ys', hfree, hl₃, hpt₃, hw₃⟩ := hloose.freeConnCtx (.pass B)
    rw [if_pos hc, if_pos hc, hw₂, hw₃]
    change Option.Rel Sim (((m₁.removeConnFromQueue p).bind (·.freeConnCtx p)).bind _) _
    rw [hremove, Option.bind_some, hfree, Option.bind_some, hl₃.nextEntry, Option.bind_some]
    exact .some ⟨A ++ B, ys', .pass B, rfl, ⟨hl₃.shape, hl₃.mapped, hl₃.cnt⟩, .pass rfl⟩
  · rw [if_neg hc, if_neg hc]
    have hassoc : A ++ p :: B = (A ++ [p]) ++ B := by simp
    have hnext := Lists.nextEntry (m := m₁) (hassoc ▸ hl₁)
    simp only [Option.bind_some]
    rw [hnext]
    exact .some ⟨A ++ p :: B, ys, .pass B, rfl, ⟨hl.shape, hl.mapped, hl.cnt⟩, .pass hassoc⟩

/-! ### The coroutines -/

/-- A step of a coroutine. -/
theorem sim_coro {t : Tick} {op : Op} (hl : m.Lists xs ys) (hpt : Points m.links xs m.point ph) :
    Option.Rel Sim (((m.load p).step P t op).map (m.store p))
      ((((m.worker xs ys ph).load p).step P t op).map ((m.worker xs ys ph).store p)) := by
  have hload : (m.worker xs ys ph).load p = (m.load p).withList xs := rfl
  rw [hload, St.step_withList, Option.map_map]
  cases (m.load p).step P t op with
  | none => exact .none
  | some s => exact .some ⟨xs, ys, ph, rfl, ⟨hl.shape, hl.mapped, hl.cnt⟩, hpt⟩

/-! ### A step -/

/-- A step while the main context runs. -/
theorem sim_mainStep (t : Tick) (junk : Ptr → Link Node) (op : Worker.WorkerOp) (h : m.Sim w) :
    Option.Rel Sim (m.mainStep P t junk m.point op) (w.mainStep P t w.phase op) := by
  have hpoll := fun r => sim_polled junk r h
  obtain ⟨xs, ys, ph, rfl, hl, hpt⟩ := h
  change Option.Rel Sim _ ((m.worker xs ys ph).mainStep P t ph op)
  generalize hpoint : m.point = point at hpt
  cases hpt with
  | head =>
    cases op with
    | block =>
      change Option.Rel Sim (if m.activeConnCnt = 0 then _ else _) (if m.activeConnCnt = 0 then _ else _)
      split
      · exact .some ⟨xs, ys, .blocked, rfl, ⟨hl.shape, hl.mapped, hl.cnt⟩, .blocked⟩
      · exact .none
    | poll r =>
      change Option.Rel Sim (if r = .timeout ∧ m.activeConnCnt = 0 then _ else _)
        (if r = .timeout ∧ m.activeConnCnt = 0 then _ else _)
      split
      · exact .none
      · exact hpoll r
    | _ => exact .none
  | blocked =>
    cases op with
    | poll r =>
      change Option.Rel Sim (if r = .timeout then _ else _) (if r = .timeout then _ else _)
      split
      · exact .none
      · exact hpoll r
    | _ => exact .none
  | @pass A todo hxs =>
    subst hxs
    cases todo with
    | nil =>
      cases op with
      | endPass => exact .some ⟨A ++ [], ys, .head, rfl, ⟨hl.shape, hl.mapped, hl.cnt⟩, .head⟩
      | _ => exact .none
    | cons p todo =>
      cases op with
      | resume fcntlOk =>
        have hmem : m.Mapped p := hl.mapped_iff.mpr (.inl (by simp))
        have hnext : m.links.next (.conn p) = some (firstNode todo) := next_conn (m := m.lists) hl.shape
        let m₁ : LinkedWorker :=
          { m with currConn := some p, point := .resumed p (m.links.next (.conn p)) }
        have hpt₁ : Points m₁.links (A ++ p :: todo) m₁.point (.resumed p todo) := by
          change Points m.links _ (.resumed p (m.links.next (.conn p))) _
          rw [hnext]
          exact .resumed rfl
        change Option.Rel Sim (if m.Mapped p then _ else _) _
        rw [if_pos hmem]
        exact sim_coro (m := m₁) ⟨hl.shape, hl.mapped, hl.cnt⟩ hpt₁
      | _ => exact .none
  | @resumed A todo p hxs =>
    subst hxs
    cases op with
    | back =>
      have hmem : m.Mapped p := hl.mapped_iff.mpr (.inl (by simp))
      change Option.Rel Sim (if m.Mapped p then _ else _) _
      rw [if_pos hmem]
      exact sim_swappedBack (t.clk 0) hl
    | _ => exact .none

/-- **A step.** -/
theorem sim_step (i : (Tick × Worker.WorkerOp) × (Ptr → Link Node)) (h : m.Sim w)
    (hw : Worker.Reachable P w) : Option.Rel Sim (m.step P i) (w.step P i.1) := by
  obtain ⟨⟨t, op⟩, junk⟩ := i
  have hmain := sim_mainStep (P := P) t junk op h
  obtain ⟨xs, ys, ph, rfl, hl, hpt⟩ := h
  unfold step Worker.step
  have hsame : (m.worker xs ys ph).ctl = m.ctl := rfl
  simp only [hsame]
  cases hctl : m.ctl with
  | main => exact hmain
  | dead d => exact .none
  | coro pt =>
    -- the coroutine is that of the connection the loop switched to, which is in the queue
    obtain ⟨p, todo, rfl, hcur, -⟩ := (Worker.inv_reachable hw).running hctl
    have hcur' : m.currConn = some p := hcur
    have hmem : m.Mapped p := hl.mapped_iff.mpr (.inl hpt.mem)
    cases op with
    | co op =>
      simp only [hcur', hcur, if_pos hmem]
      exact sim_coro hl hpt
    | _ => exact .none

/-! ### The start -/

/-- `init_conn_queue` and `init_conn_ctx_cache`, whatever was in the two list heads. -/
theorem sim_init (heads : ListId → Link Node) (heap : Ptr → Conn) (mem : Ptr → ℕ → Byte)
    (junk : Ptr → Link Node) (outs : List (Option Ptr)) :
    Option.Rel Sim (init heads heap mem junk outs) (Worker.init heap mem outs) := by
  obtain ⟨links, links', heq, heq', hs, hnode⟩ := (boot heads heap mem).lists.exists_initHeads rfl rfl
  let m : LinkedWorker := { boot heads heap mem with links := links }
  let ls : ListState := { m.lists with links := links' }
  have hl : (m.withLists ls).Lists [] [] := by
    refine ⟨hs, fun p hp => ?_, rfl⟩
    have hp' : (links'.node (.conn p)).isSome = true := hp
    rw [hnode] at hp'
    cases hp'
  have hholds : (m.withLists ls).Holds m.point .head (Worker.empty heap mem) := ⟨[], [], rfl, rfl, hl⟩
  have hfill := holds_fillConnCtxCache junk outs hholds
  have hqueue : (boot heads heap mem).initConnQueue = some m := by
    unfold initConnQueue onLists ListState.initConnQueue
    change Option.map _ (Option.bind (qlistHeadInit _ (boot heads heap mem).lists.links) _) = _
    rw [heq]
    rfl
  have hcache : m.initConnCtxCache junk outs =
      (ls.fillConnCtxCache (allocated junk outs)).bind (some ∘ (m.newConnCtxs outs).withLists) := by
    unfold initConnCtxCache
    rw [Option.map_eq_bind]
    change Option.bind (Option.bind (qlistHeadInit _ links) _) _ = _
    rw [heq']
    rfl
  have hw : Worker.init heap mem outs = ((Worker.empty heap mem).fillConnCtxCache outs).bind some :=
    (Option.bind_fun_some _).symm
  unfold init
  rw [hqueue, Option.bind_some, hcache, hw]
  refine rel_bind hfill ?_
  rintro ls w ⟨xs, ys, rfl, hpt, hl⟩
  exact .some ⟨xs, ys, .head, rfl, hl, hpt ▸ .head⟩

/-- A run from the start, which leads to a state that a worker with lists can get into. -/
theorem sim_run (heads : ListId → Link Node) (heap : Ptr → Conn) (mem : Ptr → ℕ → Byte)
    (junk : Ptr → Link Node) (outs : List (Option Ptr))
    (is : List ((Tick × Worker.WorkerOp) × (Ptr → Link Node))) :
    Option.Rel (fun m w => m.Sim w ∧ Worker.Reachable P w)
      ((init heads heap mem junk outs).bind fun m => run (step P) m is)
      ((Worker.init heap mem outs).bind fun w => run (Worker.step P) w (is.map Prod.fst)) := by
  let R : LinkedWorker → Worker → Prop := fun m w => m.Sim w ∧ Worker.Reachable P w
  have hstep : ∀ m w i, R m w → Option.Rel R (m.step P i) (w.step P i.1) := by
    rintro m w i ⟨hsim, hw⟩
    exact rel_imp (sim_step i hsim hw) fun _ _ _ hw' h => ⟨h, hw.step hw'⟩
  have hinit : Option.Rel R (init heads heap mem junk outs) (Worker.init heap mem outs) :=
    rel_imp (sim_init heads heap mem junk outs) fun _ _ _ hw h =>
      ⟨h, heap, mem, outs, _, [], hw, rfl⟩
  exact rel_bind hinit fun _ _ => rel_run hstep is

/-- **A worker with links and one with lists make the same runs**, on every heap, with every
pattern of allocation failures and whatever the memory holds that is allocated: a step is
possible for the one exactly when it is for the other, and all along the links represent the
queue and the cache, the pointers of the loop are at what it has still to visit, and the
contexts that are allocated are those in one of the lists. -/
theorem linked_refines (heads : ListId → Link Node) (heap : Ptr → Conn) (mem : Ptr → ℕ → Byte)
    (junk : Ptr → Link Node) (outs : List (Option Ptr))
    (is : List ((Tick × Worker.WorkerOp) × (Ptr → Link Node))) :
    Option.Rel Sim ((init heads heap mem junk outs).bind fun m => run (step P) m is)
      ((Worker.init heap mem outs).bind fun w => run (Worker.step P) w (is.map Prod.fst)) :=
  rel_imp (sim_run heads heap mem junk outs is) fun _ _ _ _ h => h.1

end LinkedWorker
end SrvAsync
