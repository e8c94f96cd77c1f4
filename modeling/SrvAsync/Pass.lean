import SrvAsync.Lists

/-!
# One pass over the queue

The loop of `handle_connections_routine` over the queue, link by link: `qlist_foreach_entry_safe`
with its two pointers, and the body, which resumes a connection, and removes and frees it when it
is completed.  The second pointer is loaded before the body, so the loop does not need the links
of a connection that is gone.

What a coroutine leaves behind when it switches back is a parameter here.  It works on `curr_conn`
only, so it changes no link.

## Main definitions

* `Outcome` — a connection when its coroutine switches back.
* `PassEvent`, `Pass` — what the loop does, and its state.
* `Pass.body`, `Pass.loop`, `ListState.pass` — the loop.
* `trace` — what the loop does on a queue.

## Main results

* `body_spec` — one round.
* `loop_spec` — the rounds from a connection on.
* `pass_each_once` — **a pass resumes every connection once and keeps those that go on**.
* `ListState.Refines.back` — the end of a round is the one of the worker.
-/

namespace SrvAsync

open ListState

/-- A connection when its coroutine switches back. -/
structure Outcome where
  isCompleted : Bool
  isActive : Bool
  deriving DecidableEq, Repr

/-- What the loop does. -/
inductive PassEvent
  /-- The successor of a node is loaded. -/
  | follow (a : Node)
  /-- A connection is resumed. -/
  | resume (p : Ptr)
  /-- It is removed from the queue. -/
  | remove (p : Ptr)
  /-- Its context is freed. -/
  | free (p : Ptr)
  deriving DecidableEq, Repr

/-- The connection that an event resumes. -/
def PassEvent.resumed : PassEvent → Option Ptr
  | resume p => some p
  | _ => none

/-- The state of the loop. -/
structure Pass where
  mem : ListState
  log : List PassEvent

namespace ListState

/-- `swap_to_conn_ctx`, until the coroutine switches back. -/
def swapToConnCtx (m : ListState) (out : Ptr → Outcome) (p : Ptr) : Option ListState :=
  if (m.links.node (.conn p)).isSome then
    some { m with
      currConn := some p
      isCompleted := Function.update m.isCompleted p (out p).isCompleted
      isActive := Function.update m.isActive p (out p).isActive
      activeConnCnt := m.activeConnCnt - (if m.isActive p then 1 else 0) +
        if (out p).isActive then 1 else 0
      inactiveConnCnt := m.inactiveConnCnt - (if m.isActive p then 0 else 1) +
        if (out p).isActive then 0 else 1 }
  else none

/-- The body of the loop behind `swap_to_conn_ctx`: a connection that is completed is removed and
freed. -/
def back (m : ListState) (p : Ptr) : Option ListState :=
  if m.isCompleted p then do
    let m ← m.removeConnFromQueue p
    m.freeConnCtx p
  else some m

end ListState

namespace Pass

/-- `qlist_first_entry` and `qlist_next_entry`, noted. -/
def nextEntry (s : Pass) (pos : Option Node) : Option (Option Node × Pass) := do
  let a ← pos
  let n ← qlistNextEntry (some a) s.mem.links
  return (n, { s with log := s.log ++ [.follow a] })

/-- The body of the loop, on an entry. -/
def body (s : Pass) (out : Ptr → Outcome) : Option Node → Option Pass
  | some (.conn p) => do
    let m ← s.mem.swapToConnCtx out p
    let m' ← m.back p
    return ⟨m', s.log ++ .resume p :: if m.isCompleted p then [.remove p, .free p] else []⟩
  | _ => none

/-- The rounds of `qlist_foreach_entry_safe`.  The number bounds them. -/
def loop (out : Ptr → Outcome) : ℕ → Option Node → Option Node → Pass → Option Pass
  | 0, _, _, _ => none
  | fuel + 1, pos, posN, s =>
    if pos = some (.head .queue) then some s
    else do
      let s ← s.body out pos
      let (posN', s) ← s.nextEntry posN
      loop out fuel posN posN' s

end Pass

/-- The pass of `handle_connections_routine` over the queue. -/
def ListState.pass (m : ListState) (out : Ptr → Outcome) (fuel : ℕ) : Option Pass := do
  let (pos, s) ← Pass.nextEntry ⟨m, []⟩ (some (.head .queue))
  let (posN, s) ← s.nextEntry pos
  Pass.loop out fuel pos posN s

/-! ### What a pass does -/

/-- Which connections go on. -/
def Outcome.goesOn (out : Ptr → Outcome) (p : Ptr) : Bool := !(out p).isCompleted

/-- `free_conn_ctx`, on the list of the cache and its length. -/
def recycle (c : ConnCtxCache) (p : Ptr) : ConnCtxCache :=
  if c.cnt < maxConnCtxCacheCnt then ⟨p :: c.qconnList, c.cnt + 1⟩ else c

/-- The node that the rest of a queue begins with. -/
def firstNode : List Ptr → Node
  | [] => .head .queue
  | p :: _ => .conn p

/-- What the loop does on the rest of a queue, beginning with the load from its first node. -/
def trace (out : Ptr → Outcome) : List Ptr → List PassEvent
  | [] => [.follow (.head .queue)]
  | p :: ps =>
    .follow (.conn p) :: .resume p ::
      ((if (out p).isCompleted then [.remove p, .free p] else []) ++ trace out ps)

/-- Every connection is resumed once, in the order of the queue. -/
theorem filterMap_resumed_trace (out : Ptr → Outcome) (ps : List Ptr) :
    (trace out ps).filterMap PassEvent.resumed = ps := by
  induction ps with
  | nil => rfl
  | cons p ps ih =>
    unfold trace
    split <;> simp [List.filterMap_cons, PassEvent.resumed, ih]

/-- What the loop does is about the rest of the queue. -/
theorem follow_mem_trace {out : Ptr → Outcome} {ps : List Ptr} {p : Ptr}
    (h : PassEvent.follow (.conn p) ∈ trace out ps) : p ∈ ps := by
  induction ps with
  | nil => simp [trace] at h
  | cons q ps ih =>
    unfold trace at h
    split at h <;> simp at h <;> grind

/-- **No link of a connection that was removed or freed is followed.** -/
theorem pairwise_trace (out : Ptr → Outcome) {ps : List Ptr} (hnodup : ps.Nodup) :
    (trace out ps).Pairwise fun e f =>
      ∀ p, e = .remove p ∨ e = .free p → f ≠ .follow (.conn p) := by
  induction ps with
  | nil => simp [trace]
  | cons q ps ih =>
    obtain ⟨hq, hps⟩ := List.nodup_cons.mp hnodup
    have hrest : ∀ f ∈ trace out ps, f ≠ .follow (.conn q) := by
      rintro f hf rfl
      exact hq (follow_mem_trace hf)
    unfold trace
    split
    · simp only [List.cons_append, List.nil_append, List.pairwise_cons]
      refine ⟨by simp, by simp, ?_, ?_, ih hps⟩
      · simpa using hrest
      · simpa using hrest
    · simpa using ih hps

/-! ### The rounds -/

variable {m : ListState} {A B xs ys : List Ptr} {p : Ptr}

/-- What `remove_conn_from_queue` and `free_conn_ctx` leave of the lists. -/
theorem back_spec (hs : Shape m.links (A ++ p :: B) ys) :
    ∃ m', m.back p = some m' ∧
      if m.isCompleted p then
        Shape m'.links (A ++ B) (recycle ⟨ys, m.cnt⟩ p).qconnList ∧
          m'.cnt = (recycle ⟨ys, m.cnt⟩ p).cnt
      else m' = m := by
  unfold ListState.back
  split
  · -- a connection that is removed stands at one place only
    have hp : p ∉ A := by
      intro hA
      exact List.disjoint_of_nodup_append hs.nodup_queue hA List.mem_cons_self
    obtain ⟨links, heq, hs', hspare⟩ := hs.delQueue (List.mem_append_right A List.mem_cons_self)
    rw [List.erase_append_right _ hp, List.erase_cons_head] at hs' hspare
    unfold ListState.removeConnFromQueue ListState.freeConnCtx recycle
    rw [heq]
    simp only [Option.bind_eq_bind, Option.bind_some, Option.pure_def]
    split
    · -- the context goes into the cache, or its memory is unmapped when the cache is full
      obtain ⟨links', heq', hs'', -⟩ := hs'.addCache hspare
      rw [heq']
      exact ⟨_, rfl, hs'', rfl⟩
    · unfold ListState.freeConnCtxMem
      rw [Links.free_eq hspare.isSome]
      exact ⟨_, rfl, hs'.update hspare.queue hspare.cache none, rfl⟩
  · exact ⟨m, rfl, rfl⟩

/-- A coroutine changes no link. -/
theorem swapToConnCtx_spec (out : Ptr → Outcome) (hnode : (m.links.node (.conn p)).isSome = true) :
    ∃ m', m.swapToConnCtx out p = some m' ∧ m'.links = m.links ∧ m'.cnt = m.cnt ∧
      m'.isCompleted p = (out p).isCompleted :=
  ⟨_, if_pos hnode, rfl, rfl, Function.update_self _ _ _⟩

/-- **One round.** -/
theorem body_spec {s : Pass} (out : Ptr → Outcome) (hs : Shape s.mem.links (A ++ p :: B) ys) :
    ∃ s', s.body out (some (.conn p)) = some s' ∧
      s'.log = s.log ++ .resume p :: (if (out p).isCompleted then [.remove p, .free p] else []) ∧
      Shape s'.mem.links (A ++ [p].filter (Outcome.goesOn out) ++ B)
        (([p].filter fun p => (out p).isCompleted).foldl recycle ⟨ys, s.mem.cnt⟩).qconnList ∧
      s'.mem.cnt = (([p].filter fun p => (out p).isCompleted).foldl recycle ⟨ys, s.mem.cnt⟩).cnt := by
  have hmem : Node.conn p ∈ nodes (A ++ p :: B) ys .queue := conn_mem_map.mpr (by simp)
  have hnode := (hs.ring .queue).isSome_node (List.mem_cons_of_mem _ hmem)
  obtain ⟨m, hm, hlinks, hcnt, hcomp⟩ := swapToConnCtx_spec out hnode
  rw [← hlinks] at hs
  obtain ⟨m', hback, hspec⟩ := back_spec hs
  rw [hcomp, hcnt] at hspec
  refine ⟨⟨m', s.log ++ .resume p :: if m.isCompleted p then [.remove p, .free p] else []⟩, ?_, ?_, ?_⟩
  · show (s.mem.swapToConnCtx out p).bind _ = _
    rw [hm]
    show (m.back p).bind _ = _
    rw [hback]
    rfl
  · rw [hcomp]
  · cases hc : (out p).isCompleted with
    | true =>
      rw [hc, if_pos rfl] at hspec
      simpa [Outcome.goesOn, hc] using hspec
    | false =>
      rw [hc, if_neg Bool.false_ne_true] at hspec
      subst hspec
      simpa [Outcome.goesOn, hc, hcnt] using hs

/-- The first node of the rest of the queue, in the ring. -/
theorem exists_firstNode (hs : Shape m.links (A ++ B) ys) :
    firstNode B ∈ Node.head .queue :: nodes (A ++ B) ys .queue := by
  cases B with
  | nil => exact List.mem_cons_self
  | cons q B => exact List.mem_cons_of_mem _ (conn_mem_map.mpr (by simp))

/-- The successor of a connection of the queue. -/
theorem next_conn (hs : Shape m.links (A ++ p :: B) ys) :
    m.links.next (.conn p) = some (firstNode B) := by
  have hr := hs.ring .queue
  have hnodes : nodes (A ++ p :: B) ys .queue = A.map .conn ++ .conn p :: B.map .conn := by
    simp [nodes]
  rw [hnodes] at hr
  obtain ⟨-, -, n, J, -, hJ, -, hn⟩ := hr.exists_neighbours
  rw [hn]
  cases B with
  | nil => exact congrArg some (List.cons.inj hJ).1.symm
  | cons q B => exact congrArg some (List.cons.inj hJ).1.symm

/-- The loads of the loop. -/
theorem nextEntry_eq {s : Pass} {a : Node} (ha : (s.mem.links.node a).isSome = true) :
    s.nextEntry (some a) = some (s.mem.links.next a, { s with log := s.log ++ [.follow a] }) := by
  show ((s.mem.links.load (some a)).bind _).bind _ = _
  rw [load_eq ha]
  rfl

/-- **The rounds from a connection on.**  By induction on the rest of the queue: the first pointer
is at its first node, and the second one is where that node leads to. -/
theorem loop_spec {fuel : ℕ} {s : Pass} {L : List PassEvent} (out : Ptr → Outcome)
    (hs : Shape s.mem.links (A ++ B) ys) (hf : B.length < fuel)
    (hlog : s.log = L ++ [.follow (firstNode B)]) :
    ∃ s', Pass.loop out fuel (some (firstNode B)) (s.mem.links.next (firstNode B)) s = some s' ∧
      s'.log = L ++ trace out B ∧
      Shape s'.mem.links (A ++ B.filter (Outcome.goesOn out))
        ((B.filter fun p => (out p).isCompleted).foldl recycle ⟨ys, s.mem.cnt⟩).qconnList ∧
      s'.mem.cnt = ((B.filter fun p => (out p).isCompleted).foldl recycle ⟨ys, s.mem.cnt⟩).cnt := by
  induction B generalizing A ys fuel s L with
  | nil =>
    obtain ⟨fuel, rfl⟩ := Nat.exists_eq_succ_of_ne_zero (Nat.ne_of_gt hf)
    exact ⟨s, if_pos rfl, hlog, hs, rfl⟩
  | cons p B ih =>
    obtain ⟨fuel, rfl⟩ := Nat.exists_eq_succ_of_ne_zero (Nat.ne_of_gt (Nat.zero_lt_of_lt hf))
    obtain ⟨s₁, hbody, hlog₁, hs₁, hcnt₁⟩ := body_spec out hs
    have hnext : s.mem.links.next (firstNode (p :: B)) = some (firstNode B) := next_conn hs
    -- the node that was saved before the round is still in the ring
    have hnode := (hs₁.ring .queue).isSome_node (exists_firstNode hs₁)
    let s₂ : Pass := { s₁ with log := s₁.log ++ [.follow (firstNode B)] }
    have hlog₂ : s₂.log = (L ++ .follow (.conn p) :: .resume p ::
        (if (out p).isCompleted then [.remove p, .free p] else [])) ++ [.follow (firstNode B)] := by
      show s₁.log ++ _ = _
      rw [hlog₁, hlog]
      simp [firstNode]
    obtain ⟨s', hloop, hlog', hs', hcnt'⟩ := ih (s := s₂) hs₁ (by simpa using hf) hlog₂
    -- the rounds behind this one go on with its cache
    have hcache : (p :: B).filter (fun p => (out p).isCompleted) =
        [p].filter (fun p => (out p).isCompleted) ++ B.filter fun p => (out p).isCompleted :=
      List.filter_append [p] B
    have hkeep : (p :: B).filter (Outcome.goesOn out) =
        [p].filter (Outcome.goesOn out) ++ B.filter (Outcome.goesOn out) :=
      List.filter_append [p] B
    have hrec : s₂.mem.cnt =
        (([p].filter fun p => (out p).isCompleted).foldl recycle ⟨ys, s.mem.cnt⟩).cnt := hcnt₁
    rw [hrec] at hs' hcnt'
    refine ⟨s', ?_, ?_, ?_, ?_⟩
    · rw [hnext]
      show (if _ then _ else (s.body out (some (.conn p))).bind _) = _
      rw [if_neg (by simp [firstNode]), hbody]
      show (s₁.nextEntry (some (firstNode B))).bind _ = _
      rw [nextEntry_eq hnode]
      exact hloop
    · rw [hlog']
      simp [trace]
    · rw [hkeep, hcache, List.foldl_append, ← List.append_assoc]
      exact hs'
    · rw [hcache, List.foldl_append]
      exact hcnt'

/-- **A pass**, from the first load on. -/
theorem pass_spec (out : Ptr → Outcome) (hs : Shape m.links xs ys) {fuel : ℕ} (hf : xs.length < fuel) :
    ∃ s, m.pass out fuel = some s ∧ s.log = .follow (.head .queue) :: trace out xs ∧
      Shape s.mem.links (xs.filter (Outcome.goesOn out))
        ((xs.filter fun p => (out p).isCompleted).foldl recycle ⟨ys, m.cnt⟩).qconnList ∧
      s.mem.cnt = ((xs.filter fun p => (out p).isCompleted).foldl recycle ⟨ys, m.cnt⟩).cnt := by
  have hs₀ : Shape m.links ([] ++ xs) ys := hs
  have hfirst : m.links.next (.head .queue) = some (firstNode xs) := by
    have hnext := (hs.ring .queue).next
    cases xs with
    | nil => exact (List.cons.inj hnext).1
    | cons p xs => exact (List.cons.inj hnext).1
  have hhead := (hs.ring .queue).isSome_node List.mem_cons_self
  have hnode := (hs.ring .queue).isSome_node (exists_firstNode hs₀)
  let s₀ : Pass := ⟨m, [.follow (.head .queue)] ++ [.follow (firstNode xs)]⟩
  obtain ⟨s, hloop, hlog, hs', hcnt⟩ := loop_spec (s := s₀) out hs₀ hf rfl
  refine ⟨s, ?_, hlog, hs', hcnt⟩
  show (Pass.nextEntry ⟨m, []⟩ (some (.head .queue))).bind _ = _
  rw [nextEntry_eq hhead]
  show (Pass.nextEntry ⟨m, [.follow (.head .queue)]⟩ (m.links.next (.head .queue))).bind _ = _
  rw [hfirst, nextEntry_eq hnode]
  exact hloop

/-- **A pass resumes every connection once and keeps those that go on.**  The loop ends; the
connections of the queue are resumed in its order; no link of a connection that was removed or
freed is followed; and the links represent the connections that are not completed, in the order
they had. -/
theorem pass_each_once (m : ListState) (xs ys : List Ptr) (out : Ptr → Outcome) (fuel : ℕ)
    (hs : Shape m.links xs ys) (hf : xs.length < fuel) :
    ∃ s, m.pass out fuel = some s ∧ s.log.filterMap PassEvent.resumed = xs ∧
      (s.log.Pairwise fun e f => ∀ p, e = .remove p ∨ e = .free p → f ≠ .follow (.conn p)) ∧
      s.mem.links.Ring (.head .queue) ((xs.filter fun p => !(out p).isCompleted).map .conn) ∧
      ∃ ys', Shape s.mem.links (xs.filter fun p => !(out p).isCompleted) ys' := by
  obtain ⟨s, hpass, hlog, hs', -⟩ := pass_spec out hs hf
  refine ⟨s, hpass, ?_, ?_, hs'.ring .queue, _, hs'⟩
  · rw [hlog]
    exact filterMap_resumed_trace out xs
  · rw [hlog, List.pairwise_cons]
    exact ⟨by simp, pairwise_trace out hs.nodup_queue⟩

/-- Two connections in the queue, and an empty cache. -/
def pairState : ListState :=
  ⟨⟨fun a => match a with
    | .head .queue => some ⟨some (.conn 8), some (.conn 7)⟩
    | .head .cache => some ⟨some (.head .cache), some (.head .cache)⟩
    | .conn p =>
      if p = 7 then some ⟨some (.head .queue), some (.conn 8)⟩
      else if p = 8 then some ⟨some (.conn 7), some (.head .queue)⟩
      else none⟩,
    fun _ => true, fun _ => false, none, 2, 0, 0⟩

theorem shape_pairState : Shape pairState.links [7, 8] [] where
  ring := fun i => by
    cases i <;> exact ⟨by decide, by decide, by decide⟩
  apart := by
    rintro (_ | _) (_ | _) hij <;> simp [nodes] at hij ⊢

/-- The first of them is completed. -/
theorem pass_each_once_pair :
    ∃ s, pairState.pass (fun p => ⟨decide (p = 7), true⟩) 3 = some s ∧
      s.log.filterMap PassEvent.resumed = [7, 8] ∧
      s.mem.links.Ring (.head .queue) [.conn 8] := by
  obtain ⟨s, hpass, hresumed, -, hring, -⟩ := pass_each_once pairState [7, 8] []
    (fun p => ⟨decide (p = 7), true⟩) 3 shape_pairState (by decide)
  exact ⟨s, hpass, hresumed, hring⟩

/-! ### The pass of a worker -/

/-- **The end of a round is the one of the worker.** -/
theorem ListState.Refines.back {w : Worker} (hm : Refines m w) (hp : p ∈ w.queue.qconnList) (now : Time)
    (todo : List Ptr) :
    ∃ m', m.back p = some m' ∧ Refines m' (w.swappedBack now p todo) := by
  let w₁ : Worker := { w with queue := { w.queue with lastCtxSwap := now }, phase := .pass todo }
  have hm₁ : Refines m w₁ :=
    { lists := hm.lists, isActive := hm.isActive, isCompleted := hm.isCompleted
      currConn := hm.currConn, activeConnCnt := hm.activeConnCnt
      inactiveConnCnt := hm.inactiveConnCnt, cnt := hm.cnt, length := hm.length }
  have hback : w.swappedBack now p todo =
      if (w₁.heap p).isCompleted then (w₁.removeConnFromQueue p).freeConnCtx p else w₁ := rfl
  rw [hback]
  unfold ListState.back
  rw [hm₁.isCompleted p]
  split
  · obtain ⟨m₂, heq, hm₂, hfree⟩ := hm₁.removeConnFromQueue hp
    obtain ⟨m', heq', hm'⟩ := hm₂.freeConnCtx hfree
    refine ⟨m', ?_, hm'⟩
    rw [heq]
    exact heq'
  · exact ⟨m, rfl, hm₁⟩

end SrvAsync
