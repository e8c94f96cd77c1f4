import SrvAsync.Qlist
import SrvAsync.Routines

/-!
# The lists of a worker, link by link

The functions of `srv_conn_ctxt.c` that work on the queue and on the cache, with the links they
load and store.  The list heads are part of `p_conn_queue` and `p_conn_ctx_cache`, and a
connection carries one `qlist` field, so it can be in one of the two lists at a time, and in
none between two of these functions.

`Worker` keeps a list of addresses for each of them; `ListState.Refines` says that the links
represent these.

## Main definitions

* `Node`, `ListState` — the list fields, and what the functions read and write.
* `ListState.allocConnCtx`, `ListState.freeConnCtx`, `ListState.addConnToQueue`,
  `ListState.removeConnFromQueue` — the functions.
* `ListState.Shape`, `ListState.Refines` — the links represent a queue and a cache, and the lists
  of a worker.
* `CtxtOp` — a call of one of the functions.

## Main results

* `Refines.exec` — a call.
* `refines_run` — a sequence of calls.
* `qlist_refines` — **the intrusive list refines sequences**.
-/

namespace SrvAsync

/-- The two list heads of `srv_conn_ctxt.c`. -/
inductive ListId
  /-- `p_conn_queue.qconn_list`. -/
  | queue
  /-- `p_conn_ctx_cache.qconn_list`. -/
  | cache
  deriving DecidableEq, Repr

/-- Where there is a `struct qlist_head`. -/
inductive Node
  /-- A list head. -/
  | head (l : ListId)
  /-- The field `qlist` of a connection. -/
  | conn (p : Ptr)
  deriving DecidableEq, Repr

/-- What the list functions read and write of a worker. -/
structure ListState where
  links : Links Node
  isActive : Ptr → Bool
  isCompleted : Ptr → Bool
  currConn : Option Ptr
  activeConnCnt : ℤ
  inactiveConnCnt : ℤ
  cnt : ℤ

namespace ListState

/-! ### The cache of contexts -/

/-- `alloc_conn_ctx_mem`, when the allocator answers `p`, where the memory holds these links.
An address that is in use is not given again. -/
def allocConnCtxMem (m : ListState) (p : Ptr) (l : Link Node) : Option ListState := do
  let links ← m.links.alloc (.conn p) l
  return { m with links := links }

/-- `free_conn_ctx_mem`. -/
def freeConnCtxMem (m : ListState) (p : Ptr) : Option ListState := do
  let links ← m.links.free (.conn p)
  return { m with links := links }

/-- One round of `fill_conn_ctx_cache`. -/
def fillRound (m : ListState) : Option (Ptr × Link Node) → Option ListState
  | none => some m
  | some (p, l) => do
    let m ← m.allocConnCtxMem p l
    let links ← qlistAddHead (some (.head .cache)) (some (.conn p)) m.links
    return { m with links := links, cnt := m.cnt + 1 }

/-- `fill_conn_ctx_cache`, with the outcome of the allocation of every round. -/
def fillConnCtxCache (m : ListState) (outs : List (Option (Ptr × Link Node))) : Option ListState :=
  if (outs.length : ℤ) = minConnCtxCacheCnt - m.cnt then outs.foldlM fillRound m else none

/-- The first half of `alloc_conn_ctx`: an empty cache is filled. -/
def refillConnCtxCache (m : ListState) (outs : List (Option (Ptr × Link Node))) : Option ListState :=
  if m.cnt = 0 then m.fillConnCtxCache outs else if outs = [] then some m else none

/-- The second half of `alloc_conn_ctx`: the entry of the first node of the cache is taken. -/
def takeConnCtx (m : ListState) : Option (Option Node × ListState) :=
  if m.cnt = 0 then some (none, m)
  else do
    let conn ← qlistFirstEntry (some (.head .cache)) m.links
    let links ← qlistDelEntry conn m.links
    return (conn, { m with links := links, cnt := m.cnt - 1 })

/-- `alloc_conn_ctx`. -/
def allocConnCtx (m : ListState) (outs : List (Option (Ptr × Link Node))) :
    Option (Option Node × ListState) :=
  (m.refillConnCtxCache outs).bind takeConnCtx

/-- `free_conn_ctx`. -/
def freeConnCtx (m : ListState) (p : Ptr) : Option ListState :=
  if m.cnt < maxConnCtxCacheCnt then do
    let links ← qlistAddHead (some (.head .cache)) (some (.conn p)) m.links
    return { m with links := links, cnt := m.cnt + 1 }
  else m.freeConnCtxMem p

/-! ### The queue -/

/-- `add_conn_to_queue`. -/
def addConnToQueue (m : ListState) (p : Ptr) : Option ListState := do
  let links ← qlistAddHead (some (.head .queue)) (some (.conn p)) m.links
  return { m with
    links := links
    activeConnCnt := m.activeConnCnt + if m.isActive p then 1 else 0
    inactiveConnCnt := m.inactiveConnCnt + if m.isActive p then 0 else 1 }

/-- `remove_conn_from_queue`. -/
def removeConnFromQueue (m : ListState) (p : Ptr) : Option ListState := do
  let links ← qlistDelEntry (some (.conn p)) m.links
  return { m with
    links := links
    activeConnCnt := m.activeConnCnt - if m.isActive p then 1 else 0
    inactiveConnCnt := m.inactiveConnCnt - if m.isActive p then 0 else 1 }

/-! ### The start -/

/-- `init_conn_queue`. -/
def initConnQueue (m : ListState) : Option ListState := do
  let links ← qlistHeadInit (some (.head .queue)) m.links
  return { m with links := links, currConn := none, activeConnCnt := 0, inactiveConnCnt := 0 }

/-- `init_conn_ctx_cache`. -/
def initConnCtxCache (m : ListState) (outs : List (Option (Ptr × Link Node))) : Option ListState := do
  let links ← qlistHeadInit (some (.head .cache)) m.links
  { m with links := links, cnt := 0 }.fillConnCtxCache outs

/-! ### The queue and the cache together -/

/-- The nodes of the queue and of the cache. -/
def nodes (xs ys : List Ptr) : ListId → List Node
  | .queue => xs.map .conn
  | .cache => ys.map .conn

/-- **The links represent a queue and a cache.** -/
abbrev Shape (links : Links Node) (xs ys : List Ptr) : Prop := Represents links Node.head (nodes xs ys)

variable {links links' : Links Node} {xs ys : List Ptr} {p : Ptr}

theorem conn_mem_map {ps : List Ptr} : Node.conn p ∈ ps.map Node.conn ↔ p ∈ ps := by
  simp

/-- A node of a connection is the field of one connection. -/
theorem erase_map_conn (ps : List Ptr) (p : Ptr) :
    (ps.map Node.conn).erase (.conn p) = (ps.erase p).map Node.conn :=
  (List.map_erase (fun _ _ h => Node.conn.inj h) ps).symm

/-- A connection that is there and in neither list. -/
structure Spare (links : Links Node) (xs ys : List Ptr) (p : Ptr) : Prop where
  isSome : (links.node (.conn p)).isSome = true
  queue : p ∉ xs
  cache : p ∉ ys

/-- A connection that is in neither list has another node than these. -/
theorem not_mem_nodes (hx : p ∉ xs) (hy : p ∉ ys) (l : ListId) :
    Node.conn p ∉ .head l :: nodes xs ys l := by
  cases l with
  | queue => simpa [nodes] using hx
  | cache => simpa [nodes] using hy

theorem Shape.nodup_queue (hs : Shape links xs ys) : xs.Nodup :=
  (List.nodup_cons.mp (hs.ring .queue).nodup).2.of_map

theorem Shape.nodup_cache (hs : Shape links xs ys) : ys.Nodup :=
  (List.nodup_cons.mp (hs.ring .cache).nodup).2.of_map

/-- No connection is in both lists. -/
theorem Shape.disjoint (hs : Shape links xs ys) (hx : p ∈ xs) : p ∉ ys := fun hy =>
  hs.apart .queue .cache (by decide) (List.mem_cons_of_mem _ (conn_mem_map.mpr hx))
    (List.mem_cons_of_mem _ (conn_mem_map.mpr hy))

/-- `qlist_add_head` of a connection, to the list that makes these of the two. -/
theorem Shape.addHead {xs' ys' : List Ptr} (hs : Shape links xs ys) (hp : Spare links xs ys p)
    (l : ListId) (happly : ListOp.apply (nodes xs ys) (.addHead l (.conn p)) = nodes xs' ys') :
    ∃ links', qlistAddHead (some (.head l)) (some (.conn p)) links = some links' ∧
      Shape links' xs' ys' ∧ ∀ a, (links'.node a).isSome = (links.node a).isSome := by
  obtain ⟨links', heq, hrep, -, hsome⟩ := hs.exec (.addHead l (.conn p))
    ⟨hp.isSome, not_mem_nodes hp.queue hp.cache⟩
  rw [happly] at hrep
  exact ⟨links', heq, hrep, hsome⟩

/-- `qlist_add_head` to the queue. -/
theorem Shape.addQueue (hs : Shape links xs ys) (hp : Spare links xs ys p) :
    ∃ links', qlistAddHead (some (.head .queue)) (some (.conn p)) links = some links' ∧
      Shape links' (p :: xs) ys ∧ ∀ a, (links'.node a).isSome = (links.node a).isSome := by
  refine hs.addHead hp .queue ?_
  funext l
  cases l <;> rfl

/-- `qlist_add_head` to the cache. -/
theorem Shape.addCache (hs : Shape links xs ys) (hp : Spare links xs ys p) :
    ∃ links', qlistAddHead (some (.head .cache)) (some (.conn p)) links = some links' ∧
      Shape links' xs (p :: ys) ∧ ∀ a, (links'.node a).isSome = (links.node a).isSome := by
  refine hs.addHead hp .cache ?_
  funext l
  cases l <;> rfl

/-- `qlist_del_entry` of a connection that is in one of the lists, which leaves these two. -/
theorem Shape.del {xs' ys' : List Ptr} (hs : Shape links xs ys) {l : ListId}
    (hmem : Node.conn p ∈ nodes xs ys l) (hx : p ∉ xs') (hy : p ∉ ys')
    (happly : ListOp.apply (nodes xs ys) (.del (.conn p)) = nodes xs' ys') :
    ∃ links', qlistDelEntry (some (.conn p)) links = some links' ∧ Shape links' xs' ys' ∧
      Spare links' xs' ys' p := by
  obtain ⟨links', heq, hrep, -, hsome⟩ := hs.exec (.del (.conn p)) ⟨l, hmem⟩
  rw [happly] at hrep
  refine ⟨links', heq, hrep, ?_, hx, hy⟩
  rw [hsome]
  exact (hs.ring l).isSome_node (List.mem_cons_of_mem _ hmem)

/-- `qlist_del_entry` of a connection of the queue. -/
theorem Shape.delQueue (hs : Shape links xs ys) (hp : p ∈ xs) :
    ∃ links', qlistDelEntry (some (.conn p)) links = some links' ∧ Shape links' (xs.erase p) ys ∧
      Spare links' (xs.erase p) ys p := by
  have hmem : Node.conn p ∈ nodes xs ys .queue := conn_mem_map.mpr hp
  have hy := hs.disjoint hp
  refine hs.del hmem hs.nodup_queue.not_mem_erase hy ?_
  funext l
  cases l with
  | queue => exact erase_map_conn xs p
  | cache => exact List.erase_of_not_mem fun hc => hy (conn_mem_map.mp hc)

/-- `qlist_del_entry` of a context of the cache. -/
theorem Shape.delCache (hs : Shape links xs ys) (hp : p ∈ ys) :
    ∃ links', qlistDelEntry (some (.conn p)) links = some links' ∧ Shape links' xs (ys.erase p) ∧
      Spare links' xs (ys.erase p) p := by
  have hmem : Node.conn p ∈ nodes xs ys .cache := conn_mem_map.mpr hp
  have hx : p ∉ xs := fun hx => hs.disjoint hx hp
  refine hs.del hmem hx hs.nodup_cache.not_mem_erase ?_
  funext l
  cases l with
  | queue => exact List.erase_of_not_mem fun hq => hx (conn_mem_map.mp hq)
  | cache => exact erase_map_conn ys p

/-- The lists are not changed by what happens to a node that is in neither. -/
theorem Shape.update (hs : Shape links xs ys) (hx : p ∉ xs) (hy : p ∉ ys) (l : Option (Link Node)) :
    Shape ⟨Function.update links.node (.conn p) l⟩ xs ys where
  ring := fun i => (hs.ring i).congr fun a ha => by
    refine Function.update_of_ne ?_ _ _
    rintro rfl
    exact not_mem_nodes hx hy i ha
  apart := hs.apart

/-! ### The lists of a worker -/

/-- **The links represent the lists of a worker**, and the rest is the same. -/
structure Refines (m : ListState) (w : Worker) : Prop where
  lists : Shape m.links w.queue.qconnList w.cache.qconnList
  isActive : ∀ p, m.isActive p = (w.heap p).isActive
  isCompleted : ∀ p, m.isCompleted p = (w.heap p).isCompleted
  currConn : m.currConn = w.queue.currConn
  activeConnCnt : m.activeConnCnt = w.queue.activeConnCnt
  inactiveConnCnt : m.inactiveConnCnt = w.queue.inactiveConnCnt
  cnt : m.cnt = w.cache.cnt
  length : w.cache.cnt = w.cache.qconnList.length

/-- A connection that is in neither list of a worker. -/
abbrev Free (m : ListState) (w : Worker) (p : Ptr) : Prop :=
  Spare m.links w.queue.qconnList w.cache.qconnList p

variable {m : ListState} {w : Worker}

/-- `add_conn_to_queue`. -/
theorem Refines.addConnToQueue (hm : Refines m w) (hp : Free m w p) :
    ∃ m', m.addConnToQueue p = some m' ∧ Refines m' (w.addConnToQueue p) := by
  obtain ⟨links, heq, hs, -⟩ := hm.lists.addQueue hp
  unfold ListState.addConnToQueue
  rw [heq]
  exact ⟨_, rfl,
    { hm with
      lists := hs
      activeConnCnt := by simp [Worker.addConnToQueue, hm.isActive, hm.activeConnCnt]
      inactiveConnCnt := by simp [Worker.addConnToQueue, hm.isActive, hm.inactiveConnCnt] }⟩

/-- `remove_conn_from_queue`. -/
theorem Refines.removeConnFromQueue (hm : Refines m w) (hp : p ∈ w.queue.qconnList) :
    ∃ m', m.removeConnFromQueue p = some m' ∧ Refines m' (w.removeConnFromQueue p) ∧
      Free m' (w.removeConnFromQueue p) p := by
  obtain ⟨links, heq, hs, hfree⟩ := hm.lists.delQueue hp
  unfold ListState.removeConnFromQueue
  rw [heq]
  refine ⟨_, rfl, ?_, hfree⟩
  exact
    { hm with
      lists := hs
      activeConnCnt := by simp [Worker.removeConnFromQueue, hm.isActive, hm.activeConnCnt]
      inactiveConnCnt := by simp [Worker.removeConnFromQueue, hm.isActive, hm.inactiveConnCnt] }

/-- The cache with one more context. -/
theorem Refines.pushCache (hm : Refines m w) (hp : Free m w p) :
    ∃ links, qlistAddHead (some (.head .cache)) (some (.conn p)) m.links = some links ∧
      Refines { m with links := links, cnt := m.cnt + 1 }
        { w with cache := ⟨p :: w.cache.qconnList, w.cache.cnt + 1⟩ } ∧
      ∀ a, (links.node a).isSome = (m.links.node a).isSome := by
  obtain ⟨links, heq, hs, hsome⟩ := hm.lists.addCache hp
  exact ⟨links, heq,
    { hm with
      lists := hs
      cnt := congrArg (· + 1) hm.cnt
      length := by simp [hm.length] }, hsome⟩

/-- `free_conn_ctx`. -/
theorem Refines.freeConnCtx (hm : Refines m w) (hp : Free m w p) :
    ∃ m', m.freeConnCtx p = some m' ∧ Refines m' (w.freeConnCtx p) := by
  unfold ListState.freeConnCtx Worker.freeConnCtx
  rw [hm.cnt]
  split
  · obtain ⟨links, heq, hm', -⟩ := hm.pushCache hp
    rw [heq]
    rw [hm.cnt] at hm'
    exact ⟨_, rfl, hm'⟩
  · unfold freeConnCtxMem
    rw [Links.free_eq hp.isSome]
    exact ⟨_, rfl, { hm with lists := hm.lists.update hp.queue hp.cache none }⟩

/-- The address of no node is in no list. -/
theorem Refines.not_mem (hm : Refines m w) (hp : m.links.node (.conn p) = none) :
    p ∉ w.queue.qconnList ∧ p ∉ w.cache.qconnList := by
  have hno : ∀ l, Node.conn p ∉ nodes w.queue.qconnList w.cache.qconnList l := by
    intro l hmem
    have hsome := (hm.lists.ring l).isSome_node (List.mem_cons_of_mem _ hmem)
    rw [hp] at hsome
    cases hsome
  exact ⟨fun h => hno .queue (conn_mem_map.mpr h), fun h => hno .cache (conn_mem_map.mpr h)⟩

/-- One round of `fill_conn_ctx_cache` with an allocation that succeeds. -/
theorem Refines.fillRound (hm : Refines m w) (hp : m.links.node (.conn p) = none) (l : Link Node) :
    ∃ m' w', m.fillRound (some (p, l)) = some m' ∧ w.fillRound (some p) = some w' ∧ Refines m' w' ∧
      ∀ q, q ≠ p → (m'.links.node (.conn q)).isSome = (m.links.node (.conn q)).isSome := by
  obtain ⟨hq, hc⟩ := hm.not_mem hp
  let m₁ : ListState := { m with links := ⟨Function.update m.links.node (.conn p) (some l)⟩ }
  -- a node that no list has may hold anything
  have hm₁ : Refines m₁ (w.allocConnCtxMem p) := by
    refine { hm with lists := hm.lists.update hq hc (some l), isActive := ?_, isCompleted := ?_ }
    · intro q
      by_cases hqp : q = p
      · subst hqp
        simpa [Worker.allocConnCtxMem] using hm.isActive q
      · simpa [Worker.allocConnCtxMem, hqp] using hm.isActive q
    · intro q
      by_cases hqp : q = p
      · subst hqp
        simpa [Worker.allocConnCtxMem] using hm.isCompleted q
      · simpa [Worker.allocConnCtxMem, hqp] using hm.isCompleted q
  have hfree : Free m₁ (w.allocConnCtxMem p) p := ⟨by simp [m₁], hq, hc⟩
  obtain ⟨links, heq, hm', hsome⟩ := hm₁.pushCache hfree
  refine ⟨_, _, ?_, ?_, hm', fun q hqp => ?_⟩
  · simp only [ListState.fillRound, ListState.allocConnCtxMem, Links.alloc_eq l hp]
    show (qlistAddHead _ _ m₁.links).bind _ = _
    rw [heq]
    rfl
  · exact if_neg (not_or.mpr ⟨hq, hc⟩)
  · rw [hsome]
    show (Function.update m.links.node (.conn p) (some l) (.conn q)).isSome = _
    rw [Function.update_of_ne fun h => hqp (Node.conn.inj h)]

/-- The allocator gives addresses that are not in use, and each once. -/
structure Fresh (m : ListState) (outs : List (Option (Ptr × Link Node))) : Prop where
  nodup : (outs.reduceOption.map Prod.fst).Nodup
  node : ∀ p ∈ outs.reduceOption.map Prod.fst, m.links.node (.conn p) = none

/-- The rounds of `fill_conn_ctx_cache`. -/
theorem Refines.foldlM_fillRound {outs : List (Option (Ptr × Link Node))} (hm : Refines m w)
    (hf : Fresh m outs) :
    ∃ m' w', outs.foldlM ListState.fillRound m = some m' ∧
      (outs.map (Option.map Prod.fst)).foldlM Worker.fillRound w = some w' ∧ Refines m' w' := by
  induction outs generalizing m w with
  | nil => exact ⟨m, w, rfl, rfl, hm⟩
  | cons out outs ih =>
    cases out with
    | none => exact ih hm ⟨hf.nodup, hf.node⟩
    | some pl =>
      obtain ⟨p, l⟩ := pl
      obtain ⟨hnot, hnodup⟩ := List.nodup_cons.mp hf.nodup
      obtain ⟨m₁, w₁, heq, hweq, hm₁, hsome⟩ := hm.fillRound (hf.node p List.mem_cons_self) l
      -- the addresses that are still to come are not this one
      have hf₁ : Fresh m₁ outs := by
        refine ⟨hnodup, fun q hq => ?_⟩
        have hqp : q ≠ p := by
          rintro rfl
          exact hnot hq
        have hnode := hf.node q (List.mem_cons_of_mem p hq)
        have hq' := hsome q hqp
        rw [hnode] at hq'
        exact Option.not_isSome_iff_eq_none.mp (by simp [hq'])
      obtain ⟨m', w', heq', hweq', hm'⟩ := ih hm₁ hf₁
      refine ⟨m', w', ?_, ?_, hm'⟩
      · rw [List.foldlM_cons, heq]
        exact heq'
      · rw [List.map_cons, List.foldlM_cons]
        show (w.fillRound (some p)).bind _ = _
        rw [hweq]
        exact hweq'

/-- The first half of `alloc_conn_ctx`. -/
theorem Refines.refillConnCtxCache {outs : List (Option (Ptr × Link Node))} {w' : Worker}
    (hm : Refines m w) (hf : Fresh m outs)
    (hw : w.refillConnCtxCache (outs.map (Option.map Prod.fst)) = some w') :
    ∃ m', m.refillConnCtxCache outs = some m' ∧ Refines m' w' := by
  unfold Worker.refillConnCtxCache Worker.fillConnCtxCache at hw
  simp only [List.length_map, List.map_eq_nil_iff] at hw
  unfold ListState.refillConnCtxCache ListState.fillConnCtxCache
  rw [hm.cnt]
  by_cases hcnt : w.cache.cnt = 0
  · rw [if_pos hcnt] at hw ⊢
    by_cases hlen : (outs.length : ℤ) = minConnCtxCacheCnt - w.cache.cnt
    · rw [if_pos hlen] at hw ⊢
      obtain ⟨m', w₁, heq, hweq, hm'⟩ := hm.foldlM_fillRound hf
      obtain rfl := Option.some.inj (hw.symm.trans hweq)
      exact ⟨m', heq, hm'⟩
    · rw [if_neg hlen] at hw
      cases hw
  · rw [if_neg hcnt] at hw ⊢
    by_cases hnil : outs = []
    · rw [if_pos hnil] at hw ⊢
      obtain rfl := Option.some.inj hw
      exact ⟨m, rfl, hm⟩
    · rw [if_neg hnil] at hw
      cases hw

/-- The second half of `alloc_conn_ctx`. -/
theorem Refines.takeConnCtx (hm : Refines m w) :
    ∃ m', m.takeConnCtx = some (w.takeConnCtx.1.map Node.conn, m') ∧ Refines m' w.takeConnCtx.2 ∧
      ∀ p, w.takeConnCtx.1 = some p → Free m' w.takeConnCtx.2 p := by
  unfold ListState.takeConnCtx Worker.takeConnCtx
  rw [hm.cnt]
  by_cases hcnt : w.cache.cnt = 0
  · rw [if_pos hcnt, if_pos hcnt]
    exact ⟨m, rfl, hm, fun p hp => by cases hp⟩
  · rw [if_neg hcnt, if_neg hcnt]
    have hlen := hm.length
    have hring := hm.lists.ring .cache
    cases hcache : w.cache.qconnList with
    -- the count is the length of the list, so it is not empty
    | nil =>
      rw [hcache] at hlen
      exact absurd hlen hcnt
    | cons p ps =>
      have hlists := hm.lists
      rw [hcache] at hlists
      have hfirst : m.links.next (.head .cache) = some (.conn p) :=
        (List.cons.inj (hlists.ring .cache).next).1
      obtain ⟨links, heq, hs, hfree⟩ := hlists.delCache List.mem_cons_self
      rw [List.erase_cons_head] at hs hfree
      refine ⟨{ m with links := links, cnt := w.cache.cnt - 1 }, ?_, ?_, ?_⟩
      · unfold qlistFirstEntry
        rw [load_eq (hring.isSome_node List.mem_cons_self), hfirst]
        show (qlistDelEntry _ _).bind _ = _
        rw [heq]
        rfl
      · refine { hm with lists := hs, cnt := rfl, length := ?_ }
        show w.cache.cnt - 1 = ps.length
        rw [hlen, hcache]
        simp
      · rintro q hq
        obtain rfl := Option.some.inj hq
        exact hfree

/-- **`alloc_conn_ctx`.** -/
theorem Refines.allocConnCtx {outs : List (Option (Ptr × Link Node))} {w' : Worker}
    (hm : Refines m w) (hf : Fresh m outs)
    (hw : w.refillConnCtxCache (outs.map (Option.map Prod.fst)) = some w') :
    ∃ m', m.allocConnCtx outs = some (w'.takeConnCtx.1.map Node.conn, m') ∧
      Refines m' w'.takeConnCtx.2 ∧ ∀ p, w'.takeConnCtx.1 = some p → Free m' w'.takeConnCtx.2 p := by
  obtain ⟨m₁, heq, hm₁⟩ := hm.refillConnCtxCache hf hw
  unfold ListState.allocConnCtx
  rw [heq]
  exact hm₁.takeConnCtx

/-- `init_conn_queue` and the list head of `init_conn_ctx_cache`. -/
theorem exists_initHeads (m : ListState) (hq : (m.links.node (.head .queue)).isSome = true)
    (hc : (m.links.node (.head .cache)).isSome = true) :
    ∃ links links', qlistHeadInit (some (.head .queue)) m.links = some links ∧
      qlistHeadInit (some (.head .cache)) links = some links' ∧
      Shape links' [] [] ∧
      ∀ p, (links'.node (.conn p)) = m.links.node (.conn p) := by
  obtain ⟨links, heq, hring, hw⟩ := qlistHeadInit_spec hq
  have hc' : (links.node (.head .cache)).isSome = true := by rw [hw.isSome, hc]
  obtain ⟨links', heq', hring', hw'⟩ := qlistHeadInit_spec hc'
  refine ⟨links, links', heq, heq', ⟨?_, ?_⟩, fun p => ?_⟩
  · rintro (_ | _)
    · exact hring.within hw' (by simp)
    · exact hring'
  · rintro (_ | _) (_ | _) hij <;> simp [nodes] at hij ⊢
  · rw [hw'.node _ (by simp), hw.node _ (by simp)]

/-! ### Sequences of calls -/

end ListState

/-- A call of one of the functions. -/
inductive CtxtOp
  /-- `fill_conn_ctx_cache`. -/
  | fill (outs : List (Option (Ptr × Link Node)))
  /-- `alloc_conn_ctx`. -/
  | alloc (outs : List (Option (Ptr × Link Node)))
  /-- `free_conn_ctx`. -/
  | free (p : Ptr)
  /-- `add_conn_to_queue`. -/
  | add (p : Ptr)
  /-- `remove_conn_from_queue`. -/
  | remove (p : Ptr)

namespace CtxtOp

open ListState

/-- The call, on the links. -/
def exec (m : ListState) : CtxtOp → Option ListState
  | fill outs => m.fillConnCtxCache outs
  | alloc outs => (m.allocConnCtx outs).map Prod.snd
  | free p => m.freeConnCtx p
  | add p => m.addConnToQueue p
  | remove p => m.removeConnFromQueue p

/-- The call, on the lists. -/
def apply (w : Worker) : CtxtOp → Option Worker
  | fill outs => w.fillConnCtxCache (outs.map (Option.map Prod.fst))
  | alloc outs =>
    (w.refillConnCtxCache (outs.map (Option.map Prod.fst))).map fun w => w.takeConnCtx.2
  | free p => some (w.freeConnCtx p)
  | add p => some (w.addConnToQueue p)
  | remove p => some (w.removeConnFromQueue p)

/-- The allocator gives addresses that are not in use, one outcome for each round; a context that
is freed or added to the queue is in neither list, and one that is removed is in the queue. -/
def Allowed (m : ListState) (w : Worker) : CtxtOp → Prop
  | fill outs => Fresh m outs ∧ (outs.length : ℤ) = minConnCtxCacheCnt - w.cache.cnt
  | alloc outs =>
    Fresh m outs ∧ if w.cache.cnt = 0 then (outs.length : ℤ) = minConnCtxCacheCnt else outs = []
  | free p => Free m w p
  | add p => Free m w p
  | remove p => p ∈ w.queue.qconnList

/-- Every call of a sequence is allowed where it stands. -/
def AllowedAll (m : ListState) (w : Worker) : List CtxtOp → Prop
  | [] => True
  | op :: ops =>
    op.Allowed m w ∧ ∀ m' w', op.exec m = some m' → op.apply w = some w' → AllowedAll m' w' ops

variable {m : ListState} {w : Worker} {op : CtxtOp}

/-- The outcomes are as many as `alloc_conn_ctx` asks for. -/
theorem isSome_refillConnCtxCache {outs : List (Option (Ptr × Link Node))} (hm : Refines m w)
    (hop : (alloc outs).Allowed m w) :
    ∃ w', w.refillConnCtxCache (outs.map (Option.map Prod.fst)) = some w' := by
  obtain ⟨hf, hlen⟩ := hop
  unfold Worker.refillConnCtxCache Worker.fillConnCtxCache
  by_cases hcnt : w.cache.cnt = 0
  · rw [if_pos hcnt] at hlen
    rw [if_pos hcnt, hcnt, List.length_map, if_pos (by rw [hlen, sub_zero])]
    obtain ⟨-, w', -, hw', -⟩ := hm.foldlM_fillRound hf
    exact ⟨w', hw'⟩
  · rw [if_neg hcnt] at hlen
    subst hlen
    exact ⟨w, by simp [hcnt]⟩

/-- **A call.** -/
theorem refines_exec (hm : Refines m w) (hop : op.Allowed m w) :
    ∃ m' w', op.exec m = some m' ∧ op.apply w = some w' ∧ Refines m' w' := by
  cases op with
  | fill outs =>
    obtain ⟨hf, hlen⟩ := hop
    obtain ⟨m', w', heq, hweq, hm'⟩ := hm.foldlM_fillRound hf
    refine ⟨m', w', ?_, ?_, hm'⟩
    · exact (if_pos (by rw [hlen, hm.cnt])).trans heq
    · exact (if_pos (by rw [List.length_map, hlen])).trans hweq
  | alloc outs =>
    obtain ⟨w', hw'⟩ := isSome_refillConnCtxCache hm hop
    obtain ⟨m', heq, hm', -⟩ := hm.allocConnCtx hop.1 hw'
    refine ⟨m', w'.takeConnCtx.2, ?_, ?_, hm'⟩
    · simp [exec, heq]
    · simp [apply, hw']
  | free p =>
    obtain ⟨m', heq, hm'⟩ := hm.freeConnCtx hop
    exact ⟨m', _, heq, rfl, hm'⟩
  | add p =>
    obtain ⟨m', heq, hm'⟩ := hm.addConnToQueue hop
    exact ⟨m', _, heq, rfl, hm'⟩
  | remove p =>
    obtain ⟨m', heq, hm', -⟩ := hm.removeConnFromQueue hop
    exact ⟨m', _, heq, rfl, hm'⟩

/-- **A sequence of calls.** -/
theorem refines_run {ops : List CtxtOp} (hm : Refines m w) (hops : AllowedAll m w ops) :
    ∃ m' w', ops.foldlM exec m = some m' ∧ ops.foldlM apply w = some w' ∧ Refines m' w' := by
  induction ops generalizing m w with
  | nil => exact ⟨m, w, rfl, rfl, hm⟩
  | cons op ops ih =>
    obtain ⟨m₁, w₁, heq, hweq, hm₁⟩ := refines_exec hm hops.1
    obtain ⟨m', w', heq', hweq', hm'⟩ := ih hm₁ (hops.2 m₁ w₁ heq hweq)
    refine ⟨m', w', ?_, ?_, hm'⟩
    · rw [List.foldlM_cons, heq]
      exact heq'
    · rw [List.foldlM_cons, hweq]
      exact hweq'

end CtxtOp

/-! ### The refinement -/

open ListState CtxtOp

/-- **The intrusive list refines sequences**: every operation on a list that represents a
sequence, every sequence of operations on several such lists, and every sequence of calls of the
functions that move contexts between the queue and the cache. -/
theorem qlist_refines :
    (∀ {α : Type} [DecidableEq α] (h : Links α) (head : α) (xs : List α), h.Ring head xs →
      (∀ x, x ∉ head :: xs → (h.node x).isSome = true →
        (∃ h', qlistAddHead (some head) (some x) h = some h' ∧ h'.Ring head (x :: xs) ∧
          h'.TwoWay head (x :: xs) ∧ h.Within h' (x :: head :: xs) ∧
          ∀ head' ys, h.Ring head' ys → (head' :: ys).Disjoint (x :: head :: xs) →
            h'.Ring head' ys) ∧
        ∃ h', qlistAddTail (some head) (some x) h = some h' ∧ h'.Ring head (xs ++ [x]) ∧
          h'.TwoWay head (xs ++ [x]) ∧ h.Within h' (x :: head :: xs) ∧
          ∀ head' ys, h.Ring head' ys → (head' :: ys).Disjoint (x :: head :: xs) →
            h'.Ring head' ys) ∧
      (∀ x ∈ xs, ∃ h', qlistDelEntry (some x) h = some h' ∧ h'.Ring head (xs.erase x) ∧
        h'.TwoWay head (xs.erase x) ∧ h'.node x = some ⟨none, none⟩ ∧ h.Within h' (head :: xs) ∧
        ∀ head' ys, h.Ring head' ys → (head' :: ys).Disjoint (head :: xs) → h'.Ring head' ys) ∧
      qlistEmpty (some head) h = some (decide (xs = [])) ∧ h.TwoWay head xs) ∧
    (∀ {ι α : Type} [DecidableEq ι] [DecidableEq α] (h : Links α) (head : ι → α) (s : ι → List α)
      (ops : List (ListOp ι α)), Represents h head s → ListOp.AllowedAll h head s ops →
      ∃ h', ops.foldlM (ListOp.exec head) h = some h' ∧
        Represents h' head (ops.foldl ListOp.apply s) ∧
        (∀ i, h'.TwoWay (head i) (ops.foldl ListOp.apply s i)) ∧
        ∀ a, a ∉ ops.map ListOp.item → (∀ j, a ∉ head j :: s j) → h'.node a = h.node a) ∧
    ∀ (m : ListState) (w : Worker) (ops : List CtxtOp), Refines m w → AllowedAll m w ops →
      ∃ m' w', ops.foldlM exec m = some m' ∧ ops.foldlM apply w = some w' ∧ Refines m' w' := by
  refine ⟨?_, ?_, fun m w ops hm hops => refines_run hm hops⟩
  · -- one operation on one list
    intro α _ h head xs hr
    refine ⟨fun x hx hnode => ⟨?_, ?_⟩, fun x hx => ?_, qlistEmpty_spec hr, hr.twoWay⟩
    · obtain ⟨h', heq, hr', hw⟩ := qlistAddHead_spec hr hx hnode
      exact ⟨h', heq, hr', hr'.twoWay, hw, fun _ _ hys hdisj => hys.within hw hdisj⟩
    · obtain ⟨h', heq, hr', hw⟩ := qlistAddTail_spec hr hx hnode
      exact ⟨h', heq, hr', hr'.twoWay, hw, fun _ _ hys hdisj => hys.within hw hdisj⟩
    · obtain ⟨A, B, -, rfl, herase⟩ := List.exists_erase_eq hx
      obtain ⟨h', heq, hr', hnull, hw⟩ := qlistDelEntry_spec hr
      rw [herase]
      exact ⟨h', heq, hr', hr'.twoWay, hnull, hw, fun _ _ hys hdisj => hys.within hw hdisj⟩
  · -- operations on several lists
    intro ι α _ _ h head s ops hrep hops
    obtain ⟨h', heq, hrep', hframe⟩ := represents_run hrep hops
    exact ⟨h', heq, hrep', fun i => (hrep'.ring i).twoWay, hframe⟩

/-- Two empty lists, and a context that is in neither. -/
def spareLinks : Links Node :=
  ⟨fun a => match a with
    | .head l => some ⟨some (.head l), some (.head l)⟩
    | .conn p => if p = 7 then some ⟨none, none⟩ else none⟩

/-- The two lists, and nothing else. -/
def spareState : ListState := ⟨spareLinks, fun _ => false, fun _ => false, none, 0, 0, 0⟩

theorem shape_spareLinks : Shape spareLinks [] [] where
  ring := fun i => by
    cases i <;> exact ⟨by decide, by decide, by decide⟩
  apart := by
    rintro (_ | _) (_ | _) hij <;> simp [nodes] at hij ⊢

theorem refines_spareState : Refines spareState (Worker.empty (fun _ => Conn.zero) fun _ _ => 0) where
  lists := shape_spareLinks
  isActive := fun _ => rfl
  isCompleted := fun _ => rfl
  currConn := rfl
  activeConnCnt := rfl
  inactiveConnCnt := rfl
  cnt := rfl
  length := rfl

/-- A context goes to the queue, and from there to the cache. -/
theorem qlist_refines_spare :
    (∃ h', qlistAddHead (some (.head .queue)) (some (.conn 7)) spareLinks = some h' ∧
      h'.Ring (.head .queue) [.conn 7]) ∧
    (∃ h', [ListOp.addHead .queue (.conn 7), .del (.conn 7), .addTail .cache (.conn 7)].foldlM
        (ListOp.exec Node.head) spareLinks = some h' ∧
      h'.Ring (.head .queue) [] ∧ h'.Ring (.head .cache) [.conn 7]) ∧
    ∃ m' w', [CtxtOp.add 7].foldlM exec spareState = some m' ∧
      [CtxtOp.add 7].foldlM apply (Worker.empty (fun _ => Conn.zero) fun _ _ => 0) = some w' ∧
      Refines m' w' := by
  refine ⟨?_, ?_, ?_⟩
  · obtain ⟨⟨h', heq, hring, -⟩, -⟩ := (qlist_refines.1 spareLinks (.head .queue) []
      (shape_spareLinks.ring .queue)).1 (.conn 7) (by simp) rfl
    exact ⟨h', heq, hring⟩
  · obtain ⟨h', heq, hrep, -⟩ := qlist_refines.2.1 spareLinks Node.head (nodes [] [])
      [.addHead .queue (.conn 7), .del (.conn 7), .addTail .cache (.conn 7)] shape_spareLinks
      ⟨⟨rfl, fun j => by cases j <;> simp [nodes]⟩, ⟨.queue, by simp [ListOp.apply]⟩,
        ⟨rfl, fun j => by cases j <;> simp [ListOp.apply, nodes]⟩, trivial⟩
    exact ⟨h', heq, hrep.ring .queue, hrep.ring .cache⟩
  · exact qlist_refines.2.2 spareState _ [.add 7] refines_spareState
      ⟨⟨rfl, by simp [Worker.empty], by simp [Worker.empty]⟩, fun _ _ _ _ => trivial⟩

end SrvAsync
