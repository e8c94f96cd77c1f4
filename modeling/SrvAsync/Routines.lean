import SrvAsync.Base.Runs
import SrvAsync.Http.SendRecv

/-!
# The worker

The queue and the cache of `srv_conn_ctxt.c`, and the main loop of
`handle_connections_routine`.

A worker holds the connection contexts on a heap; the queue and the cache are
lists of their addresses.  Coroutine code runs on the connection `curr_conn`
points to (`load`, `store`), whichever coroutine it is.

The main loop stands at its head, blocked in `epoll_pwait`, or in the pass over
the queue; `todo` is what the saved successor of `qlist_foreach_entry_safe` still
leads to.  What the kernel and the allocator answer are the inputs of a step:
an allocation gives an address that no context has, and `accept` a descriptor
that is not open.

## Main definitions

* `Worker`, `Phase`, `Worker.load`, `Worker.store`.
* `allocConnCtx`, `freeConnCtx`, `createNewConn`, `addConnToQueue`,
  `removeConnFromQueue`.
* `WorkerOp`, `Worker.step`, `Worker.init`, `Worker.Reachable`.
-/

namespace SrvAsync

open Http

/-- `MIN_CONN_CTX_CACHE_CNT`. -/
def minConnCtxCacheCnt : ℤ := 50

/-- `MAX_CONN_CTX_CACHE_CNT`. -/
def maxConnCtxCacheCnt : ℤ := 300

/-- `conn_ctx_cache_t`. -/
structure ConnCtxCache where
  qconnList : List Ptr
  cnt : ℤ

/-- Where `handle_connections_routine` stands. -/
inductive Phase
  /-- At the head of the main loop. -/
  | head
  /-- Blocked in an `epoll_pwait` with timeout -1. -/
  | blocked
  /-- In the pass over the queue, with these connections still to come. -/
  | pass (todo : List Ptr)
  /-- In the `swap_to_conn_ctx` of the pass. -/
  | resumed (conn : Ptr) (todo : List Ptr)
  deriving DecidableEq, Repr

/-- A worker.  `accepted` numbers the sockets it accepted, and `retired` keeps
the connections it removed from the queue, as they were then. -/
structure Worker extends Globals where
  heap : Ptr → Conn
  cache : ConnCtxCache
  phase : Phase
  accepted : ℕ
  retired : List Conn

namespace Worker

/-- The state the code of a coroutine finds when `curr_conn` is `p`. -/
def load (w : Worker) (p : Ptr) : St := { toGlobals := w.toGlobals, curr := w.heap p }

/-- What it leaves behind. -/
def store (w : Worker) (p : Ptr) (s : St) : Worker :=
  { w with toGlobals := s.toGlobals, heap := Function.update w.heap p s.curr }

/-- The process ends. -/
def die (w : Worker) (d : Death) : Worker := { w with ctl := .dead d }

/-! ### The cache of contexts -/

/-- `alloc_conn_ctx_mem`, when the allocator answers `p`.  The mapping is zeroed;
the fields it does not set keep what the memory holds. -/
def allocConnCtxMem (w : Worker) (p : Ptr) : Worker :=
  { w with
    heap := Function.update w.heap p
      { w.heap p with
        recvBufP := p, recvBufSize := recvBufSize, recvBufHave := 0, recvBufCurr := 0, uses := 0 }
    mem := Function.update w.mem p fun _ => 0 }

/-- One round of `fill_conn_ctx_cache`.  An allocation that succeeds gives an
address that no context has. -/
def fillRound (w : Worker) : Option Ptr → Option Worker
  | none => some w
  | some p =>
    if p ∈ w.queue.qconnList ∨ p ∈ w.cache.qconnList then none
    else
      let w := w.allocConnCtxMem p
      some { w with cache := ⟨p :: w.cache.qconnList, w.cache.cnt + 1⟩ }

/-- `fill_conn_ctx_cache`, with the outcome of the allocation of every round. -/
def fillConnCtxCache (w : Worker) (outs : List (Option Ptr)) : Option Worker :=
  if (outs.length : ℤ) = minConnCtxCacheCnt - w.cache.cnt then outs.foldlM fillRound w else none

/-- The first half of `alloc_conn_ctx`: an empty cache is filled. -/
def refillConnCtxCache (w : Worker) (outs : List (Option Ptr)) : Option Worker :=
  if w.cache.cnt = 0 then w.fillConnCtxCache outs else if outs = [] then some w else none

/-- The second half of `alloc_conn_ctx`: the first context of the cache is taken.
A nonzero count with an empty list would take the list head for a context. -/
def takeConnCtx (w : Worker) : Option Ptr × Worker :=
  if w.cache.cnt = 0 then (none, w)
  else
    match w.cache.qconnList with
    | [] => (none, w.die .segv)
    | p :: ps => (some p, { w with cache := ⟨ps, w.cache.cnt - 1⟩ })

/-- `free_conn_ctx`. -/
def freeConnCtx (w : Worker) (p : Ptr) : Worker :=
  if w.cache.cnt < maxConnCtxCacheCnt then
    { w with cache := ⟨p :: w.cache.qconnList, w.cache.cnt + 1⟩ }
  else w

/-! ### The queue -/

/-- `init_new_conn_ctx`. -/
def initNewConnCtx (c : Conn) (p : Ptr) (connSock : Fd) (inst : ℕ) : Conn :=
  { c with
    connCtx := ⟨p, .start⟩, connSock := connSock, isCompleted := false, isActive := true
    inst := inst, uses := c.uses + 1, hist := [], live := [] }

/-- `add_conn_to_queue`. -/
def addConnToQueue (w : Worker) (p : Ptr) : Worker :=
  { w with
    queue := { w.queue with
      qconnList := p :: w.queue.qconnList
      activeConnCnt := w.queue.activeConnCnt + if (w.heap p).isActive then 1 else 0
      inactiveConnCnt := w.queue.inactiveConnCnt + if (w.heap p).isActive then 0 else 1 } }

/-- `remove_conn_from_queue`. -/
def removeConnFromQueue (w : Worker) (p : Ptr) : Worker :=
  { w with
    queue := { w.queue with
      qconnList := w.queue.qconnList.erase p
      activeConnCnt := w.queue.activeConnCnt - if (w.heap p).isActive then 1 else 0
      inactiveConnCnt := w.queue.inactiveConnCnt - if (w.heap p).isActive then 0 else 1 }
    retired := w.heap p :: w.retired }

/-- `create_new_conn` behind `alloc_conn_ctx`, on the context it got. -/
def startConn (w : Worker) (p : Ptr) (connSock : Fd) (inst : ℕ) : Worker :=
  addConnToQueue { w with heap := Function.update w.heap p (initNewConnCtx (w.heap p) p connSock inst) } p

/-- `create_new_conn`, and the `exit` of the main loop when it fails. -/
def createNewConn (w : Worker) (connSock : Fd) (inst : ℕ) (outs : List (Option Ptr)) :
    Option Worker :=
  (w.refillConnCtxCache outs).map fun w =>
    match w.takeConnCtx with
    | (some p, w) => w.startConn p connSock inst
    | (none, w) => w.die .exit

/-! ### The main loop -/

/-- What `epoll_pwait` on the listening socket returned. -/
inductive EpollResult
  /-- The socket is ready; what `accept` then gives, and the outcomes of the
  allocations of `create_new_conn`. -/
  | ready (accept : Option Fd) (outs : List (Option Ptr))
  /-- The timeout expired. -/
  | timeout
  /-- `EINTR`. -/
  | eintr
  /-- Any other error. -/
  | error
  deriving DecidableEq, Repr

/-- The pass over the queue starts. -/
def startPass (w : Worker) : Worker := { w with phase := .pass w.queue.qconnList }

/-- The main loop from the return of `epoll_pwait` to the pass over the queue. -/
def polled (w : Worker) : EpollResult → Option Worker
  -- `accept` failed: the pass over the queue is made all the same
  | .ready none outs => if outs = [] then some w.startPass else none
  | .ready (some fd) outs =>
    -- the kernel gives a descriptor that is not in use
    if 0 ≤ fd ∧ w.fds fd = none then
      (createNewConn
        { w with fds := Function.update w.fds fd (some w.accepted), accepted := w.accepted + 1 }
        fd w.accepted outs).map startPass
    else none
  | .timeout => some w.startPass
  | .eintr => some w.startPass
  | .error => some (w.die .exit)

/-- The main loop behind `swap_to_conn_ctx`. -/
def swappedBack (w : Worker) (now : Time) (conn : Ptr) (todo : List Ptr) : Worker :=
  let w := { w with queue := { w.queue with lastCtxSwap := now }, phase := .pass todo }
  if (w.heap conn).isCompleted then (w.removeConnFromQueue conn).freeConnCtx conn else w

/-- What makes a step of a worker. -/
inductive WorkerOp
  /-- `epoll_pwait` blocks. -/
  | block
  /-- `epoll_pwait` returns. -/
  | poll (r : EpollResult)
  /-- The pass switches to its next connection. -/
  | resume (fcntlOk : Bool)
  /-- The running coroutine goes on. -/
  | co (op : Op)
  /-- The coroutine has switched back. -/
  | back
  /-- The pass is over. -/
  | endPass
  deriving DecidableEq, Repr

variable (P : Platform)

/-- A step while the main context runs. -/
def mainStep (w : Worker) (t : Tick) : Phase → WorkerOp → Option Worker
  -- the timeout is -1 when no connection is active, else 0
  | .head, .block => if w.queue.activeConnCnt = 0 then some { w with phase := .blocked } else none
  | .head, .poll r =>
    if r = .timeout ∧ w.queue.activeConnCnt = 0 then none else w.polled r
  | .blocked, .poll r => if r = .timeout then none else w.polled r
  | .pass (p :: todo), .resume fcntlOk =>
    let w := { w with queue := { w.queue with currConn := some p }, phase := .resumed p todo }
    ((w.load p).step P t (.resume fcntlOk)).map (w.store p)
  | .resumed conn todo, .back => some (w.swappedBack (t.clk 0) conn todo)
  | .pass [], .endPass => some { w with phase := .head }
  | _, _ => none

/-- One step of a worker. -/
def step (w : Worker) (i : Tick × WorkerOp) : Option Worker :=
  match w.ctl with
  | .main => w.mainStep P i.1 w.phase i.2
  | .coro _ =>
    match i.2, w.queue.currConn with
    | .co op, some p => ((w.load p).step P i.1 op).map (w.store p)
    | _, _ => none
  | .dead _ => none

/-- A worker after `init_conn_queue`, on a heap with anything in it. -/
def empty (heap : Ptr → Conn) (mem : Ptr → ℕ → Byte) : Worker :=
  { queue := ⟨[], none, 0, 0, 0⟩, mem := mem, fds := fun _ => none, self := 0, ctl := .main
    heap := heap, cache := ⟨[], 0⟩, phase := .head, accepted := 0, retired := [] }

/-- A worker after `init_conn_queue` and `init_conn_ctx_cache`. -/
def init (heap : Ptr → Conn) (mem : Ptr → ℕ → Byte) (outs : List (Option Ptr)) : Option Worker :=
  (empty heap mem).fillConnCtxCache outs

/-- The states a worker can get into. -/
def Reachable (w : Worker) : Prop :=
  ∃ heap mem outs w₀ is, init heap mem outs = some w₀ ∧ Machine.run (step P) w₀ is = some w

/-! ### Scripts -/

/-- The worker that a script leads to: the moments at which a clock is read and what
happens, on a heap of zeros. -/
def script (outs : List (Option Ptr)) (ops : List (Time × WorkerOp)) : Option Worker :=
  (init (fun _ => Conn.zero) (fun _ _ => 0) outs).bind fun w =>
    Machine.run (step P) w (ops.map fun op => (Tick.atTime op.1, op.2))

theorem reachable_of_script {outs : List (Option Ptr)} {ops : List (Time × WorkerOp)} {w : Worker}
    (h : script P outs ops = some w) : Reachable P w := by
  obtain ⟨w₀, h₀, hr⟩ := Option.bind_eq_some_iff.mp h
  exact ⟨_, _, _, w₀, _, h₀, hr⟩

/-- The script is possible, so its end can be reached. -/
theorem reachable_get {outs : List (Option Ptr)} {ops : List (Time × WorkerOp)}
    (h : (script P outs ops).isSome) : Reachable P ((script P outs ops).get h) :=
  reachable_of_script P (Option.some_get h).symm

/-- The end of the script has a property that can be computed. -/
theorem exists_of_script {outs : List (Option Ptr)} {ops : List (Time × WorkerOp)}
    {Q : Worker → Prop} [DecidablePred Q] (h : (script P outs ops).any (fun w => Q w) = true) :
    ∃ w, Reachable P w ∧ Q w := by
  obtain ⟨w, hw, hq⟩ := (Option.any_eq_true _ _).mp h
  exact ⟨w, reachable_of_script P hw, of_decide_eq_true hq⟩

end Worker
end SrvAsync
