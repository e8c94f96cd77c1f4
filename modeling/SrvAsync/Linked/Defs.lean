import SrvAsync.Lists

/-!
# A worker with the links of its lists

The worker as the process has it: the queue and the cache are not lists but two heads and
the `qlist` fields of the connections, the loop over the queue is a pair of pointers, and a
context has links only while its memory is allocated.  The main loop is that of `Routines`, and
the functions of `srv_conn_ctxt.c` that work on the lists are those of `ListState`; `none` is a
step the process cannot make, or one that follows a null pointer or touches a context that was
freed.

## Main definitions

* `LoopPoint` — where the main loop stands, with the two pointers of
  `qlist_foreach_entry_safe`.
* `LinkedWorker` — the process.
* `LinkedWorker.lists`, `LinkedWorker.withLists` — the part of it that is a `ListState`.
* `LinkedWorker.step`, `LinkedWorker.init`.
-/

namespace SrvAsync

open Http Worker

/-- Where `handle_connections_routine` stands. -/
inductive LoopPoint
  /-- At the head of the main loop. -/
  | head
  /-- Blocked in an `epoll_pwait` with timeout -1. -/
  | blocked
  /-- At the test of `qlist_foreach_entry_safe`. -/
  | pass (conn connN : Option Node)
  /-- In the `swap_to_conn_ctx` of its body. -/
  | resumed (conn : Ptr) (connN : Option Node)

/-- A worker, with the links of its lists. -/
structure LinkedWorker where
  links : Links Node
  currConn : Option Ptr
  activeConnCnt : ℤ
  inactiveConnCnt : ℤ
  lastCtxSwap : Time
  cnt : ℤ
  mem : Ptr → ℕ → Byte
  fds : Fd → Option ℕ
  self : Ptr
  ctl : Control
  heap : Ptr → Conn
  point : LoopPoint
  accepted : ℕ
  retired : List Conn

namespace LinkedWorker

/-- The context is allocated. -/
def Mapped (m : LinkedWorker) (p : Ptr) : Prop := (m.links.node (.conn p)).isSome = true

instance (m : LinkedWorker) (p : Ptr) : Decidable (m.Mapped p) :=
  inferInstanceAs (Decidable ((m.links.node (.conn p)).isSome = true))

/-- The state the code of a coroutine finds when `curr_conn` is `p`.  It does not look at the
list of connections. -/
def load (m : LinkedWorker) (p : Ptr) : St :=
  { queue := ⟨[], m.currConn, m.activeConnCnt, m.inactiveConnCnt, m.lastCtxSwap⟩
    mem := m.mem, fds := m.fds, self := m.self, ctl := m.ctl, curr := m.heap p }

/-- What it leaves behind. -/
def store (m : LinkedWorker) (p : Ptr) (s : St) : LinkedWorker :=
  { m with
    currConn := s.queue.currConn, activeConnCnt := s.queue.activeConnCnt
    inactiveConnCnt := s.queue.inactiveConnCnt, lastCtxSwap := s.queue.lastCtxSwap
    mem := s.mem, fds := s.fds, self := s.self, ctl := s.ctl
    heap := Function.update m.heap p s.curr }

/-- The process ends. -/
def die (m : LinkedWorker) (d : Death) : LinkedWorker := { m with ctl := .dead d }

/-- What the functions on the lists read and write. -/
def lists (m : LinkedWorker) : ListState :=
  ⟨m.links, fun p => (m.heap p).isActive, fun p => (m.heap p).isCompleted, m.currConn,
    m.activeConnCnt, m.inactiveConnCnt, m.cnt⟩

/-- What they leave behind. -/
def withLists (m : LinkedWorker) (l : ListState) : LinkedWorker :=
  { m with
    links := l.links, currConn := l.currConn, activeConnCnt := l.activeConnCnt
    inactiveConnCnt := l.inactiveConnCnt, cnt := l.cnt }

/-- A function on the lists. -/
def onLists (m : LinkedWorker) (f : ListState → Option ListState) : Option LinkedWorker :=
  (f m.lists).map m.withLists

/-! ### The cache of contexts -/

/-- What `alloc_conn_ctx_mem` puts into a context it allocated. -/
def newConnCtx (m : LinkedWorker) (p : Ptr) : LinkedWorker :=
  { m with
    heap := Function.update m.heap p
      { m.heap p with
        recvBufP := p, recvBufSize := recvBufSize, recvBufHave := 0, recvBufCurr := 0, uses := 0 }
    mem := Function.update m.mem p fun _ => 0 }

/-- The same for all the contexts that are allocated with these outcomes. -/
def newConnCtxs (m : LinkedWorker) (outs : List (Option Ptr)) : LinkedWorker :=
  outs.reduceOption.foldl newConnCtx m

/-- The outcomes of allocations, where the memory holds these links. -/
def allocated (junk : Ptr → Link Node) (outs : List (Option Ptr)) : List (Option (Ptr × Link Node)) :=
  outs.map (Option.map fun p => (p, junk p))

/-- `alloc_conn_ctx`. -/
def allocConnCtx (m : LinkedWorker) (junk : Ptr → Link Node) (outs : List (Option Ptr)) :
    Option (Option Node × LinkedWorker) :=
  (m.lists.allocConnCtx (allocated junk outs)).map fun r =>
    (r.1, (m.newConnCtxs outs).withLists r.2)

/-- `free_conn_ctx`. -/
def freeConnCtx (m : LinkedWorker) (p : Ptr) : Option LinkedWorker := m.onLists (·.freeConnCtx p)

/-! ### The queue -/

/-- `add_conn_to_queue`. -/
def addConnToQueue (m : LinkedWorker) (p : Ptr) : Option LinkedWorker :=
  m.onLists (·.addConnToQueue p)

/-- `remove_conn_from_queue`. -/
def removeConnFromQueue (m : LinkedWorker) (p : Ptr) : Option LinkedWorker :=
  { m with retired := m.heap p :: m.retired }.onLists (·.removeConnFromQueue p)

/-- `create_new_conn` behind `alloc_conn_ctx`, on the context it got. -/
def startConn (m : LinkedWorker) (p : Ptr) (connSock : Fd) (inst : ℕ) : Option LinkedWorker :=
  addConnToQueue { m with heap := Function.update m.heap p (initNewConnCtx (m.heap p) p connSock inst) } p

/-- `create_new_conn`, and the `exit` of the main loop when it fails. -/
def createNewConn (m : LinkedWorker) (junk : Ptr → Link Node) (connSock : Fd) (inst : ℕ)
    (outs : List (Option Ptr)) : Option LinkedWorker := do
  match ← m.allocConnCtx junk outs with
  | (some (.conn p), m) => m.startConn p connSock inst
  | (none, m) => return m.die .exit
  -- the entry of a list head is no context
  | (some (.head _), _) => none

/-! ### The main loop -/

/-- `qlist_foreach_entry_safe` starts. -/
def startPass (m : LinkedWorker) : Option LinkedWorker := do
  let conn ← qlistFirstEntry (some (.head .queue)) m.links
  let connN ← qlistNextEntry conn m.links
  return { m with point := .pass conn connN }

/-- The main loop from the return of `epoll_pwait` to the loop over the queue. -/
def polled (m : LinkedWorker) (junk : Ptr → Link Node) : EpollResult → Option LinkedWorker
  | .ready none outs => if outs = [] then m.startPass else none
  | .ready (some fd) outs =>
    if 0 ≤ fd ∧ m.fds fd = none then
      (createNewConn
        { m with fds := Function.update m.fds fd (some m.accepted), accepted := m.accepted + 1 }
        junk fd m.accepted outs).bind startPass
    else none
  | .timeout => m.startPass
  | .eintr => m.startPass
  | .error => some (m.die .exit)

/-- The body of the loop behind `swap_to_conn_ctx`, and the step to the next round. -/
def swappedBack (m : LinkedWorker) (now : Time) (conn : Ptr) (connN : Option Node) :
    Option LinkedWorker := do
  let m := { m with lastCtxSwap := now }
  let m ← if (m.heap conn).isCompleted then (m.removeConnFromQueue conn).bind (·.freeConnCtx conn)
    else some m
  let next ← qlistNextEntry connN m.links
  return { m with point := .pass connN next }

variable (P : Platform)

/-- A step while the main context runs. -/
def mainStep (m : LinkedWorker) (t : Tick) (junk : Ptr → Link Node) :
    LoopPoint → WorkerOp → Option LinkedWorker
  | .head, .block => if m.activeConnCnt = 0 then some { m with point := .blocked } else none
  | .head, .poll r => if r = .timeout ∧ m.activeConnCnt = 0 then none else m.polled junk r
  | .blocked, .poll r => if r = .timeout then none else m.polled junk r
  | .pass (some (.conn p)) connN, .resume fcntlOk =>
    if m.Mapped p then
      let m := { m with currConn := some p, point := .resumed p connN }
      ((m.load p).step P t (.resume fcntlOk)).map (m.store p)
    else none
  | .resumed conn connN, .back =>
    if m.Mapped conn then m.swappedBack (t.clk 0) conn connN else none
  | .pass (some (.head .queue)) _, .endPass => some { m with point := .head }
  | _, _ => none

/-- One step of a worker.  The input is that of `Worker.step`, and what the memory of contexts
that are allocated holds. -/
def step (m : LinkedWorker) (i : (Tick × WorkerOp) × (Ptr → Link Node)) : Option LinkedWorker :=
  match m.ctl with
  | .main => m.mainStep P i.1.1 i.2 m.point i.1.2
  | .coro _ =>
    match i.1.2, m.currConn with
    | .co op, some p =>
      if m.Mapped p then ((m.load p).step P i.1.1 op).map (m.store p) else none
    | _, _ => none
  | .dead _ => none

/-! ### The start -/

/-- The process before `init_conn_queue`: the two list heads hold anything, and no context is
allocated. -/
def boot (heads : ListId → Link Node) (heap : Ptr → Conn) (mem : Ptr → ℕ → Byte) : LinkedWorker :=
  { links := ⟨fun
      | .head l => some (heads l)
      | .conn _ => none⟩
    currConn := none, activeConnCnt := 0, inactiveConnCnt := 0, lastCtxSwap := 0, cnt := 0
    mem := mem, fds := fun _ => none, self := 0, ctl := .main, heap := heap, point := .head
    accepted := 0, retired := [] }

/-- `init_conn_queue`. -/
def initConnQueue (m : LinkedWorker) : Option LinkedWorker := m.onLists (·.initConnQueue)

/-- `init_conn_ctx_cache`. -/
def initConnCtxCache (m : LinkedWorker) (junk : Ptr → Link Node) (outs : List (Option Ptr)) :
    Option LinkedWorker :=
  (m.lists.initConnCtxCache (allocated junk outs)).map (m.newConnCtxs outs).withLists

/-- A worker after `init_conn_queue` and `init_conn_ctx_cache`. -/
def init (heads : ListId → Link Node) (heap : Ptr → Conn) (mem : Ptr → ℕ → Byte)
    (junk : Ptr → Link Node) (outs : List (Option Ptr)) : Option LinkedWorker :=
  ((boot heads heap mem).initConnQueue).bind (·.initConnCtxCache junk outs)

end LinkedWorker
end SrvAsync
