import SrvAsync.Base.Window
import SrvAsync.Http.Response

/-!
# Connections, coroutines and the state their code works on

The data model of `srv_conn_ctxt.h`: a connection with its receive buffer, the
queue of a worker, and the saved execution context of a coroutine.

A coroutine only stops inside a call: at a `read`, at a `write`, at the clock
test of `cond_swap_to_main_ctx`, or in a `swap_to_main_ctx`.  A saved context is
therefore a `Point`: which of these calls it is in, with the locals of the
functions that are waiting for it.  `St` is the state the code of one coroutine
works on: the globals of the process and the connection `curr_conn()` points to.

The receive buffers are one memory, addressed by the context they belong to; the
cell behind the last one of a buffer is the guard page, and touching it is a
`Death.segv`.

Four fields record history and are read by no code: `hist` and `live` of a
connection, `inst`, the number of the `accept` its socket came from, and `uses`,
the number of connections its context was taken for.

## Main definitions

* `Point`, `Coro` — where a coroutine stands.
* `Conn`, `ConnQueue`, `Globals`, `St`.
* `currConnUpdateActive`, `currConnSetInactive`, `currConnClose`, … — the
  functions of `srv_conn_ctxt.c` that act on `curr_conn()`.
-/

namespace SrvAsync

open Http

/-- The address of a connection context; its receive buffer has the same. -/
abbrev Ptr := ℕ

/-- `time_t`, in nanoseconds. -/
abbrev Time := ℤ

/-- A file descriptor. -/
abbrev Fd := ℤ

/-- `RECV_BUF_SIZE`. -/
def recvBufSize : ℤ := 8192

/-- `SEND_PACKET_SIZE`. -/
def sendPacketSize : ℤ := 8192

/-- `MAX_ACTIVE_TIMEOUT`. -/
def maxActiveTimeout : Time := 100000000

/-- `CTX_SWAP_TIMEOUT`. -/
def ctxSwapTimeout : Time := 100000000

/-- `TIMEOUT_INF`. -/
def timeoutInf : Time := -1

/-- `CLIENT_OP_TIMEOUT`. -/
def clientOpTimeout : Time := 5000000000

/-- What `read` on a non-blocking socket returned. -/
inductive ReadResult
  /-- A positive count, with the bytes now in the buffer. -/
  | data (bs : Bytes)
  /-- `EAGAIN` or `EWOULDBLOCK`. -/
  | again
  /-- Zero. -/
  | eof
  /-- Any other error. -/
  | error
  deriving DecidableEq, Repr

/-- What `write` on a non-blocking socket returned. -/
inductive WriteResult
  /-- A positive count. -/
  | sent (n : ℕ)
  /-- `EAGAIN` or `EWOULDBLOCK`. -/
  | again
  /-- Zero. -/
  | zero
  /-- Any other error. -/
  | error
  deriving DecidableEq, Repr

/-! ### Where a coroutine stands -/

/-- The arguments and locals of a `recv_from_curr_conn` in its loop. -/
@[ext] structure RecvFrame where
  buf : Ptr
  toRecv : ℤ
  nRecv : ℤ
  prevNRecv : ℤ
  timeout : Time
  terminator : Bool

/-- The caller a `recv_from_curr_conn` returns to, with its locals. -/
inductive RecvCaller
  /-- `recv_http_hdr`, with `n_curr = 0` and `hdr_size = 0` at both calls. -/
  | hdr (recvBufP : Ptr) (nHave : ℤ)
  /-- The body loop of `recv_http_msg`. -/
  | body (req : HttpRequestMsg) (recvBufP : Ptr) (recvBufSize bodyLen gotLen toRecv : ℤ)

/-- The arguments and locals of a `send_to_curr_conn` in its loop; `buf` is what
there is from `msg.data() + curr` on. -/
@[ext] structure SendFrame where
  buf : Bytes
  toSend : ℤ
  nSend : ℤ
  timeout : Time

/-- The `send_http_msg` a `send_to_curr_conn` returns to, and the locals of
`handle_one_client_request` below it. -/
structure SendCaller where
  req : HttpRequestMsg
  resp : HttpResponseMsg
  msg : Bytes
  curr : ℤ
  toSend : ℤ

/-- The calls of `cond_swap_to_main_ctx`. -/
inductive Yield
  /-- In the body loop of `recv_http_msg`. -/
  | body (req : HttpRequestMsg) (recvBufP : Ptr) (recvBufSize bodyLen gotLen : ℤ)
  /-- In the loop of `send_http_msg`. -/
  | packet (req : HttpRequestMsg) (resp : HttpResponseMsg) (msg : Bytes) (curr : ℤ)
  /-- At the end of `handle_one_client_request`. -/
  | request (req : HttpRequestMsg) (resp : HttpResponseMsg)

/-- Where a coroutine stands. -/
inductive Point
  /-- Made by `makecontext`, not resumed yet. -/
  | start
  /-- At the `read` of `recv_from_curr_conn`. -/
  | recv (f : RecvFrame) (k : RecvCaller)
  /-- In the `swap_to_main_ctx` after `EAGAIN`. -/
  | recvWait (f : RecvFrame) (k : RecvCaller)
  /-- In the `swap_to_main_ctx` after a hard error. -/
  | recvFailed (f : RecvFrame) (k : RecvCaller)
  /-- At the `write` of `send_to_curr_conn`. -/
  | send (f : SendFrame) (k : SendCaller)
  /-- In the `swap_to_main_ctx` after `EAGAIN`. -/
  | sendWait (f : SendFrame) (k : SendCaller)
  /-- In the `swap_to_main_ctx` after a hard error. -/
  | sendFailed (f : SendFrame) (k : SendCaller)
  /-- At the clock test of `cond_swap_to_main_ctx`. -/
  | check (y : Yield)
  /-- In the `swap_to_main_ctx` of `cond_swap_to_main_ctx`. -/
  | yielded (y : Yield)
  /-- In the last `swap_to_main_ctx` of `handle_one_connection`. -/
  | ended

/-- A saved context: the connection `makecontext` made it for, and where it stands. -/
structure Coro where
  owner : Ptr
  point : Point

/-! ### Connections -/

/-- The heap objects a `handle_one_client_request` creates. -/
inductive Obj
  /-- An `http_request_msg`. -/
  | request
  /-- An `http_response_msg`. -/
  | response
  /-- The serialized string of `send_http_msg`. -/
  | text
  deriving DecidableEq, Repr

/-- What happens on a connection. -/
inductive Event
  /-- `recv_http_msg` is called. -/
  | call
  /-- `read` returned; the flag is what the test of the operation timeout said. -/
  | read (r : ReadResult) (timedOut : Bool)
  /-- `recv_http_msg` returned a request. -/
  | request (r : HttpRequestMsg)
  /-- `MakeResponse` returned. -/
  | response (r : HttpResponseMsg)
  /-- `write` returned and the socket accepted these bytes. -/
  | write (r : WriteResult) (accepted : Bytes) (timedOut : Bool)
  /-- `handle_one_client_request` returned. -/
  | returned (more : Bool)
  /-- `close` was called, on the socket of this `accept`. -/
  | close (file : Option ℕ)

/-- `conn_t`. -/
structure Conn where
  connCtx : Coro
  recvBufP : Ptr
  recvBufSize : ℤ
  recvBufHave : ℤ
  recvBufCurr : ℤ
  connSock : Fd
  isCompleted : Bool
  isActive : Bool
  lastActive : ℤ
  startOp : Time
  /-- Which `accept` the socket came from. -/
  inst : ℕ
  /-- How many connections the context was taken for. -/
  uses : ℕ
  /-- What happened on the connection so far. -/
  hist : List Event
  /-- The objects of the coroutine that were created and not destroyed. -/
  live : List Obj

/-- A connection context in zeroed memory. -/
def Conn.zero : Conn :=
  ⟨⟨0, .start⟩, 0, 0, 0, 0, 0, false, false, 0, 0, 0, 0, [], []⟩

/-- `conn_queue_t`. -/
structure ConnQueue where
  qconnList : List Ptr
  currConn : Option Ptr
  activeConnCnt : ℤ
  inactiveConnCnt : ℤ
  lastCtxSwap : Time

/-- How a process can end. -/
inductive Death
  /-- A touch of a guard page. -/
  | segv
  /-- An exception that nobody catches. -/
  | terminate
  /-- `exit`. -/
  | exit
  deriving DecidableEq, Repr

/-- Which code the process executes. -/
inductive Control
  /-- The main context of the worker. -/
  | main
  /-- A coroutine, which stands at this point. -/
  | coro (p : Point)
  /-- None any more. -/
  | dead (d : Death)

/-- The state of the process that the code of every coroutine shares.  `self` is
the connection whose coroutine runs, or ran last. -/
structure Globals where
  queue : ConnQueue
  mem : Ptr → ℕ → Byte
  fds : Fd → Option ℕ
  self : Ptr
  ctl : Control

/-- The globals, and the connection `curr_conn()` points to. -/
structure St extends Globals where
  curr : Conn

/-- What a step takes from outside apart from a result of `read` or `write`: the
successive readings of the clock, and the date. -/
structure Tick where
  clk : ℕ → Time
  date : Date

/-- All readings of the clock at one moment, and some date. -/
def Tick.atTime (now : Time) : Tick := ⟨fun _ => now, .blank⟩

namespace St

/-- The coroutine goes on to this point. -/
def goto (s : St) (p : Point) : St := { s with ctl := .coro p }

/-- The process ends. -/
def die (s : St) (d : Death) : St := { s with ctl := .dead d }

/-- `swap_to_main_ctx` up to the switch: the context is saved in the connection
that `curr_conn` points to. -/
def swapToMainCtx (s : St) (p : Point) : St :=
  { s with curr := { s.curr with connCtx := ⟨s.self, p⟩ }, ctl := .main }

/-- `swap_to_main_ctx` after it was switched back. -/
def swappedBack (s : St) (now : Time) : St :=
  { s with queue := { s.queue with lastCtxSwap := now } }

/-- Something happens on the connection. -/
def log (s : St) (e : Event) : St := { s with curr := { s.curr with hist := s.curr.hist ++ [e] } }

/-- An object is created. -/
def create (s : St) (o : Obj) : St := { s with curr := { s.curr with live := o :: s.curr.live } }

/-- An object is destroyed. -/
def destroy (s : St) (o : Obj) : St := { s with curr := { s.curr with live := s.curr.live.erase o } }

/-- The view of `len` bytes from `recv_buf_p + off` on. -/
def view (s : St) (p : Ptr) (off len : ℤ) : Bytes := Memory.window (s.mem p) off.toNat len.toNat

/-- Bytes are written from `recv_buf_p + off` on. -/
def poke (s : St) (p : Ptr) (off : ℤ) (bs : Bytes) : St :=
  { s with mem := Function.update s.mem p (Memory.store (s.mem p) off.toNat bs) }

/-- The cursors of the receive buffer are written back. -/
def setCursors (s : St) (have_ curr : ℤ) : St :=
  { s with curr := { s.curr with recvBufHave := have_, recvBufCurr := curr } }

/-- `close` on the socket of the connection. -/
def closeSock (s : St) : St :=
  { s.log (.close (s.fds s.curr.connSock)) with
    fds := Function.update s.fds s.curr.connSock none }

/-- `curr_conn_close`. -/
def currConnClose (s : St) : St :=
  if s.curr.isCompleted then s
  else { s.closeSock with curr := { s.closeSock.curr with isCompleted := true } }

/-- `curr_conn_set_inactive`. -/
def currConnSetInactive (s : St) : St :=
  if s.curr.isActive then
    { s with
      curr := { s.curr with isActive := false }
      queue := { s.queue with
        activeConnCnt := s.queue.activeConnCnt - 1
        inactiveConnCnt := s.queue.inactiveConnCnt + 1 } }
  else s

/-- `curr_conn_update_active`. -/
def currConnUpdateActive (s : St) (now : Time) : St :=
  let s := { s with curr := { s.curr with lastActive := now } }
  if s.curr.isActive then s
  else
    { s with
      curr := { s.curr with isActive := true }
      queue := { s.queue with
        activeConnCnt := s.queue.activeConnCnt + 1
        inactiveConnCnt := s.queue.inactiveConnCnt - 1 } }

/-- `curr_conn_start_op`. -/
def currConnStartOp (s : St) (now : Time) : St :=
  { s with curr := { s.curr with startOp := now } }

/-- `curr_conn_active_timeout`; `last_active` is unsigned, and so is the difference. -/
def currConnActiveTimeout (s : St) (now : Time) : Bool :=
  decide (maxActiveTimeout < (now - s.curr.lastActive) % 2 ^ 64)

/-- `curr_conn_op_timeout`. -/
def currConnOpTimeout (s : St) (now timeout : Time) : Bool := decide (timeout < now - s.curr.startOp)

/-- `need_ctx_swap`. -/
def needCtxSwap (s : St) (now : Time) : Bool := decide (ctxSwapTimeout < now - s.queue.lastCtxSwap)

end St
end SrvAsync
