import Mathlib.Data.Finset.Card
import Mathlib.Data.UInt
import SrvAsync.Base.Runs
import SrvAsync.Conn.Ctxt

/-!
# The server with threads

`srv.c`: the main thread accepts connections and makes a thread for each of them, which reads
once, writes once, and closes the socket.  The threads share the descriptors of the process
and the counter `n_conn`; the main thread prints once in a while how many connections were
handled.

A step is one call of one thread, one atomic access to `n_conn`, or what the main thread does
with its own variables.  What the calls answer and what the clocks say are inputs.

## Main definitions

* `Thread`, `Threaded` — a thread, and the process.
* `Threaded.step` — one step of one thread.
* `Threaded.start` — the process when it listens.
-/

namespace SrvAsync

open Http

namespace Threaded

/-- `READ_BUF_SIZE`. -/
def readBufSize : ℕ := 1024

/-- `WRITE_BUF_SIZE`. -/
def writeBufSize : ℕ := 1024

/-- The text in `resp_buf`. -/
def respText : Bytes :=
  ascii "HTTP/1.1 200 OK\nContent-Type: text/html; charset=UTF-8\nContent-Length: 156\n" ++
  ascii "Date: Sat, 04 Oct 2025 14:51:00 GMT\nServer: my_srv/1.0 (Ubuntu)\n\n" ++
  ascii "<!DOCTYPE html>\n<html>\n<head>\n    <title>Example Page</title>\n</head>\n<body>\n" ++
  ascii "    <h1>Welcome!</h1>\n    <p>This is an example HTML page.</p>\n</body>\n</html>\n"

/-- `resp_buf`: behind the text there are zeros. -/
def respBuf : Bytes := respText ++ List.replicate (writeBufSize - respText.length) 0

/-- The values of `errno` after which `main` calls again: `EAGAIN`, `EINTR` and `ECHILD`. -/
def retries (errno : ℕ) : Bool := errno ∈ [11, 4, 10]

/-- Where a thread stands in `conn_routine`. -/
inductive ThreadPoint
  /-- At the `read`. -/
  | read
  /-- At the `write`. -/
  | write
  /-- At the `close`. -/
  | close
  /-- At the `atomic_fetch_add`. -/
  | count
  /-- It returned. -/
  | returned
  /-- It ended in `pthread_exit`, with this status. -/
  | exited (status : ℕ)
  deriving DecidableEq, Repr

/-- A thread that handles a connection. -/
structure Thread where
  /-- `new_socket`. -/
  sock : Fd
  point : ThreadPoint
  /-- What the client was sent. -/
  sent : Bytes
  deriving DecidableEq, Repr

/-- What `write` answers. -/
inductive Written
  | sent (n : ℕ)
  | error
  /-- The client is gone, and the signal ends the process: `srv.c` does not ignore `SIGPIPE`. -/
  | sigpipe
  deriving DecidableEq, Repr

/-- Where `main` stands. -/
inductive MainPoint
  /-- At the `accept`. -/
  | accept
  /-- In `thread_new_conn`. -/
  | create (newSocket : Fd)
  /-- An interval is over: at the test whether there is something to print. -/
  | test (allEnd : ℤ)
  /-- At the `printf`. -/
  | print (allEnd : ℤ)
  /-- Behind it. -/
  | reset (allEnd : ℤ)
  /-- `exit` was called. -/
  | exited
  /-- A signal ended the process. -/
  | killed
  deriving DecidableEq, Repr

/-- A line that was printed. -/
structure Report where
  conns : UInt64
  acceptMs : UInt64
  handleMs : UInt64
  deriving DecidableEq, Repr

/-- What a thread does. -/
inductive Act
  /-- `accept` returns, with a descriptor or with `errno`. -/
  | accept (r : Except ℕ Fd) (spent : ℤ)
  /-- `pthread_create` returns; when it fails, the test is of `errno`, which it does not set. -/
  | create (errno : Option ℕ) (spent : ℤ) (now : ℤ)
  /-- `main` goes on. -/
  | main
  /-- The `read` of a thread returns, with bytes or with an error. -/
  | read (k : ℕ) (r : Option Bytes)
  /-- The `write` of a thread returns. -/
  | write (k : ℕ) (r : Written)
  /-- A thread closes its socket. -/
  | close (k : ℕ)
  /-- A thread counts its connection. -/
  | count (k : ℕ)
  deriving DecidableEq, Repr

end Threaded

open Threaded

/-- The process.  `files` says which connection an open descriptor belongs to; the connections
are numbered as they are accepted, and so are their threads. -/
structure Threaded where
  files : Fd → Option ℕ
  threads : List Thread
  nConn : UInt64
  prevNConn : UInt64
  acceptTime : UInt64
  handleTime : UInt64
  allStart : ℤ
  reports : List Report
  main : MainPoint

namespace Threaded

/-- The process when it listens. -/
def start (now : ℤ) : Threaded := ⟨fun _ => none, [], 0, 0, 0, 0, now, [], .accept⟩

/-- A thread goes on. -/
def setThread (s : Threaded) (k : ℕ) (th : Thread) : Threaded :=
  { s with threads := s.threads.set k th }

/-- `main` accepted a connection. -/
def accepted (s : Threaded) (fd : Fd) (spent : ℤ) : Threaded :=
  { s with
    files := Function.update s.files fd (some s.threads.length)
    acceptTime := s.acceptTime + .ofInt spent
    main := .create fd }

/-- `main` made the thread: it looks at the clock. -/
def created (s : Threaded) (fd : Fd) (spent now : ℤ) : Threaded :=
  { s with
    threads := s.threads ++ [⟨fd, .read, []⟩]
    handleTime := s.handleTime + .ofInt spent
    main := if 1 ≤ now - s.allStart then .test now else .accept }

/-- The line that `main` prints. -/
def report (s : Threaded) : Report :=
  ⟨s.nConn - s.prevNConn, s.acceptTime / 1000000, s.handleTime / 1000000⟩

/-- A step of `main`; `avail` are the descriptors the process can have for connections. -/
def mainStep (avail : Finset Fd) (s : Threaded) : MainPoint → Act → Option Threaded
  | .accept, .accept (.ok fd) spent =>
    if fd ∈ avail ∧ s.files fd = none then some (s.accepted fd spent) else none
  | .accept, .accept (.error errno) _ =>
    if retries errno then some s else some { s with main := .exited }
  | .create fd, .create none spent now => some (s.created fd spent now)
  | .create _, .create (some errno) _ _ =>
    if retries errno then some s else some { s with main := .exited }
  | .test now, .main =>
    some { s with main := if s.nConn - s.prevNConn ≠ 0 then .print now else .reset now }
  | .print now, .main => some { s with reports := s.reports ++ [s.report], main := .reset now }
  | .reset now, .main =>
    some { s with
      acceptTime := 0, handleTime := 0, prevNConn := s.nConn, allStart := now, main := .accept }
  | _, _ => none

/-- A step of a thread: `conn_routine`. -/
def threadStep (s : Threaded) (k : ℕ) (th : Thread) : ThreadPoint → Act → Option Threaded
  | .read, .read _ r =>
    match r with
    | none => some (s.setThread k { th with point := .exited 1 })
    | some [] => some (s.setThread k { th with point := .exited 0 })
    | some bs => if bs.length ≤ readBufSize then some (s.setThread k { th with point := .write }) else none
  | .write, .write _ r =>
    match r with
    | .error => some (s.setThread k { th with point := .exited 1 })
    | .sigpipe => some { s with main := .killed }
    | .sent n =>
      if n ≤ writeBufSize then
        some (s.setThread k { th with point := .close, sent := respBuf.take n })
      else none
  | .close, .close _ =>
    some ({ s with files := Function.update s.files th.sock none }.setThread k
      { th with point := .count })
  | .count, .count _ =>
    some ({ s with nConn := s.nConn + 1 }.setThread k { th with point := .returned })
  | _, _ => none

/-- The process is there. -/
def MainPoint.alive : MainPoint → Bool
  | .exited | .killed => false
  | _ => true

/-- One step. -/
def step (avail : Finset Fd) (s : Threaded) (a : Act) : Option Threaded :=
  if s.main.alive then
    match a with
    | .read k _ | .write k _ | .close k | .count k => do
      let th ← s.threads[k]?
      s.threadStep k th th.point a
    | a => s.mainStep avail s.main a
  else none

end Threaded
end SrvAsync
