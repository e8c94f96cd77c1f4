import SrvAsync.Routines
import SrvAsync.Conn.History

/-!
# The worker and its kernel

What the kernel does for a worker: it keeps the bytes that arrived on a socket until
they are read, and it generates `SIGIO` when data arrive on a socket with `O_ASYNC`.
A blocked signal stays pending whatever its disposition; one that is not blocked and
whose disposition is `SIG_IGN` is discarded.

The worker blocks `SIGIO` and ignores it at its start, and unblocks it only for the
time it is in `epoll_pwait`, which returns `EINTR` when the signal is pending on
entry, or when one that is not ignored arrives while it sleeps.

## Main definitions

* `Sigio`, `Sigio.generate`, `sigioSetup` — the signal.
* `System`, `System.answer`, `System.arrive`, `System.step`.
* `System.NoLostWakeup` — a worker that sleeps leaves nothing unread behind.
-/

namespace SrvAsync

open Http History Machine

/-! ### The signal -/

/-- The disposition of a signal. -/
inductive Disposition
  | dfl
  | ign
  | handler
  deriving DecidableEq, Repr

/-- What the kernel keeps about `SIGIO`. -/
structure Sigio where
  /-- Is it in the mask of blocked signals? -/
  blocked : Bool
  disposition : Disposition
  pending : Bool

namespace Sigio

/-- `SIGIO` is generated; the flag says whether it interrupts the process. -/
def generate (s : Sigio) : Sigio × Bool :=
  if s.blocked then ({ s with pending := true }, false)
  else
    match s.disposition with
    | .ign => (s, false)
    | .dfl | .handler => (s, true)

/-- `sigprocmask(SIG_BLOCK)`. -/
def block (s : Sigio) : Sigio := { s with blocked := true }

/-- `signal(SIGIO, SIG_IGN)`. -/
def ignore (s : Sigio) : Sigio := { s with disposition := .ign }

end Sigio

/-- The signal setup of `handle_connections_routine`. -/
def sigioSetup : Sigio := (Sigio.block ⟨false, .dfl, false⟩).ignore

/-! ### The system -/

/-- What `read` returned, when it was a `read`. -/
def Answer.result : Answer → Option ReadResult
  | .read r _ => some r
  | .write _ _ => none

/-- What the last `read` of a connection returned. -/
def History.lastRead (h : List Event) : Option ReadResult :=
  ((answers h).filterMap Answer.result).getLast?

/-- A worker, and what its kernel keeps for it. -/
structure System where
  worker : Worker
  sigio : Sigio
  /-- `O_ASYNC` and `F_SETSIG` are set on the socket of this `accept`. -/
  async : ℕ → Bool
  /-- The bytes that arrived on the socket of this `accept` and were not read. -/
  rx : ℕ → Bytes

namespace System

/-- The worker is alive. -/
def Alive (σ : System) : Prop := ∀ d, σ.worker.ctl ≠ .dead d

instance (σ : System) : Decidable σ.Alive :=
  match h : σ.worker.ctl with
  | .main => isTrue fun _ hd => Control.noConfusion (h.symm.trans hd)
  | .coro _ => isTrue fun _ hd => Control.noConfusion (h.symm.trans hd)
  | .dead d => isFalse fun ha => ha d h

/-- What `read` returns of the bytes that are there. -/
def answerRead (σ : System) (file : ℕ) : ReadResult → Option System
  | .data bs =>
    if bs <+: σ.rx file then
      some { σ with rx := Function.update σ.rx file ((σ.rx file).drop bs.length) }
    else none
  | .again | .eof => if σ.rx file = [] then some σ else none
  | .error => some σ

/-- What `epoll_pwait` returns at its entry, or when it wakes up. -/
def answerPoll (σ : System) (r : Worker.EpollResult) : Option System :=
  match σ.worker.phase with
  | .blocked => if r = .eintr then none else some { σ with sigio := σ.sigio.block }
  | _ =>
    match r with
    | .eintr =>
      if σ.sigio.pending then some { σ with sigio := { σ.sigio with pending := false } } else none
    | .timeout => if σ.sigio.pending then none else some σ
    | .ready .. | .error => some σ

/-- `set_async` of a coroutine that starts. -/
def answerResume (σ : System) : System :=
  match σ.worker.phase with
  | .pass (p :: _) => { σ with async := Function.update σ.async (σ.worker.heap p).inst true }
  | _ => σ

/-- What the kernel answers in a step of the worker. -/
def answer (σ : System) : Worker.WorkerOp → Option System
  | .co (.read r) => σ.worker.queue.currConn.bind fun p => σ.answerRead (σ.worker.heap p).inst r
  | .block =>
    if σ.sigio.pending then none else some { σ with sigio := { σ.sigio with blocked := false } }
  | .poll r => σ.answerPoll r
  | .resume true => some σ.answerResume
  | _ => some σ

/-- Can data arrive on the socket of this `accept`?  It is open, or still to be accepted. -/
def Receives (σ : System) (file : ℕ) : Prop :=
  σ.worker.accepted ≤ file ∨
    ∃ p ∈ σ.worker.queue.qconnList, (σ.worker.heap p).inst = file ∧ (σ.worker.heap p).isCompleted = false

instance (σ : System) (file : ℕ) : Decidable (σ.Receives file) :=
  inferInstanceAs (Decidable (_ ∨ _))

/-- `SIGIO` is generated for the worker. -/
def signal (σ : System) : Option System :=
  match σ.sigio.generate with
  | (sigio, false) => some { σ with sigio := sigio }
  | (sigio, true) =>
    -- only a worker in `epoll_pwait` has the signal unblocked
    (σ.worker.polled .eintr).map fun w => { σ with worker := w, sigio := sigio.block }

/-- Data arrive on the socket of this `accept`. -/
def arrive (σ : System) (file : ℕ) (bs : Bytes) : Option System :=
  if bs ≠ [] ∧ σ.Alive ∧ σ.Receives file then
    let σ := { σ with rx := Function.update σ.rx file (σ.rx file ++ bs) }
    if σ.async file then σ.signal else some σ
  else none

end System

/-- What happens in a system. -/
inductive SystemOp
  /-- Data arrive on the socket of this `accept`. -/
  | arrive (file : ℕ) (bs : Bytes)
  /-- The worker makes a step. -/
  | worker (t : Tick) (op : Worker.WorkerOp)

namespace System

/-- One step of a system. -/
def step (P : Platform) (σ : System) : SystemOp → Option System
  | .arrive file bs => σ.arrive file bs
  | .worker t op =>
    (σ.answer op).bind fun σ => (σ.worker.step P (t, op)).map fun w => { σ with worker := w }

/-- A system whose worker is at the head of its main loop for the first time. -/
def Starts (σ : System) : Prop :=
  ∃ heap mem outs w, Worker.init heap mem outs = some w ∧
    σ = ⟨w, sigioSetup, fun _ => false, fun _ => []⟩

/-- **No lost wake-up**: while the worker sleeps in `epoll_pwait`, no connection whose last `read`
returned `EAGAIN` has bytes to read.  (There were none at that `read`, so all there are came
later.) -/
def NoLostWakeup (σ : System) : Prop :=
  σ.worker.ctl = .main → σ.worker.phase = .blocked → ∀ p ∈ σ.worker.queue.qconnList,
    lastRead (σ.worker.heap p).hist = some .again → σ.rx (σ.worker.heap p).inst = []

/-- The step lets data arrive on a connection that waits for them, while the worker sleeps in
`epoll_pwait`. -/
def ArrivesAsleep (σ : System) : SystemOp → Prop
  | .arrive file _ => σ.worker.phase = .blocked ∧ ∃ p ∈ σ.worker.queue.qconnList,
      (σ.worker.heap p).inst = file ∧ lastRead (σ.worker.heap p).hist = some .again
  | .worker _ _ => False

instance (σ : System) : (op : SystemOp) → Decidable (σ.ArrivesAsleep op)
  | .arrive _ _ => inferInstanceAs (Decidable (_ ∧ _))
  | .worker _ _ => isFalse id

end System

end SrvAsync
